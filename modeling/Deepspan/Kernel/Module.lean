import Deepspan.Kernel.Minors

/-!
# Loading and unloading the module

`deepspan_init` and `deepspan_exit` around the probes and removals of `Minors.lean`: the region of
device numbers, the class, the driver on the virtio bus, and the files that processes hold open.
`init` may fail at each of its calls and unwinds through `err_class` and `err_chrdev`. The bus probes
devices from the time the driver is on it, so also while `register_virtio_driver` has not returned,
and `unregister_virtio_driver` returns when every device has been removed. An open file holds a
reference to the module, so that it is not unloaded.

A call whose precondition does not hold is recorded in `faults`: a probe or a removal without the
class or the region, and a class, a region or an allocator that is given up while something is left
in it. `module_lifecycle`: over any number of loads and unloads there is no fault, and whenever the
module is not loaded nothing is left of it.
-/

namespace Deepspan

open Transition

/-- Program points of `deepspan_init` and `deepspan_exit`. -/
inductive ModulePc where
  | unloaded
  | allocChrdevRegion
  | classCreate
  | virtioRegister
  /-- The driver is on the bus, and `register_virtio_driver` has not returned. -/
  | virtioAttach
  | errClass (ret : Errno)
  | errChrdev (ret : Errno)
  | loaded
  | virtioUnregister
  | classDestroy
  | unregisterChrdevRegion
  | idaDestroy
deriving DecidableEq, Repr

/-- A call that the kernel does not allow. -/
inductive ModuleFault where
  | noClass
  | noRegion
  | classInUse
  | regionInUse
  | idaInUse
deriving DecidableEq, Repr

/-- The module: what `deepspan_init` has acquired, what the devices have, and the open files, each
with the device it was opened for. `ret` is what `deepspan_init` has returned last. -/
structure Module where
  pc : ModulePc
  region : Bool
  cls : Bool
  hot : Hotplug
  files : List Nat
  ret : Option Errno
  faults : List ModuleFault
deriving DecidableEq, Repr

inductive ModuleAct where
  /-- `insmod` -/
  | load
  /-- The next call of `deepspan_init`, and the error that it returns, if any. -/
  | init (result : Option Errno)
  | probe (vdev : Nat) (env : ProbeEnv)
  | remove (vdev : Nat)
  /-- `deepspan_open` on the cdev of this device. -/
  | openFile (ptr : Nat)
  | release (ptr : Nat)
  /-- `rmmod` -/
  | unload
  /-- The next call of `deepspan_exit`. -/
  | exit

namespace Module

/-- Record a fault unless `ok`. -/
def check (m : Module) (ok : Bool) (fault : ModuleFault) : Module :=
  if ok then m else { m with faults := fault :: m.faults }

/-- The driver is on the bus. -/
def registered (m : Module) : Bool :=
  match m.pc with
  | .virtioAttach | .loaded => true
  | _ => false

/-- Whatever a probe or a removal does needs the class and the region. -/
def checkBound (m : Module) : Module := (m.check m.cls .noClass).check m.region .noRegion

/-- `deepspan_init` -/
def deepspanInit (m : Module) (result : Option Errno) : Option Module :=
  match m.pc, result with
  | .allocChrdevRegion, none => some { m with pc := .classCreate, region := true }
  | .allocChrdevRegion, some ret => some { m with pc := .unloaded, ret := some ret }
  | .classCreate, none => some { m with pc := .virtioRegister, cls := true }
  | .classCreate, some ret => some { m with pc := .errChrdev ret }
  | .virtioRegister, none => some { m with pc := .virtioAttach }
  | .virtioRegister, some ret => some { m with pc := .errClass ret }
  | .virtioAttach, none => some { m with pc := .loaded, ret := none }
  | .errClass ret, none =>
    some { m.check m.hot.classDevices.isEmpty .classInUse with pc := .errChrdev ret, cls := false }
  | .errChrdev ret, none =>
    some { m.check m.hot.cdevs.isEmpty .regionInUse with
      pc := .unloaded, region := false, ret := some ret }
  | _, _ => none

/-- `deepspan_exit`. `unregister_virtio_driver` returns when no device is left. -/
def deepspanExit (m : Module) : Option Module :=
  match m.pc with
  | .virtioUnregister => if m.hot.live.isEmpty then some { m with pc := .classDestroy } else none
  | .classDestroy =>
    some { m.check m.hot.classDevices.isEmpty .classInUse with
      pc := .unregisterChrdevRegion, cls := false }
  | .unregisterChrdevRegion =>
    some { m.check m.hot.cdevs.isEmpty .regionInUse with pc := .idaDestroy, region := false }
  | .idaDestroy => some { m.check m.hot.ida.isEmpty .idaInUse with pc := .unloaded }
  | _ => none

def step (m : Module) : ModuleAct → Option Module
  | .load => if m.pc = .unloaded then some { m with pc := .allocChrdevRegion } else none
  | .init result => m.deepspanInit result
  | .probe vdev env =>
    if m.registered then
      (hotplugStep m.hot (.probe vdev env)).map fun hot => { m.checkBound with hot := hot }
    else none
  | .remove vdev => (hotplugStep m.hot (.remove vdev)).map fun hot => { m.checkBound with hot := hot }
  | .openFile ptr =>
    -- `try_module_get` fails once the module is on its way out
    if m.registered ∧ ptr ∈ m.hot.cdevs.map Prod.fst then some { m with files := ptr :: m.files }
    else none
  | .release ptr => if ptr ∈ m.files then some { m with files := m.files.erase ptr } else none
  | .unload =>
    if m.pc = .loaded ∧ m.files = [] then some { m with pc := .virtioUnregister } else none
  | .exit => m.deepspanExit

/-- Before the first `insmod`. -/
def initial : Module := ⟨.unloaded, false, false, .empty, [], none, []⟩

end Module

def moduleSystem : System Module ModuleAct where
  init m := m = .initial
  step := Module.step

/-! ## The invariant -/

/-- The attributes belong to live devices. -/
def AttributesOk (k : Hotplug) : Prop := ∀ p ∈ k.attributes, p ∈ k.live.map Ddev.ptr

/-- Without devices there is nothing. -/
theorem HotplugOk.eq_empty {k : Hotplug} (hk : HotplugOk k) (hattrs : AttributesOk k)
    (h : k.live = []) : k = .empty := by
  have hnone : k.attributes = [] := by
    refine List.eq_nil_iff_forall_not_mem.mpr fun p hp => ?_
    have hmem := hattrs p hp
    rw [h] at hmem
    cases hmem
  obtain ⟨ida, cdevs, classDevices, attributes, vqs, allocs, live⟩ := k
  cases h
  cases hnone
  cases hk.ida
  cases hk.cdevs
  cases hk.classDevices
  cases hk.vqs
  cases hk.allocs
  rfl

theorem cdevAdd_attributes (k : Hotplug) (ptr : Nat) (env : ProbeEnv) :
    (k.deepspanCdevAdd ptr env).2.attributes = k.attributes := by
  unfold Hotplug.deepspanCdevAdd
  cases env.minor with
  | error _ => rfl
  | ok _ =>
    cases env.cdevAdd with
    | some _ => rfl
    | none => cases env.deviceCreate <;> rfl

/-- A probe adds the attributes of the device that it succeeds for, at most. -/
theorem probe_attributes {k : Hotplug} {vdev : Nat} {env : ProbeEnv} {d : Ddev}
    (h : (k.deepspanVirtioProbe vdev env).1 = .ok d) {p : Nat}
    (hp : p ∈ (k.deepspanVirtioProbe vdev env).2.attributes) : p = d.ptr ∨ p ∈ k.attributes := by
  unfold Hotplug.deepspanVirtioProbe at h hp
  cases hd : env.ddev with
  | none =>
    simp only [hd] at h
    cases h
  | some ptr =>
    cases hv : env.findVqs with
    | some e =>
      simp only [hd, hv] at h
      cases h
    | none =>
      simp only [hd, hv] at h hp
      have hadd := cdevAdd_attributes
        { k with allocs := ptr :: k.allocs, vqs := vdev :: k.vqs } ptr env
      generalize Hotplug.deepspanCdevAdd _ ptr env = result at h hp hadd
      obtain ⟨ret, k'⟩ := result
      cases ret with
      | error e => cases h
      | ok minor =>
        cases h
        simp only at hp hadd
        split at hp
        · rw [← hadd]
          exact List.mem_cons.mp hp
        · rw [hadd] at hp
          exact .inr hp

theorem AttributesOk.step {k k' : Hotplug} {a : HotplugAct} (h : AttributesOk k) (hk : HotplugOk k)
    (hs : hotplugStep k a = some k') : AttributesOk k' := by
  cases a with
  | probe vdev env =>
    simp only [hotplugStep] at hs
    split at hs
    · next hlegal =>
      cases hs
      have hcase := probe_cases hk hlegal
      have hattrs (d : Ddev) := @probe_attributes k vdev env d
      generalize k.deepspanVirtioProbe vdev env = result at hcase hattrs ⊢
      cases hcase with
      | failed _ => exact h
      | probed ptr minor attributes _ _ =>
        intro p hp
        rcases hattrs _ rfl hp with rfl | hp
        · exact List.mem_cons_self
        · exact List.mem_cons_of_mem _ (h p hp)
    · cases hs
  | remove vdev =>
    obtain ⟨d, hfind, rfl⟩ := Option.map_eq_some_iff.mp hs
    intro p hp
    obtain ⟨hp, hne⟩ := List.mem_filter.mp hp
    obtain ⟨e, he, rfl⟩ := List.mem_map.mp (h p hp)
    -- the attributes that are left belong to another device
    refine List.mem_map_of_mem ((List.mem_erase_of_ne ?_).mpr he)
    rintro rfl
    exact absurd rfl (bne_iff_ne.mp hne)

/-- What is there at each point of the two functions. -/
def StageOk (m : Module) : Prop :=
  match m.pc with
  | .unloaded | .allocChrdevRegion | .idaDestroy =>
    m.region = false ∧ m.cls = false ∧ m.hot = .empty
  | .classCreate | .errChrdev _ | .unregisterChrdevRegion =>
    m.region = true ∧ m.cls = false ∧ m.hot = .empty
  | .virtioRegister | .errClass _ | .classDestroy => m.region = true ∧ m.cls = true ∧ m.hot = .empty
  | .virtioAttach | .loaded | .virtioUnregister => m.region = true ∧ m.cls = true

structure ModuleOk (m : Module) : Prop where
  hot : HotplugOk m.hot
  attributes : AttributesOk m.hot
  stage : StageOk m
  files : m.files ≠ [] → m.registered = true
  faults : m.faults = []

/-- Devices are there only while the module has the class and the region. -/
theorem ModuleOk.bound {m : Module} (h : ModuleOk m) (hlive : m.hot.live ≠ []) :
    m.region = true ∧ m.cls = true := by
  have hne : m.hot ≠ .empty := fun heq => hlive (by rw [heq]; rfl)
  have hstage := h.stage
  unfold StageOk at hstage
  cases hp : m.pc with
  | virtioAttach | loaded | virtioUnregister =>
    simp only [hp] at hstage
    exact hstage
  | _ =>
    simp only [hp] at hstage
    exact absurd hstage.2.2 hne

theorem checkBound_eq {m : Module} (h : m.region = true ∧ m.cls = true) : m.checkBound = m := by
  simp only [Module.checkBound, Module.check, h.1, h.2, if_true]

/-! ## Every step keeps it -/

variable {m m' : Module}

/-- Probes and removals. -/
theorem ModuleOk.hotplug (h : ModuleOk m) (hbound : m.region = true ∧ m.cls = true)
    (hstage : ∀ hot, StageOk { m with hot := hot }) {a : HotplugAct} {hot : Hotplug}
    (hs : hotplugStep m.hot a = some hot) : ModuleOk { m.checkBound with hot := hot } := by
  rw [checkBound_eq hbound]
  exact ⟨h.hot.step hs, h.attributes.step h.hot hs, hstage hot, h.files, h.faults⟩

theorem ModuleOk.deepspanInit (h : ModuleOk m) {result : Option Errno}
    (hs : m.deepspanInit result = some m') : ModuleOk m' := by
  obtain ⟨hhot, hattrs, hstage, hfiles, hfaults⟩ := h
  unfold StageOk at hstage
  unfold Module.registered at hfiles
  unfold Module.deepspanInit at hs
  cases hp : m.pc with
  | allocChrdevRegion =>
    simp only [hp] at hs hstage hfiles
    cases result with
    | none =>
      cases hs
      exact ⟨hhot, hattrs, ⟨rfl, hstage.2⟩, hfiles, hfaults⟩
    | some ret =>
      cases hs
      exact ⟨hhot, hattrs, hstage, hfiles, hfaults⟩
  | classCreate =>
    simp only [hp] at hs hstage hfiles
    cases result with
    | none =>
      cases hs
      exact ⟨hhot, hattrs, ⟨hstage.1, rfl, hstage.2.2⟩, hfiles, hfaults⟩
    | some ret =>
      cases hs
      exact ⟨hhot, hattrs, hstage, hfiles, hfaults⟩
  | virtioRegister =>
    simp only [hp] at hs hstage hfiles
    cases result with
    | none =>
      cases hs
      exact ⟨hhot, hattrs, ⟨hstage.1, hstage.2.1⟩, fun _ => rfl, hfaults⟩
    | some ret =>
      cases hs
      exact ⟨hhot, hattrs, hstage, hfiles, hfaults⟩
  | virtioAttach =>
    simp only [hp] at hs hstage
    cases result with
    | none =>
      cases hs
      exact ⟨hhot, hattrs, hstage, fun _ => rfl, hfaults⟩
    | some ret => cases hs
  | errClass ret =>
    simp only [hp] at hs hstage hfiles
    cases result with
    | none =>
      have hempty : m.hot.classDevices.isEmpty = true := by
        rw [hstage.2.2]
        rfl
      simp only [Module.check, hempty, if_true] at hs
      cases hs
      exact ⟨hhot, hattrs, ⟨hstage.1, rfl, hstage.2.2⟩, hfiles, hfaults⟩
    | some _ => cases hs
  | errChrdev ret =>
    simp only [hp] at hs hstage hfiles
    cases result with
    | none =>
      have hempty : m.hot.cdevs.isEmpty = true := by
        rw [hstage.2.2]
        rfl
      simp only [Module.check, hempty, if_true] at hs
      cases hs
      exact ⟨hhot, hattrs, ⟨rfl, hstage.2⟩, hfiles, hfaults⟩
    | some _ => cases hs
  | _ =>
    simp only [hp] at hs
    cases hs

theorem ModuleOk.deepspanExit (h : ModuleOk m) (hs : m.deepspanExit = some m') : ModuleOk m' := by
  obtain ⟨hhot, hattrs, hstage, hfiles, hfaults⟩ := h
  unfold StageOk at hstage
  unfold Module.registered at hfiles
  unfold Module.deepspanExit at hs
  cases hp : m.pc with
  | virtioUnregister =>
    simp only [hp] at hs hstage hfiles
    split at hs
    · next hlive =>
      cases hs
      have hempty := hhot.eq_empty hattrs (List.isEmpty_iff.mp hlive)
      exact ⟨hhot, hattrs, ⟨hstage.1, hstage.2, hempty⟩, hfiles, hfaults⟩
    · cases hs
  | classDestroy =>
    simp only [hp] at hs hstage hfiles
    have hempty : m.hot.classDevices.isEmpty = true := by
      rw [hstage.2.2]
      rfl
    simp only [Module.check, hempty, if_true] at hs
    cases hs
    exact ⟨hhot, hattrs, ⟨hstage.1, rfl, hstage.2.2⟩, hfiles, hfaults⟩
  | unregisterChrdevRegion =>
    simp only [hp] at hs hstage hfiles
    have hempty : m.hot.cdevs.isEmpty = true := by
      rw [hstage.2.2]
      rfl
    simp only [Module.check, hempty, if_true] at hs
    cases hs
    exact ⟨hhot, hattrs, ⟨rfl, hstage.2⟩, hfiles, hfaults⟩
  | idaDestroy =>
    simp only [hp] at hs hstage hfiles
    have hempty : m.hot.ida.isEmpty = true := by
      rw [hstage.2.2]
      rfl
    simp only [Module.check, hempty, if_true] at hs
    cases hs
    exact ⟨hhot, hattrs, hstage, hfiles, hfaults⟩
  | _ =>
    simp only [hp] at hs
    cases hs

/-- Where devices may come and go, the stage says nothing about them. -/
theorem stageOk_hot (hstage : StageOk m)
    (hpc : m.pc = .virtioAttach ∨ m.pc = .loaded ∨ m.pc = .virtioUnregister) (hot : Hotplug) :
    StageOk { m with hot := hot } := by
  unfold StageOk at hstage ⊢
  rcases hpc with hp | hp | hp <;>
  · simp only [hp] at hstage ⊢
    exact hstage

theorem ModuleOk.pc_of_live (h : ModuleOk m) (hlive : m.hot.live ≠ []) :
    m.pc = .virtioAttach ∨ m.pc = .loaded ∨ m.pc = .virtioUnregister := by
  have hne : m.hot ≠ .empty := fun heq => hlive (by rw [heq]; rfl)
  have hstage := h.stage
  unfold StageOk at hstage
  cases hp : m.pc with
  | virtioAttach => exact .inl rfl
  | loaded => exact .inr (.inl rfl)
  | virtioUnregister => exact .inr (.inr rfl)
  | _ =>
    simp only [hp] at hstage
    exact absurd hstage.2.2 hne

theorem pc_of_registered (h : m.registered = true) : m.pc = .virtioAttach ∨ m.pc = .loaded := by
  unfold Module.registered at h
  split at h
  · next hp => exact .inl hp
  · next hp => exact .inr hp
  · cases h

theorem ModuleOk.step (h : ModuleOk m) {a : ModuleAct} (hs : m.step a = some m') : ModuleOk m' := by
  cases a with
  | load =>
    simp only [Module.step] at hs
    split at hs
    · next hp =>
      cases hs
      obtain ⟨hhot, hattrs, hstage, hfiles, hfaults⟩ := h
      simp only [StageOk, Module.registered, hp] at hstage hfiles
      exact ⟨hhot, hattrs, hstage, hfiles, hfaults⟩
    · cases hs
  | init result => exact h.deepspanInit hs
  | probe vdev env =>
    simp only [Module.step] at hs
    split at hs
    · next hreg =>
      obtain ⟨hot, hhot, rfl⟩ := Option.map_eq_some_iff.mp hs
      have hpc := pc_of_registered hreg
      have hbound : m.region = true ∧ m.cls = true := by
        have hstage := h.stage
        unfold StageOk at hstage
        rcases hpc with hp | hp <;> simp only [hp] at hstage <;> exact hstage
      exact h.hotplug hbound (stageOk_hot h.stage (hpc.imp_right .inl)) hhot
    · cases hs
  | remove vdev =>
    obtain ⟨hot, hhot, rfl⟩ := Option.map_eq_some_iff.mp hs
    have hlive : m.hot.live ≠ [] := by
      obtain ⟨d, hfind, _⟩ := Option.map_eq_some_iff.mp hhot
      exact List.ne_nil_of_mem (List.mem_of_find?_eq_some hfind)
    exact h.hotplug (h.bound hlive) (stageOk_hot h.stage (h.pc_of_live hlive)) hhot
  | openFile ptr =>
    simp only [Module.step] at hs
    split at hs
    · next hopen =>
      cases hs
      exact ⟨h.hot, h.attributes, h.stage, fun _ => hopen.1, h.faults⟩
    · cases hs
  | release ptr =>
    simp only [Module.step] at hs
    split at hs
    · next hmem =>
      cases hs
      exact ⟨h.hot, h.attributes, h.stage, fun _ => h.files (List.ne_nil_of_mem hmem), h.faults⟩
    · cases hs
  | unload =>
    simp only [Module.step] at hs
    split at hs
    · next hidle =>
      cases hs
      obtain ⟨hhot, hattrs, hstage, _, hfaults⟩ := h
      simp only [StageOk, hidle.1] at hstage
      exact ⟨hhot, hattrs, hstage, fun hne => absurd hidle.2 hne, hfaults⟩
    · cases hs
  | exit => exact h.deepspanExit hs

theorem moduleOk_initial : ModuleOk .initial where
  hot := hotplugOk_empty
  attributes := fun p hp => by cases hp
  stage := ⟨rfl, rfl, rfl⟩
  files := fun hne => absurd rfl hne
  faults := rfl

/-- Over any number of loads, failed loads and unloads, with devices coming and going: the class, the
region and the allocator are never used when they are not there nor given up while they are in use; a
device or an open file is there only while the module is; and a module that is not loaded has given
back all that it had. -/
theorem module_lifecycle (h : Reach moduleSystem (fun _ _ => True) m) :
    m.faults = [] ∧ (m.hot.live ≠ [] → m.region = true ∧ m.cls = true) ∧
    (m.files ≠ [] → m.registered = true) ∧
    (m.pc = .unloaded → m = { Module.initial with ret := m.ret }) := by
  have hok : ModuleOk m := by
    refine h.invariant ?_ fun m a m' hok _ hs => hok.step hs
    rintro m rfl
    exact moduleOk_initial
  refine ⟨hok.faults, hok.bound, hok.files, fun hp => ?_⟩
  obtain ⟨_, _, hstage, hfiles, hfaults⟩ := hok
  simp only [StageOk, Module.registered, hp] at hstage hfiles
  have hnone : m.files = [] := by
    cases hf : m.files with
    | nil => rfl
    | cons p l =>
      have hfalse := hfiles (by rw [hf]; exact List.cons_ne_nil p l)
      cases hfalse
  obtain ⟨pc, region, cls, hot, files, ret, faults⟩ := m
  cases hp
  cases hstage.1
  cases hstage.2.1
  cases hstage.2.2
  cases hnone
  cases hfaults
  rfl

/-- A load that fails at the virtio bus, and a second one, with a device that is probed and opened
while the bus still attaches the driver. -/
def loadTwice : List ModuleAct :=
  [.load, .init none, .init none, .init (some .ebusy), .init none, .init none,
   .load, .init none, .init none, .init none,
   .probe 7 ⟨some 100, none, .ok 0, none, none, none⟩, .openFile 100, .init none]

def loadedModule : Module where
  pc := .loaded
  region := true
  cls := true
  hot := ⟨[0], [(100, 0)], [0], [100], [7], [100], [⟨100, 7, 0⟩]⟩
  files := [100]
  ret := none
  faults := []

theorem loadTwice_run :
    replay moduleSystem (fun _ _ => true) .initial loadTwice = some loadedModule := by
  decide

theorem unload_run : replay moduleSystem (fun _ _ => true) loadedModule
    [.release 100, .unload, .remove 7, .exit, .exit, .exit, .exit] = some .initial := by
  decide

theorem module_lifecycle_loadTwice :
    (loadedModule.region = true ∧ loadedModule.cls = true) ∧ loadedModule.registered = true ∧
    Module.initial = { Module.initial with ret := none } := by
  have hreach : Reach moduleSystem (fun _ _ => True) loadedModule :=
    replay_reach (fun _ _ _ => trivial) (.init rfl) loadTwice_run
  have hloaded := module_lifecycle hreach
  have hunloaded := module_lifecycle (replay_reach (fun _ _ _ => trivial) hreach unload_run)
  exact ⟨hloaded.2.1 (by decide), hloaded.2.2.1 (by decide), hunloaded.2.2.2 rfl⟩

end Deepspan
