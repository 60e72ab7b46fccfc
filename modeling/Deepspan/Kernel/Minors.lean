import Mathlib.Data.List.Nodup
import Deepspan.Kernel.IssueFailures

/-!
# Minors across hot-plug

`deepspan_virtio_probe` and `deepspan_virtio_remove` with what they acquire and give back:
the numbers of `deepspan_ida`, the cdevs, the devices of `deepspan_class`, the virtqueues
and the allocations. A probe may fail at any of its steps; it then unwinds through the error
paths of `deepspan_cdev_add` and its own.

`probe_cases` says all that a probe can do: it adds a device with everything that belongs to
it, or it fails and the state is what it was. So at every time each list is the list of what
the live devices have (`HotplugOk`).
-/

namespace Deepspan

open Transition

/-! ## The driver's objects -/

/-- `DEEPSPAN_MAX_DEVICES`. -/
def maxDevices : Nat := 16

/-- `struct deepspan_device`, as far as the probe sets it up: where it is allocated, the
virtio device that has it as `priv`, and its minor. -/
structure Ddev where
  ptr : Nat
  vdev : Nat
  minor : Nat
deriving DecidableEq, Repr

/-- What the driver has acquired from the kernel: the numbers of `deepspan_ida`; the cdevs,
each with the `deepspan_device` it is embedded in and its minor; the devices of
`deepspan_class` by their minor; the `deepspan_device`s with the attributes of
`deepspan_dev_groups`; the virtio devices with virtqueues; the allocations. `live` holds the
devices that a probe has succeeded for, what `vdev->priv` points to. -/
structure Hotplug where
  ida : List Nat
  cdevs : List (Nat × Nat)
  classDevices : List Nat
  attributes : List Nat
  vqs : List Nat
  allocs : List Nat
  live : List Ddev
deriving DecidableEq, Repr

namespace Hotplug

/-- After `deepspan_init`. -/
def empty : Hotplug := ⟨[], [], [], [], [], [], []⟩

/-- `ida_free`. -/
def idaFree (k : Hotplug) (minor : Nat) : Hotplug := { k with ida := k.ida.filter (· != minor) }

/-- `cdev_del`. -/
def cdevDel (k : Hotplug) (ptr : Nat) : Hotplug :=
  { k with cdevs := k.cdevs.filter (·.1 != ptr) }

/-- `device_destroy`. -/
def deviceDestroy (k : Hotplug) (minor : Nat) : Hotplug :=
  { k with classDevices := k.classDevices.filter (· != minor) }

/-- `deepspan_sysfs_exit`. -/
def deepspanSysfsExit (k : Hotplug) (ptr : Nat) : Hotplug :=
  { k with attributes := k.attributes.filter (· != ptr) }

/-- `vdev->config->del_vqs`. -/
def delVqs (k : Hotplug) (vdev : Nat) : Hotplug := { k with vqs := k.vqs.filter (· != vdev) }

/-- `kfree`. -/
def kfree (k : Hotplug) (ptr : Nat) : Hotplug := { k with allocs := k.allocs.filter (· != ptr) }

end Hotplug

/-! ## Probe and remove -/

/-- What the functions that a probe calls return: `kzalloc` a pointer, `ida_alloc_range` a
number or a (negative) error, the others nothing or an error. -/
structure ProbeEnv where
  ddev : Option Nat
  findVqs : Option Errno
  minor : Except Errno Nat
  cdevAdd : Option Errno
  deviceCreate : Option Errno
  sysfsInit : Option Errno

namespace Hotplug

/-- `deepspan_cdev_add`; it has left the minor in `ddev->minor`. -/
def deepspanCdevAdd (k : Hotplug) (ptr : Nat) (env : ProbeEnv) : Except Errno Nat × Hotplug :=
  match env.minor with
  | .error e => (.error e, k)
  | .ok minor =>
    let k := { k with ida := minor :: k.ida }
    match env.cdevAdd with
    | some e => (.error e, k.idaFree minor)
    | none =>
      let k := { k with cdevs := (ptr, minor) :: k.cdevs }
      match env.deviceCreate with
      | some e => (.error e, (k.cdevDel ptr).idaFree minor)
      | none => (.ok minor, { k with classDevices := minor :: k.classDevices })

/-- `deepspan_virtio_probe`. A failure of `deepspan_sysfs_init` is not fatal. -/
def deepspanVirtioProbe (k : Hotplug) (vdev : Nat) (env : ProbeEnv) :
    Except Errno Ddev × Hotplug :=
  match env.ddev with
  | none => (.error .enomem, k)
  | some ptr =>
    let k := { k with allocs := ptr :: k.allocs }
    match env.findVqs with
    -- err_free
    | some e => (.error e, k.kfree ptr)
    | none =>
      let k := { k with vqs := vdev :: k.vqs }
      match k.deepspanCdevAdd ptr env with
      -- err_vqs
      | (.error e, k) => (.error e, (k.delVqs vdev).kfree ptr)
      | (.ok minor, k) =>
        let k := if env.sysfsInit = none then { k with attributes := ptr :: k.attributes } else k
        let ddev : Ddev := ⟨ptr, vdev, minor⟩
        (.ok ddev, { k with live := ddev :: k.live })

/-- `deepspan_cdev_del`. -/
def deepspanCdevDel (k : Hotplug) (ddev : Ddev) : Hotplug :=
  ((k.deviceDestroy ddev.minor).cdevDel ddev.ptr).idaFree ddev.minor

/-- `deepspan_virtio_remove`, where `vdev->priv` is `ddev`. -/
def deepspanVirtioRemove (k : Hotplug) (ddev : Ddev) : Hotplug :=
  let k := (k.deepspanSysfsExit ddev.ptr).deepspanCdevDel ddev
  let k := (k.delVqs ddev.vdev).kfree ddev.ptr
  { k with live := k.live.erase ddev }

end Hotplug

/-- What the rest of the kernel keeps to: a device is not probed while it is bound,
`kzalloc` returns memory that is not in use, and `ida_alloc_range` a number of
`0 .. DEEPSPAN_MAX_DEVICES - 1` that is not in use. -/
def ProbeEnv.Legal (k : Hotplug) (vdev : Nat) (env : ProbeEnv) : Prop :=
  (∀ d ∈ k.live, d.vdev ≠ vdev) ∧ (∀ p ∈ env.ddev, p ∉ k.allocs) ∧
    ∀ m ∈ env.minor.toOption, m ≤ maxDevices - 1 ∧ m ∉ k.ida

instance (k : Hotplug) (vdev : Nat) (env : ProbeEnv) : Decidable (env.Legal k vdev) :=
  inferInstanceAs (Decidable (_ ∧ _ ∧ _))

inductive HotplugAct where
  | probe (vdev : Nat) (env : ProbeEnv)
  | remove (vdev : Nat)

def hotplugStep (k : Hotplug) : HotplugAct → Option Hotplug
  | .probe vdev env => if env.Legal k vdev then some (k.deepspanVirtioProbe vdev env).2 else none
  | .remove vdev => (k.live.find? (·.vdev == vdev)).map k.deepspanVirtioRemove

/-- Every sequence of probes and removals. -/
def hotplugSystem : System Hotplug HotplugAct where
  init k := k = .empty
  step := hotplugStep

/-! ## What a probe can do -/

/-- Each list holds what the live devices have, and no two of them share anything. -/
structure HotplugOk (k : Hotplug) : Prop where
  ida : k.ida = k.live.map Ddev.minor
  cdevs : k.cdevs = k.live.map fun d => (d.ptr, d.minor)
  classDevices : k.classDevices = k.live.map Ddev.minor
  vqs : k.vqs = k.live.map Ddev.vdev
  allocs : k.allocs = k.live.map Ddev.ptr
  minors : (k.live.map Ddev.minor).Nodup
  vdevs : (k.live.map Ddev.vdev).Nodup
  ptrs : (k.live.map Ddev.ptr).Nodup
  range : ∀ d ∈ k.live, d.minor < maxDevices

/-- Giving back what has just been acquired. -/
theorem filter_cons_key {α β : Type} [DecidableEq β] {f : α → β} {a : α} {l : List α}
    (h : f a ∉ l.map f) : (a :: l).filter (fun x => f x != f a) = l := by
  rw [List.filter_cons_of_neg (by simp)]
  refine List.filter_eq_self.mpr fun x hx => ?_
  have hne : f x ≠ f a := fun heq => h (heq ▸ List.mem_map_of_mem hx)
  simpa using hne

theorem filter_cons_ne {a : Nat} {l : List Nat} (h : a ∉ l) : (a :: l).filter (· != a) = l :=
  filter_cons_key (f := id) (by simpa using h)

variable {k k' : Hotplug} {vdev ptr : Nat} {env : ProbeEnv}

/-- `deepspan_cdev_add` leaves nothing behind when it fails. -/
inductive CdevAddCase (k : Hotplug) (ptr : Nat) (env : ProbeEnv) :
    Except Errno Nat × Hotplug → Prop
  | failed (e : Errno) : CdevAddCase k ptr env (.error e, k)
  | added (minor : Nat) : env.minor = .ok minor →
      CdevAddCase k ptr env (.ok minor, { k with
        ida := minor :: k.ida
        cdevs := (ptr, minor) :: k.cdevs
        classDevices := minor :: k.classDevices })

theorem deepspanCdevAdd_cases (env : ProbeEnv) (hptr : ptr ∉ k.cdevs.map Prod.fst)
    (hminor : ∀ m ∈ env.minor.toOption, m ∉ k.ida) :
    CdevAddCase k ptr env (k.deepspanCdevAdd ptr env) := by
  unfold Hotplug.deepspanCdevAdd
  cases hm : env.minor with
  | error e => exact .failed e
  | ok minor =>
    have hida : (minor :: k.ida).filter (· != minor) = k.ida :=
      filter_cons_ne (hminor minor (by rw [hm]; rfl))
    cases env.cdevAdd with
    | some e =>
      simp only [Hotplug.idaFree, hida]
      exact .failed e
    | none =>
      cases env.deviceCreate with
      | some e =>
        have hcdev := filter_cons_key (f := Prod.fst) (a := (ptr, minor)) hptr
        simp only [Hotplug.idaFree, Hotplug.cdevDel, hida, hcdev]
        exact .failed e
      | none => exact .added minor hm

/-- All that a probe can do. -/
inductive ProbeCase (k : Hotplug) (vdev : Nat) (env : ProbeEnv) :
    Except Errno Ddev × Hotplug → Prop
  | failed (e : Errno) : ProbeCase k vdev env (.error e, k)
  | probed (ptr minor : Nat) (attributes : List Nat) : env.ddev = some ptr →
      env.minor = .ok minor →
      ProbeCase k vdev env (.ok ⟨ptr, vdev, minor⟩, {
        ida := minor :: k.ida
        cdevs := (ptr, minor) :: k.cdevs
        classDevices := minor :: k.classDevices
        attributes := attributes
        vqs := vdev :: k.vqs
        allocs := ptr :: k.allocs
        live := ⟨ptr, vdev, minor⟩ :: k.live })

theorem probe_cases (hk : HotplugOk k) (hlegal : env.Legal k vdev) :
    ProbeCase k vdev env (k.deepspanVirtioProbe vdev env) := by
  obtain ⟨hvdev, hfresh, hminor⟩ := hlegal
  unfold Hotplug.deepspanVirtioProbe
  cases hd : env.ddev with
  | none => exact .failed .enomem
  | some ptr =>
    have hptr : ptr ∉ k.allocs := hfresh ptr hd
    have hfree : (ptr :: k.allocs).filter (· != ptr) = k.allocs := filter_cons_ne hptr
    cases env.findVqs with
    | some e =>
      simp only [Hotplug.kfree, hfree]
      exact .failed e
    | none =>
      have hvqs : vdev ∉ k.vqs := by
        rw [hk.vqs]
        intro hmem
        obtain ⟨d, hd, heq⟩ := List.mem_map.mp hmem
        exact hvdev d hd heq
      have hcdevs : ptr ∉ k.cdevs.map Prod.fst := by
        rw [hk.cdevs, List.map_map]
        rwa [hk.allocs] at hptr
      have hadd := deepspanCdevAdd_cases
        (k := { k with allocs := ptr :: k.allocs, vqs := vdev :: k.vqs }) env hcdevs
        fun m hm => (hminor m hm).2
      simp only
      generalize Hotplug.deepspanCdevAdd _ ptr env = result at hadd ⊢
      cases hadd with
      | failed e =>
        simp only [Hotplug.delVqs, Hotplug.kfree, filter_cons_ne hvqs, hfree]
        exact .failed e
      | added minor hm =>
        cases env.sysfsInit with
        | none => exact .probed ptr minor (ptr :: k.attributes) hd hm
        | some _ => exact .probed ptr minor k.attributes hd hm

/-- A probe that has succeeded. -/
theorem HotplugOk.probed (hk : HotplugOk k) (hlegal : env.Legal k vdev) {minor : Nat}
    (hd : env.ddev = some ptr) (hm : env.minor = .ok minor) (attributes : List Nat) :
    HotplugOk {
      ida := minor :: k.ida
      cdevs := (ptr, minor) :: k.cdevs
      classDevices := minor :: k.classDevices
      attributes := attributes
      vqs := vdev :: k.vqs
      allocs := ptr :: k.allocs
      live := ⟨ptr, vdev, minor⟩ :: k.live } := by
  obtain ⟨hvdev, hfresh, hminor⟩ := hlegal
  have hptr : ptr ∉ k.allocs := hfresh ptr hd
  obtain ⟨hle, hunused⟩ := hminor minor (by rw [hm]; rfl)
  have hbound : vdev ∉ k.live.map Ddev.vdev := by
    intro hmem
    obtain ⟨d, hd, heq⟩ := List.mem_map.mp hmem
    exact hvdev d hd heq
  exact {
    ida := by rw [hk.ida]; rfl
    cdevs := by rw [hk.cdevs]; rfl
    classDevices := by rw [hk.classDevices]; rfl
    vqs := by rw [hk.vqs]; rfl
    allocs := by rw [hk.allocs]; rfl
    minors := List.nodup_cons.mpr ⟨hk.ida ▸ hunused, hk.minors⟩
    vdevs := List.nodup_cons.mpr ⟨hbound, hk.vdevs⟩
    ptrs := List.nodup_cons.mpr ⟨hk.allocs ▸ hptr, hk.ptrs⟩
    range := List.forall_mem_cons.mpr ⟨Nat.lt_of_le_sub_one (by decide) hle, hk.range⟩ }

/-! ## What a removal does -/

/-- What a device has, taken out of the list of what all have. -/
theorem map_erase_eq_filter {α β γ : Type} [DecidableEq α] [DecidableEq γ] {g : α → β} {f : β → γ}
    {l : List α} {a : α} (h : (l.map fun x => f (g x)).Nodup) (ha : a ∈ l) :
    (l.map g).filter (fun y => f y != f (g a)) = (l.erase a).map g := by
  rw [List.filter_map, (List.Nodup.of_map _ h).erase_eq_filter]
  congr 1
  refine List.filter_congr fun x hx => ?_
  by_cases hxa : x = a
  · simp [hxa]
  · have hne : f (g x) ≠ f (g a) := fun heq => hxa (List.inj_on_of_nodup_map h hx ha heq)
    exact (bne_iff_ne.mpr hne).trans (bne_iff_ne.mpr hxa).symm

theorem HotplugOk.removed (hk : HotplugOk k) {d : Ddev} (hd : d ∈ k.live) :
    HotplugOk (k.deepspanVirtioRemove d) where
  ida := (congrArg _ hk.ida).trans (map_erase_eq_filter (f := id) hk.minors hd)
  cdevs := (congrArg _ hk.cdevs).trans
    (map_erase_eq_filter (f := Prod.fst) (g := fun d : Ddev => (d.ptr, d.minor)) hk.ptrs hd)
  classDevices := (congrArg _ hk.classDevices).trans (map_erase_eq_filter (f := id) hk.minors hd)
  vqs := (congrArg _ hk.vqs).trans (map_erase_eq_filter (f := id) hk.vdevs hd)
  allocs := (congrArg _ hk.allocs).trans (map_erase_eq_filter (f := id) hk.ptrs hd)
  minors := hk.minors.sublist (List.erase_sublist.map _)
  vdevs := hk.vdevs.sublist (List.erase_sublist.map _)
  ptrs := hk.ptrs.sublist (List.erase_sublist.map _)
  range := fun e he => hk.range e (List.mem_of_mem_erase he)

/-! ## Every sequence of hot-plug events -/

theorem hotplugOk_empty : HotplugOk .empty where
  ida := rfl
  cdevs := rfl
  classDevices := rfl
  vqs := rfl
  allocs := rfl
  minors := .nil
  vdevs := .nil
  ptrs := .nil
  range := fun _ hd => by cases hd

theorem HotplugOk.step (hk : HotplugOk k) {a : HotplugAct} (hs : hotplugStep k a = some k') :
    HotplugOk k' := by
  cases a with
  | probe vdev env =>
    simp only [hotplugStep] at hs
    split at hs
    · next hlegal =>
      cases hs
      have hcase := probe_cases hk hlegal
      generalize k.deepspanVirtioProbe vdev env = result at hcase ⊢
      cases hcase with
      | failed _ => exact hk
      | probed ptr minor attributes hd hm => exact hk.probed hlegal hd hm attributes
    · cases hs
  | remove vdev =>
    obtain ⟨d, hfind, rfl⟩ := Option.map_eq_some_iff.mp hs
    exact hk.removed (List.mem_of_find?_eq_some hfind)

theorem reach_hotplugOk (h : Reach hotplugSystem (fun _ _ => True) k) : HotplugOk k :=
  h.invariant (fun _ h0 => Eq.subst (Eq.symm h0) hotplugOk_empty) fun _ _ _ hk _ hs => hk.step hs

/-- The allocated minors are those of the live devices, one each of `0 .. 15`; and a probe
that fails leaves the state as it was. -/
theorem minors_of_live_devices (h : Reach hotplugSystem (fun _ _ => True) k) :
    (∀ m, m ∈ k.ida ↔ ∃ d ∈ k.live, d.minor = m) ∧
    k.live.Pairwise (fun d e => d.minor ≠ e.minor) ∧
    (∀ d ∈ k.live, d.minor ≤ 15) ∧
    ∀ vdev env e, env.Legal k vdev → (k.deepspanVirtioProbe vdev env).1 = .error e →
      let k' := (k.deepspanVirtioProbe vdev env).2
      k'.ida = k.ida ∧ k'.cdevs = k.cdevs ∧ k'.classDevices = k.classDevices ∧ k'.vqs = k.vqs := by
  have hk := reach_hotplugOk h
  refine ⟨fun m => ?_, List.pairwise_map.mp hk.minors, fun d hd => Nat.le_of_lt_succ (hk.range d hd),
    fun vdev env e hlegal hfail => ?_⟩
  · rw [hk.ida]
    exact List.mem_map
  · have hcase := probe_cases hk hlegal
    generalize k.deepspanVirtioProbe vdev env = result at hcase hfail ⊢
    cases hcase with
    | failed _ => exact ⟨rfl, rfl, rfl, rfl⟩
    | probed ptr minor attributes _ _ => cases hfail

/-- Two devices are probed, a third probe gets a minor and fails at `device_create`, and the
first device is removed. -/
def hotplugEvents : List HotplugAct :=
  [.probe 7 ⟨some 100, none, .ok 0, none, none, none⟩,
   .probe 8 ⟨some 101, none, .ok 3, none, none, some .enomem⟩,
   .probe 9 ⟨some 102, none, .ok 1, none, some .enomem, none⟩,
   .remove 7]

/-- What is left of it: the device with the minor 3, without sysfs attributes. -/
def afterHotplugEvents : Hotplug :=
  { ida := [3], cdevs := [(101, 3)], classDevices := [3], attributes := [], vqs := [8],
    allocs := [101], live := [⟨101, 8, 3⟩] }

theorem hotplugEvents_run :
    replay hotplugSystem (fun _ _ => true) .empty hotplugEvents = some afterHotplugEvents := by
  decide

theorem minors_after_hotplugEvents :
    (3 ∈ afterHotplugEvents.ida ↔ ∃ d ∈ afterHotplugEvents.live, d.minor = 3) ∧
    (afterHotplugEvents.deepspanVirtioProbe 7
      ⟨some 100, none, .ok 0, some .ebusy, none, none⟩).2.ida = [3] := by
  have h := minors_of_live_devices
    (replay_reach (fun _ _ _ => trivial) (Reach.init rfl) hotplugEvents_run)
  exact ⟨h.1 3, (h.2.2.2 7 ⟨some 100, none, .ok 0, some .ebusy, none, none⟩ .ebusy (by decide) rfl).1⟩

end Deepspan
