import Deepspan.Server.Plugins

/-!
# Calls of plugins while plugins come and go

`HwipRegistry` with its lock, beside the dynamic linker, used by any number of threads:
`load_plugin` and `unload_plugin`, the `create` of `GetDeviceStatus` and `SubmitRequest` with
the use and the destruction of the submitter after it, and the `enumerate_devices` of
`ListDevices`. Both `create` and `enumerate_devices` run plugin code under the shared lock.
The constructor and the destructor of a `Registrar` run inside `dlopen` and `dlclose`, which
the linker lets one thread do at a time, and take the unique lock.

What is done under the unique lock waits for nothing and runs no plugin code, and is one step.
`Server/Plugins.lean` has `load_plugin` and `unload_plugin` in one piece; its runs are those in
which one call follows the other (`sequential_calls`). `registered_types`, which reads the keys
only, is left out.

* `plugin_calls_mapped`: constructors, destructors, factories and the whole of
  `enumerate_devices` only run code that is there, whatever is unloaded meanwhile; a submitter
  does if its shared object is not taken away under it; and `dlclose` only ever gets handles
  that are open.
* `submitter_outlives_plugin`: the lock alone does not protect a submitter.
* `registry_not_stuck`: the two locks never block each other.
-/

namespace Deepspan

open Function (update)
open Transition

/-! ## Threads -/

inductive RegistryPc where
  -- `load_plugin`
  | dlopen (path : SoPath)
  | construct (path : SoPath) (type : HwipType)
  | record (path : SoPath)
  -- `unload_plugin`
  | scan (type : HwipType)
  | dlclose (path : SoPath)
  | destruct (path : SoPath) (type : HwipType)
  | unmap (path : SoPath)
  -- `GetDeviceStatus`, `SubmitRequest`
  | create (type : HwipType)
  | factory (path : SoPath)
  | call (path : SoPath)
  | destroy (path : SoPath)
  -- `enumerate_devices`, with the types that are still to come
  | enumerate
  | enumNext (rest : List HwipType)
  | enumFactory (path : SoPath) (idx : Nat) (rest : List HwipType)
  | enumState (path : SoPath) (idx : Nat) (rest : List HwipType)
  | enumDestroy (path : SoPath) (next : Option Nat) (rest : List HwipType)
  | done
deriving DecidableEq, Repr

/-- The thread is inside `dlopen` or `dlclose`. -/
def RegistryPc.holdsLinker : RegistryPc → Bool
  | .construct _ _ | .destruct _ _ | .unmap _ => true
  | _ => false

/-- The thread has the shared lock. -/
def RegistryPc.holdsShared : RegistryPc → Bool
  | .factory _ | .enumNext _ | .enumFactory _ _ _ | .enumState _ _ _ | .enumDestroy _ _ _ => true
  | _ => false

/-- The shared object whose code the thread runs under one of the two locks. -/
def RegistryPc.lockedCode? : RegistryPc → Option SoPath
  | .construct path _ | .destruct path _ | .factory path | .enumFactory path _ _
  | .enumState path _ _ | .enumDestroy path _ _ => some path
  | _ => none

/-- The shared object of the submitter that the thread has, whose code it runs. -/
def RegistryPc.submitter? : RegistryPc → Option SoPath
  | .call path | .destroy path => some path
  | _ => none

/-- The open handle that the thread has: it has yet to record it, or to close it. -/
def RegistryPc.handle? : RegistryPc → Option SoPath
  | .construct path _ | .record path | .dlclose path => some path
  | _ => none

/-- `code` is whose factory a registered type has, `mapped` what the linker has in memory. -/
structure Registry where
  host : PluginHost
  code : HwipType → SoPath
  mapped : SoPath → Bool
  threads : List RegistryPc

namespace Registry

def linkerFree (s : Registry) : Bool := s.threads.all fun pc => !pc.holdsLinker

def noReader (s : Registry) : Bool := s.threads.all fun pc => !pc.holdsShared

/-- A step of a thread; `ok` says whether plugin code returns (and, of `device_state`, that it
says there is a device). -/
def threadStep (so : SoPath → Option HwipType) (s : Registry) (ok : Bool) :
    RegistryPc → Option (Registry × RegistryPc)
  | .dlopen path =>
    if s.linkerFree then
      match so path with
      | none => some (s, .done)
      | some type =>
        let host := { s.host with refs := update s.host.refs path (s.host.refs path + 1) }
        if s.host.refs path = 0 then
          some ({ s with host := host, mapped := update s.mapped path true },
            .construct path type)
        else some ({ s with host := host }, .record path)
    else none
  | .construct path type =>
    if s.noReader then
      some ({ s with host := s.host.registerType type, code := update s.code type path },
        .record path)
    else none
  | .record path =>
    if s.noReader then
      some ({ s with host := { s.host with
        dlHandles := PluginHost.record s.host.dlHandles path } }, .done)
    else none
  | .scan type =>
    if s.noReader then
      some ({ s with host := { s.host with
          dlHandles := s.host.dlHandles.filter (¬type <:+: ·)
          removed := s.host.removed ++ s.host.named type } },
        ((s.host.named type).getLast?.map .dlclose).getD .done)
    else none
  | .dlclose path =>
    if s.linkerFree then
      let host := { s.host with
        refs := update s.host.refs path (s.host.refs path - 1)
        closed := s.host.closed ++ [path] }
      some ({ s with host := host },
        if s.host.refs path = 1 then ((so path).map (.destruct path)).getD (.unmap path) else .done)
    else none
  | .destruct path type =>
    if s.noReader then some ({ s with host := s.host.unregisterType type }, .unmap path) else none
  | .unmap path => some ({ s with mapped := update s.mapped path false }, .done)
  | .create type =>
    some (s, if s.host.factories.contains type then .factory (s.code type) else .done)
  | .factory path => some (s, if ok then .call path else .done)
  | .call path => some (s, .destroy path)
  | .destroy _ => some (s, .done)
  -- the order of the types does not matter here
  | .enumerate => some (s, .enumNext s.host.factories)
  | .enumNext [] => some (s, .done)
  | .enumNext (type :: rest) => some (s, .enumFactory (s.code type) 0 rest)
  | .enumFactory path idx rest =>
    some (s, if ok then .enumState path idx rest else .enumNext rest)
  | .enumState path idx rest =>
    some (s, .enumDestroy path (if ok ∧ idx + 1 < 64 then some (idx + 1) else none) rest)
  | .enumDestroy path (some idx) rest => some (s, .enumFactory path idx rest)
  | .enumDestroy _ none rest => some (s, .enumNext rest)
  | .done => none

end Registry

inductive RegistryAct where
  | loadPlugin (path : SoPath)
  | unloadPlugin (type : HwipType)
  /-- `GetDeviceStatus` or `SubmitRequest`. -/
  | rpc (type : HwipType)
  | listDevices
  | step (i : Nat) (ok : Bool)

def Registry.step (so : SoPath → Option HwipType) (s : Registry) : RegistryAct → Option Registry
  | .loadPlugin path => some { s with threads := s.threads ++ [.dlopen path] }
  | .unloadPlugin type => some { s with threads := s.threads ++ [.scan type] }
  | .rpc type => some { s with threads := s.threads ++ [.create type] }
  | .listDevices => some { s with threads := s.threads ++ [.enumerate] }
  | .step i ok =>
    match s.threads[i]? with
    | none => none
    | some pc => (s.threadStep so ok pc).map fun r => { r.1 with threads := s.threads.set i r.2 }

def Registry.initial : Registry := ⟨{}, fun _ => [], fun _ => false, []⟩

def registrySystem (so : SoPath → Option HwipType) : System Registry RegistryAct where
  init s := s = .initial
  step := Registry.step so

/-- A shared object is taken out of memory only when no thread has a submitter of it. -/
def unmapsIdle (s : Registry) : RegistryAct → Bool
  | .step i _ =>
    match s.threads[i]? with
    | some (.unmap path) => s.threads.all fun pc => pc.submitter? != some path
    | _ => true
  | _ => true

/-! ## What a step can do -/

variable {so : SoPath → Option HwipType} {s s' : Registry} {a : RegistryAct} {pc pc' : RegistryPc}
  {ok : Bool}

/-- The steps of a thread, those that change nothing but the thread last. -/
inductive ThreadStep (so : SoPath → Option HwipType) (s : Registry) :
    RegistryPc → Registry → RegistryPc → Prop
  | opened {path : SoPath} {type : HwipType} : s.linkerFree = true → so path = some type →
      s.host.refs path = 0 →
      ThreadStep so s (.dlopen path)
        { s with
          host := { s.host with refs := update s.host.refs path (s.host.refs path + 1) }
          mapped := update s.mapped path true } (.construct path type)
  | reopened {path : SoPath} {type : HwipType} : s.linkerFree = true → so path = some type →
      s.host.refs path ≠ 0 →
      ThreadStep so s (.dlopen path)
        { s with host := { s.host with
          refs := update s.host.refs path (s.host.refs path + 1) } } (.record path)
  | constructed {path : SoPath} {type : HwipType} : s.noReader = true →
      ThreadStep so s (.construct path type)
        { s with host := s.host.registerType type, code := update s.code type path }
        (.record path)
  | recorded {path : SoPath} : s.noReader = true →
      ThreadStep so s (.record path)
        { s with host := { s.host with dlHandles := PluginHost.record s.host.dlHandles path } }
        .done
  | scanned {type : HwipType} : s.noReader = true →
      ThreadStep so s (.scan type)
        { s with host := { s.host with
          dlHandles := s.host.dlHandles.filter (¬type <:+: ·)
          removed := s.host.removed ++ s.host.named type } }
        (((s.host.named type).getLast?.map .dlclose).getD .done)
  | closed {path : SoPath} {pc' : RegistryPc} : s.linkerFree = true →
      (s.host.refs path = 1 ∧ (pc' = .unmap path ∧ so path = none ∨
        ∃ type, pc' = .destruct path type ∧ so path = some type)) ∨
      (s.host.refs path ≠ 1 ∧ pc' = .done) →
      ThreadStep so s (.dlclose path)
        { s with host := { s.host with
          refs := update s.host.refs path (s.host.refs path - 1)
          closed := s.host.closed ++ [path] } } pc'
  | destructed {path : SoPath} {type : HwipType} : s.noReader = true →
      ThreadStep so s (.destruct path type) { s with host := s.host.unregisterType type }
        (.unmap path)
  | unmapped {path : SoPath} :
      ThreadStep so s (.unmap path) { s with mapped := update s.mapped path false } .done
  | openFails {path : SoPath} : ThreadStep so s (.dlopen path) s .done
  | found {type : HwipType} : type ∈ s.host.factories →
      ThreadStep so s (.create type) s (.factory (s.code type))
  | notFound {type : HwipType} : ThreadStep so s (.create type) s .done
  | made {path : SoPath} : ThreadStep so s (.factory path) s (.call path)
  | notMade {path : SoPath} : ThreadStep so s (.factory path) s .done
  | called {path : SoPath} : ThreadStep so s (.call path) s (.destroy path)
  | destroyed {path : SoPath} : ThreadStep so s (.destroy path) s .done
  | enumerate : ThreadStep so s .enumerate s (.enumNext s.host.factories)
  | enumEnd : ThreadStep so s (.enumNext []) s .done
  | enumType {type : HwipType} {rest : List HwipType} :
      ThreadStep so s (.enumNext (type :: rest)) s (.enumFactory (s.code type) 0 rest)
  | enumMade {path : SoPath} {idx : Nat} {rest : List HwipType} :
      ThreadStep so s (.enumFactory path idx rest) s (.enumState path idx rest)
  | enumNotMade {path : SoPath} {idx : Nat} {rest : List HwipType} :
      ThreadStep so s (.enumFactory path idx rest) s (.enumNext rest)
  | enumState {path : SoPath} {idx : Nat} {next : Option Nat} {rest : List HwipType} :
      ThreadStep so s (.enumState path idx rest) s (.enumDestroy path next rest)
  | enumAgain {path : SoPath} {idx : Nat} {rest : List HwipType} :
      ThreadStep so s (.enumDestroy path (some idx) rest) s (.enumFactory path idx rest)
  | enumDone {path : SoPath} {rest : List HwipType} :
      ThreadStep so s (.enumDestroy path none rest) s (.enumNext rest)

theorem threadStep_cases (hs : s.threadStep so ok pc = some (s', pc')) :
    ThreadStep so s pc s' pc' := by
  unfold Registry.threadStep at hs
  split at hs
  · next path =>
    split at hs
    · next hfree =>
      split at hs
      · cases hs
        exact .openFails
      · next type hso =>
        dsimp only at hs
        split at hs
        · next hzero =>
          cases hs
          exact .opened hfree hso hzero
        · next hsome =>
          cases hs
          exact .reopened hfree hso hsome
    · cases hs
  · split at hs
    · next hfree =>
      cases hs
      exact .constructed hfree
    · cases hs
  · split at hs
    · next hfree =>
      cases hs
      exact .recorded hfree
    · cases hs
  · split at hs
    · next hfree =>
      cases hs
      exact .scanned hfree
    · cases hs
  · next path =>
    split at hs
    · next hfree =>
      cases hs
      refine .closed hfree ?_
      by_cases hone : s.host.refs path = 1
      · refine .inl ⟨hone, ?_⟩
        rw [if_pos hone]
        cases hso : so path with
        | none => exact .inl ⟨rfl, rfl⟩
        | some type => exact .inr ⟨type, rfl, rfl⟩
      · exact .inr ⟨hone, if_neg hone⟩
    · cases hs
  · split at hs
    · next hfree =>
      cases hs
      exact .destructed hfree
    · cases hs
  · cases hs
    exact .unmapped
  · next type =>
    cases hs
    by_cases hmem : s.host.factories.contains type = true
    · rw [if_pos hmem]
      exact .found (List.contains_iff_mem.mp hmem)
    · rw [if_neg hmem]
      exact .notFound
  · cases hs
    cases ok with
    | true => exact .made
    | false => exact .notMade
  · cases hs
    exact .called
  · cases hs
    exact .destroyed
  · cases hs
    exact .enumerate
  · cases hs
    exact .enumEnd
  · cases hs
    exact .enumType
  · cases hs
    cases ok with
    | true => exact .enumMade
    | false => exact .enumNotMade
  · cases hs
    exact .enumState
  · cases hs
    exact .enumAgain
  · cases hs
    exact .enumDone
  · cases hs

/-- A call begins, or a thread takes a step. -/
theorem Registry.step_cases (hs : s.step so a = some s') :
    (∃ pc, (pc.holdsLinker = false ∧ pc.holdsShared = false ∧ pc.submitter? = none ∧
        pc.handle? = none) ∧ s' = { s with threads := s.threads ++ [pc] }) ∨
    ∃ i ok pc r pc', a = .step i ok ∧ s.threads[i]? = some pc ∧ ThreadStep so s pc r pc' ∧
      s' = { r with threads := s.threads.set i pc' } := by
  cases a with
  | loadPlugin path | unloadPlugin path | rpc path | listDevices =>
    cases hs
    exact .inl ⟨_, ⟨rfl, rfl, rfl, rfl⟩, rfl⟩
  | step i ok =>
    simp only [Registry.step] at hs
    split at hs
    · cases hs
    · next pc hpc =>
      obtain ⟨⟨r, pc'⟩, hstep, rfl⟩ := Option.map_eq_some_iff.mp hs
      exact .inr ⟨i, ok, pc, r, pc', rfl, hpc, threadStep_cases hstep, rfl⟩

/-! ## What holds of the registry -/

/-- The object is that of a factory. -/
def Registry.Serves (s : Registry) (path : SoPath) : Prop :=
  ∃ type ∈ s.host.factories, s.code type = path

/-- What a thread with the shared lock relies on. -/
def RegistryPc.ReaderOk (s : Registry) : RegistryPc → Prop
  | .factory path => s.Serves path
  | .enumNext rest => ∀ type ∈ rest, type ∈ s.host.factories
  | .enumFactory path _ rest | .enumState path _ rest | .enumDestroy path _ rest =>
    s.Serves path ∧ ∀ type ∈ rest, type ∈ s.host.factories
  | _ => True

/-- How far `dlopen` or `dlclose` has got. -/
def RegistryPc.LinkerOk (so : SoPath → Option HwipType) (s : Registry) : RegistryPc → Prop
  | .construct path type => so path = some type ∧ s.mapped path = true
  | .destruct path type => so path = some type ∧ s.mapped path = true ∧ s.host.refs path = 0
  | .unmap path => s.host.refs path = 0 ∧ ¬s.Serves path
  | _ => True

structure RegistryOk (so : SoPath → Option HwipType) (s : Registry) : Prop where
  factories : ∀ type ∈ s.host.factories, so (s.code type) = some type ∧
    s.mapped (s.code type) = true
  refs : ∀ path, 0 < s.host.refs path → s.mapped path = true
  linker : ∀ (i j : Nat) (pc pc' : RegistryPc), s.threads[i]? = some pc →
    s.threads[j]? = some pc' → pc.holdsLinker = true → pc'.holdsLinker = true → i = j
  reader : ∀ (i : Nat) (pc : RegistryPc), s.threads[i]? = some pc → pc.ReaderOk s
  linking : ∀ (i : Nat) (pc : RegistryPc), s.threads[i]? = some pc → pc.LinkerOk so s

theorem RegistryPc.readerOk_of_not (h : pc.holdsShared = false) : pc.ReaderOk s := by
  cases pc <;> trivial

theorem RegistryPc.linkerOk_of_not (h : pc.holdsLinker = false) : pc.LinkerOk so s := by
  cases pc <;> trivial

theorem not_holdsShared {i : Nat} (hfree : s.noReader = true) (hi : s.threads[i]? = some pc) :
    pc.holdsShared = false := by
  have hall := List.all_eq_true.mp hfree pc (List.mem_of_getElem? hi)
  simpa using hall

theorem not_holdsLinker {i : Nat} (hfree : s.linkerFree = true) (hi : s.threads[i]? = some pc) :
    pc.holdsLinker = false := by
  have hall := List.all_eq_true.mp hfree pc (List.mem_of_getElem? hi)
  simpa using hall

/-- The factories, which is all that a reader relies on, are the same. -/
theorem RegistryPc.ReaderOk.congr (h : pc.ReaderOk s) (hfac : s'.host.factories = s.host.factories)
    (hcode : s'.code = s.code) : pc.ReaderOk s' := by
  cases pc <;> first
    | trivial
    | (simp only [RegistryPc.ReaderOk, Registry.Serves, hfac, hcode] at h ⊢
       exact h)

/-- One thread has taken a step: what is left to show are the registry, the thread itself, and
that the others still have what they rely on. -/
theorem RegistryOk.of_thread {i : Nat} {r : Registry} (h : RegistryOk so s)
    (hi : s.threads[i]? = some pc)
    (hfac : ∀ type ∈ r.host.factories, so (r.code type) = some type ∧
      r.mapped (r.code type) = true)
    (hrefs : ∀ path, 0 < r.host.refs path → r.mapped path = true)
    (hlinker : pc'.holdsLinker = true → pc.holdsLinker = true ∨ s.linkerFree = true)
    (hreader : pc'.ReaderOk r) (hlinking : pc'.LinkerOk so r)
    (hothers : ∀ (j : Nat) (pc : RegistryPc), j ≠ i → s.threads[j]? = some pc →
      pc.ReaderOk r ∧ pc.LinkerOk so r) :
    RegistryOk so { r with threads := s.threads.set i pc' } := by
  -- whether a thread is in order does not depend on the threads
  have hcast {q : RegistryPc} (hq : q.ReaderOk r ∧ q.LinkerOk so r) :
      q.ReaderOk { r with threads := s.threads.set i pc' } ∧
        q.LinkerOk so { r with threads := s.threads.set i pc' } := by
    cases q <;> exact hq
  have heach : ∀ (j : Nat) (q : RegistryPc), (s.threads.set i pc')[j]? = some q →
      q.ReaderOk { r with threads := s.threads.set i pc' } ∧
        q.LinkerOk so { r with threads := s.threads.set i pc' } := by
    intro j q hj
    rcases getElem?_set_cases hi hj with ⟨_, rfl⟩ | ⟨hji, hj⟩
    · exact hcast ⟨hreader, hlinking⟩
    · exact hcast (hothers j q hji hj)
  refine ⟨hfac, hrefs, ?_, fun j q hj => (heach j q hj).1, fun j q hj => (heach j q hj).2⟩
  -- the thread had the linker already, or nobody has
  have hmine {j : Nat} {q : RegistryPc} (hj : s.threads[j]? = some q) (hq : q.holdsLinker = true)
      (hpc' : pc'.holdsLinker = true) : j = i := by
    rcases hlinker hpc' with hpc | hfree
    · exact h.linker j i q pc hj hi hq hpc
    · rw [not_holdsLinker hfree hj] at hq
      cases hq
  intro j k q q' hj hk hq hq'
  rcases getElem?_set_cases hi hj with ⟨rfl, rfl⟩ | ⟨_, hj'⟩
  · rcases getElem?_set_cases hi hk with ⟨rfl, rfl⟩ | ⟨_, hk'⟩
    · rfl
    · exact (hmine hk' hq' hq).symm
  · rcases getElem?_set_cases hi hk with ⟨rfl, rfl⟩ | ⟨_, hk'⟩
    · exact hmine hj' hq hq'
    · exact h.linker j k q q' hj' hk' hq hq'

/-- A step that changes nothing but the thread. -/
theorem RegistryOk.of_quiet {i : Nat} (h : RegistryOk so s) (hi : s.threads[i]? = some pc)
    (hlinker : pc'.holdsLinker = false) (hreader : pc'.ReaderOk s) :
    RegistryOk so { s with threads := s.threads.set i pc' } :=
  h.of_thread (r := s) hi h.factories h.refs (fun hpc => by rw [hlinker] at hpc; cases hpc) hreader
    (RegistryPc.linkerOk_of_not hlinker) fun j q _ hj => ⟨h.reader j q hj, h.linking j q hj⟩

/-- A step that changes only what is recorded. -/
theorem RegistryOk.of_handles {i : Nat} {dlHandles removed : List SoPath} (h : RegistryOk so s)
    (hi : s.threads[i]? = some pc) (hlinker : pc'.holdsLinker = false)
    (hreader : pc'.holdsShared = false) :
    RegistryOk so { s with
      host := { s.host with dlHandles := dlHandles, removed := removed }
      threads := s.threads.set i pc' } := by
  have hok := h.of_quiet hi hlinker (RegistryPc.readerOk_of_not hreader)
  refine ⟨hok.factories, hok.refs, hok.linker, fun j q hj => ?_, fun j q hj => ?_⟩
  · exact (hok.reader j q hj).congr rfl rfl
  · have hq := hok.linking j q hj
    cases q <;> exact hq

theorem mem_registerType {host : PluginHost} {type u : HwipType} :
    u ∈ (host.registerType type).factories ↔ u = type ∨ u ∈ host.factories := by
  unfold PluginHost.registerType
  dsimp only
  split
  · next hmem =>
    refine ⟨.inr, ?_⟩
    rintro (rfl | hu)
    · exact hmem
    · exact hu
  · exact List.mem_cons

theorem mem_unregisterType {host : PluginHost} {type u : HwipType} :
    u ∈ (host.unregisterType type).factories ↔ u ∈ host.factories ∧ u ≠ type := by
  simp only [PluginHost.unregisterType, List.mem_filter, bne_iff_ne]

/-- The linker is taken: nobody is in it yet, and readers do not look at it. -/
theorem RegistryOk.others_of_linkerFree {r : Registry} (h : RegistryOk so s)
    (hfree : s.linkerFree = true) (hfac : r.host.factories = s.host.factories)
    (hcode : r.code = s.code) (j : Nat) (q : RegistryPc) (hj : s.threads[j]? = some q) :
    q.ReaderOk r ∧ q.LinkerOk so r :=
  ⟨(h.reader j q hj).congr hfac hcode, RegistryPc.linkerOk_of_not (not_holdsLinker hfree hj)⟩

/-- The thread in the linker changes the factories: there is no reader, and no other thread in the
linker. -/
theorem RegistryOk.others_of_noReader {i : Nat} {r : Registry} (h : RegistryOk so s)
    (hfree : s.noReader = true) (hi : s.threads[i]? = some pc) (hpc : pc.holdsLinker = true)
    (j : Nat) (q : RegistryPc) (hji : j ≠ i) (hj : s.threads[j]? = some q) :
    q.ReaderOk r ∧ q.LinkerOk so r := by
  refine ⟨RegistryPc.readerOk_of_not (not_holdsShared hfree hj), RegistryPc.linkerOk_of_not ?_⟩
  by_contra hq
  exact hji (h.linker j i q pc hj hi (Bool.not_eq_false _ ▸ hq) hpc)

theorem RegistryOk.thread {i : Nat} {r : Registry} (h : RegistryOk so s)
    (hi : s.threads[i]? = some pc) (hs : ThreadStep so s pc r pc') :
    RegistryOk so { r with threads := s.threads.set i pc' } := by
  have hreader := h.reader i pc hi
  have hlinking := h.linking i pc hi
  cases hs with
  | @opened path type hfree hso hzero =>
    refine h.of_thread hi (fun t ht => ?_) (fun p hp => ?_) (fun _ => .inr hfree) trivial ?_
      fun j q _ hj => h.others_of_linkerFree hfree (by rfl) (by rfl) j q hj
    · refine ⟨(h.factories t ht).1, ?_⟩
      by_cases hp : s.code t = path
      · rw [hp]
        exact Function.update_self ..
      · exact (Function.update_of_ne hp ..).trans (h.factories t ht).2
    · by_cases heq : p = path
      · rw [heq]
        exact Function.update_self ..
      · dsimp only at hp
        rw [Function.update_of_ne heq] at hp
        exact (Function.update_of_ne heq ..).trans (h.refs p hp)
    · exact ⟨hso, Function.update_self ..⟩
  | @reopened path type hfree hso hsome =>
    refine h.of_thread hi h.factories (fun p hp => ?_) (fun hpc => by cases hpc) trivial trivial
      fun j q _ hj => h.others_of_linkerFree hfree (by rfl) (by rfl) j q hj
    refine h.refs p ?_
    by_cases heq : p = path
    · rw [heq]
      exact Nat.pos_of_ne_zero hsome
    · dsimp only at hp
      rwa [Function.update_of_ne heq] at hp
  | @constructed path type hfree =>
    refine h.of_thread hi (fun t ht => ?_) h.refs (fun hpc => by cases hpc) trivial trivial
      fun j q hji hj => h.others_of_noReader hfree hi rfl j q hji hj
    dsimp only
    by_cases heq : t = type
    · rw [heq, Function.update_self]
      exact hlinking
    · rw [Function.update_of_ne heq]
      exact h.factories t ((mem_registerType.mp ht).resolve_left heq)
  | @recorded path _ =>
    exact h.of_handles hi rfl rfl
  | @scanned type _ =>
    cases (s.host.named type).getLast? with
    | none => exact h.of_handles hi rfl rfl
    | some path => exact h.of_handles hi rfl rfl
  | @closed path pc' hfree hcase =>
    refine h.of_thread hi h.factories (fun p hp => h.refs p ?_) (fun _ => .inr hfree) ?_ ?_
      fun j q _ hj => h.others_of_linkerFree hfree (by rfl) (by rfl) j q hj
    · dsimp only at hp
      by_cases heq : p = path
      · rw [heq, Function.update_self] at hp
        rw [heq]
        exact Nat.lt_of_lt_of_le hp (Nat.sub_le _ _)
      · rwa [Function.update_of_ne heq] at hp
    · rcases hcase with ⟨_, ⟨rfl, _⟩ | ⟨_, rfl, _⟩⟩ | ⟨_, rfl⟩ <;> trivial
    · have hzero (hone : s.host.refs path = 1) :
          update s.host.refs path (s.host.refs path - 1) path = 0 := by
        rw [Function.update_self, hone]
      rcases hcase with ⟨hone, ⟨rfl, hso⟩ | ⟨type, rfl, hso⟩⟩ | ⟨_, rfl⟩
      · refine ⟨hzero hone, ?_⟩
        rintro ⟨t, ht, hcode⟩
        have hnone := (h.factories t ht).1
        rw [show s.code t = path from hcode, hso] at hnone
        cases hnone
      · exact ⟨hso, h.refs path (by rw [hone]; exact Nat.one_pos), hzero hone⟩
      · trivial
  | @destructed path type hfree =>
    refine h.of_thread hi (fun t ht => h.factories t (mem_unregisterType.mp ht).1) h.refs
      (fun _ => .inl rfl) trivial ⟨hlinking.2.2, ?_⟩
      fun j q hji hj => h.others_of_noReader hfree hi rfl j q hji hj
    rintro ⟨t, ht, hcode⟩
    obtain ⟨hmem, hne⟩ := mem_unregisterType.mp ht
    have hso := (h.factories t hmem).1
    rw [hcode] at hso
    exact hne (Option.some.inj (hso.symm.trans hlinking.1))
  | @unmapped path =>
    refine h.of_thread hi (fun t ht => ?_) (fun p hp => ?_) (fun hpc => by cases hpc) trivial
      trivial fun j q hji hj => ⟨(h.reader j q hj).congr rfl rfl, RegistryPc.linkerOk_of_not ?_⟩
    · have hne : s.code t ≠ path := fun hcode => hlinking.2 ⟨t, ht, hcode⟩
      exact ⟨(h.factories t ht).1, (Function.update_of_ne hne ..).trans (h.factories t ht).2⟩
    · have hne : p ≠ path := by
        rintro rfl
        exact Nat.lt_irrefl 0 (hlinking.1 ▸ hp)
      exact (Function.update_of_ne hne ..).trans (h.refs p hp)
    · by_contra hq
      exact hji (h.linker j i q _ hj hi (Bool.not_eq_false _ ▸ hq) rfl)
  | found hmem => exact h.of_quiet hi rfl ⟨_, hmem, rfl⟩
  | enumerate => exact h.of_quiet hi rfl fun _ ht => ht
  | enumType =>
    have hall : ∀ t ∈ _ :: _, t ∈ s.host.factories := hreader
    obtain ⟨hhead, htail⟩ := List.forall_mem_cons.mp hall
    exact h.of_quiet hi rfl ⟨⟨_, hhead, rfl⟩, htail⟩
  | enumNotMade | enumDone => exact h.of_quiet hi rfl hreader.2
  | enumMade | enumState | enumAgain => exact h.of_quiet hi rfl hreader
  | openFails | notFound | made | notMade | called | destroyed | enumEnd =>
    exact h.of_quiet hi rfl trivial

theorem RegistryOk.concat (h : RegistryOk so s) (hlinker : pc.holdsLinker = false)
    (hshared : pc.holdsShared = false) :
    RegistryOk so { s with threads := s.threads ++ [pc] } := by
  have hold {j : Nat} {q : RegistryPc} (hj : (s.threads ++ [pc])[j]? = some q)
      (hq : q.holdsLinker = true) : s.threads[j]? = some q := by
    rcases getElem?_concat_cases hj with hj | ⟨_, rfl⟩
    · exact hj
    · rw [hlinker] at hq
      cases hq
  refine ⟨h.factories, h.refs, fun j k q q' hj hk hq hq' => ?_, fun j q hj => ?_, fun j q hj => ?_⟩
  · exact h.linker j k q q' (hold hj hq) (hold hk hq') hq hq'
  · rcases getElem?_concat_cases hj with hj | ⟨_, rfl⟩
    · exact (h.reader j q hj).congr rfl rfl
    · exact RegistryPc.readerOk_of_not hshared
  · rcases getElem?_concat_cases hj with hj | ⟨_, rfl⟩
    · have hq := h.linking j q hj
      cases q <;> exact hq
    · exact RegistryPc.linkerOk_of_not hlinker

theorem RegistryOk.step (h : RegistryOk so s) (hs : s.step so a = some s') : RegistryOk so s' := by
  rcases Registry.step_cases hs with ⟨pc, hpc, rfl⟩ | ⟨i, ok, pc, r, pc', _, hi, hstep, rfl⟩
  · exact h.concat hpc.1 hpc.2.1
  · exact h.thread hi hstep

theorem registryOk_initial : RegistryOk so .initial where
  factories := fun _ ht => nomatch ht
  refs := fun _ hp => absurd hp (Nat.lt_irrefl 0)
  linker := fun _ _ _ _ hi => nomatch hi
  reader := fun _ _ hi => nomatch hi
  linking := fun _ _ hi => nomatch hi

theorem reach_registryOk {G : Registry → RegistryAct → Prop}
    (h : Reach (registrySystem so) G s) : RegistryOk so s := by
  refine h.invariant ?_ fun s a s' hok _ hs => hok.step hs
  rintro s rfl
  exact registryOk_initial

theorem RegistryOk.lockedCode {i : Nat} {path : SoPath} (h : RegistryOk so s)
    (hi : s.threads[i]? = some pc) (hp : pc.lockedCode? = some path) : s.mapped path = true := by
  have hserved (hserves : s.Serves path) : s.mapped path = true := by
    obtain ⟨type, htype, rfl⟩ := hserves
    exact (h.factories type htype).2
  have hreader := h.reader i pc hi
  have hlinking := h.linking i pc hi
  cases pc with
  | construct q type =>
    cases hp
    exact hlinking.2
  | destruct q type =>
    cases hp
    exact hlinking.2.1
  | factory q =>
    cases hp
    exact hserved hreader
  | enumFactory q idx rest | enumState q idx rest | enumDestroy q next rest =>
    cases hp
    exact hserved hreader.1
  | _ => cases hp

/-! ## Submitters -/

def SubmittersMapped (s : Registry) : Prop :=
  ∀ (i : Nat) (pc : RegistryPc) (path : SoPath), s.threads[i]? = some pc →
    pc.submitter? = some path → s.mapped path = true

/-- A submitter comes from a factory, and what a step takes out of memory is what `unmapsIdle`
lets it. -/
theorem submitters_thread {i : Nat} {r : Registry} (hok : RegistryOk so s)
    (h : SubmittersMapped s) (hi : s.threads[i]? = some pc) (hs : ThreadStep so s pc r pc')
    (hidle : ∀ path, pc = .unmap path → ∀ q ∈ s.threads, q.submitter? ≠ some path) :
    SubmittersMapped { r with threads := s.threads.set i pc' } := by
  -- a step that takes nothing away and makes no submitter
  have hkeep (hmapped : ∀ path, s.mapped path = true → r.mapped path = true)
      (hmine : ∀ path, pc'.submitter? = some path → s.mapped path = true) :
      SubmittersMapped { r with threads := s.threads.set i pc' } := by
    intro j q path hj hq
    rcases getElem?_set_cases hi hj with ⟨_, rfl⟩ | ⟨_, hj⟩
    · exact hmapped path (hmine path hq)
    · exact hmapped path (h j q path hj hq)
  cases hs with
  | @opened path type _ _ _ =>
    refine hkeep (fun p hp => ?_) fun p hp => by cases hp
    by_cases heq : p = path
    · rw [heq]
      exact Function.update_self ..
    · exact (Function.update_of_ne heq ..).trans hp
  | @unmapped path =>
    intro j q p hj hq
    rcases getElem?_set_cases hi hj with ⟨_, rfl⟩ | ⟨_, hj'⟩
    · cases hq
    · have hne : p ≠ path := by
        rintro rfl
        exact hidle p rfl q (List.mem_of_getElem? hj') hq
      exact (Function.update_of_ne hne ..).trans (h j q p hj' hq)
  | @made path =>
    refine hkeep (fun _ hp => hp) fun p hp => ?_
    cases hp
    exact hok.lockedCode hi rfl
  | called => exact hkeep (fun _ hp => hp) fun p hp => h i _ p hi hp
  | @scanned type _ =>
    refine hkeep (fun _ hp => hp) fun p hp => ?_
    cases hlast : (s.host.named type).getLast? with
    | none => rw [hlast] at hp; cases hp
    | some _ => rw [hlast] at hp; cases hp
  | @closed path pc' _ hcase =>
    refine hkeep (fun _ hp => hp) fun p hp => ?_
    rcases hcase with ⟨_, ⟨rfl, _⟩ | ⟨_, rfl, _⟩⟩ | ⟨_, rfl⟩ <;> cases hp
  | reopened _ _ _ | constructed _ | recorded _ | destructed _ | openFails | found _ | notFound
  | notMade | destroyed | enumerate | enumEnd | enumType | enumMade | enumNotMade | enumState
  | enumAgain | enumDone => exact hkeep (fun _ hp => hp) fun p hp => by cases hp

theorem reach_submitters (h : Reach (registrySystem so) (fun s a => unmapsIdle s a = true) s) :
    SubmittersMapped s := by
  refine (h.invariant (P := fun s => RegistryOk so s ∧ SubmittersMapped s) ?_
    fun s a s' hok hg hs => ⟨hok.1.step hs, ?_⟩).2
  · rintro s rfl
    exact ⟨registryOk_initial, fun _ _ _ hi => nomatch hi⟩
  · rcases Registry.step_cases hs with ⟨pc, hpc, rfl⟩ | ⟨i, ok, pc, r, pc', rfl, hi, hstep, rfl⟩
    · intro j q path hj hq
      rcases getElem?_concat_cases hj with hj | ⟨_, rfl⟩
      · exact hok.2 j q path hj hq
      · rw [hpc.2.2.1] at hq
        cases hq
    · refine submitters_thread hok.1 hok.2 hi hstep ?_
      rintro path rfl q hq
      simp only [unmapsIdle, hi] at hg
      exact bne_iff_ne.mp (List.all_eq_true.mp hg q hq)

/-! ## Handles -/

/-- The handles of a path, in the hands of threads and on record, are at most as many as the path
is open. -/
def HandlesOpen (s : Registry) : Prop :=
  ∀ path, s.threads.countP (fun pc => pc.handle? = some path) +
    (s.host.dlHandles.contains path).toNat ≤ s.host.refs path

theorem HandlesOpen.pos {i : Nat} {path : SoPath} (h : HandlesOpen s)
    (hi : s.threads[i]? = some pc) (hp : pc.handle? = some path) : 0 < s.host.refs path := by
  have hcount : 0 < s.threads.countP (fun pc => pc.handle? = some path) :=
    List.countP_pos_iff.mpr ⟨pc, List.mem_of_getElem? hi, decide_eq_true hp⟩
  exact Nat.lt_of_lt_of_le hcount (Nat.le_trans (Nat.le_add_right _ _) (h path))

theorem toNat_contains (handles : List SoPath) (path : SoPath) :
    (handles.contains path).toNat = if path ∈ handles then 1 else 0 := by
  by_cases hmem : path ∈ handles
  · rw [if_pos hmem, List.contains_iff_mem.mpr hmem]
    rfl
  · rw [if_neg hmem, Bool.eq_false_of_not_eq_true fun h => hmem (List.contains_iff_mem.mp h)]
    rfl

/-- What a step adds to the handles it adds to the references. -/
theorem HandlesOpen.of_thread {i : Nat} {r : Registry} (h : HandlesOpen s)
    (hi : s.threads[i]? = some pc)
    (hbalance : ∀ path, (if pc'.handle? = some path then 1 else 0) +
        (if path ∈ r.host.dlHandles then 1 else 0) + s.host.refs path ≤
      (if pc.handle? = some path then 1 else 0) +
        (if path ∈ s.host.dlHandles then 1 else 0) + r.host.refs path) :
    HandlesOpen { r with threads := s.threads.set i pc' } := by
  intro path
  obtain ⟨hlt, hget⟩ := List.getElem?_eq_some_iff.mp hi
  have hmine : (if pc.handle? = some path then 1 else 0) ≤
      s.threads.countP (fun pc => pc.handle? = some path) := by
    split
    · next hp => exact List.countP_pos_iff.mpr ⟨pc, List.mem_of_getElem? hi, decide_eq_true hp⟩
    · exact Nat.zero_le _
  have hbefore := h path
  have hnow := hbalance path
  rw [toNat_contains] at hbefore
  dsimp only
  rw [List.countP_set hlt, hget, toNat_contains]
  simp only [decide_eq_true_eq]
  omega

theorem HandlesOpen.thread {i : Nat} {r : Registry} (h : HandlesOpen s)
    (hi : s.threads[i]? = some pc) (hs : ThreadStep so s pc r pc') :
    HandlesOpen { r with threads := s.threads.set i pc' } := by
  cases hs with
  | @opened path type _ _ _ | @reopened path type _ _ _ =>
    refine h.of_thread hi fun p => ?_
    simp only [RegistryPc.handle?, Option.some.injEq, reduceCtorEq, if_false]
    by_cases heq : path = p
    · rw [heq, if_pos rfl, Function.update_self]
      omega
    · rw [if_neg heq, Function.update_of_ne (Ne.symm heq)]
  | @recorded path _ =>
    refine h.of_thread hi fun p => ?_
    simp only [RegistryPc.handle?, Option.some.injEq, reduceCtorEq, if_false, mem_record]
    by_cases heq : path = p
    · rw [heq, if_pos rfl, if_pos (.inl rfl)]
      omega
    · simp only [if_neg heq, Ne.symm heq, false_or]
      exact Nat.le_refl _
  | @scanned type _ =>
    refine h.of_thread hi fun p => ?_
    simp only [List.mem_filter, decide_eq_true_eq]
    cases hlast : (s.host.named type).getLast? with
    | none =>
      simp only [Option.map_none, Option.getD_none, RegistryPc.handle?, reduceCtorEq, if_false]
      split
      · next hmem => rw [if_pos hmem.1]
      · split <;> omega
    | some path =>
      have hnamed := mem_named.mp (List.mem_of_getLast? hlast)
      simp only [Option.map_some, Option.getD_some, RegistryPc.handle?, Option.some.injEq,
        reduceCtorEq, if_false]
      by_cases heq : path = p
      · cases heq
        rw [if_pos rfl, if_pos hnamed.1, if_neg fun hmem => hmem.2 hnamed.2]
      · rw [if_neg heq]
        split
        · next hmem => rw [if_pos hmem.1]
        · split <;> omega
  | @closed path pc' _ hcase =>
    have hnone : pc'.handle? = none := by
      rcases hcase with ⟨_, ⟨rfl, _⟩ | ⟨_, rfl, _⟩⟩ | ⟨_, rfl⟩ <;> rfl
    have hpos := h.pos hi rfl
    refine h.of_thread hi fun p => ?_
    rw [hnone]
    simp only [RegistryPc.handle?, Option.some.injEq, reduceCtorEq, if_false]
    by_cases heq : path = p
    · rw [← heq, if_pos rfl, Function.update_self]
      omega
    · rw [if_neg heq, Function.update_of_ne (Ne.symm heq)]
  | @constructed path type _ =>
    exact h.of_thread hi fun p => Nat.le_refl _
  | destructed _ | unmapped | openFails | found _ | notFound | made | notMade | called | destroyed
  | enumerate | enumEnd | enumType | enumMade | enumNotMade | enumState | enumAgain | enumDone =>
    exact h.of_thread hi fun p => Nat.le_refl _

theorem reach_handlesOpen {G : Registry → RegistryAct → Prop}
    (h : Reach (registrySystem so) G s) : HandlesOpen s := by
  refine h.invariant ?_ fun s a s' hok _ hs => ?_
  · rintro s rfl
    exact fun path => Nat.le_refl 0
  · rcases Registry.step_cases hs with ⟨pc, hpc, rfl⟩ | ⟨i, ok, pc, r, pc', _, hi, hstep, rfl⟩
    · intro path
      dsimp only
      rw [List.countP_append, List.countP_singleton, hpc.2.2.2]
      exact hok path
    · exact hok.thread hi hstep

/-! ## Calls that nobody interrupts -/

/-- Runs in which only one thread takes steps. -/
def OnlyThread (i : Nat) (_ : Registry) (a : RegistryAct) : Prop := ∃ ok, a = .step i ok

theorem OnlyThread.cons {i : Nat} {r u : Registry} (hi : s.threads[i]? = some pc)
    (hs : s.threadStep so true pc = some (r, pc'))
    (h : Reach ((registrySystem so).startedAt { r with threads := s.threads.set i pc' })
      (OnlyThread i) u) : Reach ((registrySystem so).startedAt s) (OnlyThread i) u := by
  refine Reach.trans (.step (a := .step i true) (.init rfl) ⟨true, rfl⟩ ?_) h
  change s.step so (.step i true) = _
  simp only [Registry.step, hi, hs, Option.map_some]

/-- A thread that takes a step after which it has returned. -/
theorem OnlyThread.last {i : Nat} {r : Registry} (hi : s.threads[i]? = some pc)
    (hs : s.threadStep so true pc = some (r, .done)) :
    ∃ u, Reach ((registrySystem so).startedAt s) (OnlyThread i) u ∧ u.host = r.host ∧
      u.threads = s.threads.set i .done :=
  ⟨{ r with threads := s.threads.set i .done }, OnlyThread.cons hi hs (.init rfl), rfl, rfl⟩

/-- A thread that takes a step and goes on. -/
theorem OnlyThread.next {i : Nat} {host : PluginHost} (r : Registry) (pc' : RegistryPc)
    (hi : s.threads[i]? = some pc) (hs : s.threadStep so true pc = some (r, pc'))
    (h : ∀ s₁ : Registry, s₁.host = r.host → s₁.threads = s.threads.set i pc' →
      ∃ u, Reach ((registrySystem so).startedAt s₁) (OnlyThread i) u ∧ u.host = host ∧
        u.threads = s₁.threads.set i .done) :
    ∃ u, Reach ((registrySystem so).startedAt s) (OnlyThread i) u ∧ u.host = host ∧
      u.threads = s.threads.set i .done := by
  obtain ⟨u, hreach, hhost, hthreads⟩ := h { r with threads := s.threads.set i pc' } rfl rfl
  refine ⟨u, OnlyThread.cons hi hs hreach, hhost, hthreads.trans ?_⟩
  exact List.set_set ..

theorem noReader_of_set {i : Nat} (h : s.noReader = true)
    (hr : s'.threads = s.threads.set i pc') (hpc : pc'.holdsShared = false) :
    s'.noReader = true := by
  refine List.all_eq_true.mpr fun q hq => ?_
  rw [hr] at hq
  rcases List.mem_or_eq_of_mem_set hq with hq | rfl
  · exact List.all_eq_true.mp h q hq
  · rw [hpc]
    rfl

theorem linkerFree_of_set {i : Nat} (h : s.linkerFree = true)
    (hr : s'.threads = s.threads.set i pc') (hpc : pc'.holdsLinker = false) :
    s'.linkerFree = true := by
  refine List.all_eq_true.mpr fun q hq => ?_
  rw [hr] at hq
  rcases List.mem_or_eq_of_mem_set hq with hq | rfl
  · exact List.all_eq_true.mp h q hq
  · rw [hpc]
    rfl

theorem thread_of_set {i : Nat} (hi : s.threads[i]? = some pc)
    (hr : s'.threads = s.threads.set i pc') : s'.threads[i]? = some pc' := by
  rw [hr]
  exact getElem?_set_self_of hi

theorem record_alone (so : SoPath → Option HwipType) {i : Nat} {path : SoPath}
    (hi : s.threads[i]? = some (.record path))
    (hreader : s.noReader = true) :
    ∃ u, Reach ((registrySystem so).startedAt s) (OnlyThread i) u ∧
      u.host = { s.host with dlHandles := PluginHost.record s.host.dlHandles path } ∧
      u.threads = s.threads.set i .done := by
  refine OnlyThread.last (r := { s with host := { s.host with
    dlHandles := PluginHost.record s.host.dlHandles path } }) hi ?_
  rw [Registry.threadStep, if_pos hreader]

/-- `load_plugin` as it is in `Server/Plugins.lean`. -/
theorem load_alone (so : SoPath → Option HwipType) {i : Nat} {path : SoPath}
    (hi : s.threads[i]? = some (.dlopen path))
    (hlinker : s.linkerFree = true) (hreader : s.noReader = true) :
    ∃ u, Reach ((registrySystem so).startedAt s) (OnlyThread i) u ∧
      u.host = (s.host.loadPlugin so path).2 ∧ u.threads = s.threads.set i .done := by
  unfold PluginHost.loadPlugin PluginHost.dlopen
  cases hso : so path with
  | none =>
    refine OnlyThread.last (r := s) hi ?_
    rw [Registry.threadStep, if_pos hlinker, hso]
  | some type =>
    by_cases hzero : s.host.refs path = 0
    · refine OnlyThread.next { s with
        host := { s.host with refs := update s.host.refs path (s.host.refs path + 1) }
        mapped := update s.mapped path true } (.construct path type) hi ?_
        fun s₁ hhost hthreads => ?_
      · rw [Registry.threadStep, if_pos hlinker, hso]
        exact if_pos hzero
      · have hreader₁ := noReader_of_set hreader hthreads rfl
        refine OnlyThread.next { s₁ with
          host := s₁.host.registerType type, code := update s₁.code type path } (.record path)
          (thread_of_set hi hthreads) ?_ fun s₂ hhost₂ hthreads₂ => ?_
        · rw [Registry.threadStep, if_pos hreader₁]
        · obtain ⟨u, hu, huhost, huthreads⟩ := record_alone so
            (thread_of_set (thread_of_set hi hthreads) hthreads₂)
            (noReader_of_set hreader₁ hthreads₂ rfl)
          refine ⟨u, hu, huhost.trans ?_, huthreads⟩
          simp only [hhost₂, hhost, if_pos hzero]
          rfl
    · refine OnlyThread.next { s with
        host := { s.host with refs := update s.host.refs path (s.host.refs path + 1) } }
        (.record path) hi ?_
        fun s₁ hhost hthreads => ?_
      · rw [Registry.threadStep, if_pos hlinker, hso]
        exact if_neg hzero
      · obtain ⟨u, hu, huhost, huthreads⟩ := record_alone so (thread_of_set hi hthreads)
          (noReader_of_set hreader hthreads rfl)
        refine ⟨u, hu, huhost.trans ?_, huthreads⟩
        simp only [hhost, if_neg hzero]

theorem unmap_alone (so : SoPath → Option HwipType) {i : Nat} {path : SoPath}
    (hi : s.threads[i]? = some (.unmap path)) :
    ∃ u, Reach ((registrySystem so).startedAt s) (OnlyThread i) u ∧ u.host = s.host ∧
      u.threads = s.threads.set i .done :=
  OnlyThread.last (r := { s with mapped := update s.mapped path false }) hi rfl

theorem dlclose_alone (so : SoPath → Option HwipType) {i : Nat} {path : SoPath}
    (hi : s.threads[i]? = some (.dlclose path))
    (hlinker : s.linkerFree = true) (hreader : s.noReader = true) :
    ∃ u, Reach ((registrySystem so).startedAt s) (OnlyThread i) u ∧
      u.host = s.host.dlclose so path ∧ u.threads = s.threads.set i .done := by
  have hstep : s.threadStep so true (.dlclose path) = some ({ s with host := { s.host with
      refs := update s.host.refs path (s.host.refs path - 1)
      closed := s.host.closed ++ [path] } },
      if s.host.refs path = 1 then ((so path).map (.destruct path)).getD (.unmap path)
      else .done) := by
    rw [Registry.threadStep, if_pos hlinker]
  unfold PluginHost.dlclose
  by_cases hone : s.host.refs path = 1
  · rw [if_pos hone] at hstep
    cases hso : so path with
    | none =>
      rw [hso] at hstep
      refine OnlyThread.next _ _ hi hstep fun s₁ hhost hthreads => ?_
      obtain ⟨u, hu, huhost, huthreads⟩ := unmap_alone so (thread_of_set hi hthreads)
      refine ⟨u, hu, huhost.trans (hhost.trans ?_), huthreads⟩
      simp only [if_pos hone, Option.map_none, Option.getD_none]
    | some type =>
      rw [hso] at hstep
      refine OnlyThread.next _ _ hi hstep fun s₁ hhost hthreads => ?_
      refine OnlyThread.next { s₁ with host := s₁.host.unregisterType type } (.unmap path)
        (thread_of_set hi hthreads) ?_
        fun s₂ hhost₂ hthreads₂ => ?_
      · exact if_pos (noReader_of_set hreader hthreads rfl)
      · obtain ⟨u, hu, huhost, huthreads⟩ := unmap_alone so
          (thread_of_set (thread_of_set hi hthreads) hthreads₂)
        refine ⟨u, hu, huhost.trans (hhost₂.trans ?_), huthreads⟩
        simp only [hhost, if_pos hone, Option.map_some, Option.getD_some]
        rfl
  · rw [if_neg hone] at hstep
    obtain ⟨u, hu, huhost, huthreads⟩ := OnlyThread.last hi hstep
    refine ⟨u, hu, huhost.trans ?_, huthreads⟩
    simp only [if_neg hone]

/-- `unload_plugin` as it is in `Server/Plugins.lean`. -/
theorem unload_alone (so : SoPath → Option HwipType) {i : Nat} {type : HwipType}
    (hi : s.threads[i]? = some (.scan type))
    (hlinker : s.linkerFree = true) (hreader : s.noReader = true) :
    ∃ u, Reach ((registrySystem so).startedAt s) (OnlyThread i) u ∧
      u.host = s.host.unloadPlugin so type ∧ u.threads = s.threads.set i .done := by
  have hstep : s.threadStep so true (.scan type) = some ({ s with host := { s.host with
      dlHandles := s.host.dlHandles.filter (¬type <:+: ·)
      removed := s.host.removed ++ s.host.named type } },
      ((s.host.named type).getLast?.map .dlclose).getD .done) := by
    rw [Registry.threadStep, if_pos hreader]
  unfold PluginHost.unloadPlugin
  cases hlast : (s.host.named type).getLast? with
  | none =>
    rw [hlast] at hstep
    exact OnlyThread.last hi hstep
  | some path =>
    rw [hlast] at hstep
    refine OnlyThread.next _ _ hi hstep fun s₁ hhost hthreads => ?_
    obtain ⟨u, hu, huhost, huthreads⟩ := dlclose_alone so (thread_of_set hi hthreads)
      (linkerFree_of_set hlinker hthreads rfl) (noReader_of_set hreader hthreads rfl)
    refine ⟨u, hu, huhost.trans ?_, huthreads⟩
    rw [hhost]

/-- Calls made one after the other: what `pluginSystem` does, the registry does with all its threads
returned. -/
theorem sequential_calls {host : PluginHost}
    (h : Reach (pluginSystem so) (fun _ _ => True) host) :
    ∃ s, Reach (registrySystem so) (fun _ _ => True) s ∧ s.host = host ∧
      ∀ pc ∈ s.threads, pc = .done := by
  induction h with
  | init h0 =>
    cases h0
    exact ⟨.initial, .init rfl, rfl, fun pc hpc => nomatch hpc⟩
  | @step host host' a _ _ hstep ih =>
    obtain ⟨s, hs, rfl, hdone⟩ := ih
    -- the call has the registry to itself
    have hall (pc : RegistryPc) (hpc : pc.holdsLinker = false ∧ pc.holdsShared = false) :
        ({ s with threads := s.threads ++ [pc] } : Registry).linkerFree = true ∧
        ({ s with threads := s.threads ++ [pc] } : Registry).noReader = true := by
      constructor <;>
      · refine List.all_eq_true.mpr fun q hq => ?_
        rcases List.mem_append.mp hq with hq | hq
        · rw [hdone q hq]
          rfl
        · rw [List.mem_singleton.mp hq]
          first | rw [hpc.1]; rfl | rw [hpc.2]; rfl
    have hnew {pc : RegistryPc} : (s.threads ++ [pc])[s.threads.length]? = some pc :=
      List.getElem?_concat_length
    have hafter {pc : RegistryPc} {b : RegistryAct} {u : Registry}
        (hb : s.step so b = some { s with threads := s.threads ++ [pc] })
        (hu : Reach ((registrySystem so).startedAt { s with threads := s.threads ++ [pc] })
          (OnlyThread s.threads.length) u)
        (hthreads : u.threads = (s.threads ++ [pc]).set s.threads.length .done) :
        Reach (registrySystem so) (fun _ _ => True) u ∧ ∀ q ∈ u.threads, q = .done := by
      constructor
      · refine hu.after (P := Reach (registrySystem so) fun _ _ => True)
          (.step (a := b) hs trivial hb) fun _ _ _ hr _ hstep => .step hr trivial hstep
      · intro q hq
        rw [hthreads, List.set_append_right _ _ (Nat.le_refl _), Nat.sub_self] at hq
        rcases List.mem_append.mp hq with hq | hq
        · exact hdone q hq
        · exact List.mem_singleton.mp hq
    cases a with
    | load path =>
      cases hstep
      obtain ⟨hlinker, hreader⟩ := hall (.dlopen path) ⟨rfl, rfl⟩
      obtain ⟨u, hu, hhost, hthreads⟩ := load_alone so hnew hlinker hreader
      obtain ⟨hreach, hend⟩ := hafter (b := .loadPlugin path) rfl hu hthreads
      exact ⟨u, hreach, hhost, hend⟩
    | unload type =>
      cases hstep
      obtain ⟨hlinker, hreader⟩ := hall (.scan type) ⟨rfl, rfl⟩
      obtain ⟨u, hu, hhost, hthreads⟩ := unload_alone so hnew hlinker hreader
      obtain ⟨hreach, hend⟩ := hafter (b := .unloadPlugin type) rfl hu hthreads
      exact ⟨u, hreach, hhost, hend⟩

/-! ## The results -/

/-- A thread only ever waits for the linker, outside of it, or for the readers to leave. -/
theorem threadStep_enabled (hpc : pc ≠ .done)
    (hlinker : s.linkerFree = true ∨ pc.holdsLinker = true ∨ pc.holdsShared = true)
    (hreader : s.noReader = true ∨ pc.holdsShared = true) :
    ∃ r, s.threadStep so true pc = some r := by
  have hneither : ¬(false = true ∨ false = true) := not_or.mpr ⟨nofun, nofun⟩
  cases pc with
  | done => exact absurd rfl hpc
  | dlopen path =>
    have hfree : s.linkerFree = true := hlinker.resolve_right hneither
    rw [Registry.threadStep, if_pos hfree]
    cases so path with
    | none => exact ⟨_, rfl⟩
    | some type =>
      by_cases hzero : s.host.refs path = 0
      · exact ⟨_, if_pos hzero⟩
      · exact ⟨_, if_neg hzero⟩
  | dlclose path => exact ⟨_, if_pos (hlinker.resolve_right hneither)⟩
  | construct path type | record path | scan type | destruct path type =>
    exact ⟨_, if_pos (hreader.resolve_right Bool.false_ne_true)⟩
  | enumNext rest =>
    cases rest with
    | nil => exact ⟨_, rfl⟩
    | cons type rest => exact ⟨_, rfl⟩
  | enumDestroy path next rest =>
    cases next with
    | none => exact ⟨_, rfl⟩
    | some idx => exact ⟨_, rfl⟩
  | unmap path | create type | factory path | call path | destroy path | enumerate
  | enumFactory path idx rest | enumState path idx rest => exact ⟨_, rfl⟩

/-- As long as some thread has not returned, some thread can take a step. -/
theorem registry_not_stuck {i : Nat} (hi : s.threads[i]? = some pc) (hpc : pc ≠ .done) :
    ∃ j s', s.step so (.step j true) = some s' := by
  have hgo {j : Nat} {q : RegistryPc} (hj : s.threads[j]? = some q)
      (hq : ∃ r, s.threadStep so true q = some r) : ∃ j s', s.step so (.step j true) = some s' := by
    obtain ⟨r, hr⟩ := hq
    exact ⟨j, _, by simp only [Registry.step, hj, hr, Option.map_some]; rfl⟩
  -- a reader, else a thread in the linker, else any thread
  by_cases hreader : s.noReader = true
  · by_cases hlinker : s.linkerFree = true
    · exact hgo hi (threadStep_enabled hpc (.inl hlinker) (.inl hreader))
    · obtain ⟨q, hq, hholds⟩ := List.all_eq_false.mp (Bool.not_eq_true _ ▸ hlinker)
      obtain ⟨j, hj⟩ := List.mem_iff_getElem?.mp hq
      have hlinks : q.holdsLinker = true := by simpa using hholds
      refine hgo hj (threadStep_enabled ?_ (.inr (.inl hlinks)) (.inl hreader))
      rintro rfl
      cases hlinks
  · obtain ⟨q, hq, hholds⟩ := List.all_eq_false.mp (Bool.not_eq_true _ ▸ hreader)
    obtain ⟨j, hj⟩ := List.mem_iff_getElem?.mp hq
    have hreads : q.holdsShared = true := by simpa using hholds
    refine hgo hj (threadStep_enabled ?_ (.inr (.inr hreads)) (.inr hreads))
    rintro rfl
    cases hreads

/-- Any number of threads that load and unload plugins, list the devices and call plugins, in every
interleaving and whatever the plugins' calls return or throw: the code of constructors and destructors of registrars, of factories and of all that
`enumerate_devices` calls is in memory while it runs, and `dlclose` gets handles that are open. If a
shared object is taken out of memory only while no thread has a submitter of it, then the code of
submitters is in memory while it runs. -/
theorem plugin_calls_mapped (so : SoPath → Option HwipType) :
    (∀ s, Reach (registrySystem so) (fun _ _ => True) s →
      (∀ (i : Nat) (pc : RegistryPc) (path : SoPath), s.threads[i]? = some pc →
        pc.lockedCode? = some path → s.mapped path = true) ∧
      ∀ (i : Nat) (path : SoPath), s.threads[i]? = some (.dlclose path) →
        0 < s.host.refs path) ∧
    ∀ s, Reach (registrySystem so) (fun s a => unmapsIdle s a = true) s →
      ∀ (i : Nat) (pc : RegistryPc) (path : SoPath), s.threads[i]? = some pc →
        pc.submitter? = some path → s.mapped path = true := by
  refine ⟨fun s h => ⟨fun i pc path hi hp => ?_, fun i path hi => ?_⟩, fun s h => ?_⟩
  · exact (reach_registryOk h).lockedCode hi hp
  · exact (reach_handlesOpen h).pos hi rfl
  · exact reach_submitters h

/-- `crc32` is loaded, one thread gets a submitter of it, and another one lists the devices. -/
def callAndList : List RegistryAct :=
  schedule [(1, .loadPlugin "/opt/accel/hwip_crc32.so".toList), (3, .step 0 true),
    (1, .rpc "crc32".toList), (2, .step 1 true), (1, .listDevices), (2, .step 2 true)]

theorem callAndList_run :
    (replay (registrySystem pluginsInAccel) unmapsIdle .initial callAndList).map (fun s =>
      s.threads) =
    some [.done, .call "/opt/accel/hwip_crc32.so".toList,
      .enumFactory "/opt/accel/hwip_crc32.so".toList 0 []] := by
  decide

theorem plugin_calls_mapped_crc32 : ∃ s : Registry,
    s.threads = [.done, .call "/opt/accel/hwip_crc32.so".toList,
      .enumFactory "/opt/accel/hwip_crc32.so".toList 0 []] ∧
    s.mapped "/opt/accel/hwip_crc32.so".toList = true := by
  obtain ⟨s, hs, hthreads⟩ := Option.map_eq_some_iff.mp callAndList_run
  have hreach : Reach (registrySystem pluginsInAccel) (fun s a => unmapsIdle s a = true) s :=
    replay_reach (fun _ _ h => h) (.init rfl) hs
  refine ⟨s, hthreads, (plugin_calls_mapped pluginsInAccel).2 s hreach 1
    (.call "/opt/accel/hwip_crc32.so".toList) _ ?_ rfl⟩
  rw [hthreads]
  rfl

/-- The unloading waits for the listing, and not for the submitter. -/
theorem submitter_outlives_plugin :
    (replay (registrySystem pluginsInAccel) (fun _ _ => true) .initial
      (callAndList ++ schedule [(1, .unloadPlugin "crc32".toList), (1, .step 2 true),
        (1, .step 2 false), (2, .step 2 true), (4, .step 3 true)])).map (fun s =>
      (s.threads, s.mapped "/opt/accel/hwip_crc32.so".toList)) =
    some ([.done, .call "/opt/accel/hwip_crc32.so".toList, .done, .done], false) := by
  decide

end Deepspan
