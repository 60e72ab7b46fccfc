import Mathlib.Data.Char
import Mathlib.Data.List.Infix
import Mathlib.Data.List.Lex
import Mathlib.Data.List.Sort
import Mathlib.Logic.Function.Basic
import Deepspan.Lib.Transition

/-!
# Loading and unloading plugins

`HwipRegistry::load_plugin` and `unload_plugin` beside the dynamic linker. A shared object
registers its type when it is opened for the first time and unregisters it when it has been
closed as often as it was opened.

The registry records the handles by path, and `unload_plugin` gets a type. It takes every
recorded path that contains the type for a plugin of that type, erases all of them and closes
the last one. `unload_plugin_iff` says when this unloads the plugin and nothing else; whether
it does depends on the paths of all plugins, and on how often each has been loaded.
-/

namespace Deepspan

open Function (update)
open Transition

/-! ## The registry and the dynamic linker -/

abbrev SoPath := List Char

abbrev HwipType := List Char

/-- `factories_` by its keys, `dl_handles_` in the order of the map (the handle of a shared
object is known by its path), and how often each path is open. History: the handles that were
erased from `dl_handles_`, and those that were passed to `dlclose`. -/
structure PluginHost where
  factories : List HwipType := []
  dlHandles : List SoPath := []
  refs : SoPath → Nat := fun _ => 0
  removed : List SoPath := []
  closed : List SoPath := []

namespace PluginHost

-- The types of the shared objects; `dlopen` fails for the other paths.
variable (so : SoPath → Option HwipType)

/-- `factories_[hwip_type] = factory`. -/
def registerType (s : PluginHost) (type : HwipType) : PluginHost :=
  { s with factories := if type ∈ s.factories then s.factories else type :: s.factories }

def unregisterType (s : PluginHost) (type : HwipType) : PluginHost :=
  { s with factories := s.factories.filter (· != type) }

/-- `dlopen` of a shared object of this type. The first one constructs its `Registrar`. -/
def dlopen (s : PluginHost) (path : SoPath) (type : HwipType) : PluginHost :=
  let s' := if s.refs path = 0 then s.registerType type else s
  { s' with refs := update s.refs path (s.refs path + 1) }

/-- `dlclose`. The last one destroys the `Registrar`. -/
def dlclose (s : PluginHost) (path : SoPath) : PluginHost :=
  let s' := if s.refs path = 1 then ((so path).map s.unregisterType).getD s else s
  { s' with refs := update s.refs path (s.refs path - 1), closed := s.closed ++ [path] }

/-- `dl_handles_[so_path] = handle`. -/
def record (handles : List SoPath) (path : SoPath) : List SoPath :=
  if path ∈ handles then handles else handles.orderedInsert (· ≤ ·) path

/-- `load_plugin`, which returns false if `dlopen` fails. -/
def loadPlugin (s : PluginHost) (path : SoPath) : Bool × PluginHost :=
  match so path with
  | none => (false, s)
  | some type =>
    let s := s.dlopen path type
    (true, { s with dlHandles := record s.dlHandles path })

/-- The recorded paths that contain the type. -/
def named (s : PluginHost) (type : HwipType) : List SoPath := s.dlHandles.filter (type <:+: ·)

/-- `unload_plugin`. -/
def unloadPlugin (s : PluginHost) (type : HwipType) : PluginHost :=
  let s' := { s with
    dlHandles := s.dlHandles.filter (¬type <:+: ·)
    removed := s.removed ++ s.named type }
  match (s.named type).getLast? with
  | none => s'
  | some handle => s'.dlclose so handle

end PluginHost

inductive PluginAct where
  | load (path : SoPath)
  | unload (type : HwipType)

/-- Every sequence of calls. -/
def pluginSystem (so : SoPath → Option HwipType) : System PluginHost PluginAct where
  init s := s = {}
  step
    | s, .load path => some (s.loadPlugin so path).2
    | s, .unload type => some (s.unloadPlugin so type)

/-! ## What unloading should do -/

/-- After `unload_plugin(type)` the type is not registered, every recorded plugin of another
type is still recorded and registered, and what is not recorded any more has been passed to
`dlclose` by the call. -/
structure Unloaded (so : SoPath → Option HwipType) (s : PluginHost) (type : HwipType) : Prop where
  unregistered : type ∉ (s.unloadPlugin so type).factories
  recorded : ∀ p ∈ s.dlHandles, so p ≠ some type → p ∈ (s.unloadPlugin so type).dlHandles
  registered : ∀ p ∈ s.dlHandles, ∀ u, so p = some u → u ≠ type →
    u ∈ (s.unloadPlugin so type).factories
  closed : ∀ p ∈ s.dlHandles, p ∉ (s.unloadPlugin so type).dlHandles →
    (s.unloadPlugin so type).closed.count p = s.closed.count p + 1

/-- At most one recorded path contains the type, and it is the path of a plugin of that type;
if the type is registered there is such a path, and it is open once. The other recorded
plugins are registered. -/
structure Unloadable (so : SoPath → Option HwipType) (s : PluginHost) (type : HwipType) :
    Prop where
  one : (s.named type).length ≤ 1
  named : ∀ p ∈ s.named type, so p = some type
  last : type ∈ s.factories → ∃ p ∈ s.named type, s.refs p = 1
  registered : ∀ p ∈ s.dlHandles, ∀ u, so p = some u → u ≠ type → u ∈ s.factories

/-! ## One call -/

section Unload

variable {so : SoPath → Option HwipType} {s : PluginHost} {type u : HwipType} {p q : SoPath}

theorem mem_named : p ∈ s.named type ↔ p ∈ s.dlHandles ∧ type <:+: p := by
  simp only [PluginHost.named, List.mem_filter, decide_eq_true_eq]

/-- Closing changes neither the records nor what has been erased from them. -/
theorem dlclose_frame :
    (s.dlclose so p).dlHandles = s.dlHandles ∧ (s.dlclose so p).removed = s.removed := by
  unfold PluginHost.dlclose
  split
  · cases so p with
    | none => exact ⟨rfl, rfl⟩
    | some _ => exact ⟨rfl, rfl⟩
  · exact ⟨rfl, rfl⟩

theorem mem_unload_dlHandles :
    p ∈ (s.unloadPlugin so type).dlHandles ↔ p ∈ s.dlHandles ∧ ¬type <:+: p := by
  have hfilter : (s.unloadPlugin so type).dlHandles = s.dlHandles.filter (¬type <:+: ·) := by
    unfold PluginHost.unloadPlugin
    split
    · rfl
    · rw [dlclose_frame.1]
  rw [hfilter, List.mem_filter, decide_eq_true_eq]

theorem mem_dlclose_factories :
    u ∈ (s.dlclose so p).factories ↔ u ∈ s.factories ∧ ¬(s.refs p = 1 ∧ so p = some u) := by
  unfold PluginHost.dlclose
  split
  · next hone =>
    cases hso : so p with
    | none => simp
    | some v =>
      simp only [Option.map_some, Option.getD_some, PluginHost.unregisterType, List.mem_filter,
        bne_iff_ne, ne_eq, hone, true_and, Option.some.injEq]
      exact and_congr_right fun _ => not_congr eq_comm
  · next hone => simp [hone]

/-- Nothing is recorded under the type. -/
theorem unload_none (so : SoPath → Option HwipType) (h : s.named type = []) :
    (s.unloadPlugin so type).factories = s.factories ∧
      (s.unloadPlugin so type).closed = s.closed ∧ (s.unloadPlugin so type).refs = s.refs := by
  simp only [PluginHost.unloadPlugin, h, List.getLast?_nil, and_self]

/-- The last path of those that contain the type is closed. -/
theorem unload_some (so : SoPath → Option HwipType)
    (h : (s.named type).getLast? = some q) :
    (∀ v, v ∈ (s.unloadPlugin so type).factories ↔
      v ∈ s.factories ∧ ¬(s.refs q = 1 ∧ so q = some v)) ∧
    (s.unloadPlugin so type).closed = s.closed ++ [q] ∧
    (s.unloadPlugin so type).refs = update s.refs q (s.refs q - 1) := by
  simp only [PluginHost.unloadPlugin, h]
  exact ⟨fun v => mem_dlclose_factories, rfl, rfl⟩

theorem unload_removed : (s.unloadPlugin so type).removed = s.removed ++ s.named type := by
  unfold PluginHost.unloadPlugin
  split
  · rfl
  · rw [dlclose_frame.2]

theorem getLast?_named (h : s.named type ≠ []) : ∃ q, (s.named type).getLast? = some q ∧
    q ∈ s.named type :=
  ⟨_, List.getLast?_eq_some_getLast h, List.getLast_mem h⟩

theorem mem_factories_of_unload (h : u ∈ (s.unloadPlugin so type).factories) :
    u ∈ s.factories := by
  by_cases hnil : s.named type = []
  · rwa [(unload_none so hnil).1] at h
  · obtain ⟨q, hlast, _⟩ := getLast?_named hnil
    exact (((unload_some so hlast).1 u).mp h).1

theorem unloadable_of_unloaded (hnodup : s.dlHandles.Nodup) (h : Unloaded so s type) :
    Unloadable so s type where
  one := by
    by_cases hnil : s.named type = []
    · rw [hnil]
      exact Nat.zero_le _
    · -- every path that contains the type has been closed, so it is the last one
      obtain ⟨q, hlast, hq⟩ := getLast?_named hnil
      have hall : ∀ p ∈ s.named type, p = q := by
        intro p hp
        obtain ⟨hmem, hinfix⟩ := mem_named.mp hp
        have hcount := h.closed p hmem fun hstill => (mem_unload_dlHandles.mp hstill).2 hinfix
        rw [(unload_some so hlast).2.1, List.count_append, List.count_singleton] at hcount
        by_contra hne
        rw [if_neg (by simpa using Ne.symm hne)] at hcount
        omega
      have hrep := List.eq_replicate_of_mem hall
      have hnamed : (s.named type).Nodup := hnodup.filter _
      rw [hrep] at hnamed
      exact List.nodup_replicate.mp hnamed
  named := by
    intro p hp
    obtain ⟨hmem, hinfix⟩ := mem_named.mp hp
    by_contra hne
    exact (mem_unload_dlHandles.mp (h.recorded p hmem hne)).2 hinfix
  last := by
    intro hreg
    by_cases hnil : s.named type = []
    · exact absurd ((unload_none so hnil).1 ▸ hreg) h.unregistered
    · obtain ⟨q, hlast, hq⟩ := getLast?_named hnil
      have hgone := h.unregistered
      rw [(unload_some so hlast).1] at hgone
      refine ⟨q, hq, ?_⟩
      by_contra hne
      exact hgone ⟨hreg, fun hone => hne hone.1⟩
  registered := fun p hp u hu hne => mem_factories_of_unload (h.registered p hp u hu hne)

theorem unloaded_of_unloadable (h : Unloadable so s type) : Unloaded so s type := by
  have hrecorded : ∀ p ∈ s.dlHandles, so p ≠ some type →
      p ∈ (s.unloadPlugin so type).dlHandles := fun p hp hne =>
    mem_unload_dlHandles.mpr ⟨hp, fun hinfix => hne (h.named p (mem_named.mpr ⟨hp, hinfix⟩))⟩
  by_cases hnil : s.named type = []
  · obtain ⟨hfactories, _, _⟩ := unload_none so hnil
    refine ⟨fun hreg => ?_, hrecorded, fun p hp u hu hne => ?_, fun p hp hgone => ?_⟩
    · obtain ⟨p, hp, _⟩ := h.last (hfactories ▸ hreg)
      rw [hnil] at hp
      cases hp
    · rw [hfactories]
      exact h.registered p hp u hu hne
    · have hnone : p ∉ s.named type := by
        rw [hnil]
        exact List.not_mem_nil
      exact absurd (mem_unload_dlHandles.mpr ⟨hp, fun hin => hnone (mem_named.mpr ⟨hp, hin⟩)⟩) hgone
  · obtain ⟨q, hlast, hq⟩ := getLast?_named hnil
    obtain ⟨hfactories, hclosed, _⟩ := unload_some so hlast
    have honly : ∀ p ∈ s.named type, p = q := by
      obtain ⟨x, hx⟩ := List.length_eq_one_iff.mp
        (Nat.le_antisymm h.one (List.length_pos_iff.mpr hnil))
      rw [hx] at hq ⊢
      intro p hp
      rw [List.mem_singleton.mp hp, List.mem_singleton.mp hq]
    refine ⟨fun hreg => ?_, hrecorded, fun p hp u hu hne => ?_, fun p hp hgone => ?_⟩
    · obtain ⟨hold, hkept⟩ := (hfactories type).mp hreg
      obtain ⟨p, hp, hone⟩ := h.last hold
      rw [honly p hp] at hone
      exact hkept ⟨hone, h.named q hq⟩
    · refine (hfactories u).mpr ⟨h.registered p hp u hu hne, fun hclose => hne ?_⟩
      exact Option.some.inj (hclose.2.symm.trans (h.named q hq))
    · have hp' : p ∈ s.named type := by
        by_contra hnot
        exact hgone (mem_unload_dlHandles.mpr ⟨hp, fun hin => hnot (mem_named.mpr ⟨hp, hin⟩)⟩)
      rw [hclosed, honly p hp', List.count_append, List.count_singleton_self]

end Unload

/-! ## Whole runs -/

variable {so : SoPath → Option HwipType} {s s' : PluginHost} {type : HwipType}

theorem mem_record {handles : List SoPath} {path p : SoPath} :
    p ∈ PluginHost.record handles path ↔ p = path ∨ p ∈ handles := by
  unfold PluginHost.record
  split
  · next hmem =>
    refine ⟨.inr, ?_⟩
    rintro (rfl | hp)
    · exact hmem
    · exact hp
  · exact List.mem_orderedInsert _

theorem nodup_record {handles : List SoPath} (h : handles.Nodup) (path : SoPath) :
    (PluginHost.record handles path).Nodup := by
  unfold PluginHost.record
  split
  · exact h
  · next hnot =>
    refine (List.perm_orderedInsert _ path handles).nodup_iff.mpr ?_
    exact List.nodup_cons.mpr ⟨hnot, h⟩

@[simp] theorem dlopen_dlHandles (s : PluginHost) (path : SoPath) (t : HwipType) :
    (s.dlopen path t).dlHandles = s.dlHandles := by
  unfold PluginHost.dlopen
  split <;> rfl

theorem nodup_step {a : PluginAct} (h : s.dlHandles.Nodup)
    (hs : (pluginSystem so).step s a = some s') : s'.dlHandles.Nodup := by
  cases a with
  | load path =>
    cases hs
    unfold PluginHost.loadPlugin
    split
    · exact h
    · simp only [dlopen_dlHandles]
      exact nodup_record h path
  | unload type =>
    cases hs
    unfold PluginHost.unloadPlugin
    split
    · exact h.filter _
    · rw [dlclose_frame.1]
      exact h.filter _

/-- The paths that contain the type are those of the plugins of that type; there is at most
one, and it is open once. -/
structure Tidy (so : SoPath → Option HwipType) (s : PluginHost) (type : HwipType) : Prop where
  named : ∀ p ∈ s.dlHandles, type <:+: p ↔ so p = some type
  one : (s.named type).length ≤ 1
  once : ∀ p ∈ s.named type, s.refs p = 1

/-- Every call of `unload_plugin` is tidy. -/
def TidyCalls (so : SoPath → Option HwipType) (s : PluginHost) (a : PluginAct) : Prop :=
  ∀ type, a = .unload type → Tidy so s type

/-- What then holds: a path is recorded while it is open, a type is registered while a plugin
of that type is recorded, and every handle that was erased has been closed. -/
structure InOrder (so : SoPath → Option HwipType) (s : PluginHost) : Prop where
  nodup : s.dlHandles.Nodup
  refs : ∀ p, p ∈ s.dlHandles ↔ 0 < s.refs p
  factories : ∀ u, u ∈ s.factories ↔ ∃ p ∈ s.dlHandles, so p = some u
  closed : ∀ p, s.removed.count p = s.closed.count p

theorem mem_dlopen_factories {path : SoPath} {t u : HwipType} :
    u ∈ (s.dlopen path t).factories ↔ u ∈ s.factories ∨ (s.refs path = 0 ∧ u = t) := by
  unfold PluginHost.dlopen
  split
  · next hzero =>
    simp only [PluginHost.registerType, hzero, true_and]
    split
    · next hmem =>
      refine ⟨.inl, ?_⟩
      rintro (hu | rfl)
      · exact hu
      · exact hmem
    · rw [List.mem_cons]
      exact or_comm
  · next hzero => simp [hzero]

theorem InOrder.load (h : InOrder so s) (path : SoPath) : InOrder so (s.loadPlugin so path).2 := by
  unfold PluginHost.loadPlugin
  split
  · exact h
  · next t hso =>
    have hrefs : (s.dlopen path t).refs = update s.refs path (s.refs path + 1) := by
      unfold PluginHost.dlopen
      split <;> rfl
    refine ⟨?_, fun p => ?_, fun u => ?_, fun p => ?_⟩
    · simp only [dlopen_dlHandles]
      exact nodup_record h.nodup path
    · simp only [dlopen_dlHandles, mem_record, hrefs]
      by_cases hp : p = path
      · rw [hp, Function.update_self]
        exact ⟨fun _ => Nat.succ_pos _, fun _ => .inl rfl⟩
      · rw [Function.update_of_ne hp, ← h.refs p]
        exact ⟨fun hor => hor.resolve_left hp, .inr⟩
    · simp only [dlopen_dlHandles, mem_dlopen_factories, mem_record, h.factories]
      constructor
      · rintro (⟨p, hp, hu⟩ | ⟨_, rfl⟩)
        · exact ⟨p, .inr hp, hu⟩
        · exact ⟨path, .inl rfl, hso⟩
      · rintro ⟨p, rfl | hp, hu⟩
        · cases hso.symm.trans hu
          rcases Nat.eq_zero_or_pos (s.refs p) with hzero | hpos
          · exact .inr ⟨hzero, rfl⟩
          · exact .inl ⟨p, (h.refs p).mpr hpos, hso⟩
        · exact .inl ⟨p, hp, hu⟩
    · unfold PluginHost.dlopen
      split <;> exact h.closed p

theorem InOrder.unload (h : InOrder so s) (htidy : Tidy so s type) :
    InOrder so (s.unloadPlugin so type) := by
  have hnodup : (s.unloadPlugin so type).dlHandles.Nodup :=
    nodup_step (a := .unload type) h.nodup rfl
  have hother : ∀ p, p ∈ s.dlHandles → p ∉ s.named type → ¬type <:+: p :=
    fun p hp hnot hin => hnot (mem_named.mpr ⟨hp, hin⟩)
  rcases Nat.le_one_iff_eq_zero_or_eq_one.mp htidy.one with hzero | hone
  · have hnil := List.length_eq_zero_iff.mp hzero
    have hsame : ∀ p, p ∈ (s.unloadPlugin so type).dlHandles ↔ p ∈ s.dlHandles := by
      intro p
      rw [mem_unload_dlHandles]
      exact ⟨And.left, fun hp => ⟨hp, hother p hp (by rw [hnil]; exact List.not_mem_nil)⟩⟩
    obtain ⟨hfactories, hclosed, hrefs⟩ := unload_none so hnil
    refine ⟨hnodup, fun p => ?_, fun u => ?_, fun p => ?_⟩
    · rw [hsame, hrefs]
      exact h.refs p
    · simp only [hsame, hfactories]
      exact h.factories u
    · rw [unload_removed, hnil, List.append_nil, hclosed]
      exact h.closed p
  · obtain ⟨q, hq⟩ := List.length_eq_one_iff.mp hone
    have hqmem : q ∈ s.named type := by rw [hq]; exact List.mem_singleton_self q
    have hqinfix := (mem_named.mp hqmem).2
    have hqtype : so q = some type := (htidy.named q (mem_named.mp hqmem).1).mp hqinfix
    obtain ⟨hfactories, hclosed, hrefs⟩ := unload_some so
      (show (s.named type).getLast? = some q by rw [hq]; rfl)
    refine ⟨hnodup, fun p => ?_, fun u => ?_, fun p => ?_⟩
    · rw [mem_unload_dlHandles, hrefs]
      by_cases hp : p = q
      · rw [hp, Function.update_self, htidy.once q hqmem]
        exact ⟨fun hand => absurd hqinfix hand.2, fun hlt => absurd hlt (Nat.lt_irrefl 0)⟩
      · rw [Function.update_of_ne hp, ← h.refs p]
        refine ⟨And.left, fun hmem => ⟨hmem, hother p hmem ?_⟩⟩
        rw [hq]
        exact fun hmem => hp (List.mem_singleton.mp hmem)
    · rw [hfactories u, h.factories u]
      simp only [mem_unload_dlHandles]
      constructor
      · rintro ⟨⟨p, hp, hu⟩, hkept⟩
        refine ⟨p, ⟨hp, fun hin => hkept ⟨htidy.once q hqmem, ?_⟩⟩, hu⟩
        rw [hqtype, ← (htidy.named p hp).mp hin, hu]
      · rintro ⟨p, ⟨hp, hnot⟩, hu⟩
        refine ⟨⟨p, hp, hu⟩, fun hand => hnot ((htidy.named p hp).mpr ?_)⟩
        rw [hu, ← hand.2, hqtype]
    · rw [unload_removed, hq, hclosed, List.count_append, List.count_append, h.closed p]

/-- In such a run a tidy call finds all it needs. -/
theorem InOrder.unloadable (h : InOrder so s) (htidy : Tidy so s type) : Unloadable so s type where
  one := htidy.one
  named := by
    intro p hp
    obtain ⟨hmem, hinfix⟩ := mem_named.mp hp
    exact (htidy.named p hmem).mp hinfix
  last := by
    intro hreg
    obtain ⟨p, hp, hu⟩ := (h.factories type).mp hreg
    have hnamed := mem_named.mpr ⟨hp, (htidy.named p hp).mpr hu⟩
    exact ⟨p, hnamed, htidy.once p hnamed⟩
  registered := fun p hp u hu _ => (h.factories u).mpr ⟨p, hp, hu⟩

theorem inOrder_init : InOrder so {} where
  nodup := .nil
  refs := fun _ => ⟨fun hp => absurd hp List.not_mem_nil, fun hlt => absurd hlt (Nat.lt_irrefl 0)⟩
  factories := fun _ =>
    ⟨fun hu => absurd hu List.not_mem_nil, fun ⟨_, hp, _⟩ => absurd hp List.not_mem_nil⟩
  closed := fun _ => rfl

theorem reach_inOrder (h : Reach (pluginSystem so) (TidyCalls so) s) : InOrder so s := by
  refine h.invariant (fun s h0 => ?_) fun s a s' hs htidy hstep => ?_
  · cases h0
    exact inOrder_init
  · cases a with
    | load path =>
      cases hstep
      exact hs.load path
    | unload type =>
      cases hstep
      exact hs.unload (htidy type rfl)

theorem reach_nodup (h : Reach (pluginSystem so) (fun _ _ => True) s) : s.dlHandles.Nodup := by
  refine h.invariant (P := fun s => s.dlHandles.Nodup) (fun s h0 => ?_)
    fun s a s' hs _ hstep => nodup_step hs hstep
  cases h0
  exact .nil

/-- After any calls, `unload_plugin` does what it should exactly when the plugin is
`Unloadable`. This is about one call: the plugins that are recorded when it is made, and the
handles that it erases. In a run all of whose unloads are tidy it always does, and every handle
that was ever erased has been closed. -/
theorem unload_plugin_iff (so : SoPath → Option HwipType) :
    (∀ s, Reach (pluginSystem so) (fun _ _ => True) s →
      ∀ type, Unloaded so s type ↔ Unloadable so s type) ∧
    (∀ s, Reach (pluginSystem so) (TidyCalls so) s → ∀ type, Tidy so s type →
      Unloaded so s type ∧ ∀ p, (s.unloadPlugin so type).removed.count p =
        (s.unloadPlugin so type).closed.count p) := by
  constructor
  · intro s h type
    exact ⟨unloadable_of_unloaded (reach_nodup h), unloaded_of_unloadable⟩
  · intro s h type htidy
    have hs := reach_inOrder h
    exact ⟨unloaded_of_unloadable (hs.unloadable htidy), (hs.unload htidy).closed⟩

/-- The plugins of the repository, in a directory named after one of them. -/
def pluginsInAccel : SoPath → Option HwipType := fun path =>
  if path = "/opt/accel/hwip_accel.so".toList then some "accel".toList
  else if path = "/opt/accel/hwip_crc32.so".toList then some "crc32".toList
  else none

/-- What two calls of `load_plugin` make of them. -/
def bothLoaded : PluginHost :=
  (({} : PluginHost).loadPlugin pluginsInAccel "/opt/accel/hwip_accel.so".toList).2.loadPlugin
    pluginsInAccel "/opt/accel/hwip_crc32.so".toList |>.2

theorem bothLoaded_reach {G : PluginHost → PluginAct → Prop} (hload : ∀ s path, G s (.load path)) :
    Reach (pluginSystem pluginsInAccel) G bothLoaded :=
  .step (a := .load "/opt/accel/hwip_crc32.so".toList)
    (.step (a := .load "/opt/accel/hwip_accel.so".toList) (.init rfl) (hload _ _) rfl)
    (hload _ _) rfl

/-- Unloading `crc32` is tidy there. -/
theorem unload_plugin_crc32 : Unloaded pluginsInAccel bothLoaded "crc32".toList := by
  have htidy : Tidy pluginsInAccel bothLoaded "crc32".toList :=
    ⟨by decide, by decide, by decide⟩
  refine ((unload_plugin_iff pluginsInAccel).2 bothLoaded ?_ _ htidy).1
  exact bothLoaded_reach fun _ _ _ h => nomatch h

/-- Unloading `accel` takes both handles for it and closes that of `crc32`. -/
theorem unload_hits_other_plugin :
    ¬∀ so s, Reach (pluginSystem so) (fun _ _ => True) s → ∀ type, Unloaded so s type := by
  intro h
  have hunloaded := h pluginsInAccel bothLoaded (bothLoaded_reach fun _ _ => trivial) "accel".toList
  exact hunloaded.unregistered (by decide)

end Deepspan
