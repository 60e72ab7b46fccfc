import Mathlib.Data.List.Nodup
import Deepspan.Server.Services

/-!
# Listing the devices

`HwipRegistry::enumerate_devices` asks the factory of every type for devices 0, 1, 2, …
and stops at the first that has no segment, while `GetDeviceStatus` goes straight to one
id. A segment's name does not say which type it belongs to.

So a type's list is the initial run of the segments (`enumerateFrom_eq`): what is behind a
gap is missing, and two types list every segment of the run twice. `listing_right_iff`
says when the listing and the status calls agree; `listing_behind_gap` is an instance
where they do not.
-/

namespace Deepspan

/-- The loop of `enumerate_devices` over the indices of one type, with `n` rounds to go.
Both factories are `std::make_unique`, which does not return null. -/
def enumerateFrom (shm : Shm) (type : List Char) (kind : PluginKind) : Nat → Nat → List DeviceInfo
  | 0, _ => []
  | n + 1, idx =>
    let devId := deviceIdOf type idx
    match (kind.construct shm devId).result with
    | .error _ => []
    | .ok sub =>
      if sub.deviceState < 0 then []
      else ⟨devId, sub.deviceState⟩ :: enumerateFrom shm type kind n (idx + 1)

/-- `HwipRegistry::enumerate_devices`. -/
def HwipRegistry.enumerateDevices (reg : HwipRegistry) (shm : Shm) : List DeviceInfo :=
  reg.factories.flatMap fun factory => enumerateFrom shm factory.1 factory.2 64 0

/-! ## The list of one type -/

/-- Shared memory with the given segments and nothing else. -/
def shmOf (segs : Nat → Option Segment) : Shm
  | .ofNat n =>
    match segs n with
    | none => .absent
    | some seg => .mapped seg
  | .negSucc _ => .absent

/-- What a plugin on this segment reports. -/
def segmentState (seg : Option Segment) : Int :=
  match seg with
  | none => -1
  | some seg => if seg.reg.status &&& StatusBits.ready != 0 then 2 else 1

theorem segmentState_nonneg (seg : Option Segment) : 0 ≤ segmentState seg ↔ seg.isSome = true := by
  cases seg with
  | none => decide
  | some seg =>
    simp only [segmentState, Option.isSome_some, iff_true]
    split <;> decide

section Listing

variable {segs : Nat → Option Segment} {type : List Char} {n : Nat}

theorem shmOf_natCast : shmOf segs (n : Int) =
    match segs n with | none => .absent | some seg => .mapped seg := rfl

/-- A plugin for device `n` has the segment of that number, or none. -/
theorem construct_deviceIdOf (kind : PluginKind) (hn : n ≤ intMax) :
    (kind.construct (shmOf segs) (deviceIdOf type n)).result =
      .ok ⟨kind, deviceIdOf type n, n, segs n⟩ := by
  have hidx := index_deviceIdOf type hn
  have hnonneg := index_deviceIdOf_nonneg type hn
  cases hseg : segs n with
  | none =>
    have habsent : shmOf segs (indexBehindSlash (deviceIdOf type n)) = .absent := by
      rw [hidx, shmOf_natCast, hseg]
    rw [construct_absent kind hnonneg habsent, hidx]
  | some seg =>
    have hmapped : shmOf segs (indexBehindSlash (deviceIdOf type n)) = .mapped seg := by
      rw [hidx, shmOf_natCast, hseg]
    rw [construct_mapped kind hnonneg hmapped, hidx]

/-- The listing goes on as long as there are segments. -/
theorem enumerateFrom_eq (kind : PluginKind) {k idx : Nat} (h : idx + k ≤ 64) :
    enumerateFrom (shmOf segs) type kind k idx =
      ((List.range' idx k).takeWhile fun m => (segs m).isSome).map fun m =>
        ⟨deviceIdOf type m, segmentState (segs m)⟩ := by
  induction k generalizing idx with
  | zero => rfl
  | succ k ih =>
    have hn : idx ≤ intMax := by
      have hmax : 64 ≤ intMax := by decide
      omega
    have hstate : (⟨kind, deviceIdOf type idx, idx, segs idx⟩ : Plugin).deviceState =
        segmentState (segs idx) := rfl
    simp only [enumerateFrom, construct_deviceIdOf kind hn, hstate, List.range'_succ]
    cases hseg : segs idx with
    | none =>
      rw [List.takeWhile_cons_of_neg (by simp [hseg])]
      rfl
    | some seg =>
      have hnonneg : ¬segmentState (some seg) < 0 :=
        Int.not_lt.mpr ((segmentState_nonneg _).mpr rfl)
      rw [if_neg hnonneg, ih (by omega), List.takeWhile_cons_of_pos (by simp [hseg]),
        List.map_cons, hseg]

/-- The segments that every type lists: those before the first gap. -/
def listedIndices (segs : Nat → Option Segment) : List Nat :=
  (List.range' 0 64).takeWhile fun m => (segs m).isSome

theorem mem_takeWhile_range' {p : Nat → Bool} {k idx : Nat} :
    n ∈ (List.range' idx k).takeWhile p ↔
      idx ≤ n ∧ n < idx + k ∧ ∀ m, idx ≤ m → m ≤ n → p m = true := by
  induction k generalizing idx with
  | zero =>
    simp only [List.range'_zero, List.takeWhile_nil, List.not_mem_nil, false_iff]
    omega
  | succ k ih =>
    rw [List.range'_succ]
    by_cases hp : p idx = true
    · rw [List.takeWhile_cons_of_pos hp, List.mem_cons, ih]
      constructor
      · rintro (rfl | ⟨hle, hlt, hall⟩)
        · refine ⟨Nat.le_refl _, by omega, ?_⟩
          intro m hm hm'
          rwa [Nat.le_antisymm hm' hm]
        · refine ⟨by omega, by omega, ?_⟩
          intro m hm hm'
          rcases Nat.eq_or_lt_of_le hm with rfl | hlt'
          · exact hp
          · exact hall m hlt' hm'
      · rintro ⟨hle, hlt, hall⟩
        rcases Nat.eq_or_lt_of_le hle with heq | hlt'
        · exact .inl heq.symm
        · refine .inr ⟨hlt', by omega, ?_⟩
          intro m hm hm'
          exact hall m (by omega) hm'
    · rw [List.takeWhile_cons_of_neg hp]
      simp only [List.not_mem_nil, false_iff]
      rintro ⟨hle, _, hall⟩
      exact hp (hall idx (Nat.le_refl _) hle)

theorem mem_listedIndices :
    n ∈ listedIndices segs ↔ n < 64 ∧ ∀ m ≤ n, (segs m).isSome = true := by
  rw [listedIndices, mem_takeWhile_range']
  simp

theorem listedIndices_nodup : (listedIndices segs).Nodup :=
  (List.takeWhile_sublist _).nodup List.nodup_range'

theorem enumerateDevices_eq (reg : HwipRegistry) :
    reg.enumerateDevices (shmOf segs) = reg.factories.flatMap fun factory =>
      (listedIndices segs).map fun m => ⟨deviceIdOf factory.1 m, segmentState (segs m)⟩ := by
  unfold HwipRegistry.enumerateDevices
  congr 1
  funext factory
  exact enumerateFrom_eq factory.2 (Nat.le_refl 64)

theorem mem_enumerateDevices {reg : HwipRegistry} {info : DeviceInfo} :
    info ∈ reg.enumerateDevices (shmOf segs) ↔ ∃ factory ∈ reg.factories,
      ∃ m ∈ listedIndices segs, ⟨deviceIdOf factory.1 m, segmentState (segs m)⟩ = info := by
  simp only [enumerateDevices_eq, List.mem_flatMap, List.mem_map]

theorem index_of_listed {m : Nat} (h : m ∈ listedIndices segs) (type : List Char) :
    indexBehindSlash (deviceIdOf type m) = m := by
  have hlt := (mem_listedIndices.mp h).1
  have hmax : 64 ≤ intMax := by decide
  exact index_deviceIdOf type (by omega)

end Listing

/-! ## The listing against the status calls -/

/-- The indices of the segments that the listed ids name. -/
def HwipRegistry.listedSegments (reg : HwipRegistry) (shm : Shm) : List Int :=
  (reg.enumerateDevices shm).map fun info => indexBehindSlash info.deviceId

/-- The listing corresponds to the segments one to one, and to the answers of
`GetDeviceStatus` about the ids in question. -/
structure ListingRight (reg : HwipRegistry) (segs : Nat → Option Segment)
    (ids : List Char → Prop) : Prop where
  all : ∀ n, (segs n).isSome = true → (n : Int) ∈ reg.listedSegments (shmOf segs)
  only : ∀ idx ∈ reg.listedSegments (shmOf segs), ∃ n : Nat, idx = n ∧ (segs n).isSome = true
  once : (reg.listedSegments (shmOf segs)).Nodup
  status : ∀ deviceId, ids deviceId → ∀ state,
    ⟨deviceId, state⟩ ∈ reg.enumerateDevices (shmOf segs) ↔
      0 ≤ state ∧ (getDeviceStatus reg (shmOf segs) deviceId).result = .ok ⟨deviceId, state⟩

/-- The ids `<type>/<N>` of the registered types. -/
def RegisteredId (reg : HwipRegistry) (deviceId : List Char) : Prop :=
  ∃ type n, (reg.find? type).isSome = true ∧ deviceId = deviceIdOf type n

/-- Exactly one type is registered, and `parse_device_id` gives it back. -/
def SingleType (reg : HwipRegistry) : Prop :=
  ∃ type kind, reg.factories = [(type, kind)] ∧ type ≠ [] ∧ '/' ∉ type

/-- The segments are numbered from 0 on without a gap. -/
def NoGap (segs : Nat → Option Segment) : Prop :=
  ∀ n, (segs n).isSome = true → ∀ m ≤ n, (segs m).isSome = true

section Right

variable {reg : HwipRegistry} {segs : Nat → Option Segment} {type : List Char} {kind : PluginKind}

theorem listedSegments_eq : reg.listedSegments (shmOf segs) =
    reg.factories.flatMap fun _ => (listedIndices segs).map fun m : Nat => (m : Int) := by
  have hindex : ∀ factory : List Char × PluginKind,
      ((listedIndices segs).map fun m =>
        (⟨deviceIdOf factory.1 m, segmentState (segs m)⟩ : DeviceInfo)).map
          (fun info => indexBehindSlash info.deviceId) =
        (listedIndices segs).map fun m : Nat => (m : Int) := by
    intro factory
    rw [List.map_map]
    exact List.map_congr_left fun m hm => index_of_listed hm factory.1
  rw [HwipRegistry.listedSegments, enumerateDevices_eq, List.map_flatMap]
  congr 1
  funext factory
  exact hindex factory

/-- `GetDeviceStatus` on the id of a device whose type is found. -/
theorem getDeviceStatus_deviceIdOf {n : Nat} (hn : n ≤ intMax)
    (hkind : reg.factoryFor (deviceIdOf type n) = some kind) :
    (getDeviceStatus reg (shmOf segs) (deviceIdOf type n)).result =
      .ok ⟨deviceIdOf type n, segmentState (segs n)⟩ := by
  rw [getDeviceStatus, submitterFor_some hkind, construct_deviceIdOf kind hn]
  rfl

theorem factoryFor_of_status {deviceId : List Char} {shm : Shm} {info : DeviceInfo}
    (h : (getDeviceStatus reg shm deviceId).result = .ok info) :
    (reg.factoryFor deviceId).isSome = true := by
  cases hkind : reg.factoryFor deviceId with
  | some kind => rfl
  | none =>
    have hrefused : (submitterFor reg shm deviceId).result.isOk = false :=
      (submitterFor_none hkind).2
    unfold getDeviceStatus at h
    cases hres : (submitterFor reg shm deviceId).result with
    | ok plugin =>
      rw [hres] at hrefused
      cases hrefused
    | error code message => simp only [hres] at h; cases h
    | threw what => simp only [hres] at h; cases h

/-- Every segment is listed only if there is no gap before it. -/
theorem ListingRight.noGap {ids : List Char → Prop} (h : ListingRight reg segs ids) :
    NoGap segs := by
  intro n hn
  have hlisted := h.all n hn
  rw [listedSegments_eq, List.mem_flatMap] at hlisted
  obtain ⟨factory, _, hmem⟩ := hlisted
  obtain ⟨m, hm, heq⟩ := List.mem_map.mp hmem
  cases Int.ofNat_inj.mp heq
  exact (mem_listedIndices.mp hm).2

theorem find?_singleton (hreg : reg.factories = [(type, kind)]) (other : List Char) :
    reg.find? other = if other = type then some kind else none := by
  rw [HwipRegistry.find?, hreg, List.lookup_cons, List.lookup_nil]
  by_cases h : other = type
  · rw [if_pos h, beq_iff_eq.mpr h]
  · rw [if_neg h, beq_false_of_ne h]

/-- A listing that is right, of something, is that of one type. -/
theorem ListingRight.singleType (h : ListingRight reg segs (RegisteredId reg)) {n : Nat}
    (hn : (segs n).isSome = true) (hlt : n < 64) : SingleType reg := by
  have hzero : 0 ∈ listedIndices segs :=
    mem_listedIndices.mpr ⟨by decide, fun m hm => h.noGap n hn m (by omega)⟩
  have honce := h.once
  have hall := h.all n hn
  rw [listedSegments_eq] at honce hall
  cases hreg : reg.factories with
  | nil =>
    rw [hreg] at hall
    cases hall
  | cons first rest =>
    obtain ⟨type, kind⟩ := first
    cases rest with
    | cons second rest =>
      -- both list segment 0
      rw [hreg, List.flatMap_cons, List.flatMap_cons, List.nodup_append] at honce
      have hmem : (0 : Int) ∈ (listedIndices segs).map fun m : Nat => (m : Int) :=
        List.mem_map.mpr ⟨0, hzero, rfl⟩
      exact absurd rfl (honce.2.2 0 hmem 0 (List.mem_append_left _ hmem))
    | nil =>
      have hmem : ⟨deviceIdOf type 0, segmentState (segs 0)⟩ ∈
          reg.enumerateDevices (shmOf segs) := by
        rw [mem_enumerateDevices, hreg]
        exact ⟨_, List.mem_singleton_self _, 0, hzero, rfl⟩
      have hregistered : RegisteredId reg (deviceIdOf type 0) :=
        ⟨type, 0, by rw [find?_singleton hreg, if_pos rfl]; rfl, rfl⟩
      have hstatus := ((h.status _ hregistered _).mp hmem).2
      have hfactory := factoryFor_of_status hstatus
      rw [factoryFor_deviceIdOf] at hfactory
      split at hfactory
      · cases hfactory
      · next hne =>
        rw [find?_singleton hreg] at hfactory
        split at hfactory
        · next heq =>
          refine ⟨type, kind, hreg, heq ▸ hne, ?_⟩
          intro hslash
          have hchar := List.takeWhile_eq_self_iff.mp heq '/' hslash
          cases hchar
        · cases hfactory

/-- Without segments there is no plugin that has one. -/
theorem construct_of_empty (h : ∀ n, segs n = none) {deviceId : List Char} {plugin : Plugin}
    (hmade : (kind.construct (shmOf segs) deviceId).result = .ok plugin) :
    plugin.deviceState = -1 := by
  have habsent : ∀ idx, shmOf segs idx = .absent := by
    intro idx
    cases idx with
    | ofNat n => simp only [shmOf, h n]
    | negSucc n => rfl
  by_cases hneg : indexBehindSlash deviceId < 0
  · rw [construct_negative kind hneg] at hmade
    cases hmade
  · rw [construct_absent kind (Int.not_lt.mp hneg) (habsent _)] at hmade
    cases hmade
    rfl

theorem getDeviceStatus_of_empty (h : ∀ n, segs n = none) {deviceId : List Char}
    {info : DeviceInfo} (hstatus : (getDeviceStatus reg (shmOf segs) deviceId).result = .ok info) :
    info.state = -1 := by
  obtain ⟨kind, hkind⟩ := Option.isSome_iff_exists.mp (factoryFor_of_status hstatus)
  rw [getDeviceStatus, submitterFor_some hkind] at hstatus
  cases hmade : (kind.construct (shmOf segs) deviceId).result with
  | error what => simp only [hmade] at hstatus; cases hstatus
  | ok plugin =>
    simp only [hmade, RpcEnd.ok.injEq] at hstatus
    subst hstatus
    exact construct_of_empty h hmade

/-- No segments, nothing listed. -/
theorem listingRight_of_empty (h : ∀ n, segs n = none) (ids : List Char → Prop) :
    ListingRight reg segs ids := by
  have hnone : ∀ info, info ∉ reg.enumerateDevices (shmOf segs) := by
    intro info hmem
    obtain ⟨factory, _, m, hm, _⟩ := mem_enumerateDevices.mp hmem
    have hsome := (mem_listedIndices.mp hm).2 m (Nat.le_refl m)
    rw [h m] at hsome
    cases hsome
  have hlisted : reg.listedSegments (shmOf segs) = [] := by
    rw [HwipRegistry.listedSegments, List.eq_nil_iff_forall_not_mem.mpr hnone]
    rfl
  constructor
  · intro n hn
    rw [h n] at hn
    cases hn
  · intro idx hidx
    rw [hlisted] at hidx
    cases hidx
  · rw [hlisted]
    exact List.nodup_nil
  · intro deviceId _ state
    refine ⟨fun hmem => absurd hmem (hnone _), ?_⟩
    rintro ⟨hnonneg, hstatus⟩
    have hstate := getDeviceStatus_of_empty h hstatus
    simp only at hstate
    omega

theorem mem_listedIndices_of_noGap (hgap : NoGap segs) (h64 : ∀ n, 64 ≤ n → segs n = none) {n : Nat} :
    n ∈ listedIndices segs ↔ (segs n).isSome = true := by
  rw [mem_listedIndices]
  constructor
  · rintro ⟨_, hall⟩
    exact hall n (Nat.le_refl n)
  · intro hn
    refine ⟨?_, hgap n hn⟩
    by_contra hbig
    rw [h64 n (by omega)] at hn
    cases hn

/-- What `GetDeviceStatus` answers about device `n` of the one type. -/
theorem getDeviceStatus_single (hreg : reg.factories = [(type, kind)]) (hne : type ≠ [])
    (hslash : '/' ∉ type) (h64 : ∀ n, 64 ≤ n → segs n = none) (n : Nat) (state : Int) :
    (0 ≤ state ∧ (getDeviceStatus reg (shmOf segs) (deviceIdOf type n)).result =
      .ok ⟨deviceIdOf type n, state⟩) ↔ (segs n).isSome = true ∧ segmentState (segs n) = state := by
  have htype : typePart type = type :=
    List.takeWhile_eq_self_iff.mpr fun c hc => bne_iff_ne.mpr fun heq => hslash (heq ▸ hc)
  have hkind : reg.factoryFor (deviceIdOf type n) = some kind := by
    rw [factoryFor_deviceIdOf, htype, if_neg hne, find?_singleton hreg, if_pos rfl]
  by_cases hn : n ≤ intMax
  · rw [getDeviceStatus_deviceIdOf hn hkind, ← segmentState_nonneg]
    constructor
    · rintro ⟨hnonneg, hok⟩
      cases hok
      exact ⟨hnonneg, rfl⟩
    · rintro ⟨hnonneg, rfl⟩
      exact ⟨hnonneg, rfl⟩
  · have hneg : indexBehindSlash (deviceIdOf type n) < 0 := by
      rw [indexBehindSlash_deviceIdOf, if_neg hn]
      decide
    have hmax : 64 ≤ intMax := by decide
    rw [getDeviceStatus, submitterFor_some hkind, construct_negative kind hneg,
      h64 n (by omega)]
    constructor
    · rintro ⟨_, hok⟩
      cases hok
    · rintro ⟨hsome, _⟩
      cases hsome

/-- One type and no gap: the listing is right. -/
theorem listingRight_of_single (hsingle : SingleType reg) (hgap : NoGap segs)
    (h64 : ∀ n, 64 ≤ n → segs n = none) : ListingRight reg segs (RegisteredId reg) := by
  obtain ⟨type, kind, hreg, hne, hslash⟩ := hsingle
  have hmem : ∀ n, n ∈ listedIndices segs ↔ (segs n).isSome = true :=
    fun n => mem_listedIndices_of_noGap hgap h64
  have hlisted : reg.listedSegments (shmOf segs) =
      (listedIndices segs).map fun m : Nat => (m : Int) := by
    rw [listedSegments_eq, hreg, List.flatMap_singleton]
  constructor
  · intro n hn
    rw [hlisted]
    exact List.mem_map.mpr ⟨n, (hmem n).mpr hn, rfl⟩
  · intro idx hidx
    rw [hlisted] at hidx
    obtain ⟨n, hn, rfl⟩ := List.mem_map.mp hidx
    exact ⟨n, rfl, (hmem n).mp hn⟩
  · rw [hlisted]
    exact List.Nodup.map (fun _ _ h => Int.ofNat_inj.mp h) listedIndices_nodup
  · rintro deviceId ⟨other, n, hother, rfl⟩ state
    have heq : other = type := by
      rw [find?_singleton hreg] at hother
      split at hother
      · assumption
      · cases hother
    subst heq
    rw [getDeviceStatus_single hreg hne hslash h64, mem_enumerateDevices, hreg]
    constructor
    · rintro ⟨factory, hfactory, m, hm, hinfo⟩
      rw [List.mem_singleton.mp hfactory, DeviceInfo.mk.injEq] at hinfo
      cases deviceIdOf_injective other hinfo.1
      exact ⟨(hmem n).mp hm, hinfo.2⟩
    · rintro ⟨hsome, rfl⟩
      exact ⟨_, List.mem_singleton_self _, n, (hmem n).mpr hsome, rfl⟩

/-- `<type>/0N` is answered like `<type>/N` and listed never. -/
theorem not_listingRight_everywhere (hsingle : SingleType reg) (hzero : (segs 0).isSome = true) :
    ¬ListingRight reg segs fun _ => True := by
  obtain ⟨type, kind, hreg, hne, hslash⟩ := hsingle
  intro h
  have hparse : parseDeviceId (type ++ '/' :: ['0', '0']) = some (type, ['0', '0']) := by
    rw [parseDeviceId_append hslash, if_neg (by simp [hne])]
  have hkind : reg.factoryFor (type ++ '/' :: ['0', '0']) = some kind := by
    rw [HwipRegistry.factoryFor, hparse, Option.map_some, Option.bind_some, find?_singleton hreg,
      if_pos rfl]
  have hidx : indexBehindSlash (type ++ '/' :: ['0', '0']) = 0 := by
    rw [indexBehindSlash_append type (by decide)]
    decide
  obtain ⟨seg, hseg⟩ := Option.isSome_iff_exists.mp hzero
  have hmapped : shmOf segs (indexBehindSlash (type ++ '/' :: ['0', '0'])) = .mapped seg := by
    rw [hidx]
    show (match segs 0 with | none => ShmObject.absent | some seg => .mapped seg) = _
    rw [hseg]
  have hstatus : (getDeviceStatus reg (shmOf segs) (type ++ '/' :: ['0', '0'])).result =
      .ok ⟨type ++ '/' :: ['0', '0'], segmentState (some seg)⟩ := by
    rw [getDeviceStatus, submitterFor_some hkind,
      construct_mapped kind (Int.le_of_eq hidx.symm) hmapped]
    rfl
  -- if the answer were in the listing, some index would be written `00`
  have hlisted := (h.status _ trivial _).mpr ⟨(segmentState_nonneg (some seg)).mpr rfl, hstatus⟩
  obtain ⟨factory, hfactory, m, _, hinfo⟩ := mem_enumerateDevices.mp hlisted
  rw [hreg, List.mem_singleton] at hfactory
  rw [hfactory, DeviceInfo.mk.injEq] at hinfo
  have hdigits : decimal m = ['0', '0'] := (List.cons.inj (List.append_cancel_left hinfo.1)).2
  have hm : m = 0 := by
    have hvalue : Nat.ofDigitChars 10 (decimal m) 0 = 0 := by
      rw [hdigits]
      rfl
    rwa [decimal, Nat.ofDigitChars_ten_toDigits] at hvalue
  rw [hm] at hdigits
  exact absurd hdigits (by decide)

end Right

/-- The listing is right about the ids of the registered types exactly if there are no
segments, or one type and no gap; about all ids that the status call answers, only if
there are no segments. -/
theorem listing_right_iff (reg : HwipRegistry) {segs : Nat → Option Segment}
    (h64 : ∀ n, 64 ≤ n → segs n = none) :
    (ListingRight reg segs (RegisteredId reg) ↔
      (∀ n, segs n = none) ∨ SingleType reg ∧ NoGap segs) ∧
    ((ListingRight reg segs fun _ => True) ↔ ∀ n, segs n = none) := by
  have hsingle : ListingRight reg segs (RegisteredId reg) → ∀ n, (segs n).isSome = true →
      SingleType reg := by
    intro h n hn
    refine h.singleType hn ?_
    by_contra hbig
    rw [h64 n (by omega)] at hn
    cases hn
  have hempty : (∀ n, segs n = none) ∨ ∃ n, (segs n).isSome = true := by
    by_cases h : ∃ n, (segs n).isSome = true
    · exact .inr h
    · refine .inl fun n => ?_
      exact Option.not_isSome_iff_eq_none.mp fun hn => h ⟨n, hn⟩
  refine ⟨⟨?_, ?_⟩, ?_, fun h => listingRight_of_empty h _⟩
  · intro h
    rcases hempty with hnone | ⟨n, hn⟩
    · exact .inl hnone
    · exact .inr ⟨hsingle h n hn, h.noGap⟩
  · rintro (hnone | ⟨hone, hgap⟩)
    · exact listingRight_of_empty hnone _
    · exact listingRight_of_single hone hgap h64
  · intro h
    rcases hempty with hnone | ⟨n, hn⟩
    · exact hnone
    · -- right about all ids is right about the registered ones, so there is one type
      have hregistered : ListingRight reg segs (RegisteredId reg) :=
        ⟨h.all, h.only, h.once, fun deviceId _ => h.status deviceId trivial⟩
      exact absurd h (not_listingRight_everywhere (hsingle hregistered n hn)
        (h.noGap n hn 0 (Nat.zero_le n)))

/-- Segments with these numbers, each served by a hw-model. -/
def segmentsAt (numbers : List Nat) (n : Nat) : Option Segment :=
  if n ∈ numbers then some (hwModelInit 0 .zero).seg else none

theorem listing_right_three :
    ListingRight accelRegistry (segmentsAt [0, 1, 2]) (RegisteredId accelRegistry) := by
  have hbelow : ∀ n, 64 ≤ n → segmentsAt [0, 1, 2] n = none := by
    intro n hn
    exact if_neg (by simp; omega)
  have hthere : ∀ n, (segmentsAt [0, 1, 2] n).isSome = true ↔ n ∈ [0, 1, 2] := by
    intro n
    rw [segmentsAt]
    split
    · next hmem => exact iff_of_true rfl hmem
    · next hmem => exact iff_of_false (by decide) hmem
  refine ((listing_right_iff accelRegistry hbelow).1).mpr
    (.inr ⟨⟨_, _, rfl, by decide, by decide⟩, ?_⟩)
  intro n hn m hm
  rw [hthere] at hn ⊢
  simp only [List.mem_cons, List.not_mem_nil, or_false] at hn ⊢
  omega

/-- A server with both plugins. -/
def bothRegistry : HwipRegistry := ⟨[("accel".toList, .accel), ("crc32".toList, .crc32)], by decide⟩

/-- Segments 0 and 2: `accel/2` is up and not listed. With both plugins loaded, segment 0
is listed twice. -/
theorem listing_behind_gap :
    ¬ListingRight accelRegistry (segmentsAt [0, 2]) (RegisteredId accelRegistry) ∧
    (getDeviceStatus accelRegistry (shmOf (segmentsAt [0, 2])) "accel/2".toList).result =
      .ok ⟨"accel/2".toList, 2⟩ ∧
    accelRegistry.enumerateDevices (shmOf (segmentsAt [0, 2])) = [⟨"accel/0".toList, 2⟩] ∧
    bothRegistry.listedSegments (shmOf (segmentsAt [0])) = [0, 0] := by
  refine ⟨?_, by rfl, by decide, by decide⟩
  intro h
  have hone := h.noGap 2 rfl 1 (by decide)
  cases hone

end Deepspan
