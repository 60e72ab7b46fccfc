import Deepspan.Server.DeviceId
import Deepspan.Submit.Plugin

/-!
# Which segment does a device id name?

The RPCs of `HwipService`, `ManagementService` and `TelemetryService` up to the segment
they open. Each handler reports the indices it passed to `shm_open`, so that one can ask
what it touched.

`HwipService` needs a registered type and an index; `TelemetryService` needs an index;
`ManagementService` opens whatever its parser returns, `-1` for an error included. They
agree on the ids `<type>/<N>` as the registry writes them (`services_agree_iff`) and on no
others: `ResetDevice("bogus/0")` resets the device of `accel/0`
(`reset_through_refused_id`).
-/

namespace Deepspan

/-! ## Shared memory and the registry -/

/-- What `shm_open` and `mmap` find under a name. A segment that is mapped is taken to have the
4096 bytes that its creator gives it with `ftruncate`; of a shorter one, which `mmap` would map
all the same, reads would fault. -/
inductive ShmObject where
  | absent
  | unmappable
  | mapped (seg : Segment)

/-- The shared-memory objects: `shm idx` is the one named `shmName idx`. -/
abbrev Shm := Int → ShmObject

/-- `"/deepspan_hwip_" + std::to_string(idx)`. -/
def shmName (idx : Int) : String := "/deepspan_hwip_" ++ toString idx

/-- A handler's result and, as history, the indices of the segments it has opened. -/
structure Handled (α : Type) where
  opened : List Int
  result : α

/-- How an RPC handler ends: with `grpc::Status::OK` and a response, with another status,
or with an exception that nobody catches. -/
inductive RpcEnd (α : Type) where
  | ok (response : α)
  | error (code : StatusCode) (message : String)
  | threw (what : String)

def RpcEnd.isOk {α : Type} : RpcEnd α → Bool
  | .ok _ => true
  | .error _ _ | .threw _ => false

/-- `HwipRegistry::factories_`: a factory for each registered type, each making plugins
of one of the two kinds. -/
structure HwipRegistry where
  factories : List (List Char × PluginKind)
  nodup : (factories.map Prod.fst).Nodup

/-- `factories_.find`. -/
def HwipRegistry.find? (reg : HwipRegistry) (type : List Char) : Option PluginKind :=
  reg.factories.lookup type

/-- `AccelPlugin` and `Crc32Plugin`; `base` is what `shm_base_` points to. -/
structure Plugin where
  kind : PluginKind
  deviceId : List Char
  deviceIndex : Int
  base : Option Segment

def PluginKind.parseIndex : PluginKind → List Char → Int
  | .accel => accelParseIndex
  | .crc32 => crc32ParseIndex

/-- The constructors. -/
def PluginKind.construct (kind : PluginKind) (shm : Shm) (deviceId : List Char) :
    Handled (Except String Plugin) :=
  let idx := kind.parseIndex deviceId
  if idx < 0 then ⟨[], .error (kind.className ++ ": bad device_id: " ++ String.ofList deviceId)⟩
  else
    match shm idx with
    | .absent => ⟨[idx], .ok ⟨kind, deviceId, idx, none⟩⟩
    | .unmappable => ⟨[idx], .error (kind.className ++ ": mmap failed for " ++ shmName idx)⟩
    | .mapped seg => ⟨[idx], .ok ⟨kind, deviceId, idx, some seg⟩⟩

/-- `device_state`: `-1` without a segment, `DEVICE_STATE_READY` or
`DEVICE_STATE_INITIALIZING` with one. -/
def Plugin.deviceState (plugin : Plugin) : Int :=
  match plugin.base with
  | none => -1
  | some seg => if seg.reg.status &&& StatusBits.ready != 0 then 2 else 1

/-! ## `HwipService` -/

/-- How `GetDeviceStatus` and `SubmitRequest` begin: they parse the id and let the
registry make a plugin, outside of any `try`. -/
def submitterFor (reg : HwipRegistry) (shm : Shm) (deviceId : List Char) :
    Handled (RpcEnd Plugin) :=
  match parseDeviceId deviceId with
  | none => ⟨[], .error .invalidArgument "invalid device_id format (expected <type>/<index>)"⟩
  | some (type, _) =>
    match reg.find? type with
    | none => ⟨[], .error .notFound ("HWIP type not registered: " ++ String.ofList type)⟩
    | some kind =>
      let made := kind.construct shm deviceId
      ⟨made.opened,
        match made.result with
        | .ok plugin => .ok plugin
        | .error what => .threw what⟩

structure DeviceInfo where
  deviceId : List Char
  state : Int
deriving DecidableEq, Repr

/-- `GetDeviceStatus`. -/
def getDeviceStatus (reg : HwipRegistry) (shm : Shm) (deviceId : List Char) :
    Handled (RpcEnd DeviceInfo) :=
  let got := submitterFor reg shm deviceId
  ⟨got.opened,
    match got.result with
    | .ok plugin => .ok ⟨deviceId, plugin.deviceState⟩
    | .error code message => .error code message
    | .threw what => .threw what⟩

/-- `SubmitRequest` up to the first register: a plugin without a segment throws inside of
the `try`. -/
def submitRequestStart (reg : HwipRegistry) (shm : Shm) (deviceId : List Char) :
    Handled (RpcEnd Plugin) :=
  let got := submitterFor reg shm deviceId
  ⟨got.opened,
    match got.result with
    | .ok plugin =>
      if plugin.base.isSome then .ok plugin
      else .error .internal
        (plugin.kind.className ++ ": SHM not mapped for " ++ String.ofList plugin.deviceId)
    | .error code message => .error code message
    | .threw what => .threw what⟩

/-! ## `ManagementService` -/

structure FirmwareInfo where
  fwVersion : String
  buildDate : String
  protocolVersion : Nat
deriving DecidableEq, Repr

/-- `GetFirmwareInfo`; `formatDate` is `strftime("%Y-%m-%d")` of `gmtime`. -/
def getFirmwareInfo (formatDate : UInt64 → String) (shm : Shm) (deviceId : List Char) :
    Handled FirmwareInfo :=
  let idx := mgmtParseDeviceIndex deviceId
  match shm idx with
  | .mapped seg =>
    let major := (seg.reg.version >>> 16) &&& 0xFF
    let minor := (seg.reg.version >>> 8) &&& 0xFF
    let patch := seg.reg.version &&& 0xFF
    ⟨[idx],
      toString major.toNat ++ "." ++ toString minor.toNat ++ "." ++ toString patch.toNat ++ "-sim",
      if 0 < seg.stats.startTimeSec then formatDate seg.stats.startTimeSec else "1970-01-01", 1⟩
  | .absent | .unmappable => ⟨[idx], "0.0.0-stub", "1970-01-01", 1⟩

structure ResetDeviceResponse where
  success : Bool
  message : String
deriving DecidableEq, Repr

/-- `ResetDevice`, and the segments after it. -/
def resetDevice (shm : Shm) (deviceId : List Char) : Handled (ResetDeviceResponse × Shm) :=
  let idx := mgmtParseDeviceIndex deviceId
  match shm idx with
  | .mapped seg =>
    ⟨[idx], ⟨true, ""⟩, fun i => if i = idx then
      .mapped (seg.withReg fun r => { r with ctrl := r.ctrl ||| CtrlBits.reset }) else shm i⟩
  | .absent | .unmappable => ⟨[idx], ⟨false, "hw-model SHM not available"⟩, shm⟩

/-! ## `TelemetryService` -/

/-- `FirmwareTelemetry` and `KernelTelemetry`. -/
structure Telemetry where
  uptimeMs : UInt32
  irqCount : UInt64
  pendingCmds : UInt32
deriving DecidableEq, Repr

structure Snapshot where
  deviceId : List Char
  timestampSec : UInt64
  telemetry : Option Telemetry
deriving DecidableEq, Repr

/-- What `GetTelemetry` reads from a segment at `now`. -/
def telemetryOf (now : UInt64) (seg : Segment) : Telemetry :=
  let start := seg.stats.startTimeSec
  let uptimeMs := if 0 < start ∧ start ≤ now then (now - start) * 1000 else 0
  ⟨if 0xFFFFFFFF < uptimeMs then 0xFFFFFFFF else uptimeMs.toUInt32, seg.stats.cmdCount,
    (seg.stats.fwCmdCount &&& 0xFFFFFFFF).toUInt32⟩

/-- `GetTelemetry`; `called` and `now` are its two readings of the clock. -/
def getTelemetry (called now : UInt64) (shm : Shm) (deviceId : List Char) : Handled Snapshot :=
  let idx := telemetryParseDeviceIndex deviceId
  if 0 ≤ idx then
    match shm idx with
    | .mapped seg => ⟨[idx], deviceId, called, some (telemetryOf now seg)⟩
    | .absent | .unmappable => ⟨[idx], deviceId, called, none⟩
  else ⟨[], deviceId, called, none⟩

/-! ## What they open -/

section Opened

variable {reg : HwipRegistry} {shm : Shm} {deviceId : List Char}

@[simp] theorem PluginKind.parseIndex_eq (kind : PluginKind) :
    kind.parseIndex deviceId = indexBehindSlash deviceId := by
  cases kind <;> rfl

/-- The factory that `HwipService` finds for an id. -/
def HwipRegistry.factoryFor (reg : HwipRegistry) (deviceId : List Char) : Option PluginKind :=
  ((parseDeviceId deviceId).map Prod.fst).bind reg.find?

theorem construct_opened (kind : PluginKind) (h : 0 ≤ indexBehindSlash deviceId) :
    (kind.construct shm deviceId).opened = [indexBehindSlash deviceId] := by
  simp only [PluginKind.construct, PluginKind.parseIndex_eq, Int.not_lt.mpr h, if_false]
  split <;> rfl

theorem construct_negative (kind : PluginKind) (h : indexBehindSlash deviceId < 0) :
    kind.construct shm deviceId =
      ⟨[], .error (kind.className ++ ": bad device_id: " ++ String.ofList deviceId)⟩ := by
  simp only [PluginKind.construct, PluginKind.parseIndex_eq, h, if_true]

theorem construct_absent (kind : PluginKind) (h : 0 ≤ indexBehindSlash deviceId)
    (hseg : shm (indexBehindSlash deviceId) = .absent) :
    kind.construct shm deviceId = ⟨[indexBehindSlash deviceId],
      .ok ⟨kind, deviceId, indexBehindSlash deviceId, none⟩⟩ := by
  simp only [PluginKind.construct, PluginKind.parseIndex_eq, Int.not_lt.mpr h, if_false, hseg]

theorem construct_mapped (kind : PluginKind) {seg : Segment} (h : 0 ≤ indexBehindSlash deviceId)
    (hseg : shm (indexBehindSlash deviceId) = .mapped seg) :
    kind.construct shm deviceId = ⟨[indexBehindSlash deviceId],
      .ok ⟨kind, deviceId, indexBehindSlash deviceId, some seg⟩⟩ := by
  simp only [PluginKind.construct, PluginKind.parseIndex_eq, Int.not_lt.mpr h, if_false, hseg]

theorem submitterFor_none (h : reg.factoryFor deviceId = none) :
    (submitterFor reg shm deviceId).opened = [] ∧
      (submitterFor reg shm deviceId).result.isOk = false := by
  unfold submitterFor
  cases hparse : parseDeviceId deviceId with
  | none => exact ⟨rfl, rfl⟩
  | some parts =>
    have hfind : reg.find? parts.1 = none := by
      simpa only [HwipRegistry.factoryFor, hparse, Option.map_some, Option.bind_some] using h
    simp only [hfind, true_and]
    rfl

theorem submitterFor_some {kind : PluginKind} (h : reg.factoryFor deviceId = some kind) :
    submitterFor reg shm deviceId = ⟨(kind.construct shm deviceId).opened,
      match (kind.construct shm deviceId).result with
      | .ok plugin => .ok plugin
      | .error what => .threw what⟩ := by
  obtain ⟨type, htype, hfind⟩ := Option.bind_eq_some_iff.mp h
  obtain ⟨⟨type', rest⟩, hparse, rfl⟩ := Option.map_eq_some_iff.mp htype
  simp only [submitterFor, hparse, hfind]

@[simp] theorem getFirmwareInfo_opened (formatDate : UInt64 → String) :
    (getFirmwareInfo formatDate shm deviceId).opened = [indexBehindSlash deviceId] := by
  simp only [getFirmwareInfo, mgmtParseDeviceIndex]
  split <;> rfl

@[simp] theorem resetDevice_opened :
    (resetDevice shm deviceId).opened = [indexBehindSlash deviceId] := by
  simp only [resetDevice, mgmtParseDeviceIndex]
  split <;> rfl

theorem getTelemetry_opened (called now : UInt64) :
    (getTelemetry called now shm deviceId).opened =
      if 0 ≤ indexBehindSlash deviceId then [indexBehindSlash deviceId] else [] := by
  by_cases h : 0 ≤ indexBehindSlash deviceId
  · simp only [getTelemetry, telemetryParseDeviceIndex, h, if_true]
    split <;> rfl
  · simp only [getTelemetry, telemetryParseDeviceIndex, h, if_false]

theorem resetDevice_success (h : (resetDevice shm deviceId).result.1.success = true) :
    ∃ seg, shm (indexBehindSlash deviceId) = .mapped seg := by
  simp only [resetDevice, mgmtParseDeviceIndex] at h
  split at h
  · next seg hseg => exact ⟨seg, hseg⟩
  · cases h
  · cases h

end Opened

/-! ## Agreement -/

/-- Given the id, every RPC opens this segment. -/
structure AllOpen (reg : HwipRegistry) (shm : Shm) (deviceId : List Char) (idx : Int) :
    Prop where
  hwip : (submitterFor reg shm deviceId).opened = [idx]
  firmware : ∀ formatDate, (getFirmwareInfo formatDate shm deviceId).opened = [idx]
  reset : (resetDevice shm deviceId).opened = [idx]
  telemetry : ∀ called now, (getTelemetry called now shm deviceId).opened = [idx]

/-- Given the id, `HwipService` answers with an error and no RPC touches a segment that
there is. -/
structure AllRefuse (reg : HwipRegistry) (shm : Shm) (deviceId : List Char) : Prop where
  hwip : (submitterFor reg shm deviceId).result.isOk = false
  hwipOpened : ∀ idx ∈ (submitterFor reg shm deviceId).opened, shm idx = .absent
  firmware : ∀ formatDate, ∀ idx ∈ (getFirmwareInfo formatDate shm deviceId).opened,
    shm idx = .absent
  reset : ∀ idx ∈ (resetDevice shm deviceId).opened, shm idx = .absent
  telemetry : ∀ called now, ∀ idx ∈ (getTelemetry called now shm deviceId).opened,
    shm idx = .absent

/-- The services agree on the device that an id names: all of them refuse it, or the id is
`<type>/<N>` with a registered type and all of them open segment `N`; and a reset that
takes place does so through an id that `SubmitRequest` does not refuse. -/
structure ServicesAgree (reg : HwipRegistry) (shm : Shm) (deviceId : List Char) : Prop where
  segment : AllRefuse reg shm deviceId ∨ ∃ type n, (reg.find? type).isSome = true ∧
    deviceId = deviceIdOf type n ∧ AllOpen reg shm deviceId n
  reset : (resetDevice shm deviceId).result.1.success = true →
    (submitRequestStart reg shm deviceId).result.isOk = true

/-- The id is `<type>/<N>` with a registered type and an `N` that fits an `int`. A type
with a slash of its own is looked up by what comes before that slash. -/
def NamesDevice (reg : HwipRegistry) (deviceId : List Char) : Prop :=
  ∃ type n, (reg.find? type).isSome = true ∧ typePart type ≠ [] ∧
    (reg.find? (typePart type)).isSome = true ∧ n ≤ intMax ∧ deviceId = deviceIdOf type n

theorem factoryFor_deviceIdOf (reg : HwipRegistry) (type : List Char) (n : Nat) :
    reg.factoryFor (deviceIdOf type n) =
      if typePart type = [] then none else reg.find? (typePart type) := by
  rw [HwipRegistry.factoryFor, parseDeviceId_deviceIdOf]
  split <;> rfl

/-- The id of a device is taken by everybody for its segment. -/
theorem servicesAgree_deviceIdOf {reg : HwipRegistry} {shm : Shm} {type : List Char} {n : Nat}
    {kind : PluginKind} (htype : (reg.find? type).isSome = true) (hn : n ≤ intMax)
    (hkind : reg.factoryFor (deviceIdOf type n) = some kind) :
    ServicesAgree reg shm (deviceIdOf type n) := by
  have hidx := index_deviceIdOf type hn
  have hnonneg := index_deviceIdOf_nonneg type hn
  refine ⟨.inr ⟨type, n, htype, rfl, ?_, ?_, ?_, ?_⟩, ?_⟩
  · rw [submitterFor_some hkind, ← hidx]
    exact construct_opened kind hnonneg
  · intro formatDate
    rw [getFirmwareInfo_opened, hidx]
  · rw [resetDevice_opened, hidx]
  · intro called now
    rw [getTelemetry_opened, if_pos hnonneg, hidx]
  · intro hreset
    obtain ⟨seg, hseg⟩ := resetDevice_success hreset
    rw [submitRequestStart, submitterFor_some hkind, construct_mapped kind hnonneg hseg]
    rfl

/-- Only the id of a device can be taken by everybody for one segment. -/
theorem namesDevice_of_allOpen {reg : HwipRegistry} {shm : Shm} {type : List Char} {n : Nat}
    (htype : (reg.find? type).isSome = true) (h : AllOpen reg shm (deviceIdOf type n) n) :
    NamesDevice reg (deviceIdOf type n) := by
  have hhwip := h.hwip
  cases hkind : reg.factoryFor (deviceIdOf type n) with
  | none =>
    rw [(submitterFor_none hkind).1] at hhwip
    cases hhwip
  | some kind =>
    rw [submitterFor_some hkind] at hhwip
    have hn : n ≤ intMax := by
      by_contra hbig
      have hneg : indexBehindSlash (deviceIdOf type n) < 0 := by
        rw [indexBehindSlash_deviceIdOf, if_neg hbig]
        decide
      rw [construct_negative kind hneg] at hhwip
      cases hhwip
    rw [factoryFor_deviceIdOf] at hkind
    split at hkind
    · cases hkind
    · next hne => exact ⟨type, n, htype, hne, by rw [hkind]; rfl, hn, rfl⟩

/-- An id that `HwipService` refuses leaves the segments alone if the one that the
management service reads from it is not there. -/
theorem allRefuse_of_absent {reg : HwipRegistry} {shm : Shm} {deviceId : List Char}
    (hrefused : reg.factoryFor deviceId = none ∨ indexBehindSlash deviceId < 0)
    (habsent : shm (indexBehindSlash deviceId) = .absent) : AllRefuse reg shm deviceId := by
  have hhwip : (submitterFor reg shm deviceId).result.isOk = false ∧
      (submitterFor reg shm deviceId).opened = [] := by
    cases hkind : reg.factoryFor deviceId with
    | none => exact (submitterFor_none hkind).symm
    | some kind =>
      rcases hrefused with hnone | hneg
      · rw [hkind] at hnone
        cases hnone
      · rw [submitterFor_some hkind, construct_negative kind hneg]
        exact ⟨rfl, rfl⟩
  refine ⟨hhwip.1, ?_, ?_, ?_, ?_⟩
  · rw [hhwip.2]
    intro idx hidx
    cases hidx
  · intro formatDate idx hidx
    rw [getFirmwareInfo_opened, List.mem_singleton] at hidx
    rw [hidx, habsent]
  · intro idx hidx
    rw [resetDevice_opened, List.mem_singleton] at hidx
    rw [hidx, habsent]
  · intro called now idx hidx
    rw [getTelemetry_opened] at hidx
    split at hidx
    · rw [List.mem_singleton.mp hidx, habsent]
    · cases hidx

/-- The services agree on an id if it names a device, or if `HwipService` refuses it and
there is no segment with the index behind its last slash. -/
theorem servicesAgree_iff (reg : HwipRegistry) (shm : Shm) (deviceId : List Char) :
    ServicesAgree reg shm deviceId ↔ NamesDevice reg deviceId ∨
      (reg.factoryFor deviceId = none ∨ indexBehindSlash deviceId < 0) ∧
        shm (indexBehindSlash deviceId) = .absent := by
  constructor
  · rintro ⟨hrefuse | ⟨type, n, htype, rfl, hall⟩, _⟩
    · -- `ShmView` opens a segment whatever the index is
      have habsent : shm (indexBehindSlash deviceId) = .absent := by
        apply hrefuse.reset
        rw [resetDevice_opened]
        exact List.mem_singleton_self _
      refine .inr ⟨?_, habsent⟩
      cases hkind : reg.factoryFor deviceId with
      | none => exact .inl rfl
      | some kind =>
        by_cases hneg : indexBehindSlash deviceId < 0
        · exact .inr hneg
        · have hok := hrefuse.hwip
          rw [submitterFor_some hkind, construct_absent kind (Int.not_lt.mp hneg) habsent] at hok
          cases hok
    · exact .inl (namesDevice_of_allOpen htype hall)
  · rintro (⟨type, n, htype, hne, hpart, hn, rfl⟩ | ⟨hrefused, habsent⟩)
    · obtain ⟨kind, hkind⟩ := Option.isSome_iff_exists.mp hpart
      have hfactory : reg.factoryFor (deviceIdOf type n) = some kind := by
        rw [factoryFor_deviceIdOf, if_neg hne, hkind]
      exact servicesAgree_deviceIdOf htype hn hfactory
    · refine ⟨.inl (allRefuse_of_absent hrefused habsent), ?_⟩
      intro hreset
      obtain ⟨seg, hseg⟩ := resetDevice_success hreset
      rw [habsent] at hseg
      cases hseg

/-- The services agree on an id, whatever segments there are, exactly if it names a
device. -/
theorem services_agree_iff (reg : HwipRegistry) (deviceId : List Char) :
    (∀ shm, ServicesAgree reg shm deviceId) ↔ NamesDevice reg deviceId := by
  constructor
  · intro h
    rcases (servicesAgree_iff reg _ deviceId).mp (h fun _ => .mapped .zero) with
      hnames | ⟨_, habsent⟩
    · exact hnames
    · cases habsent
  · intro h shm
    exact (servicesAgree_iff reg shm deviceId).mpr (.inl h)

/-- A server with the accel plugin. -/
def accelRegistry : HwipRegistry := ⟨[("accel".toList, .accel)], by decide⟩

/-- One hw-model, serving `/deepspan_hwip_0`. -/
def oneSegment : Shm := fun idx => if idx = 0 then .mapped (hwModelInit 0 .zero).seg else .absent

/-- `SubmitRequest` refuses `bogus/0`; `ResetDevice` resets device 0 through it. -/
theorem reset_through_refused_id :
    ¬ServicesAgree accelRegistry oneSegment "bogus/0".toList ∧
    (submitRequestStart accelRegistry oneSegment "bogus/0".toList).result =
      .error .notFound "HWIP type not registered: bogus" ∧
    (resetDevice oneSegment "bogus/0".toList).result.1 = ⟨true, ""⟩ ∧
    (resetDevice oneSegment "bogus/0".toList).opened = [0] := by
  have hrefused : (submitRequestStart accelRegistry oneSegment "bogus/0".toList).result =
      .error .notFound "HWIP type not registered: bogus" := by
    rfl
  have hreset : (resetDevice oneSegment "bogus/0".toList).result.1 = ⟨true, ""⟩ := by
    rfl
  refine ⟨?_, hrefused, hreset, by decide⟩
  intro h
  have hok := h.reset (by rw [hreset])
  rw [hrefused] at hok
  cases hok

end Deepspan
