import Deepspan.Server.Services

/-!
# How the RPCs of `HwipService` end

`GetDeviceStatus` and `SubmitRequest` over any registry. A factory is arbitrary code that a
plugin has registered, and so are the member functions of what it makes: they return or they
throw, an `std::exception` or something else. Both handlers call the factory outside of any
`try`, and `device_state()` too; only `submit` is called inside one, which catches
`std::exception`s.

`rpcs_end_well_iff` says when both RPCs end with the status they should. An id is to have a
certain form, `<type>/<index>` with a number for the index (`CanonicalId`), but nobody checks
it: the handlers look at the first slash, the plugins at the digits behind the last one, and
`accel/0junk` and `accel/1/0` are answered for device 0. The theorem is about every notion of
a well-formed id. The plugins of the repository are one registry (`pluginRegistry`), on which
the handlers are those of `Deepspan.Server.Services` (`getDeviceStatus_plugins`,
`submitRequest_plugins`).
-/

namespace Deepspan

/-! ## Plugin code -/

/-- How a call of a plugin's code ends. -/
inductive CallEnd (α : Type) where
  | returned (value : α)
  /-- An `std::exception` with this `what()`. -/
  | threw (what : String)
  | threwOther

/-- `Submitter`: what its member functions do when a handler calls them. -/
structure Submitter where
  deviceState : CallEnd Int
  submit : UInt32 → List UInt8 → CallEnd SubmitResult

/-- `SubmitterFactory`; the pointer may be null. -/
abbrev Factory := List Char → CallEnd (Option Submitter)

/-- `HwipRegistry` with arbitrary factories. -/
structure FactoryRegistry where
  factories : List (List Char × Factory)
  nodup : (factories.map Prod.fst).Nodup

/-! ## The handlers -/

/-- How a handler ends: with `grpc::Status::OK` and a response, with another status, with an
exception that leaves it (`none` if it is no `std::exception`), or at a null pointer. -/
inductive HandlerEnd (α : Type) where
  | ok (response : α)
  | error (code : StatusCode) (message : String)
  | escaped (what : Option String)
  | nullDereference

/-- The handler returns a `grpc::Status`. -/
def HandlerEnd.returns {α : Type} : HandlerEnd α → Bool
  | .ok _ | .error _ _ => true
  | .escaped _ | .nullDereference => false

/-- The status is `INVALID_ARGUMENT` or `NOT_FOUND`. -/
def HandlerEnd.refuses {α : Type} : HandlerEnd α → Bool
  | .error .invalidArgument _ | .error .notFound _ => true
  | .ok _ | .error .ok _ | .error .internal _ | .escaped _ | .nullDereference => false

/-- `SubmitRequestResponse`. -/
structure SubmitResponse where
  requestId : UInt32
  result : List UInt8
deriving DecidableEq, Repr

/-- What a call outside of any `try` makes of the handler. -/
def CallEnd.andThen {α β : Type} (o : CallEnd α) (rest : α → HandlerEnd β) : HandlerEnd β :=
  match o with
  | .returned value => rest value
  | .threw what => .escaped (some what)
  | .threwOther => .escaped none

namespace FactoryRegistry

/-- `factories_.find`. -/
def find? (reg : FactoryRegistry) (type : List Char) : Option Factory := reg.factories.lookup type

/-- `HwipRegistry::create`. -/
def create (reg : FactoryRegistry) (type deviceId : List Char) :
    Option (CallEnd (Option Submitter)) :=
  (reg.find? type).map fun factory => factory deviceId

/-- How both handlers begin. `rest` goes on with the submitter. -/
def withSubmitter {α : Type} (reg : FactoryRegistry) (deviceId : List Char)
    (rest : Submitter → HandlerEnd α) : HandlerEnd α :=
  match parseDeviceId deviceId with
  | none => .error .invalidArgument "invalid device_id format (expected <type>/<index>)"
  | some (type, _) =>
    match reg.create type deviceId with
    | none => .error .notFound ("HWIP type not registered: " ++ String.ofList type)
    | some made => made.andThen fun
      | some sub => rest sub
      | none => .nullDereference

/-- `GetDeviceStatus`. -/
def getDeviceStatus (reg : FactoryRegistry) (deviceId : List Char) : HandlerEnd DeviceInfo :=
  reg.withSubmitter deviceId fun sub => sub.deviceState.andThen fun state => .ok ⟨deviceId, state⟩

/-- `SubmitRequest`; `hash` is `std::hash<std::string>`. -/
def submitRequest (hash : String → UInt64) (reg : FactoryRegistry) (deviceId : List Char)
    (opcode : UInt32) (payload : List UInt8) : HandlerEnd SubmitResponse :=
  reg.withSubmitter deviceId fun sub =>
    match sub.submit opcode payload with
    | .returned result =>
      .ok ⟨(hash result.requestId &&& 0xFFFFFFFF).toUInt32, result.responseData⟩
    -- catch (const std::exception& e)
    | .threw what => .error .internal what
    | .threwOther => .escaped none

end FactoryRegistry

/-! ## What they should do -/

/-- `deepspan.v1.DeviceState`. -/
inductive DeviceState where
  | unspecified | initializing | ready | running | error | resetting
deriving DecidableEq, Repr

def DeviceState.number : DeviceState → Int
  | .unspecified => 0
  | .initializing => 1
  | .ready => 2
  | .running => 3
  | .error => 4
  | .resetting => 5

/-- `<type>/<index>`, as the services document it: one slash, a type before it and the decimal
digits of a number behind it. -/
def CanonicalId (deviceId : List Char) : Prop :=
  ∃ type n, type ≠ [] ∧ '/' ∉ type ∧ deviceId = deviceIdOf type n

/-- Such an id ends in a digit. -/
theorem CanonicalId.getLast_isDigit {deviceId : List Char} (h : CanonicalId deviceId) :
    (deviceId.getLast?).any Char.isDigit = true := by
  obtain ⟨type, n, -, -, rfl⟩ := h
  have hlast := List.getLast?_eq_some_getLast (decimal_ne_nil n)
  rw [deviceIdOf, List.getLast?_append, List.getLast?_cons, hlast]
  exact isDigit_decimal (List.getLast_mem _)

/-- The most lenient form: behind the last slash stands a number, whatever follows it. -/
def NumericId (deviceId : List Char) : Prop := 0 ≤ indexBehindSlash deviceId

/-- There is a device of this id, by the standard of `enumerate_devices`: the factory of its
type makes a submitter for it, and `device_state()` is not negative. -/
def FactoryRegistry.DeviceExists (reg : FactoryRegistry) (deviceId : List Char) : Prop :=
  ∃ type index sub state, parseDeviceId deviceId = some (type, index) ∧
    reg.create type deviceId = some (.returned (some sub)) ∧
    sub.deviceState = .returned state ∧ 0 ≤ state

/-- Both RPCs end with a status; they refuse an id that is not well formed or of no device;
and an OK status has a `DeviceState`. -/
structure RpcsEndWell (wellFormed : List Char → Prop) (hash : String → UInt64)
    (reg : FactoryRegistry) (deviceId : List Char) (opcode : UInt32) (payload : List UInt8) :
    Prop where
  statusReturns : (reg.getDeviceStatus deviceId).returns = true
  submitReturns : (reg.submitRequest hash deviceId opcode payload).returns = true
  statusRefuses : ¬(wellFormed deviceId ∧ reg.DeviceExists deviceId) →
    (reg.getDeviceStatus deviceId).refuses = true
  submitRefuses : ¬(wellFormed deviceId ∧ reg.DeviceExists deviceId) →
    (reg.submitRequest hash deviceId opcode payload).refuses = true
  state : ∀ info, reg.getDeviceStatus deviceId = .ok info → ∃ s : DeviceState, s.number = info.state

/-! ## When they do -/

section Ends

variable {wellFormed : List Char → Prop} {hash : String → UInt64} {reg : FactoryRegistry}
  {deviceId : List Char} {opcode : UInt32} {payload : List UInt8} {α : Type}
  {f : Submitter → HandlerEnd α}

/-- The factory that the handlers find for an id. -/
def FactoryRegistry.factoryFor (reg : FactoryRegistry) (deviceId : List Char) : Option Factory :=
  ((parseDeviceId deviceId).map Prod.fst).bind reg.find?

/-- The factory makes a submitter whose state is a `DeviceState` and whose `submit` throws
nothing but `std::exception`s. -/
def Factory.Serves (factory : Factory) (deviceId : List Char) (opcode : UInt32)
    (payload : List UInt8) : Prop :=
  ∃ sub, factory deviceId = .returned (some sub) ∧
    (∃ s : DeviceState, sub.deviceState = .returned s.number) ∧
    sub.submit opcode payload ≠ .threwOther

theorem withSubmitter_none (h : reg.factoryFor deviceId = none) :
    (reg.withSubmitter deviceId f).refuses = true := by
  unfold FactoryRegistry.withSubmitter
  cases hparse : parseDeviceId deviceId with
  | none => rfl
  | some parts =>
    have hfind : reg.find? parts.1 = none := by
      simpa only [FactoryRegistry.factoryFor, hparse, Option.map_some, Option.bind_some] using h
    simp only [FactoryRegistry.create, hfind, Option.map_none]
    rfl

theorem factoryFor_eq_some {factory : Factory} (h : reg.factoryFor deviceId = some factory) :
    ∃ type index, parseDeviceId deviceId = some (type, index) ∧
      reg.create type deviceId = some (factory deviceId) := by
  obtain ⟨type, htype, hfind⟩ := Option.bind_eq_some_iff.mp h
  obtain ⟨⟨type', index⟩, hparse, rfl⟩ := Option.map_eq_some_iff.mp htype
  refine ⟨type', index, hparse, ?_⟩
  rw [FactoryRegistry.create, hfind]
  rfl

theorem withSubmitter_some {factory : Factory} (h : reg.factoryFor deviceId = some factory) :
    reg.withSubmitter deviceId f = (factory deviceId).andThen fun
      | some sub => f sub
      | none => .nullDereference := by
  obtain ⟨type, index, hparse, hcreate⟩ := factoryFor_eq_some h
  simp only [FactoryRegistry.withSubmitter, hparse, hcreate]

theorem returns_of_refuses {r : HandlerEnd α} (h : r.refuses = true) : r.returns = true := by
  cases r with
  | ok _ => cases h
  | error _ _ => rfl
  | escaped _ => cases h
  | nullDereference => cases h

/-- Without a factory both RPCs are refused, as they should be. -/
theorem endWell_of_none (h : reg.factoryFor deviceId = none) :
    RpcsEndWell wellFormed hash reg deviceId opcode payload where
  statusReturns := returns_of_refuses (withSubmitter_none h)
  submitReturns := returns_of_refuses (withSubmitter_none h)
  statusRefuses := fun _ => withSubmitter_none h
  submitRefuses := fun _ => withSubmitter_none h
  state := by
    intro info hok
    have hrefuses := withSubmitter_none h (f := fun sub =>
      sub.deviceState.andThen fun state => .ok (⟨deviceId, state⟩ : DeviceInfo))
    rw [show reg.withSubmitter deviceId _ = .ok info from hok] at hrefuses
    cases hrefuses

theorem DeviceState.number_nonneg (s : DeviceState) : 0 ≤ s.number := by
  cases s <;> decide

theorem getDeviceStatus_of_state {factory : Factory} {sub : Submitter} {state : Int}
    (h : reg.factoryFor deviceId = some factory) (hmade : factory deviceId = .returned (some sub))
    (hstate : sub.deviceState = .returned state) :
    reg.getDeviceStatus deviceId = .ok ⟨deviceId, state⟩ := by
  rw [FactoryRegistry.getDeviceStatus, withSubmitter_some h, hmade]
  simp only [CallEnd.andThen, hstate]

theorem endWell_of_serves {factory : Factory} (h : reg.factoryFor deviceId = some factory)
    (hform : wellFormed deviceId) (hserves : factory.Serves deviceId opcode payload) :
    RpcsEndWell wellFormed hash reg deviceId opcode payload := by
  obtain ⟨sub, hmade, ⟨s, hstate⟩, hsubmit⟩ := hserves
  have hexists : reg.DeviceExists deviceId := by
    obtain ⟨type, index, hparse, hcreate⟩ := factoryFor_eq_some h
    exact ⟨type, index, sub, s.number, hparse, hmade ▸ hcreate, hstate, s.number_nonneg⟩
  have hget := getDeviceStatus_of_state h hmade hstate
  refine ⟨by rw [hget]; rfl, ?_, fun hno => absurd ⟨hform, hexists⟩ hno,
    fun hno => absurd ⟨hform, hexists⟩ hno, ?_⟩
  · rw [FactoryRegistry.submitRequest, withSubmitter_some h, hmade]
    simp only [CallEnd.andThen]
    cases hs : sub.submit opcode payload with
    | returned _ => rfl
    | threw _ => rfl
    | threwOther => exact absurd hs hsubmit
  · intro info hok
    cases hget.symm.trans hok
    exact ⟨s, rfl⟩

theorem serves_of_endWell {factory : Factory} (h : reg.factoryFor deviceId = some factory)
    (hwell : RpcsEndWell wellFormed hash reg deviceId opcode payload) :
    factory.Serves deviceId opcode payload := by
  have hget := withSubmitter_some h (f := fun sub =>
    sub.deviceState.andThen fun state => .ok (⟨deviceId, state⟩ : DeviceInfo))
  have hreturns := hwell.statusReturns
  have hsubmit := hwell.submitReturns
  rw [FactoryRegistry.getDeviceStatus, hget] at hreturns
  rw [FactoryRegistry.submitRequest, withSubmitter_some h] at hsubmit
  cases hmade : factory deviceId with
  | threw _ =>
    rw [hmade] at hreturns
    cases hreturns
  | threwOther =>
    rw [hmade] at hreturns
    cases hreturns
  | returned made =>
    rw [hmade] at hreturns hsubmit hget
    cases made with
    | none => cases hreturns
    | some sub =>
      refine ⟨sub, hmade, ?_, ?_⟩
      · cases hstate : sub.deviceState with
        | threw _ =>
          simp only [CallEnd.andThen, hstate] at hreturns
          cases hreturns
        | threwOther =>
          simp only [CallEnd.andThen, hstate] at hreturns
          cases hreturns
        | returned state =>
          simp only [CallEnd.andThen, hstate] at hget
          obtain ⟨s, hs⟩ := hwell.state _ hget
          exact ⟨s, by rw [hs]⟩
      · intro hother
        simp only [CallEnd.andThen, hother] at hsubmit
        cases hsubmit

/-- An id that is answered OK has to be well formed. -/
theorem wellFormed_of_endWell {factory : Factory} (h : reg.factoryFor deviceId = some factory)
    (hwell : RpcsEndWell wellFormed hash reg deviceId opcode payload) : wellFormed deviceId := by
  obtain ⟨sub, hmade, ⟨s, hstate⟩, -⟩ := serves_of_endWell h hwell
  by_contra hform
  have hrefuses := hwell.statusRefuses fun hboth => hform hboth.1
  rw [getDeviceStatus_of_state h hmade hstate] at hrefuses
  cases hrefuses

theorem endWell_iff : RpcsEndWell wellFormed hash reg deviceId opcode payload ↔
    ∀ factory, reg.factoryFor deviceId = some factory →
      wellFormed deviceId ∧ factory.Serves deviceId opcode payload := by
  constructor
  · intro hwell factory hfactory
    exact ⟨wellFormed_of_endWell hfactory hwell, serves_of_endWell hfactory hwell⟩
  · intro hserves
    cases hfactory : reg.factoryFor deviceId with
    | none => exact endWell_of_none hfactory
    | some factory =>
      obtain ⟨hform, hfactoryServes⟩ := hserves factory hfactory
      exact endWell_of_serves hfactory hform hfactoryServes

end Ends

/-! ## The plugins -/

/-- A plugin as a `Submitter`. `run` is how a `submit` on a mapped segment ends: with a
result, or with the text of its exception. -/
def Plugin.submitter (run : Plugin → UInt32 → List UInt8 → Except String SubmitResult)
    (plugin : Plugin) : Submitter where
  deviceState := .returned plugin.deviceState
  submit opcode payload :=
    if plugin.base.isSome then
      match run plugin opcode payload with
      | .ok result => .returned result
      | .error what => .threw what
    else .threw
      (plugin.kind.className ++ ": SHM not mapped for " ++ String.ofList plugin.deviceId)

/-- The factories of `register.cpp`. -/
def PluginKind.factory (shm : Shm)
    (run : Plugin → UInt32 → List UInt8 → Except String SubmitResult) (kind : PluginKind) :
    Factory := fun deviceId =>
  match (kind.construct shm deviceId).result with
  | .ok plugin => .returned (some (plugin.submitter run))
  | .error what => .threw what

def pluginRegistry (reg : HwipRegistry) (shm : Shm)
    (run : Plugin → UInt32 → List UInt8 → Except String SubmitResult) : FactoryRegistry where
  factories := reg.factories.map fun p => (p.1, p.2.factory shm run)
  nodup := by
    rw [List.map_map]
    exact reg.nodup

section Plugins

variable {reg : HwipRegistry} {shm : Shm} {deviceId : List Char} {opcode : UInt32}
  {payload : List UInt8} {run : Plugin → UInt32 → List UInt8 → Except String SubmitResult}

theorem lookup_map {α β γ : Type} [BEq α] (g : β → γ) (a : α) (l : List (α × β)) :
    (l.map fun p => (p.1, g p.2)).lookup a = (l.lookup a).map g := by
  induction l with
  | nil => rfl
  | cons p l ih =>
    rw [List.map_cons, List.lookup_cons, List.lookup_cons, ih]
    split <;> rfl

theorem find?_plugins (type : List Char) :
    (pluginRegistry reg shm run).find? type =
      (reg.find? type).map (PluginKind.factory shm run) :=
  lookup_map _ _ _

theorem factoryFor_plugins :
    (pluginRegistry reg shm run).factoryFor deviceId =
      (reg.factoryFor deviceId).map (PluginKind.factory shm run) := by
  rw [FactoryRegistry.factoryFor, HwipRegistry.factoryFor]
  cases (parseDeviceId deviceId).map Prod.fst with
  | none => rfl
  | some type => exact find?_plugins type

/-- A status of `Deepspan.Server.Services` as a handler's end. -/
def RpcEnd.toEnd {α β : Type} (r : RpcEnd α) (rest : α → HandlerEnd β) : HandlerEnd β :=
  match r with
  | .ok response => rest response
  | .error code message => .error code message
  | .threw what => .escaped (some what)

theorem withSubmitter_plugins {β : Type} (f : Submitter → HandlerEnd β) :
    (pluginRegistry reg shm run).withSubmitter deviceId f =
      (submitterFor reg shm deviceId).result.toEnd fun plugin => f (plugin.submitter run) := by
  unfold FactoryRegistry.withSubmitter submitterFor
  cases parseDeviceId deviceId with
  | none => rfl
  | some parts =>
    simp only [FactoryRegistry.create, find?_plugins]
    cases reg.find? parts.1 with
    | none => rfl
    | some kind =>
      simp only [Option.map_some, PluginKind.factory]
      cases (kind.construct shm deviceId).result with
      | ok plugin => rfl
      | error what => rfl

theorem getDeviceStatus_plugins :
    (pluginRegistry reg shm run).getDeviceStatus deviceId =
      (getDeviceStatus reg shm deviceId).result.toEnd .ok := by
  rw [FactoryRegistry.getDeviceStatus, withSubmitter_plugins]
  simp only [getDeviceStatus]
  cases (submitterFor reg shm deviceId).result with
  | ok plugin => rfl
  | error _ _ => rfl
  | threw _ => rfl

/-- `SubmitRequest` goes on from `submitRequestStart` with the run of `submit`. -/
theorem submitRequest_plugins (hash : String → UInt64) :
    (pluginRegistry reg shm run).submitRequest hash deviceId opcode payload =
      (submitRequestStart reg shm deviceId).result.toEnd fun plugin =>
        match run plugin opcode payload with
        | .ok result => .ok ⟨(hash result.requestId &&& 0xFFFFFFFF).toUInt32, result.responseData⟩
        | .error what => .error .internal what := by
  rw [FactoryRegistry.submitRequest, withSubmitter_plugins]
  simp only [submitRequestStart]
  cases (submitterFor reg shm deviceId).result with
  | ok plugin =>
    simp only [RpcEnd.toEnd, Plugin.submitter]
    cases plugin.base with
    | none => rfl
    | some seg =>
      simp only [Option.isSome_some, if_true]
      cases run plugin opcode payload with
      | ok _ => rfl
      | error _ => rfl
  | error _ _ => rfl
  | threw _ => rfl

/-- How a call of `submit` has ended, if it has. -/
def Sub.outcome? (kind : PluginKind) (sub : Sub) : Option (Except String SubmitResult) :=
  match sub.result?, sub.error? kind with
  | some result, _ => some (.ok result)
  | none, some what => some (.error what)
  | none, none => none

/-- The reply that goes out. -/
def HandlerEnd.reply? : HandlerEnd SubmitResponse → Option RpcReply
  | .ok response => some ⟨.ok, "", response.requestId, response.result⟩
  | .error code message => some ⟨code, message, 0, []⟩
  | .escaped _ | .nullDereference => none

/-- When `run` is what a call of `submit` comes to, the handler answers with the reply of
that call. -/
theorem submitRequest_reply (hash : String → UInt64) {plugin : Plugin} {sub : Sub}
    (hstart : (submitRequestStart reg shm deviceId).result = .ok plugin)
    (hsub : sub.outcome? plugin.kind = some (run plugin opcode payload)) :
    ((pluginRegistry reg shm run).submitRequest hash deviceId opcode payload).reply? =
      submitRequestReply hash plugin.kind sub := by
  rw [submitRequest_plugins, hstart, submitRequestReply]
  unfold Sub.outcome? at hsub
  cases hresult : sub.result? with
  | some result =>
    simp only [hresult, Option.some.injEq] at hsub
    simp only [RpcEnd.toEnd, ← hsub, HandlerEnd.reply?]
  | none =>
    cases herror : sub.error? plugin.kind with
    | some what =>
      simp only [hresult, herror, Option.some.injEq] at hsub
      simp only [RpcEnd.toEnd, ← hsub, HandlerEnd.reply?]
    | none =>
      simp only [hresult, herror] at hsub
      cases hsub

/-- A plugin serves an id with an index whose segment can be mapped. -/
theorem serves_plugin_iff (kind : PluginKind) :
    (kind.factory shm run).Serves deviceId opcode payload ↔
      0 ≤ indexBehindSlash deviceId ∧ ∃ seg, shm (indexBehindSlash deviceId) = .mapped seg := by
  constructor
  · rintro ⟨sub, hmade, ⟨s, hstate⟩, _⟩
    unfold PluginKind.factory at hmade
    rcases Int.lt_or_le (indexBehindSlash deviceId) 0 with hneg | hidx
    · rw [construct_negative kind hneg] at hmade
      cases hmade
    · refine ⟨hidx, ?_⟩
      cases hseg : shm (indexBehindSlash deviceId) with
      | absent =>
        rw [construct_absent kind hidx hseg] at hmade
        cases hmade
        -- `device_state()` of a plugin without a segment is -1
        have hnumber : s.number = -1 := (CallEnd.returned.inj hstate).symm
        have hnonneg := s.number_nonneg
        omega
      | unmappable =>
        simp only [PluginKind.construct, PluginKind.parseIndex_eq, Int.not_lt.mpr hidx, if_false,
          hseg] at hmade
        cases hmade
      | mapped seg => exact ⟨seg, rfl⟩
  · rintro ⟨hidx, seg, hseg⟩
    have hmade : kind.factory shm run deviceId =
        .returned (some (Plugin.submitter run ⟨kind, deviceId,
          indexBehindSlash deviceId, some seg⟩)) := by
      rw [PluginKind.factory, construct_mapped kind hidx hseg]
    refine ⟨_, hmade, ?_, ?_⟩
    · by_cases hready : (seg.reg.status &&& StatusBits.ready != 0) = true
      · exact ⟨.ready, congrArg CallEnd.returned (if_pos hready)⟩
      · exact ⟨.initializing, congrArg CallEnd.returned (if_neg hready)⟩
    · simp only [Plugin.submitter, Option.isSome_some, if_true]
      cases run ⟨kind, deviceId, indexBehindSlash deviceId, some seg⟩ opcode payload with
      | ok result => exact fun h => by cases h
      | error what => exact fun h => by cases h

theorem endWell_plugins_iff {wellFormed : List Char → Prop} (hash : String → UInt64) :
    RpcsEndWell wellFormed hash (pluginRegistry reg shm run) deviceId opcode payload ↔
      reg.factoryFor deviceId = none ∨ (wellFormed deviceId ∧ 0 ≤ indexBehindSlash deviceId ∧
        ∃ seg, shm (indexBehindSlash deviceId) = .mapped seg) := by
  rw [endWell_iff, factoryFor_plugins]
  cases reg.factoryFor deviceId with
  | none => simp
  | some kind =>
    simp only [Option.map_some, Option.some.injEq, forall_eq', serves_plugin_iff, reduceCtorEq,
      false_or]

/-- An id of the documented form, and the device that it names. -/
theorem canonicalId_mapped_iff :
    (CanonicalId deviceId ∧ 0 ≤ indexBehindSlash deviceId ∧
      ∃ seg, shm (indexBehindSlash deviceId) = .mapped seg) ↔
    ∃ type n seg, type ≠ [] ∧ '/' ∉ type ∧ deviceId = deviceIdOf type n ∧ n ≤ intMax ∧
      shm n = .mapped seg := by
  constructor
  · rintro ⟨⟨type, n, hne, hslash, rfl⟩, hidx, seg, hseg⟩
    rw [indexBehindSlash_deviceIdOf] at hidx hseg
    split at hidx
    · next hn =>
      rw [if_pos hn] at hseg
      exact ⟨type, n, seg, hne, hslash, rfl, hn, hseg⟩
    · cases hidx
  · rintro ⟨type, n, seg, hne, hslash, rfl, hn, hseg⟩
    refine ⟨⟨type, n, hne, hslash, rfl⟩, index_deviceIdOf_nonneg type hn, seg, ?_⟩
    rw [index_deviceIdOf type hn]
    exact hseg

end Plugins

/-- Whatever a well-formed id is, both RPCs end well exactly when they find no factory for the
id, or it is well formed and the factory makes a submitter for it whose state is a
`DeviceState` and whose `submit` throws nothing but `std::exception`s. With the plugins of the
repository, and ids of the documented form: when no factory is found, or the id is
`<type>/<n>` with an `int` for `n` and segment `n` can be mapped; and when everything goes that
has a number behind its last slash: when no factory is found, or the segment of that number
can be mapped. -/
theorem rpcs_end_well_iff (hash : String → UInt64) (deviceId : List Char) (opcode : UInt32)
    (payload : List UInt8) :
    (∀ (wellFormed : List Char → Prop) (reg : FactoryRegistry),
      RpcsEndWell wellFormed hash reg deviceId opcode payload ↔
        ∀ factory, reg.factoryFor deviceId = some factory →
          wellFormed deviceId ∧ factory.Serves deviceId opcode payload) ∧
    (∀ (reg : HwipRegistry) shm run,
      RpcsEndWell CanonicalId hash (pluginRegistry reg shm run) deviceId opcode payload ↔
        reg.factoryFor deviceId = none ∨ ∃ type n seg, type ≠ [] ∧ '/' ∉ type ∧
          deviceId = deviceIdOf type n ∧ n ≤ intMax ∧ shm n = .mapped seg) ∧
    (∀ (reg : HwipRegistry) shm run,
      RpcsEndWell NumericId hash (pluginRegistry reg shm run) deviceId opcode payload ↔
        reg.factoryFor deviceId = none ∨ (0 ≤ indexBehindSlash deviceId ∧
          ∃ seg, shm (indexBehindSlash deviceId) = .mapped seg)) := by
  refine ⟨fun wellFormed reg => endWell_iff, fun reg shm run => ?_, fun reg shm run => ?_⟩
  · rw [endWell_plugins_iff, canonicalId_mapped_iff]
  · rw [endWell_plugins_iff]
    unfold NumericId
    rw [and_self_left]

/-- `accel/x` is refused by the constructor of the plugin, with an exception that leaves both
handlers; nobody answers `NOT_FOUND`, whatever a well-formed id is. And `accel/0junk` is
answered for device 0. -/
theorem bad_index_escapes :
    (∀ wellFormed, ¬∀ hash reg deviceId opcode payload,
      RpcsEndWell wellFormed hash reg deviceId opcode payload) ∧
    (pluginRegistry accelRegistry (fun _ => .mapped (hwModelInit 0 .zero).seg)
      fun _ _ _ => .error "").getDeviceStatus "accel/0junk".toList =
        .ok ⟨"accel/0junk".toList, 2⟩ ∧
    ¬CanonicalId "accel/0junk".toList := by
  refine ⟨?_, rfl, ?_⟩
  · intro wellFormed h
    have hwell := h (fun _ => 0)
      (pluginRegistry accelRegistry (fun _ => .absent) fun _ _ _ => .error "")
      "accel/x".toList 1 []
    cases hwell.statusReturns
  · intro h
    exact absurd h.getLast_isDigit (by decide)

end Deepspan
