import Deepspan.Lib.Transition
import Deepspan.Submit.Plugin

/-!
# The server, its plugins and the hw-model on one segment

The parties that share the segment of one device: any number of `submit` calls,
the hw-model's poll loop, and the management and telemetry RPCs. Every action is
one access of the segment, and every interleaving is a run.

* `submitRequest`: an RPC enters `HwipServiceImpl::SubmitRequest`.
  `HwipRegistry::create` runs the factory, so the RPC gets a plugin instance of
  its own, with a `submit_mutex_` of its own.
* `pluginSubmit`: a call of `submit` on one long-lived instance (number `0`).
* `sub i`: the `i`-th call takes its next step. A call that is about to lock
  waits while another call holds the mutex of the same instance.
* `device`, `stop`: the poll loop takes its next step; `HwModelServer::stop`.
* `resetDevice`, `getFirmwareInfo`, `getTelemetry`: the OR of the RESET bit, and
  one of the loads of the two reading RPCs.

The guards of the last section are the kinds of runs the theorems speak about.
-/

namespace Deepspan

open Transition

structure SubmitState where
  hw : HwModel
  subs : List Sub
  nextInst : Nat

inductive SubmitAct where
  | submitRequest (call : Call)
  | pluginSubmit (call : Call)
  | sub (i : Nat)
  | device
  | stop
  | resetDevice
  | getFirmwareInfo
  | getTelemetry
deriving DecidableEq, Repr

/-- No call holds the `submit_mutex_` of instance `inst`. -/
def SubmitState.mutexFree (s : SubmitState) (inst : Nat) : Bool :=
  s.subs.all fun sub => !(sub.inst == inst && sub.pc.locked)

def SubmitState.subStep (kind : PluginKind) (s : SubmitState) (i : Nat) : Option SubmitState :=
  match s.subs[i]? with
  | none => none
  | some sub =>
    if sub.pc == .lock && !s.mutexFree sub.inst then none
    else (sub.exec kind s.hw).map fun p =>
      { s with hw := { s.hw with seg := p.2 }, subs := s.subs.set i p.1 }

def SubmitState.step (kind : PluginKind) (cfg : HwModelConfig) (s : SubmitState) :
    SubmitAct → Option SubmitState
  | .submitRequest call =>
    some { s with subs := s.subs ++ [⟨s.nextInst, call, .lock, 0⟩], nextInst := s.nextInst + 1 }
  | .pluginSubmit call => some { s with subs := s.subs ++ [⟨0, call, .lock, 0⟩] }
  | .sub i => s.subStep kind i
  | .device => (s.hw.pollLoopStep cfg).map fun hw => { s with hw := hw }
  | .stop => some { s with hw := { s.hw with running := false } }
  | .resetDevice =>
    some { s with hw := { s.hw with
      seg := s.hw.seg.withReg fun r => { r with ctrl := r.ctrl ||| CtrlBits.reset } } }
  | .getFirmwareInfo | .getTelemetry => some s

/-- Nothing submitted yet, on a segment that `HwModelServer::init` has just
created. -/
def SubmitState.initial (startTimeSec : UInt64) : SubmitState :=
  ⟨hwModelInit startTimeSec .zero, [], 1⟩

def submitSystem (kind : PluginKind) (cfg : HwModelConfig) : System SubmitState SubmitAct where
  init s := ∃ t, s = .initial t
  step := SubmitState.step kind cfg

/-! ## What a step can do -/

/-- Every step is one of four things: a new call, a step of a call, a step of
the poll loop, or a step that leaves the calls, the command, the START bit and
the counters alone. -/
theorem SubmitState.step_cases {kind : PluginKind} {cfg : HwModelConfig} {s s' : SubmitState}
    {a : SubmitAct} (h : s.step kind cfg a = some s') :
    (∃ inst call, s'.hw = s.hw ∧ s'.subs = s.subs ++ [⟨inst, call, .lock, 0⟩] ∧
      (a = .submitRequest call ∨ a = .pluginSubmit call)) ∨
    (∃ i sub sub' seg', a = .sub i ∧ s.subs[i]? = some sub ∧ sub.exec kind s.hw = some (sub', seg') ∧
      s'.hw = { s.hw with seg := seg' } ∧ s'.subs = s.subs.set i sub') ∨
    (a = .device ∧ s.hw.pollLoopStep cfg = some s'.hw ∧ s'.subs = s.subs) ∨
    (∃ ctrl running, { s.hw.seg.reg with ctrl := ctrl }.started = s.hw.seg.reg.started ∧
      s'.hw = { s.hw with running := running, seg := s.hw.seg.withReg fun r => { r with ctrl := ctrl } } ∧
      s'.subs = s.subs) := by
  cases a with
  | submitRequest call =>
    cases h
    exact .inl ⟨s.nextInst, call, rfl, rfl, .inl rfl⟩
  | pluginSubmit call =>
    cases h
    exact .inl ⟨0, call, rfl, rfl, .inr rfl⟩
  | sub i =>
    simp only [SubmitState.step, SubmitState.subStep] at h
    cases hi : s.subs[i]? with
    | none => simp only [hi] at h; cases h
    | some sub =>
      simp only [hi] at h
      split at h
      · cases h
      · obtain ⟨⟨sub', seg'⟩, hexec, rfl⟩ := Option.map_eq_some_iff.mp h
        exact .inr (.inl ⟨i, sub, sub', seg', rfl, hi, hexec, rfl, rfl⟩)
  | device =>
    obtain ⟨hw', hstep, rfl⟩ := Option.map_eq_some_iff.mp h
    exact .inr (.inr (.inl ⟨rfl, hstep, rfl⟩))
  | stop =>
    cases h
    exact .inr (.inr (.inr ⟨s.hw.seg.reg.ctrl, false, rfl, rfl, rfl⟩))
  | resetDevice =>
    cases h
    exact .inr (.inr (.inr ⟨s.hw.seg.reg.ctrl ||| CtrlBits.reset, s.hw.running,
      started_or_reset _, rfl, rfl⟩))
  | getFirmwareInfo =>
    cases h
    exact .inr (.inr (.inr ⟨s.hw.seg.reg.ctrl, s.hw.running, rfl, rfl, rfl⟩))
  | getTelemetry =>
    cases h
    exact .inr (.inr (.inr ⟨s.hw.seg.reg.ctrl, s.hw.running, rfl, rfl, rfl⟩))

/-! ## Kinds of runs -/

/-- The call has not used up its polls. -/
def SubmitPc.belowLimit : SubmitPc → Bool
  | .poll i => i < kMaxPolls
  | _ => true

/-- No call takes the step that throws the timeout error. -/
def noPollLimit (s : SubmitState) : SubmitAct → Bool
  | .sub i => (s.subs[i]?).all fun sub => sub.pc.belowLimit
  | _ => true

/-- A call takes its mutex only while no other call holds one, of whichever
plugin instance. -/
def lockExclusive (s : SubmitState) : SubmitAct → Bool
  | .sub i => (s.subs[i]?).all fun sub =>
    sub.pc != .lock || s.subs.all fun other => !other.pc.locked
  | _ => true

/-- Calls are made one after another: a call starts when every earlier one has
ended. -/
def oneAfterAnother (s : SubmitState) : SubmitAct → Bool
  | .submitRequest _ | .pluginSubmit _ => s.subs.all fun sub => sub.pc.ended
  | _ => true

/-- A call sets START only while the poll loop is not in the middle of a
command. -/
def deviceFree (s : SubmitState) : SubmitAct → Bool
  | .sub i => (s.subs[i]?).all fun sub => sub.pc != .orStart || !s.hw.pc.midCommand
  | _ => true

end Deepspan
