import Mathlib.Logic.Function.Basic
import Deepspan.Lib.Transition

/-!
# The life of an hw-model server

`HwModelServer` and `SimTransport` (`sim/hw-model/src`) as the objects that own a
segment: `init` with each of its system calls, which may fail; `run` and `run_async`;
`stop`, which waits for the poll thread; and the destructor, which stops the loop and then
takes the transport apart. There may be any number of servers, of one or of several
processes, each driven by its owner, and several may have been given the same name.

The names of shared-memory objects are those of the system. An object is known by its
number; `shm_open` finds the object of a name or makes one, `shm_unlink` takes the name away
whatever object it stands for by then.

`Server.fdOpen` and `Server.regBase` are what the kernel holds for the server, next to the
members of the object, so that a second `close` or an access through a mapping that is gone
is seen (`Fault`). Left out are processes that are killed, which leave their names behind, a
signal after `main` has destroyed its server, and `run` beside a poll thread.

* `servers_end_clean`: servers that are set up once and not started twice never touch a
  mapping that is gone, nor close anything twice, and leave nothing behind; and whoever finds
  a segment by its name finds one whose server has yet to take the name away.
* `lone_server_found`: a server that is alone with its name can be found from its
  `shm_open` on to its end.
-/

namespace Deepspan

open Transition

/-- Where `poll_loop` is: before it reads `reg_base()`, at the test of `running_`, at its
accesses of the segment, or returned. -/
inductive LoopPc where
  | start
  | test
  | body
  | ended
deriving DecidableEq, Repr

/-- Who runs `poll_loop`: nobody, `poll_thread_`, or the owner's own thread inside `run`. -/
inductive Poller where
  | none
  | thread (pc : LoopPc)
  | owner (pc : LoopPc)
deriving DecidableEq, Repr

/-- What the owner is about to do: nothing, a step of `init`, of `stop` (`true` in the
destructor) or of `SimTransport::cleanup`. -/
inductive OwnerPc where
  | idle
  | shmOpen
  | ftruncate
  | mmap
  | eventfd
  | storeRunning (destroy : Bool)
  | join (destroy : Bool)
  | munmap
  | close
  | unlink
  | closeIrq
  | destroyed
deriving DecidableEq, Repr

structure Server where
  name : String
  owner : OwnerPc := .idle
  /-- `shm_fd_`: the object that it was opened on. -/
  shmFd : Option Nat := .none
  fdOpen : Bool := false
  /-- `reg_base_`: the object that is mapped there. -/
  regBase : Option Nat := .none
  irqFd : Bool := false
  running : Bool := false
  poller : Poller := .none
  /-- History: `init` has been called. -/
  inited : Bool := false
deriving DecidableEq, Repr

inductive Fault where
  | unmappedAccess
  | badClose
  /-- `std::terminate`, on a thread object that still has a thread. -/
  | terminate
deriving DecidableEq, Repr

structure Servers where
  servers : List Server
  names : String → Option Nat
  nextObject : Nat
  faults : List Fault

inductive ServerAct where
  | construct (name : String)
  | init (i : Nat)
  | run (i : Nat)
  | runAsync (i : Nat)
  | stop (i : Nat)
  | destroy (i : Nat)
  /-- The next step of the call that the owner is in; `fails` is for the system calls of `init`. -/
  | owner (i : Nat) (fails : Bool)
  | poll (i : Nat)
  /-- `signal_handler` of `main.cpp`. -/
  | signal (i : Nat)
deriving DecidableEq, Repr

/-- The owner is between two calls. -/
def Server.free (srv : Server) : Bool :=
  srv.owner == .idle && match srv.poller with
    | .owner _ => false
    | _ => true

/-- One step of `poll_loop`; `true` is an access of the segment. -/
def Server.loopStep (srv : Server) : LoopPc → Option (LoopPc × Bool)
  | .start => some (if srv.regBase.isSome then .test else .ended, false)
  | .test => some (if srv.running then .body else .ended, false)
  | .body => some (.test, true)
  | .ended => .none

/-- What a step of a server does to the server, to the names and to the log of faults. -/
structure Effect where
  srv : Server
  names : String → Option Nat
  nextObject : Nat
  fault : Option Fault := .none

/-- The next step of the call that the owner is in. -/
def Server.ownerStep (srv : Server) (names : String → Option Nat) (nextObject : Nat)
    (fails : Bool) : Option Effect :=
  let effect (srv : Server) (fault : Option Fault) : Option Effect :=
    some ⟨srv, names, nextObject, fault⟩
  match srv.owner with
  | .idle =>
    match srv.poller with
    -- `run` returns
    | .owner .ended => effect { srv with poller := .none } .none
    | _ => .none
  | .shmOpen =>
    if fails then effect { srv with owner := .idle, shmFd := .none } .none
    else
      match names srv.name with
      | some o => effect { srv with owner := .ftruncate, shmFd := some o, fdOpen := true } .none
      | .none =>
        some ⟨{ srv with owner := .ftruncate, shmFd := some nextObject, fdOpen := true },
          Function.update names srv.name (some nextObject), nextObject + 1, .none⟩
  | .ftruncate => effect { srv with owner := if fails then .idle else .mmap } .none
  | .mmap =>
    if fails then effect { srv with owner := .idle, regBase := .none } .none
    else effect { srv with owner := .eventfd, regBase := srv.shmFd } .none
  -- the stores to the registers and to `ShmStats` go with the `eventfd` between them
  | .eventfd => effect { srv with owner := .idle, irqFd := !fails } .none
  | .storeRunning destroy => effect { srv with owner := .join destroy, running := false } .none
  | .join destroy =>
    match srv.poller with
    | .none | .thread .ended =>
      effect { srv with owner := if destroy then .munmap else .idle, poller := .none } .none
    | _ => .none
  | .munmap => effect { srv with owner := .close, regBase := .none } .none
  | .close =>
    match srv.shmFd with
    | .none => effect { srv with owner := .closeIrq } .none
    | some _ =>
      effect { srv with owner := .unlink, fdOpen := false }
        (if srv.fdOpen then .none else some .badClose)
  | .unlink =>
    some ⟨{ srv with owner := .closeIrq, shmFd := .none },
      Function.update names srv.name .none, nextObject, .none⟩
  | .closeIrq => effect { srv with owner := .destroyed, irqFd := false } .none
  | .destroyed => .none

/-- A step of one server. -/
def Server.step (srv : Server) (names : String → Option Nat) (nextObject : Nat) :
    ServerAct → Option Effect
  | .construct _ => .none
  | .init _ =>
    if srv.free then some ⟨{ srv with owner := .shmOpen, inited := true }, names, nextObject, .none⟩
    else .none
  | .run _ =>
    if srv.free ∧ srv.poller = .none then
      some ⟨{ srv with running := true, poller := .owner .start }, names, nextObject, .none⟩
    else .none
  | .runAsync _ =>
    if srv.free then
      some ⟨{ srv with running := true, poller := .thread .start }, names, nextObject,
        if srv.poller = .none then .none else some .terminate⟩
    else .none
  | .stop _ =>
    if srv.free then some ⟨{ srv with owner := .storeRunning false }, names, nextObject, .none⟩
    else .none
  | .destroy _ =>
    if srv.free then some ⟨{ srv with owner := .storeRunning true }, names, nextObject, .none⟩
    else .none
  | .owner _ fails => srv.ownerStep names nextObject fails
  | .poll _ =>
    match srv.poller with
    | .none => .none
    | .thread pc =>
      (srv.loopStep pc).map fun p => ⟨{ srv with poller := .thread p.1 }, names, nextObject,
        if p.2 && srv.regBase.isNone then some .unmappedAccess else .none⟩
    | .owner pc =>
      (srv.loopStep pc).map fun p => ⟨{ srv with poller := .owner p.1 }, names, nextObject,
        if p.2 && srv.regBase.isNone then some .unmappedAccess else .none⟩
  | .signal _ =>
    match srv.poller with
    -- `main` of the hw-model does not use `run_async`
    | .thread _ => .none
    | _ =>
      if srv.owner = .destroyed then .none
      else some ⟨{ srv with running := false }, names, nextObject, .none⟩

def ServerAct.target : ServerAct → Nat
  | .construct _ => 0
  | .init i | .run i | .runAsync i | .stop i | .destroy i | .owner i _ | .poll i | .signal i => i

def Servers.step (s : Servers) : ServerAct → Option Servers
  | .construct name => some { s with servers := s.servers ++ [{ name := name }] }
  | a =>
    match s.servers[a.target]? with
    | .none => .none
    | some srv =>
      (srv.step s.names s.nextObject a).map fun e =>
        ⟨s.servers.set a.target e.srv, e.names, e.nextObject, s.faults ++ e.fault.toList⟩

def serversSystem : System Servers ServerAct where
  init s := s = ⟨[], fun _ => .none, 0, []⟩
  step := Servers.step

/-! ## Kinds of runs -/

/-- A server is set up once, and not started while it has a poll thread. -/
def asMeant (s : Servers) (a : ServerAct) : Bool :=
  match a with
  | .init i => (s.servers[i]?).all fun srv => !srv.inited
  | .runAsync i => (s.servers[i]?).all fun srv => srv.poller == .none
  | _ => true

/-- A name is given to a server only when every earlier server of that name has ended. -/
def namesInTurn (s : Servers) (a : ServerAct) : Bool :=
  match a with
  | .construct name => s.servers.all fun srv => srv.name != name || srv.owner == .destroyed
  | _ => true

/-! ## What a step of a server can do -/

variable {srv : Server} {s s' : Servers} {a : ServerAct} {names : String → Option Nat}
  {nextObject : Nat} {e : Effect} {fails : Bool}

/-- The steps of the owner, each with the program point it is taken at. -/
inductive OwnerStep (names : String → Option Nat) (nextObject : Nat) (srv : Server) : Effect → Prop
  | returned : srv.owner = .idle → srv.poller = .owner .ended →
      OwnerStep names nextObject srv ⟨{ srv with poller := .none }, names, nextObject, .none⟩
  | openFails : srv.owner = .shmOpen →
      OwnerStep names nextObject srv
        ⟨{ srv with owner := .idle, shmFd := .none }, names, nextObject, .none⟩
  | opened {o : Nat} : srv.owner = .shmOpen → names srv.name = some o →
      OwnerStep names nextObject srv
        ⟨{ srv with owner := .ftruncate, shmFd := some o, fdOpen := true }, names, nextObject,
          .none⟩
  | created : srv.owner = .shmOpen → names srv.name = .none →
      OwnerStep names nextObject srv
        ⟨{ srv with owner := .ftruncate, shmFd := some nextObject, fdOpen := true },
          Function.update names srv.name (some nextObject), nextObject + 1, .none⟩
  | truncated {pc : OwnerPc} : srv.owner = .ftruncate → pc = .idle ∨ pc = .mmap →
      OwnerStep names nextObject srv ⟨{ srv with owner := pc }, names, nextObject, .none⟩
  | mapFails : srv.owner = .mmap →
      OwnerStep names nextObject srv
        ⟨{ srv with owner := .idle, regBase := .none }, names, nextObject, .none⟩
  | mapped : srv.owner = .mmap →
      OwnerStep names nextObject srv
        ⟨{ srv with owner := .eventfd, regBase := srv.shmFd }, names, nextObject, .none⟩
  | eventfd {irqFd : Bool} : srv.owner = .eventfd →
      OwnerStep names nextObject srv
        ⟨{ srv with owner := .idle, irqFd := irqFd }, names, nextObject, .none⟩
  | stopped {destroy : Bool} : srv.owner = .storeRunning destroy →
      OwnerStep names nextObject srv
        ⟨{ srv with owner := .join destroy, running := false }, names, nextObject, .none⟩
  | joined {pc : OwnerPc} {destroy : Bool} : srv.owner = .join destroy →
      srv.poller = .none ∨ srv.poller = .thread .ended → pc = .munmap ∨ pc = .idle →
      OwnerStep names nextObject srv
        ⟨{ srv with owner := pc, poller := .none }, names, nextObject, .none⟩
  | unmapped : srv.owner = .munmap →
      OwnerStep names nextObject srv
        ⟨{ srv with owner := .close, regBase := .none }, names, nextObject, .none⟩
  | noFd : srv.owner = .close → srv.shmFd = .none →
      OwnerStep names nextObject srv ⟨{ srv with owner := .closeIrq }, names, nextObject, .none⟩
  | closed {o : Nat} : srv.owner = .close → srv.shmFd = some o →
      OwnerStep names nextObject srv
        ⟨{ srv with owner := .unlink, fdOpen := false }, names, nextObject,
          if srv.fdOpen then .none else some .badClose⟩
  | unlinked : srv.owner = .unlink →
      OwnerStep names nextObject srv
        ⟨{ srv with owner := .closeIrq, shmFd := .none }, Function.update names srv.name .none,
          nextObject, .none⟩
  | irqClosed : srv.owner = .closeIrq →
      OwnerStep names nextObject srv
        ⟨{ srv with owner := .destroyed, irqFd := false }, names, nextObject, .none⟩

theorem ownerStep_cases (hs : srv.ownerStep names nextObject fails = some e) :
    OwnerStep names nextObject srv e := by
  unfold Server.ownerStep at hs
  split at hs
  · next hp =>
    split at hs
    · next hpoll =>
      cases hs
      exact .returned hp hpoll
    · cases hs
  · next hp =>
    split at hs
    · cases hs
      exact .openFails hp
    · split at hs
      · next hname =>
        cases hs
        exact .opened hp hname
      · next hname =>
        cases hs
        exact .created hp hname
  · next hp =>
    cases hs
    refine .truncated hp ?_
    cases fails with
    | true => exact .inl rfl
    | false => exact .inr rfl
  · next hp =>
    split at hs
    · cases hs
      exact .mapFails hp
    · cases hs
      exact .mapped hp
  · next hp =>
    cases hs
    exact .eventfd hp
  · next hp =>
    cases hs
    exact .stopped hp
  · next destroy hp =>
    have hpc : (if destroy then OwnerPc.munmap else .idle) = .munmap ∨
        (if destroy then OwnerPc.munmap else .idle) = .idle := by
      cases destroy with
      | true => exact .inl rfl
      | false => exact .inr rfl
    split at hs
    · next hpoll =>
      cases hs
      exact .joined hp (.inl hpoll) hpc
    · next hpoll =>
      cases hs
      exact .joined hp (.inr hpoll) hpc
    · cases hs
  · next hp =>
    cases hs
    exact .unmapped hp
  · next hp =>
    split at hs
    · next hfd =>
      cases hs
      exact .noFd hp hfd
    · next hfd =>
      cases hs
      exact .closed hp hfd
  · next hp =>
    cases hs
    exact .unlinked hp
  · next hp =>
    cases hs
    exact .irqClosed hp
  · cases hs

/-! ## What holds of a server -/

/-- `poll_loop` has taken `reg_base()` and has not returned. -/
def Poller.reading : Poller → Bool
  | .thread .test | .thread .body | .owner .test | .owner .body => true
  | _ => false

/-- The destructor has stopped the loop. -/
def OwnerPc.cleaning : OwnerPc → Bool
  | .munmap | .close | .unlink | .closeIrq | .destroyed => true
  | _ => false

/-- What `init` has not come to yet, and what the destructor is done with. -/
def Server.released (srv : Server) : Prop :=
  match srv.owner with
  | .shmOpen => srv.inited = true ∧ srv.shmFd = .none ∧ srv.regBase = .none ∧ srv.irqFd = false
  | .ftruncate | .mmap => srv.inited = true ∧ srv.regBase = .none ∧ srv.irqFd = false
  | .eventfd => srv.inited = true
  | .close | .unlink => srv.regBase = .none
  | .closeIrq => srv.regBase = .none ∧ srv.shmFd = .none
  | .destroyed => srv.regBase = .none ∧ srv.shmFd = .none ∧ srv.irqFd = false
  | _ => True

structure ServerOk (srv : Server) : Prop where
  mapped : srv.poller.reading = true → srv.regBase.isSome = true
  joined : srv.owner.cleaning = true → srv.poller = .none
  blank : srv.inited = false → srv.shmFd = .none ∧ srv.regBase = .none ∧ srv.irqFd = false
  fd : srv.fdOpen = (srv.shmFd.isSome && srv.owner != .unlink)
  released : srv.released

theorem serverOk_construct (name : String) : ServerOk { name := name } :=
  ⟨(fun h => by cases h), fun _ => rfl, fun _ => ⟨rfl, rfl, rfl⟩, rfl, trivial⟩

theorem ServerOk.destroyed (h : ServerOk srv) (hp : srv.owner = .destroyed) :
    srv.shmFd = .none ∧ srv.regBase = .none ∧ srv.irqFd = false := by
  have hreleased := h.released
  simp only [Server.released, hp] at hreleased
  exact ⟨hreleased.2.1, hreleased.1, hreleased.2.2⟩

/-- The owner's steps keep it, without a fault. -/
theorem ServerOk.ownerStep (h : ServerOk srv) (hs : OwnerStep names nextObject srv e) :
    ServerOk e.srv ∧ e.fault = .none := by
  obtain ⟨hmapped, hjoined, hblank, hfd, hreleased⟩ := h
  unfold Server.released at hreleased
  -- before `mmap` there is nothing that the loop could have taken
  have hunread {b : Bool} (hbase : srv.regBase = .none) (hr : srv.poller.reading = true) :
      b = true := by
    have hsome := hmapped hr
    rw [hbase] at hsome
    cases hsome
  have hset {P : Prop} (hinited : srv.inited = true) (hnot : srv.inited = false) : P := by
    rw [hinited] at hnot
    cases hnot
  cases hs with
  | returned hp _ =>
    refine ⟨⟨(fun hr => by cases hr), fun _ => rfl, hblank, hfd, ?_⟩, rfl⟩
    simp only [Server.released, hp]
  | openFails hp =>
    simp only [hp] at hreleased hfd
    obtain ⟨hinited, hfd0, hbase, _⟩ := hreleased
    refine ⟨⟨hunread hbase, (fun hc => by cases hc), hset hinited, ?_, trivial⟩, rfl⟩
    rw [hfd, hfd0]
    rfl
  | opened hp _ | created hp _ =>
    simp only [hp] at hreleased
    obtain ⟨hinited, _, hbase, hirq⟩ := hreleased
    exact ⟨⟨hunread hbase, (fun hc => by cases hc), hset hinited, rfl, hinited, hbase, hirq⟩, rfl⟩
  | truncated hp hpc =>
    simp only [hp] at hreleased hfd
    obtain ⟨hinited, hbase, hirq⟩ := hreleased
    rcases hpc with rfl | rfl
    · exact ⟨⟨hmapped, (fun hc => by cases hc), hblank, hfd, trivial⟩, rfl⟩
    · exact ⟨⟨hmapped, (fun hc => by cases hc), hblank, hfd, hinited, hbase, hirq⟩, rfl⟩
  | mapFails hp =>
    simp only [hp] at hreleased hfd
    obtain ⟨hinited, hbase, _⟩ := hreleased
    exact ⟨⟨hunread hbase, (fun hc => by cases hc), hset hinited, hfd, trivial⟩, rfl⟩
  | mapped hp =>
    simp only [hp] at hreleased hfd
    obtain ⟨hinited, hbase, _⟩ := hreleased
    exact ⟨⟨hunread hbase, (fun hc => by cases hc), hset hinited, hfd, hinited⟩, rfl⟩
  | eventfd hp =>
    simp only [hp] at hreleased hfd
    exact ⟨⟨hmapped, (fun hc => by cases hc), hset hreleased, hfd, trivial⟩, rfl⟩
  | stopped hp =>
    simp only [hp] at hfd
    exact ⟨⟨hmapped, (fun hc => by cases hc), hblank, hfd, trivial⟩, rfl⟩
  | joined hp _ hpc =>
    simp only [hp] at hfd
    rcases hpc with rfl | rfl <;>
      exact ⟨⟨(fun hr => by cases hr), fun _ => rfl, hblank, hfd, trivial⟩, rfl⟩
  | unmapped hp =>
    simp only [hp] at hfd hjoined
    have hnone := hjoined rfl
    refine ⟨⟨fun hr => ?_, fun _ => hnone, fun hi => ?_, hfd, rfl⟩, rfl⟩
    · rw [hnone] at hr
      cases hr
    · exact ⟨(hblank hi).1, rfl, (hblank hi).2.2⟩
  | noFd hp hnofd =>
    simp only [hp] at hreleased hfd hjoined
    exact ⟨⟨hmapped, fun _ => hjoined rfl, hblank, hfd, hreleased, hnofd⟩, rfl⟩
  | closed hp hopen =>
    simp only [hp, hopen] at hreleased hfd hjoined
    refine ⟨⟨hmapped, fun _ => hjoined rfl, hblank, ?_, hreleased⟩, if_pos hfd⟩
    simp only [bne_self_eq_false, Bool.and_false]
  | unlinked hp =>
    simp only [hp] at hreleased hfd hjoined
    refine ⟨⟨hmapped, fun _ => hjoined rfl, fun hi => ⟨rfl, (hblank hi).2⟩, ?_, hreleased, rfl⟩,
      rfl⟩
    rw [hfd]
    simp only [bne_self_eq_false, Bool.and_false, Option.isSome_none, Bool.false_and]
  | irqClosed hp =>
    simp only [hp] at hreleased hfd hjoined
    exact ⟨⟨hmapped, fun _ => hjoined rfl, fun hi => ⟨(hblank hi).1, (hblank hi).2.1, rfl⟩, hfd,
      hreleased.1, hreleased.2, rfl⟩, rfl⟩

/-- The owner is free: it is in no call, and the loop, if any, is the thread's. -/
theorem free_idle (h : srv.free = true) : srv.owner = .idle := by
  simp only [Server.free, Bool.and_eq_true, beq_iff_eq] at h
  exact h.1

theorem loopStep_reading {pc pc' : LoopPc} {access : Bool}
    (hs : srv.loopStep pc = some (pc', access)) :
    (pc' = .test ∨ pc' = .body → srv.regBase.isSome = true ∨ pc = .test ∨ pc = .body) ∧
    (access = true → pc = .body) := by
  cases pc <;> simp only [Server.loopStep, Option.some.injEq, Prod.mk.injEq, reduceCtorEq] at hs
  · obtain ⟨rfl, rfl⟩ := hs
    refine ⟨fun hpc => .inl ?_, fun hf => by cases hf⟩
    by_cases hbase : srv.regBase.isSome = true
    · exact hbase
    · rw [if_neg hbase] at hpc
      exact absurd hpc (by decide)
  · exact ⟨fun _ => .inr (.inl rfl), fun hf => absurd (hs.2.trans hf) (by decide)⟩
  · exact ⟨fun _ => .inr (.inr rfl), fun _ => rfl⟩

/-- A step of the loop reads what is mapped. -/
theorem ServerOk.loopStep (h : ServerOk srv) {pc pc' : LoopPc} {access : Bool} {poller' : Poller}
    (hs : srv.loopStep pc = some (pc', access))
    (hnow : pc = .test ∨ pc = .body → srv.poller.reading = true) (hsome : srv.poller ≠ .none)
    (hnext : poller'.reading = true → pc' = .test ∨ pc' = .body) :
    ServerOk { srv with poller := poller' } ∧
      (if access && srv.regBase.isNone then some Fault.unmappedAccess else .none) = .none := by
  obtain ⟨hread, haccess⟩ := loopStep_reading hs
  refine ⟨⟨fun hr => ?_, fun hc => absurd (h.joined hc) hsome, h.blank, h.fd, h.released⟩, ?_⟩
  · rcases hread (hnext hr) with hbase | hpc
    · exact hbase
    · exact h.mapped (hnow hpc)
  · rw [if_neg]
    intro hboth
    rw [Bool.and_eq_true, Option.isNone_iff_eq_none] at hboth
    have hbase := h.mapped (hnow (.inr (haccess hboth.1)))
    rw [hboth.2] at hbase
    cases hbase

/-- Every step of a server that is used as it is meant to be. -/
theorem ServerOk.step (h : ServerOk srv) (hs : srv.step names nextObject a = some e)
    (hinit : ∀ i, a = .init i → srv.inited = false)
    (hrun : ∀ i, a = .runAsync i → srv.poller = .none) : ServerOk e.srv ∧ e.fault = .none := by
  cases a with
  | construct _ => cases hs
  | init i =>
    simp only [Server.step] at hs
    split at hs
    · next hfree =>
      cases hs
      have hfd := h.fd
      rw [free_idle hfree] at hfd
      exact ⟨⟨h.mapped, (fun hc => by cases hc), (fun hi => by cases hi), hfd, rfl,
        h.blank (hinit i rfl)⟩, rfl⟩
    · cases hs
  | run i =>
    simp only [Server.step] at hs
    split at hs
    · next hfree =>
      cases hs
      have hidle := free_idle hfree.1
      exact ⟨⟨(fun hr => by cases hr), (fun hc => by rw [hidle] at hc; cases hc), h.blank, h.fd,
        h.released⟩, rfl⟩
    · cases hs
  | runAsync i =>
    simp only [Server.step] at hs
    split at hs
    · next hfree =>
      cases hs
      have hidle := free_idle hfree
      exact ⟨⟨(fun hr => by cases hr), (fun hc => by rw [hidle] at hc; cases hc), h.blank, h.fd,
        h.released⟩, if_pos (hrun i rfl)⟩
    · cases hs
  | stop i | destroy i =>
    simp only [Server.step] at hs
    split at hs
    · next hfree =>
      cases hs
      have hfd := h.fd
      rw [free_idle hfree] at hfd
      exact ⟨⟨h.mapped, (fun hc => by cases hc), h.blank, hfd, trivial⟩, rfl⟩
    · cases hs
  | owner i fails => exact h.ownerStep (ownerStep_cases hs)
  | poll i =>
    simp only [Server.step] at hs
    split at hs
    · cases hs
    · next pc hpoll =>
      obtain ⟨⟨pc', access⟩, hloop, rfl⟩ := Option.map_eq_some_iff.mp hs
      refine h.loopStep hloop ?_ (by rw [hpoll]; exact fun hn => by cases hn) ?_
      · rintro (rfl | rfl) <;> rw [hpoll] <;> rfl
      · intro hr
        cases pc' <;> first | exact .inl rfl | exact .inr rfl | cases hr
    · next pc hpoll =>
      obtain ⟨⟨pc', access⟩, hloop, rfl⟩ := Option.map_eq_some_iff.mp hs
      refine h.loopStep hloop ?_ (by rw [hpoll]; exact fun hn => by cases hn) ?_
      · rintro (rfl | rfl) <;> rw [hpoll] <;> rfl
      · intro hr
        cases pc' <;> first | exact .inl rfl | exact .inr rfl | cases hr
  | signal i =>
    simp only [Server.step] at hs
    split at hs
    · cases hs
    · split at hs
      · cases hs
      · cases hs
        exact ⟨⟨h.mapped, h.joined, h.blank, h.fd, h.released⟩, rfl⟩

/-- A server that has ended takes no step. -/
theorem not_destroyed_of_step (h : ServerOk srv) (hs : srv.step names nextObject a = some e) :
    srv.owner ≠ .destroyed := by
  intro hp
  have hpoller : srv.poller = .none := by
    refine h.joined ?_
    rw [hp]
    rfl
  have hfree : ¬srv.free = true := by
    intro hf
    cases hp.symm.trans (free_idle hf)
  cases a with
  | construct _ => cases hs
  | run i =>
    rw [Server.step, if_neg fun hc => hfree hc.1] at hs
    cases hs
  | init i | runAsync i | stop i | destroy i =>
    rw [Server.step, if_neg hfree] at hs
    cases hs
  | owner i fails =>
    simp only [Server.step, Server.ownerStep, hp] at hs
    cases hs
  | poll i =>
    simp only [Server.step, hpoller] at hs
    cases hs
  | signal i =>
    simp only [Server.step, hpoller, hp, if_true] at hs
    cases hs

/-! ## What holds of the names -/

/-- What a step of a server does with its descriptor and with the names. -/
inductive NameStep (names : String → Option Nat) (srv : Server) (e : Effect) : Prop
  | same : e.names = names → e.srv.shmFd = srv.shmFd → NameStep names srv e
  | opened : srv.shmFd = .none → e.names = names →
      e.srv.shmFd = .none ∨ e.srv.shmFd = names srv.name → NameStep names srv e
  | created {o : Nat} : srv.owner = .shmOpen → srv.shmFd = .none → e.srv.shmFd = some o →
      e.names = Function.update names srv.name (some o) → NameStep names srv e
  | unlinked : srv.owner = .unlink → e.srv.shmFd = .none →
      e.names = Function.update names srv.name .none → NameStep names srv e

theorem nameStep_of_step (h : ServerOk srv) (hs : srv.step names nextObject a = some e) :
    e.srv.name = srv.name ∧ NameStep names srv e := by
  cases a with
  | construct _ => cases hs
  | owner i fails =>
    have hreleased := h.released
    unfold Server.released at hreleased
    cases ownerStep_cases hs with
    | openFails hp =>
      simp only [hp] at hreleased
      exact ⟨rfl, .opened hreleased.2.1 rfl (.inl rfl)⟩
    | opened hp hname =>
      simp only [hp] at hreleased
      exact ⟨rfl, .opened hreleased.2.1 rfl (.inr hname.symm)⟩
    | created hp _ =>
      simp only [hp] at hreleased
      exact ⟨rfl, .created hp hreleased.2.1 rfl rfl⟩
    | unlinked hp => exact ⟨rfl, .unlinked hp rfl rfl⟩
    | returned _ _ | truncated _ _ | mapFails _ | mapped _ | eventfd _ | stopped _ | joined _ _ _
    | unmapped _ | noFd _ _ | closed _ _ | irqClosed _ => exact ⟨rfl, .same rfl rfl⟩
  | poll i =>
    simp only [Server.step] at hs
    split at hs
    · cases hs
    · obtain ⟨p, _, rfl⟩ := Option.map_eq_some_iff.mp hs
      exact ⟨rfl, .same rfl rfl⟩
    · obtain ⟨p, _, rfl⟩ := Option.map_eq_some_iff.mp hs
      exact ⟨rfl, .same rfl rfl⟩
  | signal i =>
    simp only [Server.step] at hs
    split at hs
    · cases hs
    · split at hs
      · cases hs
      · cases hs
        exact ⟨rfl, .same rfl rfl⟩
  | init i | run i | runAsync i | stop i | destroy i =>
    simp only [Server.step] at hs
    split at hs
    · cases hs
      exact ⟨rfl, .same rfl rfl⟩
    · cases hs

/-! ## Runs -/

theorem Servers.step_cases (h : s.step a = some s') :
    (∃ name, a = .construct name ∧ s' = { s with servers := s.servers ++ [{ name := name }] }) ∨
    ∃ srv e, s.servers[a.target]? = some srv ∧ srv.step s.names s.nextObject a = some e ∧
      s' = ⟨s.servers.set a.target e.srv, e.names, e.nextObject, s.faults ++ e.fault.toList⟩ := by
  unfold Servers.step at h
  split at h
  · next name =>
    cases h
    exact .inl ⟨name, rfl, rfl⟩
  · split at h
    · cases h
    · next srv hsrv =>
      obtain ⟨e, hstep, rfl⟩ := Option.map_eq_some_iff.mp h
      exact .inr ⟨srv, e, hsrv, hstep, rfl⟩

structure ServersOk (s : Servers) : Prop where
  each : ∀ (i : Nat) (srv : Server), s.servers[i]? = some srv → ServerOk srv
  faults : s.faults = []
  names : ∀ name o, s.names name = some o →
    ∃ (i : Nat) (srv : Server), s.servers[i]? = some srv ∧ srv.name = name ∧ srv.shmFd = some o

theorem asMeant_server (hg : asMeant s a = true) (hsrv : s.servers[a.target]? = some srv) :
    (∀ i, a = .init i → srv.inited = false) ∧ ∀ i, a = .runAsync i → srv.poller = .none := by
  constructor
  · rintro i rfl
    rw [ServerAct.target] at hsrv
    simpa only [asMeant, hsrv, Option.all_some, Bool.not_eq_true'] using hg
  · rintro i rfl
    rw [ServerAct.target] at hsrv
    simpa only [asMeant, hsrv, Option.all_some, beq_iff_eq] using hg

theorem ServersOk.step (h : ServersOk s) (hg : asMeant s a = true) (hs : s.step a = some s') :
    ServersOk s' := by
  rcases Servers.step_cases hs with ⟨name, rfl, rfl⟩ | ⟨srv, e, hsrv, hstep, rfl⟩
  · refine ⟨fun i srv hi => ?_, h.faults, fun n o hn => ?_⟩
    · rcases getElem?_concat_cases hi with hi | ⟨_, rfl⟩
      · exact h.each i srv hi
      · exact serverOk_construct name
    · obtain ⟨i, srv, hi, hname, hfd⟩ := h.names n o hn
      have hlt := (List.getElem?_eq_some_iff.mp hi).1
      exact ⟨i, srv, by rw [List.getElem?_append_left hlt]; exact hi, hname, hfd⟩
  · have hok := h.each _ srv hsrv
    obtain ⟨hinit, hrun⟩ := asMeant_server hg hsrv
    obtain ⟨hok', hfault⟩ := hok.step hstep hinit hrun
    obtain ⟨hname, hnames⟩ := nameStep_of_step hok hstep
    refine ⟨fun j srv' hj => ?_, ?_, fun n o hn => ?_⟩
    · rcases getElem?_set_cases hsrv hj with ⟨_, rfl⟩ | ⟨_, hj⟩
      · exact hok'
      · exact h.each j srv' hj
    · rw [hfault, h.faults]
      rfl
    · -- whoever has the object open under that name still has it
      have hother (hn : s.names n = some o) (hkeep : srv.shmFd = some o → e.srv.shmFd = some o) :
          ∃ (i : Nat) (srv' : Server), (s.servers.set a.target e.srv)[i]? = some srv' ∧
            srv'.name = n ∧ srv'.shmFd = some o := by
        obtain ⟨i, srv', hi, hn', hfd⟩ := h.names n o hn
        by_cases hia : i = a.target
        · subst hia
          cases hi.symm.trans hsrv
          exact ⟨_, e.srv, getElem?_set_self_of hsrv, hname.trans hn', hkeep hfd⟩
        · exact ⟨i, srv', getElem?_set_of_ne hia hi, hn', hfd⟩
      change e.names n = some o at hn
      cases hnames with
      | same hkept hfd =>
        rw [hkept] at hn
        exact hother hn fun h => hfd.trans h
      | opened hnone hkept _ =>
        rw [hkept] at hn
        refine hother hn fun h => ?_
        rw [hnone] at h
        cases h
      | created _ hnone hfd hnew =>
        rw [hnew] at hn
        by_cases hsame : n = srv.name
        · rw [hsame, Function.update_self] at hn
          exact ⟨_, e.srv, getElem?_set_self_of hsrv, hname.trans hsame.symm, hfd.trans hn⟩
        · rw [Function.update_of_ne hsame] at hn
          refine hother hn fun h => ?_
          rw [hnone] at h
          cases h
      | unlinked _ _ hnew =>
        rw [hnew] at hn
        by_cases hsame : n = srv.name
        · rw [hsame, Function.update_self] at hn
          cases hn
        · rw [Function.update_of_ne hsame] at hn
          obtain ⟨i, srv', hi, hn', hfd⟩ := h.names n o hn
          have hia : i ≠ a.target := by
            rintro rfl
            cases hi.symm.trans hsrv
            exact hsame hn'.symm
          exact ⟨i, srv', getElem?_set_of_ne hia hi, hn', hfd⟩

theorem reach_serversOk (h : Reach serversSystem (fun s a => asMeant s a = true) s) :
    ServersOk s := by
  refine h.invariant ?_ fun s a s' hok hg hs => hok.step hg hs
  rintro s rfl
  refine ⟨fun i srv hi => ?_, rfl, fun n o hn => ?_⟩
  · cases hi
  · cases hn

/-- Any number of servers, each set up once and never started while it has a poll thread, whatever
system calls of theirs fail: no loop reads a mapping that is gone and nothing is closed twice; a
server past its `stop` in the destructor has no loop any more, and one that has ended has neither
descriptor nor mapping; and a name that can be opened leads to the object of a server's `shm_fd_`,
which is set until the server has taken the name away (and is closed just before that). -/
theorem servers_end_clean (h : Reach serversSystem (fun s a => asMeant s a = true) s) :
    s.faults = [] ∧
    (∀ (i : Nat) (srv : Server), s.servers[i]? = some srv →
      (srv.owner.cleaning = true → srv.poller = .none) ∧
      (srv.owner = .destroyed → srv.fdOpen = false ∧ srv.regBase = .none ∧ srv.irqFd = false)) ∧
    ∀ name o, s.names name = some o →
      ∃ (i : Nat) (srv : Server), s.servers[i]? = some srv ∧ srv.name = name ∧
        srv.shmFd = some o := by
  have hok := reach_serversOk h
  refine ⟨hok.faults, fun i srv hi => ⟨(hok.each i srv hi).joined, fun hp => ?_⟩, hok.names⟩
  obtain ⟨hfd, hbase, hirq⟩ := (hok.each i srv hi).destroyed hp
  refine ⟨?_, hbase, hirq⟩
  rw [(hok.each i srv hi).fd, hfd]
  rfl

/-- Two servers of one name, of which the first ends while the second serves. -/
def namesakes : List ServerAct :=
  schedule [(1, .construct "/deepspan_hwip_0"), (1, .init 0), (4, .owner 0 false),
    (1, .construct "/deepspan_hwip_0"), (1, .init 1), (4, .owner 1 false),
    (1, .runAsync 0), (1, .poll 0), (1, .runAsync 1), (1, .poll 1), (1, .poll 0),
    (1, .destroy 0), (1, .owner 0 false), (2, .poll 0), (1, .poll 1), (5, .owner 0 false)]

theorem namesakes_run :
    (replay serversSystem asMeant ⟨[], fun _ => .none, 0, []⟩ namesakes).map (fun s =>
      (s.servers.map (fun srv => (srv.owner, srv.regBase, srv.poller)),
        s.names "/deepspan_hwip_0")) =
    some ([(.destroyed, .none, .none), (.idle, some 0, .thread .body)], .none) := by
  decide

/-- The second server serves a segment that nobody can find any more. -/
theorem servers_end_clean_namesakes : ∃ s : Servers, s.faults = [] ∧
    s.servers.map (fun srv => (srv.owner, srv.regBase, srv.poller)) =
      [(.destroyed, .none, .none), (.idle, some 0, .thread .body)] ∧
    s.names "/deepspan_hwip_0" = .none := by
  obtain ⟨s, hs, hview⟩ := Option.map_eq_some_iff.mp namesakes_run
  obtain ⟨hservers, hnames⟩ := Prod.mk.inj hview
  have hreach : Reach serversSystem (fun s a => asMeant s a = true) s :=
    replay_reach (fun _ _ h => h) (.init rfl) hs
  exact ⟨s, (servers_end_clean hreach).1, hservers, hnames⟩

/-! ## Servers that are alone with their names -/

structure NamesHeld (s : Servers) : Prop where
  alone : ∀ (i j : Nat) (srv srv' : Server), s.servers[i]? = some srv → s.servers[j]? = some srv' →
    srv.name = srv'.name → i ≠ j → srv.owner = .destroyed ∨ srv'.owner = .destroyed
  held : ∀ (i : Nat) (srv : Server) (o : Nat), s.servers[i]? = some srv → srv.shmFd = some o →
    s.names srv.name = some o

theorem NamesHeld.construct (h : NamesHeld s) {name : String}
    (hg : namesInTurn s (.construct name) = true) :
    NamesHeld { s with servers := s.servers ++ [{ name := name }] } := by
  -- the earlier servers of that name have ended
  have hended {i : Nat} {srv : Server} (hi : s.servers[i]? = some srv) (hn : srv.name = name) :
      srv.owner = .destroyed := by
    have hall := List.all_eq_true.mp hg srv (List.mem_of_getElem? hi)
    simpa only [hn, bne_self_eq_false, Bool.false_or, beq_iff_eq] using hall
  refine ⟨fun i j srv srv' hi hj hn hij => ?_, fun i srv o hi hfd => ?_⟩
  · rcases getElem?_concat_cases hi with hi | ⟨rfl, rfl⟩
    · rcases getElem?_concat_cases hj with hj | ⟨rfl, rfl⟩
      · exact h.alone i j srv srv' hi hj hn hij
      · exact .inl (hended hi hn)
    · rcases getElem?_concat_cases hj with hj | ⟨rfl, rfl⟩
      · exact .inr (hended hj hn.symm)
      · exact absurd rfl hij
  · rcases getElem?_concat_cases hi with hi | ⟨_, rfl⟩
    · exact h.held i srv o hi hfd
    · cases hfd

theorem NamesHeld.server (h : NamesHeld s) (hok : ServersOk s) {i : Nat}
    (hsrv : s.servers[i]? = some srv) (hs : srv.step s.names s.nextObject a = some e)
    {faults : List Fault} :
    NamesHeld ⟨s.servers.set i e.srv, e.names, e.nextObject, faults⟩ := by
  have hlive := not_destroyed_of_step (hok.each i srv hsrv) hs
  obtain ⟨hname, hnames⟩ := nameStep_of_step (hok.each i srv hsrv) hs
  have hother {j : Nat} {srv' : Server} (hj : s.servers[j]? = some srv') (hji : j ≠ i)
      (hn : srv'.name = srv.name) : srv'.owner = .destroyed :=
    (h.alone j i srv' srv hj hsrv hn hji).resolve_right hlive
  refine ⟨fun j k srv' srv'' hj hk hn hjk => ?_, fun j srv' o hj hfd => ?_⟩
  · rcases getElem?_set_cases hsrv hj with ⟨rfl, rfl⟩ | ⟨hji, hj'⟩
    · rcases getElem?_set_cases hsrv hk with ⟨rfl, rfl⟩ | ⟨hki, hk'⟩
      · exact absurd rfl hjk
      · exact .inr (hother hk' hki (hn.symm.trans hname))
    · rcases getElem?_set_cases hsrv hk with ⟨rfl, rfl⟩ | ⟨_, hk'⟩
      · exact .inl (hother hj' hji (hn.trans hname))
      · exact h.alone j k srv' srv'' hj' hk' hn hjk
  · change e.names srv'.name = some o
    rcases getElem?_set_cases hsrv hj with ⟨rfl, rfl⟩ | ⟨hji, hj⟩
    · rw [hname]
      cases hnames with
      | same hkept hkeep =>
        rw [hkept]
        exact h.held _ srv o hsrv (hkeep.symm.trans hfd)
      | opened _ hkept hfound =>
        rw [hkept]
        rcases hfound with hnone | hfound
        · cases hnone.symm.trans hfd
        · exact hfound.symm.trans hfd
      | created _ _ hnew hupd =>
        rw [hupd, Function.update_self]
        exact hnew.symm.trans hfd
      | unlinked _ hnone _ => cases hnone.symm.trans hfd
    · have hheld := h.held j srv' o hj hfd
      have hne : srv'.name ≠ srv.name := by
        intro hn
        have hended := ((hok.each j srv' hj).destroyed (hother hj hji hn)).1
        cases hended.symm.trans hfd
      cases hnames with
      | same hkept _ | opened _ hkept _ =>
        rw [hkept]
        exact hheld
      | created _ _ _ hupd | unlinked _ _ hupd =>
        rw [hupd, Function.update_of_ne hne]
        exact hheld

theorem reach_namesHeld
    (h : Reach serversSystem (fun s a => asMeant s a = true ∧ namesInTurn s a = true) s) :
    ServersOk s ∧ NamesHeld s := by
  refine h.invariant (P := fun s => ServersOk s ∧ NamesHeld s) ?_
    fun s a s' hok hg hs => ⟨hok.1.step hg.1 hs, ?_⟩
  · rintro s rfl
    refine ⟨reach_serversOk (.init rfl), fun i _ _ _ hi => ?_, fun i _ _ hi => ?_⟩ <;> cases hi
  · rcases Servers.step_cases hs with ⟨name, rfl, rfl⟩ | ⟨srv, e, hsrv, hstep, rfl⟩
    · exact hok.2.construct hg.2
    · exact hok.2.server hok.1 hsrv hstep

/-- If a name is given to a server only when the earlier servers of that name have ended, then a
name leads to an object exactly while a server of that name has its `shm_fd_` on the object, from
`shm_open` to `shm_unlink`, and it is one server. -/
theorem lone_server_found
    (h : Reach serversSystem (fun s a => asMeant s a = true ∧ namesInTurn s a = true) s)
    (name : String) (o : Nat) :
    s.names name = some o ↔ ∃! i : Nat, ∃ srv : Server, s.servers[i]? = some srv ∧
      srv.name = name ∧ srv.shmFd = some o := by
  obtain ⟨hok, hheld⟩ := reach_namesHeld h
  constructor
  · intro hn
    obtain ⟨i, srv, hi, hname, hfd⟩ := hok.names name o hn
    refine ⟨i, ⟨srv, hi, hname, hfd⟩, ?_⟩
    rintro j ⟨srv', hj, hname', hfd'⟩
    by_contra hji
    rcases hheld.alone j i srv' srv hj hi (hname'.trans hname.symm) hji with hp | hp
    · cases ((hok.each j srv' hj).destroyed hp).1.symm.trans hfd'
    · cases ((hok.each i srv hi).destroyed hp).1.symm.trans hfd
  · rintro ⟨i, ⟨srv, hi, rfl, hfd⟩, _⟩
    exact hheld.held i srv o hi hfd

/-- A server whose `mmap` fails and that ends, and then another one of its name. -/
def inTurn : List ServerAct :=
  schedule [(1, .construct "/deepspan_hwip_0"), (1, .init 0), (2, .owner 0 false),
    (1, .owner 0 true), (1, .destroy 0), (6, .owner 0 false),
    (1, .construct "/deepspan_hwip_0"), (1, .init 1), (4, .owner 1 false), (1, .run 1),
    (1, .poll 1)]

theorem inTurn_run :
    (replay serversSystem (fun s a => asMeant s a && namesInTurn s a)
      ⟨[], fun _ => .none, 0, []⟩ inTurn).map (fun s => s.names "/deepspan_hwip_0") =
    some (some 1) := by
  decide

theorem lone_server_found_inTurn : ∃ s : Servers, s.names "/deepspan_hwip_0" = some 1 ∧
    ∃! i : Nat, ∃ srv : Server, s.servers[i]? = some srv ∧ srv.name = "/deepspan_hwip_0" ∧
      srv.shmFd = some 1 := by
  obtain ⟨s, hs, hname⟩ := Option.map_eq_some_iff.mp inTurn_run
  have hreach : Reach serversSystem
      (fun s a => asMeant s a = true ∧ namesInTurn s a = true) s :=
    replay_reach (fun _ _ h => Bool.and_eq_true_iff.mp h) (.init rfl) hs
  exact ⟨s, hname, (lone_server_found hreach "/deepspan_hwip_0" 1).mp hname⟩

end Deepspan
