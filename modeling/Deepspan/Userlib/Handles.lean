import Deepspan.Lib.Descriptors

/-!
# Who closes a descriptor

The special members of `DeepspanDevice` and `AsyncClient`. A device owns its descriptor while
`fd_` is not negative, a client its ring while `initialized_` is set; a client that has been
moved from keeps a copy of the ring. Both classes are `Members`, so that `reach_singleOwner`
speaks of every sequence of constructions, moves and destructions of their objects.
-/

namespace Deepspan

open Transition Descriptors

/-! ## `DeepspanDevice` -/

structure DeepspanDevice where
  fd : Int := -1
  kernelUapiVersion : UInt32 := 0
deriving DecidableEq, Repr

namespace DeepspanDevice

/-- What the object has to close. -/
def handle (d : DeepspanDevice) : Option Nat := if 0 ≤ d.fd then some d.fd.toNat else none

/-- `~DeepspanDevice()`: what it closes, and what it leaves. -/
def destroy (d : DeepspanDevice) : Option Nat × DeepspanDevice :=
  if 0 ≤ d.fd then (some d.fd.toNat, { d with fd := -1 }) else (none, d)

/-- `DeepspanDevice(DeepspanDevice&&)`: the new object, and `other`. -/
def moveConstruct (other : DeepspanDevice) : DeepspanDevice × DeepspanDevice :=
  (⟨other.fd, other.kernelUapiVersion⟩, ⟨-1, 0⟩)

/-- `operator=(DeepspanDevice&&)`: what it closes, `*this` and `other`. -/
def moveAssign (self : Bool) (this other : DeepspanDevice) :
    Option Nat × DeepspanDevice × DeepspanDevice :=
  if self then (none, this, other)
  else
    (if 0 ≤ this.fd then some this.fd.toNat else none,
      ⟨other.fd, other.kernelUapiVersion⟩, ⟨-1, 0⟩)

/-- A device is made of the descriptor that `::open` has returned and the version of the
driver. -/
def members : Members DeepspanDevice UInt32 where
  handle := handle
  construct n uapiVer := ⟨n, uapiVer⟩
  moveConstruct := moveConstruct
  moveAssign := moveAssign
  destroy d := d.destroy.1
  construct_handle n _ := if_pos (Int.natCast_nonneg n)
  moveConstruct_new _ := rfl
  moveConstruct_other _ := rfl
  moveAssign_releases _ _ := rfl
  moveAssign_this _ _ := rfl
  moveAssign_other _ _ := rfl
  moveAssign_self _ := rfl
  destroy_releases d := by
    unfold destroy handle
    split <;> rfl

end DeepspanDevice

/-! ## `AsyncClient` -/

/-- `ring_` is known by its `ring_fd`. -/
structure AsyncClient where
  ring : Nat := 0
  deviceFd : Int := -1
  initialized : Bool := false
deriving DecidableEq, Repr

namespace AsyncClient

/-- The ring that the object has to tear down. -/
def handle (c : AsyncClient) : Option Nat := if c.initialized then some c.ring else none

/-- `~AsyncClient()`: the ring that it tears down, and what it leaves. -/
def destroy (c : AsyncClient) : Option Nat × AsyncClient :=
  if c.initialized then (some c.ring, { c with initialized := false }) else (none, c)

/-- `AsyncClient(AsyncClient&&)`: the new object, and `other`. -/
def moveConstruct (other : AsyncClient) : AsyncClient × AsyncClient :=
  (⟨other.ring, other.deviceFd, other.initialized⟩,
    { other with initialized := false, deviceFd := -1 })

/-- `operator=(AsyncClient&&)`: the ring that it tears down, `*this` and `other`. -/
def moveAssign (self : Bool) (this other : AsyncClient) :
    Option Nat × AsyncClient × AsyncClient :=
  if self then (none, this, other)
  else
    (if this.initialized then some this.ring else none,
      ⟨other.ring, other.deviceFd, other.initialized⟩,
      { other with initialized := false, deviceFd := -1 })

/-- A client is made of the ring that `io_uring_queue_init` has set up and the descriptor of
its device. -/
def members : Members AsyncClient Int where
  handle := handle
  construct n deviceFd := ⟨n, deviceFd, true⟩
  moveConstruct := moveConstruct
  moveAssign := moveAssign
  destroy c := c.destroy.1
  construct_handle _ _ := rfl
  moveConstruct_new _ := rfl
  moveConstruct_other _ := rfl
  moveAssign_releases _ _ := rfl
  moveAssign_this _ _ := rfl
  moveAssign_other _ _ := rfl
  moveAssign_self _ := rfl
  destroy_releases c := by
    unfold destroy handle
    split <;> rfl

end AsyncClient

/-! ## Every sequence of moves -/

/-- In every run of `DeepspanDevice` objects, and in every run of `AsyncClient` objects, each
descriptor (ring) has one owner until it is released, and is released once. -/
theorem handles_have_one_owner :
    (∀ s, Reach (objectSystem DeepspanDevice.members) (fun _ _ => True) s →
      SingleOwner DeepspanDevice.members s) ∧
    (∀ s, Reach (objectSystem AsyncClient.members) (fun _ _ => True) s →
      SingleOwner AsyncClient.members s) :=
  ⟨fun _ h => reach_singleOwner h, fun _ h => reach_singleOwner h⟩

/-- Two devices with the descriptors 3 and 5. The first is moved to a third object and this
one to the second, which is then assigned to itself. Other code gets the number 5 that has
been closed by then, before all devices are destroyed. -/
def deviceMoves : List (Act UInt32) :=
  [.construct 3 1, .otherOpens 4, .construct 5 1, .moveConstruct 0, .moveAssign 1 2,
   .moveAssign 1 1, .otherOpens 5, .destroy 0, .destroy 1, .destroy 2]

theorem handles_after_deviceMoves :
    ∃ s, Reach (objectSystem DeepspanDevice.members) (fun _ _ => True) s ∧
      s.table.released = [2, 0] ∧ s.table.slots = [⟨5, 3⟩, ⟨4, 1⟩] ∧
      SingleOwner DeepspanDevice.members s := by
  have hrun : (replay (objectSystem DeepspanDevice.members) (fun _ _ => true)
      { table := .empty } deviceMoves).isSome := by decide
  have hreach := replay_reach (G := fun _ _ => True) (fun _ _ _ => trivial) (Reach.init rfl)
    (Option.some_get hrun).symm
  exact ⟨_, hreach, rfl, rfl, handles_have_one_owner.1 _ hreach⟩

end Deepspan
