import Mathlib.Data.List.Forall2
import Deepspan.Appframework.DevicePool
import Deepspan.Userlib.Handles

/-!
# Making and destroying a pool

`DevicePool::create` with every object that comes and goes in it. A device and a client are
made in a temporary, moved into an `expected`, from there into a temporary `Entry` and from
there into the vector; whatever has been moved from is destroyed too, and an early return
destroys what is there by then. The vector grows if it has to (with the `reserve` before the
loop it never does). `DevicePool`'s constructor takes the vector over without touching its
entries.

The destructors run in the order of the language: locals in the reverse order of their
declaration, the members of an `Entry` likewise, so the client before the device; the vector
destroys its entries from the first to the last.

`createFrom_result` says when there is a pool, and `pool_create` what becomes of every
descriptor and every ring. The pool of `DevicePool.create` is what users see of the entries
(`opened_create`).
-/

namespace Deepspan

open Descriptors

/-! ## Opening -/

/-- What a descriptor stands for. -/
inductive Resource where
  | device (path : String)
  | ring (queueDepth : Nat)
  | other
deriving DecidableEq, Repr

/-- What happens at one path: whether `::open` succeeds, the version that the ioctl returns
if it succeeds, and whether `io_uring_queue_init` does. -/
structure PathOutcome where
  opens : Bool
  version : Option UInt32
  ring : Bool
deriving DecidableEq, Repr

/-- `DEEPSPAN_UAPI_VERSION_MIN`. -/
def uapiVersionMin : UInt32 := 1

/-- `DeepspanDevice::open`. The device is made in a temporary, which is moved into the
result and destroyed. -/
def DeepspanDevice.open (numbering : Numbering) (path : String) (out : PathOutcome)
    (t : Table Resource) : Except Error DeepspanDevice × Table Resource :=
  if out.opens then
    let fd := t.next numbering
    let t := t.issueNext numbering (.device path)
    match out.version with
    | none => (.error .ioError, t.close fd)
    | some ver =>
      if ver < uapiVersionMin then (.error .unsupportedKernelVersion, t.close fd)
      else
        let moved := DeepspanDevice.moveConstruct ⟨fd, ver⟩
        (.ok moved.1, t.release moved.2.destroy.1)
  else (.error .deviceOpenFailed, t)

/-- What `io_uring_queue_init` returns. -/
def PathOutcome.ringRet (out : PathOutcome) : Int := if out.ring then 0 else -1

/-- `AsyncClient::create`: `ClientState.create`, with the ring as something that is open. -/
def AsyncClient.create (numbering : Numbering) (device : DeepspanDevice) (queueDepth : Nat)
    (out : PathOutcome) (t : Table Resource) : Except Error AsyncClient × Table Resource :=
  match ClientState.create device.fd out.ringRet queueDepth with
  | .error e => (.error e, t)
  | .ok _ =>
    let ring := t.next numbering
    let t := t.issueNext numbering (.ring queueDepth)
    let moved := AsyncClient.moveConstruct ⟨ring, device.fd, true⟩
    (.ok moved.1, t.release moved.2.destroy.1)

/-! ## The entries -/

/-- `DevicePool::Entry`. -/
structure PoolEntry where
  device : DeepspanDevice
  client : AsyncClient
  inUse : Bool := false
deriving DecidableEq, Repr

namespace PoolEntry

/-- The implicit move constructor: the new entry, and `other`. -/
def moveConstruct (other : PoolEntry) : PoolEntry × PoolEntry :=
  let device := other.device.moveConstruct
  let client := other.client.moveConstruct
  (⟨device.1, client.1, other.inUse⟩, ⟨device.2, client.2, other.inUse⟩)

/-- The implicit destructor. -/
def destroy (e : PoolEntry) (t : Table Resource) : Table Resource :=
  (t.release e.client.destroy.1).release e.device.destroy.1

/-- The entries of a vector, or of its old storage, from the first to the last. -/
def destroyAll (es : List PoolEntry) (t : Table Resource) : Table Resource :=
  es.foldl (fun t e => e.destroy t) t

end PoolEntry

/-- `std::vector<Entry>`. -/
structure EntryVector where
  entries : List PoolEntry := []
  capacity : Nat := 0

namespace EntryVector

/-- `push_back(Entry&&)`: the vector and `e` afterwards. When the storage is full the entries
are moved to a new one, and the old ones destroyed. -/
def pushBack (v : EntryVector) (e : PoolEntry) (t : Table Resource) :
    EntryVector × PoolEntry × Table Resource :=
  let moved := e.moveConstruct
  if v.entries.length < v.capacity then
    ({ v with entries := v.entries ++ [moved.1] }, moved.2, t)
  else
    let relocated := v.entries.map PoolEntry.moveConstruct
    (⟨relocated.map Prod.fst ++ [moved.1], max 1 (2 * v.entries.length)⟩, moved.2,
      PoolEntry.destroyAll (relocated.map Prod.snd) t)

end EntryVector

/-! ## The pool -/

namespace DevicePool

variable (numbering : Numbering) (queueDepth : Nat)

/-- The loop of `create`. -/
def createLoop : List (String × PathOutcome) → EntryVector → Table Resource →
    Except Error EntryVector × Table Resource
  | [], v, t => (.ok v, t)
  | (path, out) :: rest, v, t =>
    match DeepspanDevice.open numbering path out t with
    | (.error e, t) => (.error e, PoolEntry.destroyAll v.entries t)
    | (.ok devResult, t) =>
      match AsyncClient.create numbering devResult queueDepth out t with
      | (.error e, t) =>
        (.error e, PoolEntry.destroyAll v.entries (t.release devResult.destroy.1))
      | (.ok clientResult, t) =>
        let device := devResult.moveConstruct
        let client := clientResult.moveConstruct
        let (v, temporary, t) := v.pushBack ⟨device.1, client.1, false⟩ t
        let t := temporary.destroy t
        let t := (t.release client.2.destroy.1).release device.2.destroy.1
        createLoop rest v t

/-- `DevicePool::create`, where each path comes with what happens there: the entries of the
pool, or the error. The vector that the constructor takes over is left empty. -/
def createFrom (paths : List (String × PathOutcome)) (t : Table Resource) :
    Except Error (List PoolEntry) × Table Resource :=
  match createLoop numbering queueDepth paths { capacity := paths.length } t with
  | (.error e, t) => (.error e, t)
  | (.ok v, t) => (.ok v.entries, t)

/-- `~DevicePool()`. -/
def destroy (entries : List PoolEntry) (t : Table Resource) : Table Resource :=
  PoolEntry.destroyAll entries t

end DevicePool

/-! ## What one call does -/

/-- `DeepspanDevice::open` opens one descriptor, or leaves none behind. -/
inductive OpenCase (numbering : Numbering) (path : String) (t : Table Resource) :
    Except Error DeepspanDevice × Table Resource → Prop
  | failed (e : Error) (t' : Table Resource) : t'.slots.Perm t.slots → t'.stray = t.stray →
      OpenCase numbering path t (.error e, t')
  | opened (ver : UInt32) : OpenCase numbering path t
      (.ok ⟨t.next numbering, ver⟩, t.issueNext numbering (.device path))

theorem open_cases (numbering : Numbering) (path : String) (out : PathOutcome)
    (t : Table Resource) :
    OpenCase numbering path t (DeepspanDevice.open numbering path out t) := by
  have hclose := t.closes_issueNext numbering (.device path)
  unfold DeepspanDevice.open
  split
  · split
    · exact .failed _ _ hclose.slots hclose.stray
    · next ver _ =>
      split
      · exact .failed _ _ hclose.slots hclose.stray
      · exact .opened ver
  · exact .failed _ _ (.refl _) rfl

/-- `AsyncClient::create` sets up one ring, or does nothing. -/
inductive CreateCase (numbering : Numbering) (device : DeepspanDevice) (queueDepth : Nat)
    (t : Table Resource) : Except Error AsyncClient × Table Resource → Prop
  | failed (e : Error) : CreateCase numbering device queueDepth t (.error e, t)
  | created : CreateCase numbering device queueDepth t
      (.ok ⟨t.next numbering, device.fd, true⟩, t.issueNext numbering (.ring queueDepth))

theorem create_cases (numbering : Numbering) (device : DeepspanDevice) (queueDepth : Nat)
    (out : PathOutcome) (t : Table Resource) : CreateCase numbering device queueDepth t
      (AsyncClient.create numbering device queueDepth out t) := by
  unfold AsyncClient.create
  split
  · exact .failed _
  · exact .created

/-- What has been moved from is destroyed without an effect. -/
theorem destroyAll_moved (t : Table Resource) (es : List PoolEntry) :
    PoolEntry.destroyAll ((es.map PoolEntry.moveConstruct).map Prod.snd) t = t := by
  induction es with
  | nil => rfl
  | cons e es ih => exact ih

theorem map_moved (es : List PoolEntry) :
    (es.map PoolEntry.moveConstruct).map Prod.fst = es := by
  induction es with
  | nil => rfl
  | cons e es ih => exact congrArg (e :: ·) ih

/-- A vector has one entry more, moved into it, whether it grows or not. -/
theorem pushBack_eq (v : EntryVector) (e : PoolEntry) (t : Table Resource) : ∃ capacity,
    v.pushBack e t = (⟨v.entries ++ [e], capacity⟩, e.moveConstruct.2, t) := by
  unfold EntryVector.pushBack
  split
  · exact ⟨v.capacity, rfl⟩
  · refine ⟨max 1 (2 * v.entries.length), ?_⟩
    simp only [map_moved, destroyAll_moved]
    rfl

/-! ## When there is a pool -/

/-- The first step that fails at a path, if one does. -/
def PathOutcome.error? (out : PathOutcome) : Option Error :=
  if !out.opens then some .deviceOpenFailed
  else
    match out.version with
    | none => some .ioError
    | some ver =>
      if ver < uapiVersionMin then some .unsupportedKernelVersion
      else if out.ring then none
      else some .iouringSetupFailed

theorem create_device (numbering : Numbering) (fd : Nat) (ver : UInt32) (queueDepth : Nat)
    (out : PathOutcome) (t : Table Resource) :
    AsyncClient.create numbering ⟨fd, ver⟩ queueDepth out t =
      if out.ring then
        (.ok ⟨t.next numbering, fd, true⟩, t.issueNext numbering (.ring queueDepth))
      else (.error .iouringSetupFailed, t) := by
  have hfd : ¬((fd : Int) < 0) := Int.not_lt.mpr (Int.natCast_nonneg fd)
  unfold AsyncClient.create ClientState.create PathOutcome.ringRet
  cases out.ring with
  | true =>
    simp only [hfd, if_true, if_false]
    rfl
  | false =>
    simp only [hfd, if_false]
    rfl

/-- The loop ends with the error of the first path that has one. -/
theorem createLoop_result (numbering : Numbering) (queueDepth : Nat)
    (paths : List (String × PathOutcome)) (v : EntryVector) (t : Table Resource) :
    ((DevicePool.createLoop numbering queueDepth paths v t).1.map fun _ => ()) =
      match paths.findSome? fun p => p.2.error? with
      | some e => .error e
      | none => .ok () := by
  induction paths generalizing v t with
  | nil => rfl
  | cons head paths ih =>
    obtain ⟨path, opens, version, ring⟩ := head
    rw [DevicePool.createLoop, List.findSome?_cons]
    unfold DeepspanDevice.open
    cases opens with
    | false => rfl
    | true =>
      cases version with
      | none => rfl
      | some ver =>
        by_cases hver : ver < uapiVersionMin
        · have herror : PathOutcome.error? ⟨true, some ver, ring⟩ =
              some .unsupportedKernelVersion := by
            simp only [PathOutcome.error?, Bool.not_true, Bool.false_eq_true, if_false, hver, if_true]
          simp only [if_true, hver, herror]
          rfl
        · have hmoved : DeepspanDevice.moveConstruct ⟨t.next numbering, ver⟩ =
              (⟨t.next numbering, ver⟩, ⟨-1, 0⟩) := rfl
          have herror : PathOutcome.error? ⟨true, some ver, ring⟩ =
              if ring then none else some .iouringSetupFailed := by
            simp only [PathOutcome.error?, Bool.not_true, Bool.false_eq_true, if_false, hver]
          simp only [if_true, hver, if_false, hmoved, herror, create_device]
          cases ring with
          | false => rfl
          | true => exact ih _ _

/-- `DevicePool::create` makes a pool exactly if every path opens, has a version from
`DEEPSPAN_UAPI_VERSION_MIN` on and gets a ring; otherwise it returns the error of the first
step that fails. -/
theorem createFrom_result (numbering : Numbering) (queueDepth : Nat)
    (paths : List (String × PathOutcome)) (t : Table Resource) :
    ((DevicePool.createFrom numbering queueDepth paths t).1.map fun _ => ()) =
      match paths.findSome? fun p => p.2.error? with
      | some e => .error e
      | none => .ok () := by
  rw [← createLoop_result numbering queueDepth paths { capacity := paths.length } t]
  unfold DevicePool.createFrom
  split
  · next hloop => rw [hloop]; rfl
  · next hloop => rw [hloop]; rfl

/-- Two paths where everything works have a pool of two entries. -/
example (numbering : Numbering) (t : Table Resource) :
    ((DevicePool.createFrom numbering 64 [("/dev/hwip0", ⟨true, some 1, true⟩),
      ("/dev/hwip1", ⟨true, some 2, true⟩)] t).1.map List.length) = .ok 2 :=
  rfl

/-! ## What an entry holds -/

/-- What an entry has open: the descriptor of the device at `path`, and the ring. -/
structure EntrySlots where
  path : String
  device : Slot
  ring : Slot

/-- In the order in which the entry gives them back. -/
def EntrySlots.slots (p : EntrySlots) : List Slot := [p.ring, p.device]

/-- The entry holds these descriptors, and its ring is bound to its own device. -/
structure PoolEntry.Holds (e : PoolEntry) (p : EntrySlots) : Prop where
  device : e.device.fd = p.device.num
  ring : e.client.ring = p.ring.num
  initialized : e.client.initialized = true
  bound : e.client.deviceFd = e.device.fd
  inUse : e.inUse = false

variable {t t' : Table Resource} {rest : List Slot} {e : PoolEntry} {p : EntrySlots}
  {es : List PoolEntry} {ps : List EntrySlots}

theorem destroy_holds (h : e.Holds p) (hslots : t.slots.Perm (p.slots ++ rest)) :
    t.Closes (e.destroy t) (p.slots.map Slot.id) rest := by
  have hclient : e.client.destroy.1 = some p.ring.num := by
    rw [AsyncClient.destroy, h.initialized, if_pos rfl, h.ring]
  have hdevice : e.device.destroy.1 = some p.device.num := by
    rw [DeepspanDevice.destroy, h.device, if_pos (Int.natCast_nonneg _), Int.toNat_natCast]
  have hring : t.Closes (t.close p.ring.num) [p.ring.id] (p.device :: rest) :=
    Table.closes_one hslots
  rw [PoolEntry.destroy, hclient, hdevice]
  exact hring.trans (Table.closes_one hring.slots)

/-- The entries give back what they hold, one after the other. -/
theorem destroyAll_holds (h : List.Forall₂ PoolEntry.Holds es ps)
    (hslots : t.slots.Perm (ps.flatMap EntrySlots.slots ++ rest)) :
    t.Closes (PoolEntry.destroyAll es t) ((ps.flatMap EntrySlots.slots).map Slot.id) rest := by
  induction h generalizing t with
  | nil => exact ⟨hslots, rfl, (List.append_nil _).symm, rfl⟩
  | @cons e p es ps hep _ ih =>
    rw [List.flatMap_cons, List.append_assoc] at hslots
    have hfirst := destroy_holds hep hslots
    rw [List.flatMap_cons, List.map_append]
    exact hfirst.trans (ih hfirst.slots)

/-! ## The loop -/

variable {queueDepth : Nat} {path : String} {done : List String} {t0 : Table Resource}

/-- From `t0` on, a descriptor and a ring have been opened for every path in `done`; the
entries `es` hold them, and nothing has been released. -/
structure Opened (t0 : Table Resource) (queueDepth : Nat) (done : List String)
    (es : List PoolEntry) (ps : List EntrySlots) (t : Table Resource) : Prop where
  holds : List.Forall₂ PoolEntry.Holds es ps
  paths : ps.map EntrySlots.path = done
  kinds : ∀ p ∈ ps, t.issued[p.device.id]? = some (.device p.path) ∧
    t.issued[p.ring.id]? = some (.ring queueDepth)
  slots : t.slots.Perm (ps.flatMap EntrySlots.slots ++ t0.slots)
  issued : t.issued = t0.issued ++ done.flatMap fun path => [.device path, .ring queueDepth]
  released : t.released = t0.released
  stray : t.stray = t0.stray

/-- The entry that an iteration adds. -/
theorem Opened.concat (h : Opened t0 queueDepth done es ps t) (hheld : e.Holds p)
    (hpath : p.path = path)
    (hslots : t'.slots = p.ring :: p.device :: t.slots)
    (hissued : t'.issued = t.issued ++ [.device path, .ring queueDepth])
    (hdevice : p.device.id = t.issued.length) (hring : p.ring.id = t.issued.length + 1)
    (hreleased : t'.released = t.released) (hstray : t'.stray = t.stray) :
    Opened t0 queueDepth (done ++ [path]) (es ++ [e]) (ps ++ [p]) t' where
  holds := List.rel_append h.holds (.cons hheld .nil)
  paths := by rw [List.map_append, h.paths, List.map_singleton, hpath]
  kinds := by
    intro q hq
    rw [hissued]
    rcases List.mem_append.mp hq with hq | hq
    · obtain ⟨hdev, hring⟩ := h.kinds q hq
      rw [List.getElem?_append_left (List.getElem?_eq_some_iff.mp hdev).1,
        List.getElem?_append_left (List.getElem?_eq_some_iff.mp hring).1]
      exact ⟨hdev, hring⟩
    · cases List.mem_singleton.mp hq
      rw [hdevice, hring, hpath, List.getElem?_append_right (Nat.le_refl _),
        List.getElem?_append_right (Nat.le_add_right _ _), Nat.sub_self, Nat.add_sub_cancel_left]
      exact ⟨rfl, rfl⟩
  slots := by
    rw [hslots, List.flatMap_append, List.flatMap_singleton, List.append_assoc]
    refine ((h.slots.cons p.device).cons p.ring).trans ?_
    exact (List.perm_append_comm_assoc p.slots _ _)
  issued := by
    rw [hissued, h.issued, List.flatMap_append, List.flatMap_singleton, List.append_assoc]
  released := hreleased.trans h.released
  stray := hstray.trans h.stray

/-- How the loop ends: nothing is open that was not before, or every path has its entry. -/
inductive LoopEnd (t0 : Table Resource) (queueDepth : Nat) (paths : List String) :
    Except Error EntryVector × Table Resource → Prop
  | failed (e : Error) (t : Table Resource) : t.slots.Perm t0.slots → t.stray = t0.stray →
      LoopEnd t0 queueDepth paths (.error e, t)
  | finished (v : EntryVector) (ps : List EntrySlots) (t : Table Resource) :
      Opened t0 queueDepth paths v.entries ps t → LoopEnd t0 queueDepth paths (.ok v, t)

/-- An early return destroys the entries made so far; `hslots` says that nothing else is
open by then. -/
theorem Opened.abandon (h : Opened t0 queueDepth done es ps t) (paths : List String) (err : Error)
    (hslots : t'.slots.Perm t.slots) (hstray : t'.stray = t.stray) :
    LoopEnd t0 queueDepth paths (.error err, PoolEntry.destroyAll es t') := by
  have hcloses := destroyAll_holds h.holds (hslots.trans h.slots)
  exact .failed err _ hcloses.slots (hcloses.stray.trans (hstray.trans h.stray))

theorem createLoop_end (numbering : Numbering) {v : EntryVector} (todo : List (String × PathOutcome))
    (h : Opened t0 queueDepth done v.entries ps t) :
    LoopEnd t0 queueDepth (done ++ todo.map Prod.fst)
      (DevicePool.createLoop numbering queueDepth todo v t) := by
  induction todo generalizing done v ps t with
  | nil =>
    rw [List.map_nil, List.append_nil]
    exact .finished v ps t h
  | cons head todo ih =>
    obtain ⟨path, out⟩ := head
    have hopen := open_cases numbering path out t
    rw [DevicePool.createLoop]
    generalize DeepspanDevice.open numbering path out t = opened at hopen ⊢
    cases hopen with
    | failed e t' hslots hstray => exact h.abandon _ e hslots hstray
    | opened ver =>
      have hcreate := create_cases numbering ⟨t.next numbering, ver⟩ queueDepth out
        (t.issueNext numbering (.device path))
      simp only
      generalize AsyncClient.create numbering _ queueDepth out _ = created at hcreate ⊢
      cases hcreate with
      | failed e =>
        have hclose := t.closes_issueNext numbering (.device path)
        exact h.abandon _ e hclose.slots hclose.stray
      | created =>
        let t1 := t.issueNext numbering (.device path)
        let e : PoolEntry := ⟨⟨t.next numbering, ver⟩, ⟨t1.next numbering, t.next numbering, true⟩,
          false⟩
        obtain ⟨capacity, hpush⟩ := pushBack_eq v e (t1.issueNext numbering (.ring queueDepth))
        have hnext : Opened t0 queueDepth (done ++ [path]) (v.entries ++ [e])
            (ps ++ [⟨path, ⟨t.next numbering, t.issued.length⟩,
              ⟨t1.next numbering, t1.issued.length⟩⟩]) (t1.issueNext numbering (.ring queueDepth)) :=
          h.concat ⟨rfl, rfl, rfl, rfl, rfl⟩ rfl rfl (List.append_assoc _ _ _) rfl
            List.length_append rfl rfl
        have hrest := ih (v := ⟨v.entries ++ [e], capacity⟩) hnext
        rw [List.append_assoc] at hrest
        simp only [AsyncClient.moveConstruct, DeepspanDevice.moveConstruct]
        rw [hpush]
        exact hrest

/-! ## Creation and destruction -/

theorem opened_nil (queueDepth : Nat) (t : Table Resource) : Opened t queueDepth [] [] [] t where
  holds := .nil
  paths := rfl
  kinds := fun _ hp => by cases hp
  slots := .refl _
  issued := (List.append_nil _).symm
  released := rfl
  stray := rfl

theorem map_inUse (h : List.Forall₂ PoolEntry.Holds es ps) :
    es.map PoolEntry.inUse = List.replicate ps.length false := by
  induction h with
  | nil => rfl
  | cons hep _ ih => rw [List.map_cons, hep.inUse, ih, List.length_cons, List.replicate_succ]

/-- The pool as its users see it: of the entries, they only look at `in_use`. -/
theorem opened_create (h : Opened t0 queueDepth done es ps t) :
    (⟨es.map PoolEntry.inUse⟩ : DevicePool) = DevicePool.create done.length := by
  rw [map_inUse h.holds, ← h.paths, List.length_map]
  rfl

/-- What `create` and the destructor of the pool do with descriptors and rings. When `create`
fails, nothing is open that was not before, and whatever it has opened it has released once.
When it succeeds, the entries hold one descriptor and one ring for each path, which are all
that it has opened. The destructor, whatever else is open when it runs, gives each of them
back once, every ring before the descriptor of its entry. Neither of them closes anything
else. -/
theorem pool_create (numbering : Numbering) (queueDepth : Nat)
    (paths : List (String × PathOutcome)) (t : Table Resource) :
    match DevicePool.createFrom numbering queueDepth paths t with
    | (.error _, t') =>
      t'.slots.Perm t.slots ∧ t'.stray = t.stray ∧
      ∀ k, t.issued.length ≤ k → k < t'.issued.length → t'.released.count k = 1
    | (.ok entries, t') => ∃ ps,
      Opened t queueDepth (paths.map Prod.fst) entries ps t' ∧
      ∀ (t'' : Table Resource) rest, t''.slots.Perm (ps.flatMap EntrySlots.slots ++ rest) →
        t''.Closes (DevicePool.destroy entries t'') ((ps.flatMap EntrySlots.slots).map Slot.id)
          rest := by
  have hend := createLoop_end numbering (v := { capacity := paths.length }) paths
    (opened_nil queueDepth t)
  unfold DevicePool.createFrom
  rw [List.nil_append] at hend
  generalize DevicePool.createLoop numbering queueDepth paths _ t = result at hend ⊢
  cases hend with
  | failed e t' hslots hstray =>
    exact ⟨hslots, hstray, fun k hk hlt => Table.released_since hslots hk hlt⟩
  | finished v ps t' hopened =>
    exact ⟨ps, hopened, fun _ _ hslots => destroyAll_holds hopened.holds hslots⟩

end Deepspan
