import Wwan.Lib.LinkedList
import Wwan.Lib.Transition

/-!
# The client list of GobiNet

`mpClientMemList` is a linked list of `sClientMemList` nodes, guarded by `mClientMemLock`.
`GetClientID` appends a node in one critical section. `ReleaseClientID` looks for the node of its
client, remembers the place of the pointer to it and the node that comes next, and then lets go of
the lock several times, to notify the readers of the client and to kill its URBs. In the end it
frees the node and writes what it remembers as next to the place that it remembers.

The nodes are in a store. Memory that has been freed keeps its content and is not given again, so
that what is done to it can be seen. The steps are the critical sections.
-/

namespace Wwan.GobiNet

open Wwan

/-! ## Nodes -/

/-- `sClientMemList`, as far as the list goes. -/
structure ClientNode where
  mClientID : UInt16
  mpNext : Option ℕ
  /-- The entries of `mpReadNotifyList`. -/
  notifyList : ℕ
  /-- The entries of `mpURBList`. -/
  urbList : ℕ
  /-- `waitqueue_active` of `mWaitQueue`. -/
  waitqueueActive : Bool
  deriving DecidableEq

/-- A client with the node that was made for it. -/
abbrev Client := UInt16 × ℕ

/-- Which loop of `ReleaseClientID` has let go of the lock. -/
inductive Phase
  | /-- Notify all clients. -/
    notify
  | /-- Kill and free all URBs. -/
    kill
  deriving DecidableEq

/-- A call of `ReleaseClientID` that has let go of the lock. -/
structure Release where
  client : Client
  /-- `ppDelClientMem`. -/
  ppDelClientMem : Link ℕ
  /-- `pNextClientMem`. -/
  pNextClientMem : Option ℕ
  phase : Phase
  deriving DecidableEq

/-- The list, and what happened so far. -/
structure ClientList where
  mpClientMemList : Option ℕ
  /-- The store. -/
  nodes : ℕ → ClientNode
  /-- The next address that `kmalloc` gives. -/
  fresh : ℕ
  /-- The addresses that were passed to `kfree`. -/
  freed : List ℕ
  /-- The calls of `ReleaseClientID` that have let go of the lock. -/
  releases : List Release
  /-- The clients that were acquired and are not being released. -/
  acquired : List Client
  /-- The clients that were released. -/
  released : List Client

namespace ClientList

variable (s : ClientList)

/-- `mpNext` of a node. -/
def mpNext (a : ℕ) : Option ℕ := (s.nodes a).mpNext

/-- The pointer that a place holds. -/
def deref (link : Link ℕ) : Option ℕ := link.deref s.mpClientMemList s.mpNext

/-- A loop over the list, from a place on. -/
def walk (stop : ℕ → Bool) (link : Link ℕ) : Link ℕ :=
  link.walk s.mpClientMemList s.mpNext stop s.fresh

/-- A place is written. -/
def assign (v : Option ℕ) : Link ℕ → ClientList
  | .head => { s with mpClientMemList := v }
  | .next a => { s with nodes := Function.update s.nodes a { s.nodes a with mpNext := v } }

/-- The node is one of the client. -/
def hasId (clientID : UInt16) (a : ℕ) : Bool := (s.nodes a).mClientID = clientID

/-- `FindClientMem`. -/
def findClientMem (clientID : UInt16) : Option ℕ := s.deref (s.walk (s.hasId clientID) .head)

/-! ## `GetClientID` -/

/-- The critical section of `GetClientID`, for an id that the modem has given. -/
def getClientID (clientID : UInt16) (memory : Bool) : ClientList :=
  match s.findClientMem clientID with
  | some _ => s
  | none =>
    if memory then
      { s with
        nodes := Function.update s.nodes s.fresh ⟨clientID, none, 0, 0, false⟩
        fresh := s.fresh + 1
        acquired := s.acquired ++ [(clientID, s.fresh)] }.assign (some s.fresh)
          (s.walk (fun _ ↦ false) .head)
    else s

/-! ## `ReleaseClientID` -/

/-- The entries of a node's lists are set. -/
def touch (a notifyList urbList : ℕ) (waitqueueActive : Bool) : ClientList :=
  { s with
    nodes := Function.update s.nodes a
      { s.nodes a with
        notifyList := notifyList, urbList := urbList, waitqueueActive := waitqueueActive } }

/-- `NotifyAndPopNotifyList` and `PopFromURBList` look the client up again and take an entry of
its list. If there is one, the lock is let go of. -/
def popEntry (clientID : UInt16) (phase : Phase) : Option ClientList :=
  (s.findClientMem clientID).bind fun a ↦
    let node := s.nodes a
    match phase with
    | .notify =>
      if node.notifyList = 0 then none
      else some (s.touch a (node.notifyList - 1) node.urbList node.waitqueueActive)
    | .kill =>
      if node.urbList = 0 then none
      else some (s.touch a node.notifyList (node.urbList - 1) node.waitqueueActive)

/-- The node is freed, unless someone polls, and its predecessor gets the pointer that is
remembered. The node is what the place holds now, if it holds any. -/
def unlink (r : Release) : ClientList :=
  match s.deref r.ppDelClientMem with
  | none => s.assign r.pNextClientMem r.ppDelClientMem
  | some a =>
    { s with freed := if (s.nodes a).waitqueueActive then s.freed else s.freed ++ [a] }.assign
      r.pNextClientMem r.ppDelClientMem

/-- The lock is let go of. -/
def suspend (r : Release) : ClientList := { s with releases := s.releases ++ [r] }

/-- The call returns. -/
def complete (client : Client) : ClientList := { s with released := s.released ++ [client] }

/-- A turn of the loop of `ReleaseClientID` for a node of the client. The lock is let go of while
there are entries to take. After that the loop goes on behind the node, and there may be another one
of the client. -/
def turn (r : Release) : ClientList × Option Release :=
  match s.popEntry r.client.1 r.phase with
  | some s' => (s'.suspend r, none)
  | none =>
    match (if r.phase = .notify then s.popEntry r.client.1 .kill else none) with
    | some s' => (s'.suspend { r with phase := .kill }, none)
    | none =>
      let s' := s.unlink r
      let link := s'.walk (s'.hasId r.client.1) r.ppDelClientMem
      match s'.deref link with
      | none => (s'.complete r.client, none)
      | some a => (s', some ⟨r.client, link, s'.mpNext a, .notify⟩)

/-- A call of `ReleaseClientID` that has the lock goes on, until it lets go of it or returns. -/
def run : ℕ → ClientList → Release → ClientList
  | 0, s, r => (s.turn r).1
  | fuel + 1, s, r =>
    match (s.turn r).2 with
    | none => (s.turn r).1
    | some r' => run fuel (s.turn r).1 r'

/-- The first critical section of `ReleaseClientID`. -/
def releaseClientID (client : Client) : ClientList :=
  let link := s.walk (s.hasId client.1) .head
  let s' : ClientList := { s with acquired := s.acquired.erase client }
  match s.deref link with
  | none => s'.complete client
  | some a => run s.fresh s' ⟨client, link, s.mpNext a, .notify⟩

/-- A later critical section of `ReleaseClientID`. -/
def resume (r : Release) : ClientList :=
  run s.fresh { s with releases := s.releases.erase r } r

end ClientList

/-! ## Runs -/

/-- The critical sections. -/
inductive ListStep
  | /-- `GetClientID` with the id that the modem has given. -/
    get (clientID : UInt16) (memory : Bool)
  | /-- `ReleaseClientID` is called. -/
    release (client : Client)
  | /-- `ReleaseClientID` has the lock again. -/
    resume (r : Release)
  | /-- Readers, writers and pollers of a client come and go. -/
    touch (clientID : UInt16) (notifyList urbList : ℕ) (waitqueueActive : Bool)
  deriving DecidableEq

/-- Ids of the modem are distinct, and a client is released once. -/
def ListStep.enabled (s : ClientList) : ListStep → Prop
  | get clientID _ =>
    (∀ client ∈ s.acquired, client.1 ≠ clientID) ∧ ∀ r ∈ s.releases, r.client.1 ≠ clientID
  | release client => client ∈ s.acquired
  | resume r => r ∈ s.releases
  | touch _ _ _ _ => True

instance ListStep.decidableEnabled (s : ClientList) : (e : ListStep) → Decidable (e.enabled s)
  | .get _ _ => inferInstanceAs (Decidable (_ ∧ _))
  | .release _ => inferInstanceAs (Decidable (_ ∈ _))
  | .resume _ => inferInstanceAs (Decidable (_ ∈ _))
  | .touch _ _ _ _ => inferInstanceAs (Decidable True)

/-- What a critical section does. -/
def ListStep.act (s : ClientList) : ListStep → ClientList
  | get clientID memory => s.getClientID clientID memory
  | release client => s.releaseClientID client
  | resume r => s.resume r
  | touch clientID notifyList urbList waitqueueActive =>
    match s.findClientMem clientID with
    | none => s
    | some a => s.touch a notifyList urbList waitqueueActive

/-- The runs on a device without clients. -/
def listSystem : System ClientList ListStep :=
  { init := ⟨none, fun _ ↦ ⟨0, none, 0, 0, false⟩, 0, [], [], [], []⟩
    enabled := fun s e ↦ e.enabled s
    next := fun s e ↦ e.act s }

instance listSystem.decidableEnabled (s : ClientList) (e : ListStep) :
    Decidable (listSystem.enabled s e) :=
  inferInstanceAs (Decidable (e.enabled s))

end Wwan.GobiNet
