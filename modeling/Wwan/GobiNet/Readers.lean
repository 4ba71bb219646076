import Wwan.Lib.PopFirst
import Wwan.Lib.Transition

/-!
# Reading from a QMI client of GobiNet

`ReadCallback` stores a message in the read list of its client and notifies one waiter of the
client. A reader that finds nothing it wants adds itself to the notify list of the client and
sleeps; when it is notified it looks again, and a `ReadSync` that finds nothing goes back to sleep
at the end of the list. The steps below are the critical sections under `mClientMemLock`.

A reader wants one transaction id, or any (0). It takes the first message that it wants, but
`NotifyAndPopNotifyList` is less strict: a message with the transaction id 0 notifies whoever is
first.
-/

namespace Wwan.GobiNet

open Wwan

/-! ## Lists -/

/-- `sReadMemList`: a message that is stored. -/
structure ReadMem where
  /-- The identity of the message. -/
  node : ℕ
  clientID : UInt16
  transactionID : UInt16
  deriving DecidableEq

/-- A call of `ReadSync` or of `ReadAsync`, and its `sNotifyList` entry. -/
structure Reader where
  /-- The identity of the call. -/
  node : ℕ
  clientID : UInt16
  transactionID : UInt16
  /-- The call is one of `ReadSync`. -/
  sync : Bool
  deriving DecidableEq

/-- The reader takes the message: the test of `PopFromReadMemList` and of `ReadAsync`. -/
def accepts (transactionID : UInt16) (mem : ReadMem) : Bool :=
  transactionID = 0 ∨ transactionID = mem.transactionID

/-- The message notifies the reader: the test of `NotifyAndPopNotifyList`. -/
def notifies (transactionID : UInt16) (reader : Reader) : Bool :=
  transactionID = 0 ∨ reader.transactionID = 0 ∨ transactionID = reader.transactionID

/-- `sClientMemList`, as far as reading goes. -/
structure ClientMem where
  /-- `mpList`. -/
  mpList : List ReadMem
  /-- `mpReadNotifyList`. -/
  mpReadNotifyList : List Reader
  deriving DecidableEq

namespace ClientMem

variable (client : ClientMem)

/-- `PopFromReadMemList`. -/
def popFromReadMemList (transactionID : UInt16) : Option (ReadMem × ClientMem) :=
  (popFirst (accepts transactionID) client.mpList).map fun x ↦
    (x.1, { client with mpList := x.2 })

/-- `AddToReadMemList`. -/
def addToReadMemList (mem : ReadMem) : ClientMem :=
  { client with mpList := client.mpList ++ [mem] }

/-- `AddToNotifyList`. -/
def addToNotifyList (reader : Reader) : ClientMem :=
  { client with mpReadNotifyList := client.mpReadNotifyList ++ [reader] }

/-- `NotifyAndPopNotifyList`. -/
def notifyAndPopNotifyList (transactionID : UInt16) : Option (Reader × ClientMem) :=
  (popFirst (notifies transactionID) client.mpReadNotifyList).map fun x ↦
    (x.1, { client with mpReadNotifyList := x.2 })

end ClientMem

/-! ## Critical sections -/

/-- The clients with their readers. -/
structure ReadState where
  /-- `mpClientMemList`. -/
  clients : UInt16 → ClientMem
  /-- The readers that were notified and have not looked again. -/
  notified : List Reader
  /-- The calls of `ReadSync` whose wait was interrupted. -/
  interrupted : List Reader
  /-- What was returned by which call. -/
  returned : List (Reader × ReadMem)
  /-- The next identity. -/
  fresh : ℕ

namespace ReadState

variable (s : ReadState)

/-- A client is changed. -/
def set (clientID : UInt16) (client : ClientMem) : ReadState :=
  { s with clients := Function.update s.clients clientID client }

/-- The reader adds itself to the list of waiters, if there is memory for the entry. -/
def wait (reader : Reader) (memory : Bool) : ReadState :=
  if memory then
    s.set reader.clientID ((s.clients reader.clientID).addToNotifyList reader)
  else s

/-- The head of the loop of `ReadSync`, and what is done for a call of `ReadAsync` once it is
notified: take a message, or else, in `ReadSync`, wait. -/
def take (reader : Reader) (memory : Bool) : ReadState :=
  match (s.clients reader.clientID).popFromReadMemList reader.transactionID with
  | some (mem, client) =>
    { s.set reader.clientID client with returned := s.returned ++ [(reader, mem)] }
  | none => if reader.sync then s.wait reader memory else s

/-- `ReadAsync`: the callback is run at once if there is a message. -/
def readAsync (reader : Reader) (memory : Bool) : ReadState :=
  if (s.clients reader.clientID).mpList.any (accepts reader.transactionID) then
    { s with notified := s.notified ++ [reader] }
  else s.wait reader memory

/-- A call of `ReadSync` or of `ReadAsync`. -/
def start (clientID transactionID : UInt16) (sync memory : Bool) : ReadState :=
  let reader : Reader := ⟨s.fresh, clientID, transactionID, sync⟩
  let called := { s with fresh := s.fresh + 1 }
  if sync then called.take reader memory else called.readAsync reader memory

/-- What `ReadCallback` does for a client that a message is for. -/
def store (clientID transactionID : UInt16) (memory : Bool) : ReadState :=
  if memory then
    let client := (s.clients clientID).addToReadMemList ⟨s.fresh, clientID, transactionID⟩
    match client.notifyAndPopNotifyList transactionID with
    | none => { s.set clientID client with fresh := s.fresh + 1 }
    | some (reader, client) =>
      { s.set clientID client with
        fresh := s.fresh + 1
        notified := s.notified ++ [reader] }
  else s

/-- A reader that was notified looks again. -/
def resume (reader : Reader) (memory : Bool) : ReadState :=
  { s with notified := s.notified.erase reader }.take reader memory

/-- A call of `ReadSync` that was interrupted removes itself from the list of waiters, if it is
still there, and returns. -/
def leave (reader : Reader) : ReadState :=
  let client := s.clients reader.clientID
  { s.set reader.clientID
      { client with mpReadNotifyList := client.mpReadNotifyList.erase reader } with
    notified := s.notified.erase reader
    interrupted := s.interrupted.erase reader }

end ReadState

/-- The critical sections, with whether there is memory. -/
inductive ReadStep
  | /-- `ReadSync` or `ReadAsync` is called. -/
    start (clientID transactionID : UInt16) (sync memory : Bool)
  | /-- `ReadCallback` comes to a client. -/
    store (clientID transactionID : UInt16) (memory : Bool)
  | /-- A notified reader goes on. -/
    resume (reader : Reader) (memory : Bool)
  | /-- The wait of a `ReadSync` is interrupted and then times out. -/
    interrupt (reader : Reader)
  | /-- An interrupted `ReadSync` goes on. -/
    leave (reader : Reader)
  deriving DecidableEq

/-- Which section can be entered. -/
def ReadStep.enabled (s : ReadState) : ReadStep → Prop
  | start _ _ _ _ | store _ _ _ => True
  | resume reader _ => reader ∈ s.notified ∧ reader ∉ s.interrupted
  | interrupt reader =>
    reader.sync = true ∧ reader ∈ (s.clients reader.clientID).mpReadNotifyList ∧
      reader ∉ s.interrupted
  | leave reader => reader ∈ s.interrupted

instance ReadStep.decidableEnabled (s : ReadState) : (e : ReadStep) → Decidable (e.enabled s)
  | .start _ _ _ _ | .store _ _ _ => inferInstanceAs (Decidable True)
  | .resume _ _ => inferInstanceAs (Decidable (_ ∧ _))
  | .interrupt _ => inferInstanceAs (Decidable (_ ∧ _ ∧ _))
  | .leave _ => inferInstanceAs (Decidable (_ ∈ _))

/-- What a section does. -/
def ReadStep.act (s : ReadState) : ReadStep → ReadState
  | start clientID transactionID sync memory => s.start clientID transactionID sync memory
  | store clientID transactionID memory => s.store clientID transactionID memory
  | resume reader memory => s.resume reader memory
  | interrupt reader => { s with interrupted := reader :: s.interrupted }
  | leave reader => s.leave reader

/-- The runs of the readers. -/
def readSystem : System ReadState ReadStep :=
  { init := ⟨fun _ ↦ ⟨[], []⟩, [], [], [], 0⟩
    enabled := fun s e ↦ e.enabled s
    next := fun s e ↦ e.act s }

instance readSystem.decidableEnabled (s : ReadState) (e : ReadStep) :
    Decidable (readSystem.enabled s e) :=
  inferInstanceAs (Decidable (e.enabled s))

end Wwan.GobiNet
