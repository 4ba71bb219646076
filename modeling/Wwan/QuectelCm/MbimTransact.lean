import Wwan.Lib.RequestLog
import Wwan.MbimProxy.Loop
import Wwan.QuectelCm.MbimMessages
import Wwan.QuectelCm.ProxyRead
import Wwan.QuectelCm.Transact

/-!
# MBIM requests and completions

`mbim_send_command` writes a request and waits; `mbim_recv_command` stores a copy of a message with
the same `TransactionId`. Both hold `mbim_command_mutex`, so that messages come between two
operations of the main thread, in particular during the wait. The reader thread also opens and
closes the device.
-/

namespace Wwan.QuectelCm

open Bytes MbimProxy

/-! ## Messages -/

def mbimCloseDone : UInt32 := 0x80000002
def mbimCommandDone : UInt32 := 0x80000003
def mbimFunctionErrorMsg : UInt32 := 0x80000004
def mbimIndicateStatusMsg : UInt32 := 0x80000007

/-- `UUID_BASIC_CONNECT` -/
def uuidBasicConnect : List UInt8 :=
  [0xa2, 0x89, 0xcc, 0x33, 0xbc, 0xbb, 0x8b, 0x4f, 0xb6, 0xb0, 0x13, 0x3e, 0xc2, 0xaa, 0xe6, 0xdf]

/-- The message that some bytes begin with. Where the code reads behind a message, they go on with
what lies there. -/
def mbimMessage (bytes : List UInt8) : MbimMessage where
  messageType := UInt32.ofNat (field32 bytes 0)
  messageLength := UInt32.ofNat (field32 bytes 4)
  transactionId := UInt32.ofNat (field32 bytes 8)
  payload := bytes.drop 12

namespace RecvMsg

variable (m : RecvMsg)

/-- What `mbim_recv_command` reads from. -/
def pResponse : MbimMessage := mbimMessage m.buf

/-- What `mbim_pResponse` points to: `MessageLength` bytes, and what lies behind them. -/
def pCmdDone : MbimMessage :=
  mbimMessage (m.buf.take m.pResponse.messageLength.toNat ++ m.heap)

end RecvMsg

/-- The type of the completion of a request. -/
def doneType (messageType : UInt32) : UInt32 := messageType ||| 0x80000000

/-- Where `Status` ends in a completion. -/
def doneStatusEnd (messageType : UInt32) : ℕ := if messageType = mbimCommandDone then 44 else 16

/-- `Status` of a completion. -/
def doneStatus (msg : MbimMessage) : ℕ :=
  if msg.messageType = mbimCommandDone then field32 msg.payload 28 else field32 msg.payload 0

def mbimStatusCode (msg : MbimMessage) : ℤ :=
  if msg.messageType = mbimOpenDone ∨ msg.messageType = mbimCloseDone ∨
      msg.messageType = mbimCommandDone then int32 (doneStatus msg)
  -- `ErrorStatusCode`
  else if msg.messageType = mbimFunctionErrorMsg then int32 (field32 msg.payload 0)
  else 0

/-- `pCmdDone->InformationBufferLength` -/
def informationBufferLength (msg : MbimMessage) : ℕ := field32 msg.payload 32

/-- A field of `pCmdDone->InformationBuffer`. -/
def informationField (msg : MbimMessage) (offset : ℕ) : ℕ := field32 msg.payload (36 + offset)

/-! ## The shared state -/

/-- The states that the modem has reported. -/
structure MbimStates where
  readyState : ℕ
  registerState : ℕ
  packetServiceState : ℕ
  activationState : ℕ
  deriving DecidableEq

/-- The globals that the request functions set. -/
structure MbimGlobals where
  state : MbimStates
  /-- `oldReadyState` and the others. -/
  old : MbimStates
  mbim_sessionID : ℕ
  mbim_ms_version : ℕ
  qmi_over_mbim_support : Bool
  deriving DecidableEq

namespace MbimGlobals

variable (g : MbimGlobals)

def mbimUpdateState : MbimGlobals := { g with old := g.state }

/-- The event for an indication. -/
def notification (msg : MbimMessage) : Option MainEvent :=
  let cid := field32 msg.payload 24
  let first := field32 msg.payload 32
  let second := field32 msg.payload 36
  if msg.messageType ≠ mbimIndicateStatusMsg ∨ (msg.payload.drop 8).take 16 ≠ uuidBasicConnect then
    none
  else if cid = 2 ∧ g.old.readyState ≠ first then some .voiceNetworkStateChanged
  else if cid = 9 ∧ g.old.registerState ≠ second then some .voiceNetworkStateChanged
  else if cid = 10 ∧ g.old.packetServiceState ≠ second then some .voiceNetworkStateChanged
  else if cid = 12 ∧ first = g.mbim_sessionID ∧ g.old.activationState ≠ second then
    some .dataCallListChanged
  else none

end MbimGlobals

/-- The globals, the copies of messages (those that were freed are kept), and the log. -/
structure MbimCm where
  transactionId : UInt32
  mbim_fd : ℤ
  /-- `s_tid_reader` is not zero. -/
  reader : Bool
  mbim_pRequest : Option MbimMessage
  mbim_pResponse : Option ℕ
  stored : List RecvMsg
  freed : List ℕ
  /-- Since the request was written, `mbim_pResponse` was set while it pointed to a copy. -/
  overwritten : Bool
  /-- A copy was read that is not there. -/
  absentUsed : Bool
  globals : MbimGlobals
  events : List MainEvent
  log : List (Exchange MbimMessage (List UInt8))
  deriving DecidableEq

namespace MbimCm

variable (s : MbimCm)

/-- The message has the `TransactionId` of the request that waits. -/
def Matches (msg : RecvMsg) : Prop :=
  ∃ req ∈ s.mbim_pRequest, req.transactionId = msg.pResponse.transactionId

instance (msg : RecvMsg) : Decidable (s.Matches msg) :=
  inferInstanceAs (Decidable (∃ req ∈ s.mbim_pRequest, _))

/-- `mbim_pResponse` gets a copy, if there is memory for it. -/
def store (malloc : Bool) (msg : RecvMsg) : MbimCm :=
  if malloc then
    { s with
      mbim_pResponse := some s.stored.length
      stored := s.stored ++ [msg]
      overwritten := s.overwritten || s.mbim_pResponse.isSome }
  else { s with mbim_pResponse := none, overwritten := s.overwritten || s.mbim_pResponse.isSome }

def mbimRecvCommand (malloc : Bool) : Option RecvMsg → MbimCm
  -- the waiter is only woken up
  | none => s
  | some msg =>
    let t := { s with log := .received msg.msg :: s.log }
    if s.Matches msg then t.store malloc msg
    else { t with events := s.events ++ (s.globals.notification msg.pResponse).toList }

/-- The copy has not been freed. -/
def Live (b : ℕ) : Prop := b < s.stored.length ∧ b ∉ s.freed

instance (b : ℕ) : Decidable (s.Live b) := inferInstanceAs (Decidable (_ ∧ _))

end MbimCm

/-- What the reader thread does. -/
inductive MbimEvent
  | recv (malloc : Bool) (msg : Option RecvMsg)
  | device (fd : ℤ)
  | reader (started : Bool)
  deriving DecidableEq

def MbimCm.react (s : MbimCm) : MbimEvent → MbimCm
  | .recv malloc msg => s.mbimRecvCommand malloc msg
  | .device fd => { s with mbim_fd := fd }
  | .reader started => { s with reader := started }

/-! ## Operations of the main thread -/

inductive MbimOp
  | compose (cmd : Command)
  | /-- `mbim_send_command` up to the wait. -/
    send (checked : Bool) (pRequest : Option MbimMessage)
  | /-- `pthread_cond_timeout_np` and the rest of `mbim_send_command`. The caller frees the copy,
    or keeps it. -/
    wait (checked kept : Bool)
  | /-- A copy is read. -/
    read (pCmdDone : ℕ)
  | free (pCmdDone : ℕ)
  | /-- Globals are set. -/
    update (f : MbimGlobals → MbimGlobals)
  | /-- `write` to `qmi_over_mbim_sk`. -/
    write
  | /-- `malloc` -/
    alloc

abbrev MbimOp.Res : MbimOp → Type
  | .compose _ => Option MbimMessage
  | .send .. => ℤ × Bool
  | .wait .. => ℤ × Option ℕ
  | .read _ => MbimMessage
  | .free _ | .update _ => Unit
  | .write => ℤ
  | .alloc => Bool

/-- `ENODEV`, `ENOMEM` -/
def enodev : ℤ := 19
def enomem : ℤ := 12

/-- The inputs that are possible for an operation. -/
def MbimOp.enabled (o : MbimOp) (_ : MbimCm) (i : Input) : Prop :=
  (match o with
    | .compose _ | .alloc => i.isMalloc
    | .send .. | .wait .. | .write => i.isRet
    | .read _ | .free _ | .update _ => i.isGo) = true

instance (o : MbimOp) (s : MbimCm) (i : Input) : Decidable (o.enabled s i) :=
  inferInstanceAs (Decidable (_ = true))

namespace MbimCm

variable (s : MbimCm)

/-- `mbim_pRequest = mbim_pResponse = NULL;` -/
def clear : MbimCm := { s with mbim_pRequest := none, mbim_pResponse := none }

/-- The request is about to be written. -/
def post (order : ByteOrder) (checked : Bool) (pRequest : MbimMessage) : MbimCm :=
  let r := wrapTransactionId order s.transactionId pRequest
  { s with
    transactionId := r.2
    mbim_pRequest := some r.1
    mbim_pResponse := none
    overwritten := false
    log := .sent r.1 checked :: s.log }

/-- What is returned in front of the wait, if there is no wait. -/
def mbimSendCommand (order : ByteOrder) (checked : Bool) (pRequest : Option MbimMessage)
    (written : ℤ) : (ℤ × Bool) × MbimCm :=
  if s.mbim_fd ≤ 0 then ((-enodev, false), s)
  else if ¬s.reader then ((-einval, false), s)
  else match pRequest with
  | none => ((-enomem, false), s)
  | some pRequest =>
    if 0 < written ∧ written = pRequest.messageLength.toNat then
      ((written, true), s.post order checked pRequest)
    else ((written, false), (s.post order checked pRequest).clear)

end MbimCm

/-- What the operations do. -/
def MbimOp.perform (order : ByteOrder) : (o : MbimOp) → MbimCm → Input → Option o.Res × MbimCm
  | .compose cmd, s, .malloc true =>
    (some (some (cmd.compose s.transactionId)), { s with transactionId := s.transactionId + 1 })
  | .compose _, s, _ => (some none, s)
  | .send checked pRequest, s, .ret written =>
    ((s.mbimSendCommand order checked pRequest written).map some id)
  | .wait _ _, s, .ret ret => (some (ret, if ret = 0 then s.mbim_pResponse else none), s.clear)
  | .read b, s, _ =>
    if s.Live b then ((s.stored[b]?).map RecvMsg.pCmdDone, s)
    else (none, { s with absentUsed := true })
  | .free b, s, _ => (some (), { s with freed := b :: s.freed })
  | .update f, s, _ => (some (), { s with globals := f s.globals })
  | .write, s, .ret ret => (some ret, s)
  | .alloc, s, i => (some (i = .malloc true), s)
  | _, s, _ => (none, s)

/-- The main thread, with the reader thread as its environment. -/
def mbimSemantics (order : ByteOrder) : Semantics MbimOp MbimOp.Res MbimCm Input MbimEvent where
  enabled := MbimOp.enabled
  perform := MbimOp.perform order
  react := MbimCm.react

instance (order : ByteOrder) (o : MbimOp) (s : MbimCm) (i : Input) :
    Decidable ((mbimSemantics order).enabled o s i) :=
  inferInstanceAs (Decidable (o.enabled s i))

abbrev MbimProg := Prog MbimOp MbimOp.Res

/-! ## Sending and checking -/

/-- What `mbim_send_command` returns, and what `ppCmdDone` points to then. -/
def mbimSendCommand (checked kept : Bool) (pRequest : Option MbimMessage) :
    MbimProg (ℤ × Option ℕ) :=
  .op (.send checked pRequest) fun r ↦
    if r.2 then .op (.wait checked kept) .ret else .ret (r.1, none)

def composeMessage (cmd : Command) : MbimProg (Option MbimMessage) := .op (.compose cmd) .ret

def readMessage (pCmdDone : ℕ) : MbimProg MbimMessage := .op (.read pCmdDone) .ret

def freeMessage (pCmdDone : ℕ) : MbimProg Unit := .op (.free pCmdDone) .ret

def updateGlobals (f : MbimGlobals → MbimGlobals) : MbimProg Unit := .op (.update f) .ret

def mbimCheckErr (err : ℤ) (pCmdDone : Option ℕ) (k : ℕ → MbimMessage → MbimProg ℤ) :
    MbimProg ℤ :=
  match pCmdDone with
  | none => .ret (if err ≠ 0 then err else 8888)
  | some b => do
    let msg ← readMessage b
    let status := mbimStatusCode msg
    if err ≠ 0 ∨ status ≠ 0 then do
      freeMessage b
      return if err ≠ 0 then err else status
    else k b msg

/-- A request is composed, sent and checked. -/
def mbimRequest (checked kept : Bool) (cmd : Command) (k : ℕ → MbimMessage → MbimProg ℤ) :
    MbimProg ℤ := do
  let pRequest ← composeMessage cmd
  let (err, pCmdDone) ← mbimSendCommand checked kept pRequest
  mbimCheckErr err pCmdDone k

end Wwan.QuectelCm
