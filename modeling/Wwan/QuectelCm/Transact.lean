import Wwan.Lib.Program
import Wwan.QuectelCm.Qmux

/-!
# Requests and responses of `quectel-cm`

The main thread sends a request with `QmiThreadSendQMITimeout` and waits on a condition variable;
another thread passes all messages that were read to `QmiThreadRecvQMI`. They share the globals
`s_pRequest`, the request that waits for its response, and `s_pResponse`, the copy of the response,
under a mutex. The main thread's side is a program over the operations of this module, and calls
of `QmiThreadRecvQMI` are the steps of its environment. They are possible between any two
operations, in particular between the send and the end of the wait.
-/

namespace Wwan.QuectelCm

open Bytes

/-! ## Messages -/

/-- A byte of a message. Where the code reads behind a message, the list goes on with what lies
there. -/
def byteAt (msg : List UInt8) (offset : ℕ) : UInt8 := msg.getD offset 0

theorem byteAt_drop (msg : List UInt8) (n i : ℕ) : byteAt (msg.drop n) i = byteAt msg (n + i) := by
  rw [byteAt, byteAt, List.getD_eq_getElem?_getD, List.getD_eq_getElem?_getD, List.getElem?_drop]

theorem byteAt_append_left {head : List UInt8} {i : ℕ} (h : i < head.length) (rest : List UInt8) :
    byteAt (head ++ rest) i = byteAt head i := by
  rw [byteAt, byteAt, List.getD_eq_getElem?_getD, List.getD_eq_getElem?_getD,
    List.getElem?_append_left h]

theorem byteAt_append_right {head : List UInt8} {n : ℕ} (h : head.length = n) (rest : List UInt8)
    (i : ℕ) : byteAt (head ++ rest) (n + i) = byteAt rest i := by
  rw [← byteAt_drop, List.drop_left' h]

/-- The fields of a request that tell its response. -/
structure Header where
  QMIType : UInt8
  ClientId : UInt8
  TransactionId : ℕ
  deriving DecidableEq

/-- `QMUX_TYPE_CTL` and the other services. -/
def qmuxTypeCtl : UInt8 := 0x00
def qmuxTypeWds : UInt8 := 0x01
def qmuxTypeDms : UInt8 := 0x02
def qmuxTypeNas : UInt8 := 0x03
def qmuxTypeQos : UInt8 := 0x04
def qmuxTypeUim : UInt8 := 0x0B
def qmuxTypeWdsIpv6 : UInt8 := 0x11
def qmuxTypeWdsAdmin : UInt8 := 0x1A
def qmuxTypeCoex : UInt8 := 0x22

/-- `is_response` -/
def isResponse (pRequest : Header) (pResponse : List UInt8) : Bool :=
  pRequest.QMIType == byteAt pResponse 4 && pRequest.ClientId == byteAt pResponse 5 &&
    pRequest.TransactionId ==
      if pRequest.QMIType = qmuxTypeCtl then (byteAt pResponse 7).toNat else field16 pResponse 7

/-- A message of response type: the `QMUX_CTL_FLAG_MASK_TYPE` bits are `QMUX_CTL_FLAG_TYPE_RSP`. -/
def ResponseType (msg : List UInt8) : Prop := byteAt msg 6 &&& 0x06 = 0x02

instance (msg : List UInt8) : Decidable (ResponseType msg) :=
  inferInstanceAs (Decidable (_ = _))

/-- `MUXMsg.QMUXMsgHdrResp.QMUXResult` -/
def qmuxResult (msg : List UInt8) : ℕ := field16 msg 16

/-- `MUXMsg.QMUXMsgHdrResp.QMUXError` -/
def qmuxError (msg : List UInt8) : ℕ := field16 msg 18

/-- `sizeof(QCQMI_HDR) + sizeof(QCQMUX_HDR) + sizeof(QCQMUX_MSG_HDR_RESP)` -/
def rspHdrsSize : ℕ := 6 + 3 + 11

/-- A message that was read, with what lies behind it in `cm_recv_buf`, and what lies behind the
copy that `QmiThreadRecvQMI` may make of it. -/
structure RecvMsg where
  msg : List UInt8
  stale : List UInt8
  heap : List UInt8
  deriving DecidableEq

namespace RecvMsg

/-- What `QmiThreadRecvQMI` reads from. -/
def buf (m : RecvMsg) : List UInt8 := m.msg ++ m.stale

/-- What `s_pResponse` points to. -/
def copy (m : RecvMsg) : List UInt8 := m.msg ++ m.heap

end RecvMsg

/-- A successful response to the first request of a client, in front of its TLVs. -/
def firstResponse (QMIType type : UInt8) (tlvs : List UInt8) : List UInt8 :=
  [0x01, 19 + UInt8.ofNat tlvs.length, 0, 0x80, QMIType, 1, 0x02, 1, 0, type, 0,
    7 + UInt8.ofNat tlvs.length, 0, 0x02, 4, 0, 0, 0, 0, 0] ++ tlvs

/-- The events that the reader thread sends to the main thread. -/
inductive MainEvent
  | deviceDisconnected
  | voiceNetworkStateChanged
  | dataCallListChanged
  | modemReportReset
  | loopbackConfig (loopback_state replication_factor : ℕ)
  deriving DecidableEq

/-- The event for a message that is no response. -/
def notification (msg : List UInt8) : Option MainEvent :=
  let QMIType := byteAt msg 4
  let type := field16 msg 9
  if QMIType = qmuxTypeCtl ∧ field16 msg 8 = 0x0024 then some .modemReportReset
  else if QMIType = qmuxTypeNas ∧ type = 0x0024 then some .voiceNetworkStateChanged
  else if QMIType = qmuxTypeWds ∧ type = 0x0022 then some .dataCallListChanged
  else if QMIType = qmuxTypeNas ∧ type = 0x004E then some .voiceNetworkStateChanged
  else if QMIType = qmuxTypeWdsAdmin ∧ type = 0x002F then
    some (.loopbackConfig (byteAt msg 16).toNat
      (field16 msg 20 + field16 msg 22 * 65536))
  else none

/-! ## The shared state -/

/-- A pointer to a response; `wild` has not been assigned. -/
inductive Ptr
  | wild
  | null
  | buf (b : ℕ)
  deriving DecidableEq

/-- What has been sent and received. Of a request is noted if its result is checked. -/
inductive LogEntry
  | sent (hdr : Header) (checked : Bool)
  | received (msg : List UInt8)
  deriving DecidableEq

/-- The globals, the buffers that were allocated (those that were freed are kept), and the log,
latest first. -/
structure Cm where
  s_pRequest : Option ℕ
  s_pResponse : Ptr
  /-- The `TransactionId` of `GetQMUXTransactionId`. -/
  transactionId : ℕ
  requests : List Header
  responses : List RecvMsg
  freedRequests : List ℕ
  freedResponses : List ℕ
  /-- A response was used that is not there. -/
  absentUsed : Bool
  events : List MainEvent
  log : List LogEntry
  deriving DecidableEq

namespace Cm

/-- `free(s_pRequest); s_pRequest = NULL;` -/
def freeRequest (s : Cm) (r : ℕ) : Cm :=
  { s with s_pRequest := none, freedRequests := r :: s.freedRequests }

/-- `s_pResponse` is allocated and holds the message. -/
def copyResponse (s : Cm) (malloc : Bool) (msg : RecvMsg) : Cm :=
  if malloc then
    { s with s_pResponse := .buf s.responses.length, responses := s.responses ++ [msg] }
  else { s with s_pResponse := .null }

/-- The request that waits, if the message is a response to it. -/
def awaiting (s : Cm) (msg : RecvMsg) : Option ℕ :=
  s.s_pRequest.filter fun r ↦ (s.requests[r]?).any (isResponse · msg.buf)

/-- `QmiThreadRecvQMI` -/
def qmiThreadRecvQMI (s : Cm) (malloc : Bool) : Option RecvMsg → Cm
  | none =>
    match s.s_pRequest with
    | some r => { s.freeRequest r with s_pResponse := .null }
    | none => s
  | some msg =>
    match s.awaiting msg with
    | some r =>
      (Cm.freeRequest { s with log := .received msg.msg :: s.log } r).copyResponse malloc msg
    | none => { s with
        log := .received msg.msg :: s.log
        events := s.events ++ (notification msg.buf).toList }

/-- The response is allocated and has not been freed. -/
def Live (s : Cm) (b : ℕ) : Prop := b < s.responses.length ∧ b ∉ s.freedResponses

instance (s : Cm) (b : ℕ) : Decidable (s.Live b) := inferInstanceAs (Decidable (_ ∧ _))

/-- The next value of `GetQMUXTransactionId`. -/
def nextTransactionId (s : Cm) : ℕ :=
  if 0xFFFF < s.transactionId + 1 then 1 else s.transactionId + 1

end Cm

/-! ## Operations of the main thread -/

/-- What a request function does with the response. -/
inductive Use
  | /-- It is checked, and a failure is returned. -/
    checked
  | /-- It is checked, but the failure is not passed on. -/
    tolerated
  | /-- It is only freed, if there is one. -/
    ifPresent
  | /-- It is used before it is checked. -/
    early
  deriving DecidableEq

/-- Is a failure of the request to be returned? -/
def Use.isChecked : Use → Bool
  | .checked | .early => true
  | .tolerated | .ifPresent => false

inductive Op
  | /-- `ComposeQMUXMsg` -/
    compose (QMIType : UInt8)
  | /-- `QmiThreadSendQMITimeout` up to the wait, with `pRequest` and what `pResponse` holds. -/
    send (use : Use) (pRequest : Option ℕ) (pResponse : Ptr)
  | /-- `pthread_cond_timeout_np` and the look at `s_pResponse`. -/
    wait (use : Use)
  | /-- The message is read through a pointer. -/
    read (pResponse : Ptr)
  | /-- `free` -/
    free (pResponse : Ptr)
  | /-- `s_pResponse = malloc(...)` -/
    grab
  | /-- A null pointer, other than one to a response, is dereferenced. -/
    crash
  deriving DecidableEq

/-- The results of the operations. -/
abbrev Op.Res : Op → Type
  | .compose _ => Option ℕ
  | .send .. => ℤ
  | .wait _ => ℤ × Ptr
  | .read _ => List UInt8
  | .free _ | .grab | .crash => Unit

/-- What an operation depends on: if `malloc` succeeds, or what a call outside returns. -/
inductive Input
  | malloc (ok : Bool)
  | ret (r : ℤ)
  | go
  deriving DecidableEq

def Input.isMalloc : Input → Bool
  | .malloc _ => true
  | _ => false

def Input.isRet : Input → Bool
  | .ret _ => true
  | _ => false

theorem Input.exists_of_isRet {i : Input} (h : i.isRet) : ∃ r, i = .ret r := by
  cases i with
  | ret r => exact ⟨r, rfl⟩
  | malloc ok => cases h
  | go => cases h

def Input.isGo : Input → Bool
  | .go => true
  | _ => false

/-- `EINVAL` -/
def einval : ℤ := 22

section Cm

-- `qmidev_send` changes the header of a request: `QmiWwanSendQMI` puts the client id in, and turns
-- the service for IPv6 into `QMUX_TYPE_WDS`.
variable (qmidev_send : Header → Header)

/-- The inputs that are possible for an operation. -/
def Op.enabled (o : Op) (_ : Cm) (i : Input) : Prop :=
  (match o with
    | .compose _ | .grab => i.isMalloc
    | .send _ (some _) _ | .wait _ => i.isRet
    | .send _ none _ | .read _ | .free _ | .crash => i.isGo) = true

instance (o : Op) (s : Cm) (i : Input) : Decidable (o.enabled s i) :=
  inferInstanceAs (Decidable (_ = true))

/-- What the operations do. -/
def Op.perform : (o : Op) → Cm → Input → Option o.Res × Cm
  | .compose QMIType, s, i =>
    let tid := s.nextTransactionId
    if i = .malloc true then
      (some (some s.requests.length),
        { s with transactionId := tid, requests := s.requests ++ [⟨QMIType, 0, tid⟩] })
    else (some none, { s with transactionId := tid })
  | .send _ none _, s, _ => (some (-einval), s)
  | .send use (some r) _, s, .ret ret =>
    (some ret,
      { s with
        s_pRequest := some r
        s_pResponse := .null
        requests := s.requests.modify r qmidev_send
        log := ((s.requests[r]?).map fun hdr ↦
          .sent (qmidev_send hdr) use.isChecked).toList ++ s.log })
  | .wait _, s, .ret ret => (some (ret, s.s_pResponse), s)
  | .read (.buf b), s, _ =>
    if s.Live b then ((s.responses[b]?).map RecvMsg.copy, s)
    else (none, { s with absentUsed := true })
  | .read _, s, _ => (none, { s with absentUsed := true })
  | .free .null, s, _ => (some (), s)
  | .free (.buf b), s, _ => (some (), { s with freedResponses := b :: s.freedResponses })
  | .free .wild, s, _ => (none, { s with absentUsed := true })
  -- nothing is written to what is allocated here
  | .grab, s, i => (some (), s.copyResponse (i = .malloc true) ⟨[], [], []⟩)
  | .crash, s, _ => (none, s)
  | _, s, _ => (none, s)

/-- The main thread, with `QmiThreadRecvQMI` as its environment. -/
def cmSemantics : Semantics Op Op.Res Cm Input (Option RecvMsg × Bool) where
  enabled := Op.enabled
  perform := Op.perform qmidev_send
  react s e := s.qmiThreadRecvQMI e.2 e.1

instance (o : Op) (s : Cm) (i : Input) :
    Decidable ((cmSemantics qmidev_send).enabled o s i) :=
  inferInstanceAs (Decidable (o.enabled s i))

end Cm

/-- A program of the main thread. -/
abbrev CmProg := Prog Op Op.Res

/-- `ComposeQMUXMsg`, of which only the header matters here. -/
def composeQMUX (QMIType : UInt8) : CmProg (Option ℕ) := .op (.compose QMIType) .ret

/-- `QmiThreadSendQMITimeout`: what is returned, and `pResponse` afterwards. -/
def qmiThreadSendQMI (use : Use) (pRequest : Option ℕ) (pResponse : Ptr) : CmProg (ℤ × Ptr) :=
  .op (.send use pRequest pResponse) fun ret ↦
    if pRequest.isNone then .ret (ret, pResponse)
    else if ret = 0 then
      .op (.wait use) fun r ↦ .ret (r.1, if r.1 = 0 then r.2 else .null)
    else .ret (ret, .null)

/-- `free(pResponse)` -/
def freeResponse (pResponse : Ptr) : CmProg Unit := .op (.free pResponse) .ret

/-- The message that a pointer points to. -/
def readResponse (pResponse : Ptr) : CmProg (List UInt8) := .op (.read pResponse) .ret

end Wwan.QuectelCm
