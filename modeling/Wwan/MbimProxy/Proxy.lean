import Mathlib.Algebra.Group.Nat.Defs
import Mathlib.Data.Fintype.Basic
import Mathlib.Data.List.FinRange
import Wwan.Lib.Transition

/-!
# `quectel-mbim-proxy`

The proxy shares one MBIM device among up to 32 clients of a local socket. It keeps no table of
the requests it has forwarded: the number of the client's slot goes into the top bits of the
transaction id, and the device sends it back with the response. Messages with the transaction
id 0 are not responses and go to every client.

A run is a sequence of the events that `proxy_loop` handles. Connections have a ghost number,
which is never given twice, whereas slots and descriptors are.
-/

namespace Wwan.MbimProxy

open Wwan

/-! ## Messages and slots -/

/-- `CM_MAX_CLIENT`. -/
def cmMaxClient : ℕ := 32

/-- `TID_MASK`. -/
def tidMask : UInt32 := 0xFFFFFF

/-- `TID_SHIFT`. -/
def tidShift : UInt32 := 24

/-- `MBIM_OPEN_MSG`. -/
def mbimOpenMsg : UInt32 := 1

/-- `MBIM_CLOSE_MSG`. -/
def mbimCloseMsg : UInt32 := 2

/-- A message with its `MBIM_MESSAGE_HEADER`. -/
structure MbimMessage where
  messageType : UInt32
  messageLength : UInt32
  transactionId : UInt32
  /-- What follows the header. -/
  payload : List UInt8
  deriving DecidableEq

/-- `CM_CLIENT_T`. -/
structure CmClient where
  clientFd : ℤ
  clientIdx : ℕ
  deriving DecidableEq

/-- Whether a slot has an index and a client. -/
def CmClient.hasIdx (client : CmClient) (idx : ℕ) : Bool :=
  client.clientIdx = idx ∧ 0 < client.clientFd

/-- The first slot that a loop over `cm_clients` stops at. -/
def findSlot (clients : Fin cmMaxClient → CmClient) (p : CmClient → Bool) :
    Option (Fin cmMaxClient) :=
  (List.finRange cmMaxClient).find? fun i ↦ p (clients i)

/-! ## Events -/

/-- What `handle_client_request` writes. -/
inductive Write
  | /-- An answer to the client. -/
    client (fd : ℤ) (msg : MbimMessage)
  | /-- A request to the device. -/
    device (msg : MbimMessage)
  deriving DecidableEq

section Events

variable (clients : Fin cmMaxClient → CmClient)

/-- `handle_client_connect`: the slot that the client gets, if there is one. -/
def handleClientConnect (fd : ℤ) : Option (Fin cmMaxClient × (Fin cmMaxClient → CmClient)) :=
  (findSlot clients (·.clientFd ≤ 0)).map fun i ↦
    (i, Function.update clients i ⟨fd, i + 1⟩)

/-- `handle_client_disconnect`. -/
def handleClientDisconnect (fd : ℤ) : Fin cmMaxClient → CmClient :=
  match findSlot clients (·.clientFd = fd) with
  | none => clients
  | some i =>
    -- `safe_close` leaves what is not positive.
    if 0 < (clients i).clientFd then
      Function.update clients i { clients i with clientFd := -1 }
    else clients

/-- `handle_client_request`. -/
def handleClientRequest (fd : ℤ) (req : MbimMessage) : Option Write :=
  (findSlot clients (·.clientFd = fd)).map fun i ↦
    if req.messageType = mbimOpenMsg ∨ req.messageType = mbimCloseMsg then
      .client fd ⟨req.messageType ||| 0x80000000, 16, req.transactionId, [0, 0, 0, 0]⟩
    else
      .device { req with
        transactionId :=
          req.transactionId ||| UInt32.ofNat (clients i).clientIdx <<< tidShift }

/-- `handle_device_response`: what is written to which slot. -/
def handleDeviceResponse (rsp : MbimMessage) : List (Fin cmMaxClient × MbimMessage) :=
  if rsp.transactionId = 0 then
    ((List.finRange cmMaxClient).filter fun i ↦ 0 < (clients i).clientFd).map fun i ↦ (i, rsp)
  else
    (findSlot clients (·.hasIdx (rsp.transactionId >>> tidShift).toNat)).elim [] fun i ↦
      [(i, { rsp with transactionId := rsp.transactionId &&& tidMask })]

end Events

/-! ## Runs -/

/-- A request that was forwarded. -/
structure Forwarded where
  /-- The connection it came from. -/
  client : ℕ
  /-- The slot of the connection. -/
  slot : Fin cmMaxClient
  /-- The transaction id that the client used. -/
  tid : UInt32
  /-- The transaction id that the device got. -/
  id : UInt32
  deriving DecidableEq

/-- A message of the device that was handled. -/
structure Delivery where
  /-- The request that it answers, if it is a response. -/
  req : Option Forwarded
  /-- The message as the device sent it. -/
  msg : MbimMessage
  /-- The connections that were open. -/
  connected : List ℕ
  /-- What was written to which connection. -/
  written : List (ℕ × MbimMessage)
  deriving DecidableEq

/-- The proxy, and what happened so far. -/
structure ProxyRun where
  clients : Fin cmMaxClient → CmClient
  /-- The connection that a slot was given to. -/
  who : Fin cmMaxClient → ℕ
  /-- The number of connections that were made. -/
  next : ℕ
  /-- The connections that are open. -/
  connected : List ℕ
  forwarded : List Forwarded
  log : List Delivery

/-- What `proxy_loop` handles. -/
inductive ProxyStep
  | /-- A client connects. -/
    connect (fd : ℤ)
  | /-- The client in a slot hangs up. -/
    disconnect (i : Fin cmMaxClient)
  | /-- The client in a slot sends a message. -/
    request (i : Fin cmMaxClient) (req : MbimMessage)
  | /-- The device answers a request that was forwarded. -/
    respond (r : Forwarded) (rsp : MbimMessage)
  | /-- The device sends a message that is no response. -/
    indicate (msg : MbimMessage)
  deriving DecidableEq

namespace ProxyRun

variable (s : ProxyRun)

/-- A client connects. -/
def connect (fd : ℤ) : ProxyRun :=
  match handleClientConnect s.clients fd with
  | none => { s with next := s.next + 1 }
  | some (i, clients) =>
    { s with
      clients := clients
      who := Function.update s.who i s.next
      next := s.next + 1
      connected := s.connected ++ [s.next] }

/-- The client in a slot hangs up. -/
def disconnect (i : Fin cmMaxClient) : ProxyRun :=
  { s with
    clients := handleClientDisconnect s.clients (s.clients i).clientFd
    connected := s.connected.erase (s.who i) }

/-- The client in a slot sends a message. -/
def request (i : Fin cmMaxClient) (req : MbimMessage) : ProxyRun :=
  match handleClientRequest s.clients (s.clients i).clientFd req with
  | some (.device msg) =>
    { s with
      forwarded := s.forwarded ++ [⟨s.who i, i, req.transactionId, msg.transactionId⟩] }
  | _ => s

/-- What is written to which connection when a message of the device is handled. -/
def writes (msg : MbimMessage) : List (ℕ × MbimMessage) :=
  (handleDeviceResponse s.clients msg).map fun w ↦ (s.who w.1, w.2)

/-- A message of the device is handled. -/
def deliver (req : Option Forwarded) (msg : MbimMessage) : ProxyRun :=
  { s with log := s.log ++ [⟨req, msg, s.connected, s.writes msg⟩] }

end ProxyRun

namespace ProxyStep

/-- Whether an event can come. Descriptors are positive and not given twice at a time; the
device answers what it got. -/
def enabled (s : ProxyRun) : ProxyStep → Bool
  | connect fd => 0 < fd ∧ ∀ i, (s.clients i).clientFd ≠ fd
  | disconnect i => 0 < (s.clients i).clientFd
  | request i _ => 0 < (s.clients i).clientFd
  | respond r rsp => r ∈ s.forwarded ∧ rsp.transactionId = r.id
  | indicate msg => msg.transactionId = 0

/-- What an event does. -/
def act (s : ProxyRun) : ProxyStep → ProxyRun
  | connect fd => s.connect fd
  | disconnect i => s.disconnect i
  | request i req => s.request i req
  | respond r rsp => s.deliver (some r) rsp
  | indicate msg => s.deliver none msg

end ProxyStep

/-- The runs of the proxy while the device is open. -/
def proxySystem : System ProxyRun ProxyStep :=
  { init := ⟨fun _ ↦ ⟨0, 0⟩, fun _ ↦ 0, 0, [], [], []⟩
    enabled := fun s e ↦ e.enabled s
    next := fun s e ↦ e.act s }

instance (s : ProxyRun) (e : ProxyStep) : Decidable (proxySystem.enabled s e) :=
  inferInstanceAs (Decidable (e.enabled s = true))

end Wwan.MbimProxy
