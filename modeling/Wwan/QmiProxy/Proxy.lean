import Mathlib.Data.List.Basic
import Wwan.Lib.Bytes
import Wwan.Lib.Transition

/-!
# `quectel-qmi-proxy`

The proxy shares one QMI device among the clients of a local socket. Service
messages are passed through. CTL requests carry transaction ids the clients
choose, so the proxy sends them to the device one at a time: `qmi_proxy_ctl_msg` is a
queue whose head is meant to be in flight, and a CTL response is matched against the
head only. The proxy also keeps, for each connection, the client ids the device
has given it, and releases them when the client disconnects.

The functions of the source are state transformers on `Proxy`. What they do to the
outside is recorded in the state: the CTL requests and the service messages
written to the device, and the messages sent to clients. A run of the event loop is
then a run of `proxySystem`, in which clients and device are the environment: the
device answers each CTL request that was written to it at most once, in any order.

Connections and queued requests have a ghost identity (`qnode`), which is never
given twice, whereas descriptors are.
-/

namespace Wwan.QmiProxy

open Wwan.Bytes

/-! ## Messages -/

/-- The byte at an offset of a QMI message; behind its end there are zeros. -/
def qmiByte (qmi : List UInt8) (i : ℕ) : UInt8 := qmi.getD i 0

/-- A 16-bit field of a QMI message. -/
def qmiShort (qmi : List UInt8) (i : ℕ) : ℕ := le16 (qmiByte qmi i) (qmiByte qmi (i + 1))

/-- `QMIHdr.Length`. -/
def hdrLength (qmi : List UInt8) : ℕ := qmiShort qmi 1

/-- `QMIHdr.QMIType`. -/
def hdrQmiType (qmi : List UInt8) : UInt8 := qmiByte qmi 4

/-- `QMIHdr.ClientId`. -/
def hdrClientId (qmi : List UInt8) : UInt8 := qmiByte qmi 5

/-- `CTLMsg.QMICTLMsgHdr.CtlFlags`. -/
def ctlFlags (qmi : List UInt8) : UInt8 := qmiByte qmi 6

/-- `CTLMsg.QMICTLMsgHdr.TransactionId`. -/
def transactionId (qmi : List UInt8) : UInt8 := qmiByte qmi 7

/-- `CTLMsg.QMICTLMsgHdr.QMICTLType`. -/
def qmiCtlType (qmi : List UInt8) : ℕ := qmiShort qmi 8

/-- `QMUX_TYPE_CTL`. -/
def qmuxTypeCtl : UInt8 := 0x00

/-- `QMICTL_CTL_FLAG_RSP`. -/
def qmiCtlFlagRsp : UInt8 := 0x01

/-- `QMICTL_CTL_FLAG_IND`. -/
def qmiCtlFlagInd : UInt8 := 0x02

/-- `QMICTL_GET_CLIENT_ID_REQ` and `QMICTL_GET_CLIENT_ID_RESP`. -/
def qmiCtlGetClientId : ℕ := 0x0022

/-- `QMICTL_RELEASE_CLIENT_ID_REQ` and `QMICTL_RELEASE_CLIENT_ID_RESP`. -/
def qmiCtlReleaseClientId : ℕ := 0x0023

/-- `QMICTL_REVOKE_CLIENT_ID_IND`. -/
def qmiCtlRevokeClientIdInd : ℕ := 0x0024

/-- `QMICTL_SYNC_REQ`. -/
def qmiCtlSyncReq : ℕ := 0x0027

/-- `QMI_PROXY_CLINET`: a client id of the service `QMIType`. -/
structure QmiProxyClient where
  qmiType : UInt8
  clientId : UInt8
  deriving DecidableEq

/-- A GET or RELEASE response reports success. -/
def respOk (qmi : List UInt8) : Prop := qmiShort qmi 15 = 0 ∧ qmiShort qmi 17 = 0

instance (qmi : List UInt8) : Decidable (respOk qmi) := inferInstanceAs (Decidable (_ ∧ _))

/-- The client id in a GET or RELEASE response. -/
def respClient (qmi : List UInt8) : QmiProxyClient := ⟨qmiByte qmi 22, qmiByte qmi 23⟩

/-- The client id in a RELEASE request. -/
def reqClient (qmi : List UInt8) : QmiProxyClient := ⟨qmiByte qmi 15, qmiByte qmi 16⟩

/-- The RELEASE request the proxy makes for a client id of a closed connection. -/
def releaseReq (client : QmiProxyClient) : List UInt8 :=
  [0x01, 16, 0, 0x00, qmuxTypeCtl, 0x00,
    0x00, 255, 0x23, 0x00, 5, 0, 0x01, 2, 0, client.qmiType, client.clientId]

/-- The GET request a client makes for an id of the service `qmiType`. -/
def getReq (transactionId qmiType : UInt8) : List UInt8 :=
  [0x01, 15, 0, 0x00, qmuxTypeCtl, 0x00,
    0x00, transactionId, 0x22, 0x00, 4, 0, 0x01, 1, 0, qmiType]

/-- The response that grants a GET request. -/
def getResp (transactionId : UInt8) (client : QmiProxyClient) : List UInt8 :=
  [0x01, 23, 0, 0x80, qmuxTypeCtl, 0x00,
    qmiCtlFlagRsp, transactionId, 0x22, 0x00, 12, 0, 0x02, 4, 0, 0, 0, 0, 0,
    0x01, 2, 0, client.qmiType, client.clientId]

@[simp] theorem reqClient_releaseReq (client : QmiProxyClient) :
    reqClient (releaseReq client) = client := rfl

@[simp] theorem qmiCtlType_releaseReq (client : QmiProxyClient) :
    qmiCtlType (releaseReq client) = qmiCtlReleaseClientId := by
  change le16 0x23 0x00 = 0x0023
  decide

/-! ## The state of the proxy -/

/-- `QMI_PROXY_CONNECTION`. -/
structure QmiProxyConnection where
  /-- The identity of the connection. -/
  qnode : ℕ
  /-- `ClientFd`. -/
  clientFd : ℤ
  /-- `client_qnode`: the client ids given to the client. -/
  clients : List QmiProxyClient
  deriving DecidableEq

/-- `QMI_PROXY_MSG`. -/
structure QmiProxyMsg where
  /-- The identity of the request. -/
  qnode : ℕ
  /-- The connection that issued the request, `none` for the proxy's own. -/
  issuer : Option ℕ
  /-- `ClientFd`. -/
  clientFd : ℤ
  /-- `qmi`. -/
  qmi : List UInt8
  deriving DecidableEq

/-- A message sent to a client. -/
structure Delivery where
  /-- The connection it was sent on. -/
  con : ℕ
  /-- The descriptor it was written to. -/
  clientFd : ℤ
  qmi : List UInt8
  deriving DecidableEq

/-- The variables of the proxy, and what it has written so far. -/
structure Proxy where
  /-- `qmi_proxy_server_fd`. -/
  serverFd : ℤ
  /-- `qmi_proxy_connection`. -/
  connections : List QmiProxyConnection
  /-- `qmi_proxy_ctl_msg`. -/
  ctlMsg : List QmiProxyMsg
  /-- `qmi_sync_done`. -/
  qmiSyncDone : Bool
  /-- `modem_reset_flag`. -/
  modemResetFlag : Bool
  /-- The next identity. -/
  fresh : ℕ
  /-- The CTL requests written to the device. -/
  wdmCtl : List QmiProxyMsg
  /-- The service messages written to the device. -/
  wdmData : List (List UInt8)
  /-- The messages sent to clients. -/
  sent : List Delivery

namespace Proxy

/-! ## The functions of the source

`writable` is whether the poll in `send_qmi_to_cdc_wdm` finds the device ready; if
not, the message is not written and no caller notices. Each event makes at most
one such call. -/

/-- `accept_qmi_connection`. `accept` may fail and return -1; so may `malloc`. -/
def acceptQmiConnection (p : Proxy) (clientfd : ℤ) (malloc : Bool) : Proxy :=
  if malloc then
    { p with
      connections := p.connections ++ [⟨p.fresh, clientfd, []⟩]
      fresh := p.fresh + 1 }
  else p

/-- `send_qmi_to_cdc_wdm` for a CTL request. -/
def sendCtlToCdcWdm (writable : Bool) (p : Proxy) (msg : QmiProxyMsg) : Proxy :=
  if writable then { p with wdmCtl := p.wdmCtl ++ [msg] } else p

/-- A new request is sent if the queue is empty, and appended to it. -/
def addCtlMsg (writable : Bool) (p : Proxy) (msg : QmiProxyMsg) : Proxy :=
  let sent := if p.ctlMsg.isEmpty then p.sendCtlToCdcWdm writable msg else p
  { sent with ctlMsg := p.ctlMsg ++ [msg], fresh := p.fresh + 1 }

/-- The release of one client id of a connection that is closed. -/
def releaseOnDisconnect (writable : Bool) (p : Proxy) (client : QmiProxyClient) : Proxy :=
  p.addCtlMsg writable
    { qnode := p.fresh, issuer := none, clientFd := p.serverFd, qmi := releaseReq client }

/-- `cleanup_qmi_connection`. Only the first queued request of the connection is
removed, wherever it stands in the queue. -/
def cleanupQmiConnection (writable : Bool) (p : Proxy) (clientfd : ℤ) (clientDisconnect : Bool) :
    Proxy :=
  match p.connections.find? fun con ↦ con.clientFd = clientfd with
  | none => p
  | some con =>
    let released :=
      if clientDisconnect then con.clients.foldl (releaseOnDisconnect writable) p else p
    { released with
      ctlMsg := released.ctlMsg.eraseP fun msg ↦ msg.clientFd = clientfd
      connections := released.connections.eraseP fun con ↦ con.clientFd = clientfd }

/-- `get_client_id`. -/
def getClientId (con : QmiProxyConnection) (resp : List UInt8) : QmiProxyConnection :=
  if respOk resp then { con with clients := con.clients ++ [respClient resp] } else con

/-- `release_client_id`. -/
def releaseClientId (con : QmiProxyConnection) (resp : List UInt8) : QmiProxyConnection :=
  if respOk resp then { con with clients := con.clients.erase (respClient resp) } else con

/-- What a response does to the client ids of the connection it is for. -/
def registerResp (resp : List UInt8) (con : QmiProxyConnection) : QmiProxyConnection :=
  if qmiCtlType resp = qmiCtlGetClientId then getClientId con resp
  else if qmiCtlType resp = qmiCtlReleaseClientId then releaseClientId con resp
  else con

/-- A response is sent to the connections with the descriptor of the request and
changes their client ids. -/
def forwardResp (p : Proxy) (clientfd : ℤ) (resp : List UInt8) : Proxy :=
  { p with
    connections := p.connections.map fun con ↦
      if con.clientFd = clientfd then registerResp resp con else con
    sent := p.sent ++ (p.connections.filter fun con ↦ con.clientFd = clientfd).map fun con ↦
      ⟨con.qnode, con.clientFd, resp⟩ }

/-- A response is compared with the request at the head of the queue. Those to the
proxy's own requests go nowhere. -/
def matchResp (p : Proxy) (msg : QmiProxyMsg) (resp : List UInt8) : Proxy :=
  if transactionId msg.qmi ≠ transactionId resp ∨ qmiCtlType msg.qmi ≠ qmiCtlType resp then p
  else if msg.clientFd = p.serverFd then p
  else p.forwardResp msg.clientFd resp

/-- The request at the head of the queue, if any, is sent. -/
def sendHead (writable : Bool) (p : Proxy) : Proxy :=
  match p.ctlMsg with
  | [] => p
  | msg :: _ => p.sendCtlToCdcWdm writable msg

/-- A service message is sent once for each client id it is for. -/
def forwardData (p : Proxy) (qmi : List UInt8) : Proxy :=
  { p with
    sent := p.sent ++ p.connections.flatMap fun con ↦
      (con.clients.filter fun client ↦
        hdrQmiType qmi = client.qmiType ∧
          (hdrClientId qmi = 0 ∨ hdrClientId qmi = client.clientId)).map fun _ ↦
        ⟨con.qnode, con.clientFd, qmi⟩ }

/-- `recv_qmi_from_dev`. A response that does not match the head of the queue removes
it all the same, and what is compared with `QMICTL_CTL_FLAG_IND` is the type of a
message known to be a CTL message. -/
def recvQmiFromDev (writable : Bool) (p : Proxy) (qmi : List UInt8) : Proxy :=
  if p.serverFd = -1 then { p with qmiSyncDone := true }
  else if hdrQmiType qmi = qmuxTypeCtl then
    if ctlFlags qmi = qmiCtlFlagRsp then
      match p.ctlMsg with
      | [] => p
      | msg :: rest => sendHead writable { p.matchResp msg qmi with ctlMsg := rest }
    else if hdrQmiType qmi = qmiCtlFlagInd then
      if qmiCtlType qmi = qmiCtlRevokeClientIdInd then { p with modemResetFlag := true } else p
    else p
  else p.forwardData qmi

/-- The `QMI_PROXY_MSG` made of a request of connection `con`. -/
def clientMsg (p : Proxy) (con : QmiProxyConnection) (qmi : List UInt8) : QmiProxyMsg :=
  { qnode := p.fresh, issuer := some con.qnode, clientFd := con.clientFd, qmi := qmi }

/-- `recv_qmi_from_client` for a message read from connection `con`. -/
def recvQmiFromClient (writable : Bool) (p : Proxy) (qmi : List UInt8) (con : QmiProxyConnection) :
    Proxy :=
  if p.serverFd = -1 then p
  else if hdrQmiType qmi = qmuxTypeCtl then
    if qmiCtlType qmi = qmiCtlSyncReq then p
    else p.addCtlMsg writable (p.clientMsg con qmi)
  else if writable then { p with wdmData := p.wdmData ++ [qmi] } else p

/-- `qmi_proxy_loop_exit`: all connections are closed, without releases. -/
def loopExit (p : Proxy) : Proxy :=
  p.connections.foldl (fun p con ↦ p.cleanupQmiConnection true con.clientFd false) p

/-- The handling of a message read from the device in `qmi_proxy_loop`. -/
def onDev (writable : Bool) (p : Proxy) (qmi : List UInt8) : Proxy :=
  if qmi.length ≠ hdrLength qmi + 1 then p
  else
    let received := p.recvQmiFromDev writable qmi
    if received.modemResetFlag then received.loopExit else received

/-- The handling of a message read from descriptor `fd` of a client in
`qmi_proxy_loop`. -/
def onClient (writable : Bool) (p : Proxy) (fd : ℤ) (qmi : List UInt8) : Proxy :=
  if qmi.length ≠ hdrLength qmi + 1 then p
  else match p.connections.find? fun con ↦ con.clientFd = fd with
  | none => p
  | some con => p.recvQmiFromClient writable qmi con

end Proxy

/-! ## The system -/

/-- The proxy together with the device, of which is known which CTL requests it has
answered and which client ids it has given out and not taken back. -/
structure ProxySys where
  proxy : Proxy
  /-- The requests the device has answered. -/
  answered : List QmiProxyMsg
  /-- The client ids that are allocated. -/
  allocated : List QmiProxyClient

/-- The request has been written to the device and is waiting for its response. -/
def InFlight (s : ProxySys) (msg : QmiProxyMsg) : Prop :=
  msg ∈ s.proxy.wdmCtl ∧ msg ∉ s.answered

instance (s : ProxySys) (msg : QmiProxyMsg) : Decidable (InFlight s msg) :=
  inferInstanceAs (Decidable (_ ∧ _))

/-- The events of `qmi_proxy_loop`. -/
inductive ProxyEvent
  | /-- `accept` returns `fd`. -/
    accept (fd : ℤ) (malloc : Bool)
  | /-- A client sends a message. -/
    client (fd : ℤ) (qmi : List UInt8)
  | /-- A client disconnects. -/
    disconnect (fd : ℤ)
  | /-- The device answers a CTL request. -/
    response (msg : QmiProxyMsg) (qmi : List UInt8)
  | /-- The device sends anything else: a service message or an indication. -/
    unsolicited (qmi : List UInt8)
  | /-- The device takes a client id back and says so. -/
    revoke (client : QmiProxyClient) (qmi : List UInt8)
  deriving DecidableEq

/-- An event, with the outcome of the poll for the device if it comes to that. -/
structure ProxyStep where
  event : ProxyEvent
  writable : Bool

/-- The response is one to the request: a CTL response of the right length that
repeats its transaction id and type. -/
structure Answers (qmi : List UInt8) (msg : QmiProxyMsg) : Prop where
  length : qmi.length = hdrLength qmi + 1
  ctl : hdrQmiType qmi = qmuxTypeCtl
  rsp : ctlFlags qmi = qmiCtlFlagRsp
  transactionId : transactionId qmi = transactionId msg.qmi
  qmiCtlType : qmiCtlType qmi = qmiCtlType msg.qmi

instance (qmi : List UInt8) (msg : QmiProxyMsg) : Decidable (Answers qmi msg) :=
  decidable_of_iff
    (qmi.length = hdrLength qmi + 1 ∧ hdrQmiType qmi = qmuxTypeCtl ∧ ctlFlags qmi = qmiCtlFlagRsp ∧
      transactionId qmi = transactionId msg.qmi ∧ qmiCtlType qmi = qmiCtlType msg.qmi)
    ⟨fun ⟨h₁, h₂, h₃, h₄, h₅⟩ ↦ ⟨h₁, h₂, h₃, h₄, h₅⟩,
      fun ⟨h₁, h₂, h₃, h₄, h₅⟩ ↦ ⟨h₁, h₂, h₃, h₄, h₅⟩⟩

/-- Descriptors are given by the kernel: one that is open is not given again, one that
is closed may be. The poll passes over negative ones. -/
def proxyEnabled (s : ProxySys) : ProxyEvent → Prop
  | .accept fd _ =>
    fd = -1 ∨ (0 ≤ fd ∧ fd ≠ s.proxy.serverFd ∧ ∀ con ∈ s.proxy.connections, con.clientFd ≠ fd)
  | .client fd _ | .disconnect fd => 0 ≤ fd ∧ ∃ con ∈ s.proxy.connections, con.clientFd = fd
  | .response msg qmi =>
    InFlight s msg ∧ Answers qmi msg ∧
      -- An id is given to one client at a time.
      (qmiCtlType qmi = qmiCtlGetClientId → respOk qmi → respClient qmi ∉ s.allocated)
  | .unsolicited qmi => ¬ (hdrQmiType qmi = qmuxTypeCtl ∧ ctlFlags qmi = qmiCtlFlagRsp)
  | .revoke _ qmi =>
    hdrQmiType qmi = qmuxTypeCtl ∧ ctlFlags qmi = qmiCtlFlagInd ∧
      qmiCtlType qmi = qmiCtlRevokeClientIdInd

instance (s : ProxySys) : (e : ProxyEvent) → Decidable (proxyEnabled s e)
  | .accept _ _ => inferInstanceAs (Decidable (_ ∨ _ ∧ _ ∧ _))
  | .client _ _ | .disconnect _ => inferInstanceAs (Decidable (_ ∧ _))
  | .response _ _ => inferInstanceAs (Decidable (_ ∧ _ ∧ (_ → _ → _)))
  | .unsolicited _ => inferInstanceAs (Decidable (¬ _))
  | .revoke _ _ => inferInstanceAs (Decidable (_ ∧ _ ∧ _))

/-- What an answer of the device says about the client ids. -/
def allocate (allocated : List QmiProxyClient) (msg : QmiProxyMsg) (qmi : List UInt8) :
    List QmiProxyClient :=
  if ¬ respOk qmi then allocated
  else if qmiCtlType qmi = qmiCtlGetClientId then allocated ++ [respClient qmi]
  else if qmiCtlType qmi = qmiCtlReleaseClientId then allocated.erase (reqClient msg.qmi)
  else allocated

/-- One round of the event loop. -/
def proxyNext (s : ProxySys) (step : ProxyStep) : ProxySys :=
  match step.event with
  | .accept fd malloc => { s with proxy := s.proxy.acceptQmiConnection fd malloc }
  | .client fd qmi => { s with proxy := s.proxy.onClient step.writable fd qmi }
  | .disconnect fd => { s with proxy := s.proxy.cleanupQmiConnection step.writable fd true }
  | .response msg qmi =>
    { proxy := s.proxy.onDev step.writable qmi
      answered := msg :: s.answered
      allocated := allocate s.allocated msg qmi }
  | .unsolicited qmi => { s with proxy := s.proxy.onDev step.writable qmi }
  | .revoke client qmi =>
    { s with
      proxy := s.proxy.onDev step.writable qmi
      allocated := s.allocated.erase client }

/-- The proxy with its server socket at `serverFd`, before the first client. -/
def proxySystem (serverFd : ℕ) : System ProxySys ProxyStep where
  init :=
    { proxy :=
        { serverFd := serverFd
          connections := []
          ctlMsg := []
          qmiSyncDone := true
          modemResetFlag := false
          fresh := 0
          wdmCtl := []
          wdmData := []
          sent := [] }
      answered := []
      allocated := [] }
  enabled s step := proxyEnabled s step.event
  next := proxyNext

instance (serverFd : ℕ) (s : ProxySys) (step : ProxyStep) :
    Decidable ((proxySystem serverFd).enabled s step) :=
  inferInstanceAs (Decidable (proxyEnabled s step.event))

/-! ## Answers to `qmi_proxy_init`

`qmi_proxy_init` sends a `QMICTL_SYNC_REQ` a second until one of them is answered. The others may be
answered while there are clients, and then the answer is one to no request of the queue. -/

/-- A `QMICTL_SYNC_REQ` of `qmi_proxy_init`. -/
def syncReq (transactionId : UInt8) : QmiProxyMsg where
  qnode := 0
  issuer := none
  clientFd := -1
  qmi := [0x01, 11, 0, 0x00, qmuxTypeCtl, 0x00, 0x00, transactionId, 0x27, 0x00, 0, 0]

/-- The response to a `QMICTL_SYNC_REQ`. -/
def syncResp (transactionId : UInt8) : List UInt8 :=
  [0x01, 18, 0, 0x80, qmuxTypeCtl, 0x00, qmiCtlFlagRsp, transactionId, 0x27, 0x00, 7, 0,
    0x02, 4, 0, 0, 0, 0, 0]

/-- The proxy and the device, with the `QMICTL_SYNC_REQ`s that are not answered. -/
structure SyncedSys where
  sys : ProxySys
  /-- Their transaction ids. -/
  owed : List UInt8

inductive SyncedStep
  | proxy (step : ProxyStep)
  | /-- The device answers a `QMICTL_SYNC_REQ`. -/
    sync (tid : UInt8) (qmi : List UInt8) (writable : Bool)

/-- The request that the device answers in a step. -/
def SyncedStep.answered : SyncedStep → Option QmiProxyMsg
  | .proxy ⟨.response msg _, _⟩ => some msg
  | .proxy _ => none
  | .sync tid _ _ => some (syncReq tid)

/-- The proxy, when `qmi_proxy_init` has left some of its requests unanswered. -/
def syncedSystem (serverFd : ℕ) (owed : List UInt8) : System SyncedSys SyncedStep where
  init := ⟨(proxySystem serverFd).init, owed⟩
  enabled s
    | .proxy step => proxyEnabled s.sys step.event
    | .sync tid qmi _ => tid ∈ s.owed ∧ Answers qmi (syncReq tid)
  next s
    | .proxy step => { s with sys := proxyNext s.sys step }
    | .sync tid qmi writable =>
      { sys := { s.sys with proxy := s.sys.proxy.onDev writable qmi }, owed := s.owed.erase tid }

instance (serverFd : ℕ) (owed : List UInt8) (s : SyncedSys) :
    (step : SyncedStep) → Decidable ((syncedSystem serverFd owed).enabled s step)
  | .proxy step => inferInstanceAs (Decidable (proxyEnabled s.sys step.event))
  | .sync _ _ _ => inferInstanceAs (Decidable (_ ∧ _))

/-- A guard on the steps of the proxy, and no answer to `qmi_proxy_init` comes while a request is in
the queue. -/
def SyncGuard (guard : ProxySys → ProxyStep → Prop) (s : SyncedSys) : SyncedStep → Prop
  | .proxy step => guard s.sys step
  | .sync _ _ _ => s.sys.proxy.ctlMsg = []

instance (guard : ProxySys → ProxyStep → Prop) [∀ s step, Decidable (guard s step)]
    (s : SyncedSys) : (step : SyncedStep) → Decidable (SyncGuard guard s step)
  | .proxy step => inferInstanceAs (Decidable (guard s.sys step))
  | .sync _ _ _ => inferInstanceAs (Decidable (_ = _))

end Wwan.QmiProxy
