import Wwan.QmiProxy.Proxy

/-!
# `fibo_qmimsg_server`

The server shares one QMI device among the clients of a local socket, as
`quectel-qmi-proxy` does, and the layout of the messages is that of
`Wwan.QmiProxy.Proxy`. CTL requests wait in `qmi_proxy_ctl_msg`, and a request is written when
it comes to the head. A CTL response is taken for the answer to the head, whatever its
transaction id; and any CTL message has the head written, once more if it has been
written before.

The functions are those of the server while its socket is open. A descriptor is kept
as a `uint8_t`. What is written to the device and sent to clients is recorded in
the state.
-/

namespace Wwan.FibocomDial.QmimsgServer

open QmiProxy

/-- `QMI_PROXY_CONNECTION`. -/
structure QmiProxyConnection where
  /-- The identity of the connection. -/
  qnode : ℕ
  /-- The descriptor of the socket. -/
  fd : ℕ
  /-- `client_qnode`. -/
  clients : List QmiProxyClient
  deriving DecidableEq

/-- `ClientFd`. -/
def QmiProxyConnection.clientFd (con : QmiProxyConnection) : ℕ := con.fd % 256

/-- `QMI_PROXY_MSG`. -/
structure QmiProxyMsg where
  /-- The identity of the request. -/
  qnode : ℕ
  /-- The connection that issued the request. -/
  issuer : Option ℕ
  /-- `ClientFd`. -/
  clientFd : ℕ
  qmi : List UInt8
  deriving DecidableEq

/-- The variables of the server, and what it has written so far. -/
structure Server where
  /-- `qmi_proxy_connection`. -/
  connections : List QmiProxyConnection
  /-- `qmi_proxy_ctl_msg`. -/
  ctlMsg : List QmiProxyMsg
  /-- The next identity. -/
  fresh : ℕ
  /-- The CTL requests written to the device. -/
  wdmCtl : List QmiProxyMsg
  /-- The service messages written to the device. -/
  wdmData : List (List UInt8)
  /-- The messages sent to clients, each with its connection. -/
  sent : List (ℕ × List UInt8)

namespace Server

/-- `accept_qmi_connection`. -/
def acceptQmiConnection (p : Server) (clientfd : ℕ) (malloc : Bool) : Server :=
  if malloc then
    { p with connections := p.connections ++ [⟨p.fresh, clientfd, []⟩], fresh := p.fresh + 1 }
  else p

/-- The clients that `pollfds` has room for. -/
def maxPolled : ℕ := 64

/-- The connections that `qmi_proxy_loop` polls. -/
def polled (p : Server) : List QmiProxyConnection := p.connections.take maxPolled

/-- `cleanup_qmi_connection`. Only the first queued request of the connection is removed. -/
def cleanupQmiConnection (p : Server) (clientfd : ℕ) : Server :=
  match p.connections.find? fun con ↦ con.clientFd = clientfd with
  | none => p
  | some _ =>
    { p with
      ctlMsg := p.ctlMsg.eraseP fun msg ↦ msg.clientFd = clientfd
      connections := p.connections.eraseP fun con ↦ con.clientFd = clientfd }

/-- `get_client_id`. -/
def getClientId (con : QmiProxyConnection) (resp : List UInt8) : QmiProxyConnection :=
  if respOk resp then { con with clients := con.clients ++ [respClient resp] } else con

/-- `release_client_id`. -/
def releaseClientId (con : QmiProxyConnection) (resp : List UInt8) : QmiProxyConnection :=
  if respOk resp then { con with clients := con.clients.erase (respClient resp) } else con

/-- What a response does to the client ids of the connection it is sent to. -/
def registerResp (resp : List UInt8) (con : QmiProxyConnection) : QmiProxyConnection :=
  if qmiCtlType resp = qmiCtlGetClientId then getClientId con resp
  else if qmiCtlType resp = qmiCtlReleaseClientId then releaseClientId con resp
  else con

/-- A response is sent to the connections with the descriptor of the request. -/
def forwardResp (p : Server) (clientfd : ℕ) (resp : List UInt8) : Server :=
  { p with
    connections := p.connections.map fun con ↦
      if con.clientFd = clientfd then registerResp resp con else con
    sent := p.sent ++ (p.connections.filter fun con ↦ con.clientFd = clientfd).map fun con ↦
      (con.qnode, resp) }

/-- The request at the head of the queue is written, if its connection is there. -/
def sendHead (writable : Bool) (p : Server) : Server :=
  match p.ctlMsg with
  | [] => p
  | msg :: _ =>
    if writable then
      { p with
        wdmCtl := p.wdmCtl ++
          (p.connections.filter fun con ↦ con.clientFd = msg.clientFd).map fun _ ↦ msg }
    else p

/-- A service message is sent once for each client id it is for. -/
def forwardData (p : Server) (qmi : List UInt8) : Server :=
  { p with
    sent := p.sent ++ p.connections.flatMap fun con ↦
      (con.clients.filter fun client ↦
        hdrQmiType qmi = client.qmiType ∧
          (hdrClientId qmi = 0 ∨ hdrClientId qmi = client.clientId)).map fun _ ↦
        (con.qnode, qmi) }

/-- A CTL response, which is taken for the answer to the head of the queue. -/
def takeResp (p : Server) (resp : List UInt8) : Server :=
  match p.ctlMsg with
  | [] => p
  | msg :: rest => { p.forwardResp msg.clientFd resp with ctlMsg := rest }

/-- `recv_qmi`. -/
def recvQmi (writable : Bool) (p : Server) (qmi : List UInt8) : Server :=
  if hdrQmiType qmi = qmuxTypeCtl then
    (if ctlFlags qmi = qmiCtlFlagRsp then p.takeResp qmi else p).sendHead writable
  else p.forwardData qmi

/-- The connection a message read from the descriptor comes from. -/
def issuer (p : Server) (fd : ℕ) : Option ℕ :=
  (p.connections.find? fun con ↦ con.fd = fd).map QmiProxyConnection.qnode

/-- The `QMI_PROXY_MSG` made of a request, for which there is memory. -/
def clientMsg (p : Server) (clientfd : ℕ) (qmi : List UInt8) : QmiProxyMsg :=
  { qnode := p.fresh, issuer := p.issuer clientfd, clientFd := clientfd % 256, qmi := qmi }

/-- `send_qmi`. A new request is written if the queue is empty, and appended to it. -/
def sendQmi (writable : Bool) (p : Server) (qmi : List UInt8) (clientfd : ℕ) : Server :=
  if hdrQmiType qmi = qmuxTypeCtl then
    { p with
      ctlMsg := p.ctlMsg ++ [p.clientMsg clientfd qmi]
      wdmCtl := if p.ctlMsg.isEmpty ∧ writable then p.wdmCtl ++ [p.clientMsg clientfd qmi]
        else p.wdmCtl }
  else if writable then { p with wdmData := p.wdmData ++ [qmi] }
  else p

/-- The handling of a message read from the device in `qmi_proxy_loop`. -/
def onDev (writable : Bool) (p : Server) (qmi : List UInt8) : Server :=
  if qmi.length ≠ hdrLength qmi + 1 then p else p.recvQmi writable qmi

/-- The handling of what is read from a client in `qmi_proxy_loop`. -/
def onClient (writable : Bool) (p : Server) (fd : ℕ) (qmi : List UInt8) : Server :=
  let p' := if qmi.length ≠ hdrLength qmi + 1 then p else p.sendQmi writable qmi fd
  { p' with fresh := p.fresh + 1 }

end Server

/-! ## The system -/

/-- The server with the device and the clients. -/
structure ServerSys where
  server : Server
  /-- The number of requests the device has answered: it answers in order. -/
  answers : ℕ
  /-- The CTL requests of the clients. -/
  issued : List QmiProxyMsg

/-- The requests that the device has yet to answer. -/
def ServerSys.unanswered (s : ServerSys) : List QmiProxyMsg := s.server.wdmCtl.drop s.answers

inductive ServerEvent
  | /-- `accept` returns `fd`. -/
    accept (fd : ℕ) (malloc : Bool)
  | /-- A read from a client, which starts with a message of it. -/
    client (fd : ℕ) (qmi : List UInt8)
  | /-- A client disconnects. -/
    disconnect (fd : ℕ)
  | /-- The device answers the oldest request. -/
    response (qmi : List UInt8)
  | /-- The device sends anything else: a service message or an indication. -/
    unsolicited (qmi : List UInt8)
  deriving DecidableEq

/-- An event, and whether the device takes what is written to it. -/
structure ServerStep where
  event : ServerEvent
  writable : Bool
  deriving DecidableEq

/-- The response is one to the request. -/
structure Answers (qmi : List UInt8) (msg : QmiProxyMsg) : Prop where
  length : qmi.length = hdrLength qmi + 1
  ctl : hdrQmiType qmi = qmuxTypeCtl
  rsp : ctlFlags qmi = qmiCtlFlagRsp
  transactionId : transactionId qmi = transactionId msg.qmi
  qmiCtlType : qmiCtlType qmi = qmiCtlType msg.qmi

instance (qmi : List UInt8) (msg : QmiProxyMsg) : Decidable (Answers qmi msg) :=
  decidable_of_iff
    (qmi.length = hdrLength qmi + 1 ∧ hdrQmiType qmi = qmuxTypeCtl ∧ ctlFlags qmi = qmiCtlFlagRsp ∧
      transactionId qmi = transactionId msg.qmi ∧ qmiCtlType qmi = qmiCtlType msg.qmi)
    ⟨fun ⟨h₁, h₂, h₃, h₄, h₅⟩ ↦ ⟨h₁, h₂, h₃, h₄, h₅⟩,
      fun ⟨h₁, h₂, h₃, h₄, h₅⟩ ↦ ⟨h₁, h₂, h₃, h₄, h₅⟩⟩

/-- The kernel does not give a descriptor that is open; the loop polls what it has kept of the
first ones. -/
def ServerStep.Enabled (s : ServerSys) (step : ServerStep) : Prop :=
  match step.event with
  | .accept fd _ => ∀ con ∈ s.server.connections, con.fd ≠ fd
  | .client fd _ =>
    (∃ con ∈ s.server.polled, con.clientFd = fd) ∧ ∃ con ∈ s.server.connections, con.fd = fd
  | .disconnect fd => ∃ con ∈ s.server.polled, con.clientFd = fd
  | .response qmi => ∃ msg ∈ s.unanswered.head?, Answers qmi msg
  | .unsolicited qmi => ¬ (hdrQmiType qmi = qmuxTypeCtl ∧ ctlFlags qmi = qmiCtlFlagRsp)

instance (s : ServerSys) : (step : ServerStep) → Decidable (step.Enabled s)
  | ⟨.accept _ _, _⟩ => inferInstanceAs (Decidable (∀ con ∈ s.server.connections, _))
  | ⟨.client _ _, _⟩ => inferInstanceAs (Decidable (_ ∧ _))
  | ⟨.disconnect _, _⟩ => inferInstanceAs (Decidable (∃ con ∈ s.server.polled, _))
  | ⟨.response _, _⟩ => inferInstanceAs (Decidable (∃ msg ∈ s.unanswered.head?, _))
  | ⟨.unsolicited _, _⟩ => inferInstanceAs (Decidable (¬ _))

/-- One round of the event loop. -/
def ServerStep.next (s : ServerSys) (step : ServerStep) : ServerSys :=
  match step.event with
  | .accept fd malloc => { s with server := s.server.acceptQmiConnection fd malloc }
  | .client fd qmi =>
    { s with
      server := s.server.onClient step.writable fd qmi
      issued := if hdrQmiType qmi = qmuxTypeCtl then s.issued ++ [s.server.clientMsg fd qmi]
        else s.issued }
  | .disconnect fd => { s with server := s.server.cleanupQmiConnection fd }
  | .response qmi =>
    { s with server := s.server.onDev step.writable qmi, answers := s.answers + 1 }
  | .unsolicited qmi => { s with server := s.server.onDev step.writable qmi }

/-- The server with its socket open, before the first client. -/
def serverSystem : System ServerSys ServerStep where
  init :=
    { server :=
        { connections := []
          ctlMsg := []
          fresh := 0
          wdmCtl := []
          wdmData := []
          sent := [] }
      answers := 0
      issued := [] }
  enabled := ServerStep.Enabled
  next := ServerStep.next

instance (s : ServerSys) (step : ServerStep) : Decidable (serverSystem.enabled s step) :=
  inferInstanceAs (Decidable (step.Enabled s))

end Wwan.FibocomDial.QmimsgServer
