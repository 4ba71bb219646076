import Wwan.Lib.IdCells
import Wwan.QmiProxy.Proxy

/-!
# `quectel-qrtr-proxy`

The proxy gives clients of a local socket access to the QMI services that a modem announces over
QRTR. It hands out the client ids itself: a client id of a connection has a QRTR port, and
messages are sent from there to the port of the service.

The functions of the source are state transformers on `Proxy`. What they send is returned. Whether
it is written depends on `poll` and `write`, and no caller notices.
-/

namespace Wwan.QrtrProxy

open Wwan.Bytes
open Wwan.QmiProxy (qmiByte qmiShort hdrLength hdrQmiType hdrClientId transactionId qmiCtlType
  qmuxTypeCtl qmiCtlFlagRsp qmiCtlGetClientId qmiCtlReleaseClientId qmiCtlSyncReq)

/-! ## QRTR -/

/-- `enum qrtr_pkt_type`; no other type is looked at. -/
def qrtrTypeData : UInt32 := 1
def qrtrTypeHello : UInt32 := 2
def qrtrTypeNewServer : UInt32 := 4
def qrtrTypeDelServer : UInt32 := 5
def qrtrTypeDelClient : UInt32 := 6
def qrtrTypeResumeTx : UInt32 := 7

def qrtrNodeBcast : UInt32 := 0xffffffff
def qrtrPortCtrl : UInt32 := 0xfffffffe

/-- `struct sockaddr_qrtr` -/
structure SockaddrQrtr where
  node : UInt32
  port : UInt32
  deriving DecidableEq

/-- `struct qrtr_hdr_v1` and the bytes behind it, `size` of which are the payload. -/
structure QrtrPacket where
  type : UInt32
  src : SockaddrQrtr
  dst : SockaddrQrtr
  confirm_rx : Bool
  size : ℕ
  payload : List UInt8
  deriving DecidableEq

/-- `struct qrtr_ctrl_pkt` -/
def qrtrCtrlPkt (cmd : UInt32) (words : List UInt32) : List UInt8 :=
  (cmd :: words).flatMap fun word ↦ toLe32 word.toNat

/-- A field of a `struct qrtr_ctrl_pkt`. -/
def ctrlField (payload : List UInt8) (offset : ℕ) : UInt32 :=
  UInt32.ofNat (qmiShort payload offset + qmiShort payload (offset + 2) * 65536)

/-! ## State -/

/-- `QRTR_PROXY_CLINET` -/
structure QrtrProxyClient where
  QMIType : UInt8
  ClientId : UInt8
  node_id : UInt32
  port_id : UInt32
  deriving DecidableEq

/-- `QRTR_PROXY_CONNECTION` -/
structure QrtrProxyConnection where
  ClientFd : ℤ
  client_qnode : List QrtrProxyClient
  deriving DecidableEq

/-- `QRTR_SERVICE` -/
structure QrtrService where
  service : UInt32
  version : UInt32
  instance' : UInt32
  node : UInt32
  port : UInt32
  src : SockaddrQrtr
  deriving DecidableEq

structure Proxy where
  qrtr_proxy_connection : List QrtrProxyConnection
  qrtr_server_list : List QrtrService
  client_bitmap : List UInt8
  port_bitmap : List UInt8
  deriving DecidableEq

/-- What is sent. -/
inductive Output
  | toClient (fd : ℤ) (pQMI : List UInt8)
  | toDev (hdr : QrtrPacket)
  deriving DecidableEq

def nodeMyself : UInt32 := 1
def nodeModem : UInt32 := 3

/-- The state before the first client. -/
def Proxy.init : Proxy where
  qrtr_proxy_connection := []
  qrtr_server_list := []
  client_bitmap := List.replicate 0xf0 0
  port_bitmap := List.replicate 0xff0 0

/-- `qrtr_node_enqueue` -/
def qrtrNodeEnqueue (data : List UInt8) (type : UInt32) (src dst : SockaddrQrtr) : Output :=
  .toDev ⟨type, src, dst, false, data.length, data⟩

def sendCtrlHello (dst : SockaddrQrtr) : Output :=
  qrtrNodeEnqueue (qrtrCtrlPkt qrtrTypeHello [0, 0, 0, 0]) qrtrTypeHello
    ⟨nodeMyself, qrtrPortCtrl⟩ dst

/-! ## Responses of the proxy -/

def qmiCtlGetVersionReq : ℕ := 0x0021

/-- A response to a CTL request, with the result and one more TLV. -/
def ctlRsp (pQMI : List UInt8) (QMUXResult QMUXError : ℕ) (TLV2 : List UInt8) : List UInt8 :=
  0x01 :: toLe16 (13 + TLV2.length + 6 - 1) ++ [0x00, qmuxTypeCtl, 0x00] ++
    [qmiCtlFlagRsp, transactionId pQMI, qmiByte pQMI 8, qmiByte pQMI 9] ++
    toLe16 (13 + TLV2.length - 6) ++
    [0x02, 4, 0] ++ toLe16 QMUXResult ++ toLe16 QMUXError ++ TLV2

/-- `GetClientIdReq.QMIType` and `ReleaseClientIdReq.QMIType` -/
def reqQmiType (pQMI : List UInt8) : UInt8 := qmiByte pQMI 15

/-- `ReleaseClientIdReq.ClientId` -/
def reqClientId (pQMI : List UInt8) : UInt8 := qmiByte pQMI 16

/-- `QMI_RESULT_FAILURE` and `QMI_ERR_INTERNAL` if there is no id. -/
def getClientIdRsp (pQMI : List UInt8) (ClientId : UInt8) : List UInt8 :=
  ctlRsp pQMI (if ClientId ≠ 0 then 0 else 1) (if ClientId ≠ 0 then 0 else 3)
    [0x01, 2, 0, reqQmiType pQMI, ClientId]

def releaseClientIdRsp (pQMI : List UInt8) : List UInt8 :=
  ctlRsp pQMI 0 0 [0x01, 2, 0, reqQmiType pQMI, reqClientId pQMI]

def getVersionRsp (pQMI : List UInt8) : List UInt8 :=
  ctlRsp pQMI 0 0 [0x01, 1, 0, 0]

/-- A message for a client id, with the payload of a packet. -/
def dataMsg (client : QrtrProxyClient) (hdr : QrtrPacket) : List UInt8 :=
  0x01 :: toLe16 (hdr.size + 6 - 1) ++ [0x00, client.QMIType, client.ClientId] ++
    hdr.payload.take hdr.size

namespace Proxy

variable (p : Proxy)

/-! ## Services -/

def findQrtrService (QMIType : UInt8) : Option QrtrService :=
  p.qrtr_server_list.find? fun srv ↦ srv.service.toNat = QMIType.toNat

/-- The entry that `handle_server_change` makes of a packet. -/
def newService (hdr : QrtrPacket) : QrtrService where
  service := ctrlField hdr.payload 4
  version := ctrlField hdr.payload 8 &&& 0xff
  instance' := ctrlField hdr.payload 8 >>> 8
  node := ctrlField hdr.payload 12
  port := ctrlField hdr.payload 16
  src := hdr.src

/-- `handle_server_change`. For `QRTR_TYPE_DEL_SERVER` the entry that was just allocated is removed
from the list that it is the only item of. -/
def handleServerChange (hdr : QrtrPacket) (malloc : Bool) : Proxy :=
  if ctrlField hdr.payload 12 ≠ nodeModem then p
  else if ¬malloc then p
  else if hdr.type = qrtrTypeNewServer then
    { p with qrtr_server_list := p.qrtr_server_list ++ [newService hdr] }
  else p

/-! ## Ids -/

def allocClientId : ℕ × Proxy :=
  let (id, client_bitmap) := IdCells.alloc p.client_bitmap
  (id, { p with client_bitmap })

def freeClientId (id : ℕ) : Proxy :=
  { p with client_bitmap := IdCells.free p.client_bitmap id }

def allocPortId : ℕ × Proxy :=
  let (id, port_bitmap) := IdCells.alloc p.port_bitmap
  (id, { p with port_bitmap })

def freePortId (id : ℕ) : Proxy :=
  { p with port_bitmap := IdCells.free p.port_bitmap id }

/-- `ctrl_cmd_del_client` -/
def ctrlCmdDelClient (src : SockaddrQrtr) (QMIType : UInt8) : Output :=
  let node := (p.findQrtrService QMIType).elim qrtrNodeBcast fun srv ↦ srv.src.node
  qrtrNodeEnqueue (qrtrCtrlPkt qrtrTypeDelClient [src.node, src.port, 0, 0]) qrtrTypeData src
    ⟨node, qrtrPortCtrl⟩

/-! ## Connections

A function of the source that takes a connection is given the client ids of it and returns them. -/

/-- The first connection with the descriptor. -/
def connection (clientfd : ℤ) : Option QrtrProxyConnection :=
  p.qrtr_proxy_connection.find? fun con ↦ con.ClientFd = clientfd

/-- The client ids of the first connection with the descriptor are changed. -/
def setClients (clientfd : ℤ) (clients : List QrtrProxyClient) :
    List QrtrProxyConnection → List QrtrProxyConnection
  | [] => []
  | con :: cons =>
    if con.ClientFd = clientfd then { con with client_qnode := clients } :: cons
    else con :: setClients clientfd clients cons

/-- `alloc_qrtr_client_id` -/
def allocQrtrClientId (clients : List QrtrProxyClient) (QMIType : UInt8) :
    UInt8 × Proxy × List QrtrProxyClient :=
  let (id, p) := p.allocClientId
  let (port, p) := p.allocPortId
  let client : QrtrProxyClient :=
    { QMIType
      ClientId := UInt8.ofNat id
      node_id := 1
      port_id := UInt32.ofNat port }
  (client.ClientId, p, clients ++ [client])

/-- The request is for this client id. -/
def Matches (QMIType ClientId : UInt8) (client : QrtrProxyClient) : Prop :=
  QMIType = client.QMIType ∧ ClientId = client.ClientId

instance (QMIType ClientId : UInt8) (client : QrtrProxyClient) :
    Decidable (Matches QMIType ClientId client) :=
  inferInstanceAs (Decidable (_ ∧ _))

/-- `release_qrtr_client_id` -/
def releaseQrtrClientId (clients : List QrtrProxyClient) (QMIType ClientId : UInt8) :
    Proxy × List QrtrProxyClient × List Output :=
  match clients.find? fun client ↦ Matches QMIType ClientId client with
  | none => (p, clients, [])
  | some client =>
    ((p.freeClientId client.ClientId.toNat).freePortId client.port_id.toNat,
      clients.eraseP fun client ↦ Matches QMIType ClientId client,
      [p.ctrlCmdDelClient ⟨client.node_id, client.port_id⟩ client.QMIType])

/-- `accept_qrtr_connection` -/
def acceptQrtrConnection (clientfd : ℤ) (malloc : Bool) : Proxy :=
  if malloc then
    { p with qrtr_proxy_connection := p.qrtr_proxy_connection ++ [⟨clientfd, []⟩] }
  else p

/-- The loop of `cleanup_qrtr_connection`: the head is released, until there is none. -/
def releaseClients (p : Proxy) : List QrtrProxyClient → Proxy × List Output
  | [] => (p, [])
  | client :: clients =>
    -- The head is the first that matches itself.
    let (p, _, out) := p.releaseQrtrClientId (client :: clients) client.QMIType client.ClientId
    let (p, outs) := p.releaseClients clients
    (p, out ++ outs)

/-- `cleanup_qrtr_connection` -/
def cleanupQrtrConnection (clientfd : ℤ) : Proxy × List Output :=
  match p.connection clientfd with
  | none => (p, [])
  | some con =>
    let (p, out) := p.releaseClients con.client_qnode
    ({ p with
        qrtr_proxy_connection := p.qrtr_proxy_connection.eraseP fun con ↦ con.ClientFd = clientfd },
      out)

/-! ## Messages -/

/-- `recv_qrtr_from_dev` -/
def recvQrtrFromDev (hdr : QrtrPacket) (malloc : Bool) : Proxy × List Output :=
  if hdr.type = qrtrTypeHello then (p, [sendCtrlHello hdr.src])
  else if hdr.type = qrtrTypeNewServer ∨ hdr.type = qrtrTypeDelServer then
    (p.handleServerChange hdr malloc, [])
  else if hdr.type = qrtrTypeData then
    let data := p.qrtr_proxy_connection.flatMap fun con ↦
      (con.client_qnode.filter fun client ↦
        client.node_id = hdr.dst.node ∧ client.port_id = hdr.dst.port).map fun client ↦
          Output.toClient con.ClientFd (dataMsg client hdr)
    let resume := qrtrNodeEnqueue
      (qrtrCtrlPkt qrtrTypeResumeTx [hdr.dst.node, hdr.dst.port, 0, 0]) qrtrTypeResumeTx
      hdr.dst hdr.src
    (p, data ++ if hdr.confirm_rx then [resume] else [])
  else (p, [])

/-- `QMICTL_GET_CLIENT_ID_REQ`: an id is allocated if the service is known. -/
def getClientId (con : QrtrProxyConnection) (pQMI : List UInt8) : Proxy × List Output :=
  match p.findQrtrService (reqQmiType pQMI) with
  | none => (p, [.toClient con.ClientFd (getClientIdRsp pQMI 0)])
  | some _ =>
    let (ClientId, p, clients) := p.allocQrtrClientId con.client_qnode (reqQmiType pQMI)
    ({ p with
        qrtr_proxy_connection := setClients con.ClientFd clients p.qrtr_proxy_connection },
      [.toClient con.ClientFd (getClientIdRsp pQMI ClientId)])

/-- `QMICTL_RELEASE_CLIENT_ID_REQ`; memory is for the response only. -/
def releaseClientId (con : QrtrProxyConnection) (pQMI : List UInt8) (malloc : Bool) :
    Proxy × List Output :=
  let (p, clients, out) :=
    p.releaseQrtrClientId con.client_qnode (reqQmiType pQMI) (reqClientId pQMI)
  ({ p with
      qrtr_proxy_connection := setClients con.ClientFd clients p.qrtr_proxy_connection },
    out ++ if malloc then [.toClient con.ClientFd (releaseClientIdRsp pQMI)] else [])

/-- A service message is sent to the port of the service. -/
def forwardQmi (con : QrtrProxyConnection) (pQMI : List UInt8) : List Output :=
  match con.client_qnode.find? fun client ↦ Matches (hdrQmiType pQMI) (hdrClientId pQMI) client with
  | none => []
  | some client =>
    match p.findQrtrService (hdrQmiType pQMI) with
    | none => []
    | some srv =>
      if srv.service ≠ 0 then
        [qrtrNodeEnqueue ((pQMI.drop 6).take (hdrLength pQMI + 1 - 6)) qrtrTypeData
          ⟨client.node_id, client.port_id⟩ ⟨srv.node, srv.port⟩]
      else []

/-- `recv_qmi_from_client` -/
def recvQmiFromClient (pQMI : List UInt8) (clientfd : ℤ) (malloc : Bool) : Proxy × List Output :=
  match p.connection clientfd with
  | none => (p, [])
  | some con =>
    if hdrQmiType pQMI = qmuxTypeCtl then
      if qmiCtlType pQMI = qmiCtlSyncReq then (p, [])
      else if qmiCtlType pQMI = qmiCtlGetClientId then
        if malloc then p.getClientId con pQMI else (p, [])
      else if qmiCtlType pQMI = qmiCtlReleaseClientId then p.releaseClientId con pQMI malloc
      else if qmiCtlType pQMI = qmiCtlGetVersionReq then
        (p, if malloc then [.toClient clientfd (getVersionRsp pQMI)] else [])
      else (p, [])
    else (p, p.forwardQmi con pQMI)

end Proxy

/-! ## `qrtr_proxy_loop` -/

/-- What the loop reacts to. `malloc` is whether there is memory for the one allocation that
matters. -/
inductive ProxyEvent
  | /-- `accept` returns a descriptor, or -1. -/
    accept (clientfd : ℤ) (malloc : Bool)
  | /-- A client has written, and `rx_buf` holds this after the read. -/
    client (clientfd : ℤ) (nreads : ℕ) (rx_buf : List UInt8) (malloc : Bool)
  | /-- A client has gone. -/
    cleanup (clientfd : ℤ)
  | /-- The device has sent a packet. -/
    dev (hdr : QrtrPacket) (malloc : Bool)
  | /-- The loop ends. -/
    exit
  deriving DecidableEq

namespace Proxy

/-- One more connection is cleaned up. -/
def cleanupNext (r : Proxy × List Output) (con : QrtrProxyConnection) : Proxy × List Output :=
  let (p, out) := r.1.cleanupQrtrConnection con.ClientFd
  (p, r.2 ++ out)

/-- `qrtr_proxy_loop_exit`: the connections are cleaned up one after the other. -/
def loopExit (p : Proxy) : Proxy × List Output :=
  p.qrtr_proxy_connection.foldl cleanupNext (p, [])

/-- What an event does. -/
def step (p : Proxy) : ProxyEvent → Proxy × List Output
  | .accept clientfd malloc => (p.acceptQrtrConnection clientfd malloc, [])
  | .client clientfd nreads rx_buf malloc =>
    if nreads = hdrLength rx_buf + 1 then p.recvQmiFromClient rx_buf clientfd malloc else (p, [])
  | .cleanup clientfd => p.cleanupQrtrConnection clientfd
  | .dev hdr malloc => p.recvQrtrFromDev hdr malloc
  | .exit => p.loopExit

theorem step_client (p : Proxy) (clientfd : ℤ) (nreads : ℕ) (rx_buf : List UInt8) (malloc : Bool) :
    p.step (.client clientfd nreads rx_buf malloc) =
      if nreads = hdrLength rx_buf + 1 then p.recvQmiFromClient rx_buf clientfd malloc
      else (p, []) := rfl

end Proxy

/-- Any event may come at any time. -/
def proxySystem : System Proxy ProxyEvent where
  init := .init
  enabled _ _ := True
  next p e := (p.step e).1

end Wwan.QrtrProxy
