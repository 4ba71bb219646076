import Wwan.QuectelCm.MbimTransact

/-!
# The request functions of `mbim-cm.c`

Each function composes one command, sends it, and checks the completion with the macro
`mbim_check_err`, which frees the completion if it does not go on.
-/

namespace Wwan.QuectelCm

open Bytes MbimProxy

/-! ## Services and commands -/

/-- `UUID_BASIC_CONNECT_EXT` -/
def uuidBasicConnectExt : List UInt8 :=
  [0x3d, 0x01, 0xdc, 0xc5, 0xfe, 0xf5, 0x4d, 0x05, 0x0d, 0x3a, 0xbe, 0xf7, 0x05, 0x8e, 0x9a, 0xaf]

/-- `uuid_ext_qmux` -/
def uuidExtQmux : List UInt8 :=
  [0xd1, 0xa3, 0x0b, 0xc2, 0xf9, 0x7a, 0x6e, 0x43, 0xbf, 0x65, 0xc7, 0xe2, 0x4f, 0xb0, 0xf0, 0xd3]

/-- `UUID_LIBMBIM_PROXY` -/
def uuidLibmbimProxy : List UInt8 :=
  [0x83, 0x8c, 0xf7, 0xfb, 0x8d, 0x0d, 0x4d, 0x7f, 0x87, 0x1e, 0xd7, 0x1d, 0xbe, 0xfb, 0xb3, 0x9b]

def mbimCidDeviceCaps : UInt32 := 1
def mbimCidSubscriberReadyStatus : UInt32 := 2
def mbimCidRadioState : UInt32 := 3
def mbimCidRegisterState : UInt32 := 9
def mbimCidPacketService : UInt32 := 10
def mbimCidConnect : UInt32 := 12
def mbimCidIpConfiguration : UInt32 := 15
def mbimCidDeviceServices : UInt32 := 16
def mbimCidMsVersion : UInt32 := 15
def mbimCidProxyControlConfiguration : UInt32 := 1

/-- `MBIM_CID_CMD_TYPE_QUERY`, `MBIM_CID_CMD_TYPE_SET` -/
def mbimCidCmdTypeQuery : UInt32 := 0
def mbimCidCmdTypeSet : UInt32 := 1

/-- `compose_basic_connect_command` for a query. -/
def query (cid : UInt32) (informationBuffer : List UInt8) : Command :=
  .commandMsg uuidBasicConnect cid mbimCidCmdTypeQuery informationBuffer

/-- `compose_basic_connect_command` for a command that sets something. -/
def set (cid : UInt32) (informationBuffer : List UInt8) : Command :=
  .commandMsg uuidBasicConnect cid mbimCidCmdTypeSet informationBuffer

/-! ## The functions -/

/-- What most functions do with a completion: they take something from it, and free it. -/
def takeInfo (f : MbimMessage → MbimGlobals → MbimGlobals) (b : ℕ) (msg : MbimMessage) :
    MbimProg ℤ := do
  if informationBufferLength msg ≠ 0 then updateGlobals (f msg)
  freeMessage b
  return 0

/-- The body of `mbim_open_device` and of `mbim_close_device`. -/
def returnStatus (b : ℕ) (msg : MbimMessage) : MbimProg ℤ := do
  freeMessage b
  return int32 (field32 msg.payload 0)

def mbimOpenDevice (maxControlTransfer : UInt32) : MbimProg ℤ :=
  mbimRequest true false (.openMsg maxControlTransfer) returnStatus

def mbimCloseDevice : MbimProg ℤ := mbimRequest true false .closeMsg returnStatus

/-- `mbim_query_connect`; what follows `SessionId` in `set_connect` is not initialised. -/
def mbimQueryConnect (sessionID : UInt32) (rest : List UInt8) : MbimProg ℤ :=
  mbimRequest true false (query mbimCidConnect (toLe32 sessionID.toNat ++ rest)) <|
    takeInfo fun msg g ↦
      { g with state.activationState := informationField msg 4 }.mbimUpdateState

def mbimMsVersionQuery (checked : Bool) : MbimProg ℤ :=
  mbimRequest checked false
    (.commandMsg uuidBasicConnectExt mbimCidMsVersion mbimCidCmdTypeQuery [0, 1, 0, 2]) <|
    takeInfo fun msg g ↦ { g with mbim_ms_version := (msg.payload.getD 39 0).toNat }

/-- An element of the list of `mbim_device_services_query`. -/
def deviceService (info : List UInt8) (i : ℕ) : List UInt8 :=
  info.drop (field32 info (8 + 8 * i))

/-- `mbim_v2_support` -/
def mbimV2Support (msg : MbimMessage) : Bool :=
  let info := msg.payload.drop 36
  (List.range (field32 info 0)).any fun i ↦
    let pSrvEle := deviceService info i
    pSrvEle.take 16 = uuidBasicConnectExt ∧
      (List.range (field32 pSrvEle 24)).any fun cid ↦
        field32 pSrvEle (28 + 4 * cid) = mbimCidMsVersion.toNat

/-- `qmi_over_mbim_support` -/
def qmiOverMbimSupport (msg : MbimMessage) : Bool :=
  let info := msg.payload.drop 36
  (List.range (field32 info 0)).any fun i ↦ (deviceService info i).take 16 = uuidExtQmux

def mbimDeviceServicesQuery : MbimProg ℤ :=
  mbimRequest true false (query mbimCidDeviceServices []) fun b msg ↦ do
    if informationBufferLength msg ≠ 0 then
      updateGlobals fun g ↦
        { g with qmi_over_mbim_support := g.qmi_over_mbim_support || qmiOverMbimSupport msg }
    freeMessage b
    if informationBufferLength msg ≠ 0 ∧ mbimV2Support msg then
      -- its failure is not passed on
      let _ ← mbimMsVersionQuery false
      return 0
    else return 0

/-- `mbim_device_caps_query`, which copies a text for the log. -/
def mbimDeviceCapsQuery : MbimProg ℤ :=
  mbimRequest true false (query mbimCidDeviceCaps []) <| takeInfo fun _ g ↦ g

def mbimSetRadioState (radioState : UInt32) : MbimProg ℤ :=
  mbimRequest true false (set mbimCidRadioState (toLe32 radioState.toNat)) <|
    takeInfo fun _ g ↦ g

def mbimSubscriberStatusQuery : MbimProg ℤ :=
  mbimRequest true false (query mbimCidSubscriberReadyStatus []) <| takeInfo fun msg g ↦
    { g with state.readyState := informationField msg 0 }.mbimUpdateState

def mbimRegisterStateQuery : MbimProg ℤ :=
  mbimRequest true false (query mbimCidRegisterState []) <| takeInfo fun msg g ↦
    { g with state.registerState := informationField msg 4 }.mbimUpdateState

def mbimPacketServiceQuery : MbimProg ℤ :=
  mbimRequest true false (query mbimCidPacketService []) <| takeInfo fun msg g ↦
    { g with state.packetServiceState := informationField msg 4 }.mbimUpdateState

def mbimPacketServiceSet (action : UInt32) : MbimProg ℤ :=
  mbimRequest true false (set mbimCidPacketService (toLe32 action.toNat)) <| takeInfo fun msg g ↦
    { g with state.packetServiceState := informationField msg 4 }.mbimUpdateState

/-- `mbim_set_connect`, with what `mbim_populate_connect_data` and it put into the buffer. -/
def mbimSetConnect (set_connect : List UInt8) : MbimProg ℤ :=
  .op .alloc fun memory ↦
    if memory then
      mbimRequest true false (set mbimCidConnect set_connect) <| takeInfo fun msg g ↦
        { g with state.activationState := informationField msg 4 }.mbimUpdateState
    else .ret enomem

/-- `mbim_ip_config`, which does not free the completion. -/
def mbimIpConfig (ip_info : List UInt8) : MbimProg ℤ :=
  mbimRequest true true (query mbimCidIpConfiguration ip_info) fun _ _ ↦ return 0

def mbimProxyConfigure (cfg : List UInt8) : MbimProg ℤ :=
  mbimRequest true false
    (.nullMsg uuidLibmbimProxy mbimCidProxyControlConfiguration mbimCidCmdTypeSet cfg)
    fun b _ ↦ do
      freeMessage b
      return 0

/-- `pQMI->QMIHdr.ClientId`, as `qmi_over_mbim_qmidev_send` sets it. -/
def overMbimClientId (qmi_over_mbim_nas : UInt8) (pQMI : List UInt8) : UInt8 :=
  if byteAt pQMI 4 = qmuxTypeNas then qmi_over_mbim_nas else byteAt pQMI 5

def qmiOverMbimQmidevSend (qmi_over_mbim_nas : UInt8) (pQMI : List UInt8) : MbimProg ℤ :=
  let clientId := overMbimClientId qmi_over_mbim_nas pQMI
  if byteAt pQMI 4 ≠ qmuxTypeCtl ∧ clientId = 0 then .ret (-enodev)
  else
    mbimRequest true false (.commandMsg uuidExtQmux 1 mbimCidCmdTypeSet (pQMI.set 5 clientId))
      fun b msg ↦
        if informationBufferLength msg ≠ 0 then
          .op .write fun ret ↦ do
            freeMessage b
            return if ret = informationBufferLength msg then 0 else -1
        else do
          freeMessage b
          return -1

/-- The request functions. -/
inductive MbimRequestOp
  | openDevice (maxControlTransfer : UInt32)
  | closeDevice
  | queryConnect (sessionID : UInt32) (rest : List UInt8)
  | msVersionQuery
  | deviceServicesQuery
  | deviceCapsQuery
  | setRadioState (radioState : UInt32)
  | subscriberStatusQuery
  | registerStateQuery
  | packetServiceQuery
  | packetServiceSet (action : UInt32)
  | setConnect (set_connect : List UInt8)
  | ipConfig (ip_info : List UInt8)
  | proxyConfigure (cfg : List UInt8)
  | qmiOverMbim (qmi_over_mbim_nas : UInt8) (pQMI : List UInt8)
  deriving DecidableEq

/-- The program of a request function. -/
def MbimRequestOp.prog : MbimRequestOp → MbimProg ℤ
  | openDevice maxControlTransfer => mbimOpenDevice maxControlTransfer
  | closeDevice => mbimCloseDevice
  | queryConnect sessionID rest => mbimQueryConnect sessionID rest
  | msVersionQuery => mbimMsVersionQuery true
  | deviceServicesQuery => mbimDeviceServicesQuery
  | deviceCapsQuery => mbimDeviceCapsQuery
  | setRadioState radioState => mbimSetRadioState radioState
  | subscriberStatusQuery => mbimSubscriberStatusQuery
  | registerStateQuery => mbimRegisterStateQuery
  | packetServiceQuery => mbimPacketServiceQuery
  | packetServiceSet action => mbimPacketServiceSet action
  | setConnect set_connect => mbimSetConnect set_connect
  | ipConfig ip_info => mbimIpConfig ip_info
  | proxyConfigure cfg => mbimProxyConfigure cfg
  | qmiOverMbim qmi_over_mbim_nas pQMI => qmiOverMbimQmidevSend qmi_over_mbim_nas pQMI

end Wwan.QuectelCm
