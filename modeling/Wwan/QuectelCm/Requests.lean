import Wwan.QuectelCm.Transact
import Wwan.QuectelCm.WdsRequests

/-!
# The request functions

Each function of `qmi_request_ops` composes requests, sends them and checks the responses, most of
them with the macro `qmi_rsp_check_and_return`. The pointer `pResponse` is a local variable, so
that it is passed on here; a function that does not initialise it starts with a wild pointer.
-/

namespace Wwan.QuectelCm

open Bytes

/-! ## Sending and checking -/

section Check

variable {α : Type}

/-- `qmi_rsp_check_and_return`; `fail` says what the function returns with an error. -/
def qmiRspCheckAndReturn (fail : ℤ → α) (err : ℤ) (pResponse : Ptr)
    (k : List UInt8 → CmProg α) : CmProg α :=
  if err < 0 ∨ pResponse = .null then .ret (fail err)
  else do
    let msg ← readResponse pResponse
    if qmuxResult msg ≠ 0 ∨ qmuxError msg ≠ 0 then
      freeResponse pResponse
      return fail (qmuxError msg)
    else k msg

/-- A request is composed, sent and checked. -/
def request (use : Use) (QMIType : UInt8) (pResponse : Ptr) (fail : ℤ → α)
    (k : Ptr → List UInt8 → CmProg α) : CmProg α := do
  let pRequest ← composeQMUX QMIType
  let (err, pResponse) ← qmiThreadSendQMI use pRequest pResponse
  qmiRspCheckAndReturn fail err pResponse (k pResponse)

/-- `if (pResponse) free(pResponse);` -/
def freeIfPresent (pResponse : Ptr) : CmProg Unit :=
  if pResponse = .null then .ret () else freeResponse pResponse

/-- Requests whose response is only checked. -/
def plainRequest (use : Use) (QMIType : UInt8) : CmProg ℤ :=
  request use QMIType .wild id fun pResponse _ ↦ do
    freeResponse pResponse
    return 0

end Check

/-- The bytes of a TLV of a message, if there is one; a search that leaves the message finds
nothing. -/
def tlvBytes (msg : List UInt8) (TLVType : ℕ) : Option (List UInt8) :=
  match getTLV msg TLVType with
  | .tlv bytes => some bytes
  | _ => none

/-! ## State of the requests -/

/-- `IpFamilyV4`, `IpFamilyV6` -/
inductive IpFamily
  | v4
  | v6
  deriving DecidableEq

/-- The service for a family. -/
def IpFamily.QMIType : IpFamily → UInt8
  | .v4 => qmuxTypeWds
  | .v6 => qmuxTypeWdsIpv6

/-- The globals of the request functions. -/
structure Globals where
  s_9x07 : Bool
  s_is_cdma : Bool
  s_hdr_personality : UInt8
  WdsConnectionIPv4Handle : ℕ
  WdsConnectionIPv6Handle : ℕ
  deriving DecidableEq

namespace Globals

/-- The handle of a family. -/
def handle (g : Globals) : IpFamily → ℕ
  | .v4 => g.WdsConnectionIPv4Handle
  | .v6 => g.WdsConnectionIPv6Handle

def setHandle (g : Globals) (handle : ℕ) : IpFamily → Globals
  | .v4 => { g with WdsConnectionIPv4Handle := handle }
  | .v6 => { g with WdsConnectionIPv6Handle := handle }

@[simp] theorem handle_setHandle (g : Globals) (handle : ℕ) (f : IpFamily) :
    (g.setHandle handle f).handle f = handle := by
  cases f <;> rfl

theorem handle_setHandle_of_ne (g : Globals) (handle : ℕ) {f f' : IpFamily} (h : f' ≠ f) :
    (g.setHandle handle f).handle f' = g.handle f' := by
  cases f <;> cases f' <;> first | rfl | exact absurd rfl h

end Globals

/-- `PROFILE_T`, as far as the request functions use it. -/
structure ProfileT extends Profile where
  pdp : ℤ
  enable_ipv4 : Bool
  enable_ipv6 : Bool
  qmap_mode : ℤ
  wda_client : ℤ
  qmapnet_adapter : List UInt8
  qos_id : ℕ
  old_apn : List UInt8
  old_user : List UInt8
  old_password : List UInt8
  old_auth : ℤ
  old_iptype : ℤ
  deriving DecidableEq

/-- A profile for a data call for IPv4 and nothing else. -/
def ipv4Profile : ProfileT where
  apn := none
  user := none
  password := none
  auth := 0
  iptype := 0
  profile_index := 0
  curIpFamily := 4
  pdp := 1
  enable_ipv4 := true
  enable_ipv6 := false
  qmap_mode := 0
  wda_client := 0
  qmapnet_adapter := []
  qos_id := 0
  old_apn := []
  old_user := []
  old_password := []
  old_auth := 0
  old_iptype := 0

/-! ## Data calls -/

/-- `QWDS_PKT_DATA_UNKNOW`, `QWDS_PKT_DATA_DISCONNECTED` and `QWDS_PKT_DATA_CONNECTED` -/
def qwdsPktDataUnknow : UInt8 := 0x00
def qwdsPktDataDisconnected : UInt8 := 0x01
def qwdsPktDataConnected : UInt8 := 0x02

/-- The state of the call that a response to `QMIWDS_GET_PKT_SRVC_STATUS_REQ` reports. -/
def reportedStatus (msg : List UInt8) : UInt8 :=
  match tlvBytes msg 0x01 with
  | some pPktSrvc =>
    if field16 pPktSrvc 1 = 2 ∧ byteAt pPktSrvc 4 = 0x01 then qwdsPktDataDisconnected
    else byteAt pPktSrvc 3
  | none => qwdsPktDataDisconnected

/-- `requestQueryDataCall` -/
def requestQueryDataCall (g : Globals) (connectionStatus : UInt8) (curIpFamily : IpFamily) :
    CmProg (ℤ × UInt8 × Globals) :=
  request .checked curIpFamily.QMIType .wild (fun err ↦ (err, connectionStatus, g))
    fun pResponse msg ↦ do
      let connectionStatus := reportedStatus msg
      let g := if connectionStatus = qwdsPktDataDisconnected then g.setHandle 0 curIpFamily else g
      freeResponse pResponse
      return (0, connectionStatus, g)

/-- `StartNwInterfaceResp.Handle` -/
def startNwInterfaceHandle (msg : List UInt8) : ℕ :=
  le32 (byteAt msg 23) (byteAt msg 24) (byteAt msg 25) (byteAt msg 26)

/-- `requestSetupDataCall`. After `qmi_rsp_check`, which only logs what the modem refuses, the
function looks at the result itself. -/
def requestSetupDataCall (g : Globals) (curIpFamily : IpFamily) : CmProg (ℤ × Globals) := do
  let pRequest ← composeQMUX curIpFamily.QMIType
  let (err, pResponse) ← qmiThreadSendQMI .checked pRequest .wild
  if err < 0 ∨ pResponse = .null then return (err, g)
  else
    let msg ← readResponse pResponse
    if qmuxResult msg ≠ 0 ∨ qmuxError msg ≠ 0 then
      freeResponse pResponse
      return (qmuxError msg, g)
    else
      let g := g.setHandle (startNwInterfaceHandle msg) curIpFamily
      freeResponse pResponse
      return (0, g)

/-- The check that `requestSetupDataCall` spells out is the macro. -/
theorem requestSetupDataCall_eq (g : Globals) (f : IpFamily) :
    requestSetupDataCall g f = request .checked f.QMIType .wild (fun err ↦ (err, g))
      fun pResponse msg ↦ do
        freeResponse pResponse
        return (0, g.setHandle (startNwInterfaceHandle msg) f) := rfl

/-- `requestDeactivateDefaultPDP` -/
def requestDeactivateDefaultPDP (g : Globals) (curIpFamily : IpFamily) : CmProg (ℤ × Globals) :=
  if g.handle curIpFamily = 0 then .ret (0, g)
  else
    request .checked curIpFamily.QMIType .wild (fun err ↦ (err, g)) fun pResponse _ ↦ do
      let g := g.setHandle 0 curIpFamily
      freeResponse pResponse
      return (0, g)

/-- The address in a response to `QMIWDS_GET_RUNTIME_SETTINGS_REQ`. -/
def runtimeIpv4Address (msg : List UInt8) : Option ℕ :=
  (tlvBytes msg 0x1E).map fun bytes ↦
    le32 (byteAt bytes 3) (byteAt bytes 4) (byteAt bytes 5) (byteAt bytes 6)

/-- `requestGetIPAddress`, with `profile->ipv4.Address`. The address is cleared first if the
request is for IPv4, and taken from the response in both cases. -/
def requestGetIPAddress (g : Globals) (address : ℕ) (curIpFamily : IpFamily) : CmProg (ℤ × ℕ) :=
  let address := if curIpFamily = .v4 then 0 else address
  if g.handle curIpFamily = 0 then .ret (0, address)
  else
    request .checked curIpFamily.QMIType .wild (fun err ↦ (err, address)) fun pResponse msg ↦ do
      freeResponse pResponse
      return (0, (runtimeIpv4Address msg).getD address)

/-! ## Set-up of the device -/

/-- `requestSetEthMode` sets the preference for one family; only that for IPv6 is checked. -/
def setIpFamilyPreference (curIpFamily : IpFamily) (use : Use) (pResponse : Ptr)
    (k : Ptr → CmProg ℤ) : CmProg ℤ := do
  let pRequest ← composeQMUX curIpFamily.QMIType
  let (err, pResponse) ← qmiThreadSendQMI use pRequest pResponse
  if use = .checked then
    qmiRspCheckAndReturn id err pResponse fun _ ↦ do
      freeIfPresent pResponse
      k pResponse
  else
    freeIfPresent pResponse
    k pResponse

/-- The sends of `requestSetEthMode` for one family: the data port and the preference. -/
def ethModeIpFamily (p : ProfileT) (curIpFamily : IpFamily) (use : Use) (pResponse : Ptr)
    (k : Ptr → CmProg ℤ) : CmProg ℤ :=
  if p.qmapnet_adapter.isEmpty then setIpFamilyPreference curIpFamily use pResponse k
  else
    request .checked curIpFamily.QMIType pResponse id fun pResponse _ ↦ do
      freeIfPresent pResponse
      setIpFamilyPreference curIpFamily use pResponse k

/-- The end of `requestSetEthMode`: `QMIWDS_SET_AUTO_CONNECT_REQ`. -/
def setAutoConnect (pResponse : Ptr) : CmProg ℤ := do
  let pRequest ← composeQMUX qmuxTypeWds
  let (_, pResponse) ← qmiThreadSendQMI .ifPresent pRequest pResponse
  freeIfPresent pResponse
  return 0

/-- `requestSetEthMode` from `skip_WdaSetDataFormat` on. -/
def skipWdaSetDataFormat (p : ProfileT) (pResponse : Ptr) : CmProg ℤ :=
  let ipv6 : Ptr → CmProg ℤ := fun pResponse ↦
    if p.enable_ipv6 then ethModeIpFamily p .v6 .checked pResponse setAutoConnect
    else setAutoConnect pResponse
  if p.enable_ipv4 then ethModeIpFamily p .v4 .ifPresent pResponse ipv6 else ipv6 pResponse

/-- `requestSetEthMode` -/
def requestSetEthMode (p : ProfileT) : CmProg ℤ :=
  if p.qmap_mode ≠ 0 ∧ p.wda_client = 0 then skipWdaSetDataFormat p .null
  else
    request .checked qmuxTypeWdsAdmin .null id fun pResponse _ ↦ do
      freeResponse pResponse
      skipWdaSetDataFormat p pResponse

/-- `requestSetLoopBackState` writes to the request that it has composed. -/
def requestSetLoopBackState : CmProg ℤ := do
  let pRequest ← composeQMUX qmuxTypeWdsAdmin
  if pRequest.isNone then .op .crash fun _ ↦ .ret 0
  else
    let (err, pResponse) ← qmiThreadSendQMI .checked pRequest .wild
    qmiRspCheckAndReturn id err pResponse fun _ ↦ do
      freeResponse pResponse
      return 0

/-- `requestBaseBandVersion` -/
def requestBaseBandVersion : CmProg ℤ := plainRequest .checked qmuxTypeDms

/-- `requestRadioPower` -/
def requestRadioPower : CmProg ℤ :=
  request .checked qmuxTypeDms .wild id fun pResponse _ ↦ do
    freeResponse pResponse
    request .checked qmuxTypeUim pResponse id fun pResponse _ ↦ do
      freeResponse pResponse
      return 0

/-! ## The SIM card -/

/-- The service for the card. -/
def cardQMIType (g : Globals) : UInt8 := if g.s_9x07 then qmuxTypeUim else qmuxTypeDms

/-- `requestGetPINStatus`, whose result is not looked at. -/
def requestGetPINStatus (g : Globals) : CmProg ℤ := plainRequest .tolerated (cardQMIType g)

/-- `requestGetSIMStatus` -/
def requestGetSIMStatus (g : Globals) : CmProg ℤ :=
  request .checked (cardQMIType g) .wild id fun pResponse msg ↦ do
    -- `UIMGetStateResp.UIMState`
    if ¬g.s_9x07 ∧ byteAt msg 23 = 0x01 then
      let _ ← requestGetPINStatus g
      freeResponse pResponse
      return 0
    else
      freeResponse pResponse
      return 0

/-- `requestEnterSimPin` -/
def requestEnterSimPin (g : Globals) : CmProg ℤ := plainRequest .checked (cardQMIType g)

/-- `requestGetICCID` -/
def requestGetICCID (g : Globals) : CmProg ℤ :=
  if g.s_9x07 then plainRequest .checked qmuxTypeUim else .ret 0

/-- `requestGetIMSI` -/
def requestGetIMSI (g : Globals) : CmProg ℤ :=
  if g.s_9x07 then plainRequest .checked qmuxTypeUim else .ret 0

/-! ## Registration -/

/-- What the registration functions set: `*pPSAttachedState`, two globals and the local `is_lte`. -/
structure Registration where
  pSAttachedState : UInt8
  s_is_cdma : Bool
  s_hdr_personality : UInt8
  is_lte : Bool
  deriving DecidableEq

/-- `requestGetHomeNetwork`; a failure only means that the names of the network are not replaced. -/
def requestGetHomeNetwork : CmProg ℤ := plainRequest .tolerated qmuxTypeNas

/-- The domain of a system info is packet switched. -/
def psDomain (pInfo : List UInt8) : Bool := byteAt pInfo 3 = 0x01 ∧ byteAt pInfo 4 &&& 0x02 ≠ 0

/-- A TLV of `QMINAS_GET_SYS_INFO_REQ`. -/
def sysInfo (pInfo : List UInt8) (r : Registration) : Registration :=
  match byteAt pInfo 0 with
  | 0x10 | 0x11 => if byteAt pInfo 3 = 0x02 then { r with s_is_cdma := !r.is_lte } else r
  | 0x14 | 0x4A =>
    if byteAt pInfo 3 = 0x02 then { r with is_lte := true, s_is_cdma := false } else r
  | 0x4B | 0x17 | 0x18 | 0x25 => if psDomain pInfo then { r with pSAttachedState := 1 } else r
  | 0x15 => if psDomain pInfo then { r with pSAttachedState := 1, s_is_cdma := !r.is_lte } else r
  | 0x16 =>
    let r := if psDomain pInfo then { r with pSAttachedState := 1, s_is_cdma := !r.is_lte } else r
    if r.pSAttachedState ≠ 0 ∧ byteAt pInfo 13 = 0x01 ∧ byteAt pInfo 14 = 0x03 then
      { r with s_hdr_personality := 0x02 }
    else r
  | 0x19 =>
    if psDomain pInfo then { r with pSAttachedState := 1, is_lte := true, s_is_cdma := false }
    else r
  | _ => r

/-- The loop of `requestRegistrationState2`, which asks for the home network for each HDR system. -/
def sysInfoLoop (k : Registration → CmProg (ℤ × Registration)) :
    ℕ → List UInt8 → ℤ → Registration → CmProg (ℤ × Registration)
  | 0, _, _, r => k r
  | fuel + 1, pInfo, remainingLen, r =>
    if remainingLen ≤ 0 then k r
    else
      let next := sysInfoLoop k fuel (pInfo.drop (field16 pInfo 1 + Tlv.hdrSize))
        (remainingLen - (field16 pInfo 1 + Tlv.hdrSize)) (sysInfo pInfo r)
      if byteAt pInfo 0 = 0x16 then do
        let _ ← requestGetHomeNetwork
        next
      else next

/-- `requestRegistrationState2` clears the state before it sends the request. -/
def requestRegistrationState2 (g : Globals) : CmProg (ℤ × Registration) :=
  request .checked qmuxTypeNas .wild
    (fun err ↦ (err, ⟨0, g.s_is_cdma, g.s_hdr_personality, false⟩)) fun pResponse msg ↦
      sysInfoLoop
        (fun r ↦ do
          freeResponse pResponse
          return (0, r))
        (msg.length + 1) (msg.drop hdrsSize) (qmuxMsgHdrLength msg) ⟨0, false, 0, false⟩

/-- `requestRegistrationState` -/
def requestRegistrationState (g : Globals) (pSAttachedState : UInt8) :
    CmProg (ℤ × Registration) :=
  if g.s_9x07 then requestRegistrationState2 g
  else
    request .checked qmuxTypeNas .wild
      (fun err ↦ (err, ⟨pSAttachedState, g.s_is_cdma, g.s_hdr_personality, false⟩))
      fun pResponse msg ↦ do
        let servingSystem := (tlvBytes msg 0x01).getD []
        let present := (tlvBytes msg 0x01).isSome
        let registered := present ∧ byteAt servingSystem 3 = 0x01
        let pSAttachedState :=
          if registered then byteAt servingSystem 5 else if present then 0x02 else 0
        if registered ∧ byteAt servingSystem 7 ≠ 0 ∧
            (byteAt servingSystem 8 = 0x01 ∨ byteAt servingSystem 8 = 0x02) then
          let _ ← requestGetHomeNetwork
          freeResponse pResponse
          return (0, ⟨pSAttachedState, true, ((tlvBytes msg 0x23).map (byteAt · 3)).getD 0, false⟩)
        else
          freeResponse pResponse
          return (0, ⟨pSAttachedState, false, g.s_hdr_personality, false⟩)

/-! ## The profile -/

/-- `requestSetProfile` returns 1 when the profile was changed. -/
def requestSetProfile (p : ProfileT) : CmProg ℤ :=
  let chars : Option CString → List UInt8 := fun s ↦ (s.map CString.chars).getD []
  if p.profile_index = 0 then .ret (-1)
  else if p.old_apn = chars p.apn ∧ p.old_user = chars p.user ∧
      p.old_password = chars p.password ∧ p.old_iptype = p.iptype ∧ p.old_auth = p.auth then .ret 0
  else
    request .checked qmuxTypeWds .wild id fun pResponse _ ↦ do
      freeResponse pResponse
      return 1

/-- The number of profiles in a profile list, if the list is there. -/
def profileNum (msg : List UInt8) : Option ℕ :=
  (tlvBytes msg 0x01).map fun bytes ↦ (byteAt bytes 3).toNat

/-- The loop over a profile list: `k` is an `uint8` that moves over the names. -/
def profileIndexes (profileList : List UInt8) : ℕ → ℕ → List ℕ
  | 0, _ => []
  | n + 1, k =>
    let name := (byteAt profileList ((k + 1) % 256)).toNat
    (byteAt profileList k).toNat ::
      profileIndexes profileList n ((k + 1 + (if name = 0 then 2 else 2 + name)) % 256)

/-- A string of a response, up to the first zero. -/
def uchar2char (old : List UInt8) : Option (List UInt8) → List UInt8
  | some bytes =>
    (((bytes.drop Tlv.hdrSize).take (min 63 (field16 bytes 1))).takeWhile (· ≠ 0))
  | none => old

/-- The end of `requestGetProfile`: what the modem has is noted. -/
def getProfileEnd (p : ProfileT) (pResponse : Ptr) : CmProg (ℤ × ProfileT) := do
  let msg ← readResponse pResponse
  freeResponse pResponse
  return (0, { p with
    old_apn := uchar2char p.old_apn (tlvBytes msg 0x14)
    old_user := uchar2char p.old_user (tlvBytes msg 0x1B)
    old_password := uchar2char p.old_password (tlvBytes msg 0x1C)
    old_auth := ((tlvBytes msg 0x1D).map fun b ↦ ((byteAt b 3).toNat : ℤ)).getD p.old_auth
    old_iptype := ((tlvBytes msg 0x11).map fun b ↦ ((byteAt b 3).toNat : ℤ)).getD p.old_iptype })

/-- The loop of `requestGetProfile` over the profiles: the first one for `pdp` is taken. Behind the
last one a new profile is created, and `again` checks all of them again. -/
def getProfileSettings (again : ProfileT → Ptr → CmProg (ℤ × ProfileT)) :
    List ℕ → ProfileT → Ptr → CmProg (ℤ × ProfileT)
  | [], p, pResponse => getProfileEnd p pResponse
  | index :: indexes, p, pResponse =>
    let p := { p with profile_index := index }
    request .checked qmuxTypeWds pResponse (fun err ↦ (err, p)) fun pResponse msg ↦
      match tlvBytes msg 0x25 with
      | none => .op .crash fun _ ↦ .ret (0, p)
      | some pPdpContext =>
        if (byteAt pPdpContext 3).toNat = p.pdp then getProfileEnd p pResponse
        else do
          freeResponse pResponse
          if indexes.isEmpty then
            request .checked qmuxTypeWds pResponse (fun err ↦ (err, p)) fun pResponse _ ↦ do
              freeResponse pResponse
              again p pResponse
          else getProfileSettings again indexes p pResponse

/-- `s_pResponse = malloc(le16_to_cpu(pResponse->QMIHdr.Length) + 1);` -/
def grabResponse : CmProg Unit := .op .grab .ret

/-- `requestGetProfile` from `_re_check` on, as far as `fuel` profiles are created. The response is
used for an allocation before it is checked. -/
def reCheck : ℕ → ProfileT → Ptr → CmProg (ℤ × ProfileT)
  | 0, p, _ => .op .crash fun _ ↦ .ret (0, p)
  | fuel + 1, p, pResponse => do
    let pRequest ← composeQMUX qmuxTypeWds
    let (err, pResponse) ← qmiThreadSendQMI .early pRequest pResponse
    let _ ← readResponse pResponse
    grabResponse
    qmiRspCheckAndReturn (fun err ↦ (err, p)) err pResponse fun msg ↦
      match profileNum msg with
      | none => .op .crash fun _ ↦ .ret (0, p)
      | some profile_num =>
        -- `profile_indexs` has 42 elements
        if 42 < profile_num then .op .crash fun _ ↦ .ret (0, p)
        else do
          let profileList := ((tlvBytes msg 0x01).getD []).drop Tlv.hdrSize
          freeResponse pResponse
          getProfileSettings (reCheck fuel) (profileIndexes profileList profile_num 2) p pResponse

/-- `requestGetProfile` -/
def requestGetProfile (fuel : ℕ) (p : ProfileT) : CmProg (ℤ × ProfileT) :=
  let p := { p with
    old_apn := []
    old_user := []
    old_password := []
    old_auth := 0
    old_iptype := 0
    iptype := if p.enable_ipv4 ∧ p.enable_ipv6 then 3 else if p.enable_ipv6 then 2 else 0 }
  if p.pdp = 0 then .ret (0, p) else reCheck fuel p .wild

/-! ## Functions that are not compiled by default -/

/-- `requestGetSignalInfo` -/
def requestGetSignalInfo : CmProg ℤ := plainRequest .checked qmuxTypeNas

/-- `requestGetCellInfoList` looks at neither result. -/
def requestGetCellInfoList : CmProg ℤ := do
  let _ ← plainRequest .tolerated qmuxTypeNas -- `nas_get_cell_location_info`
  let _ ← plainRequest .tolerated qmuxTypeNas -- `nas_get_rf_band_information`
  return 0

/-- `requestGetCoexWWANState` spells out what the macro does. -/
def requestGetCoexWWANState : CmProg ℤ := do
  let pRequest ← composeQMUX qmuxTypeCoex
  let (err, pResponse) ← qmiThreadSendQMI .checked pRequest .wild
  if err < 0 ∨ pResponse = .null then return err
  else
    let msg ← readResponse pResponse
    freeResponse pResponse
    return if qmuxResult msg ≠ 0 ∨ qmuxError msg ≠ 0 then qmuxError msg else 0

/-- `requestRegisterQos`, with `CONFIG_REG_QOS_IND` or without. -/
def requestRegisterQos (regQosInd : Bool) : CmProg ℤ :=
  request .checked qmuxTypeQos .null id fun pResponse _ ↦ do
    freeIfPresent pResponse
    if regQosInd then
      request .checked qmuxTypeQos pResponse id fun pResponse _ ↦ do
        freeIfPresent pResponse
        return 0
    else return 0

/-- `requestGetQosInfo` -/
def requestGetQosInfo (p : ProfileT) : CmProg ℤ :=
  if p.qos_id = 0 then .ret 0
  else
    request .checked qmuxTypeQos .null id fun pResponse _ ↦ do
      freeIfPresent pResponse
      return 0

/-! ## `qmi_request_ops` -/

/-- The request functions, with what they depend on. -/
inductive RequestOp
  | baseBandVersion
  | setEthMode (p : ProfileT)
  | setLoopBackState
  | getSIMStatus (g : Globals)
  | enterSimPin (g : Globals)
  | setProfile (p : ProfileT)
  | getProfile (fuel : ℕ) (p : ProfileT)
  | registrationState (g : Globals) (pSAttachedState : UInt8)
  | setupDataCall (g : Globals) (curIpFamily : IpFamily)
  | queryDataCall (g : Globals) (connectionStatus : UInt8) (curIpFamily : IpFamily)
  | deactivateDefaultPDP (g : Globals) (curIpFamily : IpFamily)
  | getIPAddress (g : Globals) (address : ℕ) (curIpFamily : IpFamily)
  | getSignalInfo
  | getCellInfoList
  | getICCID (g : Globals)
  | getIMSI (g : Globals)
  | radioPower
  | registerQos (regQosInd : Bool)
  | getQosInfo (p : ProfileT)
  | getCoexWWANState

/-- `qmi_request_ops` -/
def RequestOp.prog : RequestOp → CmProg ℤ
  | .baseBandVersion => requestBaseBandVersion
  | .setEthMode p => requestSetEthMode p
  | .setLoopBackState => requestSetLoopBackState
  | .getSIMStatus g => requestGetSIMStatus g
  | .enterSimPin g => requestEnterSimPin g
  | .setProfile p => requestSetProfile p
  | .getProfile fuel p => Prod.fst <$> requestGetProfile fuel p
  | .registrationState g pSAttachedState => Prod.fst <$> requestRegistrationState g pSAttachedState
  | .setupDataCall g curIpFamily => Prod.fst <$> requestSetupDataCall g curIpFamily
  | .queryDataCall g connectionStatus curIpFamily =>
    Prod.fst <$> requestQueryDataCall g connectionStatus curIpFamily
  | .deactivateDefaultPDP g curIpFamily => Prod.fst <$> requestDeactivateDefaultPDP g curIpFamily
  | .getIPAddress g address curIpFamily => Prod.fst <$> requestGetIPAddress g address curIpFamily
  | .getSignalInfo => requestGetSignalInfo
  | .getCellInfoList => requestGetCellInfoList
  | .getICCID g => requestGetICCID g
  | .getIMSI g => requestGetIMSI g
  | .radioPower => requestRadioPower
  | .registerQos regQosInd => requestRegisterQos regQosInd
  | .getQosInfo p => requestGetQosInfo p
  | .getCoexWWANState => requestGetCoexWWANState

end Wwan.QuectelCm
