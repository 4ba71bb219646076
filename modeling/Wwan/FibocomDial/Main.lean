import Mathlib.Data.Int.Notation
import Mathlib.Data.List.Basic
import Mathlib.Logic.Function.Basic
import Wwan.Lib.Transition

/-!
# The main loop of `fibocom-dial`

On SIGUSR1 the program sets up a data call for each family that is wanted and not connected, on
SIGUSR2 it asks the modem for the state of the calls, and on SIGTERM it ends those that are
connected. What comes of each request is an input of the handlers. The state has also what the
modem holds, and what has been sent to it.
-/

namespace Wwan.FibocomDial

/-! ## Requests -/

inductive IpFamily
  | v4
  | v6
  deriving DecidableEq

/-- A data call that was set up, with its handle. -/
abbrev DataCall := IpFamily × ℕ

/-- What `QmiThreadSendQMI` brings back. -/
inductive Reply (α : Type)
  | /-- There is no response, and this is what it returned: zero if the device was closed. -/
    none (err : ℤ)
  | /-- The response has a `QMUXResult` or a `QMUXError` that is not zero. -/
    refused (QMUXError : ℕ)
  | ok (response : α)
  deriving DecidableEq

/-- What `qmi_rsp_check_and_return` makes of it. -/
def Reply.code {α : Type} : Reply α → ℤ
  | .none err => err
  | .refused QMUXError => QMUXError
  | .ok _ => 0

/-- What comes of a request. -/
structure Exchange (α : Type) where
  /-- The calls that the network has dropped before. -/
  dropped : List DataCall
  /-- The request was composed and sent. -/
  sent : Bool
  /-- The handle of the call that the modem starts. -/
  granted : Option ℕ
  /-- The modem ends the call. -/
  released : Bool
  reply : Reply α
  deriving DecidableEq

/-- The TLV 0x01 of the answer to a query. -/
structure PktSrvc where
  ConnectionStatus : UInt8
  /-- `TLVLength` is 2 and `ReconfigReqd` 1. -/
  reconfigReqd : Bool
  deriving DecidableEq

/-- `QWDS_PKT_DATA_DISCONNECTED` and `QWDS_PKT_DATA_CONNECTED`. -/
def DISCONNECTED : UInt8 := 0x01
def CONNECTED : UInt8 := 0x02

/-- The status a query reports. -/
def reportedStatus : Option PktSrvc → UInt8
  | none => DISCONNECTED
  | some pPktSrvc => if pPktSrvc.reconfigReqd then DISCONNECTED else pPktSrvc.ConnectionStatus

/-! ## State -/

/-- `PROFILE_T`, as far as the signals use it. -/
structure Profile where
  /-- `ipv4_flag` and `ipv6_flag`. -/
  flag : IpFamily → Bool
  dual_flag : Bool
  auth : ℕ
  /-- There is a user and a password. -/
  credentials : Bool
  loopback_state : ℕ
  /-- `ipv4.Address`. -/
  address : ℕ

/-- The variables of `main`, with the static ones of the requests. -/
structure Main where
  profile : Profile
  /-- `IPv4ConnectionStatus` and `IPV6ConnectionStatus`. -/
  status : IpFamily → UInt8
  /-- `WdsConnectionIPv4Handle` and `WdsConnectionIPv6Handle`. -/
  handle : IpFamily → ℕ
  time_out_count : ℕ
  s_link : ℤ
  /-- SIGTERM has been handled. -/
  stopped : Bool
  /-- The calls that the modem holds. -/
  held : List DataCall
  /-- The calls for which a deactivate request was sent. -/
  deactivated : List DataCall
  /-- The modem accepted a set-up of the family in this event. -/
  accepted : IpFamily → Bool
  /-- The handle of a call that is held has been overwritten by that of a new call. -/
  overwritten : Bool
  /-- A family was taken to be connected without that the modem had accepted a set-up. -/
  invented : Bool

/-- What comes of a set-up; `retry` is the second attempt. -/
structure SetupInput where
  /-- `PSAttachedState` after the request for the registration. -/
  attached : UInt8
  setup : Exchange ℕ
  retry : Exchange ℕ
  address : Exchange (Option ℕ)
  deriving DecidableEq

/-- What comes of the requests of SIGUSR1. -/
structure Usr1Input where
  v4 : SetupInput
  v6 : SetupInput
  MobileCountryCode : ℕ
  MobileNetworkCode : ℕ
  deriving DecidableEq

/-- What comes of the requests of SIGUSR2; the addresses are those that `usbnet_link_change` asks
for. -/
structure Usr2Input where
  query4 : Exchange (Option PktSrvc)
  check4 : Exchange (Option ℕ)
  deactivate4 : Exchange Unit
  query6 : Exchange (Option PktSrvc)
  address4 : Exchange (Option ℕ)
  address6 : Exchange (Option ℕ)
  deriving DecidableEq

/-- What comes of the requests of SIGTERM. -/
structure TermInput where
  deactivate4 : Exchange Unit
  deactivate6 : Exchange Unit
  deriving DecidableEq

namespace Main

variable (s : Main)

/-- The network drops calls. -/
def drop (dropped : List DataCall) : Main := { s with held := s.held.filter (· ∉ dropped) }

def setStatus (f : IpFamily) (status : UInt8) : Main :=
  { s with status := Function.update s.status f status }

/-- What the modem does on a `QMIWDS_START_NETWORK_INTERFACE_REQ`. -/
def grant (f : IpFamily) : Option ℕ → Main
  | some h => { s with held := (f, h) :: s.held, accepted := Function.update s.accepted f true }
  | none => s

/-- `requestSetupDataCall`. -/
def requestSetupDataCall (f : IpFamily) (x : Exchange ℕ) : ℤ × Main :=
  let s := s.drop x.dropped
  match x.reply with
  | .ok h =>
    (0, { s.grant f x.granted with
      handle := Function.update s.handle f h
      overwritten := s.overwritten || decide ((f, s.handle f) ∈ s.held) })
  | reply => (reply.code, s.grant f x.granted)

/-- `requestQueryDataCall`. -/
def requestQueryDataCall (f : IpFamily) (x : Exchange (Option PktSrvc)) : Main :=
  let s := s.drop x.dropped
  match x.reply with
  | .ok pPktSrvc =>
    let status := reportedStatus pPktSrvc
    { s.setStatus f status with
      handle := if status = DISCONNECTED then Function.update s.handle f 0 else s.handle }
  | _ => s

/-- `requestDeactivateDefaultPDP` sends nothing if there is no handle. -/
def requestDeactivateDefaultPDP (f : IpFamily) (x : Exchange Unit) : Main :=
  if s.handle f = 0 then s
  else
    let s := s.drop x.dropped
    let call : DataCall := (f, s.handle f)
    { s with
      deactivated := if x.sent then call :: s.deactivated else s.deactivated
      held := if x.sent && x.released then s.held.filter (· ≠ call) else s.held
      handle := match x.reply with
        | .ok _ => Function.update s.handle f 0
        | _ => s.handle }

/-- The IPv4 address after the `memset` of a family. -/
def clearedAddress (f : IpFamily) : ℕ := if f = .v4 then 0 else s.profile.address

/-- `requestGetIPAddress`: what it returns, and the IPv4 address it leaves in the profile it is
given. -/
def requestGetIPAddress (f : IpFamily) (x : Exchange (Option ℕ)) : ℤ × ℕ × Main :=
  if s.handle f = 0 then (0, s.clearedAddress f, s)
  else
    match x.reply with
    | .ok address =>
      (0, address.getD (s.clearedAddress f), s.drop x.dropped)
    | reply => (reply.code, s.clearedAddress f, s.drop x.dropped)

/-- The request for the address with the profile of `main`. -/
def getAddress (f : IpFamily) (x : Exchange (Option ℕ)) : Main :=
  let r := s.requestGetIPAddress f x
  { r.2.2 with profile := { r.2.2.profile with address := r.2.1 } }

/-- `check_address` for IPv4, with a copy of the profile. -/
def checkAddress (x : Exchange (Option ℕ)) : Bool × Main :=
  let r := s.requestGetIPAddress .v4 x
  if r.1 = 0 then (decide (r.2.1 = s.profile.address), { r.2.2 with time_out_count := 0 })
  else if r.1 = 110 then
    (decide (s.time_out_count + 1 < 3), { r.2.2 with time_out_count := s.time_out_count + 1 })
  else (false, r.2.2)

/-- `usbnet_link_change(0)`. -/
def linkDown : Main := { s with s_link := 0 }

/-- The address of a family is asked for if it is wanted. -/
def getWanted (f : IpFamily) (x : Exchange (Option ℕ)) : Main :=
  if s.profile.flag f then s.getAddress f x else s

/-- `usbnet_link_change(1)`. -/
def linkUp (x : Usr2Input) : Main :=
  if s.s_link = 1 then s
  else ({ s with s_link := 1 }.getWanted .v4 x.address4).getWanted .v6 x.address6

/-! ## SIGUSR1 -/

def setAuth (auth : ℕ) : Main := { s with profile := { s.profile with auth := auth } }

/-- The second attempt, with the other authentication; if it fails, the old one is restored. -/
def retrySetup (f : IpFamily) (x : Exchange ℕ) (r : ℤ × Main) : ℤ × Main :=
  if 0 < r.1 ∧ r.2.profile.credentials then
    let old_auto := r.2.profile.auth
    let r := (r.2.setAuth (if old_auto = 1 then 2 else 1)).requestSetupDataCall f x
    if r.1 = 0 then r else (r.1, r.2.setAuth old_auto)
  else r

/-- The end of a set-up: what the request for the address returns is not looked at. -/
def finishSetup (f : IpFamily) (address : Exchange (Option ℕ)) (r : ℤ × Main) : Main :=
  if r.1 = 0 then
    let s := (r.2.getAddress f address).setStatus f CONNECTED
    { s with invented := s.invented || !s.accepted f }
  else r.2

/-- A set-up with the second attempt. -/
def finishRetry (f : IpFamily) (x : SetupInput) (r : ℤ × Main) : Main :=
  finishSetup f x.address (retrySetup f x.retry r)

def usr1Ipv4 (x : Usr1Input) : Main :=
  if s.profile.flag .v4 ∧ s.status .v4 ≠ CONNECTED then
    let s := s.linkDown
    if x.v4.attached = 1 ∨ s.profile.loopback_state = 1 then
      finishRetry .v4 x.v4 (s.requestSetupDataCall .v4 x.v4.setup)
    else s
  else s

/-- A network that has no calls for both families. -/
def Usr1Input.NoDual (x : Usr1Input) : Prop :=
  x.MobileCountryCode = 460 ∧ (x.MobileNetworkCode = 1 ∨ x.MobileNetworkCode = 6)

instance (x : Usr1Input) : Decidable (Usr1Input.NoDual x) := inferInstanceAs (Decidable (_ ∧ _))

/-- "Dual stack dial IPv6 failed, quit". -/
def quitIpv6 : Main :=
  { s with profile := { s.profile with
      dual_flag := false
      flag := Function.update s.profile.flag .v6 false } }

def usr1Ipv6 (x : Usr1Input) : Main :=
  if s.profile.flag .v6 ∧ s.status .v6 ≠ CONNECTED then
    let s := if s.profile.flag .v4 then { s with profile := { s.profile with dual_flag := true } }
      else s.linkDown
    if x.v6.attached = 1 then
      let r := s.requestSetupDataCall .v6 x.v6.setup
      if Usr1Input.NoDual x ∧ 0 < r.1 ∧ r.2.profile.dual_flag then r.2.quitIpv6
      else finishRetry .v6 x.v6 r
    else s
  else s

/-- SIGUSR1. -/
def usr1 (x : Usr1Input) : Main :=
  ({ s with accepted := fun _ ↦ false }.usr1Ipv4 x).usr1Ipv6 x

/-! ## SIGUSR2 -/

/-- A call whose address has changed is ended. -/
def compareAddress (check : Exchange (Option ℕ)) (deactivate : Exchange Unit) : Main :=
  if s.status .v4 = CONNECTED then
    let r := s.checkAddress check
    if r.1 then r.2
    else (r.2.requestDeactivateDefaultPDP .v4 deactivate).setStatus .v4 DISCONNECTED
  else s

def usr2Ipv4 (x : Usr2Input) : Main :=
  if s.profile.flag .v4 then
    (s.requestQueryDataCall .v4 x.query4).compareAddress x.check4 x.deactivate4
  else s.setStatus .v4 DISCONNECTED

def usr2Ipv6 (x : Usr2Input) : Main :=
  if s.profile.flag .v6 then s.requestQueryDataCall .v6 x.query6
  else s.setStatus .v6 DISCONNECTED

def changeLink (x : Usr2Input) : Main :=
  let s := if s.status .v4 = DISCONNECTED ∧ s.status .v6 = DISCONNECTED then s.linkDown else s
  if s.status .v4 = CONNECTED ∨ s.status .v6 = CONNECTED then s.linkUp x else s

/-- SIGUSR2; that a SIGUSR1 may follow is one of the sequences of events. -/
def usr2 (x : Usr2Input) : Main := ((s.usr2Ipv4 x).usr2Ipv6 x).changeLink x

/-! ## SIGTERM -/

def deactivateConnected (f : IpFamily) (x : Exchange Unit) : Main :=
  if s.profile.flag f ∧ s.status f = CONNECTED then s.requestDeactivateDefaultPDP f x else s

/-- SIGTERM. -/
def term (x : TermInput) : Main :=
  let s := (s.deactivateConnected .v4 x.deactivate4).deactivateConnected .v6 x.deactivate6
  { s.linkDown with stopped := true }

end Main

/-! ## Runs -/

inductive Event
  | usr1 (x : Usr1Input)
  | usr2 (x : Usr2Input)
  | term (x : TermInput)
  | /-- The network drops calls. -/
    drop (dropped : List DataCall)
  deriving DecidableEq

/-- The state after an event. -/
def Event.next (s : Main) : Event → Main
  | .usr1 x => s.usr1 x
  | .usr2 x => s.usr2 x
  | .term x => s.term x
  | .drop dropped => s.drop dropped

/-- The modem tells of the calls that it starts and ends, if its response arrives, and nothing comes
of what was not sent. -/
structure Exchange.Honest {α : Type} (x : Exchange α) : Prop where
  refused : ∀ e, x.reply = .refused e → x.granted = none
  notSent : x.sent = false → x.granted = none ∧ ∀ a, x.reply ≠ .ok a

/-- An honest answer to a set-up. -/
def Exchange.HonestSetup (x : Exchange ℕ) : Prop :=
  x.Honest ∧ ∀ h, x.reply = .ok h → x.granted = some h

/-- An honest answer to a deactivate request. -/
def Exchange.HonestDeactivate (x : Exchange Unit) : Prop :=
  x.Honest ∧ (x.reply = .ok () → x.released = true)

/-- What the modem can do in an event, while the program runs. -/
def Event.Enabled (s : Main) : Event → Prop
  | .usr1 x => s.stopped = false ∧ (x.v4.setup.HonestSetup ∧ x.v4.retry.HonestSetup) ∧
    x.v6.setup.HonestSetup ∧ x.v6.retry.HonestSetup
  | .usr2 x => s.stopped = false ∧ x.deactivate4.HonestDeactivate
  | .term x => s.stopped = false ∧ x.deactivate4.HonestDeactivate ∧ x.deactivate6.HonestDeactivate
  | .drop _ => True

/-- `main` before its loop. -/
def Main.init (profile : Profile) (s_link : ℤ) : Main where
  profile := profile
  status _ := 0xff
  handle _ := 0
  time_out_count := 0
  s_link := s_link
  stopped := false
  held := []
  deactivated := []
  accepted _ := false
  overwritten := false
  invented := false

/-- The runs of the main loop. -/
def mainSystem (profile : Profile) (s_link : ℤ) : System Main Event :=
  ⟨.init profile s_link, Event.Enabled, Event.next⟩

end Wwan.FibocomDial
