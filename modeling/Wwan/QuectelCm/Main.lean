import Wwan.QuectelCm.Replies

/-!
# The main loop of `quectel-cm`

`qmi_main` handles the signals `SIG_EVENT_START`, `SIG_EVENT_CHECK` and `SIG_EVENT_STOP`, which are
queued in a socket, and the events of the reader thread, with the request functions for QMI.  What
comes of each request is an input of the handlers. The state has also what the modem holds, and
what has been sent to it.
-/

namespace Wwan.QuectelCm

/-! ## State -/

inductive Signo
  | start
  | check
  | stop
  deriving DecidableEq

/-- `1 << IpFamilyV4` and `1 << IpFamilyV6` -/
def IpFamily.bit : IpFamily → ℕ
  | .v4 => 16
  | .v6 => 64

/-- A data call that was set up, with its handle. -/
abbrev DataCall := IpFamily × ℕ

/-- `PROFILE_T`, as far as the main loop uses it. -/
structure MainProfile extends ProfileT where
  /-- `ipv4.Address` -/
  address : ℕ
  loopback_state : ℕ
  replication_factor : ℕ
  deriving DecidableEq

/-- The variables of `qmi_main`, with `s_link` and what is queued in `signal_control_fd`. -/
structure Main where
  profile : MainProfile
  globals : Globals
  pSAttachedState : UInt8
  iPv4ConnectionStatus : UInt8
  iPv6ConnectionStatus : UInt8
  setupCallFail : ℕ
  setupCallAllowTime : ℕ
  s_link : ℤ
  signals : List Signo
  running : Bool
  /-- `SIG_EVENT_STOP` has been handled. -/
  stopped : Bool
  /-- The calls that the modem holds. -/
  held : List DataCall
  /-- The calls for which a deactivate request was sent. -/
  deactivated : List DataCall
  /-- The handle of a call that is held has been overwritten by that of a new call. -/
  overwritten : Bool
  deriving DecidableEq

/-- What comes of a request. -/
structure Exchange where
  /-- The calls that the network has dropped before. -/
  dropped : List DataCall
  /-- The request was composed and sent. -/
  sent : Bool
  /-- The handle of the call that the modem starts. -/
  granted : Option ℕ
  /-- The modem ends the call. -/
  released : Bool
  reply : Reply
  deriving DecidableEq

/-- A request that times out. -/
def Exchange.timeout : Exchange := ⟨[], true, none, false, .none 110⟩

/-- A request that is answered. -/
def Exchange.answer (type : UInt8) (tlvs : List UInt8) : Exchange :=
  ⟨[], true, none, false, .response (firstResponse qmuxTypeWds type tlvs)⟩

/-- A set-up that succeeds. -/
def Exchange.grant (handle : ℕ) : Exchange :=
  { Exchange.answer 0x20 [0x01, 4, 0, Bytes.byteOf handle 0, Bytes.byteOf handle 1,
      Bytes.byteOf handle 2, Bytes.byteOf handle 3] with granted := some handle }

/-- What comes of the requests of `SIG_EVENT_START`; `retry4` is the second attempt. -/
structure StartInput where
  setup4 : Exchange
  retry4 : Exchange
  address4 : Exchange
  setup6 : Exchange
  address6 : Exchange
  deriving DecidableEq

/-- What comes of the requests of `SIG_EVENT_CHECK`; `check4` is that of `check_ipv4_address`. -/
structure CheckInput where
  registration : Reply
  query4 : Exchange
  address4 : Exchange
  check4 : Exchange
  deactivate4 : Exchange
  query6 : Exchange
  deriving DecidableEq

/-- What comes of the requests of `SIG_EVENT_STOP`. -/
structure StopInput where
  deactivate4 : Exchange
  deactivate6 : Exchange
  deriving DecidableEq

/-- The query of a family. -/
def CheckInput.query (x : CheckInput) : IpFamily → Exchange
  | .v4 => x.query4
  | .v6 => x.query6

namespace Main

variable (s : Main)

def enable : IpFamily → Bool
  | .v4 => s.profile.enable_ipv4
  | .v6 => s.profile.enable_ipv6

def status : IpFamily → UInt8
  | .v4 => s.iPv4ConnectionStatus
  | .v6 => s.iPv6ConnectionStatus

def setStatus (status : UInt8) : IpFamily → Main
  | .v4 => { s with iPv4ConnectionStatus := status }
  | .v6 => { s with iPv6ConnectionStatus := status }

/-- The network drops calls. -/
def drop (dropped : List DataCall) : Main := { s with held := s.held.filter (· ∉ dropped) }

/-- `send_signo_to_main` -/
def sendSignoToMain (signo : Signo) : Main := { s with signals := s.signals ++ [signo] }

/-! ## Requests -/

/-- `requestSetupDataCall` -/
def requestSetupDataCall (f : IpFamily) (x : Exchange) : ℤ × Main :=
  let s := s.drop x.dropped
  let r := setupDataCall x.reply s.globals f
  let old := s.globals.handle f
  (r.1, { s with
    globals := r.2
    overwritten := s.overwritten || old ≠ 0 && r.2.handle f ≠ old && (f, old) ∈ s.held
    held := (x.granted.map (f, ·)).toList ++ s.held })

/-- `requestGetIPAddress` -/
def requestGetIPAddress (f : IpFamily) (x : Exchange) : ℤ × Main :=
  let s := s.drop x.dropped
  let r := getIPAddress x.reply s.globals s.profile.address f
  (r.1, { s with profile := { s.profile with address := r.2 } })

/-- `requestQueryDataCall` -/
def requestQueryDataCall (f : IpFamily) (x : Exchange) : ℤ × Main :=
  let s := s.drop x.dropped
  let r := queryDataCall x.reply s.globals (s.status f) f
  (r.1, { s with globals := r.2.2 }.setStatus r.2.1 f)

/-- `requestDeactivateDefaultPDP` sends nothing if there is no handle. -/
def requestDeactivateDefaultPDP (f : IpFamily) (x : Exchange) : Main :=
  let s := s.drop x.dropped
  let call : DataCall := (f, s.globals.handle f)
  let sent := call.2 ≠ 0 ∧ x.sent
  { s with
    globals := (deactivateDefaultPDP x.reply s.globals f).2
    deactivated := if sent then call :: s.deactivated else s.deactivated
    held := if sent ∧ x.released then s.held.filter (· ≠ call) else s.held }

/-- `requestRegistrationState` -/
def requestRegistrationState (r : Reply) : Main :=
  let r := (registrationState r s.globals s.pSAttachedState).2
  { s with
    pSAttachedState := r.pSAttachedState
    globals := { s.globals with
      s_is_cdma := r.s_is_cdma
      s_hdr_personality := r.s_hdr_personality } }

/-- `usbnet_link_change` -/
def usbnetLinkChange (link : ℕ) : Main :=
  if s.s_link = link then s
  else { s with
    s_link := link
    profile := { s.profile with
      address := if link &&& IpFamily.v4.bit = 0 then 0 else s.profile.address } }

/-! ## `SIG_EVENT_START` -/

/-- The end of a set-up: with an address the call is connected. -/
def finishSetup (f : IpFamily) (r : ℤ × Main) (address : Exchange) : Main :=
  if r.1 = 0 then
    let r := r.2.requestGetIPAddress f address
    if r.1 = 0 then r.2.setStatus qwdsPktDataConnected f else r.2
  else r.2

/-- There is a user and a password. -/
def hasCredentials : Bool :=
  (s.profile.user.any fun c ↦ c.chars ≠ []) && s.profile.password.any fun c ↦ c.chars ≠ []

/-- The second attempt, with the other authentication; if it fails, the old one is restored. -/
def retrySetup (x : Exchange) : ℤ × Main :=
  let old_auto := s.profile.auth
  let s := { s with profile := { s.profile with auth := if old_auto = 1 then 2 else 1 } }
  let r := s.requestSetupDataCall .v4 x
  if r.1 = 0 then r
  else (r.1, { r.2 with profile := { r.2.profile with auth := old_auto } })

/-- Both attempts. -/
def setupIpv4 (x : StartInput) : ℤ × Main :=
  let r := s.requestSetupDataCall .v4 x.setup4
  if 0 < r.1 ∧ r.2.hasCredentials then r.2.retrySetup x.retry4 else r

def startIpv4 (x : StartInput) : Main :=
  if s.enable .v4 ∧ s.status .v4 ≠ qwdsPktDataConnected then
    finishSetup .v4 (s.setupIpv4 x) x.address4
  else s

def startIpv6 (x : StartInput) : Main :=
  if s.enable .v6 ∧ s.status .v6 ≠ qwdsPktDataConnected then
    finishSetup .v6 (s.requestSetupDataCall .v6 x.setup6) x.address6
  else s

/-- An enabled family is disconnected. -/
def someDisconnected : Bool :=
  (s.enable .v4 && s.status .v4 == qwdsPktDataDisconnected) ||
    (s.enable .v6 && s.status .v6 == qwdsPktDataDisconnected)

/-- A family is connected. -/
def someConnected : Bool :=
  s.status .v4 == qwdsPktDataConnected || s.status .v6 == qwdsPktDataConnected

/-- `allow_time` -/
def allowTime : ℕ → ℕ
  | 0 => 5
  | 1 => 10
  | 2 => 20
  | 3 => 40
  | _ => 60

/-- The time until the next attempt. -/
def backOff (now : ℕ) : Main :=
  if s.someDisconnected then
    { s with
      setupCallFail := s.setupCallFail + 1
      setupCallAllowTime := allowTime s.setupCallFail * 1000 + now }
  else if s.someConnected then { s with setupCallFail := 0, setupCallAllowTime := now }
  else s

/-- The network is there, and the time for an attempt has come. -/
def MaySetup (now : ℕ) : Prop :=
  ¬(s.pSAttachedState ≠ 1 ∧ s.profile.loopback_state = 0) ∧ s.setupCallAllowTime ≤ now

instance (now : ℕ) : Decidable (s.MaySetup now) := inferInstanceAs (Decidable (_ ∧ _))

/-- `SIG_EVENT_START`; `now` and `later` are the times before and after the requests. -/
def start (now later : ℕ) (x : StartInput) : Main :=
  if s.MaySetup now then ((s.startIpv4 x).startIpv6 x).backOff later else s

/-! ## `SIG_EVENT_CHECK` -/

/-- The address is asked for if it is not known. -/
def getMissingAddress (x : Exchange) : Main :=
  if s.status .v4 = qwdsPktDataConnected ∧ s.profile.address = 0 then
    let r := s.requestGetIPAddress .v4 x
    if r.1 ≠ 0 then r.2.setStatus qwdsPktDataDisconnected .v4 else r.2
  else s

/-- `check_ipv4_address` -/
def checkIpv4Address (x : Exchange) : Bool × Main :=
  let r := s.requestGetIPAddress .v4 x
  (r.1 = 0 ∧ r.2.profile.address = s.profile.address, r.2)

/-- A call whose address has changed is ended. -/
def compareAddress (check deactivate : Exchange) : Main :=
  if s.status .v4 = qwdsPktDataConnected then
    let r := s.checkIpv4Address check
    if r.1 then r.2
    else (r.2.requestDeactivateDefaultPDP .v4 deactivate).setStatus qwdsPktDataDisconnected .v4
  else s

/-- The query for a family is made. -/
def Queried (f : IpFamily) : Prop := s.enable f ∧ s.status f ≠ qwdsPktDataDisconnected

instance (f : IpFamily) : Decidable (s.Queried f) := inferInstanceAs (Decidable (_ ∧ _))

def checkIpv4 (x : CheckInput) : Main :=
  if s.Queried .v4 then
    let r := s.requestQueryDataCall .v4 x.query4
    if r.1 = 0 then (r.2.getMissingAddress x.address4).compareAddress x.check4 x.deactivate4
    else r.2.setStatus qwdsPktDataDisconnected .v4
  else s.setStatus qwdsPktDataDisconnected .v4

/-- The result of the query is not looked at. -/
def checkIpv6 (x : CheckInput) : Main :=
  if s.Queried .v6 then (s.requestQueryDataCall .v6 x.query6).2
  else s.setStatus qwdsPktDataDisconnected .v6

/-- The bits of the families that are connected. -/
def connectedBits : ℕ :=
  (if s.status .v4 = qwdsPktDataConnected then IpFamily.v4.bit else 0) |||
    (if s.status .v6 = qwdsPktDataConnected then IpFamily.v6.bit else 0)

def changeLink : Main :=
  if s.status .v4 = qwdsPktDataDisconnected ∧ s.status .v6 = qwdsPktDataDisconnected then
    s.usbnetLinkChange 0
  else if s.someConnected then s.usbnetLinkChange s.connectedBits
  else s

def queueStart : Main := if s.someDisconnected then s.sendSignoToMain .start else s

/-- The registration is asked for while the network is not there. -/
def checkRegistration (r : Reply) : Main :=
  if s.pSAttachedState ≠ 1 then s.requestRegistrationState r else s

/-- The requests of `SIG_EVENT_CHECK`. -/
def checkCalls (x : CheckInput) : Main :=
  ((s.checkRegistration x.registration).checkIpv4 x).checkIpv6 x

/-- `SIG_EVENT_CHECK` -/
def check (x : CheckInput) : Main := (s.checkCalls x).changeLink.queueStart

/-! ## `SIG_EVENT_STOP` and the events of the reader thread -/

/-- A family is stopped if it is connected. -/
def deactivateConnected (f : IpFamily) (x : Exchange) : Main :=
  if s.enable f ∧ s.status f = qwdsPktDataConnected then s.requestDeactivateDefaultPDP f x else s

/-- `goto __main_quit` -/
def quit : Main := { s.usbnetLinkChange 0 with running := false }

/-- `SIG_EVENT_STOP` -/
def stop (x : StopInput) : Main :=
  { ((s.deactivateConnected .v4 x.deactivate4).deactivateConnected .v6 x.deactivate6).quit with
    stopped := true }

/-- An event of the reader thread. -/
def event (now : ℕ) (r : Reply) : MainEvent → Main
  | .deviceDisconnected | .modemReportReset => s.quit
  | .voiceNetworkStateChanged =>
    let s := s.requestRegistrationState r
    if s.pSAttachedState = 1 then s.queueStart else { s with setupCallAllowTime := now }
  | .dataCallListChanged =>
    let s := if s.someConnected then { s with setupCallAllowTime := now + 1000 } else s
    s.sendSignoToMain .check
  | .loopbackConfig loopback_state replication_factor =>
    let s := { s with profile := { s.profile with
      loopback_state := loopback_state
      replication_factor := replication_factor } }
    if loopback_state ≠ 0 then s.sendSignoToMain .start else s

end Main

/-! ## Steps -/

/-- A step of the main loop, or of its environment. -/
inductive MainStep
  | start (now later : ℕ) (x : StartInput)
  | check (x : CheckInput)
  | stop (x : StopInput)
  | event (now : ℕ) (r : Reply) (e : MainEvent)
  | /-- A signal handler, or the timeout of `poll`. -/
    signal (signo : Signo)
  | /-- The network drops calls. -/
    drop (dropped : List DataCall)
  deriving DecidableEq

/-- A step of the loop needs its signal at the front of the queue. -/
def MainStep.Enabled (s : Main) : MainStep → Prop
  | .start .. => s.running ∧ s.signals.head? = some .start
  | .check _ => s.running ∧ s.signals.head? = some .check
  | .stop _ => s.running ∧ s.signals.head? = some .stop
  | .event .. => s.running
  | .signal _ | .drop _ => True

instance MainStep.decidableEnabled (s : Main) : (e : MainStep) → Decidable (e.Enabled s)
  | .start .. => inferInstanceAs (Decidable (_ ∧ _))
  | .check _ => inferInstanceAs (Decidable (_ ∧ _))
  | .stop _ => inferInstanceAs (Decidable (_ ∧ _))
  | .event .. => inferInstanceAs (Decidable (_ = true))
  | .signal _ => .isTrue trivial
  | .drop _ => .isTrue trivial

/-- The signal at the front of the queue is read. -/
def Main.readSigno (s : Main) : Main := { s with signals := s.signals.tail }

/-- The state after a step. -/
def MainStep.next (s : Main) : MainStep → Main
  | .start now later x => s.readSigno.start now later x
  | .check x => s.readSigno.check x
  | .stop x => s.readSigno.stop x
  | .event now r e => s.event now r e
  | .signal signo => s.sendSignoToMain signo
  | .drop dropped => s.drop dropped

/-- `qmi_main` before the loop. -/
def Main.init (profile : MainProfile) (globals : Globals) (pSAttachedState : UInt8) (s_link : ℤ)
    (now : ℕ) : Main where
  profile := profile
  globals := globals
  pSAttachedState := pSAttachedState
  iPv4ConnectionStatus := qwdsPktDataUnknow
  iPv6ConnectionStatus := qwdsPktDataUnknow
  setupCallFail := 0
  setupCallAllowTime := now
  s_link := s_link
  signals := [.check]
  running := true
  stopped := false
  held := []
  deactivated := []
  overwritten := false

/-- The runs of the main loop; `modem` is what the modem can do. -/
def mainSystem (modem : Main → MainStep → Prop) (init : Main) : System Main MainStep where
  init := init
  enabled s e := e.Enabled s ∧ modem s e
  next s e := e.next s

instance mainSystem.decidableEnabled (modem : Main → MainStep → Prop) (init : Main)
    [h : ∀ s e, Decidable (modem s e)] (s : Main) (e : MainStep) :
    Decidable ((mainSystem modem init).enabled s e) :=
  inferInstanceAs (Decidable (_ ∧ modem s e))

end Wwan.QuectelCm
