import Wwan.QuectelCm.Answers

/-!
# The request functions are sound in fair runs

Each function keeps `Ready` up to what it returns. Functions that call others use what these keep
of the responses that are not freed yet. `request_sound` is about all calls that the main thread
can make one after the other.
-/

namespace Wwan.QuectelCm

open Semantics

section Functions

variable (qmidev_send : Header → Header) {α β : Type} {val : α → ℤ}

/-- If all requests are answered, a program frees only what it has received, and with zero it leaves
all requests answered. -/
def Keeps (val : α → ℤ) (p : CmProg α) : Prop :=
  ∀ s₀ s, Ready s₀ True s → fairWp qmidev_send (Post s₀ val) p s

variable {qmidev_send} {s₀ s : Cm} {c : Prop} {b : ℕ} {msg : RecvMsg}
variable {pResponse : Ptr}

/-- A program that calls another one, whose result is not looked at. -/
theorem Keeps.bind {p : CmProg β} {k : β → CmProg α} (hp : Keeps qmidev_send
      (fun _ ↦ 0) p) (h : Ready s₀ True s)
    (hk : ∀ a s', Ready s₀ True s' → Kept s s' →
      fairWp qmidev_send (Post s₀ val) (k a) s') :
    fairWp qmidev_send (Post s₀ val) (p >>= k) s := by
  refine wp_bind (wp_mono (fun a s' hs' ↦ ?_) (hp s s (.refl h.inv (h.answered trivial))))
  exact hk a s' (h.trans (hs'.mono fun _ ↦ rfl)) hs'.kept

/-- The value of a program can be mapped. -/
theorem Keeps.map {p : CmProg α} (hp : Keeps qmidev_send val p) :
    Keeps qmidev_send id (val <$> p) := by
  intro s₀ s h
  refine wp_bind (wp_mono (fun a s' hs' ↦ ?_) (hp s₀ s h))
  exact wp_return hs' id

theorem wp_freeReturn {a : α} (h : Ready s₀ True s) (hb : s.Holds b msg)
    (hfresh : s₀.responses.length ≤ b) :
    fairWp qmidev_send (Post s₀ val) (freeResponse (.buf b) >>= fun _ ↦ .ret a) s :=
  wp_free h hb.1 hfresh fun _ hs _ ↦ wp_return hs fun _ ↦ trivial

theorem keeps_ret (a : α) : Keeps qmidev_send val (.ret a) :=
  fun _ _ h ↦ wp_return h fun _ ↦ trivial

theorem plainRequest_keeps {val : ℤ → ℤ} {use : Use} (QMIType : UInt8)
    (hval : use.isChecked → ∀ e, e ≠ 0 → val e ≠ 0) :
    Keeps qmidev_send val (plainRequest use QMIType) :=
  fun _ _ h ↦ wp_request h hval fun _ _ _ hs hb hfresh ↦ wp_freeReturn hs hb hfresh

theorem plainRequest_checked_keeps (QMIType : UInt8) :
    Keeps qmidev_send id (plainRequest .checked QMIType) :=
  plainRequest_keeps QMIType fun _ _ he ↦ he

theorem plainRequest_tolerated_keeps (QMIType : UInt8) :
    Keeps qmidev_send (fun _ ↦ 0) (plainRequest .tolerated QMIType) :=
  plainRequest_keeps QMIType fun huse ↦ by cases huse

/-! ### Data calls -/

theorem requestQueryDataCall_keeps (g : Globals) (connectionStatus : UInt8) (f : IpFamily) :
    Keeps qmidev_send Prod.fst (requestQueryDataCall g connectionStatus f) :=
  fun _ _ h ↦ wp_request h (fun _ _ he ↦ he) fun _ _ _ hs hb hfresh ↦ wp_freeReturn hs hb hfresh

theorem requestDeactivateDefaultPDP_keeps (g : Globals) (f : IpFamily) :
    Keeps qmidev_send Prod.fst (requestDeactivateDefaultPDP g f) := by
  intro s₀ s h
  rw [requestDeactivateDefaultPDP]
  split
  · exact keeps_ret _ s₀ s h
  · exact wp_request h (fun _ _ he ↦ he) fun _ _ _ hs hb hfresh ↦ wp_freeReturn hs hb hfresh

theorem requestGetIPAddress_keeps (g : Globals) (address : ℕ) (f : IpFamily) :
    Keeps qmidev_send Prod.fst (requestGetIPAddress g address f) := by
  intro s₀ s h
  rw [requestGetIPAddress]
  split
  · exact keeps_ret _ s₀ s h
  · exact wp_request h (fun _ _ he ↦ he) fun _ _ _ hs hb hfresh ↦ wp_freeReturn hs hb hfresh

theorem requestSetupDataCall_keeps (g : Globals) (f : IpFamily) :
    Keeps qmidev_send Prod.fst (requestSetupDataCall g f) := by
  intro s₀ s h
  rw [requestSetupDataCall_eq]
  exact wp_request h (fun _ _ he ↦ he) fun _ _ _ hs hb hfresh ↦ wp_freeReturn hs hb hfresh

/-! ### Set-up of the device -/

/-- With a spent pointer the preference is set without a second free. -/
theorem wp_setIpFamilyPreference {f : IpFamily} {use : Use} {k : Ptr → CmProg ℤ}
    (h : Ready s₀ True s) (hptr : s.Spent pResponse) (huse : use = .checked ∨ use = .ifPresent)
    (hk : ∀ s ptr, Ready s₀ True s → s.Spent ptr →
      fairWp qmidev_send (Post s₀ id) (k ptr) s) :
    fairWp qmidev_send (Post s₀ id) (setIpFamilyPreference f use pResponse k) s := by
  obtain rfl | rfl := huse
  · refine wp_composeSend h fun s a hs ↦ wp_check hs (fun _ _ he ↦ he)
      fun s b msg hbuf hs hb hfresh _ ↦ ?_
    rw [hbuf]
    exact wp_freeIfPresent hs hb hfresh fun s hs hspent ↦ hk s _ hs hspent
  · exact wp_composeSendSpent h hptr fun s a hs hptr ↦
      wp_freeOutcome hs hptr fun s hs hspent ↦ hk s _ hs hspent

theorem wp_ethModeIpFamily {p : ProfileT} {f : IpFamily} {use : Use} {k : Ptr → CmProg ℤ}
    (h : Ready s₀ True s) (hptr : s.Spent pResponse) (huse : use = .checked ∨ use = .ifPresent)
    (hk : ∀ s ptr, Ready s₀ True s → s.Spent ptr →
      fairWp qmidev_send (Post s₀ id) (k ptr) s) :
    fairWp qmidev_send (Post s₀ id) (ethModeIpFamily p f use pResponse k) s := by
  rw [ethModeIpFamily]
  split
  · exact wp_setIpFamilyPreference h hptr huse hk
  · exact wp_request h (fun _ _ he ↦ he) fun s b msg hs hb hfresh ↦
      wp_freeIfPresent hs hb hfresh fun s hs hspent ↦ wp_setIpFamilyPreference hs hspent huse hk

theorem wp_setAutoConnect (h : Ready s₀ True s) (hptr : s.Spent pResponse) :
    fairWp qmidev_send (Post s₀ id) (setAutoConnect pResponse) s :=
  wp_composeSendSpent h hptr fun _ _ hs hptr ↦
    wp_freeOutcome hs hptr fun _ hs _ ↦ wp_return hs fun _ ↦ trivial

theorem wp_skipWdaSetDataFormat {p : ProfileT} (h : Ready s₀ True s) (hptr : s.Spent pResponse) :
    fairWp qmidev_send (Post s₀ id) (skipWdaSetDataFormat p pResponse) s := by
  have hipv6 : ∀ s ptr, Ready s₀ True s → s.Spent ptr →
      fairWp qmidev_send (Post s₀ id)
        (if p.enable_ipv6 then ethModeIpFamily p .v6 .checked ptr setAutoConnect
          else setAutoConnect ptr) s := by
    intro s ptr hs hptr
    split
    · exact wp_ethModeIpFamily hs hptr (.inl rfl) fun s ptr hs hptr ↦ wp_setAutoConnect hs hptr
    · exact wp_setAutoConnect hs hptr
  rw [skipWdaSetDataFormat]
  split
  · exact wp_ethModeIpFamily h hptr (.inr rfl) hipv6
  · exact hipv6 s pResponse h hptr

theorem requestSetEthMode_keeps (p : ProfileT) :
    Keeps qmidev_send id (requestSetEthMode p) := by
  intro s₀ s h
  rw [requestSetEthMode]
  split
  · exact wp_skipWdaSetDataFormat h trivial
  · exact wp_request h (fun _ _ he ↦ he) fun s b msg hs hb hfresh ↦
      wp_free hs hb.1 hfresh fun s hs hspent ↦ wp_skipWdaSetDataFormat hs hspent

theorem requestSetLoopBackState_keeps :
    Keeps qmidev_send id requestSetLoopBackState := by
  intro s₀ s h
  refine wp_compose h (fun s hs ↦ wp_crash hs.inv) fun r s hs ↦ ?_
  refine wp_send_some hs fun s a hs ↦ wp_check hs (fun _ _ he ↦ he)
    fun s b msg hbuf hs hb hfresh _ ↦ ?_
  rw [hbuf]
  exact wp_freeReturn hs hb hfresh

theorem requestRadioPower_keeps : Keeps qmidev_send id requestRadioPower :=
  fun _ _ h ↦ wp_request h (fun _ _ he ↦ he) fun _ _ _ hs hb hfresh ↦
    wp_free hs hb.1 hfresh fun _ hs _ ↦ wp_request hs (fun _ _ he ↦ he)
      fun _ _ _ hs hb hfresh ↦ wp_freeReturn hs hb hfresh

/-! ### The SIM card and the registration -/

theorem requestGetICCID_keeps (g : Globals) :
    Keeps qmidev_send id (requestGetICCID g) := by
  rw [requestGetICCID]
  split
  · exact plainRequest_checked_keeps _
  · exact keeps_ret _

theorem requestGetIMSI_keeps (g : Globals) :
    Keeps qmidev_send id (requestGetIMSI g) := by
  rw [requestGetIMSI]
  split
  · exact plainRequest_checked_keeps _
  · exact keeps_ret _

theorem requestGetSIMStatus_keeps (g : Globals) :
    Keeps qmidev_send id (requestGetSIMStatus g) := by
  refine fun _ _ h ↦ wp_request h (fun _ _ he ↦ he) fun s b msg hs hb hfresh ↦ ?_
  split
  · exact (plainRequest_tolerated_keeps _).bind hs fun _ _ hs hkept ↦
      wp_freeReturn hs (hkept.holds hb) hfresh
  · exact wp_freeReturn hs hb hfresh

/-- The loop over the systems calls `requestGetHomeNetwork` while the response is there. -/
theorem wp_sysInfoLoop {k : Registration → CmProg (ℤ × Registration)} {fuel : ℕ}
    {pInfo : List UInt8} {remainingLen : ℤ} {r : Registration}
    (h : Ready s₀ True s) (hb : s.Holds b msg)
    (hk : ∀ s r, Ready s₀ True s → s.Holds b msg →
      fairWp qmidev_send (Post s₀ Prod.fst) (k r) s) :
    fairWp qmidev_send (Post s₀ Prod.fst) (sysInfoLoop k fuel pInfo remainingLen r)
      s := by
  induction fuel generalizing s pInfo remainingLen r with
  | zero => exact hk s r h hb
  | succ fuel ih =>
    rw [sysInfoLoop]
    split
    · exact hk s r h hb
    split
    · exact (plainRequest_tolerated_keeps _).bind h fun _ _ hs hkept ↦ ih hs (hkept.holds hb)
    · exact ih h hb

theorem requestRegistrationState2_keeps (g : Globals) :
    Keeps qmidev_send Prod.fst (requestRegistrationState2 g) :=
  fun _ _ h ↦ wp_request h (fun _ _ he ↦ he) fun _ _ _ hs hb hfresh ↦
    wp_sysInfoLoop hs hb fun _ _ hs hb ↦ wp_freeReturn hs hb hfresh

theorem requestRegistrationState_keeps (g : Globals) (pSAttachedState : UInt8) :
    Keeps qmidev_send Prod.fst (requestRegistrationState g pSAttachedState) := by
  rw [requestRegistrationState]
  split
  · exact requestRegistrationState2_keeps g
  refine fun _ _ h ↦ wp_request h (fun _ _ he ↦ he) fun s b msg hs hb hfresh ↦ ?_
  dsimp only
  split
  · exact (plainRequest_tolerated_keeps _).bind hs fun _ _ hs hkept ↦
      wp_freeReturn hs (hkept.holds hb) hfresh
  · exact wp_freeReturn hs hb hfresh

/-! ### The profile -/

theorem requestSetProfile_keeps (p : ProfileT) :
    Keeps qmidev_send id (requestSetProfile p) := by
  rw [requestSetProfile]
  split
  · exact keeps_ret _
  split
  · exact keeps_ret _
  · exact fun _ _ h ↦ wp_request h (fun _ _ he ↦ he) fun _ _ _ hs hb hfresh ↦
      wp_freeReturn hs hb hfresh

theorem wp_getProfileEnd {p : ProfileT} (h : Ready s₀ True s) (hb : s.Holds b msg)
    (hfresh : s₀.responses.length ≤ b) :
    fairWp qmidev_send (Post s₀ Prod.fst) (getProfileEnd p (.buf b)) s :=
  wp_read h hb fun _ hs hb ↦ wp_freeReturn hs hb hfresh

/-- The loop over the profiles, of which there is at least one. -/
theorem wp_getProfileSettings {again : ProfileT → Ptr → CmProg (ℤ × ProfileT)} {indexes : List ℕ}
    {p : ProfileT} (hindexes : indexes ≠ []) (h : Ready s₀ True s)
    (hagain : ∀ s p ptr, Ready s₀ True s →
      fairWp qmidev_send (Post s₀ Prod.fst) (again p ptr) s) :
    fairWp qmidev_send (Post s₀ Prod.fst)
      (getProfileSettings again indexes p pResponse) s := by
  induction indexes generalizing s p pResponse with
  | nil => exact absurd rfl hindexes
  | cons index indexes ih =>
    rw [getProfileSettings]
    refine wp_request h (fun _ _ he ↦ he) fun s b msg hs hb hfresh ↦ ?_
    split
    · exact wp_crash hs.inv
    split
    · exact wp_getProfileEnd hs hb hfresh
    refine wp_free hs hb.1 hfresh fun s hs _ ↦ ?_
    split
    · exact wp_request hs (fun _ _ he ↦ he) fun s b msg hs hb hfresh ↦
        wp_free hs hb.1 hfresh fun s hs _ ↦ hagain s _ _ hs
    · exact ih (by rintro rfl; contradiction) hs

theorem profileIndexes_ne_nil {profileList : List UInt8} {n k : ℕ} (hn : n ≠ 0) :
    profileIndexes profileList n k ≠ [] := by
  obtain ⟨n, rfl⟩ := Nat.exists_eq_succ_of_ne_zero hn
  exact fun hnil ↦ by cases hnil

/-- Nothing is written to what is allocated by the way. -/
theorem Ready.grab (h : Ready s₀ c s) (malloc : Bool) :
    Ready s₀ c (s.copyResponse malloc ⟨[], [], []⟩) ∧ Kept s (s.copyResponse malloc ⟨[], [], []⟩) := by
  cases malloc with
  | false =>
    exact ⟨⟨⟨h.inv.present, h.inv.requests, h.inv.pending, h.inv.requestsLt, h.inv.responses,
      h.inv.responsesLt⟩, ⟨h.kept.responses, h.kept.live, h.kept.freed⟩, h.answered⟩,
      ⟨List.prefix_refl _, fun _ hb ↦ hb, List.Subset.refl _⟩⟩
  | true =>
    have hkept : Kept s (s.copyResponse true ⟨[], [], []⟩) := by
      refine ⟨List.prefix_append _ _, fun b hb ↦ ⟨?_, hb.2⟩, List.Subset.refl _⟩
      change b < (s.responses ++ [(⟨[], [], []⟩ : RecvMsg)]).length
      rw [List.length_append]
      exact Nat.lt_add_right _ hb.1
    refine ⟨⟨⟨h.inv.present, h.inv.requests, h.inv.pending, h.inv.requestsLt, h.inv.responses,
      fun b hb ↦ ?_⟩, h.kept.trans hkept, h.answered⟩, hkept⟩
    exact Nat.lt_of_lt_of_le (h.inv.responsesLt b hb) hkept.responses.length_le

theorem wp_grab {Q : α → Cm → Prop} {k : Unit → CmProg α} (h : Ready s₀ c s) (hb : s.Holds b msg)
    (hk : ∀ s, Ready s₀ c s → s.Holds b msg → fairWp qmidev_send Q (k ()) s) :
    fairWp qmidev_send Q (grabResponse >>= k) s := by
  refine wp_op (P := fun s ↦ Ready s₀ c s ∧ s.Holds b msg)
    (stable_of_received fun _ _ hr hs ↦ ⟨hr.ready hs.1, hr.kept.holds hs.2⟩) ⟨h, hb⟩
    (fun _ hs ↦ hs.1.inv) fun s i hs _ _ ↦ ⟨(), rfl, ?_⟩
  obtain ⟨hready, hkept⟩ := hs.1.grab (i = .malloc true)
  exact hk _ hready (hkept.holds hs.2)

/-- All profiles are checked, with a response to the list. -/
theorem wp_reCheck {fuel : ℕ} {p : ProfileT} (h : Ready s₀ True s) :
    fairWp qmidev_send (Post s₀ Prod.fst) (reCheck fuel p pResponse) s := by
  induction fuel generalizing s p pResponse with
  | zero => exact wp_crash h.inv
  | succ fuel ih =>
    refine wp_composeSend h fun s a hs ↦ ?_
    cases hs with
    | notSent _ hearly => exact absurd rfl hearly
    | failed _ _ hearly => exact absurd rfl hearly
    | received b msg hs hb hfresh hfair hnum =>
      refine wp_read hs hb fun s hs hb ↦ wp_grab hs hb fun s hs hb ↦ ?_
      have hs : Outcome .early s₀ pResponse s (0, .buf b) :=
        .received b msg hs hb hfresh hfair hnum
      refine wp_check hs (fun _ _ he ↦ he)
        fun s b msg hbuf hs hb hfresh hnum ↦ ?_
      rw [hbuf]
      split
      · exact wp_crash hs.inv
      · rename_i profile_num hprofiles
        split
        · exact wp_crash hs.inv
        · refine wp_free hs hb.1 hfresh fun s hs _ ↦ wp_getProfileSettings ?_ hs
            fun s p ptr hs ↦ ih hs
          refine profileIndexes_ne_nil ?_
          rintro rfl
          exact hnum rfl hprofiles

theorem requestGetProfile_keeps (fuel : ℕ) (p : ProfileT) :
    Keeps qmidev_send Prod.fst (requestGetProfile fuel p) := by
  intro s₀ s h
  rw [requestGetProfile]
  dsimp only
  split
  · exact keeps_ret _ s₀ s h
  · exact wp_reCheck h

/-! ### The other functions -/

theorem requestGetCellInfoList_keeps : Keeps qmidev_send id requestGetCellInfoList :=
  fun _ _ h ↦ (plainRequest_tolerated_keeps _).bind h fun _ _ hs _ ↦
    (plainRequest_tolerated_keeps _).bind hs fun _ _ hs _ ↦ wp_return hs fun _ ↦ trivial

/-- The check that `requestGetCoexWWANState` spells out frees the response in both cases. -/
theorem requestGetCoexWWANState_eq :
    requestGetCoexWWANState = plainRequest .checked qmuxTypeCoex := by
  have hcheck (err : ℤ) (pResponse : Ptr) :
      (if err < 0 ∨ pResponse = .null then .ret err else do
        let msg ← readResponse pResponse
        freeResponse pResponse
        return if qmuxResult msg ≠ 0 ∨ qmuxError msg ≠ 0 then (qmuxError msg : ℤ) else 0) =
      qmiRspCheckAndReturn id err pResponse fun _ ↦ do
        freeResponse pResponse
        return 0 := by
    rw [qmiRspCheckAndReturn]
    split
    · rfl
    · refine congrArg (readResponse pResponse >>= ·) (funext fun msg ↦ ?_)
      split <;> rfl
  refine congrArg (composeQMUX qmuxTypeCoex >>= ·) (funext fun pRequest ↦ ?_)
  exact congrArg (qmiThreadSendQMI .checked pRequest .wild >>= ·) (funext fun a ↦ hcheck a.1 a.2)

theorem requestGetCoexWWANState_keeps :
    Keeps qmidev_send id requestGetCoexWWANState := by
  rw [requestGetCoexWWANState_eq]
  exact plainRequest_checked_keeps _

theorem requestRegisterQos_keeps (regQosInd : Bool) :
    Keeps qmidev_send id (requestRegisterQos regQosInd) := by
  refine fun _ _ h ↦ wp_request h (fun _ _ he ↦ he) fun s b msg hs hb hfresh ↦
    wp_freeIfPresent hs hb hfresh fun s hs _ ↦ ?_
  split
  · exact wp_request hs (fun _ _ he ↦ he) fun s b msg hs hb hfresh ↦
      wp_freeIfPresent hs hb hfresh fun s hs _ ↦ wp_return hs fun _ ↦ trivial
  · exact wp_return hs fun _ ↦ trivial

theorem requestGetQosInfo_keeps (p : ProfileT) :
    Keeps qmidev_send id (requestGetQosInfo p) := by
  rw [requestGetQosInfo]
  split
  · exact keeps_ret _
  · exact fun _ _ h ↦ wp_request h (fun _ _ he ↦ he) fun s b msg hs hb hfresh ↦
      wp_freeIfPresent hs hb hfresh fun s hs _ ↦ wp_return hs fun _ ↦ trivial

/-- All functions of `qmi_request_ops`. -/
theorem RequestOp.keeps (op : RequestOp) : Keeps qmidev_send id op.prog := by
  cases op with
  | baseBandVersion => exact plainRequest_checked_keeps _
  | setEthMode p => exact requestSetEthMode_keeps p
  | setLoopBackState => exact requestSetLoopBackState_keeps
  | getSIMStatus g => exact requestGetSIMStatus_keeps g
  | enterSimPin g => exact plainRequest_checked_keeps _
  | setProfile p => exact requestSetProfile_keeps p
  | getProfile fuel p => exact (requestGetProfile_keeps fuel p).map
  | registrationState g pSAttachedState =>
    exact (requestRegistrationState_keeps g pSAttachedState).map
  | setupDataCall g f => exact (requestSetupDataCall_keeps g f).map
  | queryDataCall g connectionStatus f =>
    exact (requestQueryDataCall_keeps g connectionStatus f).map
  | deactivateDefaultPDP g f => exact (requestDeactivateDefaultPDP_keeps g f).map
  | getIPAddress g address f => exact (requestGetIPAddress_keeps g address f).map
  | getSignalInfo => exact plainRequest_checked_keeps _
  | getCellInfoList => exact requestGetCellInfoList_keeps
  | getICCID g => exact requestGetICCID_keeps g
  | getIMSI g => exact requestGetIMSI_keeps g
  | radioPower => exact requestRadioPower_keeps
  | registerQos regQosInd => exact requestRegisterQos_keeps regQosInd
  | getQosInfo p => exact requestGetQosInfo_keeps p
  | getCoexWWANState => exact requestGetCoexWWANState_keeps

end Functions

/-! ## All calls of the main thread -/

section Calls

variable (qmidev_send : Header → Header)

/-- The state at the beginning. -/
def Cm.init : Cm where
  s_pRequest := none
  s_pResponse := .null
  transactionId := 0
  requests := []
  responses := []
  freedRequests := []
  freedResponses := []
  absentUsed := false
  events := []
  log := []

/-- The runs of a request function; the log begins with the call. -/
def callSystem (op : RequestOp) (s : Cm) :=
  (cmSemantics qmidev_send).system op.prog { s with log := [] }

instance callSystem.decidableEnabled (op : RequestOp) (s : Cm) :
    (t : Thread Op Op.Res Cm ℤ) → (e : Input ⊕ (Option RecvMsg × Bool)) →
      Decidable ((callSystem qmidev_send op s).enabled t e) :=
  Semantics.decidableEnabled _ _

/-- The states between two calls, after fair runs of all calls before. The first state is what the
requests for the clients have left. -/
inductive BetweenCalls : Cm → Prop
  | init {s : Cm} (h : s.Inv) : BetweenCalls s
  | react {s : Cm} (malloc : Bool) (msg : Option RecvMsg) (h : BetweenCalls s) :
      BetweenCalls (s.qmiThreadRecvQMI malloc msg)
  | call {s s' : Cm} (op : RequestOp) {ret : ℤ} (h : BetweenCalls s)
      (ht : (callSystem qmidev_send op s).Reach (guard Op.Fair) ⟨some (.ret ret), s'⟩) :
      BetweenCalls s'

variable {qmidev_send} {s : Cm}

/-- The run of a call that begins in a state that keeps the invariant. -/
theorem call_wp (op : RequestOp) (hinv : s.Inv) :
    fairWp qmidev_send (Post { s with log := [] } id) op.prog { s with log := [] } := by
  refine op.keeps _ _ (.refl ⟨hinv.present, hinv.requests, hinv.pending, hinv.requestsLt,
    hinv.responses, hinv.responsesLt⟩ fun newer older hdr hlog ↦ ?_)
  exact absurd (congrArg List.length hlog) (by simp)

theorem Cm.inv_init : Cm.init.Inv :=
  ⟨rfl, .nil, fun r hr ↦ (by cases hr), fun r hr ↦ (by cases hr), .nil, fun b hb ↦ (by cases hb)⟩

theorem BetweenCalls.inv (h : BetweenCalls qmidev_send s) : s.Inv := by
  induction h with
  | init hinv => exact hinv
  | react malloc msg _ ih => exact (received_qmiThreadRecvQMI _ malloc msg).inv ih
  | call op _ ht ih => exact (reach_ret (call_wp op ih) ht).inv

variable (qmidev_send s)

/-- In fair runs a request function returns zero only if a successful response was received for
each request whose result is checked; no response is used that is not there, and no buffer is freed
twice. -/
theorem request_sound (op : RequestOp) (h : BetweenCalls qmidev_send s)
    {t : Thread Op Op.Res Cm ℤ}
    (ht : (callSystem qmidev_send op s).Reach (guard Op.Fair) t) : Sound t := by
  have hwp : fairWp qmidev_send (Post { s with log := [] } id) op.prog
      { s with log := [] } := call_wp op h.inv
  have hinv := reach_inv hwp ht
  refine ⟨fun hret ↦ ?_, hinv.present, hinv.requests, hinv.responses⟩
  obtain ⟨prog, s'⟩ := t
  obtain rfl : prog = some (.ret 0) := hret
  exact (reach_ret hwp ht).answered rfl

end Calls

/-! ## Runs -/

/-- A transport on which every service has client 1. -/
def firstClient (hdr : Header) : Header := { hdr with ClientId := 1 }

/-- Calls over that transport. -/
abbrev callRun (op : RequestOp) (es : List (Input ⊕ (Option RecvMsg × Bool))) :
    Thread Op Op.Res Cm ℤ :=
  (callSystem firstClient op .init).exec (callSystem firstClient op .init).init es

/-- A query for IPv4. -/
def queryIpv4 : RequestOp := .queryDataCall ⟨false, false, 0, 0, 0⟩ qwdsPktDataDisconnected .v4

/-- An indication comes, and then the response to the query says that the call is connected; the
next reader call tells of a closed device. -/
def connectedRun : List (Input ⊕ (Option RecvMsg × Bool)) :=
  [.inl (.malloc true), .inl (.ret 0),
    .inr (some ⟨[0x01, 12, 0, 0x80, 0x03, 1, 0x04, 1, 0, 0x24, 0, 0, 0], [9], [9]⟩, true),
    .inr (some ⟨firstResponse 1 0x22 [0x01, 1, 0, 0x02], [7, 7], [5]⟩, true), .inl (.ret 0),
    .inl .go, .inl .go, .inr (none, true)]

theorem request_sound_connected :
    (callRun queryIpv4 connectedRun).prog = some (.ret 0) ∧
      Sound (callRun queryIpv4 connectedRun) :=
  ⟨rfl, request_sound _ _ _ (.init Cm.inv_init) (.exec .init (by decide))⟩

/-- The device is closed while a query waits. -/
def closedDevice : List (Input ⊕ (Option RecvMsg × Bool)) :=
  [.inl (.malloc true), .inl (.ret 0), .inr (none, true), .inl (.ret 0)]

/-- Zero is returned without an answer. -/
theorem requests_not_sound : ¬ ∀ (op : RequestOp) (t : Thread Op Op.Res Cm ℤ),
    (callSystem firstClient op .init).Reach (fun _ _ ↦ True) t → Sound t := by
  intro h
  have hsound := h queryIpv4 (callRun queryIpv4 closedDevice) (.exec .init (by decide))
  obtain ⟨msg, hmem, -⟩ := hsound.answered rfl [] [] ⟨1, 1, 1⟩ rfl
  cases hmem

end Wwan.QuectelCm
