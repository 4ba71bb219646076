import Wwan.QuectelCm.Requests

/-!
# What the request functions return

For the main loop a request function is a function of the reply to its request: either a response
is there, or there is none and an error is returned. `OfReply` says that these are exactly the
values that the program can return.
-/

namespace Wwan.QuectelCm

open Bytes Prog

/-- The reply to a request: none, with what `QmiThreadSendQMITimeout` returns, or a response, which
is read from its copy. -/
inductive Reply
  | none (err : ℤ)
  | response (msg : List UInt8)
  deriving DecidableEq

namespace Reply

variable {α β : Type}

/-- What a function makes of the reply, with the check of `qmi_rsp_check_and_return`. -/
def result (fail : ℤ → α) (ok : List UInt8 → α) : Reply → α
  | none err => fail err
  | response msg => if qmuxResult msg ≠ 0 ∨ qmuxError msg ≠ 0 then fail (qmuxError msg) else ok msg

/-- The response of a success. -/
def success : Reply → Option (List UInt8) := result (fun _ ↦ .none) some

/-- There is a response, which is no success. -/
def refused : Reply → Bool
  | none _ => false
  | response msg => (response msg).success.isNone

/-- The error, if there is no success. -/
def error : Reply → ℤ := result id fun _ ↦ 0

/-- What holds of both ways to return. -/
theorem result_cases {r : Reply} {P : α → Prop} {fail : ℤ → α} {ok : List UInt8 → α}
    (hfail : ∀ err, P (fail err)) (hok : ∀ msg, P (ok msg)) : P (r.result fail ok) := by
  cases r with
  | none err => exact hfail err
  | response msg =>
    rw [result]
    split
    · exact hfail _
    · exact hok msg

theorem result_of_success {r : Reply} {msg : List UInt8} (h : r.success = some msg)
    (fail : ℤ → α) (ok : List UInt8 → α) : r.result fail ok = ok msg := by
  cases r with
  | none err => cases h
  | response msg' =>
    rw [success, result] at h
    split at h
    · cases h
    · rename_i hok
      rw [result, if_neg hok, Option.some.inj h]

theorem result_of_failure {r : Reply} (h : r.success = .none) (fail : ℤ → α)
    (ok : List UInt8 → α) : r.result fail ok = fail r.error := by
  cases r with
  | none err => rfl
  | response msg =>
    rw [success, result] at h
    split at h
    · rename_i hfail
      rw [result, error, result, if_pos hfail, if_pos hfail]
      rfl
    · cases h

end Reply

section Leaf

variable {α : Type} {fail : ℤ → α} {ok : List UInt8 → α} {a : α}

theorem leaf_check {k : List UInt8 → CmProg α} (hk : ∀ msg, (k msg).Leaf a ↔ a = ok msg) {err : ℤ}
    {pResponse : Ptr} (h : (qmiRspCheckAndReturn fail err pResponse k).Leaf a) :
    ∃ r : Reply, a = r.result fail ok := by
  rw [qmiRspCheckAndReturn] at h
  split at h
  · exact ⟨.none err, leaf_ret.mp h⟩
  obtain ⟨msg, -, h⟩ := leaf_bind.mp h
  refine ⟨.response msg, ?_⟩
  rw [Reply.result]
  split at h
  · rename_i hmsg
    obtain ⟨-, -, h⟩ := leaf_bind.mp h
    rw [if_pos hmsg]
    exact leaf_ret.mp h
  · rename_i hmsg
    rw [if_neg hmsg]
    exact (hk msg).mp h

/-- A request that is waited for can return each reply. -/
theorem leaf_qmiThreadSendQMI (use : Use) (r : ℕ) (old : Ptr) :
    (∀ err, (qmiThreadSendQMI use (some r) old).Leaf (err, .null)) ∧
      (qmiThreadSendQMI use (some r) old).Leaf (0, .buf 0) :=
  ⟨fun err ↦ .op (0 : ℤ) (.op ((err, .null) : ℤ × Ptr) (by rw [ite_self]; exact .ret _)),
    .op (0 : ℤ) (.op ((0, .buf 0) : ℤ × Ptr) (.ret _))⟩

theorem leaf_request {use : Use} {QMIType : UInt8} {old : Ptr} {k : Ptr → List UInt8 → CmProg α}
    (hk : ∀ pResponse msg, (k pResponse msg).Leaf a ↔ a = ok msg) :
    (request use QMIType old fail k).Leaf a ↔ ∃ r : Reply, a = r.result fail ok := by
  constructor
  · intro h
    obtain ⟨pRequest, -, h⟩ := leaf_bind.mp h
    obtain ⟨⟨err, pResponse⟩, -, h⟩ := leaf_bind.mp h
    exact leaf_check (hk pResponse) h
  · rintro ⟨r, rfl⟩
    obtain ⟨hnull, hbuf⟩ := leaf_qmiThreadSendQMI use 0 old
    refine leaf_bind.mpr ⟨some 0, .op (some 0) (.ret _), ?_⟩
    cases r with
    | none err =>
      refine leaf_bind.mpr ⟨_, hnull err, ?_⟩
      change (qmiRspCheckAndReturn fail err .null _).Leaf _
      rw [qmiRspCheckAndReturn, if_pos (.inr rfl)]
      exact .ret _
    | response msg =>
      refine leaf_bind.mpr ⟨_, hbuf, ?_⟩
      change (qmiRspCheckAndReturn fail 0 (.buf 0) _).Leaf _
      rw [qmiRspCheckAndReturn, if_neg (by decide)]
      refine leaf_bind.mpr ⟨msg, .op msg (.ret _), ?_⟩
      rw [Reply.result] at hk ⊢
      split
      · exact leaf_bind.mpr ⟨(), .op () (.ret _), .ret _⟩
      · rename_i hmsg
        have hok := (hk (.buf 0) msg).mpr (if_neg hmsg)
        rwa [if_neg hmsg] at hok

/-- A response is freed, and a value returned. -/
theorem leaf_freeReturn {pResponse : Ptr} {b : α} :
    (freeResponse pResponse >>= fun _ ↦ (.ret b : CmProg α)).Leaf a ↔ a = b := by
  constructor
  · intro h
    obtain ⟨-, -, h⟩ := leaf_bind.mp h
    exact leaf_ret.mp h
  · rintro rfl
    exact leaf_bind.mpr ⟨(), .op () (.ret _), .ret _⟩

end Leaf

section OfReply

variable {α : Type} {p : CmProg α} {result : Reply → α}

/-- What a program returns is made of one reply. -/
def OfReply (p : CmProg α) (result : Reply → α) : Prop := ∀ a, p.Leaf a ↔ ∃ r, a = result r

/-- So it is in each run, whatever is received meanwhile. -/
theorem OfReply.of_run (h : OfReply p result) {qmidev_send : Header → Header} {s : Cm}
    {t : Thread Op Op.Res Cm α} {a : α}
    (ht : ((cmSemantics qmidev_send).system p s).Reach (fun _ _ ↦ True) t)
    (hret : t.prog = some (.ret a)) : ∃ r, a = result r :=
  (h a).mp (Semantics.reach_leaf ht hret (.ret a))

end OfReply

/-! ## Data calls -/

/-- What `requestQueryDataCall` returns, with `*pConnectionStatus` and the globals. -/
def queryDataCall (r : Reply) (g : Globals) (connectionStatus : UInt8) (curIpFamily : IpFamily) :
    ℤ × UInt8 × Globals :=
  r.result (fun err ↦ (err, connectionStatus, g)) fun msg ↦
    (0, reportedStatus msg,
      if reportedStatus msg = qwdsPktDataDisconnected then g.setHandle 0 curIpFamily else g)

theorem requestQueryDataCall_ofReply (g : Globals) (connectionStatus : UInt8) (f : IpFamily) :
    OfReply (requestQueryDataCall g connectionStatus f) (queryDataCall · g connectionStatus f) :=
  fun _ ↦ leaf_request fun _ _ ↦ leaf_freeReturn

/-- What `requestSetupDataCall` returns, with the globals. -/
def setupDataCall (r : Reply) (g : Globals) (curIpFamily : IpFamily) : ℤ × Globals :=
  r.result (fun err ↦ (err, g)) fun msg ↦
    (0, g.setHandle (startNwInterfaceHandle msg) curIpFamily)

theorem requestSetupDataCall_ofReply (g : Globals) (f : IpFamily) :
    OfReply (requestSetupDataCall g f) (setupDataCall · g f) := by
  rw [requestSetupDataCall_eq]
  exact fun _ ↦ leaf_request fun _ _ ↦ leaf_freeReturn

/-- What `requestDeactivateDefaultPDP` returns, with the globals. -/
def deactivateDefaultPDP (r : Reply) (g : Globals) (curIpFamily : IpFamily) : ℤ × Globals :=
  if g.handle curIpFamily = 0 then (0, g)
  else r.result (fun err ↦ (err, g)) fun _ ↦ (0, g.setHandle 0 curIpFamily)

theorem requestDeactivateDefaultPDP_ofReply (g : Globals) (f : IpFamily) :
    OfReply (requestDeactivateDefaultPDP g f) (deactivateDefaultPDP · g f) := by
  intro a
  rw [requestDeactivateDefaultPDP]
  simp only [deactivateDefaultPDP]
  split
  · exact leaf_ret.trans ⟨fun h ↦ ⟨.none 0, h⟩, fun ⟨_, h⟩ ↦ h⟩
  · exact leaf_request fun _ _ ↦ leaf_freeReturn

/-- What `requestGetIPAddress` returns, with the address. -/
def getIPAddress (r : Reply) (g : Globals) (address : ℕ) (curIpFamily : IpFamily) : ℤ × ℕ :=
  let address := if curIpFamily = .v4 then 0 else address
  if g.handle curIpFamily = 0 then (0, address)
  else r.result (fun err ↦ (err, address)) fun msg ↦ (0, (runtimeIpv4Address msg).getD address)

theorem requestGetIPAddress_ofReply (g : Globals) (address : ℕ) (f : IpFamily) :
    OfReply (requestGetIPAddress g address f) (getIPAddress · g address f) := by
  intro a
  rw [requestGetIPAddress]
  simp only [getIPAddress]
  split
  · exact leaf_ret.trans ⟨fun h ↦ ⟨.none 0, h⟩, fun ⟨_, h⟩ ↦ h⟩
  · exact leaf_request fun _ _ ↦ leaf_freeReturn

/-! ## Registration -/

/-- What the loop of `requestRegistrationState2` leaves. -/
def sysInfos : ℕ → List UInt8 → ℤ → Registration → Registration
  | 0, _, _, r => r
  | fuel + 1, pInfo, remainingLen, r =>
    if remainingLen ≤ 0 then r
    else
      sysInfos fuel (pInfo.drop (field16 pInfo 1 + Tlv.hdrSize))
        (remainingLen - (field16 pInfo 1 + Tlv.hdrSize)) (sysInfo pInfo r)

/-- What `requestRegistrationState` returns, with what it sets. -/
def registrationState (r : Reply) (g : Globals) (pSAttachedState : UInt8) : ℤ × Registration :=
  if g.s_9x07 then
    r.result (fun err ↦ (err, ⟨0, g.s_is_cdma, g.s_hdr_personality, false⟩)) fun msg ↦
      (0, sysInfos (msg.length + 1) (msg.drop hdrsSize) (qmuxMsgHdrLength msg) ⟨0, false, 0, false⟩)
  else
    r.result (fun err ↦ (err, ⟨pSAttachedState, g.s_is_cdma, g.s_hdr_personality, false⟩)) fun msg ↦
      let servingSystem := (tlvBytes msg 0x01).getD []
      let present := (tlvBytes msg 0x01).isSome
      let registered := present ∧ byteAt servingSystem 3 = 0x01
      let pSAttachedState :=
        if registered then byteAt servingSystem 5 else if present then 0x02 else 0
      if registered ∧ byteAt servingSystem 7 ≠ 0 ∧
          (byteAt servingSystem 8 = 0x01 ∨ byteAt servingSystem 8 = 0x02) then
        (0, ⟨pSAttachedState, true, ((tlvBytes msg 0x23).map (byteAt · 3)).getD 0, false⟩)
      else (0, ⟨pSAttachedState, false, g.s_hdr_personality, false⟩)

section Registration

variable {α : Type}

theorem leaf_plainRequest {use : Use} {QMIType : UInt8} {a : ℤ} :
    (plainRequest use QMIType).Leaf a ↔ ∃ r : Reply, a = r.result id fun _ ↦ 0 :=
  leaf_request fun _ _ ↦ leaf_freeReturn

/-- The home network has no influence on what is returned. -/
theorem leaf_requestGetHomeNetwork {k : CmProg α} {a : α} :
    (requestGetHomeNetwork >>= fun _ ↦ k).Leaf a ↔ k.Leaf a := by
  have hleaf : requestGetHomeNetwork.Leaf 0 := leaf_plainRequest.mpr ⟨.none 0, rfl⟩
  constructor
  · intro h
    obtain ⟨-, -, h⟩ := leaf_bind.mp h
    exact h
  · exact fun h ↦ leaf_bind.mpr ⟨0, hleaf, h⟩

theorem leaf_sysInfoLoop {k : Registration → CmProg (ℤ × Registration)} {a : ℤ × Registration}
    {fuel : ℕ} {pInfo : List UInt8} {remainingLen : ℤ} {r : Registration} :
    (sysInfoLoop k fuel pInfo remainingLen r).Leaf a ↔
      (k (sysInfos fuel pInfo remainingLen r)).Leaf a := by
  induction fuel generalizing pInfo remainingLen r with
  | zero => rfl
  | succ fuel ih =>
    rw [sysInfoLoop, sysInfos]
    split
    · rfl
    split
    · rw [leaf_requestGetHomeNetwork, ih]
    · rw [ih]

theorem requestRegistrationState_ofReply (g : Globals) (pSAttachedState : UInt8) :
    OfReply (requestRegistrationState g pSAttachedState)
      (registrationState · g pSAttachedState) := by
  intro a
  rw [requestRegistrationState]
  simp only [registrationState]
  split
  · exact leaf_request fun _ _ ↦ leaf_sysInfoLoop.trans leaf_freeReturn
  · refine leaf_request fun _ msg ↦ ?_
    split
    · exact leaf_requestGetHomeNetwork.trans leaf_freeReturn
    · exact leaf_freeReturn

end Registration

end Wwan.QuectelCm
