import Wwan.QuectelCm.MainLemmas

/-!
# The link state and the state of the calls

After a check each enabled family should be connected only if the query of this check has said so,
`s_link` should have the bits of the connected families, and a `SIG_EVENT_START` should be queued
if a family is not connected. `check_confirmed_iff` says for which states and replies that is so.
The code does not look at the result of the query for IPv6, and it handles neither the link nor the
signal for a status that is neither `CONNECTED` nor `DISCONNECTED`.
-/

namespace Wwan.QuectelCm

/-- A query was successful and has reported a status. -/
def Exchange.Reported (x : Exchange) (status : UInt8) : Prop :=
  ∃ msg ∈ x.reply.success, reportedStatus msg = status

namespace Main

variable (s : Main) (x : CheckInput)

/-- The bits of the families that are enabled and connected. -/
def linkBits : ℕ :=
  (if s.enable .v4 ∧ s.status .v4 = qwdsPktDataConnected then IpFamily.v4.bit else 0) |||
    (if s.enable .v6 ∧ s.status .v6 = qwdsPktDataConnected then IpFamily.v6.bit else 0)

/-- A check has left the link state as the calls are. -/
structure Confirmed : Prop where
  connected : ∀ f, (s.check x).enable f → (s.check x).status f = qwdsPktDataConnected →
    s.Queried f ∧ (x.query f).Reported qwdsPktDataConnected
  link : (s.check x).s_link = (s.check x).linkBits
  start : (∃ f, (s.check x).enable f ∧ (s.check x).status f ≠ qwdsPktDataConnected) →
    .start ∈ (s.check x).signals

/-! ## The condition -/

/-- The query reports a call, which is kept. -/
def ReportedConnected (f : IpFamily) : Prop :=
  s.Queried f ∧ (x.query f).Reported qwdsPktDataConnected ∧ (f = .v4 → s.AddressKept x)

/-- A connected family stays so though its query reports nothing: for IPv6 if the query fails, for
IPv4 if it returns zero without a response. -/
def Unconfirmed (f : IpFamily) : Prop :=
  s.Queried f ∧ s.status f = qwdsPktDataConnected ∧ (x.query f).reply.success = none ∧
    (f = .v4 → (x.query f).reply.error = 0 ∧ s.AddressKept x)

/-- The status is neither `CONNECTED` nor `DISCONNECTED`, because the query reports that or because
nothing has been reported yet. -/
def Undecided (f : IpFamily) : Prop :=
  s.Queried f ∧
    ((∃ msg ∈ (x.query f).reply.success, reportedStatus msg ≠ qwdsPktDataConnected ∧
        reportedStatus msg ≠ qwdsPktDataDisconnected) ∨
      ((x.query f).reply.success = none ∧ s.status f ≠ qwdsPktDataConnected ∧
        (f = .v4 → (x.query f).reply.error = 0)))

/-- When a check leaves the link state as the calls are. With an undecided family the link has to
be up for the other one or down already, and the signal has to come for the other one or be queued
already. -/
structure CheckCondition : Prop where
  confirmed : ∀ f, ¬s.Unconfirmed x f
  undecided : (∃ f, s.Undecided x f) →
    ((∃ f, s.ReportedConnected x f) ∨ s.s_link = 0) ∧
      ((∃ f, s.enable f ∧ ¬s.Undecided x f ∧ ¬s.ReportedConnected x f) ∨ .start ∈ s.signals)

/-! ## What a check does -/

section Check

variable {s x}

/-! ### The status of a family -/

/-- What a check makes of the status of a family. -/
structure Checked (f : IpFamily) (s : Main) (x : CheckInput) (status : UInt8) : Prop where
  connected : status = qwdsPktDataConnected ↔ s.ReportedConnected x f ∨ s.Unconfirmed x f
  undecided : status ≠ qwdsPktDataConnected ∧ status ≠ qwdsPktDataDisconnected ↔ s.Undecided x f

/-- Without a query the family is disconnected. -/
theorem checked_disconnected {f : IpFamily} (h : ¬s.Queried f) :
    Checked f s x qwdsPktDataDisconnected := by
  refine ⟨⟨fun hconnected ↦ absurd hconnected (by decide), ?_⟩,
    ⟨fun hother ↦ absurd rfl hother.2, fun hundecided ↦ absurd hundecided.1 h⟩⟩
  rintro (hconnected | hconnected)
  · exact absurd hconnected.1 h
  · exact absurd hconnected.1 h

/-- The query has reported a status. -/
theorem checked_reported {f : IpFamily} {msg : List UInt8} {status : UInt8} (hq : s.Queried f)
    (hs : (x.query f).reply.success = some msg)
    (hconnected : status = qwdsPktDataConnected ↔
      reportedStatus msg = qwdsPktDataConnected ∧ (f = .v4 → s.AddressKept x))
    (hother : status ≠ qwdsPktDataConnected ∧ status ≠ qwdsPktDataDisconnected ↔
      reportedStatus msg ≠ qwdsPktDataConnected ∧ reportedStatus msg ≠ qwdsPktDataDisconnected) :
    Checked f s x status := by
  constructor
  · rw [hconnected]
    simp [ReportedConnected, Unconfirmed, Exchange.Reported, hq, hs]
  · rw [hother]
    simp [Undecided, hq, hs]

/-- The query has reported nothing. -/
theorem checked_unreported {f : IpFamily} {status : UInt8} (hq : s.Queried f)
    (hs : (x.query f).reply.success = none)
    (hconnected : status = qwdsPktDataConnected ↔ s.status f = qwdsPktDataConnected ∧
      (f = .v4 → (x.query f).reply.error = 0 ∧ s.AddressKept x))
    (hother : status ≠ qwdsPktDataConnected ∧ status ≠ qwdsPktDataDisconnected ↔
      s.status f ≠ qwdsPktDataConnected ∧ (f = .v4 → (x.query f).reply.error = 0)) :
    Checked f s x status := by
  constructor
  · rw [hconnected]
    simp [ReportedConnected, Unconfirmed, Exchange.Reported, hq, hs]
  · rw [hother]
    simp [Undecided, hq, hs]

/-- A connected family stays so under a condition, and the others keep their status. -/
def keptStatus (status : UInt8) (p : Prop) [Decidable p] : UInt8 :=
  if status = qwdsPktDataConnected then
    if p then qwdsPktDataConnected else qwdsPktDataDisconnected
  else status

theorem keptStatus_connected {status : UInt8} {p : Prop} [Decidable p] :
    keptStatus status p = qwdsPktDataConnected ↔ status = qwdsPktDataConnected ∧ p := by
  rw [keptStatus]
  by_cases hstatus : status = qwdsPktDataConnected
  · by_cases hp : p
    · simp [hstatus, hp]
    · simp [hstatus, hp, qwdsPktDataConnected, qwdsPktDataDisconnected]
  · simp [hstatus]

theorem keptStatus_other {status : UInt8} {p : Prop} [Decidable p] :
    keptStatus status p ≠ qwdsPktDataConnected ∧ keptStatus status p ≠ qwdsPktDataDisconnected ↔
      status ≠ qwdsPktDataConnected ∧ status ≠ qwdsPktDataDisconnected := by
  rw [keptStatus]
  by_cases hstatus : status = qwdsPktDataConnected
  · by_cases hp : p
    · simp [hstatus, hp]
    · simp [hstatus, hp]
  · simp [hstatus]

/-- What becomes of the status for IPv4 when the query has returned zero. -/
theorem status_checkIpv4 (hq : s.Queried .v4)
    (hzero : (s.requestQueryDataCall .v4 x.query4).1 = 0) {status : UInt8}
    (hstatus : (s.requestQueryDataCall .v4 x.query4).2.status .v4 = status) :
    (s.checkIpv4 x).status .v4 = keptStatus status (s.AddressKept x) := by
  subst hstatus
  rw [checkIpv4, if_pos hq, keptStatus]
  dsimp only
  rw [if_pos hzero]
  split
  · rename_i hconnected
    have hglobals : (s.requestQueryDataCall .v4 x.query4).2.globals = s.globals := by
      refine requestQueryDataCall_globals fun msg hmsg ↦ ?_
      rw [← (requestQueryDataCall_success hmsg).2, hconnected]
      decide
    have hkept := addressKept_congr (x := x) (congrArg (Globals.handle · .v4) hglobals)
      (requestQueryDataCall_address .v4 x.query4)
    rw [status_address hconnected, if_congr hkept rfl rfl]
  · rename_i hother
    exact status_address_of_ne hother

theorem checked_checkIpv4 : Checked .v4 s x ((s.checkIpv4 x).status .v4) := by
  by_cases hq : s.Queried .v4
  swap
  · rw [checkIpv4, if_neg hq, status_setStatus]
    exact checked_disconnected hq
  cases hs : x.query4.reply.success with
  | some msg =>
    obtain ⟨hzero, hstatus⟩ := requestQueryDataCall_success (s := s) (f := .v4) hs
    rw [status_checkIpv4 hq hzero hstatus]
    exact checked_reported hq hs (keptStatus_connected.trans (by simp)) keptStatus_other
  | none =>
    obtain ⟨herror, hstatus⟩ := requestQueryDataCall_failure (s := s) (f := .v4) hs
    by_cases hzero : x.query4.reply.error = 0
    · rw [status_checkIpv4 hq (herror.trans hzero) hstatus]
      refine checked_unreported hq hs (keptStatus_connected.trans ?_) (keptStatus_other.trans ?_)
      · simp [CheckInput.query, hzero]
      · simp [CheckInput.query, hzero, hq.2]
    · rw [checkIpv4, if_pos hq]
      dsimp only
      rw [herror, if_neg hzero, status_setStatus]
      refine checked_unreported hq hs ?_ ?_
      · simp [CheckInput.query, hzero, qwdsPktDataConnected, qwdsPktDataDisconnected]
      · simp [CheckInput.query, hzero]

theorem checked_checkIpv6 : Checked .v6 s x ((s.checkIpv6 x).status .v6) := by
  by_cases hq : s.Queried .v6
  swap
  · rw [checkIpv6, if_neg hq, status_setStatus]
    exact checked_disconnected hq
  rw [checkIpv6, if_pos hq]
  cases hs : x.query6.reply.success with
  | some msg =>
    rw [(requestQueryDataCall_success hs).2]
    exact checked_reported hq hs (by simp) Iff.rfl
  | none =>
    rw [(requestQueryDataCall_failure hs).2]
    exact checked_unreported hq hs (by simp) (by simp [hq.2])

theorem Checked.disconnected {f : IpFamily} {status : UInt8} (h : Checked f s x status) :
    status = qwdsPktDataDisconnected ↔
      ¬s.ReportedConnected x f ∧ ¬s.Unconfirmed x f ∧ ¬s.Undecided x f := by
  rw [← and_assoc, ← not_or, ← h.connected, ← h.undecided]
  constructor
  · rintro rfl
    exact ⟨by decide, fun hother ↦ hother.2 rfl⟩
  · rintro ⟨hconnected, hother⟩
    by_contra hdisconnected
    exact hother ⟨hconnected, hdisconnected⟩

/-- The registration has no influence on the calls. -/
theorem checked_congr {s' : Main} {f : IpFamily} {status : UInt8}
    (henable : s'.enable f = s.enable f)
    (hstatus : s'.status f = s.status f)
    (hkept : f = .v4 → (s'.AddressKept x ↔ s.AddressKept x)) (h : Checked f s' x status) :
    Checked f s x status := by
  have hq : s'.Queried f ↔ s.Queried f := by rw [Queried, Queried, henable, hstatus]
  obtain ⟨hconnected, hundecided⟩ := h
  refine ⟨hconnected.trans ?_, hundecided.trans ?_⟩
  · rw [ReportedConnected, ReportedConnected, Unconfirmed, Unconfirmed, hq, hstatus,
      forall_congr' hkept]
    refine or_congr Iff.rfl (and_congr Iff.rfl (and_congr Iff.rfl (and_congr Iff.rfl ?_)))
    exact forall_congr' fun hf ↦ and_congr Iff.rfl (hkept hf)
  · rw [Undecided, Undecided, hq, hstatus]

/-! ### The link and the signal -/

theorem someDisconnected_iff :
    s.someDisconnected ↔ ∃ f, s.enable f ∧ s.status f = qwdsPktDataDisconnected := by
  rw [someDisconnected, Bool.or_eq_true, Bool.and_eq_true, Bool.and_eq_true, beq_iff_eq, beq_iff_eq]
  constructor
  · rintro (h | h)
    · exact ⟨.v4, h⟩
    · exact ⟨.v6, h⟩
  · rintro ⟨_ | _, h⟩
    · exact .inl h
    · exact .inr h

theorem someConnected_iff : s.someConnected ↔ ∃ f, s.status f = qwdsPktDataConnected := by
  rw [someConnected, Bool.or_eq_true, beq_iff_eq, beq_iff_eq]
  constructor
  · rintro (h | h)
    · exact ⟨.v4, h⟩
    · exact ⟨.v6, h⟩
  · rintro ⟨_ | _, h⟩
    · exact .inl h
    · exact .inr h

theorem linkBits_eq_zero (h : ∀ f, s.status f ≠ qwdsPktDataConnected) : s.linkBits = 0 := by
  rw [linkBits, if_neg fun hboth ↦ h .v4 hboth.2, if_neg fun hboth ↦ h .v6 hboth.2]
  rfl

theorem connectedBits_eq (h : ∀ f, s.status f = qwdsPktDataConnected → s.enable f) :
    s.connectedBits = s.linkBits := by
  have hboth : ∀ f, (s.enable f ∧ s.status f = qwdsPktDataConnected) ↔
      s.status f = qwdsPktDataConnected := fun f ↦ ⟨fun hf ↦ hf.2, fun hf ↦ ⟨h f hf, hf⟩⟩
  simp only [linkBits, connectedBits, hboth]

theorem usbnetLinkChange_s_link (link : ℕ) : (s.usbnetLinkChange link).s_link = link := by
  rw [usbnetLinkChange]
  split
  · assumption
  · rfl

theorem changeLink_signals : s.changeLink.signals = s.signals := by
  have hchange (link : ℕ) : (s.usbnetLinkChange link).signals = s.signals := by
    rw [usbnetLinkChange]
    split <;> rfl
  rw [changeLink]
  split
  · exact hchange 0
  split
  · exact hchange s.connectedBits
  · rfl

theorem queueStart_s_link : s.queueStart.s_link = s.s_link := by
  rw [queueStart]
  split <;> rfl

theorem mem_queueStart :
    .start ∈ s.queueStart.signals ↔ s.someDisconnected ∨ .start ∈ s.signals := by
  rw [queueStart]
  split
  · rename_i h
    simp [sendSignoToMain, h]
  · rename_i h
    simp [h]

/-! ### The check -/

theorem checkCalls_spec (s : Main) (x : CheckInput) :
    (s.checkCalls x).enable = s.enable ∧ (s.checkCalls x).s_link = s.s_link ∧
      (s.checkCalls x).signals = s.signals ∧
      ∀ f, Checked f s x ((s.checkCalls x).status f) := by
  obtain ⟨hsame, hprofile, hlink, hsignals⟩ := checkRegistration_same s x.registration
  rw [checkCalls]
  generalize s.checkRegistration x.registration = t at hsame hprofile hlink hsignals ⊢
  have haddress : t.AddressKept x ↔ s.AddressKept x :=
    addressKept_congr (by rw [hsame.handle]) (by rw [hprofile])
  have h4 : Others .v4 t (t.checkIpv4 x) := others_checkIpv4
  have h6 : Others .v6 (t.checkIpv4 x) ((t.checkIpv4 x).checkIpv6 x) := others_checkIpv6
  refine ⟨by rw [h6.enable, h4.enable, hsame.enable], by rw [h6.s_link, h4.s_link, hlink],
    by rw [h6.signals, h4.signals, hsignals], fun f ↦ ?_⟩
  cases f with
  | v4 =>
    rw [h6.status .v4 (by decide)]
    exact checked_congr (by rw [hsame.enable]) (by rw [hsame.status]) (fun _ ↦ haddress)
      checked_checkIpv4
  | v6 =>
    have hstatus : (t.checkIpv4 x).status .v6 = s.status .v6 := by
      rw [h4.status .v6 (by decide), hsame.status]
    exact checked_congr (by rw [h4.enable, hsame.enable]) hstatus (fun hf ↦ by cases hf)
      checked_checkIpv6

theorem check_enable (s : Main) (x : CheckInput) : (s.check x).enable = s.enable := by
  rw [check, sameCalls_queueStart.enable, sameCalls_changeLink.enable, (checkCalls_spec s x).1]

theorem check_status (s : Main) (x : CheckInput) :
    (s.check x).status = (s.checkCalls x).status := by
  rw [check, sameCalls_queueStart.status, sameCalls_changeLink.status]

theorem checked_check (s : Main) (x : CheckInput) (f : IpFamily) :
    Checked f s x ((s.check x).status f) := by
  rw [check_status]
  exact (checkCalls_spec s x).2.2.2 f

theorem mem_check_signals :
    .start ∈ (s.check x).signals ↔
      (∃ f, s.enable f ∧ (s.check x).status f = qwdsPktDataDisconnected) ∨ .start ∈ s.signals := by
  rw [check, mem_queueStart, someDisconnected_iff, sameCalls_queueStart.status, changeLink_signals,
    (checkCalls_spec s x).2.2.1, sameCalls_changeLink.enable, (checkCalls_spec s x).1]

theorem check_s_link_disconnected (h : ∀ f, (s.check x).status f = qwdsPktDataDisconnected) :
    (s.check x).s_link = 0 := by
  rw [check_status] at h
  rw [check, queueStart_s_link, changeLink, if_pos ⟨h .v4, h .v6⟩]
  exact usbnetLinkChange_s_link 0

theorem check_s_link_connected (h : ∃ f, (s.check x).status f = qwdsPktDataConnected)
    (henable : ∀ f, (s.check x).status f = qwdsPktDataConnected → s.enable f) :
    (s.check x).s_link = (s.check x).linkBits := by
  have hbits : (s.check x).linkBits = (s.checkCalls x).linkBits := by
    rw [linkBits, linkBits, check_status, check_enable, (checkCalls_spec s x).1]
  rw [hbits]
  rw [check_status] at h henable
  rw [check, queueStart_s_link, changeLink, if_neg, if_pos (someConnected_iff.mpr h),
    usbnetLinkChange_s_link, connectedBits_eq]
  · rwa [(checkCalls_spec s x).1]
  · rintro ⟨h4, h6⟩
    obtain ⟨_ | _, hf⟩ := h
    · exact absurd (hf.symm.trans h4) (by decide)
    · exact absurd (hf.symm.trans h6) (by decide)

theorem check_s_link_undecided (hsome : ¬∀ f, (s.check x).status f = qwdsPktDataDisconnected)
    (hnone : ∀ f, (s.check x).status f ≠ qwdsPktDataConnected) :
    (s.check x).s_link = s.s_link := by
  rw [check_status] at hsome hnone
  rw [check, queueStart_s_link, changeLink, if_neg, if_neg, (checkCalls_spec s x).2.1]
  · rw [someConnected_iff]
    exact not_exists.mpr hnone
  · rintro ⟨h4, h6⟩
    refine hsome fun f ↦ ?_
    cases f
    · exact h4
    · exact h6

end Check

/-! ## When a check is as it should be -/

section Confirmed

variable {s : Main} {x : CheckInput}

theorem CheckCondition.connected (h : s.CheckCondition x) {f : IpFamily} :
    (s.check x).status f = qwdsPktDataConnected ↔ s.ReportedConnected x f := by
  rw [(checked_check s x f).connected, or_iff_left (h.confirmed f)]

theorem CheckCondition.disconnected (h : s.CheckCondition x) {f : IpFamily} :
    (s.check x).status f = qwdsPktDataDisconnected ↔
      ¬s.ReportedConnected x f ∧ ¬s.Undecided x f := by
  rw [(checked_check s x f).disconnected]
  exact ⟨fun hf ↦ ⟨hf.1, hf.2.2⟩, fun hf ↦ ⟨hf.1, h.confirmed f, hf.2⟩⟩

theorem CheckCondition.holds (h : s.CheckCondition x) : s.Confirmed x := by
  have henable : ∀ f, (s.check x).status f = qwdsPktDataConnected → s.enable f :=
    fun f hf ↦ (h.connected.mp hf).1.1
  refine ⟨fun f _ hf ↦ ⟨(h.connected.mp hf).1, (h.connected.mp hf).2.1⟩, ?_, ?_⟩
  · by_cases hconnected : ∃ f, (s.check x).status f = qwdsPktDataConnected
    · exact check_s_link_connected hconnected henable
    have hnone : ∀ f, (s.check x).status f ≠ qwdsPktDataConnected := not_exists.mp hconnected
    rw [linkBits_eq_zero hnone]
    by_cases hall : ∀ f, (s.check x).status f = qwdsPktDataDisconnected
    · exact check_s_link_disconnected hall
    rw [check_s_link_undecided hall hnone]
    -- an undecided family, and none that is connected
    obtain ⟨f, hf⟩ := not_forall.mp hall
    have hundecided := (checked_check s x f).undecided.mp ⟨hnone f, hf⟩
    obtain ⟨f', hf'⟩ | hlink := (h.undecided ⟨f, hundecided⟩).1
    · exact absurd (h.connected.mpr hf') (hnone f')
    · exact hlink
  · rintro ⟨f, hf, hother⟩
    rw [check_enable] at hf
    rw [mem_check_signals]
    by_cases hdown : (s.check x).status f = qwdsPktDataDisconnected
    · exact .inl ⟨f, hf, hdown⟩
    have hundecided := (checked_check s x f).undecided.mp ⟨hother, hdown⟩
    obtain ⟨f', henable', hopen, hreported⟩ | hqueued := (h.undecided ⟨f, hundecided⟩).2
    · exact .inl ⟨f', henable', h.disconnected.mpr ⟨hreported, hopen⟩⟩
    · exact .inr hqueued

theorem Confirmed.condition (h : s.Confirmed x) : s.CheckCondition x := by
  have hconfirmed : ∀ f, ¬s.Unconfirmed x f := by
    intro f hf
    have hstatus := (checked_check s x f).connected.mpr (.inr hf)
    obtain ⟨msg, hmsg, -⟩ := (h.connected f (by rw [check_enable]; exact hf.1.1) hstatus).2
    rw [hf.2.2.1] at hmsg
    cases hmsg
  refine ⟨hconfirmed, ?_⟩
  rintro ⟨f, hf⟩
  have hother := (checked_check s x f).undecided.mpr hf
  constructor
  · rw [or_iff_not_imp_left]
    intro hreported
    have hnone : ∀ f, (s.check x).status f ≠ qwdsPktDataConnected := by
      intro f' hf'
      obtain hf' | hf' := (checked_check s x f').connected.mp hf'
      · exact hreported ⟨f', hf'⟩
      · exact hconfirmed f' hf'
    rw [← check_s_link_undecided (fun hall ↦ hother.2 (hall f)) hnone, h.link,
      linkBits_eq_zero hnone]
    rfl
  · obtain ⟨f', henable, hdown⟩ | hqueued :=
      mem_check_signals.mp (h.start ⟨f, by rw [check_enable]; exact hf.1.1, hother.1⟩)
    · obtain ⟨hreported, -, hopen⟩ := (checked_check s x f').disconnected.mp hdown
      exact .inl ⟨f', henable, hopen, hreported⟩
    · exact .inr hqueued

/-- A check leaves the link state as the calls are exactly under the condition. -/
theorem check_confirmed_iff (s : Main) (x : CheckInput) : s.Confirmed x ↔ s.CheckCondition x :=
  ⟨Confirmed.condition, CheckCondition.holds⟩

end Confirmed

end Main

/-! ## Runs -/

/-- A property of the checks among the steps; the signal has been read. -/
def MainStep.OfCheck (P : Main → CheckInput → Prop) (s : Main) : MainStep → Prop
  | .check x => P s.readSigno x
  | _ => True

/-- In all runs the checks leave the link state as the calls are exactly if all checks meet the
condition. -/
theorem runs_confirmed_iff (profile : MainProfile) (globals : Globals) (pSAttachedState : UInt8)
    (s_link : ℤ) (now : ℕ) (es : List MainStep) :
    (mainSystem (fun _ _ ↦ True) (.init profile globals pSAttachedState s_link now)).Along
        (MainStep.OfCheck Main.Confirmed) (.init profile globals pSAttachedState s_link now) es ↔
      (mainSystem (fun _ _ ↦ True) (.init profile globals pSAttachedState s_link now)).Along
        (MainStep.OfCheck Main.CheckCondition)
        (.init profile globals pSAttachedState s_link now) es := by
  refine System.along_congr (fun s e _ ↦ ?_) _ es
  cases e with
  | check x => exact Main.check_confirmed_iff s.readSigno x
  | start => exact Iff.rfl
  | stop => exact Iff.rfl
  | event => exact Iff.rfl
  | signal => exact Iff.rfl
  | drop => exact Iff.rfl

/-- Only IPv6 is enabled, and the network is there. -/
def ipv6Init : Main :=
  .init ⟨{ ipv4Profile with enable_ipv4 := false, enable_ipv6 := true }, 0, 0, 0⟩
    ⟨false, false, 0, 0, 0⟩ 1 (-1) 0

/-- A check with a query for IPv6. -/
def checkIpv6Input (query6 : Exchange) : CheckInput :=
  ⟨.none 110, .timeout, .timeout, .timeout, .timeout, query6⟩

/-- A call for IPv6 is set up, and then the query for it times out. -/
def ipv6QueryTimeout : List MainStep :=
  [.check (checkIpv6Input (.answer 0x22 [0x01, 1, 0, 0x01])),
    .start 0 0 ⟨.timeout, .timeout, .timeout, .grant 7,
      .answer 0x2D []⟩,
    .signal .check,
    .check (checkIpv6Input .timeout)]

/-- The call is still taken for connected. -/
theorem ipv6QueryTimeout_not_confirmed : ¬ ∀ es : List MainStep,
    (mainSystem (fun _ _ ↦ True) ipv6Init).Along (fun _ _ ↦ True) ipv6Init es →
      (mainSystem (fun _ _ ↦ True) ipv6Init).Along (MainStep.OfCheck Main.Confirmed) ipv6Init
        es := by
  intro h
  obtain ⟨-, -, -, -, -, -, -, hcheck, -⟩ := h ipv6QueryTimeout (by decide)
  obtain ⟨msg, hmsg, -⟩ := (Main.Confirmed.connected hcheck .v6 rfl rfl).2
  cases hmsg

end Wwan.QuectelCm
