import Wwan.QuectelCm.MainLemmas

/-!
# Data calls are not lost

A call that the modem holds is given back only if its family is connected and its handle is known:
`SIG_EVENT_STOP` sends deactivate requests for connected families only, and `SIG_EVENT_START` sets
up a call for each family that is not connected. The status is set by a second request after the
set-up, and by the queries, so that it can differ from what the modem holds. `Fair` says which
replies keep the two together, and `dataCalls_noLeak` that then no call is lost.
-/

namespace Wwan.QuectelCm

/-- No handle of a call that is held was overwritten, and at the end a deactivate request was sent
for all calls that are held. -/
structure Main.NoLeak (s : Main) : Prop where
  overwritten : s.overwritten = false
  stopped : s.stopped → ∀ c ∈ s.held, c ∈ s.deactivated

/-! ## The modem -/

/-- The modem tells of the calls that it starts, if its response arrives; what was not sent has no
effect. -/
structure Exchange.HonestSetup (x : Exchange) : Prop where
  success : ∀ msg ∈ x.reply.success, x.granted = some (startNwInterfaceHandle msg)
  refused : x.reply.refused → x.granted = none
  notSent : x.sent = false → x.granted = none ∧ x.reply.success = none

instance (x : Exchange) : Decidable x.HonestSetup :=
  decidable_of_iff ((∀ msg ∈ x.reply.success, x.granted = some (startNwInterfaceHandle msg)) ∧
      (x.reply.refused → x.granted = none) ∧
      (x.sent = false → x.granted = none ∧ x.reply.success = none))
    ⟨fun h ↦ ⟨h.1, h.2.1, h.2.2⟩, fun h ↦ ⟨h.success, h.refused, h.notSent⟩⟩

/-- The modem tells of the calls that it ends. -/
structure Exchange.HonestDeactivate (x : Exchange) : Prop where
  success : x.reply.success ≠ none → x.released
  notSent : x.sent = false → x.reply.success = none

instance (x : Exchange) : Decidable x.HonestDeactivate :=
  decidable_of_iff ((x.reply.success ≠ none → x.released) ∧
      (x.sent = false → x.reply.success = none))
    ⟨fun h ↦ ⟨h.1, h.2⟩, fun h ↦ ⟨h.success, h.notSent⟩⟩

/-- A query that reports that a family is disconnected, and not only that it has to be set up
again. -/
def reportsDisconnected (msg : List UInt8) : Prop :=
  ∃ pPktSrvc ∈ tlvBytes msg 0x01, byteAt pPktSrvc 3 = qwdsPktDataDisconnected

instance (msg : List UInt8) : Decidable (reportsDisconnected msg) :=
  inferInstanceAs (Decidable (∃ pPktSrvc ∈ _, _))

/-- The modem does not report a call disconnected that it holds. -/
def Main.HonestQuery (s : Main) (f : IpFamily) (x : Exchange) : Prop :=
  ∀ c ∈ (s.drop x.dropped).held, c.1 = f → ∀ msg ∈ x.reply.success, ¬reportsDisconnected msg

instance (s : Main) (f : IpFamily) (x : Exchange) : Decidable (s.HonestQuery f x) :=
  inferInstanceAs (Decidable (∀ c ∈ _, _ → ∀ msg ∈ _, ¬_))

/-- What the modem can do in a step. -/
def MainStep.Honest (s : Main) : MainStep → Prop
  | .start _ _ x => x.setup4.HonestSetup ∧ x.retry4.HonestSetup ∧ x.setup6.HonestSetup
  | .check x =>
    let s := s.readSigno.checkRegistration x.registration
    s.HonestQuery .v4 x.query4 ∧ x.deactivate4.HonestDeactivate ∧
      (s.checkIpv4 x).HonestQuery .v6 x.query6
  | .stop x => x.deactivate4.HonestDeactivate ∧ x.deactivate6.HonestDeactivate
  | .event .. | .signal _ | .drop _ => True

instance MainStep.decidableHonest (s : Main) : (e : MainStep) → Decidable (e.Honest s)
  | .start _ _ _ => inferInstanceAs (Decidable (_ ∧ _ ∧ _))
  | .check _ => inferInstanceAs (Decidable (_ ∧ _ ∧ _))
  | .stop _ => inferInstanceAs (Decidable (_ ∧ _))
  | .event .. => .isTrue trivial
  | .signal _ => .isTrue trivial
  | .drop _ => .isTrue trivial

/-! ## The condition -/

/-- A call that the modem starts is answered, with a handle that is not zero, and the address
request after it does not fail while the modem holds the call. -/
def Exchange.FairSetup (f : IpFamily) (x address : Exchange) : Prop :=
  ∀ h ∈ x.granted, h ≠ 0 ∧ x.reply.success ≠ none ∧
    ((f, h) ∈ address.dropped ∨ address.reply.error = 0)

instance (f : IpFamily) (x address : Exchange) : Decidable (x.FairSetup f address) :=
  inferInstanceAs (Decidable (∀ h ∈ _, _ ∧ _ ∧ _))

namespace Main

variable (s : Main)

/-- The set-up is tried again, with the other authentication. -/
def Retried (x : StartInput) : Prop := 0 < x.setup4.reply.error ∧ s.hasCredentials

instance (x : StartInput) : Decidable (s.Retried x) := inferInstanceAs (Decidable (_ ∧ _))

/-- A `SIG_EVENT_START` leaves each call that it sets up connected. -/
def FairStart (now : ℕ) (x : StartInput) : Prop :=
  s.MaySetup now →
    (s.enable .v4 ∧ s.status .v4 ≠ qwdsPktDataConnected →
      x.setup4.FairSetup .v4 x.address4 ∧ (s.Retried x → x.retry4.FairSetup .v4 x.address4)) ∧
    (s.enable .v6 ∧ s.status .v6 ≠ qwdsPktDataConnected → x.setup6.FairSetup .v6 x.address6)

instance (now : ℕ) (x : StartInput) : Decidable (s.FairStart now x) :=
  inferInstanceAs (Decidable (_ → (_ → _ ∧ (_ → _)) ∧ (_ → _)))

/-- The query for a family whose call is held does not fail for IPv4, and reports a connected call
if it is answered. -/
def FairQuery (f : IpFamily) (x : Exchange) : Prop :=
  ∀ c ∈ (s.drop x.dropped).held, c.1 = f →
    (∀ msg ∈ x.reply.success, reportedStatus msg = qwdsPktDataConnected) ∧
      (f = .v4 → x.reply.success = none → x.reply.error = 0)

instance (f : IpFamily) (x : Exchange) : Decidable (s.FairQuery f x) :=
  inferInstanceAs (Decidable (∀ c ∈ _, _ → (∀ msg ∈ _, _) ∧ (_ → _ → _)))

/-- The address of a call that is held is found and has not changed, or the call ends. -/
def FairAddress (x : CheckInput) : Prop :=
  ∀ c ∈ (s.drop x.query4.dropped).held, c.1 = .v4 →
    s.AddressKept x ∨ (s.profile.address = 0 ∧ c ∈ x.address4.dropped) ∨
      ((s.profile.address = 0 → x.address4.reply.error = 0) ∧
        (c ∈ x.check4.dropped ∨ c ∈ x.deactivate4.dropped ∨
          x.deactivate4.sent ∧ x.deactivate4.released))

instance (x : CheckInput) : Decidable (s.FairAddress x) :=
  inferInstanceAs (Decidable (∀ c ∈ _, _ → _ ∨ _ ∨ _))

/-- A `SIG_EVENT_CHECK` leaves each call that is held connected. -/
def FairCheck (x : CheckInput) : Prop :=
  let s := s.checkRegistration x.registration
  s.FairQuery .v4 x.query4 ∧ s.FairAddress x ∧ (s.checkIpv4 x).FairQuery .v6 x.query6

instance (x : CheckInput) : Decidable (s.FairCheck x) := inferInstanceAs (Decidable (_ ∧ _ ∧ _))

/-- The deactivate request for a call that is held can be sent. -/
def FairDeactivate (f : IpFamily) (x : Exchange) : Prop :=
  ∀ c ∈ (s.drop x.dropped).held, c.1 = f → x.sent

instance (f : IpFamily) (x : Exchange) : Decidable (s.FairDeactivate f x) :=
  inferInstanceAs (Decidable (∀ c ∈ _, _ → _))

/-- The deactivate requests of `SIG_EVENT_STOP` can be sent. -/
def FairStop (x : StopInput) : Prop :=
  s.FairDeactivate .v4 x.deactivate4 ∧
    (s.deactivateConnected .v4 x.deactivate4).FairDeactivate .v6 x.deactivate6

instance (x : StopInput) : Decidable (s.FairStop x) := inferInstanceAs (Decidable (_ ∧ _))

end Main

/-- The steps after which no call is lost. -/
def MainStep.Fair (s : Main) : MainStep → Prop
  | .start now _ x => s.readSigno.FairStart now x
  | .check x => s.readSigno.FairCheck x
  | .stop x => s.readSigno.FairStop x
  | .event .. | .signal _ | .drop _ => True

instance MainStep.decidableFair (s : Main) : (e : MainStep) → Decidable (e.Fair s)
  | .start _ _ _ => inferInstanceAs (Decidable (Main.FairStart _ _ _))
  | .check _ => inferInstanceAs (Decidable (Main.FairCheck _ _))
  | .stop _ => inferInstanceAs (Decidable (Main.FairStop _ _))
  | .event .. => .isTrue trivial
  | .signal _ => .isTrue trivial
  | .drop _ => .isTrue trivial

/-! ## The invariant -/

namespace Main

/-- Each call of a family that is held is connected, and its handle is known. -/
def Accounted (f : IpFamily) (s : Main) : Prop :=
  ∀ h, (f, h) ∈ s.held → s.enable f ∧ s.status f = qwdsPktDataConnected ∧
    s.globals.handle f = h ∧ h ≠ 0

section Accounted

variable {s s' : Main} {f f' : IpFamily} {x : Exchange}

/-- What is done for one family leaves the other as it is. -/
theorem Others.accounted (h : Others f s s') (hf : f' ≠ f) (hs : s.Accounted f') :
    s'.Accounted f' := by
  intro handle hheld
  rw [h.enable, h.status f' hf, h.handle f' hf]
  exact hs handle (h.held f' handle hf hheld)

theorem Accounted.drop (hs : s.Accounted f) (dropped : List DataCall) :
    (s.drop dropped).Accounted f :=
  fun h hheld ↦ hs h (mem_drop.mp hheld).1

/-! ### Set-up -/

/-- A call that was just set up: its handle is known, and it has a reply. -/
structure NewCall (f : IpFamily) (r : ℤ × Main) (h : ℕ) : Prop where
  enable : r.2.enable f
  success : r.1 = 0
  handle : r.2.globals.handle f = h
  ne_zero : h ≠ 0

theorem setupDataCall_fst (r : Reply) (g : Globals) (f : IpFamily) :
    (setupDataCall r g f).1 = r.error := by
  rw [setupDataCall]
  cases hs : r.success with
  | some msg => rw [Reply.result_of_success hs, Reply.error, Reply.result_of_success hs]
  | none => rw [Reply.result_of_failure hs]

theorem getIPAddress_fst {g : Globals} (hg : g.handle f ≠ 0) (r : Reply) (address : ℕ) :
    (getIPAddress r g address f).1 = r.error := by
  rw [getIPAddress, if_neg hg]
  cases hs : r.success with
  | some msg => rw [Reply.result_of_success hs, Reply.error, Reply.result_of_success hs]
  | none => rw [Reply.result_of_failure hs]

theorem others_requestSetupDataCall (f : IpFamily) (x : Exchange) :
    Others f s (s.requestSetupDataCall f x).2 := by
  refine ⟨rfl, fun _ _ ↦ rfl, rfl, rfl, fun f' hf ↦ ?_, fun f' h hf hheld ↦ ?_, rfl⟩
  · exact Reply.result_cases (P := fun a : ℤ × Globals ↦ a.2.handle f' = s.globals.handle f')
      (fun _ ↦ rfl) fun _ ↦ s.globals.handle_setHandle_of_ne _ hf
  · obtain hgranted | hheld := List.mem_append.mp hheld
    · obtain ⟨h', -, hcall⟩ := Option.map_eq_some_iff.mp (Option.mem_toList.mp hgranted)
      exact absurd (congrArg Prod.fst hcall).symm hf
    · exact (mem_drop.mp hheld).1

/-- While no call of the family is held, a set-up overwrites nothing. -/
theorem requestSetupDataCall_overwritten (hnone : ∀ h, (f, h) ∉ s.held) :
    (s.requestSetupDataCall f x).2.overwritten = s.overwritten := by
  have hold : (f, s.globals.handle f) ∉ (s.drop x.dropped).held :=
    fun hheld ↦ hnone _ (mem_drop.mp hheld).1
  change (s.overwritten || _ && decide ((f, s.globals.handle f) ∈ (s.drop x.dropped).held)) = _
  rw [decide_eq_false hold, Bool.and_false, Bool.or_false]

/-- A call that is held after the set-up is that of the set-up. -/
theorem requestSetupDataCall_held (hnone : ∀ h, (f, h) ∉ s.held) (henable : s.enable f)
    (hhonest : x.HonestSetup) (hfair : ∀ h ∈ x.granted, h ≠ 0 ∧ x.reply.success ≠ none) {h : ℕ}
    (hheld : (f, h) ∈ (s.requestSetupDataCall f x).2.held) :
    x.granted = some h ∧ NewCall f (s.requestSetupDataCall f x) h := by
  obtain hmem | hmem := List.mem_append.mp hheld
  swap
  · exact absurd (mem_drop.mp hmem).1 (hnone h)
  obtain ⟨h', hgranted, hcall⟩ := Option.map_eq_some_iff.mp (Option.mem_toList.mp hmem)
  obtain rfl : h' = h := congrArg Prod.snd hcall
  obtain ⟨hne, hsuccess⟩ := hfair h' hgranted
  obtain ⟨msg, hmsg⟩ := Option.ne_none_iff_exists'.mp hsuccess
  have hhandle : startNwInterfaceHandle msg = h' :=
    Option.some.inj ((hhonest.success msg hmsg).symm.trans hgranted)
  have hsetup : setupDataCall x.reply s.globals f =
      (0, s.globals.setHandle (startNwInterfaceHandle msg) f) :=
    Reply.result_of_success hmsg _ _
  refine ⟨hgranted, henable, ?_, ?_, hne⟩
  · change (setupDataCall x.reply s.globals f).1 = 0
    rw [hsetup]
  · change (setupDataCall x.reply s.globals f).2.handle f = h'
    rw [hsetup, ← hhandle]
    exact s.globals.handle_setHandle _ f

/-- The second attempt differs from the first only in the authentication. -/
theorem retrySetup_eq (s : Main) (x : Exchange) :
    ∃ auth, s.retrySetup x = ((s.requestSetupDataCall .v4 x).1,
      { (s.requestSetupDataCall .v4 x).2 with profile := { s.profile with auth := auth } }) := by
  by_cases hsetup : (s.requestSetupDataCall .v4 x).1 = 0
  · exact ⟨if s.profile.auth = 1 then 2 else 1, if_pos hsetup⟩
  · exact ⟨s.profile.auth, if_neg hsetup⟩

section SetupIpv4

variable {x : StartInput}

theorem setupIpv4_not_retried (h : ¬s.Retried x) :
    s.setupIpv4 x = s.requestSetupDataCall .v4 x.setup4 := by
  rw [setupIpv4]
  refine if_neg fun hretry ↦ h ⟨?_, hretry.2⟩
  rw [← setupDataCall_fst]
  exact hretry.1

theorem setupIpv4_retried (h : s.Retried x) :
    s.setupIpv4 x = (s.requestSetupDataCall .v4 x.setup4).2.retrySetup x.retry4 := by
  rw [setupIpv4]
  refine if_pos ⟨?_, h.2⟩
  have herror := h.1
  rwa [← setupDataCall_fst x.setup4.reply s.globals .v4] at herror

theorem others_setupIpv4 : Others .v4 s (s.setupIpv4 x).2 := by
  have hfirst : Others .v4 s (s.requestSetupDataCall .v4 x.setup4).2 :=
    others_requestSetupDataCall _ _
  by_cases h : s.Retried x
  · rw [setupIpv4_retried h]
    obtain ⟨auth, hauth⟩ := retrySetup_eq (s.requestSetupDataCall .v4 x.setup4).2 x.retry4
    rw [hauth]
    have hsecond := hfirst.trans (others_requestSetupDataCall .v4 x.retry4)
    exact ⟨hsecond.enable, hsecond.status, hsecond.s_link, hsecond.signals, hsecond.handle,
      hsecond.held, hsecond.stopped⟩
  · rw [setupIpv4_not_retried h]
    exact hfirst

/-- Both attempts begin without a call: after a first attempt that fails none is held. -/
theorem setupIpv4_spec (hnone : ∀ h, (.v4, h) ∉ s.held) (henable : s.enable .v4)
    (hsetup : x.setup4.HonestSetup) (hretry : x.retry4.HonestSetup)
    (hfair : x.setup4.FairSetup .v4 x.address4)
    (hfairRetry : s.Retried x → x.retry4.FairSetup .v4 x.address4) :
    (s.setupIpv4 x).2.overwritten = s.overwritten ∧
      ∀ h, (.v4, h) ∈ (s.setupIpv4 x).2.held → NewCall .v4 (s.setupIpv4 x) h ∧
        ((.v4, h) ∈ x.address4.dropped ∨ x.address4.reply.error = 0) := by
  have hfirst : ∀ h, (.v4, h) ∈ (s.requestSetupDataCall .v4 x.setup4).2.held →
      x.setup4.granted = some h ∧ NewCall .v4 (s.requestSetupDataCall .v4 x.setup4) h :=
    fun h ↦ requestSetupDataCall_held hnone henable hsetup fun h hh ↦
      ⟨(hfair h hh).1, (hfair h hh).2.1⟩
  by_cases h : s.Retried x
  swap
  · rw [setupIpv4_not_retried h]
    exact ⟨requestSetupDataCall_overwritten hnone,
      fun h hheld ↦ ⟨(hfirst h hheld).2, (hfair h (hfirst h hheld).1).2.2⟩⟩
  -- the first attempt has failed
  have hfailed : (s.requestSetupDataCall .v4 x.setup4).1 ≠ 0 := by
    change (setupDataCall x.setup4.reply s.globals .v4).1 ≠ 0
    rw [setupDataCall_fst]
    exact Int.ne_of_gt h.1
  have hnone' : ∀ h, (.v4, h) ∉ (s.requestSetupDataCall .v4 x.setup4).2.held :=
    fun h hheld ↦ hfailed (hfirst h hheld).2.success
  rw [setupIpv4_retried h]
  obtain ⟨auth, hauth⟩ := retrySetup_eq (s.requestSetupDataCall .v4 x.setup4).2 x.retry4
  rw [hauth]
  refine ⟨(requestSetupDataCall_overwritten hnone').trans (requestSetupDataCall_overwritten hnone),
    fun h' hheld ↦ ?_⟩
  obtain ⟨hgranted, hcall⟩ := requestSetupDataCall_held hnone' henable hretry
    (fun h'' hh ↦ ⟨(hfairRetry h h'' hh).1, (hfairRetry h h'' hh).2.1⟩) hheld
  exact ⟨⟨hcall.enable, hcall.success, hcall.handle, hcall.ne_zero⟩,
    (hfairRetry h h' hgranted).2.2⟩

end SetupIpv4

/-! ### The address after a set-up -/

theorem others_finishSetup {r : ℤ × Main} {address : Exchange} :
    Others f r.2 (finishSetup f r address) := by
  rw [finishSetup]
  split
  · dsimp only
    split
    · exact (others_requestGetIPAddress _ _).trans (others_setStatus _ _)
    · exact others_requestGetIPAddress _ _
  · exact .refl _ _

theorem finishSetup_overwritten {r : ℤ × Main} {address : Exchange} :
    (finishSetup f r address).overwritten = r.2.overwritten := by
  rw [finishSetup]
  split
  · dsimp only
    split
    · cases f <;> rfl
    · rfl
  · rfl

/-- With an address the new call is connected. -/
theorem finishSetup_accounted {r : ℤ × Main} {address : Exchange}
    (hr : ∀ h, (f, h) ∈ r.2.held → NewCall f r h ∧
      ((f, h) ∈ address.dropped ∨ address.reply.error = 0)) :
    (finishSetup f r address).Accounted f := by
  intro h hheld
  by_cases hsetup : r.1 = 0
  swap
  · rw [finishSetup, if_neg hsetup] at hheld
    exact absurd (hr h hheld).1.success hsetup
  have hmem : (f, h) ∈ (r.2.drop address.dropped).held := by
    rw [finishSetup, if_pos hsetup] at hheld
    dsimp only at hheld
    split at hheld
    · rwa [setStatus_held] at hheld
    · exact hheld
  obtain ⟨hcall, hdropped | herror⟩ := hr h (mem_drop.mp hmem).1
  · exact absurd hdropped (mem_drop.mp hmem).2
  have haddress : (r.2.requestGetIPAddress f address).1 = 0 := by
    change (getIPAddress address.reply r.2.globals r.2.profile.address f).1 = 0
    rw [getIPAddress_fst (by rw [hcall.handle]; exact hcall.ne_zero), herror]
  rw [finishSetup, if_pos hsetup]
  dsimp only
  rw [if_pos haddress]
  refine ⟨?_, status_setStatus _ _, ?_, hcall.ne_zero⟩
  · rw [((others_requestGetIPAddress f address).trans (others_setStatus _ f)).enable]
    exact hcall.enable
  · rw [setStatus_globals]
    exact hcall.handle

/-! ### `SIG_EVENT_START` -/

/-- A family that is not connected has no call. -/
theorem Accounted.none (hs : s.Accounted f) (hstatus : s.status f ≠ qwdsPktDataConnected) (h : ℕ) :
    (f, h) ∉ s.held :=
  fun hheld ↦ hstatus (hs h hheld).2.1

section Start

variable {x : StartInput}

theorem startIpv4_spec (hs : ∀ f, s.Accounted f) (hsetup : x.setup4.HonestSetup)
    (hretry : x.retry4.HonestSetup)
    (hfair : s.enable .v4 ∧ s.status .v4 ≠ qwdsPktDataConnected →
      x.setup4.FairSetup .v4 x.address4 ∧ (s.Retried x → x.retry4.FairSetup .v4 x.address4)) :
    Others .v4 s (s.startIpv4 x) ∧ (∀ f, (s.startIpv4 x).Accounted f) ∧
      (s.startIpv4 x).overwritten = s.overwritten := by
  rw [startIpv4]
  split
  swap
  · exact ⟨.refl _ _, hs, rfl⟩
  rename_i h
  obtain ⟨hoverwritten, hcall⟩ := setupIpv4_spec ((hs .v4).none h.2) h.1 hsetup hretry
    (hfair h).1 (hfair h).2
  have hothers : Others .v4 s (finishSetup .v4 (s.setupIpv4 x) x.address4) :=
    others_setupIpv4.trans others_finishSetup
  refine ⟨hothers, fun f ↦ ?_, finishSetup_overwritten.trans hoverwritten⟩
  cases f with
  | v4 => exact finishSetup_accounted hcall
  | v6 => exact hothers.accounted (by decide) (hs .v6)

theorem others_startIpv6 : Others .v6 s (s.startIpv6 x) := by
  rw [startIpv6]
  split
  · exact (others_requestSetupDataCall _ _).trans others_finishSetup
  · exact .refl _ _

theorem startIpv6_spec (hs : ∀ f, s.Accounted f) (hsetup : x.setup6.HonestSetup)
    (hfair : s.enable .v6 ∧ s.status .v6 ≠ qwdsPktDataConnected →
      x.setup6.FairSetup .v6 x.address6) :
    (∀ f, (s.startIpv6 x).Accounted f) ∧ (s.startIpv6 x).overwritten = s.overwritten := by
  rw [startIpv6]
  split
  swap
  · exact ⟨hs, rfl⟩
  rename_i h
  have hnone := (hs .v6).none h.2
  have hothers : Others .v6 s (finishSetup .v6 (s.requestSetupDataCall .v6 x.setup6) x.address6) :=
    (others_requestSetupDataCall _ _).trans others_finishSetup
  refine ⟨fun f ↦ ?_, finishSetup_overwritten.trans (requestSetupDataCall_overwritten hnone)⟩
  cases f with
  | v4 => exact hothers.accounted (by decide) (hs .v4)
  | v6 =>
    refine finishSetup_accounted fun h' hheld ↦ ?_
    obtain ⟨hgranted, hcall⟩ := requestSetupDataCall_held hnone h.1 hsetup
      (fun h'' hh ↦ ⟨(hfair h h'' hh).1, (hfair h h'' hh).2.1⟩) hheld
    exact ⟨hcall, (hfair h h' hgranted).2.2⟩

end Start

/-! ### `SIG_EVENT_CHECK` -/

section Check

variable {x : CheckInput}

/-- A fair query for a call that is held keeps the status and the handle. -/
theorem fairQuery_kept {x : Exchange} (hs : s.Accounted f) (hfair : s.FairQuery f x) {h : ℕ}
    (hheld : (f, h) ∈ (s.drop x.dropped).held) :
    (f = .v4 → (s.requestQueryDataCall f x).1 = 0) ∧
      (s.requestQueryDataCall f x).2.status f = qwdsPktDataConnected ∧
      (s.requestQueryDataCall f x).2.globals = s.globals := by
  obtain ⟨hreported, hfailed⟩ := hfair _ hheld rfl
  obtain ⟨-, hstatus, -⟩ := hs h (mem_drop.mp hheld).1
  have hglobals : (s.requestQueryDataCall f x).2.globals = s.globals := by
    refine requestQueryDataCall_globals fun msg hmsg ↦ ?_
    rw [hreported msg hmsg]
    decide
  cases hsuccess : x.reply.success with
  | some msg =>
    obtain ⟨hzero, hquery⟩ := requestQueryDataCall_success (s := s) (f := f) hsuccess
    exact ⟨fun _ ↦ hzero, hquery.trans (hreported msg hsuccess), hglobals⟩
  | none =>
    obtain ⟨herror, hquery⟩ := requestQueryDataCall_failure (s := s) (f := f) hsuccess
    exact ⟨fun hf ↦ herror.trans (hfailed hf hsuccess), hquery.trans hstatus, hglobals⟩

@[simp] theorem requestQueryDataCall_held (f : IpFamily) (x : Exchange) :
    (s.requestQueryDataCall f x).2.held = (s.drop x.dropped).held := by
  rw [requestQueryDataCall]
  exact setStatus_held _ _

theorem mem_checkIpv4 {c : DataCall} (hq : s.Queried .v4) (hc : c ∈ (s.checkIpv4 x).held) :
    c ∈ (s.drop x.query4.dropped).held := by
  rw [checkIpv4, if_pos hq] at hc
  dsimp only at hc
  split at hc
  · have hmem := (mem_getMissingAddress (mem_compareAddress hc)).1
    rwa [requestQueryDataCall_held] at hmem
  · rwa [setStatus_held, requestQueryDataCall_held] at hc

/-- A call that is held after the check of its address has an address that is kept. -/
theorem addressKept_of_held (hstatus : s.status .v4 = qwdsPktDataConnected) {h : ℕ}
    (hhandle : s.globals.handle .v4 = h) (hne : h ≠ 0)
    (hfair : s.AddressKept x ∨ (s.profile.address = 0 ∧ (.v4, h) ∈ x.address4.dropped) ∨
      ((s.profile.address = 0 → x.address4.reply.error = 0) ∧
        ((.v4, h) ∈ x.check4.dropped ∨ (.v4, h) ∈ x.deactivate4.dropped ∨
          x.deactivate4.sent ∧ x.deactivate4.released)))
    (hheld : (.v4, h) ∈
      ((s.getMissingAddress x.address4).compareAddress x.check4 x.deactivate4).held) :
    s.AddressKept x := by
  obtain hkept | ⟨hzero, hdropped⟩ | ⟨hfound, hended⟩ := hfair
  · exact hkept
  · exact absurd hdropped ((mem_getMissingAddress (mem_compareAddress hheld)).2 hstatus hzero)
  by_contra hchanged
  have hget : s.profile.address = 0 → (getIPAddress x.address4.reply s.globals 0 .v4).1 = 0 := by
    intro hzero
    rw [getIPAddress_fst (by rw [hhandle]; exact hne), hfound hzero]
  obtain ⟨hstatus', hglobals, hkept⟩ := getMissingAddress_found hstatus hget
  rw [← hglobals] at hkept
  rw [compareAddress_changed hstatus' fun hsame ↦ hchanged (hkept.mpr hsame), setStatus_held,
    mem_deactivate, requestGetIPAddress_globals, hglobals, hhandle] at hheld
  obtain ⟨hmem, hnotDropped, hnotReleased⟩ := hheld
  obtain hdropped | hdropped | ⟨hsent, hreleased⟩ := hended
  · exact (mem_drop.mp hmem).2 hdropped
  · exact hnotDropped hdropped
  · exact hnotReleased ⟨hne, hsent, hreleased, rfl⟩

theorem checkIpv4_accounted (hs : s.Accounted .v4) (hquery : s.FairQuery .v4 x.query4)
    (haddress : s.FairAddress x) : (s.checkIpv4 x).Accounted .v4 := by
  intro h hheld
  by_cases hq : s.Queried .v4
  swap
  · rw [checkIpv4, if_neg hq, setStatus_held] at hheld
    obtain ⟨henable, hstatus, -⟩ := hs h hheld
    exact absurd ⟨henable, by rw [hstatus]; decide⟩ hq
  have hdrop := mem_checkIpv4 hq hheld
  obtain ⟨henable, -, hhandle, hne⟩ := hs h (mem_drop.mp hdrop).1
  obtain ⟨hzero, hstatus, hglobals⟩ := fairQuery_kept hs hquery hdrop
  have hothers : Others .v4 s (s.checkIpv4 x) := others_checkIpv4
  have hkeptIff := addressKept_congr (x := x) (congrArg (·.handle .v4) hglobals)
    (requestQueryDataCall_address (s := s) .v4 x.query4)
  have hcheck : s.checkIpv4 x = ((s.requestQueryDataCall .v4 x.query4).2.getMissingAddress
      x.address4).compareAddress x.check4 x.deactivate4 := by
    rw [checkIpv4, if_pos hq]
    exact if_pos (hzero rfl)
  refine ⟨by rw [hothers.enable]; exact henable, ?_⟩
  rw [hcheck] at hheld ⊢
  have hfair := haddress _ hdrop rfl
  rw [← hkeptIff, ← requestQueryDataCall_address (s := s) .v4 x.query4] at hfair
  have hkept := addressKept_of_held hstatus (by rw [hglobals]; exact hhandle) hne hfair hheld
  refine ⟨by rw [status_address hstatus, if_pos hkept], ?_, hne⟩
  obtain ⟨hstatus', hglobals', hsame⟩ := getMissingAddress_found hstatus
    (AddressKept.found hkept)
  rw [compareAddress_same hstatus' (by rw [hglobals']; exact hsame.mp hkept),
    requestGetIPAddress_globals, hglobals', hglobals]
  exact hhandle

theorem checkIpv6_accounted (hs : s.Accounted .v6) (hquery : s.FairQuery .v6 x.query6) :
    (s.checkIpv6 x).Accounted .v6 := by
  intro h hheld
  by_cases hq : s.Queried .v6
  swap
  · rw [checkIpv6, if_neg hq, setStatus_held] at hheld
    obtain ⟨henable, hstatus, -⟩ := hs h hheld
    exact absurd ⟨henable, by rw [hstatus]; decide⟩ hq
  have hothers : Others .v6 s (s.checkIpv6 x) := others_checkIpv6
  rw [hothers.enable]
  rw [checkIpv6, if_pos hq] at hheld ⊢
  rw [requestQueryDataCall_held] at hheld
  obtain ⟨henable, -, hhandle, hne⟩ := hs h (mem_drop.mp hheld).1
  obtain ⟨-, hstatus, hglobals⟩ := fairQuery_kept hs hquery hheld
  exact ⟨henable, hstatus, by rw [hglobals]; exact hhandle, hne⟩

/-! The requests of a check set up nothing. -/

@[simp] theorem setStatus_overwritten (status : UInt8) (f : IpFamily) :
    (s.setStatus status f).overwritten = s.overwritten := by
  cases f <;> rfl

theorem requestQueryDataCall_overwritten (f : IpFamily) (x : Exchange) :
    (s.requestQueryDataCall f x).2.overwritten = s.overwritten := by
  cases f <;> rfl

theorem getMissingAddress_overwritten (x : Exchange) :
    (s.getMissingAddress x).overwritten = s.overwritten := by
  rw [getMissingAddress]
  split
  · dsimp only
    split <;> rfl
  · rfl

theorem compareAddress_overwritten (x y : Exchange) :
    (s.compareAddress x y).overwritten = s.overwritten := by
  rw [compareAddress]
  split
  · dsimp only
    split <;> rfl
  · rfl

theorem checkIpv4_overwritten : (s.checkIpv4 x).overwritten = s.overwritten := by
  rw [checkIpv4]
  split
  · dsimp only
    split
    · rw [compareAddress_overwritten, getMissingAddress_overwritten,
        requestQueryDataCall_overwritten]
    · rw [setStatus_overwritten, requestQueryDataCall_overwritten]
  · exact setStatus_overwritten _ _

theorem checkIpv6_overwritten : (s.checkIpv6 x).overwritten = s.overwritten := by
  rw [checkIpv6]
  split
  · exact requestQueryDataCall_overwritten _ _
  · exact setStatus_overwritten _ _

theorem SameCalls.accounted (h : SameCalls s s') (hs : s.Accounted f) : s'.Accounted f := by
  intro handle hheld
  rw [h.enable, h.status, h.handle]
  exact hs handle (h.held ▸ hheld)

theorem check_spec (hs : ∀ f, s.Accounted f) (hfair : s.FairCheck x) :
    (∀ f, (s.check x).Accounted f) ∧ (s.check x).overwritten = s.overwritten ∧
      (s.check x).stopped = s.stopped := by
  obtain ⟨hquery4, haddress, hquery6⟩ := hfair
  have hregistration := (checkRegistration_same s x.registration).1
  have hend : SameCalls (s.checkCalls x) (s.check x) :=
    sameCalls_changeLink.trans sameCalls_queueStart
  have h4 : Others .v4 (s.checkRegistration x.registration)
      ((s.checkRegistration x.registration).checkIpv4 x) := others_checkIpv4
  have h6 : Others .v6 ((s.checkRegistration x.registration).checkIpv4 x) (s.checkCalls x) :=
    others_checkIpv6
  refine ⟨fun f ↦ hend.accounted ?_, ?_, ?_⟩
  · cases f with
    | v4 =>
      have hipv4 := checkIpv4_accounted (hregistration.accounted (hs .v4)) hquery4 haddress
      exact h6.accounted (by decide) hipv4
    | v6 =>
      have hipv6 := h4.accounted (by decide) (hregistration.accounted (hs .v6))
      exact checkIpv6_accounted hipv6 hquery6
  · rw [hend.overwritten, checkCalls, checkIpv6_overwritten, checkIpv4_overwritten,
      hregistration.overwritten]
  · rw [hend.stopped, h6.stopped, h4.stopped, hregistration.stopped]

end Check

theorem start_spec {now : ℕ} (later : ℕ) {x : StartInput} (hs : ∀ f, s.Accounted f)
    (hhonest : x.setup4.HonestSetup ∧ x.retry4.HonestSetup ∧ x.setup6.HonestSetup)
    (hfair : s.FairStart now x) :
    (∀ f, (s.start now later x).Accounted f) ∧
      (s.start now later x).overwritten = s.overwritten ∧
      (s.start now later x).stopped = s.stopped := by
  rw [start]
  split
  swap
  · exact ⟨hs, rfl, rfl⟩
  rename_i hmay
  obtain ⟨hfair4, hfair6⟩ := hfair hmay
  obtain ⟨h4, hipv4, hoverwritten4⟩ := startIpv4_spec hs hhonest.1 hhonest.2.1 hfair4
  have hfair6' : (s.startIpv4 x).enable .v6 ∧ (s.startIpv4 x).status .v6 ≠ qwdsPktDataConnected →
      x.setup6.FairSetup .v6 x.address6 := by
    rw [h4.enable, h4.status .v6 (by decide)]
    exact hfair6
  obtain ⟨hipv6, hoverwritten6⟩ := startIpv6_spec hipv4 hhonest.2.2 hfair6'
  have hend : SameCalls ((s.startIpv4 x).startIpv6 x)
      (((s.startIpv4 x).startIpv6 x).backOff later) := sameCalls_backOff later
  refine ⟨fun f ↦ hend.accounted (hipv6 f), ?_, ?_⟩
  · rw [hend.overwritten, hoverwritten6, hoverwritten4]
  · rw [hend.stopped, others_startIpv6.stopped, h4.stopped]

/-! ### `SIG_EVENT_STOP` -/

theorem others_deactivateConnected (f : IpFamily) (x : Exchange) :
    Others f s (s.deactivateConnected f x) := by
  rw [deactivateConnected]
  split
  · exact others_requestDeactivateDefaultPDP _ _
  · exact .refl _ _

theorem deactivateConnected_mono {c : DataCall} (hc : c ∈ s.deactivated) :
    c ∈ (s.deactivateConnected f x).deactivated := by
  rw [deactivateConnected]
  split
  · change c ∈ if _ then _ else _
    split
    · exact List.mem_cons_of_mem _ hc
    · exact hc
  · exact hc

theorem deactivateConnected_overwritten :
    (s.deactivateConnected f x).overwritten = s.overwritten := by
  rw [deactivateConnected]
  split <;> rfl

/-- A deactivate request is sent for each call that is accounted for. -/
theorem deactivateConnected_sent (hs : s.Accounted f) (hfair : s.FairDeactivate f x) {h : ℕ}
    (hheld : (f, h) ∈ (s.deactivateConnected f x).held) :
    (f, h) ∈ (s.deactivateConnected f x).deactivated := by
  by_cases hconnected : s.enable f ∧ s.status f = qwdsPktDataConnected
  swap
  · rw [deactivateConnected, if_neg hconnected] at hheld
    exact absurd ⟨(hs h hheld).1, (hs h hheld).2.1⟩ hconnected
  rw [deactivateConnected, if_pos hconnected] at hheld ⊢
  obtain ⟨hmem, hdropped, -⟩ := mem_deactivate.mp hheld
  obtain ⟨-, -, hhandle, hne⟩ := hs h hmem
  have hsent := hfair (f, h) (mem_drop.mpr ⟨hmem, hdropped⟩) rfl
  have hdeactivated : (s.requestDeactivateDefaultPDP f x).deactivated =
      if s.globals.handle f ≠ 0 ∧ x.sent then (f, s.globals.handle f) :: s.deactivated
      else s.deactivated := rfl
  rw [hdeactivated, if_pos ⟨by rw [hhandle]; exact hne, hsent⟩, hhandle]
  exact List.mem_cons_self

theorem sameCalls_quit : SameCalls s s.quit :=
  sameCalls_usbnetLinkChange 0 |>.trans ⟨rfl, rfl, rfl, rfl, rfl, rfl, rfl⟩

theorem stop_spec {x : StopInput} (hs : ∀ f, s.Accounted f) (hfair : s.FairStop x) :
    (∀ c ∈ (s.stop x).held, c ∈ (s.stop x).deactivated) ∧
      (s.stop x).overwritten = s.overwritten := by
  have h4 : Others .v4 s (s.deactivateConnected .v4 x.deactivate4) :=
    others_deactivateConnected _ _
  have hquit : SameCalls ((s.deactivateConnected .v4 x.deactivate4).deactivateConnected .v6
      x.deactivate6) (((s.deactivateConnected .v4 x.deactivate4).deactivateConnected .v6
      x.deactivate6).quit) := sameCalls_quit
  constructor
  · rintro ⟨f, h⟩ hheld
    change (f, h) ∈ (((s.deactivateConnected .v4 x.deactivate4).deactivateConnected .v6
      x.deactivate6).quit).deactivated
    rw [hquit.deactivated]
    have hmem := hquit.held ▸ hheld
    cases f with
    | v4 =>
      refine deactivateConnected_mono (deactivateConnected_sent (hs .v4) hfair.1 ?_)
      exact (others_deactivateConnected _ _).held .v4 h (by decide) hmem
    | v6 => exact deactivateConnected_sent (h4.accounted (by decide) (hs .v6)) hfair.2 hmem
  · exact hquit.overwritten.trans
      (deactivateConnected_overwritten.trans deactivateConnected_overwritten)

end Accounted

end Main

/-! ## Runs -/

/-- What holds of the calls in all runs whose steps are fair. -/
structure Main.CallsInv (s : Main) : Prop where
  overwritten : s.overwritten = false
  running : s.running → s.stopped = false
  accounted : s.stopped = false → ∀ f, s.Accounted f
  deactivated : s.stopped → ∀ c ∈ s.held, c ∈ s.deactivated

section Runs

variable {s s' : Main}

theorem Main.CallsInv.noLeak (h : s.CallsInv) : s.NoLeak := ⟨h.overwritten, h.deactivated⟩

/-- A step of the running loop. -/
theorem Main.CallsInv.of_running (h : s.CallsInv) (hrunning : s.running)
    (hs : ∀ f, s'.Accounted f) (hoverwritten : s'.overwritten = s.overwritten)
    (hstopped : s'.stopped = s.stopped) : s'.CallsInv := by
  have hfalse : s'.stopped = false := hstopped.trans (h.running hrunning)
  refine ⟨hoverwritten.trans h.overwritten, fun _ ↦ hfalse, fun _ ↦ hs, fun htrue ↦ ?_⟩
  rw [hfalse] at htrue
  cases htrue

theorem Main.sameCalls_event (now : ℕ) (r : Reply) (e : MainEvent) :
    SameCalls s (s.event now r e) := by
  have hregistration := sameCalls_requestRegistrationState s r
  cases e with
  | deviceDisconnected => exact sameCalls_quit
  | modemReportReset => exact sameCalls_quit
  | voiceNetworkStateChanged =>
    rw [event]
    split
    · exact hregistration.trans sameCalls_queueStart
    · exact hregistration.trans ⟨rfl, rfl, rfl, rfl, rfl, rfl, rfl⟩
  | dataCallListChanged =>
    rw [event]
    split <;> exact ⟨rfl, rfl, rfl, rfl, rfl, rfl, rfl⟩
  | loopbackConfig loopback_state replication_factor =>
    rw [event]
    split <;> exact ⟨rfl, rfl, rfl, rfl, rfl, rfl, rfl⟩

/-- What each step preserves. -/
theorem MainStep.next_callsInv {e : MainStep} (h : s.CallsInv) (henabled : e.Enabled s)
    (hhonest : e.Honest s) (hfair : e.Fair s) : (e.next s).CallsInv := by
  have hread : Main.SameCalls s s.readSigno := ⟨rfl, rfl, rfl, rfl, rfl, rfl, rfl⟩
  have haccounted : s.running → ∀ f, s.readSigno.Accounted f :=
    fun hrunning f ↦ hread.accounted (h.accounted (h.running hrunning) f)
  cases e with
  | start now later x =>
    obtain ⟨hs, hoverwritten, hstopped⟩ :=
      Main.start_spec later (haccounted henabled.1) hhonest hfair
    exact h.of_running henabled.1 hs hoverwritten hstopped
  | check x =>
    obtain ⟨hs, hoverwritten, hstopped⟩ := Main.check_spec (haccounted henabled.1) hfair
    exact h.of_running henabled.1 hs hoverwritten hstopped
  | stop x =>
    obtain ⟨hdeactivated, hoverwritten⟩ := Main.stop_spec (haccounted henabled.1) hfair
    refine ⟨hoverwritten.trans h.overwritten, fun hrunning ↦ ?_, fun hstopped ↦ ?_,
      fun _ ↦ hdeactivated⟩
    · cases hrunning
    · cases hstopped
  | event now r e =>
    have hsame : Main.SameCalls s (s.event now r e) := Main.sameCalls_event now r e
    exact h.of_running henabled (fun f ↦ hsame.accounted (h.accounted (h.running henabled) f))
      hsame.overwritten hsame.stopped
  | signal signo => exact ⟨h.overwritten, h.running, h.accounted, h.deactivated⟩
  | drop dropped =>
    exact ⟨h.overwritten, h.running, fun hstopped f ↦ (h.accounted hstopped f).drop dropped,
      fun hstopped c hc ↦ h.deactivated hstopped c (Main.mem_drop.mp hc).1⟩

/-- No call is lost in a run whose steps are fair. -/
theorem dataCalls_noLeak (profile : MainProfile) (globals : Globals) (pSAttachedState : UInt8)
    (s_link : ℤ) (now : ℕ)
    (hs : (mainSystem MainStep.Honest (.init profile globals pSAttachedState s_link now)).Reach
      MainStep.Fair s) : s.NoLeak := by
  refine (hs.invariant (I := Main.CallsInv) ?_ fun s e h henabled hfair ↦
    e.next_callsInv h henabled.1 henabled.2 hfair).noLeak
  refine ⟨rfl, fun _ ↦ rfl, fun _ f h hheld ↦ (by cases hheld), fun hstopped ↦ (by cases hstopped)⟩

/-- The network is there. -/
def ipv4Init : Main := .init ⟨ipv4Profile, 0, 0, 0⟩ ⟨false, false, 0, 0, 0⟩ 1 (-1) 0

/-- A check with a query for IPv4. -/
def checkIpv4Input (query4 : Exchange) : CheckInput :=
  ⟨.none 110, query4, .timeout, .answer 0x2D [], .timeout, .timeout⟩

/-- A set-up for IPv4, and the address request after it. -/
def startIpv4Input (handle : ℕ) (address4 : Exchange) : StartInput :=
  ⟨.grant handle, .timeout, address4, .timeout, .timeout⟩

/-- A call is set up, checked and ended. -/
def callEnded : List MainStep :=
  [.check (checkIpv4Input (.answer 0x22 [0x01, 1, 0, 0x01])),
    .start 0 0 (startIpv4Input 7 (.answer 0x2D [0x1E, 4, 0, 1, 0, 0, 10])),
    .signal .stop,
    .stop ⟨{ Exchange.answer 0x21 [] with released := true }, .timeout⟩]

theorem dataCalls_noLeak_callEnded :
    ((mainSystem MainStep.Honest ipv4Init).exec ipv4Init callEnded).deactivated = [(.v4, 7)] ∧
      ((mainSystem MainStep.Honest ipv4Init).exec ipv4Init callEnded).NoLeak :=
  ⟨by decide, dataCalls_noLeak _ _ _ _ _ (.exec .init (by decide))⟩

/-- The address request fails after the set-up; then the loop is stopped. -/
def addressTimeout : List MainStep :=
  [.check (checkIpv4Input (.answer 0x22 [0x01, 1, 0, 0x01])),
    .start 0 0 (startIpv4Input 7 .timeout),
    .signal .stop,
    .stop ⟨.timeout, .timeout⟩]

/-- The call is not ended. -/
theorem addressTimeout_leak : ¬ ∀ es : List MainStep,
    (mainSystem MainStep.Honest ipv4Init).Along (fun _ _ ↦ True) ipv4Init es →
      ((mainSystem MainStep.Honest ipv4Init).exec ipv4Init es).NoLeak := by
  intro h
  have hleak := (h addressTimeout (by decide)).stopped rfl (.v4, 7) (by decide)
  revert hleak
  decide

/-- If the loop goes on, the handle of the call is overwritten by that of a second one. -/
example : ((mainSystem MainStep.Honest ipv4Init).exec ipv4Init (addressTimeout.take 2 ++
    [.signal .check, .check (checkIpv4Input .timeout),
      .start 5000 5000 (startIpv4Input 9 .timeout)])).overwritten := by decide

end Runs

end Wwan.QuectelCm
