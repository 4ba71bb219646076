import Wwan.FibocomDial.Main

/-!
# The data calls of `fibocom-dial`

A call that the modem holds is ended if its family is connected and its handle is known: SIGTERM
sends deactivate requests for connected families only, and SIGUSR1 sets up a call for each family
that is not connected. A request without a response returns what `QmiThreadSendQMI` returned, and
that is zero when the device was closed, so that a set-up the modem never saw counts as accepted;
and a query that is answered by anything but "connected" makes the program forget the handle or the
call.

`Fair` says which replies keep the program and the modem together, and `dataCalls_sound` that then
no call is lost or invented.
-/

namespace Wwan.FibocomDial

/-- No family was connected without a call, no handle of a call that is held was overwritten, and at
the end a deactivate request was sent for all calls that are held. -/
structure Main.Sound (s : Main) : Prop where
  invented : s.invented = false
  overwritten : s.overwritten = false
  stopped : s.stopped = true → ∀ c ∈ s.held, c ∈ s.deactivated

/-! ## The condition -/

/-- A set-up is answered with a handle that is not zero, or the modem started no call and the
program is told so. -/
def Exchange.FairSetup (x : Exchange ℕ) : Prop :=
  match x.reply with
  | .ok h => h ≠ 0
  | reply => x.granted = none ∧ reply.code ≠ 0

/-- The attempts of a set-up that are made. -/
def SetupInput.Fair (s : Main) (x : SetupInput) : Prop :=
  x.setup.FairSetup ∧
    (0 < x.setup.reply.code ∧ s.profile.credentials = true → x.retry.FairSetup)

/-- A query, if it is answered, reports a call that is held as connected. -/
def Exchange.FairQuery (s : Main) (f : IpFamily) (x : Exchange (Option PktSrvc)) : Prop :=
  ∀ h, (f, h) ∈ (s.drop x.dropped).held → ∀ pPktSrvc, x.reply = .ok pPktSrvc →
    reportedStatus pPktSrvc = CONNECTED

/-- The address found is that of the profile, or there are less than three time-outs in a row. -/
def AddressKept (s : Main) (x : Exchange (Option ℕ)) : Prop :=
  match x.reply with
  | .ok address => address.getD 0 = s.profile.address
  | reply => (reply.code = 0 ∧ s.profile.address = 0) ∨
      (reply.code = 110 ∧ s.time_out_count + 1 < 3)

/-- The address of a call that is held is kept, or the call ends. -/
def FairAddress (s : Main) (x : Usr2Input) : Prop :=
  ∀ h, (.v4, h) ∈ (s.drop x.query4.dropped).held →
    AddressKept s x.check4 ∨ (.v4, h) ∈ x.check4.dropped ∨ (.v4, h) ∈ x.deactivate4.dropped ∨
      (x.deactivate4.sent = true ∧ x.deactivate4.released = true)

/-- The deactivate request for a call that is held is sent. -/
def FairDeactivate (s : Main) (f : IpFamily) (x : Exchange Unit) : Prop :=
  ∀ h, (f, h) ∈ (s.drop x.dropped).held → x.sent = true

/-- The events that keep the program and the modem together. -/
def Event.Fair (s : Main) : Event → Prop
  | .usr1 x =>
    (s.profile.flag .v4 = true → s.status .v4 ≠ CONNECTED →
      x.v4.attached = 1 ∨ s.profile.loopback_state = 1 → x.v4.Fair s) ∧
    (s.profile.flag .v6 = true → s.status .v6 ≠ CONNECTED → x.v6.attached = 1 → x.v6.Fair s)
  | .usr2 x => x.query4.FairQuery s .v4 ∧ FairAddress s x ∧ x.query6.FairQuery (s.usr2Ipv4 x) .v6
  | .term x => FairDeactivate s .v4 x.deactivate4 ∧
    FairDeactivate (s.deactivateConnected .v4 x.deactivate4) .v6 x.deactivate6
  | .drop _ => True

namespace Main

variable {s s' s'' : Main} {f : IpFamily}

theorem mem_drop {dropped : List DataCall} {c : DataCall} :
    c ∈ (s.drop dropped).held ↔ c ∈ s.held ∧ c ∉ dropped := by
  rw [drop, List.mem_filter, decide_eq_true_eq]

/-! ## What is done for one family -/

/-- What is done for one family leaves the others as they are, but for calls that are dropped. -/
structure Others (f : IpFamily) (s s' : Main) : Prop where
  flag : ∀ g, g ≠ f → s'.profile.flag g = s.profile.flag g
  status : ∀ g, g ≠ f → s'.status g = s.status g
  handle : ∀ g, g ≠ f → s'.handle g = s.handle g
  held : ∀ g h, g ≠ f → (g, h) ∈ s'.held → (g, h) ∈ s.held
  credentials : s'.profile.credentials = s.profile.credentials
  stopped : s'.stopped = s.stopped
  overwritten : s'.overwritten = s.overwritten
  invented : s'.invented = s.invented

theorem Others.refl (f : IpFamily) (s : Main) : Others f s s :=
  ⟨fun _ _ ↦ rfl, fun _ _ ↦ rfl, fun _ _ ↦ rfl, fun _ _ _ h ↦ h, rfl, rfl, rfl, rfl⟩

theorem Others.trans (h : Others f s s') (h' : Others f s' s'') : Others f s s'' where
  flag g hg := (h'.flag g hg).trans (h.flag g hg)
  status g hg := (h'.status g hg).trans (h.status g hg)
  handle g hg := (h'.handle g hg).trans (h.handle g hg)
  held g handle hg hheld := h.held g handle hg (h'.held g handle hg hheld)
  credentials := h'.credentials.trans h.credentials
  stopped := h'.stopped.trans h.stopped
  overwritten := h'.overwritten.trans h.overwritten
  invented := h'.invented.trans h.invented

/-- Each call of a family that is held is connected, and its handle is known. -/
def Accounted (f : IpFamily) (s : Main) : Prop :=
  ∀ h, (f, h) ∈ s.held → s.profile.flag f = true ∧ s.status f = CONNECTED ∧
    s.handle f = h ∧ h ≠ 0

theorem Others.accounted (h : Others f s s') {g : IpFamily} (hg : g ≠ f) (hs : s.Accounted g) :
    s'.Accounted g := by
  intro handle hheld
  rw [h.flag g hg, h.status g hg, h.handle g hg]
  exact hs handle (h.held g handle hg hheld)

theorem Accounted.none (hs : s.Accounted f) (hstatus : s.status f ≠ CONNECTED) (h : ℕ) :
    (f, h) ∉ s.held :=
  fun hheld ↦ hstatus (hs h hheld).2.1

/-- Nothing is done, but calls may be dropped. -/
structure Idle (s s' : Main) : Prop where
  flag : s'.profile.flag = s.profile.flag
  status : s'.status = s.status
  handle : s'.handle = s.handle
  held : ∀ c ∈ s'.held, c ∈ s.held
  credentials : s'.profile.credentials = s.profile.credentials
  stopped : s'.stopped = s.stopped
  accepted : s'.accepted = s.accepted
  overwritten : s'.overwritten = s.overwritten
  invented : s'.invented = s.invented

theorem Idle.refl (s : Main) : Idle s s := ⟨rfl, rfl, rfl, fun _ h ↦ h, rfl, rfl, rfl, rfl, rfl⟩

theorem Idle.trans (h : Idle s s') (h' : Idle s' s'') : Idle s s'' where
  flag := h'.flag.trans h.flag
  status := h'.status.trans h.status
  handle := h'.handle.trans h.handle
  held c hc := h.held c (h'.held c hc)
  credentials := h'.credentials.trans h.credentials
  stopped := h'.stopped.trans h.stopped
  accepted := h'.accepted.trans h.accepted
  overwritten := h'.overwritten.trans h.overwritten
  invented := h'.invented.trans h.invented

theorem Idle.others (h : Idle s s') (f : IpFamily) : Others f s s' where
  flag g _ := congrFun h.flag g
  status g _ := congrFun h.status g
  handle g _ := congrFun h.handle g
  held g handle _ := h.held (g, handle)
  credentials := h.credentials
  stopped := h.stopped
  overwritten := h.overwritten
  invented := h.invented

theorem Idle.accounted (h : Idle s s') (hs : s.Accounted f) : s'.Accounted f := by
  intro handle hheld
  rw [h.flag, h.status, h.handle]
  exact hs handle (h.held _ hheld)

theorem idle_drop (s : Main) (dropped : List DataCall) : Idle s (s.drop dropped) :=
  ⟨rfl, rfl, rfl, fun _ h ↦ (mem_drop.mp h).1, rfl, rfl, rfl, rfl, rfl⟩

theorem idle_linkDown (s : Main) : Idle s s.linkDown :=
  ⟨rfl, rfl, rfl, fun _ h ↦ h, rfl, rfl, rfl, rfl, rfl⟩

/-- A request for an address only gives the network the time to drop calls. -/
theorem idle_requestGetIPAddress (s : Main) (f : IpFamily) (x : Exchange (Option ℕ)) :
    Idle s (s.requestGetIPAddress f x).2.2 := by
  unfold requestGetIPAddress
  split
  · exact .refl s
  · split
    · exact idle_drop s x.dropped
    · exact idle_drop s x.dropped

theorem idle_getAddress (s : Main) (f : IpFamily) (x : Exchange (Option ℕ)) :
    Idle s (s.getAddress f x) := by
  have h := idle_requestGetIPAddress s f x
  exact ⟨h.flag, h.status, h.handle, h.held, h.credentials, h.stopped, h.accepted, h.overwritten,
    h.invented⟩

theorem idle_checkAddress (s : Main) (x : Exchange (Option ℕ)) : Idle s (s.checkAddress x).2 := by
  have h := idle_requestGetIPAddress s .v4 x
  unfold checkAddress
  dsimp only
  split
  · exact ⟨h.flag, h.status, h.handle, h.held, h.credentials, h.stopped, h.accepted, h.overwritten,
      h.invented⟩
  · split
    · exact ⟨h.flag, h.status, h.handle, h.held, h.credentials, h.stopped, h.accepted,
        h.overwritten, h.invented⟩
    · exact h

theorem idle_getWanted (s : Main) (f : IpFamily) (x : Exchange (Option ℕ)) :
    Idle s (s.getWanted f x) := by
  unfold getWanted
  split
  · exact idle_getAddress s f x
  · exact .refl s

theorem idle_linkUp (s : Main) (x : Usr2Input) : Idle s (s.linkUp x) := by
  unfold linkUp
  split
  · exact .refl s
  · have hlink : Idle s { s with s_link := 1 } :=
      ⟨rfl, rfl, rfl, fun _ h ↦ h, rfl, rfl, rfl, rfl, rfl⟩
    exact (hlink.trans (idle_getWanted _ .v4 x.address4)).trans (idle_getWanted _ .v6 x.address6)

theorem idle_changeLink (s : Main) (x : Usr2Input) : Idle s (s.changeLink x) := by
  have hdown : Idle s (if s.status .v4 = DISCONNECTED ∧ s.status .v6 = DISCONNECTED then s.linkDown
      else s) := by
    split
    · exact idle_linkDown s
    · exact .refl s
  unfold changeLink
  dsimp only
  generalize (if s.status .v4 = DISCONNECTED ∧ s.status .v6 = DISCONNECTED then s.linkDown
    else s) = s' at hdown ⊢
  split
  · exact hdown.trans (idle_linkUp s' x)
  · exact hdown

theorem others_setStatus (f : IpFamily) (status : UInt8) : Others f s (s.setStatus f status) :=
  ⟨fun _ _ ↦ rfl, fun _ hg ↦ Function.update_of_ne hg _ _, fun _ _ ↦ rfl, fun _ _ _ h ↦ h, rfl, rfl,
    rfl, rfl⟩

theorem others_grant (f : IpFamily) (granted : Option ℕ) : Others f s (s.grant f granted) := by
  cases granted with
  | none => exact .refl f s
  | some h =>
    refine ⟨fun _ _ ↦ rfl, fun _ _ ↦ rfl, fun _ _ ↦ rfl, fun g handle hg hheld ↦ ?_, rfl, rfl,
      rfl, rfl⟩
    rcases List.mem_cons.mp hheld with heq | hheld
    · exact absurd (congrArg Prod.fst heq) hg
    · exact hheld

/-! ## Set-up -/

/-- What a set-up of a family that had no call leaves: a call that is held now was answered, and its
handle is known. -/
structure Attempt (f : IpFamily) (s : Main) (r : ℤ × Main) : Prop where
  others : Others f s r.2
  flag : r.2.profile.flag f = s.profile.flag f
  call : ∀ h, (f, h) ∈ r.2.held → r.1 = 0 ∧ r.2.handle f = h ∧ h ≠ 0
  accepted : r.1 = 0 → r.2.accepted f = true

theorem requestSetupDataCall_attempt (hnone : ∀ h, (f, h) ∉ s.held) {x : Exchange ℕ}
    (hhonest : x.HonestSetup) (hfair : x.FairSetup) :
    Attempt f s (s.requestSetupDataCall f x) := by
  obtain ⟨hhonest, hgranted⟩ := hhonest
  have hnone' : ∀ h, (f, h) ∉ (s.drop x.dropped).held := fun h hheld ↦ hnone h (mem_drop.mp hheld).1
  have hgrant := others_grant (s := s.drop x.dropped) f x.granted
  have hothers := ((idle_drop s x.dropped).others f).trans hgrant
  unfold Exchange.FairSetup at hfair
  unfold requestSetupDataCall
  cases hreply : x.reply with
  | ok h =>
    rw [hreply] at hfair
    rw [hgranted h hreply] at hothers ⊢
    have hkept : (s.overwritten || decide ((f, s.handle f) ∈ (s.drop x.dropped).held)) =
        s.overwritten := by
      rw [decide_eq_false (hnone' _), Bool.or_false]
    refine ⟨⟨hothers.flag, hothers.status, fun g hg ↦ Function.update_of_ne hg _ _, hothers.held,
      rfl, rfl, hkept, rfl⟩, rfl, fun h' hheld ↦ ?_, fun _ ↦ Function.update_self f _ _⟩
    rcases List.mem_cons.mp hheld with heq | hheld
    · obtain rfl : h' = h := congrArg Prod.snd heq
      exact ⟨rfl, Function.update_self f _ _, hfair⟩
    · exact absurd hheld (hnone' h')
  | none err =>
    rw [hreply] at hfair
    rw [hfair.1] at hothers ⊢
    exact ⟨hothers, rfl, fun h hheld ↦ absurd hheld (hnone' h), fun hzero ↦ absurd hzero hfair.2⟩
  | refused e =>
    rw [hreply] at hfair
    rw [hfair.1] at hothers ⊢
    exact ⟨hothers, rfl, fun h hheld ↦ absurd hheld (hnone' h), fun hzero ↦ absurd hzero hfair.2⟩

/-- What a set-up returns does not depend on the state. -/
theorem requestSetupDataCall_fst (s : Main) (f : IpFamily) (x : Exchange ℕ) :
    (s.requestSetupDataCall f x).1 = x.reply.code := by
  unfold requestSetupDataCall
  cases x.reply <;> rfl

theorem Attempt.setAuth {r : ℤ × Main} (hr : Attempt f s r) (auth : ℕ) :
    Attempt f s (r.1, r.2.setAuth auth) :=
  ⟨⟨hr.others.flag, hr.others.status, hr.others.handle, hr.others.held, hr.others.credentials,
    hr.others.stopped, hr.others.overwritten, hr.others.invented⟩, hr.flag, hr.call, hr.accepted⟩

/-- An attempt after one that failed. -/
theorem Attempt.trans {r r' : ℤ × Main} (hr : Attempt f s r) (hr' : Attempt f r.2 r') :
    Attempt f s r' :=
  ⟨hr.others.trans hr'.others, hr'.flag.trans hr.flag, hr'.call, hr'.accepted⟩

/-- The second attempt begins without a call, as the first. -/
theorem retrySetup_attempt {r : ℤ × Main} (hr : Attempt f s r) {x : Exchange ℕ}
    (hhonest : x.HonestSetup) (hfair : 0 < r.1 ∧ s.profile.credentials = true → x.FairSetup) :
    Attempt f s (retrySetup f x r) := by
  unfold retrySetup
  split
  swap
  · exact hr
  next hretry =>
    have hne : r.1 ≠ 0 := Int.ne_of_gt hretry.1
    rw [hr.others.credentials] at hretry
    have hauth := hr.setAuth (if r.2.profile.auth = 1 then 2 else 1)
    have hnone : ∀ h, (f, h) ∉ (r.2.setAuth (if r.2.profile.auth = 1 then 2 else 1)).held :=
      fun h hheld ↦ hne (hr.call h hheld).1
    have hsecond := hauth.trans (requestSetupDataCall_attempt hnone hhonest (hfair hretry))
    by_cases hzero : ((r.2.setAuth (if r.2.profile.auth = 1 then 2 else 1)).requestSetupDataCall f
      x).1 = 0
    · rw [if_pos hzero]
      exact hsecond
    · rw [if_neg hzero]
      exact hsecond.setAuth _

/-- The end of a set-up leaves a call that is held connected. -/
theorem finishSetup_spec {r : ℤ × Main} (hr : Attempt f s r) (hflag : s.profile.flag f = true)
    (address : Exchange (Option ℕ)) :
    Others f s (finishSetup f address r) ∧ (finishSetup f address r).Accounted f := by
  unfold finishSetup
  split
  next hzero =>
    have hidle := idle_getAddress r.2 f address
    have hothers := (hr.others.trans (hidle.others f)).trans (others_setStatus f CONNECTED)
    have haccepted : (r.2.getAddress f address).accepted f = true := by
      rw [hidle.accepted]
      exact hr.accepted hzero
    have hinvented : ((r.2.getAddress f address).invented ||
        !(r.2.getAddress f address).accepted f) = s.invented := by
      rw [haccepted, Bool.not_true, Bool.or_false]
      exact hothers.invented
    refine ⟨⟨hothers.flag, hothers.status, hothers.handle, hothers.held, hothers.credentials,
      hothers.stopped, hothers.overwritten, hinvented⟩, fun h hheld ↦ ?_⟩
    obtain ⟨-, hhandle, hne⟩ := hr.call h (hidle.held _ hheld)
    refine ⟨?_, Function.update_self f _ _, ?_, hne⟩
    · exact (congrFun hidle.flag f).trans (hr.flag.trans hflag)
    · exact (congrFun hidle.handle f).trans hhandle
  next hne => exact ⟨hr.others, fun h hheld ↦ absurd (hr.call h hheld).1 hne⟩

theorem finishRetry_spec {x : SetupInput} {r : ℤ × Main} (hr : Attempt f s r)
    (hflag : s.profile.flag f = true) (hhonest : x.retry.HonestSetup)
    (hfair : 0 < r.1 ∧ s.profile.credentials = true → x.retry.FairSetup) :
    Others f s (finishRetry f x r) ∧ (finishRetry f x r).Accounted f :=
  finishSetup_spec (retrySetup_attempt hr hhonest hfair) hflag x.address

/-! ## SIGUSR1 -/

theorem usr1Ipv4_spec {x : Usr1Input} (hs : s.Accounted .v4)
    (hhonest : x.v4.setup.HonestSetup ∧ x.v4.retry.HonestSetup)
    (hfair : s.profile.flag .v4 = true → s.status .v4 ≠ CONNECTED →
      x.v4.attached = 1 ∨ s.profile.loopback_state = 1 → x.v4.Fair s) :
    Others .v4 s (s.usr1Ipv4 x) ∧ (s.usr1Ipv4 x).Accounted .v4 := by
  unfold usr1Ipv4
  split
  swap
  · exact ⟨.refl .v4 s, hs⟩
  next hwanted =>
    have hdown := idle_linkDown s
    dsimp only
    split
    next hattached =>
      obtain ⟨hsetup, hretry⟩ := hfair hwanted.1 hwanted.2 hattached
      have hnone : ∀ h, (.v4, h) ∉ s.linkDown.held := hs.none hwanted.2
      have hattempt := requestSetupDataCall_attempt hnone hhonest.1 hsetup
      have hfinish := finishRetry_spec (x := x.v4) hattempt hwanted.1 hhonest.2 (by
        rw [requestSetupDataCall_fst]
        exact hretry)
      exact ⟨(hdown.others .v4).trans hfinish.1, hfinish.2⟩
    next => exact ⟨hdown.others .v4, hdown.accounted hs⟩

theorem usr1Ipv6_spec {x : Usr1Input} (hs : s.Accounted .v6)
    (hhonest : x.v6.setup.HonestSetup ∧ x.v6.retry.HonestSetup)
    (hfair : s.profile.flag .v6 = true → s.status .v6 ≠ CONNECTED → x.v6.attached = 1 →
      x.v6.Fair s) :
    Others .v6 s (s.usr1Ipv6 x) ∧ (s.usr1Ipv6 x).Accounted .v6 := by
  unfold usr1Ipv6
  split
  swap
  · exact ⟨.refl .v6 s, hs⟩
  next hwanted =>
    dsimp only
    have hidle : Idle s (if s.profile.flag .v4 then
        { s with profile := { s.profile with dual_flag := true } } else s.linkDown) := by
      split
      · exact ⟨rfl, rfl, rfl, fun _ h ↦ h, rfl, rfl, rfl, rfl, rfl⟩
      · exact idle_linkDown s
    generalize (if s.profile.flag .v4 then
        { s with profile := { s.profile with dual_flag := true } } else s.linkDown) = s' at hidle ⊢
    split
    next hattached =>
      obtain ⟨hsetup, hretry⟩ := hfair hwanted.1 hwanted.2 hattached
      have hnone : ∀ h, (.v6, h) ∉ s'.held := fun h hheld ↦ hs.none hwanted.2 h (hidle.held _ hheld)
      have hattempt := requestSetupDataCall_attempt hnone hhonest.1 hsetup
      split
      next hquit =>
        -- A set-up that failed has left no call behind.
        have hothers := (hidle.others .v6).trans hattempt.others
        refine ⟨⟨fun g hg ↦ ?_, hothers.status, hothers.handle, hothers.held, hothers.credentials,
          hothers.stopped, hothers.overwritten, hothers.invented⟩, fun h hheld ↦ ?_⟩
        · exact (Function.update_of_ne hg _ _).trans (hothers.flag g hg)
        · exact absurd (hattempt.call h hheld).1 (Int.ne_of_gt hquit.2.1)
      next =>
        have hflag : s'.profile.flag .v6 = true := (congrFun hidle.flag .v6).trans hwanted.1
        have hfinish := finishRetry_spec (x := x.v6) hattempt hflag hhonest.2 (by
          rw [requestSetupDataCall_fst, hidle.credentials]
          exact hretry)
        exact ⟨(hidle.others .v6).trans hfinish.1, hfinish.2⟩
    next => exact ⟨hidle.others .v6, hidle.accounted hs⟩

/-! ## SIGUSR2 -/

@[simp] theorem requestQueryDataCall_held (s : Main) (f : IpFamily)
    (x : Exchange (Option PktSrvc)) :
    (s.requestQueryDataCall f x).held = (s.drop x.dropped).held := by
  unfold requestQueryDataCall
  cases x.reply <;> rfl

theorem others_requestQueryDataCall (f : IpFamily) (x : Exchange (Option PktSrvc)) :
    Others f s (s.requestQueryDataCall f x) := by
  have hdrop := (idle_drop s x.dropped).others f
  unfold requestQueryDataCall
  cases x.reply with
  | none err => exact hdrop
  | refused e => exact hdrop
  | ok pPktSrvc =>
    refine ⟨hdrop.flag, fun g hg ↦ Function.update_of_ne hg _ _, fun g hg ↦ ?_, hdrop.held, rfl,
      rfl, rfl, rfl⟩
    dsimp only
    split
    · exact Function.update_of_ne hg _ _
    · rfl

/-- A query that reports calls as connected forgets none. -/
theorem requestQueryDataCall_accounted (hs : s.Accounted f) {x : Exchange (Option PktSrvc)}
    (hfair : x.FairQuery s f) : (s.requestQueryDataCall f x).Accounted f := by
  intro h hheld
  rw [requestQueryDataCall_held] at hheld
  have hdrop := (idle_drop s x.dropped).accounted hs h hheld
  have hreported := hfair h hheld
  unfold requestQueryDataCall
  cases hreply : x.reply with
  | none err => exact hdrop
  | refused e => exact hdrop
  | ok pPktSrvc =>
    have hconnected := hreported pPktSrvc hreply
    dsimp only
    rw [hconnected, if_neg (by decide)]
    exact ⟨hdrop.1, Function.update_self f _ _, hdrop.2.2⟩

theorem requestQueryDataCall_same (s : Main) (f : IpFamily) (x : Exchange (Option PktSrvc)) :
    (s.requestQueryDataCall f x).profile.address = s.profile.address ∧
      (s.requestQueryDataCall f x).time_out_count = s.time_out_count := by
  unfold requestQueryDataCall
  cases x.reply <;> exact ⟨rfl, rfl⟩

/-- An address that is kept passes the check. -/
theorem checkAddress_fst (hne : s.handle .v4 ≠ 0) {x : Exchange (Option ℕ)}
    (hkept : AddressKept s x) : (s.checkAddress x).1 = true := by
  unfold AddressKept at hkept
  unfold checkAddress requestGetIPAddress
  rw [if_neg hne]
  have hfailed : ∀ reply : Reply (Option ℕ), (reply.code = 0 ∧ s.profile.address = 0) ∨
      (reply.code = 110 ∧ s.time_out_count + 1 < 3) →
      (if reply.code = 0 then (decide (s.clearedAddress .v4 = s.profile.address),
          { s.drop x.dropped with time_out_count := 0 })
        else if reply.code = 110 then (decide (s.time_out_count + 1 < 3),
          { s.drop x.dropped with time_out_count := s.time_out_count + 1 })
        else (false, s.drop x.dropped)).1 = true := by
    rintro reply (⟨hcode, haddress⟩ | ⟨hcode, hcount⟩)
    · rw [if_pos hcode, haddress]
      rfl
    · rw [if_neg (by rw [hcode]; decide), if_pos hcode]
      exact decide_eq_true hcount
  cases hreply : x.reply with
  | ok address =>
    rw [hreply] at hkept
    exact decide_eq_true hkept
  | none err =>
    rw [hreply] at hkept
    exact hfailed (.none err) hkept
  | refused e =>
    rw [hreply] at hkept
    exact hfailed (.refused e) hkept

theorem checkAddress_held (hne : s.handle .v4 ≠ 0) {x : Exchange (Option ℕ)} {c : DataCall}
    (hc : c ∈ (s.checkAddress x).2.held) : c ∉ x.dropped := by
  have hstate : (s.checkAddress x).2.held = (s.requestGetIPAddress .v4 x).2.2.held := by
    unfold checkAddress
    dsimp only
    split
    · rfl
    · split <;> rfl
  have hdrop : (s.requestGetIPAddress .v4 x).2.2 = s.drop x.dropped := by
    unfold requestGetIPAddress
    rw [if_neg hne]
    cases x.reply <;> rfl
  rw [hstate, hdrop] at hc
  exact (mem_drop.mp hc).2

theorem others_requestDeactivateDefaultPDP (f : IpFamily) (x : Exchange Unit) :
    Others f s (s.requestDeactivateDefaultPDP f x) := by
  unfold requestDeactivateDefaultPDP
  split
  · exact .refl f s
  · have hdrop := (idle_drop s x.dropped).others f
    refine ⟨hdrop.flag, hdrop.status, fun g hg ↦ ?_, fun g h hg hheld ↦ ?_, rfl, rfl, rfl, rfl⟩
    · cases x.reply with
      | ok response => exact Function.update_of_ne hg _ _
      | none err => rfl
      | refused e => rfl
    · dsimp only at hheld
      split at hheld
      · exact hdrop.held g h hg (List.mem_of_mem_filter hheld)
      · exact hdrop.held g h hg hheld

/-- A call that is held after a deactivate request was not dropped, and not released. -/
theorem mem_deactivate (hne : s.handle f ≠ 0) {x : Exchange Unit} {c : DataCall}
    (hc : c ∈ (s.requestDeactivateDefaultPDP f x).held) :
    c ∈ (s.drop x.dropped).held ∧
      ¬(x.sent = true ∧ x.released = true ∧ c = (f, s.handle f)) := by
  unfold requestDeactivateDefaultPDP at hc
  rw [if_neg hne] at hc
  dsimp only at hc
  split at hc
  next =>
    obtain ⟨hmem, hother⟩ := List.mem_filter.mp hc
    exact ⟨hmem, fun h ↦ of_decide_eq_true hother h.2.2⟩
  next hkept =>
    refine ⟨hc, fun h ↦ hkept ?_⟩
    rw [h.1, h.2.1]
    rfl

theorem compareAddress_spec {x : Usr2Input} (hs : s.Accounted .v4)
    (hfair : ∀ h, (.v4, h) ∈ s.held → AddressKept s x.check4 ∨ (.v4, h) ∈ x.check4.dropped ∨
      (.v4, h) ∈ x.deactivate4.dropped ∨
        (x.deactivate4.sent = true ∧ x.deactivate4.released = true)) :
    Others .v4 s (s.compareAddress x.check4 x.deactivate4) ∧
      (s.compareAddress x.check4 x.deactivate4).Accounted .v4 := by
  have hidle := idle_checkAddress s x.check4
  unfold compareAddress
  split
  swap
  · exact ⟨.refl .v4 s, hs⟩
  dsimp only
  split
  next => exact ⟨hidle.others .v4, hidle.accounted hs⟩
  next hchanged =>
    refine ⟨((hidle.others .v4).trans (others_requestDeactivateDefaultPDP .v4 _)).trans
      (others_setStatus .v4 _), fun h hheld ↦ ?_⟩
    -- The call has ended, whichever way.
    exfalso
    by_cases hzero : (s.checkAddress x.check4).2.handle .v4 = 0
    · have hmem : (.v4, h) ∈ (s.checkAddress x.check4).2.held := by
        change (IpFamily.v4, h) ∈ (requestDeactivateDefaultPDP _ .v4 x.deactivate4).held at hheld
        unfold requestDeactivateDefaultPDP at hheld
        rwa [if_pos hzero] at hheld
      obtain ⟨-, -, hhandle, hne⟩ := hidle.accounted hs h hmem
      exact hne (hhandle.symm.trans hzero)
    · obtain ⟨hmem, hreleased⟩ := mem_deactivate hzero hheld
      obtain ⟨hmem, hdropped⟩ := mem_drop.mp hmem
      obtain ⟨-, -, hhandle, hne⟩ := hs h (hidle.held _ hmem)
      have hne' : s.handle .v4 ≠ 0 := hhandle ▸ hne
      rcases hfair h (hidle.held _ hmem) with hkept | hcheck | hdeactivate | ⟨hsent, hended⟩
      · exact hchanged (checkAddress_fst hne' hkept)
      · exact checkAddress_held hne' hmem hcheck
      · exact hdropped hdeactivate
      · refine hreleased ⟨hsent, hended, ?_⟩
        rw [hidle.handle, hhandle]

theorem usr2Ipv4_spec {x : Usr2Input} (hs : s.Accounted .v4) (hquery : x.query4.FairQuery s .v4)
    (haddress : FairAddress s x) :
    Others .v4 s (s.usr2Ipv4 x) ∧ (s.usr2Ipv4 x).Accounted .v4 := by
  unfold usr2Ipv4
  split
  next =>
    have hqueried := requestQueryDataCall_accounted hs hquery
    obtain ⟨haddressSame, hcountSame⟩ := requestQueryDataCall_same s .v4 x.query4
    have hfair := compareAddress_spec (x := x) hqueried fun h hheld ↦ by
      rw [requestQueryDataCall_held] at hheld
      unfold AddressKept
      rw [haddressSame, hcountSame]
      exact haddress h hheld
    exact ⟨(others_requestQueryDataCall .v4 x.query4).trans hfair.1, hfair.2⟩
  next hflag =>
    exact ⟨others_setStatus .v4 _, fun h hheld ↦ absurd (hs h hheld).1 hflag⟩

theorem usr2Ipv6_spec {x : Usr2Input} (hs : s.Accounted .v6) (hquery : x.query6.FairQuery s .v6) :
    Others .v6 s (s.usr2Ipv6 x) ∧ (s.usr2Ipv6 x).Accounted .v6 := by
  unfold usr2Ipv6
  split
  next => exact ⟨others_requestQueryDataCall .v6 _, requestQueryDataCall_accounted hs hquery⟩
  next hflag =>
    exact ⟨others_setStatus .v6 _, fun h hheld ↦ absurd (hs h hheld).1 hflag⟩

/-! ## SIGTERM -/

theorem others_deactivateConnected (f : IpFamily) (x : Exchange Unit) :
    Others f s (s.deactivateConnected f x) := by
  unfold deactivateConnected
  split
  · exact others_requestDeactivateDefaultPDP f x
  · exact .refl f s

theorem deactivateConnected_mono {x : Exchange Unit} {c : DataCall} (hc : c ∈ s.deactivated) :
    c ∈ (s.deactivateConnected f x).deactivated := by
  unfold deactivateConnected requestDeactivateDefaultPDP
  split
  · split
    · exact hc
    · dsimp only
      split
      · exact List.mem_cons_of_mem _ hc
      · exact hc
  · exact hc

/-- A deactivate request is sent for each call that is accounted for. -/
theorem deactivateConnected_sent (hs : s.Accounted f) {x : Exchange Unit}
    (hfair : FairDeactivate s f x) {h : ℕ} (hheld : (f, h) ∈ (s.deactivateConnected f x).held) :
    (f, h) ∈ (s.deactivateConnected f x).deactivated := by
  unfold deactivateConnected at hheld ⊢
  by_cases hconnected : s.profile.flag f = true ∧ s.status f = CONNECTED
  swap
  · rw [if_neg hconnected] at hheld
    exact absurd ⟨(hs h hheld).1, (hs h hheld).2.1⟩ hconnected
  rw [if_pos hconnected] at hheld ⊢
  by_cases hzero : s.handle f = 0
  · unfold requestDeactivateDefaultPDP at hheld
    rw [if_pos hzero] at hheld
    obtain ⟨-, -, hhandle, hne⟩ := hs h hheld
    exact absurd (hhandle.symm.trans hzero) hne
  · obtain ⟨hmem, -⟩ := mem_deactivate hzero hheld
    obtain ⟨-, -, hhandle, -⟩ := hs h (mem_drop.mp hmem).1
    unfold requestDeactivateDefaultPDP
    rw [if_neg hzero]
    dsimp only
    rw [if_pos (hfair h hmem)]
    exact List.mem_cons.mpr (.inl (congrArg (Prod.mk f) hhandle.symm))

/-! ## Runs -/

/-- What holds of the calls in all runs whose events are fair. -/
structure CallsInv (s : Main) : Prop where
  invented : s.invented = false
  overwritten : s.overwritten = false
  accounted : s.stopped = false → ∀ f, s.Accounted f
  deactivated : s.stopped = true → ∀ c ∈ s.held, c ∈ s.deactivated

theorem CallsInv.sound (h : s.CallsInv) : s.Sound := ⟨h.invented, h.overwritten, h.deactivated⟩

/-- One family after the other. -/
theorem CallsInv.families (h : s.CallsInv) (hrun : s.stopped = false)
    (h4 : Others .v4 s s' ∧ s'.Accounted .v4)
    (h6 : s'.Accounted .v6 → Others .v6 s' s'' ∧ s''.Accounted .v6) : s''.CallsInv := by
  have hs6 := h4.1.accounted (by decide : IpFamily.v6 ≠ .v4) (h.accounted hrun .v6)
  obtain ⟨hothers, hipv6⟩ := h6 hs6
  have hrun' : s''.stopped = false := hothers.stopped.trans (h4.1.stopped.trans hrun)
  refine ⟨hothers.invented.trans (h4.1.invented.trans h.invented),
    hothers.overwritten.trans (h4.1.overwritten.trans h.overwritten), fun _ f ↦ ?_,
    fun hstopped ↦ ?_⟩
  · cases f with
    | v4 => exact hothers.accounted (by decide) h4.2
    | v6 => exact hipv6
  · rw [hrun'] at hstopped
    cases hstopped

theorem CallsInv.usr1 (h : s.CallsInv) {x : Usr1Input} (henabled : Event.Enabled s (.usr1 x))
    (hfair : Event.Fair s (.usr1 x)) : (s.usr1 x).CallsInv := by
  obtain ⟨hrun, hhonest4, hhonest6⟩ := henabled
  have hstart : CallsInv { s with accepted := fun _ ↦ false } :=
    ⟨h.invented, h.overwritten, h.accounted, h.deactivated⟩
  have h4 := usr1Ipv4_spec (s := { s with accepted := fun _ ↦ false }) (hstart.accounted hrun .v4)
    hhonest4 hfair.1
  refine hstart.families hrun h4 fun hs6 ↦ usr1Ipv6_spec hs6 hhonest6 ?_
  rw [h4.1.flag .v6 (by decide), h4.1.status .v6 (by decide)]
  intro hflag hstatus hattached
  obtain ⟨hsetup, hretry⟩ := hfair.2 hflag hstatus hattached
  refine ⟨hsetup, ?_⟩
  rw [h4.1.credentials]
  exact hretry

theorem Idle.callsInv (h : Idle s s') (hs : s.CallsInv)
    (hdeactivated : s'.deactivated = s.deactivated) : s'.CallsInv := by
  refine ⟨h.invented.trans hs.invented, h.overwritten.trans hs.overwritten, ?_, ?_⟩
  · rw [h.stopped]
    exact fun hrun f ↦ h.accounted (hs.accounted hrun f)
  · rw [h.stopped, hdeactivated]
    exact fun hstopped c hc ↦ hs.deactivated hstopped c (h.held c hc)

theorem CallsInv.usr2 (h : s.CallsInv) {x : Usr2Input} (hrun : s.stopped = false)
    (hfair : Event.Fair s (.usr2 x)) : (s.usr2 x).CallsInv := by
  obtain ⟨hquery4, haddress, hquery6⟩ := hfair
  have h4 := usr2Ipv4_spec (h.accounted hrun .v4) hquery4 haddress
  have hcalls : ((s.usr2Ipv4 x).usr2Ipv6 x).CallsInv :=
    h.families hrun h4 fun hs6 ↦ usr2Ipv6_spec hs6 hquery6
  have hidle := idle_changeLink ((s.usr2Ipv4 x).usr2Ipv6 x) x
  have hstopped : ((s.usr2Ipv4 x).usr2Ipv6 x).stopped = false := by
    rw [(usr2Ipv6_spec (h4.1.accounted (by decide) (h.accounted hrun .v6)) hquery6).1.stopped,
      h4.1.stopped, hrun]
  refine ⟨hidle.invented.trans hcalls.invented, hidle.overwritten.trans hcalls.overwritten,
    fun _ f ↦ hidle.accounted (hcalls.accounted hstopped f), fun hstop ↦ ?_⟩
  have hstop' := hidle.stopped.trans hstopped
  rw [show (s.usr2 x).stopped = false from hstop'] at hstop
  cases hstop

theorem CallsInv.term (h : s.CallsInv) {x : TermInput} (hrun : s.stopped = false)
    (hfair : Event.Fair s (.term x)) : (s.term x).CallsInv := by
  have h4 := others_deactivateConnected (s := s) .v4 x.deactivate4
  have h6 := others_deactivateConnected (s := s.deactivateConnected .v4 x.deactivate4) .v6
    x.deactivate6
  refine ⟨h6.invented.trans (h4.invented.trans h.invented),
    h6.overwritten.trans (h4.overwritten.trans h.overwritten), ?_, ?_⟩
  · rintro ⟨⟩
  · rintro - ⟨f, handle⟩ hheld
    cases f with
    | v4 =>
      refine deactivateConnected_mono ?_
      exact deactivateConnected_sent (h.accounted hrun .v4) hfair.1
        (h6.held .v4 handle (by decide) hheld)
    | v6 =>
      have hs6 := h4.accounted (by decide : IpFamily.v6 ≠ .v4) (h.accounted hrun .v6)
      exact deactivateConnected_sent hs6 hfair.2 hheld

/-- What each event keeps. -/
theorem CallsInv.next (h : s.CallsInv) {e : Event} (henabled : e.Enabled s) (hfair : e.Fair s) :
    (e.next s).CallsInv := by
  cases e with
  | usr1 x => exact h.usr1 henabled hfair
  | usr2 x => exact h.usr2 henabled.1 hfair
  | term x => exact h.term henabled.1 hfair
  | drop dropped => exact (idle_drop s dropped).callsInv h rfl

end Main

/-- No call is lost or invented in a run whose events are fair. -/
theorem dataCalls_sound {profile : Profile} {s_link : ℤ} {s : Main}
    (hs : (mainSystem profile s_link).Reach (fun s e ↦ e.Fair s) s) : s.Sound := by
  have hcalls : s.CallsInv := by
    refine hs.invariant ⟨rfl, rfl, fun _ f h hheld ↦ ?_, ?_⟩ fun s e h henabled hfair ↦
      h.next henabled hfair
    · cases hheld
    · rintro ⟨⟩
  exact hcalls.sound

/-! ## Two runs -/

/-- Only IPv4 is wanted. -/
def ipv4Profile : Profile := ⟨fun f ↦ f = .v4, false, 0, false, 0, 0⟩

/-- A request that times out. -/
def Exchange.timeout {α : Type} : Exchange α := ⟨[], true, none, false, .none 110⟩

/-- A SIGUSR1 for IPv4, with this set-up. -/
def usr1Input (setup : Exchange ℕ) : Usr1Input :=
  ⟨⟨1, setup, .timeout, .timeout⟩, ⟨0, .timeout, .timeout, .timeout⟩, 0, 0⟩

theorem honestSetup_timeout : (Exchange.timeout : Exchange ℕ).HonestSetup := by
  refine ⟨⟨?_, ?_⟩, ?_⟩
  · rintro e ⟨⟩
  · rintro ⟨⟩
  · rintro h ⟨⟩

theorem enabled_usr1Input {setup : Exchange ℕ} (hsetup : setup.HonestSetup) {s : Main}
    (hrun : s.stopped = false) : Event.Enabled s (.usr1 (usr1Input setup)) :=
  ⟨hrun, ⟨hsetup, honestSetup_timeout⟩, honestSetup_timeout, honestSetup_timeout⟩

/-- A call is set up, and ended by a SIGTERM whose request the modem does not answer. -/
theorem dataCalls_sound_term :
    let S := mainSystem ipv4Profile 0
    let s := S.exec S.init [.usr1 (usr1Input ⟨[], true, some 7, false, .ok 7⟩),
      .term ⟨.timeout, .timeout⟩]
    S.Reach (fun s e ↦ e.Fair s) s ∧ s.Sound ∧ s.held = [(.v4, 7)] ∧
      s.deactivated = [(.v4, 7)] := by
  intro S s
  have hsetup : Exchange.HonestSetup ⟨[], true, some 7, false, .ok 7⟩ := by
    refine ⟨⟨?_, ?_⟩, ?_⟩
    · rintro e ⟨⟩
    · rintro ⟨⟩
    · rintro h ⟨⟩
      rfl
  have hdeactivate : (Exchange.timeout : Exchange Unit).HonestDeactivate := by
    refine ⟨⟨?_, ?_⟩, ?_⟩
    · rintro e ⟨⟩
    · rintro ⟨⟩
    · rintro ⟨⟩
  have hs : S.Reach (fun s e ↦ e.Fair s) s := by
    refine System.Reach.init.exec ⟨enabled_usr1Input hsetup rfl, ⟨fun _ _ _ ↦ ⟨?_, ?_⟩, ?_⟩,
      ⟨rfl, hdeactivate, hdeactivate⟩, ⟨fun _ _ ↦ rfl, fun _ _ ↦ rfl⟩, trivial⟩
    · show (7 : ℕ) ≠ 0
      decide
    · rintro ⟨hcode, -⟩
      exact absurd hcode (by decide)
    · rintro ⟨⟩
  exact ⟨hs, dataCalls_sound hs, by decide, by decide⟩

/-- The device is closed while the program waits for the answer to its set-up: the family is
connected without a call. -/
theorem deviceClosed_invents :
    ¬ ∀ (profile : Profile) (s_link : ℤ) (s : Main),
      (mainSystem profile s_link).Reach (fun _ _ ↦ True) s → s.Sound := by
  intro h
  have hsetup : Exchange.HonestSetup ⟨[], true, none, false, .none 0⟩ := by
    refine ⟨⟨?_, ?_⟩, ?_⟩
    · rintro e ⟨⟩
    · rintro ⟨⟩
    · rintro h ⟨⟩
  have hs : (mainSystem ipv4Profile 0).Along (fun _ _ ↦ True) (.init ipv4Profile 0)
      [.usr1 (usr1Input ⟨[], true, none, false, .none 0⟩)] :=
    ⟨enabled_usr1Input hsetup rfl, trivial, trivial⟩
  have hinvented := (h ipv4Profile 0 _ (System.Reach.init.exec hs)).invented
  revert hinvented
  decide

end Wwan.FibocomDial
