import Wwan.QuectelCm.Main

/-!
# Parts of the main loop

What the requests of the main loop do to the status, the handle and the calls of their family, and
what they leave alone.
-/

namespace Wwan.QuectelCm.Main

variable {s : Main} {x : CheckInput}

/-! ## What is left alone -/

/-- What is left alone by the handling of a family. The network may drop other calls. -/
structure Others (f : IpFamily) (s s' : Main) : Prop where
  enable : s'.enable = s.enable
  status : ∀ f', f' ≠ f → s'.status f' = s.status f'
  s_link : s'.s_link = s.s_link
  signals : s'.signals = s.signals
  handle : ∀ f', f' ≠ f → s'.globals.handle f' = s.globals.handle f'
  held : ∀ f' h, f' ≠ f → (f', h) ∈ s'.held → (f', h) ∈ s.held
  stopped : s'.stopped = s.stopped

theorem Others.refl (f : IpFamily) (s : Main) : Others f s s :=
  ⟨rfl, fun _ _ ↦ rfl, rfl, rfl, fun _ _ ↦ rfl, fun _ _ _ h ↦ h, rfl⟩

theorem Others.trans {f : IpFamily} {s₁ s₂ s₃ : Main} (h₁ : Others f s₁ s₂) (h₂ : Others f s₂ s₃) :
    Others f s₁ s₃ :=
  ⟨h₂.enable.trans h₁.enable, fun f' hf ↦ (h₂.status f' hf).trans (h₁.status f' hf),
    h₂.s_link.trans h₁.s_link, h₂.signals.trans h₁.signals,
    fun f' hf ↦ (h₂.handle f' hf).trans (h₁.handle f' hf),
    fun f' h hf hheld ↦ h₁.held f' h hf (h₂.held f' h hf hheld), h₂.stopped.trans h₁.stopped⟩

/-- What has nothing to do with the calls. -/
structure SameCalls (s s' : Main) : Prop where
  enable : s'.enable = s.enable
  status : s'.status = s.status
  handle : s'.globals.handle = s.globals.handle
  held : s'.held = s.held
  deactivated : s'.deactivated = s.deactivated
  overwritten : s'.overwritten = s.overwritten
  stopped : s'.stopped = s.stopped

theorem SameCalls.refl (s : Main) : SameCalls s s := ⟨rfl, rfl, rfl, rfl, rfl, rfl, rfl⟩

theorem SameCalls.trans {s₁ s₂ s₃ : Main} (h₁ : SameCalls s₁ s₂) (h₂ : SameCalls s₂ s₃) :
    SameCalls s₁ s₃ :=
  ⟨h₂.enable.trans h₁.enable, h₂.status.trans h₁.status, h₂.handle.trans h₁.handle,
    h₂.held.trans h₁.held, h₂.deactivated.trans h₁.deactivated,
    h₂.overwritten.trans h₁.overwritten, h₂.stopped.trans h₁.stopped⟩

theorem sameCalls_requestRegistrationState (s : Main) (r : Reply) :
    SameCalls s (s.requestRegistrationState r) := by
  refine ⟨rfl, rfl, ?_, rfl, rfl, rfl, rfl⟩
  funext f
  cases f <;> rfl

/-- The registration has no influence on the calls, nor on the rest of a check. -/
theorem checkRegistration_same (s : Main) (r : Reply) :
    SameCalls s (s.checkRegistration r) ∧ (s.checkRegistration r).profile = s.profile ∧
      (s.checkRegistration r).s_link = s.s_link ∧ (s.checkRegistration r).signals = s.signals := by
  rw [checkRegistration]
  split
  · exact ⟨sameCalls_requestRegistrationState s r, rfl, rfl, rfl⟩
  · exact ⟨.refl s, rfl, rfl, rfl⟩

theorem sameCalls_usbnetLinkChange (link : ℕ) : SameCalls s (s.usbnetLinkChange link) := by
  rw [usbnetLinkChange]
  split <;> exact ⟨rfl, rfl, rfl, rfl, rfl, rfl, rfl⟩

theorem sameCalls_changeLink : SameCalls s s.changeLink := by
  rw [changeLink]
  split
  · exact sameCalls_usbnetLinkChange 0
  split
  · exact sameCalls_usbnetLinkChange _
  · exact .refl s

theorem sameCalls_queueStart : SameCalls s s.queueStart := by
  rw [queueStart]
  split <;> exact ⟨rfl, rfl, rfl, rfl, rfl, rfl, rfl⟩

theorem sameCalls_backOff (now : ℕ) : SameCalls s (s.backOff now) := by
  rw [backOff]
  split
  · exact ⟨rfl, rfl, rfl, rfl, rfl, rfl, rfl⟩
  split <;> exact ⟨rfl, rfl, rfl, rfl, rfl, rfl, rfl⟩

theorem mem_drop {dropped : List DataCall} {c : DataCall} :
    c ∈ (s.drop dropped).held ↔ c ∈ s.held ∧ c ∉ dropped := by
  simp [drop]

@[simp] theorem status_setStatus (status : UInt8) (f : IpFamily) :
    (s.setStatus status f).status f = status := by
  cases f <;> rfl

@[simp] theorem setStatus_globals (status : UInt8) (f : IpFamily) :
    (s.setStatus status f).globals = s.globals := by
  cases f <;> rfl

@[simp] theorem setStatus_held (status : UInt8) (f : IpFamily) :
    (s.setStatus status f).held = s.held := by
  cases f <;> rfl

theorem others_setStatus (status : UInt8) (f : IpFamily) : Others f s (s.setStatus status f) := by
  refine ⟨?_, fun f' hf ↦ ?_, ?_, ?_, fun f' _ ↦ by rw [setStatus_globals],
    fun f' h _ hheld ↦ by rwa [setStatus_held] at hheld, ?_⟩
  · cases f <;> rfl
  · cases f <;> cases f' <;> first | rfl | exact absurd rfl hf
  · cases f <;> rfl
  · cases f <;> rfl
  · cases f <;> rfl

theorem queryDataCall_handle_of_ne {r : Reply} {g : Globals} {status : UInt8} {f f' : IpFamily}
    (h : f' ≠ f) : (queryDataCall r g status f).2.2.handle f' = g.handle f' := by
  refine Reply.result_cases (P := fun a : ℤ × UInt8 × Globals ↦ a.2.2.handle f' = g.handle f')
    (fun _ ↦ rfl) fun msg ↦ ?_
  dsimp only
  split
  · exact g.handle_setHandle_of_ne _ h
  · rfl

theorem deactivateDefaultPDP_handle_of_ne {r : Reply} {g : Globals} {f f' : IpFamily}
    (h : f' ≠ f) : (deactivateDefaultPDP r g f).2.handle f' = g.handle f' := by
  rw [deactivateDefaultPDP]
  split
  · rfl
  · exact Reply.result_cases (P := fun a : ℤ × Globals ↦ a.2.handle f' = g.handle f') (fun _ ↦ rfl)
      fun _ ↦ g.handle_setHandle_of_ne _ h

theorem others_requestQueryDataCall (f : IpFamily) (x : Exchange) :
    Others f s (s.requestQueryDataCall f x).2 := by
  have h : Others f s { s.drop x.dropped with
      globals := (queryDataCall x.reply s.globals (s.status f) f).2.2 } :=
    ⟨rfl, fun _ _ ↦ rfl, rfl, rfl, fun _ hf ↦ queryDataCall_handle_of_ne hf,
      fun _ _ _ hheld ↦ (mem_drop.mp hheld).1, rfl⟩
  exact h.trans (others_setStatus _ f)

theorem others_requestGetIPAddress (f : IpFamily) (x : Exchange) :
    Others f s (s.requestGetIPAddress f x).2 :=
  ⟨rfl, fun _ _ ↦ rfl, rfl, rfl, fun _ _ ↦ rfl, fun _ _ _ h ↦ (mem_drop.mp h).1, rfl⟩

/-- The calls that are left after a deactivate request. -/
theorem mem_deactivate {f : IpFamily} {x : Exchange} {c : DataCall} :
    c ∈ (s.requestDeactivateDefaultPDP f x).held ↔ c ∈ s.held ∧ c ∉ x.dropped ∧
      ¬(s.globals.handle f ≠ 0 ∧ x.sent ∧ x.released ∧ c = (f, s.globals.handle f)) := by
  have hheld : (s.requestDeactivateDefaultPDP f x).held =
      if (s.globals.handle f ≠ 0 ∧ x.sent) ∧ x.released then
        (s.drop x.dropped).held.filter (· ≠ (f, s.globals.handle f))
      else (s.drop x.dropped).held := rfl
  rw [hheld]
  split
  · rename_i hended
    simp [mem_drop, hended, and_assoc]
  · rename_i hended
    rw [mem_drop, and_congr_right_iff]
    intro _
    refine ⟨fun hc ↦ ⟨hc, fun hcall ↦ hended ⟨⟨hcall.1, hcall.2.1⟩, hcall.2.2.1⟩⟩, fun hc ↦ hc.1⟩

theorem others_requestDeactivateDefaultPDP (f : IpFamily) (x : Exchange) :
    Others f s (s.requestDeactivateDefaultPDP f x) :=
  ⟨rfl, fun _ _ ↦ rfl, rfl, rfl, fun _ hf ↦ deactivateDefaultPDP_handle_of_ne hf,
    fun _ _ _ h ↦ (mem_deactivate.mp h).1, rfl⟩

theorem others_getMissingAddress (x : Exchange) : Others .v4 s (s.getMissingAddress x) := by
  rw [getMissingAddress]
  split
  · dsimp only
    split
    · exact (others_requestGetIPAddress _ _).trans (others_setStatus _ _)
    · exact others_requestGetIPAddress _ _
  · exact .refl _ _

theorem others_compareAddress (x y : Exchange) : Others .v4 s (s.compareAddress x y) := by
  rw [compareAddress]
  split
  · dsimp only
    split
    · exact others_requestGetIPAddress _ _
    · have h : Others .v4 s (s.requestGetIPAddress .v4 x).2 := others_requestGetIPAddress _ _
      exact (h.trans (others_requestDeactivateDefaultPDP _ _)).trans (others_setStatus _ _)
  · exact .refl _ _

theorem others_checkIpv4 : Others .v4 s (s.checkIpv4 x) := by
  rw [checkIpv4]
  split
  · dsimp only
    have hquery : Others .v4 s (s.requestQueryDataCall .v4 x.query4).2 :=
      others_requestQueryDataCall _ _
    split
    · exact (hquery.trans (others_getMissingAddress _)).trans (others_compareAddress _ _)
    · exact hquery.trans (others_setStatus _ _)
  · exact others_setStatus _ _

theorem others_checkIpv6 : Others .v6 s (s.checkIpv6 x) := by
  rw [checkIpv6]
  split
  · exact others_requestQueryDataCall _ _
  · exact others_setStatus _ _

/-! ### The query -/

theorem requestQueryDataCall_success {f : IpFamily} {x : Exchange} {msg : List UInt8}
    (h : x.reply.success = some msg) :
    (s.requestQueryDataCall f x).1 = 0 ∧
      (s.requestQueryDataCall f x).2.status f = reportedStatus msg := by
  rw [requestQueryDataCall]
  simp [queryDataCall, Reply.result_of_success h]

theorem requestQueryDataCall_failure {f : IpFamily} {x : Exchange} (h : x.reply.success = none) :
    (s.requestQueryDataCall f x).1 = x.reply.error ∧
      (s.requestQueryDataCall f x).2.status f = s.status f := by
  rw [requestQueryDataCall]
  simp [queryDataCall, Reply.result_of_failure h]
  cases f <;> rfl

theorem requestQueryDataCall_address (f : IpFamily) (x : Exchange) :
    (s.requestQueryDataCall f x).2.profile.address = s.profile.address := by
  cases f <;> rfl

/-- Only a query that reports that there is no call resets the handle. -/
theorem requestQueryDataCall_globals {f : IpFamily} {x : Exchange}
    (h : ∀ msg ∈ x.reply.success, reportedStatus msg ≠ qwdsPktDataDisconnected) :
    (s.requestQueryDataCall f x).2.globals = s.globals := by
  have hglobals : (s.requestQueryDataCall f x).2.globals =
      (queryDataCall x.reply s.globals (s.status f) f).2.2 := by
    cases f <;> rfl
  rw [hglobals, queryDataCall]
  cases hs : x.reply.success with
  | some msg =>
    rw [Reply.result_of_success hs]
    exact if_neg (h msg hs)
  | none => rw [Reply.result_of_failure hs]

/-! ### The address -/

/-- The address of a call for IPv4 is known or found, and it has not changed. -/
def AddressKept (s : Main) (x : CheckInput) : Prop :=
  let r := if s.profile.address = 0 then getIPAddress x.address4.reply s.globals 0 .v4
    else (0, s.profile.address)
  r.1 = 0 ∧ getIPAddress x.check4.reply s.globals r.2 .v4 = (0, r.2)

instance (s : Main) (x : CheckInput) : Decidable (s.AddressKept x) :=
  inferInstanceAs (Decidable (_ ∧ _))

@[simp] theorem status_requestGetIPAddress (f f' : IpFamily) (x : Exchange) :
    (s.requestGetIPAddress f x).2.status f' = s.status f' := by
  cases f' <;> rfl

@[simp] theorem requestGetIPAddress_fst (f : IpFamily) (x : Exchange) :
    (s.requestGetIPAddress f x).1 = (getIPAddress x.reply s.globals s.profile.address f).1 := rfl

@[simp] theorem requestGetIPAddress_address (f : IpFamily) (x : Exchange) :
    (s.requestGetIPAddress f x).2.profile.address =
      (getIPAddress x.reply s.globals s.profile.address f).2 := rfl

@[simp] theorem requestGetIPAddress_globals (f : IpFamily) (x : Exchange) :
    (s.requestGetIPAddress f x).2.globals = s.globals := rfl

/-- A call whose address is the same is kept. -/
theorem compareAddress_same {x y : Exchange} (h : s.status .v4 = qwdsPktDataConnected)
    (hsame : getIPAddress x.reply s.globals s.profile.address .v4 = (0, s.profile.address)) :
    s.compareAddress x y = (s.requestGetIPAddress .v4 x).2 := by
  rw [compareAddress, if_pos h]
  refine if_pos (decide_eq_true ?_)
  rw [requestGetIPAddress_fst, requestGetIPAddress_address, hsame]
  exact ⟨rfl, rfl⟩

/-- Other calls are ended. -/
theorem compareAddress_changed {x y : Exchange} (h : s.status .v4 = qwdsPktDataConnected)
    (hchanged : getIPAddress x.reply s.globals s.profile.address .v4 ≠ (0, s.profile.address)) :
    s.compareAddress x y = ((s.requestGetIPAddress .v4 x).2.requestDeactivateDefaultPDP .v4
      y).setStatus qwdsPktDataDisconnected .v4 := by
  rw [compareAddress, if_pos h]
  refine if_neg fun hkept ↦ hchanged ?_
  obtain ⟨hzero, haddress⟩ := of_decide_eq_true hkept
  exact Prod.ext hzero haddress

/-- After the missing address was found, the address is kept if the comparison finds the same. -/
theorem getMissingAddress_found (h : s.status .v4 = qwdsPktDataConnected)
    (hfound : s.profile.address = 0 → (getIPAddress x.address4.reply s.globals 0 .v4).1 = 0) :
    (s.getMissingAddress x.address4).status .v4 = qwdsPktDataConnected ∧
      (s.getMissingAddress x.address4).globals = s.globals ∧
      (s.AddressKept x ↔ getIPAddress x.check4.reply s.globals
        (s.getMissingAddress x.address4).profile.address .v4 =
          (0, (s.getMissingAddress x.address4).profile.address)) := by
  by_cases hzero : s.profile.address = 0
  · have hmissing : s.getMissingAddress x.address4 = (s.requestGetIPAddress .v4 x.address4).2 := by
      rw [getMissingAddress, if_pos ⟨h, hzero⟩]
      refine if_neg (not_not.mpr ?_)
      rw [requestGetIPAddress_fst, hzero]
      exact hfound hzero
    rw [hmissing, status_requestGetIPAddress, requestGetIPAddress_address, hzero]
    refine ⟨h, rfl, ?_⟩
    simp [AddressKept, hzero, hfound hzero]
  · have hmissing : s.getMissingAddress x.address4 = s := by
      rw [getMissingAddress, if_neg fun hboth ↦ hzero hboth.2]
    rw [hmissing]
    refine ⟨h, rfl, ?_⟩
    simp [AddressKept, hzero]

theorem AddressKept.found (h : s.AddressKept x) (hzero : s.profile.address = 0) :
    (getIPAddress x.address4.reply s.globals 0 .v4).1 = 0 := by
  have hget := h.1
  rwa [if_pos hzero] at hget

/-- With both, a connected family stays so exactly if the address is kept. -/
theorem status_address (h : s.status .v4 = qwdsPktDataConnected) :
    ((s.getMissingAddress x.address4).compareAddress x.check4 x.deactivate4).status .v4 =
      if s.AddressKept x then qwdsPktDataConnected else qwdsPktDataDisconnected := by
  by_cases hfound : s.profile.address = 0 → (getIPAddress x.address4.reply s.globals 0 .v4).1 = 0
  · obtain ⟨hstatus, hglobals, hkept⟩ := getMissingAddress_found h hfound
    rw [← hglobals] at hkept
    split
    · rename_i hsame
      rw [compareAddress_same hstatus (hkept.mp hsame), status_requestGetIPAddress, hstatus]
    · rename_i hchanged
      rw [compareAddress_changed hstatus fun hsame ↦ hchanged (hkept.mpr hsame), status_setStatus]
  · obtain ⟨hzero, hget⟩ := Classical.not_imp.mp hfound
    have hmissing : s.getMissingAddress x.address4 =
        (s.requestGetIPAddress .v4 x.address4).2.setStatus qwdsPktDataDisconnected .v4 := by
      rw [getMissingAddress, if_pos ⟨h, hzero⟩]
      refine if_pos ?_
      rw [requestGetIPAddress_fst, hzero]
      exact hget
    have hdown : ¬s.AddressKept x := by simp [AddressKept, hzero, hget]
    rw [hmissing, if_neg hdown, compareAddress, if_neg (by rw [status_setStatus]; decide),
      status_setStatus]

theorem mem_getMissingAddress {y : Exchange} {c : DataCall}
    (hc : c ∈ (s.getMissingAddress y).held) :
    c ∈ s.held ∧ (s.status .v4 = qwdsPktDataConnected → s.profile.address = 0 → c ∉ y.dropped) := by
  rw [getMissingAddress] at hc
  split at hc
  · have hdrop : c ∈ (s.drop y.dropped).held := by
      dsimp only at hc
      split at hc
      · rwa [setStatus_held] at hc
      · exact hc
    exact ⟨(mem_drop.mp hdrop).1, fun _ _ ↦ (mem_drop.mp hdrop).2⟩
  · rename_i h
    exact ⟨hc, fun hconnected hzero ↦ absurd ⟨hconnected, hzero⟩ h⟩

theorem mem_compareAddress {x y : Exchange} {c : DataCall} (hc : c ∈ (s.compareAddress x y).held) :
    c ∈ s.held := by
  by_cases h : s.status .v4 = qwdsPktDataConnected
  swap
  · rwa [compareAddress, if_neg h] at hc
  by_cases hsame : getIPAddress x.reply s.globals s.profile.address .v4 = (0, s.profile.address)
  · rw [compareAddress_same h hsame] at hc
    exact (mem_drop.mp hc).1
  · rw [compareAddress_changed h hsame, setStatus_held] at hc
    exact (mem_drop.mp (mem_deactivate.mp hc).1).1

/-- A family that is not connected has no address to be checked. -/
theorem status_address_of_ne (h : s.status .v4 ≠ qwdsPktDataConnected) :
    ((s.getMissingAddress x.address4).compareAddress x.check4 x.deactivate4).status .v4 =
      s.status .v4 := by
  rw [getMissingAddress, if_neg fun hboth ↦ h hboth.1, compareAddress, if_neg h]

theorem getIPAddress_congr {g g' : Globals} {f : IpFamily} (h : g'.handle f = g.handle f)
    (r : Reply) (address : ℕ) : getIPAddress r g' address f = getIPAddress r g address f := by
  rw [getIPAddress, getIPAddress, h]

theorem addressKept_congr {s' : Main} (hhandle : s'.globals.handle .v4 = s.globals.handle .v4)
    (haddress : s'.profile.address = s.profile.address) :
    s'.AddressKept x ↔ s.AddressKept x := by
  simp only [AddressKept, getIPAddress_congr hhandle, haddress]

end Wwan.QuectelCm.Main
