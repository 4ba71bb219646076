import Wwan.Mhi.PmOps

/-!
# Votes against low power

`mhi_device_get` and `mhi_device_get_sync` vote against low power modes. Since the default
`wake_get` counts nothing, `mhi_pm_suspend` does not see the votes: it spares a device somebody
votes for only if nobody does when it begins, and nobody begins to before it has made its
transition.
-/

namespace Wwan.Mhi

/-- Between the first look at `dev_wake` and the transition. -/
def SuspendAt.entering : SuspendAt → Bool
  | .wakeGet | .waitM0 | .waited _ | .enter => true
  | _ => false

/-- The call is on its way to suspend. -/
def PmOp.entering : PmOp → Bool
  | .suspend pos => pos.entering
  | _ => false

namespace PmRun

/-- Votes keep the device from being suspended: at the first look at `dev_wake` the call returns
`-EBUSY` and leaves the count, and `pm_state` becomes `MHI_PM_M3_ENTER` only without votes. -/
structure Respects (s : PmRun) (e : PmEvent) : Prop where
  busy : ∀ i r, e = .step i r → s.ops[i]? = some (.suspend .quickCheck) → 0 < s.votes →
    (s.next e).ops[i]? = some (.returned ebusy) ∧ (s.next e).cntrl.devWake = s.cntrl.devWake
  enters : s.cntrl.pmState ≠ .m3Enter → (s.next e).cntrl.pmState = .m3Enter → s.votes = 0

/-- No vote is held when a call looks at `dev_wake` first, and none is taken while a call is between
that and its transition. -/
def Quiet (s : PmRun) : PmEvent → Prop
  | .get => ∀ op ∈ s.ops, op.entering = false
  | .step i _ =>
    (s.ops[i]? = some (.suspend .quickCheck) → s.votes = 0) ∧
      (s.ops[i]? = some (.getSync .count) → ∀ op ∈ s.ops, op.entering = false)
  | _ => True

/-! ## Who moves `pm_state` to `MHI_PM_M3_ENTER` -/

theorem tryset_ne_m3Enter {cur state : PmState} (hcur : cur ≠ .m3Enter)
    (hstate : state ≠ .m3Enter) : mhiTrysetPmState cur state ≠ .m3Enter := by
  by_cases h : cur.Allows state
  · rw [h.tryset]
    exact hstate
  · rw [PmState.tryset_of_not_allows h]
    exact hcur

/-- Of the steps of a call, only that of `mhi_pm_suspend` asks for M3. -/
theorem eq_enter_of_attempt {c : PmCntrl} {r : PmRead} {op : PmOp}
    (h : c.attempt r op = some .m3Enter) : op = .suspend .enter := by
  unfold PmCntrl.attempt at h
  split at h
  · rfl
  · cases h
  · cases h
  · rename_i cause
    cases cause <;> cases h
  · split at h <;> cases h
  · cases h
  · cases h

theorem pmState_opStep_ne {c : PmCntrl} {r : PmRead} {op : PmOp} (hop : op ≠ .suspend .enter)
    (hc : c.pmState ≠ .m3Enter) : (c.opStep r op).1.pmState ≠ .m3Enter := by
  rw [PmCntrl.pmState_opStep]
  cases hattempt : c.attempt r op with
  | none => exact hc
  | some state =>
    refine tryset_ne_m3Enter hc ?_
    rintro rfl
    exact hop (eq_enter_of_attempt hattempt)

/-- Nor does any report of the device, or anything else. -/
theorem pmState_next_ne {s : PmRun} {e : PmEvent} (hc : s.cntrl.pmState ≠ .m3Enter)
    (he : ∀ i r, e = .step i r → s.ops[i]? ≠ some (.suspend .enter)) :
    (s.next e).cntrl.pmState ≠ .m3Enter := by
  cases e with
  | call f => exact hc
  | step i r =>
    simp only [next, runOp]
    cases hop : s.ops[i]? with
    | none => exact hc
    | some op =>
      refine pmState_opStep_ne ?_ hc
      rintro rfl
      exact he i r rfl hop
  | get =>
    simp only [next, PmCntrl.pmState_assert]
    exact hc
  | put => exact hc
  | wakeGet =>
    simp only [next, PmCntrl.pmState_assert]
    exact hc
  | wakePut => exact hc
  | m0 =>
    have hnew := tryset_ne_m3Enter hc (show PmState.m0 ≠ .m3Enter by decide)
    simp only [next, s.cntrl.m0_spec.1]
    exact hnew
  | m1 =>
    have hnew := tryset_ne_m3Enter hc (show PmState.m2 ≠ .m3Enter by decide)
    simp only [next, s.cntrl.m1_spec.1]
    exact hnew
  | m3 => exact tryset_ne_m3Enter hc (by decide)
  | sysErr => exact tryset_ne_m3Enter hc (by decide)
  | linkDown => exact tryset_ne_m3Enter hc (by decide)

/-! ## Runs -/

/-- While a call is on its way to suspend, there are no votes. -/
def Unvoted (s : PmRun) : Prop := (∃ op ∈ s.ops, op.entering = true) → s.votes = 0

/-- A call gets on its way to suspend by the first look at `dev_wake` only. -/
theorem entering_opStep {c : PmCntrl} {r : PmRead} {op : PmOp}
    (h : (c.opStep r op).2.entering = true) : op.entering = true ∨ op = .suspend .quickCheck := by
  cases op with
  | suspend pos =>
    cases pos with
    | disabled =>
      simp only [PmCntrl.opStep, PmCntrl.suspendStep] at h
      split at h <;> cases h
    | errorState =>
      simp only [PmCntrl.opStep, PmCntrl.suspendStep] at h
      split at h <;> cases h
    | quickCheck => exact .inr rfl
    | wakeGet => exact .inl rfl
    | waitM0 => exact .inl rfl
    | waited ret => exact .inl rfl
    | enter => exact .inl rfl
    | waitM3 =>
      simp only [PmCntrl.opStep, PmCntrl.suspendStep, PmCntrl.wait] at h
      split at h
      · cases h
      · split at h <;> cases h
    | waitedM3 ret =>
      simp only [PmCntrl.opStep, PmCntrl.suspendStep] at h
      split at h <;> cases h
    | unwind ret => cases h
  | resume pos =>
    cases pos <;> simp only [PmCntrl.opStep, PmCntrl.resumeStep, PmCntrl.wait] at h <;>
      (repeat' split at h) <;> cases h
  | getSync pos =>
    cases pos <;> simp only [PmCntrl.opStep, PmCntrl.getSyncStep, PmCntrl.wait] at h <;>
      (repeat' split at h) <;> cases h
  | ready pos =>
    cases pos <;> simp only [PmCntrl.opStep, PmCntrl.readyStep, PmCntrl.wait] at h <;>
      (repeat' split at h) <;> cases h
  | disable cause pos =>
    cases pos <;> simp only [PmCntrl.opStep, PmCntrl.disableStep] at h <;>
      (repeat' split at h) <;> cases h
  | returned ret => cases h
  | finished => cases h

/-- Each event keeps it, if it is quiet. -/
theorem unvoted_next {s : PmRun} {e : PmEvent} (h : s.Unvoted) (hquiet : s.Quiet e) :
    (s.next e).Unvoted := by
  cases e with
  | call f =>
    rintro ⟨op, hop, hentering⟩
    rcases List.mem_append.mp hop with hold | hnew
    · exact h ⟨op, hold, hentering⟩
    · rw [List.mem_singleton.mp hnew] at hentering
      cases f <;> cases hentering
  | step i r =>
    simp only [next, runOp]
    cases hop : s.ops[i]? with
    | none => exact h
    | some op =>
      rintro ⟨op', hop', hentering⟩
      have hcounts : counts op = 0 ∨ op = .getSync .count := by
        unfold counts
        split
        · exact .inr rfl
        · exact .inl rfl
      rcases hcounts with hzero | rfl
      · dsimp only
        rw [hzero, Nat.add_zero]
        rcases List.mem_or_eq_of_mem_set hop' with hold | rfl
        · exact h ⟨op', hold, hentering⟩
        · rcases entering_opStep hentering with hentering | rfl
          · exact h ⟨op, List.mem_of_getElem? hop, hentering⟩
          · exact hquiet.1 hop
      · rcases List.mem_or_eq_of_mem_set hop' with hold | rfl
        · rw [hquiet.2 hop op' hold] at hentering
          cases hentering
        · cases hentering
  | get =>
    rintro ⟨op, hop, hentering⟩
    rw [hquiet op hop] at hentering
    cases hentering
  | put =>
    rintro hentering
    have hvotes := h hentering
    dsimp only [next]
    omega
  | _ => exact h

/-- In every run in which nobody votes when a call looks at `dev_wake` first, nor before it has
made its transition, votes are respected. The count they should be in is 0 all the time. -/
theorem respects_of_quiet {s : PmRun} {e : PmEvent} (hs : system.Reach Quiet s)
    (hquiet : s.Quiet e) : s.Respects e ∧ s.cntrl.devWake = 0 := by
  have hunvoted : s.Unvoted := hs.invariant (fun ⟨_, hop, _⟩ ↦ absurd hop List.not_mem_nil)
    fun _ _ h _ hquiet ↦ unvoted_next h hquiet
  have hwake : s.cntrl.devWake = 0 := hs.invariant (I := fun s ↦ s.cntrl.devWake = 0) rfl
    fun s e h _ _ ↦ (devWake_next s e).trans h
  refine ⟨⟨?_, ?_⟩, hwake⟩
  · rintro i r rfl hcheck hvotes
    have hnone := hquiet.1 hcheck
    omega
  · intro hbefore hafter
    by_contra hvotes
    refine pmState_next_ne hbefore ?_ hafter
    rintro i r rfl henter
    exact hvotes (hunvoted ⟨_, List.mem_of_getElem? henter, rfl⟩)

instance (s : PmRun) (e : PmEvent) : Decidable (s.Quiet e) :=
  match e with
  | .get => inferInstanceAs (Decidable (∀ op ∈ s.ops, op.entering = false))
  | .step i _ =>
    inferInstanceAs (Decidable
      ((s.ops[i]? = some (.suspend .quickCheck) → s.votes = 0) ∧
        (s.ops[i]? = some (.getSync .count) → ∀ op ∈ s.ops, op.entering = false)))
  | .call _ | .put | .wakeGet | .wakePut | .m0 | .m1 | .m3 | .sysErr | .linkDown => .isTrue trivial

/-- The device gets ready and reports M0, and the driver is about to enter M3. -/
def entering : List PmEvent :=
  let r : PmRead := ⟨false, false, true, false, false⟩
  [.call .ready, .step 0 r, .step 0 r, .step 0 r, .step 0 r, .m0, .call .suspend] ++
    List.replicate 6 (.step 1 r)

theorem respects_of_quiet_entering :
    (system.exec init entering).Respects (.step 1 ⟨false, false, true, false, false⟩) ∧
      (system.exec init entering).cntrl.devWake = 0 :=
  respects_of_quiet (System.Reach.init.exec (by decide)) (by decide)

/-! ## A vote that is not seen -/

/-- The device gets ready and reports M0, a client votes, and the driver suspends. -/
def suspended : List PmEvent :=
  let r : PmRead := ⟨false, false, true, false, false⟩
  [.call .ready, .step 0 r, .step 0 r, .step 0 r, .step 0 r, .m0, .get, .call .suspend] ++
    List.replicate 6 (.step 1 r)

/-- The device enters M3 with a vote. -/
theorem suspended_not_respected :
    ¬ ∀ s e, system.Reach (fun _ _ ↦ True) s → s.Enabled e → s.Respects e := by
  intro h
  have hreach : system.Reach (fun _ _ ↦ True) (system.exec init suspended) :=
    System.Reach.init.exec (by decide)
  have henters := (h _ (.step 1 ⟨false, false, true, false, false⟩) hreach (by decide)).enters
  exact absurd (henters (by decide) (by decide)) (by decide)

end PmRun

end Wwan.Mhi
