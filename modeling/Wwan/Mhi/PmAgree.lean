import Wwan.Mhi.PmOps

/-!
# Agreement of `pm_state` and `dev_state`

A transition that is refused should leave `dev_state` as it is, and be an error. What the device
reports is recorded in `dev_state` before `mhi_tryset_pm_state` is asked, and so is READY after it
was; and a caller that asks for the state it is in is not told that it was refused. A run is right
at every step if and only if these cases do not come up.
-/

namespace Wwan.Mhi

/-- What `pm_state` says of `dev_state`. -/
def Agree (pmState : PmState) (devState : DevState) : Prop :=
  match pmState with
  | .m2 => devState = .m2
  | .m3 => devState = .m3
  | .sysErrProcess | .shutdownProcess | .disable => devState = .reset
  | _ => True

/-- The call returns an error. -/
def PmOp.Fails : PmOp → Prop
  | .returned ret => ret ≠ 0
  | .suspend (.unwind ret) => ret ≠ 0
  | _ => False

namespace PmRun

variable (s : PmRun)

/-- The state an event asks `mhi_tryset_pm_state` for, if it does. -/
def attempt : PmEvent → Option PmState
  | .step i r => s.ops[i]?.bind (s.cntrl.attempt r)
  | .m0 => some .m0
  | .m1 => some .m2
  | .m3 => some .m3
  | .sysErr => some .sysErrDetect
  | .linkDown => some .ldErrFatalDetect
  | _ => none

/-- The function returns an error, if it has a value. -/
def Errs : PmEvent → Prop
  | .step i r => ∀ op ∈ s.ops[i]?, (∀ cause pos, op ≠ .disable cause pos) →
    (s.cntrl.opStep r op).2.Fails
  | .m0 => s.cntrl.mhiPmM0Transition.2 ≠ 0
  | .m3 => s.cntrl.mhiPmM3Transition.2 ≠ 0
  | _ => True

/-- A transition that is refused leaves `dev_state`, and is an error. -/
def RefusalHarmless (e : PmEvent) : Prop :=
  ∀ state ∈ s.attempt e, ¬ s.cntrl.pmState.Allows state →
    (s.next e).cntrl.devState = s.cntrl.devState ∧ s.Errs e

/-- The transition is in the table, or `dev_state` is already what is recorded and the state is not
the one that is asked for. -/
def Recorded (pmState state : PmState) (devState recorded : DevState) : Prop :=
  pmState.Allows state ∨ devState = recorded ∧ pmState ≠ state

/-- M0, M3 and READY come when the table has the transition; `mhi_pm_suspend` and `mhi_pm_resume` do
not find the state they ask for; the last transition of a shutdown does not find another call to
have begun again. -/
def Timely : PmEvent → Prop
  | .m0 => Recorded s.cntrl.pmState .m0 s.cntrl.devState .m0
  | .m3 => Recorded s.cntrl.pmState .m3 s.cntrl.devState .m3
  | .step i _ =>
    match s.ops[i]? with
    | some (.suspend .enter) => s.cntrl.pmState ≠ .m3Enter
    | some (.resume .exit) => s.cntrl.pmState ≠ .m3Exit
    | some (.ready .set) => Recorded s.cntrl.pmState .por s.cntrl.devState .ready
    | some (.disable .shutdown .finish) =>
      s.cntrl.pmState = .por → s.cntrl.devState = .reset
    | _ => True
  | _ => True

/-! ## Transitions -/

section Core

variable {pm state : PmState} {dev recorded : DevState}

/-- A state that says nothing of `dev_state` is harmless. -/
theorem agree_tryset (h : Agree pm dev) (hstate : Agree state dev) :
    Agree (mhiTrysetPmState pm state) dev := by
  rcases PmState.tryset_cases pm state with heq | heq
  · rw [heq]
    exact hstate
  · rw [heq]
    exact h

/-- A state of the device that is recorded whether or not the transition is made. -/
theorem recorded_iff (h : Agree pm dev) (hstate : Agree state recorded) :
    (¬ pm.Allows state → recorded = dev ∧ mhiTrysetPmState pm state ≠ state) ∧
      Agree (mhiTrysetPmState pm state) recorded ↔ Recorded pm state dev recorded := by
  by_cases hallows : pm.Allows state
  · refine ⟨fun _ ↦ .inl hallows, fun _ ↦ ⟨fun hnot ↦ absurd hallows hnot, ?_⟩⟩
    rw [hallows.tryset]
    exact hstate
  · rw [PmState.tryset_of_not_allows hallows]
    constructor
    · rintro ⟨hrefused, -⟩
      obtain ⟨hdev, hne⟩ := hrefused hallows
      exact .inr ⟨hdev.symm, hne⟩
    · intro hrecorded
      obtain ⟨rfl, hne⟩ := hrecorded.resolve_left hallows
      exact ⟨fun _ ↦ ⟨rfl, hne⟩, h⟩

/-- A caller that asks for the state it is in is refused, and is not told. -/
theorem told_iff (hself : ¬ state.Allows state) :
    (¬ pm.Allows state → mhiTrysetPmState pm state ≠ state) ↔ pm ≠ state := by
  constructor
  · rintro htold rfl
    exact htold hself (PmState.tryset_of_not_allows hself)
  · intro hne hallows
    rw [PmState.tryset_of_not_allows hallows]
    exact hne

/-- `MHI_PM_DISABLE` is reached from two states. -/
theorem eq_of_allows_disable (h : pm.Allows .disable) : pm = .por ∨ pm = .shutdownProcess := by
  cases pm with
  | por => exact .inl rfl
  | shutdownProcess => exact .inr rfl
  | _ => exact absurd h (by decide)

/-- So only a shutdown that finds `MHI_PM_POR` can disable a device that is not reset. -/
theorem disabled_iff (h : Agree pm dev) :
    Agree (mhiTrysetPmState pm .disable) dev ↔ (pm = .por → dev = .reset) := by
  by_cases hallows : pm.Allows .disable
  · rw [hallows.tryset]
    constructor
    · intro hreset _
      exact hreset
    · intro hpor
      rcases eq_of_allows_disable hallows with rfl | rfl
      · exact hpor rfl
      · exact h
  · rw [PmState.tryset_of_not_allows hallows]
    refine ⟨?_, fun _ ↦ h⟩
    rintro - rfl
    exact absurd (by decide) hallows

end Core

/-! ## Steps of calls -/

section Calls

variable {c : PmCntrl} (r : PmRead)

/-- What is required of a step of a call. -/
def OpRight (c : PmCntrl) (r : PmRead) (op : PmOp) : Prop :=
  (∀ state ∈ c.attempt r op, ¬ c.pmState.Allows state →
    (c.opStep r op).1.devState = c.devState ∧
      ((∀ cause pos, op ≠ .disable cause pos) → (c.opStep r op).2.Fails)) ∧
    Agree (c.opStep r op).1.pmState (c.opStep r op).1.devState

variable (h : Agree c.pmState c.devState)

include h

/-- A step that does not ask for a state is right. -/
theorem opRight_of_attempt {op : PmOp}
    (hattempt : c.attempt r op = none) (hdev : (c.opStep r op).1.devState = c.devState) :
    OpRight c r op := by
  constructor
  · intro state hstate
    rw [hattempt] at hstate
    cases hstate
  · rw [PmCntrl.pmState_opStep, hattempt, hdev]
    exact h

/-- A step that asks for a state, leaves the recorded device state and fails exactly when the
state it asked for is not the one it is told is right unless the controller is already there:
only then is a refused state told as reached. -/
theorem opRight_iff_of_fails {op : PmOp} {state : PmState}
    (hop : ∀ cause pos, op ≠ .disable cause pos) (hattempt : c.attempt r op = some state)
    (hstate : Agree state c.devState) (hdev : (c.opStep r op).1.devState = c.devState)
    (hfails : (c.opStep r op).2.Fails ↔ mhiTrysetPmState c.pmState state ≠ state)
    (hself : ¬ state.Allows state) :
    OpRight c r op ↔ c.pmState ≠ state := by
  rw [← told_iff hself, OpRight, PmCntrl.pmState_opStep, hattempt, hdev]
  constructor
  · rintro ⟨hright, -⟩ hallows
    exact hfails.mp ((hright state rfl hallows).2 hop)
  · intro htold
    refine ⟨?_, agree_tryset h hstate⟩
    rintro state ⟨⟩ hallows
    exact ⟨rfl, fun _ ↦ hfails.mpr (htold hallows)⟩

theorem opRight_enter_iff (hwake : c.devWake = 0) :
    OpRight c r (.suspend .enter) ↔ c.pmState ≠ .m3Enter := by
  have hnot : ¬ c.devWake > 1 := by omega
  have hattempt : c.attempt r (.suspend .enter) = some .m3Enter := if_neg hnot
  have hdev : (c.opStep r (.suspend .enter)).1.devState = c.devState := by
    simp only [PmCntrl.opStep, PmCntrl.suspendStep, if_neg hnot]
    split <;> rfl
  have hfails : (c.opStep r (.suspend .enter)).2.Fails ↔
      mhiTrysetPmState c.pmState .m3Enter ≠ .m3Enter := by
    by_cases heq : mhiTrysetPmState c.pmState .m3Enter = .m3Enter
    · simp [PmCntrl.opStep, PmCntrl.suspendStep, hnot, PmCntrl.tryset, heq, PmOp.Fails]
    · simp [PmCntrl.opStep, PmCntrl.suspendStep, hnot, PmCntrl.tryset, heq, PmOp.Fails, eio]
  exact opRight_iff_of_fails r h (by rintro _ _ ⟨⟩) hattempt trivial hdev hfails (by decide)

theorem opRight_exit_iff : OpRight c r (.resume .exit) ↔ c.pmState ≠ .m3Exit := by
  have hdev : (c.opStep r (.resume .exit)).1.devState = c.devState := by
    simp only [PmCntrl.opStep, PmCntrl.resumeStep]
    split
    · rfl
    · exact PmCntrl.devState_assert _ true
  have hfails : (c.opStep r (.resume .exit)).2.Fails ↔
      mhiTrysetPmState c.pmState .m3Exit ≠ .m3Exit := by
    by_cases heq : mhiTrysetPmState c.pmState .m3Exit = .m3Exit
    · simp [PmCntrl.opStep, PmCntrl.resumeStep, PmCntrl.tryset, heq, PmOp.Fails]
    · simp [PmCntrl.opStep, PmCntrl.resumeStep, PmCntrl.tryset, heq, PmOp.Fails, eio]
  exact opRight_iff_of_fails r h (by rintro _ _ ⟨⟩) rfl trivial hdev hfails (by decide)

theorem opRight_set_iff :
    OpRight c r (.ready .set) ↔ Recorded c.pmState .por c.devState .ready := by
  have hfails : (c.opStep r (.ready .set)).2.Fails ↔ mhiTrysetPmState c.pmState .por ≠ .por := by
    by_cases heq : mhiTrysetPmState c.pmState .por = .por
    · simp [PmCntrl.opStep, PmCntrl.readyStep, PmCntrl.tryset, heq, PmOp.Fails]
    · simp [PmCntrl.opStep, PmCntrl.readyStep, PmCntrl.tryset, heq, PmOp.Fails, eio]
  rw [← recorded_iff h (show Agree .por .ready from trivial), OpRight]
  refine and_congr ?_ Iff.rfl
  constructor
  · intro hright hallows
    obtain ⟨hdev, herr⟩ := hright _ rfl hallows
    exact ⟨hdev, hfails.mp (herr (by rintro _ _ ⟨⟩))⟩
  · rintro hright state ⟨⟩ hallows
    obtain ⟨hdev, hne⟩ := hright hallows
    exact ⟨hdev, fun _ ↦ hfails.mpr hne⟩

/-- The first transition of `mhi_pm_disable_transition` is always right. -/
theorem opRight_disable (cause : DisableCause) : OpRight c r (.disable cause .enter) := by
  have hattempt : c.attempt r (.disable cause .enter) = some cause.transitionState := by
    cases cause <;> rfl
  have hdev : (c.opStep r (.disable cause .enter)).1.devState =
      if mhiTrysetPmState c.pmState cause.transitionState = cause.transitionState then .reset
      else c.devState := by
    by_cases heq : mhiTrysetPmState c.pmState cause.transitionState = cause.transitionState
    · simp [PmCntrl.opStep, PmCntrl.disableStep, PmCntrl.tryset, heq]
    · simp [PmCntrl.opStep, PmCntrl.disableStep, PmCntrl.tryset, heq]
  have htarget : ∀ dev, Agree cause.transitionState dev ↔ dev = .reset := by
    intro dev
    cases cause <;> exact Iff.rfl
  rw [OpRight, PmCntrl.pmState_opStep, hattempt, hdev]
  constructor
  · rintro state hstate hallows
    obtain rfl : cause.transitionState = state := Option.mem_some.mp hstate
    refine ⟨?_, fun hnot ↦ absurd rfl (hnot cause .enter)⟩
    rw [PmState.tryset_of_not_allows hallows]
    split
    · rename_i heq
      rw [heq] at h
      exact ((htarget _).mp h).symm
    · rfl
  · dsimp only [PmCntrl.after]
    split
    · rename_i heq
      rw [heq]
      exact (htarget _).mpr rfl
    · rename_i hne
      rw [(PmState.tryset_cases _ _).resolve_left hne]
      exact h

theorem opRight_finish_iff :
    OpRight c r (.disable .shutdown .finish) ↔ (c.pmState = .por → c.devState = .reset) := by
  rw [← disabled_iff h, OpRight]
  refine ⟨fun hright ↦ hright.2, fun hagree ↦ ⟨?_, hagree⟩⟩
  rintro state ⟨⟩ -
  exact ⟨rfl, fun hnot ↦ absurd rfl (hnot _ _)⟩

theorem opRight_powerOn : OpRight c r (.disable .sysErr .finish) := by
  cases hedl : r.edl with
  | false =>
    refine opRight_of_attempt r h ?_ ?_
    · simp [PmCntrl.attempt, hedl]
    · simp [PmCntrl.opStep, PmCntrl.disableStep, hedl]
  | true =>
    have hattempt : c.attempt r (.disable .sysErr .finish) = some .por := by
      simp [PmCntrl.attempt, hedl]
    have hdev : (c.opStep r (.disable .sysErr .finish)).1.devState = c.devState := by
      simp [PmCntrl.opStep, PmCntrl.disableStep, hedl, PmCntrl.tryset]
    rw [OpRight, PmCntrl.pmState_opStep, hattempt, hdev]
    refine ⟨?_, agree_tryset h trivial⟩
    rintro state ⟨⟩ -
    exact ⟨rfl, fun hnot ↦ absurd rfl (hnot _ _)⟩

end Calls

/-- The step of a call is right if and only if the event is. -/
theorem opRight_iff {s : PmRun} {i : ℕ} {r : PmRead} {op : PmOp} (hop : s.ops[i]? = some op) :
    s.RefusalHarmless (.step i r) ∧
      Agree (s.next (.step i r)).cntrl.pmState (s.next (.step i r)).cntrl.devState ↔
        OpRight s.cntrl r op := by
  have hnext : (s.next (.step i r)).cntrl = (s.cntrl.opStep r op).1 := by
    simp only [next, runOp, hop]
  have hattempt : s.attempt (.step i r) = s.cntrl.attempt r op := by
    simp only [attempt, hop, Option.bind_some]
  have herrs : s.Errs (.step i r) ↔
      ((∀ cause pos, op ≠ .disable cause pos) → (s.cntrl.opStep r op).2.Fails) := by
    simp only [Errs, hop, Option.mem_some_iff, forall_eq']
  rw [RefusalHarmless, hnext, hattempt, herrs, OpRight]

/-- The step of a call is right if and only if it is timely. -/
theorem right_step_iff {s : PmRun} (h : Agree s.cntrl.pmState s.cntrl.devState)
    (hwake : s.cntrl.devWake = 0) {i : ℕ} {r : PmRead} {op : PmOp} (hop : s.ops[i]? = some op) :
    s.RefusalHarmless (.step i r) ∧
      Agree (s.next (.step i r)).cntrl.pmState (s.next (.step i r)).cntrl.devState ↔
        s.Timely (.step i r) := by
  rw [opRight_iff hop]
  simp only [Timely, hop]
  cases op with
  | suspend pos =>
    cases pos with
    | enter => exact opRight_enter_iff r h hwake
    | wakeGet =>
      exact iff_of_true (opRight_of_attempt r h rfl (PmCntrl.devState_assert _ false)) trivial
    | _ => exact iff_of_true (opRight_of_attempt r h rfl rfl) trivial
  | resume pos =>
    cases pos with
    | exit => exact opRight_exit_iff r h
    | _ => exact iff_of_true (opRight_of_attempt r h rfl rfl) trivial
  | getSync pos =>
    cases pos with
    | wakeGet =>
      exact iff_of_true (opRight_of_attempt r h rfl (PmCntrl.devState_assert _ true)) trivial
    | _ => exact iff_of_true (opRight_of_attempt r h rfl rfl) trivial
  | ready pos =>
    cases pos with
    | set => exact opRight_set_iff r h
    | _ => exact iff_of_true (opRight_of_attempt r h rfl rfl) trivial
  | disable cause pos =>
    cases pos with
    | enter => exact iff_of_true (opRight_disable r h cause) (by cases cause <;> trivial)
    | reset prevValid =>
      cases cause <;>
        exact iff_of_true (opRight_of_attempt r h rfl rfl) trivial
    | finish =>
      cases cause with
      | sysErr => exact iff_of_true (opRight_powerOn r h) trivial
      | shutdown => exact opRight_finish_iff r h
  | returned ret => exact iff_of_true (opRight_of_attempt r h rfl rfl) trivial
  | finished => exact iff_of_true (opRight_of_attempt r h rfl rfl) trivial

/-- An event is right if and only if it is timely. -/
theorem right_iff {s : PmRun} (h : Agree s.cntrl.pmState s.cntrl.devState)
    (hwake : s.cntrl.devWake = 0) (e : PmEvent) :
    s.RefusalHarmless e ∧ Agree (s.next e).cntrl.pmState (s.next e).cntrl.devState ↔
      s.Timely e := by
  -- an event that does not ask for a state and records none
  have hnone : ∀ e, s.attempt e = none → (s.next e).cntrl.pmState = s.cntrl.pmState →
      (s.next e).cntrl.devState = s.cntrl.devState → s.Timely e →
        (s.RefusalHarmless e ∧ Agree (s.next e).cntrl.pmState (s.next e).cntrl.devState ↔
          s.Timely e) := by
    intro e hattempt hpm hdev htimely
    refine ⟨fun _ ↦ htimely, fun _ ↦ ⟨?_, ?_⟩⟩
    · intro state hstate
      rw [hattempt] at hstate
      cases hstate
    · rw [hpm, hdev]
      exact h
  cases e with
  | call f => exact hnone _ rfl rfl rfl trivial
  | step i r =>
    cases hop : s.ops[i]? with
    | none =>
      refine hnone _ ?_ ?_ ?_ ?_
      · simp only [attempt, hop, Option.bind_none]
      · simp only [next, runOp, hop]
      · simp only [next, runOp, hop]
      · simp only [Timely, hop]
    | some op =>
      exact right_step_iff h hwake hop
  | get =>
    exact hnone _ rfl (PmCntrl.pmState_assert _ true) (PmCntrl.devState_assert _ true) trivial
  | put => exact hnone _ rfl rfl rfl trivial
  | wakeGet =>
    exact hnone _ rfl (PmCntrl.pmState_assert _ false) (PmCntrl.devState_assert _ false) trivial
  | wakePut => exact hnone _ rfl rfl rfl trivial
  | m0 =>
    obtain ⟨hpm, hdev, -, hret⟩ := s.cntrl.m0_spec
    have herr : s.cntrl.mhiPmM0Transition.2 ≠ 0 ↔ mhiTrysetPmState s.cntrl.pmState .m0 ≠ .m0 := by
      rw [hret]
      split
      · rename_i heq
        simp [heq]
      · rename_i hne
        simp [hne, eio]
    rw [Timely, ← recorded_iff h (show Agree .m0 .m0 from trivial)]
    simp only [RefusalHarmless, attempt, Option.mem_some_iff, forall_eq', next, hpm, hdev, Errs,
      herr]
  | m1 =>
    obtain ⟨hpm, hdev, -⟩ := s.cntrl.m1_spec
    refine iff_of_true ⟨?_, ?_⟩ trivial
    · rintro state ⟨⟩ hallows
      refine ⟨?_, trivial⟩
      simp only [next, hdev]
      rw [PmState.tryset_of_not_allows hallows]
      split
      · rename_i heq
        rw [heq] at h
        exact h.symm
      · rfl
    · simp only [next, hpm, hdev]
      split
      · rename_i heq
        rw [heq]
        rfl
      · rename_i hne
        rw [(PmState.tryset_cases _ _).resolve_left hne]
        exact h
  | m3 =>
    have herr : s.cntrl.mhiPmM3Transition.2 ≠ 0 ↔ mhiTrysetPmState s.cntrl.pmState .m3 ≠ .m3 := by
      by_cases heq : mhiTrysetPmState s.cntrl.pmState .m3 = .m3
      · simp [PmCntrl.mhiPmM3Transition, PmCntrl.tryset, heq]
      · simp [PmCntrl.mhiPmM3Transition, PmCntrl.tryset, heq, eio]
    rw [Timely, ← recorded_iff h (show Agree .m3 .m3 from rfl)]
    simp only [RefusalHarmless, attempt, Option.mem_some_iff, forall_eq', Errs, herr]
    exact Iff.rfl
  | sysErr =>
    refine iff_of_true ⟨?_, agree_tryset h trivial⟩ trivial
    rintro state ⟨⟩ -
    exact ⟨rfl, trivial⟩
  | linkDown =>
    refine iff_of_true ⟨?_, agree_tryset h trivial⟩ trivial
    rintro state ⟨⟩ -
    exact ⟨rfl, trivial⟩

/-! ## Runs -/

/-- In a run, every refusal is harmless and the states agree after every event if and only if every
event is timely. -/
theorem agree_iff_timely (es : List PmEvent) :
    system.Along
      (fun s e ↦ s.RefusalHarmless e ∧ Agree (s.next e).cntrl.pmState (s.next e).cntrl.devState)
      init es ↔ system.Along Timely init es := by
  refine System.along_iff_of_invariant
    (I := fun s ↦ Agree s.cntrl.pmState s.cntrl.devState ∧ s.cntrl.devWake = 0) ?_ ?_
    ⟨show Agree .por .reset from trivial, rfl⟩ es
  · rintro s e ⟨h, hwake⟩ -
    exact right_iff h hwake e
  · rintro s e ⟨h, hwake⟩ - htimely
    exact ⟨((right_iff h hwake e).mpr htimely).2, (devWake_next s e).trans hwake⟩

/-- The device reports M3 after a system error was processed. -/
def lateM3 : List PmEvent :=
  let r : PmRead := ⟨false, false, true, false, false⟩
  [.call .ready, .step 0 r, .step 0 r, .step 0 r, .step 0 r, .m0, .call .suspend] ++
    List.replicate 7 (.step 1 r) ++
      [.sysErr, .call (.disable .sysErr), .step 2 r, .m3]

/-- The transition is refused, and `dev_state` is not RESET any more. -/
theorem lateM3_not_agree :
    system.Along (fun _ _ ↦ True) init lateM3 ∧
      (system.exec init lateM3).cntrl.pmState = .sysErrProcess ∧
        (system.exec init lateM3).cntrl.devState ≠ .reset := by
  decide

end PmRun

end Wwan.Mhi
