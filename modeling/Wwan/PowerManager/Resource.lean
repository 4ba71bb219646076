import Wwan.PowerManager.InUse

/-!
# The resource follows the state

The manager requests the resource when it becomes busy, and releases it when it becomes idle.
Both are done later, each by its own work item, and an item that is scheduled while it is
pending keeps its place. So a manager that becomes busy, idle and busy again before the first
item runs requests the resource and then releases it.
-/

namespace Wwan.PowerManager

open Wwan Bytes

/-! ## The transitions -/

/-- The state that a work item belongs to. -/
def ResWork.state : ResWork → MpmState
  | .request => .busy
  | .release => .idle

namespace Mpm

variable (mpm : Mpm)

/-- The work item of the transition that `sprd_mpm_up` makes. -/
def upEdge : Option ResWork :=
  if u32 (mpm.upCnt + 1) = 1 ∧ mpm.mpmState = .idle then some .request else none

/-- The work item of the transition that `sprd_mpm_down` makes. -/
def downEdge (immediately : Bool) : Option ResWork :=
  if u32 (mpm.upCnt - 1) = 0 ∧ ¬ (mpm.laterIdle ≠ 0 ∧ immediately = false) then some .release
  else none

/-- The work item of the transition that the timer makes. -/
def timerEdge : Option ResWork := if mpm.expires ≠ 0 then some .release else none

/-- No other item is pending behind this one. -/
def clear (work : ResWork) : Bool := work ∈ mpm.works → mpm.works.getLast? = some work

/-- The last item that was executed or is pending belongs to the state. -/
def Follows : Prop :=
  mpm.mpmState = (mpm.called ++ mpm.works).getLast?.elim .idle ResWork.state

end Mpm

/-- The work item of the transition that a step makes. -/
def PmStep.edge {ι : Type*} (s : Manager ι) : PmStep ι → Option ResWork
  | mpmCall i _ =>
    match s.pending i with
    | none => none
    | some .up => s.mpm.upEdge
    | some (.down immediately) => s.mpm.downEdge immediately
  | deactiveTimer => s.mpm.timerEdge
  | _ => none

/-- Whether the item of the transition that a step makes is not pending with the other item
behind it. -/
def PmStep.clear {ι : Type*} (s : Manager ι) (e : PmStep ι) : Bool :=
  (e.edge s).all s.mpm.clear

/-- What a step that makes a transition does to the resource. -/
structure Moves (mpm mpm' : Mpm) (edge : Option ResWork) : Prop where
  ops : mpm'.ops = mpm.ops
  called : mpm'.called = mpm.called
  works : mpm'.works = edge.elim mpm.works (schedule mpm.works)
  mpmState : mpm'.mpmState = edge.elim mpm.mpmState ResWork.state

section Moves

variable {K : Clock} {mpm mpm' : Mpm}

theorem Moves.of_eq (h : mpm' = mpm) : Moves mpm mpm' none := by
  rw [h]
  exact ⟨rfl, rfl, rfl, rfl⟩

theorem Moves.active (mpm : Mpm) (h : mpm.ops.requestResource = true) :
    Moves mpm mpm.active (some .request) := by
  unfold Mpm.active Mpm.requestResource
  rw [if_pos h]
  exact ⟨rfl, rfl, rfl, rfl⟩

theorem Moves.deactive (mpm : Mpm) (h : mpm.ops.releaseResource = true) :
    Moves mpm mpm.deactive (some .release) := by
  unfold Mpm.deactive Mpm.releaseResource
  rw [if_pos h]
  exact ⟨rfl, rfl, rfl, rfl⟩

theorem Moves.up (h : mpm.ops.requestResource = true) : Moves mpm mpm.up mpm.upEdge := by
  unfold Mpm.up Mpm.upEdge
  rw [cancelTimer_eq]
  dsimp only
  split
  · obtain ⟨hops, hcalled, hworks, hstate⟩ :=
      Moves.active { mpm with expires := 0, upCnt := u32 (mpm.upCnt + 1) } h
    exact ⟨hops, hcalled, hworks, hstate⟩
  · exact ⟨rfl, rfl, rfl, rfl⟩

theorem Moves.down (h : mpm.ops.releaseResource = true) (immediately : Bool) (jiffies : ℕ) :
    Moves mpm (mpm.down K immediately jiffies) (mpm.downEdge immediately) := by
  unfold Mpm.down Mpm.downEdge
  dsimp only
  by_cases hzero : u32 (mpm.upCnt - 1) = 0
  · rw [if_pos hzero]
    by_cases hlater : mpm.laterIdle ≠ 0 ∧ immediately = false
    · rw [if_pos hlater, if_neg fun hedge ↦ hedge.2 hlater]
      exact ⟨rfl, rfl, rfl, rfl⟩
    · rw [if_neg hlater, if_pos ⟨hzero, hlater⟩]
      obtain ⟨hops, hcalled, hworks, hstate⟩ :=
        Moves.deactive { mpm with upCnt := u32 (mpm.upCnt - 1) } h
      exact ⟨hops, hcalled, hworks, hstate⟩
  · rw [if_neg hzero, if_neg fun hedge ↦ hzero hedge.1]
    exact ⟨rfl, rfl, rfl, rfl⟩

theorem Moves.timer (h : mpm.ops.releaseResource = true) :
    Moves mpm mpm.deactiveTimerFn mpm.timerEdge := by
  unfold Mpm.deactiveTimerFn Mpm.timerEdge
  split
  · exact .deactive mpm h
  · exact .of_eq rfl

theorem Moves.stayAwake (mpm : Mpm) : Moves mpm mpm.stayAwake none := by
  unfold Mpm.stayAwake
  dsimp only
  split <;> exact ⟨rfl, rfl, rfl, rfl⟩

theorem Moves.relax (mpm : Mpm) : Moves mpm mpm.relax none := by
  unfold Mpm.relax
  dsimp only
  split <;> exact ⟨rfl, rfl, rfl, rfl⟩

/-- The state is followed if the item of each transition comes last. -/
theorem Mpm.Follows.moves {edge : Option ResWork} (h : mpm.Follows) (hmoves : Moves mpm mpm' edge)
    (hclear : edge.all mpm.clear = true) : mpm'.Follows := by
  unfold Mpm.Follows
  rw [hmoves.mpmState, hmoves.called, hmoves.works]
  cases edge with
  | none => exact h
  | some work =>
    have hlast : (schedule mpm.works work).getLast? = some work :=
      getLast?_schedule_iff.mpr (of_decide_eq_true hclear)
    dsimp only [Option.elim_some]
    rw [List.getLast?_append, hlast]
    rfl

theorem Mpm.Follows.runWork (h : mpm.Follows) : mpm.runWork.Follows := by
  unfold Mpm.runWork
  split
  · exact h
  · rename_i work works hworks
    unfold Mpm.Follows at h ⊢
    rw [hworks] at h
    dsimp only
    rw [List.append_assoc]
    exact h

end Moves

/-! ## Runs -/

section Runs

variable {ι : Type*} [DecidableEq ι] {K : Clock} {s : Manager ι} {i : ι}

theorem mpm_doUp (s : Manager ι) (i : ι) : (s.doUp i).mpm = s.mpm := by
  unfold Manager.doUp
  dsimp only
  split <;> rfl

theorem mpm_doDown (s : Manager ι) (i : ι) (immediately : Bool) :
    (s.doDown i immediately).mpm = s.mpm := by
  unfold Manager.doDown
  dsimp only
  split
  · split <;> rfl
  · rfl

theorem mpm_cancelTimer (s : Manager ι) (i : ι) : (s.cancelTimer i).mpm = s.mpm := by
  unfold Manager.cancelTimer
  split <;> rfl

theorem moves_stayAwake (s : Manager ι) (i : ι) : Moves s.mpm (s.stayAwake i).mpm none := by
  unfold Manager.stayAwake
  dsimp only
  split
  · exact .stayAwake s.mpm
  · exact .of_eq rfl

theorem moves_relax (s : Manager ι) (i : ι) : Moves s.mpm (s.relax i).mpm none := by
  unfold Manager.relax
  split
  · exact .relax s.mpm
  · exact .of_eq rfl

/-- What a step does to the resource, if it is not the execution of a work item. -/
theorem moves_act {e : PmStep ι} (hrequest : s.mpm.ops.requestResource = true)
    (hrelease : s.mpm.ops.releaseResource = true) (he : e ≠ .runWork) :
    Moves s.mpm (e.act K s).mpm (e.edge s) := by
  cases e with
  | create i => exact .of_eq rfl
  | destroy i => exact .of_eq (mpm_cancelTimer s i)
  | requestResource i => exact .of_eq (mpm_doUp s i)
  | waitDone i ret =>
    dsimp only [PmStep.act, PmStep.edge, Manager.waitDone]
    split
    · exact .of_eq (mpm_doDown _ i false)
    · exact .of_eq rfl
  | releaseResource i => exact .of_eq (mpm_doDown s i false)
  | powerUp i => exact .of_eq (mpm_doUp s i)
  | powerDown i immediately => exact .of_eq (mpm_doDown s i immediately)
  | mpmCall i jiffies =>
    dsimp only [PmStep.act, PmStep.edge, Manager.mpmCall]
    cases s.pending i with
    | none => exact .of_eq rfl
    | some call =>
      cases call with
      | up => exact .up hrequest
      | down immediately => exact .down hrelease immediately jiffies
  | requestWakelock i => exact mpm_cancelTimer s i ▸ moves_stayAwake (s.cancelTimer i) i
  | requestWakelockPeriod i jiffies msec =>
    exact mpm_cancelTimer s i ▸ moves_stayAwake (s.cancelTimer i) i
  | releaseWakelock i => exact mpm_cancelTimer s i ▸ moves_relax (s.cancelTimer i) i
  | releaseWakelockLater i jiffies msec => exact .of_eq rfl
  | relaxWakelockTimer i jiffies =>
    dsimp only [PmStep.act, PmStep.edge, Manager.relaxWakelockTimer]
    split
    · exact moves_relax (s.setPms i { s.pms i with expires := 0 }) i
    · exact .of_eq rfl
  | deactiveTimer => exact .timer hrelease
  | runWork => exact absurd rfl he

/-- The resource callbacks are set, and the last item belongs to the state. -/
structure ResourceInv (mpm : Mpm) : Prop where
  request : mpm.ops.requestResource = true
  release : mpm.ops.releaseResource = true
  follows : mpm.Follows

theorem ResourceInv.act {e : PmStep ι} (h : ResourceInv s.mpm) (hclear : e.clear s = true) :
    ResourceInv (e.act K s).mpm := by
  by_cases he : e = .runWork
  · have hops : s.mpm.runWork.ops = s.mpm.ops := by
      unfold Mpm.runWork
      split <;> rfl
    rw [he]
    exact ⟨hops ▸ h.request, hops ▸ h.release, h.follows.runWork⟩
  · have hmoves := moves_act (K := K) h.request h.release he
    exact ⟨hmoves.ops ▸ h.request, hmoves.ops ▸ h.release, h.follows.moves hmoves hclear⟩

end Runs

/-- If no work item is pending, the last callback was the one for the state. Before the first
transition there is none. -/
def Mpm.Settled (mpm : Mpm) : Prop :=
  mpm.works = [] →
    (mpm.mpmState = .busy → mpm.called.getLast? = some .request) ∧
      (mpm.mpmState = .idle → mpm.called.getLast? = some .release ∨ mpm.called = [])

theorem Mpm.Follows.settled {mpm : Mpm} (h : mpm.Follows) : mpm.Settled := by
  intro hworks
  unfold Mpm.Follows at h
  rw [hworks, List.append_nil] at h
  cases hlast : mpm.called.getLast? with
  | none =>
    rw [hlast] at h
    refine ⟨fun hbusy ↦ ?_, fun _ ↦ .inr (List.getLast?_eq_none_iff.mp hlast)⟩
    cases h.symm.trans hbusy
  | some work =>
    rw [hlast] at h
    cases work with
    | request =>
      refine ⟨fun _ ↦ rfl, fun hidle ↦ ?_⟩
      cases h.symm.trans hidle
    | release =>
      refine ⟨fun hbusy ↦ ?_, fun _ ↦ .inl rfl⟩
      cases h.symm.trans hbusy

/-- In every run in which no transition finds its own item pending with the other one behind it,
the resource follows the state. -/
theorem mpm_resource_follows {ι : Type*} [DecidableEq ι] {K : Clock} {laterIdle : ℕ} {wait : Bool}
    {s : Manager ι}
    (hs : (pmSystem ι K laterIdle ⟨wait, true, true⟩).Reach (fun s e ↦ e.clear s = true) s) :
    s.mpm.Settled := by
  have hinit : ResourceInv (.create laterIdle ⟨wait, true, true⟩) := ⟨rfl, rfl, rfl⟩
  have hinv : ResourceInv s.mpm := by
    refine hs.invariant (I := fun s ↦ ResourceInv s.mpm) hinit ?_
    intro s e h _ hclear
    exact h.act hclear
  exact hinv.follows.settled

/-- The manager becomes busy, idle and busy again, and each item runs before the next one is
scheduled a second time. -/
def flipRun : List (PmStep ℕ) :=
  [.create 0, .powerUp 0, .mpmCall 0 1, .powerDown 0 false, .mpmCall 0 2, .deactiveTimer,
    .runWork, .runWork, .powerUp 0, .mpmCall 0 3, .runWork]

theorem flipRun_settled :
    (laterAfter flipRun).mpm.mpmState = .busy ∧
      (laterAfter flipRun).mpm.called = [.request, .release, .request] ∧
      (laterAfter flipRun).mpm.Settled :=
  ⟨by decide, by decide, mpm_resource_follows (System.Reach.init.exec (by decide) :
    laterSystem.Reach (fun s e ↦ e.clear s = true) _)⟩

/-- The manager becomes busy, idle and busy again before the first item runs. -/
def mergeRun : List (PmStep ℕ) :=
  [.create 0, .powerUp 0, .mpmCall 0 1, .powerDown 0 false, .mpmCall 0 2, .deactiveTimer,
    .powerUp 0, .mpmCall 0 3, .runWork, .runWork]

/-- The manager is busy and the resource was released. -/
theorem mpm_resource_lost :
    laterSystem.Reach (fun _ _ ↦ True) (laterAfter mergeRun) ∧
      (laterAfter mergeRun).mpm.works = [] ∧ (laterAfter mergeRun).mpm.mpmState = .busy ∧
      (laterAfter mergeRun).mpm.called = [.request, .release] ∧
      ¬ (laterAfter mergeRun).mpm.Settled := by
  refine ⟨System.Reach.init.exec (by decide), by decide, by decide, by decide, fun h ↦ ?_⟩
  exact absurd ((h (by decide)).1 (by decide)) (by decide)

end Wwan.PowerManager
