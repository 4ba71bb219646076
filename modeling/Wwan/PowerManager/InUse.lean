import Wwan.PowerManager.Manager

/-!
# A modem in use is not idle

`up_cnt` is the number of active sources, but for those whose call has changed `active_cnt` and
not yet reached the manager. What links `up_cnt` to the state is `expires`: it is set only
while `up_cnt` is 0, so a timer that fires late cannot idle a modem that is in use.

The counters have 32 bits. A source that is powered up `2 ^ 32` times without being powered
down counts as unused.
-/

namespace Wwan.PowerManager

open Wwan Bytes

/-! ## The state and the timer -/

/-- What holds of `up_cnt`, the state and the timer. -/
structure Mpm.Sound (mpm : Mpm) : Prop where
  busy : 0 < mpm.upCnt → mpm.mpmState = .busy
  armed : mpm.upCnt = 0 → mpm.mpmState = .busy → mpm.expires ≠ 0
  unused : mpm.expires ≠ 0 → mpm.upCnt = 0

section Mpm

variable {K : Clock} {mpm : Mpm}

@[simp] theorem upCnt_requestResource : mpm.requestResource.upCnt = mpm.upCnt := by
  unfold Mpm.requestResource
  split <;> rfl

@[simp] theorem expires_requestResource : mpm.requestResource.expires = mpm.expires := by
  unfold Mpm.requestResource
  split <;> rfl

@[simp] theorem mpmState_requestResource : mpm.requestResource.mpmState = mpm.mpmState := by
  unfold Mpm.requestResource
  split <;> rfl

@[simp] theorem upCnt_releaseResource : mpm.releaseResource.upCnt = mpm.upCnt := by
  unfold Mpm.releaseResource
  split <;> rfl

@[simp] theorem mpmState_releaseResource : mpm.releaseResource.mpmState = mpm.mpmState := by
  unfold Mpm.releaseResource
  split <;> rfl

/-- An idle manager that nobody uses is sound. -/
theorem Mpm.Sound.deactive (h : mpm.upCnt = 0) : mpm.deactive.Sound := by
  refine ⟨fun hup ↦ ?_, fun _ hbusy ↦ ?_, fun _ ↦ ?_⟩
  · rw [Mpm.deactive, upCnt_releaseResource, h] at hup
    cases hup
  · rw [Mpm.deactive, mpmState_releaseResource] at hbusy
    cases hbusy
  · rw [Mpm.deactive, upCnt_releaseResource, h]

/-- The timer may fire whenever it likes. -/
theorem Mpm.Sound.deactiveTimerFn (h : mpm.Sound) : mpm.deactiveTimerFn.Sound := by
  unfold Mpm.deactiveTimerFn
  split
  · rename_i hexpires
    exact .deactive (h.unused hexpires)
  · exact h

theorem upCnt_deactiveTimerFn : mpm.deactiveTimerFn.upCnt = mpm.upCnt := by
  unfold Mpm.deactiveTimerFn
  split
  · exact upCnt_releaseResource
  · rfl

theorem cancelTimer_eq : mpm.cancelTimer = { mpm with expires := 0 } := by
  unfold Mpm.cancelTimer
  split
  · rfl
  · rename_i hexpires
    rw [← not_not.mp hexpires]

/-- What `sprd_mpm_up` leaves. -/
theorem Mpm.Sound.up (h : mpm.Sound) (hfits : mpm.upCnt + 1 < 2 ^ 32) :
    mpm.up.Sound ∧ mpm.up.upCnt = mpm.upCnt + 1 := by
  have hcnt : u32 (mpm.upCnt + 1) = mpm.upCnt + 1 := u32_natCast hfits
  unfold Mpm.up
  rw [cancelTimer_eq]
  dsimp only
  rw [hcnt]
  split
  · refine ⟨⟨fun _ ↦ ?_, fun hup ↦ ?_, fun hexpires ↦ ?_⟩, ?_⟩
    · rw [Mpm.active, mpmState_requestResource]
    · rw [Mpm.active, upCnt_requestResource] at hup
      cases hup
    · rw [Mpm.active, expires_requestResource] at hexpires
      exact absurd rfl hexpires
    · rw [Mpm.active, upCnt_requestResource]
  · rename_i hnot
    refine ⟨⟨fun _ ↦ ?_, fun hup ↦ ?_, fun hexpires ↦ ?_⟩, rfl⟩
    · -- The state was busy already: another source is up, or nobody was and the timer ran.
      by_cases hzero : mpm.upCnt = 0
      · cases hstate : mpm.mpmState with
        | busy => rfl
        | idle => exact absurd ⟨congrArg Nat.succ hzero, hstate⟩ hnot
      · exact h.busy (Nat.pos_of_ne_zero hzero)
    · cases hup
    · exact absurd rfl hexpires

/-- What `sprd_mpm_down` leaves. -/
theorem Mpm.Sound.down (h : mpm.Sound) (hpos : 0 < mpm.upCnt) (hfits : mpm.upCnt < 2 ^ 32)
    (immediately : Bool) (jiffies : ℕ) :
    (mpm.down K immediately jiffies).Sound ∧
      (mpm.down K immediately jiffies).upCnt + 1 = mpm.upCnt := by
  have hcnt := u32_sub_one hpos hfits
  have hbusy := h.busy hpos
  unfold Mpm.down
  dsimp only
  rw [hcnt]
  split
  · rename_i hzero
    split
    · refine ⟨⟨fun hup ↦ ?_, fun _ _ ↦ K.expires_ne_zero _ _, fun _ ↦ hzero⟩, ?_⟩
      · exact absurd hzero (Nat.ne_of_gt hup)
      · exact Nat.sub_add_cancel hpos
    · refine ⟨.deactive hzero, ?_⟩
      rw [Mpm.deactive, upCnt_releaseResource]
      exact Nat.sub_add_cancel hpos
  · rename_i hne
    refine ⟨⟨fun _ ↦ hbusy, fun hup ↦ absurd hup hne, fun hexpires ↦ ?_⟩,
      Nat.sub_add_cancel hpos⟩
    exact absurd (h.unused hexpires) (Nat.ne_of_gt hpos)

end Mpm

/-! ## The sources -/

/-- Whether a source is active once the call is made. -/
def MpmCall.after : MpmCall → Bool
  | .up => true
  | .down _ => false

/-- Whether the manager counts a source. -/
def Manager.held {ι : Type*} (s : Manager ι) (i : ι) : Bool :=
  match s.pending i with
  | none => 0 < (s.pms i).activeCnt
  | some call => !call.after

/-- What holds of the counters, at any point of any call. -/
structure ActiveInv {ι : Type*} (s : Manager ι) : Prop where
  fits : s.live.card < 2 ^ 32
  sound : s.mpm.Sound
  counted : s.mpm.upCnt = tally s.live s.held
  pending : ∀ i ∈ s.live, ∀ call, s.pending i = some call →
    (call.after = true ↔ 0 < (s.pms i).activeCnt)

/-- What the counters are read from. -/
structure SameActive {ι : Type*} (s t : Manager ι) : Prop where
  upCnt : t.mpm.upCnt = s.mpm.upCnt
  mpmState : t.mpm.mpmState = s.mpm.mpmState
  expires : t.mpm.expires = s.mpm.expires
  live : t.live = s.live
  pending : t.pending = s.pending
  activeCnt : ∀ i, (t.pms i).activeCnt = (s.pms i).activeCnt

section Sources

variable {ι : Type*} {s t r : Manager ι} {i : ι} {K : Clock}

theorem held_of_pos (h : s.pending i = none) (hpos : 0 < (s.pms i).activeCnt) :
    s.held i = true := by
  unfold Manager.held
  rw [h]
  exact decide_eq_true hpos

theorem held_of_zero (h : s.pending i = none) (hzero : (s.pms i).activeCnt = 0) :
    s.held i = false := by
  unfold Manager.held
  rw [h]
  exact decide_eq_false (Nat.not_lt.mpr hzero.le)

theorem held_some {call : MpmCall} (h : s.pending i = some call) : s.held i = !call.after := by
  unfold Manager.held
  rw [h]

theorem held_congr (hpending : t.pending i = s.pending i)
    (hactive : (t.pms i).activeCnt = (s.pms i).activeCnt) : t.held i = s.held i := by
  unfold Manager.held
  rw [hpending, hactive]

theorem SameActive.trans (h : SameActive s t) (h' : SameActive t r) : SameActive s r :=
  ⟨h'.upCnt.trans h.upCnt, h'.mpmState.trans h.mpmState, h'.expires.trans h.expires,
    h'.live.trans h.live, h'.pending.trans h.pending,
    fun i ↦ (h'.activeCnt i).trans (h.activeCnt i)⟩

/-- What the manager does may change its state if the count stays. -/
theorem ActiveInv.of_sound (h : ActiveInv s) (hsound : t.mpm.Sound)
    (hcnt : t.mpm.upCnt = s.mpm.upCnt) (hlive : t.live = s.live)
    (hpending : t.pending = s.pending)
    (hactive : ∀ i, (t.pms i).activeCnt = (s.pms i).activeCnt) : ActiveInv t := by
  refine ⟨hlive ▸ h.fits, hsound, ?_, fun i hi call hcall ↦ ?_⟩
  · rw [hcnt, hlive, h.counted]
    exact tally_congr fun j _ ↦ (held_congr (congrFun hpending j) (hactive j)).symm
  · rw [hlive] at hi
    rw [hpending] at hcall
    rw [hactive]
    exact h.pending i hi call hcall

/-- The invariant is about the counters alone. -/
theorem ActiveInv.congr (h : ActiveInv s) (hsame : SameActive s t) : ActiveInv t := by
  refine h.of_sound ⟨?_, ?_, ?_⟩ hsame.upCnt hsame.live hsame.pending hsame.activeCnt
  · rw [hsame.upCnt, hsame.mpmState]
    exact h.sound.busy
  · rw [hsame.upCnt, hsame.mpmState, hsame.expires]
    exact h.sound.armed
  · rw [hsame.upCnt, hsame.expires]
    exact h.sound.unused

variable [DecidableEq ι]

theorem activeCnt_setPms {p : Pms} (h : p.activeCnt = (s.pms i).activeCnt) (j : ι) :
    ((s.setPms i p).pms j).activeCnt = (s.pms j).activeCnt := by
  by_cases hj : j = i
  · rw [hj, Manager.pms_setPms_self, h]
  · rw [Manager.pms_setPms_of_ne _ _ hj]

theorem SameActive.setPms {p : Pms} (h : p.activeCnt = (s.pms i).activeCnt) :
    SameActive s (s.setPms i p) :=
  ⟨rfl, rfl, rfl, rfl, rfl, activeCnt_setPms h⟩

theorem SameActive.cancelTimer (s : Manager ι) (i : ι) : SameActive s (s.cancelTimer i) := by
  unfold Manager.cancelTimer
  split
  · exact .setPms rfl
  · exact ⟨rfl, rfl, rfl, rfl, rfl, fun _ ↦ rfl⟩

theorem SameActive.stayAwake (s : Manager ι) (i : ι) : SameActive s (s.stayAwake i) := by
  have hmpm : s.mpm.stayAwake.upCnt = s.mpm.upCnt ∧ s.mpm.stayAwake.mpmState = s.mpm.mpmState ∧
      s.mpm.stayAwake.expires = s.mpm.expires := by
    unfold Mpm.stayAwake
    dsimp only
    split <;> exact ⟨rfl, rfl, rfl⟩
  have hcount : SameActive s
      (s.setPms i { s.pms i with awakeCnt := u32 ((s.pms i).awakeCnt + 1) }) := .setPms rfl
  unfold Manager.stayAwake
  dsimp only
  split
  · exact hcount.trans ⟨hmpm.1, hmpm.2.1, hmpm.2.2, rfl, rfl, activeCnt_setPms rfl⟩
  · exact hcount

theorem SameActive.relax (s : Manager ι) (i : ι) : SameActive s (s.relax i) := by
  have hmpm : s.mpm.relax.upCnt = s.mpm.upCnt ∧ s.mpm.relax.mpmState = s.mpm.mpmState ∧
      s.mpm.relax.expires = s.mpm.expires := by
    unfold Mpm.relax
    dsimp only
    split <;> exact ⟨rfl, rfl, rfl⟩
  unfold Manager.relax
  split
  · exact ⟨hmpm.1, hmpm.2.1, hmpm.2.2, rfl, rfl, activeCnt_setPms rfl⟩
  · exact ⟨rfl, rfl, rfl, rfl, rfl, fun _ ↦ rfl⟩

variable (h : ActiveInv s)

include h

/-- A source may change its counter if the manager is still right about it. -/
theorem ActiveInv.of_held (hmpm : t.mpm = s.mpm) (hlive : t.live = s.live)
    (hothers : ∀ j, j ≠ i → t.pending j = s.pending j ∧ t.pms j = s.pms j)
    (hheld : t.held i = s.held i)
    (hcall : ∀ call, t.pending i = some call →
      (call.after = true ↔ 0 < (t.pms i).activeCnt)) : ActiveInv t := by
  refine ⟨hlive ▸ h.fits, hmpm ▸ h.sound, ?_, fun j hj call hj' ↦ ?_⟩
  · rw [hmpm, hlive, h.counted]
    refine tally_congr fun j _ ↦ ?_
    by_cases hji : j = i
    · rw [hji, hheld]
    · exact (held_congr (hothers j hji).1 (congrArg Pms.activeCnt (hothers j hji).2)).symm
  · by_cases hji : j = i
    · rw [hji] at hj' ⊢
      exact hcall call hj'
    · rw [(hothers j hji).2]
      exact h.pending j (hlive ▸ hj) call ((hothers j hji).1 ▸ hj')

/-- A source changes its counter and is about to call the manager. -/
theorem ActiveInv.about {p : Pms} {call : MpmCall}
    (hheld : s.held i = !call.after) (hcall : call.after = true ↔ 0 < p.activeCnt) :
    ActiveInv { s.setPms i p with pending := Function.update s.pending i (some call) } := by
  refine h.of_held rfl rfl (fun j hj ↦ ⟨Function.update_of_ne hj _ _,
    Function.update_of_ne hj _ _⟩) ?_ fun call' hcall' ↦ ?_
  · rw [hheld]
    exact held_some (Function.update_self i _ _)
  · dsimp only [Manager.setPms] at hcall' ⊢
    rw [Function.update_self] at hcall' ⊢
    cases hcall'
    exact hcall

/-- A source changes its counter and stays active. -/
theorem ActiveInv.stay {p : Pms} (hnone : s.pending i = none)
    (hpos : 0 < (s.pms i).activeCnt) (hpos' : 0 < p.activeCnt) : ActiveInv (s.setPms i p) := by
  refine h.of_held rfl rfl (fun j hj ↦ ⟨rfl, Function.update_of_ne hj _ _⟩) ?_
    fun call hcall ↦ absurd (hcall.symm.trans hnone) (Option.some_ne_none call)
  rw [held_of_pos hnone hpos]
  refine held_of_pos hnone ?_
  dsimp only [Manager.setPms]
  rw [Function.update_self]
  exact hpos'

theorem ActiveInv.doUp (hnone : s.pending i = none)
    (hfits : (s.pms i).activeCnt + 1 < 2 ^ 32) : ActiveInv (s.doUp i) := by
  have hcnt : u32 ((s.pms i).activeCnt + 1) = (s.pms i).activeCnt + 1 := u32_natCast hfits
  unfold Manager.doUp
  dsimp only
  rw [hcnt]
  split
  · rename_i hone
    exact h.about (held_of_zero hnone (Nat.succ.inj hone))
      (iff_of_true rfl (Nat.succ_pos _))
  · rename_i hne
    exact h.stay hnone (Nat.pos_of_ne_zero fun hzero ↦ hne (congrArg Nat.succ hzero))
      (Nat.succ_pos _)

theorem ActiveInv.doDown (hnone : s.pending i = none) (immediately : Bool) :
    ActiveInv (s.doDown i immediately) := by
  unfold Manager.doDown
  split
  · rename_i hpos
    dsimp only
    split
    · rename_i hzero
      exact h.about (held_of_pos hnone hpos) (iff_of_false Bool.false_ne_true hzero.not_gt)
    · rename_i hne
      exact h.stay hnone hpos (Nat.pos_of_ne_zero hne)
  · exact h

/-- The call reaches the manager. -/
theorem ActiveInv.called (hi : i ∈ s.live) {call : MpmCall} {mpm : Mpm}
    (hcall : s.pending i = some call) (hsound : mpm.Sound)
    (hcnt : mpm.upCnt + (!call.after).toNat = s.mpm.upCnt + call.after.toNat) :
    ActiveInv { s with mpm := mpm, pending := Function.update s.pending i none } := by
  have hothers (j : ι) (hj : j ≠ i) :
      Manager.held { s with mpm := mpm, pending := Function.update s.pending i none } j =
        s.held j :=
    held_congr (Function.update_of_ne hj _ _) rfl
  have hafter : Manager.held { s with mpm := mpm, pending := Function.update s.pending i none } i =
      call.after := by
    have hiff := h.pending i hi call hcall
    cases hval : call.after with
    | true => exact held_of_pos (Function.update_self i _ _) (hiff.mp hval)
    | false =>
      refine held_of_zero (Function.update_self i _ _) (Nat.eq_zero_of_not_pos fun hpos ↦ ?_)
      rw [hiff.mpr hpos] at hval
      cases hval
  have hbefore := held_some hcall
  refine ⟨h.fits, hsound, ?_, fun j hj call' hj' ↦ ?_⟩
  · dsimp only
    have hcounted := h.counted
    cases hval : call.after with
    | true =>
      rw [hval] at hafter hbefore hcnt
      rw [tally_set hi hbefore hafter fun j _ hj ↦ hothers j hj, ← hcounted]
      exact hcnt
    | false =>
      rw [hval] at hafter hbefore hcnt
      rw [tally_set hi hafter hbefore fun j _ hj ↦ (hothers j hj).symm] at hcounted
      exact Nat.succ.inj (hcnt.trans hcounted)
  · by_cases hji : j = i
    · rw [hji] at hj'
      dsimp only at hj'
      rw [Function.update_self] at hj'
      cases hj'
    · dsimp only at hj'
      rw [Function.update_of_ne hji] at hj'
      exact h.pending j hj call' hj'

theorem ActiveInv.mpmCall (hi : i ∈ s.live) (jiffies : ℕ) : ActiveInv (s.mpmCall K i jiffies) := by
  unfold Manager.mpmCall
  split
  · exact h
  · rename_i hcall
    have hlt := tally_lt hi (held_some hcall)
    rw [← h.counted] at hlt
    obtain ⟨hsound, hcnt⟩ := h.sound.up (lt_of_le_of_lt hlt h.fits)
    exact h.called hi hcall hsound hcnt
  · rename_i immediately hcall
    have hpos := tally_pos hi (held_some hcall)
    have hle := tally_le s.live s.held
    rw [← h.counted] at hpos hle
    obtain ⟨hsound, hcnt⟩ :=
      h.sound.down hpos (lt_of_le_of_lt hle h.fits) immediately jiffies (K := K)
    exact h.called hi hcall hsound hcnt

theorem ActiveInv.create (hi : i ∉ s.live) (hfits : s.live.card + 1 < 2 ^ 32) :
    ActiveInv (s.create i) := by
  have hne (j : ι) (hj : j ∈ s.live) : j ≠ i := fun heq ↦ hi (heq ▸ hj)
  refine ⟨?_, h.sound, ?_, fun j hj call hcall ↦ ?_⟩
  · dsimp only [Manager.create]
    rw [Finset.card_insert_of_notMem hi]
    exact hfits
  · refine h.counted.trans (tally_insert (held_of_zero (Function.update_self i _ _) ?_)
      fun j hj ↦ held_congr (Function.update_of_ne (hne j hj) _ _) ?_).symm
    · dsimp only [Manager.create, Manager.setPms]
      rw [Function.update_self]
    · dsimp only [Manager.create, Manager.setPms]
      rw [Function.update_of_ne (hne j hj)]
  · dsimp only [Manager.create, Manager.setPms] at hj hcall ⊢
    rcases Finset.mem_insert.mp hj with hji | hj
    · rw [hji, Function.update_self] at hcall
      cases hcall
    · rw [Function.update_of_ne (hne j hj)] at hcall ⊢
      exact h.pending j hj call hcall

/-- A source that is not active may be destroyed. -/
theorem ActiveInv.destroy (hnone : s.pending i = none)
    (hzero : (s.pms i).activeCnt = 0) : ActiveInv (s.destroy i) := by
  have h' := h.congr (.cancelTimer s i)
  have hsame := SameActive.cancelTimer s i
  refine ⟨lt_of_le_of_lt (Finset.card_erase_le) h'.fits, h'.sound, ?_, fun j hj ↦ ?_⟩
  · refine h'.counted.trans (tally_erase (held_of_zero ?_ ?_)).symm
    · rw [hsame.pending, hnone]
    · rw [hsame.activeCnt, hzero]
  · exact h'.pending j (Finset.mem_of_mem_erase hj)

end Sources

/-! ## Runs -/

/-- Whether the counters have room for a step. -/
def PmStep.fits {ι : Type*} (s : Manager ι) : PmStep ι → Bool
  | create _ => s.live.card + 1 < 2 ^ 32
  | requestResource i => (s.pms i).activeCnt + 1 < 2 ^ 32
  | powerUp i => (s.pms i).activeCnt + 1 < 2 ^ 32
  | _ => true

/-- Whether a step destroys a source. -/
def PmStep.destroys {ι : Type*} : PmStep ι → Bool
  | destroy _ => true
  | _ => false

/-- Whether a step destroys no source that is active. -/
def PmStep.keepsActive {ι : Type*} (s : Manager ι) : PmStep ι → Bool
  | destroy i => (s.pms i).activeCnt = 0
  | _ => true

section Runs

variable {ι : Type*} [DecidableEq ι] {K : Clock} {s : Manager ι}

theorem ActiveInv.init (laterIdle : ℕ) (ops : ResourceOps) :
    ActiveInv (pmSystem ι K laterIdle ops).init := by
  refine ⟨Nat.two_pow_pos 32, ⟨fun hup ↦ ?_, fun _ hbusy ↦ ?_, fun _ ↦ rfl⟩, rfl, fun i hi ↦ ?_⟩
  · cases hup
  · cases hbusy
  · cases hi

/-- The invariant is kept by every step. -/
theorem ActiveInv.act {e : PmStep ι} (h : ActiveInv s) (he : e.enabled s = true)
    (hfits : e.fits s = true) (hkeeps : e.keepsActive s = true) : ActiveInv (e.act K s) := by
  cases e with
  | create i => exact h.create (of_decide_eq_true he) (of_decide_eq_true hfits)
  | destroy i => exact h.destroy (of_decide_eq_true he).2.1 (of_decide_eq_true hkeeps)
  | requestResource i =>
    exact (h.doUp (of_decide_eq_true he).2 (of_decide_eq_true hfits)).congr
      ⟨rfl, rfl, rfl, rfl, rfl, fun _ ↦ rfl⟩
  | waitDone i ret =>
    have h' : ActiveInv { s with waiting := Function.update s.waiting i (s.waiting i - 1) } :=
      h.congr ⟨rfl, rfl, rfl, rfl, rfl, fun _ ↦ rfl⟩
    dsimp only [PmStep.act, Manager.waitDone]
    split
    · exact h'.doDown (of_decide_eq_true he).2.1 false
    · exact h'
  | releaseResource i => exact h.doDown (of_decide_eq_true he).2 false
  | powerUp i => exact h.doUp (of_decide_eq_true he).2 (of_decide_eq_true hfits)
  | powerDown i immediately => exact h.doDown (of_decide_eq_true he).2 immediately
  | mpmCall i jiffies => exact h.mpmCall (of_decide_eq_true he).1 jiffies
  | requestWakelock i => exact h.congr ((SameActive.cancelTimer s i).trans (.stayAwake _ i))
  | requestWakelockPeriod i jiffies msec =>
    exact h.congr (((SameActive.cancelTimer s i).trans (.stayAwake _ i)).trans (.setPms rfl))
  | releaseWakelock i => exact h.congr ((SameActive.cancelTimer s i).trans (.relax _ i))
  | releaseWakelockLater i jiffies msec => exact h.congr (.setPms rfl)
  | relaxWakelockTimer i jiffies =>
    dsimp only [PmStep.act, Manager.relaxWakelockTimer]
    split
    · refine ActiveInv.congr ?_ (.relax _ i)
      exact h.congr (.setPms rfl)
    · exact h
  | deactiveTimer =>
    exact h.of_sound h.sound.deactiveTimerFn upCnt_deactiveTimerFn rfl rfl fun _ ↦ rfl
  | runWork =>
    refine h.congr ?_
    dsimp only [PmStep.act, Mpm.runWork]
    split <;> exact ⟨rfl, rfl, rfl, rfl, rfl, fun _ ↦ rfl⟩

end Runs

/-- The manager knows which sources are active, is busy while there are some, and goes idle by
itself if there are none. -/
structure Manager.InUse {ι : Type*} (s : Manager ι) : Prop where
  /-- While no call is under way, `up_cnt` is the number of active sources. -/
  counted : (∀ i ∈ s.live, s.pending i = none) →
    s.mpm.upCnt = (s.live.filter fun i ↦ 0 < (s.pms i).activeCnt).card
  /-- `sprd_mpm_down` never finds 0 in `up_cnt`. -/
  noUnderflow : ∀ i ∈ s.live, ∀ immediately, s.pending i = some (.down immediately) →
    0 < s.mpm.upCnt
  busy : 0 < s.mpm.upCnt → s.mpm.mpmState = .busy
  armed : s.mpm.upCnt = 0 → s.mpm.mpmState = .busy → s.mpm.expires ≠ 0

section InUse

variable {ι : Type*} [DecidableEq ι] {K : Clock} {laterIdle : ℕ} {ops : ResourceOps}
  {s : Manager ι}

omit [DecidableEq ι] in
theorem ActiveInv.inUse (h : ActiveInv s) : s.InUse := by
  refine ⟨fun hnone ↦ ?_, fun i hi immediately hcall ↦ ?_, h.sound.busy, h.sound.armed⟩
  · rw [h.counted]
    unfold tally
    refine congrArg Finset.card (Finset.filter_congr fun i hi ↦ ?_)
    unfold Manager.held
    rw [hnone i hi]
    exact decide_eq_true_iff
  · rw [h.counted]
    exact tally_pos hi (held_some hcall)

/-- In every run in which the counters do not overflow and no source is destroyed the manager
never idles a modem in use. -/
theorem mpm_in_use (hs : (pmSystem ι K laterIdle ops).Reach
      (fun s e ↦ e.fits s = true ∧ e.destroys = false) s) :
    s.InUse := by
  refine ActiveInv.inUse (hs.invariant (.init laterIdle ops) ?_)
  rintro s e h he ⟨hfits, hnot⟩
  refine h.act he hfits ?_
  cases e with
  | destroy i => cases hnot
  | _ => rfl

/-- A source that is powered up again and again only counts. -/
theorem exec_powerUps {i : ι} (hi : i ∈ s.live) (hnone : s.pending i = none)
    (hpos : 0 < (s.pms i).activeCnt) (n : ℕ) (hlt : (s.pms i).activeCnt + n < 2 ^ 32) :
    (pmSystem ι K laterIdle ops).Along (fun _ _ ↦ True) s (List.replicate n (.powerUp i)) ∧
      (pmSystem ι K laterIdle ops).exec s (List.replicate n (.powerUp i)) =
        s.setPms i { s.pms i with activeCnt := (s.pms i).activeCnt + n } := by
  induction n generalizing s with
  | zero =>
    refine ⟨trivial, ?_⟩
    unfold Manager.setPms
    exact congrArg (fun pms ↦ { s with pms := pms }) (Function.update_eq_self i s.pms).symm
  | succ n ih =>
    have hcnt : u32 ((s.pms i).activeCnt + 1) = (s.pms i).activeCnt + 1 :=
      u32_natCast (lt_of_le_of_lt (Nat.add_le_add_left (Nat.le_add_left 1 n) _) hlt)
    have hup : s.doUp i = s.setPms i { s.pms i with activeCnt := (s.pms i).activeCnt + 1 } := by
      unfold Manager.doUp
      dsimp only
      rw [hcnt, if_neg fun hone ↦ Nat.ne_of_gt hpos (Nat.succ.inj hone)]
    have hself : ((s.doUp i).pms i) = { s.pms i with activeCnt := (s.pms i).activeCnt + 1 } := by
      rw [hup]
      exact Function.update_self i _ _
    have hlive : (s.doUp i).live = s.live := by rw [hup]; rfl
    have hpending : (s.doUp i).pending = s.pending := by rw [hup]; rfl
    obtain ⟨halong, hexec⟩ := ih (s := s.doUp i) (hlive ▸ hi) (hpending ▸ hnone)
      (by rw [hself]; exact Nat.succ_pos _) (by rw [hself]; dsimp only; omega)
    refine ⟨⟨decide_eq_true ⟨hi, hnone⟩, trivial, halong⟩, ?_⟩
    refine hexec.trans ?_
    rw [hself, hup]
    unfold Manager.setPms
    dsimp only
    rw [Function.update_idem, Nat.add_right_comm]
    rfl

end InUse

/-! ## Two runs -/

/-- A manager that goes idle later. -/
def laterSystem : System (Manager ℕ) (PmStep ℕ) :=
  pmSystem ℕ ⟨64, id⟩ 100 ⟨true, true, true⟩

instance (s : Manager ℕ) (e : PmStep ℕ) : Decidable (laterSystem.enabled s e) :=
  inferInstanceAs (Decidable (e.enabled s = true))

/-- The state after some steps. -/
def laterAfter (es : List (PmStep ℕ)) : Manager ℕ := laterSystem.exec laterSystem.init es

/-- A request fails, the source that is left goes down and comes up again, and then the timer
that was started in between fires. -/
def staleRun : List (PmStep ℕ) :=
  [.create 0, .create 1, .powerUp 0, .mpmCall 0 5, .requestResource 1, .mpmCall 1 6,
    .waitDone 1 (-110), .mpmCall 1 7, .powerDown 0 false, .mpmCall 0 8, .powerUp 0, .mpmCall 0 9,
    .deactiveTimer]

theorem staleRun_inUse :
    (laterAfter staleRun).mpm.upCnt = 1 ∧ (laterAfter staleRun).mpm.mpmState = .busy ∧
      (laterAfter staleRun).InUse :=
  ⟨by decide, by decide, mpm_in_use (System.Reach.init.exec (by decide) :
    laterSystem.Reach (fun s e ↦ e.fits s = true ∧ e.destroys = false) _)⟩

/-- A source is powered up. -/
def upOnce : Manager ℕ := laterAfter [.create 0, .powerUp 0, .mpmCall 0 0]

/-- A source is powered up `n + 2` times. -/
def upRun (n : ℕ) : List (PmStep ℕ) :=
  [.create 0, .powerUp 0, .mpmCall 0 0] ++ List.replicate n (.powerUp 0) ++ [.powerUp 0]

theorem laterAfter_upRun (n : ℕ) (hn : 1 + n < 2 ^ 32) :
    laterSystem.Reach (fun _ _ ↦ True) (laterAfter (upRun n)) ∧
      laterAfter (upRun n) = (upOnce.setPms 0 ⟨false, 0, 1 + n, 0⟩).doUp 0 := by
  obtain ⟨halong, hexec⟩ : laterSystem.Along (fun _ _ ↦ True) upOnce
        (List.replicate n (.powerUp 0)) ∧
      laterSystem.exec upOnce (List.replicate n (.powerUp 0)) =
        upOnce.setPms 0 ⟨false, 0, 1 + n, 0⟩ :=
    exec_powerUps (by decide) (by decide) (by decide) n hn
  have hreach : laterSystem.Reach (fun _ _ ↦ True) upOnce := System.Reach.init.exec (by decide)
  have heq : laterAfter (upRun n) = (upOnce.setPms 0 ⟨false, 0, 1 + n, 0⟩).doUp 0 := by
    unfold laterAfter upRun System.exec
    rw [List.foldl_append, List.foldl_append]
    exact congrArg (laterSystem.next · (.powerUp 0)) hexec
  refine ⟨?_, heq⟩
  rw [heq]
  have hreach' := hreach.exec halong
  rw [hexec] at hreach'
  have henabled : PmStep.enabled upOnce (.powerUp 0) = true := by decide
  exact System.Reach.step (S := laterSystem) (PmStep.powerUp 0) hreach' henabled trivial

/-- A source that was powered up `2 ^ 32` times is not active, but the manager counts it. -/
theorem mpm_overflows :
    laterSystem.Reach (fun _ _ ↦ True) (laterAfter (upRun (2 ^ 32 - 2))) ∧
      ((laterAfter (upRun (2 ^ 32 - 2))).pms 0).activeCnt = 0 ∧
      (laterAfter (upRun (2 ^ 32 - 2))).mpm.upCnt = 1 ∧
      ¬ (laterAfter (upRun (2 ^ 32 - 2))).InUse := by
  obtain ⟨hreach, heq⟩ := laterAfter_upRun (2 ^ 32 - 2) (by decide)
  refine ⟨hreach, ?_⟩
  rw [heq]
  refine ⟨by decide, by decide, fun h ↦ ?_⟩
  exact absurd (h.counted (by decide)) (by decide)

end Wwan.PowerManager
