import Wwan.PowerManager.InUse

/-!
# What a source holds when it is destroyed

`wakelock_cnt` is the number of sources that are awake, and the wakeup source of the system is
active while there are some. `sprd_pms_destroy` cancels the timer that would have ended a
wakelock and frees the source, but it gives back neither the wakelock nor the resource.
-/

namespace Wwan.PowerManager

open Wwan Bytes

/-! ## The wakelocks -/

/-- What holds of the wakelocks. -/
structure WakeInv {ι : Type*} (s : Manager ι) : Prop where
  counted : s.mpm.wakelockCnt = tally s.live fun i ↦ (s.pms i).awake
  ws : s.mpm.ws = true ↔ 0 < s.mpm.wakelockCnt

/-- What the wakelocks are read from. -/
structure SameAwake {ι : Type*} (s t : Manager ι) : Prop where
  wakelockCnt : t.mpm.wakelockCnt = s.mpm.wakelockCnt
  ws : t.mpm.ws = s.mpm.ws
  live : t.live = s.live
  awake : ∀ i, (t.pms i).awake = (s.pms i).awake

section Mpm

variable {K : Clock} {mpm : Mpm}

/-- What a manager says about wakelocks. -/
def Mpm.wake (mpm : Mpm) : ℕ × Bool := (mpm.wakelockCnt, mpm.ws)

theorem wake_active : mpm.active.wake = mpm.wake := by
  unfold Mpm.active Mpm.requestResource
  split <;> rfl

theorem wake_deactive : mpm.deactive.wake = mpm.wake := by
  unfold Mpm.deactive Mpm.releaseResource
  split <;> rfl

theorem wake_up : mpm.up.wake = mpm.wake := by
  unfold Mpm.up
  rw [cancelTimer_eq]
  dsimp only
  split
  · exact wake_active
  · rfl

theorem wake_down (immediately : Bool) (jiffies : ℕ) :
    (mpm.down K immediately jiffies).wake = mpm.wake := by
  unfold Mpm.down
  dsimp only
  split
  · split
    · rfl
    · exact wake_deactive
  · rfl

theorem wake_deactiveTimerFn : mpm.deactiveTimerFn.wake = mpm.wake := by
  unfold Mpm.deactiveTimerFn
  split
  · exact wake_deactive
  · rfl

theorem wake_runWork : mpm.runWork.wake = mpm.wake := by
  unfold Mpm.runWork
  split <;> rfl

/-- What `sprd_mpm_stay_awake` leaves. -/
theorem stayAwake_spec (hws : mpm.ws = true ↔ 0 < mpm.wakelockCnt)
    (hfits : mpm.wakelockCnt + 1 < 2 ^ 32) :
    mpm.stayAwake.wakelockCnt = mpm.wakelockCnt + 1 ∧ mpm.stayAwake.ws = true := by
  have hcnt : u32 (mpm.wakelockCnt + 1) = mpm.wakelockCnt + 1 := u32_natCast hfits
  unfold Mpm.stayAwake
  dsimp only
  rw [hcnt]
  split
  · exact ⟨rfl, rfl⟩
  · rename_i hne
    exact ⟨rfl, hws.mpr (Nat.pos_of_ne_zero fun hzero ↦ hne (congrArg Nat.succ hzero))⟩

/-- What `sprd_mpm_relax` leaves. -/
theorem relax_spec (hws : mpm.ws = true ↔ 0 < mpm.wakelockCnt) (hpos : 0 < mpm.wakelockCnt)
    (hfits : mpm.wakelockCnt < 2 ^ 32) :
    mpm.relax.wakelockCnt + 1 = mpm.wakelockCnt ∧
      (mpm.relax.ws = true ↔ 0 < mpm.relax.wakelockCnt) := by
  have hcnt := u32_sub_one hpos hfits
  unfold Mpm.relax
  dsimp only
  rw [hcnt]
  split
  · rename_i hzero
    exact ⟨Nat.sub_add_cancel hpos, iff_of_false Bool.false_ne_true hzero.not_gt⟩
  · rename_i hne
    exact ⟨Nat.sub_add_cancel hpos, iff_of_true (hws.mpr hpos) (Nat.pos_of_ne_zero hne)⟩

end Mpm

section Sources

variable {ι : Type*} {s t r : Manager ι} {i : ι} {K : Clock}

theorem SameAwake.refl (s : Manager ι) : SameAwake s s := ⟨rfl, rfl, rfl, fun _ ↦ rfl⟩

theorem SameAwake.trans (h : SameAwake s t) (h' : SameAwake t r) : SameAwake s r :=
  ⟨h'.wakelockCnt.trans h.wakelockCnt, h'.ws.trans h.ws, h'.live.trans h.live,
    fun i ↦ (h'.awake i).trans (h.awake i)⟩

/-- The manager may do what has nothing to do with wakelocks. -/
theorem SameAwake.of_wake {mpm : Mpm} (h : mpm.wake = s.mpm.wake) (pending : ι → Option MpmCall) :
    SameAwake s { s with mpm := mpm, pending := pending } :=
  ⟨congrArg Prod.fst h, congrArg Prod.snd h, rfl, fun _ ↦ rfl⟩

/-- The invariant is about the wakelocks alone. -/
theorem WakeInv.congr (h : WakeInv s) (hsame : SameAwake s t) : WakeInv t := by
  refine ⟨?_, ?_⟩
  · rw [hsame.wakelockCnt, hsame.live, h.counted]
    exact tally_congr fun j _ ↦ (hsame.awake j).symm
  · rw [hsame.ws, hsame.wakelockCnt]
    exact h.ws

variable [DecidableEq ι]

theorem SameAwake.setPms {p : Pms} (h : p.awake = (s.pms i).awake) :
    SameAwake s (s.setPms i p) := by
  refine ⟨rfl, rfl, rfl, fun j ↦ ?_⟩
  by_cases hj : j = i
  · rw [hj, Manager.pms_setPms_self, h]
  · rw [Manager.pms_setPms_of_ne _ _ hj]

theorem SameAwake.cancelTimer (s : Manager ι) (i : ι) : SameAwake s (s.cancelTimer i) := by
  unfold Manager.cancelTimer
  split
  · exact .setPms rfl
  · exact .refl s

theorem SameAwake.doUp (s : Manager ι) (i : ι) : SameAwake s (s.doUp i) := by
  have hset : SameAwake s
      (s.setPms i { s.pms i with activeCnt := u32 ((s.pms i).activeCnt + 1) }) := .setPms rfl
  unfold Manager.doUp
  dsimp only
  split
  · exact hset.trans ⟨rfl, rfl, rfl, fun _ ↦ rfl⟩
  · exact hset

theorem SameAwake.doDown (s : Manager ι) (i : ι) (immediately : Bool) :
    SameAwake s (s.doDown i immediately) := by
  have hset : SameAwake s
      (s.setPms i { s.pms i with activeCnt := (s.pms i).activeCnt - 1 }) := .setPms rfl
  unfold Manager.doDown
  split
  · dsimp only
    split
    · exact hset.trans ⟨rfl, rfl, rfl, fun _ ↦ rfl⟩
    · exact hset
  · exact .refl s

theorem SameAwake.mpmCall (s : Manager ι) (i : ι) (jiffies : ℕ) :
    SameAwake s (s.mpmCall K i jiffies) := by
  unfold Manager.mpmCall
  split
  · exact .refl s
  · exact .of_wake wake_up _
  · exact .of_wake (wake_down _ jiffies) _

theorem WakeInv.stayAwake (h : WakeInv s) (hfits : s.live.card < 2 ^ 32) (hi : i ∈ s.live) :
    WakeInv (s.stayAwake i) := by
  have hset : SameAwake s
      (s.setPms i { s.pms i with awakeCnt := u32 ((s.pms i).awakeCnt + 1) }) := .setPms rfl
  have h' := h.congr hset
  unfold Manager.stayAwake
  dsimp only
  split
  · rename_i hawake
    have hlt := tally_lt hi (p := fun j ↦ (s.pms j).awake) ((hset.awake i).symm.trans hawake)
    rw [← h.counted] at hlt
    obtain ⟨hcnt, hws⟩ := stayAwake_spec h.ws (lt_of_le_of_lt hlt hfits)
    refine ⟨hcnt.trans ?_, iff_of_true hws (hcnt ▸ Nat.succ_pos _)⟩
    rw [h.counted]
    refine (tally_set hi ((hset.awake i).symm.trans hawake) ?_ fun j _ hj ↦ ?_).symm
    · dsimp only
      rw [Manager.pms_setPms_self]
    · dsimp only
      rw [Manager.pms_setPms_of_ne _ _ hj, hset.awake]
  · exact h'

theorem WakeInv.relax (h : WakeInv s) (hfits : s.live.card < 2 ^ 32) (hi : i ∈ s.live) :
    WakeInv (s.relax i) := by
  unfold Manager.relax
  split
  · rename_i hawake
    have hpos := tally_pos hi (p := fun j ↦ (s.pms j).awake) hawake
    have hle := tally_le s.live fun j ↦ (s.pms j).awake
    rw [← h.counted] at hpos hle
    obtain ⟨hcnt, hws⟩ := relax_spec h.ws hpos (lt_of_le_of_lt hle hfits)
    refine ⟨Nat.succ.inj (hcnt.trans (h.counted.trans ?_)), hws⟩
    refine tally_set hi ?_ hawake fun j _ hj ↦ ?_
    · dsimp only
      rw [Manager.pms_setPms_self]
    · dsimp only
      rw [Manager.pms_setPms_of_ne _ _ hj]
  · exact h

theorem WakeInv.create (h : WakeInv s) (hi : i ∉ s.live) : WakeInv (s.create i) := by
  have hne (j : ι) (hj : j ∈ s.live) : j ≠ i := fun heq ↦ hi (heq ▸ hj)
  refine ⟨h.counted.trans (tally_insert ?_ fun j hj ↦ ?_).symm, h.ws⟩
  · dsimp only [Manager.create]
    rw [Manager.pms_setPms_self]
  · dsimp only [Manager.create]
    rw [Manager.pms_setPms_of_ne _ _ (hne j hj)]

/-- A source that is not awake may be destroyed. -/
theorem WakeInv.destroy (h : WakeInv s) (hawake : (s.pms i).awake = false) :
    WakeInv (s.destroy i) := by
  have hsame := SameAwake.cancelTimer s i
  have h' := h.congr hsame
  refine ⟨h'.counted.trans (tally_erase ?_).symm, h'.ws⟩
  exact (hsame.awake i).trans hawake

end Sources

/-! ## Runs -/

/-- Whether a step destroys no source that is awake. -/
def PmStep.keepsAwake {ι : Type*} (s : Manager ι) : PmStep ι → Bool
  | destroy i => (s.pms i).awake = false
  | _ => true

/-- What the sources hold is what the manager counts. -/
structure Manager.Returned {ι : Type*} (s : Manager ι) : Prop where
  wakelock : s.mpm.wakelockCnt = (s.live.filter fun i ↦ (s.pms i).awake = true).card
  /-- While no call is under way, `up_cnt` is the number of active sources. -/
  active : (∀ i ∈ s.live, s.pending i = none) →
    s.mpm.upCnt = (s.live.filter fun i ↦ 0 < (s.pms i).activeCnt).card
  /-- Nothing is held if there is no source. -/
  gone : s.live = ∅ → s.mpm.wakelockCnt = 0 ∧ s.mpm.upCnt = 0 ∧ s.mpm.ws = false

section Runs

variable {ι : Type*} [DecidableEq ι] {K : Clock} {laterIdle : ℕ} {ops : ResourceOps}
  {s : Manager ι}

/-- The invariant is kept by every step. -/
theorem WakeInv.act {e : PmStep ι} (h : WakeInv s) (hlt : s.live.card < 2 ^ 32)
    (he : e.enabled s = true) (hkeeps : e.keepsAwake s = true) : WakeInv (e.act K s) := by
  have hcancel (i : ι) := SameAwake.cancelTimer s i
  cases e with
  | create i => exact h.create (of_decide_eq_true he)
  | destroy i => exact h.destroy (of_decide_eq_true hkeeps)
  | requestResource i =>
    exact h.congr ((SameAwake.doUp s i).trans ⟨rfl, rfl, rfl, fun _ ↦ rfl⟩)
  | waitDone i ret =>
    have h' : WakeInv { s with waiting := Function.update s.waiting i (s.waiting i - 1) } :=
      h.congr ⟨rfl, rfl, rfl, fun _ ↦ rfl⟩
    dsimp only [PmStep.act, Manager.waitDone]
    split
    · exact h'.congr (.doDown _ i false)
    · exact h'
  | releaseResource i => exact h.congr (.doDown s i false)
  | powerUp i => exact h.congr (.doUp s i)
  | powerDown i immediately => exact h.congr (.doDown s i immediately)
  | mpmCall i jiffies => exact h.congr (.mpmCall s i jiffies)
  | requestWakelock i =>
    exact (h.congr (hcancel i)).stayAwake ((hcancel i).live ▸ hlt)
      ((hcancel i).live ▸ of_decide_eq_true he)
  | requestWakelockPeriod i jiffies msec =>
    refine WakeInv.congr ?_ (.setPms rfl)
    exact (h.congr (hcancel i)).stayAwake ((hcancel i).live ▸ hlt)
      ((hcancel i).live ▸ of_decide_eq_true he)
  | releaseWakelock i =>
    exact (h.congr (hcancel i)).relax ((hcancel i).live ▸ hlt)
      ((hcancel i).live ▸ of_decide_eq_true he)
  | releaseWakelockLater i jiffies msec => exact h.congr (.setPms rfl)
  | relaxWakelockTimer i jiffies =>
    dsimp only [PmStep.act, Manager.relaxWakelockTimer]
    split
    · refine WakeInv.relax ?_ hlt (of_decide_eq_true he)
      exact h.congr (.setPms rfl)
    · exact h
  | deactiveTimer => exact h.congr (.of_wake wake_deactiveTimerFn s.pending)
  | runWork => exact h.congr (.of_wake wake_runWork s.pending)

omit [DecidableEq ι] in
theorem returned (hactive : ActiveInv s) (hwake : WakeInv s) : s.Returned := by
  refine ⟨hwake.counted, hactive.inUse.counted, fun hempty ↦ ?_⟩
  have hlock : s.mpm.wakelockCnt = 0 := by rw [hwake.counted, hempty, tally_empty]
  refine ⟨hlock, ?_, ?_⟩
  · rw [hactive.counted, hempty, tally_empty]
  · refine Bool.eq_false_iff.mpr fun hws ↦ ?_
    exact absurd hlock (Nat.ne_of_gt (hwake.ws.mp hws))

/-- In every run in which the counters do not overflow, and every source that is destroyed holds
nothing, the manager counts what the sources hold. -/
theorem pms_returned (hs : (pmSystem ι K laterIdle ops).Reach
      (fun s e ↦ e.fits s = true ∧ e.keepsActive s = true ∧ e.keepsAwake s = true) s) :
    s.Returned := by
  have hinv : ActiveInv s ∧ WakeInv s := by
    refine hs.invariant (I := fun s ↦ ActiveInv s ∧ WakeInv s)
      ⟨.init laterIdle ops, rfl, iff_of_false Bool.false_ne_true (lt_irrefl 0)⟩ ?_
    rintro s e ⟨hactive, hwake⟩ he ⟨hfits, hkeepsActive, hkeepsAwake⟩
    exact ⟨hactive.act he hfits hkeepsActive, hwake.act hactive.fits he hkeepsAwake⟩
  exact returned hinv.1 hinv.2

end Runs

/-- A source is awake and active for a while, and destroyed when it is neither. -/
def quietRun : List (PmStep ℕ) :=
  [.create 0, .create 1, .requestWakelockPeriod 0 10 50, .powerUp 0, .mpmCall 0 11,
    .requestWakelock 1, .powerDown 0 true, .mpmCall 0 12, .relaxWakelockTimer 0 60, .destroy 0]

theorem quietRun_returned :
    (laterAfter quietRun).mpm.wakelockCnt = 1 ∧ (laterAfter quietRun).live = {1} ∧
      (laterAfter quietRun).Returned :=
  ⟨by decide, by decide, pms_returned (System.Reach.init.exec (by decide) :
    laterSystem.Reach
      (fun s e ↦ e.fits s = true ∧ e.keepsActive s = true ∧ e.keepsAwake s = true) _)⟩

/-- A source is destroyed while its wakelock is to be released later. -/
def leakRun : List (PmStep ℕ) := [.create 0, .requestWakelockPeriod 0 10 50, .destroy 0]

/-- There is no source left, and the system is kept awake. -/
theorem pms_destroy_leaks :
    laterSystem.Reach (fun s e ↦ e.fits s = true) (laterAfter leakRun) ∧
      (laterAfter leakRun).live = ∅ ∧ (laterAfter leakRun).mpm.wakelockCnt = 1 ∧
      (laterAfter leakRun).mpm.ws = true ∧ ¬ (laterAfter leakRun).Returned := by
  refine ⟨System.Reach.init.exec (by decide), by decide, by decide, by decide, fun h ↦ ?_⟩
  exact absurd (h.gone (by decide)).1 (by decide)

end Wwan.PowerManager
