import Wwan.Lib.Bytes
import Wwan.Lib.Tally
import Wwan.Lib.Transition
import Wwan.Lib.WorkQueue

/-!
# The modem power manager

`power_manager.c` keeps a modem powered while one of its sources uses it. A source (`pms`)
counts its own requests in `active_cnt`; the manager (`mpm`) counts in `up_cnt` the sources that
are active, and in `wakelock_cnt` those that keep the system awake.

When the last source is done the manager goes idle later, when its timer fires. A timer may
fire after it was cancelled, so its function looks at `expires` first. The resource behind the
modem is requested and released by two work items.
-/

namespace Wwan.PowerManager

open Wwan Bytes

/-! ## Time -/

/-- What the kernel says about time. -/
structure Clock where
  /-- `BITS_PER_LONG`. -/
  bitsPerLong : ℕ
  /-- `msecs_to_jiffies`. -/
  msecsToJiffies : ℕ → ℕ

/-- When a timer that is started now expires; never 0, which says that there is no timer. -/
def Clock.expires (K : Clock) (jiffies msec : ℕ) : ℕ :=
  let expires := (jiffies + K.msecsToJiffies msec) % 2 ^ K.bitsPerLong
  if expires = 0 then 1 else expires

/-- `time_after_eq`: the difference is not negative as a `long`. -/
def Clock.timeAfterEq (K : Clock) (a b : ℕ) : Bool :=
  ((a : ℤ) - b) % 2 ^ K.bitsPerLong < 2 ^ (K.bitsPerLong - 1)

theorem Clock.expires_ne_zero (K : Clock) (jiffies msec : ℕ) : K.expires jiffies msec ≠ 0 := by
  unfold Clock.expires
  dsimp only
  split
  · exact one_ne_zero
  · assumption

/-! ## The manager -/

/-- `mpm_state`. -/
inductive MpmState
  | /-- `SPRD_MPM_IDLE`. -/
    idle
  | /-- `SPRD_MPM_BUSY`. -/
    busy
  deriving DecidableEq

/-- The two work items. -/
inductive ResWork
  | /-- `request_res_work`, which calls `request_resource`. -/
    request
  | /-- `release_res_work`, which calls `release_resource`. -/
    release
  deriving DecidableEq

/-- Which resource ops are set. -/
structure ResourceOps where
  waitResource : Bool
  requestResource : Bool
  releaseResource : Bool
  deriving DecidableEq

/-- `struct sprd_mpm_data`. -/
structure Mpm where
  upCnt : ℕ
  awakeCnt : ℕ
  wakelockCnt : ℕ
  mpmState : MpmState
  expires : ℕ
  laterIdle : ℕ
  ops : ResourceOps
  /-- Whether the wakeup source `ws` is active. -/
  ws : Bool
  /-- The work items that are pending, in the order they were scheduled. -/
  works : List ResWork
  /-- The resource callbacks that were executed. -/
  called : List ResWork
  deriving DecidableEq

namespace Mpm

variable (K : Clock) (mpm : Mpm)

/-- `sprd_mpm_create`. -/
def create (laterIdle : ℕ) (ops : ResourceOps) : Mpm :=
  { upCnt := 0, awakeCnt := 0, wakelockCnt := 0, mpmState := .idle, expires := 0
    laterIdle := laterIdle, ops := ops, ws := false, works := [], called := [] }

/-- `sprd_mpm_request_resource`. -/
def requestResource : Mpm :=
  if mpm.ops.requestResource then { mpm with works := schedule mpm.works .request } else mpm

/-- `sprd_mpm_release_resource`. -/
def releaseResource : Mpm :=
  if mpm.ops.releaseResource then { mpm with works := schedule mpm.works .release } else mpm

/-- `sprd_mpm_active`. -/
def active : Mpm := { mpm with mpmState := .busy }.requestResource

/-- `sprd_mpm_deactive`. -/
def deactive : Mpm := { mpm with mpmState := .idle, expires := 0 }.releaseResource

/-- `sprd_mpm_start_deactive`. -/
def startDeactive (jiffies : ℕ) : Mpm := { mpm with expires := K.expires jiffies mpm.laterIdle }

/-- `sprd_mpm_deactive_timer_fn`. -/
def deactiveTimerFn : Mpm := if mpm.expires ≠ 0 then mpm.deactive else mpm

/-- `sprd_mpm_cancel_timer`. -/
def cancelTimer : Mpm := if mpm.expires ≠ 0 then { mpm with expires := 0 } else mpm

/-- `sprd_mpm_up`. -/
def up : Mpm :=
  let mpm := mpm.cancelTimer
  let mpm := { mpm with upCnt := u32 (mpm.upCnt + 1) }
  if mpm.upCnt = 1 ∧ mpm.mpmState = .idle then mpm.active else mpm

/-- `sprd_mpm_down`. -/
def down (immediately : Bool) (jiffies : ℕ) : Mpm :=
  let mpm := { mpm with upCnt := u32 (mpm.upCnt - 1) }
  if mpm.upCnt = 0 then
    if mpm.laterIdle ≠ 0 ∧ immediately = false then mpm.startDeactive K jiffies
    else mpm.deactive
  else mpm

/-- `sprd_mpm_stay_awake`. -/
def stayAwake : Mpm :=
  let mpm := { mpm with wakelockCnt := u32 (mpm.wakelockCnt + 1) }
  if mpm.wakelockCnt = 1 then { mpm with awakeCnt := u32 (mpm.awakeCnt + 1), ws := true } else mpm

/-- `sprd_mpm_relax`. -/
def relax : Mpm :=
  let mpm := { mpm with wakelockCnt := u32 (mpm.wakelockCnt - 1) }
  if mpm.wakelockCnt = 0 then { mpm with ws := false } else mpm

/-- The first pending work item runs: `sprd_mpm_request_res_work_fn` or
`sprd_mpm_release_res_work_fn`. -/
def runWork : Mpm :=
  match mpm.works with
  | [] => mpm
  | work :: works => { mpm with works := works, called := mpm.called ++ [work] }

end Mpm

/-! ## The sources -/

/-- `struct sprd_pms`. -/
structure Pms where
  awake : Bool
  awakeCnt : ℕ
  activeCnt : ℕ
  expires : ℕ
  deriving DecidableEq

/-- What a source is about to do to the manager: it changes its own counter first. -/
inductive MpmCall
  | /-- `sprd_mpm_up`. -/
    up
  | /-- `sprd_mpm_down`. -/
    down (immediately : Bool)
  deriving DecidableEq

/-- The manager, its sources and the calls that are under way. -/
structure Manager (ι : Type*) where
  mpm : Mpm
  /-- `pms_list`. -/
  live : Finset ι
  pms : ι → Pms
  /-- The call that `sprd_pms_do_up` or `sprd_pms_do_down` is about to make. -/
  pending : ι → Option MpmCall
  /-- How many calls of `sprd_pms_request_resource` wait in `sprd_mpm_wait_resource`. -/
  waiting : ι → ℕ

namespace Manager

variable {ι : Type*} [DecidableEq ι] (K : Clock) (s : Manager ι) (i : ι)

/-- Changes a source. -/
def setPms (p : Pms) : Manager ι := { s with pms := Function.update s.pms i p }

@[simp] theorem pms_setPms_self (p : Pms) : (s.setPms i p).pms i = p := by
  dsimp only [setPms]
  rw [Function.update_self]

theorem pms_setPms_of_ne {j : ι} (hj : j ≠ i) (p : Pms) : (s.setPms i p).pms j = s.pms j := by
  dsimp only [setPms]
  rw [Function.update_of_ne hj]

/-- `sprd_pms_create`. -/
def create : Manager ι :=
  { s.setPms i ⟨false, 0, 0, 0⟩ with
    live := insert i s.live
    pending := Function.update s.pending i none
    waiting := Function.update s.waiting i 0 }

/-- `sprd_pms_cancel_timer`. -/
def cancelTimer : Manager ι :=
  if (s.pms i).expires ≠ 0 then s.setPms i { s.pms i with expires := 0 } else s

/-- `sprd_pms_destroy`. -/
def destroy : Manager ι := { s.cancelTimer i with live := (s.cancelTimer i).live.erase i }

/-- The first half of `sprd_pms_do_up`. -/
def doUp : Manager ι :=
  let activeCnt := u32 ((s.pms i).activeCnt + 1)
  let s := s.setPms i { s.pms i with activeCnt := activeCnt }
  if activeCnt = 1 then { s with pending := Function.update s.pending i (some .up) } else s

/-- The first half of `sprd_pms_do_down`. -/
def doDown (immediately : Bool) : Manager ι :=
  if 0 < (s.pms i).activeCnt then
    let activeCnt := (s.pms i).activeCnt - 1
    let s := s.setPms i { s.pms i with activeCnt := activeCnt }
    if activeCnt = 0 then
      { s with pending := Function.update s.pending i (some (.down immediately)) }
    else s
  else s

/-- The second half of `sprd_pms_do_up` and `sprd_pms_do_down`. -/
def mpmCall (jiffies : ℕ) : Manager ι :=
  match s.pending i with
  | none => s
  | some .up => { s with mpm := s.mpm.up, pending := Function.update s.pending i none }
  | some (.down immediately) =>
    { s with
      mpm := s.mpm.down K immediately jiffies
      pending := Function.update s.pending i none }

/-- `sprd_pms_stay_awake`. -/
def stayAwake : Manager ι :=
  let s := s.setPms i { s.pms i with awakeCnt := u32 ((s.pms i).awakeCnt + 1) }
  if (s.pms i).awake = false then
    { s.setPms i { s.pms i with awake := true } with mpm := s.mpm.stayAwake }
  else s

/-- `sprd_pms_relax`. -/
def relax : Manager ι :=
  if (s.pms i).awake = true then
    { s.setPms i { s.pms i with awake := false } with mpm := s.mpm.relax }
  else s

/-- `sprd_pms_relax_wakelock_timer`. -/
def relaxWakelockTimer (jiffies : ℕ) : Manager ι :=
  if (s.pms i).expires ≠ 0 ∧ K.timeAfterEq jiffies (s.pms i).expires then
    (s.setPms i { s.pms i with expires := 0 }).relax i
  else s

/-- `sprd_pms_request_wakelock`. -/
def requestWakelock : Manager ι := (s.cancelTimer i).stayAwake i

/-- `sprd_pms_release_wakelock`. -/
def releaseWakelock : Manager ι := (s.cancelTimer i).relax i

/-- `sprd_pms_release_wakelock_later`. -/
def releaseWakelockLater (jiffies msec : ℕ) : Manager ι :=
  s.setPms i { s.pms i with expires := K.expires jiffies msec }

/-- `sprd_pms_request_wakelock_period`. -/
def requestWakelockPeriod (jiffies msec : ℕ) : Manager ι :=
  (s.requestWakelock i).releaseWakelockLater K i jiffies msec

/-- `sprd_pms_request_resource` up to the wait. -/
def requestResource : Manager ι :=
  { s.doUp i with waiting := Function.update s.waiting i (s.waiting i + 1) }

/-- `sprd_pms_request_resource` after `sprd_mpm_wait_resource` has returned. -/
def waitDone (ret : ℤ) : Manager ι :=
  let s := { s with waiting := Function.update s.waiting i (s.waiting i - 1) }
  if ret ≠ 0 then s.doDown i false else s

/-- `sprd_pms_release_resource`. -/
def releaseResource : Manager ι := s.doDown i false

/-- `sprd_pms_power_up`. -/
def powerUp : Manager ι := s.doUp i

/-- `sprd_pms_power_down`. -/
def powerDown (immediately : Bool) : Manager ι := s.doDown i immediately

end Manager

/-! ## Runs -/

/-- What may happen. -/
inductive PmStep (ι : Type*)
  | create (i : ι)
  | destroy (i : ι)
  | requestResource (i : ι)
  | waitDone (i : ι) (ret : ℤ)
  | releaseResource (i : ι)
  | powerUp (i : ι)
  | powerDown (i : ι) (immediately : Bool)
  | mpmCall (i : ι) (jiffies : ℕ)
  | requestWakelock (i : ι)
  | requestWakelockPeriod (i : ι) (jiffies msec : ℕ)
  | releaseWakelock (i : ι)
  | releaseWakelockLater (i : ι) (jiffies msec : ℕ)
  | relaxWakelockTimer (i : ι) (jiffies : ℕ)
  | deactiveTimer
  | runWork
  deriving DecidableEq

namespace PmStep

variable {ι : Type*} [DecidableEq ι]

/-- Whether a step can be made. The calls on one source are made one after another, but a call
may be made while another one waits for the resource. Timers may fire at any time. -/
def enabled (s : Manager ι) : PmStep ι → Bool
  | create i => i ∉ s.live
  | destroy i => i ∈ s.live ∧ s.pending i = none ∧ s.waiting i = 0
  | requestResource i => i ∈ s.live ∧ s.pending i = none
  | waitDone i ret =>
    i ∈ s.live ∧ s.pending i = none ∧ s.waiting i ≠ 0 ∧
      (ret = 0 ∨ s.mpm.ops.waitResource = true)
  | releaseResource i => i ∈ s.live ∧ s.pending i = none
  | powerUp i => i ∈ s.live ∧ s.pending i = none
  | powerDown i _ => i ∈ s.live ∧ s.pending i = none
  | mpmCall i _ => i ∈ s.live ∧ s.pending i ≠ none
  | requestWakelock i => i ∈ s.live
  | requestWakelockPeriod i _ _ => i ∈ s.live
  | releaseWakelock i => i ∈ s.live
  | releaseWakelockLater i _ _ => i ∈ s.live
  | relaxWakelockTimer i _ => i ∈ s.live
  | deactiveTimer => true
  | runWork => s.mpm.works ≠ []

/-- What a step does. -/
def act (K : Clock) (s : Manager ι) : PmStep ι → Manager ι
  | create i => s.create i
  | destroy i => s.destroy i
  | requestResource i => s.requestResource i
  | waitDone i ret => s.waitDone i ret
  | releaseResource i => s.releaseResource i
  | powerUp i => s.powerUp i
  | powerDown i immediately => s.powerDown i immediately
  | mpmCall i jiffies => s.mpmCall K i jiffies
  | requestWakelock i => s.requestWakelock i
  | requestWakelockPeriod i jiffies msec => s.requestWakelockPeriod K i jiffies msec
  | releaseWakelock i => s.releaseWakelock i
  | releaseWakelockLater i jiffies msec => s.releaseWakelockLater K i jiffies msec
  | relaxWakelockTimer i jiffies => s.relaxWakelockTimer K i jiffies
  | deactiveTimer => { s with mpm := s.mpm.deactiveTimerFn }
  | runWork => { s with mpm := s.mpm.runWork }

end PmStep

/-- The runs of a manager that begins without sources. -/
def pmSystem (ι : Type*) [DecidableEq ι] (K : Clock) (laterIdle : ℕ) (ops : ResourceOps) :
    System (Manager ι) (PmStep ι) :=
  { init := ⟨.create laterIdle ops, ∅, fun _ ↦ ⟨false, 0, 0, 0⟩, fun _ ↦ none, fun _ ↦ 0⟩
    enabled := fun s e ↦ e.enabled s
    next := fun s e ↦ e.act K s }

end Wwan.PowerManager
