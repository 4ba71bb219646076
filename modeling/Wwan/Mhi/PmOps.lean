import Mathlib.Data.List.Basic
import Wwan.Lib.Transition
import Wwan.Mhi.PmState

/-!
# Power management of an MHI controller

The functions of the core that read or write `pm_state`, `dev_state` and the wake count. A call is
cut where others can come in: a step is one section under `pm_lock`, one look at a variable outside
of it, or one pass of a wait. Any number of calls may run at a time, and the device may report a
state at any time.

`pm_mutex`, which orders the parts of `mhi_pm_disable_transition`, is left out: with it there are
fewer runs.
-/

namespace Wwan.Mhi

/-- `struct mhi_controller`, as far as power management goes. -/
structure PmCntrl where
  pmState : PmState
  devState : DevState
  /-- `dev_wake`. -/
  devWake : ℕ
  /-- What was last written to `wake_db`. -/
  wakeDb : Bool
  deriving DecidableEq

namespace PmCntrl

variable (c : PmCntrl)

/-- `mhi_tryset_pm_state`. -/
def tryset (state : PmState) : PmCntrl × PmState :=
  let new := mhiTrysetPmState c.pmState state
  ({ c with pmState := new }, new)

/-- `mhi_assert_dev_wake`, the default `wake_get`. It returns before anything is counted. -/
def mhiAssertDevWake (_force : Bool) : PmCntrl :=
  if c.devState = .m2 then { c with wakeDb := true } else c

/-- `mhi_deassert_dev_wake`, the default `wake_put`. It returns at once. -/
def mhiDeassertDevWake (_override : Bool) : PmCntrl := c

/-! ## The device reports a state -/

/-- `mhi_pm_m0_transition`. -/
def mhiPmM0Transition : PmCntrl × ℤ :=
  let c := { c with devState := .m0 }
  let (c, curState) := c.tryset .m0
  if curState ≠ .m0 then (c, eio)
  else ((c.mhiAssertDevWake false).mhiDeassertDevWake false, 0)

/-- `mhi_pm_m1_transition`. -/
def mhiPmM1Transition : PmCntrl :=
  let (c, state) := c.tryset .m2
  if state = .m2 then
    let c := { c with devState := .m2 }
    if c.devWake ≠ 0 then (c.mhiAssertDevWake true).mhiDeassertDevWake false else c
  else c

/-- `mhi_pm_m3_transition`. -/
def mhiPmM3Transition : PmCntrl × ℤ :=
  let c := { c with devState := .m3 }
  let (c, state) := c.tryset .m3
  (c, if state ≠ .m3 then eio else 0)

end PmCntrl

/-! ## Calls -/

/-- What a step reads of the device, and whether the time of a wait is over. -/
structure PmRead where
  timedOut : Bool
  /-- `MHICTRL_RESET` is set. -/
  reset : Bool
  /-- `MHISTATUS_READY` is set. -/
  ready : Bool
  /-- `mhi_init_mmio` fails. -/
  mmioFails : Bool
  /-- `mhi_get_exec_env` is `MHI_EE_EDL`, and `mhi_get_mhi_state` is `MHI_STATE_RESET`. -/
  edl : Bool
  deriving DecidableEq

/-- Where `mhi_pm_suspend` is. -/
inductive SuspendAt
  | /-- Before `pm_state` is compared with `MHI_PM_DISABLE`. -/
    disabled
  | errorState
  | /-- Before the first look at `dev_wake`. -/
    quickCheck
  | wakeGet
  | waitM0
  | waited (ret : Bool)
  | /-- Before `pm_lock` is taken for the transition. -/
    enter
  | waitM3
  | waitedM3 (ret : Bool)
  | /-- At `error_m0_entry`. -/
    unwind (ret : ℤ)
  deriving DecidableEq

/-- Where `mhi_pm_resume` is. -/
inductive ResumeAt
  | disabled
  | errorState
  | /-- Before `pm_lock` is taken for the transition. -/
    exit
  | waitM0
  | wakePut (ret : Bool)
  | waited (ret : Bool)
  deriving DecidableEq

/-- Where `mhi_device_get_sync` is. -/
inductive GetSyncAt
  | wakeGet
  | waitM0
  | waited (ret : Bool)
  | unwind
  | /-- Before `mhi_dev->dev_wake` is incremented. -/
    count
  deriving DecidableEq

/-- Where `mhi_ready_state_transition` is. -/
inductive ReadyAt
  | wait
  | /-- After the wait, with the bits that were read. -/
    waited (reset ready : Bool)
  | /-- Before `pm_lock` is taken for the transition. -/
    set
  | /-- Before `pm_lock` is taken again. -/
    mmio
  deriving DecidableEq

/-- The two uses of `mhi_pm_disable_transition`. -/
inductive DisableCause
  | sysErr
  | shutdown
  deriving DecidableEq

/-- `transition_state`. -/
def DisableCause.transitionState : DisableCause → PmState
  | sysErr => .sysErrProcess
  | shutdown => .shutdownProcess

/-- Where `mhi_pm_disable_transition` is. -/
inductive DisableAt
  | /-- Before `pm_lock` is taken for the transition. -/
    enter
  | /-- After it, with `MHI_REG_ACCESS_VALID(prev_state)`. -/
    reset (prevValid : Bool)
  | /-- Before `pm_state` is set for the last time. -/
    finish
  deriving DecidableEq

/-- A call, and where it is. -/
inductive PmOp
  | suspend (pos : SuspendAt)
  | resume (pos : ResumeAt)
  | getSync (pos : GetSyncAt)
  | ready (pos : ReadyAt)
  | disable (cause : DisableCause) (pos : DisableAt)
  | returned (ret : ℤ)
  | /-- A function without a value has returned. -/
    finished
  deriving DecidableEq

namespace PmCntrl

variable (c : PmCntrl) (r : PmRead)

/-- A pass of `wait_event_timeout`: it goes on with 1 if the condition holds, with 0 if the time is
over, and else stays. -/
def wait (cond : Prop) [Decidable cond] (go : Bool → PmOp) (stay : PmOp) : PmOp :=
  if cond then go true else if r.timedOut then go false else stay

/-- `mhi_pm_suspend`. -/
def suspendStep : SuspendAt → PmCntrl × PmOp
  | .disabled =>
    (c, if c.pmState = .disable then .returned einval else .suspend .errorState)
  | .errorState =>
    (c, if c.pmState.inErrorState then .returned eio else .suspend .quickCheck)
  | .quickCheck => (c, if c.devWake ≠ 0 then .returned ebusy else .suspend .wakeGet)
  | .wakeGet => (c.mhiAssertDevWake false, .suspend .waitM0)
  | .waitM0 =>
    (c, wait r (c.devState = .m0 ∨ c.devState = .m1 ∨ c.pmState.inErrorState = true)
      (fun ret ↦ .suspend (.waited ret)) (.suspend .waitM0))
  | .waited ret =>
    (c, if ret = false ∨ c.pmState.inErrorState then .suspend (.unwind eio) else .suspend .enter)
  | .enter =>
    if c.devWake > 1 then (c, .suspend (.unwind ebusy))
    else
      let (c, newState) := c.tryset .m3Enter
      if newState ≠ .m3Enter then (c, .suspend (.unwind eio))
      else (c.mhiDeassertDevWake false, .suspend .waitM3)
  | .waitM3 =>
    (c, wait r (c.devState = .m3 ∨ c.pmState.inErrorState = true)
      (fun ret ↦ .suspend (.waitedM3 ret)) (.suspend .waitM3))
  | .waitedM3 ret =>
    (c, if ret = false ∨ c.pmState.inErrorState then .returned eio else .returned 0)
  | .unwind ret => (c.mhiDeassertDevWake false, .returned ret)

/-- `mhi_pm_resume`. -/
def resumeStep : ResumeAt → PmCntrl × PmOp
  | .disabled => (c, if c.pmState = .disable then .returned 0 else .resume .errorState)
  | .errorState => (c, if c.pmState.inErrorState then .returned eio else .resume .exit)
  | .exit =>
    let (c, curState) := c.tryset .m3Exit
    if curState ≠ .m3Exit then (c, .returned eio)
    else (c.mhiAssertDevWake true, .resume .waitM0)
  | .waitM0 =>
    (c, wait r (c.devState = .m0 ∨ c.pmState.inErrorState = true)
      (fun ret ↦ .resume (.wakePut ret)) (.resume .waitM0))
  | .wakePut ret => (c.mhiDeassertDevWake false, .resume (.waited ret))
  | .waited ret =>
    (c, if ret = false ∨ c.pmState.inErrorState then .returned eio else .returned 0)

/-- `mhi_device_get_sync`, less the count of votes. -/
def getSyncStep : GetSyncAt → PmCntrl × PmOp
  | .wakeGet => (c.mhiAssertDevWake true, .getSync .waitM0)
  | .waitM0 =>
    (c, wait r (c.pmState = .m0 ∨ c.pmState.inErrorState = true)
      (fun ret ↦ .getSync (.waited ret)) (.getSync .waitM0))
  | .waited ret =>
    (c, if ret = false ∨ c.pmState.inErrorState then .getSync .unwind else .getSync .count)
  | .unwind => (c.mhiDeassertDevWake false, .returned eio)
  | .count => (c, .returned 0)

/-- `mhi_ready_state_transition`. -/
def readyStep : ReadyAt → PmCntrl × PmOp
  | .wait =>
    (c, wait r (c.pmState.inFatalState = true ∨ r.reset = false ∧ r.ready = true)
      (fun _ ↦ .ready (.waited r.reset r.ready)) (.ready .wait))
  | .waited reset ready =>
    (c,
      if c.pmState.inFatalState then .returned eio
      else if reset ∨ ready = false then .returned etimedout
      else .ready .set)
  | .set =>
    let (c, curState) := c.tryset .por
    let c := { c with devState := .ready }
    (c, if curState ≠ .por then .returned eio else .ready .mmio)
  | .mmio =>
    (c, if c.pmState.regAccessValid = false ∨ r.mmioFails then .returned eio else .returned 0)

/-- `mhi_pm_disable_transition`. -/
def disableStep (cause : DisableCause) : DisableAt → PmCntrl × PmOp
  | .enter =>
    let prevValid := c.pmState.regAccessValid
    let (c, curState) := c.tryset cause.transitionState
    if curState = cause.transitionState then
      ({ c with devState := .reset }, .disable cause (.reset prevValid))
    else (c, .finished)
  | .reset prevValid =>
    (c, if prevValid ∧ r.reset ∧ cause = .sysErr then .finished else .disable cause .finish)
  | .finish =>
    match cause with
    | .sysErr => if r.edl then ((c.tryset .por).1, .finished) else (c, .ready .wait)
    | .shutdown => ((c.tryset .disable).1, .finished)

/-- A step of a call. -/
def opStep : PmOp → PmCntrl × PmOp
  | .suspend pos => c.suspendStep r pos
  | .resume pos => c.resumeStep r pos
  | .getSync pos => c.getSyncStep r pos
  | .ready pos => c.readyStep r pos
  | .disable cause pos => c.disableStep r cause pos
  | .returned ret => (c, .returned ret)
  | .finished => (c, .finished)

end PmCntrl

/-! ## What a step changes -/

namespace PmCntrl

variable (c : PmCntrl) (r : PmRead)

@[simp] theorem pmState_assert (force : Bool) : (c.mhiAssertDevWake force).pmState = c.pmState := by
  unfold mhiAssertDevWake
  split <;> rfl

@[simp] theorem devState_assert (force : Bool) :
    (c.mhiAssertDevWake force).devState = c.devState := by
  unfold mhiAssertDevWake
  split <;> rfl

@[simp] theorem devWake_assert (force : Bool) : (c.mhiAssertDevWake force).devWake = c.devWake := by
  unfold mhiAssertDevWake
  split <;> rfl

@[simp] theorem deassert_eq (override : Bool) : c.mhiDeassertDevWake override = c := rfl

theorem m0_spec : c.mhiPmM0Transition.1.pmState = mhiTrysetPmState c.pmState .m0 ∧
    c.mhiPmM0Transition.1.devState = .m0 ∧ c.mhiPmM0Transition.1.devWake = c.devWake ∧
      c.mhiPmM0Transition.2 = if mhiTrysetPmState c.pmState .m0 = .m0 then 0 else eio := by
  unfold mhiPmM0Transition
  by_cases h : mhiTrysetPmState c.pmState .m0 = .m0
  · simp [tryset, h]
  · simp [tryset, h]

theorem m1_spec : c.mhiPmM1Transition.pmState = mhiTrysetPmState c.pmState .m2 ∧
    c.mhiPmM1Transition.devState =
      (if mhiTrysetPmState c.pmState .m2 = .m2 then .m2 else c.devState) ∧
      c.mhiPmM1Transition.devWake = c.devWake := by
  unfold mhiPmM1Transition
  by_cases h : mhiTrysetPmState c.pmState .m2 = .m2
  · by_cases hwake : c.devWake = 0
    · simp [tryset, h, hwake]
    · simp [tryset, h, hwake]
  · simp [tryset, h]

/-- The state a step of a call asks `mhi_tryset_pm_state` for, if it does. -/
def attempt : PmOp → Option PmState
  | .suspend .enter => if c.devWake > 1 then none else some .m3Enter
  | .resume .exit => some .m3Exit
  | .ready .set => some .por
  | .disable cause .enter => some cause.transitionState
  | .disable .sysErr .finish => if r.edl then some .por else none
  | .disable .shutdown .finish => some .disable
  | _ => none

/-- `pm_state` after that. -/
def after (curState : PmState) : Option PmState → PmState
  | none => curState
  | some state => mhiTrysetPmState curState state

/-- What a step of a call does: the count stays as it is. -/
theorem opStep_spec (op : PmOp) :
    (c.opStep r op).1.pmState = after c.pmState (c.attempt r op) ∧
      (c.opStep r op).1.devWake = c.devWake := by
  cases op with
  | suspend pos =>
    cases pos with
    | wakeGet => exact ⟨pmState_assert c false, devWake_assert c false⟩
    | enter =>
      simp only [opStep, suspendStep, attempt]
      split
      · exact ⟨rfl, rfl⟩
      · split <;> exact ⟨rfl, rfl⟩
    | _ => exact ⟨rfl, rfl⟩
  | resume pos =>
    cases pos with
    | exit =>
      simp only [opStep, resumeStep, attempt]
      split
      · exact ⟨rfl, rfl⟩
      · exact ⟨pmState_assert _ true, devWake_assert _ true⟩
    | _ => exact ⟨rfl, rfl⟩
  | getSync pos =>
    cases pos with
    | wakeGet => exact ⟨pmState_assert c true, devWake_assert c true⟩
    | _ => exact ⟨rfl, rfl⟩
  | ready pos => cases pos <;> exact ⟨rfl, rfl⟩
  | disable cause pos =>
    cases pos with
    | enter =>
      have hattempt : c.attempt r (.disable cause .enter) = some cause.transitionState := by
        cases cause <;> rfl
      rw [hattempt]
      simp only [opStep, disableStep]
      split <;> exact ⟨rfl, rfl⟩
    | reset prevValid => cases cause <;> exact ⟨rfl, rfl⟩
    | finish =>
      cases cause with
      | sysErr =>
        simp only [opStep, disableStep, attempt]
        split <;> exact ⟨rfl, rfl⟩
      | shutdown => exact ⟨rfl, rfl⟩
  | returned ret => exact ⟨rfl, rfl⟩
  | finished => exact ⟨rfl, rfl⟩

theorem pmState_opStep (op : PmOp) :
    (c.opStep r op).1.pmState = after c.pmState (c.attempt r op) := (c.opStep_spec r op).1

theorem devWake_opStep (op : PmOp) : (c.opStep r op).1.devWake = c.devWake :=
  (c.opStep_spec r op).2

end PmCntrl

/-! ## Runs -/

/-- The controller with its callers. -/
structure PmRun where
  cntrl : PmCntrl
  /-- The calls of `mhi_device_get` and successful calls of `mhi_device_get_sync` that were not
  matched by `mhi_device_put`. -/
  votes : ℕ
  /-- The calls that were made. -/
  ops : List PmOp
  deriving DecidableEq

/-- The calls that can be made. -/
inductive PmCall
  | suspend
  | resume
  | getSync
  | ready
  | disable (cause : DisableCause)
  deriving DecidableEq

/-- Where a call begins. -/
def PmCall.start : PmCall → PmOp
  | suspend => .suspend .disabled
  | resume => .resume .disabled
  | getSync => .getSync .wakeGet
  | ready => .ready .wait
  | disable cause => .disable cause .enter

inductive PmEvent
  | /-- A function is called. -/
    call (f : PmCall)
  | /-- A call goes on. -/
    step (i : ℕ) (r : PmRead)
  | /-- `mhi_device_get`. -/
    get
  | /-- `mhi_device_put`. -/
    put
  | /-- `wake_get` around queueing. -/
    wakeGet
  | /-- `wake_put` around queueing. -/
    wakePut
  | /-- The device reports M0. -/
    m0
  | /-- The device reports M1. -/
    m1
  | /-- The device reports M3. -/
    m3
  | /-- A system error is detected. -/
    sysErr
  | /-- The link is down. -/
    linkDown
  deriving DecidableEq

namespace PmRun

variable (s : PmRun)

/-- A vote is counted when `mhi_device_get_sync` is about to return. -/
def counts : PmOp → ℕ
  | .getSync .count => 1
  | _ => 0

/-- A step of a call. -/
def runOp (i : ℕ) (r : PmRead) : PmRun :=
  match s.ops[i]? with
  | none => s
  | some op =>
    { cntrl := (s.cntrl.opStep r op).1
      votes := s.votes + counts op
      ops := s.ops.set i (s.cntrl.opStep r op).2 }

/-- The state after an event. -/
def next : PmEvent → PmRun
  | .call f => { s with ops := s.ops ++ [f.start] }
  | .step i r => s.runOp i r
  | .get => { s with cntrl := s.cntrl.mhiAssertDevWake true, votes := s.votes + 1 }
  | .put => { s with cntrl := s.cntrl.mhiDeassertDevWake false, votes := s.votes - 1 }
  | .wakeGet => { s with cntrl := s.cntrl.mhiAssertDevWake false }
  | .wakePut => { s with cntrl := s.cntrl.mhiDeassertDevWake false }
  | .m0 => { s with cntrl := s.cntrl.mhiPmM0Transition.1 }
  | .m1 => { s with cntrl := s.cntrl.mhiPmM1Transition }
  | .m3 => { s with cntrl := s.cntrl.mhiPmM3Transition.1 }
  | .sysErr => { s with cntrl := (s.cntrl.tryset .sysErrDetect).1 }
  | .linkDown => { s with cntrl := (s.cntrl.tryset .ldErrFatalDetect).1 }

/-- A vote is given back only if there is one. -/
def Enabled : PmEvent → Prop
  | .step i _ => i < s.ops.length
  | .put => 0 < s.votes
  | _ => True

/-- After `mhi_async_power_up`. -/
def init : PmRun := ⟨⟨.por, .reset, 0, false⟩, 0, []⟩

/-- All orders of events. -/
def system : System PmRun PmEvent := ⟨init, Enabled, next⟩

instance (s : PmRun) (e : PmEvent) : Decidable (s.Enabled e) :=
  match e with
  | .step i _ => inferInstanceAs (Decidable (i < s.ops.length))
  | .put => inferInstanceAs (Decidable (0 < s.votes))
  | .call _ | .get | .wakeGet | .wakePut | .m0 | .m1 | .m3 | .sysErr | .linkDown => .isTrue trivial

instance (s : PmRun) (e : PmEvent) : Decidable (system.enabled s e) :=
  inferInstanceAs (Decidable (s.Enabled e))

/-- The count stays what it is. -/
theorem devWake_next (s : PmRun) (e : PmEvent) : (s.next e).cntrl.devWake = s.cntrl.devWake := by
  cases e with
  | call f => rfl
  | step i r =>
    simp only [next, runOp]
    cases hop : s.ops[i]? with
    | none => rfl
    | some op => exact PmCntrl.devWake_opStep s.cntrl r op
  | get => exact PmCntrl.devWake_assert _ true
  | put => rfl
  | wakeGet => exact PmCntrl.devWake_assert _ false
  | wakePut => rfl
  | m0 => exact s.cntrl.m0_spec.2.2.1
  | m1 => exact s.cntrl.m1_spec.2.2
  | m3 => rfl
  | sysErr => rfl
  | linkDown => rfl

end PmRun

end Wwan.Mhi
