import Mathlib.Data.Int.Notation
import Mathlib.Data.Nat.Notation

/-!
# Power states of an MHI controller

`pm_state` is what the host takes the link to be in, `dev_state` what the device said last.
`mhi_tryset_pm_state` moves `pm_state` if `mhi_state_transitions` has the transition, and returns
the state it leaves behind, so that a caller that asks for the state it is in already cannot tell
that it was refused.
-/

namespace Wwan.Mhi

/-- `-EIO`. -/
def eio : ℤ := -5

/-- `-EBUSY`. -/
def ebusy : ℤ := -16

/-- `-EINVAL`. -/
def einval : ℤ := -22

/-- `-ETIMEDOUT`. -/
def etimedout : ℤ := -110

/-- `enum MHI_PM_STATE`. -/
inductive PmState
  | disable | por | m0 | m2 | m3Enter | m3 | m3Exit
  | fwDlErr | sysErrDetect | sysErrProcess | shutdownProcess | ldErrFatalDetect
  deriving DecidableEq

/-- `MHI_PM_IN_ERROR_STATE`. -/
def PmState.inErrorState : PmState → Bool
  | fwDlErr | sysErrDetect | sysErrProcess | shutdownProcess | ldErrFatalDetect => true
  | _ => false

/-- `MHI_PM_IN_SUSPEND_STATE`. -/
def PmState.inSuspendState : PmState → Bool
  | m3Enter | m3 => true
  | _ => false

/-- `MHI_REG_ACCESS_VALID`. -/
def PmState.regAccessValid : PmState → Bool
  | disable | m3 | ldErrFatalDetect => false
  | _ => true

/-- `MHI_PM_IN_FATAL_STATE`. -/
def PmState.inFatalState (s : PmState) : Bool := s == .ldErrFatalDetect

/-- `enum mhi_dev_state`. -/
inductive DevState
  | reset | ready | m0 | m1 | m2 | m3 | bhi | sysErr
  deriving DecidableEq

namespace PmState

/-- The number of the bit of a state. -/
def bit : PmState → ℕ
  | disable => 0
  | por => 1
  | m0 => 2
  | m2 => 3
  | m3Enter => 4
  | m3 => 5
  | m3Exit => 6
  | fwDlErr => 7
  | sysErrDetect => 8
  | sysErrProcess => 9
  | shutdownProcess => 10
  | ldErrFatalDetect => 11

end PmState

open PmState in
/-- `mhi_state_transitions`: `from_state` and `to_states`. -/
def mhiStateTransitions : List (PmState × List PmState) :=
  [(disable, [por]),
    (por, [por, disable, m0, sysErrDetect, shutdownProcess, ldErrFatalDetect, fwDlErr]),
    (m0, [m2, m3Enter, sysErrDetect, shutdownProcess, ldErrFatalDetect, fwDlErr]),
    (m2, [m0, sysErrDetect, shutdownProcess, ldErrFatalDetect]),
    (m3Enter, [m3, sysErrDetect, shutdownProcess, ldErrFatalDetect]),
    (m3, [m3Exit, sysErrDetect, shutdownProcess, ldErrFatalDetect]),
    (m3Exit, [m0, sysErrDetect, shutdownProcess, ldErrFatalDetect]),
    (fwDlErr, [fwDlErr, sysErrDetect, shutdownProcess, ldErrFatalDetect]),
    (sysErrDetect, [sysErrProcess, shutdownProcess, ldErrFatalDetect]),
    (sysErrProcess, [por, shutdownProcess, ldErrFatalDetect]),
    (shutdownProcess, [disable, ldErrFatalDetect]),
    (ldErrFatalDetect, [ldErrFatalDetect, shutdownProcess])]

/-- `mhi_tryset_pm_state`, as a function of `pm_state`. -/
def mhiTrysetPmState (curState state : PmState) : PmState :=
  match mhiStateTransitions[curState.bit]? with
  | none => curState
  | some (fromState, toStates) =>
    if fromState ≠ curState then curState
    else if state ∉ toStates then curState
    else state

/-- The transition is in the table. -/
def PmState.Allows (curState state : PmState) : Prop :=
  ∃ entry ∈ mhiStateTransitions, entry.1 = curState ∧ state ∈ entry.2

instance (curState state : PmState) : Decidable (curState.Allows state) :=
  inferInstanceAs (Decidable (∃ entry ∈ mhiStateTransitions, entry.1 = curState ∧ state ∈ entry.2))

namespace PmState

variable {cur state : PmState}

/-- The entry of a state is at the place of its bit, and it is the only one. -/
theorem getElem_transitions (cur : PmState) :
    ∃ toStates, mhiStateTransitions[cur.bit]? = some (cur, toStates) ∧
      ∀ entry ∈ mhiStateTransitions, entry.1 = cur → entry.2 = toStates := by
  cases cur <;> exact ⟨_, rfl, by decide⟩

/-- A transition of the table is made. -/
theorem Allows.tryset (h : cur.Allows state) : mhiTrysetPmState cur state = state := by
  obtain ⟨entry, hmem, hfrom, hstate⟩ := h
  obtain ⟨toStates, hget, huniq⟩ := getElem_transitions cur
  rw [huniq entry hmem hfrom] at hstate
  simp only [mhiTrysetPmState, hget, ne_eq, not_true_eq_false, if_false]
  rw [if_neg (fun hnot ↦ hnot hstate)]

/-- Any other is refused. -/
theorem tryset_of_not_allows (h : ¬ cur.Allows state) : mhiTrysetPmState cur state = cur := by
  obtain ⟨toStates, hget, -⟩ := getElem_transitions cur
  have hnot : state ∉ toStates := fun hstate ↦
    h ⟨(cur, toStates), List.mem_of_getElem? hget, rfl, hstate⟩
  simp only [mhiTrysetPmState, hget, ne_eq, not_true_eq_false, if_false]
  rw [if_pos hnot]

/-- It sets the state or leaves it. -/
theorem tryset_cases (cur state : PmState) :
    mhiTrysetPmState cur state = state ∨ mhiTrysetPmState cur state = cur := by
  by_cases h : cur.Allows state
  · exact .inl h.tryset
  · exact .inr (tryset_of_not_allows h)

end PmState

end Wwan.Mhi
