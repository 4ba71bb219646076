import Mathlib.Data.List.Basic

/-!
# Work queues

Work items wait in the order they were scheduled. An item that is scheduled while it waits
keeps its place, so what comes last is not always what was scheduled last.
-/

namespace Wwan

variable {α : Type*} [DecidableEq α]

/-- Schedules an item unless it waits already. -/
def schedule (q : List α) (a : α) : List α := if a ∈ q then q else q ++ [a]

variable {q : List α} {a : α}

/-- An item that is scheduled comes last if no other item waits behind it. -/
theorem getLast?_schedule_iff :
    (schedule q a).getLast? = some a ↔ (a ∈ q → q.getLast? = some a) := by
  unfold schedule
  split
  · rename_i hmem
    exact ⟨fun h _ ↦ h, fun h ↦ h hmem⟩
  · rename_i hmem
    exact iff_of_true List.getLast?_concat fun h ↦ absurd h hmem

/-- What waits goes on waiting. -/
theorem mem_schedule_of_mem {b : α} (h : b ∈ q) : b ∈ schedule q a := by
  unfold schedule
  split
  · exact h
  · exact List.mem_append_left _ h

end Wwan
