import Mathlib.Data.Vector.Basic

/-!
# Arrays of fixed size

Copying out of and into an array, where an access behind its end has no result.
-/

namespace Wwan

/-- An array of `n` elements. -/
abbrev Buffer (α : Type*) (n : ℕ) := List.Vector α n

namespace Buffer

variable {α : Type*} {n offset k : ℕ} {buf buf' : Buffer α n} {xs : List α}

/-- What is in the array from `offset` on, if that is inside. -/
def load (buf : Buffer α n) (offset k : ℕ) : Option (List α) :=
  if offset + k ≤ n then some ((buf.toList.drop offset).take k) else none

/-- The array after `xs` was copied to `offset`, if that is inside. -/
def store (buf : Buffer α n) (offset : ℕ) (xs : List α) : Option (Buffer α n) :=
  if h : offset + xs.length ≤ n then
    some ⟨buf.toList.take offset ++ xs ++ buf.toList.drop (offset + xs.length), by
      simp only [List.length_append, List.length_take, List.length_drop, List.Vector.toList_length]
      omega⟩
  else none

theorem load_eq (h : offset + k ≤ n) :
    buf.load offset k = some ((buf.toList.drop offset).take k) := if_pos h

theorem load_eq_none (h : n < offset + k) : buf.load offset k = none :=
  if_neg (Nat.not_le.mpr h)

theorem store_eq_none (h : n < offset + xs.length) : buf.store offset xs = none :=
  dif_neg (Nat.not_le.mpr h)

/-- What comes in front of a store and the store itself are in the array afterwards. -/
theorem exists_store (buf : Buffer α n) (offset : ℕ) (xs : List α) (h : offset + xs.length ≤ n) :
    ∃ buf' : Buffer α n, buf.store offset xs = some buf' ∧
      buf'.toList.take (offset + xs.length) = buf.toList.take offset ++ xs := by
  refine ⟨_, dif_pos h, ?_⟩
  have hlen : (buf.toList.take offset ++ xs).length = offset + xs.length := by
    rw [List.length_append, List.length_take, List.Vector.toList_length]
    omega
  exact (congrArg (List.take · _) rfl).trans (List.take_left' hlen)

end Buffer

end Wwan
