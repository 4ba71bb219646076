import Mathlib.Data.List.GetD

/-!
# Ranges of a memory

A memory is a function on addresses. `peek` reads a range of it, `poke` overwrites one; a range is
read as it was before as long as the two do not overlap. `Holds` says what a range contains, piece
by piece.
-/

namespace Wwan.Memory

variable {α : Type*} {mem : ℕ → α} {a b n m : ℕ} {xs ys : List α}

/-- The `n` cells from `a` on. -/
def peek (mem : ℕ → α) (a n : ℕ) : List α := (List.range n).map fun k ↦ mem (a + k)

/-- The memory with `xs` written from `a` on. -/
def poke (mem : ℕ → α) (a : ℕ) (xs : List α) : ℕ → α := fun i ↦
  if a ≤ i then xs.getD (i - a) (mem i) else mem i

/-- The cells from `a` on are `xs`. -/
def Holds (mem : ℕ → α) (a : ℕ) (xs : List α) : Prop := peek mem a xs.length = xs

@[simp] theorem length_peek : (peek mem a n).length = n := by simp [peek]

theorem peek_add : peek mem a (n + m) = peek mem a n ++ peek mem (a + n) m := by
  simp [peek, List.range_add, Nat.add_assoc]

theorem take_peek : (peek mem a n).take m = peek mem a (min m n) := by
  rw [peek, peek, ← List.map_take, List.take_range]

theorem peek_congr {mem' : ℕ → α} (h : ∀ i, a ≤ i → i < a + n → mem i = mem' i) :
    peek mem a n = peek mem' a n := by
  refine List.map_congr_left fun k hk ↦ h (a + k) (Nat.le_add_right a k) ?_
  exact Nat.add_lt_add_left (List.mem_range.mp hk) a

/-- Ranges are the same if and only if their cells are. -/
theorem peek_eq_peek_iff {mem' : ℕ → α} :
    peek mem a n = peek mem' a n ↔ ∀ i, a ≤ i → i < a + n → mem i = mem' i := by
  constructor
  · intro h i hlow hhigh
    have hget := List.map_inj_left.mp h (i - a) (List.mem_range.mpr (by omega))
    rwa [Nat.add_sub_cancel' hlow] at hget
  · exact peek_congr

/-- Cells outside of the range that is written stay. -/
theorem poke_of_outside {i : ℕ} (h : i < a ∨ a + xs.length ≤ i) : poke mem a xs i = mem i := by
  unfold poke
  split
  next hle =>
    rcases h with h | h
    · exact absurd hle (Nat.not_le.mpr h)
    · exact List.getD_eq_default _ _ (Nat.le_sub_of_add_le' h)
  next => rfl

@[simp] theorem poke_nil : poke mem a [] = mem := by
  funext i
  apply poke_of_outside
  rw [List.length_nil, Nat.add_zero]
  exact Nat.lt_or_ge i a

/-- A range is read as before if the one that is written does not overlap it. -/
theorem peek_poke_of_disjoint (h : b + n ≤ a ∨ a + xs.length ≤ b) :
    peek (poke mem a xs) b n = peek mem b n := by
  refine peek_congr fun i hlow hhigh ↦ poke_of_outside ?_
  rcases h with h | h
  · exact .inl (Nat.lt_of_lt_of_le hhigh h)
  · exact .inr (Nat.le_trans h hlow)

/-- A range is written piece by piece. -/
theorem poke_append : poke mem a (xs ++ ys) = poke (poke mem a xs) (a + xs.length) ys := by
  funext i
  rcases Nat.lt_or_ge i (a + xs.length) with hlt | hge
  · rw [poke_of_outside (a := a + xs.length) (.inl hlt)]
    unfold poke
    split
    next hle => rw [List.getD_append _ _ _ _ (Nat.sub_lt_left_of_lt_add hle hlt)]
    next => rfl
  · have hle := Nat.le_of_add_right_le hge
    have hmem : poke mem a xs i = mem i := poke_of_outside (.inr hge)
    rw [poke, poke, if_pos hle, if_pos hge, hmem, List.getD_append_right _ _ _ _
      (Nat.le_sub_of_add_le' hge), Nat.sub_sub]

/-- What was written is read back. -/
theorem holds_poke : Holds (poke mem a xs) a xs := by
  refine List.ext_getElem (by simp) fun k hk hk' ↦ ?_
  simp [peek, poke, hk']

theorem holds_append : Holds mem a (xs ++ ys) ↔ Holds mem a xs ∧ Holds mem (a + xs.length) ys := by
  unfold Holds
  rw [List.length_append, peek_add]
  constructor
  · intro h
    exact List.append_inj h length_peek
  · rintro ⟨hxs, hys⟩
    rw [hxs, hys]

theorem holds_cons {x : α} : Holds mem a (x :: xs) ↔ mem a = x ∧ Holds mem (a + 1) xs := by
  have happend : Holds mem a ([x] ++ xs) ↔ Holds mem a [x] ∧ Holds mem (a + 1) xs := holds_append
  rw [List.singleton_append] at happend
  refine happend.trans (and_congr_left fun _ ↦ ?_)
  simp [Holds, peek]

theorem Holds.getElem (h : Holds mem a xs) {k : ℕ} (hk : k < xs.length) : mem (a + k) = xs[k] := by
  have hget : (peek mem a xs.length)[k]? = xs[k]? := congrArg (·[k]?) h
  simpa [peek, hk] using hget

end Wwan.Memory
