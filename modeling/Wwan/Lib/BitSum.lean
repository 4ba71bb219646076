import Mathlib.Algebra.BigOperators.Group.Finset.Basic
import Mathlib.Combinatorics.Colex
import Mathlib.Data.Nat.BitIndices
import Mathlib.Data.Nat.ModEq

/-!
# Sums of powers of two

A set of bits written as a sum. Adding the powers of two of a list gives the set of its entries
if there is no repetition; each repetition adds to the `surplus`, and modulo `2 ^ w` the sum is
that of the set if and only if the surplus is a multiple of `2 ^ w`.
-/

namespace Wwan.BitSum

open Finset

variable {w : ℕ} {l m : List ℕ} {s t : Finset ℕ}

/-- The sum of the powers of two of a list. -/
def weight (l : List ℕ) : ℕ := (l.map (2 ^ ·)).sum

/-- What the repetitions of a list add to its weight. -/
def surplus (l : List ℕ) : ℕ := ∑ i ∈ l.toFinset, (l.count i - 1) * 2 ^ i

/-- The bits below `w`. -/
def Below (w : ℕ) (l : List ℕ) : Prop := ∀ i ∈ l, i < w

theorem weight_eq (l : List ℕ) : weight l = ∑ i ∈ l.toFinset, 2 ^ i + surplus l := by
  unfold weight surplus
  rw [sum_list_map_count, ← sum_add_distrib]
  refine sum_congr rfl fun i hi ↦ ?_
  have hcount : 0 < l.count i := List.count_pos_iff.mpr (List.mem_toFinset.mp hi)
  rw [nsmul_eq_mul, Nat.cast_id, Nat.sub_mul, one_mul]
  exact (Nat.add_sub_of_le (Nat.le_mul_of_pos_left _ hcount)).symm

theorem surplus_eq_zero (h : l.Nodup) : surplus l = 0 := by
  refine sum_eq_zero fun i hi ↦ ?_
  rw [List.count_eq_one_of_mem h (List.mem_toFinset.mp hi), Nat.sub_self, zero_mul]

theorem testBit_sum (s : Finset ℕ) (i : ℕ) : (∑ i ∈ s, 2 ^ i).testBit i ↔ i ∈ s := by
  rw [← Nat.mem_bitIndices, ← List.mem_toFinset, toFinset_bitIndices_sum_two_pow]

theorem mod_weight_eq (h : Below w l) :
    weight l % 2 ^ w = ∑ i ∈ l.toFinset, 2 ^ i ↔ 2 ^ w ∣ surplus l := by
  have hlt : ∑ i ∈ l.toFinset, 2 ^ i < 2 ^ w :=
    Nat.geomSum_lt le_rfl fun i hi ↦ h i (List.mem_toFinset.mp hi)
  rw [weight_eq]
  constructor
  · intro heq
    have hmod : ∑ i ∈ l.toFinset, 2 ^ i + surplus l ≡ ∑ i ∈ l.toFinset, 2 ^ i + 0 [MOD 2 ^ w] :=
      heq.trans (Nat.mod_eq_of_lt hlt).symm
    exact (Nat.modEq_zero_iff_dvd).mp (Nat.ModEq.add_left_cancel' _ hmod)
  · rintro ⟨c, hc⟩
    rw [hc, Nat.add_mul_mod_self_left, Nat.mod_eq_of_lt hlt]

/-- A sum of the powers of two of a list has the list's set as its bits if and only if the
repetitions carry past the last one. -/
theorem testBit_weight (h : Below w l) :
    (∀ i < w, (weight l % 2 ^ w).testBit i ↔ i ∈ l) ↔ 2 ^ w ∣ surplus l := by
  rw [← mod_weight_eq h]
  constructor
  · intro hbits
    refine Nat.eq_of_testBit_eq fun i ↦ ?_
    rw [Bool.eq_iff_iff, testBit_sum, List.mem_toFinset]
    rcases lt_or_ge i w with hi | hi
    · exact hbits i hi
    · have hlow : weight l % 2 ^ w < 2 ^ i :=
        (Nat.mod_lt _ (Nat.two_pow_pos w)).trans_le (Nat.pow_le_pow_right (by omega) hi)
      rw [Nat.testBit_lt_two_pow hlow]
      exact iff_of_false Bool.false_ne_true fun hmem ↦ absurd (h i hmem) (not_lt.mpr hi)
  · intro heq i _
    rw [heq, testBit_sum, List.mem_toFinset]

end Wwan.BitSum
