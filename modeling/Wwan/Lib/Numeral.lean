import Mathlib.Data.Nat.Basic
import Mathlib.Tactic.Basic

/-!
# Numerals

A number and its numeral in a base up to sixteen. `Nat.toDigits` writes one, `numeral` reads it,
also behind leading zeros; the numeral of a number that is not zero does not start with one.
-/

namespace Wwan.Numeral

variable {b n k : ℕ}

/-- What a hexadecimal digit is worth; zero for another character. -/
def digitValue (c : Char) : ℕ :=
  if '0' ≤ c ∧ c ≤ '9' then c.toNat - '0'.toNat
  else if 'a' ≤ c ∧ c ≤ 'f' then c.toNat - 'a'.toNat + 10
  else if 'A' ≤ c ∧ c ≤ 'F' then c.toNat - 'A'.toNat + 10
  else 0

/-- The number that digits stand for. -/
def numeral (b : ℕ) (ds : List Char) : ℕ := ds.foldl (fun n c ↦ b * n + digitValue c) 0

/-- Zeros in front of a numeral, up to a width. -/
def padded (k : ℕ) (ds : List Char) : List Char := List.replicate (k - ds.length) '0' ++ ds

theorem digitValue_digitChar : ∀ d < 16, digitValue (Nat.digitChar d) = d := by decide

theorem digitChar_ne_zero : ∀ d < 16, d ≠ 0 → Nat.digitChar d ≠ '0' := by decide

@[simp] theorem numeral_nil : numeral b [] = 0 := rfl

theorem numeral_append_singleton (ds : List Char) (c : Char) :
    numeral b (ds ++ [c]) = b * numeral b ds + digitValue c := by
  rw [numeral, List.foldl_append]
  rfl

theorem numeral_toDigits (hb : 1 < b) (hb' : b ≤ 16) (n : ℕ) :
    numeral b (Nat.toDigits b n) = n := by
  induction n using Nat.strongRecOn with
  | _ n ih =>
    rcases lt_or_ge n b with h | h
    · rw [Nat.toDigits_of_lt_base h]
      exact (numeral_append_singleton [] _).trans
        (by rw [numeral_nil, Nat.mul_zero, Nat.zero_add, digitValue_digitChar n (by omega)])
    · have hmod : n % b < 16 := Nat.lt_of_lt_of_le (Nat.mod_lt n (by omega)) hb'
      rw [Nat.toDigits_of_base_le hb h, numeral_append_singleton,
        ih _ (Nat.div_lt_self (Nat.lt_of_lt_of_le (by omega) h) hb),
        digitValue_digitChar _ hmod]
      exact Nat.div_add_mod n b

theorem toDigits_injective (hb : 1 < b) (hb' : b ≤ 16) : Function.Injective (Nat.toDigits b) :=
  fun m n h ↦ by rw [← numeral_toDigits hb hb' m, h, numeral_toDigits hb hb' n]

theorem numeral_zeros (j : ℕ) (ds : List Char) :
    numeral b (List.replicate j '0' ++ ds) = numeral b ds := by
  have hzero : digitValue '0' = 0 := by decide
  rw [numeral, List.foldl_append]
  congr 1
  induction j with
  | zero => rfl
  | succ j ih =>
    rw [List.replicate_succ, List.foldl_cons, hzero, Nat.mul_zero, Nat.add_zero]
    exact ih

theorem numeral_padded (ds : List Char) : numeral b (padded k ds) = numeral b ds :=
  numeral_zeros _ ds

theorem length_padded {ds : List Char} (h : ds.length ≤ k) : (padded k ds).length = k := by
  rw [padded, List.length_append, List.length_replicate, Nat.sub_add_cancel h]

theorem head_toDigits (hb : 1 < b) (hb' : b ≤ 16) (hn : n ≠ 0) :
    ∃ c ds, Nat.toDigits b n = c :: ds ∧ c ≠ '0' := by
  induction n using Nat.strongRecOn with
  | _ n ih =>
    rcases lt_or_ge n b with h | h
    · exact ⟨_, [], Nat.toDigits_of_lt_base h, digitChar_ne_zero n (by omega) hn⟩
    · have hdiv : n / b ≠ 0 := Nat.ne_of_gt (Nat.div_pos h (by omega))
      obtain ⟨c, ds, hds, hc⟩ := ih _ (Nat.div_lt_self (Nat.pos_of_ne_zero hn) hb) hdiv
      refine ⟨c, ds ++ [Nat.digitChar (n % b)], ?_, hc⟩
      rw [Nat.toDigits_of_base_le hb h, hds, List.cons_append]

end Wwan.Numeral
