import Mathlib.Data.List.Infix
import Mathlib.Data.List.TakeWhile
import Wwan.Lib.Bytes
import Wwan.Lib.Memory

/-!
# Text in memory

A string is what a memory holds up to a zero byte. Here are the scans that string functions make
over it, the cutting of tokens by `strsep`, and the numbers that `strtol` and `strtoul` read.
-/

namespace Wwan.Text

open Bytes Memory

variable {mem : ℕ → UInt8} {p : ℕ}

/-! ## Scans -/

/-- `while (c(*p)) p++;` for at most `n` bytes. -/
def skipWhile (mem : ℕ → UInt8) (c : UInt8 → Bool) : ℕ → ℕ → ℕ
  | 0, p => p
  | n + 1, p => if c (mem p) then skipWhile mem c n (p + 1) else p

/-- A scan stops at the first byte that it does not pass. -/
theorem skipWhile_eq {c : UInt8 → Bool} {xs ys : List UInt8} {y : UInt8}
    (h : Holds mem p (xs ++ y :: ys)) (hxs : ∀ x ∈ xs, c x) (hy : c y = false) {n : ℕ}
    (hn : xs.length < n) : skipWhile mem c n p = p + xs.length := by
  induction xs generalizing p n with
  | nil =>
    obtain ⟨n, rfl⟩ := Nat.exists_eq_add_one_of_ne_zero (Nat.ne_of_gt hn)
    have hhead : mem p = y := h.getElem (Nat.zero_lt_succ _)
    rw [skipWhile, hhead, hy]
    rfl
  | cons x xs ih =>
    obtain ⟨n, rfl⟩ := Nat.exists_eq_add_one_of_ne_zero (Nat.ne_of_gt (Nat.zero_lt_of_lt hn))
    have hhead : mem p = x := h.getElem (Nat.zero_lt_succ _)
    have htail : Holds mem (p + 1) (xs ++ y :: ys) := (holds_cons.mp h).2
    rw [skipWhile, hhead, if_pos (hxs x List.mem_cons_self),
      ih htail (fun x' hx' ↦ hxs x' (List.mem_cons_of_mem x hx')) (Nat.lt_of_succ_lt_succ hn),
      List.length_cons, Nat.add_right_comm, Nat.add_assoc]

/-- The string at `p`, if it ends within `n` bytes. -/
def stringAt (mem : ℕ → UInt8) (p n : ℕ) : List UInt8 := (peek mem p n).takeWhile (· ≠ 0)

/-- A string ends at its first zero. -/
theorem stringAt_eq {xs : List UInt8} (h : Holds mem p (xs ++ [0])) (hxs : 0 ∉ xs) {n : ℕ}
    (hn : xs.length < n) : stringAt mem p n = xs := by
  obtain ⟨m, rfl⟩ := Nat.exists_eq_add_of_le hn
  have hlen : (xs ++ [(0 : UInt8)]).length = xs.length.succ := by simp
  rw [stringAt, peek_add, ← hlen, show peek mem p _ = xs ++ [0] from h, List.append_assoc,
    List.takeWhile_append_of_pos, List.singleton_append, List.takeWhile_cons_of_neg,
    List.append_nil]
  · simp
  · intro x hx
    simpa using ne_of_mem_of_not_mem hx hxs

/-- `strstr(s, t) != NULL` -/
def strstr (s t : List UInt8) : Bool := decide (t <:+: s)

theorem strstr_iff {s t : List UInt8} : strstr s t = true ↔ t <:+: s := decide_eq_true_iff

/-! ## Tokens -/

/-- `strsep(&p, delim)` for one delimiter and a string of less than `n` bytes: the token is ended
by a zero in place of the delimiter, and the cursor is left behind it, or nowhere if the string has
none. -/
def strsep (mem : ℕ → UInt8) (p : ℕ) (delim : UInt8) (n : ℕ) : Option ℕ × (ℕ → UInt8) :=
  let q := skipWhile mem (fun b ↦ b ≠ 0 && b ≠ delim) n p
  if mem q = delim then (some (q + 1), poke mem q [0]) else (none, mem)

section Strsep

variable {delim : UInt8} {xs ys : List UInt8} {n : ℕ}

include delim in
private theorem passed (hzero : 0 ∉ xs) (hdelim : delim ∉ xs) :
    ∀ x ∈ xs, (fun b : UInt8 ↦ b ≠ 0 && b ≠ delim) x := by
  intro x hx
  have h₁ := ne_of_mem_of_not_mem hx hzero
  have h₂ := ne_of_mem_of_not_mem hx hdelim
  simp [h₁, h₂]

theorem strsep_delim (h : Holds mem p (xs ++ delim :: ys)) (hzero : 0 ∉ xs) (hdelim : delim ∉ xs)
    (hn : xs.length < n) :
    strsep mem p delim n = (some (p + xs.length + 1), poke mem (p + xs.length) [0]) := by
  have hq := skipWhile_eq h (passed hzero hdelim) (by simp) hn
  have hmem : mem (p + xs.length) = delim := by
    apply (holds_append.mp h).2.getElem (Nat.zero_lt_succ _)
  simp only [strsep, hq, if_pos hmem]

theorem strsep_last (h : Holds mem p (xs ++ 0 :: ys)) (hzero : 0 ∉ xs) (hdelim : delim ∉ xs)
    (hne : delim ≠ 0) (hn : xs.length < n) : strsep mem p delim n = (none, mem) := by
  have hq := skipWhile_eq h (passed hzero hdelim) (by simp) hn
  have hmem : mem (p + xs.length) = 0 := by
    apply (holds_append.mp h).2.getElem (Nat.zero_lt_succ _)
  simp only [strsep, hq, hmem, if_neg hne.symm]

end Strsep

/-- A token that was cut is a string. -/
theorem holds_cut {xs ys : List UInt8} {y : UInt8} (h : Holds mem p (xs ++ y :: ys)) :
    Holds (poke mem (p + xs.length) [0]) p (xs ++ [0]) := by
  apply holds_append.mpr
  constructor
  · exact (peek_poke_of_disjoint (.inl (Nat.le_refl _))).trans (holds_append.mp h).1
  · exact holds_poke

/-- What is behind the delimiter stays. -/
theorem holds_behind {xs ys : List UInt8} {y : UInt8} (h : Holds mem p (xs ++ y :: ys)) :
    Holds (poke mem (p + xs.length) [0]) (p + xs.length + 1) ys := by
  have hrest := holds_cons.mp (holds_append.mp h).2
  exact (peek_poke_of_disjoint (.inr (Nat.le_refl _))).trans hrest.2

/-! ## Numbers -/

/-- `isspace`, in the C locale -/
def isspace (b : UInt8) : Bool := b = 32 || 9 ≤ b && b ≤ 13

/-- The value of a digit or letter; `36` is none. -/
def digitValue (b : UInt8) : ℕ :=
  if 48 ≤ b ∧ b ≤ 57 then b.toNat - 48
  else if 97 ≤ b ∧ b ≤ 122 then b.toNat - 87
  else if 65 ≤ b ∧ b ≤ 90 then b.toNat - 55
  else 36

/-- The number that digits stand for. -/
def numeral (base : ℕ) (digits : List UInt8) : ℕ :=
  digits.foldl (fun acc b ↦ acc * base + digitValue b) 0

/-- The sign in front of a number; without one it is positive. -/
def signOf : List UInt8 → Bool × List UInt8
  | 45 :: text => (true, text)
  | 43 :: text => (false, text)
  | text => (false, text)

/-- `0x` in front of a digit is passed over in base 16. -/
def dropOx (base : ℕ) : List UInt8 → List UInt8
  | 48 :: x :: b :: text =>
    if base = 16 ∧ (x = 120 ∨ x = 88) ∧ digitValue b < 16 then b :: text else 48 :: x :: b :: text
  | text => text

/-- The sign and the magnitude of the number that a text starts with, if it does. -/
def signedNumeral (base : ℕ) (text : List UInt8) : Option (Bool × ℕ) :=
  let (neg, text) := signOf (text.dropWhile isspace)
  let digits := (dropOx base text).takeWhile (digitValue · < base)
  if digits = [] then none else some (neg, numeral base digits)

/-- `strtol`; none is a text that is not converted. -/
def strtol (w : LongWidth) (base : ℕ) (text : List UInt8) : Option ℤ :=
  (signedNumeral base text).map fun (neg, n) ↦
    if neg then max (-(n : ℤ)) (-2 ^ (w.bits - 1)) else min (n : ℤ) (2 ^ (w.bits - 1) - 1)

/-- `strtoul`; none is a text that is not converted. -/
def strtoul (w : LongWidth) (base : ℕ) (text : List UInt8) : Option ℤ :=
  (signedNumeral base text).map fun (neg, n) ↦
    if 2 ^ w.bits ≤ n then 2 ^ w.bits - 1 else if neg then -(n : ℤ) % 2 ^ w.bits else n

/-- A text of digits, behind its sign and `0x`, and with no white space in front of it. -/
theorem signedNumeral_digits {base : ℕ} {text rest digits : List UInt8} {neg : Bool}
    (hspace : text.head?.any isspace = false) (hsign : signOf text = (neg, rest))
    (hox : dropOx base rest = digits) (hdigits : ∀ b ∈ digits, digitValue b < base)
    (hne : digits ≠ []) : signedNumeral base text = some (neg, numeral base digits) := by
  have hdrop : text.dropWhile isspace = text := by
    cases text with
    | nil => rfl
    | cons b text => exact List.dropWhile_cons_of_neg (Bool.not_eq_true _ ▸ hspace)
  have htake : digits.takeWhile (digitValue · < base) = digits := by
    apply List.takeWhile_eq_self_iff.mpr
    intro b hb
    exact decide_eq_true (hdigits b hb)
  simp only [signedNumeral, hdrop, hsign, hox, htake, if_neg hne]

/-- An `int` is read as it is, whatever the width of a `long`. -/
theorem strtol_int {w : LongWidth} {base : ℕ} {text : List UInt8} {neg : Bool} {n : ℕ}
    (h : signedNumeral base text = some (neg, n)) (hlow : -2 ^ 31 ≤ if neg then -(n : ℤ) else n)
    (hhigh : (if neg then -(n : ℤ) else n) < 2 ^ 31) :
    strtol w base text = some (if neg then -(n : ℤ) else n) := by
  have hpow : 2 ^ 31 ≤ 2 ^ (w.bits - 1) :=
    Nat.pow_le_pow_right (by decide) (Nat.le_sub_one_of_lt w.le_bits)
  have hw : (2 : ℤ) ^ 31 ≤ 2 ^ (w.bits - 1) := by exact_mod_cast hpow
  rw [strtol, h, Option.map_some]
  cases neg with
  | false =>
    simp only [Bool.false_eq_true, if_false] at hhigh ⊢
    rw [Int.min_eq_left (by omega)]
  | true =>
    simp only [if_true] at hlow ⊢
    rw [Int.max_eq_left (by omega)]

/-- An `unsigned int` is read as it is, whatever the width of a `long`. -/
theorem strtoul_unsigned {w : LongWidth} {base : ℕ} {text : List UInt8} {n : ℕ}
    (h : signedNumeral base text = some (false, n)) (hn : n < 2 ^ 32) :
    strtoul w base text = some (n : ℤ) := by
  have hw : 2 ^ 32 ≤ 2 ^ w.bits := Nat.pow_le_pow_right (by decide) w.le_bits
  rw [strtoul, h, Option.map_some]
  simp only [if_neg (Nat.not_le.mpr (Nat.lt_of_lt_of_le hn hw)), Bool.false_eq_true, if_false]

end Wwan.Text
