import Mathlib.Algebra.Group.Nat.Even

/-!
# Digits in swapped half-bytes

The files of a SIM have two digits in a byte, the first one in the low half. The last high half of
an odd number of digits is filled up with `F`.
-/

namespace Wwan.SwappedDigits

/-- The byte with two halves. -/
def byte (low high : ℕ) : UInt8 := UInt8.ofNat (16 * high + low)

/-- The bytes of digits. -/
def encode : List ℕ → List UInt8
  | [] => []
  | [d] => [byte d 15]
  | d :: e :: ds => byte d e :: encode ds

/-- The halves of a byte, the low one first. -/
def halves (b : UInt8) : List ℕ := [b.toNat % 16, b.toNat / 16]

/-- What fills up the last byte. -/
def filler : List ℕ → List ℕ
  | [] => []
  | [_] => [15]
  | _ :: _ :: ds => filler ds

theorem halves_byte {low high : ℕ} (hlow : low < 16) (hhigh : high < 16) :
    halves (byte low high) = [low, high] := by
  have htoNat : (byte low high).toNat = 16 * high + low := by
    rw [byte, UInt8.toNat_ofNat']
    omega
  rw [halves, htoNat, Nat.mul_add_mod, Nat.mod_eq_of_lt hlow, Nat.mul_add_div (by omega),
    Nat.div_eq_of_lt hlow, Nat.add_zero]

/-- The halves of the bytes are the digits and what fills up. -/
theorem halves_encode (ds : List ℕ) (h : ∀ d ∈ ds, d < 16) :
    (encode ds).flatMap halves = ds ++ filler ds := by
  induction ds using encode.induct with
  | case1 => rfl
  | case2 d =>
    rw [encode, List.flatMap_singleton, halves_byte (h d List.mem_cons_self) (by omega)]
    rfl
  | case3 d e ds ih =>
    obtain ⟨hd, hes⟩ := List.forall_mem_cons.mp h
    obtain ⟨he, hds⟩ := List.forall_mem_cons.mp hes
    rw [encode, List.flatMap_cons, halves_byte hd he, ih hds, filler]
    rfl

theorem filler_eq_nil_iff (ds : List ℕ) : filler ds = [] ↔ Even ds.length := by
  induction ds using encode.induct with
  | case1 => exact iff_of_true rfl Even.zero
  | case2 d => exact iff_of_false (List.cons_ne_nil _ _) Nat.not_even_one
  | case3 d e ds ih =>
    rw [filler, ih, List.length_cons, List.length_cons, Nat.even_add_one, Nat.even_add_one,
      not_not]

end Wwan.SwappedDigits
