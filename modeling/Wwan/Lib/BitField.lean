import Mathlib.Data.Nat.Notation

/-!
# Bit-fields of a packed structure

A packed structure is the stream of its bit-fields. A big-endian compiler puts the most
significant bit of the first field into the most significant bit of the first byte, a little-endian
one the least significant bit of the first field into the least significant bit of the first byte.
-/

namespace Wwan.BitField

/-- A bit-field: its width and its value. -/
abbrev Field : Type := Σ w : ℕ, BitVec w

variable {w i j : ℕ}

/-- A bit of the stream that starts with the least significant bit of the first field. -/
def lsbFirst : List Field → ℕ → Bool
  | [], _ => false
  | f :: fs, k => if k < f.1 then f.2.getLsbD k else lsbFirst fs (k - f.1)

/-- A bit of the stream that starts with the most significant bit of the first field. -/
def msbFirst : List Field → ℕ → Bool
  | [], _ => false
  | f :: fs, k => if k < f.1 then f.2.getLsbD (f.1 - 1 - k) else msbFirst fs (k - f.1)

/-- The byte with these bits. -/
def ofBits (f : ℕ → Bool) : BitVec 8 :=
  (BitVec.ofBoolListLE ((List.range 8).map f)).cast (by rw [List.length_map, List.length_range])

/-- A byte of the structure as a little-endian compiler packs it. -/
def lsbByte (fs : List Field) (i : ℕ) : BitVec 8 :=
  ofBits fun j ↦ lsbFirst fs (8 * i + j)

/-- A byte of the structure as a big-endian compiler packs it. -/
def msbByte (fs : List Field) (i : ℕ) : BitVec 8 :=
  ofBits fun j ↦ msbFirst fs (8 * i + (7 - j))

theorem getElem_ofBits (f : ℕ → Bool) (h : j < 8) : (ofBits f)[j] = f j := by
  rw [ofBits, BitVec.getElem_cast, ← BitVec.getLsbD_eq_getElem, BitVec.getLsbD_ofBoolListLE]
  simp [h]

@[simp] theorem getElem_lsbByte (fs : List Field) (i : ℕ) (h : j < 8) :
    (lsbByte fs i)[j] = lsbFirst fs (8 * i + j) := by
  rw [lsbByte, getElem_ofBits]

@[simp] theorem getElem_msbByte (fs : List Field) (i : ℕ) (h : j < 8) :
    (msbByte fs i)[j] = msbFirst fs (8 * i + (7 - j)) := by
  rw [msbByte, getElem_ofBits]

/-- Values without a common bit are added bit by bit. -/
theorem add_eq_or {x y : BitVec w} (h : ∀ (i : ℕ) (hi : i < w), (x[i] && y[i]) = false) :
    x + y = x ||| y := by
  refine BitVec.add_eq_or_of_and_eq_zero x y (BitVec.eq_of_getElem_eq fun i hi ↦ ?_)
  rw [BitVec.getElem_and, BitVec.getElem_zero]
  exact h i hi

/-- A value below `2 ^ k` and one that is shifted by `k` have no common bit. -/
theorem add_shiftLeft_eq_or {x : BitVec w} (y : BitVec w) {k : ℕ}
    (h : ∀ (i : ℕ) (hi : i < w), k ≤ i → x[i] = false) : x + y <<< k = x ||| y <<< k := by
  refine add_eq_or fun i hi ↦ ?_
  rcases Nat.lt_or_ge i k with hlt | hge
  · simp [hlt]
  · rw [h i hi hge, Bool.false_and]

end Wwan.BitField
