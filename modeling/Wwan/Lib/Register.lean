import Mathlib.Data.Nat.Notation

/-!
# Device registers

A device may ignore a store to one of its registers, so a driver reads the register back. A
register is its value together with what becomes of the stores to it. A field of a register is
set by reading the register, replacing the bits of the field and storing the word.
-/

namespace Wwan.Register

variable {α β : Type*}

/-- A register, with whether the next stores to it take effect. -/
structure Cell (α : Type*) where
  value : α
  takes : ℕ → Bool

namespace Cell

/-- A store of `set` applied to what the register has. -/
def update (set : α → α) (c : Cell α) : Cell α where
  value := if c.takes 0 then set c.value else c.value
  takes := fun k ↦ c.takes (k + 1)

variable {set : α → α} {c : Cell α}

theorem update_of_takes (h : c.takes 0 = true) : (c.update set).value = set c.value := if_pos h

theorem update_of_not_takes (h : ¬ c.takes 0 = true) : (c.update set).value = c.value := if_neg h

/-- What a store leaves as it is can be read as before, whether it takes effect or not. -/
theorem view_update (view : α → β) (h : view (set c.value) = view c.value) :
    view (c.update set).value = view c.value := by
  by_cases ht : c.takes 0 = true
  · rw [update_of_takes ht, h]
  · rw [update_of_not_takes ht]

/-- A store of what is wanted is read back unless it is ignored. -/
theorem holds_update_iff (holds : α → Prop) (h : holds (set c.value)) :
    holds (c.update set).value ↔ c.takes 0 = true ∨ holds c.value := by
  by_cases ht : c.takes 0 = true
  · rw [update_of_takes ht]
    exact iff_of_true h (.inl ht)
  · rw [update_of_not_takes ht]
    exact ⟨.inr, fun hor ↦ hor.resolve_left ht⟩

end Cell

/-! ## The halves of a word -/

section Halves

variable {v x : BitVec 32}

/-- A value of at most 16 bits has no others. -/
theorem getLsbD_of_le (hv : v ≤ 0xFFFF#32) {i : ℕ} (hi : 16 ≤ i) : v.getLsbD i = false := by
  have hlt : v.toNat < 2 ^ 16 := Nat.lt_succ_of_le (BitVec.le_def.mp hv)
  exact Nat.testBit_lt_two_pow (Nat.lt_of_lt_of_le hlt (Nat.pow_le_pow_right Nat.two_pos hi))

/-- The mask of the low half. -/
theorem getLsbD_lowMask {i : ℕ} (hi : i < 32) :
    (0x0000FFFF#32).getLsbD i = decide (i < 16) := by
  revert i
  decide

/-- The mask of the high half. -/
theorem getLsbD_highMask {i : ℕ} (hi : i < 32) :
    (0xFFFF0000#32).getLsbD i = decide (16 ≤ i) := by
  revert i
  decide

/-- The word with its high half replaced. -/
def setHigh (v x : BitVec 32) : BitVec 32 := (x &&& 0x0000FFFF#32) ||| (v <<< 16)

/-- The word with its low half replaced. -/
def setLow (v x : BitVec 32) : BitVec 32 := (x &&& 0xFFFF0000#32) ||| v

theorem high_le (x : BitVec 32) : x >>> 16 ≤ 0xFFFF#32 := by
  rw [BitVec.le_def, BitVec.toNat_ushiftRight, Nat.shiftRight_eq_div_pow]
  exact Nat.le_of_lt_succ (Nat.div_lt_of_lt_mul x.isLt)

theorem low_le (x : BitVec 32) : x &&& 0x0000FFFF#32 ≤ 0xFFFF#32 := by
  rw [BitVec.le_def, BitVec.toNat_and]
  exact Nat.and_le_right

theorem high_setHigh (hv : v ≤ 0xFFFF#32) (x : BitVec 32) : setHigh v x >>> 16 = v := by
  refine BitVec.eq_of_getLsbD_eq fun i hi ↦ ?_
  rw [setHigh, BitVec.getLsbD_ushiftRight, BitVec.getLsbD_or, BitVec.getLsbD_and,
    BitVec.getLsbD_shiftLeft, Nat.add_sub_cancel_left]
  rcases Nat.lt_or_ge i 16 with hlt | hge
  · have hbit : 16 + i < 32 := by omega
    have hnot : ¬ 16 + i < 16 := by omega
    rw [getLsbD_lowMask hbit]
    simp [hbit, hnot]
  · rw [getLsbD_of_le hv hge, BitVec.getLsbD_of_ge 0x0000FFFF#32 _ (by omega)]
    simp

theorem low_setHigh (v x : BitVec 32) : setHigh v x &&& 0x0000FFFF#32 = x &&& 0x0000FFFF#32 := by
  refine BitVec.eq_of_getLsbD_eq fun i hi ↦ ?_
  rw [setHigh, BitVec.getLsbD_and, BitVec.getLsbD_or, BitVec.getLsbD_and,
    BitVec.getLsbD_shiftLeft, getLsbD_lowMask hi]
  rcases Nat.lt_or_ge i 16 with hlt | hge
  · simp [hlt]
  · simp [Nat.not_lt.mpr hge]

/-- Bits of the low half do not matter to the high one. -/
theorem high_or {m : BitVec 32} (h : m >>> 16 = 0#32) (x : BitVec 32) :
    (x ||| m) >>> 16 = x >>> 16 := by
  rw [BitVec.ushiftRight_or_distrib, h, BitVec.or_zero]

/-- A mask that keeps the high half. -/
theorem high_and {m : BitVec 32} (h : m >>> 16 = 0xFFFF#32) (x : BitVec 32) :
    (x &&& m) >>> 16 = x >>> 16 := by
  rw [BitVec.ushiftRight_and_distrib, h]
  refine BitVec.eq_of_getLsbD_eq fun i hi ↦ ?_
  rw [BitVec.getLsbD_and, getLsbD_lowMask hi]
  rcases Nat.lt_or_ge i 16 with hlt | hge
  · rw [decide_eq_true hlt, Bool.and_true]
  · rw [getLsbD_of_le (high_le x) hge, Bool.false_and]

theorem low_setLow (hv : v ≤ 0xFFFF#32) (x : BitVec 32) : setLow v x &&& 0x0000FFFF#32 = v := by
  refine BitVec.eq_of_getLsbD_eq fun i hi ↦ ?_
  rw [setLow, BitVec.getLsbD_and, BitVec.getLsbD_or, BitVec.getLsbD_and, getLsbD_lowMask hi,
    getLsbD_highMask hi]
  rcases Nat.lt_or_ge i 16 with hlt | hge
  · simp [hlt, Nat.not_le.mpr hlt]
  · rw [getLsbD_of_le hv hge]
    simp [Nat.not_lt.mpr hge]

end Halves

/-! ## Other fields -/

section Masks

variable {w : ℕ} {v m : BitVec w}

/-- The bits of a mask are replaced. -/
theorem and_replace (hv : v &&& m = v) (x : BitVec w) : ((x &&& ~~~m) ||| v) &&& m = v := by
  refine BitVec.eq_of_getLsbD_eq fun i hi ↦ ?_
  have hbit := congrArg (BitVec.getLsbD · i) hv
  rw [BitVec.getLsbD_and] at hbit
  rw [BitVec.getLsbD_and, BitVec.getLsbD_or, BitVec.getLsbD_and, BitVec.getLsbD_not]
  cases hm : m.getLsbD i
  · rw [hm, Bool.and_false] at hbit
    rw [Bool.and_false, hbit]
  · simp [hi]

/-- What is read through a mask has no other bits. -/
theorem and_and_self (x m : BitVec w) : x &&& m &&& m = x &&& m := by
  rw [BitVec.and_assoc, BitVec.and_self]

/-- Bits that are set are read as set. -/
theorem or_and_cancel (x m : BitVec w) : (x ||| m) &&& m = m := by
  refine BitVec.eq_of_getLsbD_eq fun i hi ↦ ?_
  rw [BitVec.getLsbD_and, BitVec.getLsbD_or]
  cases m.getLsbD i
  · exact Bool.and_false _
  · rw [Bool.or_true, Bool.and_true]

end Masks

end Wwan.Register
