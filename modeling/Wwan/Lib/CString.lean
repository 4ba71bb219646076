import Wwan.Lib.Text

/-!
# Strings in a block of memory

A block has so many bytes, and an access outside of it is a fault. `HoldsString` says which string
the block holds at an offset; every byte of the block with a zero behind it in the block is the
start of one.
-/

namespace Wwan.CString

open Memory Text

/-- An access outside of the block. -/
inductive Outside
  | read
  | write
  deriving DecidableEq

variable {size : ℕ} {mem : ℕ → UInt8} {p : ℕ} {t xs ys : List UInt8}

/-! ## Accesses -/

/-- `*p` -/
def load (size : ℕ) (mem : ℕ → UInt8) (p : ℕ) : Except Outside UInt8 :=
  if p < size then .ok (mem p) else .error .read

/-- `memcpy(p, xs, …)` -/
def store (size : ℕ) (mem : ℕ → UInt8) (p : ℕ) (xs : List UInt8) : Except Outside (ℕ → UInt8) :=
  if p + xs.length ≤ size then .ok (poke mem p xs) else .error .write

/-- `while (c(*p)) p++;` -/
def scan (size : ℕ) (mem : ℕ → UInt8) (c : UInt8 → Bool) (p : ℕ) : Except Outside ℕ :=
  let q := skipWhile mem c (size - p) p
  if q < size then .ok q else .error .read

/-- `strcpy` to the start of the block. -/
def strcpy (size : ℕ) (mem : ℕ → UInt8) (s : List UInt8) : Except Outside (ℕ → UInt8) :=
  store size mem 0 (s ++ [0])

/-- `strcat` to the string at the start of the block. -/
def strcat (size : ℕ) (mem : ℕ → UInt8) (s : List UInt8) : Except Outside (ℕ → UInt8) := do
  let q ← scan size mem (· ≠ 0) 0
  store size mem q (s ++ [0])

/-- The block holds a string at `p`. -/
structure HoldsString (size : ℕ) (mem : ℕ → UInt8) (p : ℕ) (t : List UInt8) : Prop where
  holds : Holds mem p (t ++ [0])
  noNul : 0 ∉ t
  inside : p + t.length < size

theorem load_eq (h : p < size) : load size mem p = .ok (mem p) := if_pos h

theorem store_eq (h : p + xs.length ≤ size) : store size mem p xs = .ok (poke mem p xs) := if_pos h

theorem store_eq_error (h : size < p + xs.length) : store size mem p xs = .error .write :=
  if_neg (Nat.not_le.mpr h)

/-- A zero is not lost by writing another. -/
theorem poke_nul_eq {q : ℕ} (h : mem q = 0) : poke mem p [0] q = 0 := by
  by_cases hpq : p = q
  · have hholds : Holds (poke mem p [0]) p [0] := holds_poke
    rw [← hpq]
    exact (holds_cons.mp hholds).1
  · refine (poke_of_outside ?_).trans h
    rw [List.length_singleton]
    omega

/-- A scan that stops inside. -/
theorem scan_eq {c : UInt8 → Bool} {y : UInt8} (h : Holds mem p (xs ++ y :: ys))
    (hxs : ∀ x ∈ xs, c x) (hy : c y = false) (hinside : p + xs.length < size) :
    scan size mem c p = .ok (p + xs.length) := by
  have hq : skipWhile mem c (size - p) p = p + xs.length := skipWhile_eq h hxs hy (by omega)
  simp only [scan, hq, if_pos hinside]

/-! ## The string at an offset -/

/-- A string reaches to the next zero. -/
theorem exists_holdsString {q : ℕ} (hq : mem q = 0) (hpq : p ≤ q) (hinside : q < size) :
    ∃ t, HoldsString size mem p t := by
  obtain ⟨n, rfl⟩ := Nat.exists_eq_add_of_le hpq
  clear hpq
  induction n generalizing p with
  | zero => exact ⟨[], holds_cons.mpr ⟨hq, rfl⟩, List.not_mem_nil, hinside⟩
  | succ n ih =>
    by_cases hzero : mem p = 0
    · refine ⟨[], holds_cons.mpr ⟨hzero, rfl⟩, List.not_mem_nil, ?_⟩
      rw [List.length_nil]
      omega
    · rw [Nat.add_comm n 1, ← Nat.add_assoc] at hq hinside
      obtain ⟨t, ht⟩ := ih hq hinside
      refine ⟨mem p :: t, holds_cons.mpr ⟨rfl, ht.holds⟩, ?_, ?_⟩
      · intro hmem
        rcases List.mem_cons.mp hmem with heq | hmem
        · exact hzero heq.symm
        · exact ht.noNul hmem
      · rw [List.length_cons, Nat.add_comm t.length 1, ← Nat.add_assoc]
        exact ht.inside

namespace HoldsString

section Held

variable (h : HoldsString size mem p t)

include h

theorem stringAt : Text.stringAt mem p (size - p) = t :=
  stringAt_eq h.holds h.noNul (Nat.lt_sub_iff_add_lt'.mpr h.inside)

/-- An offset holds one string. -/
theorem unique {t' : List UInt8} (h' : HoldsString size mem p t') :
    t = t' := h.stringAt.symm.trans h'.stringAt

theorem lt_size : p < size :=
  Nat.lt_of_le_of_lt (Nat.le_add_right _ _) h.inside

theorem load_head : load size mem p = .ok (t.head?.getD 0) := by
  rw [load_eq h.lt_size]
  cases t with
  | nil => exact congrArg _ (holds_cons.mp h.holds).1
  | cons x t => exact congrArg _ (holds_cons.mp h.holds).1

/-- The zero behind a string. -/
theorem scan_nul : scan size mem (· ≠ 0) p = .ok (p + t.length) := by
  refine scan_eq h.holds ?_ (by decide) h.inside
  intro x hx
  exact decide_eq_true (ne_of_mem_of_not_mem hx h.noNul)

end Held

/-- What is behind the first bytes is a string too. -/
theorem drop (h : HoldsString size mem p (xs ++ ys)) :
    HoldsString size mem (p + xs.length) ys where
  holds := by
    have hholds := h.holds
    rw [List.append_assoc] at hholds
    exact (holds_append.mp hholds).2
  noNul hmem := h.noNul (List.mem_append_right xs hmem)
  inside := by
    have hinside := h.inside
    rwa [List.length_append, ← Nat.add_assoc] at hinside

theorem tail {x : UInt8} (h : HoldsString size mem p (x :: t)) :
    HoldsString size mem (p + 1) t := by
  have hone : HoldsString size mem p ([x] ++ t) := h
  exact hone.drop

/-- A zero in place of a byte ends the string there. -/
theorem cut {y : UInt8} (h : HoldsString size mem p (xs ++ y :: ys)) :
    HoldsString size (poke mem (p + xs.length) [0]) p xs where
  holds := by
    have hholds := h.holds
    rw [List.append_assoc, List.cons_append] at hholds
    exact holds_cut hholds
  noNul hmem := h.noNul (List.mem_append_left _ hmem)
  inside := h.drop.lt_size

/-- What is behind that byte stays. -/
theorem behind {y : UInt8} (h : HoldsString size mem p (xs ++ y :: ys)) :
    HoldsString size (poke mem (p + xs.length) [0]) (p + xs.length + 1) ys where
  holds := by
    have hholds := h.holds
    rw [List.append_assoc, List.cons_append] at hholds
    exact holds_behind hholds
  noNul hmem := h.noNul (List.mem_append_right xs (List.mem_cons_of_mem y hmem))
  inside := by
    have hinside := h.inside
    rw [List.length_append, List.length_cons] at hinside
    omega

variable (h : HoldsString size mem p t)

include h

/-- Bytes are put behind a string, and a zero behind them. -/
theorem append (hxs : 0 ∉ xs) (hinside : p + t.length + xs.length < size) :
    HoldsString size (poke mem (p + t.length) (xs ++ [0])) p (t ++ xs) where
  holds := by
    rw [List.append_assoc]
    refine holds_append.mpr ⟨?_, holds_poke⟩
    exact (peek_poke_of_disjoint (.inl (Nat.le_refl _))).trans (holds_append.mp h.holds).1
  noNul hmem := (List.mem_append.mp hmem).elim h.noNul hxs
  inside := by rwa [List.length_append, ← Nat.add_assoc]

/-- A zero in place of the zero. -/
theorem ended : HoldsString size (poke mem (p + t.length) [0]) p t := by
  have happend := h.append List.not_mem_nil h.inside
  rwa [List.nil_append, List.append_nil] at happend

/-- A string is moved to the start of the block. -/
theorem move : HoldsString size (poke mem 0 (peek mem p (t.length + 1))) 0 t where
  holds := by
    have hpeek : peek mem p (t.length + 1) = t ++ [0] := by
      have hholds : peek mem p (t ++ [0]).length = t ++ [0] := h.holds
      rwa [List.length_append] at hholds
    rw [hpeek]
    exact holds_poke
  noNul := h.noNul
  inside := by
    rw [Nat.zero_add]
    exact Nat.lt_of_le_of_lt (Nat.le_add_left _ _) h.inside

end HoldsString

/-! ## Copies -/

/-- A string is built at the start of the block, or it does not fit. -/
def Builds (size : ℕ) (x : Except Outside (ℕ → UInt8)) (t : List UInt8) : Prop :=
  if t.length < size then ∃ mem, x = .ok mem ∧ HoldsString size mem 0 t else x = .error .write

theorem builds_strcpy (ht : 0 ∉ t) : Builds size (strcpy size mem t) t := by
  unfold Builds
  split
  next h =>
    refine ⟨_, store_eq ?_, holds_poke, ht, ?_⟩
    · rwa [Nat.zero_add, List.length_append]
    · rwa [Nat.zero_add]
  next h =>
    apply store_eq_error
    rw [Nat.zero_add, List.length_append]
    exact Nat.lt_succ_of_le (Nat.not_lt.mp h)

namespace Builds

variable {x : Except Outside (ℕ → UInt8)}

theorem strcat (h : Builds size x t) (hxs : 0 ∉ xs) :
    Builds size (x >>= (CString.strcat size · xs)) (t ++ xs) := by
  unfold Builds at h ⊢
  rw [List.length_append]
  split at h
  next =>
    obtain ⟨mem, rfl, hmem⟩ := h
    have hcat : CString.strcat size mem xs = store size mem (0 + t.length) (xs ++ [0]) := by
      unfold CString.strcat
      rw [hmem.scan_nul]
      rfl
    have hlen : 0 + t.length + (xs ++ [(0 : UInt8)]).length = t.length + xs.length + 1 := by
      rw [Nat.zero_add, List.length_append, ← Nat.add_assoc]
      rfl
    split
    next hfits =>
      refine ⟨_, hcat.trans (store_eq (hlen ▸ hfits)), hmem.append hxs ?_⟩
      rwa [Nat.zero_add]
    next hfits => exact hcat.trans (store_eq_error (hlen ▸ Nat.lt_succ_of_le (Nat.not_lt.mp hfits)))
  next hlong =>
    rw [if_neg fun hfits ↦ hlong (Nat.lt_of_le_of_lt (Nat.le_add_right _ _) hfits), h]
    rfl

theorem ok_iff (h : Builds size x t) : (∃ mem, x = .ok mem) ↔ t.length < size := by
  unfold Builds at h
  split at h
  next hfits =>
    obtain ⟨mem, hx, -⟩ := h
    exact iff_of_true ⟨mem, hx⟩ hfits
  next hlong =>
    refine iff_of_false ?_ hlong
    rintro ⟨mem, hx⟩
    rw [h] at hx
    cases hx

end Builds

end Wwan.CString
