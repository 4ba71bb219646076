import Mathlib.Data.List.Range
import Mathlib.Data.List.DropRight
import Mathlib.Tactic.IntervalCases
import Wwan.Lib.BitSum
import Wwan.Lib.Numeral

/-!
# Band lists and band masks in `modemband.sh`

`bandstohex` adds a power of two for each band of a list and prints the sum, the bands above 64 in
a second one; `hextobands` prints the bands of the bits that are set. Shell arithmetic is 64-bit
two's complement. What a function echoes is given without the newline behind it, as `$(...)` has
it.
-/

namespace Wwan.Modemband.Bands

open Numeral BitSum

/-! ## Words and arithmetic -/

/-- What separates the fields of an unquoted variable. -/
def blank (c : Char) : Bool := c = ' ' || c = '\t' || c = '\n'

/-- The fields of an unquoted variable. -/
def fields (s : List Char) : List (List Char) := (s.splitOnP blank).filter (· ≠ [])

/-- The constants of `$((...))`, which have the digits of their base. -/
def constant : List Char → BitVec 64
  | '0' :: 'x' :: ds => .ofNat 64 (numeral 16 ds)
  | '0' :: ds => .ofNat 64 (numeral 8 ds)
  | ds => .ofNat 64 (numeral 10 ds)

/-- The value of a variable in `$((...))`. -/
def evaluate : List Char → BitVec 64
  | '-' :: ds => - constant ds
  | ds => constant ds

/-- What `$((...))` expands to. -/
def expansion (x : BitVec 64) : List Char :=
  if x.msb then '-' :: Nat.toDigits 10 (-x).toNat else Nat.toDigits 10 x.toNat

/-- `2 ** $B`, which is an error for a negative exponent. -/
def power (b : BitVec 64) : Option (BitVec 64) :=
  if b.msb then none else some (.twoPow 64 b.toNat)

/-- `printf '%x'`. -/
def hexadecimal (x : BitVec 64) : List Char := Nat.toDigits 16 x.toNat

/-! ## `bandstohex` -/

structure Sums where
  sum : BitVec 64
  hsum : BitVec 64
deriving DecidableEq

/-- The shell takes the number for an octal one, which it is not: an error in `$((...))`. -/
def badOctal (band : List Char) : Bool := band.head? = some '0' && band.any ('8' ≤ ·)

def addBand (s : Sums) (band : List Char) : Option Sums :=
  if band = [] ∨ ¬ band.all Char.isDigit then some s
  else if badOctal band then none
  else if 64 < numeral 10 band then
    (power (evaluate band - 1 - 64)).map fun pow ↦ { s with hsum := s.hsum + pow }
  else (power (evaluate band - 1)).map fun pow ↦ { s with sum := s.sum + pow }

/-- `printf '%x'`, or `printf '%x%016x'` if there is an upper mask. -/
def maskText (s : Sums) : List Char :=
  if s.hsum = 0 then hexadecimal s.sum
  else hexadecimal s.hsum ++ padded 16 (hexadecimal s.sum)

def bandstohex (bands : List Char) : Option (List Char) :=
  ((fields bands).foldlM addBand ⟨0, 0⟩).map maskText

/-! ## `hextobands` -/

/-- One of the two loops: the bands of the bits of `hex`, counted from `off`. -/
def addBands (hex : List Char) (off : ℕ) (bands : List Char) : List Char :=
  (List.range 64).foldl (fun bands b ↦
    let pow := BitVec.twoPow 64 b
    let t := evaluate hex &&& pow
    if expansion t = expansion pow then bands ++ (Nat.toDigits 10 (b + 1 + off) ++ [' '])
    else bands) bands

/-- The upper and the lower mask. `HHEX` is not set for a short one: it keeps its value. -/
def split (hhex hex : List Char) : List Char × List Char :=
  if 18 < hex.length then
    (hex.take (hex.length - 16), '0' :: 'x' :: hex.drop (hex.length - 16))
  else (hhex, hex)

/-- `hextobands` in a shell where `HHEX` is `hhex`. -/
def hextobands (hhex hex : List Char) : List Char :=
  let masks := split hhex hex
  let bands := addBands masks.2 0 []
  if masks.1 = [] then bands else addBands masks.1 64 bands

/-! ## Lists of bands -/

/-- A list of bands as `hextobands` prints it. -/
def printed (l : List ℕ) : List Char := l.flatMap fun b ↦ Nat.toDigits 10 b ++ [' ']

/-- The bands of a list in ascending order, without repetitions. -/
def bandSet (l : List ℕ) : List ℕ := (List.range' 1 128).filter (· ∈ l)

/-- The bits of the bands up to 64. -/
def low (l : List ℕ) : List ℕ := (l.filter (· ≤ 64)).map (· - 1)

/-- The bits of the bands above 64. -/
def high (l : List ℕ) : List ℕ := (l.filter (64 < ·)).map (· - 65)

variable {b n off : ℕ} {l m : List ℕ} {s : Sums} {hex hhex text : List Char}

/-! ## Words and arithmetic: lemmas -/

theorem isDigit_of_mem {c : Char} (h : c ∈ Nat.toDigits 10 n) : c.isDigit :=
  Nat.isDigit_of_mem_toDigits (by decide) le_rfl h

theorem minus_notMem : '-' ∉ Nat.toDigits 10 n :=
  fun h ↦ absurd (isDigit_of_mem h) (by decide)

theorem blank_eq_false {c : Char} (h : c ∈ Nat.toDigits 10 n) : blank c = false := by
  by_contra hc
  have hblank : c = ' ' ∨ c = '\t' ∨ c = '\n' := by
    simpa [blank, or_assoc] using Bool.of_not_eq_false hc
  rcases hblank with rfl | rfl | rfl
  all_goals exact absurd (isDigit_of_mem h) (by decide)

/-- Numbers are compared as the texts they expand to. -/
theorem expansion_injective : Function.Injective expansion := by
  intro x y h
  unfold expansion at h
  split at h <;> split at h
  case isTrue.isTrue =>
    have hneg : -x = -y :=
      BitVec.eq_of_toNat_eq (toDigits_injective (by decide) (by decide) (List.cons.inj h).2)
    exact BitVec.neg_inj.mp hneg
  case isTrue.isFalse => exact absurd (h ▸ List.mem_cons_self) minus_notMem
  case isFalse.isTrue => exact absurd (h.symm ▸ List.mem_cons_self) minus_notMem
  case isFalse.isFalse =>
    exact BitVec.eq_of_toNat_eq (toDigits_injective (by decide) (by decide) h)

theorem evaluate_decimal (hn : n ≠ 0) : evaluate (Nat.toDigits 10 n) = .ofNat 64 n := by
  obtain ⟨c, ds, hds, hc⟩ := head_toDigits (b := 10) (by decide) (by decide) hn
  have hminus : c ≠ '-' := fun h ↦ minus_notMem (n := n) (by rw [hds, h]; exact List.mem_cons_self)
  have hnum : numeral 10 (c :: ds) = n := by
    rw [← hds]
    exact numeral_toDigits (by decide) (by decide) n
  rw [hds]
  unfold evaluate
  split
  next h => exact absurd (List.cons.inj h).1 hminus
  next =>
    unfold constant
    split
    next h => exact absurd (List.cons.inj h).1 hc
    next h => exact absurd (List.cons.inj h).1 hc
    next => rw [hnum]

theorem evaluate_hexadecimal (x : BitVec 64) : evaluate ('0' :: 'x' :: hexadecimal x) = x := by
  have hnum : numeral 16 (hexadecimal x) = x.toNat := numeral_toDigits (by decide) le_rfl _
  calc evaluate ('0' :: 'x' :: hexadecimal x)
    _ = .ofNat 64 (numeral 16 (hexadecimal x)) := rfl
    _ = x := by rw [hnum, BitVec.ofNat_toNat, BitVec.setWidth_eq]

theorem evaluate_padded (x : BitVec 64) :
    evaluate ('0' :: 'x' :: padded 16 (hexadecimal x)) = x := by
  calc evaluate ('0' :: 'x' :: padded 16 (hexadecimal x))
    _ = .ofNat 64 (numeral 16 (padded 16 (hexadecimal x))) := rfl
    _ = evaluate ('0' :: 'x' :: hexadecimal x) := by rw [numeral_padded]; rfl
    _ = x := evaluate_hexadecimal x

theorem length_hexadecimal (x : BitVec 64) : (hexadecimal x).length ≤ 16 :=
  (Nat.length_toDigits_le_iff (by decide) (by decide)).mpr x.isLt

/-- The fields of a printed list are its bands. -/
theorem fields_printed (l : List ℕ) : fields (printed l) = l.map (Nat.toDigits 10) := by
  induction l with
  | nil => rfl
  | cons b l ih =>
    have hblank : blank ' ' = true := by decide
    have hb : (Nat.toDigits 10 b).splitOnP blank = [Nat.toDigits 10 b] :=
      List.splitOnP_eq_singleton fun _ h ↦ blank_eq_false h
    have hne : Nat.toDigits 10 b ≠ [] := Nat.toDigits_ne_nil
    rw [printed, List.flatMap_cons, List.append_assoc, List.singleton_append, fields,
      List.splitOnP_append_cons _ _ hblank, hb, List.singleton_append,
      List.filter_cons_of_pos (by exact decide_eq_true hne), List.map_cons, ← ih]
    rfl

theorem printed_injective : Function.Injective printed := by
  intro l m h
  have hdigits : Function.Injective (Nat.toDigits 10) := toDigits_injective (by decide) (by decide)
  exact List.map_injective_iff.mpr hdigits (by rw [← fields_printed, h, fields_printed])

theorem printed_append (l m : List ℕ) : printed (l ++ m) = printed l ++ printed m :=
  List.flatMap_append

/-! ## `hextobands`: lemmas -/

theorem expansion_and_twoPow (x : BitVec 64) {b : ℕ} (hb : b < 64) :
    expansion (x &&& .twoPow 64 b) = expansion (.twoPow 64 b) ↔ x.getLsbD b := by
  have hpow : BitVec.twoPow 64 b ≠ 0#64 := by
    intro h
    have hbit := congrArg (BitVec.getLsbD · b) h
    simp [hb] at hbit
  rw [expansion_injective.eq_iff, BitVec.and_twoPow]
  split
  next h => exact iff_of_true rfl h
  next h => exact iff_of_false (Ne.symm hpow) h

/-- A loop appends the bands of the bits that are set. -/
theorem addBands_eq (hex : List Char) (off : ℕ) (bands : List Char) :
    addBands hex off bands = bands ++
      printed (((List.range 64).filter (evaluate hex).getLsbD).map (· + 1 + off)) := by
  unfold addBands
  have hrange : ∀ b ∈ List.range 64, b < 64 := fun b ↦ List.mem_range.mp
  generalize List.range 64 = bs at hrange ⊢
  induction bs generalizing bands with
  | nil => exact (List.append_nil bands).symm
  | cons b bs ih =>
    obtain ⟨hb, hbs⟩ := List.forall_mem_cons.mp hrange
    rw [List.foldl_cons, ih _ hbs]
    by_cases h : (evaluate hex).getLsbD b
    · rw [if_pos ((expansion_and_twoPow _ hb).mpr h), List.filter_cons_of_pos h, List.map_cons,
        List.append_assoc]
      rfl
    · rw [if_neg (mt (expansion_and_twoPow _ hb).mp h), List.filter_cons_of_neg h]

/-- The bands of the bits of a lower and an upper mask. -/
def bandsOf (lower upper : ℕ → Bool) : List ℕ :=
  ((List.range 64).filter lower).map (· + 1) ++ ((List.range 64).filter upper).map (· + 65)

theorem addBands_addBands (hex hhex : List Char) :
    addBands hhex 64 (addBands hex 0 []) =
      printed (bandsOf (evaluate hex).getLsbD (evaluate hhex).getLsbD) := by
  rw [addBands_eq, addBands_eq, List.nil_append, ← printed_append]
  rfl

/-- A mask that is short leaves the upper one to an earlier call. -/
theorem hextobands_short (hlen : hex.length ≤ 18) :
    hextobands hhex hex = printed (bandsOf (evaluate hex).getLsbD (evaluate hhex).getLsbD) := by
  rw [← addBands_addBands, hextobands, split, if_neg (not_lt.mpr hlen)]
  rcases eq_or_ne hhex [] with rfl | h
  · have hzero : evaluate [] = 0 := by decide
    rw [if_pos rfl, addBands_eq [] 64, hzero]
    simp [printed]
  · rw [if_neg h]

/-- A mask that is long is cut in front of its last sixteen digits. -/
theorem hextobands_long {upper lower : List Char} (hupper : upper ≠ []) (hlower : lower.length = 16) :
    hextobands hhex ('0' :: 'x' :: upper ++ lower) =
      printed (bandsOf (evaluate ('0' :: 'x' :: lower)).getLsbD
        (evaluate ('0' :: 'x' :: upper)).getLsbD) := by
  have hlen : ('0' :: 'x' :: upper ++ lower).length - 16 = ('0' :: 'x' :: upper).length := by
    rw [List.length_append, hlower, Nat.add_sub_cancel]
  have hlong : 18 < ('0' :: 'x' :: upper ++ lower).length := by
    have := List.length_pos_of_ne_nil hupper
    simp only [List.length_append, List.length_cons, hlower]
    omega
  rw [← addBands_addBands, hextobands, split, if_pos hlong, hlen, List.take_left, List.drop_left,
    if_neg (List.cons_ne_nil _ _)]

/-! ## `bandstohex`: lemmas -/

/-- Masks that `bandstohex` prints are read back, with the upper one of an earlier call if it
prints none. -/
theorem hextobands_maskText (s : Sums) :
    hextobands hhex ('0' :: 'x' :: maskText s) =
      printed (bandsOf s.sum.getLsbD (if s.hsum = 0 then evaluate hhex else s.hsum).getLsbD) := by
  unfold maskText
  split
  next =>
    have hlen : ('0' :: 'x' :: hexadecimal s.sum).length ≤ 18 :=
      Nat.add_le_add_right (length_hexadecimal s.sum) 2
    rw [hextobands_short hlen, evaluate_hexadecimal]
  next =>
    have hpad : (padded 16 (hexadecimal s.sum)).length = 16 :=
      length_padded (length_hexadecimal s.sum)
    have hupper : hexadecimal s.hsum ≠ [] := Nat.toDigits_ne_nil
    rw [← List.cons_append, ← List.cons_append, hextobands_long hupper hpad, evaluate_padded,
      evaluate_hexadecimal]

theorem power_ofNat {b : ℕ} (hb : b < 64) : power (.ofNat 64 b) = some (.twoPow 64 b) := by
  have hnat : (BitVec.ofNat 64 b).toNat = b := by
    rw [BitVec.toNat_ofNat]
    exact Nat.mod_eq_of_lt (by omega)
  have hmsb : (BitVec.ofNat 64 b).msb = false := by
    rw [BitVec.msb_eq_false_iff_two_mul_lt, hnat]
    omega
  rw [power, hmsb, hnat]
  rfl

theorem digits_decimal (b : ℕ) :
    ¬ (Nat.toDigits 10 b = [] ∨ ¬ (Nat.toDigits 10 b).all Char.isDigit) := by
  rw [not_or, not_not, List.all_eq_true]
  exact ⟨Nat.toDigits_ne_nil, fun _ ↦ isDigit_of_mem⟩

theorem badOctal_decimal (hb : b ≠ 0) : ¬ badOctal (Nat.toDigits 10 b) := by
  obtain ⟨c, ds, hds, hc⟩ := head_toDigits (b := 10) (by decide) (by decide) hb
  rw [badOctal, hds, List.head?_cons]
  simp [hc]

theorem addBand_low (h : 1 ≤ b) (h' : b ≤ 64) :
    addBand s (Nat.toDigits 10 b) = some { s with sum := s.sum + .twoPow 64 (b - 1) } := by
  have hsub : BitVec.ofNat 64 b - 1 = .ofNat 64 (b - 1) := by bv_omega
  rw [addBand, if_neg (digits_decimal b), if_neg (badOctal_decimal (by omega)),
    numeral_toDigits (by decide) (by decide), if_neg (by omega), evaluate_decimal (by omega), hsub,
    power_ofNat (by omega)]
  rfl

theorem addBand_high (h : 64 < b) (h' : b ≤ 128) :
    addBand s (Nat.toDigits 10 b) = some { s with hsum := s.hsum + .twoPow 64 (b - 65) } := by
  have hsub : BitVec.ofNat 64 b - 1 - 64 = .ofNat 64 (b - 65) := by bv_omega
  rw [addBand, if_neg (digits_decimal b), if_neg (badOctal_decimal (by omega)),
    numeral_toDigits (by decide) (by decide), if_pos h, evaluate_decimal (by omega), hsub,
    power_ofNat (by omega)]
  rfl

theorem twoPow_eq_ofNat (i : ℕ) : BitVec.twoPow 64 i = .ofNat 64 (2 ^ i) :=
  BitVec.eq_of_toNat_eq (by rw [BitVec.toNat_twoPow, BitVec.toNat_ofNat])

theorem low_cons_of_le (h : b ≤ 64) : low (b :: l) = (b - 1) :: low l := by
  rw [low, List.filter_cons_of_pos (by exact decide_eq_true h), List.map_cons]
  rfl

theorem low_cons_of_lt (h : 64 < b) : low (b :: l) = low l := by
  rw [low, List.filter_cons_of_neg (by simp [h])]
  rfl

theorem high_cons_of_lt (h : 64 < b) : high (b :: l) = (b - 65) :: high l := by
  rw [high, List.filter_cons_of_pos (by exact decide_eq_true h), List.map_cons]
  rfl

theorem high_cons_of_le (h : b ≤ 64) : high (b :: l) = high l := by
  rw [high, List.filter_cons_of_neg (by simp [h])]
  rfl

theorem ofNat_weight_cons (x : BitVec 64) (i : ℕ) (l : List ℕ) :
    x + .twoPow 64 i + .ofNat 64 (weight l) = x + .ofNat 64 (weight (i :: l)) := by
  rw [twoPow_eq_ofNat, BitVec.add_assoc, ← BitVec.ofNat_add]
  rfl

/-- The loop adds up the bands up to 64 and the bands above. -/
theorem foldlM_addBand (hl : ∀ b ∈ l, 1 ≤ b ∧ b ≤ 128) (s : Sums) :
    (l.map (Nat.toDigits 10)).foldlM addBand s =
      some ⟨s.sum + .ofNat 64 (weight (low l)), s.hsum + .ofNat 64 (weight (high l))⟩ := by
  induction l generalizing s with
  | nil => simp [low, high, weight]
  | cons b l ih =>
    obtain ⟨⟨hpos, hle⟩, hl⟩ := List.forall_mem_cons.mp hl
    rw [List.map_cons, List.foldlM_cons]
    rcases le_or_gt b 64 with h | h
    · rw [addBand_low hpos h, Option.bind_eq_bind, Option.bind_some, ih hl, low_cons_of_le h,
        high_cons_of_le h, ofNat_weight_cons]
    · rw [addBand_high h hle, Option.bind_eq_bind, Option.bind_some, ih hl, low_cons_of_lt h,
        high_cons_of_lt h, ofNat_weight_cons]

/-- The sums of a list of bands. -/
def sumsOf (l : List ℕ) : Sums := ⟨.ofNat 64 (weight (low l)), .ofNat 64 (weight (high l))⟩

theorem bandstohex_eq (htext : fields text = l.map (Nat.toDigits 10))
    (hl : ∀ b ∈ l, 1 ≤ b ∧ b ≤ 128) : bandstohex text = some (maskText (sumsOf l)) := by
  have hzero (x : BitVec 64) : 0 + x = x := BitVec.zero_add x
  rw [bandstohex, htext, foldlM_addBand hl, Option.map_some, hzero, hzero]
  rfl

/-! ## Sets of bands -/

theorem mem_bandSet : b ∈ bandSet l ↔ b ∈ l ∧ 1 ≤ b ∧ b ≤ 128 := by
  rw [bandSet, List.mem_filter, List.mem_range'_1, decide_eq_true_iff, and_comm, Nat.lt_succ_iff]

theorem bandSet_nodup (l : List ℕ) : (bandSet l).Nodup := (List.nodup_range' ..).filter _

theorem bandSet_eq (l : List ℕ) : bandSet l = bandsOf (· + 1 ∈ l) (· + 65 ∈ l) := by
  have hrange : List.range' 1 128 =
      (List.range 64).map (· + 1) ++ (List.range 64).map (· + 65) := by decide
  rw [bandSet, hrange, List.filter_append, List.filter_map, List.filter_map]
  rfl

theorem mem_map_filter {p : ℕ → Bool} {i k : ℕ} (hi : i < 64) :
    i + k ∈ ((List.range 64).filter p).map (· + k) ↔ p i := by
  constructor
  · intro h
    obtain ⟨j, hj, heq⟩ := List.mem_map.mp h
    exact Nat.add_right_cancel heq ▸ (List.mem_filter.mp hj).2
  · intro h
    exact List.mem_map_of_mem (List.mem_filter.mpr ⟨List.mem_range.mpr hi, h⟩)

theorem notMem_map_filter {p : ℕ → Bool} {i k : ℕ} (hi : i < k ∨ k + 64 ≤ i) :
    i ∉ ((List.range 64).filter p).map (· + k) := by
  intro h
  obtain ⟨j, hj, rfl⟩ := List.mem_map.mp h
  have hlt := List.mem_range.mp (List.mem_filter.mp hj).1
  omega

section Masks

variable {lower upper lower' upper' : ℕ → Bool} {i : ℕ}

theorem mem_bandsOf_low (hi : i < 64) : i + 1 ∈ bandsOf lower upper ↔ lower i := by
  rw [bandsOf, List.mem_append, mem_map_filter hi]
  exact or_iff_left (notMem_map_filter (.inl (by omega)))

theorem mem_bandsOf_high (hi : i < 64) : i + 65 ∈ bandsOf lower upper ↔ upper i := by
  rw [bandsOf, List.mem_append, mem_map_filter hi]
  exact or_iff_right (notMem_map_filter (.inr (by omega)))

/-- The bands determine the masks. -/
theorem bandsOf_eq_iff : bandsOf lower upper = bandsOf lower' upper' ↔
    (∀ i < 64, lower i ↔ lower' i) ∧ ∀ i < 64, upper i ↔ upper' i := by
  constructor
  · intro h
    constructor
    · intro i hi
      rw [← mem_bandsOf_low hi, h, mem_bandsOf_low hi]
    · intro i hi
      rw [← mem_bandsOf_high hi, h, mem_bandsOf_high hi]
  · rintro ⟨hlower, hupper⟩
    unfold bandsOf
    congr 2
    · exact List.filter_congr fun i hi ↦ Bool.eq_iff_iff.mpr (hlower i (List.mem_range.mp hi))
    · exact List.filter_congr fun i hi ↦ Bool.eq_iff_iff.mpr (hupper i (List.mem_range.mp hi))

end Masks

/-- A mask that `bandstohex` added up shows the bands of a list if and only if the repetitions
carry past its last bit. -/
theorem bits_iff {l : List ℕ} (hl : Below 64 l) :
    (∀ i < 64, (BitVec.ofNat 64 (weight l)).getLsbD i ↔ i ∈ l) ↔ 2 ^ 64 ∣ surplus l := by
  rw [← testBit_weight hl]
  refine forall₂_congr fun i hi ↦ ?_
  rw [BitVec.getLsbD_ofNat, Nat.testBit_mod_two_pow]

theorem mem_low {i : ℕ} (hi : i < 64) (hl : ∀ b ∈ l, 1 ≤ b) : i ∈ low l ↔ i + 1 ∈ l := by
  rw [low, List.mem_map]
  constructor
  · rintro ⟨b, hb, rfl⟩
    have hmem := List.mem_of_mem_filter hb
    rwa [Nat.sub_add_cancel (hl b hmem)]
  · intro h
    exact ⟨i + 1, List.mem_filter.mpr ⟨h, decide_eq_true (by omega)⟩, rfl⟩

theorem mem_high {i : ℕ} : i ∈ high l ↔ i + 65 ∈ l := by
  rw [high, List.mem_map]
  constructor
  · rintro ⟨b, hb, rfl⟩
    obtain ⟨hmem, hlt⟩ := List.mem_filter.mp hb
    rwa [Nat.sub_add_cancel (of_decide_eq_true hlt)]
  · intro h
    exact ⟨i + 65, List.mem_filter.mpr ⟨h, decide_eq_true (by omega)⟩, rfl⟩

theorem below_low (hl : ∀ b ∈ l, 1 ≤ b) : Below 64 (low l) := by
  intro i hi
  obtain ⟨b, hb, rfl⟩ := List.mem_map.mp hi
  obtain ⟨hmem, hle⟩ := List.mem_filter.mp hb
  have hpos := hl b hmem
  have hle := of_decide_eq_true hle
  omega

theorem below_high (hl : ∀ b ∈ l, b ≤ 128) : Below 64 (high l) := by
  intro i hi
  have hle := hl _ (mem_high.mp hi)
  omega

/-! ## The round trip -/

theorem maskText_injective : Function.Injective maskText := by
  intro s t h
  -- in a shell without an upper mask the bands that are read back are those of the two sums
  have hread (s : Sums) : hextobands [] ('0' :: 'x' :: maskText s) =
      printed (bandsOf s.sum.getLsbD s.hsum.getLsbD) := by
    have hzero : evaluate [] = 0 := by decide
    rw [hextobands_maskText, hzero]
    split
    next h => rw [h]
    next => rfl
  have hbands : bandsOf s.sum.getLsbD s.hsum.getLsbD = bandsOf t.sum.getLsbD t.hsum.getLsbD :=
    printed_injective (by rw [← hread, h, hread])
  obtain ⟨hlower, hupper⟩ := bandsOf_eq_iff.mp hbands
  have hsum : s.sum = t.sum :=
    BitVec.eq_of_getLsbD_eq fun i hi ↦ Bool.eq_iff_iff.mpr (hlower i hi)
  have hhsum : s.hsum = t.hsum :=
    BitVec.eq_of_getLsbD_eq fun i hi ↦ Bool.eq_iff_iff.mpr (hupper i hi)
  cases s
  cases t
  exact congrArg₂ Sums.mk hsum hhsum

theorem dvd_surplus (h : l.Nodup) : 2 ^ 64 ∣ surplus l := by
  rw [surplus_eq_zero h]
  exact dvd_zero _

/-- A sum is that of the list's set if and only if the repetitions carry past its last bit. -/
theorem ofNat_weight_eq_iff {m : List ℕ} (hl : Below 64 l) (hm : m.Nodup)
    (hmem : ∀ i < 64, i ∈ m ↔ i ∈ l) (hbelow : Below 64 m) :
    BitVec.ofNat 64 (weight l) = .ofNat 64 (weight m) ↔ 2 ^ 64 ∣ surplus l := by
  have hbits := (bits_iff hbelow).mpr (dvd_surplus hm)
  rw [← bits_iff hl]
  constructor
  · intro h i hi
    rw [h, hbits i hi, hmem i hi]
  · intro h
    refine BitVec.eq_of_getLsbD_eq fun i hi ↦ Bool.eq_iff_iff.mpr ?_
    rw [h i hi, hbits i hi, hmem i hi]

theorem bandSet_range : ∀ b ∈ bandSet l, 1 ≤ b ∧ b ≤ 128 := fun _ hb ↦ (mem_bandSet.mp hb).2

theorem nodup_low (hl : ∀ b ∈ l, 1 ≤ b) (h : l.Nodup) : (low l).Nodup := by
  refine List.Nodup.map_on (fun a ha b hb heq ↦ ?_) (h.filter _)
  have ha := hl a (List.mem_of_mem_filter ha)
  have hb := hl b (List.mem_of_mem_filter hb)
  omega

theorem nodup_high (h : l.Nodup) : (high l).Nodup := by
  refine List.Nodup.map_on (fun a ha b hb heq ↦ ?_) (h.filter _)
  have ha := of_decide_eq_true (List.mem_filter.mp ha).2
  have hb := of_decide_eq_true (List.mem_filter.mp hb).2
  omega

theorem nodup_low_bandSet (l : List ℕ) : (low (bandSet l)).Nodup :=
  nodup_low (fun b hb ↦ (bandSet_range b hb).1) (bandSet_nodup l)

theorem nodup_high_bandSet (l : List ℕ) : (high (bandSet l)).Nodup := nodup_high (bandSet_nodup l)

theorem mem_high_bandSet {i : ℕ} (hi : i < 64) : i ∈ high (bandSet l) ↔ i ∈ high l := by
  rw [mem_high, mem_high, mem_bandSet, and_iff_left (by omega)]

section RoundTrip

variable (hl : ∀ b ∈ l, 1 ≤ b ∧ b ≤ 128)

include hl

theorem mem_low_bandSet {i : ℕ} (hi : i < 64) : i ∈ low (bandSet l) ↔ i ∈ low l := by
  rw [mem_low hi fun b hb ↦ (bandSet_range b hb).1, mem_low hi fun b hb ↦ (hl b hb).1,
    mem_bandSet, and_iff_left (by omega)]

theorem sumsOf_bandSet_iff : sumsOf l = sumsOf (bandSet l) ↔
    2 ^ 64 ∣ surplus (low l) ∧ 2 ^ 64 ∣ surplus (high l) := by
  rw [sumsOf, sumsOf, Sums.mk.injEq]
  refine and_congr ?_ ?_
  · exact ofNat_weight_eq_iff (below_low fun b hb ↦ (hl b hb).1) (nodup_low_bandSet l)
      (fun i hi ↦ mem_low_bandSet hl hi) (below_low fun b hb ↦ (bandSet_range b hb).1)
  · exact ofNat_weight_eq_iff (below_high fun b hb ↦ (hl b hb).2) (nodup_high_bandSet l)
      (fun i hi ↦ mem_high_bandSet hi) (below_high fun b hb ↦ (bandSet_range b hb).2)

/-- `bandstohex` gives the mask of the set if and only if the repetitions carry past the last bit
of either mask. -/
theorem bandstohex_bandSet_iff (htext : fields text = l.map (Nat.toDigits 10)) :
    bandstohex text = bandstohex (printed (bandSet l)) ↔
      2 ^ 64 ∣ surplus (low l) ∧ 2 ^ 64 ∣ surplus (high l) := by
  rw [bandstohex_eq htext hl, bandstohex_eq (fields_printed _) bandSet_range, Option.some_inj,
    maskText_injective.eq_iff, sumsOf_bandSet_iff hl]

/-- The mask of a set is read back unless it leaves an upper mask of an earlier call alone. -/
theorem hextobands_bandSet_iff :
    hextobands hhex ('0' :: 'x' :: maskText (sumsOf (bandSet l))) = printed (bandSet l) ↔
      (∃ b ∈ l, 64 < b) ∨ evaluate hhex = 0 := by
  have hlow : ∀ i < 64, (sumsOf (bandSet l)).sum.getLsbD i ↔ i + 1 ∈ l := by
    intro i hi
    rw [← mem_low hi fun b hb ↦ (hl b hb).1, ← mem_low_bandSet hl hi]
    exact (bits_iff (below_low fun b hb ↦ (bandSet_range b hb).1)).mpr
      (dvd_surplus (nodup_low_bandSet l)) i hi
  have hhigh : ∀ i < 64, (sumsOf (bandSet l)).hsum.getLsbD i ↔ i + 65 ∈ l := by
    intro i hi
    rw [← mem_high, ← mem_high_bandSet hi]
    exact (bits_iff (below_high fun b hb ↦ (bandSet_range b hb).2)).mpr
      (dvd_surplus (nodup_high_bandSet l)) i hi
  rw [hextobands_maskText, bandSet_eq, printed_injective.eq_iff, bandsOf_eq_iff, ← bandSet_eq]
  simp only [decide_eq_true_iff]
  rw [and_iff_right hlow]
  by_cases hsome : ∃ b ∈ l, 64 < b
  · obtain ⟨b, hb, hlt⟩ := id hsome
    have hne : (sumsOf (bandSet l)).hsum ≠ 0 := by
      intro h
      have hbit := (hhigh (b - 65) (by have := (hl b hb).2; omega)).mpr
        (by rwa [Nat.sub_add_cancel hlt])
      rw [h] at hbit
      simp at hbit
    rw [if_neg hne]
    exact iff_of_true hhigh (.inl hsome)
  · have hnone (i : ℕ) : i + 65 ∉ l := fun hi ↦ hsome ⟨i + 65, hi, by omega⟩
    have hzero : (sumsOf (bandSet l)).hsum = 0 :=
      BitVec.eq_of_getLsbD_eq fun i hi ↦ by
        rw [Bool.eq_iff_iff, hhigh i hi]
        exact iff_of_false (hnone i) (by simp)
    rw [if_pos hzero, or_iff_right hsome]
    constructor
    · intro h
      refine BitVec.eq_of_getLsbD_eq fun i hi ↦ ?_
      rw [Bool.eq_iff_iff, h i hi]
      exact iff_of_false (hnone i) (by simp)
    · intro h i _
      rw [h]
      exact iff_of_false (by simp) (hnone i)

end RoundTrip

/-- What `hextobands`, in a shell where `HHEX` is `hhex`, prints for the mask of a text. -/
def roundTrip (hhex text : List Char) : Option (List Char) :=
  (bandstohex text).map fun hex ↦ hextobands hhex ('0' :: 'x' :: hex)

/-- The mask of a list is that of its set and is read back as its set, if and only if the
repetitions carry past the last bit of either mask and no upper mask of an earlier call is left. -/
theorem bands_roundTrip_iff (hhex : List Char) {text : List Char} {l : List ℕ}
    (htext : fields text = l.map (Nat.toDigits 10)) (hl : ∀ b ∈ l, 1 ≤ b ∧ b ≤ 128) :
    roundTrip hhex text = some (printed (bandSet l)) ∧
        bandstohex text = bandstohex (printed (bandSet l)) ↔
      (2 ^ 64 ∣ surplus (low l) ∧ 2 ^ 64 ∣ surplus (high l)) ∧
        ((∃ b ∈ l, 64 < b) ∨ evaluate hhex = 0) := by
  rw [and_comm, bandstohex_bandSet_iff hl htext]
  refine and_congr_right fun hsurplus ↦ ?_
  rw [roundTrip, bandstohex_eq htext hl, (sumsOf_bandSet_iff hl).mpr hsurplus, Option.map_some,
    Option.some_inj, hextobands_bandSet_iff hl]

theorem bands_roundTrip_iff_pair : roundTrip [] "2 65".toList = some (printed (bandSet [2, 65])) ∧
      bandstohex "2 65".toList = bandstohex (printed (bandSet [2, 65])) ↔
    (2 ^ 64 ∣ surplus (low [2, 65]) ∧ 2 ^ 64 ∣ surplus (high [2, 65])) ∧
      ((∃ b ∈ [2, 65], 64 < b) ∨ evaluate [] = 0) :=
  bands_roundTrip_iff [] (by decide) (by decide)

/-- Band 1 given twice is band 2. -/
theorem roundTrip_repeated : ¬ ∀ l : List ℕ, (∀ b ∈ l, 1 ≤ b ∧ b ≤ 128) →
    roundTrip [] (printed l) = some (printed (bandSet l)) := by
  intro h
  exact absurd (h [1, 1] (by decide)) (by decide)

end Wwan.Modemband.Bands
