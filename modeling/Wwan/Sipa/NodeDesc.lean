import Mathlib.Logic.Function.Basic
import Mathlib.Tactic.IntervalCases
import Wwan.Lib.BitField

/-!
# The descriptor codec of the big-endian build

The hardware reads a descriptor as a little-endian compiler packs it. A big-endian build packs the
same fields the other way round and moves them, bit by bit, in `sipa_set_node_desc`;
`sipa_get_node_desc` takes the fields that the driver needs out of a descriptor of the hardware.
-/

namespace Wwan.Sipa.NodeDesc

open BitField

/-- `struct sipa_node_description_tag`. -/
structure SipaNodeDescriptionTag where
  address : BitVec 40
  length : BitVec 20
  offset : BitVec 12
  netId : BitVec 8
  src : BitVec 5
  dst : BitVec 5
  prio : BitVec 3
  bearId : BitVec 7
  intr : BitVec 1
  indx : BitVec 1
  errCode : BitVec 4
  reserved : BitVec 22
deriving DecidableEq

/-- The bit-fields in the order of their declaration. -/
def SipaNodeDescriptionTag.fields (t : SipaNodeDescriptionTag) : List Field :=
  [⟨40, t.address⟩, ⟨20, t.length⟩, ⟨12, t.offset⟩, ⟨8, t.netId⟩, ⟨5, t.src⟩, ⟨5, t.dst⟩,
    ⟨3, t.prio⟩, ⟨7, t.bearId⟩, ⟨1, t.intr⟩, ⟨1, t.indx⟩, ⟨4, t.errCode⟩, ⟨22, t.reserved⟩]

/-- `-EINVAL`. -/
def einval : ℤ := -22

/-! ## The functions -/

/-- The bytes at an address. -/
abbrev Bytes := ℕ → BitVec 8

/-- `a[i] = b`. -/
def put (a : Bytes) (i : ℕ) (b : BitVec 8) : Bytes := Function.update a i b

/-- The stores of `sipa_set_node_desc`. -/
def setFields (dst src : Bytes) : Bytes :=
  -- address
  let dst := put dst 0 (src 4)
  let dst := put dst 1 (src 3)
  let dst := put dst 2 (src 2)
  let dst := put dst 3 (src 1)
  let dst := put dst 4 (src 0)
  -- length
  let dst := put dst 5 ((src 7 >>> 4) + ((src 6 &&& 0x0f) <<< 4))
  let dst := put dst 6 ((src 6 >>> 4) + ((src 5 &&& 0x0f) <<< 4))
  let dst := put dst 7 (src 5 >>> 4)
  -- offset
  let dst := put dst 7 (dst 7 + ((src 8 &&& 0x0f) <<< 4))
  let dst := put dst 8 ((src 7 <<< 4) + (src 8 >>> 4))
  -- netid
  let dst := put dst 9 (src 9)
  -- src
  let dst := put dst 10 ((src 10 &&& 0xf8) >>> 3)
  -- dst
  let dst := put dst 10 (dst 10 + (((src 11 >>> 6) + ((src 10 &&& 0x01) <<< 2)) <<< 5))
  let dst := put dst 11 ((src 10 &&& 0x6) >>> 1)
  -- prio
  let dst := put dst 11 (dst 11 + ((src 11 &&& 0x38) >>> 1))
  -- bear_id
  let dst := put dst 11 (dst 11 + ((src 12 &&& 0x70) <<< 1))
  let dst := put dst 12 (((src 11 &&& 0x7) <<< 1) + (src 12 >>> 7))
  -- intx
  let dst := put dst 12 (dst 12 + ((src 12 &&& 0x8) <<< 1))
  -- indx
  let dst := put dst 12 (dst 12 + ((src 12 &&& 0x4) <<< 3))
  -- err code
  let dst := put dst 12 (dst 12 + (src 13 &&& 0xc0))
  let dst := put dst 13 (src 12 &&& 0x3)
  -- reserved
  let dst := put dst 13 (dst 13 + (src 15 <<< 2))
  let dst := put dst 14 ((src 15 &&& 0x3) + (src 14 <<< 2))
  put dst 15 (((src 13 &&& 0x3f) <<< 2) + ((src 14 &&& 0xc0) >>> 6))

/-- `sipa_set_node_desc`; `none` is a null pointer. -/
def sipaSetNodeDesc (dst src : Option Bytes) : Option Bytes × ℤ :=
  match dst, src with
  | some dst, some src => (some (setFields dst src), 0)
  | dst, _ => (dst, einval)

/-- The assignments of `sipa_get_node_desc`. -/
def getFields (addr : Bytes) (node : SipaNodeDescriptionTag) : SipaNodeDescriptionTag :=
  { node with
    address :=
      let low : BitVec 32 := (addr 0).setWidth 32 + ((addr 1).setWidth 32 <<< 8) +
        ((addr 2).setWidth 32 <<< 16) + ((addr 3).setWidth 32 <<< 24)
      (low.setWidth 64 + ((addr 4).setWidth 64 <<< 32)).setWidth 40
    netId := addr 9
    src := (addr 10 &&& 0x1f).setWidth 5
    errCode := (((addr 12 &&& 0xc0) >>> 6) + ((addr 13 &&& 0x03) <<< 2)).setWidth 4 }

/-- `sipa_get_node_desc`. -/
def sipaGetNodeDesc (addr : Option Bytes) (node : Option SipaNodeDescriptionTag) :
    Option SipaNodeDescriptionTag × ℤ :=
  match addr, node with
  | some addr, some node => (some (getFields addr node), 0)
  | _, node => (node, einval)

/-! ## Sums without carries -/

section Sums

variable (a b c : BitVec 8)

theorem add_low_nibble : (a >>> 4) + ((b &&& 0x0f) <<< 4) = (a >>> 4) ||| ((b &&& 0x0f) <<< 4) := by
  refine add_eq_or fun j hj ↦ ?_
  interval_cases j <;> simp

theorem add_high_nibble : (a <<< 4) + (b >>> 4) = (a <<< 4) ||| (b >>> 4) := by
  refine add_eq_or fun j hj ↦ ?_
  interval_cases j <;> simp

theorem add_dst : ((a &&& 0xf8) >>> 3) + (((b >>> 6) + ((a &&& 0x01) <<< 2)) <<< 5) =
    ((a &&& 0xf8) >>> 3) ||| (((b >>> 6) ||| ((a &&& 0x01) <<< 2)) <<< 5) := by
  have hdst : (b >>> 6) + ((a &&& 0x01) <<< 2) = (b >>> 6) ||| ((a &&& 0x01) <<< 2) := by
    refine add_eq_or fun j hj ↦ ?_
    interval_cases j <;> simp
  rw [hdst]
  refine add_eq_or fun j hj ↦ ?_
  interval_cases j <;> simp

theorem add_bear_id : ((a &&& 0x6) >>> 1) + ((b &&& 0x38) >>> 1) + ((c &&& 0x70) <<< 1) =
    ((a &&& 0x6) >>> 1) ||| ((b &&& 0x38) >>> 1) ||| ((c &&& 0x70) <<< 1) := by
  have hprio : ((a &&& 0x6) >>> 1) + ((b &&& 0x38) >>> 1) =
      ((a &&& 0x6) >>> 1) ||| ((b &&& 0x38) >>> 1) := by
    refine add_eq_or fun j hj ↦ ?_
    interval_cases j <;> simp
  rw [hprio]
  refine add_eq_or fun j hj ↦ ?_
  interval_cases j <;> simp

theorem add_err_code :
    ((a &&& 0x7) <<< 1) + (b >>> 7) + ((b &&& 0x8) <<< 1) + ((b &&& 0x4) <<< 3) + (c &&& 0xc0) =
      ((a &&& 0x7) <<< 1) ||| (b >>> 7) ||| ((b &&& 0x8) <<< 1) ||| ((b &&& 0x4) <<< 3) |||
        (c &&& 0xc0) := by
  have hbear : ((a &&& 0x7) <<< 1) + (b >>> 7) = ((a &&& 0x7) <<< 1) ||| (b >>> 7) := by
    refine add_eq_or fun j hj ↦ ?_
    interval_cases j <;> simp
  have hintr : ((a &&& 0x7) <<< 1 ||| b >>> 7) + ((b &&& 0x8) <<< 1) =
      ((a &&& 0x7) <<< 1) ||| (b >>> 7) ||| ((b &&& 0x8) <<< 1) := by
    refine add_eq_or fun j hj ↦ ?_
    interval_cases j <;> simp
  have hindx : ((a &&& 0x7) <<< 1 ||| b >>> 7 ||| (b &&& 0x8) <<< 1) + ((b &&& 0x4) <<< 3) =
      ((a &&& 0x7) <<< 1) ||| (b >>> 7) ||| ((b &&& 0x8) <<< 1) ||| ((b &&& 0x4) <<< 3) := by
    refine add_eq_or fun j hj ↦ ?_
    interval_cases j <;> simp
  rw [hbear, hintr, hindx]
  refine add_eq_or fun j hj ↦ ?_
  interval_cases j <;> simp

theorem add_two_bits : (a &&& 0x3) + (b <<< 2) = (a &&& 0x3) ||| (b <<< 2) := by
  refine add_eq_or fun j hj ↦ ?_
  interval_cases j <;> simp

theorem add_six_bits : ((a &&& 0x3f) <<< 2) + ((b &&& 0xc0) >>> 6) =
    ((a &&& 0x3f) <<< 2) ||| ((b &&& 0xc0) >>> 6) := by
  refine add_eq_or fun j hj ↦ ?_
  interval_cases j <;> simp

theorem add_err_bits : ((a &&& 0xc0) >>> 6) + ((b &&& 0x03) <<< 2) =
    ((a &&& 0xc0) >>> 6) ||| ((b &&& 0x03) <<< 2) := by
  refine add_eq_or fun j hj ↦ ?_
  interval_cases j <;> simp

theorem add_address (d e : BitVec 8) :
    (a.setWidth 32 + (b.setWidth 32 <<< 8) + (c.setWidth 32 <<< 16) +
        (d.setWidth 32 <<< 24)).setWidth 64 + (e.setWidth 64 <<< 32) =
      (a.setWidth 32 ||| (b.setWidth 32 <<< 8) ||| (c.setWidth 32 <<< 16) |||
        (d.setWidth 32 <<< 24)).setWidth 64 ||| (e.setWidth 64 <<< 32) := by
  have hb : a.setWidth 32 + (b.setWidth 32 <<< 8) = a.setWidth 32 ||| (b.setWidth 32 <<< 8) := by
    refine add_shiftLeft_eq_or _ fun i hi hge ↦ ?_
    simp [BitVec.getLsbD_of_ge a i hge]
  have hc : (a.setWidth 32 ||| (b.setWidth 32 <<< 8)) + (c.setWidth 32 <<< 16) =
      a.setWidth 32 ||| (b.setWidth 32 <<< 8) ||| (c.setWidth 32 <<< 16) := by
    refine add_shiftLeft_eq_or _ fun i hi hge ↦ ?_
    simp [BitVec.getLsbD_of_ge a i (by omega), BitVec.getLsbD_of_ge b (i - 8) (by omega)]
  have hd : (a.setWidth 32 ||| (b.setWidth 32 <<< 8) ||| (c.setWidth 32 <<< 16)) +
      (d.setWidth 32 <<< 24) = a.setWidth 32 ||| (b.setWidth 32 <<< 8) |||
        (c.setWidth 32 <<< 16) ||| (d.setWidth 32 <<< 24) := by
    refine add_shiftLeft_eq_or _ fun i hi hge ↦ ?_
    simp [BitVec.getLsbD_of_ge a i (by omega), BitVec.getLsbD_of_ge b (i - 8) (by omega),
      BitVec.getLsbD_of_ge c (i - 16) (by omega)]
  rw [hb, hc, hd]
  refine add_shiftLeft_eq_or _ fun i hi hge ↦ ?_
  rw [BitVec.getElem_setWidth, BitVec.getLsbD_of_ge _ i hge]

end Sums

/-! ## The bytes of a descriptor -/

/-- The bytes that `sipa_set_node_desc` leaves, bit by bit. -/
def wired (src : Bytes) : Bytes
  | 0 => src 4
  | 1 => src 3
  | 2 => src 2
  | 3 => src 1
  | 4 => src 0
  | 5 => (src 7 >>> 4) ||| ((src 6 &&& 0x0f) <<< 4)
  | 6 => (src 6 >>> 4) ||| ((src 5 &&& 0x0f) <<< 4)
  | 7 => (src 5 >>> 4) ||| ((src 8 &&& 0x0f) <<< 4)
  | 8 => (src 7 <<< 4) ||| (src 8 >>> 4)
  | 9 => src 9
  | 10 => ((src 10 &&& 0xf8) >>> 3) ||| (((src 11 >>> 6) ||| ((src 10 &&& 0x01) <<< 2)) <<< 5)
  | 11 => ((src 10 &&& 0x6) >>> 1) ||| ((src 11 &&& 0x38) >>> 1) ||| ((src 12 &&& 0x70) <<< 1)
  | 12 => ((src 11 &&& 0x7) <<< 1) ||| (src 12 >>> 7) ||| ((src 12 &&& 0x8) <<< 1) |||
      ((src 12 &&& 0x4) <<< 3) ||| (src 13 &&& 0xc0)
  | 13 => (src 12 &&& 0x3) ||| (src 15 <<< 2)
  | 14 => (src 15 &&& 0x3) ||| (src 14 <<< 2)
  | _ => ((src 13 &&& 0x3f) <<< 2) ||| ((src 14 &&& 0xc0) >>> 6)

theorem setFields_eq_wired (dst src : Bytes) : ∀ i < 16, setFields dst src i = wired src i := by
  intro i hi
  interval_cases i
  case «5» => exact add_low_nibble _ _
  case «6» => exact add_low_nibble _ _
  case «7» => exact add_low_nibble _ _
  case «8» => exact add_high_nibble _ _
  case «10» => exact add_dst _ _
  case «11» => exact add_bear_id _ _ _
  case «12» => exact add_err_code _ _ _
  case «13» => exact add_two_bits _ _
  case «14» => exact add_two_bits _ _
  case «15» => exact add_six_bits _ _
  all_goals rfl

/-- Nothing is stored behind the descriptor. -/
theorem setFields_behind (dst src : Bytes) {i : ℕ} (hi : 16 ≤ i) : setFields dst src i = dst i := by
  have hne (k : ℕ) (hk : k < 16) : i ≠ k := by omega
  simp [setFields, put, Function.update, hne]

section Descriptor

variable (t : SipaNodeDescriptionTag)

/-- All bytes but one are those that the hardware reads. -/
theorem wired_msbByte : ∀ i < 16, i ≠ 14 → wired (msbByte t.fields) i = lsbByte t.fields i := by
  intro i hi hne
  refine BitVec.eq_of_getElem_eq fun j hj ↦ ?_
  interval_cases i
  case «14» => exact absurd rfl hne
  all_goals
    interval_cases j <;>
      simp [wired, SipaNodeDescriptionTag.fields, msbFirst, lsbFirst]

/-- The low bits of byte 14 come from the lowest bits of `reserved`. -/
theorem wired_msbByte_reserved : wired (msbByte t.fields) 14 = lsbByte t.fields 14 ↔
    t.reserved[0] = t.reserved[6] ∧ t.reserved[1] = t.reserved[7] := by
  constructor
  · intro h
    have hbit (j : ℕ) (hj : j < 8) : (wired (msbByte t.fields) 14)[j] = (lsbByte t.fields 14)[j] :=
      congrArg (fun b : BitVec 8 ↦ b[j]) h
    have h0 := hbit 0 (by decide)
    have h1 := hbit 1 (by decide)
    simp [wired, SipaNodeDescriptionTag.fields, msbFirst, lsbFirst] at h0 h1
    exact ⟨h0, h1⟩
  · rintro ⟨h0, h1⟩
    refine BitVec.eq_of_getElem_eq fun j hj ↦ ?_
    interval_cases j <;>
      simp [wired, SipaNodeDescriptionTag.fields, msbFirst, lsbFirst, h0, h1]

section GetFields

variable (node : SipaNodeDescriptionTag)

/-- `sipa_get_node_desc` does not read byte 14. -/
theorem getFields_congr {a b : Bytes} (h : ∀ i < 16, i ≠ 14 → a i = b i) :
    getFields a node = getFields b node := by
  simp only [getFields, h 0 (by decide) (by decide), h 1 (by decide) (by decide),
    h 2 (by decide) (by decide), h 3 (by decide) (by decide), h 4 (by decide) (by decide),
    h 9 (by decide) (by decide), h 10 (by decide) (by decide), h 12 (by decide) (by decide),
    h 13 (by decide) (by decide)]

theorem getFields_errCode : (getFields (lsbByte t.fields) node).errCode = t.errCode := by
  rw [getFields, add_err_bits]
  refine BitVec.eq_of_getElem_eq fun j hj ↦ ?_
  interval_cases j <;> simp [SipaNodeDescriptionTag.fields, lsbFirst]

theorem getFields_src : (getFields (lsbByte t.fields) node).src = t.src := by
  refine BitVec.eq_of_getElem_eq fun j hj ↦ ?_
  interval_cases j <;> simp [getFields, SipaNodeDescriptionTag.fields, lsbFirst]

theorem getFields_netId : (getFields (lsbByte t.fields) node).netId = t.netId := by
  refine BitVec.eq_of_getElem_eq fun j hj ↦ ?_
  interval_cases j <;> simp [getFields, SipaNodeDescriptionTag.fields, lsbFirst]

theorem getFields_address : (getFields (lsbByte t.fields) node).address = t.address := by
  dsimp only [getFields]
  rw [add_address]
  refine BitVec.eq_of_getElem_eq fun j hj ↦ ?_
  interval_cases j <;> simp [SipaNodeDescriptionTag.fields, lsbFirst]

/-- What the driver reads of a descriptor is what it has written, whatever is in `reserved`. -/
theorem getFields_setFields (dst : Bytes) :
    getFields (setFields dst (msbByte t.fields)) node = getFields (lsbByte t.fields) node := by
  refine getFields_congr node fun i hi hne ↦ ?_
  rw [setFields_eq_wired dst _ i hi, wired_msbByte t i hi hne]

end GetFields

/-- The bytes are those of the little-endian build if and only if the low bits of `reserved` are
the ones that belong into byte 14. -/
theorem setFields_eq_lsbByte_iff (dst : Bytes) :
    (∀ i < 16, setFields dst (msbByte t.fields) i = lsbByte t.fields i) ↔
      t.reserved[0] = t.reserved[6] ∧ t.reserved[1] = t.reserved[7] := by
  rw [← wired_msbByte_reserved]
  constructor
  · intro h
    rw [← setFields_eq_wired dst _ 14 (by decide)]
    exact h 14 (by decide)
  · intro h i hi
    rw [setFields_eq_wired dst _ i hi]
    rcases eq_or_ne i 14 with rfl | hne
    · exact h
    · exact wired_msbByte t i hi hne

end Descriptor

/-- The codec matches the hardware: the big-endian build stores the bytes of the little-endian one
and nothing behind them, and gets back the fields that it reads. -/
def Matches (dst : Bytes) (node t : SipaNodeDescriptionTag) : Prop :=
  ∃ out got, sipaSetNodeDesc (some dst) (some (msbByte t.fields)) = (some out, 0) ∧
    (∀ i < 16, out i = lsbByte t.fields i) ∧ (∀ i, 16 ≤ i → out i = dst i) ∧
    sipaGetNodeDesc (some out) (some node) = (some got, 0) ∧
    got.address = t.address ∧ got.netId = t.netId ∧ got.src = t.src ∧ got.errCode = t.errCode

/-- The codec matches the hardware if and only if bits 0 and 1 of `reserved` are its bits 6
and 7. -/
theorem nodeDesc_matches_iff (dst : Bytes) (node t : SipaNodeDescriptionTag) :
    Matches dst node t ↔ t.reserved[0] = t.reserved[6] ∧ t.reserved[1] = t.reserved[7] := by
  rw [← setFields_eq_lsbByte_iff t dst]
  constructor
  · rintro ⟨out, got, hset, hbytes, -⟩
    obtain rfl : setFields dst (msbByte t.fields) = out := Option.some.inj (Prod.mk.inj hset).1
    exact hbytes
  · intro hbytes
    refine ⟨_, _, rfl, hbytes, fun i ↦ setFields_behind dst _, rfl, ?_⟩
    rw [getFields_setFields]
    exact ⟨getFields_address t node, getFields_netId t node, getFields_src t node,
      getFields_errCode t node⟩

/-- A descriptor with the lowest bit of `reserved` only. -/
def reservedOne : SipaNodeDescriptionTag := ⟨0, 0, 0, 0, 0, 0, 0, 0, 0, 0, 0, 1⟩

/-- The lowest bit of `reserved` is stored twice. -/
theorem nodeDesc_reserved_one :
    ¬ ∀ (dst : Bytes) (node t : SipaNodeDescriptionTag), Matches dst node t := by
  intro h
  obtain ⟨out, got, hset, hbytes, -⟩ := h (fun _ ↦ 0) reservedOne reservedOne
  obtain rfl : setFields (fun _ ↦ 0) (msbByte reservedOne.fields) = out :=
    Option.some.inj (Prod.mk.inj hset).1
  exact absurd (hbytes 14 (by decide)) (by decide)

end Wwan.Sipa.NodeDesc
