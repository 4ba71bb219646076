import Mathlib.Algebra.GroupWithZero.Nat
import Mathlib.Data.List.Flatten
import Wwan.Lib.Bytes
import Wwan.Lib.Store

/-!
# Records of type, length and value

A message body that is a sequence of records, each with a type byte, a little-endian
16-bit length and a value. A writer stores type, length and value of a record one
after the other; what it copies behind the value (the terminator of a string) is
overwritten by the next record.
-/

namespace Wwan

open Bytes

/-- A record of a message body. -/
structure Tlv where
  type : UInt8
  value : List UInt8
  deriving DecidableEq

namespace Tlv

/-- The size of the type and the length. -/
def hdrSize : ℕ := 3

/-- The bytes of a record. -/
def encode (t : Tlv) : List UInt8 := t.type :: (toLe16 t.value.length ++ t.value)

/-- The bytes of a body. -/
def encodeAll (ts : List Tlv) : List UInt8 := ts.flatMap encode

/-- The size of a record. -/
def size (t : Tlv) : ℕ := hdrSize + t.value.length

/-- The size of a body. -/
def sizeAll (ts : List Tlv) : ℕ := (ts.map size).sum

@[simp] theorem length_encode (t : Tlv) : t.encode.length = t.size := by
  simp only [encode, toLe16, size, hdrSize, List.length_cons, List.length_append, List.length_nil]
  omega

@[simp] theorem length_encodeAll (ts : List Tlv) : (encodeAll ts).length = sizeAll ts := by
  induction ts with
  | nil => rfl
  | cons t ts ih =>
    change (t.encode ++ encodeAll ts).length = t.size + sizeAll ts
    rw [List.length_append, length_encode, ih]

theorem sizeAll_cons (t : Tlv) (ts : List Tlv) : sizeAll (t :: ts) = t.size + sizeAll ts := rfl

theorem length_le_sizeAll (ts : List Tlv) : ts.length ≤ sizeAll ts := by
  induction ts with
  | nil => exact Nat.le_refl 0
  | cons t ts ih =>
    rw [List.length_cons, sizeAll_cons, size, hdrSize]
    omega

/-- The value of the first record of a type. -/
def lookup (type : ℕ) : List Tlv → Option (List UInt8)
  | [] => none
  | t :: ts => if t.type.toNat = type then some t.value else lookup type ts

/-- The records at the beginning of a body, and what is left: too little for a header, or a record
that is longer than the rest. -/
def decodeAll : List UInt8 → List Tlv × List UInt8
  | type :: lo :: hi :: value =>
    if le16 lo hi ≤ value.length then
      let r := decodeAll (value.drop (le16 lo hi))
      (⟨type, value.take (le16 lo hi)⟩ :: r.1, r.2)
    else ([], type :: lo :: hi :: value)
  | rest => ([], rest)
termination_by bytes => bytes.length
decreasing_by
  simp only [List.length_drop, List.length_cons]
  omega

theorem exists_header {bytes : List UInt8} (h : hdrSize ≤ bytes.length) :
    ∃ type lo hi value, bytes = type :: lo :: hi :: value := by
  rw [hdrSize] at h
  rcases bytes with _ | ⟨type, _ | ⟨lo, _ | ⟨hi, value⟩⟩⟩
  · exact absurd h (by decide : ¬ 3 ≤ 0)
  · exact absurd h (by decide : ¬ 3 ≤ 1)
  · exact absurd h (by decide : ¬ 3 ≤ 2)
  · exact ⟨type, lo, hi, value, rfl⟩

/-- No record ends in the body. -/
def Stuck (bytes : List UInt8) : Prop :=
  ∀ type lo hi value, bytes = type :: lo :: hi :: value → value.length < le16 lo hi

/-- Type and length as they stand in a body. -/
theorem encode_eq (t : Tlv) (rest : List UInt8) :
    t.encode ++ rest =
      t.type :: byteOf t.value.length 0 :: byteOf t.value.length 1 :: (t.value ++ rest) := by
  simp [encode, toLe16]

theorem encodeAll_cons (t : Tlv) (ts : List Tlv) : encodeAll (t :: ts) = t.encode ++ encodeAll ts :=
  rfl

/-- A body is its records and what is left. -/
theorem encodeAll_decodeAll (bytes : List UInt8) :
    encodeAll (decodeAll bytes).1 ++ (decodeAll bytes).2 = bytes := by
  fun_induction decodeAll bytes with
  | case1 type lo hi value hle r ih =>
    have hlen : (value.take (le16 lo hi)).length = le16 lo hi := by
      rw [List.length_take, Nat.min_eq_left hle]
    rw [encodeAll_cons, List.append_assoc, ih, encode, hlen, toLe16_le16]
    simp
  | case2 type lo hi value hnot => rfl
  | case3 rest hrest => rfl

theorem stuck_decodeAll (bytes : List UInt8) : Stuck (decodeAll bytes).2 := by
  fun_induction decodeAll bytes with
  | case1 type lo hi value hle r ih => exact ih
  | case2 type lo hi value hnot =>
    rintro _ _ _ _ ⟨⟩
    exact Nat.lt_of_not_le hnot
  | case3 rest hrest =>
    rintro type lo hi value rfl
    exact absurd rfl (hrest type lo hi value)

/-- The records of a body that was encoded, if their lengths fit the field. -/
theorem decodeAll_encodeAll {ts : List Tlv} (h : ∀ t ∈ ts, t.value.length < 65536) :
    decodeAll (encodeAll ts) = (ts, []) := by
  induction ts with
  | nil =>
    rw [show encodeAll [] = [] from rfl, decodeAll]
    rintro _ _ _ _ ⟨⟩
  | cons t ts ih =>
    have hlen := le16_byteOf (h t List.mem_cons_self)
    rw [encodeAll_cons, encode_eq, decodeAll, hlen, if_pos (by simp), List.drop_left,
      List.take_left, ih fun t ht ↦ h t (List.mem_cons_of_mem _ ht)]

/-- Type, length and value are stored, in this order; `tail` is copied with the value. -/
def write (buf : List UInt8) (offset : ℕ) (t : Tlv) (tail : List UInt8) : Option (List UInt8) := do
  let buf ← store buf offset [t.type]
  let buf ← store buf (offset + 1) (toLe16 t.value.length)
  store buf (offset + 3) (t.value ++ tail)

section Write

variable {buf buf' record tail : List UInt8} {offset : ℕ} {t : Tlv}

theorem write_eq_none (h : buf.length < offset + t.size + tail.length) :
    write buf offset t tail = none := by
  unfold write
  cases h₁ : store buf offset [t.type] with
  | none => rfl
  | some buf₁ =>
    cases h₂ : store buf₁ (offset + 1) (toLe16 t.value.length) with
    | none => simp [h₂]
    | some buf₂ =>
      have h₃ : store buf₂ (offset + 3) (t.value ++ tail) = none := by
        apply store_eq_none
        rw [length_of_store h₂, length_of_store h₁, List.length_append]
        simp only [size, hdrSize] at h
        omega
      simp [h₂, h₃]

theorem length_of_write (h : write buf offset t tail = some buf') : buf'.length = buf.length := by
  simp only [write, Option.bind_eq_bind, Option.bind_eq_some_iff] at h
  obtain ⟨buf₁, h₁, buf₂, h₂, h₃⟩ := h
  rw [length_of_store h₃, length_of_store h₂, length_of_store h₁]

/-- A record written behind a prefix of the buffer extends it. -/
theorem write_prefix (t : Tlv) (tail : List UInt8) (hrecord : record <+: buf)
    (hoff : offset = record.length)
    (hfit : offset + t.size + tail.length ≤ buf.length) :
    ∃ buf', write buf offset t tail = some buf' ∧ record ++ t.encode <+: buf' := by
  simp only [size, hdrSize] at hfit
  have hoff₁ : offset + 1 = (record ++ [t.type]).length := by
    rw [List.length_append, hoff]
    rfl
  have hoff₂ : offset + 3 = (record ++ [t.type] ++ toLe16 t.value.length).length := by
    rw [List.length_append, ← hoff₁]
    rfl
  obtain ⟨buf₁, h₁, hpre₁⟩ := store_prefix [t.type] hrecord hoff
    (by rw [List.length_singleton]; omega)
  obtain ⟨buf₂, h₂, hpre₂⟩ := store_prefix (toLe16 t.value.length) hpre₁ hoff₁
    (by rw [length_of_store h₁]; change offset + 1 + 2 ≤ _; omega)
  obtain ⟨buf₃, h₃, hpre₃⟩ := store_prefix (t.value ++ tail) hpre₂ hoff₂
    (by rw [length_of_store h₂, length_of_store h₁, List.length_append]; omega)
  refine ⟨buf₃, by simp [write, h₁, h₂, h₃], List.IsPrefix.trans ?_ hpre₃⟩
  refine ⟨tail, ?_⟩
  simp [encode]

end Write

end Tlv

end Wwan
