import Mathlib.Algebra.Order.Group.Nat
import Mathlib.Data.List.Flatten
import Mathlib.Data.List.Infix

/-!
# Aligned records that state their length

A sequence of records, each of which begins with a header of fixed size from which its
length can be read, and each of which starts at a multiple of four. A reader goes from
record to record by the lengths, and stops where what is left cannot be a record.
-/

namespace Wwan

/-- The next multiple of four. -/
def align4 (n : ℕ) : ℕ := (n + 3) / 4 * 4

theorem le_align4 (n : ℕ) : n ≤ align4 n := by
  unfold align4
  omega

@[simp] theorem align4_mod (n : ℕ) : align4 n % 4 = 0 := Nat.mul_mod_left _ _

theorem align4_of_mod {n : ℕ} (h : n % 4 = 0) : align4 n = n := by
  unfold align4
  omega

theorem align4_add {m : ℕ} (h : m % 4 = 0) (n : ℕ) : align4 (m + n) = m + align4 n := by
  unfold align4
  omega

/-- How a record begins: the size of the header, and the length that it states. -/
structure RecordFormat where
  hdrlen : ℕ
  hdrlen_pos : 0 < hdrlen
  len : List UInt8 → ℕ

namespace RecordFormat

variable (fmt : RecordFormat)

/-- A record begins here: the header is there, and so is all that it announces. -/
def Ok (bytes : List UInt8) : Prop :=
  fmt.hdrlen ≤ bytes.length ∧ fmt.hdrlen ≤ fmt.len bytes ∧ fmt.len bytes ≤ bytes.length

instance (bytes : List UInt8) : Decidable (fmt.Ok bytes) := inferInstanceAs (Decidable (_ ∧ _ ∧ _))

/-- What is behind the record. -/
def next (bytes : List UInt8) : List UInt8 := bytes.drop (align4 (fmt.len bytes))

variable {fmt}

theorem length_next_lt {bytes : List UInt8} (h : fmt.Ok bytes) :
    (fmt.next bytes).length < bytes.length := by
  have hpos := fmt.hdrlen_pos
  have hle := le_align4 (fmt.len bytes)
  obtain ⟨hhdr, hlen, -⟩ := h
  rw [next, List.length_drop]
  omega

variable (fmt)

/-- The records from here on. -/
def records (bytes : List UInt8) : List (List UInt8) :=
  if fmt.Ok bytes then bytes.take (fmt.len bytes) :: records (fmt.next bytes) else []
termination_by bytes.length
decreasing_by exact length_next_lt ‹_›

/-- A record with what fills it up. -/
def pad (record : List UInt8) : List UInt8 :=
  record ++ List.replicate (align4 record.length - record.length) 0

/-- The header states the length, whatever follows. -/
structure Valid (record : List UInt8) : Prop where
  hdrlen_le : fmt.hdrlen ≤ record.length
  len_append : ∀ rest, fmt.len (record ++ rest) = record.length

variable {fmt} {record : List UInt8} {bytes : List UInt8}

@[simp] theorem length_pad (record : List UInt8) : (pad record).length = align4 record.length := by
  rw [pad, List.length_append, List.length_replicate]
  exact Nat.add_sub_cancel' (le_align4 _)

theorem pad_of_mod (h : record.length % 4 = 0) : pad record = record := by
  rw [pad, align4_of_mod h, Nat.sub_self]
  exact List.append_nil _

theorem length_flatMap_pad_mod (records : List (List UInt8)) :
    (records.flatMap pad).length % 4 = 0 := by
  induction records with
  | nil => rfl
  | cons record records ih =>
    rw [List.flatMap_cons, List.length_append, length_pad, Nat.add_mod, align4_mod, ih]

theorem records_of_not_ok (h : ¬fmt.Ok bytes) : fmt.records bytes = [] := by
  rw [records, if_neg h]

theorem records_of_ok (h : fmt.Ok bytes) :
    fmt.records bytes = bytes.take (fmt.len bytes) :: fmt.records (fmt.next bytes) := by
  rw [records, if_pos h]

theorem Valid.ok (h : fmt.Valid record) (rest : List UInt8) : fmt.Ok (record ++ rest) := by
  have hle := h.hdrlen_le
  rw [Ok, h.len_append, List.length_append]
  omega

theorem Valid.pad_append (h : fmt.Valid record) (rest : List UInt8) :
    fmt.Ok (pad record ++ rest) ∧
      (pad record ++ rest).take (fmt.len (pad record ++ rest)) = record ∧
      fmt.next (pad record ++ rest) = rest := by
  have happend : pad record ++ rest = record ++
      (List.replicate (align4 record.length - record.length) 0 ++ rest) := List.append_assoc _ _ _
  have hlen : fmt.len (pad record ++ rest) = record.length := by rw [happend, h.len_append]
  refine ⟨happend ▸ h.ok _, ?_, ?_⟩
  · rw [hlen, happend, List.take_left]
  · rw [next, hlen, ← length_pad, List.drop_left]

/-- A reader finds the records that were put one behind the other. -/
theorem records_flatMap_append {rs : List (List UInt8)} (h : ∀ record ∈ rs, fmt.Valid record)
    (rest : List UInt8) : fmt.records (rs.flatMap pad ++ rest) = rs ++ fmt.records rest := by
  induction rs with
  | nil => rfl
  | cons record rs ih =>
    obtain ⟨hok, htake, hnext⟩ :=
      (h record List.mem_cons_self).pad_append (rs.flatMap pad ++ rest)
    rw [List.flatMap_cons, List.append_assoc, records_of_ok hok, htake, hnext,
      ih fun r hr ↦ h r (List.mem_cons_of_mem _ hr)]
    rfl

theorem records_flatMap {rs : List (List UInt8)} (h : ∀ record ∈ rs, fmt.Valid record) :
    fmt.records (rs.flatMap pad) = rs := by
  have hnil : ¬fmt.Ok [] := fun hok ↦ absurd hok.1 (Nat.not_le.mpr fmt.hdrlen_pos)
  have hall := records_flatMap_append h []
  rwa [records_of_not_ok hnil, List.append_nil, List.append_nil] at hall

end RecordFormat

end Wwan
