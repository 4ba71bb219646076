import Mathlib.Data.List.Nodup
import Mathlib.Data.List.Perm.Subperm

/-!
# Ids kept in cells

An array of bytes has a cell for each id. The cell of an id in use holds the id, that of a free id
is zero, and zero is no id. The first free id is given out. As a byte does not hold more, this
works while fewer than 255 ids are in use, whatever the size of the array.
-/

namespace Wwan.IdCells

/-- The cell says that the id is in use. -/
def Marked (cells : List UInt8) (id : ℕ) : Prop := cells.getD id 0 ≠ 0

/-- The first id with an empty cell, and zero if there is none. -/
def alloc (cells : List UInt8) : ℕ × List UInt8 :=
  match (List.range' 1 (cells.length - 1)).find? fun id ↦ cells.getD id 0 = 0 with
  | some id => (id, cells.set id (UInt8.ofNat id))
  | none => (0, cells)

/-- The cell of an id is emptied if it holds the id. -/
def free (cells : List UInt8) (id : ℕ) : List UInt8 :=
  if id < cells.length ∧ (cells.getD id 0).toNat = id then cells.set id 0 else cells

/-- The cells say of exactly these ids that they are in use. -/
structure Tracks (cells : List UInt8) (ids : List ℕ) : Prop where
  nodup : ids.Nodup
  inRange : ∀ id ∈ ids, 0 < id ∧ id < cells.length ∧ id < 256
  cell : ∀ id, cells.getD id 0 = if id ∈ ids then UInt8.ofNat id else 0

/-! ## Counting -/

/-- Not all of the first ids are in a shorter list. -/
theorem exists_fresh {ids : List ℕ} {n : ℕ} (hlt : ids.length < n) :
    ∃ id, 0 < id ∧ id ≤ n ∧ id ∉ ids := by
  by_contra hall
  push Not at hall
  have hsub : List.range' 1 n ⊆ ids := by
    intro id hid
    obtain ⟨hpos, hle⟩ := List.mem_range'_1.mp hid
    exact hall id (by omega) (by omega)
  have hle := (List.subperm_of_subset List.nodup_range' hsub).length_le
  rw [List.length_range'] at hle
  omega

/-- Ids without repetition that are as many as there are take them all. -/
theorem mem_of_full {ids : List ℕ} {n : ℕ} (hnodup : ids.Nodup)
    (hrange : ∀ id ∈ ids, 0 < id ∧ id ≤ n) (hfull : n ≤ ids.length) {id : ℕ} (hpos : 0 < id)
    (hle : id ≤ n) : id ∈ ids := by
  have hsub : ids ⊆ List.range' 1 n := by
    intro id hid
    obtain ⟨hpos, hle⟩ := hrange id hid
    exact List.mem_range'_1.mpr (by omega)
  have hperm := (List.subperm_of_subset hnodup hsub).perm_of_length_le (by
    rw [List.length_range']
    exact hfull)
  exact hperm.mem_iff.mpr (List.mem_range'_1.mpr (by omega))

/-! ## Operations -/

@[simp] theorem length_free (cells : List UInt8) (id : ℕ) :
    (free cells id).length = cells.length := by
  unfold free
  split
  · exact List.length_set
  · rfl

theorem getD_set (cells : List UInt8) {id : ℕ} (hlt : id < cells.length) (value : UInt8) (i : ℕ) :
    (cells.set id value).getD i 0 = if i = id then value else cells.getD i 0 := by
  rw [List.getD_eq_getElem?_getD, List.getD_eq_getElem?_getD, List.getElem?_set]
  by_cases hi : id = i
  · subst hi
    rw [if_pos rfl, if_pos hlt, if_pos rfl]
    rfl
  · rw [if_neg hi, if_neg (Ne.symm hi)]

/-- Ids below 256 are told from zero. -/
theorem ofNat_ne_zero {id : ℕ} (hpos : 0 < id) (hlt : id < 256) : UInt8.ofNat id ≠ 0 := by
  intro h
  have htoNat := congrArg UInt8.toNat h
  rw [UInt8.toNat_ofNat_of_lt' hlt] at htoNat
  exact Nat.ne_of_gt hpos htoNat

namespace Tracks

variable {cells : List UInt8} {ids : List ℕ}

/-- No id is in use at first. -/
theorem replicate (n : ℕ) : Tracks (List.replicate n 0) [] where
  nodup := List.nodup_nil
  inRange _ h := by cases h
  cell id := by
    rw [if_neg List.not_mem_nil, List.getD_eq_getElem?_getD, List.getElem?_replicate]
    split <;> rfl

variable (h : Tracks cells ids)

include h

theorem perm {ids' : List ℕ} (hperm : ids.Perm ids') : Tracks cells ids' where
  nodup := hperm.nodup_iff.mp h.nodup
  inRange id hid := h.inRange id (hperm.mem_iff.mpr hid)
  cell id := by
    rw [h.cell id]
    simp only [hperm.mem_iff]

/-- The marked ids are those in use. -/
theorem marked_iff (id : ℕ) : Marked cells id ↔ id ∈ ids := by
  rw [Marked, h.cell id]
  constructor
  · intro hne
    by_contra hid
    exact hne (if_neg hid)
  · intro hid
    obtain ⟨hpos, -, hlt⟩ := h.inRange id hid
    rw [if_pos hid]
    exact ofNat_ne_zero hpos hlt

theorem cell_eq_zero_iff (id : ℕ) : cells.getD id 0 = 0 ↔ id ∉ ids :=
  not_iff_not.mp (by
    rw [not_not]
    exact h.marked_iff id)

/-- While there are free ids that a byte can hold, one of them is given out. -/
theorem alloc (hroom : ids.length < cells.length - 1) (hbyte : ids.length < 255) :
    ∃ id, IdCells.alloc cells = (id, cells.set id (UInt8.ofNat id)) ∧
      Tracks (cells.set id (UInt8.ofNat id)) (id :: ids) := by
  have hlt : ids.length < min (cells.length - 1) 255 := by omega
  obtain ⟨free, hpos, hle, hfree⟩ := exists_fresh hlt
  have hfound : ((List.range' 1 (cells.length - 1)).find? fun id ↦ cells.getD id 0 = 0).isSome := by
    rw [List.find?_isSome]
    exact ⟨free, List.mem_range'_1.mpr (by omega),
      decide_eq_true ((h.cell_eq_zero_iff free).mpr hfree)⟩
  obtain ⟨id, hid⟩ := Option.isSome_iff_exists.mp hfound
  obtain ⟨hzero, hmem, hfirst⟩ := List.find?_range'_eq_some.mp hid
  have hnotMem : id ∉ ids := (h.cell_eq_zero_iff id).mp (of_decide_eq_true hzero)
  have hidle : id ≤ free := by
    by_contra hlt
    have hused := hfirst free (by omega) (by omega)
    rw [(h.cell_eq_zero_iff free).mpr hfree] at hused
    exact absurd hused (by decide)
  obtain ⟨hidpos, hidlt⟩ := List.mem_range'_1.mp hmem
  refine ⟨id, ?_, ⟨List.nodup_cons.mpr ⟨hnotMem, h.nodup⟩, ?_, ?_⟩⟩
  · rw [IdCells.alloc, hid]
  · intro i hi
    rw [List.length_set]
    rcases List.mem_cons.mp hi with rfl | hi
    · omega
    · exact h.inRange i hi
  · intro i
    rw [getD_set cells (by omega), h.cell i]
    by_cases hi : i = id
    · rw [if_pos hi, if_pos (by rw [hi]; exact List.mem_cons_self), hi]
    · rw [if_neg hi]
      simp only [List.mem_cons, hi, false_or]

/-- If all ids are in use, none is given out. -/
theorem alloc_full (hfull : cells.length - 1 ≤ ids.length) : IdCells.alloc cells = (0, cells) := by
  have hnone : ((List.range' 1 (cells.length - 1)).find? fun id ↦ cells.getD id 0 = 0) = none := by
    refine List.find?_eq_none.mpr fun id hid hzero ↦ ?_
    obtain ⟨hpos, hlt⟩ := List.mem_range'_1.mp hid
    refine (h.cell_eq_zero_iff id).mp (of_decide_eq_true hzero) (mem_of_full h.nodup ?_ hfull
      (by omega) (by omega))
    intro i hi
    obtain ⟨hipos, hilt, -⟩ := h.inRange i hi
    omega
  rw [IdCells.alloc, hnone]

/-- An id in use is freed. -/
theorem free {id : ℕ} (hid : id ∈ ids) : Tracks (free cells id) (ids.erase id) := by
  obtain ⟨hpos, hlength, hlt⟩ := h.inRange id hid
  have hcell : (cells.getD id 0).toNat = id := by
    rw [h.cell id, if_pos hid, UInt8.toNat_ofNat_of_lt' hlt]
  refine ⟨h.nodup.erase id, ?_, ?_⟩
  · intro i hi
    rw [length_free]
    exact h.inRange i (List.mem_of_mem_erase hi)
  · intro i
    rw [IdCells.free, if_pos ⟨hlength, hcell⟩, getD_set cells hlength, h.cell i]
    by_cases hi : i = id
    · subst hi
      rw [if_pos rfl, if_neg h.nodup.not_mem_erase]
    · rw [if_neg hi]
      simp only [List.mem_erase_of_ne hi]

end Tracks

end Wwan.IdCells
