import Wwan.Lib.Ring

/-!
# The rings of the MHI core

A `struct mhi_ring` is an array of `elements` elements of `el_size` bytes with a
read and a write pointer. The pointers are addresses; they are moved by one
element and go back to `base` at the end of the array. One element always stays
free, so that equal pointers mean an empty ring.

`MhiRing.At r h t` says what the pointers are in terms of counts: `h` elements have
been taken off the ring and `t` have been put on it since it was set up.
-/

namespace Wwan.Mhi

/-- `struct mhi_ring`. -/
structure MhiRing where
  /-- `base`, the address of the array for the host. -/
  base : ℕ
  /-- `iommu_base`, the address of the array for the device. -/
  iommuBase : ℕ
  /-- `el_size`. -/
  elSize : ℕ
  /-- `elements`. -/
  elements : ℕ
  /-- `rp`. -/
  rp : ℕ
  /-- `wp`. -/
  wp : ℕ
  deriving DecidableEq

namespace MhiRing

variable (r : MhiRing)

/-- `len`. -/
def len : ℕ := r.elSize * r.elements

/-- The element after the one at `p`, as every function of the core computes it. -/
def after (p : ℕ) : ℕ := if r.base + r.len ≤ p + r.elSize then r.base else p + r.elSize

/-- The element of the array a pointer designates. -/
def index (p : ℕ) : ℕ := (p - r.base) / r.elSize

/-- The number of elements between the read and the write pointer. -/
def inUse : ℕ := (r.wp + r.len - r.rp) % r.len / r.elSize

end MhiRing

/-- `mhi_add_ring_element`. -/
def mhiAddRingElement (r : MhiRing) : MhiRing := { r with wp := r.after r.wp }

/-- `mhi_del_ring_element`. -/
def mhiDelRingElement (r : MhiRing) : MhiRing := { r with rp := r.after r.rp }

/-- `get_nr_avail_ring_elements`. -/
def getNrAvailRingElements (r : MhiRing) : ℤ :=
  if r.wp < r.rp then (((r.rp - r.wp) / r.elSize : ℕ) : ℤ) - 1
  else (((r.rp - r.base) / r.elSize : ℕ) : ℤ) + (((r.base + r.len - r.wp) / r.elSize : ℕ) - 1)

/-- `mhi_is_ring_full`. -/
def mhiIsRingFull (r : MhiRing) : Bool := r.after r.wp = r.rp

/-- The element after that of a count is that of the next count. -/
theorem MhiRing.after_eq_of_pos {r : MhiRing} (hsize : 0 < r.elSize) (hel : 0 < r.elements)
    (a : ℕ) :
    r.after (r.base + r.elSize * (a % r.elements)) =
      r.base + r.elSize * ((a + 1) % r.elements) := by
  have hmul : r.elSize * (a % r.elements) + r.elSize = r.elSize * (a % r.elements + 1) :=
    (Nat.mul_succ _ _).symm
  have hle : r.base + r.len ≤ r.base + r.elSize * (a % r.elements) + r.elSize ↔
      r.elements ≤ a % r.elements + 1 := by
    rw [Nat.add_assoc, hmul, len, Nat.add_le_add_iff_left]
    exact ⟨fun hle ↦ Nat.le_of_mul_le_mul_left hle hsize, Nat.mul_le_mul_left _⟩
  rw [after, Ring.succ_mod hel, Nat.add_assoc, hmul]
  rw [Nat.add_assoc, hmul] at hle
  by_cases hlast : r.elements ≤ a % r.elements + 1
  · rw [if_pos (hle.mpr hlast), if_pos hlast, Nat.mul_zero, Nat.add_zero]
  · rw [if_neg (fun h ↦ hlast (hle.mp h)), if_neg hlast]

/-- The index of the element of a count. -/
theorem MhiRing.index_eq_of_pos {r : MhiRing} (hsize : 0 < r.elSize) (a : ℕ) :
    r.index (r.base + r.elSize * (a % r.elements)) = a % r.elements := by
  rw [index, Nat.add_sub_cancel_left, Nat.mul_div_cancel_left _ hsize]

/-- The pointers of `r` after `t` elements have been added and `h` of them deleted. -/
structure MhiRing.At (r : MhiRing) (h t : ℕ) : Prop where
  elSize_pos : 0 < r.elSize
  rp_eq : r.rp = r.base + r.elSize * (h % r.elements)
  wp_eq : r.wp = r.base + r.elSize * (t % r.elements)
  le : h ≤ t
  lt : t < h + r.elements

namespace MhiRing.At

variable {r : MhiRing} {h t : ℕ}

theorem elements_pos (hr : r.At h t) : 0 < r.elements := by
  have := hr.le
  have := hr.lt
  omega

theorem after_eq (hr : r.At h t) (a : ℕ) :
    r.after (r.base + r.elSize * (a % r.elements)) =
      r.base + r.elSize * ((a + 1) % r.elements) :=
  after_eq_of_pos hr.elSize_pos hr.elements_pos a

/-- A ring with both pointers at its base is empty. -/
theorem zero (hsize : 0 < r.elSize) (hel : 0 < r.elements) (hrp : r.rp = r.base)
    (hwp : r.wp = r.base) : r.At 0 0 :=
  ⟨hsize, by simp [hrp], by simp [hwp], le_rfl, by omega⟩

variable (hr : r.At h t)

include hr

/-- Elements of different counts are at different addresses. -/
theorem addr_eq_iff {a b : ℕ} (hle : a ≤ b) (hlt : b < a + r.elements) :
    r.base + r.elSize * (a % r.elements) = r.base + r.elSize * (b % r.elements) ↔ a = b := by
  constructor
  · intro heq
    exact Ring.eq_of_mod_eq (Nat.eq_of_mul_eq_mul_left hr.elSize_pos (by omega)) hle hlt
  · rintro rfl
    rfl

/-- The index of an element of the ring. -/
theorem index_eq (a : ℕ) : r.index (r.base + r.elSize * (a % r.elements)) = a % r.elements :=
  index_eq_of_pos hr.elSize_pos a

theorem index_rp : r.index r.rp = h % r.elements := by
  rw [hr.rp_eq, hr.index_eq]

theorem index_wp : r.index r.wp = t % r.elements := by
  rw [hr.wp_eq, hr.index_eq]

/-- Putting an element on a ring that is not full. -/
theorem add (hroom : t + 1 < h + r.elements) : (mhiAddRingElement r).At h (t + 1) :=
  { elSize_pos := hr.elSize_pos
    rp_eq := hr.rp_eq
    wp_eq := by
      rw [mhiAddRingElement, hr.wp_eq]
      exact hr.after_eq t
    le := Nat.le_succ_of_le hr.le
    lt := hroom }

/-- Taking an element off a ring that is not empty. -/
theorem del (hlt : h < t) : (mhiDelRingElement r).At (h + 1) t :=
  { elSize_pos := hr.elSize_pos
    rp_eq := by
      rw [mhiDelRingElement, hr.rp_eq]
      exact hr.after_eq h
    wp_eq := hr.wp_eq
    le := hlt
    lt := by
      have := hr.lt
      rw [mhiDelRingElement]
      dsimp only
      omega }

theorem rp_eq_wp_iff : r.rp = r.wp ↔ h = t := by
  rw [hr.rp_eq, hr.wp_eq]
  exact hr.addr_eq_iff hr.le hr.lt

/-- A ring is full when all elements but one are in use. -/
theorem full_iff : mhiIsRingFull r = true ↔ t + 1 = h + r.elements := by
  have hle := hr.le
  have hlt := hr.lt
  have hmod : (h + r.elements) % r.elements = h % r.elements := Nat.add_mod_right h _
  rw [mhiIsRingFull, decide_eq_true_iff, hr.wp_eq, hr.after_eq, hr.rp_eq, ← hmod]
  exact hr.addr_eq_iff (by omega) (by omega)

theorem inUse_eq : r.inUse = t - h := by
  have hlt := hr.lt
  have hh := Nat.mod_lt h hr.elements_pos
  have hsub : r.wp + r.len - r.rp =
      r.elSize * (t % r.elements + r.elements - h % r.elements) := by
    rw [hr.wp_eq, hr.rp_eq, len, Nat.mul_sub, Nat.mul_add]
    omega
  have hmod : (t % r.elements + r.elements - h % r.elements) % r.elements = t - h := by
    rcases Ring.sub_cases hr.le hr.lt with ⟨hord, heq⟩ | ⟨hord, heq⟩
    · rw [show t % r.elements + r.elements - h % r.elements = t - h + r.elements by omega,
        Nat.add_mod_right, Nat.mod_eq_of_lt (by omega)]
    · rw [show t % r.elements + r.elements - h % r.elements = t - h by omega,
        Nat.mod_eq_of_lt (by omega)]
  rw [inUse, hsub, len, Nat.mul_mod_mul_left, hmod, Nat.mul_div_cancel_left _ hr.elSize_pos]

/-- `get_nr_avail_ring_elements` counts the elements that can still be added. -/
theorem nrAvail_eq : ((t - h : ℕ) : ℤ) + getNrAvailRingElements r = r.elements - 1 := by
  have hle := hr.le
  have hlt := hr.lt
  have hh := Nat.mod_lt h hr.elements_pos
  have ht := Nat.mod_lt t hr.elements_pos
  have hpos := hr.elSize_pos
  rw [getNrAvailRingElements, hr.wp_eq, hr.rp_eq, len]
  rcases Ring.sub_cases hr.le hr.lt with ⟨hord, heq⟩ | ⟨hord, heq⟩
  · have hmul := Nat.mul_le_mul_left r.elSize hord
    have hend : r.base + r.elSize * r.elements - (r.base + r.elSize * (t % r.elements)) =
        r.elSize * (r.elements - t % r.elements) := by
      rw [Nat.mul_sub]
      omega
    rw [if_neg (by omega), Nat.add_sub_cancel_left, hend, Nat.mul_div_cancel_left _ hpos,
      Nat.mul_div_cancel_left _ hpos]
    omega
  · have hmul := Nat.mul_lt_mul_of_pos_left hord hpos
    have hgap : r.base + r.elSize * (h % r.elements) - (r.base + r.elSize * (t % r.elements)) =
        r.elSize * (h % r.elements - t % r.elements) := by
      rw [Nat.mul_sub]
      omega
    rw [if_pos (by omega), hgap, Nat.mul_div_cancel_left _ hpos]
    omega

end MhiRing.At

end Wwan.Mhi
