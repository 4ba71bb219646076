import Mathlib.Algebra.Order.Floor.Div
import Mathlib.Order.Interval.Finset.Nat

/-!
# The general purpose allocator

The part of the kernel's `genalloc` that the drivers use: a pool with one chunk of memory,
given out in units of `2 ^ order` bytes with a bitmap. A request is rounded up to whole
units, both when it is allocated and when it is freed, so that what is handed back depends on
the size that `gen_pool_free` is told.
-/

namespace Wwan.Kernel

/-- `struct gen_pool` with its only chunk. -/
structure GenPool where
  /-- `min_alloc_order`. -/
  order : ℕ
  /-- `start_addr` of the chunk. -/
  start : ℕ
  /-- The size of the chunk. -/
  size : ℕ
  /-- The bits that are set. -/
  bits : Finset ℕ
  deriving DecidableEq

namespace GenPool

/-- `gen_pool_create` and `gen_pool_add`. -/
def create (order start size : ℕ) : GenPool := ⟨order, start, size, ∅⟩

variable (g : GenPool)

/-- The number of bytes in a unit. -/
def unit : ℕ := 2 ^ g.order

/-- The number of units of a request. -/
def units (size : ℕ) : ℕ := size ⌈/⌉ g.unit

/-- The bits of the units from `i` on. -/
def range (i size : ℕ) : Finset ℕ := Finset.Ico i (i + g.units size)

/-- `gen_pool_first_fit`. -/
def firstFit (size : ℕ) : Option ℕ :=
  (List.range (g.size / g.unit + 1)).find? fun i ↦
    i + g.units size ≤ g.size / g.unit ∧ Disjoint (g.range i size) g.bits

/-- `gen_pool_alloc`: the address, and the pool after the call. -/
def alloc (size : ℕ) : Option (ℕ × GenPool) :=
  if size = 0 then none
  else (g.firstFit size).map fun i ↦
    (g.start + i * g.unit, { g with bits := g.bits ∪ g.range i size })

/-- `gen_pool_free`, unless it ends in `BUG`: the memory is not in the chunk, or not
allocated. -/
def free (addr size : ℕ) : Option GenPool :=
  let i := (addr - g.start) / g.unit
  if g.start ≤ addr ∧ addr + size ≤ g.start + g.size ∧ g.range i size ⊆ g.bits then
    some { g with bits := g.bits \ g.range i size }
  else none

/-- The number of bytes that are allocated. -/
def used : ℕ := g.bits.card * g.unit

variable {g}

theorem unit_pos : 0 < g.unit := Nat.two_pow_pos _

@[simp] theorem card_range (i size : ℕ) : (g.range i size).card = g.units size := by
  simp [range]

theorem units_pos {size : ℕ} (h : 0 < size) : 0 < g.units size := by
  rw [Nat.pos_iff_ne_zero]
  intro hzero
  have := (ceilDiv_le_iff_le_mul unit_pos).mp hzero.le
  omega

/-- What an allocation does. -/
theorem alloc_eq_some {size addr : ℕ} {g' : GenPool} (h : g.alloc size = some (addr, g')) :
    ∃ i, 0 < size ∧ i + g.units size ≤ g.size / g.unit ∧ Disjoint (g.range i size) g.bits ∧
      addr = g.start + i * g.unit ∧ g' = { g with bits := g.bits ∪ g.range i size } := by
  unfold alloc at h
  split at h
  · cases h
  · obtain ⟨i, hi, heq⟩ := Option.map_eq_some_iff.mp h
    have hfound := List.find?_some hi
    obtain ⟨hfit, hfree⟩ := of_decide_eq_true hfound
    cases heq
    exact ⟨i, by omega, hfit, hfree, rfl, rfl⟩

/-- Memory that is allocated can be freed, also if the size is told in another way. -/
theorem free_eq_some {i size : ℕ} (hfit : i + g.units size ≤ g.size / g.unit)
    (hset : g.range i size ⊆ g.bits) :
    g.free (g.start + i * g.unit) size = some { g with bits := g.bits \ g.range i size } := by
  have hindex : (g.start + i * g.unit - g.start) / g.unit = i := by
    rw [Nat.add_sub_cancel_left, Nat.mul_div_cancel _ unit_pos]
  have hend : i * g.unit + size ≤ g.size := by
    calc i * g.unit + size ≤ i * g.unit + g.units size * g.unit := by
          have := (ceilDiv_le_iff_le_mul unit_pos).mp (le_refl (g.units size))
          rw [Nat.mul_comm g.unit] at this
          omega
      _ = (i + g.units size) * g.unit := (Nat.add_mul ..).symm
      _ ≤ g.size / g.unit * g.unit := Nat.mul_le_mul_right _ hfit
      _ ≤ g.size := Nat.div_mul_le_self ..
  unfold free
  dsimp only
  rw [hindex, if_pos ⟨by omega, by omega, hset⟩]

theorem used_union {i size : ℕ} (h : Disjoint (g.range i size) g.bits) :
    GenPool.used { g with bits := g.bits ∪ g.range i size } =
      g.used + g.units size * g.unit := by
  unfold used unit
  dsimp only
  rw [Finset.card_union_of_disjoint h.symm, card_range, Nat.add_mul]

theorem used_sdiff {i size : ℕ} (h : g.range i size ⊆ g.bits) :
    GenPool.used { g with bits := g.bits \ g.range i size } + g.units size * g.unit =
      g.used := by
  have hcard := Finset.card_sdiff_add_card_eq_card h
  rw [card_range] at hcard
  unfold used unit at *
  dsimp only
  rw [← hcard, Nat.add_mul]

end GenPool

end Wwan.Kernel
