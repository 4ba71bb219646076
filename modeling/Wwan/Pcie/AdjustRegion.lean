import Mathlib.Order.Basic
import Wwan.Pcie.EpDevice

/-!
# The region of a mapping

An inbound region of the endpoint matches a whole BAR, so `sprd_ep_dev_adjust_region` moves the
start of a mapping down to a multiple of the BAR size and enlarges it by what it has moved over.
Both lengths are rounded up to pages and added on 64 bits.
-/

namespace Wwan.Pcie

/-! ## Windows -/

/-- Some window of `b` bytes that starts at a multiple of `b` has the `n` bytes at `a`. -/
def FitsWindow (b a n : Nat) : Prop := ∃ w, b ∣ w ∧ w ≤ a ∧ a + n ≤ w + b

section Window

variable {a b n : Nat}

/-- The window of a region is the one that its address is in. -/
theorem fitsWindow_iff (hb : 0 < b) : FitsWindow b a n ↔ a % b + n ≤ b := by
  have hbase := Nat.div_add_mod a b
  constructor
  · rintro ⟨w, ⟨c, rfl⟩, hle, hfits⟩
    have hc : c ≤ a / b := (Nat.le_div_iff_mul_le hb).mpr (Nat.mul_comm b c ▸ hle)
    have hmul : b * c ≤ b * (a / b) := Nat.mul_le_mul_left b hc
    omega
  · intro h
    refine ⟨b * (a / b), Nat.dvd_mul_right b _, Nat.mul_div_le a b, ?_⟩
    omega

end Window

/-! ## Pages -/

/-- A length rounded up to pages, without a bound. -/
def roundUp (x : Nat) : Nat := (x + 4095) / 4096 * 4096

section Pages

variable {x : Nat}

theorem le_roundUp (x : Nat) : x ≤ roundUp x := by
  unfold roundUp
  omega

theorem roundUp_lt (x : Nat) : roundUp x < x + 4096 := by
  unfold roundUp
  omega

theorem roundUp_eq_self (h : 4096 ∣ x) : roundUp x = x := by
  unfold roundUp
  omega

theorem roundUp_le {b : Nat} (hb : 4096 ∣ b) (h : x ≤ b) : roundUp x ≤ b := by
  unfold roundUp
  omega

theorem pageAlign_eq (x : Nat) : pageAlign x = roundUp x % 2 ^ 64 := by
  unfold pageAlign roundUp
  omega

end Pages

/-! ## The adjusted region -/

/-- The bytes of a mapping are in the adjusted region, which a BAR can show. -/
structure Covers (res : Window) (cpuAddr size : Nat) (r : Region) : Prop where
  base : res.size ∣ r.cpuAddr
  address : r.cpuAddr + r.offset = cpuAddr
  inside : r.offset + size ≤ r.size
  shown : r.size ≤ res.size

/-- Every adjusted region covers the mapping, and mappings of whole pages are adjusted if and only
if they fit into a window. -/
def CoversExactly (res : Window) (cpuAddr size : Nat) : Prop :=
  (∀ r, adjustRegion res cpuAddr size = some r → Covers res cpuAddr size r) ∧
    (4096 ∣ cpuAddr → 4096 ∣ size →
      ((adjustRegion res cpuAddr size).isSome ↔ FitsWindow res.size cpuAddr size))

section Adjust

variable {res : Window} {cpuAddr size : Nat} (hpage : 4096 ∣ res.size)
  (hbar : res.size < 2 ^ 64) (hsize : size < 2 ^ 64)

theorem Window.size_pos (res : Window) : 0 < res.size := Nat.succ_pos _

theorem sub_base (res : Window) (cpuAddr : Nat) :
    cpuAddr - cpuAddr / res.size * res.size = cpuAddr % res.size := by
  rw [Nat.mul_comm, Nat.mod_def]

/-- The rounded length is taken modulo `2 ^ 64`. -/
theorem adjustRegion_eq (res : Window) (cpuAddr size : Nat) : adjustRegion res cpuAddr size =
    let total := (roundUp size + roundUp (cpuAddr % res.size)) % 2 ^ 64
    if total > res.size then none
    else some ⟨cpuAddr / res.size * res.size, total, cpuAddr % res.size⟩ := by
  have hsum : (roundUp size % 2 ^ 64 + roundUp (cpuAddr % res.size) % 2 ^ 64) % 2 ^ 64 =
      (roundUp size + roundUp (cpuAddr % res.size)) % 2 ^ 64 := (Nat.add_mod ..).symm
  unfold adjustRegion
  dsimp only
  rw [sub_base, pageAlign_eq, pageAlign_eq, hsum]

/-- Without a wrap the region covers the mapping. -/
theorem covers_of_lt (hlt : roundUp size + roundUp (cpuAddr % res.size) < 2 ^ 64) {r : Region}
    (h : adjustRegion res cpuAddr size = some r) : Covers res cpuAddr size r := by
  have hsum := Nat.mod_eq_of_lt hlt
  rw [adjustRegion_eq, hsum] at h
  dsimp only at h
  split at h
  next => exact absurd h (by simp)
  next hle =>
    obtain rfl := Option.some.inj h
    have hge := le_roundUp size
    have hoffset := le_roundUp (cpuAddr % res.size)
    constructor
    · exact Nat.dvd_mul_left _ _
    · rw [Nat.mul_comm]
      exact Nat.div_add_mod cpuAddr res.size
    · dsimp only
      omega
    · exact Nat.le_of_not_lt hle

include hpage

/-- Without a wrap the mappings of whole pages that fit are adjusted. -/
theorem isSome_iff_of_lt (hlt : roundUp size + roundUp (cpuAddr % res.size) < 2 ^ 64)
    (haddr : 4096 ∣ cpuAddr) (hlen : 4096 ∣ size) :
    (adjustRegion res cpuAddr size).isSome ↔ FitsWindow res.size cpuAddr size := by
  have hoffset : 4096 ∣ cpuAddr % res.size := (Nat.dvd_mod_iff hpage).mpr haddr
  have hsum := Nat.mod_eq_of_lt hlt
  rw [adjustRegion_eq, hsum, fitsWindow_iff res.size_pos, roundUp_eq_self hlen,
    roundUp_eq_self hoffset, Nat.add_comm size]
  dsimp only
  split
  next h => exact iff_of_false (by simp) (Nat.not_le_of_gt h)
  next h => exact iff_of_true rfl (Nat.le_of_not_lt h)

include hbar hsize

/-- After a wrap the region is granted and does not have the mapping. -/
theorem not_covers_of_ge (hge : 2 ^ 64 ≤ roundUp size + roundUp (cpuAddr % res.size)) :
    ∃ r, adjustRegion res cpuAddr size = some r ∧ ¬ Covers res cpuAddr size r := by
  have hmod : cpuAddr % res.size < res.size := Nat.mod_lt _ res.size_pos
  have hoffset : roundUp (cpuAddr % res.size) ≤ res.size := roundUp_le hpage (Nat.le_of_lt hmod)
  have hle : roundUp size ≤ 2 ^ 64 := roundUp_le (by decide) (Nat.le_of_lt hsize)
  have hsum : (roundUp size + roundUp (cpuAddr % res.size)) % 2 ^ 64 =
      roundUp size + roundUp (cpuAddr % res.size) - 2 ^ 64 := by omega
  refine ⟨⟨cpuAddr / res.size * res.size,
    roundUp size + roundUp (cpuAddr % res.size) - 2 ^ 64, cpuAddr % res.size⟩, ?_, ?_⟩
  · rw [adjustRegion_eq, hsum]
    exact if_neg (by omega)
  · intro h
    have hinside := h.inside
    have hlt := roundUp_lt size
    have hlt' := roundUp_lt (cpuAddr % res.size)
    dsimp only at hinside
    omega

end Adjust

/-- The region covers exactly the mapping if and only if the rounded length does not wrap. -/
theorem adjustRegion_coversExactly_iff {res : Window} {cpuAddr size : Nat}
    (hpage : 4096 ∣ res.size) (hbar : res.size < 2 ^ 64) (hsize : size < 2 ^ 64) :
    CoversExactly res cpuAddr size ↔ roundUp size + roundUp (cpuAddr % res.size) < 2 ^ 64 := by
  constructor
  · rintro ⟨hcovers, -⟩
    by_contra hge
    obtain ⟨r, hr, hnot⟩ := not_covers_of_ge hpage hbar hsize (Nat.le_of_not_lt hge)
    exact hnot (hcovers r hr)
  · intro hlt
    constructor
    · intro r hr
      exact covers_of_lt hlt hr
    · exact isSome_iff_of_lt hpage hlt

/-- A BAR of two pages. -/
def twoPages : Window := ⟨8192, 16383, by decide, by decide⟩

theorem adjustRegion_coversExactly_iff_twoPages :
    CoversExactly twoPages 0x1234 0x800 ↔ roundUp 0x800 + roundUp (0x1234 % twoPages.size) < 2 ^ 64 :=
  adjustRegion_coversExactly_iff (by decide) (by decide) (by decide)

/-- All of the address space but a page, from the second page of a window on, is granted with no
length at all. -/
theorem adjustRegion_wraps : ¬ ∀ (res : Window) (cpuAddr size : Nat), (∃ k, res.size = 2 ^ k) →
    4096 ∣ res.size → res.size < 2 ^ 64 → cpuAddr < 2 ^ 64 → size < 2 ^ 64 →
      CoversExactly res cpuAddr size := by
  intro h
  have hexact := h twoPages 4096 (2 ^ 64 - 4096) ⟨13, rfl⟩ (by decide) (by decide) (by decide)
    (by decide)
  have hcovers : Covers twoPages 4096 (2 ^ 64 - 4096) ⟨0, 0, 4096⟩ := hexact.1 _ (by decide)
  exact absurd hcovers.inside (by decide)

end Wwan.Pcie
