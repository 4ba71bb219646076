import Mathlib.Data.Finset.Card

/-!
# Counting the members that hold something

A counter that is raised when a member of a finite set begins to hold something, and lowered
when it ends to, is right if it is the number of members that hold it. The lemmas say how that
number changes with one member, and with the set.
-/

namespace Wwan

variable {ι : Type*} {s : Finset ι} {p q : ι → Bool} {i : ι}

/-- The number of members of `s` of which `p` is true. -/
def tally (s : Finset ι) (p : ι → Bool) : ℕ := (s.filter (p · = true)).card

theorem tally_empty (p : ι → Bool) : tally ∅ p = 0 := rfl

theorem tally_le (s : Finset ι) (p : ι → Bool) : tally s p ≤ s.card := Finset.card_filter_le s _

theorem tally_congr (h : ∀ j ∈ s, p j = q j) : tally s p = tally s q := by
  unfold tally
  rw [Finset.filter_congr fun j hj ↦ by rw [h j hj]]

theorem tally_pos (hi : i ∈ s) (hp : p i = true) : 0 < tally s p :=
  Finset.card_pos.mpr ⟨i, Finset.mem_filter.mpr ⟨hi, hp⟩⟩

/-- Not all members are counted if there is one of which `p` is false. -/
theorem tally_lt (hi : i ∈ s) (hp : p i = false) : tally s p < s.card := by
  refine Finset.card_lt_card (Finset.filter_ssubset.mpr ⟨i, hi, ?_⟩)
  rw [hp]
  exact Bool.false_ne_true

variable [DecidableEq ι]

/-- One member begins to hold what it did not hold. -/
theorem tally_set (hi : i ∈ s) (hp : p i = false) (hq : q i = true)
    (h : ∀ j ∈ s, j ≠ i → q j = p j) : tally s q = tally s p + 1 := by
  have hnot : i ∉ s.filter (p · = true) := by
    intro hmem
    rw [(Finset.mem_filter.mp hmem).2] at hp
    cases hp
  have hinsert : s.filter (q · = true) = insert i (s.filter (p · = true)) := by
    ext j
    rw [Finset.mem_insert, Finset.mem_filter, Finset.mem_filter]
    by_cases hj : j = i
    · rw [hj]
      exact iff_of_true ⟨hi, hq⟩ (.inl rfl)
    · constructor
      · rintro ⟨hs, hqj⟩
        exact .inr ⟨hs, (h j hs hj) ▸ hqj⟩
      · rintro (heq | ⟨hs, hpj⟩)
        · exact absurd heq hj
        · exact ⟨hs, (h j hs hj).trans hpj⟩
  unfold tally
  rw [hinsert, Finset.card_insert_of_notMem hnot]

/-- A new member that holds nothing does not count. -/
theorem tally_insert (hq : q i = false) (h : ∀ j ∈ s, q j = p j) :
    tally (insert i s) q = tally s p := by
  rw [← tally_congr h]
  unfold tally
  rw [Finset.filter_insert, if_neg (by rw [hq]; exact Bool.false_ne_true)]

/-- A member that holds nothing may go. -/
theorem tally_erase (hp : p i = false) : tally (s.erase i) p = tally s p := by
  unfold tally
  rw [Finset.filter_erase, Finset.erase_eq_of_notMem]
  intro hmem
  rw [(Finset.mem_filter.mp hmem).2] at hp
  cases hp

end Wwan
