import Mathlib.Algebra.BigOperators.Group.Finset.Piecewise
import Mathlib.Data.List.Nodup
import Mathlib.Data.List.Range
import Mathlib.Data.Nat.ModEq
import Mathlib.Logic.Function.Basic

/-!
# Circular arrays addressed by counts

A ring of `n` slots is used through two counts that only grow: the entries are
those with number `s`, `s + 1`, …, and entry `i` is kept in slot `i % n`. As long
as at most `n` entries are kept at a time, they are in different slots, and the
ring is a queue: `contents` lists its entries, `contents_snoc` appends the slot
behind the last one, and forgetting the first is `contents_succ`.
-/

namespace Wwan.Ring

variable {α : Type*} {n s k a b : ℕ}

/-- Among `n` successive counts, different ones have different slots. -/
theorem eq_of_mod_eq (h : a % n = b % n) (hle : a ≤ b) (hlt : b < a + n) : a = b := by
  have hdvd : n ∣ b - a := (Nat.modEq_iff_dvd' hle).mp h
  have hzero : b - a = 0 := Nat.eq_zero_of_dvd_of_lt hdvd (by omega)
  omega

/-- The slot after that of a count. -/
theorem succ_mod (hn : 0 < n) : (a + 1) % n = if n ≤ a % n + 1 then 0 else a % n + 1 := by
  have hlt : a % n < n := Nat.mod_lt a hn
  split
  · have hlast : a % n + 1 = n := by omega
    rw [← Nat.mod_add_mod, hlast, Nat.mod_self]
  · rw [← Nat.mod_add_mod, Nat.mod_eq_of_lt (by omega)]

/-- The distance of two counts, by their slots: the second has wrapped or not. -/
theorem sub_cases (hle : a ≤ b) (hlt : b < a + n) :
    (a % n ≤ b % n ∧ b - a = b % n - a % n) ∨
      (b % n < a % n ∧ b - a + (a % n - b % n) = n) := by
  obtain ⟨d, rfl⟩ := Nat.exists_eq_add_of_le hle
  have hd : d < n := by omega
  have ha : a % n < n := Nat.mod_lt a (by omega)
  rw [Nat.add_mod a d, Nat.mod_eq_of_lt hd, Nat.add_sub_cancel_left]
  generalize a % n = i at ha
  rcases Nat.lt_or_ge (i + d) n with hlow | hhigh
  · rw [Nat.mod_eq_of_lt hlow]
    omega
  · rw [Nat.mod_eq_sub_mod hhigh, Nat.mod_eq_of_lt (by omega)]
    omega

/-- The slots of the `k` entries from number `s` on. -/
def slots (n s k : ℕ) : List ℕ := (List.range' s k).map (· % n)

@[simp] theorem length_slots : (slots n s k).length = k := by simp [slots]

theorem mem_slots {i : ℕ} : i ∈ slots n s k ↔ ∃ a, s ≤ a ∧ a < s + k ∧ a % n = i := by
  simp [slots, List.mem_range'_1, and_assoc]

/-- A slot by its distance from the first. -/
theorem getElem?_slots {j : ℕ} (h : j < k) : (slots n s k)[j]? = some ((s + j) % n) := by
  simp [slots, h]

/-- The slots of entries that fit are different. -/
theorem nodup_slots (h : k ≤ n) : (slots n s k).Nodup := by
  refine List.Nodup.map_on (fun a ha b hb hab ↦ ?_) List.nodup_range'
  obtain ⟨ha, hak⟩ := List.mem_range'_1.mp ha
  obtain ⟨hb, hbk⟩ := List.mem_range'_1.mp hb
  rcases Nat.le_total a b with hle | hle
  · exact eq_of_mod_eq hab hle (by omega)
  · exact (eq_of_mod_eq hab.symm hle (by omega)).symm

/-- The slots begin with that of the first entry. -/
theorem slots_succ : slots n s (k + 1) = s % n :: slots n (s + 1) k := by
  simp [slots, List.range'_succ]

/-- The slots end with that of the last entry. -/
theorem slots_snoc : slots n s (k + 1) = slots n s k ++ [(s + k) % n] := by
  simp [slots, List.range'_1_concat]

/-- The slot behind the last entry is not in use while there is room. -/
theorem notMem_slots (h : k < n) : (s + k) % n ∉ slots n s k := by
  intro hmem
  obtain ⟨a, hle, hlt, heq⟩ := mem_slots.mp hmem
  have : a = s + k := eq_of_mod_eq heq (by omega) (by omega)
  omega

/-! ## Contents -/

/-- The `k` entries from number `s` on, oldest first. -/
def contents (f : ℕ → α) (n s k : ℕ) : List α := (slots n s k).map f

@[simp] theorem contents_zero (f : ℕ → α) : contents f n s 0 = [] := rfl

@[simp] theorem length_contents (f : ℕ → α) : (contents f n s k).length = k := by simp [contents]

theorem mem_contents {f : ℕ → α} {x : α} :
    x ∈ contents f n s k ↔ ∃ a, s ≤ a ∧ a < s + k ∧ f (a % n) = x := by
  simp only [contents, List.mem_map, mem_slots]
  constructor
  · rintro ⟨_, ⟨a, hle, hlt, rfl⟩, rfl⟩
    exact ⟨a, hle, hlt, rfl⟩
  · rintro ⟨a, hle, hlt, rfl⟩
    exact ⟨a % n, ⟨a, hle, hlt, rfl⟩, rfl⟩

/-- The oldest entries. -/
theorem take_contents (f : ℕ → α) {m : ℕ} (h : m ≤ k) :
    (contents f n s k).take m = contents f n s m := by
  rw [contents, slots, List.map_map, ← List.map_take, List.take_range'_of_length_ge h, contents,
    slots, List.map_map]

/-- The first entry and the rest. -/
theorem contents_succ (f : ℕ → α) :
    contents f n s (k + 1) = f (s % n) :: contents f n (s + 1) k := by
  rw [contents, slots_succ, List.map_cons, contents]

/-- Only the slot of the first entry matters. -/
theorem contents_mod (f : ℕ → α) : contents f n (s % n) k = contents f n s k := by
  induction k generalizing s with
  | zero => rfl
  | succ k ih =>
    have hnext : (s % n + 1) % n = (s + 1) % n := Nat.mod_add_mod s n 1
    rw [contents_succ, contents_succ, Nat.mod_mod, ← ih, hnext, ih]

/-- A write to a slot that is not in use leaves the contents. -/
theorem contents_update (f : ℕ → α) (x : α) (h : k < n) :
    contents (Function.update f ((s + k) % n) x) n s k = contents f n s k := by
  refine List.map_congr_left fun i hi ↦ Function.update_of_ne ?_ x f
  rintro rfl
  exact notMem_slots h hi

/-- The contents and the entry behind the last one. -/
theorem contents_snoc (f : ℕ → α) :
    contents f n s (k + 1) = contents f n s k ++ [f ((s + k) % n)] := by
  rw [contents, slots_snoc, List.map_append, contents]
  rfl

/-- The first entries and the others. -/
theorem contents_add (f : ℕ → α) (j : ℕ) :
    contents f n s (j + k) = contents f n s j ++ contents f n (s + j) k := by
  induction j generalizing s with
  | zero => simp
  | succ j ih =>
    rw [Nat.add_right_comm, contents_succ, contents_succ, List.cons_append, ih,
      Nat.add_right_comm s 1 j, Nat.add_assoc s j 1]

/-! ## Sums over the slots -/

/-- A write to one slot changes its summand. -/
theorem sum_update {M : Type*} [AddCommMonoid M] (g : α → M) (f : ℕ → α) {i : ℕ} (hi : i < n)
    (x : α) : ∑ j ∈ Finset.range n, g (Function.update f i x j) + g (f i) =
      ∑ j ∈ Finset.range n, g (f j) + g x := by
  have hmem : i ∈ Finset.range n := Finset.mem_range.mpr hi
  have hrest : ∑ j ∈ (Finset.range n).erase i, g (Function.update f i x j) =
      ∑ j ∈ (Finset.range n).erase i, g (f j) :=
    Finset.sum_congr rfl fun j hj ↦ by rw [Function.update_of_ne (Finset.ne_of_mem_erase hj)]
  rw [← Finset.sum_erase_add _ _ hmem, hrest, Function.update_self,
    ← Finset.sum_erase_add _ (fun j ↦ g (f j)) hmem, add_assoc, add_comm (g x), ← add_assoc]

end Wwan.Ring
