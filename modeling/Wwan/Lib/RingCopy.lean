import Mathlib.Data.List.GetD
import Wwan.Lib.Ring

/-!
# Blocks in a circular array

A block that is copied into or out of a circular array of `n` slots is cut in two where
the array ends. `store` writes a block behind the entries, `load` reads the first
entries as a block, and both agree with the queue of `Ring.contents`.

Counts that are kept modulo `m` lead to the same slots if `n` divides `m`.
-/

namespace Wwan.Ring

variable {α : Type*} {n s k p : ℕ}

/-! ## Memory -/

/-- The memory after a block has been written from address `p` on. -/
def blit (f : ℕ → α) (p : ℕ) (l : List α) : ℕ → α := fun i ↦
  if p ≤ i then l.getD (i - p) (f i) else f i

/-- The `k` cells from address `p` on. -/
def segment (f : ℕ → α) (p k : ℕ) : List α := (List.range' p k).map f

@[simp] theorem length_segment (f : ℕ → α) : (segment f p k).length = k := by simp [segment]

theorem blit_of_lt (f : ℕ → α) (l : List α) {i : ℕ} (h : i < p) : blit f p l i = f i :=
  if_neg (Nat.not_le.mpr h)

theorem blit_of_ge (f : ℕ → α) (l : List α) {i : ℕ} (h : p + l.length ≤ i) :
    blit f p l i = f i := by
  unfold blit
  rw [if_pos (by omega), List.getD_eq_default _ _ (by omega)]

theorem blit_add (f : ℕ → α) (l : List α) {j : ℕ} (h : j < l.length) :
    blit f p l (p + j) = l[j] := by
  unfold blit
  rw [if_pos (by omega), Nat.add_sub_cancel_left, List.getD_eq_getElem _ _ h]

theorem apply_blit {β : Type*} (g : α → β) (f : ℕ → α) (l : List α) (i : ℕ) :
    g (blit f p l i) = blit (fun i ↦ g (f i)) p (l.map g) i := by
  unfold blit
  split
  · rw [List.getD_map]
  · rfl

/-- A block is written one cell after the other. -/
theorem blit_cons (f : ℕ → α) (x : α) (l : List α) :
    blit f p (x :: l) = blit (Function.update f p x) (p + 1) l := by
  funext i
  rcases Nat.lt_trichotomy i p with h | rfl | h
  · rw [blit_of_lt _ _ h, blit_of_lt _ _ (by omega), Function.update_of_ne (by omega)]
  · rw [blit_of_lt (Function.update f i x) l (Nat.lt_succ_self i), Function.update_self]
    exact blit_add f (x :: l) (j := 0) (by simp)
  · obtain ⟨j, rfl⟩ := Nat.exists_eq_add_of_lt h
    rcases Nat.lt_or_ge j l.length with hj | hj
    · have hcons := blit_add f (p := p) (x :: l) (j := j + 1) (by simpa using hj)
      have hrest := blit_add (Function.update f p x) (p := p + 1) l hj
      rw [show p + j + 1 = p + (j + 1) by omega, hcons, List.getElem_cons_succ, ← hrest]
      congr 1
      omega
    · rw [blit_of_ge _ _ (by simp; omega), blit_of_ge _ _ (by omega),
        Function.update_of_ne (by omega)]

@[simp] theorem blit_nil (f : ℕ → α) : blit f p [] = f := by
  funext i
  rcases Nat.lt_or_ge i p with h | h
  · exact blit_of_lt f [] h
  · exact blit_of_ge f [] h

theorem map_blit_range (f : ℕ → α) (l : List α) : (List.range l.length).map (blit f 0 l) = l := by
  refine List.ext_getElem (by simp) fun j hj hj' ↦ ?_
  have hadd := blit_add f (p := 0) l hj'
  rw [Nat.zero_add] at hadd
  rw [List.getElem_map, List.getElem_range, hadd]

/-- A block that was written from address `0` on is read from the addresses `w`, in some
order, if and only if these are different and the old cells among them are those of the
block that are missing. -/
theorem map_blit_perm_iff (f : ℕ → α) {l : List α} (hl : l.Nodup) (w : List ℕ) :
    (w.map (blit f 0 l)).Perm l ↔
      w.Nodup ∧ ((w.filter (l.length ≤ ·)).map f).Perm
        (((List.range l.length).filter (· ∉ w)).map (blit f 0 l)) := by
  have hold : (w.filter (l.length ≤ ·)).map (blit f 0 l) = (w.filter (l.length ≤ ·)).map f := by
    refine List.map_congr_left fun i hi ↦ blit_of_ge f l ?_
    simpa using (List.mem_filter.mp hi).2
  have hsplit : ∀ (v : List ℕ) (q : ℕ → Bool),
      (v.map (blit f 0 l)).Perm
        ((v.filter q).map (blit f 0 l) ++ (v.filter (! q ·)).map (blit f 0 l)) := fun v q ↦ by
    rw [← List.map_append]
    exact (List.filter_append_perm q v).symm.map _
  have hcancel (hw : w.Nodup) :
      (w.map (blit f 0 l)).Perm l ↔ ((w.filter (l.length ≤ ·)).map f).Perm
        (((List.range l.length).filter (· ∉ w)).map (blit f 0 l)) := by
    -- What is both written and read is the same on both sides.
    have hboth : (w.filter fun i ↦ !decide (l.length ≤ i)).Perm
        ((List.range l.length).filter fun i ↦ !decide (i ∉ w)) := by
      refine (List.perm_ext_iff_of_nodup (hw.filter _) (List.nodup_range.filter _)).mpr fun i ↦ ?_
      simp only [List.mem_filter, List.mem_range, Bool.not_eq_true', decide_eq_false_iff_not,
        not_le, not_not]
      exact and_comm
    have hleft := hsplit w (l.length ≤ ·)
    have hright := hsplit (List.range l.length) (· ∉ w)
    rw [map_blit_range] at hright
    rw [hold] at hleft
    constructor
    · intro h
      have hperm := hleft.symm.trans (h.trans hright)
      exact (List.perm_append_right_iff _).mp
        (hperm.trans ((hboth.map _).symm.append_left _))
    · intro h
      exact hleft.trans ((h.append (hboth.map _)).trans hright.symm)
  constructor
  · intro h
    have hw : w.Nodup := List.Nodup.of_map _ (h.nodup_iff.mpr hl)
    exact ⟨hw, (hcancel hw).mp h⟩
  · rintro ⟨hw, h⟩
    exact (hcancel hw).mpr h

/-! ## In two parts -/

/-- A block is written from the slot of count `s` on, and goes on in slot `0`. -/
def store (f : ℕ → α) (n s : ℕ) (l : List α) : ℕ → α :=
  if n < s % n + l.length then
    blit (blit f (s % n) (l.take (n - s % n))) 0 (l.drop (n - s % n))
  else blit f (s % n) l

/-- A block of `k` entries is read from the slot of count `s` on. -/
def load (f : ℕ → α) (n s k : ℕ) : List α :=
  if n < s % n + k then segment f (s % n) (n - s % n) ++ segment f 0 (s % n + k - n)
  else segment f (s % n) k

theorem add_mod_cases (hn : 0 < n) {j : ℕ} (hj : j < n) :
    (s % n + j < n ∧ (s + j) % n = s % n + j) ∨
      (n ≤ s % n + j ∧ (s + j) % n = s % n + j - n) := by
  have hs : s % n < n := Nat.mod_lt s hn
  rw [← Nat.mod_add_mod]
  rcases Nat.lt_or_ge (s % n + j) n with h | h
  · exact .inl ⟨h, Nat.mod_eq_of_lt h⟩
  · refine .inr ⟨h, ?_⟩
    rw [Nat.mod_eq_sub_mod h, Nat.mod_eq_of_lt (by omega)]

/-- The entries of the block are in its slots. -/
theorem store_slot (f : ℕ → α) {l : List α} (hl : l.length ≤ n) {j : ℕ} (hj : j < l.length) :
    store f n s l ((s + j) % n) = l[j] := by
  have hs : s % n < n := Nat.mod_lt s (by omega)
  unfold store
  rcases add_mod_cases (s := s) (by omega) (Nat.lt_of_lt_of_le hj hl) with ⟨h, heq⟩ | ⟨h, heq⟩
  · rw [heq]
    split
    · have hlen : j < (l.take (n - s % n)).length := by rw [List.length_take]; omega
      rw [blit_of_ge _ _ (by rw [List.length_drop]; omega), blit_add _ _ hlen, List.getElem_take]
    · exact blit_add f l hj
  · rw [heq, if_pos (by omega)]
    have hlen : s % n + j - n < (l.drop (n - s % n)).length := by rw [List.length_drop]; omega
    have hadd := blit_add (blit f (s % n) (l.take (n - s % n))) (l.drop (n - s % n)) (p := 0) hlen
    rw [Nat.zero_add] at hadd
    rw [hadd, List.getElem_drop]
    congr 1
    omega

/-- The other slots are as before. -/
theorem store_of_notMem (f : ℕ → α) {l : List α} (hl : l.length ≤ n) {i : ℕ} (hi : i < n)
    (hmem : i ∉ slots n s l.length) : store f n s l i = f i := by
  have hs : s % n < n := Nat.mod_lt s (by omega)
  have hne : ∀ j < l.length, (s + j) % n ≠ i := fun j hj heq ↦
    hmem (mem_slots.mpr ⟨s + j, by omega, by omega, heq⟩)
  unfold store
  split
  · rename_i hwrap
    have hlow : s % n + l.length - n ≤ i := by
      by_contra hlt
      rcases add_mod_cases (s := s) (by omega) (show i + n - s % n < n by omega) with ⟨h, _⟩ | ⟨_, h⟩
      · omega
      · exact hne (i + n - s % n) (by omega) (by omega)
    have hhigh : i < s % n := by
      by_contra hge
      rcases add_mod_cases (s := s) (by omega) (show i - s % n < n by omega) with ⟨_, h⟩ | ⟨h, _⟩
      · exact hne (i - s % n) (by omega) (by omega)
      · omega
    rw [blit_of_ge _ _ (by rw [List.length_drop]; omega), blit_of_lt _ _ hhigh]
  · rename_i hfit
    rcases Nat.lt_or_ge i (s % n) with h | h
    · exact blit_of_lt f l h
    · refine blit_of_ge f l ?_
      by_contra hlt
      rcases add_mod_cases (s := s) (by omega) (show i - s % n < n by omega) with ⟨_, heq⟩ | ⟨hc, _⟩
      · exact hne (i - s % n) (by omega) (by omega)
      · omega

/-! ## The queue -/

/-- A block that is written behind the last entry is appended. -/
theorem contents_store (f : ℕ → α) {l : List α} (h : k + l.length ≤ n) :
    contents (store f n (s + k) l) n s (k + l.length) = contents f n s k ++ l := by
  rw [contents_add]
  congr 1
  · refine List.map_congr_left fun i hi ↦ ?_
    obtain ⟨a, hle, hlt, rfl⟩ := mem_slots.mp hi
    refine store_of_notMem f (by omega) (Nat.mod_lt _ (by omega)) fun hmem ↦ ?_
    obtain ⟨b, hble, hblt, heq⟩ := mem_slots.mp hmem
    have := eq_of_mod_eq heq.symm (by omega) (by omega)
    omega
  · refine List.ext_getElem (by simp) fun j hj hj' ↦ ?_
    simp only [contents, slots, List.getElem_map, List.getElem_range']
    rw [Nat.one_mul]
    exact store_slot f (by omega) hj'

/-- The block that is read is the first entries. -/
theorem load_eq_contents (f : ℕ → α) (hn : 0 < n) (h : k ≤ n) :
    load f n s k = contents f n s k := by
  have hs : s % n < n := Nat.mod_lt s hn
  have hlow : ∀ t j, t % n + j ≤ n → segment f (t % n) j = contents f n t j := by
    intro t j hj
    refine List.ext_getElem (by simp) fun i hi _ ↦ ?_
    rw [length_segment] at hi
    simp only [segment, contents, slots, List.getElem_map, List.getElem_range', Nat.one_mul]
    congr 1
    rcases add_mod_cases (s := t) hn (show i < n by omega) with ⟨_, heq⟩ | ⟨hge, _⟩
    · exact heq.symm
    · omega
  unfold load
  split
  · have hzero : (s + (n - s % n)) % n = 0 := by
      rcases add_mod_cases (s := s) hn (show n - s % n - 1 < n by omega) with ⟨_, heq⟩ | ⟨hge, _⟩
      · rw [show s + (n - s % n) = s + (n - s % n - 1) + 1 by omega, succ_mod hn, heq,
          if_pos (by omega)]
      · omega
    have hsplit : n - s % n + (s % n + k - n) = k := by omega
    have hrest := hlow (s + (n - s % n)) (s % n + k - n) (by omega)
    rw [hzero] at hrest
    rw [hlow s _ (by omega), hrest, ← contents_add, hsplit]
  · exact hlow s k (by omega)

/-! ## Counts modulo `m` -/

/-- A block is stored in the same slots. -/
theorem store_mod {m : ℕ} (h : n ∣ m) (f : ℕ → α) (a : ℕ) (l : List α) :
    store f n (a % m) l = store f n a l := by
  unfold store
  rw [Nat.mod_mod_of_dvd a h]

/-- The slot of the next count is the next slot, however often counts wrap, exactly if
`n` divides `m`. -/
theorem succ_mod_mod_iff {m : ℕ} (hm : 0 < m) :
    (∀ a < m, (a + 1) % m % n = (a % n + 1) % n) ↔ n ∣ m := by
  constructor
  · intro h
    have hlast := h (m - 1) (by omega)
    rw [Nat.sub_add_cancel hm, Nat.mod_self, Nat.zero_mod, Nat.mod_add_mod,
      Nat.sub_add_cancel hm] at hlast
    exact Nat.dvd_of_mod_eq_zero hlast.symm
  · intro h a _
    rw [Nat.mod_mod_of_dvd _ h, Nat.mod_add_mod]

end Wwan.Ring
