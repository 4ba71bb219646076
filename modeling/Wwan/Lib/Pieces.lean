import Mathlib.Data.Nat.Notation

/-!
# A message in pieces

A message is cut at ascending positions. Put together the pieces are the message again, and pieces
of the right lengths that make up the message are its own.
-/

namespace Wwan.Pieces

variable {α : Type*} {pos : ℕ → ℕ} {k : ℕ} {f g : ℕ → List α}

/-- The indices from one cut to the next. -/
def piece (pos : ℕ → ℕ) (i : ℕ) : List ℕ := List.range' (pos i) (pos (i + 1) - pos i)

/-- The pieces up to a cut are what is before it. -/
theorem flatMap_piece (hzero : pos 0 = 0) (hmono : ∀ i, pos i ≤ pos (i + 1)) (k : ℕ) :
    (List.range k).flatMap (piece pos) = List.range' 0 (pos k) := by
  induction k with
  | zero => rw [hzero]; rfl
  | succ k ih =>
    have happend := List.range'_append_1 (s := 0) (m := pos k) (n := pos (k + 1) - pos k)
    rw [Nat.zero_add, Nat.add_sub_cancel' (hmono k)] at happend
    rw [List.range_succ, List.flatMap_append, ih, List.flatMap_singleton, piece, happend]

/-- Lists that are cut in the same way are equal piece by piece. -/
theorem flatMap_range_eq_iff (hlen : ∀ i < k, (f i).length = (g i).length) :
    (List.range k).flatMap f = (List.range k).flatMap g ↔ ∀ i < k, f i = g i := by
  constructor
  · intro h
    induction k with
    | zero => exact fun i hi ↦ absurd hi (Nat.not_lt_zero i)
    | succ k ih =>
      rw [List.range_succ, List.flatMap_append, List.flatMap_append, List.flatMap_singleton,
        List.flatMap_singleton] at h
      obtain ⟨hinit, hlast⟩ := List.append_inj' h (hlen k k.lt_succ_self)
      intro i hi
      rcases Nat.lt_succ_iff_lt_or_eq.mp hi with hlt | rfl
      · exact ih (fun j hj ↦ hlen j (Nat.lt_succ_of_lt hj)) hinit i hlt
      · exact hlast
  · intro h
    rw [List.flatMap_def, List.flatMap_def]
    exact congrArg List.flatten (List.map_congr_left fun i hi ↦ h i (List.mem_range.mp hi))

/-- Pieces of the right lengths make up the first `n` elements of a message if they are its own and
`n` is where they end. -/
theorem flatMap_eq_range'_iff (hzero : pos 0 = 0) (hmono : ∀ i, pos i ≤ pos (i + 1))
    (hlen : ∀ i, (f i).length = pos (i + 1) - pos i) (message : ℕ → α) (k n : ℕ) :
    (List.range k).flatMap f = (List.range' 0 n).map message ↔
      n = pos k ∧ ∀ i < k, f i = (piece pos i).map message := by
  have hpieces : (List.range k).flatMap (fun i ↦ (piece pos i).map message) =
      (List.range' 0 (pos k)).map message := by
    rw [← flatMap_piece hzero hmono, List.map_flatMap]
  have hlen' (i : ℕ) : (f i).length = ((piece pos i).map message).length := by
    rw [hlen, List.length_map, piece, List.length_range']
  have hlength : ((List.range k).flatMap f).length = pos k := by
    have hmap : (List.range k).map (fun i ↦ (f i).length) =
        (List.range k).map fun i ↦ ((piece pos i).map message).length :=
      List.map_congr_left fun i _ ↦ hlen' i
    rw [List.length_flatMap, hmap, ← List.length_flatMap, hpieces, List.length_map,
      List.length_range']
  constructor
  · intro h
    have hn : n = pos k := by
      rw [← hlength, h, List.length_map, List.length_range']
    refine ⟨hn, (flatMap_range_eq_iff fun i _ ↦ hlen' i).mp ?_⟩
    rw [h, hpieces, hn]
  · rintro ⟨rfl, h⟩
    rw [(flatMap_range_eq_iff fun i _ ↦ hlen' i).mpr h, hpieces]

end Wwan.Pieces
