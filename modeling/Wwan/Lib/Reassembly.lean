import Mathlib.Data.List.Basic

/-!
# Messages in fragments

A message is cut into pieces of a fixed size, and each piece is sent with the length of the whole
message. The receiver collects pieces. It takes a piece that is as long as its message for the
message; otherwise the message is complete when a piece is short, or when as much is there as the
message is long.
-/

namespace Wwan

/-- A piece of a message, with the length of the message. -/
structure Fragment (α : Type*) where
  total : ℕ
  data : List α

namespace Reassembly

variable {α : Type*} (size : ℕ)

/-! ## Collecting -/

/-- What has been collected after a packet, and the message that is complete with it. A packet may
be no fragment at all. -/
def step (pending : List α) : Option (Fragment α) → List α × Option (List α)
  | none => (pending, none)
  | some f =>
    if f.data.length = f.total then ([], some f.data)
    else if f.data.length < size ∨ f.total ≤ (pending ++ f.data).length then
      ([], some (pending ++ f.data))
    else (pending ++ f.data, none)

/-- The messages that are complete, packet by packet. -/
def run : List α → List (Option (Fragment α)) → List (Option (List α))
  | _, [] => []
  | pending, f :: fs => (step size pending f).2 :: run (step size pending f).1 fs

/-! ## Cutting -/

/-- The pieces of a message: all are full, but the last may be shorter. -/
def pieces (m : List α) : List (List α) :=
  if m.length ≤ size ∨ size = 0 then [m] else m.take size :: pieces (m.drop size)
termination_by m.length
decreasing_by
  rw [List.length_drop]
  omega

/-- The fragments of a message. -/
def fragments (m : List α) : List (Fragment α) := (pieces size m).map (⟨m.length, ·⟩)

/-- A message is complete with its last fragment. -/
def atLast (m : List α) : List (Option (List α)) :=
  List.replicate ((pieces size m).length - 1) none ++ [some m]

variable {size}

theorem pieces_ne_nil (size : ℕ) (m : List α) : pieces size m ≠ [] := by
  rw [pieces]
  split <;> exact List.cons_ne_nil _ _

theorem mem_pieces_length (hsize : 0 < size) (m : List α) : ∀ p ∈ pieces size m,
    p.length ≤ size ∧ p.length ≤ m.length := by
  induction m using pieces.induct size with
  | case1 m h =>
    rw [pieces, if_pos h]
    intro p hp
    rw [List.mem_singleton.mp hp]
    exact ⟨h.resolve_right (Nat.ne_of_gt hsize), Nat.le_refl _⟩
  | case2 m h ih =>
    rw [pieces, if_neg h]
    intro p hp
    rcases List.mem_cons.mp hp with rfl | hp
    · exact ⟨List.length_take_le _ _, List.length_take_le' _ _⟩
    · obtain ⟨hle, hlen⟩ := ih p hp
      rw [List.length_drop] at hlen
      exact ⟨hle, Nat.le_trans hlen (Nat.sub_le _ _)⟩

/-- The pieces of the rest of a message, of which some have been collected. -/
theorem run_pieces (hsize : 0 < size) (total : ℕ) (m : List α) (hm : m ≠ []) :
    ∀ pending : List α, total = pending.length + m.length → ∀ fs,
      run size pending ((pieces size m).map (fun p ↦ some ⟨total, p⟩) ++ fs) =
        List.replicate ((pieces size m).length - 1) none ++ some (pending ++ m) ::
          run size [] fs := by
  induction m using pieces.induct size with
  | case1 m h =>
    intro pending htotal fs
    rw [pieces, if_pos h]
    have hstep : step size pending (some ⟨total, m⟩) = ([], some (pending ++ m)) := by
      unfold step
      dsimp only
      split
      case isTrue heq =>
        -- the only fragment
        have hnil : pending = [] := List.length_eq_zero_iff.mp (by omega)
        rw [hnil]
        rfl
      · refine if_pos (.inr (Nat.le_of_eq ?_))
        rw [List.length_append, htotal]
    rw [List.map_singleton, List.singleton_append, run, hstep]
    rfl
  | case2 m h ih =>
    rw [not_or, Nat.not_le] at h
    have hdrop : m.drop size ≠ [] := by
      rw [Ne, List.drop_eq_nil_iff]
      omega
    intro pending htotal fs
    rw [pieces, if_neg (by omega)]
    have htake : (m.take size).length = size := List.length_take_of_le (Nat.le_of_lt h.1)
    have hstep : step size pending (some ⟨total, m.take size⟩) =
        (pending ++ m.take size, none) := by
      unfold step
      dsimp only
      rw [if_neg (by omega), if_neg]
      rw [List.length_append, htake]
      omega
    have hrest := ih hdrop (pending ++ m.take size)
      (by rw [List.length_append, htake, List.length_drop]; omega) fs
    have hpos := List.length_pos_iff.mpr (pieces_ne_nil size (m.drop size))
    rw [List.map_cons, List.cons_append, run, hstep]
    dsimp only
    rw [hrest, List.append_assoc, List.take_append_drop, List.length_cons, Nat.add_sub_cancel,
      ← List.cons_append, ← List.replicate_succ, Nat.sub_add_cancel hpos]

/-- Every message is complete with its last fragment, unchanged. -/
theorem run_fragments (hsize : 0 < size) (ms : List (List α)) (hms : ∀ m ∈ ms, m ≠ []) :
    run size [] (ms.flatMap fun m ↦ (fragments size m).map some) = ms.flatMap (atLast size) := by
  induction ms with
  | nil => rfl
  | cons m ms ih =>
    have hrun := run_pieces hsize m.length m (hms m List.mem_cons_self) [] (Nat.zero_add _).symm
      (ms.flatMap fun m ↦ (fragments size m).map some)
    rw [List.flatMap_cons, List.flatMap_cons, fragments, List.map_map]
    refine hrun.trans ?_
    rw [ih fun m hm ↦ hms m (List.mem_cons_of_mem _ hm), atLast, List.append_assoc]
    rfl

end Reassembly

end Wwan
