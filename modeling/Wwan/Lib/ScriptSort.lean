import Mathlib.Data.List.Sort
import Mathlib.Order.Compare

/-!
# Sorting with a comparison function

`sort` of a scripting language takes a function that compares two elements. Where that function is
consistent on a list, the result is sorted and stable. Where it is not, the order of the result is
the engine's own.
-/

namespace Wwan.ScriptSort

variable {α : Type} {compareFn : α → α → Ordering} {l l' : List α}

/-- A comparison function orders the elements of a list. -/
structure Consistent (compareFn : α → α → Ordering) (l : List α) : Prop where
  swap : ∀ a ∈ l, ∀ b ∈ l, (compareFn a b).swap = compareFn b a
  trans : ∀ a ∈ l, ∀ b ∈ l, ∀ c ∈ l,
    (compareFn a b).isLE → (compareFn b c).isLE → (compareFn a c).isLE

/-- What the `sort` of an engine is known to do. -/
structure Engine (α : Type) where
  sort : (α → α → Ordering) → List α → List α
  perm : ∀ compareFn l, (sort compareFn l).Perm l
  sorted : ∀ {compareFn l}, Consistent compareFn l →
    (sort compareFn l).Pairwise fun a b ↦ (compareFn a b).isLE
  stable : ∀ {compareFn} {l c : List α}, Consistent compareFn l → c.Sublist l →
    (c.Pairwise fun a b ↦ compareFn a b = .eq) → c.Sublist (sort compareFn l)

theorem Consistent.of_subset (h : Consistent compareFn l) (hsub : l' ⊆ l) :
    Consistent compareFn l' where
  swap a ha b hb := h.swap a (hsub ha) b (hsub hb)
  trans a ha b hb c hc := h.trans a (hsub ha) b (hsub hb) c (hsub hc)

theorem consistent_perm_iff (h : l.Perm l') : Consistent compareFn l ↔ Consistent compareFn l' :=
  ⟨fun hc ↦ hc.of_subset h.symm.subset, fun hc ↦ hc.of_subset h.subset⟩

/-! ## Engines -/

section Merge

/-- The comparison of elements of a list. -/
def attached (compareFn : α → α → Ordering) (l : List α) (a b : { a // a ∈ l }) : Bool :=
  (compareFn a.1 b.1).isLE

/-- A merge sort of the elements of a list. -/
def mergeSorted (compareFn : α → α → Ordering) (l : List α) : List α :=
  (l.attach.mergeSort (attached compareFn l)).map Subtype.val

theorem Consistent.attached_trans (h : Consistent compareFn l) (a b c : { a // a ∈ l })
    (hab : attached compareFn l a b) (hbc : attached compareFn l b c) : attached compareFn l a c :=
  h.trans a.1 a.2 b.1 b.2 c.1 c.2 hab hbc

theorem Consistent.attached_total (h : Consistent compareFn l) (a b : { a // a ∈ l }) :
    attached compareFn l a b || attached compareFn l b a := by
  rw [attached, attached, ← h.swap a.1 a.2 b.1 b.2]
  cases compareFn a.1 b.1
  all_goals rfl

theorem mergeSorted_perm (compareFn : α → α → Ordering) (l : List α) :
    (mergeSorted compareFn l).Perm l := by
  have hperm := (List.mergeSort_perm l.attach (attached compareFn l)).map Subtype.val
  rwa [List.attach_map_subtype_val] at hperm

theorem Consistent.mergeSorted_sorted (h : Consistent compareFn l) :
    (mergeSorted compareFn l).Pairwise fun a b ↦ (compareFn a b).isLE := by
  rw [mergeSorted, List.pairwise_map]
  exact List.pairwise_mergeSort h.attached_trans h.attached_total l.attach

theorem Consistent.mergeSorted_stable {c : List α} (h : Consistent compareFn l) (hc : c.Sublist l)
    (heq : c.Pairwise fun a b ↦ compareFn a b = .eq) : c.Sublist (mergeSorted compareFn l) := by
  rw [← List.attach_map_subtype_val l] at hc
  obtain ⟨c', hsub, rfl⟩ := List.sublist_map_iff.mp hc
  refine (List.sublist_mergeSort h.attached_trans h.attached_total ?_ hsub).map Subtype.val
  refine (List.pairwise_map.mp heq).imp fun hab ↦ ?_
  rw [attached, hab]
  rfl

end Merge

open Classical in
/-- An engine that likes an order wherever the comparison function leaves it free. -/
noncomputable def Engine.liking (liked : List α) : Engine α where
  sort compareFn l :=
    if Consistent compareFn l then mergeSorted compareFn l else if liked.Perm l then liked else l
  perm compareFn l := by
    split_ifs with _ hperm
    · exact mergeSorted_perm compareFn l
    · exact hperm
    · exact List.Perm.refl l
  sorted h := by
    rw [if_pos h]
    exact h.mergeSorted_sorted
  stable h hc heq := by
    rw [if_pos h]
    exact h.mergeSorted_stable hc heq

theorem Engine.sort_liking (h : ¬ Consistent compareFn l) (hperm : l'.Perm l) :
    (Engine.liking l').sort compareFn l = l' := by
  rw [Engine.liking]
  dsimp only
  rw [if_neg h, if_pos hperm]

/-! ## Differences of numbers -/

section Numbers

variable {N : Type} [LinearOrder N]

/-- The sign of a difference of two numbers; one that is not a number counts as none. -/
def difference : Option N → Option N → Ordering
  | some x, some y => cmp x y
  | _, _ => .eq

@[simp] theorem difference_self (x : Option N) : difference x x = .eq := by
  cases x with
  | none => rfl
  | some x => exact cmp_self_eq_eq x

theorem isLE_difference {x y : N} : (difference (some x) (some y)).isLE ↔ x ≤ y := by
  rw [← not_lt, ← cmp_eq_gt_iff x y, difference]
  cases cmp x y <;> decide

end Numbers

end Wwan.ScriptSort
