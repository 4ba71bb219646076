import Mathlib.Data.List.Perm.Basic

/-!
# Taking the first that fits

A linked list is walked up to the first element that fits, which is unlinked. What is left is the
list without that element, in the same order.
-/

namespace Wwan

variable {α : Type*} {p q : α → Bool} {a : α} {l rest : List α}

/-- The first element that fits, and the others. -/
def popFirst (p : α → Bool) : List α → Option (α × List α)
  | [] => none
  | a :: l => if p a then some (a, l) else (popFirst p l).map fun x ↦ (x.1, a :: x.2)

theorem popFirst_eq_none_iff : popFirst p l = none ↔ ∀ a ∈ l, p a = false := by
  induction l with
  | nil => simp [popFirst]
  | cons a l ih =>
    cases hp : p a with
    | false => simp [popFirst, hp, ih]
    | true => simp [popFirst, hp]

variable (h : popFirst p l = some (a, rest))

include h

theorem fits_of_popFirst : p a = true := by
  induction l generalizing rest with
  | nil => cases h
  | cons b l ih =>
    rw [popFirst] at h
    split at h
    case isTrue hb =>
      cases h
      exact hb
    · obtain ⟨⟨c, rest'⟩, hpop, heq⟩ := Option.map_eq_some_iff.mp h
      cases heq
      exact ih hpop

theorem perm_of_popFirst : l.Perm (a :: rest) := by
  induction l generalizing rest with
  | nil => cases h
  | cons b l ih =>
    rw [popFirst] at h
    split at h
    · cases h
      exact List.Perm.refl _
    · obtain ⟨⟨c, rest'⟩, hpop, heq⟩ := Option.map_eq_some_iff.mp h
      cases heq
      exact ((ih hpop).cons b).trans (List.Perm.swap _ b rest')

theorem mem_of_popFirst : a ∈ l :=
  (perm_of_popFirst h).symm.subset List.mem_cons_self

theorem subset_of_popFirst : rest ⊆ l :=
  fun _ hb ↦ (perm_of_popFirst h).symm.subset (List.mem_cons_of_mem _ hb)

/-- Nothing else is lost. -/
theorem countP_popFirst : l.countP q = rest.countP q + if q a then 1 else 0 := by
  rw [(perm_of_popFirst h).countP_eq, List.countP_cons]

end Wwan
