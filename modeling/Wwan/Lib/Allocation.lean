import Mathlib.Data.List.Nodup
import Mathlib.Logic.Function.Basic
import Mathlib.Tactic.Tauto

/-!
# Allocated objects

A memory of objects that are allocated, used and freed. To use or to free an object that is not
allocated is a fault, and stays one. `Owns` says that there has been none, and which objects are
allocated: an object that was freed without a fault was freed once.
-/

namespace Wwan

/-- The objects of type `ι` that are allocated. -/
structure Allocation (ι : Type*) where
  live : ι → Bool
  /-- An object was used or freed that was not allocated. -/
  faulty : Bool

namespace Allocation

variable {ι : Type*}

/-- Nothing is allocated. -/
def empty : Allocation ι := ⟨fun _ ↦ false, false⟩

def fault (h : Allocation ι) : Allocation ι := { h with faulty := true }

def use (h : Allocation ι) (x : ι) : Allocation ι := if h.live x then h else h.fault

/-- There was no fault, and these objects are allocated. -/
structure Owns (h : Allocation ι) (p : ι → Prop) : Prop where
  sound : h.faulty = false
  live : ∀ x, h.live x = true ↔ p x

namespace Owns

variable {h : Allocation ι} {p : ι → Prop} {x : ι}

theorem empty : (Allocation.empty : Allocation ι).Owns fun _ ↦ False where
  sound := rfl
  live _ := iff_of_false Bool.false_ne_true id

theorem congr (hp : h.Owns p) {q : ι → Prop} (hq : ∀ x, q x ↔ p x) : h.Owns q :=
  ⟨hp.sound, fun x ↦ (hp.live x).trans (hq x).symm⟩

theorem use (hp : h.Owns p) (hx : p x) : h.use x = h := if_pos ((hp.live x).mpr hx)

end Owns

section Change

variable [DecidableEq ι]

def alloc (h : Allocation ι) (x : ι) : Allocation ι :=
  { h with live := Function.update h.live x true }

def free (h : Allocation ι) (x : ι) : Allocation ι :=
  if h.live x then { h with live := Function.update h.live x false } else h.fault

def allocAll (h : Allocation ι) (xs : List ι) : Allocation ι := xs.foldl alloc h

def freeAll (h : Allocation ι) (xs : List ι) : Allocation ι := xs.foldl free h

namespace Owns

variable {h : Allocation ι} {p : ι → Prop} {x : ι} {xs : List ι}

theorem alloc (hp : h.Owns p) (x : ι) : (h.alloc x).Owns fun y ↦ y = x ∨ p y where
  sound := hp.sound
  live y := by
    show Function.update h.live x true y = true ↔ y = x ∨ p y
    by_cases hy : y = x
    · rw [hy, Function.update_self]
      exact iff_of_true rfl (.inl rfl)
    · rw [Function.update_of_ne hy, hp.live y]
      exact ⟨Or.inr, fun h ↦ h.resolve_left hy⟩

theorem free (hp : h.Owns p) (hx : p x) : (h.free x).Owns fun y ↦ p y ∧ y ≠ x := by
  rw [Allocation.free, if_pos ((hp.live x).mpr hx)]
  refine ⟨hp.sound, fun y ↦ ?_⟩
  show Function.update h.live x false y = true ↔ p y ∧ y ≠ x
  by_cases hy : y = x
  · rw [hy, Function.update_self]
    exact iff_of_false Bool.false_ne_true fun hmem ↦ hmem.2 rfl
  · rw [Function.update_of_ne hy, hp.live y]
    exact ⟨fun hmem ↦ ⟨hmem, hy⟩, fun hmem ↦ hmem.1⟩

theorem allocAll (hp : h.Owns p) (xs : List ι) : (h.allocAll xs).Owns fun y ↦ y ∈ xs ∨ p y := by
  induction xs generalizing h p with
  | nil => exact hp.congr fun x ↦ by simp
  | cons y xs ih =>
    refine (ih (hp.alloc y)).congr fun x ↦ ?_
    rw [List.mem_cons]
    tauto

/-- Objects without repetition are freed one after the other. -/
theorem freeAll (hp : h.Owns p) (hnodup : xs.Nodup) (hxs : ∀ x ∈ xs, p x) :
    (h.freeAll xs).Owns fun y ↦ p y ∧ y ∉ xs := by
  induction xs generalizing h p with
  | nil => exact hp.congr fun x ↦ by simp
  | cons y xs ih =>
    obtain ⟨hy, hnodup⟩ := List.nodup_cons.mp hnodup
    obtain ⟨hyS, hxs⟩ := List.forall_mem_cons.mp hxs
    have hrest : ∀ x ∈ xs, p x ∧ x ≠ y := fun x hx ↦ ⟨hxs x hx, ne_of_mem_of_not_mem hx hy⟩
    refine (ih (hp.free hyS) hnodup hrest).congr fun x ↦ ?_
    rw [List.mem_cons, not_or]
    tauto

end Owns

end Change

end Allocation

end Wwan
