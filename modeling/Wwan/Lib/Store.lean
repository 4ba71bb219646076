import Mathlib.Algebra.Group.Nat.Defs
import Mathlib.Data.List.Basic

/-!
# Writing a record into a buffer of fixed size

A record is put together in a buffer by stores at offsets that run ahead of what was
written last. A store that leaves the buffer has no result. What is known of the
buffer meanwhile is that it begins with the record so far; the bytes behind it may be
anything, and the next store overwrites them.
-/

namespace Wwan

variable {α : Type*} {buf buf' record : List α} {offset : ℕ}

/-- The buffer after `xs` was copied to `offset`, if that is inside. -/
def store (buf : List α) (offset : ℕ) (xs : List α) : Option (List α) :=
  if offset + xs.length ≤ buf.length then
    some (buf.take offset ++ xs ++ buf.drop (offset + xs.length))
  else none

theorem store_eq_none {xs : List α} (h : buf.length < offset + xs.length) :
    store buf offset xs = none :=
  if_neg (Nat.not_le.mpr h)

/-- A store does not resize the buffer. -/
theorem length_of_store {xs : List α} (h : store buf offset xs = some buf') :
    buf'.length = buf.length := by
  unfold store at h
  split at h
  case isTrue hfit =>
    rw [← Option.some.inj h]
    simp only [List.length_append, List.length_take, List.length_drop]
    omega
  case isFalse => cases h

theorem store_nil (h : offset ≤ buf.length) : store buf offset [] = some buf := by
  have hfit : offset + ([] : List α).length ≤ buf.length := h
  rw [store, if_pos hfit, List.append_nil]
  exact congrArg some (List.take_append_drop offset buf)

theorem le_of_store {xs : List α} (h : store buf offset xs = some buf') :
    offset + xs.length ≤ buf'.length := by
  rw [length_of_store h]
  by_contra hlong
  rw [store_eq_none (Nat.not_le.mp hlong)] at h
  cases h

/-- Stores one behind the other are a store of all. -/
theorem store_append (buf : List α) (offset : ℕ) (xs ys : List α) :
    store buf offset (xs ++ ys) =
      (store buf offset xs).bind fun buf ↦ store buf (offset + xs.length) ys := by
  unfold store
  by_cases hxs : offset + xs.length ≤ buf.length
  · have hlen : (buf.take offset ++ xs ++ buf.drop (offset + xs.length)).length = buf.length := by
      simp only [List.length_append, List.length_take, List.length_drop]
      omega
    have htake : (buf.take offset ++ xs).length = offset + xs.length := by
      simp only [List.length_append, List.length_take]
      omega
    rw [if_pos hxs, Option.bind_some, hlen, List.length_append, ← Nat.add_assoc]
    refine ite_congr rfl (fun _ ↦ ?_) fun _ ↦ rfl
    rw [List.take_left' htake, ← htake, List.drop_append, List.drop_eq_nil_of_le
      (Nat.le_add_right _ _), List.nil_append, List.drop_drop, htake, Nat.add_sub_cancel_left,
      ← List.append_assoc]
  · have hlong : ¬ offset + (xs ++ ys).length ≤ buf.length := by
      rw [List.length_append]
      omega
    rw [if_neg hxs, if_neg hlong]
    rfl

/-- A store behind a prefix of the buffer extends it. -/
theorem store_prefix (xs : List α) (hrecord : record <+: buf) (hoff : offset = record.length)
    (hfit : offset + xs.length ≤ buf.length) :
    ∃ buf', store buf offset xs = some buf' ∧ record ++ xs <+: buf' := by
  refine ⟨_, if_pos hfit, buf.drop (offset + xs.length), ?_⟩
  obtain ⟨rest, rfl⟩ := hrecord
  subst hoff
  simp

end Wwan
