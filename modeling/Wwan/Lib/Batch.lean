import Mathlib.Data.List.Basic

/-!
# Batching

A sender that collects items and hands them on in batches: the batches handed on
so far, each with the limit that was in force then, and the batch that is still
open. `push` adds an item to the open batch and `flush` hands it on.

The two laws an implementation is measured against are that the batches and the
open one together are the items in the order they came (`items_push`,
`items_flush`), and that no batch is larger than its limit (`Bounded`).
-/

namespace Wwan

/-- The batches of items of type `α`. -/
structure Batch (α : Type*) where
  /-- The batches handed on, oldest first, with the limit each was subject to. -/
  closed : List (ℕ × List α)
  /-- The batch being collected. -/
  pending : List α

namespace Batch

variable {α : Type*}

/-- Nothing collected, nothing handed on. -/
def empty : Batch α := ⟨[], []⟩

/-- Add an item to the open batch. -/
def push (b : Batch α) (a : α) : Batch α := { b with pending := b.pending ++ [a] }

/-- Hand the open batch on under the given limit. -/
def flush (b : Batch α) (limit : ℕ) : Batch α := ⟨b.closed ++ [(limit, b.pending)], []⟩

/-- All items, in the order they came. -/
def items (b : Batch α) : List α := (b.closed.map Prod.snd).flatten ++ b.pending

/-- No batch exceeds its limit. -/
def Bounded (b : Batch α) : Prop := ∀ g ∈ b.closed, g.2.length ≤ g.1

@[simp] theorem items_push (b : Batch α) (a : α) : (b.push a).items = b.items ++ [a] := by
  simp [items, push]

@[simp] theorem items_flush (b : Batch α) (limit : ℕ) : (b.flush limit).items = b.items := by
  simp [items, flush]

theorem Bounded.push {b : Batch α} (h : b.Bounded) (a : α) : (b.push a).Bounded := h

theorem Bounded.flush {b : Batch α} (h : b.Bounded) {limit : ℕ} (hl : b.pending.length ≤ limit) :
    (b.flush limit).Bounded := by
  intro g hg
  rcases List.mem_append.mp hg with hg | hg
  · exact h g hg
  · rw [List.mem_singleton.mp hg]
    exact hl

end Batch

end Wwan
