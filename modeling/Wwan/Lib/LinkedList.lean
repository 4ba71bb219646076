import Mathlib.Data.List.Basic
import Mathlib.Data.List.Induction
import Mathlib.Logic.Function.Basic

/-!
# Linked lists in a store

A singly linked list is a pointer to its first node and, in every node, a pointer to the next.
`Chain` says which list of nodes a pointer leads to. Code that unlinks nodes keeps a pointer to
the place that holds the pointer to a node, which is a `Link`: the head, or the field of another
node.

Such a place is named by the nodes before it (`Link.behind`). The lemmas say what is found there,
where a walk along the list stops, and what list a write to the place makes.
-/

namespace Wwan

/-- A place that holds a pointer to a node. -/
inductive Link (α : Type*)
  | /-- The pointer to the first node. -/
    head
  | /-- The pointer in a node. -/
    next (a : α)
  deriving DecidableEq

/-- The pointer leads to the nodes of the list, one after the other. -/
def Chain {α : Type*} (next : α → Option α) : Option α → List α → Prop
  | p, [] => p = none
  | p, a :: l => p = some a ∧ Chain next (next a) l

variable {α : Type*} {head p v : Option α} {next : α → Option α} {l l₁ l₂ l₃ : List α} {a b : α}

namespace Link

/-- The pointer that a place holds. -/
def deref (head : Option α) (next : α → Option α) : Link α → Option α
  | .head => head
  | .next a => next a

/-- The place behind the nodes of a list. -/
def behind (l : List α) : Link α := l.getLast?.elim .head .next

@[simp] theorem behind_concat (l : List α) (a : α) : behind (l ++ [a]) = .next a := by
  unfold behind
  rw [List.getLast?_concat]
  rfl

theorem behind_append (l : List α) (hne : l₁ ≠ []) : behind (l ++ l₁) = behind l₁ := by
  unfold behind
  rw [List.getLast?_append_of_ne_nil l hne]

/-- The place at which a walk stops, after so many steps at most. -/
def walk (head : Option α) (next : α → Option α) (stop : α → Bool) : ℕ → Link α → Link α
  | 0, link => link
  | n + 1, link =>
    match link.deref head next with
    | none => link
    | some a => if stop a then link else walk head next stop n (.next a)

variable [DecidableEq α]

/-- The head after a write. -/
def assignHead (head v : Option α) : Link α → Option α
  | .head => v
  | .next _ => head

/-- The pointers in the nodes after a write. -/
def assignNext (next : α → Option α) (v : Option α) : Link α → α → Option α
  | .head => next
  | .next a => Function.update next a v

end Link

/-! ## Chains -/

namespace Chain

theorem head_eq (h : Chain next p l) : p = l.head? := by
  cases l with
  | nil => exact h
  | cons a l => exact h.1

theorem congr {next' : α → Option α} (h : Chain next p l) (heq : ∀ a ∈ l, next' a = next a) :
    Chain next' p l := by
  induction l generalizing p with
  | nil => exact h
  | cons a l ih =>
    refine ⟨h.1, ?_⟩
    rw [heq a List.mem_cons_self]
    exact ih h.2 fun b hb ↦ heq b (List.mem_cons_of_mem _ hb)

/-- What comes after a node. -/
theorem after (h : Chain next p (l₁ ++ a :: l₂)) : Chain next (next a) l₂ := by
  induction l₁ generalizing p with
  | nil => exact h.2
  | cons b l₁ ih => exact ih h.2

/-- What the place behind some nodes holds. -/
theorem deref_behind (h : Chain next head (l₁ ++ l₂)) :
    (Link.behind l₁).deref head next = l₂.head? := by
  induction l₁ using List.reverseRecOn with
  | nil => exact h.head_eq
  | append_singleton l₁ a _ =>
    rw [List.append_assoc] at h
    rw [Link.behind_concat]
    exact h.after.head_eq

/-- Where a walk stops, if it has steps enough. -/
theorem walk_behind (h : Chain next head (l₁ ++ l₂)) (stop : α → Bool) {n : ℕ}
    (hn : l₂.length ≤ n) :
    Link.walk head next stop n (Link.behind l₁) =
      Link.behind (l₁ ++ l₂.takeWhile fun a ↦ !stop a) := by
  induction l₂ generalizing l₁ n with
  | nil =>
    rw [List.takeWhile_nil, List.append_nil]
    cases n with
    | zero => rfl
    | succ n =>
      rw [Link.walk, h.deref_behind]
      rfl
  | cons a l₂ ih =>
    cases n with
    | zero => cases hn
    | succ n =>
      rw [Link.walk, h.deref_behind, List.takeWhile_cons]
      cases hstop : stop a with
      | true => simp [hstop]
      | false =>
        have h' : Chain next head ((l₁ ++ [a]) ++ l₂) := by
          rwa [List.append_assoc]
        have hwalk := ih h' (Nat.le_of_succ_le_succ hn)
        rw [Link.behind_concat, List.append_assoc] at hwalk
        simpa [hstop] using hwalk

variable [DecidableEq α]

/-- The list behind a node is replaced. -/
theorem replace (h : Chain next p (l₁ ++ a :: l₂)) (hl₁ : a ∉ l₁) (hv : Chain next v l₃)
    (hl₃ : a ∉ l₃) : Chain (Function.update next a v) p (l₁ ++ a :: l₃) := by
  induction l₁ generalizing p with
  | nil =>
    refine ⟨h.1, ?_⟩
    rw [Function.update_self]
    refine hv.congr fun b hb ↦ Function.update_of_ne ?_ ..
    rintro rfl
    exact hl₃ hb
  | cons b l₁ ih =>
    rw [List.mem_cons, not_or] at hl₁
    refine ⟨h.1, ?_⟩
    rw [Function.update_of_ne (Ne.symm hl₁.1)]
    exact ih h.2 hl₁.2

/-- The list that a write to a place makes. -/
theorem assign (h : Chain next head (l₁ ++ l₂)) (hnodup : l₁.Nodup) (hv : Chain next v l₃)
    (hl₃ : ∀ a ∈ l₁, a ∉ l₃) :
    Chain ((Link.behind l₁).assignNext next v) ((Link.behind l₁).assignHead head v)
      (l₁ ++ l₃) := by
  induction l₁ using List.reverseRecOn with
  | nil => exact hv
  | append_singleton l₁ a _ =>
    rw [Link.behind_concat, List.append_assoc]
    rw [List.append_assoc] at h
    refine h.replace ?_ hv (hl₃ a (List.mem_append_right _ List.mem_cons_self))
    intro hmem
    exact (List.nodup_append.mp hnodup).2.2 a hmem a List.mem_cons_self rfl

end Chain

/-! ## A node and its neighbours -/

/-- The place holds the pointer to a node of the list, and the node that comes next is known. -/
def At (l : List α) (link : Link α) (a : α) (nxt : Option α) : Prop :=
  ∃ l₁ l₂, l = l₁ ++ a :: l₂ ∧ link = Link.behind l₁ ∧ nxt = l₂.head?

namespace At

variable {link : Link α} {nxt : Option α}

theorem mem (h : At l link a nxt) : a ∈ l := by
  obtain ⟨l₁, l₂, rfl, -, -⟩ := h
  exact List.mem_append_right _ List.mem_cons_self

/-- Nodes are added at the end, and the node is not the last. -/
theorem append (h : At l link a nxt) (hnxt : nxt ≠ none) (l' : List α) :
    At (l ++ l') link a nxt := by
  obtain ⟨l₁, l₂, rfl, hlink, rfl⟩ := h
  refine ⟨l₁, l₂ ++ l', ?_, hlink, ?_⟩
  · rw [List.append_assoc, List.cons_append]
  · cases l₂ with
    | nil => exact absurd rfl hnxt
    | cons b l₂ => rfl

/-- A node is removed that is no neighbour. -/
theorem remove (h : At (l₁ ++ b :: l₂) link a nxt) (hne : a ≠ b) (hlink : link ≠ .next b)
    (hnxt : nxt ≠ some b) : At (l₁ ++ l₂) link a nxt := by
  obtain ⟨k₁, k₂, heq, rfl, rfl⟩ := h
  rcases List.append_eq_append_iff.mp heq with ⟨m, rfl, hm⟩ | ⟨m, rfl, hm⟩
  · -- The node comes after the one that is removed.
    cases m with
    | nil => exact absurd (List.cons.inj hm).1.symm hne
    | cons c m =>
      obtain ⟨rfl, rfl⟩ := List.cons.inj hm
      have hm : m ≠ [] := by
        rintro rfl
        exact hlink (Link.behind_concat _ _)
      refine ⟨l₁ ++ m, k₂, (List.append_assoc ..).symm, ?_, rfl⟩
      rw [Link.behind_append l₁ hm, Link.behind_append l₁ (List.cons_ne_nil b m)]
      exact Link.behind_append [b] hm
  · -- The node comes before the one that is removed.
    cases m with
    | nil => exact absurd (List.cons.inj hm).1 hne
    | cons c m =>
      obtain ⟨rfl, rfl⟩ := List.cons.inj hm
      refine ⟨k₁, m ++ l₂, ?_, rfl, ?_⟩
      · rw [List.append_assoc, List.cons_append]
      · cases m with
        | nil => exact absurd rfl hnxt
        | cons d m => rfl

end At

end Wwan
