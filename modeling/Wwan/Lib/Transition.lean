import Mathlib.Logic.Relation

/-!
# Guarded transition systems

A component that reacts to events is a deterministic `next` function on its
states together with the predicate `enabled` that says which events its
environment may produce in which state. A *run* is any sequence of enabled
events from the initial state; `Reach` collects the states of all runs whose
steps satisfy an additional `guard`, so that one system serves results about
every run (`guard := fun _ _ ↦ True`) and results about the runs that keep away
from some step.
-/

namespace Wwan

/-- A transition system driven by events of type `ε`. -/
structure System (σ ε : Type*) where
  /-- The state every run starts in. -/
  init : σ
  /-- The events the environment may produce in a state. -/
  enabled : σ → ε → Prop
  /-- The state after an event. -/
  next : σ → ε → σ

namespace System

variable {σ ε : Type*} (S : System σ ε)

/-- The states of the runs all of whose steps satisfy `guard`. -/
inductive Reach (guard : σ → ε → Prop) : σ → Prop
  | /-- Every run starts in the initial state. -/
    init : Reach guard S.init
  | /-- A run goes on by an enabled event that satisfies the guard. -/
    step {s : σ} (e : ε) : Reach guard s → S.enabled s e → guard s e → Reach guard (S.next s e)

/-- The state after a sequence of events. -/
def exec (s : σ) (es : List ε) : σ := es.foldl S.next s

/-- Each event of the sequence is enabled and satisfies the guard when it comes. -/
def Along (guard : σ → ε → Prop) : σ → List ε → Prop
  | _, [] => True
  | s, e :: es => S.enabled s e ∧ guard s e ∧ Along guard (S.next s e) es

instance decidableAlong (guard : σ → ε → Prop) [∀ s e, Decidable (S.enabled s e)]
    [∀ s e, Decidable (guard s e)] : ∀ s es, Decidable (S.Along guard s es)
  | _, [] => .isTrue trivial
  | s, e :: es =>
    haveI := decidableAlong guard (S.next s e) es
    inferInstanceAs (Decidable (S.enabled s e ∧ guard s e ∧ S.Along guard (S.next s e) es))

/-- Some sequence of events leads from one state to the other. -/
def Leads (guard : σ → ε → Prop) (s t : σ) : Prop := ∃ es, S.Along guard s es ∧ S.exec s es = t

variable {S} {guard : σ → ε → Prop}

/-- A checked sequence of events leads from reached states to reached states. -/
theorem Reach.exec {s : σ} (hs : S.Reach guard s) {es : List ε} (hes : S.Along guard s es) :
    S.Reach guard (S.exec s es) := by
  induction es generalizing s with
  | nil => exact hs
  | cons e es ih => exact ih (hs.step e hes.1 hes.2.1) hes.2.2

@[refl] theorem Leads.refl (s : σ) : S.Leads guard s s := ⟨[], trivial, rfl⟩

/-- One event, and then others. -/
theorem Leads.head {s t : σ} (e : ε) (henabled : S.enabled s e) (hguard : guard s e)
    (h : S.Leads guard (S.next s e) t) : S.Leads guard s t := by
  obtain ⟨es, hes, rfl⟩ := h
  exact ⟨e :: es, ⟨henabled, hguard, hes⟩, rfl⟩

theorem Leads.single {s : σ} (e : ε) (henabled : S.enabled s e) (hguard : guard s e) :
    S.Leads guard s (S.next s e) := .head e henabled hguard (.refl _)

@[trans] theorem Leads.trans {s t u : σ} (h : S.Leads guard s t) (h' : S.Leads guard t u) :
    S.Leads guard s u := by
  obtain ⟨es, hes, rfl⟩ := h
  induction es generalizing s with
  | nil => exact h'
  | cons e es ih => exact .head e hes.1 hes.2.1 (ih hes.2.2 h')

/-- Guards that agree on the enabled events have the same runs. -/
theorem along_congr {guard' : σ → ε → Prop} (h : ∀ s e, S.enabled s e → (guard s e ↔ guard' s e))
    (s : σ) (es : List ε) : S.Along guard s es ↔ S.Along guard' s es := by
  induction es generalizing s with
  | nil => exact Iff.rfl
  | cons e es ih =>
    refine and_congr_right fun henabled ↦ ?_
    rw [h s e henabled, ih]

/-- Guards that agree where an invariant holds, and that keep it, have the same runs. -/
theorem along_iff_of_invariant {guard' : σ → ε → Prop} {I : σ → Prop}
    (h : ∀ s e, I s → S.enabled s e → (guard s e ↔ guard' s e))
    (hstep : ∀ s e, I s → S.enabled s e → guard' s e → I (S.next s e)) {s : σ} (hs : I s)
    (es : List ε) : S.Along guard s es ↔ S.Along guard' s es := by
  induction es generalizing s with
  | nil => exact Iff.rfl
  | cons e es ih =>
    refine and_congr_right fun henabled ↦ ?_
    rw [h s e hs henabled]
    exact and_congr_right fun hguard ↦ ih (hstep s e hs henabled hguard)

/-- Two guards are satisfied along a run if both are at each step. -/
theorem along_and {guard' : σ → ε → Prop} (s : σ) (es : List ε) :
    S.Along (fun s e ↦ guard s e ∧ guard' s e) s es ↔ S.Along guard s es ∧ S.Along guard' s es := by
  induction es generalizing s with
  | nil => exact ⟨fun _ ↦ ⟨trivial, trivial⟩, fun _ ↦ trivial⟩
  | cons e es ih =>
    constructor
    · rintro ⟨henabled, ⟨hguard, hguard'⟩, halong⟩
      obtain ⟨hes, hes'⟩ := (ih _).mp halong
      exact ⟨⟨henabled, hguard, hes⟩, henabled, hguard', hes'⟩
    · rintro ⟨⟨henabled, hguard, hes⟩, -, hguard', hes'⟩
      exact ⟨henabled, ⟨hguard, hguard'⟩, (ih _).mpr ⟨hes, hes'⟩⟩

/-- A run that satisfies a guard satisfies a weaker one. -/
theorem Reach.mono {guard' : σ → ε → Prop} {s : σ} (hs : S.Reach guard s)
    (h : ∀ s e, guard s e → guard' s e) : S.Reach guard' s := by
  induction hs with
  | init => exact .init
  | step e _ he hg ih => exact ih.step e he (h _ e hg)

/-- An invariant that holds initially and is preserved by every guarded step holds
in every reached state. -/
theorem Reach.invariant {I : σ → Prop} {s : σ} (hs : S.Reach guard s) (hinit : I S.init)
    (hstep : ∀ s e, I s → S.enabled s e → guard s e → I (S.next s e)) : I s := by
  induction hs with
  | init => exact hinit
  | step e _ he hg ih => exact hstep _ e ih he hg

end System

end Wwan
