import Mathlib.Data.Nat.Notation
import Mathlib.Data.Option.Basic

/-!
# Programs that may fault

A program on a state that returns a value, unless it faults on its way. `Completes` is its total
correctness: it does not fault, and what it returns and leaves behind is as asked for. Since such
a program is deterministic, every rule is an equivalence, and to simplify with the rules is to
run the program.

`Needs` is for programs that only write to the state: whether they fault is a matter of what they
read elsewhere, and is added up over sequences, branches and loops.
-/

universe u

namespace Wwan

variable {σ α β : Type u}

/-- The program returns from `s`, with a value and a state as asked for. -/
def Completes (x : StateT σ Option α) (s : σ) (Q : α → σ → Prop) : Prop :=
  ∃ a s', x s = some (a, s') ∧ Q a s'

namespace Completes

variable {x : StateT σ Option α} {f : α → StateT σ Option β} {s : σ} {a : α}

theorem pure_iff {Q : α → σ → Prop} : Completes (pure a : StateT σ Option α) s Q ↔ Q a s := by
  constructor
  · rintro ⟨b, s', h, hQ⟩
    cases h
    exact hQ
  · intro h
    exact ⟨a, s, rfl, h⟩

theorem bind_iff {Q : β → σ → Prop} :
    Completes (x >>= f) s Q ↔ Completes x s fun a s' ↦ Completes (f a) s' Q := by
  constructor
  · rintro ⟨b, s₂, h, hQ⟩
    obtain ⟨⟨a, s₁⟩, hx, hf⟩ := Option.bind_eq_some_iff.mp h
    exact ⟨a, s₁, hx, b, s₂, hf, hQ⟩
  · rintro ⟨a, s₁, hx, b, s₂, hf, hQ⟩
    exact ⟨b, s₂, Option.bind_eq_some_iff.mpr ⟨(a, s₁), hx, hf⟩, hQ⟩

theorem map_iff {g : α → β} {Q : β → σ → Prop} :
    Completes (g <$> x) s Q ↔ Completes x s fun a ↦ Q (g a) := by
  constructor
  · rintro ⟨b, s₂, h, hQ⟩
    obtain ⟨⟨a, s₁⟩, hx, hf⟩ := Option.bind_eq_some_iff.mp h
    cases hf
    exact ⟨a, _, hx, hQ⟩
  · rintro ⟨a, s₁, hx, hQ⟩
    exact ⟨g a, s₁, Option.bind_eq_some_iff.mpr ⟨(a, s₁), hx, rfl⟩, hQ⟩

/-- A step that does not fault. -/
theorem step_iff {b : α} {s' : σ} {Q : α → σ → Prop} (h : x s = some (b, s')) :
    Completes x s Q ↔ Q b s' := by
  constructor
  · rintro ⟨a, t, ha, hQ⟩
    cases ha.symm.trans h
    exact hQ
  · exact fun hQ ↦ ⟨b, s', h, hQ⟩

end Completes

/-- Whatever the state, the program does not fault if and only if `P`. -/
def Needs (x : StateT σ Option α) (P : Prop) : Prop := ∀ s, Completes x s (fun _ _ ↦ True) ↔ P

/-- `if (c)`, without an alternative. -/
def when (c : Prop) [Decidable c] (x : StateT σ Option PUnit) : StateT σ Option PUnit :=
  if c then x else pure ⟨⟩

/-- `for (i = 0; i < n; i++)`. -/
def forRange : ℕ → (ℕ → StateT σ Option PUnit) → StateT σ Option PUnit
  | 0, _ => pure ⟨⟩
  | n + 1, body => do
    forRange n body
    body n

namespace Needs

variable {x : StateT σ Option α} {y : StateT σ Option PUnit} {P Q : Prop}

theorem pure {a : α} : Needs (pure a : StateT σ Option α) True := fun _ ↦ Completes.pure_iff

theorem congr (h : Needs x P) (hPQ : P ↔ Q) : Needs x Q := fun s ↦ (h s).trans hPQ

/-- Both parts must not fault, if the second does not depend on what the first returns. -/
theorem bind {f : α → StateT σ Option β} (hx : Needs x P) (hf : ∀ a, Needs (f a) Q) :
    Needs (x >>= f) (P ∧ Q) := by
  intro s
  rw [Completes.bind_iff, ← hx s]
  constructor
  · rintro ⟨a, s', hrun, hrest⟩
    exact ⟨⟨a, s', hrun, trivial⟩, (hf a s').mp hrest⟩
  · rintro ⟨⟨a, s', hrun, -⟩, hQ⟩
    exact ⟨a, s', hrun, (hf a s').mpr hQ⟩

theorem when {c : Prop} [Decidable c] (hy : Needs y P) : Needs (when c y) (c → P) := by
  rw [Wwan.when]
  split
  next hc => exact hy.congr ⟨fun hP _ ↦ hP, fun hP ↦ hP hc⟩
  next hc => exact pure.congr ⟨fun _ hP ↦ absurd hP hc, fun _ ↦ trivial⟩

/-- No pass of a loop may fault. -/
theorem forRange {body : ℕ → StateT σ Option PUnit} {R : ℕ → Prop} (n : ℕ)
    (h : ∀ i, Needs (body i) (R i)) : Needs (forRange n body) (∀ i < n, R i) := by
  induction n with
  | zero => exact pure.congr ⟨fun _ i hi ↦ absurd hi (Nat.not_lt_zero i), fun _ ↦ trivial⟩
  | succ n ih =>
    apply (ih.bind fun _ ↦ h n).congr
    constructor
    · rintro ⟨hall, hlast⟩ i hi
      rcases Nat.lt_succ_iff_lt_or_eq.mp hi with hlt | rfl
      · exact hall i hlt
      · exact hlast
    · intro hall
      exact ⟨fun i hi ↦ hall i (Nat.lt_succ_of_lt hi), hall n (Nat.lt_succ_self n)⟩

end Needs

end Wwan
