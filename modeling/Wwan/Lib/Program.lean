import Wwan.Lib.Transition

/-!
# A thread and its environment

A program is a tree: it has returned, or it asks for an operation and goes on with the result.
Operations act on a state that the environment changes too, between any two operations of the
thread. `wp` is the weakest precondition of a program in that setting: it is closed under steps of
the environment, and it asks for an invariant at every point. `Semantics.reach_wp` shows that it
says about every run what it is meant to say.
-/

namespace Wwan

universe u v w

/-- A program that performs operations and returns an `α`. -/
inductive Prog (Op : Type u) (Res : Op → Type v) (α : Type w)
  | ret (a : α)
  | op (o : Op) (k : Res o → Prog Op Res α)

namespace Prog

variable {Op : Type u} {Res : Op → Type v} {α β : Type w}

/-- One program after the other. -/
def bind (f : α → Prog Op Res β) : Prog Op Res α → Prog Op Res β
  | ret a => f a
  | op o k => op o fun r ↦ (k r).bind f

instance : Monad (Prog Op Res) where
  pure := ret
  bind p f := p.bind f

@[simp] theorem ret_bind (a : α) (f : α → Prog Op Res β) : (ret a >>= f) = f a := rfl

@[simp] theorem op_bind (o : Op) (k : Res o → Prog Op Res α) (f : α → Prog Op Res β) :
    (op o k >>= f) = op o fun r ↦ k r >>= f := rfl

/-- A program can return a value, if its operations may have any results. -/
inductive Leaf : Prog Op Res α → α → Prop
  | ret (a : α) : Leaf (ret a) a
  | op {o : Op} {k : Res o → Prog Op Res α} {a : α} (r : Res o) (h : Leaf (k r) a) : Leaf (op o k) a

@[simp] theorem leaf_ret {a b : α} : Leaf (ret b : Prog Op Res α) a ↔ a = b := by
  constructor
  · rintro ⟨⟩
    rfl
  · rintro rfl
    exact .ret a

@[simp] theorem leaf_op {o : Op} {k : Res o → Prog Op Res α} {a : α} :
    Leaf (op o k) a ↔ ∃ r, Leaf (k r) a := by
  constructor
  · rintro (_ | ⟨r, h⟩)
    exact ⟨r, h⟩
  · rintro ⟨r, h⟩
    exact .op r h

theorem leaf_bind {p : Prog Op Res α} {f : α → Prog Op Res β} {b : β} :
    Leaf (p >>= f) b ↔ ∃ a, Leaf p a ∧ Leaf (f a) b := by
  induction p with
  | ret a => simp
  | op o k ih =>
    constructor
    · intro h
      obtain ⟨r, h⟩ := leaf_op.mp h
      obtain ⟨a, ha, hb⟩ := (ih r).mp h
      exact ⟨a, .op r ha, hb⟩
    · rintro ⟨a, ha, hb⟩
      obtain ⟨r, ha⟩ := leaf_op.mp ha
      exact .op r ((ih r).mpr ⟨a, ha, hb⟩)

/-! ### Operations without a state -/

/-- The value that a program returns, if the results of the operations are given; an operation
without a result ends it. -/
def eval (f : (o : Op) → Option (Res o)) : Prog Op Res α → Option α
  | ret a => some a
  | op o k => (f o).bind fun r ↦ (k r).eval f

/-- The program comes to an operation. -/
inductive Asks (f : (o : Op) → Option (Res o)) : Prog Op Res α → Op → Prop
  | /-- The next operation. -/
    head {o : Op} {k : Res o → Prog Op Res α} : Asks f (op o k) o
  | /-- One after the result of the next. -/
    tail {o o' : Op} {k : Res o → Prog Op Res α} {r : Res o} (hr : f o = some r)
      (h : Asks f (k r) o') : Asks f (op o k) o'

/-- A program returns a value if and only if every operation that it comes to has a result. -/
theorem isSome_eval {f : (o : Op) → Option (Res o)} {p : Prog Op Res α} :
    (p.eval f).isSome ↔ ∀ o, Asks f p o → (f o).isSome := by
  induction p with
  | ret a => exact iff_of_true rfl nofun
  | op o k ih =>
    cases hr : f o with
    | none =>
      rw [eval, hr]
      refine iff_of_false Bool.noConfusion fun h ↦ ?_
      have hhead := h o .head
      rw [hr] at hhead
      cases hhead
    | some r =>
      rw [eval, hr, Option.bind_some, ih r]
      constructor
      · rintro h o' (_ | ⟨hr', ho'⟩)
        · rw [hr]
          rfl
        · cases hr.symm.trans hr'
          exact h o' ho'
      · exact fun h o' ho' ↦ h o' (.tail hr ho')

end Prog

/-- How operations act on a state: with an input that the environment chooses they give a result,
or none, and then the thread ends there. -/
structure Semantics (Op : Type u) (Res : Op → Type v) (σ ι ε : Type*) where
  /-- The inputs for an operation; while there are none the operation blocks. -/
  enabled : Op → σ → ι → Prop
  /-- The result of an operation and the state after it. -/
  perform : (o : Op) → σ → ι → Option (Res o) × σ
  /-- A step of the environment. -/
  react : σ → ε → σ

/-- A thread, with what is left of its program, and the state. -/
structure Thread (Op : Type u) (Res : Op → Type v) (σ : Type*) (α : Type w) where
  prog : Option (Prog Op Res α)
  state : σ

namespace Semantics

variable {Op : Type u} {Res : Op → Type v} {σ ι ε : Type*} {α β : Type w}
variable (M : Semantics Op Res σ ι ε)

/-- An input fits a program. -/
def EnabledFor (s : σ) (i : ι) : Option (Prog Op Res α) → Prop
  | some (.op o _) => M.enabled o s i
  | _ => False

/-- An additional condition on the inputs. -/
def OkFor (ok : Op → σ → ι → Prop) (s : σ) (i : ι) : Option (Prog Op Res α) → Prop
  | some (.op o _) => ok o s i
  | _ => True

/-- The thread performs its next operation. -/
def advance (s : σ) (i : ι) : Option (Prog Op Res α) → Thread Op Res σ α
  | some (.op o k) => ⟨(M.perform o s i).1.map k, (M.perform o s i).2⟩
  | prog => ⟨prog, s⟩

/-- The runs of a program in an environment. -/
def system (p : Prog Op Res α) (s : σ) : System (Thread Op Res σ α) (ι ⊕ ε) where
  init := ⟨some p, s⟩
  enabled t e := match e with
    | .inl i => M.EnabledFor t.state i t.prog
    | .inr _ => True
  next t e := match e with
    | .inl i => M.advance t.state i t.prog
    | .inr e => { t with state := M.react t.state e }

/-- The guard of runs in which all inputs satisfy a condition. -/
def guard (ok : Op → σ → ι → Prop) (t : Thread Op Res σ α) : ι ⊕ ε → Prop
  | .inl i => OkFor ok t.state i t.prog
  | .inr _ => True

section Decidable

variable {M}

instance decidableEnabledFor [h : ∀ o s i, Decidable (M.enabled o s i)] (s : σ) (i : ι) :
    (prog : Option (Prog Op Res α)) → Decidable (M.EnabledFor s i prog)
  | some (.op o _) => h o s i
  | some (.ret _) => .isFalse id
  | none => .isFalse id

instance decidableOkFor {ok : Op → σ → ι → Prop} [h : ∀ o s i, Decidable (ok o s i)] (s : σ)
    (i : ι) : (prog : Option (Prog Op Res α)) → Decidable (OkFor ok s i prog)
  | some (.op o _) => h o s i
  | some (.ret _) => .isTrue trivial
  | none => .isTrue trivial

instance decidableEnabled [∀ o s i, Decidable (M.enabled o s i)] (p : Prog Op Res α) (s₀ : σ) :
    (t : Thread Op Res σ α) → (e : ι ⊕ ε) → Decidable ((M.system p s₀).enabled t e)
  | t, .inl i => inferInstanceAs (Decidable (M.EnabledFor t.state i t.prog))
  | _, .inr _ => .isTrue trivial

instance decidableGuard {ok : Op → σ → ι → Prop} [∀ o s i, Decidable (ok o s i)] :
    (t : Thread Op Res σ α) → (e : ι ⊕ ε) → Decidable (guard ok t e)
  | t, .inl i => inferInstanceAs (Decidable (OkFor ok t.state i t.prog))
  | _, .inr _ => .isTrue trivial

end Decidable

/-- The states the environment can bring about. -/
inductive Later : σ → σ → Prop
  | refl (s : σ) : Later s s
  | react {s s' : σ} (e : ε) : Later s s' → Later s (M.react s' e)

/-- An assertion that the environment cannot break. -/
def Stable (P : σ → Prop) : Prop := ∀ s e, P s → P (M.react s e)

variable {M}

theorem Later.trans {s₁ s₂ s₃ : σ} (h₁₂ : M.Later s₁ s₂) (h₂₃ : M.Later s₂ s₃) :
    M.Later s₁ s₃ := by
  induction h₂₃ with
  | refl => exact h₁₂
  | react e _ ih => exact ih.react e

theorem Stable.later {P : σ → Prop} (h : M.Stable P) {s s' : σ} (hlater : M.Later s s') (hs : P s) :
    P s' := by
  induction hlater with
  | refl => exact hs
  | react e _ ih => exact h _ e ih

variable (M) (ok : Op → σ → ι → Prop) (Inv : σ → Prop)

/-- The weakest precondition: in the runs whose inputs are `ok`, the invariant holds throughout and
what is returned satisfies `Q`. -/
def wp (Q : α → σ → Prop) : Prog Op Res α → σ → Prop
  | .ret a, s => ∀ s', M.Later s s' → Inv s' ∧ Q a s'
  | .op o k, s => ∀ s', M.Later s s' → Inv s' ∧ ∀ i, M.enabled o s' i → ok o s' i →
      (∀ r ∈ (M.perform o s' i).1, wp Q (k r) (M.perform o s' i).2) ∧
        ((M.perform o s' i).1 = none → ∀ s'', M.Later (M.perform o s' i).2 s'' → Inv s'')

variable {M ok Inv} {Q Q' : α → σ → Prop} {p : Prog Op Res α} {s : σ}

theorem wp_inv (h : M.wp ok Inv Q p s) : Inv s := by
  cases p with
  | ret a => exact (h s (.refl s)).1
  | op o k => exact (h s (.refl s)).1

theorem wp_later {s' : σ} (h : M.wp ok Inv Q p s) (hlater : M.Later s s') :
    M.wp ok Inv Q p s' := by
  cases p with
  | ret a => exact fun s'' hs'' ↦ h s'' (hlater.trans hs'')
  | op o k => exact fun s'' hs'' ↦ h s'' (hlater.trans hs'')

theorem wp_mono (hQ : ∀ a s, Q a s → Q' a s) (h : M.wp ok Inv Q p s) : M.wp ok Inv Q' p s := by
  induction p generalizing s with
  | ret a => exact fun s' hs' ↦ ⟨(h s' hs').1, hQ a s' (h s' hs').2⟩
  | op o k ih =>
    intro s' hs'
    refine ⟨(h s' hs').1, fun i hi hok ↦ ?_⟩
    obtain ⟨hret, hend⟩ := (h s' hs').2 i hi hok
    exact ⟨fun r hr ↦ ih r (hret r hr), hend⟩

/-- One program after the other: what the first returns is the precondition of the second. -/
theorem wp_bind {Q : β → σ → Prop} {f : α → Prog Op Res β}
    (h : M.wp ok Inv (fun a ↦ M.wp ok Inv Q (f a)) p s) : M.wp ok Inv Q (p >>= f) s := by
  induction p generalizing s with
  | ret a => exact (h s (.refl s)).2
  | op o k ih =>
    intro s' hs'
    refine ⟨(h s' hs').1, fun i hi hok ↦ ?_⟩
    obtain ⟨hret, hend⟩ := (h s' hs').2 i hi hok
    exact ⟨fun r hr ↦ ih r (hret r hr), hend⟩

/-- A program that has returned, with an assertion that the environment cannot break. -/
theorem wp_ret {P : σ → Prop} {a : α} (hstable : M.Stable P) (hP : P s)
    (h : ∀ s, P s → Inv s ∧ Q a s) : M.wp ok Inv Q (.ret a) s :=
  fun s' hs' ↦ h s' (hstable.later hs' hP)

/-- An operation, with an assertion that the environment cannot break. -/
theorem wp_op {P : σ → Prop} {o : Op} {k : Res o → Prog Op Res α} (hstable : M.Stable P)
    (hP : P s) (hinv : ∀ s, P s → Inv s)
    (h : ∀ s i, P s → M.enabled o s i → ok o s i → ∃ r, (M.perform o s i).1 = some r ∧
      M.wp ok Inv Q (k r) (M.perform o s i).2) :
    M.wp ok Inv Q (.op o k) s := by
  intro s' hs'
  have hP' := hstable.later hs' hP
  refine ⟨hinv s' hP', fun i hi hok ↦ ?_⟩
  obtain ⟨r, hr, hwp⟩ := h s' i hP' hi hok
  constructor
  · rintro r' hr'
    rw [hr] at hr'
    rwa [← Option.some.inj hr']
  · intro hnone
    rw [hr] at hnone
    cases hnone

/-- An operation that ends the thread. -/
theorem wp_stop {P : σ → Prop} {o : Op} {k : Res o → Prog Op Res α} (hstable : M.Stable P)
    (hP : P s) (hinv : ∀ s, P s → Inv s)
    (h : ∀ s i, P s → M.enabled o s i → (M.perform o s i).1 = none ∧ P (M.perform o s i).2) :
    M.wp ok Inv Q (.op o k) s := by
  intro s' hs'
  have hP' := hstable.later hs' hP
  refine ⟨hinv s' hP', fun i hi _ ↦ ?_⟩
  obtain ⟨hnone, hnext⟩ := h s' i hP' hi
  constructor
  · intro r hr
    rw [hnone] at hr
    cases hr
  · exact fun _ s'' hs'' ↦ hinv s'' (hstable.later hs'' hnext)

/-- In the runs of a program whose precondition holds, the precondition of what is left of it
always holds. -/
theorem reach_wp {t : Thread Op Res σ α} (h : M.wp ok Inv Q p s)
    (ht : (M.system p s).Reach (guard ok) t) :
    (∀ p', t.prog = some p' → M.wp ok Inv Q p' t.state) ∧
      ∀ s', M.Later t.state s' → Inv s' := by
  induction ht with
  | init =>
    refine ⟨fun p' hp' ↦ ?_, fun s' hs' ↦ wp_inv (wp_later h hs')⟩
    rwa [← Option.some.inj hp']
  | @step t e _ henabled hok ih =>
    obtain ⟨hwp, hinv⟩ := ih
    cases e with
    | inr e =>
      have hreact : M.Later t.state (M.react t.state e) := (Later.refl _).react e
      exact ⟨fun p' hp' ↦ wp_later (hwp p' hp') hreact,
        fun s' hs' ↦ hinv s' (hreact.trans hs')⟩
    | inl i =>
      obtain ⟨prog, state⟩ := t
      match prog with
      | none => exact absurd henabled id
      | some (.ret a) => exact absurd henabled id
      | some (.op o k) =>
        obtain ⟨hret, hend⟩ := (hwp _ rfl state (.refl _)).2 i henabled hok
        change (∀ p', (M.perform o state i).1.map k = some p' →
          M.wp ok Inv Q p' (M.perform o state i).2) ∧
            ∀ s', M.Later (M.perform o state i).2 s' → Inv s'
        cases hperform : (M.perform o state i).1 with
        | none => exact ⟨fun p' hp' ↦ (by cases hp'), hend hperform⟩
        | some r =>
          have hnext := hret r hperform
          refine ⟨fun p' hp' ↦ ?_, fun s' hs' ↦ wp_inv (wp_later hnext hs')⟩
          rwa [← Option.some.inj hp']

/-- What is returned satisfies the postcondition. -/
theorem reach_ret {a : α} {s' : σ} (h : M.wp ok Inv Q p s)
    (ht : (M.system p s).Reach (guard ok) ⟨some (.ret a), s'⟩) : Q a s' :=
  ((reach_wp h ht).1 _ rfl s' (.refl s')).2

/-- The invariant holds in all runs. -/
theorem reach_inv {t : Thread Op Res σ α} (h : M.wp ok Inv Q p s)
    (ht : (M.system p s).Reach (guard ok) t) : Inv t.state :=
  (reach_wp h ht).2 _ (.refl _)

/-- What a run returns is among what the program can return. -/
theorem reach_leaf {ok : Thread Op Res σ α → ι ⊕ ε → Prop} {t : Thread Op Res σ α}
    (ht : (M.system p s).Reach ok t) {p' : Prog Op Res α} (hp' : t.prog = some p') {a : α}
    (ha : p'.Leaf a) : p.Leaf a := by
  induction ht generalizing p' with
  | init =>
    obtain rfl := Option.some.inj hp'
    exact ha
  | @step t e _ henabled _ ih =>
    cases e with
    | inr e => exact ih hp' ha
    | inl i =>
      obtain ⟨prog, state⟩ := t
      match prog with
      | none => exact absurd henabled id
      | some (.ret b) => exact absurd henabled id
      | some (.op o k) =>
        change (M.perform o state i).1.map k = some p' at hp'
        obtain ⟨r, -, rfl⟩ := Option.map_eq_some_iff.mp hp'
        exact ih rfl (.op r ha)

end Semantics

end Wwan
