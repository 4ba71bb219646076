import Mathlib.Data.Fintype.Card
import Mathlib.Data.Set.Finite.Basic
import Mathlib.Logic.Relation

/-!
# Unbounded loops as iterated bodies

A `while` loop, or a label with a backward `goto`, is given by its body: one
pass maps the state at the loop head either to a result, when the pass leaves
the loop (`Sum.inl`), or to the next state at the loop head (`Sum.inr`).

Nothing is assumed to terminate. `Reaches` describes the loop heads a run comes
to, `run` is the fuel-bounded interpreter, and `Halts` says that some amount of
fuel is enough. The rules at the end are the arguments one makes about such
loops: a measure that every pass shrinks, a finite link structure without cycles
that the passes follow, and, against termination, a set of states that no pass
leaves. `lockstep_dichotomy` compares two loops pass by pass, and `Halts.exists_run_card` says how
much fuel is enough. `returns_seq_iff` is for a loop whose heads are known beforehand, one for each
pass.
-/

namespace Wwan.Loop

open Relation

variable {σ ρ : Type*}

/-- `Reaches body s t`: the loop started in `s` comes to its head in state `t`. -/
inductive Reaches (body : σ → ρ ⊕ σ) (s : σ) : σ → Prop
  | /-- The first loop head. -/
    refl : Reaches body s s
  | /-- One more pass that stays in the loop. -/
    tail {t u : σ} : Reaches body s t → body t = .inr u → Reaches body s u

/-- Run the loop for at most `n` passes. -/
def run (body : σ → ρ ⊕ σ) : ℕ → σ → Option ρ
  | 0, _ => none
  | n + 1, s => match body s with
    | .inl r => some r
    | .inr t => run body n t

/-- The loop started in `s` returns `r`. -/
def Returns (body : σ → ρ ⊕ σ) (s : σ) (r : ρ) : Prop := ∃ n, run body n s = some r

/-- The loop started in `s` terminates. -/
def Halts (body : σ → ρ ⊕ σ) (s : σ) : Prop := ∃ r, Returns body s r

variable {body : σ → ρ ⊕ σ} {s t : σ} {r : ρ}

/-! ## One pass -/

/-- A pass that leaves the loop returns its result. -/
theorem returns_of_inl (h : body s = .inl r) : Returns body s r := ⟨1, by simp [run, h]⟩

/-- After a pass that stays in the loop, the run returns what the rest returns. -/
theorem returns_of_inr (h : body s = .inr t) : Returns body s r ↔ Returns body t r := by
  constructor
  · rintro ⟨n, hn⟩
    cases n with
    | zero => simp [run] at hn
    | succ n => exact ⟨n, by simpa [run, h] using hn⟩
  · rintro ⟨n, hn⟩
    exact ⟨n + 1, by simpa [run, h] using hn⟩

/-- The passes before a reached loop head do not change what is returned. -/
theorem Reaches.returns_iff (h : Reaches body s t) : Returns body s r ↔ Returns body t r := by
  induction h with
  | refl => exact Iff.rfl
  | tail _ hb ih => exact ih.trans (returns_of_inr hb)

/-- A loop terminates exactly when it does so from a loop head it reaches. -/
theorem Reaches.halts_iff (h : Reaches body s t) : Halts body s ↔ Halts body t :=
  exists_congr fun _ ↦ h.returns_iff

/-- Reachability composes. -/
theorem Reaches.trans {u : σ} (h : Reaches body s t) (h' : Reaches body t u) :
    Reaches body s u := by
  induction h' with
  | refl => exact h
  | tail _ hb ih => exact ih.tail hb

/-- The loop heads are the first one and those of the run from the second on. -/
theorem Reaches.cases_head (h : Reaches body s t) :
    t = s ∨ ∃ u, body s = .inr u ∧ Reaches body u t := by
  induction h with
  | refl => exact .inl rfl
  | tail _ hb ih =>
    rcases ih with rfl | ⟨u, hu, hreach⟩
    · exact .inr ⟨_, hb, .refl⟩
    · exact .inr ⟨u, hu, hreach.tail hb⟩

/-- What a loop returns is the result of the pass at the last loop head. -/
theorem Returns.exists_last (h : Returns body s r) :
    ∃ t, Reaches body s t ∧ body t = .inl r := by
  obtain ⟨n, hn⟩ := h
  induction n generalizing s with
  | zero => simp [run] at hn
  | succ n ih =>
    cases hb : body s with
    | inl q => exact ⟨s, .refl, by simpa [run, hb] using hn⟩
    | inr t =>
      obtain ⟨u, htu, hu⟩ := ih (by simpa [run, hb] using hn)
      exact ⟨u, (Reaches.refl.tail hb).trans htu, hu⟩

/-- A loop returns at most one result. -/
theorem Returns.unique {q : ρ} (hr : Returns body s r) (hq : Returns body s q) : r = q := by
  obtain ⟨n, hn⟩ := hr
  induction n generalizing s with
  | zero => simp [run] at hn
  | succ n ih =>
    cases hb : body s with
    | inl p =>
      obtain ⟨m, hm⟩ := hq
      cases m with
      | zero => simp [run] at hm
      | succ m =>
        simp only [run, hb, Option.some.injEq] at hn hm
        exact hn.symm.trans hm
    | inr t => exact ih ((returns_of_inr hb).mp hq) (by simpa [run, hb] using hn)

/-- More fuel does no harm. -/
theorem Returns.exists_fuel (h : Returns body s r) : ∃ n, ∀ m ≥ n, run body m s = some r := by
  obtain ⟨n, hn⟩ := h
  refine ⟨n, fun m hm ↦ ?_⟩
  induction n generalizing s m with
  | zero => simp [run] at hn
  | succ n ih =>
    obtain ⟨k, rfl⟩ := Nat.exists_eq_add_of_le' hm
    cases hb : body s with
    | inl q => simpa [run, hb] using hn
    | inr t =>
      have hrest := ih (by simpa [run, hb] using hn) (k + n) (Nat.le_add_left n k)
      simpa [run, hb, ← Nat.add_assoc] using hrest

/-! ## Termination rules -/

/-- A loop whose passes shrink a measure terminates. -/
theorem halts_of_measure (μ : σ → ℕ)
    (h : ∀ t u, Reaches body s t → body t = .inr u → μ u < μ t) : Halts body s := by
  induction hn : μ s using Nat.strong_induction_on generalizing s with
  | _ n ih =>
    cases hb : body s with
    | inl q => exact ⟨q, returns_of_inl hb⟩
    | inr t =>
      have hst : Reaches body s t := Reaches.refl.tail hb
      have hlt : μ t < n := hn ▸ h s t .refl hb
      obtain ⟨r, hr⟩ := ih (μ t) hlt (fun u v hu hv ↦ h u v (hst.trans hu) hv) rfl
      exact ⟨r, (returns_of_inr hb).mpr hr⟩

/-- A loop never terminates from a state of a set that every pass stays in. -/
theorem not_halts_of_invariant {P : σ → Prop} (hP : ∀ t, P t → ∃ u, body t = .inr u ∧ P u)
    (hs : P s) : ¬ Halts body s := by
  rintro ⟨r, n, hn⟩
  induction n generalizing s with
  | zero => simp [run] at hn
  | succ n ih =>
    obtain ⟨t, hb, ht⟩ := hP s hs
    exact ih ht (by simpa [run, hb] using hn)

/-- A loop that comes to a pass which changes nothing never terminates. -/
theorem not_halts_of_fixed (ht : Reaches body s t) (hb : body t = .inr t) :
    ¬ Halts body s := by
  rw [ht.halts_iff]
  refine not_halts_of_invariant (P := fun u ↦ u = t) ?_ rfl
  rintro _ rfl
  exact ⟨_, hb, rfl⟩

/-! ## Two loops in lockstep -/

section Lockstep

variable {σ' ρ' : Type*} {body' : σ' → ρ' ⊕ σ'} {s' : σ'} {R : σ → σ' → Prop}
  {Q : ρ → ρ' → Prop}

/-- If passes from related states end in related results or related states, the
second loop returns whenever the first does, with a related result. -/
theorem Returns.lockstep (h : ∀ t t', R t t' → Sum.LiftRel Q R (body t) (body' t'))
    (hs : R s s') (hr : Returns body s r) : ∃ r', Returns body' s' r' ∧ Q r r' := by
  obtain ⟨n, hn⟩ := hr
  induction n generalizing s s' with
  | zero => simp [run] at hn
  | succ n ih =>
    have hpass := h s s' hs
    cases hb : body s with
    | inl q =>
      rw [hb] at hpass
      cases hb' : body' s' with
      | inr _ => simp [hb'] at hpass
      | inl q' =>
        have hq : q = r := by simpa [run, hb] using hn
        exact ⟨q', returns_of_inl hb', hq ▸ by simpa [hb'] using hpass⟩
    | inr t =>
      rw [hb] at hpass
      cases hb' : body' s' with
      | inl _ => simp [hb'] at hpass
      | inr t' =>
        have ht : R t t' := by simpa [hb'] using hpass
        obtain ⟨r', hr', hq⟩ := ih ht (by simpa [run, hb] using hn)
        exact ⟨r', (returns_of_inr hb').mpr hr', hq⟩

/-- Loops in lockstep either both run for ever or return related results. -/
theorem lockstep_dichotomy (h : ∀ t t', R t t' → Sum.LiftRel Q R (body t) (body' t'))
    (hs : R s s') :
    (¬ Halts body s ∧ ¬ Halts body' s') ∨
      ∃ r r', Returns body s r ∧ Returns body' s' r' ∧ Q r r' := by
  by_cases hhalt : Halts body s
  · obtain ⟨r, hr⟩ := hhalt
    obtain ⟨r', hr', hq⟩ := hr.lockstep h hs
    exact .inr ⟨r, r', hr, hr', hq⟩
  · refine .inl ⟨hhalt, ?_⟩
    rintro ⟨r', hr'⟩
    -- the same rule, read from the second loop to the first
    have hswap : ∀ t' t, R t t' → Sum.LiftRel (Function.swap Q) (Function.swap R)
        (body' t') (body t) := fun t' t ht ↦ by
      have hpass := h t t' ht
      generalize body t = a, body' t' = b at hpass
      cases hpass with
      | inl hq => exact .inl hq
      | inr hR => exact .inr hR
    obtain ⟨r, hr, -⟩ := hr'.lockstep (R := Function.swap R) hswap hs
    exact hhalt ⟨r, hr⟩

end Lockstep

/-! ## Loops that follow links

The state at the loop head has a key, and a pass leads from a key to a linked
one. Termination is then a matter of the link relation alone. -/

section Links

variable {κ : Type*} {R : κ → κ → Prop} (key : σ → κ)

/-- The keys a run comes to are linked to the first. -/
theorem Reaches.linked (hkey : ∀ t u, body t = .inr u → R (key t) (key u))
    (h : Reaches body s t) : ReflTransGen R (key s) (key t) := by
  induction h with
  | refl => exact .refl
  | tail _ hb ih => exact ih.tail (hkey _ _ hb)

/-- A run whose passes follow every link comes to every key linked to the first. -/
theorem exists_reaches_of_linked
    (hkey : ∀ t k, R (key t) k → ∃ u, body t = .inr u ∧ key u = k) {k : κ}
    (h : ReflTransGen R (key s) k) : ∃ t, Reaches body s t ∧ key t = k := by
  induction h with
  | refl => exact ⟨s, .refl, rfl⟩
  | tail _ hR ih =>
    obtain ⟨t, ht, rfl⟩ := ih
    obtain ⟨u, hb, hu⟩ := hkey t _ hR
    exact ⟨u, ht.tail hb, hu⟩

/-- A loop terminates if it can come to finitely many keys and none of them lies on
a cycle of links. -/
theorem halts_of_acyclic (hkey : ∀ t u, body t = .inr u → R (key t) (key u))
    (hfin : {k | ReflTransGen R (key s) k}.Finite)
    (hac : ∀ k, ReflTransGen R (key s) k → ¬ TransGen R k k) : Halts body s := by
  let K := {k | ReflTransGen R (key s) k}
  have : Finite K := hfin
  let later : K → K → Prop := fun a b ↦ TransGen R b a
  have : IsTrans K later := ⟨fun _ _ _ hab hbc ↦ hbc.trans hab⟩
  have : Std.Irrefl later := ⟨fun k ↦ hac k k.2⟩
  have hwf : WellFounded later := Finite.wellFounded_of_trans_of_irrefl later
  have hall : ∀ k : K, ∀ t, key t = k → Halts body t := by
    intro k
    induction k using hwf.induction with
    | _ k ih =>
      intro t ht
      cases hb : body t with
      | inl r => exact ⟨r, returns_of_inl hb⟩
      | inr u =>
        have hR : R k (key u) := ht ▸ hkey t u hb
        obtain ⟨r, hr⟩ := ih ⟨key u, ReflTransGen.tail k.2 hR⟩ (.single hR) u rfl
        exact ⟨r, (returns_of_inr hb).mpr hr⟩
  exact hall ⟨key s, .refl⟩ s rfl

/-- A loop whose passes follow every link does not terminate once it can come to a
cycle of links. -/
theorem not_halts_of_cycle (hkey : ∀ t k, R (key t) k → ∃ u, body t = .inr u ∧ key u = k)
    {k : κ} (hk : ReflTransGen R (key s) k) (hcyc : TransGen R k k) : ¬ Halts body s := by
  obtain ⟨t, ht, rfl⟩ := exists_reaches_of_linked key hkey hk
  rw [ht.halts_iff]
  -- Being on a cycle is passed on along its links.
  refine not_halts_of_invariant (P := fun u ↦ TransGen R (key u) (key u)) ?_ hcyc
  intro u hu
  obtain ⟨k', hR, hback⟩ := TransGen.head'_iff.mp hu
  obtain ⟨v, hb, rfl⟩ := hkey u k' hR
  exact ⟨v, hb, TransGen.tail' hback hR⟩

end Links

/-! ## Loops that run through a sequence

The state at the loop head depends on the number of passes only. -/

section Sequence

variable {f : ℕ → σ}

/-- A run comes to the states that only passes which stay come before. -/
theorem reaches_seq {k : ℕ} (h : ∀ i < k, body (f i) = .inr (f (i + 1))) :
    Reaches body (f 0) (f k) := by
  induction k with
  | zero => exact .refl
  | succ k ih => exact (ih fun i hi ↦ h i (Nat.lt_succ_of_lt hi)).tail (h k (Nat.lt_succ_self k))

/-- A run comes to no other states. -/
theorem Reaches.exists_seq (hbody : ∀ k t, body (f k) = .inr t → t = f (k + 1))
    (h : Reaches body (f 0) t) :
    ∃ k, t = f k ∧ ∀ i < k, body (f i) = .inr (f (i + 1)) := by
  induction h with
  | refl => exact ⟨0, rfl, fun i hi ↦ absurd hi (Nat.not_lt_zero i)⟩
  | tail _ hb ih =>
    obtain ⟨k, rfl, hstay⟩ := ih
    have hnext := hbody k _ hb
    refine ⟨k + 1, hnext, fun i hi ↦ ?_⟩
    rcases Nat.lt_succ_iff_lt_or_eq.mp hi with hlt | rfl
    · exact hstay i hlt
    · rw [hb, hnext]

/-- A loop returns the result of the first pass that does not stay. -/
theorem returns_seq_iff (hbody : ∀ k t, body (f k) = .inr t → t = f (k + 1)) :
    Returns body (f 0) r ↔
      ∃ k, body (f k) = .inl r ∧ ∀ i < k, body (f i) = .inr (f (i + 1)) := by
  constructor
  · intro h
    obtain ⟨t, hreach, hlast⟩ := h.exists_last
    obtain ⟨k, rfl, hstay⟩ := hreach.exists_seq hbody
    exact ⟨k, hlast, hstay⟩
  · rintro ⟨k, hlast, hstay⟩
    exact (reaches_seq hstay).returns_iff.mpr (returns_of_inl hlast)

end Sequence

/-! ## Fuel -/

/-- A loop does not come back to a state if it terminates. -/
theorem Halts.not_reaches (h : Halts body s) (hb : body s = .inr t) : ¬ Reaches body t s := by
  intro hback
  let R : σ → σ → Prop := fun a b ↦ body a = .inr b
  have hlinks : ReflTransGen R t s := hback.linked id fun _ _ hb ↦ hb
  have hcyc : TransGen R s s := .head' hb hlinks
  exact not_halts_of_cycle id (fun _ _ hR ↦ ⟨_, hR, rfl⟩) .refl hcyc h

/-- A loop that terminates makes at most as many passes as there are states it can come to. -/
theorem Halts.exists_run_card [DecidableEq σ] (h : Halts body s) {S : Finset σ}
    (hS : ∀ t, Reaches body s t → t ∈ S) : ∃ r, run body S.card s = some r := by
  induction hn : S.card generalizing s S with
  | zero =>
    have hmem := hS s .refl
    rw [Finset.card_eq_zero.mp hn] at hmem
    cases hmem
  | succ n ih =>
    cases hb : body s with
    | inl q => exact ⟨q, by simp [run, hb]⟩
    | inr t =>
      have ht : Halts body t := (Reaches.refl.tail hb).halts_iff.mp h
      have herase : ∀ u, Reaches body t u → u ∈ S.erase s := by
        intro u hu
        refine Finset.mem_erase.mpr ⟨?_, hS u ((Reaches.refl.tail hb).trans hu)⟩
        rintro rfl
        exact h.not_reaches hb hu
      have hcard : (S.erase s).card = n := by
        rw [Finset.card_erase_of_mem (hS s .refl), hn, Nat.add_sub_cancel]
      obtain ⟨r, hr⟩ := ih ht herase hcard
      exact ⟨r, by simpa [run, hb] using hr⟩

end Wwan.Loop
