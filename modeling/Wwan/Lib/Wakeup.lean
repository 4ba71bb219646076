import Mathlib.Logic.Basic

/-!
# Flags that are set by signals

A caller waits for a condition by waiting for a flag. The one who makes the condition
true sends a signal, and the flag is set when the signal is delivered. A caller that has
looked at the condition and found it false clears the flag later: it is *stale* in
between.

No wakeup is lost as long as no signal is delivered while the condition is true and a
caller is stale.
-/

namespace Wwan

/-- What matters about a flag. -/
structure Wakeup where
  /-- The condition that is waited for. -/
  ready : Prop
  /-- The flag is set. -/
  flag : Prop
  /-- A signal has been sent and not been delivered. -/
  pending : Prop
  /-- Some caller is going to clear the flag. -/
  stale : Prop

namespace Wakeup

/-- The steps around a flag. -/
inductive Step (w w' : Wakeup) : Prop
  | /-- The condition changes. If it becomes true, there is a signal. -/
    change (ready : w'.ready → w.ready ∨ w'.pending) (flag : w.flag → w'.flag)
      (pending : w.pending → w'.pending) (stale : w'.stale → w.stale)
  | /-- A signal is delivered. -/
    deliver (safe : w.ready → ¬ w.stale) (ready : w'.ready → w.ready) (flag : w'.flag)
      (stale : w'.stale → w.stale)
  | /-- A caller finds the condition false. -/
    sample (unready : ¬ w.ready) (ready : w'.ready → w.ready)
  | /-- A stale caller clears the flag. -/
    clear (was : w.stale) (ready : w'.ready → w.ready) (pending : w.pending → w'.pending)
  | /-- A caller looks at the condition and sets the flag by it at the same time. -/
    settle (ready : w'.ready → w.ready) (flag : w'.ready → w'.flag)
      (pending : w.pending → w'.pending) (stale : w'.stale → w.stale)

/-- No wakeup is lost. -/
structure Ok (w : Wakeup) : Prop where
  /-- The flag is set or going to be. -/
  awake : w.ready → w.flag ∨ w.pending
  /-- A signal comes after the flag is cleared. -/
  again : w.stale → w.ready → w.pending

variable {w w' : Wakeup}

theorem Step.refl (w : Wakeup) : Step w w := .change .inl id id id

theorem Ok.step (h : w.Ok) (hs : Step w w') : w'.Ok := by
  cases hs with
  | change ready flag pending stale =>
    refine ⟨fun hr ↦ ?_, fun hst hr ↦ ?_⟩
    · rcases ready hr with hr' | hp
      · exact (h.awake hr').imp flag pending
      · exact .inr hp
    · rcases ready hr with hr' | hp
      · exact pending (h.again (stale hst) hr')
      · exact hp
  | deliver safe ready flag stale =>
    exact ⟨fun _ ↦ .inl flag, fun hst hr ↦ absurd (stale hst) (safe (ready hr))⟩
  | sample unready ready =>
    exact ⟨fun hr ↦ absurd (ready hr) unready, fun _ hr ↦ absurd (ready hr) unready⟩
  | clear was ready pending =>
    have hp : w'.ready → w'.pending := fun hr ↦ pending (h.again was (ready hr))
    exact ⟨fun hr ↦ .inr (hp hr), fun _ ↦ hp⟩
  | settle ready flag pending stale =>
    exact ⟨fun hr ↦ .inl (flag hr), fun hst hr ↦ pending (h.again (stale hst) (ready hr))⟩

end Wakeup

end Wwan
