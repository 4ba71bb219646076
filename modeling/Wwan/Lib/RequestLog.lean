import Mathlib.Data.List.Basic

/-!
# Logs of requests and messages

A log notes, latest first, the requests that were sent and the messages that were received. A
request can be marked as one that has to be answered. `Since` is what is known between a request
and its answer.
-/

namespace Wwan

/-- An entry of a log. -/
inductive Exchange (Q R : Type*)
  | /-- A request was sent; it has to be answered or need not be. -/
    sent (q : Q) (checked : Bool)
  | /-- A message was received. -/
    received (r : R)
  deriving DecidableEq

namespace Exchange

variable {Q R : Type*} {answers : Q → R → Prop}

/-- For each request that has to be answered an answer was received later. -/
def Answered (answers : Q → R → Prop) (log : List (Exchange Q R)) : Prop :=
  ∀ newer older q, log = newer ++ .sent q true :: older → ∃ r, .received r ∈ newer ∧ answers q r

/-- The log since a request was sent. -/
structure Since (answers : Q → R → Prop) (q : Q) (checked : Bool)
    (newer log : List (Exchange Q R)) : Prop where
  log : ∃ older, log = newer ++ .sent q checked :: older ∧ Answered answers older
  newer : ∀ e ∈ newer, ∃ r, e = .received r

variable {q : Q} {r : R} {checked : Bool} {e : Exchange Q R} {newer log : List (Exchange Q R)}

theorem answered_nil : Answered answers [] := by
  intro newer older q hlog
  exact absurd hlog.symm (List.append_ne_nil_of_right_ne_nil newer (List.cons_ne_nil _ _))

/-- A log stays answered, unless a request is added that has to be answered. -/
theorem Answered.cons (h : Answered answers log) (he : ∀ q, e ≠ .sent q true) :
    Answered answers (e :: log) := by
  intro newer older q hlog
  cases newer with
  | nil => exact absurd (List.cons.inj hlog).1 (he q)
  | cons e' newer =>
    rw [List.cons_append, List.cons.injEq] at hlog
    obtain ⟨r, hmem, hr⟩ := h newer older q hlog.2
    exact ⟨r, List.mem_cons_of_mem _ hmem, hr⟩

theorem Answered.received (h : Answered answers log) (r : R) :
    Answered answers (.received r :: log) :=
  h.cons fun q heq ↦ by cases heq

/-- A request is sent. -/
theorem Answered.sent (h : Answered answers log) (q : Q) (checked : Bool) :
    Since answers q checked [] (.sent q checked :: log) :=
  ⟨⟨log, rfl, h⟩, List.forall_mem_nil _⟩

theorem Since.received (h : Since answers q checked newer log) (r : R) :
    Since answers q checked (.received r :: newer) (.received r :: log) := by
  obtain ⟨older, rfl, holder⟩ := h.log
  exact ⟨⟨older, rfl, holder⟩, List.forall_mem_cons.mpr ⟨⟨r, rfl⟩, h.newer⟩⟩

/-- All is answered if this request is, or need not be. -/
theorem Since.answered (h : Since answers q checked newer log)
    (hanswer : checked → ∃ r, .received r ∈ newer ∧ answers q r) : Answered answers log := by
  obtain ⟨older, rfl, holder⟩ := h.log
  intro newer' older' q' hlog
  rcases List.append_eq_append_iff.mp hlog with ⟨between, rfl, htail⟩ | ⟨between, hnewer, htail⟩
  · cases between with
    | nil =>
      rw [List.nil_append, List.cons.injEq, Exchange.sent.injEq] at htail
      obtain ⟨⟨rfl, hchecked⟩, -⟩ := htail
      rw [List.append_nil]
      exact hanswer hchecked
    | cons e between =>
      rw [List.cons_append, List.cons.injEq] at htail
      obtain ⟨r, hmem, hr⟩ := holder between older' q' htail.2
      exact ⟨r, List.mem_append_right _ (List.mem_cons_of_mem _ hmem), hr⟩
  · cases between with
    | nil =>
      rw [List.nil_append, List.cons.injEq, Exchange.sent.injEq] at htail
      obtain ⟨⟨rfl, hchecked⟩, -⟩ := htail
      rw [List.append_nil] at hnewer
      exact hnewer ▸ hanswer hchecked.symm
    | cons e between =>
      -- after this request nothing was sent
      rw [List.cons_append, List.cons.injEq] at htail
      obtain ⟨r, hreceived⟩ := h.newer e (hnewer ▸ List.mem_append_right _ List.mem_cons_self)
      rw [hreceived] at htail
      cases htail.1

end Exchange

end Wwan
