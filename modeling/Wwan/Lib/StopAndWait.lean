import Mathlib.Data.List.Nodup

/-!
# Stop and wait

Requests from several sources share one peer by waiting in a queue: a request is
written to the peer when it comes to the head of the queue, and an answer removes
the head and has the next one written. A write may fail without notice.

Two properties are of interest. `Serial` says that the head, and nothing else in
the queue, is with the peer; it needs every write to succeed. `Single` says that
nothing but the head is with the peer; failing writes do not harm it. Both break
when the head is withdrawn while it is with the peer, and survive everything
else. `Sole` is `Single` while something waits: it survives the withdrawal of the
last request, if no request comes before its answer.

A request waits for no more answers than there are requests ahead of it (`Ahead`).
-/

namespace Wwan

/-- A queue of requests and what the peer has seen of them. -/
structure StopAndWait (α : Type*) where
  /-- The requests that wait, the one in flight first. -/
  queue : List α
  /-- The requests written to the peer so far. -/
  written : List α
  /-- The requests the peer has answered. -/
  answered : List α

namespace StopAndWait

variable {α : Type*}

/-- What is written when `xs` join a queue: the first, if nothing is ahead of it. -/
def firstWrite (writable : Bool) (queue xs : List α) : List α :=
  if queue = [] ∧ writable = true then xs.take 1 else []

/-- Requests join the queue. -/
def push (writable : Bool) (xs : List α) (s : StopAndWait α) : StopAndWait α :=
  { s with queue := s.queue ++ xs, written := s.written ++ firstWrite writable s.queue xs }

/-- The peer answers `x`: the head leaves the queue and the next one is written. -/
def answer (writable : Bool) (x : α) (s : StopAndWait α) : StopAndWait α :=
  { queue := s.queue.tail
    written := s.written ++ firstWrite writable [] s.queue.tail
    answered := x :: s.answered }

/-- The first request with a property is withdrawn. -/
def withdraw (p : α → Bool) (s : StopAndWait α) : StopAndWait α :=
  { s with queue := s.queue.eraseP p }

/-- The request is with the peer. -/
def InFlight (s : StopAndWait α) (x : α) : Prop := x ∈ s.written ∧ x ∉ s.answered

variable {s : StopAndWait α} {writable : Bool} {x : α} {xs : List α} {p : α → Bool}

theorem firstWrite_of_ne_nil {queue : List α} (h : queue ≠ []) :
    firstWrite writable queue xs = [] := if_neg fun hq ↦ h hq.1

@[simp] theorem firstWrite_nil {queue : List α} : firstWrite writable queue [] = ([] : List α) := by
  simp [firstWrite]

@[simp] theorem firstWrite_true_cons : firstWrite true [] (x :: xs) = [x] := by
  simp [firstWrite]

theorem mem_of_mem_firstWrite {queue : List α} (h : x ∈ firstWrite writable queue xs) :
    queue = [] ∧ xs.head? = some x := by
  unfold firstWrite at h
  split at h
  · rename_i hq
    cases xs with
    | nil => simp at h
    | cons y ys => exact ⟨hq.1, by simpa [eq_comm] using h⟩
  · cases h

/-! ## Nothing but the head is in flight -/

/-- Only the head of the queue is with the peer. -/
def Single (s : StopAndWait α) : Prop := ∀ x, s.InFlight x → s.queue.head? = some x

theorem Single.push (h : s.Single) : (s.push writable xs).Single := by
  rintro x ⟨hw, ha⟩
  rcases List.mem_append.mp hw with hold | hnew
  · have hx := h x ⟨hold, ha⟩
    simp [StopAndWait.push, List.head?_append, hx]
  · obtain ⟨hq, hx⟩ := mem_of_mem_firstWrite hnew
    simp [StopAndWait.push, hq, hx]

theorem Single.answer (h : s.Single) (hx : s.InFlight x) : (s.answer writable x).Single := by
  rintro y ⟨hw, ha⟩
  have hyx : y ≠ x := fun heq ↦ ha (heq ▸ List.mem_cons_self)
  rcases List.mem_append.mp hw with hold | hnew
  · -- An older request in flight would be at the head, where `x` is.
    have hy := h y ⟨hold, fun hmem ↦ ha (List.mem_cons_of_mem _ hmem)⟩
    exact absurd (Option.some.inj (hy.symm.trans (h x hx))) hyx
  · exact (mem_of_mem_firstWrite hnew).2

theorem Single.withdraw (h : s.Single) (hp : ∀ y, s.queue.head? = some y → p y = false) :
    (s.withdraw p).Single := by
  intro x hx
  have hhead := h x hx
  cases hq : s.queue with
  | nil => simp [hq] at hhead
  | cons y ys =>
    have hy : p y = false := hp y (by simp [hq])
    simp only [hq, List.head?_cons] at hhead
    simp [StopAndWait.withdraw, hq, hy, hhead]

/-! ## The head is in flight -/

/-- The head of the queue, and nothing else of it, is with the peer. -/
structure Serial (s : StopAndWait α) : Prop where
  head : ∀ x, s.queue.head? = some x → s.InFlight x
  tail : ∀ x ∈ s.queue.tail, x ∉ s.written
  queue_nodup : s.queue.Nodup
  written_nodup : s.written.Nodup
  answered_subset : s.answered ⊆ s.written

theorem Serial.push (h : s.Serial) (hxs : xs.Nodup) (hqueue : ∀ x ∈ xs, x ∉ s.queue)
    (hwritten : ∀ x ∈ xs, x ∉ s.written) : (s.push true xs).Serial := by
  have hnodup : (s.queue ++ xs).Nodup :=
    h.queue_nodup.append hxs fun x hq hx ↦ hqueue x hx hq
  cases hq : s.queue with
  | cons y ys =>
    have hy := h.head y (by simp [hq])
    have hkeep : (s.push true xs).written = s.written := by
      simp [StopAndWait.push, firstWrite_of_ne_nil, hq]
    refine ⟨?_, ?_, hnodup, hkeep ▸ h.written_nodup, hkeep ▸ h.answered_subset⟩
    · intro x hx
      obtain rfl : y = x := by simpa [StopAndWait.push, hq] using hx
      exact ⟨hkeep ▸ hy.1, hy.2⟩
    · intro x hx
      rw [hkeep]
      rcases List.mem_append.mp (by simpa [StopAndWait.push, hq] using hx) with hold | hnew
      · exact h.tail x (by simpa [hq] using hold)
      · exact hwritten x hnew
  | nil =>
    cases xs with
    | nil => simpa [StopAndWait.push] using h
    | cons x xs =>
      have hx := hwritten x List.mem_cons_self
      have hw : (s.push true (x :: xs)).written = s.written ++ [x] := by
        simp [StopAndWait.push, hq]
      refine ⟨?_, ?_, hnodup, ?_, ?_⟩
      · intro y hy
        obtain rfl : x = y := by simpa [StopAndWait.push, hq] using hy
        exact ⟨by simp [hw], fun ha ↦ hx (h.answered_subset ha)⟩
      · intro y hy
        have hmem : y ∈ xs := by simpa [StopAndWait.push, hq] using hy
        have hne : y ≠ x := fun heq ↦ (List.nodup_cons.mp hxs).1 (heq ▸ hmem)
        simp [hw, hwritten y (List.mem_cons_of_mem _ hmem), hne]
      · rw [hw]
        exact h.written_nodup.append (by simp) (by simpa using hx)
      · rw [hw]
        exact List.subset_append_of_subset_left _ h.answered_subset

theorem Serial.answer (h : s.Serial) (hx : x ∈ s.written) : (s.answer true x).Serial := by
  have htail : s.queue.tail.Nodup := h.queue_nodup.sublist (List.tail_sublist _)
  cases hq : s.queue.tail with
  | nil =>
    have hw : (s.answer true x).written = s.written := by simp [StopAndWait.answer, hq]
    refine ⟨by simp [StopAndWait.answer, hq], by simp [StopAndWait.answer, hq], htail,
      hw ▸ h.written_nodup, ?_⟩
    rw [hw]
    exact List.cons_subset.mpr ⟨hx, h.answered_subset⟩
  | cons y ys =>
    have hy := h.tail y (by simp [hq])
    have hw : (s.answer true x).written = s.written ++ [y] := by
      simp [StopAndWait.answer, hq]
    refine ⟨?_, ?_, htail, ?_, ?_⟩
    · intro z hz
      obtain rfl : y = z := by simpa [StopAndWait.answer, hq] using hz
      refine ⟨by simp [hw], fun ha ↦ ?_⟩
      rcases List.mem_cons.mp ha with rfl | ha
      · exact hy hx
      · exact hy (h.answered_subset ha)
    · intro z hz
      have hmem : z ∈ ys := by simpa [StopAndWait.answer, hq] using hz
      have hne : z ≠ y := fun heq ↦ (List.nodup_cons.mp (hq ▸ htail)).1 (heq ▸ hmem)
      simp [hw, h.tail z (by simp [hq, hmem]), hne]
    · rw [hw]
      exact h.written_nodup.append (by simp) (by simpa using hy)
    · rw [hw]
      exact List.subset_append_of_subset_left _
        (List.cons_subset.mpr ⟨hx, h.answered_subset⟩)

theorem Serial.withdraw (h : s.Serial)
    (hp : ∀ y, s.queue.head? = some y → p y = false ∨ s.queue.tail = []) :
    (s.withdraw p).Serial := by
  have hnodup : (s.queue.eraseP p).Nodup := h.queue_nodup.sublist List.eraseP_sublist
  cases hq : s.queue with
  | nil => exact ⟨by simp [StopAndWait.withdraw, hq], by simp [StopAndWait.withdraw, hq], hnodup,
      h.written_nodup, h.answered_subset⟩
  | cons y ys =>
    cases hy : p y with
    | false =>
      refine ⟨?_, ?_, hnodup, h.written_nodup, h.answered_subset⟩
      · intro x hx
        exact h.head x (by simpa [StopAndWait.withdraw, hq, hy] using hx)
      · intro x hx
        have hmem : x ∈ ys.eraseP p := by simpa [StopAndWait.withdraw, hq, hy] using hx
        exact h.tail x (by simpa [hq] using List.mem_of_mem_eraseP hmem)
    | true =>
      -- The head is withdrawn, but then it was alone.
      have hys : ys = [] := by
        rcases hp y (by simp [hq]) with hfalse | htail
        · simp [hy] at hfalse
        · simpa [hq] using htail
      exact ⟨by simp [StopAndWait.withdraw, hq, hy, hys],
        by simp [StopAndWait.withdraw, hq, hy, hys], hnodup, h.written_nodup,
        h.answered_subset⟩

/-! ## While something waits, nothing but the head is in flight -/

/-- If a request waits, only the head of the queue is with the peer. -/
def Sole (s : StopAndWait α) : Prop := ∀ x y, s.queue.head? = some y → s.InFlight x → x = y

theorem Sole.push (h : s.Sole) (hidle : s.queue = [] → ∀ x, ¬ s.InFlight x) :
    (s.push writable xs).Sole := by
  rintro x y hy ⟨hw, ha⟩
  rcases List.mem_append.mp hw with hold | hnew
  · cases hq : s.queue with
    | nil => exact absurd ⟨hold, ha⟩ (hidle hq x)
    | cons z zs =>
      obtain rfl : z = y := by simpa [StopAndWait.push, hq] using hy
      exact h x z (by simp [hq]) ⟨hold, ha⟩
  · obtain ⟨hq, hx⟩ := mem_of_mem_firstWrite hnew
    have hy' : xs.head? = some y := by simpa [StopAndWait.push, hq] using hy
    exact Option.some.inj (hx.symm.trans hy')

theorem Sole.answer (h : s.Sole) (hx : s.InFlight x) : (s.answer writable x).Sole := by
  rintro y z hz ⟨hw, ha⟩
  rcases List.mem_append.mp hw with hold | hnew
  · -- A request waits, so that `x` and `y` are both the head that is answered.
    have hyx : y ≠ x := fun heq ↦ ha (heq ▸ List.mem_cons_self)
    have hy : s.InFlight y := ⟨hold, fun hmem ↦ ha (List.mem_cons_of_mem _ hmem)⟩
    cases hq : s.queue with
    | nil =>
      rw [StopAndWait.answer, hq] at hz
      cases hz
    | cons head rest =>
      have hhead : s.queue.head? = some head := by simp [hq]
      exact absurd ((h y head hhead hy).trans (h x head hhead hx).symm) hyx
  · have hy := (mem_of_mem_firstWrite hnew).2
    exact Option.some.inj (hy.symm.trans hz)

theorem Sole.withdraw (h : s.Sole)
    (hp : ∀ y, s.queue.head? = some y → p y = false ∨ s.queue.tail = []) :
    (s.withdraw p).Sole := by
  intro x y hy hx
  cases hq : s.queue with
  | nil =>
    rw [StopAndWait.withdraw, hq] at hy
    cases hy
  | cons z zs =>
    have hhead : s.queue.head? = some z := by simp [hq]
    cases hz : p z with
    | false =>
      obtain rfl : z = y := by simpa [StopAndWait.withdraw, hq, hz] using hy
      exact h x z hhead hx
    | true =>
      have hzs : zs = [] := by
        rcases hp z hhead with hfalse | htail
        · exact absurd (hz.symm.trans hfalse) (by decide)
        · simpa [hq] using htail
      simp [StopAndWait.withdraw, hq, hz, hzs] at hy

/-! ## Waiting -/

/-- The request waits, and at most `n` others are ahead of it. -/
def Ahead (s : StopAndWait α) (x : α) (n : ℕ) : Prop :=
  ∃ l₁ l₂, s.queue = l₁ ++ x :: l₂ ∧ l₁.length ≤ n

theorem Ahead.of_mem (hx : x ∈ s.queue) : s.Ahead x s.queue.length := by
  obtain ⟨l₁, l₂, hq⟩ := List.append_of_mem hx
  exact ⟨l₁, l₂, hq, by simp [hq]⟩

theorem Ahead.mem {n : ℕ} (h : s.Ahead x n) : x ∈ s.queue := by
  obtain ⟨l₁, l₂, hq, -⟩ := h
  simp [hq]

theorem Ahead.push {n : ℕ} (h : s.Ahead x n) : (s.push writable xs).Ahead x n := by
  obtain ⟨l₁, l₂, hq, hn⟩ := h
  exact ⟨l₁, l₂ ++ xs, by simp [StopAndWait.push, hq], hn⟩

/-- An answer removes one of those ahead, or the request itself. -/
theorem Ahead.answer {n : ℕ} (h : s.Ahead x n) {y : α} :
    s.queue.head? = some x ∨ 0 < n ∧ (s.answer writable y).Ahead x (n - 1) := by
  obtain ⟨l₁, l₂, hq, hn⟩ := h
  cases l₁ with
  | nil => exact .inl (by simp [hq])
  | cons z zs =>
    have hlen : zs.length + 1 ≤ n := hn
    refine .inr ⟨Nat.zero_lt_of_lt hlen, zs, l₂, ?_, Nat.le_sub_of_add_le hlen⟩
    simp [StopAndWait.answer, hq]

theorem Ahead.withdraw {n : ℕ} (h : s.Ahead x n) (hp : p x = false) :
    (s.withdraw p).Ahead x n := by
  obtain ⟨l₁, l₂, hq, hn⟩ := h
  by_cases hl : ∃ y ∈ l₁, p y = true
  · obtain ⟨y, hy, hpy⟩ := hl
    refine ⟨l₁.eraseP p, l₂, ?_, Nat.le_trans List.eraseP_sublist.length_le hn⟩
    simp only [StopAndWait.withdraw, hq]
    exact List.eraseP_append_left hpy _ hy
  · refine ⟨l₁, l₂.eraseP p, ?_, hn⟩
    simp only [StopAndWait.withdraw, hq]
    rw [List.eraseP_append_right _ fun y hy hpy ↦ hl ⟨y, hy, hpy⟩, List.eraseP_cons_of_neg]
    simp [hp]

end StopAndWait

end Wwan
