import Mathlib.Algebra.Group.Nat.Defs
import Mathlib.Data.List.Nodup
import Wwan.Lib.Transition

/-!
# Writing to a QMI client of GobiNet

`WriteSync` adds its URB to the URB list of the client, submits it, waits until it is complete, and
takes a URB from the list, which is meant to be its own. The list is a queue, so that it is its own
if the calls come back from their waits in the order in which they added their URBs. A call that
gets another URB fails, leaves its own URB and setup packet allocated, and has dropped the other
one.

The steps are the critical sections under `mClientMemLock`, and what happens between them.
-/

namespace Wwan.GobiNet

open Wwan

/-! ## Calls -/

/-- How far a URB is. -/
inductive UrbPhase
  | /-- It is in the list of the client. -/
    added
  | /-- It was submitted. -/
    submitted
  | /-- Its callback was run. -/
    complete (status : ℤ)
  deriving DecidableEq

/-- A call of `WriteSync` whose URB is in the list. -/
structure Writer where
  /-- `pWriteURB`, and the setup packet `writeSetup` that was made for it. -/
  urb : ℕ
  writeBufferSize : ℤ
  phase : UrbPhase
  deriving DecidableEq

/-- What `WriteSync` returns for its own URB after the wait. -/
def Writer.result (w : Writer) (result : ℤ) : ℤ :=
  if result = 0 then
    match w.phase with
    | .complete status => if status = 0 then w.writeBufferSize else status
    | _ => 0
  else result

/-- What stops a call before its URB is in the list. -/
inductive Refusal
  | /-- The device is not valid. -/
    device
  | /-- There is no memory for the URB. -/
    urb
  | /-- `FillQMUX` fails. -/
    fill (result : ℤ)
  | /-- The device cannot be woken. -/
    resume (result : ℤ)
  | /-- `AddToURBList` fails. -/
    list
  deriving DecidableEq

/-- A call that has returned. -/
structure Return where
  urb : ℕ
  writeBufferSize : ℤ
  /-- What it took from the list. -/
  popped : Option ℕ
  result : ℤ
  deriving DecidableEq

/-- `-ENXIO`. -/
def enxio : ℤ := -6

/-- `-EINVAL`. -/
def einval : ℤ := -22

/-- The URB list of a client, and the calls. -/
structure UrbState where
  /-- `mpURBList`. -/
  mpURBList : List ℕ
  /-- The calls whose URBs are in the list. -/
  writers : List Writer
  /-- The next URB and the next setup packet. -/
  fresh : ℕ
  /-- The URBs that were freed. -/
  freedUrbs : List ℕ
  /-- The setup packets that were freed. -/
  freedSetups : List ℕ
  returned : List Return

namespace UrbState

variable (s : UrbState)

/-- The call returns; it is not in progress any more. -/
def leave (w : Writer) (popped : Option ℕ) (result : ℤ) : UrbState :=
  { s with
    writers := s.writers.filter fun w' ↦ w'.urb ≠ w.urb
    returned := s.returned ++ [⟨w.urb, w.writeBufferSize, popped, result⟩] }

/-- `PopFromURBList`. -/
def popFromURBList : Option ℕ × UrbState :=
  (s.mpURBList.head?, { s with mpURBList := s.mpURBList.tail })

/-- `usb_free_urb` and `kfree` of the setup packet. -/
def free (urb : ℕ) : UrbState :=
  { s with freedUrbs := s.freedUrbs ++ [urb], freedSetups := s.freedSetups ++ [urb] }

/-- The beginning of `WriteSync`, up to and including `AddToURBList`. -/
def start (writeBufferSize : ℤ) : UrbState :=
  { s with
    mpURBList := s.mpURBList ++ [s.fresh]
    writers := s.writers ++ [⟨s.fresh, writeBufferSize, .added⟩]
    fresh := s.fresh + 1 }

/-- The beginning of a call that returns early. -/
def refuse : Refusal → UrbState
  | .device | .urb => s
  | .fill _ => { s with fresh := s.fresh + 1, freedUrbs := s.freedUrbs ++ [s.fresh] }
  | .resume _ | .list => { s with fresh := s.fresh + 1 }.free s.fresh

/-- A URB gets on. -/
def setPhase (w : Writer) (phase : UrbPhase) : UrbState :=
  { s with
    writers := s.writers.map fun w' ↦ if w'.urb = w.urb then { w' with phase := phase } else w' }

/-- What comes after `usb_submit_urb`. -/
def submit (w : Writer) (result : ℤ) : UrbState :=
  if result < 0 then
    let (popped, s') := s.popFromURBList
    if popped ≠ some w.urb then s'.leave w popped result
    else (s'.free w.urb).leave w popped result
  else s.setPhase w .submitted

/-- What comes after the wait, with its result and whether the device is still valid. -/
def finish (w : Writer) (result : ℤ) (valid : Bool) : UrbState :=
  if valid then
    let (popped, s') := s.popFromURBList
    if popped ≠ some w.urb then s'.leave w popped einval
    else (s'.free w.urb).leave w popped (w.result result)
  else s.leave w none enxio

end UrbState

/-! ## Runs -/

/-- The steps of the calls, of the device and of the USB core. -/
inductive UrbStep
  | /-- A call adds its URB to the list. -/
    start (writeBufferSize : ℤ)
  | /-- A call returns before that. -/
    refuse (refusal : Refusal)
  | /-- A call submits its URB. -/
    submit (w : Writer) (result : ℤ)
  | /-- The callback of a URB is run. -/
    complete (w : Writer) (status : ℤ)
  | /-- A call comes back from its wait. -/
    finish (w : Writer) (result : ℤ) (valid : Bool)
  deriving DecidableEq

/-- The wait is over without an interruption if the callback was run. -/
def UrbStep.enabled (s : UrbState) : UrbStep → Prop
  | start _ | refuse _ => True
  | submit w _ => w ∈ s.writers ∧ w.phase = .added
  | complete w _ => w ∈ s.writers ∧ w.phase = .submitted
  | finish w result _ => w ∈ s.writers ∧ w.phase ≠ .added ∧ (result = 0 → w.phase ≠ .submitted)

instance UrbStep.decidableEnabled (s : UrbState) : (e : UrbStep) → Decidable (e.enabled s)
  | .start _ | .refuse _ => inferInstanceAs (Decidable True)
  | .submit _ _ | .complete _ _ => inferInstanceAs (Decidable (_ ∧ _))
  | .finish _ _ _ => inferInstanceAs (Decidable (_ ∧ _ ∧ (_ → _)))

/-- What a step does. -/
def UrbStep.act (s : UrbState) : UrbStep → UrbState
  | start writeBufferSize => s.start writeBufferSize
  | refuse refusal => s.refuse refusal
  | submit w result => s.submit w result
  | complete w status => s.setPhase w (.complete status)
  | finish w result valid => s.finish w result valid

/-- The runs on a client without URBs. -/
def urbSystem : System UrbState UrbStep :=
  { init := ⟨[], [], 0, [], [], []⟩
    enabled := fun s e ↦ e.enabled s
    next := fun s e ↦ e.act s }

instance urbSystem.decidableEnabled (s : UrbState) (e : UrbStep) :
    Decidable (urbSystem.enabled s e) :=
  inferInstanceAs (Decidable (e.enabled s))

/-! ## Order -/

/-- URBs are submitted and complete successfully, and nobody is interrupted. -/
def UrbStep.Succeeds : UrbStep → Prop
  | start _ => True
  | refuse _ => False
  | submit _ result => 0 ≤ result
  | complete _ status => status = 0
  | finish _ result valid => result = 0 ∧ valid = true

instance : (e : UrbStep) → Decidable e.Succeeds
  | .start _ => inferInstanceAs (Decidable True)
  | .refuse _ => inferInstanceAs (Decidable False)
  | .submit _ _ => inferInstanceAs (Decidable (_ ≤ _))
  | .complete _ _ => inferInstanceAs (Decidable (_ = _))
  | .finish _ _ _ => inferInstanceAs (Decidable (_ ∧ _))

/-- A call comes back from its wait when all calls that added their URBs before have come back. -/
def UrbStep.InOrder (s : UrbState) : UrbStep → Prop
  | finish w _ _ => ∀ w' ∈ s.writers, w.urb ≤ w'.urb
  | _ => True

instance (s : UrbState) : (e : UrbStep) → Decidable (e.InOrder s)
  | .finish w _ _ => inferInstanceAs (Decidable (∀ w' ∈ s.writers, w.urb ≤ w'.urb))
  | .start _ | .refuse _ | .submit _ _ | .complete _ _ => inferInstanceAs (Decidable True)

/-- Every call that has returned took its own URB and returned the size, its URB and its setup
packet were freed once, and the list is empty when all calls have returned. -/
structure WritesOk (s : UrbState) : Prop where
  own : ∀ r ∈ s.returned, r.popped = some r.urb ∧ r.result = r.writeBufferSize
  empty : s.writers = [] → s.mpURBList = []
  allocated : ∀ urb < s.fresh, (∃ w ∈ s.writers, w.urb = urb) ∨ ∃ r ∈ s.returned, r.urb = urb
  freed : ∀ r ∈ s.returned, s.freedUrbs.count r.urb = 1 ∧ s.freedSetups.count r.urb = 1
  pending : ∀ w ∈ s.writers, s.freedUrbs.count w.urb = 0 ∧ s.freedSetups.count w.urb = 0

/-- What is kept while all goes well: the list has the URBs of the calls in progress, in the order
of the calls. -/
structure UrbInv (s : UrbState) : Prop where
  list : s.mpURBList = s.writers.map Writer.urb
  sorted : s.mpURBList.Pairwise (· < ·)
  lt : ∀ w ∈ s.writers, w.urb < s.fresh
  complete : ∀ w ∈ s.writers, ∀ status, w.phase = .complete status → status = 0
  own : ∀ r ∈ s.returned, r.popped = some r.urb ∧ r.result = r.writeBufferSize
  freed : s.freedUrbs = s.returned.map Return.urb ∧ s.freedSetups = s.returned.map Return.urb
  once : (s.returned.map Return.urb ++ s.mpURBList).Nodup
  allocated : ∀ urb, urb ∈ s.returned.map Return.urb ++ s.mpURBList ↔ urb < s.fresh

section Steps

variable {s : UrbState}

theorem UrbInv.start (h : UrbInv s) (writeBufferSize : ℤ) : UrbInv (s.start writeBufferSize) := by
  have hfresh : s.fresh ∉ s.returned.map Return.urb ++ s.mpURBList := by
    rw [h.allocated]
    exact Nat.lt_irrefl _
  have hassoc : s.returned.map Return.urb ++ (s.mpURBList ++ [s.fresh]) =
      (s.returned.map Return.urb ++ s.mpURBList) ++ [s.fresh] := (List.append_assoc ..).symm
  refine ⟨?_, ?_, ?_, ?_, h.own, h.freed, ?_, ?_⟩
  · change s.mpURBList ++ [s.fresh] = (s.writers ++ [_]).map Writer.urb
    rw [List.map_append, h.list]
    rfl
  · change (s.mpURBList ++ [s.fresh]).Pairwise (· < ·)
    rw [List.pairwise_append]
    refine ⟨h.sorted, List.pairwise_singleton _ _, fun a ha b hb ↦ ?_⟩
    rw [List.mem_singleton.mp hb]
    exact (h.allocated a).mp (List.mem_append_right _ ha)
  · intro w hw
    rcases List.mem_append.mp hw with hw | hw
    · exact Nat.lt_succ_of_lt (h.lt w hw)
    · rw [List.mem_singleton.mp hw]
      exact Nat.lt_succ_self _
  · intro w hw status hphase
    rcases List.mem_append.mp hw with hw | hw
    · exact h.complete w hw status hphase
    · rw [List.mem_singleton.mp hw] at hphase
      cases hphase
  · change (s.returned.map Return.urb ++ (s.mpURBList ++ [s.fresh])).Nodup
    rw [hassoc]
    refine List.Nodup.append h.once (List.nodup_singleton _) fun a ha hb ↦ ?_
    rw [List.mem_singleton.mp hb] at ha
    exact hfresh ha
  · intro urb
    change urb ∈ s.returned.map Return.urb ++ (s.mpURBList ++ [s.fresh]) ↔ urb < s.fresh + 1
    rw [hassoc, List.mem_append, h.allocated, List.mem_singleton, Nat.lt_succ_iff_lt_or_eq]

theorem UrbInv.setPhase (h : UrbInv s) (w : Writer) {phase : UrbPhase}
    (hphase : ∀ status, phase = .complete status → status = 0) : UrbInv (s.setPhase w phase) := by
  have hurb : ∀ w' : Writer,
      (if w'.urb = w.urb then { w' with phase := phase } else w').urb = w'.urb := by
    intro w'
    split <;> rfl
  refine ⟨?_, h.sorted, ?_, ?_, h.own, h.freed, h.once, h.allocated⟩
  · change s.mpURBList = (s.writers.map _).map Writer.urb
    rw [List.map_map, h.list]
    exact List.map_congr_left fun w' _ ↦ (hurb w').symm
  · intro w' hw'
    obtain ⟨v, hv, rfl⟩ := List.mem_map.mp hw'
    rw [hurb]
    exact h.lt v hv
  · intro w' hw' status hstatus
    obtain ⟨v, hv, rfl⟩ := List.mem_map.mp hw'
    split at hstatus
    · exact hphase status hstatus
    · exact h.complete v hv status hstatus

/-- The first of the calls in progress is the one whose URB comes first. -/
theorem UrbInv.writers_eq (h : UrbInv s) {w : Writer} (hw : w ∈ s.writers)
    (horder : ∀ w' ∈ s.writers, w.urb ≤ w'.urb) : ∃ rest, s.writers = w :: rest := by
  have hsorted := h.sorted
  rw [h.list] at hsorted
  cases hwriters : s.writers with
  | nil =>
    rw [hwriters] at hw
    cases hw
  | cons v rest =>
    rw [hwriters, List.map_cons, List.pairwise_cons] at hsorted
    rw [hwriters] at hw
    rcases List.mem_cons.mp hw with rfl | hrest
    · exact ⟨rest, rfl⟩
    · have hle := horder v (hwriters ▸ List.mem_cons_self)
      exact absurd (hsorted.1 w.urb (List.mem_map_of_mem hrest)) (Nat.not_lt.mpr hle)

/-- A call whose URB has completed returns the size. -/
theorem UrbInv.result_eq (h : UrbInv s) {w : Writer} (hw : w ∈ s.writers)
    (hphase : w.phase ≠ .added ∧ w.phase ≠ .submitted) : w.result 0 = w.writeBufferSize := by
  unfold Writer.result
  cases hp : w.phase with
  | added => exact absurd hp hphase.1
  | submitted => exact absurd hp hphase.2
  | complete status =>
    rw [h.complete w hw status hp]
    rfl

/-- What the first call does. -/
theorem UrbInv.finish_eq (h : UrbInv s) {w : Writer} {rest : List Writer}
    (hrest : s.writers = w :: rest) (hresult : w.result 0 = w.writeBufferSize) :
    s.finish w 0 true =
      { s with
        mpURBList := rest.map Writer.urb
        writers := rest
        freedUrbs := s.freedUrbs ++ [w.urb]
        freedSetups := s.freedSetups ++ [w.urb]
        returned :=
          s.returned ++ [⟨w.urb, w.writeBufferSize, some w.urb, w.writeBufferSize⟩] } := by
  have hlist : s.mpURBList = w.urb :: rest.map Writer.urb := by
    rw [h.list, hrest]
    rfl
  have hsorted := h.sorted
  rw [hlist, List.pairwise_cons] at hsorted
  have hothers : s.writers.filter (fun w' ↦ w'.urb ≠ w.urb) = rest := by
    rw [hrest, List.filter_cons_of_neg (by simp), List.filter_eq_self]
    intro w' hw'
    exact decide_eq_true (Nat.ne_of_gt (hsorted.1 w'.urb (List.mem_map_of_mem hw')))
  unfold UrbState.finish UrbState.popFromURBList UrbState.free UrbState.leave
  rw [hlist, hresult]
  dsimp only [List.head?_cons, List.tail_cons]
  rw [if_pos rfl, if_neg (not_not.mpr rfl), hothers]

/-- The first call takes its own URB. -/
theorem UrbInv.finish (h : UrbInv s) {w : Writer} (hw : w ∈ s.writers)
    (hphase : w.phase ≠ .added ∧ w.phase ≠ .submitted)
    (horder : ∀ w' ∈ s.writers, w.urb ≤ w'.urb) : UrbInv (s.finish w 0 true) := by
  obtain ⟨rest, hrest⟩ := h.writers_eq hw horder
  have hlist : s.mpURBList = w.urb :: rest.map Writer.urb := by
    rw [h.list, hrest]
    rfl
  have hsorted := h.sorted
  rw [hlist] at hsorted
  have hmiddle : (s.returned ++
      [(⟨w.urb, w.writeBufferSize, some w.urb, w.writeBufferSize⟩ : Return)]).map Return.urb ++
        rest.map Writer.urb = s.returned.map Return.urb ++ s.mpURBList := by
    rw [List.map_append, List.append_assoc, hlist]
    rfl
  rw [h.finish_eq hrest (h.result_eq hw hphase)]
  refine ⟨rfl, hsorted.of_cons, ?_, ?_, ?_, ?_, ?_, ?_⟩
  · exact fun w' hw' ↦ h.lt w' (hrest ▸ List.mem_cons_of_mem _ hw')
  · exact fun w' hw' ↦ h.complete w' (hrest ▸ List.mem_cons_of_mem _ hw')
  · intro r hr
    rcases List.mem_append.mp hr with hr | hr
    · exact h.own r hr
    · rw [List.mem_singleton.mp hr]
      exact ⟨rfl, rfl⟩
  · dsimp only
    rw [List.map_append, h.freed.1, h.freed.2]
    exact ⟨rfl, rfl⟩
  · dsimp only
    rw [hmiddle]
    exact h.once
  · intro urb
    dsimp only
    rw [hmiddle]
    exact h.allocated urb

theorem urbInv_of_reach (hs : urbSystem.Reach (fun s e ↦ e.Succeeds ∧ e.InOrder s) s) :
    UrbInv s := by
  refine hs.invariant (I := UrbInv) ?_ ?_
  · refine ⟨rfl, List.Pairwise.nil, ?_, ?_, ?_, ⟨rfl, rfl⟩, List.nodup_nil, ?_⟩
    · exact List.forall_mem_nil _
    · exact List.forall_mem_nil _
    · exact List.forall_mem_nil _
    · intro urb
      exact iff_of_false List.not_mem_nil (Nat.not_lt_zero _)
  · rintro s e h he ⟨hsucceeds, horder⟩
    cases e with
    | start writeBufferSize => exact h.start writeBufferSize
    | refuse refusal => exact hsucceeds.elim
    | submit w result =>
      change UrbInv (s.submit w result)
      unfold UrbState.submit
      rw [if_neg (Int.not_lt.mpr hsucceeds)]
      exact h.setPhase w fun status hstatus ↦ UrbPhase.noConfusion hstatus
    | complete w status =>
      refine h.setPhase w fun status' hstatus ↦ ?_
      cases hstatus
      exact hsucceeds
    | finish w result valid =>
      obtain ⟨rfl, rfl⟩ := hsucceeds
      exact h.finish he.1 ⟨he.2.1, he.2.2 rfl⟩ horder

end Steps

/-- In every run in which URBs complete successfully and the calls come back from their waits in
the order in which they added their URBs, every call takes its own URB. -/
theorem writes_own {s : UrbState}
    (hs : urbSystem.Reach (fun s e ↦ e.Succeeds ∧ e.InOrder s) s) : WritesOk s := by
  have h := urbInv_of_reach hs
  have hreturned : (s.returned.map Return.urb).Nodup := (List.nodup_append.mp h.once).1
  refine ⟨h.own, ?_, ?_, ?_, ?_⟩
  · intro hempty
    rw [h.list, hempty]
    rfl
  · intro urb hlt
    rcases List.mem_append.mp ((h.allocated urb).mpr hlt) with hmem | hmem
    · exact .inr (List.mem_map.mp hmem)
    · rw [h.list] at hmem
      exact .inl (List.mem_map.mp hmem)
  · intro r hr
    rw [h.freed.1, h.freed.2]
    have hcount := List.count_eq_one_of_mem hreturned (List.mem_map_of_mem (f := Return.urb) hr)
    exact ⟨hcount, hcount⟩
  · intro w hw
    rw [h.freed.1, h.freed.2]
    have hlist : w.urb ∈ s.mpURBList := h.list ▸ List.mem_map_of_mem hw
    have hcount : (s.returned.map Return.urb).count w.urb = 0 := by
      rw [List.count_eq_zero]
      intro hmem
      exact (List.nodup_append.mp h.once).2.2 _ hmem _ hlist rfl
    exact ⟨hcount, hcount⟩

/-- Two calls whose URBs complete in the other order, but which come back in order. -/
def inOrder : List UrbStep :=
  [.start 16, .start 17, .submit ⟨1, 17, .added⟩ 0, .submit ⟨0, 16, .added⟩ 0,
    .complete ⟨1, 17, .submitted⟩ 0, .complete ⟨0, 16, .submitted⟩ 0,
    .finish ⟨0, 16, .complete 0⟩ 0 true, .finish ⟨1, 17, .complete 0⟩ 0 true]

theorem inOrder_writes_own :
    (urbSystem.exec urbSystem.init inOrder).returned =
      [⟨0, 16, some 0, 16⟩, ⟨1, 17, some 1, 17⟩] ∧
        WritesOk (urbSystem.exec urbSystem.init inOrder) :=
  ⟨by decide, writes_own (.exec .init (by decide))⟩

/-- The second call comes back first, takes the URB of the first and fails; so does the first. -/
theorem writers_swapped :
    ¬ ∀ s, urbSystem.Reach (fun _ e ↦ e.Succeeds) s → WritesOk s := by
  intro h
  have hok := h (urbSystem.exec urbSystem.init
    [.start 16, .start 17, .submit ⟨0, 16, .added⟩ 0, .submit ⟨1, 17, .added⟩ 0,
      .complete ⟨0, 16, .submitted⟩ 0, .complete ⟨1, 17, .submitted⟩ 0,
      .finish ⟨1, 17, .complete 0⟩ 0 true, .finish ⟨0, 16, .complete 0⟩ 0 true])
    (.exec .init (by decide))
  exact absurd (hok.own ⟨1, 17, some 0, einval⟩ (by decide)).1 (by decide)

end Wwan.GobiNet
