import Wwan.Lib.Loop

/-!
# Time synchronisation events

`mhi_get_remote_time` queues a request and rings the doorbell; the device answers the last command
it has received, with its sequence number. `mhi_process_tsync_event_ring` takes the requests off
the list, one after the other with `mhi_tsync->lock` held, and calls back the one with the sequence
number of the event.

The loop over the requests does not end there. It ends when it finds no request, by a `break` that
leaves the lock held. So an event discards every request (`tsyncBody_returns`), and the next one
spins on the lock.
-/

namespace Wwan.Mhi

/-- `struct tsync_node`. -/
structure TsyncNode where
  sequence : UInt32
  localTime : UInt64
  /-- `mhi_dev` and `cb_func`. -/
  client : ℕ
  deriving DecidableEq

/-- A TSYNC event. -/
structure TsyncEvent where
  /-- `MHI_TRE_GET_EV_SEQ`. -/
  sequence : UInt32
  /-- `MHI_TRE_GET_EV_TIME`. -/
  remoteTime : UInt64
  deriving DecidableEq

/-- `struct mhi_timesync`, and the callbacks made so far with the remote time each got. -/
structure MhiTimesync where
  /-- `mhi_tsync->head`. -/
  head : List TsyncNode
  /-- `mhi_tsync->lock` is held. -/
  locked : Bool
  calls : List (TsyncNode × UInt64)
  deriving DecidableEq

/-- `tsync_node->cb_func` for the event. -/
def MhiTimesync.callBack (ev : TsyncEvent) (node : TsyncNode) (s : MhiTimesync) : MhiTimesync :=
  if node.sequence = ev.sequence then { s with calls := s.calls ++ [(node, ev.remoteTime)] } else s

/-- A pass of the loop over the requests; `none` is a thread that spins for ever on the lock it
holds itself. `MHI_ASSERT` only reports. -/
def tsyncBody (ev : TsyncEvent) (s : MhiTimesync) : Option MhiTimesync ⊕ MhiTimesync :=
  if s.locked then .inl none
  else
    match s.head with
    | [] => .inl (some { s with locked := true })
    | node :: rest => .inr ({ s with head := rest }.callBack ev node)

/-- The requests with the sequence number of an event. -/
def TsyncEvent.answers (ev : TsyncEvent) (head : List TsyncNode) : List (TsyncNode × UInt64) :=
  (head.filter fun node ↦ node.sequence = ev.sequence).map fun node ↦ (node, ev.remoteTime)

/-- An event discards all requests, calls back those with its sequence number, and leaves the lock
held. -/
theorem tsyncBody_returns (ev : TsyncEvent) {s : MhiTimesync} (h : s.locked = false) :
    Loop.Returns (tsyncBody ev) s (some ⟨[], true, s.calls ++ ev.answers s.head⟩) := by
  obtain ⟨head, locked, calls⟩ := s
  obtain rfl : locked = false := h
  induction head generalizing calls with
  | nil =>
    refine Loop.returns_of_inl ?_
    simp [tsyncBody, TsyncEvent.answers]
  | cons node rest ih =>
    have hpass : tsyncBody ev ⟨node :: rest, false, calls⟩ =
        .inr (MhiTimesync.callBack ev node ⟨rest, false, calls⟩) := rfl
    rw [Loop.returns_of_inr hpass]
    unfold MhiTimesync.callBack
    split
    next heq => simpa [TsyncEvent.answers, heq] using ih (calls ++ [(node, ev.remoteTime)])
    next hne => simpa [TsyncEvent.answers, hne] using ih calls

/-- A thread that comes to the loop with the lock held does not get out of it. -/
theorem tsyncBody_spins (ev : TsyncEvent) {s : MhiTimesync} (h : s.locked = true) :
    Loop.Returns (tsyncBody ev) s none :=
  Loop.returns_of_inl (by simp [tsyncBody, h])

/-! ## What events are to do -/

/-- The event answers its request: the ones before it are discarded, it is called back, the ones
behind it stay, and the lock is free. -/
structure Answered (ev : TsyncEvent) (s s' : MhiTimesync) : Prop where
  locked : s'.locked = false
  answered : ∃ before node, s.head = before ++ node :: s'.head ∧ node.sequence = ev.sequence ∧
    s'.calls = s.calls ++ [(node, ev.remoteTime)]

/-- Each event of a batch answers its request. -/
def BatchAnswered : List TsyncEvent → MhiTimesync → Prop
  | [], _ => True
  | ev :: events, s => ∃ s', Loop.Returns (tsyncBody ev) s (some s') ∧ Answered ev s s' ∧
      BatchAnswered events s'

/-- A batch is answered only if it has no events. -/
theorem batchAnswered_iff (events : List TsyncEvent) (s : MhiTimesync) :
    BatchAnswered events s ↔ events = [] := by
  cases events with
  | nil => exact iff_of_true trivial rfl
  | cons ev events =>
    refine iff_of_false ?_ (List.cons_ne_nil ev events)
    rintro ⟨s', hret, hanswered, -⟩
    cases hlocked : s.locked with
    | true => cases hret.unique (tsyncBody_spins ev hlocked)
    | false =>
      obtain rfl := Option.some.inj (hret.unique (tsyncBody_returns ev hlocked))
      cases hanswered.locked

/-- An event for the first of two requests discards the other one. -/
theorem second_request_lost :
    ¬ BatchAnswered [⟨7, 100⟩] ⟨[⟨7, 10, 0⟩, ⟨8, 11, 1⟩], false, []⟩ := by
  rintro ⟨s', hret, hanswered, -⟩
  obtain rfl := Option.some.inj (hret.unique (tsyncBody_returns ⟨7, 100⟩ rfl))
  cases hanswered.locked

end Wwan.Mhi
