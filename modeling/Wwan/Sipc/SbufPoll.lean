import Wwan.Lib.Wakeup
import Wwan.Sipc.Sbuf

/-!
# Waiting for an sbuf ring

On remote shared memory `sbuf_read` and `sbuf_write` wait for a bit of `poll_mask`, not
for the pointers. The peer sends an event when it has written to an empty ring or read
from a full one, and `sbuf_thread` sets the bit when it handles the event.

A call looks at the pointers first and takes `poll_lock` for the mask only afterwards.
What comes in between decides whether the bit it writes is right: for both directions the
steps are those of `Wakeup`.
-/

namespace Wwan.Sipc

open Wwan Bytes

/-! ## Calls -/

/-- Where a call of `sbuf_read` or `sbuf_write` is. `α` are its arguments and `β` its
locals in the loop. -/
inductive CallPhase (α β : Type)
  | /-- There is no call. -/
    out
  | /-- It has not looked at the pointers. -/
    entered (arg : α) (timeout : ℤ)
  | /-- It has sampled the pointers and not updated `poll_mask`. -/
    sampled (arg : α) (timeout : ℤ) (noData : Bool)
  | /-- It waits for `sbuf_has_data`. -/
    waiting (arg : α) (timeout : ℤ)
  | /-- It is in its loop. -/
    looping (call : β)

/-- The steps of a call outside of its loop. -/
inductive CallStep
  | /-- The pointers are sampled. -/
    sample
  | /-- `poll_mask` is updated by what was sampled. -/
    mask
  | /-- `sbuf_has_data` is true. -/
    wake
  | /-- The wait is interrupted or ends after `timeout`. -/
    abort
  | /-- The loop is left, and `poll_mask` is updated by the pointers. -/
    leave
  deriving DecidableEq

namespace CallPhase

variable {α β : Type} (enter : α → β) (noData flag : Bool)

/-- When a step may be taken; `flag` is the bit of `poll_mask`. -/
def allows : CallStep → CallPhase α β → Bool
  | .sample, entered .. => true
  | .mask, sampled .. => true
  | .wake, waiting .. => flag
  | .abort, waiting .. => true
  | .leave, looping _ => true
  | _, _ => false

/-- Where the call is after a step; `noData` is what the pointers say now. -/
def next : CallStep → CallPhase α β → CallPhase α β
  | .sample, entered arg timeout => sampled arg timeout noData
  | .mask, sampled arg timeout noData =>
    if noData then if timeout = 0 then out else waiting arg timeout else looping (enter arg)
  | .wake, waiting arg _ => looping (enter arg)
  | .abort, waiting .. => out
  | .leave, looping _ => out
  | _, c => c

/-- The bit of `poll_mask` after a step. -/
def flagAfter : CallStep → CallPhase α β → Bool
  | .mask, sampled _ _ noData => !noData
  | .leave, looping _ => !noData
  | _, _ => flag

/-- The call has found that it has to wait, and not updated `poll_mask`. -/
def IsStale (c : CallPhase α β) : Prop := ∃ arg timeout, c = sampled arg timeout true

end CallPhase

/-! ## Runs -/

/-- The events of an sbuf ring. -/
inductive SbufEvent
  | /-- `SMSG_EVENT_SBUF_WRPTR`. -/
    wrptr
  | /-- `SMSG_EVENT_SBUF_RDPTR`. -/
    rdptr
  deriving DecidableEq

/-- A ring as one side uses it. -/
structure PollState where
  /-- The direction the peer writes to. -/
  rx : SbufRing
  /-- The direction the peer reads from. -/
  tx : SbufRing
  /-- `POLLIN` of `poll_mask`. -/
  pollIn : Bool
  /-- `POLLOUT` of `poll_mask`. -/
  pollOut : Bool
  /-- The events the peer has sent and `sbuf_thread` has not handled. -/
  events : List SbufEvent
  /-- The calls of `sbuf_read`. -/
  readers : ℕ → CallPhase ℕ ReadCall
  /-- The calls of `sbuf_write`. -/
  writers : ℕ → CallPhase (List UInt8) WriteCall

namespace PollState

variable (s : PollState)

/-- `no_data` of `sbuf_read`. -/
def rxEmpty : Bool := s.rx.wt = s.rx.rd

/-- `no_data` of `sbuf_write`. -/
def txFull : Bool := s.tx.size ≤ s.tx.used

/-- An event is sent if `b`. -/
def send (b : Bool) (e : SbufEvent) : PollState :=
  if b then { s with events := s.events ++ [e] } else s

/-- The state after a pass of the peer's `sbuf_write`. -/
def peerWrote : Option (SbufRing × WriteCall × Bool) → PollState
  | none => s
  | some (r, _, b) => { s with rx := r }.send b .wrptr

/-- The state after a pass of the peer's `sbuf_read`. -/
def peerHasRead : Option (SbufRing × ReadCall × List UInt8 × Bool) → PollState
  | none => s
  | some (r, _, _, b) => { s with tx := r }.send b .rdptr

end PollState

/-- The steps of a ring. -/
inductive PollStep
  | /-- The peer writes to the ring. -/
    peerWrite (data : List UInt8)
  | /-- The peer reads from the ring. -/
    peerRead (len : ℕ)
  | /-- `sbuf_thread` handles the next event. -/
    deliver
  | /-- `sbuf_read` is called. -/
    enterRead (i : ℕ) (len : ℕ) (timeout : ℤ)
  | /-- A call of `sbuf_read` goes on. -/
    reader (i : ℕ) (a : CallStep)
  | /-- A pass of the loop of `sbuf_read`. -/
    passRead (i : ℕ) (ok : Bool)
  | /-- `sbuf_write` is called. -/
    enterWrite (i : ℕ) (data : List UInt8) (timeout : ℤ)
  | /-- A call of `sbuf_write` goes on. -/
    writer (i : ℕ) (a : CallStep)
  | /-- A pass of the loop of `sbuf_write`. -/
    passWrite (i : ℕ) (o : CopyOutcome)

namespace PollStep

variable (s : PollState)

/-- The call is in its loop, and the condition of the loop holds. -/
def readMore (s : PollState) : CallPhase ℕ ReadCall → Bool
  | .looping call => call.more s.rx
  | _ => false

/-- The call is in its loop, and the condition of the loop holds. -/
def writeMore (s : PollState) : CallPhase (List UInt8) WriteCall → Bool
  | .looping call => call.more s.tx
  | _ => false

/-- There is no call. -/
def isOut {α β : Type} : CallPhase α β → Bool
  | .out => true
  | _ => false

/-- When a step may be taken. -/
def enabled : PollStep → Prop
  | peerWrite data => (WriteCall.enter data).more s.rx
  | peerRead len => (ReadCall.enter len).more s.tx
  | deliver => s.events ≠ []
  | enterRead i _ _ => isOut (s.readers i)
  | reader i a => (s.readers i).allows s.pollIn a
  | passRead i _ => readMore s (s.readers i)
  | enterWrite i _ _ => isOut (s.writers i)
  | writer i a => (s.writers i).allows s.pollOut a
  | passWrite i _ => writeMore s (s.writers i)

instance decidableEnabled : ∀ e, Decidable (enabled s e)
  | peerWrite data => inferInstanceAs (Decidable ((WriteCall.enter data).more s.rx))
  | peerRead len => inferInstanceAs (Decidable ((ReadCall.enter len).more s.tx))
  | deliver => inferInstanceAs (Decidable (s.events ≠ []))
  | enterRead i _ _ => inferInstanceAs (Decidable (isOut (s.readers i)))
  | reader i a => inferInstanceAs (Decidable ((s.readers i).allows s.pollIn a))
  | passRead i _ => inferInstanceAs (Decidable (readMore s (s.readers i)))
  | enterWrite i _ _ => inferInstanceAs (Decidable (isOut (s.writers i)))
  | writer i a => inferInstanceAs (Decidable ((s.writers i).allows s.pollOut a))
  | passWrite i _ => inferInstanceAs (Decidable (writeMore s (s.writers i)))

/-- The state after a step. -/
def next : PollStep → PollState
  | peerWrite data => s.peerWrote (Sipc.writePass s.rx false (.enter data) .done)
  | peerRead len => s.peerHasRead (Sipc.readPass s.tx (.enter len) true)
  | deliver =>
    match s.events with
    | [] => s
    | .wrptr :: es => { s with events := es, pollIn := true }
    | .rdptr :: es => { s with events := es, pollOut := true }
  | enterRead i len timeout =>
    { s with readers := Function.update s.readers i (.entered len timeout) }
  | reader i a =>
    { s with
      readers := Function.update s.readers i ((s.readers i).next ReadCall.enter s.rxEmpty a)
      pollIn := (s.readers i).flagAfter s.rxEmpty s.pollIn a }
  | passRead i ok =>
    match s.readers i with
    | .looping call =>
      match Sipc.readPass s.rx call ok with
      | none => s
      | some (r, call', _) =>
        { s with rx := r, readers := Function.update s.readers i (.looping call') }
    | _ => s
  | enterWrite i data timeout =>
    { s with writers := Function.update s.writers i (.entered data timeout) }
  | writer i a =>
    { s with
      writers := Function.update s.writers i ((s.writers i).next WriteCall.enter s.txFull a)
      pollOut := (s.writers i).flagAfter s.txFull s.pollOut a }
  | passWrite i o =>
    match s.writers i with
    | .looping call =>
      match Sipc.writePass s.tx false call o with
      | none => s
      | some (r, call', _) =>
        { s with tx := r, writers := Function.update s.writers i (.looping call') }
    | _ => s

end PollStep

/-- A ring after `sbuf_comm_init`. -/
def PollState.start (rx tx : SbufRing) : PollState :=
  { rx := rx
    tx := tx
    pollIn := false
    pollOut := true
    events := []
    readers := fun _ ↦ .out
    writers := fun _ ↦ .out }

/-- The runs of a ring. -/
def pollSystem (rx tx : SbufRing) : System PollState PollStep :=
  { init := .start rx tx
    enabled := PollStep.enabled
    next := PollStep.next }

instance (rx tx : SbufRing) (s : PollState) (e : PollStep) :
    Decidable ((pollSystem rx tx).enabled s e) :=
  PollStep.decidableEnabled s e

/-- A call that waits without a limit finds its bit set, if it could go on and no event is
on its way. -/
structure NoLostWakeup (s : PollState) : Prop where
  read : ∀ i len timeout, s.readers i = .waiting len timeout → timeout < 0 →
    s.rx.wt ≠ s.rx.rd → .wrptr ∉ s.events → s.pollIn = true
  write : ∀ i data timeout, s.writers i = .waiting data timeout → timeout < 0 →
    s.tx.used < s.tx.size → .rdptr ∉ s.events → s.pollOut = true

/-- No event is handled while the ring has data, or room, and a call has seen it without
and not updated `poll_mask`. -/
def NoStaleDelivery (s : PollState) : PollStep → Prop
  | .deliver =>
    (s.events.head? = some .wrptr → s.rx.wt ≠ s.rx.rd → ∀ i, ¬ (s.readers i).IsStale) ∧
    (s.events.head? = some .rdptr → s.tx.used < s.tx.size → ∀ i, ¬ (s.writers i).IsStale)
  | _ => True

/-! ## Passes -/

section Pass

variable {r r' : SbufRing} {b : Bool}

theorem memcpyTo_nonneg {size pos : ℕ} {mem mem' : ℕ → UInt8} {src : List UInt8} {off n : ℤ}
    (h : memcpyTo size mem pos src off n = some mem') : 0 ≤ n ∧ 0 ≤ off := by
  unfold memcpyTo at h
  split at h
  · rename_i hcond
    exact ⟨hcond.1, hcond.2.2.1⟩
  · exact absurd h (by simp)

theorem memcpyFrom_nonneg {size pos room : ℕ} {mem : ℕ → UInt8} {l : List UInt8} {off n : ℤ}
    (h : memcpyFrom size mem pos room off n = some l) : 0 ≤ n ∧ 0 ≤ off := by
  unfold memcpyFrom at h
  split at h
  · rename_i hcond
    exact ⟨hcond.1, hcond.2.2.1⟩
  · exact absurd h (by simp)

/-- A copy that has a result is not of a negative size. -/
theorem copyIn_nonneg {size pos : ℕ} {mem mem' : ℕ → UInt8} {src : List UInt8} {n : ℤ}
    (h : copyIn size mem pos src n = some mem') : 0 ≤ n := by
  unfold copyIn at h
  dsimp only at h
  split at h
  · obtain ⟨mem₁, -, h₂⟩ := Option.bind_eq_some_iff.mp h
    have := memcpyTo_nonneg h₂
    omega
  · exact (memcpyTo_nonneg h).1

theorem copyOut_nonneg {size pos room : ℕ} {mem : ℕ → UInt8} {l : List UInt8} {n : ℤ}
    (h : copyOut size mem pos room n = some l) : 0 ≤ n := by
  unfold copyOut at h
  dsimp only at h
  split at h
  · obtain ⟨l₁, -, h₂⟩ := Option.bind_eq_some_iff.mp h
    obtain ⟨l₂, h₃, -⟩ := Option.map_eq_some_iff.mp h₂
    have := memcpyFrom_nonneg h₃
    omega
  · exact (memcpyFrom_nonneg h).1

/-- What a pass of `sbuf_write` does to the pointers. -/
theorem writePass_some {call call' : WriteCall} {o : CopyOutcome}
    (h : writePass r false call o = some (r', call', b)) :
    r'.size = r.size ∧ r'.rd = r.rd ∧ (r'.wt = r.wt ∧ o ≠ .done ∨
      0 ≤ txsize r call.left ∧ r'.wt = u32 (r.wt + txsize r call.left) ∧
        (u32 (r'.wt - r.rd) = u32 (txsize r call.left) → b = true)) := by
  unfold writePass at h
  dsimp only at h
  obtain ⟨mem, hcopy, h⟩ := Option.bind_eq_some_iff.mp h
  cases o with
  | done =>
    have heqs := Option.some.inj h
    cases heqs
    refine ⟨rfl, rfl, .inr ⟨copyIn_nonneg hcopy, rfl, fun heq ↦ ?_⟩⟩
    rw [Bool.false_or]
    exact decide_eq_true heq
  | failed junk =>
    obtain ⟨mem', -, heqs⟩ := Option.map_eq_some_iff.mp h
    cases heqs
    exact ⟨rfl, rfl, .inl ⟨rfl, by simp⟩⟩

/-- What a pass of `sbuf_read` does to the pointers. -/
theorem readPass_some {call call' : ReadCall} {ok : Bool} {l : List UInt8}
    (h : readPass r call ok = some (r', call', l, b)) :
    r'.size = r.size ∧ r'.wt = r.wt ∧ (r'.rd = r.rd ∧ ok = false ∨
      ∃ n : ℤ, 0 ≤ n ∧ n ≤ int32 (r.wt - r.rd) ∧ r'.rd = u32 (r.rd + n) ∧
        (u32 (r.wt - r'.rd) = u32 (r.size - n) → b = true)) := by
  unfold readPass at h
  obtain ⟨⟨n, l'⟩, hcopy, h⟩ := Option.map_eq_some_iff.mp h
  unfold rxCopy at hcopy
  split at hcopy
  · exact absurd hcopy (by simp)
  · obtain ⟨l'', hout, hn⟩ := Option.map_eq_some_iff.mp hcopy
    obtain ⟨rfl, rfl⟩ := Prod.mk.inj hn
    cases ok with
    | true =>
      cases h
      exact ⟨rfl, rfl, .inr ⟨_, copyOut_nonneg hout, min_le_left _ _, rfl,
        fun heq ↦ decide_eq_true heq⟩⟩
    | false =>
      cases h
      exact ⟨rfl, rfl, .inl ⟨rfl, rfl⟩⟩

end Pass

/-! ## Both directions are flags -/

section Calls

variable {α β : Type} {c : ℕ → CallPhase α β} {i : ℕ}

/-- The flag that the calls of one direction wait for. -/
def callWakeup (ready : Prop) (flag : Bool) (pending : Prop) (c : ℕ → CallPhase α β) : Wakeup :=
  ⟨ready, flag = true, pending, ∃ i, (c i).IsStale⟩

theorem stale_of_update {d : CallPhase α β} (h : d.IsStale → (c i).IsStale) :
    (∃ j, (Function.update c i d j).IsStale) → ∃ j, (c j).IsStale := by
  rintro ⟨j, hj⟩
  by_cases hji : j = i
  · subst hji
    rw [Function.update_self] at hj
    exact ⟨j, h hj⟩
  · rw [Function.update_of_ne hji] at hj
    exact ⟨j, hj⟩

@[simp] theorem isStale_sampled {arg : α} {timeout : ℤ} {b : Bool} :
    (CallPhase.sampled arg timeout b : CallPhase α β).IsStale ↔ b = true := by
  simp [CallPhase.IsStale]

@[simp] theorem not_isStale_out : ¬ (CallPhase.out : CallPhase α β).IsStale := by
  simp [CallPhase.IsStale]

@[simp] theorem not_isStale_entered {arg : α} {timeout : ℤ} :
    ¬ (CallPhase.entered arg timeout : CallPhase α β).IsStale := by
  simp [CallPhase.IsStale]

@[simp] theorem not_isStale_waiting {arg : α} {timeout : ℤ} :
    ¬ (CallPhase.waiting arg timeout : CallPhase α β).IsStale := by
  simp [CallPhase.IsStale]

@[simp] theorem not_isStale_looping {call : β} :
    ¬ (CallPhase.looping call : CallPhase α β).IsStale := by
  simp [CallPhase.IsStale]

/-- A call that goes on without the pointers or the bit being touched. -/
theorem callWakeup_update {ready pending : Prop} {flag : Bool} {d : CallPhase α β}
    (h : ¬ d.IsStale) :
    Wakeup.Step (callWakeup ready flag pending c)
      (callWakeup ready flag pending (Function.update c i d)) :=
  .change .inl id id (stale_of_update fun hd ↦ absurd hd h)

/-- A step of a call is a step around its flag. -/
theorem callWakeup_next {enter : α → β} {ready pending : Prop} {noData flag : Bool}
    {a : CallStep} (ha : (c i).allows flag a) (hno : noData = true ↔ ¬ ready) :
    Wakeup.Step (callWakeup ready flag pending c)
      (callWakeup ready ((c i).flagAfter noData flag a) pending
        (Function.update c i ((c i).next enter noData a))) := by
  cases hc : c i with
  | out => cases a <;> simp [hc, CallPhase.allows] at ha
  | entered arg timeout =>
    cases a with
    | sample =>
      cases hb : noData with
      | true => exact .sample (hno.mp hb) id
      | false => exact callWakeup_update (by simp [CallPhase.next])
    | _ => simp [hc, CallPhase.allows] at ha
  | sampled arg timeout b =>
    cases a with
    | mask =>
      cases b with
      | true => exact .clear ⟨i, arg, timeout, hc⟩ id id
      | false =>
        refine .settle id (fun _ ↦ rfl) id (stale_of_update fun hd ↦ ?_)
        simp [CallPhase.next] at hd
    | _ => simp [hc, CallPhase.allows] at ha
  | waiting arg timeout =>
    cases a with
    | wake => exact callWakeup_update (by simp [CallPhase.next])
    | abort => exact callWakeup_update (by simp [CallPhase.next])
    | _ => simp [hc, CallPhase.allows] at ha
  | looping call =>
    cases a with
    | leave =>
      refine .settle id (fun hr ↦ ?_) id (stale_of_update fun hd ↦ ?_)
      · simpa [CallPhase.flagAfter, callWakeup] using mt hno.mp (not_not_intro hr)
      · simp [CallPhase.next] at hd
    | _ => simp [hc, CallPhase.allows] at ha

end Calls

/-! ## Every step keeps the wakeups -/

/-- `POLLIN` as the flag of the calls of `sbuf_read`. -/
def PollState.wakeIn (s : PollState) : Wakeup :=
  callWakeup (s.rx.wt ≠ s.rx.rd) s.pollIn (.wrptr ∈ s.events) s.readers

/-- `POLLOUT` as the flag of the calls of `sbuf_write`. -/
def PollState.wakeOut (s : PollState) : Wakeup :=
  callWakeup (s.tx.used < s.tx.size) s.pollOut (.rdptr ∈ s.events) s.writers

/-- The transmit direction does not hold more than fits, and no wakeup is lost. -/
structure PollInv (s : PollState) : Prop where
  size : s.tx.size < 2 ^ 32
  used : s.tx.used ≤ s.tx.size
  wakeIn : s.wakeIn.Ok
  wakeOut : s.wakeOut.Ok

section Used

variable {r r' : SbufRing}

theorem used_write (hsize : r.size < 2 ^ 32) {n : ℤ} (hn : 0 ≤ n) (hroom : r.used + n ≤ r.size)
    (hrd : r'.rd = r.rd) (hwt : r'.wt = u32 (r.wt + n)) : (r'.used : ℤ) = r.used + n := by
  unfold SbufRing.used u32 at *
  rw [hrd, hwt]
  omega

theorem used_read {n : ℤ} (hn : 0 ≤ n) (hle : n ≤ r.used)
    (hwt : r'.wt = r.wt) (hrd : r'.rd = u32 (r.rd + n)) : (r'.used : ℤ) = r.used - n := by
  unfold SbufRing.used u32 at *
  rw [hrd, hwt]
  omega

/-- A write to an empty ring is one the peer is notified of. -/
theorem notify_of_empty {n : ℤ} (hwt : r'.wt = u32 (r.wt + n)) (hempty : r.wt = r.rd) :
    u32 (r'.wt - r.rd) = u32 n := by
  rw [hwt, hempty]
  unfold u32
  omega

/-- A read from a full ring is one the peer is notified of. -/
theorem notify_of_full {n : ℤ} (hrd : r'.rd = u32 (r.rd + n)) (hfull : r.used = r.size) :
    u32 (r.wt - r'.rd) = u32 (r.size - n) := by
  unfold SbufRing.used at hfull
  rw [hrd, ← hfull]
  unfold u32
  omega

/-- A signed difference that is not negative is the unsigned one. -/
theorem int32_eq_u32 {x : ℤ} (h : 0 ≤ int32 x) : int32 x = u32 x := by
  unfold int32 u32 at *
  rw [Int.bmod_def] at *
  split at h <;> omega

theorem used_writePass (hsize : r.size < 2 ^ 32) (hroom : r.used < r.size)
    {call call' : WriteCall} {o : CopyOutcome} {b : Bool}
    (h : writePass r false call o = some (r', call', b)) : r'.used ≤ r'.size := by
  obtain ⟨hsz, hrd, ⟨hwt, -⟩ | ⟨hn, hwt, -⟩⟩ := writePass_some h
  · unfold SbufRing.used at *
    rw [hwt, hrd, hsz]
    exact hroom.le
  · have hle : txsize r call.left ≤ int32 (r.size - r.used) := min_le_left _ _
    have hfree : int32 (r.size - r.used) = u32 ((r.size - r.used : ℕ) : ℤ) := by
      rw [Int.ofNat_sub hroom.le]
      exact int32_eq_u32 (hn.trans hle)
    rw [u32_natCast (lt_of_le_of_lt (Nat.sub_le _ _) hsize)] at hfree
    have := used_write hsize hn (by omega) hrd hwt
    omega

end Used

section Send

variable (s : PollState) (b : Bool) (e : SbufEvent)

@[simp] theorem send_rx : (s.send b e).rx = s.rx := by cases b <;> rfl

@[simp] theorem send_tx : (s.send b e).tx = s.tx := by cases b <;> rfl

@[simp] theorem send_pollIn : (s.send b e).pollIn = s.pollIn := by cases b <;> rfl

@[simp] theorem send_pollOut : (s.send b e).pollOut = s.pollOut := by cases b <;> rfl

@[simp] theorem send_readers : (s.send b e).readers = s.readers := by cases b <;> rfl

@[simp] theorem send_writers : (s.send b e).writers = s.writers := by cases b <;> rfl

@[simp] theorem mem_send_events {e' : SbufEvent} :
    e' ∈ (s.send b e).events ↔ e' ∈ s.events ∨ b = true ∧ e' = e := by
  cases b <;> simp [PollState.send]

end Send

/-- What a step does to both directions. -/
structure PollStep.Spec (s s' : PollState) : Prop where
  wakeIn : s.wakeIn.Step s'.wakeIn
  wakeOut : s.wakeOut.Step s'.wakeOut
  size : s'.tx.size = s.tx.size
  used : s'.tx.used ≤ s'.tx.size

section Steps

variable {s : PollState}

variable (hs : PollInv s)

include hs

theorem PollInv.step {s' : PollState} (h : PollStep.Spec s s') : PollInv s' :=
  ⟨h.size ▸ hs.size, h.used, hs.wakeIn.step h.wakeIn, hs.wakeOut.step h.wakeOut⟩

theorem PollInv.idle : PollStep.Spec s s := ⟨.refl _, .refl _, rfl, hs.used⟩

/-- The peer writes: if the ring was empty, it sends an event. -/
theorem spec_peerWrote {call : WriteCall}
    {x : Option (SbufRing × WriteCall × Bool)} (h : writePass s.rx false call .done = x) :
    PollStep.Spec s (s.peerWrote x) := by
  obtain - | ⟨r, call', b⟩ := x
  · exact hs.idle
  dsimp only [PollState.peerWrote]
  obtain ⟨-, -, ⟨-, hne⟩ | ⟨-, hwt, hb⟩⟩ := writePass_some h
  · exact absurd rfl hne
  have hin : s.wakeIn.Step ({ s with rx := r }.send b .wrptr).wakeIn := by
    refine .change (fun _ ↦ ?_) ?_ (fun hp ↦ (mem_send_events ..).mpr (.inl hp)) ?_
    · by_cases hempty : s.rx.wt = s.rx.rd
      · exact .inr ((mem_send_events ..).mpr (.inr ⟨hb (notify_of_empty hwt hempty), rfl⟩))
      · exact .inl hempty
    · simp [PollState.wakeIn, callWakeup]
    · simp [PollState.wakeIn, callWakeup]
  have hout : ({ s with rx := r }.send b .wrptr).wakeOut = s.wakeOut := by
    simp [PollState.wakeOut]
  refine ⟨hin, ?_, ?_, ?_⟩
  · rw [hout]
    exact .refl _
  · rw [send_tx]
  · rw [send_tx]
    exact hs.used

/-- The peer reads: if the ring was full, it sends an event. -/
theorem spec_peerHasRead {call : ReadCall}
    {x : Option (SbufRing × ReadCall × List UInt8 × Bool)} (h : readPass s.tx call true = x) :
    PollStep.Spec s (s.peerHasRead x) := by
  obtain - | ⟨r, call', l, b⟩ := x
  · exact hs.idle
  dsimp only [PollState.peerHasRead]
  obtain ⟨hsize, hwt, ⟨-, hno⟩ | ⟨n, hn, hle, hrd, hb⟩⟩ := readPass_some h
  · exact absurd hno.symm Bool.false_ne_true
  have hle' : n ≤ s.tx.used := by
    have := int32_eq_u32 (hn.trans hle)
    unfold SbufRing.used
    omega
  have hused := used_read hn hle' hwt hrd
  have hout : s.wakeOut.Step ({ s with tx := r }.send b .rdptr).wakeOut := by
    refine .change (fun _ ↦ ?_) ?_ (fun hp ↦ (mem_send_events ..).mpr (.inl hp)) ?_
    · by_cases hroom : s.tx.used < s.tx.size
      · exact .inl hroom
      · have hfull := le_antisymm hs.used (not_lt.mp hroom)
        exact .inr ((mem_send_events ..).mpr (.inr ⟨hb (notify_of_full hrd hfull), rfl⟩))
    · simp [PollState.wakeOut, callWakeup]
    · simp [PollState.wakeOut, callWakeup]
  have hin : ({ s with tx := r }.send b .rdptr).wakeIn = s.wakeIn := by
    simp [PollState.wakeIn]
  have := hs.used
  refine ⟨?_, hout, ?_, ?_⟩
  · rw [hin]
    exact .refl _
  · rw [send_tx]
    exact hsize
  · rw [send_tx]
    dsimp only
    omega

/-- `sbuf_thread` handles an event. -/
theorem spec_deliver (hg : NoStaleDelivery s .deliver) :
    PollStep.Spec s (PollStep.next s .deliver) := by
  obtain ⟨hgin, hgout⟩ := hg
  dsimp only [PollStep.next]
  split
  · exact hs.idle
  · rename_i es hes
    rw [hes] at hgin
    refine ⟨.deliver ?_ id rfl id, .change .inl id (fun hp ↦ ?_) id, rfl, hs.used⟩
    · rintro hr ⟨i, hi⟩
      exact hgin rfl hr i hi
    · have hp' : SbufEvent.rdptr ∈ s.events := hp
      rw [hes] at hp'
      exact List.mem_of_ne_of_mem (by decide) hp'
  · rename_i es hes
    rw [hes] at hgout
    refine ⟨.change .inl id (fun hp ↦ ?_) id, .deliver ?_ id rfl id, rfl, hs.used⟩
    · have hp' : SbufEvent.wrptr ∈ s.events := hp
      rw [hes] at hp'
      exact List.mem_of_ne_of_mem (by decide) hp'
    · rintro hr ⟨i, hi⟩
      exact hgout rfl hr i hi

/-- A pass of `sbuf_read` is taken when there is data. -/
theorem spec_passRead {i : ℕ} {ok : Bool} (hi : PollStep.readMore s (s.readers i)) :
    PollStep.Spec s (PollStep.next s (.passRead i ok)) := by
  dsimp only [PollStep.next]
  split
  · rename_i call hcall
    rw [hcall] at hi
    have hmore := of_decide_eq_true hi
    split
    · exact hs.idle
    · refine ⟨.change (fun _ ↦ .inl hmore.2.2) id id (stale_of_update fun hd ↦ ?_), .refl _, rfl,
        hs.used⟩
      exact absurd hd not_isStale_looping
  · exact hs.idle

/-- A pass of `sbuf_write` is taken when there is room, and does not overfill the ring. -/
theorem spec_passWrite {i : ℕ} {o : CopyOutcome} (hi : PollStep.writeMore s (s.writers i)) :
    PollStep.Spec s (PollStep.next s (.passWrite i o)) := by
  dsimp only [PollStep.next]
  split
  · rename_i call hcall
    rw [hcall] at hi
    have hmore := of_decide_eq_true hi
    split
    · exact hs.idle
    · rename_i r call' b h
      refine ⟨.refl _, .change (fun _ ↦ .inl hmore.2.2) id id (stale_of_update fun hd ↦ ?_),
        (writePass_some h).1, used_writePass hs.size hmore.2.2 h⟩
      exact absurd hd not_isStale_looping
  · exact hs.idle

/-- Every step keeps the wakeups, if no event is handled at the wrong time. -/
theorem PollInv.next {e : PollStep} (he : e.enabled s)
    (hg : NoStaleDelivery s e) : PollInv (e.next s) := by
  refine hs.step ?_
  cases e with
  | peerWrite data =>
    dsimp only [PollStep.next]
    exact spec_peerWrote hs rfl
  | peerRead len =>
    dsimp only [PollStep.next]
    exact spec_peerHasRead hs rfl
  | deliver => exact spec_deliver hs hg
  | enterRead i len timeout =>
    exact ⟨callWakeup_update not_isStale_entered, .refl _, rfl, hs.used⟩
  | reader i a =>
    exact ⟨callWakeup_next he (by simp [PollState.rxEmpty]), .refl _, rfl, hs.used⟩
  | passRead i ok => exact spec_passRead hs he
  | enterWrite i data timeout =>
    exact ⟨.refl _, callWakeup_update not_isStale_entered, rfl, hs.used⟩
  | writer i a =>
    exact ⟨.refl _, callWakeup_next he (by simp [PollState.txFull]), rfl, hs.used⟩
  | passWrite i o => exact spec_passWrite hs he

end Steps

/-! ## No wakeup is lost -/

/-- A direction with nothing in it. -/
def SbufRing.Fresh (r : SbufRing) : Prop := r.rd = r.wt ∧ r.wt < 2 ^ 32 ∧ r.size < 2 ^ 32

/-- In every run in which no event is handled at the wrong time, a call that could go on
does not wait forever. -/
theorem no_lost_wakeup {rx tx : SbufRing} (hrx : rx.Fresh) (htx : tx.Fresh) {s : PollState}
    (hs : (pollSystem rx tx).Reach NoStaleDelivery s) : NoLostWakeup s := by
  have hinit : PollInv (PollState.start rx tx) := by
    have hused : tx.used = 0 := by
      unfold SbufRing.used
      rw [htx.1, Int.sub_self]
      rfl
    refine ⟨htx.2.2, ?_, ⟨fun hr ↦ absurd hrx.1.symm hr, ?_⟩, ⟨fun _ ↦ .inl rfl, ?_⟩⟩
    · exact hused.trans_le (Nat.zero_le _)
    · rintro ⟨i, hi⟩
      exact absurd hi not_isStale_out
    · rintro ⟨i, hi⟩
      exact absurd hi not_isStale_out
  have hinv : PollInv s := hs.invariant hinit fun _ _ hinv he hg ↦ hinv.next he hg
  exact ⟨fun _ _ _ _ _ hr he ↦ (hinv.wakeIn.awake hr).resolve_right he,
    fun _ _ _ _ _ hr he ↦ (hinv.wakeOut.awake hr).resolve_right he⟩

/-- A ring of four bytes. -/
def pollRing : SbufRing := ⟨4, fun _ ↦ 0, 0, 0⟩

/-- A state of the ring of four bytes after some steps. -/
def pollRun (es : List PollStep) : PollState :=
  (pollSystem pollRing pollRing).exec (.start pollRing pollRing) es

/-- A reader updates `poll_mask` before the event of the peer's write is handled. -/
def wokenRead : List PollStep :=
  [.enterRead 0 1 (-1), .reader 0 .sample, .reader 0 .mask, .peerWrite [7], .deliver]

/-- A reader updates `poll_mask` after the event of the peer's write is handled. -/
def lostRead : List PollStep :=
  [.enterRead 0 1 (-1), .reader 0 .sample, .peerWrite [7], .deliver, .reader 0 .mask]

/-- A writer updates `poll_mask` after the event of the peer's read is handled. -/
def lostWrite : List PollStep :=
  [.enterWrite 0 [1, 2, 3, 4] (-1), .writer 0 .sample, .writer 0 .mask, .passWrite 0 .done,
    .writer 0 .leave, .enterWrite 0 [5] (-1), .writer 0 .sample, .peerRead 4, .deliver,
    .writer 0 .mask]

theorem pollRing_fresh : pollRing.Fresh := by
  unfold SbufRing.Fresh
  decide

theorem wokenRead_reach :
    (pollSystem pollRing pollRing).Reach NoStaleDelivery (pollRun wokenRead) := by
  have hdeliver : NoStaleDelivery (pollRun (wokenRead.take 4)) .deliver := by
    refine ⟨fun _ _ i ↦ ?_, fun _ _ i ↦ not_isStale_out⟩
    rcases i with - | i
    · exact not_isStale_waiting
    · exact not_isStale_out
  exact System.Reach.init.exec
    ⟨by decide, trivial, by decide, trivial, by decide, trivial, by decide, trivial,
      by decide, hdeliver, trivial⟩

/-- The bit is set for the reader of `wokenRead`. -/
theorem wokenRead_pollIn :
    (pollRun wokenRead).readers 0 = .waiting 1 (-1) ∧ (pollRun wokenRead).pollIn = true :=
  ⟨rfl, (no_lost_wakeup pollRing_fresh pollRing_fresh wokenRead_reach).read 0 1 (-1) rfl
    (by decide) (by decide) (by decide)⟩

/-- Some readers and some writers wait forever though they could go on: `sbuf_read` and
`sbuf_write` look at the pointers before they take `poll_lock`, and undo the update of
`sbuf_thread`. -/
theorem lost_wakeup :
    ((pollSystem pollRing pollRing).Reach (fun _ _ ↦ True) (pollRun lostRead) ∧
      ¬ NoLostWakeup (pollRun lostRead)) ∧
    (pollSystem pollRing pollRing).Reach (fun _ _ ↦ True) (pollRun lostWrite) ∧
      ¬ NoLostWakeup (pollRun lostWrite) := by
  refine ⟨⟨System.Reach.init.exec (by decide), fun h ↦ ?_⟩,
    System.Reach.init.exec (by decide), fun h ↦ ?_⟩
  · have hset := h.read 0 1 (-1) rfl (by decide) (by decide) (by decide)
    exact Bool.false_ne_true hset
  · have hset := h.write 0 [5] (-1) rfl (by decide) (by decide) (by decide)
    exact Bool.false_ne_true hset

end Wwan.Sipc
