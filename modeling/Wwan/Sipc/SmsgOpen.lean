import Wwan.Lib.Transition
import Wwan.Sipc.Smsg

/-!
# Opening a channel

`smsg_ch_open` sends a message and waits for that of the peer. If the peer's message comes
while there is no channel it is recorded in `states`, and after that it goes to the cache,
where `smsg_recv` finds it.

A wait with a timeout returns what is left of it, and `smsg_recv` returns that in turn, so
that a message with a time to spare is an error for `smsg_ch_open`. When it fails it leaves
`CHAN_STATE_UNUSED`, whatever had been recorded before.
-/

namespace Wwan.Sipc

open Wwan Bytes

/-! ## `smsg_recv` -/

/-- How the wait of `smsg_recv` ends. -/
inductive RecvWait
  | /-- It does not wait, or its condition holds with this many jiffies left. -/
    ready (left : ℕ)
  | /-- A signal comes. -/
    interrupted (err : ℤ)
  | /-- The time is over. -/
    expired
  | /-- `mutex_trylock` fails. -/
    locked
  deriving DecidableEq

/-- When the wait may end so. -/
def RecvWait.enabled (timeout : ℤ) (ch : SmsgChannel) (state : ChanState) : RecvWait → Bool
  | ready left => timeout = 0 ∨ (ch.wrptr ≠ ch.rdptr ∨ state = .free) ∧ 0 < left
  | interrupted err => timeout ≠ 0 ∧ err < 0
  | expired => 0 < timeout ∧ ch.wrptr = ch.rdptr ∧ state ≠ .free
  | locked => timeout = 0

/-- What `rval` is when `smsg_recv` comes to the cache, or the error it returns. -/
def recvRval (timeout : ℤ) (ch : SmsgChannel) (state : ChanState) (w : RecvWait) : Except ℤ ℤ :=
  if timeout = 0 then
    match w with
    | .locked => .error ebusy
    | _ => if ch.wrptr = ch.rdptr then .error enodata else .ok 0
  else
    match w with
    | .interrupted err => .error err
    | .expired => .error etime
    | .ready left =>
      if state = .free then .error eio else .ok (if timeout < 0 then 0 else left)
    | .locked => .error ebusy

/-- The first message in the cache. -/
def SmsgChannel.front (ch : SmsgChannel) : Smsg := ch.caches (ch.rdptr % smsgCacheNr)

/-- It is taken out. -/
def SmsgChannel.pop (ch : SmsgChannel) : SmsgChannel := { ch with rdptr := u32 (ch.rdptr + 1) }

/-- What `smsg_recv` gives its caller: the return value, and the message if it delivers
one. -/
structure RecvResult where
  rval : ℤ
  msg : Option Smsg
  deriving DecidableEq

/-- `smsg_recv`. -/
def smsgRecv (ipc : SmsgIpc) (i : Fin smsgValidChNr) (timeout : ℤ) (w : RecvWait) :
    RecvResult × SmsgIpc :=
  match ipc.channels i with
  | none => (⟨enodev, none⟩, ipc)
  | some ch =>
    match recvRval timeout ch (ipc.states i) w with
    | .error err => (⟨err, none⟩, ipc)
    | .ok rval =>
      (⟨rval, some ch.front⟩,
        { ipc with channels := Function.update ipc.channels i (some ch.pop) })

/-! ## `smsg_ch_open` -/

/-- Where a call of `smsg_ch_open` is. -/
inductive OpenPc
  | /-- There is no call. -/
    idle
  | /-- The channel is there, and the message will be sent. -/
    sending
  | /-- The message was sent, and `states` will be looked at. -/
    looking
  | /-- `CHAN_STATE_HOST_OPENED` will be written. -/
    waiting
  | /-- `smsg_recv` will be called. -/
    receiving
  | /-- `CHAN_STATE_OPENED` will be written. -/
    opening
  | /-- `CHAN_STATE_UNUSED` will be written. -/
    failing (rval : ℤ)
  | /-- The channel will be removed. -/
    removing (rval : ℤ)
  deriving DecidableEq

/-- What a call of `smsg_ch_open` has done. -/
structure OpenResult where
  /-- What it returns. -/
  rval : ℤ
  /-- `states` before. -/
  before : ChanState
  /-- `states` after. -/
  after : ChanState
  /-- Whether the message was sent. -/
  sent : Bool
  /-- Whether the peer's message was seen. -/
  seen : Bool
  deriving DecidableEq

/-- A side and its call of `smsg_ch_open`. -/
structure OpenRun where
  /-- What is shared with `smsg_msg_process`. -/
  ipc : SmsgIpc
  /-- Where the call is. -/
  pc : OpenPc
  /-- `timeout`. -/
  timeout : ℤ
  /-- `states` when the call began. -/
  before : ChanState
  /-- Whether the message was sent. -/
  sent : Bool
  /-- Whether the peer's message was seen. -/
  seen : Bool
  /-- The calls of `smsg_recv`. -/
  recvs : List RecvResult
  /-- The calls of `smsg_ch_open` that have returned. -/
  results : List OpenResult

/-- The steps of a run. -/
inductive OpenStep
  | /-- `smsg_msg_process` is called. -/
    process (msg : Smsg)
  | /-- `smsg_ch_open` comes to the channel. -/
    enter (timeout : ℤ)
  | /-- It fails before: the channel is invalid, or there is no `ipc` or no memory. -/
    refuse (err : ℤ)
  | /-- `smsg_send` returns. -/
    send (rval : ℤ)
  | /-- `states` is looked at. -/
    look
  | /-- `CHAN_STATE_HOST_OPENED` is written. -/
    setHost
  | /-- `smsg_recv` returns. -/
    recv (w : RecvWait)
  | /-- `CHAN_STATE_UNUSED` is written. -/
    setUnused
  | /-- The channel is removed. -/
    remove
  | /-- `CHAN_STATE_OPENED` is written. -/
    setOpened
  deriving DecidableEq

/-- The peer's message. -/
def Smsg.isOpen (msg : Smsg) : Bool := msg.type = smsgTypeOpen ∧ msg.flag = smsgOpenMagic

namespace OpenRun

variable (i : Fin smsgValidChNr) (s : OpenRun)

/-- The channel as `kzalloc` gives it. -/
def newChannel : SmsgChannel := ⟨0, 0, fun _ ↦ ⟨0, 0, 0, 0⟩⟩

/-- `states` is written. -/
def setState (state : ChanState) : SmsgIpc :=
  { s.ipc with states := Function.update s.ipc.states i state }

/-- The call returns. -/
def finish (ipc : SmsgIpc) (rval : ℤ) : OpenRun :=
  { s with
    ipc := ipc
    pc := .idle
    results := ⟨rval, s.before, ipc.states i, s.sent, s.seen⟩ :: s.results }

/-- The call begins. -/
def enter (timeout : ℤ) : OpenRun :=
  { s with
    ipc :=
      { s.ipc with
        channels := Function.update s.ipc.channels i (some newChannel)
        busy := Function.update s.ipc.busy i 1 }
    pc := .sending
    timeout := timeout
    before := s.ipc.states i
    sent := false
    seen := false }

/-- `smsg_send` has returned. -/
def send (rval : ℤ) : OpenRun :=
  if rval = 0 then { s with pc := .looking, sent := true } else { s with pc := .failing rval }

/-- `states` is looked at. -/
def look : OpenRun :=
  if s.ipc.states i = .clientOpened then { s with pc := .opening, seen := true }
  else { s with pc := .waiting }

/-- A pass of the loop. -/
def recv (w : RecvWait) : OpenRun :=
  let (r, ipc) := smsgRecv s.ipc i s.timeout w
  let got := r.msg.any Smsg.isOpen
  { s with
    ipc := ipc
    pc := if r.rval ≠ 0 then .failing r.rval else if got then .opening else .receiving
    seen := got
    recvs := r :: s.recvs }

/-- The channel is removed, and the call returns. -/
def remove (rval : ℤ) : OpenRun :=
  s.finish i
    (SmsgIpc.addBusy { s.ipc with channels := Function.update s.ipc.channels i none } i (-1)) rval

/-- `CHAN_STATE_OPENED` is written, and the call returns. -/
def setOpened : OpenRun := s.finish i ((s.setState i .opened).addBusy i (-1)) 0

end OpenRun

namespace OpenStep

/-- When a step may be taken. -/
def enabled (i : Fin smsgValidChNr) (s : OpenRun) : OpenStep → Bool
  | process msg => channel2index msg.channel = i
  | enter _ => s.pc = .idle
  | refuse err => s.pc = .idle ∧ err < 0
  | send rval => s.pc = .sending ∧ rval ≤ 0
  | look => s.pc = .looking
  | setHost => s.pc = .waiting
  | recv w =>
    s.pc = .receiving ∧ (s.ipc.channels i).all fun ch ↦ w.enabled s.timeout ch (s.ipc.states i)
  | setUnused =>
    match s.pc with
    | .failing _ => true
    | _ => false
  | remove =>
    match s.pc with
    | .removing _ => true
    | _ => false
  | setOpened => s.pc = .opening

/-- What a step does. -/
def act (i : Fin smsgValidChNr) (s : OpenRun) : OpenStep → OpenRun
  | process msg =>
    match smsgMsgProcess false s.ipc msg with
    | .ok ipc => { s with ipc := ipc }
    | .error _ => s
  | enter timeout => s.enter i timeout
  | refuse err =>
    OpenRun.finish i { s with before := s.ipc.states i, sent := false, seen := false } s.ipc err
  | send rval => s.send rval
  | look => s.look i
  | setHost => { s with ipc := s.setState i .hostOpened, pc := .receiving }
  | recv w => s.recv i w
  | setUnused =>
    match s.pc with
    | .failing rval => { s with ipc := s.setState i .unused, pc := .removing rval }
    | _ => s
  | remove =>
    match s.pc with
    | .removing rval => s.remove i rval
    | _ => s
  | setOpened => s.setOpened i

end OpenStep

/-- The runs of `smsg_ch_open` and `smsg_msg_process` for one channel. -/
def openSystem (i : Fin smsgValidChNr) (ipc : SmsgIpc) : System OpenRun OpenStep :=
  { init := ⟨ipc, .idle, 0, .unused, false, false, [], []⟩
    enabled := fun s e ↦ e.enabled i s
    next := fun s e ↦ e.act i s }

instance (i : Fin smsgValidChNr) (ipc : SmsgIpc) (s : OpenRun) (e : OpenStep) :
    Decidable ((openSystem i ipc).enabled s e) :=
  inferInstanceAs (Decidable (e.enabled i s = true))

/-! ## The handshake -/

/-- What is promised of a call of `smsg_recv`. -/
def RecvResult.Right (r : RecvResult) : Prop := r.rval = 0 ↔ r.msg.isSome

/-- What is promised of a call of `smsg_ch_open`. -/
structure OpenResult.Right (r : OpenResult) : Prop where
  /-- It succeeds if and only if both messages were exchanged. -/
  rval : r.rval = 0 ↔ r.sent ∧ r.seen
  /-- The channel is open then. -/
  opened : r.rval = 0 → r.after = .opened
  /-- A call that fails does not touch `states`. -/
  kept : r.rval ≠ 0 → r.after = r.before

/-- No message comes in a wait with a timeout, and a call that began with something recorded
does not fail. -/
def OpenStep.harmless (i : Fin smsgValidChNr) (s : OpenRun) : OpenStep → Prop
  | send rval => rval = 0 ∨ s.before = .unused
  | recv w =>
    match s.ipc.channels i with
    | some ch =>
      match recvRval s.timeout ch (s.ipc.states i) w with
      | .ok _ => s.timeout ≤ 0
      | .error _ => s.before = .unused
    | none => True
  | _ => True

/-- What holds of a call, by where it is. -/
def OpenRun.Phase (i : Fin smsgValidChNr) (s : OpenRun) : OpenPc → Prop
  | .idle => True
  | .sending => (s.ipc.channels i).isSome ∧ s.sent = false
  | .looking => (s.ipc.channels i).isSome ∧ s.sent = true
  | .waiting => (s.ipc.channels i).isSome ∧ s.sent = true
  | .receiving => (s.ipc.channels i).isSome ∧ s.sent = true
  | .opening => (s.ipc.channels i).isSome ∧ s.sent = true ∧ s.seen = true
  | .failing rval =>
    (s.ipc.channels i).isSome ∧ rval ≠ 0 ∧ (s.sent && s.seen) = false ∧ s.before = .unused
  | .removing rval =>
    (s.ipc.channels i).isSome ∧ rval ≠ 0 ∧ (s.sent && s.seen) = false ∧ s.before = .unused ∧
      s.ipc.states i = .unused

/-- What holds between any two steps. -/
structure OpenInv (i : Fin smsgValidChNr) (s : OpenRun) : Prop where
  phase : s.Phase i s.pc
  recvs : ∀ r ∈ s.recvs, r.Right
  results : ∀ r ∈ s.results, r.Right

section Steps

variable {i : Fin smsgValidChNr} {ipc : SmsgIpc} {s : OpenRun} {msg : Smsg}

theorem arrayAt_channel2index {channel : UInt8} (h : channel2index channel = i) :
    arrayAt smsgValidChNr (channel2index channel) = .ok i := by
  unfold arrayAt
  rw [dif_pos ⟨Int.natCast_nonneg _, by rw [Int.toNat_natCast, h]; exact i.isLt⟩]
  simp only [Int.toNat_natCast, h, Fin.eta]

/-- A message for a channel of `sipc_cfg`. -/
theorem smsgMsgProcess_eq (h : channel2index msg.channel = i) :
    smsgMsgProcess false ipc msg = .ok (((ipc.addBusy i 1).receive i msg).addBusy i (-1)) := by
  unfold smsgMsgProcess smsgDieProcess
  rw [if_neg (by simp), arrayAt_channel2index h]
  rfl

theorem isSome_receive (ipc : SmsgIpc) (msg : Smsg) :
    ((ipc.receive i msg).channels i).isSome = (ipc.channels i).isSome := by
  unfold SmsgIpc.receive
  split
  · rfl
  · split
    · split <;> rfl
    · rename_i ch hch
      split
      · rfl
      · simp [hch]

/-- A message is not recorded in `states` while there is a channel. -/
theorem states_receive (ipc : SmsgIpc) (h : (ipc.channels i).isSome) :
    (ipc.receive i msg).states = ipc.states := by
  unfold SmsgIpc.receive
  split
  · rfl
  · split
    · rename_i hnone
      rw [hnone] at h
      cases h
    · split <;> rfl

theorem phase_congr {s' : OpenRun} {pc : OpenPc} (h : s.Phase i pc)
    (hchannels : (s'.ipc.channels i).isSome = (s.ipc.channels i).isSome)
    (hstates : (s.ipc.channels i).isSome → s'.ipc.states i = s.ipc.states i)
    (hsent : s'.sent = s.sent) (hseen : s'.seen = s.seen) (hbefore : s'.before = s.before) :
    s'.Phase i pc := by
  cases pc with
  | removing rval =>
    obtain ⟨hsome, hrval, hnot, hunused, hstate⟩ := h
    exact ⟨hchannels.trans hsome, hrval, by rw [hsent, hseen]; exact hnot,
      hbefore.trans hunused, (hstates hsome).trans hstate⟩
  | idle => exact h
  | sending => exact ⟨hchannels.trans h.1, hsent.trans h.2⟩
  | looking => exact ⟨hchannels.trans h.1, hsent.trans h.2⟩
  | waiting => exact ⟨hchannels.trans h.1, hsent.trans h.2⟩
  | receiving => exact ⟨hchannels.trans h.1, hsent.trans h.2⟩
  | opening => exact ⟨hchannels.trans h.1, hsent.trans h.2.1, hseen.trans h.2.2⟩
  | failing rval =>
    obtain ⟨hsome, hrval, hnot, hunused⟩ := h
    exact ⟨hchannels.trans hsome, hrval, by rw [hsent, hseen]; exact hnot,
      hbefore.trans hunused⟩

/-- Messages may come at any time. -/
theorem OpenInv.process (h : OpenInv i s) (hmsg : channel2index msg.channel = i) :
    OpenInv i (OpenStep.act i s (.process msg)) := by
  dsimp only [OpenStep.act]
  rw [smsgMsgProcess_eq hmsg]
  refine ⟨phase_congr h.phase (isSome_receive (s.ipc.addBusy i 1) msg) (fun hsome ↦ ?_) rfl rfl
    rfl, h.recvs, h.results⟩
  exact congrFun (states_receive (s.ipc.addBusy i 1) hsome) i

/-- What `smsg_recv` returns if there is a channel. -/
theorem smsgRecv_cases (timeout : ℤ) (w : RecvWait) {ch : SmsgChannel}
    (hch : ipc.channels i = some ch) :
    (∃ err, recvRval timeout ch (ipc.states i) w = .error err ∧
      smsgRecv ipc i timeout w = (⟨err, none⟩, ipc)) ∨
    ∃ rval, recvRval timeout ch (ipc.states i) w = .ok rval ∧
      smsgRecv ipc i timeout w = (⟨rval, some ch.front⟩,
        { ipc with channels := Function.update ipc.channels i (some ch.pop) }) := by
  unfold smsgRecv
  rw [hch]
  dsimp only
  cases hr : recvRval timeout ch (ipc.states i) w with
  | error err => exact .inl ⟨err, rfl, rfl⟩
  | ok rval => exact .inr ⟨rval, rfl, rfl⟩

/-- An error is not `0`. -/
theorem recvRval_error {timeout err : ℤ} {ch : SmsgChannel} {state : ChanState} {w : RecvWait}
    (hw : w.enabled timeout ch state = true) (h : recvRval timeout ch state w = .error err) :
    err ≠ 0 := by
  unfold recvRval at h
  cases w with
  | locked =>
    simp only [ite_self, Except.error.injEq] at h
    rw [← h]
    decide
  | interrupted e =>
    obtain ⟨ht, he⟩ := of_decide_eq_true hw
    rw [if_neg ht] at h
    cases h
    omega
  | expired =>
    obtain ⟨ht, -⟩ := of_decide_eq_true hw
    rw [if_neg (by omega)] at h
    cases h
    decide
  | ready left =>
    dsimp only at h
    split at h <;> split at h <;> cases h <;> decide

/-- Without a timeout nothing is left of it. -/
theorem recvRval_ok {timeout rval : ℤ} {ch : SmsgChannel} {state : ChanState} {w : RecvWait}
    (ht : timeout ≤ 0) (h : recvRval timeout ch state w = .ok rval) : rval = 0 := by
  unfold recvRval at h
  split at h
  · split at h
    · cases h
    · split at h <;> cases h
      rfl
  · cases w with
    | ready left =>
      dsimp only at h
      split at h
      · cases h
      · rw [if_pos (by omega)] at h
        cases h
        rfl
    | _ => cases h

theorem OpenInv.recv (h : OpenInv i s) {w : RecvWait}
    (he : (OpenStep.recv w).enabled i s = true) (hok : (OpenStep.recv w).harmless i s) :
    OpenInv i (s.recv i w) := by
  obtain ⟨hpc, hw⟩ := of_decide_eq_true he
  have hphase := h.phase
  rw [hpc] at hphase
  obtain ⟨hsome, hsent⟩ := hphase
  obtain ⟨ch, hch⟩ := Option.isSome_iff_exists.mp hsome
  rw [hch] at hw
  simp only [OpenStep.harmless, hch] at hok
  unfold OpenRun.recv
  rcases smsgRecv_cases s.timeout w hch with ⟨err, hr, heq⟩ | ⟨rval, hr, heq⟩
  · rw [hr] at hok
    have herr := recvRval_error hw hr
    rw [heq]
    refine ⟨?_, List.forall_mem_cons.mpr ⟨?_, h.recvs⟩, h.results⟩
    · dsimp only
      rw [if_pos herr]
      exact ⟨hsome, herr, by simp, hok⟩
    · exact iff_of_false herr (by simp)
  · rw [hr] at hok
    obtain rfl := recvRval_ok hok hr
    rw [heq]
    refine ⟨?_, List.forall_mem_cons.mpr ⟨?_, h.recvs⟩, h.results⟩
    · have hsome' : (Function.update s.ipc.channels i (some ch.pop) i).isSome := by simp
      dsimp only
      rw [if_neg (not_not.mpr rfl)]
      split
      · rename_i hgot
        exact ⟨hsome', hsent, hgot⟩
      · exact ⟨hsome', hsent⟩
    · exact iff_of_true rfl rfl

/-- A call that returns `rval` keeps the promises. -/
theorem OpenInv.finish (h : OpenInv i s) {rval : ℤ}
    (hright : OpenResult.Right ⟨rval, s.before, ipc.states i, s.sent, s.seen⟩) :
    OpenInv i (s.finish i ipc rval) :=
  ⟨trivial, h.recvs, List.forall_mem_cons.mpr ⟨hright, h.results⟩⟩

theorem OpenInv.act (h : OpenInv i s) {e : OpenStep} (he : e.enabled i s = true)
    (hok : e.harmless i s) : OpenInv i (e.act i s) := by
  have hphase := h.phase
  cases e with
  | process msg => exact h.process (of_decide_eq_true he)
  | enter timeout =>
    refine ⟨⟨?_, rfl⟩, h.recvs, h.results⟩
    dsimp only [OpenStep.act, OpenRun.enter]
    rw [Function.update_self]
    rfl
  | refuse err =>
    obtain ⟨-, hlt⟩ := of_decide_eq_true he
    have herr : err ≠ 0 := by omega
    refine ⟨trivial, h.recvs, List.forall_mem_cons.mpr ⟨?_, h.results⟩⟩
    exact ⟨iff_of_false herr (by simp), fun h0 ↦ absurd h0 herr, fun _ ↦ rfl⟩
  | send rval =>
    rw [(of_decide_eq_true he).1] at hphase
    dsimp only [OpenStep.act, OpenRun.send]
    split
    · exact ⟨⟨hphase.1, rfl⟩, h.recvs, h.results⟩
    · rename_i hrval
      refine ⟨⟨hphase.1, hrval, ?_, hok.resolve_left hrval⟩, h.recvs, h.results⟩
      dsimp only
      rw [hphase.2, Bool.false_and]
  | look =>
    rw [of_decide_eq_true he] at hphase
    dsimp only [OpenStep.act, OpenRun.look]
    split
    · exact ⟨⟨hphase.1, hphase.2, rfl⟩, h.recvs, h.results⟩
    · exact ⟨hphase, h.recvs, h.results⟩
  | setHost =>
    rw [of_decide_eq_true he] at hphase
    exact ⟨hphase, h.recvs, h.results⟩
  | recv w => exact h.recv he hok
  | setUnused =>
    dsimp only [OpenStep.act]
    split
    · rename_i rval hpc
      rw [hpc] at hphase
      obtain ⟨hsome, hrval, hnot, hunused⟩ := hphase
      refine ⟨⟨hsome, hrval, hnot, hunused, ?_⟩, h.recvs, h.results⟩
      simp [OpenRun.setState]
    · exact h
  | remove =>
    dsimp only [OpenStep.act]
    split
    · rename_i rval hpc
      rw [hpc] at hphase
      obtain ⟨-, hrval, hnot, hunused, hstate⟩ := hphase
      refine h.finish ⟨iff_of_false hrval ?_, fun h0 ↦ absurd h0 hrval, fun _ ↦ ?_⟩
      · rw [← Bool.and_eq_true, hnot]
        decide
      · exact hstate.trans hunused.symm
    · exact h
  | setOpened =>
    rw [of_decide_eq_true he] at hphase
    refine h.finish ⟨iff_of_true rfl hphase.2, fun _ ↦ ?_, fun h0 ↦ absurd rfl h0⟩
    simp [SmsgIpc.addBusy, OpenRun.setState]

end Steps

/-- In every run in which no message comes in a wait with a timeout and no call fails that
began with something recorded, the calls of `smsg_recv` and `smsg_ch_open` do what is promised
of them. -/
theorem smsg_open_right {i : Fin smsgValidChNr} {ipc : SmsgIpc} {s : OpenRun}
    (hs : (openSystem i ipc).Reach (fun s e ↦ e.harmless i s) s) :
    (∀ r ∈ s.recvs, r.Right) ∧ ∀ r ∈ s.results, r.Right := by
  have hinv : OpenInv i s := by
    refine hs.invariant (I := OpenInv i) ⟨trivial, by simp [openSystem], by simp [openSystem]⟩ ?_
    intro s e h he hok
    exact h.act he hok
  exact ⟨hinv.recvs, hinv.results⟩

/-- The channel of the examples, which is channel 4. -/
def chan4 : Fin smsgValidChNr := ⟨5, by decide⟩

/-- The peer's message. -/
def openMsg : Smsg := ⟨4, smsgTypeOpen, smsgOpenMagic, 0⟩

/-- A side on which nothing has been opened. -/
def freshOpen : System OpenRun OpenStep :=
  openSystem chan4 ⟨fun _ ↦ none, fun _ ↦ 0, fun _ ↦ .unused⟩

instance (s : OpenRun) (e : OpenStep) : Decidable (freshOpen.enabled s e) :=
  inferInstanceAs (Decidable (e.enabled chan4 s = true))

instance (i : Fin smsgValidChNr) (s : OpenRun) : ∀ e : OpenStep, Decidable (e.harmless i s)
  | .send rval => inferInstanceAs (Decidable (rval = 0 ∨ s.before = .unused))
  | .recv w =>
    match hch : s.ipc.channels i with
    | some ch =>
      match hr : recvRval s.timeout ch (s.ipc.states i) w with
      | .ok _ => decidable_of_iff (s.timeout ≤ 0) (by simp [OpenStep.harmless, hch, hr])
      | .error _ => decidable_of_iff (s.before = .unused) (by simp [OpenStep.harmless, hch, hr])
    | none => .isTrue (by simp [OpenStep.harmless, hch])
  | .process _ => .isTrue trivial
  | .enter _ => .isTrue trivial
  | .refuse _ => .isTrue trivial
  | .look => .isTrue trivial
  | .setHost => .isTrue trivial
  | .setUnused => .isTrue trivial
  | .remove => .isTrue trivial
  | .setOpened => .isTrue trivial

/-- The peer's message comes while `smsg_recv` waits, with this timeout. -/
def waitRun (timeout : ℤ) : List OpenStep :=
  [.enter timeout, .send 0, .look, .setHost, .process openMsg, .recv (.ready 250)]

/-- The peer's message comes first, and `smsg_send` fails. -/
def lostRun : List OpenStep := [.process openMsg, .enter (-1), .send etime, .setUnused, .remove]

/-- The state after some steps. -/
def openAfter (es : List OpenStep) : OpenRun := freshOpen.exec freshOpen.init es

/-- A call without a timeout opens the channel. -/
theorem waitRun_right :
    (openAfter (waitRun (-1) ++ [.setOpened])).results = [⟨0, .unused, .opened, true, true⟩] ∧
      (∀ r ∈ (openAfter (waitRun (-1) ++ [.setOpened])).recvs, r.Right) ∧
      ∀ r ∈ (openAfter (waitRun (-1) ++ [.setOpened])).results, r.Right :=
  ⟨by decide, smsg_open_right (i := chan4) (System.Reach.init.exec (by decide))⟩

/-- With a timeout of 1000 the message that comes in time is an error, and a peer's message
that was recorded is forgotten when `smsg_send` fails. -/
theorem smsg_open_wrong :
    (freshOpen.Reach (fun _ _ ↦ True) (openAfter (waitRun 1000 ++ [.setUnused, .remove])) ∧
      (openAfter (waitRun 1000 ++ [.setUnused, .remove])).recvs = [⟨250, some openMsg⟩] ∧
      (openAfter (waitRun 1000 ++ [.setUnused, .remove])).results =
        [⟨250, .unused, .unused, true, true⟩] ∧
      ¬ ∀ r ∈ (openAfter (waitRun 1000 ++ [.setUnused, .remove])).recvs, r.Right) ∧
    freshOpen.Reach (fun _ _ ↦ True) (openAfter lostRun) ∧
      (openAfter lostRun).results = [⟨etime, .clientOpened, .unused, false, false⟩] ∧
      ¬ ∀ r ∈ (openAfter lostRun).results, r.Right := by
  refine ⟨⟨System.Reach.init.exec (by decide), by decide, by decide, fun h ↦ ?_⟩,
    System.Reach.init.exec (by decide), by decide, fun h ↦ ?_⟩
  · have hdelivered := (h ⟨250, some openMsg⟩ (by decide)).mpr rfl
    cases hdelivered
  · have hkept := (h ⟨etime, .clientOpened, .unused, false, false⟩ (by decide)).kept (by decide)
    cases hkept

end Wwan.Sipc
