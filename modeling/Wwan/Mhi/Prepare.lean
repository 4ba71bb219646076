import Mathlib.Data.Multiset.AddSub
import Wwan.Lib.Loop
import Wwan.Mhi.Completion

/-!
# Starting and stopping a channel

`__mhi_prepare_channel` has seven ways out, each of which undoes what has been done so
far; the last one, when a buffer cannot be pre-allocated, stops the channel that has
just been started. What may go wrong on the way is a `StartOutcome`.

A mutex that is taken twice, or given back without being held, and a buffer that is
freed twice are modelled as no result at all.

`Idle` is the state of a channel between two calls. `x` and `y` are the wake and the
runtime votes of others: what is left of the counts belongs to the buffers that are
queued.
-/

namespace Wwan.Mhi

open Wwan

/-! ## State and outcomes -/

/-- `-ENOTCONN`. -/
def enotconn : ℤ := -107

/-- `-ENOMEM`. -/
def enomem : ℤ := -12

theorem enomem_ne_zero : enomem ≠ 0 := by decide

theorem eio_ne_zero : eio ≠ 0 := by decide

theorem enotconn_ne_zero : enotconn ≠ 0 := by decide

/-- The value of a result of the queue functions. -/
def Ret.code : Ret → ℤ
  | ok => 0
  | enomem => Mhi.enomem
  | eio => Mhi.eio

/-- What starting and stopping a channel acts on. -/
structure ChanState where
  /-- The controller. -/
  cntrl : MhiCntrl
  /-- `mhi_chan->mutex` is held. -/
  mutex : Bool
  /-- `chan_ctxt->rbase`. -/
  rbase : ℕ
  /-- The buffers `kmalloc` has given and `kfree` has not taken back. -/
  live : Multiset ℕ

namespace ChanState

/-- `mutex_lock`. -/
def mutexLock (st : ChanState) : Option ChanState :=
  if st.mutex then none else some { st with mutex := true }

/-- `mutex_unlock`. -/
def mutexUnlock (st : ChanState) : Option ChanState :=
  if st.mutex then some { st with mutex := false } else none

/-- `kfree`. -/
def kfree (st : ChanState) (buf : ℕ) : Option ChanState :=
  if buf ∈ st.live then some { st with live := st.live.erase buf } else none

/-- Change the controller. -/
def on (st : ChanState) (f : MhiCntrl → MhiCntrl) : ChanState := { st with cntrl := f st.cntrl }

end ChanState

/-- The outcome of stopping a channel. Whether the command to reset the channel can be
sent and is completed in time makes no difference. -/
structure StopOutcome where
  /-- `pm_state` when it is looked at. -/
  pm : PmState
  /-- What the client queues from its callbacks, pass by pass of `mhi_reset_data_chan`. -/
  client : List (List QueueCall)

/-- The outcome of allocating a buffer and putting it on the rings. -/
inductive AllocOutcome
  | /-- `kmalloc` fails. -/
    noMemory
  | /-- The buffer cannot be mapped. -/
    unmapped (buf : ℕ)
  | /-- The buffer is queued. -/
    queued (buf : ℕ)

/-- The outcome of starting a channel. -/
structure StartOutcome where
  /-- The execution environment is one of the channel's. -/
  eeOk : Bool
  /-- The array `kzalloc` gives for `buf_ring`, if it does. -/
  bufBase : Option ℕ
  /-- `pm_state` when it is looked at. -/
  pm : PmState
  /-- There is room for the command. -/
  sent : Bool
  /-- What `wait_for_completion_timeout` returns. -/
  remaining : ℕ
  /-- The completion code is `MHI_EV_CC_SUCCESS`. -/
  success : Bool
  /-- The pre-allocations, by the value of `nr_el`. -/
  alloc : ℕ → AllocOutcome
  /-- `buffer_len`. -/
  len : ℕ
  /-- The channel being stopped, if a pre-allocation fails. -/
  stop : StopOutcome

section Model

variable (cfg : Fin maxChan → ChanCfg) (c : Fin maxChan)

/-- `mhi_deinit_chan_ctxt`. -/
def deinitChanCtxt (st : ChanState) : ChanState :=
  { st.on (·.upd c mhiDeinitChanCtxt) with rbase := 0 }

/-- `mhi_init_chan_ctxt`, if `kzalloc` fails. -/
def initFailed (cfg : ChanCfg) (ch : MhiChan) : MhiChan :=
  { ch with
    treRing := { ch.treRing with
      base := cfg.treBase, iommuBase := cfg.treIommuBase, elSize := treSize }
    bufRing := { ch.bufRing with base := 0, elSize := bufInfoSize } }

/-- `mhi_init_chan_ctxt`. -/
def initChanCtxt (bufBase : Option ℕ) (st : ChanState) : ℤ × ChanState :=
  match bufBase with
  | none => (enomem, st.on (·.upd c (initFailed (cfg c))))
  | some b =>
    (0, { st.on (·.upd c fun ch ↦ mhiInitChanCtxt (cfg c) ch b) with
          rbase := (cfg c).treIommuBase })

/-! ## Stopping -/

/-- A pass of the loop of `mhi_reset_data_chan`. A pre-allocated buffer is freed. -/
def resetPass : List (List QueueCall) × ChanState →
    Option ChanState ⊕ (List (List QueueCall) × ChanState)
  | (client, st) =>
    if (st.cntrl.chan c).treRing.rp = (st.cntrl.chan c).treRing.wp then .inl (some st)
    else
      let st' := st.on (resetTre cfg · c (client.headD []))
      if (cfg c).preAlloc then
        match st'.kfree (oldest st.cntrl c).cbBuf with
        | none => .inl none
        | some st' => .inr (client.tail, st')
      else .inr (client.tail, st')

/-- `mhi_reset_rsc_chan`. -/
def mhiResetRscChan (client : List (List QueueCall)) (st : ChanState) : ChanState :=
  st.on fun s ↦ (List.range (s.chan c).bufRing.elements).foldl
    (fun s i ↦ resetRscElement cfg s c i (client.getD i [])) s

/-- `mhi_reset_chan`, with at most `fuel` passes. -/
def mhiResetChan (fuel : ℕ) (client : List (List QueueCall)) (st : ChanState) : Option ChanState :=
  let st := st.on fun s ↦
    (mhiMarkStaleEvents s (cfg c).erIndex c).upd c fun ch ↦ { ch with phase := .draining }
  if (cfg c).xferType = .rscDma then some (mhiResetRscChan cfg c client st)
  else (Loop.run (resetPass cfg c) fuel (client, st)).join

/-- `__mhi_unprepare_channel`. -/
def mhiUnprepareChannel (fuel : ℕ) (o : StopOutcome) (st : ChanState) : Option ChanState := do
  let st ← st.mutexLock
  if (st.cntrl.chan c).phase ≠ .enabled then st.mutexUnlock
  else
    let st := st.on fun s ↦ { s.upd c fun ch ↦ { ch with phase := .disabled } with pmState := o.pm }
    let st :=
      if o.pm.inErrorState then st
      else
        let st := st.on fun s ↦ s.wakeGet.runtimeGet
        -- error_completion
        st.on fun s ↦ s.runtimePut.wakePut
    let st ← mhiResetChan cfg c fuel o.client st
    (deinitChanCtxt c st).mutexUnlock

/-! ## Starting -/

/-- The label `error_init_chan`. -/
def errorInitChan (ret : ℤ) (st : ChanState) : Option (ℤ × ChanState) :=
  st.mutexUnlock.map fun st ↦ (ret, st)

/-- The label `error_pm_state`. -/
def errorPmState (ret : ℤ) (st : ChanState) : Option (ℤ × ChanState) :=
  errorInitChan ret (deinitChanCtxt c st)

/-- The label `error_send_cmd`. -/
def errorSendCmd (ret : ℤ) (st : ChanState) : Option (ℤ × ChanState) :=
  errorPmState c ret (st.on fun s ↦ s.runtimePut.wakePut)

/-- The label `error_pre_alloc`. -/
def errorPreAlloc (fuel : ℕ) (o : StopOutcome) (ret : ℤ) (st : ChanState) :
    Option (ℤ × ChanState) := do
  let st ← (st.on fun s ↦ s.wakePut).mutexUnlock
  let st ← mhiUnprepareChannel cfg c fuel o st
  return (ret, st)

/-- The loop that pre-allocates buffers: the value it leaves with for `error_pre_alloc`,
or none if it comes to its end. -/
def preAllocLoop (alloc : ℕ → AllocOutcome) (len : ℕ) :
    ℕ → ChanState → Option (Option ℤ × ChanState)
  | 0, st => some (none, st)
  | n + 1, st =>
    match alloc n with
    | .noMemory => some (some enomem, st)
    | .unmapped buf =>
      let r := mhiGenTre st.cntrl c buf len true
      let st := { st with cntrl := r.2, live := buf ::ₘ st.live }
      (st.kfree buf).map fun st ↦ (some r.1.code, st)
    | .queued buf =>
      let r := mhiGenTre st.cntrl c buf len false
      preAllocLoop alloc len n { st with cntrl := r.2, live := buf ::ₘ st.live }

/-- The rest of `__mhi_prepare_channel`, when the start command has been completed. -/
def startedChannel (fuel : ℕ) (o : StartOutcome) (st : ChanState) : Option (ℤ × ChanState) :=
  let st := st.on fun s ↦ s.runtimePut.upd c fun ch ↦ { ch with phase := .enabled }
  let nrEl := if (cfg c).preAlloc then
    (getNrAvailRingElements (st.cntrl.chan c).treRing).toNat else 0
  (preAllocLoop c o.alloc o.len nrEl st).bind fun
    | (some ret, st) => errorPreAlloc cfg c fuel o.stop ret st
    | (none, st) => (st.on fun s ↦ s.wakePut).mutexUnlock.map fun st ↦ (0, st)

/-- `__mhi_prepare_channel`. -/
def mhiPrepareChannel (fuel : ℕ) (o : StartOutcome) (st : ChanState) : Option (ℤ × ChanState) :=
  if o.eeOk = false then some (enotconn, st)
  else st.mutexLock.bind fun st ↦
    if (st.cntrl.chan c).phase ≠ .stopped then errorInitChan eio st
    else
      let r := initChanCtxt cfg c o.bufBase st
      if r.1 ≠ 0 then errorInitChan r.1 r.2
      else
        let st := r.2.on fun s ↦ { s with pmState := o.pm }
        if o.pm.inErrorState then errorPmState c eio st
        else
          let st := st.on fun s ↦ s.wakeGet.runtimeGet
          if o.sent = false then errorSendCmd c enomem st
          else if o.remaining = 0 ∨ o.success = false then errorSendCmd c eio st
          else startedChannel cfg c fuel o st

end Model

/-! ## The votes of others -/

/-- The controller without `x` of the wake votes and `y` of the runtime votes. -/
def MhiCntrl.less (s : MhiCntrl) (x y : ℤ) : MhiCntrl :=
  { s with wake := s.wake - x, runtime := s.runtime - y }

section Less

variable {cfg : Fin maxChan → ChanCfg} (s : MhiCntrl) (c : Fin maxChan) (x y : ℤ)

theorem less_wakeGet : (s.less x y).wakeGet = s.wakeGet.less x y := by
  ext <;> simp [MhiCntrl.less, MhiCntrl.wakeGet]
  omega

theorem less_wakePut : (s.less x y).wakePut = s.wakePut.less x y := by
  ext <;> simp [MhiCntrl.less, MhiCntrl.wakePut]
  omega

theorem less_pendingInc : (s.less x y).pendingInc = s.pendingInc.less x y := by
  ext <;> simp [MhiCntrl.less, MhiCntrl.pendingInc]
  split <;> omega

theorem less_pendingDec : (s.less x y).pendingDec = s.pendingDec.less x y := by
  ext <;> simp [MhiCntrl.less, MhiCntrl.pendingDec]
  split <;> omega

theorem less_upd (f : MhiChan → MhiChan) : (s.less x y).upd c f = (s.upd c f).less x y := rfl

theorem less_assertWake : assertWake cfg (s.less x y) c = assertWake cfg s c := rfl

theorem less_ite (p : Prop) [Decidable p] (t : MhiCntrl) :
    (if p then s else t).less x y = if p then s.less x y else t.less x y :=
  apply_ite (fun u : MhiCntrl ↦ u.less x y) p s t

theorem less_wakeIf (w : Bool) : wakeIf (s.less x y) w = (wakeIf s w).less x y := by
  unfold wakeIf
  split
  · exact less_wakeGet s x y
  · rfl

theorem less_submit (w : Bool) : submit cfg (s.less x y) c w = (submit cfg s c w).less x y := by
  unfold submit
  dsimp only
  by_cases hdir : (cfg c).dir = .toDevice
  · rw [if_pos hdir, if_pos hdir, less_pendingInc, less_upd]
    split
    · exact less_wakePut _ x y
    · rfl
  · rw [if_neg hdir, if_neg hdir, less_upd]
    split
    · exact less_wakePut _ x y
    · rfl

theorem less_mhiQueueSkb (buf len : ℕ) (m : Bool) : mhiQueueSkb cfg (s.less x y) c buf len m =
    ((mhiQueueSkb cfg s c buf len m).1, (mhiQueueSkb cfg s c buf len m).2.less x y) := by
  unfold mhiQueueSkb
  simp only [runtimeKick_eq, less_wakeIf, less_upd]
  show (if mhiIsRingFull (s.chan c).treRing = true then _
    else if s.pmState.inErrorState = true then _ else _) = _
  split
  · rfl
  · split
    · rfl
    · split
      · refine Prod.ext rfl ?_
        show (if assertWake cfg s c = true then _ else _) = _
        split
        · exact less_wakePut _ x y
        · rfl
      · exact Prod.ext rfl (less_submit _ c x y _)

theorem less_mhiQueueDma (buf len : ℕ) : mhiQueueDma cfg (s.less x y) c buf len =
    ((mhiQueueDma cfg s c buf len).1, (mhiQueueDma cfg s c buf len).2.less x y) := by
  unfold mhiQueueDma
  simp only [runtimeKick_eq, less_wakeIf, less_upd]
  show (if mhiIsRingFull (s.chan c).treRing = true then _
    else if s.pmState.inErrorState = true then _ else _) = _
  split
  · rfl
  · split
    · rfl
    · exact Prod.ext rfl (less_submit _ c x y _)

theorem less_mhiQueueBuf (buf len : ℕ) (m : Bool) : mhiQueueBuf cfg (s.less x y) c buf len m =
    ((mhiQueueBuf cfg s c buf len m).1, (mhiQueueBuf cfg s c buf len m).2.less x y) := by
  unfold mhiQueueBuf mhiGenTre
  simp only [less_upd]
  show (if s.pmState.inErrorState = true then _
    else if mhiIsRingFull (s.chan c).treRing = true then _ else _) = _
  split
  · rfl
  · split
    · rfl
    · cases m with
      | true => rfl
      | false =>
        simp only [Bool.false_eq_true, if_false, runtimeKick_eq]
        refine Prod.ext rfl ?_
        simp only [less_wakeIf, less_assertWake]
        by_cases hdir : (cfg c).dir = .toDevice
        · simp only [if_pos hdir, less_pendingInc, less_wakePut, less_ite]
        · simp only [if_neg hdir, less_wakePut, less_ite]

/-- The queue functions do not look at the votes. -/
theorem less_mhiQueue (q : QueueCall) : mhiQueue cfg (s.less x y) q =
    ((mhiQueue cfg s q).1, (mhiQueue cfg s q).2.less x y) := by
  cases q with
  | skb c buf len m => exact less_mhiQueueSkb s c x y buf len m
  | dma c buf len => exact less_mhiQueueDma s c x y buf len
  | buf c buf len m => exact less_mhiQueueBuf s c x y buf len m

theorem less_calls (calls : List QueueCall) :
    calls.foldl (fun s q ↦ (mhiQueue cfg s q).2) (s.less x y) =
      (calls.foldl (fun s q ↦ (mhiQueue cfg s q).2) s).less x y := by
  induction calls generalizing s with
  | nil => rfl
  | cons q calls ih =>
    rw [List.foldl_cons, List.foldl_cons, less_mhiQueue]
    exact ih _

theorem less_resetTre (calls : List QueueCall) :
    resetTre cfg (s.less x y) c calls = (resetTre cfg s c calls).less x y := by
  have hdone : uplinkDone cfg (s.less x y) c = (uplinkDone cfg s c).less x y := by
    unfold uplinkDone
    split
    · rw [less_pendingDec, less_wakePut]
    · rfl
  unfold resetTre xferCb
  dsimp only
  rw [hdone]
  split
  · rfl
  · rw [less_upd, less_upd]
    exact less_calls _ x y calls

end Less

/-! ## Between two calls -/

/-- The buffers in flight on a channel. -/
def flight (ch : MhiChan) : Multiset ℕ := ↑(ch.inFlight.map BufInfo.cbBuf)

section Idle

variable (cfg : Fin maxChan → ChanCfg) (c : Fin maxChan) (x y : ℤ)

/-- The state of channel `c` between two calls, with `x` wake and `y` runtime votes that
belong to no queued buffer. -/
structure Idle (st : ChanState) : Prop where
  inv : Inv cfg 0 (st.cntrl.less x y)
  mutex : st.mutex = false
  phase : (st.cntrl.chan c).phase = .stopped ∨ (st.cntrl.chan c).phase = .enabled
  down : (st.cntrl.chan c).phase = .stopped → st.rbase = 0 ∧ (st.cntrl.chan c).bufRing.base = 0
  owned : (cfg c).preAlloc = true → flight (st.cntrl.chan c) ≤ st.live

/-- What `mhi_deinit_chan_ctxt` leaves of the context of a channel. -/
structure Deinitialised (st : ChanState) : Prop where
  rbase : st.rbase = 0
  buf : (st.cntrl.chan c).bufRing.base = 0
  tre : (st.cntrl.chan c).treRing.base = 0

/-- Nothing is left of the transfer ring by a start that fails. `mhi_init_chan_ctxt` sets it before
it asks `kzalloc` for `buf_ring`, and where there is no memory the context is not taken down. Where
the execution environment is not one of the channel's, nothing is left if nothing was. -/
def LeavesNoRing (st : ChanState) (o : StartOutcome) : Prop :=
  if o.eeOk = false then (st.cntrl.chan c).treRing.base = 0
  else o.bufBase = none → (cfg c).treBase = 0

/-- The calls the client makes while the channel is stopped are on this channel or on
others that have been started. -/
def ClientOk (st : ChanState) (o : StopOutcome) : Prop :=
  ∀ calls ∈ o.client, ∀ q ∈ calls, q.chan = c ∨ (st.cntrl.chan q.chan).phase ≠ .stopped

end Idle

section Flight

variable {cf : ChanCfg} {ch ch' : MhiChan}

theorem ChanInv.accepted_eq (h : ChanInv cf ch) :
    ch.accepted = ch.handed.map Handed.buf ++ ch.inFlight.map BufInfo.cbBuf := by
  rw [h.inFlight_eq]
  exact h.history

/-- The buffer that is let go was the oldest in flight. -/
theorem flight_of_handed (h : ChanInv cf ch) (h' : ChanInv cf ch') (hd : Handed)
    (hacc : ch'.accepted = ch.accepted) (hhand : ch'.handed = ch.handed ++ [hd]) :
    flight ch = hd.buf ::ₘ flight ch' := by
  have heq := h'.accepted_eq
  rw [hacc, h.accepted_eq, hhand, List.map_append, List.append_assoc] at heq
  unfold flight
  rw [List.append_cancel_left heq]
  rfl

/-- The buffer that is accepted is in flight. -/
theorem flight_of_accepted (h : ChanInv cf ch) (h' : ChanInv cf ch') {b : ℕ}
    (hacc : ch'.accepted = ch.accepted ++ [b]) (hhand : ch'.handed = ch.handed) :
    flight ch' = b ::ₘ flight ch := by
  have heq := h'.accepted_eq
  rw [hacc, h.accepted_eq, hhand, List.append_assoc] at heq
  unfold flight
  rw [← List.append_cancel_left heq, ← Multiset.coe_add, Multiset.coe_singleton, add_comm]
  rfl

theorem flight_stopped (h : ch.phase = .stopped) : flight ch = 0 := by
  simp [flight, MhiChan.inFlight, h]

end Flight

/-! ## Stopping -/

section Stop

variable {cfg : Fin maxChan → ChanCfg} {c : Fin maxChan} {x y : ℤ} {st st₀ : ChanState}
  {client : List (List QueueCall)}

/-- What the loop of `mhi_reset_data_chan`, begun in `st₀`, keeps. `others` are the
live buffers that are not on the rings of the channel. -/
structure ResetInv (cfg : Fin maxChan → ChanCfg) (c : Fin maxChan) (x y : ℤ) (st₀ : ChanState)
    (others : Multiset ℕ) (client : List (List QueueCall)) (st : ChanState) : Prop where
  inv : Inv cfg 0 (st.cntrl.less x y)
  phase : ∀ d, (st.cntrl.chan d).phase = (st₀.cntrl.chan d).phase
  mutex : st.mutex = st₀.mutex
  calls : ∀ calls ∈ client, ∀ q ∈ calls, (st₀.cntrl.chan q.chan).phase ≠ .stopped
  live : st.live = if (cfg c).preAlloc then flight (st.cntrl.chan c) + others else others

/-- A pre-allocated buffer is freed in place of a callback. -/
theorem resetTre_preAlloc (hpre : (cfg c).preAlloc = true) (s : MhiCntrl) (calls : List QueueCall) :
    (resetTre cfg s c calls).chan c =
      (s.chan c).delElements.hand (.freed (oldest s c).cbBuf) := by
  unfold resetTre
  dsimp only
  rw [if_pos hpre, uplinkDone_upd, uplinkDone_upd, MhiCntrl.upd_upd, uplinkDone_chan,
    MhiCntrl.upd_self]
  rfl

/-- A client that queues nothing. -/
theorem resetTre_nil (cfg : Fin maxChan → ChanCfg) (c : Fin maxChan) (s : MhiCntrl) :
    ∃ hd, (resetTre cfg s c []).chan c = (s.chan c).delElements.hand hd := by
  cases hpre : (cfg c).preAlloc with
  | true => exact ⟨_, resetTre_preAlloc hpre s []⟩
  | false =>
    unfold resetTre xferCb
    dsimp only
    rw [if_neg (by simp [hpre]), uplinkDone_upd, uplinkDone_upd, MhiCntrl.upd_upd,
      List.foldl_nil, uplinkDone_chan, MhiCntrl.upd_self]
    exact ⟨_, rfl⟩

variable {others : Multiset ℕ}

/-- A pass of the loop. -/
theorem ResetInv.pass (h : ResetInv cfg c x y st₀ others client st)
    (hphase : (st₀.cntrl.chan c).phase ≠ .stopped)
    (hne : (st.cntrl.chan c).treRing.rp ≠ (st.cntrl.chan c).treRing.wp) :
    ∃ st', resetPass cfg c (client, st) = .inr (client.tail, st') ∧
      ResetInv cfg c x y st₀ others client.tail st' ∧
      st'.cntrl = resetTre cfg st.cntrl c (client.headD []) := by
  have hph : ((st.cntrl.less x y).chan c).phase ≠ .stopped := fun hst ↦
    hphase ((h.phase c).symm.trans hst)
  have hr := (h.inv.chan c).rings hph
  have hlt : (st.cntrl.chan c).head < (st.cntrl.chan c).tail :=
    Nat.lt_of_le_of_ne hr.tre.le fun heq ↦ hne (hr.tre.rp_eq_wp_iff.mpr heq)
  have hcalls : ∀ q ∈ client.headD [], ((st.cntrl.less x y).chan q.chan).phase ≠ .stopped := by
    intro q hq hst
    cases client with
    | nil => exact absurd hq List.not_mem_nil
    | cons calls client =>
      exact h.calls calls List.mem_cons_self q hq ((h.phase q.chan).symm.trans hst)
  obtain ⟨hd, hbuf, hinv, hframe⟩ := resetTre_inv h.inv hph hlt hcalls
  rw [less_resetTre] at hinv hframe
  have hphase' : ∀ d, ((resetTre cfg st.cntrl c (client.headD [])).chan d).phase =
      (st₀.cntrl.chan d).phase := fun d ↦ by
    rw [← h.phase d]
    exact (hframe.phase d).trans (phase_handedOver _ c d hd)
  have htail : ∀ calls ∈ client.tail, ∀ q ∈ calls, (st₀.cntrl.chan q.chan).phase ≠ .stopped :=
    fun calls hmem ↦ h.calls calls (List.mem_of_mem_tail hmem)
  have hlive := h.live
  unfold resetPass
  dsimp only
  rw [if_neg hne]
  cases hpre : (cfg c).preAlloc with
  | false =>
    rw [hpre] at hlive
    refine ⟨_, if_neg Bool.false_ne_true, ⟨hinv, hphase', h.mutex, htail, ?_⟩, rfl⟩
    rw [hpre]
    exact hlive
  | true =>
    have hchan := resetTre_preAlloc hpre st.cntrl (client.headD [])
    have hflight : flight (st.cntrl.chan c) = (oldest st.cntrl c).cbBuf ::ₘ
        flight ((resetTre cfg st.cntrl c (client.headD [])).chan c) :=
      flight_of_handed (h.inv.chan c) (hinv.chan c) (.freed (oldest st.cntrl c).cbBuf)
        (by
          show ((resetTre cfg st.cntrl c (client.headD [])).chan c).accepted = _
          rw [hchan]
          rfl)
        (by
          show ((resetTre cfg st.cntrl c (client.headD [])).chan c).handed = _
          rw [hchan]
          rfl)
    rw [hpre, if_pos rfl, hflight, Multiset.cons_add] at hlive
    have hfree : (st.on (resetTre cfg · c (client.headD []))).kfree (oldest st.cntrl c).cbBuf =
        some { st.on (resetTre cfg · c (client.headD [])) with
          live := flight ((resetTre cfg st.cntrl c (client.headD [])).chan c) + others } := by
      unfold ChanState.kfree ChanState.on
      dsimp only
      rw [hlive, if_pos (Multiset.mem_cons_self _ _), Multiset.erase_cons_head]
    rw [if_pos rfl, hfree]
    refine ⟨_, rfl, ⟨hinv, hphase', h.mutex, htail, ?_⟩, rfl⟩
    rw [hpre, if_pos rfl]
    rfl

/-- The loop of `mhi_reset_data_chan` comes to its end, with no buffer in flight. -/
theorem ResetInv.returns (h : ResetInv cfg c x y st₀ others client st)
    (hphase : (st₀.cntrl.chan c).phase ≠ .stopped) :
    ∃ st' client', Loop.Returns (resetPass cfg c) (client, st) (some st') ∧
      ResetInv cfg c x y st₀ others client' st' ∧
      (st'.cntrl.chan c).treRing.rp = (st'.cntrl.chan c).treRing.wp := by
  have hpass : ∀ u v, resetPass cfg c u = .inr v → ResetInv cfg c x y st₀ others u.1 u.2 →
      v.1 = u.1.tail ∧ v.2.cntrl = resetTre cfg u.2.cntrl c (u.1.headD []) ∧
        (u.2.cntrl.chan c).treRing.rp ≠ (u.2.cntrl.chan c).treRing.wp ∧
        ResetInv cfg c x y st₀ others v.1 v.2 := by
    rintro ⟨client, st⟩ v hb hu
    by_cases heq : (st.cntrl.chan c).treRing.rp = (st.cntrl.chan c).treRing.wp
    · simp [resetPass, heq] at hb
    · obtain ⟨st', hb', hst', hcntrl⟩ := hu.pass hphase heq
      obtain rfl := Sum.inr.inj (hb'.symm.trans hb)
      exact ⟨rfl, hcntrl, heq, hst'⟩
  have hreach : ∀ u, Loop.Reaches (resetPass cfg c) (client, st) u →
      ResetInv cfg c x y st₀ others u.1 u.2 := by
    intro u hu
    induction hu with
    | refl => exact h
    | tail _ hb ih => exact (hpass _ _ hb ih).2.2.2
  -- every pass uses up a call of the client, or a buffer once there are no more calls
  have hhalt : Loop.Halts (resetPass cfg c) (client, st) := by
    refine Loop.halts_of_measure (fun u ↦ u.1.length * (cfg c).elements +
      ((u.2.cntrl.chan c).tail - (u.2.cntrl.chan c).head)) fun u v hu hb ↦ ?_
    obtain ⟨hclient, hcntrl, hne, hv⟩ := hpass u v hb (hreach u hu)
    have hrings := fun (w : List (List QueueCall) × ChanState)
        (hw : ResetInv cfg c x y st₀ others w.1 w.2) ↦
      (hw.inv.chan c).rings fun hst ↦ hphase ((hw.phase c).symm.trans hst)
    have hcount : (v.2.cntrl.chan c).tail - (v.2.cntrl.chan c).head < (cfg c).elements :=
      (hrings v hv).count_lt
    have hru := hrings u (hreach u hu)
    have hlt : (u.2.cntrl.chan c).head < (u.2.cntrl.chan c).tail :=
      Nat.lt_of_le_of_ne hru.tre.le fun heq ↦ hne (hru.tre.rp_eq_wp_iff.mpr heq)
    cases hu1 : u.1 with
    | nil =>
      obtain ⟨hd, hchan⟩ := resetTre_nil cfg c u.2.cntrl
      rw [hu1] at hclient hcntrl
      have hhead : (v.2.cntrl.chan c).head = (u.2.cntrl.chan c).head + 1 := by
        rw [hcntrl, List.headD_nil, hchan]
        rfl
      have htail : (v.2.cntrl.chan c).tail = (u.2.cntrl.chan c).tail := by
        rw [hcntrl, List.headD_nil, hchan]
        rfl
      rw [hclient, hhead, htail]
      simp only [List.tail_nil, List.length_nil]
      omega
    | cons calls rest =>
      rw [hu1] at hclient
      rw [hclient, List.tail_cons, List.length_cons, Nat.add_mul]
      omega
  obtain ⟨r, hr⟩ := hhalt
  obtain ⟨⟨client', st'⟩, hu, hb⟩ := hr.exists_last
  by_cases heq : (st'.cntrl.chan c).treRing.rp = (st'.cntrl.chan c).treRing.wp
  · have hr' : r = some st' := by simpa [resetPass, heq, eq_comm] using hb
    exact ⟨st', client', hr' ▸ hr, hreach _ hu, heq⟩
  · obtain ⟨st'', hb', -⟩ := (hreach _ hu).pass hphase heq
    exact nomatch hb'.symm.trans hb

theorem flight_phase {ch : MhiChan} {ph : Phase} (h : ch.phase ≠ .stopped) (hph : ph ≠ .stopped) :
    flight { ch with phase := ph } = flight ch := by
  simp [flight, MhiChan.inFlight, h, hph]

/-- The state in which `mhi_reset_data_chan` begins. -/
def resetBegun (cfg : Fin maxChan → ChanCfg) (c : Fin maxChan) (pm : PmState) (s : MhiCntrl) :
    MhiCntrl :=
  (mhiMarkStaleEvents { s.upd c fun ch ↦ { ch with phase := .disabled } with pmState := pm }
    (cfg c).erIndex c).upd c fun ch ↦ { ch with phase := .draining }

theorem resetBegun_chan (pm : PmState) (s : MhiCntrl) :
    (resetBegun cfg c pm s).chan c = { s.chan c with phase := .draining } := by
  unfold resetBegun mhiMarkStaleEvents
  rw [MhiCntrl.upd_self]
  show ({ (s.upd c fun ch ↦ { ch with phase := .disabled }).chan c with phase := .draining } :
    MhiChan) = _
  rw [MhiCntrl.upd_self]

theorem resetBegun_phase (pm : PmState) (s : MhiCntrl) {d : Fin maxChan} (hd : d ≠ c) :
    ((resetBegun cfg c pm s).chan d).phase = (s.chan d).phase := by
  unfold resetBegun mhiMarkStaleEvents
  rw [MhiCntrl.upd_of_ne _ _ _ hd]
  show ((s.upd c fun ch ↦ { ch with phase := .disabled }).chan d).phase = _
  rw [MhiCntrl.upd_of_ne _ _ _ hd]

theorem resetBegun_inv (pm : PmState) {s : MhiCntrl} (h : Inv cfg 0 (s.less x y))
    (hphase : (s.chan c).phase = .enabled) : Inv cfg 0 ((resetBegun cfg c pm s).less x y) := by
  have hdis := h.control (c := c) .disabled (s.chan c).parsing
    (fun _ ↦ by show (s.chan c).phase ≠ _; simp [hphase])
    fun hst ↦ absurd hst Phase.disabled_ne_stopped
  let t := mhiMarkStaleEvents { (s.less x y).upd c fun ch ↦ { ch with phase := .disabled } with
    pmState := pm } (cfg c).erIndex c
  have hmark : Inv cfg 0 t := ⟨hdis.chan, hdis.pending, hdis.wake, hdis.runtime⟩
  have hchan : t.chan c = { s.chan c with phase := .disabled } :=
    MhiCntrl.upd_self (s.less x y) c fun ch ↦ { ch with phase := .disabled }
  refine hmark.control .draining (t.chan c).parsing (fun _ ↦ ?_)
    fun hst ↦ absurd hst Phase.draining_ne_stopped
  rw [hchan]
  exact Phase.disabled_ne_stopped

/-- The way through `__mhi_unprepare_channel` for an enabled channel. -/
theorem mhiUnprepareChannel_eq (hdata : (cfg c).xferType ≠ .rscDma) (fuel : ℕ) (o : StopOutcome)
    (hmutex : st.mutex = false)
    (hphase : (st.cntrl.chan c).phase = .enabled) :
    mhiUnprepareChannel cfg c fuel o st =
      ((Loop.run (resetPass cfg c) fuel (o.client,
        { st with cntrl := resetBegun cfg c o.pm st.cntrl, mutex := true })).join).bind fun st ↦
          (deinitChanCtxt c st).mutexUnlock := by
  have hvotes : ∀ s : MhiCntrl, s.wakeGet.runtimeGet.runtimePut.wakePut = s := fun s ↦ by
    ext <;> simp [MhiCntrl.wakeGet, MhiCntrl.runtimeGet, MhiCntrl.runtimePut, MhiCntrl.wakePut]
  unfold mhiUnprepareChannel ChanState.mutexLock mhiResetChan ChanState.on
  simp only [hmutex, Bool.false_eq_true, if_false, Option.bind_eq_bind, Option.bind_some, hphase,
    ne_eq, not_true, hvotes, ite_self, hdata]
  rfl

/-- `__mhi_unprepare_channel` stops an enabled channel. -/
theorem mhiUnprepareChannel_enabled (hdata : (cfg c).xferType ≠ .rscDma) (h : Idle cfg c x y st)
    (hphase : (st.cntrl.chan c).phase = .enabled) (o : StopOutcome) (ho : ClientOk c st o) :
    ∃ n, ∀ m ≥ n, ∃ st', mhiUnprepareChannel cfg c m o st = some st' ∧ Idle cfg c x y st' ∧
      (st'.cntrl.chan c).phase = .stopped ∧ (st'.cntrl.chan c).treRing.base = 0 ∧
      st.live = (if (cfg c).preAlloc then flight (st.cntrl.chan c) else 0) + st'.live := by
  have hph : (st.cntrl.chan c).phase ≠ .stopped := by simp [hphase]
  have hbegun : (resetBegun cfg c o.pm st.cntrl).chan c =
      { st.cntrl.chan c with phase := .draining } := resetBegun_chan o.pm st.cntrl
  have hflight : flight ((resetBegun cfg c o.pm st.cntrl).chan c) = flight (st.cntrl.chan c) := by
    rw [hbegun]
    exact flight_phase hph Phase.draining_ne_stopped
  have hdrain : ((resetBegun cfg c o.pm st.cntrl).chan c).phase = .draining := by rw [hbegun]
  have hreset : ResetInv cfg c x y
      { st with cntrl := resetBegun cfg c o.pm st.cntrl, mutex := true }
      (if (cfg c).preAlloc then st.live - flight (st.cntrl.chan c) else st.live) o.client
      { st with cntrl := resetBegun cfg c o.pm st.cntrl, mutex := true } := by
    refine ⟨resetBegun_inv o.pm h.inv hphase, fun _ ↦ rfl, rfl, fun calls hcalls q hq ↦ ?_, ?_⟩
    · dsimp only
      by_cases hqc : q.chan = c
      · rw [hqc, hdrain]
        exact Phase.draining_ne_stopped
      · rw [resetBegun_phase o.pm st.cntrl hqc]
        exact (ho calls hcalls q hq).resolve_left hqc
    · dsimp only
      rw [hflight]
      split
      · rename_i hpre
        rw [add_tsub_cancel_of_le (h.owned hpre)]
      · rfl
  obtain ⟨st', client', hret, hinv, heq⟩ := hreset.returns (by simp [hdrain])
  obtain ⟨n, hn⟩ := hret.exists_fuel
  have hphase' : (st'.cntrl.chan c).phase = .draining := (hinv.phase c).trans hdrain
  obtain ⟨hend, hdeinit⟩ := hinv.inv.deinit hphase' heq
  have hchan : (st'.cntrl.upd c mhiDeinitChanCtxt).chan c = mhiDeinitChanCtxt (st'.cntrl.chan c) :=
    MhiCntrl.upd_self _ c _
  have hempty : flight (st'.cntrl.chan c) = 0 := by
    have hlen : (st'.cntrl.chan c).inFlight.length = _ := (hinv.inv.chan c).length_inFlight
    rw [hend, Nat.sub_self] at hlen
    unfold flight
    rw [List.length_eq_zero_iff.mp hlen]
    rfl
  refine ⟨n, fun m hm ↦ ⟨{ deinitChanCtxt c st' with mutex := false }, ?_, ?_, ?_, ?_, ?_⟩⟩
  · rw [mhiUnprepareChannel_eq hdata m o h.mutex hphase, hn m hm]
    show (deinitChanCtxt c st').mutexUnlock = _
    have hmutex : (deinitChanCtxt c st').mutex = true := hinv.mutex
    unfold ChanState.mutexUnlock
    rw [if_pos hmutex]
  · refine ⟨hdeinit, rfl, .inl ?_, fun _ ↦ ⟨rfl, ?_⟩, fun _ ↦ ?_⟩
    · show ((st'.cntrl.upd c mhiDeinitChanCtxt).chan c).phase = _
      rw [hchan]
      rfl
    · show ((st'.cntrl.upd c mhiDeinitChanCtxt).chan c).bufRing.base = 0
      rw [hchan]
      rfl
    · show flight ((st'.cntrl.upd c mhiDeinitChanCtxt).chan c) ≤ _
      rw [flight_stopped (by rw [hchan]; rfl)]
      exact Multiset.zero_le _
  · show ((st'.cntrl.upd c mhiDeinitChanCtxt).chan c).phase = _
    rw [hchan]
    rfl
  · show ((st'.cntrl.upd c mhiDeinitChanCtxt).chan c).treRing.base = 0
    rw [hchan]
    rfl
  · have hlive := hinv.live
    rw [hempty, zero_add] at hlive
    show st.live = _ + st'.live
    rw [hlive]
    cases hpre : (cfg c).preAlloc with
    | true => exact (add_tsub_cancel_of_le (h.owned hpre)).symm
    | false => exact (zero_add _).symm

end Stop

/-! ## Starting -/

section Start

variable {cfg : Fin maxChan → ChanCfg} {c : Fin maxChan} {x y : ℤ} {st : ChanState}

/-- The loop that pre-allocates buffers: those that are live and not in flight are the
same afterwards. -/
theorem preAllocLoop_spec (alloc : ℕ → AllocOutcome) (len n : ℕ)
    (h : Inv cfg 0 (st.cntrl.less x y)) (hphase : (st.cntrl.chan c).phase = .enabled)
    (hdir : (cfg c).dir = .fromDevice)
    (hroom : (st.cntrl.chan c).tail + n < (st.cntrl.chan c).head + (cfg c).elements) :
    ∃ r st', preAllocLoop c alloc len n st = some (r, st') ∧ Inv cfg 0 (st'.cntrl.less x y) ∧
      (∀ d, (st'.cntrl.chan d).phase = (st.cntrl.chan d).phase) ∧ st'.mutex = st.mutex ∧
      (∀ ret ∈ r, ret ≠ 0) ∧
      st'.live + flight (st.cntrl.chan c) = st.live + flight (st'.cntrl.chan c) := by
  have hph : ((st.cntrl.less x y).chan c).phase ≠ .stopped := fun hst ↦
    Phase.enabled_ne_stopped (hphase.symm.trans hst)
  induction n generalizing st with
  | zero => exact ⟨none, st, rfl, h, fun _ ↦ rfl, rfl, nofun, rfl⟩
  | succ n ih =>
    unfold preAllocLoop
    cases alloc n with
    | noMemory =>
      refine ⟨some enomem, st, rfl, h, fun _ ↦ rfl, rfl, fun ret hret ↦ ?_, rfl⟩
      obtain rfl := Option.some.inj hret
      decide
    | unmapped buf =>
      obtain ⟨hinv, hframe, hacc⟩ := mhiGenTre_mapFails_inv h hph buf len
      have hflight : flight ((mhiGenTre st.cntrl c buf len true).2.chan c) =
          flight (st.cntrl.chan c) := by
        have heq := (hinv.chan c).accepted_eq
        rw [hacc, hframe.handed, (h.chan c).accepted_eq] at heq
        exact congrArg (fun l : List ℕ ↦ (l : Multiset ℕ)) (List.append_cancel_left heq).symm
      refine ⟨some enomem, { st with cntrl := (mhiGenTre st.cntrl c buf len true).2 }, ?_, hinv,
        hframe.phase, rfl, fun ret hret ↦ ?_, ?_⟩
      · unfold ChanState.kfree
        dsimp only
        rw [if_pos (Multiset.mem_cons_self _ _), Multiset.erase_cons_head]
        rfl
      · obtain rfl := Option.some.inj hret
        decide
      · rw [hflight]
    | queued buf =>
      obtain ⟨hinv, hframe, htail, hacc⟩ := mhiGenTre_inv h hph hdir (by
        show (st.cntrl.chan c).tail + 1 < (st.cntrl.chan c).head + (cfg c).elements
        omega) buf len
      have hflight : flight ((mhiGenTre st.cntrl c buf len false).2.chan c) =
          buf ::ₘ flight (st.cntrl.chan c) :=
        flight_of_accepted (h.chan c) (hinv.chan c) hacc (hframe.handed c)
      have hphase' : ((mhiGenTre st.cntrl c buf len false).2.chan c).phase = .enabled :=
        (hframe.phase c).trans hphase
      have hroom' : ((mhiGenTre st.cntrl c buf len false).2.chan c).tail + n <
          ((mhiGenTre st.cntrl c buf len false).2.chan c).head + (cfg c).elements := by
        have hhead : ((mhiGenTre st.cntrl c buf len false).2.chan c).head =
            (st.cntrl.chan c).head := hframe.head c
        have htail' : ((mhiGenTre st.cntrl c buf len false).2.chan c).tail =
            (st.cntrl.chan c).tail + 1 := htail
        omega
      obtain ⟨r, st', hloop, hinv', hph', hmutex, hret, hlive⟩ :=
        @ih { st with cntrl := (mhiGenTre st.cntrl c buf len false).2,
                      live := buf ::ₘ st.live } hinv hphase' hroom'
          (fun hst ↦ Phase.enabled_ne_stopped (hphase'.symm.trans hst))
      refine ⟨r, st', hloop, hinv', fun d ↦ (hph' d).trans (hframe.phase d), hmutex, hret, ?_⟩
      dsimp only at hlive
      rw [hflight, Multiset.add_cons, Multiset.cons_add] at hlive
      exact (Multiset.cons_inj_right buf).mp hlive

/-- The channel with its rings set up, while the mutex is held. -/
def setUp (cfg : Fin maxChan → ChanCfg) (c : Fin maxChan) (bufBase : ℕ) (pm : PmState)
    (st : ChanState) : ChanState :=
  { st with
    cntrl := { st.cntrl.upd c fun ch ↦ mhiInitChanCtxt (cfg c) ch bufBase with pmState := pm }
    mutex := true
    rbase := (cfg c).treIommuBase }

/-- The ways through `__mhi_prepare_channel` for a channel that is stopped. The votes
taken for the start command are given back on all of them. -/
theorem mhiPrepareChannel_eq (fuel : ℕ) (o : StartOutcome) (hmutex : st.mutex = false)
    (hphase : (st.cntrl.chan c).phase = .stopped) :
    mhiPrepareChannel cfg c fuel o st =
      if o.eeOk = false then some (enotconn, st)
      else match o.bufBase with
      | none => some (enomem, st.on (·.upd c (initFailed (cfg c))))
      | some b =>
        if o.pm.inErrorState then errorPmState c eio (setUp cfg c b o.pm st)
        else if o.sent = false then errorPmState c enomem (setUp cfg c b o.pm st)
        else if o.remaining = 0 ∨ o.success = false then errorPmState c eio (setUp cfg c b o.pm st)
        else startedChannel cfg c fuel o
          ((setUp cfg c b o.pm st).on fun s ↦ s.wakeGet.runtimeGet) := by
  have hvotes : ∀ s : MhiCntrl, s.wakeGet.runtimeGet.runtimePut.wakePut = s := fun s ↦ by
    ext <;> simp [MhiCntrl.wakeGet, MhiCntrl.runtimeGet, MhiCntrl.runtimePut, MhiCntrl.wakePut]
  have hlock : st.mutexLock = some { st with mutex := true } := by
    unfold ChanState.mutexLock
    rw [hmutex, if_neg Bool.false_ne_true]
  unfold mhiPrepareChannel
  split
  · rfl
  · rw [hlock, Option.bind_some, if_neg (not_not.mpr hphase)]
    cases o.bufBase with
    | none =>
      unfold initChanCtxt errorInitChan ChanState.mutexUnlock ChanState.on
      dsimp only
      rw [if_pos (by decide), if_pos rfl, Option.map_some, hmutex.symm]
    | some b =>
      have hset : { ({ st with mutex := true } : ChanState).on
          (·.upd c fun ch ↦ mhiInitChanCtxt (cfg c) ch b) with
          rbase := (cfg c).treIommuBase }.on (fun s ↦ { s with pmState := o.pm }) =
          setUp cfg c b o.pm st := rfl
      have hsend : ∀ ret, errorSendCmd c ret
          ((setUp cfg c b o.pm st).on fun s ↦ s.wakeGet.runtimeGet) =
          errorPmState c ret (setUp cfg c b o.pm st) := fun ret ↦ by
        unfold errorSendCmd ChanState.on
        dsimp only
        rw [hvotes]
      unfold initChanCtxt
      dsimp only
      rw [if_neg (by decide), hset, hsend, hsend]

/-- How `__mhi_prepare_channel` may end: started, or as it was. -/
structure Prepared (cfg : Fin maxChan → ChanCfg) (c : Fin maxChan) (x y : ℤ) (st : ChanState)
    (r : ℤ × ChanState) : Prop where
  idle : Idle cfg c x y r.2
  started : r.1 = 0 → (r.2.cntrl.chan c).phase = .enabled ∧
    r.2.live = st.live + if (cfg c).preAlloc then flight (r.2.cntrl.chan c) else 0
  failed : r.1 ≠ 0 → (r.2.cntrl.chan c).phase = .stopped ∧ r.2.live = st.live

/-- The transfer ring is not left behind. -/
def NoRing (c : Fin maxChan) (r : ℤ × ChanState) : Prop :=
  r.1 ≠ 0 → (r.2.cntrl.chan c).treRing.base = 0

/-- The rings of a stopped channel may be changed. -/
theorem Idle.stopped (h : Idle cfg c x y st) (hphase : (st.cntrl.chan c).phase = .stopped)
    (pm : PmState) {f : MhiChan → MhiChan} (hf : (f (st.cntrl.chan c)).phase = .stopped)
    (heq : (f (st.cntrl.chan c)).head = (f (st.cntrl.chan c)).tail)
    (hacc : (f (st.cntrl.chan c)).accepted = (st.cntrl.chan c).accepted)
    (hhand : (f (st.cntrl.chan c)).handed = (st.cntrl.chan c).handed)
    (hbase : (f (st.cntrl.chan c)).bufRing.base = 0) :
    Idle cfg c x y { st with cntrl := { st.cntrl.upd c f with pmState := pm }, rbase := 0 } ∧
      ((st.cntrl.upd c f).chan c).phase = .stopped := by
  have hchan : (st.cntrl.upd c f).chan c = f (st.cntrl.chan c) := MhiCntrl.upd_self _ c f
  have hph : ((st.cntrl.upd c f).chan c).phase = .stopped := by rw [hchan, hf]
  have hch : ChanInv (cfg c) (f (st.cntrl.chan c)) :=
    .of_stopped hf heq (by
      rw [hacc, hhand]
      exact (h.inv.chan c).accepted_stopped hphase)
  have hinv := h.inv.upd_empty hch ((h.inv.chan c).stopped hphase) heq
  refine ⟨⟨⟨hinv.chan, hinv.pending, hinv.wake, hinv.runtime⟩, h.mutex, .inl hph, fun _ ↦ ⟨rfl, ?_⟩,
    fun _ ↦ ?_⟩, hph⟩
  · dsimp only
    rw [hchan, hbase]
  · dsimp only
    rw [flight_stopped hph]
    exact Multiset.zero_le _

/-- The context is taken down again. -/
theorem errorPmState_spec (h : Idle cfg c x y st) (hphase : (st.cntrl.chan c).phase = .stopped)
    (bufBase : ℕ) (pm : PmState) {ret : ℤ} (hret : ret ≠ 0) :
    ∃ r, errorPmState c ret (setUp cfg c bufBase pm st) = some r ∧ Prepared cfg c x y st r ∧
      NoRing c r := by
  obtain ⟨hidle, hph⟩ := h.stopped hphase pm (f := fun ch ↦
    mhiDeinitChanCtxt (mhiInitChanCtxt (cfg c) ch bufBase)) rfl rfl rfl rfl rfl
  have hdown : { deinitChanCtxt c (setUp cfg c bufBase pm st) with mutex := false } =
      { st with cntrl := { st.cntrl.upd c fun ch ↦ mhiDeinitChanCtxt
                  (mhiInitChanCtxt (cfg c) ch bufBase) with pmState := pm }, rbase := 0 } := by
    have hupd := MhiCntrl.upd_upd st.cntrl c (fun ch ↦ mhiInitChanCtxt (cfg c) ch bufBase)
      mhiDeinitChanCtxt
    rw [← hupd, ← h.mutex]
    rfl
  refine ⟨(ret, { st with cntrl := { st.cntrl.upd c fun ch ↦ mhiDeinitChanCtxt
      (mhiInitChanCtxt (cfg c) ch bufBase) with pmState := pm }, rbase := 0 }), ?_,
    ⟨hidle, fun h0 ↦ absurd h0 hret, fun _ ↦ ⟨hph, rfl⟩⟩, fun _ ↦ ?_⟩
  · unfold errorPmState errorInitChan
    rw [← hdown]
    rfl
  · have hchan : (st.cntrl.upd c fun ch ↦ mhiDeinitChanCtxt
        (mhiInitChanCtxt (cfg c) ch bufBase)).chan c = _ := MhiCntrl.upd_self _ c _
    exact congrArg (fun ch : MhiChan ↦ ch.treRing.base) hchan

/-- A channel that cannot be set up. The transfer ring is left behind. -/
theorem initFailed_spec (h : Idle cfg c x y st) (hphase : (st.cntrl.chan c).phase = .stopped) :
    Prepared cfg c x y st (enomem, st.on (·.upd c (initFailed (cfg c)))) ∧
      (NoRing c (enomem, st.on (·.upd c (initFailed (cfg c)))) ↔ (cfg c).treBase = 0) := by
  obtain ⟨hidle, hph⟩ := h.stopped hphase st.cntrl.pmState (f := initFailed (cfg c)) hphase
    ((h.inv.chan c).stopped hphase) rfl rfl rfl
  have hbase : ((st.cntrl.upd c (initFailed (cfg c))).chan c).treRing.base = (cfg c).treBase := by
    rw [MhiCntrl.upd_self]
    rfl
  refine ⟨⟨?_, fun h0 ↦ absurd h0 enomem_ne_zero, fun _ ↦ ⟨hph, rfl⟩⟩, ?_⟩
  · have hrbase : st.rbase = 0 := (h.down hphase).1
    rw [← hrbase] at hidle
    exact hidle
  · constructor
    · intro hno
      exact hbase.symm.trans (hno enomem_ne_zero)
    · intro hzero _
      exact hbase.trans hzero

/-- The controller when the start command has been completed: the channel is enabled and
the wake vote for the command is still held. -/
def started (cfg : Fin maxChan → ChanCfg) (c : Fin maxChan) (bufBase : ℕ) (pm : PmState)
    (s : MhiCntrl) : MhiCntrl :=
  { s.upd c fun ch ↦ startChan (cfg c) ch bufBase with pmState := pm, wake := s.wake + 1 }

theorem setUp_started (bufBase : ℕ) (pm : PmState) (st : ChanState) :
    (((setUp cfg c bufBase pm st).on fun s ↦ s.wakeGet.runtimeGet).on fun s ↦
      s.runtimePut.upd c fun ch ↦ { ch with phase := .enabled }) =
      { setUp cfg c bufBase pm st with cntrl := started cfg c bufBase pm st.cntrl } := by
  have hupd := MhiCntrl.upd_upd st.cntrl c (fun ch ↦ mhiInitChanCtxt (cfg c) ch bufBase)
    fun ch ↦ { ch with phase := .enabled }
  have hruntime : st.cntrl.runtime + 1 - 1 = st.cntrl.runtime := by omega
  unfold ChanState.on started
  simp only [ChanState.mk.injEq, and_true]
  ext d
  · exact congrFun (congrArg MhiCntrl.chan hupd) d
  · rfl
  · rfl
  · rfl
  · rfl
  · exact hruntime

theorem started_inv (h : Inv cfg 0 (st.cntrl.less x y))
    (hphase : (st.cntrl.chan c).phase = .stopped) (bufBase : ℕ) (pm : PmState) :
    Inv cfg 0 ((started cfg c bufBase pm st.cntrl).less (x + 1) y) := by
  have hinit := h.init hphase bufBase
  refine ⟨hinit.chan, hinit.pending, ?_, hinit.runtime⟩
  have hwake : st.cntrl.wake - x = _ := hinit.wake
  show st.cntrl.wake + 1 - (x + 1) = _
  rw [add_sub_add_right_eq_sub]
  exact hwake

theorem started_chan (bufBase : ℕ) (pm : PmState) (s : MhiCntrl) :
    (started cfg c bufBase pm s).chan c = startChan (cfg c) (s.chan c) bufBase :=
  MhiCntrl.upd_self s c fun ch ↦ startChan (cfg c) ch bufBase

theorem started_of_ne (bufBase : ℕ) (pm : PmState) (s : MhiCntrl) {d : Fin maxChan} (hd : d ≠ c) :
    (started cfg c bufBase pm s).chan d = s.chan d :=
  MhiCntrl.upd_of_ne s c (fun ch ↦ startChan (cfg c) ch bufBase) hd

theorem flight_startChan (cf : ChanCfg) (ch : MhiChan) (bufBase : ℕ) :
    flight (startChan cf ch bufBase) = 0 := by
  have hr := rings_startChan cf ch bufBase
  have hphase : (startChan cf ch bufBase).phase ≠ .stopped := Phase.enabled_ne_stopped
  unfold flight MhiChan.inFlight
  rw [if_neg hphase, hr.tre.inUse_eq]
  rfl

/-- All elements of a ring but one can be filled. -/
theorem nrAvail_startChan (cf : ChanCfg) (ch : MhiChan) (bufBase : ℕ) :
    (getNrAvailRingElements (startChan cf ch bufBase).treRing).toNat = cf.elements - 1 := by
  have hr := rings_startChan cf ch bufBase
  have havail := hr.tre.nrAvail_eq
  have hcount : (startChan cf ch bufBase).tail - (startChan cf ch bufBase).head = 0 := rfl
  rw [hr.treElements, hcount] at havail
  omega

/-- The wake vote and the mutex are given back. -/
theorem idle_released (hinv : Inv cfg 0 (st.cntrl.less (x + 1) y)) (hmutex : st.mutex = true)
    (hphase : (st.cntrl.chan c).phase = .enabled)
    (howned : (cfg c).preAlloc = true → flight (st.cntrl.chan c) ≤ st.live) :
    (st.on fun s ↦ s.wakePut).mutexUnlock =
        some { st.on fun s ↦ s.wakePut with mutex := false } ∧
      Idle cfg c x y { st.on fun s ↦ s.wakePut with mutex := false } := by
  have hinv' : Inv cfg 0 (st.cntrl.wakePut.less x y) := by
    refine ⟨hinv.chan, hinv.pending, ?_, hinv.runtime⟩
    have hwake : st.cntrl.wake - (x + 1) = _ := hinv.wake
    show st.cntrl.wake - 1 - x = _
    rw [sub_sub, add_comm 1 x]
    exact hwake
  exact ⟨if_pos hmutex, hinv', rfl, .inr hphase,
    fun hst ↦ absurd (hphase.symm.trans hst) Phase.enabled_ne_stopped, howned⟩

/-- A channel with buffers that are pre-allocated. -/
theorem startedChannel_preAlloc (hdata : (cfg c).xferType ≠ .rscDma) (h : Idle cfg c x y st)
    (hphase : (st.cntrl.chan c).phase = .stopped) (bufBase : ℕ) (o : StartOutcome)
    (ho : ClientOk c st o.stop) (hpre : (cfg c).preAlloc = true) :
    ∃ n, ∀ m ≥ n, ∃ r, startedChannel cfg c m o
      ((setUp cfg c bufBase o.pm st).on fun s ↦ s.wakeGet.runtimeGet) = some r ∧
      Prepared cfg c x y st r ∧ NoRing c r := by
  have hchan : (started cfg c bufBase o.pm st.cntrl).chan c = _ :=
    started_chan bufBase o.pm st.cntrl
  have hen : ((started cfg c bufBase o.pm st.cntrl).chan c).phase = .enabled := by rw [hchan]; rfl
  have hroom : ((started cfg c bufBase o.pm st.cntrl).chan c).tail + ((cfg c).elements - 1) <
      ((started cfg c bufBase o.pm st.cntrl).chan c).head + (cfg c).elements := by
    have := (cfg c).elements_pos
    rw [hchan]
    simp only [startChan, mhiInitChanCtxt]
    omega
  obtain ⟨r, u, hloop, hinv, hph, hmutex, hret, hlive⟩ := @preAllocLoop_spec cfg c (x + 1) y
    { setUp cfg c bufBase o.pm st with cntrl := started cfg c bufBase o.pm st.cntrl }
    o.alloc o.len ((cfg c).elements - 1) (started_inv h.inv hphase bufBase o.pm) hen
    ((cfg c).preAlloc_dir hpre) hroom
  have hlive' : u.live = st.live + flight (u.cntrl.chan c) := by
    dsimp only at hlive
    rw [hchan, flight_startChan, add_zero] at hlive
    exact hlive
  have hen' : (u.cntrl.chan c).phase = .enabled := (hph c).trans hen
  obtain ⟨hrel, hidle⟩ := idle_released hinv hmutex hen' fun _ ↦ by
    rw [hlive']
    exact Multiset.le_add_left _ _
  have heq : ∀ m, startedChannel cfg c m o
      ((setUp cfg c bufBase o.pm st).on fun s ↦ s.wakeGet.runtimeGet) =
      (some (r, u)).bind fun
        | (some ret, st) => errorPreAlloc cfg c m o.stop ret st
        | (none, st) => (st.on fun s ↦ s.wakePut).mutexUnlock.map fun st ↦ (0, st) := fun m ↦ by
    unfold startedChannel
    dsimp only
    rw [setUp_started, if_pos hpre, ← hloop, hchan, nrAvail_startChan]
  cases hr : r with
  | none =>
    refine ⟨0, fun m _ ↦ ⟨(0, { u.on fun s ↦ s.wakePut with mutex := false }), ?_,
      ⟨hidle, fun _ ↦ ⟨hen', ?_⟩, fun h0 ↦ absurd rfl h0⟩, fun h0 ↦ absurd rfl h0⟩⟩
    · rw [heq m, hr, Option.bind_some]
      show Option.map _ (ChanState.mutexUnlock _) = _
      rw [hrel]
      rfl
    · rw [if_pos hpre]
      exact hlive'
  | some ret =>
    have hclient : ClientOk c { u.on fun s ↦ s.wakePut with mutex := false } o.stop := by
      intro calls hcalls q hq
      by_cases hqc : q.chan = c
      · exact .inl hqc
      · refine .inr ?_
        have hother : (u.cntrl.chan q.chan).phase = (st.cntrl.chan q.chan).phase :=
          (hph q.chan).trans (congrArg MhiChan.phase (started_of_ne bufBase o.pm st.cntrl hqc))
        show (u.cntrl.chan q.chan).phase ≠ _
        rw [hother]
        exact (ho calls hcalls q hq).resolve_left hqc
    obtain ⟨n, hn⟩ := mhiUnprepareChannel_enabled hdata hidle hen' o.stop hclient
    refine ⟨n, fun m hm ↦ ?_⟩
    obtain ⟨st', hstop, hidle', hst, hring, hfreed⟩ := hn m hm
    refine ⟨(ret, st'), ?_, ⟨hidle', fun h0 ↦ absurd h0 (hret ret hr), fun _ ↦ ⟨hst, ?_⟩⟩,
      fun _ ↦ hring⟩
    · rw [heq m, hr, Option.bind_some]
      show errorPreAlloc cfg c m o.stop ret u = _
      unfold errorPreAlloc
      rw [hrel]
      show (mhiUnprepareChannel cfg c m o.stop _).bind _ = _
      rw [hstop]
      rfl
    · have hfreed' : u.live = flight (u.cntrl.chan c) + st'.live := by
        rw [if_pos hpre] at hfreed
        exact hfreed
      rw [hlive', add_comm] at hfreed'
      exact (add_left_cancel hfreed').symm

/-- A channel without. -/
theorem startedChannel_empty (h : Idle cfg c x y st)
    (hphase : (st.cntrl.chan c).phase = .stopped) (bufBase : ℕ) (o : StartOutcome)
    (hpre : (cfg c).preAlloc = false) (m : ℕ) :
    ∃ r, startedChannel cfg c m o
      ((setUp cfg c bufBase o.pm st).on fun s ↦ s.wakeGet.runtimeGet) = some r ∧
      Prepared cfg c x y st r ∧ NoRing c r := by
  have hen : ((started cfg c bufBase o.pm st.cntrl).chan c).phase = .enabled := by
    rw [started_chan]
    rfl
  obtain ⟨hrel, hidle⟩ := @idle_released cfg c x y
    { setUp cfg c bufBase o.pm st with cntrl := started cfg c bufBase o.pm st.cntrl }
    (started_inv h.inv hphase bufBase o.pm) rfl hen fun hpre' ↦
      absurd (hpre.symm.trans hpre') Bool.false_ne_true
  refine ⟨(0, _), ?_, ⟨hidle, fun _ ↦ ⟨hen, ?_⟩, fun h0 ↦ absurd rfl h0⟩, fun h0 ↦ absurd rfl h0⟩
  · unfold startedChannel
    dsimp only
    rw [setUp_started, hpre, if_neg Bool.false_ne_true, preAllocLoop, Option.bind_some]
    show Option.map _ (ChanState.mutexUnlock _) = _
    rw [hrel]
    rfl
  · rw [hpre, if_neg Bool.false_ne_true, add_zero]
    rfl

/-- Starting a stopped channel. -/
theorem mhiPrepareChannel_stopped (hdata : (cfg c).xferType ≠ .rscDma) (h : Idle cfg c x y st)
    (hphase : (st.cntrl.chan c).phase = .stopped) (o : StartOutcome) (ho : ClientOk c st o.stop) :
    ∃ n, ∀ m ≥ n, ∃ r, mhiPrepareChannel cfg c m o st = some r ∧ Prepared cfg c x y st r ∧
      (NoRing c r ↔ LeavesNoRing cfg c st o) := by
  have hend : ∀ m, mhiPrepareChannel cfg c m o st = _ := fun m ↦
    mhiPrepareChannel_eq m o h.mutex hphase
  by_cases hee : o.eeOk = false
  · have hleaves : LeavesNoRing cfg c st o ↔ (st.cntrl.chan c).treRing.base = 0 := by
      rw [LeavesNoRing, if_pos hee]
    refine ⟨0, fun m _ ↦ ⟨_, (hend m).trans (if_pos hee), ⟨h, fun h0 ↦ absurd h0 enotconn_ne_zero,
      fun _ ↦ ⟨hphase, rfl⟩⟩, ?_⟩⟩
    rw [hleaves]
    exact ⟨fun hno ↦ hno enotconn_ne_zero, fun hzero _ ↦ hzero⟩
  have hleaves : LeavesNoRing cfg c st o ↔ (o.bufBase = none → (cfg c).treBase = 0) := by
    rw [LeavesNoRing, if_neg hee]
  rw [hleaves]
  simp only [if_neg hee] at hend
  cases hb : o.bufBase with
  | none =>
    simp only [hb] at hend
    obtain ⟨hprep, hno⟩ := initFailed_spec h hphase
    refine ⟨0, fun m _ ↦ ⟨_, hend m, hprep, ?_⟩⟩
    rw [hno]
    exact ⟨fun hzero _ ↦ hzero, fun hzero ↦ hzero rfl⟩
  | some b =>
    simp only [hb] at hend
    -- on the other ways the transfer ring is not left behind
    have hset : ∀ r, NoRing c r → (NoRing c r ↔ (some b = none → (cfg c).treBase = 0)) :=
      fun r hno ↦ iff_of_true hno nofun
    have herr : ∀ ret, ret ≠ 0 → (∀ m, mhiPrepareChannel cfg c m o st =
        errorPmState c ret (setUp cfg c b o.pm st)) →
        ∃ n, ∀ m ≥ n, ∃ r, mhiPrepareChannel cfg c m o st = some r ∧
          Prepared cfg c x y st r ∧ (NoRing c r ↔ (some b = none → (cfg c).treBase = 0)) := by
      intro ret hret heq
      obtain ⟨r, hr, hprep, hno⟩ := errorPmState_spec h hphase b o.pm hret
      exact ⟨0, fun m _ ↦ ⟨r, (heq m).trans hr, hprep, hset r hno⟩⟩
    by_cases hpm : o.pm.inErrorState = true
    · exact herr eio eio_ne_zero fun m ↦ (hend m).trans (if_pos hpm)
    simp only [if_neg hpm] at hend
    by_cases hsent : o.sent = false
    · exact herr enomem enomem_ne_zero fun m ↦ (hend m).trans (if_pos hsent)
    simp only [if_neg hsent] at hend
    by_cases hcmd : o.remaining = 0 ∨ o.success = false
    · exact herr eio eio_ne_zero fun m ↦ (hend m).trans (if_pos hcmd)
    simp only [if_neg hcmd] at hend
    cases hpre : (cfg c).preAlloc with
    | true =>
      obtain ⟨n, hn⟩ := startedChannel_preAlloc hdata h hphase b o ho hpre
      refine ⟨n, fun m hm ↦ ?_⟩
      obtain ⟨r, hr, hprep, hno⟩ := hn m hm
      exact ⟨r, (hend m).trans hr, hprep, hset r hno⟩
    | false =>
      refine ⟨0, fun m _ ↦ ?_⟩
      obtain ⟨r, hr, hprep, hno⟩ := startedChannel_empty h hphase b o hpre m
      exact ⟨r, (hend m).trans hr, hprep, hset r hno⟩

/-- The counts are what they were, apart from the votes of queued buffers, and the mutex
is free. -/
structure Balanced (cfg : Fin maxChan → ChanCfg) (st st' : ChanState) : Prop where
  wake : st'.cntrl.wake - uplink cfg st'.cntrl = st.cntrl.wake - uplink cfg st.cntrl
  runtime : st'.cntrl.runtime - (if 0 < uplink cfg st'.cntrl then 1 else 0) =
    st.cntrl.runtime - if 0 < uplink cfg st.cntrl then 1 else 0
  mutex : st'.mutex = false

/-- The votes of others, by the counts. -/
theorem Idle.votes (h : Idle cfg c x y st) :
    st.cntrl.wake - uplink cfg st.cntrl = x ∧
      st.cntrl.runtime - (if 0 < uplink cfg st.cntrl then 1 else 0) = y := by
  have hpending : st.cntrl.pendingPkts = uplink cfg st.cntrl + (0 : ℕ) := h.inv.pending
  have hwake : st.cntrl.wake - x = uplink cfg st.cntrl + (0 : ℕ) := h.inv.wake
  have hruntime : st.cntrl.runtime - y = if 0 < st.cntrl.pendingPkts then 1 else 0 :=
    h.inv.runtime
  rw [hpending, Nat.cast_zero, add_zero] at hruntime
  exact ⟨by omega, by omega⟩

theorem Idle.balanced (h : Idle cfg c x y st) {st' : ChanState} (h' : Idle cfg c x y st') :
    Balanced cfg st st' :=
  ⟨h'.votes.1.trans h.votes.1.symm, h'.votes.2.trans h.votes.2.symm, h'.mutex⟩

/-- `__mhi_unprepare_channel` leaves a channel that is not enabled as it is. -/
theorem mhiUnprepareChannel_stopped (h : Idle cfg c x y st)
    (hphase : (st.cntrl.chan c).phase = .stopped) (fuel : ℕ) (o : StopOutcome) :
    mhiUnprepareChannel cfg c fuel o st = some st := by
  have hne : (st.cntrl.chan c).phase ≠ .enabled := by simp [hphase]
  unfold mhiUnprepareChannel ChanState.mutexLock
  rw [h.mutex, if_neg Bool.false_ne_true]
  show (if (st.cntrl.chan c).phase ≠ .enabled then _ else _) = _
  rw [if_pos hne]
  show some { st with mutex := false } = _
  rw [← h.mutex]

/-- Stopping a channel. -/
theorem mhiUnprepareChannel_idle (hdata : (cfg c).xferType ≠ .rscDma) (h : Idle cfg c x y st)
    (o : StopOutcome) (ho : ClientOk c st o) :
    ∃ n, ∀ m ≥ n, ∃ st', mhiUnprepareChannel cfg c m o st = some st' ∧ Idle cfg c x y st' ∧
      (st'.cntrl.chan c).phase = .stopped ∧
      ((st.cntrl.chan c).phase = .enabled → (st'.cntrl.chan c).treRing.base = 0) ∧
      st.live = (if (cfg c).preAlloc then flight (st.cntrl.chan c) else 0) + st'.live := by
  rcases h.phase with hphase | hphase
  · have hnot : (st.cntrl.chan c).phase ≠ .enabled := fun hen ↦
      Phase.enabled_ne_stopped (hen.symm.trans hphase)
    refine ⟨0, fun m _ ↦ ⟨st, mhiUnprepareChannel_stopped h hphase m o, h, hphase,
      fun hen ↦ absurd hen hnot, ?_⟩⟩
    rw [flight_stopped hphase, ite_self, zero_add]
  · obtain ⟨n, hn⟩ := mhiUnprepareChannel_enabled hdata h hphase o ho
    refine ⟨n, fun m hm ↦ ?_⟩
    obtain ⟨st', heq, hidle, hst, hring, hlive⟩ := hn m hm
    exact ⟨st', heq, hidle, hst, fun _ ↦ hring, hlive⟩

/-- Whatever happens on the way, `__mhi_prepare_channel` and `__mhi_unprepare_channel`
return, and they are balanced, for a channel of a transfer type that `of_parse_ch_cfg`
gives. A start that fails has taken its context down if and only if it leaves no transfer ring
behind. -/
theorem prepare_balanced (hdata : (cfg c).xferType ≠ .rscDma) (h : Idle cfg c x y st) :
    ((st.cntrl.chan c).phase = .stopped → ∀ o : StartOutcome, ClientOk c st o.stop →
      ∃ n, ∀ m ≥ n, ∃ ret st', mhiPrepareChannel cfg c m o st = some (ret, st') ∧
        Idle cfg c x y st' ∧ Balanced cfg st st' ∧
        (ret = 0 → (st'.cntrl.chan c).phase = .enabled) ∧
        (ret ≠ 0 → (st'.cntrl.chan c).phase = .stopped ∧ st'.live = st.live ∧ st'.rbase = 0 ∧
          (st'.cntrl.chan c).bufRing.base = 0) ∧
        ((ret ≠ 0 → Deinitialised c st') ↔ LeavesNoRing cfg c st o)) ∧
    (∀ o : StopOutcome, ClientOk c st o →
      ∃ n, ∀ m ≥ n, ∃ st', mhiUnprepareChannel cfg c m o st = some st' ∧
        Idle cfg c x y st' ∧ Balanced cfg st st' ∧ (st'.cntrl.chan c).phase = .stopped ∧
        st.live = (if (cfg c).preAlloc then flight (st.cntrl.chan c) else 0) + st'.live ∧
        st'.rbase = 0 ∧ (st'.cntrl.chan c).bufRing.base = 0 ∧
        ((st.cntrl.chan c).phase = .enabled → Deinitialised c st')) := by
  refine ⟨fun hphase o ho ↦ ?_, fun o ho ↦ ?_⟩
  · obtain ⟨n, hn⟩ := mhiPrepareChannel_stopped hdata h hphase o ho
    refine ⟨n, fun m hm ↦ ?_⟩
    obtain ⟨⟨ret, st'⟩, heq, hprep, hring⟩ := hn m hm
    have hdown : ret ≠ 0 → st'.rbase = 0 ∧ (st'.cntrl.chan c).bufRing.base = 0 := fun h0 ↦
      hprep.idle.down (hprep.failed h0).1
    refine ⟨ret, st', heq, hprep.idle, h.balanced hprep.idle, fun h0 ↦ (hprep.started h0).1,
      fun h0 ↦ ?_, ?_⟩
    · obtain ⟨hst, hlive⟩ := hprep.failed h0
      exact ⟨hst, hlive, hdown h0⟩
    · rw [← hring]
      constructor
      · intro hdeinit h0
        exact (hdeinit h0).tre
      · intro hno h0
        exact ⟨(hdown h0).1, (hdown h0).2, hno h0⟩
  · obtain ⟨n, hn⟩ := mhiUnprepareChannel_idle hdata h o ho
    refine ⟨n, fun m hm ↦ ?_⟩
    obtain ⟨st', heq, hidle, hst, hring, hlive⟩ := hn m hm
    obtain ⟨hrbase, hbuf⟩ := hidle.down hst
    exact ⟨st', heq, hidle, h.balanced hidle, hst, hlive, hrbase, hbuf,
      fun hen ↦ ⟨hrbase, hbuf, hring hen⟩⟩

/-- Downlink channels with room for one descriptor, which is pre-allocated. -/
def preAllocCfg : Fin maxChan → ChanCfg := fun c ↦
  { smallCfg c with dir := .fromDevice, xferType := .buffer, preAlloc := true
                    preAlloc_dir := fun _ ↦ rfl }

/-- All channels are stopped, and someone else holds a vote of each kind. -/
def stoppedState : ChanState :=
  { cntrl := { MhiCntrl.fresh with wake := 1, runtime := 1 }
    mutex := false
    rbase := 0
    live := 0 }

/-- The buffer that is pre-allocated cannot be mapped. -/
def unmappedOutcome : StartOutcome :=
  { eeOk := true
    bufBase := some 65536
    pm := .m0
    sent := true
    remaining := 1
    success := true
    alloc := fun _ ↦ .unmapped 7
    len := 2048
    stop := ⟨.m0, []⟩ }

theorem stoppedState_idle : Idle preAllocCfg chan0 1 1 stoppedState :=
  ⟨(RunInv.fresh preAllocCfg).inv, rfl, .inl rfl, fun _ ↦ ⟨rfl, rfl⟩, fun _ ↦ le_rfl⟩

/-- A start that fails at the last step, and the channel is as before. -/
theorem unmappedOutcome_balanced :
    (mhiPrepareChannel preAllocCfg chan0 2 unmappedOutcome stoppedState).map
        (fun r ↦ (r.1, r.2.cntrl.wake, r.2.cntrl.runtime, r.2.live)) = some (enomem, 1, 1, 0) ∧
      ∃ n, ∀ m ≥ n, ∃ ret st',
        mhiPrepareChannel preAllocCfg chan0 m unmappedOutcome stoppedState = some (ret, st') ∧
          Balanced preAllocCfg stoppedState st' ∧ (ret ≠ 0 → Deinitialised chan0 st') := by
  obtain ⟨n, hn⟩ := (prepare_balanced (by decide) stoppedState_idle).1 rfl unmappedOutcome
    (List.forall_mem_nil _)
  refine ⟨by decide, n, fun m hm ↦ ?_⟩
  obtain ⟨ret, st', heq, -, hbal, -, -, hdown⟩ := hn m hm
  exact ⟨ret, st', heq, hbal, hdown.mpr nofun⟩

/-- There is no memory for `buf_ring`. -/
def noMemoryOutcome : StartOutcome := { unmappedOutcome with bufBase := none }

/-- The call fails, and the transfer ring of the channel stays set. -/
theorem noMemory_not_deinitialised :
    ¬ ∀ (cfg : Fin maxChan → ChanCfg) (c : Fin maxChan) (x y : ℤ) (st : ChanState)
      (o : StartOutcome), (cfg c).xferType ≠ .rscDma → Idle cfg c x y st →
        (st.cntrl.chan c).phase = .stopped → ClientOk c st o.stop → Deinitialised c st →
          ∃ n, ∀ m ≥ n, ∃ ret st', mhiPrepareChannel cfg c m o st = some (ret, st') ∧
            (ret ≠ 0 → Deinitialised c st') := by
  intro hall
  obtain ⟨n, hn⟩ := hall preAllocCfg chan0 1 1 stoppedState noMemoryOutcome (by decide)
    stoppedState_idle rfl (List.forall_mem_nil _) ⟨rfl, rfl, rfl⟩
  obtain ⟨ret, st', heq, hdown⟩ := hn n le_rfl
  obtain ⟨rfl, rfl⟩ := Prod.mk.inj (Option.some.inj (heq.symm.trans
    (mhiPrepareChannel_eq n noMemoryOutcome rfl rfl)))
  exact absurd (hdown (by decide)).tre (by decide)

end Start

end Wwan.Mhi
