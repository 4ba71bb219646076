import Mathlib.Algebra.Order.BigOperators.Group.Multiset
import Mathlib.Data.Multiset.AddSub
import Wwan.Mhi.DataChan

/-!
# Channels whose buffers are completed out of order

On a channel of type `MHI_XFER_RSC_DMA` an event names the buffer it completes by its
offset in `buf_ring`, and buffers may be completed in any order. `parse_rsc_event`
takes the oldest descriptor off the transfer ring whichever buffer was completed, and
only clears the `used` flag of that buffer's element; the read pointer of `buf_ring`
does not move. So `mhi_queue_dma`, which looks at the transfer ring only, finds room
although the element it is about to write may still be in use.

The runs are those of one such channel. A buffer is never lost as long as the buffer
that had the element before is completed by the time the next one is written
(`QueueGood`), and an event meets the buffer it was written for as long as none is
unread when the channel is started again.
-/

namespace Wwan.Mhi

open Wwan

/-! ## Runs of an RSC channel -/

/-- The state of a run. -/
structure RscState where
  /-- The controller. -/
  cntrl : MhiCntrl
  /-- `buf_info` of `mhi_reset_rsc_chan`, as an index. -/
  pos : ℕ

/-- The steps of a run. -/
inductive RscStep
  | /-- The PM state changes. -/
    pm (p : PmState)
  | /-- The client calls `mhi_queue_dma`. -/
    queue (buf len : ℕ)
  | /-- The device completes buffer number `seq`. -/
    report (seq code len : ℕ)
  | /-- The oldest unread event is processed. -/
    fetch (calls : List (ℕ × ℕ))
  | /-- `__mhi_unprepare_channel` disables the channel. -/
    disable
  | /-- `mhi_reset_chan` marks the events of the channel. -/
    mark
  | /-- A pass of the loop of `mhi_reset_rsc_chan`. -/
    pass (calls : List (ℕ × ℕ))
  | /-- The loop is over, `mhi_deinit_chan_ctxt`. -/
    deinit
  | /-- `__mhi_prepare_channel`. -/
    start (bufBase : ℕ)

/-- The element that completes buffer number `seq` of channel `c`. -/
def rscEvent (cfg : ChanCfg) (c : Fin maxChan) (ch : MhiChan) (seq code len : ℕ) : Event :=
  { tre :=
      { ptr := bufInfoSize * (seq % cfg.elements)
        dword0 := code * 2 ^ 24 + len
        dword1 := MhiTre.evDword1 c rscTxEvent }
    epoch := ch.epoch
    seq := seq }

/-- The element is an RSC event of channel `c`. -/
def isRsc (c : Fin maxChan) (e : Event) : Bool :=
  e.tre.evType = rscTxEvent ∧ e.tre.evChid = c.val

/-- Buffer number `seq` is in its element and in use. -/
def Holds (cfg : ChanCfg) (ch : MhiChan) (seq : ℕ) : Prop :=
  (ch.bufInfo (seq % cfg.elements)).used = true ∧ (ch.bufInfo (seq % cfg.elements)).num = seq

instance (cfg : ChanCfg) (ch : MhiChan) (seq : ℕ) : Decidable (Holds cfg ch seq) :=
  inferInstanceAs (Decidable (_ ∧ _))

section System

variable (cfg : Fin maxChan → ChanCfg) (c : Fin maxChan)

/-- The calls of `mhi_queue_dma` a callback makes. -/
def dmaCalls (calls : List (ℕ × ℕ)) : List QueueCall := calls.map fun b ↦ .dma c b.1 b.2

/-- The unread events. -/
def unread (s : MhiCntrl) : List Event := s.evRing (cfg c).erIndex

/-- The controller when the oldest unread event is off its ring. -/
def popped (s : MhiCntrl) : MhiCntrl :=
  { s with evRing := Function.update s.evRing (cfg c).erIndex (unread cfg c s).tail }

/-- Which steps can come next. The device completes each buffer in flight once.
`kzalloc` gives no array that a cookie cannot address. -/
def RscStep.enabled (st : RscState) : RscStep → Prop
  | pm _ => True
  | queue .. => (st.cntrl.chan c).phase ≠ .stopped
  | report seq code len =>
    ((st.cntrl.chan c).phase = .enabled ∨ (st.cntrl.chan c).phase = .disabled) ∧
      Holds (cfg c) (st.cntrl.chan c) seq ∧
      (∀ e ∈ unread cfg c st.cntrl, e.epoch = (st.cntrl.chan c).epoch → e.seq ≠ seq) ∧
      code < 256 ∧ len < 2 ^ 16
  | fetch _ => unread cfg c st.cntrl ≠ []
  | disable => (st.cntrl.chan c).phase = .enabled
  | mark => (st.cntrl.chan c).phase = .disabled
  | pass _ => (st.cntrl.chan c).phase = .draining ∧ st.pos < (cfg c).elements
  | deinit => (st.cntrl.chan c).phase = .draining ∧ (cfg c).elements ≤ st.pos
  | start _ => (st.cntrl.chan c).phase = .stopped ∧ bufInfoSize * (cfg c).elements ≤ 2 ^ 32

instance (st : RscState) : DecidablePred (RscStep.enabled cfg c st)
  | .pm _ => inferInstanceAs (Decidable True)
  | .queue .. => inferInstanceAs (Decidable (_ ≠ _))
  | .report .. => inferInstanceAs (Decidable ((_ ∨ _) ∧ _ ∧ _ ∧ _ ∧ _))
  | .fetch _ => inferInstanceAs (Decidable (_ ≠ _))
  | .disable => inferInstanceAs (Decidable (_ = _))
  | .mark => inferInstanceAs (Decidable (_ = _))
  | .pass _ => inferInstanceAs (Decidable (_ ∧ _))
  | .deinit => inferInstanceAs (Decidable (_ ∧ _))
  | .start _ => inferInstanceAs (Decidable (_ ∧ _))

/-- The state after a step. -/
def RscStep.next (st : RscState) : RscStep → RscState
  | pm p => { st with cntrl := { st.cntrl with pmState := p } }
  | queue buf len => { st with cntrl := (mhiQueueDma cfg st.cntrl c buf len).2 }
  | report seq code len =>
    let e := rscEvent (cfg c) c (st.cntrl.chan c) seq code len
    { st with cntrl := { st.cntrl with
        evRing := Function.update st.cntrl.evRing (cfg c).erIndex (unread cfg c st.cntrl ++ [e]) } }
  | fetch calls =>
    match unread cfg c st.cntrl with
    | [] => st
    | e :: _ =>
      { st with cntrl := parseRscEvent cfg (popped cfg c st.cntrl) c e.tre (dmaCalls c calls) }
  | disable => { st with cntrl := st.cntrl.upd c fun ch ↦ { ch with phase := .disabled } }
  | mark =>
    { cntrl := (mhiMarkStaleEvents st.cntrl (cfg c).erIndex c).upd c fun ch ↦
        { ch with phase := .draining }
      pos := 0 }
  | pass calls =>
    { cntrl := resetRscElement cfg st.cntrl c st.pos (dmaCalls c calls)
      pos := st.pos + 1 }
  | deinit => { st with cntrl := st.cntrl.upd c mhiDeinitChanCtxt }
  | start bufBase =>
    { st with cntrl := st.cntrl.upd c fun ch ↦ startChan (cfg c) ch bufBase }

/-- The runs of channel `c`. -/
def rscSystem : System RscState RscStep :=
  { init := ⟨MhiCntrl.fresh, 0⟩
    enabled := RscStep.enabled cfg c
    next := RscStep.next cfg c }

instance (st : RscState) (e : RscStep) : Decidable ((rscSystem cfg c).enabled st e) :=
  inferInstanceAs (Decidable (RscStep.enabled cfg c st e))

/-! ## The condition -/

/-- If `mhi_queue_dma` accepts a buffer now, every buffer in flight is among the last
`elements` ones; and `mhi_reset_rsc_chan`, if it is in its loop, has not passed the
element. -/
def QueueGood (pos : ℕ) (s : MhiCntrl) : Prop :=
  mhiIsRingFull (s.chan c).treRing = false → s.pmState.inErrorState = false →
    (∀ i < (cfg c).elements, ((s.chan c).bufInfo i).used = true →
      (s.chan c).tail < ((s.chan c).bufInfo i).num + (cfg c).elements) ∧
    ((s.chan c).phase = .draining → pos ≤ (s.chan c).tail % (cfg c).elements)

instance (pos : ℕ) (s : MhiCntrl) : Decidable (QueueGood cfg c pos s) :=
  inferInstanceAs (Decidable (_ → _ → _ ∧ _))

/-- `QueueGood` for each call of a callback. -/
def CallsGood (pos : ℕ) : MhiCntrl → List (ℕ × ℕ) → Prop
  | _, [] => True
  | s, b :: calls => QueueGood cfg c pos s ∧ CallsGood pos (mhiQueueDma cfg s c b.1 b.2).2 calls

instance decidableCallsGood (pos : ℕ) : ∀ s calls, Decidable (CallsGood cfg c pos s calls)
  | _, [] => .isTrue trivial
  | s, b :: calls =>
    haveI := decidableCallsGood pos (mhiQueueDma cfg s c b.1 b.2).2 calls
    inferInstanceAs (Decidable (_ ∧ _))

/-- The state in which `xfer_cb` is called. -/
def inCallback (s : MhiCntrl) (res : MhiResult) : MhiCntrl := s.upd c fun ch ↦ ch.hand (.xferCb res)

/-- The buffers that are queued are good ones, and no RSC event of the channel is unread
when it is started again. -/
def RscGood (st : RscState) : RscStep → Prop
  | .queue .. => QueueGood cfg c st.pos st.cntrl
  | .fetch calls => ∀ e ∈ (unread cfg c st.cntrl).head?,
      ∀ i ∈ (st.cntrl.chan c).elementAt e.tre.evCookie, (st.cntrl.chan c).phase = .enabled →
        CallsGood cfg c st.pos (inCallback c (popped cfg c st.cntrl)
          ⟨((st.cntrl.chan c).bufInfo i).cbBuf, e.tre.evStatus, e.tre.evLen⟩) calls
  | .pass calls => ((st.cntrl.chan c).bufInfo st.pos).used = true →
      CallsGood cfg c st.pos (inCallback c st.cntrl
        ⟨((st.cntrl.chan c).bufInfo st.pos).cbBuf, .enotconn, 0⟩) calls
  | .start _ => ∀ e ∈ unread cfg c st.cntrl, isRsc c e = false
  | _ => True

instance (st : RscState) : DecidablePred (RscGood cfg c st)
  | .queue .. => inferInstanceAs (Decidable (QueueGood cfg c st.pos st.cntrl))
  | .fetch _ => inferInstanceAs (Decidable (∀ e ∈ (unread cfg c st.cntrl).head?,
      ∀ i ∈ (st.cntrl.chan c).elementAt e.tre.evCookie, _ → _))
  | .pass _ => inferInstanceAs (Decidable (_ → _))
  | .start _ => inferInstanceAs (Decidable (∀ e ∈ unread cfg c st.cntrl, _))
  | .pm _ | .report .. | .disable | .mark | .deinit => inferInstanceAs (Decidable True)

end System

/-! ## The channel -/

/-- The buffer of an element, if it is in use. -/
def inUseOf (info : BufInfo) : Multiset ℕ := if info.used then {info.cbBuf} else 0

/-- The buffers of the elements in use. -/
def inUse (cfg : ChanCfg) (ch : MhiChan) : Multiset ℕ :=
  ∑ i ∈ Finset.range cfg.elements, inUseOf (ch.bufInfo i)

/-- The rings of an RSC channel that is not stopped. -/
structure RscRings (cfg : ChanCfg) (ch : MhiChan) : Prop where
  tre : ch.treRing.At ch.head ch.tail
  treElements : ch.treRing.elements = cfg.elements
  bufElements : ch.bufRing.elements = cfg.elements
  bufElSize : ch.bufRing.elSize = bufInfoSize
  bufWp : ch.bufRing.wp = ch.bufRing.base + ch.bufRing.elSize * (ch.tail % ch.bufRing.elements)
  cookie : bufInfoSize * cfg.elements ≤ 2 ^ 32

/-- The invariant of an RSC channel. `x` are the buffers that have been handed over
and whose elements are still marked as in use. -/
structure RscInv (cfg : ChanCfg) (x : Multiset ℕ) (ch : MhiChan) : Prop where
  rings : ch.phase ≠ .stopped → RscRings cfg ch
  stopped : ch.phase = .stopped → ∀ i < cfg.elements, (ch.bufInfo i).used = false
  num : ∀ i < cfg.elements, (ch.bufInfo i).used = true → (ch.bufInfo i).num % cfg.elements = i ∧
    (ch.bufInfo i).num < ch.tail ∧ ch.tail ≤ (ch.bufInfo i).num + cfg.elements
  count : ch.phase = .enabled ∨ ch.phase = .disabled →
    ch.head + (inUse cfg ch).card = ch.tail
  history : (ch.accepted : Multiset ℕ) + x = ↑(ch.handed.map Handed.buf) + inUse cfg ch

section Channel

variable {cf : ChanCfg} {ch : MhiChan} {x : Multiset ℕ} {i : ℕ}

theorem RscRings.index_wp (h : RscRings cf ch) :
    ch.bufRing.index ch.bufRing.wp = ch.tail % cf.elements := by
  rw [h.bufWp, MhiRing.index_eq_of_pos (by rw [h.bufElSize]; exact bufInfoSize_pos), h.bufElements]

/-- What `mhi_queue_dma` makes of the channel when it accepts a buffer. -/
def rscQueued (ch : MhiChan) (buf len : ℕ) : MhiChan :=
  (ch.writeBufInfo fun i ↦ { i with preMapped := true, cbBuf := buf, wp := ch.treRing.wp,
                                    len := len, num := ch.tail, used := true }).addElements

/-- The element `mhi_queue_dma` writes is in use exactly when a buffer in flight is not
among the last `elements` ones. -/
theorem RscInv.unused_iff (h : RscInv cf x ch) :
    (ch.bufInfo (ch.tail % cf.elements)).used = false ↔
      ∀ i < cf.elements, (ch.bufInfo i).used = true → ch.tail < (ch.bufInfo i).num + cf.elements := by
  have hslot := Nat.mod_lt ch.tail cf.elements_pos
  constructor
  · intro hfree i hi hused
    obtain ⟨hmod, -, hle⟩ := h.num i hi hused
    refine Nat.lt_of_le_of_ne hle fun heq ↦ ?_
    rw [heq, Nat.add_mod_right, hmod, hused] at hfree
    exact Bool.false_ne_true hfree.symm
  · intro hgood
    rw [Bool.eq_false_iff]
    intro hused
    obtain ⟨hmod, hlt, -⟩ := h.num _ hslot hused
    have := Ring.eq_of_mod_eq hmod hlt.le (hgood _ hslot hused)
    omega

theorem rscQueued_bufInfo (hr : RscRings cf ch) (buf len : ℕ) :
    (rscQueued ch buf len).bufInfo = Function.update ch.bufInfo (ch.tail % cf.elements)
      ⟨buf, len, ch.treRing.wp, true, true, ch.tail⟩ := by
  unfold rscQueued MhiChan.addElements MhiChan.writeBufInfo
  dsimp only
  rw [hr.index_wp]

theorem rscQueued_accepted (buf len : ℕ) :
    (rscQueued ch buf len).accepted = ch.accepted ++ [buf] := by
  unfold rscQueued MhiChan.addElements MhiChan.writeBufInfo
  dsimp only
  rw [Function.update_self]

/-- Accepting a buffer into an element that is not in use. -/
theorem RscInv.queue (h : RscInv cf x ch) (hphase : ch.phase ≠ .stopped)
    (hfull : mhiIsRingFull ch.treRing = false)
    (hgood : ∀ i < cf.elements, (ch.bufInfo i).used = true →
      ch.tail < (ch.bufInfo i).num + cf.elements) (buf len : ℕ) :
    RscInv cf x (rscQueued ch buf len) := by
  have hr := h.rings hphase
  have hslot := Nat.mod_lt ch.tail cf.elements_pos
  have hfree := h.unused_iff.mpr hgood
  have hinfo := rscQueued_bufInfo hr buf len
  have huse : inUse cf (rscQueued ch buf len) = inUse cf ch + {buf} := by
    have hsum :=
      Ring.sum_update inUseOf ch.bufInfo hslot ⟨buf, len, ch.treRing.wp, true, true, ch.tail⟩
    have hold : inUseOf (ch.bufInfo (ch.tail % cf.elements)) = 0 := by simp [inUseOf, hfree]
    rw [hold, add_zero] at hsum
    unfold inUse
    rw [hinfo, hsum]
    rfl
  refine ⟨fun _ ↦ ?_, fun hst ↦ absurd hst hphase, fun i hi hused ↦ ?_, fun hph ↦ ?_, ?_⟩
  · have hroom : ch.tail + 1 < ch.head + cf.elements := by
      have hne : ¬ ch.tail + 1 = ch.head + ch.treRing.elements := fun heq ↦ by
        simp [hr.tre.full_iff.mpr heq] at hfull
      have hlt := hr.tre.lt
      have hel := hr.treElements
      omega
    refine ⟨hr.tre.add (by rw [hr.treElements]; exact hroom), hr.treElements, hr.bufElements,
      hr.bufElSize, ?_, hr.cookie⟩
    show ch.bufRing.after ch.bufRing.wp = _
    rw [hr.bufWp]
    exact MhiRing.after_eq_of_pos (by rw [hr.bufElSize]; exact bufInfoSize_pos)
      (by rw [hr.bufElements]; exact cf.elements_pos) ch.tail
  · have htail : (rscQueued ch buf len).tail = ch.tail + 1 := rfl
    rw [hinfo] at hused ⊢
    rw [htail]
    by_cases hi' : i = ch.tail % cf.elements
    · rw [hi', Function.update_self]
      have := cf.elements_pos
      exact ⟨rfl, Nat.lt_succ_self _, by dsimp only; omega⟩
    · rw [Function.update_of_ne hi'] at hused ⊢
      obtain ⟨hmod, hlt, -⟩ := h.num i hi hused
      exact ⟨hmod, Nat.lt_succ_of_lt hlt, hgood i hi hused⟩
  · have hcount := h.count hph
    rw [huse, Multiset.card_add, Multiset.card_singleton]
    show ch.head + _ = ch.tail + 1
    omega
  · rw [huse, rscQueued_accepted, ← Multiset.coe_add, Multiset.coe_singleton, add_right_comm,
      h.history, add_assoc]
    rfl

/-- `xfer_cb` is called. -/
theorem RscInv.hand (h : RscInv cf x ch) (hd : Handed) : RscInv cf (x + {hd.buf}) (ch.hand hd) := by
  refine ⟨fun hph ↦ ?_, h.stopped, h.num, h.count, ?_⟩
  · have hr := h.rings hph
    exact ⟨hr.tre, hr.treElements, hr.bufElements, hr.bufElSize, hr.bufWp, hr.cookie⟩
  · show (ch.accepted : Multiset ℕ) + (x + {hd.buf}) =
      ↑((ch.handed ++ [hd]).map Handed.buf) + inUse cf ch
    rw [List.map_append, List.map_singleton, ← Multiset.coe_add, Multiset.coe_singleton,
      add_right_comm, ← h.history, add_assoc]

/-- An element is no longer in use. -/
theorem inUse_free (hi : i < cf.elements) (hused : (ch.bufInfo i).used = true) :
    inUse cf ch = inUse cf (ch.free i) + {(ch.bufInfo i).cbBuf} := by
  have hsum := Ring.sum_update inUseOf ch.bufInfo hi { ch.bufInfo i with used := false }
  have hold : inUseOf (ch.bufInfo i) = {(ch.bufInfo i).cbBuf} := by simp [inUseOf, hused]
  have hnew : inUseOf { ch.bufInfo i with used := false } = 0 := rfl
  rw [hold, hnew, add_zero] at hsum
  exact hsum.symm

theorem free_used {j : ℕ} (h : ((ch.free i).bufInfo j).used = true) :
    j ≠ i ∧ (ch.free i).bufInfo j = ch.bufInfo j := by
  unfold MhiChan.free at h ⊢
  by_cases hj : j = i
  · rw [hj] at h
    simp at h
  · exact ⟨hj, Function.update_of_ne hj _ _⟩

/-- `parse_rsc_event` after the callback. -/
theorem RscInv.complete (h : RscInv cf {(ch.bufInfo i).cbBuf} ch) (hphase : ch.phase = .enabled)
    (hi : i < cf.elements) (hused : (ch.bufInfo i).used = true) :
    RscInv cf 0 (ch.rscDone i) := by
  have hr := h.rings (by simp [hphase])
  have huse := inUse_free hi hused
  have hcount := h.count (.inl hphase)
  rw [huse, Multiset.card_add, Multiset.card_singleton] at hcount
  refine ⟨fun _ ↦ ?_, fun hst ↦ ?_, fun j hj hused' ↦ ?_, fun _ ↦ ?_, ?_⟩
  · exact ⟨hr.tre.del (by omega), hr.treElements, hr.bufElements, hr.bufElSize, hr.bufWp, hr.cookie⟩
  · exact nomatch hphase.symm.trans hst
  · obtain ⟨-, heq⟩ := @free_used ch _ _ hused'
    have hsame : (ch.rscDone i).bufInfo j = ch.bufInfo j := heq
    rw [hsame] at hused' ⊢
    exact h.num j hj hused'
  · show ch.head + 1 + (inUse cf (ch.free i)).card = ch.tail
    omega
  · have hhist := h.history
    rw [huse, ← add_assoc] at hhist
    rw [add_zero]
    exact add_right_cancel hhist

/-- The pass of `mhi_reset_rsc_chan` after the callback. -/
theorem RscInv.released (h : RscInv cf {(ch.bufInfo i).cbBuf} ch) (hphase : ch.phase = .draining)
    (hi : i < cf.elements) (hused : (ch.bufInfo i).used = true) : RscInv cf 0 (ch.free i) := by
  have hr := h.rings (by simp [hphase])
  have huse := inUse_free hi hused
  refine ⟨fun _ ↦ ?_, fun hst ↦ ?_, fun j hj hused' ↦ ?_, fun hph ↦ ?_, ?_⟩
  · exact ⟨hr.tre, hr.treElements, hr.bufElements, hr.bufElSize, hr.bufWp, hr.cookie⟩
  · exact nomatch hphase.symm.trans hst
  · obtain ⟨-, heq⟩ := free_used hused'
    rw [heq] at hused' ⊢
    exact h.num j hj hused'
  · have hph' : ch.phase = .enabled ∨ ch.phase = .disabled := hph
    simp [hphase] at hph'
  · have hhist := h.history
    rw [huse, ← add_assoc] at hhist
    rw [add_zero]
    exact add_right_cancel hhist

end Channel

/-! ## Queueing, also from a callback -/

section Steps

variable {cfg : Fin maxChan → ChanCfg} {c : Fin maxChan} {s t : MhiCntrl} {x : Multiset ℕ}
  {pos : ℕ}

/-- `mhi_queue_dma` refuses the buffer or accepts it. -/
theorem mhiQueueDma_rsc (hrsc : (cfg c).xferType = .rscDma) (s : MhiCntrl) (buf len : ℕ) :
    ((mhiQueueDma cfg s c buf len).1 ≠ .ok ∧ (mhiQueueDma cfg s c buf len).2 = s) ∨
      ((mhiQueueDma cfg s c buf len).1 = .ok ∧ mhiIsRingFull (s.chan c).treRing = false ∧
        s.pmState.inErrorState = false ∧
        (mhiQueueDma cfg s c buf len).2.evRing = s.evRing ∧
        (mhiQueueDma cfg s c buf len).2.chan c = rscQueued (s.chan c) buf len) := by
  unfold mhiQueueDma
  cases hfull : mhiIsRingFull (s.chan c).treRing with
  | true => exact .inl ⟨nofun, rfl⟩
  | false =>
    cases hpm : s.pmState.inErrorState with
    | true => exact .inl ⟨nofun, rfl⟩
    | false =>
      right
      simp only [runtimeKick_eq, Bool.false_eq_true, if_false]
      rw [submit_eq cfg s c _ (assertWake_toDevice cfg s c)]
      simp only [hrsc, if_true]
      refine ⟨trivial, trivial, trivial, ?_, ?_⟩
      · unfold uplinkTaken
        split <;> rfl
      · rw [uplinkTaken_chan, MhiCntrl.upd_self]
        rfl

/-- What good calls leave of the channel and the events. -/
structure RscFrame (cfg : Fin maxChan → ChanCfg) (c : Fin maxChan) (pos : ℕ) (s t : MhiCntrl) :
    Prop where
  evRing : t.evRing = s.evRing
  phase : (t.chan c).phase = (s.chan c).phase
  epoch : (t.chan c).epoch = (s.chan c).epoch
  kept : ∀ i < (cfg c).elements, ((s.chan c).bufInfo i).used = true →
    (t.chan c).bufInfo i = (s.chan c).bufInfo i
  passed : (s.chan c).phase = .draining → ∀ i < pos, ((s.chan c).bufInfo i).used = false →
    ((t.chan c).bufInfo i).used = false

theorem RscFrame.refl (s : MhiCntrl) : RscFrame cfg c pos s s :=
  ⟨rfl, rfl, rfl, fun _ _ _ ↦ rfl, fun _ _ _ h ↦ h⟩

theorem RscFrame.trans {u : MhiCntrl} (h : RscFrame cfg c pos s t) (h' : RscFrame cfg c pos t u) :
    RscFrame cfg c pos s u where
  evRing := h'.evRing.trans h.evRing
  phase := h'.phase.trans h.phase
  epoch := h'.epoch.trans h.epoch
  kept i hi hused := by
    have hkept := h.kept i hi hused
    exact (h'.kept i hi (by rw [hkept]; exact hused)).trans hkept
  passed hph i hi hfree :=
    h'.passed (h.phase.trans hph) i hi (h.passed hph i hi hfree)

/-- A good call. -/
theorem RscInv.call (hrsc : (cfg c).xferType = .rscDma) (h : RscInv (cfg c) x (s.chan c))
    (hphase : (s.chan c).phase ≠ .stopped) (hgood : QueueGood cfg c pos s) (buf len : ℕ) :
    RscInv (cfg c) x ((mhiQueueDma cfg s c buf len).2.chan c) ∧
      RscFrame cfg c pos s (mhiQueueDma cfg s c buf len).2 := by
  rcases mhiQueueDma_rsc hrsc s buf len with ⟨-, heq⟩ | ⟨-, hfull, hpm, hev, hchan⟩
  · rw [heq]
    exact ⟨h, .refl s⟩
  · obtain ⟨hwindow, hpos⟩ := hgood hfull hpm
    have hfree := h.unused_iff.mpr hwindow
    have hinfo := rscQueued_bufInfo (h.rings hphase) buf len
    refine ⟨by rw [hchan]; exact h.queue hphase hfull hwindow buf len, hev, ?_, ?_, ?_, ?_⟩
    · rw [hchan]
      rfl
    · rw [hchan]
      rfl
    · intro i _ hused
      rw [hchan, hinfo]
      refine Function.update_of_ne (fun heq ↦ ?_) _ _
      rw [heq, hfree] at hused
      exact Bool.false_ne_true hused
    · intro hph i hi hfree'
      have hle := hpos hph
      rw [hchan, hinfo, Function.update_of_ne (by omega)]
      exact hfree'

/-- Good calls from a callback. -/
theorem RscInv.calls (hrsc : (cfg c).xferType = .rscDma) {calls : List (ℕ × ℕ)}
    (h : RscInv (cfg c) x (s.chan c)) (hphase : (s.chan c).phase ≠ .stopped)
    (hgood : CallsGood cfg c pos s calls) :
    RscInv (cfg c) x (((dmaCalls c calls).foldl (fun s q ↦ (mhiQueue cfg s q).2) s).chan c) ∧
      RscFrame cfg c pos s ((dmaCalls c calls).foldl (fun s q ↦ (mhiQueue cfg s q).2) s) := by
  induction calls generalizing s with
  | nil => exact ⟨h, .refl s⟩
  | cons b calls ih =>
    obtain ⟨hcall, hframe⟩ := h.call hrsc hphase hgood.1 b.1 b.2
    obtain ⟨hrest, hframe'⟩ := ih hcall (by rw [hframe.phase]; exact hphase) hgood.2
    exact ⟨hrest, hframe.trans hframe'⟩

/-- A callback for the buffer of element `i`. -/
theorem RscInv.callback (hrsc : (cfg c).xferType = .rscDma) {calls : List (ℕ × ℕ)} {i : ℕ}
    (h : RscInv (cfg c) 0 (s.chan c)) (hphase : (s.chan c).phase ≠ .stopped)
    (hi : i < (cfg c).elements) (hused : ((s.chan c).bufInfo i).used = true)
    (status : XferStatus) (len : ℕ)
    (hgood : CallsGood cfg c pos (inCallback c s ⟨((s.chan c).bufInfo i).cbBuf, status, len⟩) calls) :
    ∃ t, xferCb cfg s c ⟨((s.chan c).bufInfo i).cbBuf, status, len⟩ (dmaCalls c calls) = t ∧
      RscInv (cfg c) {((t.chan c).bufInfo i).cbBuf} (t.chan c) ∧
      ((t.chan c).bufInfo i).used = true ∧ RscFrame cfg c pos s t := by
  have hchan : (inCallback c s ⟨((s.chan c).bufInfo i).cbBuf, status, len⟩).chan c =
      (s.chan c).hand (.xferCb ⟨((s.chan c).bufInfo i).cbBuf, status, len⟩) := s.upd_self c _
  have hstart : RscFrame cfg c pos s
      (inCallback c s ⟨((s.chan c).bufInfo i).cbBuf, status, len⟩) := by
    refine ⟨rfl, ?_, ?_, ?_, ?_⟩ <;> rw [hchan]
    · rfl
    · rfl
    · exact fun _ _ _ ↦ rfl
    · exact fun _ _ _ h ↦ h
  have hhand := h.hand (.xferCb ⟨((s.chan c).bufInfo i).cbBuf, status, len⟩)
  rw [zero_add] at hhand
  obtain ⟨hinv, hframe⟩ := RscInv.calls hrsc (by rw [hchan]; exact hhand)
    (by rw [hstart.phase]; exact hphase) hgood
  have hall := hstart.trans hframe
  have hkept := hall.kept i hi hused
  refine ⟨_, rfl, ?_, ?_, hall⟩
  · rw [xferCb]
    unfold inCallback at hinv hkept
    rw [hkept]
    exact hinv
  · rw [xferCb]
    unfold inCallback at hkept
    rw [hkept]
    exact hused

/-! ## Steps -/

/-- The event was written since the last start, and completes the buffer in its element. -/
structure RscFresh (cfg : ChanCfg) (ch : MhiChan) (e : Event) : Prop where
  epoch : e.epoch = ch.epoch
  cookie : e.tre.evCookie = bufInfoSize * (e.seq % cfg.elements)
  holds : Holds cfg ch e.seq

/-- The channel has been started and its reset has not begun. -/
def Running (ch : MhiChan) : Prop := ch.phase = .enabled ∨ ch.phase = .disabled

/-- The unread events. -/
structure RscEvents (cfg : Fin maxChan → ChanCfg) (c : Fin maxChan) (s : MhiCntrl) : Prop where
  rsc : ∀ e ∈ unread cfg c s, isRsc c e = true
  fresh : Running (s.chan c) → ∀ e ∈ unread cfg c s, RscFresh (cfg c) (s.chan c) e
  distinct : Running (s.chan c) → (unread cfg c s).Pairwise fun e e' ↦ e.seq ≠ e'.seq

/-- The invariant of the runs. -/
structure RscRunInv (cfg : Fin maxChan → ChanCfg) (c : Fin maxChan) (st : RscState) : Prop where
  chan : RscInv (cfg c) 0 (st.cntrl.chan c)
  passed : (st.cntrl.chan c).phase = .draining → ∀ i < st.pos,
    ((st.cntrl.chan c).bufInfo i).used = false
  events : RscEvents cfg c st.cntrl

variable {st : RscState}

theorem RscFresh.frame {e : Event} (h : RscFresh (cfg c) (s.chan c) e)
    (hf : RscFrame cfg c pos s t) : RscFresh (cfg c) (t.chan c) e := by
  have hslot := Nat.mod_lt e.seq (cfg c).elements_pos
  refine ⟨h.epoch.trans hf.epoch.symm, h.cookie, ?_⟩
  unfold Holds
  rw [hf.kept _ hslot h.holds.1]
  exact h.holds

/-- Good calls leave the events. -/
theorem RscEvents.frame (h : RscEvents cfg c s) (hf : RscFrame cfg c pos s t) :
    RscEvents cfg c t := by
  have hunread : unread cfg c t = unread cfg c s := congrFun hf.evRing _
  have hrun : Running (t.chan c) ↔ Running (s.chan c) := by
    unfold Running
    rw [hf.phase]
  refine ⟨?_, fun hr e he ↦ ?_, fun hr ↦ ?_⟩
  · rw [hunread]
    exact h.rsc
  · rw [hunread] at he
    exact (h.fresh (hrun.mp hr) e he).frame hf
  · rw [hunread]
    exact h.distinct (hrun.mp hr)

/-- The cookie of an event leads to its element. -/
theorem RscFresh.elementAt_eq {e : Event} {ch : MhiChan} (h : RscFresh (cfg c) ch e)
    (hr : RscRings (cfg c) ch) :
    ch.elementAt e.tre.evCookie = some (e.seq % (cfg c).elements) := by
  have hslot := Nat.mod_lt e.seq (cfg c).elements_pos
  unfold MhiChan.elementAt
  rw [h.cookie, Nat.mul_mod_right, Nat.mul_div_cancel_left _ bufInfoSize_pos, hr.bufElements,
    if_pos ⟨rfl, hslot⟩]

theorem RscRunInv.report (h : RscRunInv cfg c st) {seq code len : ℕ}
    (hrun : Running (st.cntrl.chan c)) (hholds : Holds (cfg c) (st.cntrl.chan c) seq)
    (hnew : ∀ e ∈ unread cfg c st.cntrl, e.epoch = (st.cntrl.chan c).epoch → e.seq ≠ seq) :
    RscRunInv cfg c (RscStep.next cfg c st (.report seq code len)) := by
  have hunread : unread cfg c (RscStep.next cfg c st (.report seq code len)).cntrl =
      unread cfg c st.cntrl ++ [rscEvent (cfg c) c (st.cntrl.chan c) seq code len] :=
    Function.update_self _ _ _
  have hr := h.chan.rings (fun hst ↦ by rcases hrun with hp | hp <;> simp [hst] at hp)
  have hc : c.val < 128 := c.isLt
  refine ⟨h.chan, h.passed, fun e he ↦ ?_, fun _ e he ↦ ?_, fun _ ↦ ?_⟩
  · rw [hunread, List.mem_append, List.mem_singleton] at he
    rcases he with he | rfl
    · exact h.events.rsc e he
    · unfold isRsc rscEvent MhiTre.evType MhiTre.evChid MhiTre.evDword1 rscTxEvent
      simp only [decide_eq_true_eq]
      omega
  · rw [hunread, List.mem_append, List.mem_singleton] at he
    rcases he with he | rfl
    · exact h.events.fresh hrun e he
    · refine ⟨rfl, ?_, hholds⟩
      have hslot := Nat.mod_lt seq (cfg c).elements_pos
      have hlt := Nat.mul_lt_mul_of_pos_left hslot bufInfoSize_pos
      unfold rscEvent MhiTre.evCookie
      dsimp only
      exact Nat.mod_eq_of_lt (Nat.lt_of_lt_of_le hlt hr.cookie)
  · rw [hunread, List.pairwise_append]
    refine ⟨h.events.distinct hrun, List.pairwise_singleton _ _, fun e he e' he' ↦ ?_⟩
    rw [List.mem_singleton.mp he']
    exact hnew e he (h.events.fresh hrun e he).epoch

/-- Dropping the oldest unread event. -/
theorem RscEvents.pop (h : RscEvents cfg c s) : RscEvents cfg c (popped cfg c s) := by
  have hunread : unread cfg c (popped cfg c s) = (unread cfg c s).tail :=
    Function.update_self _ _ _
  refine ⟨fun e he ↦ ?_, fun hrun e he ↦ ?_, fun hrun ↦ ?_⟩
  · rw [hunread] at he
    exact h.rsc e (List.mem_of_mem_tail he)
  · rw [hunread] at he
    exact h.fresh hrun e (List.mem_of_mem_tail he)
  · rw [hunread]
    exact (h.distinct hrun).tail

/-- The element of another buffer in flight is another element. -/
theorem Holds.slot_ne {cf : ChanCfg} {ch : MhiChan} {a b : ℕ} (ha : Holds cf ch a)
    (hb : Holds cf ch b) (hne : a ≠ b) : b % cf.elements ≠ a % cf.elements := fun heq ↦ by
  have hnum := hb.2
  rw [heq, ha.2] at hnum
  exact hne hnum

/-- The element of an event that has been processed is freed. -/
theorem RscEvents.done (h : RscEvents cfg c t) {seq : ℕ} (hrun : Running (t.chan c))
    (hholds : Holds (cfg c) (t.chan c) seq) (hother : ∀ e ∈ unread cfg c t, seq ≠ e.seq) :
    RscEvents cfg c (t.upd c fun ch ↦ ch.rscDone (seq % (cfg c).elements)) := by
  have hchan : (t.upd c fun ch ↦ ch.rscDone (seq % (cfg c).elements)).chan c =
      (t.chan c).rscDone (seq % (cfg c).elements) := t.upd_self c _
  refine ⟨h.rsc, fun _ e he ↦ ?_, fun _ ↦ h.distinct hrun⟩
  have hfresh := h.fresh hrun e he
  have hslot := hholds.slot_ne hfresh.holds (hother e he)
  rw [hchan]
  refine ⟨hfresh.epoch, hfresh.cookie, ?_⟩
  have hsame : ((t.chan c).rscDone (seq % (cfg c).elements)).bufInfo (e.seq % (cfg c).elements) =
      (t.chan c).bufInfo (e.seq % (cfg c).elements) := Function.update_of_ne hslot _ _
  unfold Holds
  rw [hsame]
  exact hfresh.holds

theorem RscRunInv.fetch (hrsc : (cfg c).xferType = .rscDma) (h : RscRunInv cfg c st)
    {calls : List (ℕ × ℕ)} (hgood : RscGood cfg c st (.fetch calls)) :
    RscRunInv cfg c (RscStep.next cfg c st (.fetch calls)) := by
  cases hring : unread cfg c st.cntrl with
  | nil =>
    simp only [RscStep.next, hring]
    exact h
  | cons e es =>
    have hpop := h.events.pop
    simp only [RscStep.next, hring]
    by_cases hphase : (st.cntrl.chan c).phase = .enabled
    · have hinv₀ : RscInv (cfg c) 0 ((popped cfg c st.cntrl).chan c) := h.chan
      have hph : ((popped cfg c st.cntrl).chan c).phase = .enabled := hphase
      have hfresh := h.events.fresh (.inl hphase) e (by rw [hring]; exact List.mem_cons_self)
      have hslot := Nat.mod_lt e.seq (cfg c).elements_pos
      have hat : ((popped cfg c st.cntrl).chan c).elementAt e.tre.evCookie = _ :=
        hfresh.elementAt_eq (h.chan.rings (by simp [hphase]))
      obtain ⟨t, hcb, hinv, hused, hframe⟩ := hinv₀.callback hrsc (by simp [hph]) hslot
        hfresh.holds.1 e.tre.evStatus e.tre.evLen (hgood e (by rw [hring]; rfl) _ hat hphase)
      have hparse : parseRscEvent cfg (popped cfg c st.cntrl) c e.tre (dmaCalls c calls) =
          t.upd c fun ch ↦ ch.rscDone (e.seq % (cfg c).elements) := by
        unfold parseRscEvent
        rw [hat]
        dsimp only
        rw [if_pos hph, hcb]
      have hph' : (t.chan c).phase = .enabled := hframe.phase.trans hph
      have hfresh₀ : RscFresh (cfg c) ((popped cfg c st.cntrl).chan c) e := hfresh
      have hholds := (hfresh₀.frame hframe).holds
      have hother : ∀ e' ∈ unread cfg c t, e.seq ≠ e'.seq := by
        have hunread : unread cfg c t = es :=
          (congrFun hframe.evRing _).trans ((Function.update_self _ _ _).trans (by rw [hring]; rfl))
        have hdist := h.events.distinct (.inl hphase)
        rw [hring] at hdist
        rw [hunread]
        exact (List.pairwise_cons.mp hdist).1
      rw [hparse]
      refine ⟨?_, fun hdrain ↦ ?_, (hpop.frame hframe).done (.inl hph') hholds hother⟩
      · rw [MhiCntrl.upd_self]
        exact hinv.complete hph' hslot hused
      · rw [MhiCntrl.upd_self] at hdrain
        exact nomatch hph'.symm.trans hdrain
    · have hsame : parseRscEvent cfg (popped cfg c st.cntrl) c e.tre (dmaCalls c calls) =
          popped cfg c st.cntrl := by
        unfold parseRscEvent
        split
        · rfl
        · exact if_neg hphase
      rw [hsame]
      exact ⟨h.chan, h.passed, hpop⟩

theorem RscRunInv.queue (hrsc : (cfg c).xferType = .rscDma) (h : RscRunInv cfg c st)
    (hphase : (st.cntrl.chan c).phase ≠ .stopped) (hgood : QueueGood cfg c st.pos st.cntrl)
    (buf len : ℕ) : RscRunInv cfg c (RscStep.next cfg c st (.queue buf len)) := by
  obtain ⟨hinv, hframe⟩ := h.chan.call hrsc hphase hgood buf len
  refine ⟨hinv, fun hdrain i hi ↦ ?_, h.events.frame hframe⟩
  have hdrain' : (st.cntrl.chan c).phase = .draining := hframe.phase.symm.trans hdrain
  exact hframe.passed hdrain' i hi (h.passed hdrain' i hi)

/-- A change of the phase that leads no further than to the reset. -/
theorem RscInv.control {cf : ChanCfg} {ch : MhiChan} (h : RscInv cf x ch) {ph : Phase}
    (hrun : Running ch) (hlive : ph ≠ .stopped) : RscInv cf x { ch with phase := ph } := by
  have hph : ch.phase ≠ .stopped := fun hst ↦ by rcases hrun with hp | hp <;> simp [hst] at hp
  have hr := h.rings hph
  exact ⟨fun _ ↦ ⟨hr.tre, hr.treElements, hr.bufElements, hr.bufElSize, hr.bufWp, hr.cookie⟩,
    fun hst ↦ absurd hst hlive, h.num, fun _ ↦ h.count hrun, h.history⟩

theorem RscRunInv.disable (h : RscRunInv cfg c st) (hphase : (st.cntrl.chan c).phase = .enabled) :
    RscRunInv cfg c (RscStep.next cfg c st .disable) := by
  have hchan : (st.cntrl.upd c fun ch ↦ { ch with phase := .disabled }).chan c =
      { st.cntrl.chan c with phase := .disabled } := st.cntrl.upd_self c _
  have hrun : Running (st.cntrl.chan c) := .inl hphase
  refine ⟨?_, fun hdrain ↦ ?_, h.events.rsc, fun _ e he ↦ ?_, fun _ ↦ h.events.distinct hrun⟩
  · rw [RscStep.next, hchan]
    exact h.chan.control hrun nofun
  · rw [RscStep.next, hchan] at hdrain
    exact nomatch hdrain
  · obtain ⟨h₁, h₂, h₃⟩ := h.events.fresh hrun e he
    rw [RscStep.next, hchan]
    exact ⟨h₁, h₂, h₃⟩

/-- `mhi_mark_stale_events` does not mark RSC events. -/
theorem markStale_rsc {e : Event} (he : isRsc c e = true) : markStale c e = e := by
  unfold isRsc at he
  simp only [decide_eq_true_eq] at he
  refine if_neg fun hmark ↦ ?_
  exact absurd (he.1.symm.trans hmark.1) (by decide)

theorem RscRunInv.mark (h : RscRunInv cfg c st) (hphase : (st.cntrl.chan c).phase = .disabled) :
    RscRunInv cfg c (RscStep.next cfg c st .mark) := by
  have hchan : ((mhiMarkStaleEvents st.cntrl (cfg c).erIndex c).upd c fun ch ↦
      { ch with phase := .draining }).chan c = { st.cntrl.chan c with phase := .draining } :=
    MhiCntrl.upd_self _ c _
  have hunread : unread cfg c (RscStep.next cfg c st .mark).cntrl = unread cfg c st.cntrl := by
    have hmap : (unread cfg c st.cntrl).map (markStale c) = unread cfg c st.cntrl := by
      conv_rhs => rw [← List.map_id (unread cfg c st.cntrl)]
      exact List.map_congr_left fun e he ↦ markStale_rsc (h.events.rsc e he)
    exact (Function.update_self _ _ _).trans hmap
  have hnot : ¬ Running ((RscStep.next cfg c st .mark).cntrl.chan c) := by
    rw [RscStep.next, hchan]
    rintro (hp | hp) <;> exact nomatch hp
  refine ⟨?_, fun _ i hi ↦ absurd hi (Nat.not_lt_zero i), ?_, fun hrun ↦ absurd hrun hnot,
    fun hrun ↦ absurd hrun hnot⟩
  · rw [RscStep.next, hchan]
    exact h.chan.control (.inr hphase) nofun
  · rw [hunread]
    exact h.events.rsc

theorem RscRunInv.pass (hrsc : (cfg c).xferType = .rscDma) (h : RscRunInv cfg c st)
    (hphase : (st.cntrl.chan c).phase = .draining) (hpos : st.pos < (cfg c).elements)
    {calls : List (ℕ × ℕ)} (hgood : RscGood cfg c st (.pass calls)) :
    RscRunInv cfg c (RscStep.next cfg c st (.pass calls)) := by
  have hpassed := h.passed hphase
  cases hused : ((st.cntrl.chan c).bufInfo st.pos).used with
  | false =>
    have hsame : resetRscElement cfg st.cntrl c st.pos (dmaCalls c calls) = st.cntrl := by
      unfold resetRscElement
      simp [hused]
    rw [RscStep.next, hsame]
    refine ⟨h.chan, fun _ i hi ↦ ?_, h.events⟩
    rcases Nat.lt_succ_iff_lt_or_eq.mp hi with hi | rfl
    · exact hpassed i hi
    · exact hused
  | true =>
    obtain ⟨t, hcb, hinv, hused', hframe⟩ := h.chan.callback hrsc (by simp [hphase]) hpos hused
      .enotconn 0 (hgood hused)
    have hreset : resetRscElement cfg st.cntrl c st.pos (dmaCalls c calls) =
        t.upd c fun ch ↦ ch.free st.pos := by
      unfold resetRscElement
      dsimp only
      rw [if_pos hused, hcb]
    have hph' : (t.chan c).phase = .draining := hframe.phase.trans hphase
    have hchan : (t.upd c fun ch ↦ ch.free st.pos).chan c = (t.chan c).free st.pos :=
      t.upd_self c _
    have hnot : ¬ Running ((t.chan c).free st.pos) := by
      rintro (hp | hp) <;> exact nomatch hph'.symm.trans hp
    rw [RscStep.next, hreset]
    refine ⟨?_, fun _ i hi ↦ ?_, (h.events.frame hframe).rsc, fun hrun ↦ ?_, fun hrun ↦ ?_⟩
    · rw [hchan]
      exact hinv.released hph' hpos hused'
    · rw [hchan]
      rcases Nat.lt_succ_iff_lt_or_eq.mp hi with hlt | rfl
      · have hsame : ((t.chan c).free st.pos).bufInfo i = (t.chan c).bufInfo i :=
          Function.update_of_ne hlt.ne _ _
        rw [hsame]
        exact hframe.passed hphase i hlt (hpassed i hlt)
      · unfold MhiChan.free
        simp
    · rw [hchan] at hrun
      exact absurd hrun hnot
    · rw [hchan] at hrun
      exact absurd hrun hnot

theorem RscRunInv.deinit (h : RscRunInv cfg c st) (hphase : (st.cntrl.chan c).phase = .draining)
    (hpos : (cfg c).elements ≤ st.pos) : RscRunInv cfg c (RscStep.next cfg c st .deinit) := by
  have hchan : (st.cntrl.upd c mhiDeinitChanCtxt).chan c = mhiDeinitChanCtxt (st.cntrl.chan c) :=
    st.cntrl.upd_self c _
  have hnot : ¬ Running (mhiDeinitChanCtxt (st.cntrl.chan c)) := by
    rintro (hp | hp) <;> exact nomatch hp
  refine ⟨?_, fun hdrain ↦ ?_, h.events.rsc, fun hrun ↦ ?_, fun hrun ↦ ?_⟩ <;>
    rw [RscStep.next, hchan] at *
  · exact ⟨fun hph ↦ absurd rfl hph, fun _ i hi ↦ h.passed hphase i (Nat.lt_of_lt_of_le hi hpos),
      h.chan.num, fun hrun ↦ absurd hrun hnot, h.chan.history⟩
  · exact nomatch hdrain
  · exact absurd hrun hnot
  · exact absurd hrun hnot

theorem RscRunInv.start (h : RscRunInv cfg c st) (hphase : (st.cntrl.chan c).phase = .stopped)
    (hcookie : bufInfoSize * (cfg c).elements ≤ 2 ^ 32)
    (hread : ∀ e ∈ unread cfg c st.cntrl, isRsc c e = false) (bufBase : ℕ) :
    RscRunInv cfg c (RscStep.next cfg c st (.start bufBase)) := by
  have hnil : unread cfg c st.cntrl = [] := by
    rw [List.eq_nil_iff_forall_not_mem]
    intro e he
    have hrsc := h.events.rsc e he
    rw [hread e he] at hrsc
    exact Bool.false_ne_true hrsc
  have huse : inUse (cfg c) (st.cntrl.chan c) = 0 :=
    Finset.sum_eq_zero fun i hi ↦ by
      simp [inUseOf, h.chan.stopped hphase i (Finset.mem_range.mp hi)]
  have huse' : inUse (cfg c) (startChan (cfg c) (st.cntrl.chan c) bufBase) = 0 :=
    Finset.sum_eq_zero fun i _ ↦ rfl
  have hchan : (st.cntrl.upd c fun ch ↦ startChan (cfg c) ch bufBase).chan c =
      startChan (cfg c) (st.cntrl.chan c) bufBase := st.cntrl.upd_self c _
  have hunread : unread cfg c (st.cntrl.upd c fun ch ↦ startChan (cfg c) ch bufBase) = [] :=
    hnil
  refine ⟨?_, fun hdrain ↦ ?_, ?_, fun _ ↦ ?_, fun _ ↦ ?_⟩ <;> rw [RscStep.next]
  · rw [hchan]
    have hr := rings_startChan (cfg c) (st.cntrl.chan c) bufBase
    refine ⟨fun _ ↦ ⟨hr.tre, rfl, rfl, rfl, by simp [startChan, mhiInitChanCtxt], hcookie⟩,
      fun hst ↦ absurd hst Phase.enabled_ne_stopped,
      fun _ _ hused ↦ absurd hused Bool.false_ne_true, fun _ ↦ ?_, ?_⟩
    · rw [huse']
      rfl
    · have hhist := h.chan.history
      rw [huse] at hhist
      rw [huse']
      exact hhist
  · rw [RscStep.next, hchan] at hdrain
    exact absurd hdrain Phase.enabled_ne_draining
  · rw [hunread]
    exact List.forall_mem_nil _
  · rw [hunread]
    exact List.forall_mem_nil _
  · rw [hunread]
    exact List.Pairwise.nil

/-- Every good step keeps the invariant. -/
theorem RscRunInv.step (hrsc : (cfg c).xferType = .rscDma) (h : RscRunInv cfg c st) (e : RscStep)
    (he : e.enabled cfg c st) (hgood : RscGood cfg c st e) : RscRunInv cfg c (e.next cfg c st) := by
  cases e with
  | pm p => exact ⟨h.chan, h.passed, h.events.rsc, h.events.fresh, h.events.distinct⟩
  | queue buf len => exact h.queue hrsc he hgood buf len
  | report seq code len => exact h.report he.1 he.2.1 he.2.2.1
  | fetch calls => exact h.fetch hrsc hgood
  | disable => exact h.disable he
  | mark => exact h.mark he
  | pass calls => exact h.pass hrsc he.1 he.2 hgood
  | deinit => exact h.deinit he.1 he.2
  | start bufBase => exact h.start he.1 he.2 hgood bufBase

theorem RscRunInv.of_reach (hrsc : (cfg c).xferType = .rscDma)
    (hs : (rscSystem cfg c).Reach (RscGood cfg c) st) : RscRunInv cfg c st := by
  refine hs.invariant ⟨?_, nofun, nofun, nofun, fun _ ↦ List.Pairwise.nil⟩
    fun _ e h he hg ↦ h.step hrsc e he hg
  have huse : inUse (cfg c) MhiChan.fresh = 0 := Finset.sum_eq_zero fun i _ ↦ rfl
  refine ⟨fun hph ↦ absurd rfl hph, fun _ _ _ ↦ rfl, nofun, fun hrun ↦ ?_, ?_⟩
  · rcases hrun with hp | hp <;> exact nomatch hp
  · show (0 : Multiset ℕ) + 0 = 0 + inUse (cfg c) MhiChan.fresh
    rw [huse]

/-- In every state of every run whose steps are good: a buffer that `mhi_queue_dma` accepts goes
into an element that is not in use exactly when all buffers in flight are among the last `elements`
ones, as `QueueGood` says; no accepted buffer is lost and none is handed over twice (once the
channel is stopped all have been handed over), and an unread event of a channel that is running was
written since the last start, for the buffer its cookie designates. -/
theorem rscChan_conserves (hrsc : (cfg c).xferType = .rscDma)
    (hs : (rscSystem cfg c).Reach (RscGood cfg c) st) :
    ((st.cntrl.chan c).phase ≠ .stopped →
      ((((st.cntrl.chan c).bufInfo ((st.cntrl.chan c).bufRing.index
          (st.cntrl.chan c).bufRing.wp)).used = false) ↔
        ∀ i < (cfg c).elements, ((st.cntrl.chan c).bufInfo i).used = true →
          (st.cntrl.chan c).tail < ((st.cntrl.chan c).bufInfo i).num + (cfg c).elements)) ∧
      ((st.cntrl.chan c).accepted : Multiset ℕ) =
        ↑((st.cntrl.chan c).handed.map Handed.buf) + inUse (cfg c) (st.cntrl.chan c) ∧
      ((st.cntrl.chan c).phase = .stopped → inUse (cfg c) (st.cntrl.chan c) = 0) ∧
      (Running (st.cntrl.chan c) → ∀ e ∈ unread cfg c st.cntrl,
        e.epoch = (st.cntrl.chan c).epoch ∧
        ∃ i ∈ (st.cntrl.chan c).elementAt e.tre.evCookie,
          ((st.cntrl.chan c).bufInfo i).used = true ∧
          ((st.cntrl.chan c).bufInfo i).num = e.seq) := by
  have h := RscRunInv.of_reach hrsc hs
  refine ⟨fun hph ↦ ?_, ?_, fun hst ↦ ?_, fun hrun e he ↦ ?_⟩
  · rw [(h.chan.rings hph).index_wp]
    exact h.chan.unused_iff
  · have hhist := h.chan.history
    rwa [add_zero] at hhist
  · exact Finset.sum_eq_zero fun i hi ↦ by
      simp [inUseOf, h.chan.stopped hst i (Finset.mem_range.mp hi)]
  · have hfresh := h.events.fresh hrun e he
    have hph : (st.cntrl.chan c).phase ≠ .stopped := fun hst ↦ by
      rcases hrun with hp | hp <;> simp [hst] at hp
    exact ⟨hfresh.epoch, _, hfresh.elementAt_eq (h.chan.rings hph), hfresh.holds⟩

end Steps

theorem rscCfg_tre_lt : 4096 + treSize * 3 < 2 ^ 64 := by decide

theorem rscCfg_iommu_lt : 8192 + treSize * 3 < 2 ^ 64 := by decide

/-- Downlink RSC channels with room for two descriptors. -/
def rscCfg : Fin maxChan → ChanCfg := fun _ ↦
  { elements := 3
    dir := .fromDevice
    xferType := .rscDma
    preAlloc := false
    erIndex := 0
    treBase := 4096
    treIommuBase := 8192
    two_le := by decide
    preAlloc_dir := nofun
    tre_lt := rscCfg_tre_lt
    iommu_lt := rscCfg_iommu_lt }

/-- The second channel. -/
def chan1 : Fin maxChan := ⟨1, by decide⟩

/-- The state of a channel before it is started. -/
def rscFresh : RscState := ⟨MhiCntrl.fresh, 0⟩

/-- Two buffers are completed in reverse order, and a third is queued in between. -/
def reverseRun : List RscStep :=
  [.start 65536, .queue 10 100, .queue 11 100, .report 1 ccEot 50, .fetch [], .queue 12 100,
    .report 0 ccEot 50, .fetch []]

theorem reverseRun_conserves :
    (rscSystem rscCfg chan1).Along (RscGood rscCfg chan1) rscFresh reverseRun ∧
      ((((rscSystem rscCfg chan1).exec rscFresh reverseRun).cntrl.chan chan1).accepted :
          Multiset ℕ) =
        ↑((((rscSystem rscCfg chan1).exec rscFresh reverseRun).cntrl.chan chan1).handed.map
          Handed.buf) + inUse (rscCfg chan1)
            (((rscSystem rscCfg chan1).exec rscFresh reverseRun).cntrl.chan chan1) := by
  have hrun : (rscSystem rscCfg chan1).Along (RscGood rscCfg chan1) rscFresh reverseRun := by
    decide
  exact ⟨hrun, (rscChan_conserves rfl (.exec .init hrun)).2.1⟩

/-- The first buffer stays in flight while the two after it are completed. -/
def overtakenRun : List RscStep :=
  [.start 65536, .queue 10 100, .queue 11 100, .report 1 ccEot 50, .fetch [], .queue 12 100,
    .report 2 ccEot 50, .fetch []]

/-- The channel is reset with an event unread, started again, and another buffer is
queued. -/
def staleRun : List RscStep :=
  [.start 65536, .queue 10 100, .report 0 ccEot 50, .disable, .mark, .pass [], .pass [], .pass [],
    .deinit, .start 65536, .queue 11 100]

/-- The buffer was accepted, and is neither handed over nor in flight. -/
def Lost (cfg : ChanCfg) (ch : MhiChan) (buf : ℕ) : Prop :=
  buf ∈ ch.accepted ∧ buf ∉ ch.handed.map Handed.buf ∧
    ∀ i < cfg.elements, (ch.bufInfo i).used = true → (ch.bufInfo i).cbBuf ≠ buf

/-- After `overtakenRun` the transfer ring has room, although the element of the next
buffer is still in use: buffer 10 is overwritten by buffer 13, and is neither handed
over nor in flight any more. After `staleRun` the event of buffer 10 completes
buffer 11. -/
theorem rsc_buffer_lost :
    (rscSystem rscCfg chan1).Along (fun _ _ ↦ True) rscFresh overtakenRun ∧
      (mhiQueueDma rscCfg ((rscSystem rscCfg chan1).exec rscFresh overtakenRun).cntrl chan1
        13 100).1 = .ok ∧
      ((((rscSystem rscCfg chan1).exec rscFresh overtakenRun).cntrl.chan chan1).bufInfo
        ((((rscSystem rscCfg chan1).exec rscFresh overtakenRun).cntrl.chan chan1).bufRing.index
          (((rscSystem rscCfg chan1).exec rscFresh overtakenRun).cntrl.chan
            chan1).bufRing.wp)).used = true ∧
      Lost (rscCfg chan1) (((rscSystem rscCfg chan1).exec rscFresh
        (overtakenRun ++ [.queue 13 100])).cntrl.chan chan1) 10 ∧
      (rscSystem rscCfg chan1).Along (fun _ _ ↦ True) rscFresh (staleRun ++ [.fetch []]) ∧
      (((rscSystem rscCfg chan1).exec rscFresh (staleRun ++ [.fetch []])).cntrl.chan
        chan1).handed =
          [.xferCb ⟨10, .enotconn, 0⟩, .xferCb ⟨11, .ok, 50⟩] := by
  unfold Lost
  decide

end Wwan.Mhi
