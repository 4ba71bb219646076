import Wwan.Lib.Transition
import Wwan.Mhi.QueueInv

/-!
# Runs of the MHI data channels

The channels of a controller as a transition system: clients queue buffers, the
device reports descriptors in the event rings, the event rings are processed one
element at a time, and channels are stopped and started again. A pass of the loop
of `parse_xfer_event`, and of that of `mhi_reset_data_chan`, is one step, so that
anything else may happen in between.

The device is assumed to report a descriptor in flight only, each one once and in
ring order; one event may cover several. A client queues only on a channel that has
been started (its callback may queue while the channel is being reset).

`EventInv` connects the unread events of a channel with its rings: an event that is
not marked stale was written since the last start, and its descriptor is in flight.
-/

namespace Wwan.Mhi

open Wwan

/-! ## Steps -/

/-- The element that reports descriptor number `seq` of channel `c`. -/
def completionEvent (cfg : ChanCfg) (c : Fin maxChan) (ch : MhiChan) (seq code len : ℕ) : Event :=
  { tre :=
      { ptr := cfg.treIommuBase + treSize * (seq % cfg.elements)
        dword0 := code * 2 ^ 24 + len
        dword1 := MhiTre.evDword1 c txEvent }
    epoch := ch.epoch
    seq := seq }

/-- `mhi_mark_stale_events`, for one element. -/
def markStale (chan : ℕ) (e : Event) : Event :=
  if e.tre.evType = txEvent ∧ chan = e.tre.evChid then
    { e with tre := { e.tre with dword1 := MhiTre.evDword1 chan staleEvent } }
  else e

/-- `mhi_mark_stale_events`. -/
def mhiMarkStaleEvents (s : MhiCntrl) (er chan : ℕ) : MhiCntrl :=
  { s with evRing := Function.update s.evRing er ((s.evRing er).map (markStale chan)) }

/-- `parse_xfer_event` up to its loop: the locals of the loop, if it comes to it.
`OOB` and `DB_MODE` events only change the doorbell mode, the other codes are only
logged. -/
def xferParsing (ch : MhiChan) (e : MhiTre) (target : ℕ) : Option Parsing :=
  if ch.phase = .enabled ∧ isCompletion e.evCode = true then
    some
      { devRp := devRpOf ch.treRing e.ptr
        status := e.evStatus
        xferLen := e.evLen
        target := target }
  else none

/-- `parse_xfer_event` up to its loop. -/
def parseXferEvent (s : MhiCntrl) (c : Fin maxChan) (e : Event) : MhiCntrl :=
  match xferParsing (s.chan c) e.tre (e.seq + 1) with
  | none => s
  | some p => s.upd c fun ch ↦ { ch with parsing := some p }

/-- What is done with the element at the read pointer of an event ring. -/
def processEvent (s : MhiCntrl) (e : Event) : MhiCntrl :=
  if e.tre.evType = txEvent then
    if h : e.tre.evChid < maxChan then parseXferEvent s ⟨e.tre.evChid, h⟩ e else s
  else s

/-- `mhi_init_chan_ctxt`; `bufBase` is the array `kzalloc` gives. -/
def mhiInitChanCtxt (cfg : ChanCfg) (ch : MhiChan) (bufBase : ℕ) : MhiChan :=
  { ch with
    treRing := ⟨cfg.treBase, cfg.treIommuBase, treSize, cfg.elements, cfg.treBase, cfg.treBase⟩
    bufRing := ⟨bufBase, 0, bufInfoSize, cfg.elements, bufBase, bufBase⟩
    bufInfo := fun _ ↦ BufInfo.zero
    epoch := ch.epoch + 1
    head := 0
    tail := 0
    reported := 0 }

/-- The channel when `__mhi_prepare_channel` has set `ch_state`. -/
def startChan (cfg : ChanCfg) (ch : MhiChan) (bufBase : ℕ) : MhiChan :=
  { mhiInitChanCtxt cfg ch bufBase with phase := .enabled }

/-- The rings are set up empty. -/
theorem rings_startChan (cfg : ChanCfg) (ch : MhiChan) (bufBase : ℕ) :
    Rings cfg (startChan cfg ch bufBase) :=
  { tre := .zero treSize_pos cfg.elements_pos rfl rfl
    buf := .zero bufInfoSize_pos cfg.elements_pos rfl rfl
    treElements := rfl
    bufElements := rfl
    treElSize := rfl
    treBase := rfl
    treIommuBase := rfl }

/-- `mhi_deinit_chan_ctxt`: the array of `buf_ring` is freed and both bases are NULL,
the other pointers stay. -/
def mhiDeinitChanCtxt (ch : MhiChan) : MhiChan :=
  { ch with
    treRing := { ch.treRing with base := 0 }
    bufRing := { ch.bufRing with base := 0 }
    phase := .stopped }

/-- The steps of a run. -/
inductive MhiStep
  | /-- A client calls a queue function. -/
    call (q : QueueCall)
  | /-- The PM state changes. -/
    pm (p : PmState)
  | /-- The device reports the descriptors of `c` up to number `seq`. -/
    report (c : Fin maxChan) (seq code len : ℕ)
  | /-- The device writes an element that is no transfer event. -/
    other (er : ℕ) (tre : MhiTre)
  | /-- The element at the read pointer of event ring `er` is processed. -/
    fetch (er : ℕ)
  | /-- A pass of the loop of `parse_xfer_event`. -/
    retire (c : Fin maxChan) (calls : List QueueCall) (mapFails : Bool)
  | /-- `parse_xfer_event` leaves its loop. -/
    parsed (c : Fin maxChan)
  | /-- `__mhi_unprepare_channel` disables the channel. -/
    disable (c : Fin maxChan)
  | /-- `mhi_reset_chan` marks the events of the channel. -/
    mark (c : Fin maxChan)
  | /-- A pass of the loop of `mhi_reset_data_chan`. -/
    drain (c : Fin maxChan) (calls : List QueueCall)
  | /-- The loop is over, `mhi_deinit_chan_ctxt`. -/
    deinit (c : Fin maxChan)
  | /-- `__mhi_prepare_channel`, with the buffers it allocates itself. -/
    start (c : Fin maxChan) (bufBase : ℕ) (bufs : List ℕ) (len : ℕ)

section System

variable (cfg : Fin maxChan → ChanCfg)

/-- The calls are made on channels that have been started. -/
def CallsOk (s : MhiCntrl) (calls : List QueueCall) : Prop :=
  ∀ q ∈ calls, (s.chan q.chan).phase ≠ .stopped

instance (s : MhiCntrl) (calls : List QueueCall) : Decidable (CallsOk s calls) :=
  inferInstanceAs (Decidable (∀ q ∈ calls, (s.chan q.chan).phase ≠ .stopped))

/-- The loop of `parse_xfer_event` is at its head with `local_rp != dev_rp` (`go`) or
with `local_rp == dev_rp`. -/
def AtLoop (ch : MhiChan) (go : Bool) : Prop :=
  ∃ p ∈ ch.parsing, decide (ch.treRing.rp ≠ p.devRp) = go

instance (ch : MhiChan) (go : Bool) : Decidable (AtLoop ch go) :=
  match h : ch.parsing with
  | none => .isFalse (by simp [AtLoop, h])
  | some p => decidable_of_iff (decide (ch.treRing.rp ≠ p.devRp) = go) (by simp [AtLoop, h])

/-- Which steps can come next. -/
def MhiStep.enabled (s : MhiCntrl) : MhiStep → Prop
  | call q => (s.chan q.chan).phase ≠ .stopped
  | pm _ => True
  | report c seq code len =>
    ((s.chan c).phase = .enabled ∨ (s.chan c).phase = .disabled) ∧
      (s.chan c).reported ≤ seq ∧ seq < (s.chan c).tail ∧ isCompletion code = true ∧ len < 2 ^ 16
  | other _ tre => tre.evType ≠ txEvent ∧ tre.evType ≠ rscTxEvent
  | fetch er => s.evRing er ≠ [] ∧ ∀ c, (cfg c).erIndex = er → (s.chan c).parsing = none
  | retire c calls _ => AtLoop (s.chan c) true ∧ CallsOk s calls
  | parsed c => AtLoop (s.chan c) false
  -- `ch_state` is changed under the lock `parse_xfer_event` holds
  | disable c => (s.chan c).phase = .enabled ∧ (s.chan c).parsing = none
  | mark c => (s.chan c).phase = .disabled
  | drain c calls =>
    (s.chan c).phase = .draining ∧ (s.chan c).treRing.rp ≠ (s.chan c).treRing.wp ∧ CallsOk s calls
  | deinit c => (s.chan c).phase = .draining ∧ (s.chan c).treRing.rp = (s.chan c).treRing.wp
  | start c _ bufs _ =>
    (s.chan c).phase = .stopped ∧ bufs.length < (cfg c).elements ∧
      ((cfg c).preAlloc = false → bufs = [])

instance (s : MhiCntrl) : DecidablePred (MhiStep.enabled cfg s)
  | .call q => inferInstanceAs (Decidable ((s.chan q.chan).phase ≠ .stopped))
  | .pm _ => inferInstanceAs (Decidable True)
  | .report c seq code len => inferInstanceAs (Decidable
      (((s.chan c).phase = .enabled ∨ (s.chan c).phase = .disabled) ∧
        (s.chan c).reported ≤ seq ∧ seq < (s.chan c).tail ∧ isCompletion code = true ∧
        len < 2 ^ 16))
  | .other _ tre => inferInstanceAs (Decidable (tre.evType ≠ txEvent ∧ tre.evType ≠ rscTxEvent))
  | .fetch er => inferInstanceAs (Decidable
      (s.evRing er ≠ [] ∧ ∀ c, (cfg c).erIndex = er → (s.chan c).parsing = none))
  | .retire c calls _ => inferInstanceAs (Decidable (AtLoop (s.chan c) true ∧ CallsOk s calls))
  | .parsed c => inferInstanceAs (Decidable (AtLoop (s.chan c) false))
  | .disable c => inferInstanceAs (Decidable
      ((s.chan c).phase = .enabled ∧ (s.chan c).parsing = none))
  | .mark c => inferInstanceAs (Decidable ((s.chan c).phase = .disabled))
  | .drain c calls => inferInstanceAs (Decidable ((s.chan c).phase = .draining ∧
      (s.chan c).treRing.rp ≠ (s.chan c).treRing.wp ∧ CallsOk s calls))
  | .deinit c => inferInstanceAs (Decidable ((s.chan c).phase = .draining ∧
      (s.chan c).treRing.rp = (s.chan c).treRing.wp))
  | .start c _ bufs _ => inferInstanceAs (Decidable ((s.chan c).phase = .stopped ∧
      bufs.length < (cfg c).elements ∧ ((cfg c).preAlloc = false → bufs = [])))

/-- The state after a step. -/
def MhiStep.next (s : MhiCntrl) : MhiStep → MhiCntrl
  | call q => (mhiQueue cfg s q).2
  | pm p => { s with pmState := p }
  | report c seq code len =>
    let er := (cfg c).erIndex
    let e := completionEvent (cfg c) c (s.chan c) seq code len
    { s.upd c fun ch ↦ { ch with reported := seq + 1 } with
      evRing := Function.update s.evRing er (s.evRing er ++ [e]) }
  | other er tre => { s with evRing := Function.update s.evRing er (s.evRing er ++ [⟨tre, 0, 0⟩]) }
  | fetch er =>
    match s.evRing er with
    | [] => s
    | e :: es => processEvent { s with evRing := Function.update s.evRing er es } e
  | retire c calls m =>
    match (s.chan c).parsing with
    | none => s
    | some p => xferTre cfg s c p.status p.xferLen calls m
  | parsed c => s.upd c fun ch ↦ { ch with parsing := none }
  | disable c => s.upd c fun ch ↦ { ch with phase := .disabled }
  | mark c =>
    (mhiMarkStaleEvents s (cfg c).erIndex c).upd c fun ch ↦ { ch with phase := .draining }
  | drain c calls => resetTre cfg s c calls
  | deinit c => s.upd c mhiDeinitChanCtxt
  | start c bufBase bufs len =>
    bufs.foldl (fun s b ↦ (mhiGenTre s c b len false).2)
      (s.upd c fun ch ↦ startChan (cfg c) ch bufBase)

/-- A channel that has never been started. -/
def MhiChan.fresh : MhiChan :=
  { treRing := ⟨0, 0, 0, 0, 0, 0⟩
    bufRing := ⟨0, 0, 0, 0, 0, 0⟩
    bufInfo := fun _ ↦ BufInfo.zero
    phase := .stopped
    parsing := none
    accepted := []
    handed := []
    epoch := 0
    head := 0
    tail := 0
    reported := 0 }

/-- The controller before any channel is started. -/
def MhiCntrl.fresh : MhiCntrl :=
  { chan := fun _ ↦ MhiChan.fresh
    evRing := fun _ ↦ []
    pmState := .m0
    pendingPkts := 0
    wake := 0
    runtime := 0 }

/-- The runs of the data channels. -/
def mhiSystem : System MhiCntrl MhiStep :=
  { init := MhiCntrl.fresh
    enabled := MhiStep.enabled cfg
    next := MhiStep.next cfg }

instance (s : MhiCntrl) (e : MhiStep) : Decidable ((mhiSystem cfg).enabled s e) :=
  inferInstanceAs (Decidable (MhiStep.enabled cfg s e))

end System

/-! ## Unread events -/

/-- The element is a transfer event of channel `c`. -/
def live (c : Fin maxChan) (e : Event) : Bool := e.tre.evType = txEvent ∧ e.tre.evChid = c.val

/-- The unread transfer events of `c` in event ring `er`. -/
def liveOf (s : MhiCntrl) (c : Fin maxChan) (er : ℕ) : List Event := (s.evRing er).filter (live c)

/-- The descriptors of a channel that an event has been processed for. -/
def MhiChan.done (ch : MhiChan) : ℕ :=
  match ch.parsing with
  | none => ch.head
  | some p => p.target

/-- The event reports a descriptor in flight that is not reported by an earlier one. -/
structure Fresh (cfg : ChanCfg) (ch : MhiChan) (e : Event) : Prop where
  done_le : ch.done ≤ e.seq
  lt : e.seq < ch.reported
  epoch : e.epoch = ch.epoch
  ptr : e.tre.ptr = cfg.treIommuBase + treSize * (e.seq % cfg.elements)
  code : isCompletion e.tre.evCode = true

/-- The locals of `parse_xfer_event` fit the rings. -/
structure ParsingInv (cfg : ChanCfg) (ch : MhiChan) (p : Parsing) : Prop where
  phase : ch.phase = .enabled
  devRp : p.devRp = cfg.treBase + treSize * (p.target % cfg.elements)
  head_le : ch.head ≤ p.target
  le : p.target ≤ ch.reported

/-- The unread events of channel `c` and its rings. -/
structure EventInv (cfg : Fin maxChan → ChanCfg) (s : MhiCntrl) (c : Fin maxChan) : Prop where
  elsewhere : ∀ er, er ≠ (cfg c).erIndex → liveOf s c er = []
  quiet : (s.chan c).phase = .stopped ∨ (s.chan c).phase = .draining →
    liveOf s c (cfg c).erIndex = []
  sorted : (liveOf s c (cfg c).erIndex).Pairwise fun e e' ↦ e.seq < e'.seq
  fresh : ∀ e ∈ liveOf s c (cfg c).erIndex, Fresh (cfg c) (s.chan c) e
  parsing : ∀ p ∈ (s.chan c).parsing, ParsingInv (cfg c) (s.chan c) p
  done_le : (s.chan c).phase = .enabled ∨ (s.chan c).phase = .disabled →
    (s.chan c).done ≤ (s.chan c).reported
  reported_le : (s.chan c).reported ≤ (s.chan c).tail

/-- What a step leaves of channel `c` and its unread events. -/
structure Kept (c : Fin maxChan) (s t : MhiCntrl) : Prop where
  live : ∀ er, (liveOf t c er).Sublist (liveOf s c er)
  phase : (t.chan c).phase = (s.chan c).phase
  parsing : (t.chan c).parsing = (s.chan c).parsing
  epoch : (t.chan c).epoch = (s.chan c).epoch
  head : (t.chan c).head = (s.chan c).head
  reported : (t.chan c).reported = (s.chan c).reported
  tail : (s.chan c).tail ≤ (t.chan c).tail

section EventSteps

variable {cfg : Fin maxChan → ChanCfg} {s t : MhiCntrl} {c : Fin maxChan}

theorem Kept.done (h : Kept c s t) : (t.chan c).done = (s.chan c).done := by
  unfold MhiChan.done
  rw [h.parsing, h.head]

/-- The events of a channel that is left alone. -/
theorem EventInv.kept (h : EventInv cfg s c) (hk : Kept c s t) : EventInv cfg t c where
  elsewhere er her := List.sublist_nil.mp (h.elsewhere er her ▸ hk.live er)
  quiet hq := by
    rw [hk.phase] at hq
    exact List.sublist_nil.mp (h.quiet hq ▸ hk.live _)
  sorted := h.sorted.sublist (hk.live _)
  fresh e he := by
    obtain ⟨h₁, h₂, h₃, h₄, h₅⟩ := h.fresh e ((hk.live _).subset he)
    exact ⟨hk.done ▸ h₁, hk.reported ▸ h₂, hk.epoch ▸ h₃, h₄, h₅⟩
  parsing p hp := by
    rw [hk.parsing] at hp
    obtain ⟨h₁, h₂, h₃, h₄⟩ := h.parsing p hp
    exact ⟨hk.phase ▸ h₁, h₂, hk.head ▸ h₃, hk.reported ▸ h₄⟩
  done_le hph := by
    rw [hk.phase] at hph
    rw [hk.done, hk.reported]
    exact h.done_le hph
  reported_le := by
    rw [hk.reported]
    exact h.reported_le.trans hk.tail

theorem Frame.kept (h : Frame cfg s t) (c : Fin maxChan) : Kept c s t :=
  { live := fun er ↦ by rw [liveOf, liveOf, h.evRing]
    phase := h.phase c
    parsing := h.parsing c
    epoch := h.epoch c
    head := h.head c
    reported := h.reported c
    tail := h.tail c }

/-- A step that changes neither the channel nor its part of the event rings. -/
theorem Kept.of_chan_eq (hchan : t.chan c = s.chan c)
    (hlive : ∀ er, (liveOf t c er).Sublist (liveOf s c er)) : Kept c s t := by
  refine ⟨hlive, ?_, ?_, ?_, ?_, ?_, ?_⟩ <;> rw [hchan]

/-- Dropping an element of an event ring. -/
theorem liveOf_pop {er : ℕ} {e : Event} {es : List Event} (hring : s.evRing er = e :: es)
    (c : Fin maxChan) (er' : ℕ) :
    (((Function.update s.evRing er es) er').filter (live c)).Sublist (liveOf s c er') := by
  unfold liveOf
  by_cases h : er' = er
  · subst h
    rw [Function.update_self, hring]
    exact (List.sublist_cons_self e es).filter _
  · rw [Function.update_of_ne h]

/-- Appending an element that is no transfer event of `c`. -/
theorem liveOf_push {er : ℕ} {e : Event} (he : live c e = false) (er' : ℕ) :
    ((Function.update s.evRing er (s.evRing er ++ [e])) er').filter (live c) = liveOf s c er' := by
  unfold liveOf
  by_cases h : er' = er
  · subst h
    rw [Function.update_self, List.filter_append, List.filter_singleton, he]
    simp
  · rw [Function.update_of_ne h]

end EventSteps

end Wwan.Mhi
