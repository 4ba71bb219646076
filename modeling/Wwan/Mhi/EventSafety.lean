import Wwan.Lib.Loop
import Wwan.Mhi.Completion

/-!
# Transfer events as the device may write them

An element of an event ring is 128 bits in memory the device writes. The core looks
at none of them before it uses them: the channel id indexes `mhi_chan`, the pointer
is where the loop of `parse_xfer_event` stops, the cookie is an offset into
`buf_ring`, and the length goes to the client.

`EventSafe` is what has to be true of the processing of an element in a state, for
every behaviour of the client in its callbacks, and `EventOk` is the condition on the
element and the rings under which it is. The runs are those of the data channels in
which the device writes what it likes (`eventSystem`).
-/

namespace Wwan.Mhi

open Wwan

/-! ## Processing an element -/

/-- The functions that process the event rings of the channels. -/
inductive ErKind
  | /-- `mhi_process_data_event_ring`. -/
    data
  | /-- `mhi_process_ctrl_ev_ring`. -/
    ctrl
  deriving DecidableEq

/-- Whether `mhi_chan` is indexed with the channel id of the element. -/
def ErKind.indexesChan (e : MhiTre) : ErKind → Bool
  | data => true
  | ctrl => e.evType = txEvent ∨ e.evType = rscTxEvent

/-- What the client does in a pass of the loop of `parse_xfer_event`. -/
structure Pass where
  /-- The calls from `xfer_cb`. -/
  calls : List QueueCall
  /-- Whether a pre-allocated buffer cannot be mapped again. -/
  mapFails : Bool

section Safety

variable (cfg : Fin maxChan → ChanCfg) (s : MhiCntrl) (c : Fin maxChan)

/-- The loop of `parse_xfer_event`, with the number of passes made. -/
def xferLoop (p : Parsing) (client : ℕ → Pass) : ℕ × MhiCntrl → MhiCntrl ⊕ (ℕ × MhiCntrl)
  | (k, s) =>
    if (s.chan c).treRing.rp = p.devRp then .inl s
    else .inr (k + 1, xferTre cfg s c p.status p.xferLen (client k).calls (client k).mapFails)

/-- A pass, if one is made, retires a descriptor in flight and reports no more bytes
than were queued. -/
def PassSafe (p : Parsing) : Prop :=
  (s.chan c).treRing.rp ≠ p.devRp →
    (s.chan c).treRing.rp ≠ (s.chan c).treRing.wp ∧ p.xferLen ≤ (oldest s c).len

/-- The loop terminates, and all its passes are safe. -/
def LoopSafe (p : Parsing) : Prop :=
  ∀ client : ℕ → Pass, (∀ k, CallsOk s (client k).calls) →
    Loop.Halts (xferLoop cfg c p client) (0, s) ∧
      ∀ u, Loop.Reaches (xferLoop cfg c p client) (0, s) u → PassSafe u.2 c p

/-- The cookie designates an element of `buf_ring` in use, and its buffer can hold what
is reported. -/
def RscSafe (ch : MhiChan) (e : MhiTre) : Prop :=
  ch.phase ≠ .stopped ∧ ∃ i ∈ ch.elementAt e.evCookie,
    (ch.bufInfo i).used = true ∧ e.evLen ≤ (ch.bufInfo i).len

/-- The element is processed safely. -/
structure EventSafe (kind : ErKind) (e : MhiTre) : Prop where
  index : kind.indexesChan e = true → e.evChid < maxChan
  xfer : ∀ c : Fin maxChan, e.evChid = c → e.evType = txEvent →
    ∀ p ∈ xferParsing (s.chan c) e 0, LoopSafe cfg s c p
  rsc : ∀ c : Fin maxChan, e.evChid = c → e.evType = rscTxEvent → RscSafe (s.chan c) e

/-- The event leads to the end of some descriptors in flight, the oldest ones, and
their buffers can hold what it reports. -/
def XferOk (ch : MhiChan) (e : MhiTre) : Prop :=
  ∃ n < ch.inFlight.length + 1,
    devRpOf ch.treRing e.ptr = ch.treRing.base +
      treSize * ((ch.treRing.index ch.treRing.rp + n) % ch.treRing.elements) ∧
    ∀ info ∈ ch.inFlight.take n, e.evLen ≤ info.len

instance (ch : MhiChan) (e : MhiTre) : Decidable (XferOk ch e) :=
  inferInstanceAs (Decidable (∃ n < ch.inFlight.length + 1,
    devRpOf ch.treRing e.ptr = ch.treRing.base +
      treSize * ((ch.treRing.index ch.treRing.rp + n) % ch.treRing.elements) ∧
    ∀ info ∈ ch.inFlight.take n, e.evLen ≤ info.len))

/-- What the core relies on and does not check: the channel id is that of a channel;
no RSC event comes; and a completion of an enabled channel is for descriptors in
flight, with a length their buffers have. -/
structure EventOk (kind : ErKind) (e : MhiTre) : Prop where
  index : kind.indexesChan e = true → e.evChid < maxChan
  rsc : e.evChid < maxChan → e.evType ≠ rscTxEvent
  xfer : ∀ c : Fin maxChan, e.evChid = c → e.evType = txEvent → (s.chan c).phase = .enabled →
    isCompletion e.evCode = true → XferOk (s.chan c) e

theorem eventOk_iff (kind : ErKind) (e : MhiTre) : EventOk s kind e ↔
    (kind.indexesChan e = true → e.evChid < maxChan) ∧
      (e.evChid < maxChan → e.evType ≠ rscTxEvent) ∧
      ∀ c : Fin maxChan, e.evChid = c → e.evType = txEvent → (s.chan c).phase = .enabled →
        isCompletion e.evCode = true → XferOk (s.chan c) e :=
  ⟨fun h ↦ ⟨h.index, h.rsc, h.xfer⟩, fun h ↦ ⟨h.1, h.2.1, h.2.2⟩⟩

instance (kind : ErKind) (e : MhiTre) : Decidable (EventOk s kind e) :=
  decidable_of_iff _ (eventOk_iff s kind e).symm

end Safety

/-! ## The loop of `parse_xfer_event` -/

/-- The loop ends when descriptor number `t` is the oldest. The descriptors before it
are in flight, and their buffers can hold what the event reports. -/
structure Due (cfg : ChanCfg) (ch : MhiChan) (p : Parsing) (t : ℕ) : Prop where
  head_le : ch.head ≤ t
  le_tail : t ≤ ch.tail
  devRp : p.devRp = cfg.treBase + treSize * (t % cfg.elements)
  len : ∀ i, ch.head ≤ i → i < t → p.xferLen ≤ (ch.bufInfo (i % cfg.elements)).len

variable {cfg : Fin maxChan → ChanCfg} {s t : MhiCntrl} {c : Fin maxChan} {p : Parsing} {k n : ℕ}

theorem Rings.rp_eq {cf : ChanCfg} {ch : MhiChan} (hr : Rings cf ch) :
    ch.treRing.rp = cf.treBase + treSize * (ch.head % cf.elements) := by
  rw [hr.tre.rp_eq, hr.treBase, hr.treElSize, hr.treElements]

theorem Rings.oldest_eq (hr : Rings (cfg c) (s.chan c)) :
    oldest s c = (s.chan c).bufInfo ((s.chan c).head % (cfg c).elements) := by
  rw [oldest, hr.buf.index_rp, hr.bufElements]

/-- The condition on the event, by the counts. -/
theorem xferOk_iff (h : ChanInv (cfg c) (s.chan c)) (hphase : (s.chan c).phase = .enabled)
    {e : MhiTre} (hp : p.devRp = devRpOf (s.chan c).treRing e.ptr) (hlen : p.xferLen = e.evLen) :
    XferOk (s.chan c) e ↔ ∃ n, Due (cfg c) (s.chan c) p n := by
  have hr := h.rings (by simp [hphase])
  have haddr : ∀ n, (s.chan c).treRing.base + treSize *
      (((s.chan c).treRing.index (s.chan c).treRing.rp + n) % (s.chan c).treRing.elements) =
      (cfg c).treBase + treSize * (((s.chan c).head + n) % (cfg c).elements) := fun n ↦ by
    rw [hr.tre.index_rp, hr.treElements, hr.treBase, Nat.mod_add_mod]
  unfold XferOk
  rw [h.length_inFlight, h.inFlight_eq, ← hp, ← hlen]
  have hle := h.head_le
  constructor
  · rintro ⟨n, hn, hdev, hbuf⟩
    rw [Ring.take_contents _ (Nat.le_of_lt_succ hn)] at hbuf
    refine ⟨(s.chan c).head + n, by omega, by omega, by rw [hdev, haddr], fun i hi hlt ↦ ?_⟩
    exact hbuf _ (Ring.mem_contents.mpr ⟨i, hi, hlt, rfl⟩)
  · rintro ⟨n, hdue⟩
    have hhead := hdue.head_le
    have htail := hdue.le_tail
    refine ⟨n - (s.chan c).head, by omega, ?_, fun info hinfo ↦ ?_⟩
    · rw [haddr, Nat.add_sub_cancel' hhead]
      exact hdue.devRp
    · rw [Ring.take_contents _ (by omega)] at hinfo
      obtain ⟨i, hi, hlt, rfl⟩ := Ring.mem_contents.mp hinfo
      exact hdue.len i hi (by omega)

section Due

variable (h : Due (cfg c) (s.chan c) p n)

include h

/-- Queueing leaves the descriptors in flight alone. -/
theorem Due.frame (hf : Frame cfg s t) : Due (cfg c) (t.chan c) p n where
  head_le := by
    rw [hf.head]
    exact h.head_le
  le_tail := h.le_tail.trans (hf.tail c)
  devRp := h.devRp
  len i hi hlt := by
    rw [hf.head] at hi
    rw [hf.stored c i hi (Nat.lt_of_lt_of_le hlt h.le_tail)]
    exact h.len i hi hlt

/-- The loop is over exactly when the last descriptor the event covers is retired. -/
theorem Due.rp_eq_iff (hr : Rings (cfg c) (s.chan c)) :
    (s.chan c).treRing.rp = p.devRp ↔ (s.chan c).head = n := by
  have hlt := hr.tre.lt
  have hle := h.le_tail
  have haddr := hr.tre.addr_eq_iff h.head_le (by omega)
  rw [hr.tre.rp_eq, h.devRp, ← haddr, hr.treBase, hr.treElSize, hr.treElements]

theorem Due.lt (hr : Rings (cfg c) (s.chan c))
    (hne : (s.chan c).treRing.rp ≠ p.devRp) : (s.chan c).head < n :=
  Nat.lt_of_le_of_ne h.head_le fun heq ↦ hne ((h.rp_eq_iff hr).mpr heq)

theorem Due.passSafe (hr : Rings (cfg c) (s.chan c)) : PassSafe s c p := by
  intro hne
  have hlt := h.lt hr hne
  have hle := h.le_tail
  refine ⟨fun heq ↦ ?_, ?_⟩
  · have := hr.tre.rp_eq_wp_iff.mp heq
    omega
  · rw [hr.oldest_eq]
    exact h.len _ le_rfl hlt

end Due

/-- One pass of the loop, up to the callback. -/
theorem Due.retire {cf : ChanCfg} {ch : MhiChan} (h : Due cf ch p n) (hlt : ch.head < n)
    (hd : Handed) : Due cf (ch.delElements.hand hd) p n :=
  ⟨hlt, h.le_tail, h.devRp, fun i hi ↦ h.len i (Nat.le_of_succ_le hi)⟩

/-- A pass that stays in the loop. -/
theorem xferLoop_eq_inr {client : ℕ → Pass} {u v : ℕ × MhiCntrl} :
    xferLoop cfg c p client u = .inr v ↔ (u.2.chan c).treRing.rp ≠ p.devRp ∧
      v = (u.1 + 1, xferTre cfg u.2 c p.status p.xferLen (client u.1).calls
        (client u.1).mapFails) := by
  obtain ⟨k, s⟩ := u
  unfold xferLoop
  dsimp only
  split
  · rename_i heq
    simp [heq]
  · rename_i hne
    simp [hne, eq_comm]

/-- What the client and the loop keep from pass to pass. -/
structure LoopInv (cfg : Fin maxChan → ChanCfg) (s₀ : MhiCntrl) (c : Fin maxChan) (p : Parsing)
    (n : ℕ) (s : MhiCntrl) : Prop where
  inv : Inv cfg 0 s
  phase : ∀ d, (s.chan d).phase = (s₀.chan d).phase
  due : Due (cfg c) (s.chan c) p n

theorem LoopInv.pass {s₀ : MhiCntrl} (h : LoopInv cfg s₀ c p n s)
    (hphase : (s₀.chan c).phase = .enabled) {a : Pass} (ha : CallsOk s₀ a.calls)
    (hne : (s.chan c).treRing.rp ≠ p.devRp) :
    LoopInv cfg s₀ c p n (xferTre cfg s c p.status p.xferLen a.calls a.mapFails) ∧
      ((xferTre cfg s c p.status p.xferLen a.calls a.mapFails).chan c).head =
        (s.chan c).head + 1 ∧ (s.chan c).head < n := by
  have hph : (s.chan c).phase ≠ .stopped := by simp [h.phase, hphase]
  have hlt := h.due.lt ((h.inv.chan c).rings hph) hne
  obtain ⟨hinv, hframe⟩ := xferTre_inv h.inv hph (Nat.lt_of_lt_of_le hlt h.due.le_tail)
    (fun q hq ↦ by rw [h.phase]; exact ha q hq) p.status p.xferLen a.mapFails
  refine ⟨⟨hinv, fun d ↦ ?_, Due.frame ?_ hframe⟩, ?_, hlt⟩
  · rw [hframe.phase, phase_handedOver, h.phase]
  · rw [handedOver, MhiCntrl.upd_self]
    exact h.due.retire hlt _
  · rw [hframe.head, handedOver, MhiCntrl.upd_self]
    rfl

/-- A loop whose end is among the descriptors in flight is safe. -/
theorem Due.loopSafe (hinv : Inv cfg 0 s) (hphase : (s.chan c).phase = .enabled)
    (hdue : Due (cfg c) (s.chan c) p n) : LoopSafe cfg s c p := by
  intro client hclient
  have hreach : ∀ u, Loop.Reaches (xferLoop cfg c p client) (0, s) u →
      LoopInv cfg s c p n u.2 := by
    intro u hu
    induction hu with
    | refl => exact ⟨hinv, fun _ ↦ rfl, hdue⟩
    | @tail u v _ hb ih =>
      obtain ⟨hne, rfl⟩ := xferLoop_eq_inr.mp hb
      exact (ih.pass hphase (hclient u.1) hne).1
  refine ⟨Loop.halts_of_measure (fun u ↦ n - (u.2.chan c).head) fun u v hu hb ↦ ?_, fun u hu ↦ ?_⟩
  · obtain ⟨hne, rfl⟩ := xferLoop_eq_inr.mp hb
    obtain ⟨-, hhead, hlt⟩ := (hreach u hu).pass hphase (hclient u.1) hne
    dsimp only
    omega
  · have h := hreach u hu
    exact h.due.passSafe ((h.inv.chan c).rings (by simp [h.phase, hphase]))

/-- A client that queues nothing; nor can a pre-allocated buffer be queued again. -/
def idleClient : ℕ → Pass := fun _ ↦ ⟨[], true⟩

theorem mhiQueueBuf_mapFails_tail (s : MhiCntrl) (c : Fin maxChan) (buf len : ℕ) :
    (((mhiQueueBuf cfg s c buf len true).2).chan c).tail = (s.chan c).tail := by
  unfold mhiQueueBuf mhiGenTre
  dsimp only [if_true]
  split
  · rfl
  · split
    · rfl
    · rw [if_pos rfl, MhiCntrl.upd_self]
      rfl

/-- A pass in which nothing is queued. -/
theorem xferTre_idle_tail (cfg : Fin maxChan → ChanCfg) (s : MhiCntrl) (c : Fin maxChan)
    (status : XferStatus) (len : ℕ) :
    ((xferTre cfg s c status len [] true).chan c).tail = (s.chan c).tail := by
  have hcb : ∀ res, ((uplinkDone cfg (xferCb cfg (s.upd c MhiChan.delElements) c res []) c).chan
      c).tail = (s.chan c).tail := fun res ↦ by
    rw [uplinkDone_chan, xferCb, List.foldl_nil, MhiCntrl.upd_self, MhiCntrl.upd_self]
    rfl
  unfold xferTre
  dsimp only
  split
  · rw [mhiQueueBuf_mapFails_tail, hcb]
  · exact hcb _

/-- If all passes are safe when nothing is queued, the end of the loop is among the
descriptors in flight. -/
theorem exists_due (hinv : Inv cfg 0 s) (hphase : (s.chan c).phase ≠ .stopped)
    (hsafe : ∀ u, Loop.Reaches (xferLoop cfg c p idleClient) (k, s) u → PassSafe u.2 c p) :
    ∃ n, Due (cfg c) (s.chan c) p n := by
  have hr := (hinv.chan c).rings hphase
  induction hm : (s.chan c).tail - (s.chan c).head generalizing s k with
  | zero =>
    -- the ring is empty, so the loop must be over
    have heq : (s.chan c).head = (s.chan c).tail := Nat.le_antisymm hr.tre.le (by omega)
    by_cases hend : (s.chan c).treRing.rp = p.devRp
    · exact ⟨(s.chan c).head, le_rfl, hr.tre.le, hend.symm.trans hr.rp_eq, fun i _ _ ↦ by omega⟩
    · exact absurd (hr.tre.rp_eq_wp_iff.mpr heq) (hsafe _ .refl hend).1
  | succ m ih =>
    by_cases hend : (s.chan c).treRing.rp = p.devRp
    · exact ⟨(s.chan c).head, le_rfl, hr.tre.le, hend.symm.trans hr.rp_eq, fun i _ _ ↦ by omega⟩
    · have hpass : xferLoop cfg c p idleClient (k, s) =
          .inr (k + 1, xferTre cfg s c p.status p.xferLen [] true) :=
        xferLoop_eq_inr.mpr ⟨hend, rfl⟩
      have hcalls : CallsOk s [] := fun q hq ↦ absurd hq List.not_mem_nil
      obtain ⟨hinv', hframe⟩ := xferTre_inv hinv hphase (by omega) hcalls p.status p.xferLen true
      have hchan : (handedOver s c (.xferCb ⟨(oldest s c).cbBuf, p.status, p.xferLen⟩)).chan c =
          (s.chan c).delElements.hand (.xferCb ⟨(oldest s c).cbBuf, p.status, p.xferLen⟩) :=
        MhiCntrl.upd_self _ c _
      have htail := xferTre_idle_tail cfg s c p.status p.xferLen
      have hhead : ((xferTre cfg s c p.status p.xferLen [] true).chan c).head =
          (s.chan c).head + 1 := by
        rw [hframe.head, hchan]
        rfl
      have hphase' : ((xferTre cfg s c p.status p.xferLen [] true).chan c).phase ≠ .stopped := by
        rw [hframe.phase, phase_handedOver]
        exact hphase
      obtain ⟨n, hdue⟩ := ih hinv' hphase'
        (fun u hu ↦ hsafe u ((Loop.Reaches.refl.tail hpass).trans hu))
        ((hinv'.chan c).rings hphase') (by omega)
      refine ⟨n, ?_, ?_, hdue.devRp, fun i hi hlt ↦ ?_⟩
      · have := hdue.head_le
        omega
      · rw [← htail]
        exact hdue.le_tail
      · rcases Nat.eq_or_lt_of_le hi with rfl | hi'
        · rw [← hr.oldest_eq]
          exact (hsafe _ .refl hend).2
        · have hstored := hframe.stored c i (by rw [hchan]; exact hi') (by
            rw [hchan]
            show i < (s.chan c).tail
            have := hdue.le_tail
            omega)
          rw [hchan] at hstored
          have hlen := hdue.len i (by omega) hlt
          rwa [hstored] at hlen

/-- The loop is safe exactly for the events of `XferOk`. -/
theorem loopSafe_iff (hinv : Inv cfg 0 s) (hphase : (s.chan c).phase = .enabled) {e : MhiTre}
    (hp : p.devRp = devRpOf (s.chan c).treRing e.ptr) (hlen : p.xferLen = e.evLen) :
    LoopSafe cfg s c p ↔ XferOk (s.chan c) e := by
  rw [xferOk_iff (hinv.chan c) hphase hp hlen]
  constructor
  · intro hsafe
    refine exists_due hinv (by simp [hphase]) (hsafe idleClient fun k q hq ↦ ?_).2
    exact absurd hq List.not_mem_nil
  · rintro ⟨n, hdue⟩
    exact hdue.loopSafe hinv hphase

/-! ## Runs in which the device writes what it likes -/

/-- The steps of such a run. -/
inductive EventStep
  | /-- A step of the host other than the processing of an event. -/
    host (e : MhiStep)
  | /-- The device writes an element into event ring `er`. -/
    write (er : ℕ) (tre : MhiTre)
  | /-- The element at the read pointer of event ring `er` is processed. `calls` is what
    the client queues if it is called back for an RSC event. -/
    fetch (er : ℕ) (calls : List QueueCall)

/-- The step is none of the device's and processes no event. -/
def MhiStep.isHost : MhiStep → Bool
  | report .. | other .. | fetch .. => false
  | _ => true

section System

variable (cfg : Fin maxChan → ChanCfg) (kind : ℕ → ErKind)

/-- What is done with an element. What lies behind the array of channels is no part of
the state. -/
def processElement (s : MhiCntrl) (e : MhiTre) (calls : List QueueCall) : MhiCntrl :=
  if h : e.evChid < maxChan then
    if e.evType = txEvent then parseXferEvent s ⟨e.evChid, h⟩ ⟨e, 0, 0⟩
    else if e.evType = rscTxEvent then parseRscEvent cfg s ⟨e.evChid, h⟩ e calls
    else s
  else s

/-- Which steps can come next. The events of a channel are processed one at a time. -/
def EventStep.enabled (s : MhiCntrl) : EventStep → Prop
  | host e => e.isHost = true ∧ e.enabled cfg s
  | write .. => True
  | fetch er calls =>
    (∃ e ∈ (s.evRing er).head?, ∀ c : Fin maxChan, e.tre.evChid = c → (s.chan c).parsing = none) ∧
      CallsOk s calls

instance (s : MhiCntrl) : DecidablePred (EventStep.enabled cfg s)
  | .host e => inferInstanceAs (Decidable (e.isHost = true ∧ e.enabled cfg s))
  | .write .. => inferInstanceAs (Decidable True)
  | .fetch er calls => inferInstanceAs (Decidable ((∃ e ∈ (s.evRing er).head?,
      ∀ c : Fin maxChan, e.tre.evChid = c → (s.chan c).parsing = none) ∧ CallsOk s calls))

/-- The state after a step. -/
def EventStep.next (s : MhiCntrl) : EventStep → MhiCntrl
  | host e => e.next cfg s
  | write er tre =>
    { s with evRing := Function.update s.evRing er (s.evRing er ++ [⟨tre, 0, 0⟩]) }
  | fetch er calls =>
    match s.evRing er with
    | [] => s
    | e :: es => processElement cfg { s with evRing := Function.update s.evRing er es } e.tre calls

/-- The runs. -/
def eventSystem : System MhiCntrl EventStep :=
  { init := MhiCntrl.fresh
    enabled := EventStep.enabled cfg
    next := EventStep.next cfg }

instance (s : MhiCntrl) (e : EventStep) : Decidable ((eventSystem cfg).enabled s e) :=
  inferInstanceAs (Decidable (EventStep.enabled cfg s e))

/-- The elements that are processed are good ones. -/
def GoodEvents (s : MhiCntrl) : EventStep → Prop
  | .fetch er _ => ∀ e ∈ (s.evRing er).head?, EventOk s (kind er) e.tre
  | _ => True

instance (s : MhiCntrl) : DecidablePred (GoodEvents kind s)
  | .host _ => inferInstanceAs (Decidable True)
  | .write .. => inferInstanceAs (Decidable True)
  | .fetch er _ => inferInstanceAs (Decidable (∀ e ∈ (s.evRing er).head?, EventOk s (kind er) e.tre))

end System

/-- Every loop of `parse_xfer_event` ends among the descriptors in flight, and no
`used` flag is set. -/
structure Owed (cfg : Fin maxChan → ChanCfg) (s : MhiCntrl) : Prop where
  due : ∀ c, ∀ p ∈ (s.chan c).parsing,
    (s.chan c).phase = .enabled ∧ ∃ n, Due (cfg c) (s.chan c) p n
  unused : ∀ c i, ((s.chan c).bufInfo i).used = false

theorem Owed.frame (h : Owed cfg s) (hdata : ∀ c, (cfg c).xferType ≠ .rscDma)
    (hf : Frame cfg s t) : Owed cfg t where
  due c p hp := by
    rw [hf.parsing] at hp
    obtain ⟨hphase, n, hdue⟩ := h.due c p hp
    exact ⟨(hf.phase c).trans hphase, n, hdue.frame hf⟩
  unused c i := (hf.used c (hdata c) i).trans (h.unused c i)

theorem Owed.upd (h : Owed cfg s) {f : MhiChan → MhiChan}
    (hdue : ∀ p ∈ (f (s.chan c)).parsing,
      (f (s.chan c)).phase = .enabled ∧ ∃ n, Due (cfg c) (f (s.chan c)) p n)
    (hunused : ∀ i, ((f (s.chan c)).bufInfo i).used = false) : Owed cfg (s.upd c f) where
  due d := by
    by_cases hd : d = c
    · subst hd
      rw [MhiCntrl.upd_self]
      exact hdue
    · rw [MhiCntrl.upd_of_ne _ _ _ hd]
      exact h.due d
  unused d := by
    by_cases hd : d = c
    · subst hd
      rw [MhiCntrl.upd_self]
      exact hunused
    · rw [MhiCntrl.upd_of_ne _ _ _ hd]
      exact h.unused d

theorem Owed.parsing_eq_none (h : Owed cfg s) (hphase : (s.chan c).phase ≠ .enabled) :
    (s.chan c).parsing = none := by
  cases hpa : (s.chan c).parsing with
  | none => rfl
  | some p => exact absurd (h.due c p hpa).1 hphase

/-- The channel is in no loop of `parse_xfer_event`, and stays out of it. -/
theorem Owed.upd_idle (h : Owed cfg s) {f : MhiChan → MhiChan}
    (hnone : (f (s.chan c)).parsing = none)
    (hinfo : ∀ i, ((f (s.chan c)).bufInfo i).used = false) : Owed cfg (s.upd c f) :=
  h.upd (fun _ hp ↦ nomatch hnone.symm.trans hp) hinfo

/-- The steps of the host. -/
theorem host_step (hdata : ∀ c, (cfg c).xferType ≠ .rscDma) (hinv : Inv cfg 0 s)
    (h : Owed cfg s) {e : MhiStep} (hhost : e.isHost = true) (he : e.enabled cfg s) :
    Inv cfg 0 (e.next cfg s) ∧ Owed cfg (e.next cfg s) := by
  cases e with
  | call q =>
    obtain ⟨hinv', hframe⟩ := mhiQueue_inv hinv he
    exact ⟨hinv', h.frame hdata hframe⟩
  | pm p => exact ⟨⟨hinv.chan, hinv.pending, hinv.wake, hinv.runtime⟩, h.due, h.unused⟩
  | report c seq code len => exact nomatch hhost
  | other er tre => exact nomatch hhost
  | fetch er => exact nomatch hhost
  | retire c calls m =>
    obtain ⟨⟨p, hp, hgo⟩, hcalls⟩ := he
    obtain ⟨hphase, n, hdue⟩ := h.due c p hp
    have hph : (s.chan c).phase ≠ .stopped := by simp [hphase]
    have hlt := hdue.lt ((hinv.chan c).rings hph) (of_decide_eq_true hgo)
    obtain ⟨hinv', hframe⟩ := xferTre_inv hinv hph (Nat.lt_of_lt_of_le hlt hdue.le_tail) hcalls
      p.status p.xferLen m
    simp only [MhiStep.next, Option.mem_def.mp hp]
    refine ⟨hinv', Owed.frame ?_ hdata hframe⟩
    refine h.upd (fun p' hp' ↦ ?_) (h.unused c)
    obtain rfl : p = p' := Option.some.inj (hp.symm.trans hp')
    exact ⟨hphase, n, hdue.retire hlt _⟩
  | parsed c =>
    dsimp only [MhiStep.next]
    exact ⟨hinv.control (s.chan c).phase none id (hinv.chan c).stopped,
      h.upd_idle rfl (h.unused c)⟩
  | disable c =>
    dsimp only [MhiStep.next]
    exact ⟨hinv.control .disabled (s.chan c).parsing (fun _ ↦ by simp [he.1])
        fun hst ↦ absurd hst Phase.disabled_ne_stopped,
      h.upd_idle he.2 (h.unused c)⟩
  | mark c =>
    have hphase : (s.chan c).phase = .disabled := he
    have hmarked : Inv cfg 0 (mhiMarkStaleEvents s (cfg c).erIndex c) :=
      ⟨hinv.chan, hinv.pending, hinv.wake, hinv.runtime⟩
    have howed : Owed cfg (mhiMarkStaleEvents s (cfg c).erIndex c) := ⟨h.due, h.unused⟩
    have hnone := h.parsing_eq_none (c := c) (by simp [hphase])
    dsimp only [MhiStep.next]
    refine ⟨hmarked.control .draining (s.chan c).parsing (fun _ ↦ ?_)
        fun hst ↦ absurd hst Phase.draining_ne_stopped,
      howed.upd_idle hnone (h.unused c)⟩
    show (s.chan c).phase ≠ .stopped
    simp [hphase]
  | drain c calls =>
    obtain ⟨hphase, hne, hcalls⟩ := he
    have hph : (s.chan c).phase ≠ .stopped := by simp [hphase]
    have hr := (hinv.chan c).rings hph
    have hlt : (s.chan c).head < (s.chan c).tail :=
      Nat.lt_of_le_of_ne hr.tre.le fun heq ↦ hne (hr.tre.rp_eq_wp_iff.mpr heq)
    obtain ⟨hd, -, hinv', hframe⟩ := resetTre_inv hinv hph hlt hcalls
    have hnone := h.parsing_eq_none (c := c) (by simp [hphase])
    exact ⟨hinv', Owed.frame (h.upd_idle hnone (h.unused c)) hdata hframe⟩
  | deinit c =>
    have hnone := h.parsing_eq_none (c := c) (by simp [he.1])
    exact ⟨(hinv.deinit he.1 he.2).2, h.upd_idle hnone (h.unused c)⟩
  | start c bufBase bufs len =>
    obtain ⟨hinv', hframe⟩ := hinv.start bufBase len he.1 he.2.1 he.2.2
    have hnone := h.parsing_eq_none (c := c) (by simp [he.1])
    exact ⟨hinv', Owed.frame (h.upd_idle hnone fun _ ↦ rfl) hdata hframe⟩

/-- The processing of a good element. -/
theorem fetch_step (hinv : Inv cfg 0 s) (h : Owed cfg s) {er : ℕ} {k : ErKind}
    {calls : List QueueCall} {e : Event} {es : List Event} (hring : s.evRing er = e :: es)
    (hok : EventOk s k e.tre) :
    Inv cfg 0 (EventStep.next cfg s (.fetch er calls)) ∧
      Owed cfg (EventStep.next cfg s (.fetch er calls)) := by
  have hinv' : Inv cfg 0 { s with evRing := Function.update s.evRing er es } :=
    ⟨hinv.chan, hinv.pending, hinv.wake, hinv.runtime⟩
  have howed : Owed cfg { s with evRing := Function.update s.evRing er es } := ⟨h.due, h.unused⟩
  simp only [EventStep.next, hring]
  unfold processElement
  split
  · rename_i hchid
    split
    · rename_i htype
      unfold parseXferEvent
      split
      · exact ⟨hinv', howed⟩
      · rename_i p hp
        obtain ⟨hphase, hcode, rfl⟩ := xferParsing_eq_some.mp hp
        have hxfer := hok.xfer ⟨e.tre.evChid, hchid⟩ rfl htype hphase hcode
        obtain ⟨n, hdue⟩ := (xferOk_iff (p := ⟨_, _, _, _⟩) (hinv.chan ⟨e.tre.evChid, hchid⟩)
          hphase rfl rfl).mp hxfer
        refine ⟨hinv'.control _ _ id (hinv.chan _).stopped, howed.upd (fun p' hp' ↦ ?_)
          (h.unused _)⟩
        obtain rfl := Option.some.inj hp'
        exact ⟨hphase, n, hdue.head_le, hdue.le_tail, hdue.devRp, hdue.len⟩
    · rw [if_neg (hok.rsc hchid)]
      exact ⟨hinv', howed⟩
  · exact ⟨hinv', howed⟩

theorem owed_of_reach {kind : ℕ → ErKind} (hdata : ∀ c, (cfg c).xferType ≠ .rscDma)
    (hs : (eventSystem cfg).Reach (GoodEvents kind) s) : Inv cfg 0 s ∧ Owed cfg s := by
  refine hs.invariant (I := fun s ↦ Inv cfg 0 s ∧ Owed cfg s) ⟨(RunInv.fresh cfg).inv, ?_⟩
    fun s e h he hgood ↦ ?_
  · exact ⟨nofun, fun _ _ ↦ rfl⟩
  · cases e with
    | host e => exact host_step hdata h.1 h.2 he.1 he.2
    | write er tre => exact ⟨⟨h.1.chan, h.1.pending, h.1.wake, h.1.runtime⟩, h.2.due, h.2.unused⟩
    | fetch er calls =>
      obtain ⟨⟨e, hhead, -⟩, -⟩ := he
      obtain ⟨es, hring⟩ := List.head?_eq_some_iff.mp hhead
      exact fetch_step h.1 h.2 hring (hgood e hhead)

/-- An element is processed safely exactly when it is a good one. -/
theorem eventSafe_iff (hinv : Inv cfg 0 s) (h : Owed cfg s) (k : ErKind) (e : MhiTre) :
    EventSafe cfg s k e ↔ EventOk s k e := by
  constructor
  · intro hsafe
    refine ⟨hsafe.index, fun hchid htype ↦ ?_, fun c hc htype hphase hcode ↦ ?_⟩
    · obtain ⟨-, i, -, hused, -⟩ := hsafe.rsc ⟨e.evChid, hchid⟩ rfl htype
      rw [h.unused] at hused
      exact absurd hused Bool.false_ne_true
    · have hp := (@xferParsing_eq_some (s.chan c) e 0 _).mpr ⟨hphase, hcode, rfl⟩
      exact (loopSafe_iff hinv hphase rfl rfl).mp (hsafe.xfer c hc htype _ hp)
  · intro hok
    refine ⟨hok.index, fun c hc htype p hp ↦ ?_, fun c hc htype ↦ ?_⟩
    · obtain ⟨hphase, hcode, rfl⟩ := xferParsing_eq_some.mp hp
      exact (loopSafe_iff hinv hphase rfl rfl).mpr (hok.xfer c hc htype hphase hcode)
    · exact absurd htype (hok.rsc (hc ▸ c.isLt))

/-- In every run of channels of the transfer types the driver configures, in which the
elements processed so far were good ones: an element the device may write is
processed safely exactly when it is a good one, and the loops under way make only
safe passes, whatever comes in between, and end among the descriptors in flight. -/
theorem transferEvent_safe {kind : ℕ → ErKind} (hdata : ∀ c, (cfg c).xferType ≠ .rscDma)
    (hs : (eventSystem cfg).Reach (GoodEvents kind) s) :
    (∀ (k : ErKind) (e : MhiTre), EventSafe cfg s k e ↔ EventOk s k e) ∧
      ∀ c, ∀ p ∈ (s.chan c).parsing, PassSafe s c p ∧ ∃ n ≤ (s.chan c).inFlight.length,
        p.devRp = (s.chan c).treRing.base + treSize *
          (((s.chan c).treRing.index (s.chan c).treRing.rp + n) % (s.chan c).treRing.elements) := by
  obtain ⟨hinv, howed⟩ := owed_of_reach hdata hs
  refine ⟨eventSafe_iff hinv howed, fun c p hp ↦ ?_⟩
  obtain ⟨hphase, n, hdue⟩ := howed.due c p hp
  have hr := (hinv.chan c).rings (by simp [hphase])
  refine ⟨hdue.passSafe hr, n - (s.chan c).head, ?_, ?_⟩
  · rw [(hinv.chan c).length_inFlight]
    exact Nat.sub_le_sub_right hdue.le_tail _
  · rw [hdue.devRp, hr.tre.index_rp, hr.treElements, hr.treBase, Nat.mod_add_mod,
      Nat.add_sub_cancel' hdue.head_le]

/-- A buffer of 100 bytes is queued on the first channel. -/
def queuedRun : List EventStep :=
  [.host (.start chan0 65536 [] 0), .host (.call (.skb chan0 1 100 false))]

/-- The completion of the first descriptor of the first channel, with `len` bytes. -/
def firstDone (len : ℕ) : MhiTre :=
  ⟨8192, ccEot * 2 ^ 24 + len, MhiTre.evDword1 0 txEvent⟩

/-- The events of all rings are processed by `mhi_process_data_event_ring`. -/
def dataRings : ℕ → ErKind := fun _ ↦ .data

/-- The completion is written and processed, up to the loop. -/
def completedRun : List EventStep := queuedRun ++ [.write 0 (firstDone 60), .fetch 0 []]

theorem smallCfg_xferType (c : Fin maxChan) : (smallCfg c).xferType ≠ .rscDma := nofun

set_option maxRecDepth 4000 in
/-- With the completion of the buffer the loop has one safe pass to make. -/
theorem completedRun_safe :
    (eventSystem smallCfg).Along (GoodEvents dataRings) MhiCntrl.fresh completedRun ∧
      EventSafe smallCfg ((eventSystem smallCfg).exec MhiCntrl.fresh queuedRun) .data
        (firstDone 60) ∧
      ∀ p ∈ (((eventSystem smallCfg).exec MhiCntrl.fresh completedRun).chan chan0).parsing,
        PassSafe ((eventSystem smallCfg).exec MhiCntrl.fresh completedRun) chan0 p := by
  have hrun : (eventSystem smallCfg).Along (GoodEvents dataRings) MhiCntrl.fresh completedRun := by
    decide
  have hqueued : (eventSystem smallCfg).Along (GoodEvents dataRings) MhiCntrl.fresh queuedRun := by
    decide
  refine ⟨hrun, ?_, fun p hp ↦ ?_⟩
  · exact ((transferEvent_safe smallCfg_xferType (.exec .init hqueued)).1 _ _).mpr (by decide)
  · exact ((transferEvent_safe smallCfg_xferType (.exec .init hrun)).2 chan0 p hp).1

/-- In a state of a run, elements of each kind that are not processed safely: channel
200 of 128, a descriptor that does not exist (the loop never ends), more bytes than
the buffer has, and an RSC event, whose cookie no buffer in use has. -/
theorem events_unsafe :
    (eventSystem smallCfg).Along (GoodEvents dataRings) MhiCntrl.fresh queuedRun ∧
      ∀ e ∈ [(⟨8192, ccEot * 2 ^ 24, MhiTre.evDword1 200 txEvent⟩ : MhiTre),
          ⟨8200, ccEot * 2 ^ 24, MhiTre.evDword1 0 txEvent⟩, firstDone 101,
          ⟨0, ccEot * 2 ^ 24 + 60, MhiTre.evDword1 0 rscTxEvent⟩],
        ¬ EventSafe smallCfg ((eventSystem smallCfg).exec MhiCntrl.fresh queuedRun) .data e := by
  have hrun : (eventSystem smallCfg).Along (GoodEvents dataRings) MhiCntrl.fresh queuedRun := by
    decide
  have hreach : (eventSystem smallCfg).Reach (GoodEvents dataRings)
      ((eventSystem smallCfg).exec MhiCntrl.fresh queuedRun) := .exec .init hrun
  obtain ⟨hinv, howed⟩ := owed_of_reach smallCfg_xferType hreach
  refine ⟨hrun, fun e he ↦ ?_⟩
  rw [eventSafe_iff hinv howed]
  revert e
  decide

end Wwan.Mhi
