import Mathlib.Algebra.BigOperators.Fin
import Mathlib.Algebra.Order.BigOperators.Group.Finset
import Wwan.Mhi.Queue

/-!
# What queueing, completing and resetting preserve

`ChanInv` says that the two rings of a channel move in lockstep and hold exactly the
buffers that were accepted and not let go. `Inv k` adds the counts of the
controller: `k` is the number of uplink buffers that have left their ring and are
still counted, because the client's callback comes in between.

Each queue function does one of three things (`QueueCase`), so that the invariant
is checked once for all of them.
-/

namespace Wwan.Mhi

open Wwan

/-! ## One channel -/

theorem ChanCfg.elements_pos (cf : ChanCfg) : 0 < cf.elements :=
  Nat.lt_of_lt_of_le (by decide) cf.two_le

/-- The rings of a channel that is not stopped. -/
structure Rings (cfg : ChanCfg) (ch : MhiChan) : Prop where
  tre : ch.treRing.At ch.head ch.tail
  buf : ch.bufRing.At ch.head ch.tail
  treElements : ch.treRing.elements = cfg.elements
  bufElements : ch.bufRing.elements = cfg.elements
  treElSize : ch.treRing.elSize = treSize
  treBase : ch.treRing.base = cfg.treBase
  treIommuBase : ch.treRing.iommuBase = cfg.treIommuBase

/-- The invariant of a channel. -/
structure ChanInv (cfg : ChanCfg) (ch : MhiChan) : Prop where
  rings : ch.phase ≠ .stopped → Rings cfg ch
  stopped : ch.phase = .stopped → ch.head = ch.tail
  history : ch.accepted = ch.handed.map Handed.buf ++
    (Ring.contents ch.bufInfo cfg.elements ch.head (ch.tail - ch.head)).map BufInfo.cbBuf

variable {cfg : ChanCfg} {ch : MhiChan}

theorem Rings.count_lt (h : Rings cfg ch) : ch.tail - ch.head < cfg.elements := by
  have := h.tre.lt
  have := h.treElements
  have := h.tre.le
  omega

theorem Rings.full_iff (h : Rings cfg ch) :
    mhiIsRingFull ch.treRing = true ↔ ch.tail + 1 = ch.head + cfg.elements := by
  rw [h.tre.full_iff, h.treElements]

theorem Rings.room (h : Rings cfg ch) (hfull : mhiIsRingFull ch.treRing = false) :
    ch.tail + 1 < ch.head + cfg.elements := by
  have hne : ¬ ch.tail + 1 = ch.head + cfg.elements := fun heq ↦ by
    simp [h.full_iff.mpr heq] at hfull
  have := h.tre.lt
  have := h.treElements
  omega

theorem ChanInv.head_le (h : ChanInv cfg ch) : ch.head ≤ ch.tail := by
  by_cases hphase : ch.phase = .stopped
  · exact (h.stopped hphase).le
  · exact (h.rings hphase).tre.le

/-- The buffers in flight, by the counts. -/
theorem ChanInv.inFlight_eq (h : ChanInv cfg ch) :
    ch.inFlight = Ring.contents ch.bufInfo cfg.elements ch.head (ch.tail - ch.head) := by
  unfold MhiChan.inFlight
  split
  · rename_i hphase
    rw [h.stopped hphase, Nat.sub_self, Ring.contents_zero]
  · rename_i hphase
    have hr := h.rings hphase
    rw [hr.buf.index_rp, hr.tre.inUse_eq, hr.treElements, hr.bufElements, Ring.contents_mod]

theorem ChanInv.length_inFlight (h : ChanInv cfg ch) :
    ch.inFlight.length = ch.tail - ch.head := by
  rw [h.inFlight_eq, Ring.length_contents]

/-- All buffers of a stopped channel have been let go. -/
theorem ChanInv.accepted_stopped (h : ChanInv cfg ch) (hphase : ch.phase = .stopped) :
    ch.accepted = ch.handed.map Handed.buf := by
  have hhist := h.history
  rwa [h.stopped hphase, Nat.sub_self, Ring.contents_zero, List.map_nil, List.append_nil] at hhist

theorem ChanInv.of_stopped (hphase : ch.phase = .stopped) (heq : ch.head = ch.tail)
    (hacc : ch.accepted = ch.handed.map Handed.buf) : ChanInv cfg ch := by
  refine ⟨fun hph ↦ absurd hphase hph, fun _ ↦ heq, ?_⟩
  rw [heq, Nat.sub_self, Ring.contents_zero, List.map_nil, List.append_nil]
  exact hacc

/-- A write behind the last buffer in flight changes none of them. -/
theorem ChanInv.writeBufInfo (h : ChanInv cfg ch) (hphase : ch.phase ≠ .stopped)
    (f : BufInfo → BufInfo) : ChanInv cfg (ch.writeBufInfo f) := by
  have hr := h.rings hphase
  refine ⟨fun _ ↦ ?_, fun hstop ↦ absurd hstop hphase, ?_⟩
  · exact ⟨hr.tre, hr.buf, hr.treElements, hr.bufElements, hr.treElSize, hr.treBase,
      hr.treIommuBase⟩
  · have hslot : ch.bufRing.index ch.bufRing.wp =
        (ch.head + (ch.tail - ch.head)) % cfg.elements := by
      rw [hr.buf.index_wp, hr.bufElements, Nat.add_sub_cancel' hr.buf.le]
    unfold MhiChan.writeBufInfo
    dsimp only
    rw [hslot, Ring.contents_update _ _ hr.count_lt]
    exact h.history

/-- Accepting the buffer that has been written behind the last one. -/
theorem ChanInv.addElements (h : ChanInv cfg ch) (hphase : ch.phase ≠ .stopped)
    (hfull : mhiIsRingFull ch.treRing = false) : ChanInv cfg ch.addElements := by
  have hr := h.rings hphase
  have hroom := hr.room hfull
  refine ⟨fun _ ↦ ?_, fun hstop ↦ absurd hstop hphase, ?_⟩
  · exact ⟨hr.tre.add (by rw [hr.treElements]; exact hroom),
      hr.buf.add (by rw [hr.bufElements]; exact hroom), hr.treElements, hr.bufElements,
      hr.treElSize, hr.treBase, hr.treIommuBase⟩
  · have hslot : ch.bufRing.index ch.bufRing.wp =
        (ch.head + (ch.tail - ch.head)) % cfg.elements := by
      rw [hr.buf.index_wp, hr.bufElements, Nat.add_sub_cancel' hr.buf.le]
    have hcount : ch.tail + 1 - ch.head = ch.tail - ch.head + 1 := by
      have := hr.tre.le
      omega
    unfold MhiChan.addElements
    dsimp only
    rw [hcount, Ring.contents_snoc, List.map_append, ← List.append_assoc, ← h.history, hslot]
    rfl

/-- Letting go of the oldest buffer in flight. -/
theorem ChanInv.delElements_hand (h : ChanInv cfg ch) (hphase : ch.phase ≠ .stopped)
    (hlt : ch.head < ch.tail) {hd : Handed}
    (hbuf : hd.buf = (ch.bufInfo (ch.bufRing.index ch.bufRing.rp)).cbBuf) :
    ChanInv cfg (ch.delElements.hand hd) := by
  have hr := h.rings hphase
  refine ⟨fun _ ↦ ?_, fun hstop ↦ absurd hstop hphase, ?_⟩
  · exact ⟨hr.tre.del hlt, hr.buf.del hlt, hr.treElements, hr.bufElements, hr.treElSize,
      hr.treBase, hr.treIommuBase⟩
  · have hcount : ch.tail - ch.head = ch.tail - (ch.head + 1) + 1 := by omega
    have hhist := h.history
    rw [hcount, Ring.contents_succ, List.map_cons] at hhist
    unfold MhiChan.hand MhiChan.delElements
    dsimp only
    rw [hhist, List.map_append, List.map_singleton, hbuf, hr.buf.index_rp, hr.bufElements,
      List.append_assoc]
    rfl

/-! ## The controller's operations commute -/

namespace MhiCntrl

variable (s : MhiCntrl) (c : Fin maxChan) (f g : MhiChan → MhiChan)

@[simp] theorem upd_self : (s.upd c f).chan c = f (s.chan c) := by simp [upd]

@[simp] theorem upd_of_ne {d : Fin maxChan} (h : d ≠ c) : (s.upd c f).chan d = s.chan d := by
  simp [upd, h]

theorem upd_upd : (s.upd c f).upd c g = s.upd c fun ch ↦ g (f ch) := by
  ext <;> simp [upd]

theorem upd_wakeGet : s.wakeGet.upd c f = (s.upd c f).wakeGet := rfl

theorem upd_pendingInc : s.pendingInc.upd c f = (s.upd c f).pendingInc := rfl

theorem pendingInc_wakeGet : s.wakeGet.pendingInc = s.pendingInc.wakeGet := rfl

@[simp] theorem wakePut_wakeGet : s.wakeGet.wakePut = s := by
  ext <;> simp [wakeGet, wakePut]

end MhiCntrl

@[simp] theorem runtimeKick_eq (s : MhiCntrl) : runtimeKick s = s := by
  unfold runtimeKick
  split
  · ext <;> simp [MhiCntrl.runtimeGet, MhiCntrl.runtimePut]
  · rfl

/-! ## What a queue function can do -/

section Cases

variable (cfg : Fin maxChan → ChanCfg) (s : MhiCntrl) (c : Fin maxChan)

/-- The counts of an uplink buffer are taken. -/
def uplinkTaken : MhiCntrl := if (cfg c).dir = .toDevice then s.pendingInc.wakeGet else s

/-- The ways a queue function can go on channel `c`. -/
inductive QueueCase : Ret × MhiCntrl → Prop
  | /-- It looks at the PM state and the ring and returns. -/
    refused {ret : Ret} (h : ret ≠ .ok) : QueueCase (ret, s)
  | /-- The buffer cannot be mapped. -/
    unmapped (f : MhiChan → BufInfo → BufInfo)
      (hused : (cfg c).xferType ≠ .rscDma → ∀ ch i, (f ch i).used = i.used) :
      QueueCase (.enomem, s.upd c fun ch ↦ ch.writeBufInfo (f ch))
  | /-- The buffer is accepted. -/
    queued (f : MhiChan → BufInfo → BufInfo)
      (hused : (cfg c).xferType ≠ .rscDma → ∀ ch i, (f ch i).used = i.used)
      (hroom : mhiIsRingFull (s.chan c).treRing = false) :
      QueueCase (.ok, uplinkTaken cfg (s.upd c fun ch ↦ (ch.writeBufInfo (f ch)).addElements) c)

theorem assertWake_toDevice (h : (cfg c).dir = .toDevice) : assertWake cfg s c = true := by
  simp [assertWake, h]

/-- On the way to an accepted buffer the votes for an uplink buffer stay and those for
a downlink buffer are given back. -/
theorem submit_eq (w : Bool) (hw : (cfg c).dir = .toDevice → w = true)
    (f : MhiChan → BufInfo → BufInfo) :
    submit cfg ((wakeIf s w).upd c fun ch ↦ ch.writeBufInfo (f ch)) c w =
      uplinkTaken cfg (s.upd c fun ch ↦ (ch.writeBufInfo (f ch)).addElements) c := by
  unfold submit uplinkTaken wakeIf
  cases hdir : (cfg c).dir with
  | toDevice =>
    simp only [hw hdir, reduceCtorEq, false_and, if_true, if_false]
    rw [MhiCntrl.upd_wakeGet, MhiCntrl.pendingInc_wakeGet, MhiCntrl.upd_wakeGet,
      MhiCntrl.upd_pendingInc, MhiCntrl.upd_upd]
  | fromDevice =>
    cases w with
    | false => simp [MhiCntrl.upd_upd]
    | true => simp [MhiCntrl.upd_upd, MhiCntrl.upd_wakeGet]

theorem mhiQueueSkb_case (buf len : ℕ) (m : Bool) :
    QueueCase cfg s c (mhiQueueSkb cfg s c buf len m) := by
  unfold mhiQueueSkb
  cases hfull : mhiIsRingFull (s.chan c).treRing with
  | true => exact .refused nofun
  | false =>
    cases s.pmState.inErrorState with
    | true => exact .refused nofun
    | false =>
      have hw := assertWake_toDevice cfg s c
      simp only [runtimeKick_eq, Bool.false_eq_true, if_false]
      generalize assertWake cfg s c = w at hw
      cases m with
      | true =>
        cases w with
        | false =>
          simp only [wakeIf, Bool.false_eq_true, if_true, if_false]
          exact .unmapped _ fun _ _ _ ↦ rfl
        | true =>
          simp only [wakeIf, if_true, MhiCntrl.upd_wakeGet, MhiCntrl.wakePut_wakeGet]
          exact .unmapped _ fun _ _ _ ↦ rfl
      | false =>
        simp only [Bool.false_eq_true, if_false]
        rw [submit_eq cfg s c w hw]
        exact .queued _ (fun _ _ _ ↦ rfl) hfull

theorem mhiQueueDma_case (buf len : ℕ) :
    QueueCase cfg s c (mhiQueueDma cfg s c buf len) := by
  unfold mhiQueueDma
  cases hfull : mhiIsRingFull (s.chan c).treRing with
  | true => exact .refused nofun
  | false =>
    cases s.pmState.inErrorState with
    | true => exact .refused nofun
    | false =>
      simp only [runtimeKick_eq, Bool.false_eq_true, if_false]
      rw [submit_eq cfg s c _ (assertWake_toDevice cfg s c)]
      exact .queued _ (fun hty _ _ ↦ if_neg hty) hfull

theorem mhiQueueBuf_case (buf len : ℕ) (m : Bool) :
    QueueCase cfg s c (mhiQueueBuf cfg s c buf len m) := by
  unfold mhiQueueBuf
  cases s.pmState.inErrorState with
  | true => exact .refused nofun
  | false =>
    cases hfull : mhiIsRingFull (s.chan c).treRing with
    | true => exact .refused nofun
    | false =>
      cases m with
      | true => exact .unmapped _ fun _ _ _ ↦ rfl
      | false =>
        have hcase := @QueueCase.queued cfg s c (fun ch i ↦
          { i with cbBuf := buf, wp := ch.treRing.wp, len := len, num := ch.tail })
          (fun _ _ _ ↦ rfl) hfull
        simp only [mhiGenTre, runtimeKick_eq, Bool.false_eq_true, if_false,
          MhiCntrl.upd_upd]
        unfold uplinkTaken at hcase
        cases hdir : (cfg c).dir with
        | toDevice =>
          simp only [hdir, if_true] at hcase
          simpa [hdir, wakeIf, assertWake, MhiCntrl.pendingInc_wakeGet] using hcase
        | fromDevice =>
          simp only [hdir, reduceCtorEq, if_false] at hcase
          simp only [wakeIf, reduceCtorEq, true_and, if_false]
          split
          · simpa using hcase
          · exact hcase

/-- A queue function goes one of the ways of `QueueCase`. -/
theorem mhiQueue_case (q : QueueCall) : QueueCase cfg s q.chan (mhiQueue cfg s q) := by
  cases q with
  | skb c buf len m => exact mhiQueueSkb_case cfg s c buf len m
  | dma c buf len => exact mhiQueueDma_case cfg s c buf len
  | buf c buf len m => exact mhiQueueBuf_case cfg s c buf len m

end Cases

/-! ## All channels and the counts -/

section Controller

variable (cfg : Fin maxChan → ChanCfg)

/-- The uplink descriptors in flight on a channel. -/
def uplinkOf (cfg : ChanCfg) (ch : MhiChan) : ℤ :=
  if cfg.dir = .toDevice then (ch.tail : ℤ) - ch.head else 0

/-- The uplink descriptors in flight on all channels. -/
def uplink (s : MhiCntrl) : ℤ := ∑ c, uplinkOf (cfg c) (s.chan c)

/-- The invariant of the controller, with `k` uplink buffers that have left their ring
and are still counted. -/
structure Inv (k : ℕ) (s : MhiCntrl) : Prop where
  chan : ∀ c, ChanInv (cfg c) (s.chan c)
  pending : s.pendingPkts = uplink cfg s + k
  wake : s.wake = uplink cfg s + k
  runtime : s.runtime = if 0 < s.pendingPkts then 1 else 0

variable {cfg} {s : MhiCntrl} {c : Fin maxChan} {k : ℕ}

/-- A change of one channel changes its own summand. -/
theorem uplink_upd (f : MhiChan → MhiChan) :
    uplink cfg (s.upd c f) =
      uplink cfg s - uplinkOf (cfg c) (s.chan c) + uplinkOf (cfg c) (f (s.chan c)) := by
  unfold uplink
  rw [← Finset.add_sum_erase _ _ (Finset.mem_univ c),
    ← Finset.add_sum_erase _ (fun d ↦ uplinkOf (cfg d) (s.chan d)) (Finset.mem_univ c)]
  have hrest : ∑ d ∈ Finset.univ.erase c, uplinkOf (cfg d) ((s.upd c f).chan d) =
      ∑ d ∈ Finset.univ.erase c, uplinkOf (cfg d) (s.chan d) :=
    Finset.sum_congr rfl fun d hd ↦ by rw [MhiCntrl.upd_of_ne _ _ _ (Finset.ne_of_mem_erase hd)]
  rw [hrest, MhiCntrl.upd_self]
  omega

theorem uplink_nonneg (h : ∀ c, ChanInv (cfg c) (s.chan c)) : 0 ≤ uplink cfg s := by
  refine Finset.sum_nonneg fun c _ ↦ ?_
  have := (h c).head_le
  unfold uplinkOf
  split <;> omega

/-- A channel keeps its invariant in the whole if it does on its own. -/
theorem chanInv_upd (h : ∀ d, ChanInv (cfg d) (s.chan d)) {f : MhiChan → MhiChan}
    (hf : ChanInv (cfg c) (f (s.chan c))) (d : Fin maxChan) :
    ChanInv (cfg d) ((s.upd c f).chan d) := by
  by_cases hd : d = c
  · subst hd
    rw [MhiCntrl.upd_self]
    exact hf
  · rw [MhiCntrl.upd_of_ne _ _ _ hd]
    exact h d

/-- A change that moves no descriptor leaves the counts right. -/
theorem Inv.upd (h : Inv cfg k s) {f : MhiChan → MhiChan}
    (hf : ChanInv (cfg c) (f (s.chan c))) (hhead : (f (s.chan c)).head = (s.chan c).head)
    (htail : (f (s.chan c)).tail = (s.chan c).tail) : Inv cfg k (s.upd c f) := by
  have hup : uplink cfg (s.upd c f) = uplink cfg s := by
    rw [uplink_upd]
    unfold uplinkOf
    rw [hhead, htail, sub_add_cancel]
  exact ⟨chanInv_upd h.chan hf, by rw [hup]; exact h.pending, by rw [hup]; exact h.wake, h.runtime⟩

/-- A change of a channel that has no descriptors in flight, before and after. -/
theorem Inv.upd_empty (h : Inv cfg k s) {f : MhiChan → MhiChan}
    (hf : ChanInv (cfg c) (f (s.chan c))) (hold : (s.chan c).head = (s.chan c).tail)
    (hnew : (f (s.chan c)).head = (f (s.chan c)).tail) : Inv cfg k (s.upd c f) := by
  have hup : uplink cfg (s.upd c f) = uplink cfg s := by
    rw [uplink_upd]
    unfold uplinkOf
    rw [hold, hnew]
    simp
  exact ⟨chanInv_upd h.chan hf, by rw [hup]; exact h.pending, by rw [hup]; exact h.wake, h.runtime⟩

/-- Accepting a buffer. -/
theorem Inv.queued (h : Inv cfg k s) {f : MhiChan → MhiChan}
    (hf : ChanInv (cfg c) (f (s.chan c))) (hhead : (f (s.chan c)).head = (s.chan c).head)
    (htail : (f (s.chan c)).tail = (s.chan c).tail + 1) :
    Inv cfg k (uplinkTaken cfg (s.upd c f) c) := by
  have hchan := chanInv_upd h.chan hf
  have hup : uplink cfg (s.upd c f) = _ := uplink_upd f
  have hpos := uplink_nonneg h.chan
  have hpend := h.pending
  have hwake := h.wake
  have hrun := h.runtime
  unfold uplinkOf at hup
  rw [hhead, htail] at hup
  unfold uplinkTaken
  cases hdir : (cfg c).dir with
  | toDevice =>
    rw [if_pos hdir, if_pos hdir] at hup
    refine ⟨hchan, ?_, ?_, ?_⟩
    · show s.pendingPkts + 1 = uplink cfg (s.upd c f) + k
      omega
    · show s.wake + 1 = uplink cfg (s.upd c f) + k
      omega
    · show (if s.pendingPkts + 1 = 1 then s.runtime + 1 else s.runtime) =
        if 0 < s.pendingPkts + 1 then 1 else 0
      split at hrun <;> split <;> split <;> omega
  | fromDevice =>
    rw [if_neg (by simp [hdir]), if_neg (by simp [hdir])] at hup
    refine ⟨hchan, ?_, ?_, hrun⟩
    · show s.pendingPkts = uplink cfg (s.upd c f) + k
      omega
    · show s.wake = uplink cfg (s.upd c f) + k
      omega

/-- Taking a buffer off the rings; an uplink buffer is still counted. -/
theorem Inv.taken (h : Inv cfg k s) {f : MhiChan → MhiChan}
    (hf : ChanInv (cfg c) (f (s.chan c))) (hhead : (f (s.chan c)).head = (s.chan c).head + 1)
    (htail : (f (s.chan c)).tail = (s.chan c).tail) :
    Inv cfg (if (cfg c).dir = .toDevice then k + 1 else k) (s.upd c f) := by
  have hup : uplink cfg (s.upd c f) = _ := uplink_upd f
  have hpend := h.pending
  have hwake := h.wake
  unfold uplinkOf at hup
  rw [hhead, htail] at hup
  have hcount : uplink cfg (s.upd c f) + ((if (cfg c).dir = .toDevice then k + 1 else k : ℕ) : ℤ) =
      uplink cfg s + k := by
    by_cases hdir : (cfg c).dir = .toDevice
    · rw [if_pos hdir, if_pos hdir] at hup
      rw [if_pos hdir]
      omega
    · rw [if_neg hdir, if_neg hdir] at hup
      rw [if_neg hdir]
      omega
  exact ⟨chanInv_upd h.chan hf, hpend.trans hcount.symm, hwake.trans hcount.symm, h.runtime⟩

/-- Giving back the counts of an uplink buffer. -/
theorem Inv.uplinkDone (h : Inv cfg (if (cfg c).dir = .toDevice then k + 1 else k) s) :
    Inv cfg k (uplinkDone cfg s c) := by
  unfold Mhi.uplinkDone
  split
  · rename_i hdir
    rw [if_pos hdir] at h
    have hpos := uplink_nonneg h.chan
    have hpend := h.pending
    have hwake := h.wake
    have hrun := h.runtime
    refine ⟨h.chan, ?_, ?_, ?_⟩
    · show s.pendingPkts - 1 = uplink cfg s + k
      omega
    · show s.wake - 1 = uplink cfg s + k
      omega
    · show (if s.pendingPkts - 1 = 0 then s.runtime - 1 else s.runtime) =
        if 0 < s.pendingPkts - 1 then 1 else 0
      split at hrun <;> split <;> split <;> omega
  · rename_i hdir
    rwa [if_neg hdir] at h

end Controller

/-! ## What queueing leaves alone -/

/-- `t` differs from `s` only in buffers that were queued. -/
structure Frame (cfg : Fin maxChan → ChanCfg) (s t : MhiCntrl) : Prop where
  evRing : t.evRing = s.evRing
  phase : ∀ c, (t.chan c).phase = (s.chan c).phase
  parsing : ∀ c, (t.chan c).parsing = (s.chan c).parsing
  handed : ∀ c, (t.chan c).handed = (s.chan c).handed
  epoch : ∀ c, (t.chan c).epoch = (s.chan c).epoch
  head : ∀ c, (t.chan c).head = (s.chan c).head
  reported : ∀ c, (t.chan c).reported = (s.chan c).reported
  tail : ∀ c, (s.chan c).tail ≤ (t.chan c).tail
  stored : ∀ c i, (s.chan c).head ≤ i → i < (s.chan c).tail →
    (t.chan c).bufInfo (i % (cfg c).elements) = (s.chan c).bufInfo (i % (cfg c).elements)
  used : ∀ c, (cfg c).xferType ≠ .rscDma → ∀ i,
    ((t.chan c).bufInfo i).used = ((s.chan c).bufInfo i).used

theorem Frame.refl (cfg : Fin maxChan → ChanCfg) (s : MhiCntrl) : Frame cfg s s :=
  ⟨rfl, fun _ ↦ rfl, fun _ ↦ rfl, fun _ ↦ rfl, fun _ ↦ rfl, fun _ ↦ rfl, fun _ ↦ rfl,
    fun _ ↦ le_rfl, fun _ _ _ _ ↦ rfl, fun _ _ _ ↦ rfl⟩

theorem Frame.trans {cfg : Fin maxChan → ChanCfg} {s t u : MhiCntrl} (h : Frame cfg s t)
    (h' : Frame cfg t u) : Frame cfg s u :=
  { evRing := h'.evRing.trans h.evRing
    phase := fun c ↦ (h'.phase c).trans (h.phase c)
    parsing := fun c ↦ (h'.parsing c).trans (h.parsing c)
    handed := fun c ↦ (h'.handed c).trans (h.handed c)
    epoch := fun c ↦ (h'.epoch c).trans (h.epoch c)
    head := fun c ↦ (h'.head c).trans (h.head c)
    reported := fun c ↦ (h'.reported c).trans (h.reported c)
    tail := fun c ↦ (h.tail c).trans (h'.tail c)
    stored := fun c i hle hlt ↦
      (h'.stored c i ((h.head c).symm ▸ hle) (Nat.lt_of_lt_of_le hlt (h.tail c))).trans
        (h.stored c i hle hlt)
    used := fun c hty i ↦ (h'.used c hty i).trans (h.used c hty i) }

/-- A change of one channel that leaves everything but its buffers alone. -/
theorem Frame.upd {cfg : Fin maxChan → ChanCfg} (s : MhiCntrl) (c : Fin maxChan)
    {f : MhiChan → MhiChan}
    (hphase : (f (s.chan c)).phase = (s.chan c).phase)
    (hparsing : (f (s.chan c)).parsing = (s.chan c).parsing)
    (hhanded : (f (s.chan c)).handed = (s.chan c).handed)
    (hepoch : (f (s.chan c)).epoch = (s.chan c).epoch)
    (hhead : (f (s.chan c)).head = (s.chan c).head)
    (hreported : (f (s.chan c)).reported = (s.chan c).reported)
    (htail : (s.chan c).tail ≤ (f (s.chan c)).tail)
    (hstored : ∀ i, (s.chan c).head ≤ i → i < (s.chan c).tail →
      (f (s.chan c)).bufInfo (i % (cfg c).elements) =
        (s.chan c).bufInfo (i % (cfg c).elements))
    (hused : (cfg c).xferType ≠ .rscDma → ∀ i,
      ((f (s.chan c)).bufInfo i).used = ((s.chan c).bufInfo i).used) : Frame cfg s (s.upd c f) := by
  have hsplit : ∀ d, (s.upd c f).chan d = s.chan d ∨
      (d = c ∧ (s.upd c f).chan d = f (s.chan c)) := fun d ↦ by
    by_cases hd : d = c
    · subst hd
      exact .inr ⟨rfl, s.upd_self d f⟩
    · exact .inl (s.upd_of_ne c f hd)
  refine ⟨rfl, ?_, ?_, ?_, ?_, ?_, ?_, ?_, ?_, ?_⟩ <;> intro d <;>
    rcases hsplit d with heq | ⟨rfl, heq⟩ <;> rw [heq] <;>
    first | assumption | exact fun _ _ _ ↦ rfl | exact fun _ _ ↦ rfl

/-- Queueing on a data channel sets no `used` flag. -/
theorem MhiChan.writeBufInfo_used (ch : MhiChan) {f : BufInfo → BufInfo}
    (hf : ∀ i, (f i).used = i.used) (i : ℕ) :
    ((ch.writeBufInfo f).bufInfo i).used = (ch.bufInfo i).used := by
  unfold MhiChan.writeBufInfo
  dsimp only
  rw [Function.update_apply]
  split
  · rename_i heq
    rw [hf, heq]
  · rfl

/-- A write behind the last buffer in flight is to none of their elements. -/
theorem Rings.writeBufInfo_stored {cf : ChanCfg} {ch : MhiChan} (hr : Rings cf ch)
    (f : BufInfo → BufInfo) (i : ℕ) (hle : ch.head ≤ i) (hlt : i < ch.tail) :
    (ch.writeBufInfo f).bufInfo (i % cf.elements) = ch.bufInfo (i % cf.elements) := by
  have hroom := hr.tre.lt
  rw [hr.treElements] at hroom
  unfold MhiChan.writeBufInfo
  dsimp only
  rw [hr.buf.index_wp, hr.bufElements]
  refine Function.update_of_ne (fun heq ↦ ?_) _ _
  have := Ring.eq_of_mod_eq heq hlt.le (by omega)
  omega

/-- The counts are no part of the frame. -/
theorem frame_uplinkTaken {cfg : Fin maxChan → ChanCfg} {s t : MhiCntrl} (c : Fin maxChan)
    (h : Frame cfg s t) : Frame cfg s (uplinkTaken cfg t c) := by
  unfold uplinkTaken
  split
  · exact ⟨h.evRing, h.phase, h.parsing, h.handed, h.epoch, h.head, h.reported, h.tail, h.stored,
      h.used⟩
  · exact h

section Steps

variable {cfg : Fin maxChan → ChanCfg} {s : MhiCntrl} {k : ℕ}

/-- A call of a queue function on a channel that is not stopped. -/
theorem mhiQueue_inv (h : Inv cfg k s) {q : QueueCall} (hq : (s.chan q.chan).phase ≠ .stopped) :
    Inv cfg k (mhiQueue cfg s q).2 ∧ Frame cfg s (mhiQueue cfg s q).2 := by
  have hcase := mhiQueue_case cfg s q
  generalize mhiQueue cfg s q = r at hcase
  have hch := h.chan q.chan
  cases hcase with
  | refused _ => exact ⟨h, .refl cfg s⟩
  | unmapped f hused =>
    dsimp only
    exact ⟨h.upd (hch.writeBufInfo hq _) rfl rfl, .upd s _ rfl rfl rfl rfl rfl rfl le_rfl
      ((hch.rings hq).writeBufInfo_stored _) fun hty ↦
        (s.chan q.chan).writeBufInfo_used (hused hty _)⟩
  | queued f hused hroom =>
    have hadd := (hch.writeBufInfo hq (f (s.chan q.chan))).addElements hq hroom
    dsimp only
    exact ⟨h.queued hadd rfl rfl,
      frame_uplinkTaken _ (.upd s _ rfl rfl rfl rfl rfl rfl (Nat.le_succ _)
        ((hch.rings hq).writeBufInfo_stored _) fun hty ↦
          (s.chan q.chan).writeBufInfo_used (hused hty _))⟩

/-- The calls a client makes from a callback. -/
theorem mhiQueue_foldl_inv {calls : List QueueCall} (h : Inv cfg k s)
    (hcalls : ∀ q ∈ calls, (s.chan q.chan).phase ≠ .stopped) :
    Inv cfg k (calls.foldl (fun s q ↦ (mhiQueue cfg s q).2) s) ∧
      Frame cfg s (calls.foldl (fun s q ↦ (mhiQueue cfg s q).2) s) := by
  induction calls generalizing s with
  | nil => exact ⟨h, .refl cfg s⟩
  | cons q calls ih =>
    obtain ⟨hinv, hframe⟩ := mhiQueue_inv h (hcalls q List.mem_cons_self)
    have hrest : ∀ p ∈ calls, ((mhiQueue cfg s q).2.chan p.chan).phase ≠ .stopped :=
      fun p hp ↦ by
        rw [hframe.phase]
        exact hcalls p (List.mem_cons_of_mem q hp)
    obtain ⟨hinv', hframe'⟩ := ih hinv hrest
    exact ⟨hinv', hframe.trans hframe'⟩

/-- The state in which the client is called back: the oldest buffer of `c` is off the
rings and handed over. -/
def handedOver (s : MhiCntrl) (c : Fin maxChan) (hd : Handed) : MhiCntrl :=
  s.upd c fun ch ↦ ch.delElements.hand hd

theorem uplinkTaken_chan (s : MhiCntrl) (c : Fin maxChan) :
    (uplinkTaken cfg s c).chan = s.chan := by
  unfold uplinkTaken
  split <;> rfl

theorem uplinkDone_chan (s : MhiCntrl) (c : Fin maxChan) : (uplinkDone cfg s c).chan = s.chan := by
  unfold uplinkDone
  split <;> rfl

theorem uplinkDone_upd (s : MhiCntrl) (c : Fin maxChan) (f : MhiChan → MhiChan) :
    (uplinkDone cfg s c).upd c f = uplinkDone cfg (s.upd c f) c := by
  unfold uplinkDone
  split <;> rfl

theorem frame_uplinkDone {s t : MhiCntrl} (c : Fin maxChan) (h : Frame cfg s t) :
    Frame cfg s (uplinkDone cfg t c) := by
  unfold uplinkDone
  split
  · exact ⟨h.evRing, h.phase, h.parsing, h.handed, h.epoch, h.head, h.reported, h.tail, h.stored,
      h.used⟩
  · exact h

theorem phase_handedOver (s : MhiCntrl) (c d : Fin maxChan) (hd : Handed) :
    ((handedOver s c hd).chan d).phase = (s.chan d).phase := by
  unfold handedOver
  by_cases hcd : d = c
  · subst hcd
    rw [MhiCntrl.upd_self]
    rfl
  · rw [MhiCntrl.upd_of_ne _ _ _ hcd]

/-- The oldest buffer in flight on `c`. -/
def oldest (s : MhiCntrl) (c : Fin maxChan) : BufInfo :=
  (s.chan c).bufInfo ((s.chan c).bufRing.index (s.chan c).bufRing.rp)

variable {c : Fin maxChan} {calls : List QueueCall}

theorem handedOver_inv (h : Inv cfg k s) (hphase : (s.chan c).phase ≠ .stopped)
    (hlt : (s.chan c).head < (s.chan c).tail) {hd : Handed} (hbuf : hd.buf = (oldest s c).cbBuf) :
    Inv cfg (if (cfg c).dir = .toDevice then k + 1 else k) (handedOver s c hd) :=
  h.taken ((h.chan c).delElements_hand hphase hlt hbuf) rfl rfl

/-- The client's callback, from the moment the buffer is off the rings. -/
theorem handedOver_calls (h : Inv cfg k s) (hphase : (s.chan c).phase ≠ .stopped)
    (hlt : (s.chan c).head < (s.chan c).tail)
    (hcalls : ∀ q ∈ calls, (s.chan q.chan).phase ≠ .stopped) (status : XferStatus) (len : ℕ) :
    Inv cfg (if (cfg c).dir = .toDevice then k + 1 else k)
        (xferCb cfg (s.upd c MhiChan.delElements) c ⟨(oldest s c).cbBuf, status, len⟩ calls) ∧
      Frame cfg (handedOver s c (.xferCb ⟨(oldest s c).cbBuf, status, len⟩))
        (xferCb cfg (s.upd c MhiChan.delElements) c ⟨(oldest s c).cbBuf, status, len⟩ calls) := by
  have hstart : xferCb cfg (s.upd c MhiChan.delElements) c ⟨(oldest s c).cbBuf, status, len⟩ calls =
      calls.foldl (fun s q ↦ (mhiQueue cfg s q).2)
        (handedOver s c (.xferCb ⟨(oldest s c).cbBuf, status, len⟩)) := by
    rw [xferCb, MhiCntrl.upd_upd]
    rfl
  rw [hstart]
  refine mhiQueue_foldl_inv (handedOver_inv h hphase hlt rfl) fun q hq ↦ ?_
  rw [phase_handedOver]
  exact hcalls q hq

/-- One pass of the loop of `parse_xfer_event`. -/
theorem xferTre_inv (h : Inv cfg k s) (hphase : (s.chan c).phase ≠ .stopped)
    (hlt : (s.chan c).head < (s.chan c).tail)
    (hcalls : ∀ q ∈ calls, (s.chan q.chan).phase ≠ .stopped) (status : XferStatus) (len : ℕ)
    (m : Bool) :
    Inv cfg k (xferTre cfg s c status len calls m) ∧
      Frame cfg (handedOver s c (.xferCb ⟨(oldest s c).cbBuf, status, len⟩))
        (xferTre cfg s c status len calls m) := by
  obtain ⟨hcb, hframe⟩ := handedOver_calls h hphase hlt hcalls status len
  have hdone := hcb.uplinkDone
  have hdone' := frame_uplinkDone c hframe
  unfold xferTre
  dsimp only
  split
  · -- a pre-allocated buffer is queued again
    have hph : ((uplinkDone cfg (xferCb cfg (s.upd c MhiChan.delElements) c
        ⟨(oldest s c).cbBuf, status, len⟩ calls) c).chan c).phase ≠ .stopped := by
      rw [hdone'.phase, phase_handedOver]
      exact hphase
    obtain ⟨hq, hqf⟩ := mhiQueue_inv hdone (q := .buf c _ _ m) hph
    exact ⟨hq, hdone'.trans hqf⟩
  · exact ⟨hdone, hdone'⟩

/-- One pass of the loop of `mhi_reset_data_chan`. -/
theorem resetTre_inv (h : Inv cfg k s) (hphase : (s.chan c).phase ≠ .stopped)
    (hlt : (s.chan c).head < (s.chan c).tail)
    (hcalls : ∀ q ∈ calls, (s.chan q.chan).phase ≠ .stopped) :
    ∃ hd, hd.buf = (oldest s c).cbBuf ∧ Inv cfg k (resetTre cfg s c calls) ∧
      Frame cfg (handedOver s c hd) (resetTre cfg s c calls) := by
  unfold resetTre
  dsimp only
  split
  · refine ⟨.freed (oldest s c).cbBuf, rfl, ?_⟩
    rw [uplinkDone_upd, uplinkDone_upd, MhiCntrl.upd_upd]
    exact ⟨(handedOver_inv h hphase hlt rfl).uplinkDone, frame_uplinkDone c (.refl cfg _)⟩
  · refine ⟨.xferCb ⟨(oldest s c).cbBuf, .enotconn, 0⟩, rfl, ?_⟩
    rw [xferCb, uplinkDone_upd, uplinkDone_upd, MhiCntrl.upd_upd]
    -- here the counts are given back before the client is called
    have hover : Inv cfg k (uplinkDone cfg
        (handedOver s c (.xferCb ⟨(oldest s c).cbBuf, .enotconn, 0⟩)) c) :=
      (handedOver_inv h hphase hlt rfl).uplinkDone
    have hframe := frame_uplinkDone c
      (Frame.refl cfg (handedOver s c (.xferCb ⟨(oldest s c).cbBuf, .enotconn, 0⟩)))
    obtain ⟨hinv, hframe'⟩ := mhiQueue_foldl_inv hover fun q hq ↦ by
      rw [hframe.phase, phase_handedOver]
      exact hcalls q hq
    exact ⟨hinv, hframe.trans hframe'⟩

end Steps

end Wwan.Mhi
