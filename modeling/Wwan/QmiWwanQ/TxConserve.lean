import Mathlib.Data.List.Forall2
import Wwan.Lib.Batch
import Wwan.QmiWwanQ.TxAgg

/-!
# Conservation of uplink packets in `qmi_wwan_q`

Packets are meant to be handed on in call order, none lost and none twice, and no
buffer with more datagrams than permitted. `rmnet_usb_tx_agg` copies a frame in
five places and detaches the pending buffer in three, and `agg_count` has to follow
`agg_skb` in all of them. This is stated as a refinement: every run of the driver
is matched by a `Batch` of frames, where `agg_skb` is the concatenation of the open
batch, `agg_count` its size, and each buffer handed to `dev_queue_xmit` one closed
batch.

A frame is compared with `ul_data_aggregation_max_size` when it joins a pending
buffer, but not when it is the first in a new one. A packet longer than the buffer
brings the kernel down there (`Overlong`), and this is the only way to lose one.
-/

namespace Wwan.QmiWwanQ

open Wwan.Kernel Wwan.Bytes

/-! ## Frames that do not fit -/

/-- The pass starts an aggregation buffer that the frame does not fit into. -/
structure Overlong (A : AllocSkb) (P : AggParams) (c : TxCall) (st : TxDev × ℕ) : Prop where
  none_pending : st.1.aggSkb = none
  waits : c.bypass P st = false
  tooLong : A.room st.1.maxSize < c.frame.length

/-- No pass of the step starts an aggregation buffer that its frame does not fit
into. -/
def StartsFit (A : AllocSkb) (P : AggParams) (s : TxState) : TxEvent → Prop
  | .call c => s.dev.limit ≠ 1 →
      ∀ st, Loop.Reaches (newPacket A P c) (s.dev, 0) st → ¬ Overlong A P c st
  | _ => True

/-! ## Refinement of batching -/

/-- The driver state matches a batch of frames. -/
structure Refines (A : AllocSkb) (dev : TxDev) (b : Batch (List UInt8)) : Prop where
  xmit : dev.xmit = b.closed.map fun g ↦ (g.1, g.2.flatten)
  aggSkb : dev.aggSkb.map TxBuf.data = if b.pending = [] then none else some b.pending.flatten
  aggCount : dev.aggCount = b.pending.length
  bounded : b.Bounded
  /-- The pending buffer may take one more datagram. -/
  room : b.pending.length < dev.limit
  /-- The pending buffer is one of `ul_data_aggregation_max_size`. -/
  size : ∀ buf, dev.aggSkb = some buf → buf.data.length + buf.tailroom = A.room dev.maxSize
  small : dev.pendingBytes.length < 2 ^ 31

namespace Refines

variable {A : AllocSkb} {dev : TxDev} {b : Batch (List UInt8)}

variable (h : Refines A dev b)

include h

/-- Without a pending buffer the open batch is empty. -/
theorem pending_eq_nil (hskb : dev.aggSkb = none) : b.pending = [] := by
  by_contra hne
  have haggSkb := h.aggSkb
  rw [hskb, if_neg hne] at haggSkb
  cases haggSkb

/-- A pending buffer is the concatenation of the open batch. -/
theorem pending_flatten {buf : TxBuf} (hskb : dev.aggSkb = some buf) :
    buf.data = b.pending.flatten := by
  have haggSkb := h.aggSkb
  rw [hskb] at haggSkb
  split at haggSkb
  · cases haggSkb
  · exact Option.some.inj haggSkb

/-- The pending bytes are the concatenation of the open batch. -/
theorem pendingBytes_eq : dev.pendingBytes = b.pending.flatten := by
  rw [TxDev.pendingBytes, h.aggSkb]
  split
  · rename_i hnil
    simp [hnil]
  · rfl

/-- Under a limit of one nothing is pending. -/
theorem aggSkb_eq_none (hone : dev.limit = 1) : dev.aggSkb = none := by
  have hnil : b.pending = [] :=
    List.length_eq_zero_iff.mp (Nat.lt_one_iff.mp (hone ▸ h.room))
  have haggSkb := h.aggSkb
  rw [if_pos hnil] at haggSkb
  exact Option.map_eq_none_iff.mp haggSkb

/-- A frame joins the open batch, when the limit is not reached by it. -/
theorem append {f : List UInt8} {buf : TxBuf}
    (hne : b.pending.length + 1 ≠ dev.limit) (hdata : buf.data = b.pending.flatten ++ f)
    (hsize : buf.data.length + buf.tailroom = A.room dev.maxSize)
    (hsmall : buf.data.length < 2 ^ 31) :
    Refines A { dev with aggSkb := some buf, aggCount := dev.aggCount + 1 } (b.push f) where
  xmit := h.xmit
  aggSkb := by simp [Batch.push, hdata]
  aggCount := by simp [Batch.push, h.aggCount]
  bounded := h.bounded.push f
  room := by
    have hroom := h.room
    have hlen : (b.push f).pending.length = b.pending.length + 1 := by simp [Batch.push]
    rw [hlen]
    exact Nat.lt_of_le_of_ne hroom hne
  size := by
    rintro buf' hbuf'
    obtain rfl := Option.some.inj hbuf'
    exact hsize
  small := hsmall

/-- The pending buffer is detached, with a last frame in it or not. -/
theorem detach (b' : Batch (List UInt8)) (now : Timespec64)
    (hclosed : b'.closed = b.closed) (hle : b'.pending.length ≤ dev.limit) :
    Refines A (dev.detach b'.pending.flatten now) (b'.flush dev.limit) where
  xmit := by simp [TxDev.detach, TxDev.devQueueXmit, Batch.flush, h.xmit, hclosed]
  aggSkb := by simp [TxDev.detach, Batch.flush]
  aggCount := by simp [TxDev.detach, Batch.flush]
  bounded := Batch.Bounded.flush (by rw [Batch.Bounded, hclosed]; exact h.bounded) hle
  room := Nat.zero_lt_of_lt h.room
  size := nofun
  small := by simp [TxDev.detach, TxDev.pendingBytes]

/-- The packet of a call goes out on its own while nothing is pending. -/
theorem xmitAlone (hskb : dev.aggSkb = none) (f : List UInt8) (now : Timespec64) (tailroom : ℕ) :
    Refines A { dev.xmitAlone (some ⟨f, tailroom⟩) with aggTime := now }
      ((b.push f).flush dev.limit) := by
  have hnil := h.pending_eq_nil hskb
  have hle : (b.push f).pending.length ≤ dev.limit := by
    rw [Batch.push, hnil]
    exact Nat.zero_lt_of_lt h.room
  have hcount : dev.aggCount = 0 := by simp [h.aggCount, hnil]
  have hdet := h.detach (b.push f) now rfl hle
  simpa [TxDev.detach, TxDev.xmitAlone, TxDev.devQueueXmit, Batch.push, hnil, hskb, hcount]
    using hdet

/-- A frame that passes the length check fits into the pending buffer. -/
theorem frame_fits {c : TxCall} {buf : TxBuf} (hskb : dev.aggSkb = some buf)
    (hmax : dev.maxSize ≤ A.max)
    (hlt : u32 (buf.data.length + c.skb.len + c.hdrData.length) < dev.maxSize) :
    c.frame.length ≤ buf.tailroom ∧ buf.data.length + c.frame.length < 2 ^ 31 := by
  have hframe := c.length_frame_le
  have hsmall := h.small
  have hlen := c.len_lt
  have hsize := h.size buf hskb
  have hroom := A.le_room dev.maxSize
  have hmaxlt := A.max_lt
  have hpend : dev.pendingBytes = buf.data := by simp [TxDev.pendingBytes, hskb]
  rw [hpend] at hsmall
  rw [TxCall.allocLen] at hframe
  have hwrap : u32 (buf.data.length + c.skb.len + c.hdrData.length) =
      buf.data.length + c.skb.len + c.hdrData.length := by
    have hfits : buf.data.length + c.skb.len + c.hdrData.length < 2 ^ 32 := by omega
    exact_mod_cast u32_natCast hfits
  rw [hwrap] at hlt
  omega

end Refines

/-! ## Passes and calls -/

/-- The ways a pass can go. -/
inductive PassCase (A : AllocSkb) (P : AggParams) (c : TxCall) (st : TxDev × ℕ)
    (b : Batch (List UInt8)) : Option TxDev ⊕ (TxDev × ℕ) → Prop
  | /-- The packet is consumed and its frame added to the batch. -/
    consumed {dev' : TxDev} {b' : Batch (List UInt8)} (hfits : ¬ Overlong A P c st)
      (h : Refines A dev' b') (hitems : b'.items = b.items ++ [c.frame]) :
      PassCase A P c st b (.inl (some dev'))
  | /-- The first frame of a buffer does not fit into it. -/
    panicked (h : Overlong A P c st) : PassCase A P c st b (.inl none)
  | /-- The pending buffer is handed on; the next pass finds none. -/
    retried {dev' : TxDev} {b' : Batch (List UInt8)} (hpending : st.1.aggSkb ≠ none)
      (hskb : dev'.aggSkb = none) (hctx : dev'.txCtx = st.1.txCtx) (h : Refines A dev' b')
      (hitems : b'.items = b.items) : PassCase A P c st b (.inr (dev', st.2 + 1))

/-- A pass that finds a pending buffer adds the frame to it or hands it on. -/
theorem newPacket_pending {A : AllocSkb} (P : AggParams) (c : TxCall) (st : TxDev × ℕ)
    {b : Batch (List UInt8)} {buf : TxBuf} (h : Refines A st.1 b) (hskb : st.1.aggSkb = some buf)
    (hmax : st.1.maxSize ≤ A.max) : PassCase A P c st b (newPacket A P c st) := by
  have hpending : st.1.aggSkb ≠ none := by simp [hskb]
  have hfits : ¬ Overlong A P c st := fun hover ↦ hpending hover.none_pending
  have hdata := h.pending_flatten hskb
  simp only [newPacket, hskb]
  split
  · rename_i hlt
    obtain ⟨hroom, hsmall⟩ := h.frame_fits hskb hmax hlt
    have hpush : (b.push c.frame).pending.flatten = buf.data ++ c.frame := by
      simp [Batch.push, hdata]
    have hcount : (b.push c.frame).pending.length = b.pending.length + 1 := by simp [Batch.push]
    rw [c.putFrame_eq, if_pos hroom, Option.map_some]
    split
    · refine .consumed hfits ?_ (by simp : ((b.push c.frame).flush st.1.limit).items = _)
      rw [← hpush]
      exact h.detach _ _ rfl (hcount ▸ h.room)
    · rename_i hready
      refine .consumed hfits (h.append (fun heq ↦ hready ?_) (by rw [hdata]) ?_ ?_) (by simp)
      · simp [h.aggCount, heq]
      · have hsize := h.size buf hskb
        rw [List.length_append]
        dsimp only
        omega
      · rwa [List.length_append]
  · refine .retried hpending rfl rfl ?_ (by simp : (b.flush st.1.limit).items = _)
    rw [hdata]
    exact h.detach b _ rfl (Nat.le_of_lt h.room)

/-- A pass that finds no pending buffer starts one or sends the packet on its own. -/
theorem newPacket_none {A : AllocSkb} (P : AggParams) (c : TxCall) (st : TxDev × ℕ)
    {b : Batch (List UInt8)} (h : Refines A st.1 b) (hskb : st.1.aggSkb = none)
    (hlim : st.1.limit ≠ 1) (halone : (A.alloc c.allocSkb c.allocLen).isSome)
    (hagg : (A.alloc c.allocAgg st.1.maxSize).isSome) :
    PassCase A P c st b (newPacket A P c st) := by
  have hnil := h.pending_eq_nil hskb
  simp only [newPacket, hskb]
  cases hbypass : c.bypass P st with
  | true =>
    obtain ⟨tailroom, hone⟩ := c.alone_eq halone
    have hfits : ¬ Overlong A P c st := fun hover ↦
      nomatch hbypass.symm.trans hover.waits
    simp only [if_true, hone, Option.map_some]
    exact .consumed hfits (h.xmitAlone hskb _ _ _) (by simp)
  | false =>
    simp only [AllocSkb.alloc_of_isSome hagg, c.putFrame_eq, Bool.false_eq_true, if_false]
    by_cases hroom : c.frame.length ≤ A.room st.1.maxSize
    · have hfits : ¬ Overlong A P c st := fun hover ↦
        absurd hover.tooLong (Nat.not_lt.mpr hroom)
      rw [if_pos hroom, Option.map_some]
      refine .consumed hfits (h.append ?_ (by rw [hnil]; rfl) ?_ ?_) (by simp)
      · rw [hnil]
        exact hlim.symm
      · rw [List.nil_append]
        dsimp only
        omega
      · exact Nat.lt_of_le_of_lt c.length_frame_le c.len_lt
    · rw [if_neg hroom]
      exact .panicked ⟨hskb, hbypass, Nat.not_le.mp hroom⟩

/-- The ways a call can go. -/
inductive CallCase (A : AllocSkb) (P : AggParams) (s : TxState) (c : TxCall)
    (b : Batch (List UInt8)) : Option TxDev → Prop
  | /-- The frame of the packet is added to the batch. -/
    queued {dev' : TxDev} {b' : Batch (List UInt8)} (hfits : StartsFit A P s (.call c))
      (h : Refines A dev' b') (hitems : b'.items = b.items ++ [c.frame]) :
      CallCase A P s c b (some dev')
  | /-- A pass panics. -/
    panicked {st : TxDev × ℕ} (hfits : ¬ StartsFit A P s (.call c)) (h : Overlong A P c st) :
      CallCase A P s c b none

/-- A call ends after at most two passes, by adding the frame of its packet or by a
panic. -/
theorem rmnetUsbTxAgg_case {A : AllocSkb} (P : AggParams) {s : TxState} {c : TxCall}
    {b : Batch (List UInt8)} (h : Refines A s.dev b) (hok : AllocOk A s (.call c)) :
    CallCase A P s c b (rmnetUsbTxAgg A P s.dev c) := by
  obtain ⟨halone, hagg⟩ := hok
  unfold rmnetUsbTxAgg
  split
  · -- the limit is one: nothing is ever pending, and the packet goes out on its own
    rename_i hone
    obtain ⟨tailroom, halone'⟩ := c.alone_eq halone
    rw [halone', Option.map_some]
    exact .queued (fun hlim ↦ absurd hone hlim)
      (h.xmitAlone (h.aggSkb_eq_none hone) _ s.dev.aggTime _) (by simp)
  · rename_i hlim
    have hagg := hagg hlim
    have hmax := (AllocSkb.isSome_alloc.mp hagg).2
    -- the first pass
    have hpass : PassCase A P c (s.dev, 0) b (newPacket A P c (s.dev, 0)) := by
      cases hskb : s.dev.aggSkb with
      | some buf => exact newPacket_pending P c (s.dev, 0) h hskb hmax
      | none => exact newPacket_none P c (s.dev, 0) h hskb hlim halone hagg
    generalize hrun : newPacket A P c (s.dev, 0) = r at hpass
    cases hpass with
    | consumed hfits h' hitems =>
      have hstarts : StartsFit A P s (.call c) := by
        intro _ st hst
        rcases hst.cases_head with rfl | ⟨u, hu, -⟩
        · exact hfits
        · cases hrun.symm.trans hu
      simpa [Loop.run, hrun] using CallCase.queued hstarts h' hitems
    | panicked hover =>
      have hstarts : ¬ StartsFit A P s (.call c) := fun hfit ↦ hfit hlim _ .refl hover
      simpa [Loop.run, hrun] using CallCase.panicked hstarts hover
    | @retried dev' b' hpending hskb hctx h' hitems =>
      -- the second pass finds no pending buffer
      have hlim' : dev'.limit ≠ 1 := by rwa [TxDev.limit, hctx]
      have hagg' : (A.alloc c.allocAgg dev'.maxSize).isSome := by rwa [TxDev.maxSize, hctx]
      have hpass' := newPacket_none P c (dev', 1) h' hskb hlim' halone hagg'
      generalize hrun' : newPacket A P c (dev', 1) = r' at hpass'
      cases hpass' with
      | consumed hfits h'' hitems' =>
        have hstarts : StartsFit A P s (.call c) := by
          intro _ st hst
          rcases hst.cases_head with rfl | ⟨u, hu, hst⟩
          · exact fun hover ↦ hpending hover.none_pending
          · obtain rfl := Sum.inr.inj (hrun.symm.trans hu)
            rcases hst.cases_head with rfl | ⟨u, hu, -⟩
            · exact hfits
            · cases hrun'.symm.trans hu
        simpa [Loop.run, hrun, hrun'] using
          CallCase.queued hstarts h'' (by rw [hitems', hitems])
      | panicked hover =>
        have hstarts : ¬ StartsFit A P s (.call c) := fun hfit ↦
          hfit hlim _ (Loop.Reaches.refl.tail hrun) hover
        simpa [Loop.run, hrun, hrun'] using CallCase.panicked hstarts hover
      | retried hpending' => exact absurd hskb hpending'

/-- The passes of a call leave the settings alone. -/
theorem reaches_txCtx {A : AllocSkb} {P : AggParams} {c : TxCall} {dev : TxDev} {st : TxDev × ℕ}
    (h : Loop.Reaches (newPacket A P c) (dev, 0) st) : st.1.txCtx = dev.txCtx := by
  induction h with
  | refl => rfl
  | @tail t u _ hb ih =>
    rw [← ih]
    cases hskb : t.1.aggSkb with
    | none =>
      simp only [newPacket, hskb] at hb
      split at hb <;> cases hb
    | some buf =>
      simp only [newPacket, hskb] at hb
      split at hb
      · cases hb
      · cases hb
        rfl

/-- Frames up to `ul_data_aggregation_max_size` always fit. -/
theorem startsFit_of_le {A : AllocSkb} (P : AggParams) {s : TxState} {c : TxCall}
    (h : c.frame.length ≤ s.dev.maxSize) : StartsFit A P s (.call c) := by
  intro _ st hst hover
  have hlong := hover.tooLong
  rw [TxDev.maxSize, reaches_txCtx hst] at hlong
  exact absurd (h.trans (A.le_room _)) (Nat.not_le.mpr hlong)

/-- A run of `rmnet_usb_tx_agg_work` adds nothing. -/
theorem rmnetUsbTxAggWork_refines {A : AllocSkb} {dev : TxDev} {b : Batch (List UInt8)}
    (h : Refines A dev b) (now : Timespec64) :
    ∃ b', Refines A (rmnetUsbTxAggWork dev now) b' ∧ b'.items = b.items := by
  unfold rmnetUsbTxAggWork
  cases hskb : dev.aggSkb with
  | none => exact ⟨b, h, rfl⟩
  | some buf =>
    dsimp only
    rw [h.pending_flatten hskb]
    exact ⟨b.flush dev.limit, h.detach b now rfl (Nat.le_of_lt h.room), by simp⟩

/-- Raising the limit leaves the batches alone: under a limit of one nothing is
pending. -/
theorem qmaSettingStore_refines {A : AllocSkb} {dev : TxDev} {b : Batch (List UInt8)}
    (h : Refines A dev b) (s : QmapSetting) (size : ℕ) :
    Refines A (qmaSettingStore dev s size) b := by
  unfold qmaSettingStore
  split
  · exact h
  · split
    · rename_i hraise
      have hnew : 1 < s.ulDataAggregationMaxDatagrams.toNat := hraise.2
      have hone : dev.limit = 1 := by rw [TxDev.limit, hraise.1]; rfl
      have hroom := h.room
      have hskb := h.aggSkb_eq_none hone
      exact
        { h with
          room := by simp only [TxDev.limit]; omega
          size := fun buf hbuf ↦ nomatch hskb.symm.trans hbuf }
    · exact h

/-! ## Conservation -/

/-- The frames of all calls are, in call order, those of the buffers handed to
`dev_queue_xmit` followed by those of the pending buffer: each buffer is the
concatenation of a group of consecutive frames, no larger than the datagram limit
in force when it was handed on. -/
structure Conserves (s : TxState) : Prop where
  bytes : (s.dev.xmit.map Prod.snd).flatten ++ s.dev.pendingBytes = s.queued.flatten
  limit : ∃ (groups : List (List (List UInt8))) (pending : List (List UInt8)),
    List.Forall₂ (fun sent g ↦ sent.2 = g.flatten ∧ g.length ≤ sent.1) s.dev.xmit groups ∧
      s.dev.pendingBytes = pending.flatten ∧ groups.flatten ++ pending = s.queued

theorem Refines.conserves {A : AllocSkb} {s : TxState} {b : Batch (List UInt8)}
    (h : Refines A s.dev b) (hitems : b.items = s.queued) : Conserves s := by
  have hqueued : (b.closed.map Prod.snd).flatten ++ b.pending = s.queued := hitems
  refine ⟨?_, b.closed.map Prod.snd, b.pending, ?_, h.pendingBytes_eq, hqueued⟩
  · rw [h.pendingBytes_eq, h.xmit, ← hqueued]
    simp [List.flatten_flatten, Function.comp_def]
  · rw [h.xmit, List.forall₂_map_left_iff, List.forall₂_map_right_iff, List.forall₂_same]
    exact fun g hg ↦ ⟨rfl, h.bounded g hg⟩

/-- A step that fits leads from matched states to matched states; one that does not
loses a packet. -/
theorem txSystem_step {A : AllocSkb} (P : AggParams) (start : Timespec64) {s : TxState}
    {e : TxEvent} {b : Batch (List UInt8)} (h : Refines A s.dev b) (hitems : b.items = s.queued)
    (hok : AllocOk A s e) :
    (StartsFit A P s e → ∃ b', Refines A ((txSystem A P start).next s e).dev b' ∧
        b'.items = ((txSystem A P start).next s e).queued) ∧
      (¬ StartsFit A P s e → ¬ Conserves ((txSystem A P start).next s e)) := by
  cases e with
  | call c =>
    have hcase := rmnetUsbTxAgg_case P h hok
    simp only [txSystem]
    generalize rmnetUsbTxAgg A P s.dev c = r at hcase
    cases hcase with
    | @queued dev' b' hfits h' hitems' =>
      exact ⟨fun _ ↦ ⟨b', h', by rw [hitems', hitems]⟩, fun hnot ↦ absurd hfits hnot⟩
    | panicked hfits hover =>
      refine ⟨fun hfit ↦ absurd hfit hfits, fun _ hcons ↦ ?_⟩
      -- The frame is among those queued, but its bytes are nowhere.
      have hbefore := congrArg List.length (h.conserves hitems).bytes
      have hafter := congrArg List.length hcons.bytes
      have hlong := hover.tooLong
      simp only [List.flatten_append, List.flatten_singleton, List.length_append]
        at hafter hbefore
      omega
  | work now =>
    obtain ⟨b', h', hitems'⟩ := rmnetUsbTxAggWork_refines h now
    exact ⟨fun _ ↦ ⟨b', h', hitems'.trans hitems⟩, fun hnot ↦ absurd trivial hnot⟩
  | setting q size =>
    exact ⟨fun _ ↦ ⟨b, qmaSettingStore_refines h q size, hitems⟩, fun hnot ↦ absurd trivial hnot⟩

/-- Every reached state is matched by a batch of the frames of all calls. -/
theorem txSystem_refines {A : AllocSkb} {P : AggParams} {start : Timespec64} {s : TxState}
    (hs : (txSystem A P start).Reach (fun s e ↦ AllocOk A s e ∧ StartsFit A P s e) s) :
    ∃ b, Refines A s.dev b ∧ b.items = s.queued := by
  refine hs.invariant (I := fun s ↦ ∃ b, Refines A s.dev b ∧ b.items = s.queued) ?_ ?_
  · refine ⟨.empty, ⟨rfl, rfl, rfl, ?_, ?_, nofun, ?_⟩, rfl⟩
    · simp [Batch.Bounded, Batch.empty]
    · show (0 : ℕ) < (1 : UInt32).toNat
      decide
    · simp [txSystem, TxDev.pendingBytes]
  · rintro s e ⟨b, hb, hitems⟩ - ⟨hok, hfits⟩
    exact (txSystem_step P start hb hitems hok).1 hfits

theorem le_cacheLines (size : ℕ) : size ≤ (size + 63) / 64 * 64 := by omega

/-- `KMALLOC_MAX_SIZE`. -/
def kmallocMaxSize : ℕ := 4194304

theorem kmallocMaxSize_lt : kmallocMaxSize < 2 ^ 31 := by decide

/-- Buffers of whole cache lines, up to `KMALLOC_MAX_SIZE`. -/
def cacheLines : AllocSkb where
  room size := (size + 63) / 64 * 64
  max := kmallocMaxSize
  le_room := le_cacheLines
  max_lt := kmallocMaxSize_lt

/-- The default parameters of the module. -/
def defaultParams : AggParams := ⟨1000000, 10000000⟩

/-- The uplink with the default parameters of the module. -/
def defaultTx : System TxState TxEvent := txSystem cacheLines defaultParams ⟨0, 0⟩

theorem burst_len_lt {data : List UInt8} (h : data.length ≤ 65535) :
    data.length + ([0, 0x81] ++ toBe16 data.length).length < 2 ^ 31 := by
  have hhdr : ([0, 0x81] ++ toBe16 data.length).length = 4 := rfl
  omega

/-- A call for a raw-IP packet, with more to come. -/
def burstCall (data : List UInt8) (h : data.length ≤ 65535) : TxCall :=
  { skb := { head := [], data := data, after := fun _ ↦ 0, tailroom := 0, protocol := ethPIp }
    hdrData := [0, 0x81] ++ toBe16 data.length
    ipOffset := 0
    xmitMore := true
    now := fun _ ↦ ⟨0, 500⟩
    allocAgg := true
    allocSkb := true
    ipOffset_le := Nat.zero_le _
    len_lt := burst_len_lt h }

/-- The limit is raised to two datagrams, then two packets are sent. -/
def pairEvents : List TxEvent :=
  [.setting ⟨32, 2, 4096, 0⟩ 32, .call (burstCall [0x45, 7] (by decide)),
    .call (burstCall [0x45, 8] (by decide))]

/-- The limit is raised to two datagrams in buffers of 704 bytes. -/
def raisedSys : TxState := defaultTx.exec defaultTx.init [.setting ⟨32, 2, 704, 0⟩ 32]

/-- A packet that does not fit into a buffer of 704 bytes is lost then. -/
theorem burst_lost {data : List UInt8} (h : data.length ≤ 65535) (hlong : 704 < data.length + 4)
    (hok : AllocOk cacheLines raisedSys (.call (burstCall data h))) :
    ¬ Conserves (defaultTx.next raisedSys (.call (burstCall data h))) := by
  have hreach : defaultTx.Reach
      (fun s e ↦ AllocOk cacheLines s e ∧ StartsFit cacheLines defaultParams s e) raisedSys :=
    System.Reach.init.exec ⟨rfl, ⟨trivial, trivial⟩, trivial⟩
  obtain ⟨b, hb, hitems⟩ := txSystem_refines hreach
  refine (txSystem_step _ _ hb hitems hok).2 fun hstarts ↦ ?_
  have hframe : (burstCall data h).frame.length = data.length + 4 := by
    simp [burstCall, TxCall.frame, txFrame, toBe16]
  exact hstarts (by decide) _ .refl ⟨rfl, rfl, hframe ▸ hlong⟩

end Wwan.QmiWwanQ
