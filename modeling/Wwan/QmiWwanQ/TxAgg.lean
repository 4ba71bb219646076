import Wwan.Lib.Transition
import Wwan.QmiWwanQ.Encode

/-!
# Uplink aggregation in `qmi_wwan_q`

`rmnet_usb_tx_agg` collects framed packets of one rmnet device in `agg_skb` and
hands the buffer to `dev_queue_xmit` when it is full, when it holds the permitted
number of datagrams, when it has waited too long or when a packet should not
wait; `rmnet_usb_tx_agg_work` does so when the timer fires. A packet that does not
fit into the pending buffer is retried after that buffer has been handed on
(`goto new_packet`).

Frames are copied with `skb_put`, which panics when the buffer has too little
tailroom. In a run, a call of `rmnet_usb_tx_agg` and a run of the work are one event
each.
-/

namespace Wwan.QmiWwanQ

open Wwan.Kernel Wwan.Bytes

/-! ## Buffers -/

/-- What is known of `alloc_skb`. -/
structure AllocSkb where
  /-- The tailroom of a buffer by the size asked for, which the kernel may round up. -/
  room : ℕ → ℕ
  /-- The largest size that can be had. -/
  max : ℕ
  /-- A buffer has at least the tailroom asked for. -/
  le_room : ∀ size, size ≤ room size
  /-- `kmalloc` stops far below 2 GiB. -/
  max_lt : max < 2 ^ 31

/-- A buffer frames are copied to. -/
structure TxBuf where
  /-- The bytes put so far. -/
  data : List UInt8
  /-- `skb_tailroom(skb)`. -/
  tailroom : ℕ
  deriving DecidableEq

/-- `alloc_skb`; `ok` is whether there is memory. -/
def AllocSkb.alloc (A : AllocSkb) (ok : Bool) (size : ℕ) : Option TxBuf :=
  if ok = true ∧ size ≤ A.max then some ⟨[], A.room size⟩ else none

/-- `memcpy(skb_put(skb, n), src, n)`; beyond the tailroom it is `skb_over_panic`. -/
def TxBuf.putData (buf : TxBuf) (src : List UInt8) : Option TxBuf :=
  if src.length ≤ buf.tailroom then some ⟨buf.data ++ src, buf.tailroom - src.length⟩ else none

/-! ## Clock -/

/-- `struct timespec64`. -/
structure Timespec64 where
  tvSec : ℤ
  tvNsec : ℤ
  deriving DecidableEq

/-- `timespec64_sub`, whose result is normalised to `0 ≤ tv_nsec < NSEC_PER_SEC`. -/
def Timespec64.sub (lhs rhs : Timespec64) : Timespec64 :=
  let nsec := lhs.tvNsec - rhs.tvNsec
  ⟨lhs.tvSec - rhs.tvSec + nsec / 1000000000, nsec % 1000000000⟩

/-- `diff.tv_sec > 0 || diff.tv_nsec > limit`. -/
def Timespec64.exceeds (diff : Timespec64) (limit : ℤ) : Bool :=
  0 < diff.tvSec || limit < diff.tvNsec

/-! ## The driver -/

/-- The module parameters of the aggregation. -/
structure AggParams where
  /-- `agg_time_limit`. -/
  aggTimeLimit : ℤ
  /-- `agg_bypass_time`. -/
  aggBypassTime : ℤ

/-- The state of the uplink of one rmnet device. `xmit` records what has been
handed to `dev_queue_xmit`, with the datagram limit in force at that moment. -/
structure TxDev where
  /-- `pQmapDev->tx_ctx`. -/
  txCtx : TxAggCtx
  /-- `priv->agg_skb`. -/
  aggSkb : Option TxBuf
  /-- `priv->agg_count`. -/
  aggCount : ℕ
  /-- `priv->agg_time`. -/
  aggTime : Timespec64
  /-- The buffers handed to `dev_queue_xmit`, oldest first. -/
  xmit : List (ℕ × List UInt8)

namespace TxDev

variable (dev : TxDev)

/-- The datagram limit in force. -/
def limit : ℕ := dev.txCtx.ulDataAggregationMaxDatagrams.toNat

/-- `ctx->ul_data_aggregation_max_size`. -/
def maxSize : ℕ := dev.txCtx.ulDataAggregationMaxSize.toNat

/-- The bytes of the pending buffer. -/
def pendingBytes : List UInt8 := (dev.aggSkb.map TxBuf.data).getD []

/-- `dev_queue_xmit` of a buffer with the given bytes. -/
def devQueueXmit (buf : List UInt8) : TxDev := { dev with xmit := dev.xmit ++ [(dev.limit, buf)] }

/-- The pending buffer, by now with the given bytes, is detached and handed on. -/
def detach (buf : List UInt8) (now : Timespec64) : TxDev :=
  { dev.devQueueXmit buf with aggSkb := none, aggCount := 0, aggTime := now }

/-- A buffer with one packet is handed on, if it could be had. -/
def xmitAlone : Option TxBuf → TxDev
  | none => dev
  | some buf => dev.devQueueXmit buf.data

end TxDev

/-- The arguments of a call of `rmnet_usb_tx_agg`, with what the kernel answers
during the call. -/
structure TxCall where
  /-- `skb`, padded. -/
  skb : SkBuff
  /-- The first `hdr_len` bytes of `hdr_data`. -/
  hdrData : List UInt8
  /-- `ip_offset`. -/
  ipOffset : ℕ
  /-- `netdev_xmit_more()`. -/
  xmitMore : Bool
  /-- The clock readings of the call. -/
  now : ℕ → Timespec64
  /-- Whether there is memory for an aggregation buffer. -/
  allocAgg : Bool
  /-- Whether there is memory for a buffer for this packet alone. -/
  allocSkb : Bool
  /-- A packet of an Ethernet device has its Ethernet header. -/
  ipOffset_le : ipOffset ≤ skb.len
  /-- A packet is shorter than 2 GiB, as every buffer is. -/
  len_lt : skb.len + hdrData.length < 2 ^ 31

namespace TxCall

variable (c : TxCall)

/-- The bytes the call contributes: header and IP packet. -/
def frame : List UInt8 := txFrame c.skb c.hdrData c.ipOffset

/-- `skb->len + hdr_len`. -/
def allocLen : ℕ := c.skb.len + c.hdrData.length

/-- Header and IP packet are put into a buffer, one after the other. -/
def putFrame (buf : TxBuf) : Option TxBuf :=
  (buf.putData c.hdrData).bind fun buf ↦ buf.putData (c.skb.data.drop c.ipOffset)

/-- The buffer for the packet alone, if there is memory for it. -/
def alone (A : AllocSkb) : Option (Option TxBuf) :=
  match A.alloc c.allocSkb c.allocLen with
  | none => some none
  | some buf => (c.putFrame buf).map some

end TxCall

/-- `rmnet_usb_tx_agg_skip`: packets that should not wait. -/
def rmnetUsbTxAggSkip (skb : SkBuff) (offset : ℕ) : Bool :=
  let psh (tcp : ℕ) : Bool := (skb.byte (tcp + 13)).toNat / 8 % 2 = 1
  if skb.protocol = ethPIp then
    let protocol := skb.byte (offset + 9)
    if protocol = 6 then psh (offset + 20)
    else protocol = 1
  else if skb.protocol = ethPIpv6 then
    let nexthdr := skb.byte (offset + 6)
    if nexthdr = 6 then psh (offset + 40)
    else if nexthdr = 58 then true
    else if nexthdr = 44 then skb.byte (offset + 40) = 58
    else false
  else false

/-- The test made when no more packets are announced: the offset skips the QMAP
headers, as `hdr_data` describes them. -/
def TxCall.skip (c : TxCall) : Bool :=
  !c.xmitMore &&
    rmnetUsbTxAggSkip c.skb (if (c.hdrData.getD 0 0).toNat / 64 % 2 = 1 then 8 else 4)

/-- Without a pending buffer: the packet is to go out at once. -/
def TxCall.bypass (c : TxCall) (P : AggParams) (st : TxDev × ℕ) : Bool :=
  ((c.now st.2).sub st.1.aggTime).exceeds P.aggBypassTime || c.skip

/-- One pass from `new_packet` to the end, on the driver and the number of passes
made so far. The pass leaves the loop when `skb` has been consumed, or by a
panic. -/
def newPacket (A : AllocSkb) (P : AggParams) (c : TxCall) (st : TxDev × ℕ) :
    Option TxDev ⊕ (TxDev × ℕ) :=
  let dev := st.1
  let now := c.now st.2
  match dev.aggSkb with
  | some buf =>
    if u32 (buf.data.length + c.skb.len + c.hdrData.length) < dev.maxSize then
      .inl <| (c.putFrame buf).map fun buf ↦
        if (now.sub dev.aggTime).exceeds P.aggTimeLimit || dev.aggCount + 1 = dev.limit ||
            c.skip then
          dev.detach buf.data now
        else { dev with aggSkb := some buf, aggCount := dev.aggCount + 1 }
    else
      -- the pending buffer goes out and the packet is tried again
      .inr (dev.detach buf.data now, st.2 + 1)
  | none =>
    match if c.bypass P st then none else A.alloc c.allocAgg dev.maxSize with
    | some buf =>
      .inl <| (c.putFrame buf).map fun buf ↦
        { dev with aggSkb := some buf, aggCount := dev.aggCount + 1 }
    | none => .inl <| (c.alone A).map fun buf ↦ { dev.xmitAlone buf with aggTime := now }

/-- `rmnet_usb_tx_agg`, `none` if it panics. Two passes are enough, see
`rmnetUsbTxAgg_case`. -/
def rmnetUsbTxAgg (A : AllocSkb) (P : AggParams) (dev : TxDev) (c : TxCall) : Option TxDev :=
  if dev.limit = 1 then (c.alone A).map dev.xmitAlone
  else (Loop.run (newPacket A P c) 2 (dev, 0)).join

/-- `rmnet_usb_tx_agg_work`. -/
def rmnetUsbTxAggWork (dev : TxDev) (now : Timespec64) : TxDev :=
  match dev.aggSkb with
  | none => dev
  | some buf => dev.detach buf.data now

/-- `QMAP_SETTING`, as far as `qma_setting_store` reads it. -/
structure QmapSetting where
  size : ℕ
  ulDataAggregationMaxDatagrams : UInt32
  ulDataAggregationMaxSize : UInt32
  dlMinimumPadding : UInt32

/-- `qma_setting_store`: the limit can be raised from one, once. -/
def qmaSettingStore (dev : TxDev) (s : QmapSetting) (size : ℕ) : TxDev :=
  if s.size ≠ size then dev
  else if dev.txCtx.ulDataAggregationMaxDatagrams = 1 ∧ 1 < s.ulDataAggregationMaxDatagrams then
    { dev with
      txCtx := ⟨s.ulDataAggregationMaxDatagrams, s.ulDataAggregationMaxSize, s.dlMinimumPadding⟩ }
  else dev

/-! ## Putting frames -/

theorem AllocSkb.isSome_alloc {A : AllocSkb} {ok : Bool} {size : ℕ} :
    (A.alloc ok size).isSome ↔ ok = true ∧ size ≤ A.max := by
  unfold alloc
  split <;> simp_all

theorem AllocSkb.alloc_of_isSome {A : AllocSkb} {ok : Bool} {size : ℕ}
    (h : (A.alloc ok size).isSome) : A.alloc ok size = some ⟨[], A.room size⟩ :=
  if_pos (isSome_alloc.mp h)

namespace TxCall

variable (c : TxCall)

theorem length_frame_le : c.frame.length ≤ c.allocLen := by
  have hlen : c.skb.len = c.skb.data.length := rfl
  simp only [frame, txFrame, allocLen, List.length_append, List.length_drop]
  omega

/-- Both parts of a frame can be put exactly when the whole fits. -/
theorem putFrame_eq (buf : TxBuf) : c.putFrame buf =
    if c.frame.length ≤ buf.tailroom then
      some ⟨buf.data ++ c.frame, buf.tailroom - c.frame.length⟩
    else none := by
  simp only [putFrame, TxBuf.putData, frame, txFrame, List.length_append]
  by_cases hhdr : c.hdrData.length ≤ buf.tailroom
  · rw [if_pos hhdr, Option.bind_some]
    dsimp only
    by_cases hall : c.hdrData.length + (c.skb.data.drop c.ipOffset).length ≤ buf.tailroom
    · rw [if_pos (Nat.le_sub_of_add_le' hall), if_pos hall, List.append_assoc, Nat.sub_sub]
    · rw [if_neg hall, if_neg]
      omega
  · rw [if_neg hhdr, if_neg, Option.bind_none]
    omega

/-- A buffer for the packet alone always has room for it. -/
theorem alone_eq {A : AllocSkb} (h : (A.alloc c.allocSkb c.allocLen).isSome) :
    ∃ tailroom, c.alone A = some (some ⟨c.frame, tailroom⟩) := by
  have hfits : c.frame.length ≤ A.room c.allocLen := c.length_frame_le.trans (A.le_room _)
  rw [alone, AllocSkb.alloc_of_isSome h]
  dsimp only
  rw [putFrame_eq, if_pos hfits]
  exact ⟨_, rfl⟩

end TxCall

/-! ## Runs -/

/-- What can happen to the uplink of a device. -/
inductive TxEvent
  | call (c : TxCall)
  | work (now : Timespec64)
  | setting (s : QmapSetting) (size : ℕ)

/-- The driver together with the frames of all calls so far, in call order. -/
structure TxState where
  dev : TxDev
  queued : List (List UInt8)
  /-- The kernel has come to `skb_over_panic` in the last call; `dev` is as before
  that call. -/
  panicked : Bool

/-- The uplink of one device, from its registration at time `start` on. -/
def txSystem (A : AllocSkb) (P : AggParams) (start : Timespec64) : System TxState TxEvent where
  init :=
    { dev := { txCtx := ⟨1, 1500, 0⟩, aggSkb := none, aggCount := 0, aggTime := start, xmit := [] }
      queued := []
      panicked := false }
  enabled s _ := s.panicked = false
  next s
    | .call c => match rmnetUsbTxAgg A P s.dev c with
      | some dev => { s with dev := dev, queued := s.queued ++ [c.frame] }
      | none => { s with queued := s.queued ++ [c.frame], panicked := true }
    | .work now => { s with dev := rmnetUsbTxAggWork s.dev now }
    | .setting q size => { s with dev := qmaSettingStore s.dev q size }

/-- Every `alloc_skb` the step may come to succeeds. -/
def AllocOk (A : AllocSkb) (s : TxState) : TxEvent → Prop
  | .call c => (A.alloc c.allocSkb c.allocLen).isSome ∧
      (s.dev.limit ≠ 1 → (A.alloc c.allocAgg s.dev.maxSize).isSome)
  | _ => True

end Wwan.QmiWwanQ
