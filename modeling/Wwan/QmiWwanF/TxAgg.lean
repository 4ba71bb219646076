import Wwan.QmiWwanQ.TxAgg

/-!
# Uplink aggregation in `qmi_wwan_f` and GobiNet

The two drivers have the same `rmnet_usb_tx_agg`. A packet comes with its header in front; it is
copied to `agg_skb`, or goes to `dev_queue_xmit` as it is. Only what is done to `agg_skb` is done
under `agg_lock`. The limits are read without a lock, each where it is needed, and a detached
buffer is handed to `dev_queue_xmit` after the lock has been given back. So a call is a thread
here, in steps between which `rmnet_usb_tx_agg_work` and changes of the limits may come.

Where the limits come from is all that differs between the two (`TxDriver`).
-/

namespace Wwan.QmiWwanF

open Wwan.Kernel Wwan.Bytes
open Wwan.QmiWwanQ (AllocSkb AggParams Timespec64 TxAggCtx)

/-! ## Buffers -/

/-- A buffer that frames are copied to. -/
structure AggBuf where
  /-- The bytes put so far. -/
  data : List UInt8
  /-- The size it was allocated with. -/
  size : ℕ
  /-- `skb_tailroom(skb)`. -/
  tailroom : ℕ
  /-- There is at least the room that was asked for. -/
  size_le : size ≤ data.length + tailroom
  deriving DecidableEq

theorem alloc_size_le (A : AllocSkb) (size : ℕ) :
    size ≤ ([] : List UInt8).length + A.room size := by
  simpa using A.le_room size

/-- `alloc_skb`; `ok` is whether there is memory. -/
def allocSkb (A : AllocSkb) (ok : Bool) (size : ℕ) : Option AggBuf :=
  if ok = true ∧ size ≤ A.max then some ⟨[], size, A.room size, alloc_size_le A size⟩ else none

theorem exists_allocSkb {A : AllocSkb} {ok : Bool} {size : ℕ} (h : ok = true ∧ size ≤ A.max) :
    ∃ buf, allocSkb A ok size = some buf ∧ buf.data = [] ∧ buf.size = size :=
  ⟨_, if_pos h, rfl, rfl⟩

namespace AggBuf

theorem put_size_le (buf : AggBuf) {src : List UInt8} (h : src.length ≤ buf.tailroom) :
    buf.size ≤ (buf.data ++ src).length + (buf.tailroom - src.length) := by
  have hsize := buf.size_le
  rw [List.length_append]
  omega

/-- `memcpy(skb_put(skb, n), src, n)`; beyond the tailroom it is `skb_over_panic`. -/
def put (buf : AggBuf) (src : List UInt8) : Option AggBuf :=
  if h : src.length ≤ buf.tailroom then
    some ⟨buf.data ++ src, buf.size, buf.tailroom - src.length, buf.put_size_le h⟩
  else none

/-- A frame that fits into the size asked for can be put. -/
theorem exists_put {buf : AggBuf} {src : List UInt8} (h : buf.data.length + src.length ≤ buf.size) :
    ∃ buf', buf.put src = some buf' ∧ buf'.data = buf.data ++ src ∧ buf'.size = buf.size := by
  have hsize := buf.size_le
  have hroom : src.length ≤ buf.tailroom := by omega
  exact ⟨_, dif_pos hroom, rfl, rfl⟩

end AggBuf

/-- What is handed to `dev_queue_xmit`. -/
structure Sent where
  /-- `ul_data_aggregation_max_datagrams` when the buffer was closed. -/
  limit : ℕ
  data : List UInt8
  /-- The size the buffer was allocated with; a packet's own buffer has the size of the packet. -/
  size : ℕ
  deriving DecidableEq

/-- An aggregation buffer, detached. -/
def AggBuf.sent (limit : ℕ) (buf : AggBuf) : Sent := ⟨limit, buf.data, buf.size⟩

/-! ## `rmnet_usb_tx_agg` -/

/-- The limits as a call reads them. -/
structure AggLimits where
  /-- `ul_data_aggregation_max_datagrams`. -/
  maxDatagrams : ℕ
  /-- `ul_data_aggregation_max_size`. -/
  maxSize : ℕ

/-- `ctx->ul_data_aggregation_max_datagrams` and `ctx->ul_data_aggregation_max_size`. -/
def limitsOf (ctx : TxAggCtx) : AggLimits :=
  ⟨ctx.ulDataAggregationMaxDatagrams.toNat, ctx.ulDataAggregationMaxSize.toNat⟩

/-- The aggregation state of one rmnet device, in `struct qmap_priv`. -/
structure Uplink where
  /-- `priv->agg_skb`. -/
  aggSkb : Option AggBuf
  /-- `priv->agg_count`. -/
  aggCount : ℕ
  /-- `priv->agg_time`. -/
  aggTime : Timespec64

/-- `agg_skb` is taken out. -/
def Uplink.detach (now : Timespec64) : Uplink := ⟨none, 0, now⟩

/-- `agg_skb` is now `buf`, which holds one more frame. -/
def Uplink.count (up : Uplink) (buf : AggBuf) : Uplink :=
  { up with aggSkb := some buf, aggCount := up.aggCount + 1 }

/-- A call of `rmnet_usb_tx_agg`: the framed packet, and what the kernel answers during the call. -/
structure TxCall where
  skb : SkBuff
  /-- `netdev_xmit_more()`. -/
  xmitMore : Bool
  /-- The clock reading of each pass. -/
  now : ℕ → Timespec64
  /-- Whether there is memory for an aggregation buffer. -/
  allocAgg : Bool

/-- The frame of a call. -/
def TxCall.frame (c : TxCall) : List UInt8 := c.skb.data

/-- The packet in its own buffer. -/
def TxCall.sent (limit : ℕ) (c : TxCall) : Sent := ⟨limit, c.frame, c.frame.length⟩

/-- The test made when no more packets are announced; the offset skips the map headers. -/
def TxCall.skip (c : TxCall) : Bool :=
  !c.xmitMore &&
    QmiWwanQ.rmnetUsbTxAggSkip c.skb (if (c.skb.byte 0).toNat / 64 % 2 = 1 then 8 else 4)

/-- Where a call is. -/
inductive TxPc
  | /-- No call is in progress. -/
    idle
  | /-- At the comparison of the datagram limit with one. -/
    entered (c : TxCall)
  | /-- At `new_packet`, after `n` passes. -/
    newPacket (c : TxCall) (n : ℕ)
  | /-- Behind the copy to a buffer that was pending, with `agg_lock` held. -/
    copied (c : TxCall) (n : ℕ)
  | /-- Before `dev_queue_xmit`; afterwards the packet, if it is still there, is tried again. -/
    handOn (sent : Sent) (rest : Option (TxCall × ℕ))

namespace TxPc

/-- A call is in progress. -/
def busy : TxPc → Bool
  | idle => false
  | _ => true

/-- The call holds `agg_lock`. -/
def locked : TxPc → Bool
  | copied _ _ => true
  | _ => false

theorem eq_idle {pc : TxPc} (h : pc.busy = false) : pc = idle := by
  cases pc <;> first | rfl | cases h

end TxPc

/-- A packet that finds no pending buffer goes out at once. -/
def bypass (P : AggParams) (up : Uplink) (c : TxCall) (n : ℕ) : Bool :=
  ((c.now n).sub up.aggTime).exceeds P.aggBypassTime || c.skip

/-- The part of a pass up to the copy, and to the end of the pass where nothing is read behind it;
`none` is a panic. -/
def newPacket (A : AllocSkb) (P : AggParams) (L : AggLimits) (up : Uplink) (c : TxCall) (n : ℕ) :
    Option (Uplink × TxPc) :=
  match up.aggSkb with
  | some buf =>
    if u32 (buf.data.length + c.skb.len) < L.maxSize then
      (buf.put c.frame).map fun buf ↦ (up.count buf, .copied c n)
    else
      -- the pending buffer goes out and the packet is tried again
      some (.detach (c.now n), .handOn (buf.sent L.maxDatagrams) (some (c, n + 1)))
  | none =>
    match if bypass P up c n then none else allocSkb A c.allocAgg L.maxSize with
    | some buf => (buf.put c.frame).map fun buf ↦ (up.count buf, .idle)
    | none => some ({ up with aggTime := c.now n }, .handOn (c.sent L.maxDatagrams) none)

/-- The part of a pass behind the copy to a pending buffer. -/
def afterCopy (P : AggParams) (L : AggLimits) (up : Uplink) (c : TxCall) (n : ℕ) :
    Uplink × TxPc :=
  match up.aggSkb with
  | some buf =>
    if ((c.now n).sub up.aggTime).exceeds P.aggTimeLimit || up.aggCount = L.maxDatagrams ||
        c.skip then
      (.detach (c.now n), .handOn (buf.sent L.maxDatagrams) none)
    else (up, .idle)
  | none => (up, .idle)

/-- The packet, if it has not been consumed, is tried again. -/
def TxPc.retry : Option (TxCall × ℕ) → TxPc
  | none => .idle
  | some (c, n) => .newPacket c n

/-! ## Framing -/

/-- The framing of a packet by `qmap_start_xmit` and `rmnet_vnd_start_xmit`: `add_qhdr` and
`add_qhdr_v5` put the header in front. Packets of other versions are freed. -/
def startXmitSkb (qmapVersion : ℕ) (muxId : UInt8) (skb : SkBuff) : Option SkBuff :=
  if qmapVersion = 5 then some (QmiWwanQ.addQhdr skb muxId false 0).1
  else if qmapVersion = 9 then some (QmiWwanQ.addQhdrV5 skb muxId false 0).1
  else none

/-- A packet without an Ethernet header, as `start_xmit` gets it. -/
structure TxPacket where
  skb : SkBuff
  xmitMore : Bool
  now : ℕ → Timespec64
  allocAgg : Bool
  /-- There is headroom for the map headers. -/
  headroom : 8 ≤ skb.head.length

/-- The call of `rmnet_usb_tx_agg` for a packet, if it is not freed. -/
def TxPacket.call (qmapVersion : ℕ) (muxId : UInt8) (p : TxPacket) : Option TxCall :=
  (startXmitSkb qmapVersion muxId p.skb).map fun skb ↦ ⟨skb, p.xmitMore, p.now, p.allocAgg⟩

/-! ## Runs -/

/-- Where a driver has the limits from. -/
structure TxDriver (κ ε : Type*) where
  /-- The settings of the driver when the device is registered. -/
  start : κ
  /-- The limits that a call reads. -/
  limits : κ → AggLimits
  /-- `dev->mtu`. -/
  mtu : κ → ℕ
  /-- The changes that may come. -/
  enabled : κ → ε → Prop
  next : κ → ε → κ
  one_le_start : 1 ≤ (limits start).maxDatagrams
  /-- The datagram limit is never lowered. -/
  limit_le : ∀ k e, (limits k).maxDatagrams ≤ (limits (next k e)).maxDatagrams

/-- What stays as it is during a run. -/
structure TxPort where
  alloc : AllocSkb
  params : AggParams
  /-- `priv->qmap_version`. -/
  qmapVersion : ℕ
  /-- `priv->mux_id`. -/
  muxId : UInt8
  /-- When the device is registered. -/
  start : Timespec64

/-- The uplink of one rmnet device. -/
structure TxState (κ : Type*) where
  settings : κ
  up : Uplink
  pc : TxPc
  /-- The buffer that `rmnet_usb_tx_agg_work` has detached and not yet handed on. -/
  work : Option Sent
  /-- What has been handed to `dev_queue_xmit`, oldest first. -/
  xmit : List Sent
  /-- The frames of all calls, in call order. -/
  queued : List (List UInt8)
  /-- The kernel has come to `skb_over_panic`. -/
  panicked : Bool

/-- What can happen. -/
inductive TxEvent (ε : Type*)
  | setting (e : ε)
  | startXmit (p : TxPacket)
  | /-- The call in progress makes a step. -/
    step
  | /-- `rmnet_usb_tx_agg_work` takes the pending buffer. -/
    work (now : Timespec64)
  | /-- `rmnet_usb_tx_agg_work` hands it on. -/
    workXmit

variable {κ ε : Type*}

/-- A step of the call in progress. -/
def TxState.step (V : TxPort) (L : AggLimits) (s : TxState κ) : TxState κ :=
  match s.pc with
  | .idle => s
  | .entered c =>
    { s with
      pc := if L.maxDatagrams = 1 then .handOn (c.sent L.maxDatagrams) none else .newPacket c 0 }
  | .newPacket c n =>
    match newPacket V.alloc V.params L s.up c n with
    | some (up, pc) => { s with up := up, pc := pc }
    | none => { s with panicked := true }
  | .copied c n =>
    { s with up := (afterCopy V.params L s.up c n).1, pc := (afterCopy V.params L s.up c n).2 }
  | .handOn sent rest => { s with xmit := s.xmit ++ [sent], pc := .retry rest }

/-- `rmnet_usb_tx_agg_work` up to the end of the locked part. -/
def TxState.workDetach (L : AggLimits) (s : TxState κ) (now : Timespec64) : TxState κ :=
  match s.up.aggSkb with
  | none => s
  | some buf => { s with up := .detach now, work := some (buf.sent L.maxDatagrams) }

/-- The uplink of one device of a driver. The transmit lock of the device admits one call at a
time, and the work is not run twice at a time. -/
def txSystem (V : TxPort) (D : TxDriver κ ε) : System (TxState κ) (TxEvent ε) where
  init := ⟨D.start, .detach V.start, .idle, none, [], [], false⟩
  enabled s
    | .setting e => s.panicked = false ∧ D.enabled s.settings e
    | .startXmit p => s.panicked = false ∧ s.pc.busy = false ∧ p.skb.len ≤ D.mtu s.settings
    | .step => s.panicked = false ∧ s.pc.busy = true
    | .work _ => s.panicked = false ∧ s.work = none ∧ s.pc.locked = false
    | .workXmit => s.panicked = false ∧ s.work.isSome = true
  next s
    | .setting e => { s with settings := D.next s.settings e }
    | .startXmit p => match p.call V.qmapVersion V.muxId with
      | none => s
      | some c => { s with pc := .entered c, queued := s.queued ++ [c.frame] }
    | .step => s.step V (D.limits s.settings)
    | .work now => s.workDetach (D.limits s.settings) now
    | .workXmit => { s with xmit := s.xmit ++ s.work.toList, work := none }

end Wwan.QmiWwanF
