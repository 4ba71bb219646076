import Wwan.Lib.Bytes
import Wwan.Mhi.MhiRing
import Wwan.Mhi.PmState

/-!
# Queueing, completing and resetting the buffers of an MHI channel

The state of the MHI core as far as the data path of its channels goes: for each
channel the transfer ring, which the device sees, and the buffer ring with the
host's own `mhi_buf_info` for every transfer descriptor; the event rings; and the
counts the controller keeps for power management. What is written into a transfer
descriptor is read by the device only and left out, and so are the doorbells.

The loops of `parse_xfer_event` and `mhi_reset_data_chan` are given by their bodies
(`xferTre`, `resetTre`), because both call the client in between, and the client may
queue buffers from its callback.

`accepted`, `handed`, `epoch`, `head`, `tail` and `reported` of a channel and `num` of a
buffer are histories; no function of the core reads them.
-/

namespace Wwan.Mhi

/-- `MHI_MAX_CHANNELS`. -/
def maxChan : ℕ := 128

/-! ## Configuration and state -/

/-- The direction of a channel that carries buffers. -/
inductive Dir
  | toDevice
  | fromDevice
  deriving DecidableEq

/-- `enum MHI_XFER_TYPE`, less the types that cannot queue. -/
inductive XferType
  | buffer
  | skb
  | dma
  | rscDma
  deriving DecidableEq

/-- `sizeof(struct mhi_tre)`. -/
def treSize : ℕ := 16

/-- `sizeof(struct mhi_buf_info)`. -/
def bufInfoSize : ℕ := 56

theorem treSize_pos : 0 < treSize := by decide

theorem bufInfoSize_pos : 0 < bufInfoSize := by decide

/-- What `of_parse_ch_cfg` and the layout of `mhi_ctrl_seg` fix for a channel. Both
rings have the same number of elements. -/
structure ChanCfg where
  /-- `tre_ring.elements` and `buf_ring.elements`. -/
  elements : ℕ
  /-- `dir`. -/
  dir : Dir
  /-- `xfer_type`. -/
  xferType : XferType
  /-- `pre_alloc`. -/
  preAlloc : Bool
  /-- `er_index`. -/
  erIndex : ℕ
  /-- `tre_ring.base`. -/
  treBase : ℕ
  /-- `tre_ring.iommu_base`. -/
  treIommuBase : ℕ
  /-- A ring holds one descriptor less than it has elements. -/
  two_le : 2 ≤ elements
  /-- Checked by `of_parse_ch_cfg`. -/
  preAlloc_dir : preAlloc = true → dir = .fromDevice
  /-- The transfer ring lies in the address space. -/
  tre_lt : treBase + treSize * elements < 2 ^ 64
  /-- The transfer ring lies in the address space of the device. -/
  iommu_lt : treIommuBase + treSize * elements < 2 ^ 64

/-- `struct mhi_buf_info`. -/
structure BufInfo where
  /-- `cb_buf`, the buffer as the client knows it. -/
  cbBuf : ℕ
  /-- `len`. -/
  len : ℕ
  /-- `wp`, the transfer descriptor. -/
  wp : ℕ
  /-- `used`, kept for RSC channels. -/
  used : Bool
  /-- `pre_mapped`. -/
  preMapped : Bool
  /-- The number of the descriptor since the start of the channel. -/
  num : ℕ
  deriving DecidableEq

/-- An element of the array `kzalloc` gives. -/
def BufInfo.zero : BufInfo := ⟨0, 0, 0, false, false, 0⟩

/-- `transaction_status` of a result. -/
inductive XferStatus
  | ok
  | eoverflow
  | enotconn
  deriving DecidableEq

/-- `struct mhi_result`. -/
structure MhiResult where
  /-- `buf_addr`. -/
  bufAddr : ℕ
  /-- `transaction_status`. -/
  status : XferStatus
  /-- `bytes_xferd`. -/
  bytesXferd : ℕ
  deriving DecidableEq

/-- How the core lets go of a buffer it had accepted. -/
inductive Handed
  | /-- `xfer_cb` is called with the result. -/
    xferCb (res : MhiResult)
  | /-- The reset of a pre-allocated channel frees it. -/
    freed (buf : ℕ)
  deriving DecidableEq

/-- The buffer that was let go. -/
def Handed.buf : Handed → ℕ
  | xferCb res => res.bufAddr
  | freed buf => buf

/-- Where a channel is between `__mhi_prepare_channel` and `__mhi_unprepare_channel`. -/
inductive Phase
  | /-- `MHI_CH_STATE_DISABLED`, the rings are not set up. -/
    stopped
  | /-- `MHI_CH_STATE_ENABLED`. -/
    enabled
  | /-- `ch_state` is no longer enabled, the reset command is under way. -/
    disabled
  | /-- The events are marked stale and `mhi_reset_data_chan` is in its loop. -/
    draining
  deriving DecidableEq

theorem Phase.enabled_ne_stopped : Phase.enabled ≠ .stopped := by decide

theorem Phase.enabled_ne_draining : Phase.enabled ≠ .draining := by decide

theorem Phase.disabled_ne_stopped : Phase.disabled ≠ .stopped := by decide

theorem Phase.draining_ne_stopped : Phase.draining ≠ .stopped := by decide

/-- The locals of `parse_xfer_event` in its loop. -/
structure Parsing where
  /-- `dev_rp`. -/
  devRp : ℕ
  /-- `result.transaction_status`. -/
  status : XferStatus
  /-- `xfer_len`. -/
  xferLen : ℕ
  /-- The number of descriptors completed when the loop is over. -/
  target : ℕ
  deriving DecidableEq

/-- `struct mhi_chan`. -/
structure MhiChan where
  /-- `tre_ring`. -/
  treRing : MhiRing
  /-- `buf_ring`. -/
  bufRing : MhiRing
  /-- The elements of `buf_ring`, by index. -/
  bufInfo : ℕ → BufInfo
  /-- `ch_state`, and how far a reset has come. -/
  phase : Phase
  /-- `parse_xfer_event`, if it is in its loop. -/
  parsing : Option Parsing
  /-- The buffers accepted so far. -/
  accepted : List ℕ
  /-- The buffers let go so far. -/
  handed : List Handed
  /-- The number of times the channel has been started. -/
  epoch : ℕ
  /-- Since the last start: the descriptors taken off the rings. -/
  head : ℕ
  /-- Since the last start: the descriptors put on the rings. -/
  tail : ℕ
  /-- Since the last start: the descriptors the device has reported. -/
  reported : ℕ

namespace MhiChan

/-- The buffers between the pointers of the rings, oldest first. -/
def inFlight (ch : MhiChan) : List BufInfo :=
  if ch.phase = .stopped then []
  else Ring.contents ch.bufInfo ch.treRing.elements (ch.bufRing.index ch.bufRing.rp) ch.treRing.inUse

/-- A write to `buf_ring->wp`. -/
def writeBufInfo (ch : MhiChan) (f : BufInfo → BufInfo) : MhiChan :=
  let i := ch.bufRing.index ch.bufRing.wp
  { ch with bufInfo := Function.update ch.bufInfo i (f (ch.bufInfo i)) }

/-- `mhi_add_ring_element` for both rings. -/
def addElements (ch : MhiChan) : MhiChan :=
  { ch with
    treRing := mhiAddRingElement ch.treRing
    bufRing := mhiAddRingElement ch.bufRing
    accepted := ch.accepted ++ [(ch.bufInfo (ch.bufRing.index ch.bufRing.wp)).cbBuf]
    tail := ch.tail + 1 }

/-- `mhi_del_ring_element` for both rings. -/
def delElements (ch : MhiChan) : MhiChan :=
  { ch with
    treRing := mhiDelRingElement ch.treRing
    bufRing := mhiDelRingElement ch.bufRing
    head := ch.head + 1 }

/-- `used` is cleared. -/
def free (ch : MhiChan) (i : ℕ) : MhiChan :=
  { ch with bufInfo := Function.update ch.bufInfo i { ch.bufInfo i with used := false } }

/-- The oldest descriptor is taken off the transfer ring, and `used` of an element is
cleared. -/
def rscDone (ch : MhiChan) (i : ℕ) : MhiChan :=
  { ch.free i with treRing := mhiDelRingElement ch.treRing, head := ch.head + 1 }

/-- The buffer is handed over. -/
def hand (ch : MhiChan) (h : Handed) : MhiChan := { ch with handed := ch.handed ++ [h] }

end MhiChan

/-- `struct mhi_tre`, as the device writes it into an event ring. -/
structure MhiTre where
  /-- `ptr`. -/
  ptr : ℕ
  /-- `dword[0]`. -/
  dword0 : ℕ
  /-- `dword[1]`. -/
  dword1 : ℕ
  deriving DecidableEq

namespace MhiTre

/-- `MHI_TRE_GET_EV_CODE`. -/
def evCode (e : MhiTre) : ℕ := e.dword0 / 2 ^ 24 % 256

/-- `MHI_TRE_GET_EV_LEN`. -/
def evLen (e : MhiTre) : ℕ := e.dword0 % 2 ^ 16

/-- `MHI_TRE_GET_EV_CHID`. -/
def evChid (e : MhiTre) : ℕ := e.dword1 / 2 ^ 24 % 256

/-- `MHI_TRE_GET_EV_TYPE`. -/
def evType (e : MhiTre) : ℕ := e.dword1 / 2 ^ 16 % 256

/-- `MHI_TRE_GET_EV_COOKIE`. -/
def evCookie (e : MhiTre) : ℕ := e.ptr % 2 ^ 32

/-- `MHI_TRE_EV_DWORD1`. -/
def evDword1 (chid type : ℕ) : ℕ := chid * 2 ^ 24 + type * 2 ^ 16

end MhiTre

/-- `MHI_PKT_TYPE_TX_EVENT`. -/
def txEvent : ℕ := 0x22

/-- `MHI_PKT_TYPE_RSC_TX_EVENT`. -/
def rscTxEvent : ℕ := 0x28

/-- `MHI_PKT_TYPE_STALE_EVENT`. -/
def staleEvent : ℕ := 0x49

/-- `MHI_EV_CC_EOT`. -/
def ccEot : ℕ := 0x2

/-- `MHI_EV_CC_OVERFLOW`. -/
def ccOverflow : ℕ := 0x3

/-- `MHI_EV_CC_EOB`. -/
def ccEob : ℕ := 0x4

/-- The codes of `parse_xfer_event` that complete descriptors. -/
def isCompletion (code : ℕ) : Bool := code = ccOverflow ∨ code = ccEob ∨ code = ccEot

/-- `result.transaction_status` for an event. -/
def MhiTre.evStatus (e : MhiTre) : XferStatus :=
  if e.evCode = ccOverflow then .eoverflow else .ok

/-- An element of an event ring, with the descriptor the device reports by it. -/
structure Event where
  /-- The element. -/
  tre : MhiTre
  /-- The `epoch` of the channel when the device wrote the element. -/
  epoch : ℕ
  /-- The number of the descriptor since the start of the channel. -/
  seq : ℕ
  deriving DecidableEq

/-- `struct mhi_controller`. -/
@[ext] structure MhiCntrl where
  /-- `mhi_chan`. -/
  chan : Fin maxChan → MhiChan
  /-- The unread elements of each event ring, oldest first. -/
  evRing : ℕ → List Event
  /-- `pm_state`. -/
  pmState : PmState
  /-- `pending_pkts`. -/
  pendingPkts : ℤ
  /-- `wake_get` less `wake_put`. -/
  wake : ℤ
  /-- `runtime_get` less `runtime_put`. -/
  runtime : ℤ

namespace MhiCntrl

/-- Change channel `c`. -/
def upd (s : MhiCntrl) (c : Fin maxChan) (f : MhiChan → MhiChan) : MhiCntrl :=
  { s with chan := Function.update s.chan c (f (s.chan c)) }

/-- `wake_get`. -/
def wakeGet (s : MhiCntrl) : MhiCntrl := { s with wake := s.wake + 1 }

/-- `wake_put`. -/
def wakePut (s : MhiCntrl) : MhiCntrl := { s with wake := s.wake - 1 }

/-- `runtime_get`. -/
def runtimeGet (s : MhiCntrl) : MhiCntrl := { s with runtime := s.runtime + 1 }

/-- `runtime_put`. -/
def runtimePut (s : MhiCntrl) : MhiCntrl := { s with runtime := s.runtime - 1 }

/-- `atomic_inc_return(&pending_pkts)`, and `runtime_get` for the first one. -/
def pendingInc (s : MhiCntrl) : MhiCntrl :=
  { s with
    pendingPkts := s.pendingPkts + 1
    runtime := if s.pendingPkts + 1 = 1 then s.runtime + 1 else s.runtime }

/-- `atomic_dec_return(&pending_pkts)`, and `runtime_put` for the last one. -/
def pendingDec (s : MhiCntrl) : MhiCntrl :=
  { s with
    pendingPkts := s.pendingPkts - 1
    runtime := if s.pendingPkts - 1 = 0 then s.runtime - 1 else s.runtime }

end MhiCntrl

/-! ## Queueing -/

/-- What a queue function returns. -/
inductive Ret
  | ok
  | enomem
  | eio
  deriving DecidableEq

section Queue

variable (cfg : Fin maxChan → ChanCfg) (s : MhiCntrl) (c : Fin maxChan) (buf len : ℕ)

/-- Whether a queue function asserts the wake signal for channel `c`. -/
def assertWake : Bool :=
  (cfg c).dir = .toDevice ∨ ((cfg c).dir = .fromDevice ∧ s.pmState ≠ .m0)

/-- A vote for a resume while the device is in M3 or on its way to it. -/
def runtimeKick : MhiCntrl :=
  if s.pmState.inSuspendState then s.runtimeGet.runtimePut else s

/-- `wake_get`, if the wake signal is to be asserted. -/
def wakeIf (wake : Bool) : MhiCntrl := if wake then s.wakeGet else s

/-- The end of `mhi_queue_skb` and `mhi_queue_dma`, once the buffer is written. -/
def submit (wake : Bool) : MhiCntrl :=
  let s := if (cfg c).dir = .toDevice then s.pendingInc else s
  let s := s.upd c MhiChan.addElements
  if (cfg c).dir = .fromDevice ∧ wake then s.wakePut else s

/-- `mhi_queue_skb`. `mapFails` is whether `map_single` returns `-ENOMEM`. -/
def mhiQueueSkb (mapFails : Bool) : Ret × MhiCntrl :=
  if mhiIsRingFull (s.chan c).treRing then (.enomem, s)
  else if s.pmState.inErrorState then (.eio, s)
  else
    let wake := assertWake cfg s c
    let s := wakeIf (runtimeKick s) wake
    let s := s.upd c fun ch ↦ ch.writeBufInfo fun i ↦
      { i with cbBuf := buf, wp := ch.treRing.wp, len := len, num := ch.tail }
    if mapFails then (.enomem, if wake then s.wakePut else s) else (.ok, submit cfg s c wake)

/-- `mhi_queue_dma`. The buffer comes mapped. -/
def mhiQueueDma : Ret × MhiCntrl :=
  if mhiIsRingFull (s.chan c).treRing then (.enomem, s)
  else if s.pmState.inErrorState then (.eio, s)
  else
    let wake := assertWake cfg s c
    let s := wakeIf (runtimeKick s) wake
    -- a `used` element is only warned about
    let s := s.upd c fun ch ↦ ch.writeBufInfo fun i ↦
      { i with preMapped := true, cbBuf := buf, wp := ch.treRing.wp, len := len, num := ch.tail,
               used := if (cfg c).xferType = .rscDma then true else i.used }
    (.ok, submit cfg s c wake)

/-- `mhi_gen_tre`. -/
def mhiGenTre (mapFails : Bool) : Ret × MhiCntrl :=
  let s := s.upd c fun ch ↦ ch.writeBufInfo fun i ↦
    { i with cbBuf := buf, wp := ch.treRing.wp, len := len, num := ch.tail }
  if mapFails then (.enomem, s) else (.ok, s.upd c MhiChan.addElements)

/-- `mhi_queue_buf`. The PM state is looked at before the ring. -/
def mhiQueueBuf (mapFails : Bool) : Ret × MhiCntrl :=
  if s.pmState.inErrorState then (.eio, s)
  else if mhiIsRingFull (s.chan c).treRing then (.enomem, s)
  else
    match mhiGenTre s c buf len mapFails with
    | (.ok, s) =>
      let wake := assertWake cfg s c
      let s := wakeIf (runtimeKick s) wake
      let s := if (cfg c).dir = .toDevice then s.pendingInc else s
      (.ok, if (cfg c).dir = .fromDevice ∧ wake then s.wakePut else s)
    | (ret, s) => (ret, s)

end Queue

/-- A call of one of the queue functions. -/
inductive QueueCall
  | skb (c : Fin maxChan) (buf len : ℕ) (mapFails : Bool)
  | dma (c : Fin maxChan) (buf len : ℕ)
  | buf (c : Fin maxChan) (buf len : ℕ) (mapFails : Bool)
  deriving DecidableEq

/-- The channel of a call. -/
def QueueCall.chan : QueueCall → Fin maxChan
  | skb c .. => c
  | dma c .. => c
  | buf c .. => c

/-- Whether the buffer of the call cannot be mapped. -/
def QueueCall.mapFails : QueueCall → Bool
  | skb _ _ _ m => m
  | dma .. => false
  | buf _ _ _ m => m

/-- Make a call. -/
def mhiQueue (cfg : Fin maxChan → ChanCfg) (s : MhiCntrl) : QueueCall → Ret × MhiCntrl
  | .skb c b len m => mhiQueueSkb cfg s c b len m
  | .dma c b len => mhiQueueDma cfg s c b len
  | .buf c b len m => mhiQueueBuf cfg s c b len m

/-! ## Completing and resetting -/

/-- `mhi_to_virtual`, in 64-bit arithmetic. -/
def mhiToVirtual (r : MhiRing) (addr : ℕ) : ℕ :=
  (((addr : ℤ) - r.iommuBase + r.base) % 2 ^ 64).toNat

/-- `dev_rp` of `parse_xfer_event`: the element after the one the event points at. -/
def devRpOf (r : MhiRing) (ptr : ℕ) : ℕ :=
  let devRp := (mhiToVirtual r ptr + treSize) % 2 ^ 64
  if r.base + r.len ≤ devRp then r.base else devRp

section Complete

variable (cfg : Fin maxChan → ChanCfg) (s : MhiCntrl) (c : Fin maxChan)

/-- `xfer_cb`: the buffer goes to the client, who makes `calls` before it returns. -/
def xferCb (res : MhiResult) (calls : List QueueCall) : MhiCntrl :=
  calls.foldl (fun s q ↦ (mhiQueue cfg s q).2) (s.upd c fun ch ↦ ch.hand (.xferCb res))

/-- The counts of an uplink buffer are given back. -/
def uplinkDone : MhiCntrl :=
  if (cfg c).dir = .toDevice then s.pendingDec.wakePut else s

/-- The body of the loop of `parse_xfer_event`. `calls` is what the client queues
from its callback, `mapFails` whether a pre-allocated buffer cannot be mapped again;
a buffer that cannot be queued again is freed. -/
def xferTre (status : XferStatus) (xferLen : ℕ) (calls : List QueueCall) (mapFails : Bool) :
    MhiCntrl :=
  let slot := (s.chan c).bufRing.index (s.chan c).bufRing.rp
  let res : MhiResult := ⟨((s.chan c).bufInfo slot).cbBuf, status, xferLen⟩
  let s := s.upd c MhiChan.delElements
  let s := xferCb cfg s c res calls
  let s := uplinkDone cfg s c
  if (cfg c).preAlloc then
    -- `buf_info` is read again after the callback
    let info := (s.chan c).bufInfo slot
    (mhiQueueBuf cfg s c info.cbBuf info.len mapFails).2
  else s

/-- The element of `buf_ring` that begins `cookie` bytes behind its base. -/
def MhiChan.elementAt (ch : MhiChan) (cookie : ℕ) : Option ℕ :=
  if cookie % bufInfoSize = 0 ∧ cookie / bufInfoSize < ch.bufRing.elements then
    some (cookie / bufInfoSize)
  else none

/-- `parse_rsc_event`. A bad cookie is only warned about; what is then read and written
is no element of the ring, and here nothing happens. The descriptor taken off the
transfer ring is the oldest one, whichever buffer was completed. -/
def parseRscEvent (e : MhiTre) (calls : List QueueCall) : MhiCntrl :=
  match (s.chan c).elementAt e.evCookie with
  | none => s
  | some i =>
    if (s.chan c).phase = .enabled then
      let s := xferCb cfg s c ⟨((s.chan c).bufInfo i).cbBuf, e.evStatus, e.evLen⟩ calls
      s.upd c fun ch ↦ ch.rscDone i
    else s

/-- The body of the loop of `mhi_reset_rsc_chan`, for element `i` of `buf_ring`. -/
def resetRscElement (i : ℕ) (calls : List QueueCall) : MhiCntrl :=
  let info := (s.chan c).bufInfo i
  if info.used then
    (xferCb cfg s c ⟨info.cbBuf, .enotconn, 0⟩ calls).upd c fun ch ↦ ch.free i
  else s

/-- The body of the loop of `mhi_reset_data_chan`. -/
def resetTre (calls : List QueueCall) : MhiCntrl :=
  let info := (s.chan c).bufInfo ((s.chan c).bufRing.index (s.chan c).bufRing.rp)
  let s := uplinkDone cfg s c
  let s := s.upd c MhiChan.delElements
  if (cfg c).preAlloc then s.upd c fun ch ↦ ch.hand (.freed info.cbBuf)
  else xferCb cfg s c ⟨info.cbBuf, .enotconn, 0⟩ calls

end Complete

end Wwan.Mhi
