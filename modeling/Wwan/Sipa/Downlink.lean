import Wwan.Lib.Transition
import Wwan.Sipa.SkbRecv

/-!
# The downlink of SIPA

The thread that fills the rings, the thread that receives messages of the modem, the hardware and
the poll handler of `sipa_dummy`. A step is one pass of a loop or one access to the FIFO, so that
the others can come in between any two of them. All that is done for `SMSG_TYPE_DONE` is one step:
`sipa_receiver_open_cmn_fifo` resets the FIFO, publishes and clears `need_fill_cnt` without a pause.
`sipa_prepare_free_node_init` runs before the threads are created, and belongs to the filling thread
here.

The hardware takes the descriptors of the rx ring in their order and returns them in this order.
Buffers are told apart by their `id`.
-/

namespace Wwan.Sipa

open Wwan Bytes

/-- `SIPA_DUMMY_IFACE_NUM`. -/
def sipaDummyIfaceNum : ℕ := 4

/-- Where the thread is that fills the rings. -/
inductive FillThread
  | /-- In the loop of `sipa_prepare_free_node_init`. -/
    preparing (i cnt : ℕ)
  | /-- In `wait_event_interruptible`. -/
    waiting
  | /-- In the loop of `fill_free_fifo`. -/
    filling (i cnt : ℕ)
  | /-- Before `set_rx_fifo_wr`. -/
    publishing (successCnt : ℕ)
  | /-- Before `need_fill_cnt` is looked at. -/
    counting (successCnt : ℕ)
  deriving DecidableEq

/-- Where `sipa_dummy_rx_poll_handler` is. -/
inductive RxPoll
  | idle
  | /-- In the loop of `sipa_dummy_rx`. -/
    receiving (budget skbCnt : ℕ)
  | /-- Before `sipa_nic_set_tx_fifo_rp`. -/
    setRp (pkts : ℕ)
  deriving DecidableEq

/-- The thread is in the loop of `sipa_prepare_free_node_init`. -/
def FillThread.isPreparing : FillThread → Bool
  | .preparing _ _ => true
  | _ => false

/-- The thread allocates a buffer for the preparation next. -/
def FillThread.needsBuffer : FillThread → Bool
  | .preparing i cnt => decide (i < cnt)
  | _ => false

/-- The entries that were added to `recv_array` and not yet subtracted from `need_fill_cnt`. -/
def FillThread.uncounted : FillThread → ℕ
  | .filling i _ => i
  | .publishing successCnt => successCnt
  | .counting successCnt => successCnt
  | _ => 0

/-- The descriptors that were passed to the driver and not yet given back. -/
def RxPoll.taken : RxPoll → ℕ
  | .idle => 0
  | .receiving _ skbCnt => skbCnt
  | .setRp pkts => pkts

/-- The downlink, with what has become of the buffers. -/
structure Downlink where
  receiver : SipaSkbReceiver
  fill : FillThread
  poll : RxPoll
  /-- The descriptors the hardware has taken and not returned. -/
  busy : List NodeDescriptionTag
  /-- What `__dev_alloc_skb` returned. -/
  allocated : List ℕ
  /-- What was passed to `napi_gro_receive`. -/
  handed : List (Option ℕ)
  /-- What was passed to `dev_kfree_skb_any`. -/
  freed : List (Option ℕ)

inductive DownlinkEvent
  | /-- A step of the thread that fills the rings, with the buffer it gets if it asks for one. -/
    fill (alloc : RecvAlloc)
  | /-- `SMSG_TYPE_DONE` is received. -/
    done
  | /-- The hardware takes a descriptor. -/
    fetch
  | /-- The hardware returns the first descriptor it has. -/
    complete (netId errCode : ℕ)
  | /-- A step of the poll handler, with its budget if it begins, and whether the device of the
    packet is there and not `DEV_OFF`. -/
    rx (budget : ℕ) (devOn : Bool)
  deriving DecidableEq

namespace Downlink

variable (s : Downlink)

/-- The entries of `recv_array`. -/
def entries : List SkbDmaAddrNode := s.receiver.recvArray.entries

/-- The descriptors that were published and not returned. -/
def published : List NodeDescriptionTag := s.busy ++ s.receiver.recvFifo.rxWindow

/-! ## Steps -/

/-- A buffer is added to the rings, or the allocation has failed. -/
def fillNode (i : ℕ) : RecvAlloc → Downlink × Bool
  | .noSkb => (s, false)
  | .mapError skb =>
    ({ s with allocated := s.allocated ++ [skb.id], freed := s.freed ++ [some skb.id] }, false)
  | .mapped skb dma =>
    ({ s with receiver := s.receiver.fillNode i skb dma, allocated := s.allocated ++ [skb.id] },
      true)

/-- A step of `sipa_prepare_free_node_init` or of `fill_recv_thread`. -/
def fillStep (alloc : RecvAlloc) : Downlink :=
  match s.fill with
  | .preparing i cnt =>
    if i < cnt then
      let (s, success) := s.fillNode i alloc
      { s with fill := if success then .preparing (i + 1) cnt else .waiting }
    else { s with fill := .waiting }
  | .waiting => { s with fill := .filling 0 s.receiver.needFillCnt.toNat }
  | .filling i cnt =>
    if i < cnt then
      let (s, success) := s.fillNode i alloc
      { s with fill := if success then .filling (i + 1) cnt else .publishing i }
    else { s with fill := .publishing i }
  | .publishing successCnt =>
    if successCnt ≠ 0 then
      { s with
        receiver :=
          { s.receiver with recvFifo := (s.receiver.recvFifo.setRxFifoWr successCnt).1 }
        fill := .counting successCnt }
    else { s with fill := .waiting }
  | .counting successCnt =>
    { s with
      receiver :=
        { s.receiver with
          needFillCnt :=
            if s.receiver.needFillCnt > 0 then s.receiver.needFillCnt - successCnt
            else s.receiver.needFillCnt }
      fill := .waiting }

/-- A descriptor is taken by the hardware. -/
def fetch : Downlink :=
  { s with
    receiver := { s.receiver with recvFifo := s.receiver.recvFifo.hwFetch }
    busy := s.busy ++ [s.receiver.recvFifo.hwNode] }

/-- A descriptor is returned. -/
def complete (netId errCode : ℕ) : Downlink :=
  match s.busy with
  | [] => s
  | node :: busy =>
    { s with
      receiver :=
        { s.receiver with
          recvFifo :=
            s.receiver.recvFifo.hwReturn { node with netId := netId, errCode := errCode } }
      busy := busy }

/-- A pass of the loop of `sipa_dummy_rx`. -/
def dummyRx (budget skbCnt : ℕ) (devOn : Bool) : Downlink :=
  let (receiver, result) := s.receiver.recvSkb skbCnt
  let s := { s with receiver := receiver }
  match result with
  | .noData | .received none _ => { s with poll := .setRp skbCnt }
  | .dropped skb => { s with freed := s.freed ++ [skb.map SkBuff.id], poll := .setRp skbCnt }
  | .received (some skb) netid =>
    if netid ≥ sipaDummyIfaceNum ∨ devOn = false then
      { s with freed := s.freed ++ [some skb.id], poll := .setRp (skbCnt + 1) }
    else { s with handed := s.handed ++ [some skb.id], poll := .receiving budget (skbCnt + 1) }

/-- A step of `sipa_dummy_rx_poll_handler`. -/
def rxStep (budget : ℕ) (devOn : Bool) : Downlink :=
  match s.poll with
  | .idle =>
    let num := s.receiver.getFilledNum
    if num = 0 then s else { s with poll := .receiving (min num budget) 0 }
  | .receiving budget skbCnt =>
    if skbCnt < budget then s.dummyRx budget skbCnt devOn else { s with poll := .setRp skbCnt }
  | .setRp pkts =>
    { s with
      receiver := if pkts > 0 then s.receiver.setTxFifoRp pkts else s.receiver
      poll := .idle }

/-- A buffer is one that was not allocated before, and its address is not 0 and has 40 bits. -/
def Fresh : RecvAlloc → Prop
  | .noSkb => True
  | .mapError skb => skb.id ∉ s.allocated
  | .mapped skb dma =>
    skb.id ∉ s.allocated ∧ 0 < SipaCore.deviceAddr dma ∧ SipaCore.deviceAddr dma < 2 ^ 40

/-- The channel is created after `sipa_prepare_free_node_init`, and the hardware returns a
descriptor when there is room for it. -/
def Enabled : DownlinkEvent → Prop
  | .fill alloc => (s.fill = .waiting → s.receiver.needFillCnt > 0) ∧ s.Fresh alloc
  | .done => ∀ i cnt, s.fill ≠ .preparing i cnt
  | .fetch => s.receiver.recvFifo.regs.rxRptr ≠ s.receiver.recvFifo.regs.rxWptr
  | .complete _ _ =>
    s.busy ≠ [] ∧ s.receiver.recvFifo.txWindow.length < s.receiver.recvFifo.txFifo.depth
  | .rx _ _ => True

/-- The state after a step. -/
def next : DownlinkEvent → Downlink
  | .fill alloc => s.fillStep alloc
  | .done => { s with receiver := s.receiver.smsgDone }
  | .fetch => s.fetch
  | .complete netId errCode => s.complete netId errCode
  | .rx budget devOn => s.rxStep budget devOn

/-- A receiver before `sipa_prepare_free_node_init`. -/
def init (depth cur dst : ℕ) : Downlink where
  receiver := .create depth cur dst
  fill := .preparing 0 depth
  poll := .idle
  busy := []
  allocated := []
  handed := []
  freed := []

/-- All orders of steps. -/
def system (depth cur dst : ℕ) : System Downlink DownlinkEvent where
  init := init depth cur dst
  enabled := Enabled
  next := next

/-! ## What is required -/

/-- The buffer of an entry. -/
def idOf (entry : SkbDmaAddrNode) : Option ℕ := entry.skb.map SkBuff.id

/-- Every descriptor the hardware may use has a buffer of its own. -/
structure Owned (depth : ℕ) (s : Downlink) : Prop where
  /-- Each descriptor that was published has an entry of its own in `recv_array`. -/
  published : ∃ owners : List SkbDmaAddrNode, owners.Sublist s.entries ∧
    owners.map SkbDmaAddrNode.dmaAddr = s.published.map NodeDescriptionTag.address
  /-- The buffer of an entry was allocated, and neither handed to the stack nor freed. -/
  live : ∀ entry ∈ s.entries, ∃ id ∈ s.allocated, idOf entry = some id ∧
    some id ∉ s.handed ∧ some id ∉ s.freed
  /-- Once the rings were prepared, `need_fill_cnt` is what is missing in `recv_array`. -/
  counted : (∀ i cnt, s.fill ≠ .preparing i cnt) →
    s.entries.length + s.receiver.needFillCnt = depth + s.fill.uncounted
  /-- Each buffer is in `recv_array`, or was handed to the stack or freed once. -/
  once : (s.entries.map idOf ++ s.handed ++ s.freed).Perm (s.allocated.map some) ∧
    s.allocated.Nodup

/-- `sipa_prepare_free_node_init` gets all its buffers, and `SMSG_TYPE_DONE` finds the FIFO closed,
or full with nothing missing. -/
def Ready (s : Downlink) : DownlinkEvent → Prop
  | .fill alloc =>
    ∀ i cnt, s.fill = .preparing i cnt → i < cnt → ∃ skb dma, alloc = .mapped skb dma
  | .done => s.receiver.state = false ∨
    s.receiver.needFillCnt = 0 ∧
      s.receiver.recvFifo.rxWindow.length = s.receiver.recvFifo.rxFifo.depth
  | _ => True

end Downlink

end Wwan.Sipa
