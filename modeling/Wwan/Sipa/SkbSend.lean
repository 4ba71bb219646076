import Wwan.Lib.PopFirst
import Wwan.Sipa.CommonFifo

/-!
# The sender of SIPA

`sipa_skb_sender_send_data` hands a buffer to the hardware and remembers it in an entry of
`pair_cache`, which moves from `pair_free_list` to `sending_list`. A thread takes the addresses the
hardware returns, moves their entries back and frees their buffers. `left_cnt` is what may still be
sent. When nothing more can be sent the devices are told to stop their queues, and to wake them
later.

Two locks are taken: `send_lock` around all use of the lists, and `nic_lock` inside it around the
list of devices. Who spins on a lock that nobody releases does not return.
-/

namespace Wwan.Sipa

open Wwan Bytes

/-- `-EAGAIN`. -/
def eagain : ℤ := -11

/-- `-EINPROGRESS`. -/
def einprogress : ℤ := -115

/-- A `struct sk_buff`, and what the sender reads of it. -/
structure SkBuff where
  /-- Which buffer it is. -/
  id : ℕ
  len : ℕ
  /-- `skb_headroom(skb)`. -/
  headroom : ℕ
  deriving DecidableEq

/-- `struct sipa_skb_dma_addr_node`, without its place on a list. -/
structure SkbDmaAddrNode where
  /-- NULL before the first use. -/
  skb : Option SkBuff
  dmaAddr : ℕ
  deriving DecidableEq

/-- What the sender does with a `sipa_evt_type`. -/
inductive SipaEvtType
  | enterFlowctrl
  | leaveFlowctrl
  deriving DecidableEq

/-- What `flow_ctrl_status` is after the event. -/
def SipaEvtType.enters : SipaEvtType → Bool
  | .enterFlowctrl => true
  | .leaveFlowctrl => false

/-- `struct sipa_nic`, and the queue of its network device. -/
structure SipaNic where
  /-- `status` is `NIC_OPEN`. -/
  isOpen : Bool
  flowCtrlStatus : Bool
  /-- The queue is stopped. -/
  queueStopped : Bool
  deriving DecidableEq

/-- `struct sipa_skb_sender`. -/
structure SipaSkbSender where
  leftCnt : ℕ
  /-- `nic_lock` is held. -/
  nicLock : Bool
  /-- `send_lock` is held by someone who does not release it. -/
  sendLock : Bool
  /-- `nic_list`, by places in `ctrl->nic`. -/
  nicList : List ℕ
  /-- `sending_list`, by places in `pair_cache`. -/
  sendingList : List ℕ
  /-- `pair_free_list`, by places in `pair_cache`. -/
  pairFreeList : List ℕ
  pairCache : ℕ → SkbDmaAddrNode
  freeNotifyNet : Bool
  epCoverNet : Bool

/-- `struct sipa_core`, as far as it is used for sending. -/
structure SipaCore where
  /-- `ep->send_fifo`. -/
  sendFifo : CmnFifoCfgTag
  remoteReady : Bool
  nic : ℕ → Option SipaNic
  sender : SipaSkbSender

/-- `SIPA_PCIE_MEM_OFFSET`. -/
def sipaPcieMemOffset : ℕ := 0x200000000

/-- `IPA_INT_ENTER_FLOW_CTRL_STS`, `SIPA_IRQ_ENTER_FLOW_CTRL`. -/
def enterFlowCtrl (status : ℕ) : Bool := status.testBit 19

/-- `IPA_INT_EXIT_FLOW_CTRL_STS`, `SIPA_IRQ_EXIT_FLOW_CTRL`. -/
def exitFlowCtrl (status : ℕ) : Bool := status.testBit 20

/-- `create_sipa_skb_sender`. -/
def SipaSkbSender.create (depth : ℕ) : SipaSkbSender where
  leftCnt := depth / 4 * 3
  nicLock := false
  sendLock := false
  nicList := []
  sendingList := []
  pairFreeList := List.range depth
  pairCache := fun _ ↦ ⟨none, 0⟩
  freeNotifyNet := false
  epCoverNet := false

/-! ## Flow control -/

/-- `sipa_nic_notify_evt`, with `sipa_eth_notify_cb` as the callback. -/
def SipaNic.notifyEvt (remoteReady : Bool) (nic : SipaNic) (evt : SipaEvtType) : SipaNic :=
  if remoteReady then { nic with queueStopped := evt.enters } else nic

/-- The body of the loops of `sipa_inform_evt_to_nics`. -/
def SipaNic.informEvt (remoteReady : Bool) (evt : SipaEvtType) (nic : SipaNic) : SipaNic :=
  if nic.flowCtrlStatus = evt.enters then nic
  else { nic with flowCtrlStatus := evt.enters }.notifyEvt remoteReady evt

namespace SipaCore

variable (c : SipaCore)

/-- The loops of `sipa_inform_evt_to_nics`. -/
def informAll (evt : SipaEvtType) : SipaCore :=
  { c with
    nic := fun i ↦ if i ∈ c.sender.nicList then (c.nic i).map (·.informEvt c.remoteReady evt)
      else c.nic i }

/-- `sipa_inform_evt_to_nics`, if it returns. -/
def informEvtToNics (evt : SipaEvtType) : Option SipaCore :=
  -- `spin_lock_irqsave(&sender->nic_lock, flags)`
  if c.sender.nicLock then none
  else
    match evt with
    | .leaveFlowctrl =>
      -- both returns are before `spin_unlock_irqrestore`
      if c.sender.freeNotifyNet then some { c with sender := { c.sender with nicLock := true } }
      else if c.sender.epCoverNet then some { c with sender := { c.sender with nicLock := true } }
      else some (c.informAll .leaveFlowctrl)
    | .enterFlowctrl => some (c.informAll .enterFlowctrl)

/-- `sipa_inform_evt_to_nics` with `send_lock` held, and `send_lock` released after it. -/
def informLocked (evt : SipaEvtType) : SipaCore × Bool :=
  match c.informEvtToNics evt with
  | none => ({ c with sender := { c.sender with sendLock := true } }, false)
  | some c => (c, true)

/-! ## Sending -/

/-- What comes of a call of `sipa_skb_sender_send_data`. -/
inductive SendResult
  | ret (err : ℤ)
  | /-- It spins on `nic_lock`, with `send_lock` held. -/
    spins
  | /-- It takes the first entry of an empty list. -/
    corrupts
  deriving DecidableEq

/-- `sipa_inform_evt_to_nics(sender, SIPA_ENTER_FLOWCTRL)` and `return -EAGAIN`. -/
def stopQueues : SipaCore × SendResult :=
  let (c, returned) := c.informLocked .enterFlowctrl
  (c, if returned then .ret eagain else .spins)

/-- The address of a buffer for the hardware. -/
def deviceAddr (dma : ℕ) : ℕ := (dma + sipaPcieMemOffset) % 2 ^ 64

/-- The descriptor of a buffer. -/
def nodeDesc (skb : SkBuff) (dst netid dmaAddr : ℕ) : NodeDescriptionTag where
  address := dmaAddr % 2 ^ 40
  length := skb.len % 2 ^ 20
  offset := skb.headroom % 2 ^ 12
  netId := netid % 2 ^ 8
  dst := dst % 2 ^ 5
  src := c.sendFifo.cur % 2 ^ 5
  errCode := 0
  intr := 0

/-- `sipa_skb_sender_send_data` after `dma_map_single`. -/
def publish (skb : SkBuff) (dst netid dmaAddr : ℕ) : SipaCore × SendResult :=
  match c.sender.pairFreeList with
  | [] => (c, .corrupts)
  | node :: free =>
    ({ c with
        sendFifo := ((c.sendFifo.writeRxNode 0 (c.nodeDesc skb dst netid dmaAddr)).setRxFifoWr 1).1
        sender :=
          { c.sender with
            pairFreeList := free
            sendingList := c.sender.sendingList ++ [node]
            pairCache := Function.update c.sender.pairCache node ⟨some skb, dmaAddr⟩
            leftCnt := c.sender.leftCnt - 1 } },
      .ret 0)

/-- `sipa_skb_sender_send_data` with the interrupt status it reads and what `dma_map_single`
returns, if it does not fail. -/
def sendData (skb : SkBuff) (dst netid intStatus : ℕ) (dma : Option ℕ) : SipaCore × SendResult :=
  if c.sender.epCoverNet then (c, .ret eagain)
  else if intStatus = 0x5FF000 then (c, .ret einprogress)
  else if enterFlowCtrl intStatus then
    stopQueues { c with sender := { c.sender with epCoverNet := true } }
  else if c.sender.freeNotifyNet then (c, .ret eagain)
  else if c.sender.leftCnt = 0 then
    stopQueues { c with sender := { c.sender with freeNotifyNet := true } }
  else
    match dma with
    | none => stopQueues { c with sender := { c.sender with freeNotifyNet := true } }
    | some dma => c.publish skb dst netid (deviceAddr dma)

/-- The conditions under which a buffer is taken over. -/
def Accepts (intStatus : ℕ) (dma : Option ℕ) : Prop :=
  c.sender.epCoverNet = false ∧ intStatus ≠ 0x5FF000 ∧ enterFlowCtrl intStatus = false ∧
    c.sender.freeNotifyNet = false ∧ c.sender.leftCnt ≠ 0 ∧ dma.isSome

instance (intStatus : ℕ) (dma : Option ℕ) : Decidable (c.Accepts intStatus dma) :=
  inferInstanceAs (Decidable (_ ∧ _ ∧ _ ∧ _ ∧ _ ∧ _))

end SipaCore

/-! ## The free thread -/

/-- The variables of `sipa_free_sent_items`. -/
structure FreePass where
  i : ℕ
  num : ℕ
  successCnt : ℕ
  failedCnt : ℕ
  deriving DecidableEq

/-- Where the free thread is. -/
inductive FreeThread
  | /-- Not in `sipa_free_sent_items`. -/
    waiting
  | /-- At `check_again`. -/
    checkAgain (p : FreePass) (retryCnt : ℕ)
  | /-- The lock is dropped and the buffer of the entry not yet freed. -/
    unmapping (p : FreePass) (iter : ℕ)
  | /-- Before `set_tx_fifo_rp`. -/
    setRp (p : FreePass)
  | /-- Before `atomic_add`. -/
    crediting (p : FreePass)
  | /-- At `sipa_free_end`. -/
    freeEnd
  | /-- Before `ep_cover_net` is looked at. -/
    checkCover (exitFlow : Bool)
  | /-- Before `send_lock` is taken for `SIPA_LEAVE_FLOWCTRL`. -/
    leaving
  | /-- It spins on `nic_lock`, with `send_lock` held. -/
    spins
  deriving DecidableEq

/-- The head of the loop of `sipa_free_sent_items`. -/
def FreePass.loop (p : FreePass) : FreeThread :=
  if p.i < p.num then .checkAgain p 10 else .setRp p

namespace SipaCore

variable (c : SipaCore)

/-- From `check_again` to where the lock is dropped. -/
def checkAgain (p : FreePass) (retryCnt : ℕ) : SipaCore × FreeThread :=
  if c.sender.sendingList = [] then (c, .freeEnd)
  else
    let node := c.sendFifo.getTxFifoRp p.i
    match popFirst (fun iter ↦ (c.sender.pairCache iter).dmaAddr == node.address)
        c.sender.sendingList with
    | some (iter, sending) =>
      ({ c with
          sender :=
            { c.sender with
              sendingList := sending
              pairFreeList := c.sender.pairFreeList ++ [iter] } },
        .unmapping p iter)
    | none =>
      if retryCnt ≠ 0 then (c, .checkAgain p (retryCnt - 1))
      else (c, { p with i := p.i + 1, failedCnt := p.failedCnt + 1 }.loop)

/-- What the free thread does until another thread can come in, with the interrupt status it reads
if it reads one. -/
def freeStep (intStatus : ℕ) : FreeThread → SipaCore × FreeThread
  | .waiting => (c, FreePass.loop ⟨0, c.sendFifo.recvNodeFromTxFifo, 0, 0⟩)
  | .checkAgain p retryCnt => c.checkAgain p retryCnt
  | .unmapping p _ => (c, { p with i := p.i + 1, successCnt := p.successCnt + 1 }.loop)
  | .setRp p => ({ c with sendFifo := (c.sendFifo.setTxFifoRp p.i).1 }, .crediting p)
  | .crediting p =>
    ({ c with sender := { c.sender with leftCnt := c.sender.leftCnt + p.successCnt } }, .freeEnd)
  | .freeEnd =>
    if c.sender.freeNotifyNet ∧ c.sender.leftCnt > c.sendFifo.rxFifo.depth / 4 then
      ({ c with sender := { c.sender with freeNotifyNet := false } }, .checkCover true)
    else (c, .checkCover false)
  | .checkCover exitFlow =>
    if c.sender.epCoverNet ∧ exitFlowCtrl intStatus then
      ({ c with sender := { c.sender with epCoverNet := false } }, .leaving)
    else (c, if exitFlow then .leaving else .waiting)
  | .leaving =>
    let (c, returned) := c.informLocked .leaveFlowctrl
    (c, if returned then .waiting else .spins)
  | .spins => (c, .spins)

end SipaCore

end Wwan.Sipa
