import Wwan.Lib.Transition
import Wwan.Sipa.SkbSend

/-!
# The uplink of SIPA

Callers of `sipa_skb_sender_send_data`, the free thread and the hardware. A step is what one of
them does between two points at which another can come in: a call is one step, since it holds
`send_lock`, and so is each part of `sipa_free_sent_items` between two uses of the lock or of a
variable that is used without it.

The hardware fetches descriptors from the rx ring in their order and returns each of them to the tx
ring once, in any order. Which buffer an address stands for is recorded when it is mapped, so that
a descriptor that is returned completes that buffer.
-/

namespace Wwan.Sipa

open Wwan Bytes

/-- The uplink, with what has become of the buffers. -/
structure Uplink where
  core : SipaCore
  thread : FreeThread
  /-- The descriptors the hardware has fetched and not returned. -/
  busy : List NodeDescriptionTag
  /-- The buffers that are mapped, by their addresses for the hardware. -/
  mapped : ℕ → Option SkBuff
  /-- The buffers for which `sipa_skb_sender_send_data` returned 0. -/
  accepted : List SkBuff
  /-- The buffers whose descriptors were returned. -/
  completed : List SkBuff
  /-- What was passed to `dev_kfree_skb_any`. -/
  freed : List (Option SkBuff)

inductive UplinkEvent
  | /-- A call of `sipa_skb_sender_send_data`, with the interrupt status and the mapping. -/
    send (skb : SkBuff) (dst netid intStatus : ℕ) (dma : Option ℕ)
  | /-- A step of the free thread, with the interrupt status. -/
    free (intStatus : ℕ)
  | /-- The hardware fetches a descriptor. -/
    fetch
  | /-- The hardware returns one of the descriptors it has fetched. -/
    complete (j errCode : ℕ)
  deriving DecidableEq

/-- The entry whose buffer the free thread has still to free. -/
def FreeThread.iter : FreeThread → Option ℕ
  | .unmapping _ iter => some iter
  | _ => none

/-- The entries that were moved back and not yet added to `left_cnt`. -/
def FreeThread.uncredited : FreeThread → ℕ
  | .checkAgain p _ => p.successCnt
  | .unmapping p _ => p.successCnt + 1
  | .setRp p => p.successCnt
  | .crediting p => p.successCnt
  | _ => 0

namespace Uplink

variable (s : Uplink)

/-- The buffer of an entry of `pair_cache`. -/
def skbOf (iter : ℕ) : Option SkBuff := (s.core.sender.pairCache iter).skb

/-- The address of an entry of `pair_cache`. -/
def addrOf (iter : ℕ) : ℕ := (s.core.sender.pairCache iter).dmaAddr

/-- The entries whose buffers were taken over and not freed. -/
def held : List ℕ := s.thread.iter.toList ++ s.core.sender.sendingList

/-! ## Steps -/

/-- A call of `sipa_skb_sender_send_data`. -/
def send (skb : SkBuff) (dst netid intStatus : ℕ) (dma : Option ℕ) : Uplink :=
  let (core, result) := s.core.sendData skb dst netid intStatus dma
  if result = .ret 0 then
    { s with
      core := core
      mapped := Function.update s.mapped (SipaCore.deviceAddr (dma.getD 0)) (some skb)
      accepted := s.accepted ++ [skb] }
  else { s with core := core }

/-- A step of the free thread. The buffer of an entry is unmapped and freed as the entry says
then. -/
def freeStep (intStatus : ℕ) : Uplink :=
  let (core, thread) := s.core.freeStep intStatus s.thread
  match s.thread.iter with
  | some iter =>
    { s with
      core := core
      thread := thread
      mapped := Function.update s.mapped (s.addrOf iter) none
      freed := s.freed ++ [s.skbOf iter] }
  | none => { s with core := core, thread := thread }

/-- A descriptor is fetched. -/
def fetch : Uplink :=
  { s with
    core := { s.core with sendFifo := s.core.sendFifo.hwFetch }
    busy := s.busy ++ [s.core.sendFifo.hwNode] }

/-- A descriptor is returned. -/
def complete (j errCode : ℕ) : Uplink :=
  match s.busy[j]? with
  | none => s
  | some node =>
    { s with
      core :=
        { s.core with sendFifo := s.core.sendFifo.hwReturn { node with errCode := errCode } }
      busy := s.busy.eraseIdx j
      completed := s.completed ++ (s.mapped node.address).toList }

/-- A caller may pass any buffer that was not taken over. The address of a buffer differs from
those of the buffers in flight and has 40 bits. -/
def Enabled : UplinkEvent → Prop
  | .send skb _ _ _ dma =>
    s.core.sender.sendLock = false ∧ skb ∉ s.accepted ∧
      ∀ a ∈ dma, SipaCore.deviceAddr a < 2 ^ 40 ∧ ∀ i ∈ s.held, s.addrOf i ≠ SipaCore.deviceAddr a
  | .free _ =>
    match s.thread with
    | .checkAgain _ _ | .leaving => s.core.sender.sendLock = false
    | .spins => False
    | _ => True
  | .fetch => s.core.sendFifo.regs.rxRptr ≠ s.core.sendFifo.regs.rxWptr
  | .complete j _ => j < s.busy.length

/-- The state after a step. -/
def next : UplinkEvent → Uplink
  | .send skb dst netid intStatus dma => s.send skb dst netid intStatus dma
  | .free intStatus => s.freeStep intStatus
  | .fetch => s.fetch
  | .complete j errCode => s.complete j errCode

/-- A sender that was created, with these devices on its list. -/
def init (depth cur : ℕ) (nic : ℕ → Option SipaNic) (nicList : List ℕ) : Uplink where
  core :=
    { sendFifo := .opened depth cur
      remoteReady := true
      nic := nic
      sender := { SipaSkbSender.create depth with nicList := nicList } }
  thread := .waiting
  busy := []
  mapped := fun _ ↦ none
  accepted := []
  completed := []
  freed := []

/-- All orders of steps. -/
def system (depth cur : ℕ) (nic : ℕ → Option SipaNic) (nicList : List ℕ) :
    System Uplink UplinkEvent where
  init := init depth cur nic nicList
  enabled := Enabled
  next := next

/-! ## What is required -/

/-- No buffer is lost, freed twice or freed early, and no entry is lost or used twice. -/
structure Conserved (depth : ℕ) (s : Uplink) : Prop where
  /-- Each entry of `pair_cache` is on one of the lists, once. -/
  entries : (s.core.sender.pairFreeList ++ s.core.sender.sendingList).Perm (List.range depth)
  counted : s.core.sender.leftCnt + s.core.sender.sendingList.length + s.thread.uncredited =
    depth / 4 * 3
  /-- A buffer that was taken over was freed once, or is to be freed once. -/
  once : ∀ skb ∈ s.accepted,
    s.freed.count (some skb) + (s.held.map s.skbOf).count (some skb) = 1
  /-- What was freed had been taken over, and its descriptor returned. -/
  freed : ∀ x ∈ s.freed, ∃ skb ∈ s.accepted, x = some skb ∧ skb ∈ s.completed
  /-- What is to be freed has been taken over. -/
  held : ∀ i ∈ s.held, ∃ skb ∈ s.accepted, s.skbOf i = some skb
  /-- A buffer that a call returns an error for is nowhere. -/
  refused : ∀ skb dst netid intStatus dma, s.Enabled (.send skb dst netid intStatus dma) →
    (s.core.sendData skb dst netid intStatus dma).2 ≠ .ret 0 →
      ∀ i, (s.send skb dst netid intStatus dma).skbOf i ≠ some skb
  /-- A call that takes a buffer over takes an entry the free thread has done with. -/
  taken : ∀ intStatus dma, s.core.Accepts intStatus dma →
    ∃ node ∈ s.core.sender.pairFreeList.head?, node ∉ s.thread.iter

/-- Without further calls, all buffers that were taken over can still be freed. -/
def Drains (S : System Uplink UplinkEvent) (s : Uplink) : Prop :=
  ∃ es, S.Along (fun _ e ↦ ∀ skb dst netid intStatus dma, e ≠ .send skb dst netid intStatus dma)
    s es ∧ (S.exec s es).freed.Perm (s.accepted.map some)

/-- The pointer a call publishes fits its register. -/
def Fits (s : Uplink) : UplinkEvent → Prop
  | .send _ _ _ intStatus dma =>
    s.core.Accepts intStatus dma → s.core.sendFifo.nextRxWr 1 ≤ 0xFFFF
  | _ => True

/-- The queues are woken only when neither reason to stop them holds. -/
def Leaves (s : Uplink) : UplinkEvent → Prop
  | .free _ => s.thread = .leaving →
    s.core.sender.freeNotifyNet = false ∧ s.core.sender.epCoverNet = false
  | _ => True

end Uplink

end Wwan.Sipa
