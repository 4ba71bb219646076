import Wwan.Sipa.SkbSend

/-!
# The receiver of SIPA

The driver gives the hardware descriptors of empty buffers through the rx ring of `recv_fifo`, and
keeps the buffers in `recv_array` in the same order. The hardware fills them and returns their
descriptors through the tx ring, and `sipa_recv_skb` compares each with the next entry of
`recv_array`. `need_fill_cnt` counts the entries that were taken out and not replaced.
-/

namespace Wwan.Sipa

open Wwan Bytes

/-- `SIPA_RECV_BUF_LEN`. -/
def sipaRecvBufLen : ℕ := 1600

/-- `SIPA_RECV_RSVD_LEN`. -/
def sipaRecvRsvdLen : ℕ := 128

/-! ## The array -/

/-- `struct sipa_skb_array`. -/
structure SipaSkbArray where
  array : ℕ → SkbDmaAddrNode
  rp : ℕ
  wp : ℕ
  depth : ℕ

namespace SipaSkbArray

variable (p : SipaSkbArray)

/-- `create_recv_array`. -/
def create (depth : ℕ) : SipaSkbArray := ⟨fun _ ↦ ⟨none, 0⟩, 0, 0, depth⟩

/-- `put_recv_array_node`. -/
def putRecvArrayNode (node : SkbDmaAddrNode) : SipaSkbArray × ℤ :=
  if u32 (p.wp - p.rp) < p.depth then
    ({ p with
        array := Function.update p.array (p.wp &&& (p.depth - 1)) node
        wp := u32 (p.wp + 1) },
      0)
  else (p, -1)

/-- `get_recv_array_node`, with what it stores if it returns 0. -/
def getRecvArrayNode : SipaSkbArray × Option SkbDmaAddrNode :=
  if p.rp ≠ p.wp then
    ({ p with rp := u32 (p.rp + 1) }, some (p.array (p.rp &&& (p.depth - 1))))
  else (p, none)

/-- The entries, oldest first. -/
def entries : List SkbDmaAddrNode := Ring.window (2 ^ 32) p.depth p.array p.rp p.wp

end SipaSkbArray

/-! ## Buffers -/

namespace SkBuff

variable (skb : SkBuff)

/-- `alloc_recv_skb`, given what `__dev_alloc_skb` returned. -/
def reserve (rsvd : ℕ) : SkBuff := if skb.headroom < rsvd then { skb with headroom := rsvd } else skb

/-- The buffer is made as long as the hardware may write, with what is over of its headroom. -/
def putAll : SkBuff :=
  if skb.headroom > sipaRecvRsvdLen then
    let tmp := skb.headroom - sipaRecvRsvdLen
    { skb with
      len := skb.len + u32 (sipaRecvBufLen - tmp) + tmp
      headroom := skb.headroom - tmp }
  else { skb with len := skb.len + sipaRecvBufLen }

/-- The buffer is the same. -/
@[simp] theorem id_putAll_reserve (rsvd : ℕ) : (skb.reserve rsvd).putAll.id = skb.id := by
  unfold putAll reserve
  split <;> split <;> rfl

end SkBuff

/-- What `__dev_alloc_skb` and `dma_map_single` return for a new buffer. -/
inductive RecvAlloc
  | noSkb
  | mapError (skb : SkBuff)
  | mapped (skb : SkBuff) (dma : ℕ)
  deriving DecidableEq

/-- There is a buffer, and it is mapped. -/
def RecvAlloc.isMapped : RecvAlloc → Bool
  | .mapped _ _ => true
  | _ => false

/-! ## The receiver -/

/-- `struct sipa_skb_receiver`, with what is used of `ep->recv_fifo` and of the core. -/
structure SipaSkbReceiver where
  recvFifo : CmnFifoCfgTag
  /-- `recv_fifo->state`. -/
  state : Bool
  /-- `recv_fifo->dst`. -/
  dst : ℕ
  rsvd : ℕ
  recvArray : SipaSkbArray
  needFillCnt : ℤ
  remoteReady : Bool

/-- What `sipa_recv_skb` has done. -/
inductive RecvResult
  | /-- It returned NULL. -/
    noData
  | /-- It freed a buffer and returned NULL. -/
    dropped (skb : Option SkBuff)
  | /-- It returned a buffer and stored `netid`. -/
    received (skb : Option SkBuff) (netid : ℕ)
  deriving DecidableEq

namespace SipaSkbReceiver

variable (r : SipaSkbReceiver)

/-- `create_sipa_skb_receiver` up to `sipa_prepare_free_node_init`. -/
def create (depth cur dst : ℕ) : SipaSkbReceiver where
  recvFifo := .opened depth cur
  state := false
  dst := dst
  rsvd := sipaRecvRsvdLen
  recvArray := .create depth
  needFillCnt := 0
  remoteReady := false

/-- The descriptor of an empty buffer. -/
def nodeDesc (skb : SkBuff) (dmaAddr : ℕ) : NodeDescriptionTag where
  address := dmaAddr % 2 ^ 40
  length := skb.len % 2 ^ 20
  offset := skb.headroom % 2 ^ 12
  netId := 0
  src := r.recvFifo.cur % 2 ^ 5
  dst := r.dst % 2 ^ 5
  errCode := 0
  intr := 0

/-- A pass of the loops of `sipa_prepare_free_node_init` and `fill_free_fifo`, after
`dma_map_single`. -/
def fillNode (i : ℕ) (skb : SkBuff) (dma : ℕ) : SipaSkbReceiver :=
  let skb := (skb.reserve r.rsvd).putAll
  let dmaAddr := SipaCore.deviceAddr dma
  { r with
    recvFifo := r.recvFifo.writeRxNode i (r.nodeDesc skb dmaAddr)
    recvArray := (r.recvArray.putRecvArrayNode ⟨some skb, dmaAddr⟩).1 }

/-- `ipa_common_fifo_hal_open`, apart from the registers that are only set here. -/
def halOpen : SipaSkbReceiver × ℤ :=
  if r.state then (r, ebusy)
  else
    ({ r with
        recvFifo :=
          { r.recvFifo with
            regs := ⟨0, 0, 0, 0⟩
            rxFifo := { r.recvFifo.rxFifo with rd := 0, wr := 0 }
            txFifo := { r.recvFifo.txFifo with rd := 0, wr := 0 } }
        state := true },
      0)

/-- `sipa_fill_free_node`. -/
def fillFreeNode (cnt : ℕ) : SipaSkbReceiver :=
  { r with recvFifo := (r.recvFifo.setRxFifoWr cnt).1, needFillCnt := 0 }

/-- `sipa_receiver_open_cmn_fifo`, apart from the thresholds of interrupts. -/
def openCmnFifo : SipaSkbReceiver :=
  let r := r.halOpen.1
  r.fillFreeNode r.recvFifo.rxFifo.depth

/-- What `conn_thread` does for `SMSG_TYPE_DONE`. -/
def smsgDone : SipaSkbReceiver := { r.openCmnFifo with remoteReady := true }

/-- `sipa_nic_get_filled_num`. -/
def getFilledNum : ℕ := if r.remoteReady then r.recvFifo.recvNodeFromTxFifo else 0

/-- `sipa_nic_set_tx_fifo_rp`. -/
def setTxFifoRp (rptr : ℕ) : SipaSkbReceiver :=
  if r.remoteReady then { r with recvFifo := (r.recvFifo.setTxFifoRp rptr).1 } else r

/-- `sipa_recv_skb`. Neither the entry nor the descriptor changes while it is tried again. -/
def recvSkb (index : ℕ) : SipaSkbReceiver × RecvResult :=
  let (recvArray, got) := r.recvArray.getRecvArrayNode
  let r := { r with recvArray := recvArray }
  let node := r.recvFifo.getTxFifoRp index
  match got with
  | none => (r, .noData)
  | some entry =>
    let r := { r with needFillCnt := r.needFillCnt + 1 }
    if node.address = 0 ∨ entry.dmaAddr ≠ node.address then
      ({ r with recvFifo := (r.recvFifo.setTxFifoRp 1).1 }, .dropped entry.skb)
    else (r, .received entry.skb node.netId)

end SipaSkbReceiver

/-! ## Arrays of a depth that is a power of two -/

namespace SipaSkbArray

/-- The pointers of an array of depth `2 ^ k`. -/
structure Valid (k : ℕ) (p : SipaSkbArray) : Prop where
  depth : p.depth = 2 ^ k
  rp : p.rp < 2 ^ 32
  wp : p.wp < 2 ^ 32

variable {k : ℕ} {p : SipaSkbArray}

theorem valid_create (k : ℕ) : (create (2 ^ k)).Valid k :=
  ⟨rfl, Nat.two_pow_pos _, Nat.two_pow_pos _⟩

theorem entries_create (depth : ℕ) : (create depth).entries = [] := Ring.window_zero ..

namespace Valid

variable (h : p.Valid k) (hk : k < 32)

include h hk

/-- An entry is put behind the others while there is room. -/
theorem put (hroom : p.entries.length < 2 ^ k) (node : SkbDmaAddrNode) :
    (p.putRecvArrayNode node).1.Valid k ∧
      (p.putRecvArrayNode node).1.entries = p.entries ++ [node] := by
  have hlen : p.entries.length = Ring.dist (2 ^ 32) p.rp p.wp := Ring.length_window _
  have hpow : 2 ^ k < 2 ^ 32 := Nat.pow_lt_pow_right (by omega) hk
  have hslot : p.wp &&& (2 ^ k - 1) = p.wp % 2 ^ k := Nat.and_two_pow_sub_one_eq_mod _ _
  have hnext : u32 (p.wp + 1 : ℤ) = (p.wp + 1) % 2 ^ 32 := by
    unfold u32
    omega
  have hput : (p.putRecvArrayNode node).1 =
      { p with
        array := Function.update p.array (p.wp % 2 ^ k) node
        wp := (p.wp + 1) % 2 ^ 32 } := by
    rw [putRecvArrayNode, Ring.u32_sub h.rp h.wp, h.depth, hslot, hnext, if_pos (by omega)]
  rw [hput]
  refine ⟨⟨h.depth, h.rp, Nat.mod_lt _ (by omega)⟩, ?_⟩
  simp only [entries, h.depth]
  exact Ring.window_push _ (Nat.pow_dvd_pow 2 hk.le) h.rp h.wp node (by omega) hpow

/-- The first entry is got. -/
theorem get {node : SkbDmaAddrNode} {rest : List SkbDmaAddrNode}
    (hentries : p.entries = node :: rest) :
    p.getRecvArrayNode.2 = some node ∧ p.getRecvArrayNode.1.Valid k ∧
      p.getRecvArrayNode.1.entries = rest := by
  have hslot : p.rp &&& (2 ^ k - 1) = p.rp % 2 ^ k := Nat.and_two_pow_sub_one_eq_mod _ _
  have hnext : u32 (p.rp + 1 : ℤ) = (p.rp + 1) % 2 ^ 32 := by
    unfold u32
    omega
  have hne : p.wp ≠ p.rp := by
    intro heq
    have hnil := (Ring.window_eq_nil_iff (n := p.depth) p.array h.rp h.wp).mpr heq
    rw [entries, hnil] at hentries
    cases hentries
  have hfirst := Ring.window_succ_left p.array (Nat.pow_dvd_pow 2 hk.le) h.rp h.wp hne
  rw [entries, h.depth, hfirst] at hentries
  obtain ⟨hnode, hrest⟩ := List.cons.inj hentries
  rw [getRecvArrayNode, if_pos hne.symm, h.depth, hslot, hnext]
  exact ⟨congrArg some hnode, ⟨rfl, Nat.mod_lt _ (by omega), h.wp⟩, hrest⟩

end Valid

end SipaSkbArray

end Wwan.Sipa
