import Mathlib.Data.Nat.Bitwise
import Wwan.Lib.RingWindow

/-!
# The common FIFO of SIPA

An endpoint has two rings of descriptors in memory. The driver appends to the rx ring and takes
from the tx ring, the hardware does the opposite, and each tells the other through a register how
far it is. A pointer is kept modulo twice the depth, and a register has 16 bits for it.

Sizes, pointers and indices are the values of `u32` variables.
-/

namespace Wwan.Sipa

open Wwan Bytes

/-- `-ENOSPC`. -/
def enospc : ℤ := -28

/-- `-EINVAL`. -/
def einval : ℤ := -22

/-- `-EIO`. -/
def eio : ℤ := -5

/-- `-EBUSY`. -/
def ebusy : ℤ := -16

/-- `struct sipa_node_description_tag`, without what sending does not set. -/
structure NodeDescriptionTag where
  address : ℕ
  length : ℕ
  offset : ℕ
  netId : ℕ
  src : ℕ
  dst : ℕ
  intr : ℕ
  errCode : ℕ
  deriving DecidableEq

/-- What `memset` leaves in a ring. -/
def NodeDescriptionTag.zero : NodeDescriptionTag := ⟨0, 0, 0, 0, 0, 0, 0, 0⟩

/-- `struct sipa_cmn_fifo_tag`. -/
structure CmnFifoTag where
  depth : ℕ
  wr : ℕ
  rd : ℕ
  /-- The ring at `virtual_addr`. -/
  node : ℕ → NodeDescriptionTag

/-- The pointer fields of the registers. -/
structure FifoRegs where
  rxWptr : ℕ
  rxRptr : ℕ
  txWptr : ℕ
  txRptr : ℕ
  deriving DecidableEq

/-- `struct sipa_cmn_fifo_cfg_tag`, with what is behind `fifo_reg_base`. -/
structure CmnFifoCfgTag where
  cur : ℕ
  regs : FifoRegs
  rxFifo : CmnFifoTag
  txFifo : CmnFifoTag

/-- `PTR_MASK(depth)`. -/
def ptrMask (depth : ℕ) : ℕ := depth ||| (depth - 1)

/-! ## Registers -/

namespace FifoRegs

variable (regs : FifoRegs)

/-- `ipa_phy_update_rx_fifo_wptr`. -/
def updateRxFifoWptr (wptr : ℕ) : FifoRegs × ℤ :=
  if wptr > 0xFFFF then (regs, einval)
  else
    let regs := { regs with rxWptr := wptr }
    (regs, if regs.rxWptr = wptr then 0 else eio)

/-- `ipa_phy_update_tx_fifo_rptr`. -/
def updateTxFifoRptr (rptr : ℕ) : FifoRegs × ℤ :=
  if rptr > 0xFFFF then (regs, einval)
  else
    let regs := { regs with txRptr := rptr }
    (regs, if regs.txRptr = rptr then 0 else eio)

/-- `ipa_phy_get_rx_fifo_filled_depth`, which the hardware computes. -/
def rxFifoFilledDepth (depth : ℕ) : ℕ := Ring.dist (2 * depth) regs.rxRptr regs.rxWptr % 2 ^ 16

/-- `ipa_phy_get_tx_fifo_filled_depth`, which the hardware computes. -/
def txFifoFilledDepth (depth : ℕ) : ℕ := Ring.dist (2 * depth) regs.txRptr regs.txWptr % 2 ^ 16

end FifoRegs

/-! ## The interface -/

namespace CmnFifoCfgTag

variable (cfg : CmnFifoCfgTag)

/-- `ipa_common_fifo_hal_open`, for both rings of one depth. -/
def opened (depth cur : ℕ) : CmnFifoCfgTag where
  cur := cur
  regs := ⟨0, 0, 0, 0⟩
  rxFifo := ⟨depth, 0, 0, fun _ ↦ .zero⟩
  txFifo := ⟨depth, 0, 0, fun _ ↦ .zero⟩

/-- `recv_node_from_tx_fifo`. -/
def recvNodeFromTxFifo : ℕ := cfg.regs.txFifoFilledDepth cfg.txFifo.depth

/-- The slot of `get_tx_fifo_rp`. -/
def txSlot (index : ℕ) : ℕ := u32 (cfg.txFifo.rd + index) &&& (cfg.txFifo.depth - 1)

/-- `get_tx_fifo_rp`. -/
def getTxFifoRp (index : ℕ) : NodeDescriptionTag := cfg.txFifo.node (cfg.txSlot index)

/-- The slot of `get_rx_fifo_wr`. -/
def rxSlot (index : ℕ) : ℕ := u32 (cfg.rxFifo.wr + index) &&& (cfg.rxFifo.depth - 1)

/-- A descriptor is written where `get_rx_fifo_wr` points to. -/
def writeRxNode (index : ℕ) (des : NodeDescriptionTag) : CmnFifoCfgTag :=
  { cfg with
    rxFifo := { cfg.rxFifo with node := Function.update cfg.rxFifo.node (cfg.rxSlot index) des } }

/-- `set_tx_fifo_rp`. -/
def setTxFifoRp (num : ℕ) : CmnFifoCfgTag × ℤ :=
  let rd := u32 (cfg.txFifo.rd + num) &&& ptrMask cfg.txFifo.depth
  let (regs, ret) := cfg.regs.updateTxFifoRptr rd
  ({ cfg with regs := regs, txFifo := { cfg.txFifo with rd := rd } },
    if ret ≠ 0 then einval else 0)

/-- `rx_fifo.wr` after `num` descriptors. -/
def nextRxWr (num : ℕ) : ℕ := u32 (cfg.rxFifo.wr + num) &&& ptrMask cfg.rxFifo.depth

/-- `set_rx_fifo_wr`, apart from `dma_sync_single_for_device`. -/
def setRxFifoWr (num : ℕ) : CmnFifoCfgTag × ℤ :=
  let left := u32 (cfg.rxFifo.depth - cfg.regs.rxFifoFilledDepth cfg.rxFifo.depth)
  if left = 0 then (cfg, enospc)
  else
    let wr := cfg.nextRxWr (min num left)
    let (regs, ret) := cfg.regs.updateRxFifoWptr wr
    ({ cfg with regs := regs, rxFifo := { cfg.rxFifo with wr := wr } },
      if ret ≠ 0 then eio else 0)

/-! ## The hardware -/

/-- The descriptors that were published and not fetched. -/
def rxWindow : List NodeDescriptionTag :=
  Ring.window (2 * cfg.rxFifo.depth) cfg.rxFifo.depth cfg.rxFifo.node cfg.regs.rxRptr
    cfg.regs.rxWptr

/-- The descriptors that were returned and not passed. -/
def txWindow : List NodeDescriptionTag :=
  Ring.window (2 * cfg.txFifo.depth) cfg.txFifo.depth cfg.txFifo.node cfg.regs.txRptr
    cfg.regs.txWptr

/-- The descriptor at the read pointer of the hardware. -/
def hwNode : NodeDescriptionTag := cfg.rxFifo.node (cfg.regs.rxRptr % cfg.rxFifo.depth)

/-- The hardware passes a descriptor of the rx ring. -/
def hwFetch : CmnFifoCfgTag :=
  { cfg with
    regs := { cfg.regs with rxRptr := (cfg.regs.rxRptr + 1) % (2 * cfg.rxFifo.depth) } }

/-- The hardware appends a descriptor to the tx ring. -/
def hwReturn (node : NodeDescriptionTag) : CmnFifoCfgTag :=
  { cfg with
    regs := { cfg.regs with txWptr := (cfg.regs.txWptr + 1) % (2 * cfg.txFifo.depth) }
    txFifo :=
      { cfg.txFifo with
        node := Function.update cfg.txFifo.node (cfg.regs.txWptr % cfg.txFifo.depth) node } }

end CmnFifoCfgTag

/-! ## Depths that are a power of two -/

section Mask

variable {k x y : ℕ}

theorem ptrMask_two_pow (k : ℕ) : ptrMask (2 ^ k) = 2 ^ (k + 1) - 1 := by
  have hpos := Nat.two_pow_pos k
  have hlow : 2 ^ k - 1 < 2 ^ k := by omega
  have hor := Nat.two_pow_add_eq_or_of_lt hlow 1
  rw [Nat.mul_one] at hor
  rw [ptrMask, ← hor, Nat.pow_succ]
  omega

theorem u32_and_slot (hk : k ≤ 32) : u32 (x + y : ℤ) &&& (2 ^ k - 1) = (x + y) % 2 ^ k := by
  rw [Nat.and_two_pow_sub_one_eq_mod,
    show u32 (x + y : ℤ) = (x + y) % 2 ^ 32 by unfold u32; omega]
  exact Nat.mod_mod_of_dvd _ (Nat.pow_dvd_pow 2 hk)

theorem u32_and_ptrMask (hk : k < 32) :
    u32 (x + y : ℤ) &&& ptrMask (2 ^ k) = (x + y) % (2 * 2 ^ k) := by
  rw [ptrMask_two_pow, ← Nat.pow_succ']
  exact u32_and_slot hk

end Mask

end Wwan.Sipa
