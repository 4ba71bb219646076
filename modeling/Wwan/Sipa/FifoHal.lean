import Wwan.Lib.Register
import Wwan.Sipa.CommonFifo

/-!
# What the operations on a common FIFO report

The FIFO layer keeps a copy of every pointer and updates the register of it through the register
layer, whose functions return 0 if the register reads back as what they have stored. Some of the
operations take this 0 for the failure. `memcpy` and the synchronisation of the descriptors are
left out.
-/

namespace Wwan.Sipa.FifoHal

open Register

/-! ## The register layer -/

/-- The registers of a FIFO that the operations use. -/
inductive Reg
  | rxFifoDepth
  | rxFifoWr
  | rxFifoRd
  | txFifoWr
  | txFifoRd
  | txFifoWrInit
  | intGenCtlTxFifoValue
  | intGenCtlEn
  | flowCtrlConfig
  | txFifoFlowCtrl
  | rxFifoFlowCtrl
deriving DecidableEq

/-- What is behind `fifo_reg_base`. -/
abbrev Regs := Reg → Cell (BitVec 32)

/-- `readl_relaxed`, an update of what it has read, and `writel_relaxed`. -/
def modify (r : Reg) (set : BitVec 32 → BitVec 32) (regs : Regs) : Regs :=
  Function.update regs r ((regs r).update set)

/-- What a function of the register layer returns once it has read the register back. -/
def readBack (holds : Bool) : ℤ := if holds then 0 else eio

/-- The high half of a register is set and read back. -/
def updateHigh (r : Reg) (v : BitVec 32) (regs : Regs) : Regs × ℤ :=
  let regs := modify r (setHigh v) regs
  (regs, readBack ((regs r).value >>> 16 == v))

/-- The low half of a register is set and read back. -/
def updateLow (r : Reg) (v : BitVec 32) (regs : Regs) : Regs × ℤ :=
  let regs := modify r (setLow v) regs
  (regs, readBack ((regs r).value &&& 0x0000FFFF#32 == v))

/-- The check of a value of 16 bits. -/
def checked (update : BitVec 32 → Regs → Regs × ℤ) (v : BitVec 32) (regs : Regs) : Regs × ℤ :=
  if v > 0xFFFF#32 then (regs, einval) else update v regs

/-- `ipa_phy_get_rx_fifo_filled_depth`. -/
def getRxFifoFilledDepth (regs : Regs) : BitVec 32 := (regs .rxFifoDepth).value &&& 0x0000FFFF#32

/-- `ipa_phy_get_rx_fifo_wptr`. -/
def getRxFifoWptr (regs : Regs) : BitVec 32 := (regs .rxFifoWr).value >>> 16

/-- `ipa_phy_get_rx_fifo_rptr`. -/
def getRxFifoRptr (regs : Regs) : BitVec 32 := (regs .rxFifoRd).value >>> 16

/-- `ipa_phy_get_tx_fifo_wptr`. -/
def getTxFifoWptr (regs : Regs) : BitVec 32 := (regs .txFifoWr).value >>> 16

/-- `ipa_phy_get_tx_fifo_rptr`. -/
def getTxFifoRptr (regs : Regs) : BitVec 32 := (regs .txFifoRd).value >>> 16

/-- `ipa_phy_update_rx_fifo_wptr`. -/
def updateRxFifoWptr : BitVec 32 → Regs → Regs × ℤ := checked (updateHigh .rxFifoWr)

/-- `ipa_phy_update_rx_fifo_rptr`. -/
def updateRxFifoRptr : BitVec 32 → Regs → Regs × ℤ := checked (updateHigh .rxFifoRd)

/-- `ipa_phy_update_tx_fifo_rptr`. -/
def updateTxFifoRptr : BitVec 32 → Regs → Regs × ℤ := checked (updateHigh .txFifoRd)

/-- `ipa_phy_update_tx_fifo_wptr`, which has the device take the pointer over with bit 1. -/
def updateTxFifoWptr (wptr : BitVec 32) (regs : Regs) : Regs × ℤ :=
  if wptr > 0xFFFF#32 then (regs, einval)
  else
    let regs := modify .txFifoWrInit (setHigh wptr) regs
    let regs := modify .txFifoWrInit (· ||| 0x2#32) regs
    let regs := modify .txFifoWrInit (· &&& 0xFFFFFFFD#32) regs
    (regs, readBack ((regs .txFifoWrInit).value >>> 16 == wptr))

/-- `ipa_phy_set_tx_fifo_interrupt_delay_timer`. -/
def setTxFifoInterruptDelayTimer : BitVec 32 → Regs → Regs × ℤ :=
  checked (updateLow .intGenCtlTxFifoValue)

/-- `ipa_phy_enable_int_bit`. -/
def enableIntBit (intBit : BitVec 32) (regs : Regs) : Regs × ℤ :=
  let regs := modify .intGenCtlEn (· ||| intBit) regs
  (regs, readBack ((regs .intGenCtlEn).value &&& intBit == intBit))

/-- `ipa_phy_disable_int_bit`. -/
def disableIntBit (intBit : BitVec 32) (regs : Regs) : Regs × ℤ :=
  let regs := modify .intGenCtlEn (· &&& ~~~intBit) regs
  (regs, readBack ((regs .intGenCtlEn).value &&& intBit == 0#32))

/-- `ipa_phy_set_tx_fifo_exit_flow_ctrl_watermark`. -/
def setTxFifoExitFlowCtrlWatermark : BitVec 32 → Regs → Regs × ℤ := updateHigh .txFifoFlowCtrl

/-- `ipa_phy_set_tx_fifo_entry_flow_ctrl_watermark`. -/
def setTxFifoEntryFlowCtrlWatermark : BitVec 32 → Regs → Regs × ℤ := updateLow .txFifoFlowCtrl

/-- `ipa_phy_set_rx_fifo_exit_flow_ctrl_watermark`. -/
def setRxFifoExitFlowCtrlWatermark : BitVec 32 → Regs → Regs × ℤ := updateHigh .rxFifoFlowCtrl

/-- `ipa_phy_set_rx_fifo_entry_flow_ctrl_watermark`. -/
def setRxFifoEntryFlowCtrlWatermark : BitVec 32 → Regs → Regs × ℤ := updateLow .rxFifoFlowCtrl

/-- `ipa_phy_set_flow_ctrl_config`. -/
def setFlowCtrlConfig (config : BitVec 32) (regs : Regs) : Regs × ℤ :=
  let regs := modify .flowCtrlConfig (fun tmp ↦ (tmp &&& 0xFFFFFFFC#32) ||| config) regs
  (regs, readBack ((regs .flowCtrlConfig).value &&& 0x00000003#32 == config))

/-! ## The FIFO layer -/

/-- A FIFO is updated in these ways. -/
inductive Update
  | rxRptr
  | rxWptr
  | txRptr
  | txWptr
  | delayTimer
  | intBit
  | txExit
  | txEntry
  | rxExit
  | rxEntry
  | flowCtrl
deriving DecidableEq

/-- The numbers of a `struct sipa_cmn_fifo_tag`. -/
structure Ring where
  depth : BitVec 32
  wr : BitVec 32
  rd : BitVec 32

/-- A `struct sipa_cmn_fifo_cfg_tag`, with the updates that the current call has tried and what
the register layer has returned for them. -/
structure Fifo where
  regs : Regs
  rxFifo : Ring
  txFifo : Ring
  tried : List (Update × ℤ)

/-- A call of the register layer. -/
def Fifo.call (u : Update) (f : Regs → Regs × ℤ) (fifo : Fifo) : Fifo × ℤ :=
  let (regs, ret) := f fifo.regs
  ({ fifo with regs := regs, tried := fifo.tried ++ [(u, ret)] }, ret)

/-- `PTR_MASK(depth)`. -/
def ptrMask (depth : BitVec 32) : BitVec 32 := depth ||| (depth - 1)

/-- The descriptors that the rx ring has room for. -/
def Fifo.leftCnt (fifo : Fifo) : BitVec 32 := fifo.rxFifo.depth - getRxFifoFilledDepth fifo.regs

/-- The number of descriptors that are put into the rx ring. -/
def Fifo.putNum (num : BitVec 32) (fifo : Fifo) : BitVec 32 :=
  if fifo.leftCnt < num then fifo.leftCnt else num

/-- `rx_fifo.wr` moved on. -/
def Fifo.advanceRx (num : BitVec 32) (fifo : Fifo) : Fifo :=
  { fifo with
    rxFifo := { fifo.rxFifo with wr := (fifo.rxFifo.wr + num) &&& ptrMask fifo.rxFifo.depth } }

/-- `ipa_put_pkt_to_cache_rx_fifo`. -/
def putPktToCacheRxFifo (num : BitVec 32) (fifo : Fifo) : Fifo × ℤ :=
  if fifo.leftCnt = 0 then (fifo, enospc)
  else
    let num := fifo.putNum num
    let fifo := fifo.advanceRx num
    -- the result is only printed
    let (fifo, _) := fifo.call .rxWptr (updateRxFifoWptr fifo.rxFifo.wr)
    (fifo, num.toInt)

/-- `ipa_common_fifo_hal_set_rx_fifo_wr` behind the check of the id. -/
def setRxFifoWr (num : BitVec 32) (fifo : Fifo) : Fifo × ℤ :=
  if fifo.leftCnt = 0 then (fifo, enospc)
  else
    let fifo := fifo.advanceRx (fifo.putNum num)
    let (fifo, ret) := fifo.call .rxWptr (updateRxFifoWptr fifo.rxFifo.wr)
    (fifo, if ret ≠ 0 then eio else 0)

/-- `ipa_common_fifo_hal_set_tx_fifo_rp` behind the check of the id. -/
def setTxFifoRp (txRd : BitVec 32) (fifo : Fifo) : Fifo × ℤ :=
  let fifo := { fifo with
    txFifo := { fifo.txFifo with rd := (fifo.txFifo.rd + txRd) &&& ptrMask fifo.txFifo.depth } }
  let (fifo, ret) := fifo.call .txRptr (updateTxFifoRptr fifo.txFifo.rd)
  (fifo, if ret ≠ 0 then einval else 0)

/-- The pointers of a FIFO. -/
inductive Ptr
  | rxRd
  | rxWr
  | txRd
  | txWr
deriving DecidableEq

namespace Ptr

/-- The register as the driver reads it. -/
def get : Ptr → Regs → BitVec 32
  | rxRd => getRxFifoRptr
  | rxWr => getRxFifoWptr
  | txRd => getTxFifoRptr
  | txWr => getTxFifoWptr

/-- The update of the register. -/
def update : Ptr → BitVec 32 → Regs → Regs × ℤ
  | rxRd => updateRxFifoRptr
  | rxWr => updateRxFifoWptr
  | txRd => updateTxFifoRptr
  | txWr => updateTxFifoWptr

/-- The name of the update. -/
def kind : Ptr → Update
  | rxRd => .rxRptr
  | rxWr => .rxWptr
  | txRd => .txRptr
  | txWr => .txWptr

/-- The copy of the driver. -/
def copy : Ptr → Fifo → BitVec 32
  | rxRd, fifo => fifo.rxFifo.rd
  | rxWr, fifo => fifo.rxFifo.wr
  | txRd, fifo => fifo.txFifo.rd
  | txWr, fifo => fifo.txFifo.wr

/-- A store to the copy of the driver. -/
def store (v : BitVec 32) : Ptr → Fifo → Fifo
  | rxRd, fifo => { fifo with rxFifo := { fifo.rxFifo with rd := v } }
  | rxWr, fifo => { fifo with rxFifo := { fifo.rxFifo with wr := v } }
  | txRd, fifo => { fifo with txFifo := { fifo.txFifo with rd := v } }
  | txWr, fifo => { fifo with txFifo := { fifo.txFifo with wr := v } }

/-- The copy and the register of a pointer are set, masked with the depth of the rx ring whichever
the pointer is. -/
def set (p : Ptr) (v : BitVec 32) (fifo : Fifo) : Fifo × ℤ :=
  let v := v &&& ptrMask fifo.rxFifo.depth
  let fifo := p.store v fifo
  fifo.call p.kind (p.update v)

end Ptr

/-- `ipa_common_fifo_hal_set_rx_fifo_wptr` and `ipa_common_fifo_hal_set_tx_fifo_wptr` behind the
check of the id. -/
def setFifoWptr (p : Ptr) (wptr : BitVec 32) (fifo : Fifo) : Fifo × Bool :=
  if wptr ≠ p.get fifo.regs then
    let (fifo, ret) := p.set wptr fifo
    if ret = 0 then (fifo, false) else (fifo, true)
  else (fifo, true)

/-- `ipa_common_fifo_hal_set_rx_fifo_wptr`. -/
def setRxFifoWptr : BitVec 32 → Fifo → Fifo × Bool := setFifoWptr .rxWr

/-- `ipa_common_fifo_hal_set_tx_fifo_wptr`. -/
def setTxFifoWptr : BitVec 32 → Fifo → Fifo × Bool := setFifoWptr .txWr

/-- One pointer of `ipa_common_fifo_hal_set_rx_tx_fifo_ptr`: `ptr` is what its register had at the
start, `ret1` the result so far. -/
def setPtr (p : Ptr) (ptr v : BitVec 32) : Fifo × ℤ → Fifo × ℤ
  | (fifo, ret1) =>
    if v ≠ ptr then
      let (fifo, ret) := p.set v fifo
      (fifo, if ret = 0 then eio else ret1)
    else (fifo, ret1)

/-- `ipa_common_fifo_hal_set_rx_tx_fifo_ptr` behind the check of the id. -/
def setRxTxFifoPtr (rxRd rxWr txRd txWr : BitVec 32) (fifo : Fifo) : Fifo × ℤ :=
  let txWptr := getTxFifoWptr fifo.regs
  let txRptr := getTxFifoRptr fifo.regs
  let rxWptr := getRxFifoWptr fifo.regs
  let rxRptr := getRxFifoRptr fifo.regs
  let s := setPtr .rxRd rxRptr rxRd (fifo, 0)
  let s := setPtr .rxWr rxWptr rxWr s
  let s := setPtr .txRd txRptr txRd s
  setPtr .txWr txWptr txWr s

/-- `IPA_TXFIFO_INT_DELAY_TIMER_SW_EN`. -/
def intDelayTimerSwEn : BitVec 32 := 1 <<< 9

/-- `ipa_common_fifo_hal_set_intr_timeout` behind the check of the id. -/
def setIntrTimeout (enable time : BitVec 32) (fifo : Fifo) : Fifo × ℤ :=
  if enable ≠ 0 then
    let (fifo, ret) := fifo.call .delayTimer (setTxFifoInterruptDelayTimer time)
    if ret ≠ 0 then fifo.call .intBit (enableIntBit intDelayTimerSwEn) else (fifo, ret)
  else fifo.call .intBit (disableIntBit intDelayTimerSwEn)

/-- `ipa_common_fifo_hal_enable_remote_flowctrl_intr` behind the check of the id. -/
def enableRemoteFlowctrlIntr (workMode txEntry txExit rxEntry rxExit : BitVec 32) (fifo : Fifo) :
    Fifo × ℤ :=
  let (fifo, ret) := fifo.call .txExit (setTxFifoExitFlowCtrlWatermark txExit)
  if ret = 0 then (fifo, ret)
  else
    let (fifo, ret) := fifo.call .txEntry (setTxFifoEntryFlowCtrlWatermark txEntry)
    if ret = 0 then (fifo, ret)
    else
      let (fifo, ret) := fifo.call .rxExit (setRxFifoExitFlowCtrlWatermark rxExit)
      if ret = 0 then (fifo, ret)
      else
        let (fifo, ret) := fifo.call .rxEntry (setRxFifoEntryFlowCtrlWatermark rxEntry)
        if ret = 0 then (fifo, ret)
        else fifo.call .flowCtrl (setFlowCtrlConfig workMode)

/-! ## The operations -/

/-- `SIPA_FIFO_MAX`. -/
def sipaFifoMax : ℕ := 2

/-- The operations with their arguments. -/
inductive FifoOp
  | putNodeToRxFifo (num : BitVec 32)
  | setRxFifoWptr (wptr : BitVec 32)
  | setTxFifoWptr (wptr : BitVec 32)
  | setRxTxFifoPtr (rxRd rxWr txRd txWr : BitVec 32)
  | setRxFifoWr (num : BitVec 32)
  | setTxFifoRp (txRd : BitVec 32)
  | setIntrTimeout (enable time : BitVec 32)
  | enableRemoteFlowctrlIntr (workMode txEntry txExit rxEntry rxExit : BitVec 32)

/-- An operation on its FIFO, with whether its result says that it succeeded. -/
def FifoOp.run : FifoOp → Fifo → Fifo × Bool
  | putNodeToRxFifo num, fifo =>
    let (fifo, ret) := putPktToCacheRxFifo num fifo
    (fifo, decide (0 ≤ ret))
  | setRxFifoWptr wptr, fifo => FifoHal.setRxFifoWptr wptr fifo
  | setTxFifoWptr wptr, fifo => FifoHal.setTxFifoWptr wptr fifo
  | setRxTxFifoPtr rxRd rxWr txRd txWr, fifo =>
    let (fifo, ret) := FifoHal.setRxTxFifoPtr rxRd rxWr txRd txWr fifo
    (fifo, decide (ret = 0))
  | setRxFifoWr num, fifo =>
    let (fifo, ret) := FifoHal.setRxFifoWr num fifo
    (fifo, decide (ret = 0))
  | setTxFifoRp txRd, fifo =>
    let (fifo, ret) := FifoHal.setTxFifoRp txRd fifo
    (fifo, decide (ret = 0))
  | setIntrTimeout enable time, fifo =>
    let (fifo, ret) := FifoHal.setIntrTimeout enable time fifo
    (fifo, decide (ret = 0))
  | enableRemoteFlowctrlIntr workMode txEntry txExit rxEntry rxExit, fifo =>
    let (fifo, ret) :=
      FifoHal.enableRemoteFlowctrlIntr workMode txEntry txExit rxEntry rxExit fifo
    (fifo, decide (ret = 0))

/-- A call for an id, which an operation checks first. -/
def FifoOp.exec (op : FifoOp) (id : ℕ) (cfgBase : ℕ → Fifo) : (ℕ → Fifo) × Bool :=
  if id < sipaFifoMax then
    let (fifo, success) := op.run { cfgBase id with tried := [] }
    (Function.update cfgBase id fifo, success)
  else (cfgBase, false)

/-! ## When an update reads back correctly -/

/-- The high half of a register reads as `v` after it has been set, by the `k`th store from now. -/
def HighOk (k : ℕ) (v : BitVec 32) (c : Cell (BitVec 32)) : Prop :=
  v ≤ 0xFFFF#32 ∧ (c.takes k = true ∨ c.value >>> 16 = v)

/-- The low half of a register reads as `v` after it has been set, by the `k`th store from now. -/
def LowOk (k : ℕ) (v : BitVec 32) (c : Cell (BitVec 32)) : Prop :=
  v ≤ 0xFFFF#32 ∧ (c.takes k = true ∨ c.value &&& 0x0000FFFF#32 = v)

section Updates

variable {r r' : Reg} {v w : BitVec 32} {regs : Regs} {c : Cell (BitVec 32)} {p q : Ptr}
  {fifo : Fifo}

@[simp] theorem modify_self (r : Reg) (set : BitVec 32 → BitVec 32) (regs : Regs) :
    modify r set regs r = (regs r).update set := Function.update_self ..

theorem modify_of_ne (set : BitVec 32 → BitVec 32) (regs : Regs) (h : r' ≠ r) :
    modify r set regs r' = regs r' := Function.update_of_ne h ..

@[simp] theorem readBack_eq_zero (b : Bool) : readBack b = 0 ↔ b = true := by
  cases b
  all_goals simp [readBack, eio]

theorem high_update_iff (v : BitVec 32) (c : Cell (BitVec 32)) :
    (c.update (setHigh v)).value >>> 16 = v ↔ HighOk 0 v c := by
  by_cases hv : v ≤ 0xFFFF#32
  · rw [Cell.holds_update_iff (fun x : BitVec 32 ↦ x >>> 16 = v) (high_setHigh hv c.value)]
    exact (and_iff_right hv).symm
  · refine iff_of_false (fun h ↦ hv ?_) fun h ↦ hv h.1
    rw [← h]
    exact high_le _

theorem low_update_iff (v : BitVec 32) (c : Cell (BitVec 32)) :
    (c.update (setLow v)).value &&& 0x0000FFFF#32 = v ↔ LowOk 0 v c := by
  by_cases hv : v ≤ 0xFFFF#32
  · rw [Cell.holds_update_iff (fun x : BitVec 32 ↦ x &&& 0x0000FFFF#32 = v) (low_setLow hv c.value)]
    exact (and_iff_right hv).symm
  · refine iff_of_false (fun h ↦ hv ?_) fun h ↦ hv h.1
    rw [← h]
    exact low_le _

/-- The low half does not depend on what was stored to the high one. -/
theorem lowOk_update (v w : BitVec 32) (c : Cell (BitVec 32)) :
    LowOk 0 w (c.update (setHigh v)) ↔ LowOk 1 w c := by
  unfold LowOk
  rw [Cell.view_update (fun x : BitVec 32 ↦ x &&& 0x0000FFFF#32) (low_setHigh v c.value)]
  rfl

theorem updateHigh_eq_zero_iff : (updateHigh r v regs).2 = 0 ↔ HighOk 0 v (regs r) := by
  rw [updateHigh, readBack_eq_zero, beq_iff_eq, modify_self, high_update_iff]

theorem updateLow_eq_zero_iff : (updateLow r v regs).2 = 0 ↔ LowOk 0 v (regs r) := by
  rw [updateLow, readBack_eq_zero, beq_iff_eq, modify_self, low_update_iff]

theorem checked_eq_zero_iff {update : BitVec 32 → Regs → Regs × ℤ} :
    (checked update v regs).2 = 0 ↔ v ≤ 0xFFFF#32 ∧ (update v regs).2 = 0 := by
  unfold checked
  split
  next h => exact iff_of_false (by simp [einval]) fun hx ↦ BitVec.not_le.mpr h hx.1
  next h => exact (and_iff_right (BitVec.not_lt.mp h)).symm

theorem checked_updateHigh_eq_zero_iff :
    (checked (updateHigh r) v regs).2 = 0 ↔ HighOk 0 v (regs r) := by
  rw [checked_eq_zero_iff, updateHigh_eq_zero_iff]
  exact and_iff_right_of_imp And.left

theorem checked_updateHigh_of_ne (h : r' ≠ r) :
    (checked (updateHigh r) v regs).1 r' = regs r' := by
  unfold checked
  split
  · rfl
  · exact modify_of_ne _ _ h

theorem updateHigh_read (h : (updateHigh r v regs).2 = 0) :
    ((updateHigh r v regs).1 r).value >>> 16 = v := by
  rw [updateHigh, readBack_eq_zero, beq_iff_eq] at h
  exact h

theorem checked_of_le {update : BitVec 32 → Regs → Regs × ℤ} (h : v ≤ 0xFFFF#32) :
    checked update v regs = update v regs := if_neg (BitVec.not_lt.mpr h)

theorem checked_updateHigh_read (h : (checked (updateHigh r) v regs).2 = 0) :
    ((checked (updateHigh r) v regs).1 r).value >>> 16 = v := by
  obtain ⟨hle, hzero⟩ := checked_eq_zero_iff.mp h
  rw [checked_of_le hle]
  exact updateHigh_read hzero

end Updates

/-! ## Pointers -/

namespace Ptr

/-- The register that the update of a pointer stores to. -/
def reg : Ptr → Reg
  | rxRd => .rxFifoRd
  | rxWr => .rxFifoWr
  | txRd => .txFifoRd
  | txWr => .txFifoWrInit

/-- The update of a pointer to `v` reads back correctly. -/
def Ok (p : Ptr) (v : BitVec 32) (fifo : Fifo) : Prop :=
  HighOk 0 (v &&& ptrMask fifo.rxFifo.depth) (fifo.regs p.reg)

variable {p q : Ptr} {v w : BitVec 32} {regs : Regs} {fifo : Fifo} {r : Reg}

theorem reg_injective : Function.Injective reg := by
  intro p q h
  cases p
  all_goals cases q
  all_goals simp_all [reg]

theorem kind_injective : Function.Injective kind := by
  intro p q h
  cases p
  all_goals cases q
  all_goals simp_all [kind]

theorem updateTxFifoWptr_of_not_le (h : ¬ v ≤ 0xFFFF#32) :
    updateTxFifoWptr v regs = (regs, einval) := if_pos (BitVec.not_le.mp h)

/-- Bit 1 does not matter to the pointer. -/
theorem updateTxFifoWptr_of_le (h : v ≤ 0xFFFF#32) :
    (updateTxFifoWptr v regs).2 =
      readBack (((regs .txFifoWrInit).update (setHigh v)).value >>> 16 == v) := by
  have hset (c : Cell (BitVec 32)) :
      (c.update (· ||| 0x2#32)).value >>> 16 = c.value >>> 16 :=
    Cell.view_update (fun x : BitVec 32 ↦ x >>> 16) (high_or (by decide) c.value)
  have hclear (c : Cell (BitVec 32)) :
      (c.update (· &&& 0xFFFFFFFD#32)).value >>> 16 = c.value >>> 16 :=
    Cell.view_update (fun x : BitVec 32 ↦ x >>> 16) (high_and (by decide) c.value)
  have hret : (updateTxFifoWptr v regs).2 =
      readBack (((modify .txFifoWrInit (· &&& 0xFFFFFFFD#32) (modify .txFifoWrInit (· ||| 0x2#32)
        (modify .txFifoWrInit (setHigh v) regs))) .txFifoWrInit).value >>> 16 == v) := by
    rw [updateTxFifoWptr, if_neg (BitVec.not_lt.mpr h)]
  rw [hret, modify_self, modify_self, modify_self, hclear, hset]

theorem updateTxFifoWptr_eq_zero_iff :
    (updateTxFifoWptr v regs).2 = 0 ↔ HighOk 0 v (regs .txFifoWrInit) := by
  by_cases h : v ≤ 0xFFFF#32
  · rw [updateTxFifoWptr_of_le h, readBack_eq_zero, beq_iff_eq, high_update_iff]
  · rw [updateTxFifoWptr_of_not_le h]
    exact iff_of_false (by simp [einval]) fun hx ↦ h hx.1

theorem updateTxFifoWptr_of_ne (h : r ≠ .txFifoWrInit) :
    (updateTxFifoWptr v regs).1 r = regs r := by
  by_cases hv : v ≤ 0xFFFF#32
  · rw [updateTxFifoWptr, if_neg (BitVec.not_lt.mpr hv)]
    dsimp only
    rw [modify_of_ne _ _ h, modify_of_ne _ _ h, modify_of_ne _ _ h]
  · rw [updateTxFifoWptr_of_not_le hv]

theorem update_eq_zero_iff (p : Ptr) (v : BitVec 32) (regs : Regs) :
    (p.update v regs).2 = 0 ↔ HighOk 0 v (regs p.reg) := by
  cases p with
  | rxRd => exact checked_updateHigh_eq_zero_iff
  | rxWr => exact checked_updateHigh_eq_zero_iff
  | txRd => exact checked_updateHigh_eq_zero_iff
  | txWr => exact updateTxFifoWptr_eq_zero_iff

theorem update_of_ne (p : Ptr) (v : BitVec 32) (regs : Regs) (h : r ≠ p.reg) :
    (p.update v regs).1 r = regs r := by
  cases p with
  | rxRd => exact checked_updateHigh_of_ne h
  | rxWr => exact checked_updateHigh_of_ne h
  | txRd => exact checked_updateHigh_of_ne h
  | txWr => exact updateTxFifoWptr_of_ne h

theorem store_regs (p : Ptr) : (p.store v fifo).regs = fifo.regs := by
  cases p
  all_goals rfl

theorem store_depth (p : Ptr) : (p.store v fifo).rxFifo.depth = fifo.rxFifo.depth := by
  cases p
  all_goals rfl

theorem store_tried (p : Ptr) : (p.store v fifo).tried = fifo.tried := by
  cases p
  all_goals rfl

theorem set_eq_zero_iff (p : Ptr) : (p.set v fifo).2 = 0 ↔ p.Ok v fifo := by
  have heq : (p.set v fifo).2 =
      (p.update (v &&& ptrMask fifo.rxFifo.depth) (p.store _ fifo).regs).2 := rfl
  rw [heq, update_eq_zero_iff, store_regs]
  rfl

theorem set_tried (p : Ptr) :
    (p.set v fifo).1.tried = fifo.tried ++ [(p.kind, (p.set v fifo).2)] := by
  have heq : (p.set v fifo).1.tried = (p.store (v &&& ptrMask fifo.rxFifo.depth) fifo).tried ++
      [(p.kind, (p.set v fifo).2)] := rfl
  rw [heq, store_tried]

/-- The update of a pointer does not depend on the other pointers. -/
theorem ok_set_iff (h : q ≠ p) : q.Ok w (p.set v fifo).1 ↔ q.Ok w fifo := by
  have hdepth : (p.set v fifo).1.rxFifo.depth =
      (p.store (v &&& ptrMask fifo.rxFifo.depth) fifo).rxFifo.depth := rfl
  have hregs : (p.set v fifo).1.regs =
      (p.update (v &&& ptrMask fifo.rxFifo.depth) (p.store _ fifo).regs).1 := rfl
  unfold Ok
  rw [hdepth, store_depth, hregs, update_of_ne _ _ _ (reg_injective.ne h), store_regs]

end Ptr

/-! ## All pointers -/

section SetPtrs

variable {p : Ptr} {v : BitVec 32} {hw : Ptr → BitVec 32} {fifo : Fifo} {ret1 : ℤ}
  {xs : List (Ptr × BitVec 32)} {u : Update}

/-- The pointers of a list are set one after the other. -/
def setPtrs (hw : Ptr → BitVec 32) (xs : List (Ptr × BitVec 32)) (s : Fifo × ℤ) : Fifo × ℤ :=
  xs.foldl (fun s x ↦ setPtr x.1 (hw x.1) x.2 s) s

/-- The arguments of `ipa_common_fifo_hal_set_rx_tx_fifo_ptr` in the order of their use. -/
def ptrArgs (rxRd rxWr txRd txWr : BitVec 32) : List (Ptr × BitVec 32) :=
  [(.rxRd, rxRd), (.rxWr, rxWr), (.txRd, txRd), (.txWr, txWr)]

theorem setPtr_of_eq (h : v = hw p) : setPtr p (hw p) v (fifo, ret1) = (fifo, ret1) :=
  if_neg (not_not.mpr h)

theorem setPtr_of_ne (h : v ≠ hw p) : setPtr p (hw p) v (fifo, ret1) =
    ((p.set v fifo).1, if (p.set v fifo).2 = 0 then eio else ret1) := if_pos h

/-- A pointer that is to be set, and whose update reads back correctly. -/
def SetOk (hw : Ptr → BitVec 32) (fifo : Fifo) (x : Ptr × BitVec 32) : Prop :=
  x.2 ≠ hw x.1 ∧ x.1.Ok x.2 fifo

/-- What setting one pointer leaves for the others. -/
theorem setOk_set_iff {x : Ptr × BitVec 32} (h : x.1 ≠ p) :
    SetOk hw (p.set v fifo).1 x ↔ SetOk hw fifo x :=
  and_congr_right fun _ ↦ Ptr.ok_set_iff h

theorem setPtrs_cons (x : Ptr × BitVec 32) (ret1 : ℤ) : setPtrs hw (x :: xs) (fifo, ret1) =
    setPtrs hw xs (setPtr x.1 (hw x.1) x.2 (fifo, ret1)) :=
  rfl

/-- The result is an error if an update has read back correctly. -/
theorem setPtrs_eq_zero_iff (hw : Ptr → BitVec 32) (fifo : Fifo) (ret1 : ℤ)
    (hnodup : (xs.map Prod.fst).Nodup) :
    (setPtrs hw xs (fifo, ret1)).2 = 0 ↔ ret1 = 0 ∧ ∀ x ∈ xs, ¬ SetOk hw fifo x := by
  induction xs generalizing fifo ret1 with
  | nil => exact ⟨fun h ↦ ⟨h, List.forall_mem_nil _⟩, And.left⟩
  | cons x xs ih =>
    obtain ⟨p, v⟩ := x
    obtain ⟨hnot, hnodup⟩ := List.nodup_cons.mp hnodup
    rw [setPtrs_cons, List.forall_mem_cons]
    by_cases hv : v = hw p
    · rw [setPtr_of_eq hv, ih _ _ hnodup]
      exact and_congr_right fun _ ↦ (and_iff_right fun h ↦ h.1 hv).symm
    · have hrest : (∀ x ∈ xs, ¬ SetOk hw (p.set v fifo).1 x) ↔ ∀ x ∈ xs, ¬ SetOk hw fifo x := by
        refine forall₂_congr fun x hx ↦ not_congr (setOk_set_iff fun heq ↦ hnot ?_)
        have hmem : x.1 ∈ xs.map Prod.fst := List.mem_map_of_mem hx
        exact heq ▸ hmem
      rw [setPtr_of_ne hv, ih _ _ hnodup, hrest, ← and_assoc]
      refine and_congr_left fun _ ↦ ?_
      by_cases hok : p.Ok v fifo
      · rw [if_pos ((Ptr.set_eq_zero_iff p).mpr hok)]
        exact iff_of_false (by simp [eio]) fun h ↦ h.2 ⟨hv, hok⟩
      · rw [if_neg (mt (Ptr.set_eq_zero_iff p).mp hok)]
        exact (and_iff_left fun h ↦ hok h.2).symm

/-- The updates of the pointers that differ from their registers are tried. -/
theorem tried_setPtrs_iff (hnodup : (xs.map Prod.fst).Nodup) :
    (u, 0) ∈ (setPtrs hw xs (fifo, ret1)).1.tried ↔
      (u, 0) ∈ fifo.tried ∨ ∃ x ∈ xs, SetOk hw fifo x ∧ x.1.kind = u := by
  induction xs generalizing fifo ret1 with
  | nil => exact (or_iff_left fun ⟨_, hx, _⟩ ↦ List.not_mem_nil hx).symm
  | cons x xs ih =>
    obtain ⟨p, v⟩ := x
    obtain ⟨hnot, hnodup⟩ := List.nodup_cons.mp hnodup
    rw [setPtrs_cons, List.exists_mem_cons_iff, ← or_assoc]
    by_cases hv : v = hw p
    · rw [setPtr_of_eq hv, ih hnodup]
      exact or_congr_left (or_iff_left fun h ↦ h.1.1 hv).symm
    · have hrest : (∃ x ∈ xs, SetOk hw (p.set v fifo).1 x ∧ x.1.kind = u) ↔
          ∃ x ∈ xs, SetOk hw fifo x ∧ x.1.kind = u := by
        refine exists_congr fun x ↦ and_congr_right fun hx ↦ and_congr_left fun _ ↦
          setOk_set_iff fun heq ↦ hnot ?_
        have hmem : x.1 ∈ xs.map Prod.fst := List.mem_map_of_mem hx
        exact heq ▸ hmem
      rw [setPtr_of_ne hv, ih hnodup, hrest, Ptr.set_tried, List.mem_append,
        List.mem_singleton]
      refine or_congr_left (or_congr_right ?_)
      constructor
      · intro h
        obtain ⟨hu, hzero⟩ := Prod.mk.inj h
        exact ⟨⟨hv, (Ptr.set_eq_zero_iff p).mp hzero.symm⟩, hu.symm⟩
      · rintro ⟨⟨-, hok⟩, rfl⟩
        rw [(Ptr.set_eq_zero_iff p).mpr hok]

theorem setPtrs_of_eq (hw : Ptr → BitVec 32) (fifo : Fifo) (ret1 : ℤ)
    (h : ∀ x ∈ xs, x.2 = hw x.1) :
    setPtrs hw xs (fifo, ret1) = (fifo, ret1) := by
  induction xs with
  | nil => rfl
  | cons x xs ih =>
    obtain ⟨hx, hxs⟩ := List.forall_mem_cons.mp h
    rw [setPtrs_cons, setPtr_of_eq hx]
    exact ih hxs

end SetPtrs

/-! ## Calls that go on after a failure -/

/-- A call of the register layer and the name of its update. -/
abbrev Call := Update × (Regs → Regs × ℤ)

/-- The calls are made until one of them returns 0. -/
def untilZero (c : Call) : List Call → Fifo → Fifo × ℤ
  | [], fifo => fifo.call c.1 c.2
  | d :: cs, fifo =>
    if (fifo.call c.1 c.2).2 = 0 then fifo.call c.1 c.2
    else untilZero d cs (fifo.call c.1 c.2).1

/-- None of the calls returns 0. -/
def AllFail (c : Call) : List Call → Regs → Prop
  | [], regs => (c.2 regs).2 ≠ 0
  | d :: cs, regs => (c.2 regs).2 ≠ 0 ∧ AllFail d cs (c.2 regs).1

section UntilZero

variable {c d : Call} {cs : List Call} {fifo : Fifo} {u : Update}

theorem untilZero_eq_zero_iff :
    (untilZero c cs fifo).2 = 0 ↔ ¬ AllFail c cs fifo.regs := by
  induction cs generalizing c fifo with
  | nil => exact not_not.symm
  | cons d cs ih =>
    rw [untilZero]
    by_cases h : (fifo.call c.1 c.2).2 = 0
    · rw [if_pos h]
      exact iff_of_true h fun hf ↦ hf.1 h
    · rw [if_neg h, ih]
      exact not_congr (and_iff_right h).symm

theorem tried_untilZero (h : (u, 0) ∈ (untilZero c cs fifo).1.tried) :
    (u, 0) ∈ fifo.tried ∨ u ∈ (c :: cs).map Prod.fst := by
  induction cs generalizing c fifo with
  | nil =>
    rcases List.mem_append.mp h with hold | hnew
    · exact .inl hold
    · exact .inr (List.mem_singleton.mpr (congrArg Prod.fst (List.mem_singleton.mp hnew)))
  | cons d cs ih =>
    have hcall {u : Update} (h : (u, 0) ∈ (fifo.call c.1 c.2).1.tried) :
        (u, 0) ∈ fifo.tried ∨ u = c.1 := by
      rcases List.mem_append.mp h with hold | hnew
      · exact .inl hold
      · exact .inr (congrArg Prod.fst (List.mem_singleton.mp hnew))
    rw [untilZero] at h
    rw [List.map_cons, List.mem_cons, ← or_assoc]
    split at h
    · exact .inl (hcall h)
    · exact (ih h).imp_left hcall

/-- Of two calls at least one is not made or fails. -/
theorem not_all_tried (hnew : c.1 ∉ (d :: cs).map Prod.fst) (hempty : fifo.tried = []) :
    ¬ ∀ u ∈ (c :: d :: cs).map Prod.fst, (u, 0) ∈ (untilZero c (d :: cs) fifo).1.tried := by
  intro hall
  have hc := hall c.1 List.mem_cons_self
  have hd := hall d.1 (List.mem_cons_of_mem _ List.mem_cons_self)
  have htried : (fifo.call c.1 c.2).1.tried = [(c.1, (fifo.call c.1 c.2).2)] := by
    rw [Fifo.call, hempty]
    rfl
  rw [untilZero] at hc hd
  split at hc
  next h =>
    rw [if_pos h, htried, List.mem_singleton] at hd
    refine hnew ?_
    rw [← (Prod.mk.inj hd).1]
    exact List.mem_cons_self
  next h =>
    rcases tried_untilZero hc with hold | hlater
    · rw [htried, List.mem_singleton] at hold
      exact h (Prod.mk.inj hold).2.symm
    · exact hnew hlater

end UntilZero

/-! ## Interrupts and flow control -/

/-- A bit of `IPA_INT_GEN_CTL_EN` reads as set after it has been set. -/
def EnableOk (intBit : BitVec 32) (c : Cell (BitVec 32)) : Prop :=
  c.takes 0 = true ∨ c.value &&& intBit = intBit

/-- `IPA_FLOW_CTRL_CONFIG` reads as `config` after it has been set. -/
def ConfigOk (config : BitVec 32) (c : Cell (BitVec 32)) : Prop :=
  config &&& 3#32 = config ∧ (c.takes 0 = true ∨ c.value &&& 3#32 = config)

section Controls

variable {r r' : Reg} {v w : BitVec 32} {regs : Regs} {fifo : Fifo}
  {enable time workMode txEntry txExit rxEntry rxExit : BitVec 32}

theorem updateHigh_of_ne (h : r' ≠ r) : (updateHigh r v regs).1 r' = regs r' :=
  modify_of_ne _ _ h

theorem updateLow_of_ne (h : r' ≠ r) : (updateLow r v regs).1 r' = regs r' :=
  modify_of_ne _ _ h

theorem checked_updateLow_eq_zero_iff :
    (checked (updateLow r) v regs).2 = 0 ↔ LowOk 0 v (regs r) := by
  rw [checked_eq_zero_iff, updateLow_eq_zero_iff]
  exact and_iff_right_of_imp And.left

theorem checked_updateLow_of_ne (h : r' ≠ r) :
    (checked (updateLow r) v regs).1 r' = regs r' := by
  unfold checked
  split
  · rfl
  · exact updateLow_of_ne h

theorem enableIntBit_eq_zero_iff :
    (enableIntBit v regs).2 = 0 ↔ EnableOk v (regs .intGenCtlEn) := by
  rw [enableIntBit, readBack_eq_zero, beq_iff_eq, modify_self]
  exact Cell.holds_update_iff (fun x : BitVec 32 ↦ x &&& v = v) (or_and_cancel _ v)

theorem setFlowCtrlConfig_eq_zero_iff :
    (setFlowCtrlConfig v regs).2 = 0 ↔ ConfigOk v (regs .flowCtrlConfig) := by
  rw [setFlowCtrlConfig, readBack_eq_zero, beq_iff_eq, modify_self]
  by_cases hv : v &&& 3#32 = v
  · have hset := and_replace hv (regs .flowCtrlConfig).value
    rw [Cell.holds_update_iff (fun x : BitVec 32 ↦ x &&& 3#32 = v) hset]
    exact (and_iff_right hv).symm
  · refine iff_of_false (fun h ↦ hv ?_) fun h ↦ hv h.1
    rw [← h]
    exact and_and_self _ _

/-- The two halves of a register are set, the high one first. -/
theorem updateLow_updateHigh_eq_zero_iff :
    (updateLow r w (updateHigh r v regs).1).2 = 0 ↔ LowOk 1 w (regs r) := by
  have hcell : (updateHigh r v regs).1 r = (regs r).update (setHigh v) := modify_self ..
  rw [updateLow_eq_zero_iff, hcell, lowOk_update]

/-- The calls of `ipa_common_fifo_hal_set_intr_timeout` that enable the interrupt. -/
theorem setIntrTimeout_eq (h : enable ≠ 0) : setIntrTimeout enable time fifo =
    untilZero (.delayTimer, setTxFifoInterruptDelayTimer time)
      [(.intBit, enableIntBit intDelayTimerSwEn)] fifo := by
  rw [setIntrTimeout, if_pos h]
  exact ite_not _ _ _

theorem timeout_allFail_iff :
    AllFail (.delayTimer, setTxFifoInterruptDelayTimer time)
        [(.intBit, enableIntBit intDelayTimerSwEn)] regs ↔
      ¬ LowOk 0 time (regs .intGenCtlTxFifoValue) ∧
        ¬ EnableOk intDelayTimerSwEn (regs .intGenCtlEn) := by
  refine and_congr (not_congr checked_updateLow_eq_zero_iff)
    (not_congr (enableIntBit_eq_zero_iff.trans ?_))
  have hframe : (setTxFifoInterruptDelayTimer time regs).1 .intGenCtlEn = regs .intGenCtlEn :=
    checked_updateLow_of_ne (by decide)
  rw [hframe]

/-- The calls of `ipa_common_fifo_hal_enable_remote_flowctrl_intr` behind the first one. -/
def remoteCalls (workMode txEntry rxEntry rxExit : BitVec 32) : List Call :=
  [(.txEntry, setTxFifoEntryFlowCtrlWatermark txEntry),
    (.rxExit, setRxFifoExitFlowCtrlWatermark rxExit),
    (.rxEntry, setRxFifoEntryFlowCtrlWatermark rxEntry),
    (.flowCtrl, setFlowCtrlConfig workMode)]

theorem remote_allFail_iff :
    AllFail (.txExit, setTxFifoExitFlowCtrlWatermark txExit)
        (remoteCalls workMode txEntry rxEntry rxExit) regs ↔
      ¬ HighOk 0 txExit (regs .txFifoFlowCtrl) ∧ ¬ LowOk 1 txEntry (regs .txFifoFlowCtrl) ∧
        ¬ HighOk 0 rxExit (regs .rxFifoFlowCtrl) ∧ ¬ LowOk 1 rxEntry (regs .rxFifoFlowCtrl) ∧
        ¬ ConfigOk workMode (regs .flowCtrlConfig) := by
  have htx (r : Reg) (h : r ≠ .txFifoFlowCtrl) :
      (updateLow .txFifoFlowCtrl txEntry (updateHigh .txFifoFlowCtrl txExit regs).1).1 r =
        regs r := (updateLow_of_ne h).trans (updateHigh_of_ne h)
  have hrx (r : Reg) (h : r ≠ .rxFifoFlowCtrl) (regs : Regs) :
      (updateLow .rxFifoFlowCtrl rxEntry (updateHigh .rxFifoFlowCtrl rxExit regs).1).1 r =
        regs r := (updateLow_of_ne h).trans (updateHigh_of_ne h)
  refine and_congr (not_congr updateHigh_eq_zero_iff) (and_congr
    (not_congr updateLow_updateHigh_eq_zero_iff) (and_congr (not_congr ?_) (and_congr
      (not_congr ?_) (not_congr ?_))))
  · refine updateHigh_eq_zero_iff.trans ?_
    rw [← htx .rxFifoFlowCtrl (by decide)]
    rfl
  · refine updateLow_updateHigh_eq_zero_iff.trans ?_
    rw [← htx .rxFifoFlowCtrl (by decide)]
    rfl
  · refine setFlowCtrlConfig_eq_zero_iff.trans ?_
    refine iff_of_eq (congrArg (ConfigOk workMode) ?_)
    exact (hrx .flowCtrlConfig (by decide) _).trans (htx .flowCtrlConfig (by decide))

end Controls

/-! ## Reports -/

/-- The update that a pointer is due if it differs from its register. -/
def duePtr (fifo : Fifo) (x : Ptr × BitVec 32) : Bool := decide (x.2 ≠ x.1.get fifo.regs)

/-- The updates that an operation is to make. -/
def FifoOp.due : FifoOp → Fifo → List Update
  | putNodeToRxFifo _, _ => [.rxWptr]
  | setRxFifoWptr wptr, fifo => (([(.rxWr, wptr)].filter (duePtr fifo)).map fun x ↦ x.1.kind)
  | setTxFifoWptr wptr, fifo => (([(.txWr, wptr)].filter (duePtr fifo)).map fun x ↦ x.1.kind)
  | setRxTxFifoPtr rxRd rxWr txRd txWr, fifo =>
    (((ptrArgs rxRd rxWr txRd txWr).filter (duePtr fifo)).map fun x ↦ x.1.kind)
  | setRxFifoWr _, _ => [.rxWptr]
  | setTxFifoRp _, _ => [.txRptr]
  | setIntrTimeout enable _, _ => if enable ≠ 0 then [.delayTimer, .intBit] else [.intBit]
  | enableRemoteFlowctrlIntr .., _ => [.txExit, .txEntry, .rxExit, .rxEntry, .flowCtrl]

/-- The pointers that an operation sets. -/
def FifoOp.ptrs : FifoOp → List Ptr
  | putNodeToRxFifo _ => [.rxWr]
  | setRxFifoWptr _ => [.rxWr]
  | setTxFifoWptr _ => [.txWr]
  | setRxTxFifoPtr .. => [.rxRd, .rxWr, .txRd, .txWr]
  | setRxFifoWr _ => [.rxWr]
  | setTxFifoRp _ => [.txRd]
  | setIntrTimeout .. => []
  | enableRemoteFlowctrlIntr .. => []

/-- A result tells whether the updates that were due were tried and read back correctly, and the
copies are the registers after a success. -/
structure Tells (due : List Update) (ptrs : List Ptr) (r : Fifo × Bool) : Prop where
  success : r.2 = true ↔ ∀ u ∈ due, (u, 0) ∈ r.1.tried
  copies : r.2 = true → ∀ p ∈ ptrs, p.copy r.1 = p.get r.1.regs

/-- A call for an id reports what happened. -/
structure FifoOp.Reports (op : FifoOp) (id : ℕ) (cfgBase : ℕ → Fifo) : Prop where
  success : (op.exec id cfgBase).2 = true ↔
    id < sipaFifoMax ∧ ∀ u ∈ op.due (cfgBase id), (u, 0) ∈ ((op.exec id cfgBase).1 id).tried
  copies : (op.exec id cfgBase).2 = true →
    ∀ p ∈ op.ptrs, p.copy ((op.exec id cfgBase).1 id) = p.get ((op.exec id cfgBase).1 id).regs

/-- When an operation reports what happened. -/
def FifoOp.Honest : FifoOp → Fifo → Prop
  | putNodeToRxFifo num, fifo => fifo.leftCnt = 0 ∨
    (0 ≤ (fifo.putNum num).toInt ↔
      Ptr.rxWr.Ok (fifo.rxFifo.wr + fifo.putNum num) fifo)
  | setRxFifoWptr wptr, fifo => wptr = Ptr.rxWr.get fifo.regs ∧ Ptr.rxWr.copy fifo = wptr
  | setTxFifoWptr wptr, fifo => wptr = Ptr.txWr.get fifo.regs ∧ Ptr.txWr.copy fifo = wptr
  | setRxTxFifoPtr rxRd rxWr txRd txWr, fifo =>
    (∀ x ∈ ptrArgs rxRd rxWr txRd txWr, x.2 = x.1.get fifo.regs ∧ x.1.copy fifo = x.2) ∨
    (∃ x ∈ ptrArgs rxRd rxWr txRd txWr, x.2 ≠ x.1.get fifo.regs ∧ x.1.Ok x.2 fifo) ∧
      ∃ x ∈ ptrArgs rxRd rxWr txRd txWr, x.2 ≠ x.1.get fifo.regs ∧ ¬ x.1.Ok x.2 fifo
  | setRxFifoWr _, _ => True
  | setTxFifoRp _, _ => True
  | setIntrTimeout enable time, fifo => enable = 0 ∨
    ¬ LowOk 0 time (fifo.regs .intGenCtlTxFifoValue) ∧
      ¬ EnableOk intDelayTimerSwEn (fifo.regs .intGenCtlEn)
  | enableRemoteFlowctrlIntr workMode txEntry txExit rxEntry rxExit, fifo =>
    ¬ HighOk 0 txExit (fifo.regs .txFifoFlowCtrl) ∧
      ¬ LowOk 1 txEntry (fifo.regs .txFifoFlowCtrl) ∧
      ¬ HighOk 0 rxExit (fifo.regs .rxFifoFlowCtrl) ∧
      ¬ LowOk 1 rxEntry (fifo.regs .rxFifoFlowCtrl) ∧
      ¬ ConfigOk workMode (fifo.regs .flowCtrlConfig)

section Reports

variable {op : FifoOp} {id : ℕ} {cfgBase : ℕ → Fifo} {fifo : Fifo} {p : Ptr} {b : Bool}
  {due : List Update} {v : BitVec 32}

/-- A success that contradicts what was tried. -/
theorem not_tells (h : ¬ (b = true ↔ ∀ u ∈ due, (u, 0) ∈ fifo.tried)) {ptrs : List Ptr} :
    ¬ Tells due ptrs (fifo, b) := fun ht ↦ h ht.success

theorem forall_tried_singleton_iff {u : Update} {ret : ℤ} {tried : List (Update × ℤ)}
    (h : tried = [(u, ret)]) : (∀ u' ∈ [u], (u', 0) ∈ tried) ↔ ret = 0 := by
  rw [List.forall_mem_singleton, h, List.mem_singleton, Prod.mk.injEq]
  exact (and_iff_right rfl).trans eq_comm

theorem get_update (hp : p ≠ .txWr) {regs : Regs} (h : (p.update v regs).2 = 0) :
    p.get (p.update v regs).1 = v := by
  cases p with
  | rxRd => exact checked_updateHigh_read h
  | rxWr => exact checked_updateHigh_read h
  | txRd => exact checked_updateHigh_read h
  | txWr => exact absurd rfl hp

/-- The copy of a pointer is moved first and the register follows. -/
theorem tells_call_iff (p : Ptr) (fifo : Fifo) (hp : p ≠ .txWr) (hempty : fifo.tried = []) :
    Tells [p.kind] [p] ((fifo.call p.kind (p.update (p.copy fifo))).1, b) ↔
      (b = true ↔ HighOk 0 (p.copy fifo) (fifo.regs p.reg)) := by
  have htried : (fifo.call p.kind (p.update (p.copy fifo))).1.tried =
      [(p.kind, (p.update (p.copy fifo) fifo.regs).2)] := by
    rw [Fifo.call, hempty]
    rfl
  have hdue := (forall_tried_singleton_iff htried).trans (Ptr.update_eq_zero_iff p _ fifo.regs)
  constructor
  · intro h
    exact h.success.trans hdue
  · intro h
    refine ⟨h.trans hdue.symm, fun hb ↦ List.forall_mem_singleton.mpr ?_⟩
    have hget := get_update hp ((Ptr.update_eq_zero_iff p _ fifo.regs).mpr (h.mp hb))
    have hcopy : p.copy (fifo.call p.kind (p.update (p.copy fifo))).1 = p.copy fifo := by
      cases p
      all_goals rfl
    rw [hcopy]
    exact hget.symm

theorem tells_setFifoWptr_iff (hempty : fifo.tried = []) :
    Tells (([(p, v)].filter (duePtr fifo)).map fun x ↦ x.1.kind) [p] (setFifoWptr p v fifo) ↔
      v = p.get fifo.regs ∧ p.copy fifo = v := by
  by_cases hv : v = p.get fifo.regs
  · have hrun : setFifoWptr p v fifo = (fifo, true) := if_neg (not_not.mpr hv)
    have hnone : [(p, v)].filter (duePtr fifo) = [] := by
      rw [List.filter_singleton, duePtr, decide_eq_false (not_not.mpr hv)]
      rfl
    rw [hrun, hnone, and_iff_right hv]
    constructor
    · intro h
      exact (List.forall_mem_singleton.mp (h.copies rfl)).trans hv.symm
    · intro h
      exact ⟨iff_of_true rfl (List.forall_mem_nil _),
        fun _ ↦ List.forall_mem_singleton.mpr (h.trans hv)⟩
  · have hrun : setFifoWptr p v fifo =
        if (p.set v fifo).2 = 0 then ((p.set v fifo).1, false) else ((p.set v fifo).1, true) :=
      if_pos hv
    have hone : [(p, v)].filter (duePtr fifo) = [(p, v)] := by
      rw [List.filter_singleton, duePtr, decide_eq_true hv]
      rfl
    have htried : (p.set v fifo).1.tried = [(p.kind, (p.set v fifo).2)] := by
      rw [Ptr.set_tried, hempty, List.nil_append]
    have hdue := forall_tried_singleton_iff htried
    refine iff_of_false ?_ fun h ↦ hv h.1
    rw [hrun, hone]
    split
    next hz => exact not_tells fun h ↦ Bool.false_ne_true (h.mpr (hdue.mpr hz))
    next hz => exact not_tells fun h ↦ hz (hdue.mp (h.mp rfl))

theorem ite_eq_zero_iff {ret e : ℤ} (he : e ≠ 0) : (if ret ≠ 0 then e else 0) = 0 ↔ ret = 0 := by
  by_cases h : ret = 0
  · rw [if_neg (not_not.mpr h)]
    exact iff_of_true rfl h
  · rw [if_pos h]
    exact iff_of_false he h

/-- A ring without room takes nothing. -/
theorem tells_nospace (hempty : fifo.tried = []) {u : Update} {ptrs : List Ptr} :
    Tells [u] ptrs (fifo, false) := by
  refine ⟨iff_of_false Bool.false_ne_true fun h ↦ ?_, fun h ↦ absurd h Bool.false_ne_true⟩
  have hmem := h u List.mem_cons_self
  rw [hempty] at hmem
  exact List.not_mem_nil hmem

theorem tells_put_iff {num : BitVec 32} (hempty : fifo.tried = []) :
    Tells [.rxWptr] [.rxWr] ((FifoOp.putNodeToRxFifo num).run fifo) ↔
      (FifoOp.putNodeToRxFifo num).Honest fifo := by
  have hrun : (FifoOp.putNodeToRxFifo num).run fifo =
      ((putPktToCacheRxFifo num fifo).1, decide (0 ≤ (putPktToCacheRxFifo num fifo).2)) := rfl
  rw [hrun, putPktToCacheRxFifo]
  by_cases hleft : fifo.leftCnt = 0
  · rw [if_pos hleft]
    exact iff_of_true (tells_nospace hempty) (.inl hleft)
  · rw [if_neg hleft]
    refine Iff.trans ?_ (or_iff_right hleft).symm
    refine (tells_call_iff .rxWr (fifo.advanceRx (fifo.putNum num)) (by decide)
      hempty).trans ?_
    rw [decide_eq_true_iff]
    rfl

theorem tells_setRxFifoWr {num : BitVec 32} (hempty : fifo.tried = []) :
    Tells [.rxWptr] [.rxWr] ((FifoOp.setRxFifoWr num).run fifo) := by
  have hrun : (FifoOp.setRxFifoWr num).run fifo =
      ((setRxFifoWr num fifo).1, decide ((setRxFifoWr num fifo).2 = 0)) := rfl
  rw [hrun, setRxFifoWr]
  by_cases hleft : fifo.leftCnt = 0
  · rw [if_pos hleft]
    exact tells_nospace hempty
  · rw [if_neg hleft]
    refine (tells_call_iff .rxWr (fifo.advanceRx (fifo.putNum num)) (by decide)
      hempty).mpr ?_
    rw [decide_eq_true_iff, ← Ptr.update_eq_zero_iff]
    exact ite_eq_zero_iff (by decide)

theorem tells_setTxFifoRp {txRd : BitVec 32} (hempty : fifo.tried = []) :
    Tells [.txRptr] [.txRd] ((FifoOp.setTxFifoRp txRd).run fifo) := by
  refine (tells_call_iff .txRd (Ptr.store
    ((fifo.txFifo.rd + txRd) &&& ptrMask fifo.txFifo.depth) .txRd fifo) (by decide) hempty).mpr ?_
  rw [decide_eq_true_iff, ← Ptr.update_eq_zero_iff]
  exact ite_eq_zero_iff (by decide)

/-- The updates that are due have been tried with success if each of them reads back correctly. -/
theorem forall_due_tried_iff {xs : List (Ptr × BitVec 32)} (hnodup : (xs.map Prod.fst).Nodup)
    (hempty : fifo.tried = []) (ret1 : ℤ) :
    (∀ u ∈ (xs.filter (duePtr fifo)).map fun x ↦ x.1.kind,
        (u, 0) ∈ (setPtrs (fun p ↦ p.get fifo.regs) xs (fifo, ret1)).1.tried) ↔
      ∀ x ∈ xs, x.2 ≠ x.1.get fifo.regs → x.1.Ok x.2 fifo := by
  rw [List.forall_mem_map]
  constructor
  · intro h x hx hne
    have hmem := h x (List.mem_filter.mpr ⟨hx, decide_eq_true hne⟩)
    rw [tried_setPtrs_iff hnodup, hempty] at hmem
    obtain ⟨y, hy, hok, hkind⟩ := hmem.resolve_left List.not_mem_nil
    have heq : y = x := List.inj_on_of_nodup_map hnodup hy hx (Ptr.kind_injective hkind)
    exact heq ▸ hok.2
  · intro h x hx
    obtain ⟨hx, hdue⟩ := List.mem_filter.mp hx
    have hne : x.2 ≠ x.1.get fifo.regs := of_decide_eq_true hdue
    rw [tried_setPtrs_iff hnodup]
    exact .inr ⟨x, hx, ⟨hne, h x hx hne⟩, rfl⟩

theorem tells_setPtrs_iff (xs : List (Ptr × BitVec 32)) (hnodup : (xs.map Prod.fst).Nodup)
    (hempty : fifo.tried = []) :
    Tells ((xs.filter (duePtr fifo)).map fun x ↦ x.1.kind) (xs.map Prod.fst)
        ((setPtrs (fun p ↦ p.get fifo.regs) xs (fifo, 0)).1,
          decide ((setPtrs (fun p ↦ p.get fifo.regs) xs (fifo, 0)).2 = 0)) ↔
      (∀ x ∈ xs, x.2 = x.1.get fifo.regs ∧ x.1.copy fifo = x.2) ∨
        (∃ x ∈ xs, x.2 ≠ x.1.get fifo.regs ∧ x.1.Ok x.2 fifo) ∧
          ∃ x ∈ xs, x.2 ≠ x.1.get fifo.regs ∧ ¬ x.1.Ok x.2 fifo := by
  have hzero := (setPtrs_eq_zero_iff (fun p ↦ p.get fifo.regs) fifo 0 hnodup).trans
    (and_iff_right rfl)
  have hdue := forall_due_tried_iff hnodup hempty 0
  by_cases hall : ∀ x ∈ xs, x.2 = x.1.get fifo.regs
  · -- nothing is due
    have hrun := setPtrs_of_eq (fun p ↦ p.get fifo.regs) fifo 0 hall
    rw [or_iff_left (fun ⟨⟨x, hx, hne, _⟩, _⟩ ↦ hne (hall x hx))]
    constructor
    · intro h x hx
      have hcopies := h.copies (decide_eq_true (congrArg Prod.snd hrun)) x.1
        (List.mem_map_of_mem hx)
      rw [hrun] at hcopies
      exact ⟨hall x hx, hcopies.trans (hall x hx).symm⟩
    · intro h
      refine ⟨iff_of_true (decide_eq_true (congrArg Prod.snd hrun)) (hdue.mpr fun x hx hne ↦
        absurd (hall x hx) hne), fun _ ↦ ?_⟩
      rw [hrun, List.forall_mem_map]
      exact fun x hx ↦ (h x hx).2.trans (h x hx).1
  · obtain ⟨x, hx, hne⟩ : ∃ x ∈ xs, x.2 ≠ x.1.get fifo.regs := by
      by_contra hnot
      exact hall fun x hx ↦ by_contra fun hne ↦ hnot ⟨x, hx, hne⟩
    rw [or_iff_right fun h ↦ hne (h x hx).1]
    by_cases hsome : ∃ x ∈ xs, x.2 ≠ x.1.get fifo.regs ∧ x.1.Ok x.2 fifo
    · -- the result is an error
      rw [and_iff_right hsome]
      have hfalse : ¬ (setPtrs (fun p ↦ p.get fifo.regs) xs (fifo, 0)).2 = 0 := by
        obtain ⟨y, hy, hok⟩ := hsome
        exact fun h ↦ hzero.mp h y hy hok
      rw [decide_eq_false hfalse]
      constructor
      · intro h
        by_contra hnot
        refine Bool.false_ne_true (h.success.mpr (hdue.mpr fun y hy hne ↦ ?_))
        exact by_contra fun hok ↦ hnot ⟨y, hy, hne, hok⟩
      · rintro ⟨y, hy, hne, hok⟩
        exact ⟨iff_of_false Bool.false_ne_true fun h ↦ hok (hdue.mp h y hy hne),
          fun h ↦ absurd h Bool.false_ne_true⟩
    · -- every update has failed and the result is a success
      refine iff_of_false (fun h ↦ hsome ⟨x, hx, hne, ?_⟩) fun h ↦ hsome h.1
      refine hdue.mp (h.success.mp (decide_eq_true (hzero.mpr fun y hy hok ↦ ?_))) x hx hne
      exact hsome ⟨y, hy, hok⟩

theorem tells_setRxTxFifoPtr_iff {rxRd rxWr txRd txWr : BitVec 32} (hempty : fifo.tried = []) :
    Tells ((FifoOp.setRxTxFifoPtr rxRd rxWr txRd txWr).due fifo)
        (FifoOp.setRxTxFifoPtr rxRd rxWr txRd txWr).ptrs
        ((FifoOp.setRxTxFifoPtr rxRd rxWr txRd txWr).run fifo) ↔
      (FifoOp.setRxTxFifoPtr rxRd rxWr txRd txWr).Honest fifo :=
  tells_setPtrs_iff (ptrArgs rxRd rxWr txRd txWr) (by simp [ptrArgs]) hempty

/-- Calls that go on after a failure tell nothing but that all of them have failed. -/
theorem tells_untilZero_iff (c d : Call) (cs : List Call)
    (hnew : c.1 ∉ (d :: cs).map Prod.fst) (hempty : fifo.tried = []) :
    Tells ((c :: d :: cs).map Prod.fst) [] ((untilZero c (d :: cs) fifo).1,
        decide ((untilZero c (d :: cs) fifo).2 = 0)) ↔ AllFail c (d :: cs) fifo.regs := by
  have hnot := not_all_tried hnew hempty
  constructor
  · intro h
    by_contra hfail
    exact hnot (h.success.mp (decide_eq_true (untilZero_eq_zero_iff.mpr hfail)))
  · intro h
    refine ⟨iff_of_false ?_ hnot, fun _ ↦ List.forall_mem_nil _⟩
    rw [decide_eq_true_iff, untilZero_eq_zero_iff]
    exact not_not.mpr h

theorem tells_setIntrTimeout_iff {enable time : BitVec 32} (hempty : fifo.tried = []) :
    Tells ((FifoOp.setIntrTimeout enable time).due fifo) []
        ((FifoOp.setIntrTimeout enable time).run fifo) ↔
      (FifoOp.setIntrTimeout enable time).Honest fifo := by
  have hrun : (FifoOp.setIntrTimeout enable time).run fifo =
      ((setIntrTimeout enable time fifo).1, decide ((setIntrTimeout enable time fifo).2 = 0)) :=
    rfl
  have hdue : (FifoOp.setIntrTimeout enable time).due fifo =
      if enable ≠ 0 then [.delayTimer, .intBit] else [.intBit] := rfl
  rw [hrun, hdue]
  by_cases h : enable = 0
  · rw [if_neg (not_not.mpr h), setIntrTimeout, if_neg (not_not.mpr h)]
    refine iff_of_true ⟨?_, fun _ ↦ List.forall_mem_nil _⟩ (.inl h)
    have htried : (fifo.call .intBit (disableIntBit intDelayTimerSwEn)).1.tried =
        [(.intBit, (disableIntBit intDelayTimerSwEn fifo.regs).2)] := by
      rw [Fifo.call, hempty]
      rfl
    rw [decide_eq_true_iff]
    exact (forall_tried_singleton_iff htried).symm
  · rw [if_pos h, setIntrTimeout_eq h]
    refine Iff.trans ?_ (or_iff_right h).symm
    rw [← timeout_allFail_iff]
    exact tells_untilZero_iff (.delayTimer, setTxFifoInterruptDelayTimer time)
      (.intBit, enableIntBit intDelayTimerSwEn) [] (by simp) hempty

theorem tells_enableRemoteFlowctrlIntr_iff {workMode txEntry txExit rxEntry rxExit : BitVec 32}
    (hempty : fifo.tried = []) :
    Tells [.txExit, .txEntry, .rxExit, .rxEntry, .flowCtrl] []
        ((FifoOp.enableRemoteFlowctrlIntr workMode txEntry txExit rxEntry rxExit).run fifo) ↔
      (FifoOp.enableRemoteFlowctrlIntr workMode txEntry txExit rxEntry rxExit).Honest fifo := by
  refine Iff.trans ?_ remote_allFail_iff
  exact tells_untilZero_iff (.txExit, setTxFifoExitFlowCtrlWatermark txExit)
    (.txEntry, setTxFifoEntryFlowCtrlWatermark txEntry)
    (remoteCalls workMode txEntry rxEntry rxExit).tail (by simp [remoteCalls]) hempty

theorem tells_run_iff (op : FifoOp) (hempty : fifo.tried = []) :
    Tells (op.due fifo) op.ptrs (op.run fifo) ↔ op.Honest fifo := by
  cases op with
  | putNodeToRxFifo num => exact tells_put_iff hempty
  | setRxFifoWptr wptr => exact tells_setFifoWptr_iff hempty
  | setTxFifoWptr wptr => exact tells_setFifoWptr_iff hempty
  | setRxTxFifoPtr rxRd rxWr txRd txWr => exact tells_setRxTxFifoPtr_iff hempty
  | setRxFifoWr num => exact iff_of_true (tells_setRxFifoWr hempty) trivial
  | setTxFifoRp txRd => exact iff_of_true (tells_setTxFifoRp hempty) trivial
  | setIntrTimeout enable time => exact tells_setIntrTimeout_iff hempty
  | enableRemoteFlowctrlIntr workMode txEntry txExit rxEntry rxExit =>
    exact tells_enableRemoteFlowctrlIntr_iff hempty

/-- What a call for an id of a FIFO leaves. -/
theorem exec_of_lt (op : FifoOp) (cfgBase : ℕ → Fifo) (h : id < sipaFifoMax) :
    op.exec id cfgBase = (Function.update cfgBase id (op.run { cfgBase id with tried := [] }).1,
      (op.run { cfgBase id with tried := [] }).2) := if_pos h

theorem reports_of_lt_iff (op : FifoOp) (cfgBase : ℕ → Fifo) (h : id < sipaFifoMax) :
    op.Reports id cfgBase ↔ Tells (op.due (cfgBase id)) op.ptrs
      (op.run { cfgBase id with tried := [] }) := by
  have hself : (op.exec id cfgBase).1 id = (op.run { cfgBase id with tried := [] }).1 := by
    rw [exec_of_lt op cfgBase h]
    exact Function.update_self ..
  have hres : (op.exec id cfgBase).2 = (op.run { cfgBase id with tried := [] }).2 := by
    rw [exec_of_lt op cfgBase h]
  constructor
  · rintro ⟨hsuccess, hcopies⟩
    rw [hself, hres] at hsuccess hcopies
    exact ⟨hsuccess.trans (and_iff_right h), hcopies⟩
  · rintro ⟨hsuccess, hcopies⟩
    rw [← hself, ← hres] at hsuccess hcopies
    exact ⟨hsuccess.trans (and_iff_right h).symm, hcopies⟩

/-- Without a FIFO nothing is tried. -/
theorem reports_of_not_lt (op : FifoOp) (cfgBase : ℕ → Fifo) (h : ¬ id < sipaFifoMax) :
    op.Reports id cfgBase := by
  have hres : (op.exec id cfgBase).2 = false := by
    rw [FifoOp.exec, if_neg h]
  refine ⟨iff_of_false ?_ fun hx ↦ h hx.1, fun hx ↦ ?_⟩
  · rw [hres]
    exact Bool.false_ne_true
  · exact absurd (hres.symm.trans hx) Bool.false_ne_true

theorem copy_fresh (p : Ptr) (fifo : Fifo) :
    p.copy { fifo with tried := [] } = p.copy fifo := by
  cases p
  all_goals rfl

/-- `Honest` does not look at what was tried before. -/
theorem honest_fresh (op : FifoOp) (fifo : Fifo) :
    op.Honest { fifo with tried := [] } ↔ op.Honest fifo := by
  cases op with
  | setRxTxFifoPtr rxRd rxWr txRd txWr =>
    refine or_congr_left (forall₂_congr fun x _ ↦ and_congr_right fun _ ↦ ?_)
    rw [copy_fresh]
  | _ => exact Iff.rfl

theorem due_fresh (op : FifoOp) (fifo : Fifo) : op.due { fifo with tried := [] } = op.due fifo := by
  cases op
  all_goals rfl

/-- An operation reports what happened exactly in these cases. -/
theorem fifoOp_reports_iff (op : FifoOp) (id : ℕ) (cfgBase : ℕ → Fifo) :
    op.Reports id cfgBase ↔ (id < sipaFifoMax → op.Honest (cfgBase id)) := by
  by_cases h : id < sipaFifoMax
  · rw [reports_of_lt_iff op cfgBase h, ← due_fresh, tells_run_iff op rfl, honest_fresh]
    exact ⟨fun hhonest _ ↦ hhonest, fun hhonest ↦ hhonest h⟩
  · exact iff_of_true (reports_of_not_lt op cfgBase h) fun hlt ↦ absurd hlt h

end Reports

/-- A FIFO of 16 descriptors whose registers take every store. -/
def workingFifo : Fifo where
  regs := fun _ ↦ ⟨0, fun _ ↦ true⟩
  rxFifo := ⟨16, 0, 0⟩
  txFifo := ⟨16, 0, 0⟩
  tried := []

/-- `set_rx_fifo_wptr` says that it has failed after the register was set. -/
theorem fifoOp_reports_setRxFifoWptr :
    ¬ ∀ (op : FifoOp) (id : ℕ) (cfgBase : ℕ → Fifo), op.Reports id cfgBase := by
  intro h
  have hreports := h (.setRxFifoWptr 5) 0 fun _ ↦ workingFifo
  rw [reports_of_lt_iff _ _ (by decide)] at hreports
  have hcopy := (tells_setFifoWptr_iff (p := .rxWr) (v := 5) rfl).mp hreports
  exact absurd hcopy.1 (by decide)

/-! ## Registers that take every store -/

/-- The registers of the pointers that the driver moves, put into `FifoRegs`. -/
def pointerRegs (hal : Regs) (regs : FifoRegs) : FifoRegs :=
  { regs with rxWptr := (getRxFifoWptr hal).toNat, txRptr := (getTxFifoRptr hal).toNat }

/-- The numbers of a FIFO, put into `CmnFifoCfgTag`, whose registers take every store. -/
def Fifo.into (fifo : Fifo) (cfg : CmnFifoCfgTag) : CmnFifoCfgTag :=
  { cfg with
    regs := pointerRegs fifo.regs cfg.regs
    rxFifo := { cfg.rxFifo with depth := fifo.rxFifo.depth.toNat, wr := fifo.rxFifo.wr.toNat }
    txFifo := { cfg.txFifo with depth := fifo.txFifo.depth.toNat, rd := fifo.txFifo.rd.toNat } }

section Into

variable {hal : Regs} {fifo : Fifo} {v depth : BitVec 32}

/-- A pointer that is moved on. -/
theorem toNat_advance (hdepth : 0 < depth) (ptr num : BitVec 32) :
    ((ptr + num) &&& ptrMask depth).toNat =
      Bytes.u32 (ptr.toNat + num.toNat) &&& Sipa.ptrMask depth.toNat := by
  have hle : 1 ≤ depth := BitVec.le_def.mpr (BitVec.lt_def.mp hdepth)
  rw [BitVec.toNat_and, ptrMask, BitVec.toNat_or, BitVec.toNat_sub_of_le hle, BitVec.toNat_add]
  rfl

/-- A store that the register takes is read back. -/
theorem checked_updateHigh_cases {r : Reg} (htakes : (hal r).takes 0 = true) :
    (v.toNat > 0xFFFF ∧ checked (updateHigh r) v hal = (hal, einval)) ∨
      ¬ v.toNat > 0xFFFF ∧ (checked (updateHigh r) v hal).2 = 0 ∧
        ((checked (updateHigh r) v hal).1 r).value >>> 16 = v := by
  by_cases hv : v ≤ 0xFFFF#32
  · have hzero := checked_updateHigh_eq_zero_iff.mpr ⟨hv, .inl htakes⟩
    exact .inr ⟨Nat.not_lt.mpr (BitVec.le_def.mp hv), hzero, checked_updateHigh_read hzero⟩
  · have hlt : v.toNat > 0xFFFF := Nat.not_le.mp fun hle ↦ hv (BitVec.le_def.mpr hle)
    exact .inl ⟨hlt, if_pos (BitVec.not_le.mp hv)⟩

theorem updateRxFifoWptr_pointerRegs (htakes : (hal .rxFifoWr).takes 0 = true)
    (regs : FifoRegs) : (pointerRegs hal regs).updateRxFifoWptr v.toNat =
      (pointerRegs (updateRxFifoWptr v hal).1 regs, (updateRxFifoWptr v hal).2) := by
  have hother : (updateRxFifoWptr v hal).1 .txFifoRd = hal .txFifoRd :=
    checked_updateHigh_of_ne (by decide)
  rw [FifoRegs.updateRxFifoWptr]
  obtain ⟨hlarge, heq⟩ | ⟨hfits, hzero, hread⟩ := checked_updateHigh_cases (v := v) htakes
  · rw [if_pos hlarge, updateRxFifoWptr, heq]
  · have hregs : pointerRegs (updateRxFifoWptr v hal).1 regs =
        { pointerRegs hal regs with rxWptr := v.toNat } := by
      rw [pointerRegs, getTxFifoRptr, hother]
      exact congrArg (fun w : BitVec 32 ↦ { pointerRegs hal regs with rxWptr := w.toNat }) hread
    rw [if_neg hfits, hregs]
    exact Prod.ext rfl ((if_pos rfl).trans hzero.symm)

theorem updateTxFifoRptr_pointerRegs (htakes : (hal .txFifoRd).takes 0 = true)
    (regs : FifoRegs) : (pointerRegs hal regs).updateTxFifoRptr v.toNat =
      (pointerRegs (updateTxFifoRptr v hal).1 regs, (updateTxFifoRptr v hal).2) := by
  have hother : (updateTxFifoRptr v hal).1 .rxFifoWr = hal .rxFifoWr :=
    checked_updateHigh_of_ne (by decide)
  rw [FifoRegs.updateTxFifoRptr]
  obtain ⟨hlarge, heq⟩ | ⟨hfits, hzero, hread⟩ := checked_updateHigh_cases (v := v) htakes
  · rw [if_pos hlarge, updateTxFifoRptr, heq]
  · have hregs : pointerRegs (updateTxFifoRptr v hal).1 regs =
        { pointerRegs hal regs with txRptr := v.toNat } := by
      rw [pointerRegs, getRxFifoWptr, hother]
      exact congrArg (fun w : BitVec 32 ↦ { pointerRegs hal regs with txRptr := w.toNat }) hread
    rw [if_neg hfits, hregs]
    exact Prod.ext rfl ((if_pos rfl).trans hzero.symm)

/-- `set_tx_fifo_rp` is that of `CmnFifoCfgTag` if the register takes the store. -/
theorem setTxFifoRp_into (hdepth : 0 < fifo.txFifo.depth)
    (htakes : (fifo.regs .txFifoRd).takes 0 = true) (num : BitVec 32) (cfg : CmnFifoCfgTag) :
    (fifo.into cfg).setTxFifoRp num.toNat =
      ((setTxFifoRp num fifo).1.into cfg, (setTxFifoRp num fifo).2) := by
  have hrd := toNat_advance hdepth fifo.txFifo.rd num
  rw [CmnFifoCfgTag.setTxFifoRp, Fifo.into]
  dsimp only
  rw [← hrd, updateTxFifoRptr_pointerRegs htakes]
  rfl

/-- So is `set_rx_fifo_wr`, if the hardware shows how far the ring is filled. -/
theorem setRxFifoWr_into (hdepth : 0 < fifo.rxFifo.depth)
    (htakes : (fifo.regs .rxFifoWr).takes 0 = true) (num : BitVec 32) {cfg : CmnFifoCfgTag}
    (hfilled : (fifo.into cfg).regs.rxFifoFilledDepth fifo.rxFifo.depth.toNat =
      (getRxFifoFilledDepth fifo.regs).toNat) :
    (fifo.into cfg).setRxFifoWr num.toNat =
      ((setRxFifoWr num fifo).1.into cfg, (setRxFifoWr num fifo).2) := by
  have hleft : Bytes.u32 ((fifo.into cfg).rxFifo.depth -
      (fifo.into cfg).regs.rxFifoFilledDepth (fifo.into cfg).rxFifo.depth) =
        fifo.leftCnt.toNat := by
    refine (congrArg (fun n : ℕ ↦ Bytes.u32 (fifo.rxFifo.depth.toNat - n)) hfilled).trans ?_
    rw [Fifo.leftCnt, BitVec.toNat_sub, Bytes.u32]
    omega
  have hnum : min num.toNat fifo.leftCnt.toNat = (fifo.putNum num).toNat := by
    rw [Fifo.putNum]
    split
    next hlt => exact min_eq_right (Nat.le_of_lt (BitVec.lt_def.mp hlt))
    next hle => exact min_eq_left (Nat.not_lt.mp fun hlt ↦ hle (BitVec.lt_def.mpr hlt))
  have hwr : (fifo.into cfg).nextRxWr (fifo.putNum num).toNat = _ :=
    (toNat_advance hdepth fifo.rxFifo.wr (fifo.putNum num)).symm
  rw [setRxFifoWr]
  by_cases hzero : fifo.leftCnt = 0
  · rw [if_pos hzero]
    exact if_pos (hleft.trans (congrArg BitVec.toNat hzero))
  · have hne : fifo.leftCnt.toNat ≠ 0 := fun heq ↦ hzero (BitVec.eq_of_toNat_eq heq)
    have hregs := updateRxFifoWptr_pointerRegs htakes cfg.regs
      (v := (fifo.rxFifo.wr + fifo.putNum num) &&& ptrMask fifo.rxFifo.depth)
    simp only [CmnFifoCfgTag.setRxFifoWr, hleft, hnum, hwr, if_neg hzero, if_neg hne]
    rw [Fifo.into, hregs]
    rfl

end Into

end Wwan.Sipa.FifoHal
