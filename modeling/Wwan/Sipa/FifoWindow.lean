import Wwan.Sipa.CommonFifo

/-!
# The windows of the rings

What each access to the FIFO does to the descriptors that are published and to those that are
returned, for a depth that is a power of two. The pointers of the driver agree with their registers
as long as they fit. They always fit if twice the depth does; else they fit as long as neither has
wrapped.
-/

namespace Wwan.Sipa

open Wwan Bytes

namespace CmnFifoCfgTag

/-- The pointers of a FIFO of depth `2 ^ k`, while the hardware has fetched `n` descriptors and not
returned them. -/
structure Pointers (k n : ℕ) (cfg : CmnFifoCfgTag) : Prop where
  rxDepth : cfg.rxFifo.depth = 2 ^ k
  txDepth : cfg.txFifo.depth = 2 ^ k
  rxWr : cfg.regs.rxWptr = cfg.rxFifo.wr
  txRd : cfg.regs.txRptr = cfg.txFifo.rd
  rxWptr : cfg.regs.rxWptr < 2 * 2 ^ k
  rxRptr : cfg.regs.rxRptr < 2 * 2 ^ k
  txWptr : cfg.regs.txWptr < 2 * 2 ^ k
  txRptr : cfg.regs.txRptr < 2 * 2 ^ k
  /-- The registers have room for all pointers, or for those so far. -/
  fits : k ≤ 15 ∨ cfg.regs.txRptr ≤ cfg.regs.txWptr ∧ cfg.regs.txWptr + n = cfg.regs.rxRptr ∧
    cfg.regs.rxRptr ≤ cfg.regs.rxWptr ∧ cfg.regs.rxWptr ≤ 0xFFFF

variable {k n : ℕ} {cfg : CmnFifoCfgTag}

theorem pointers_opened (k cur : ℕ) : (opened (2 ^ k) cur).Pointers k 0 where
  rxDepth := rfl
  txDepth := rfl
  rxWr := rfl
  txRd := rfl
  rxWptr := Nat.mul_pos Nat.two_pos (Nat.two_pow_pos k)
  rxRptr := Nat.mul_pos Nat.two_pos (Nat.two_pow_pos k)
  txWptr := Nat.mul_pos Nat.two_pos (Nat.two_pow_pos k)
  txRptr := Nat.mul_pos Nat.two_pos (Nat.two_pow_pos k)
  fits := .inr ⟨le_rfl, rfl, le_rfl, Nat.zero_le _⟩

theorem rxWindow_opened (depth cur : ℕ) : (opened depth cur).rxWindow = [] := Ring.window_zero ..

theorem txWindow_opened (depth cur : ℕ) : (opened depth cur).txWindow = [] := Ring.window_zero ..

/-- A small depth leaves the pointers in 16 bits. -/
theorem two_mul_le (hk : k ≤ 15) : 2 * 2 ^ k ≤ 2 ^ 16 := by
  rw [← Nat.pow_succ']
  exact Nat.pow_le_pow_right Nat.two_pos (by omega)

namespace Pointers

variable (h : cfg.Pointers k n)

include h

theorem length_rxWindow :
    cfg.rxWindow.length = Ring.dist (2 * 2 ^ k) cfg.regs.rxRptr cfg.regs.rxWptr := by
  rw [rxWindow, Ring.length_window, h.rxDepth]

theorem length_txWindow :
    cfg.txWindow.length = Ring.dist (2 * 2 ^ k) cfg.regs.txRptr cfg.regs.txWptr := by
  rw [txWindow, Ring.length_window, h.txDepth]

theorem length_rxWindow_lt : cfg.rxWindow.length < 2 ^ 16 := by
  have hdist := h.length_rxWindow
  have hcases := Ring.dist_cases h.rxRptr h.rxWptr
  have hwptr := h.rxWptr
  rcases h.fits with hk | hfits
  · have := two_mul_le hk
    omega
  · omega

theorem length_txWindow_lt : cfg.txWindow.length < 2 ^ 16 := by
  have hdist := h.length_txWindow
  have hcases := Ring.dist_cases h.txRptr h.txWptr
  have hwptr := h.txWptr
  rcases h.fits with hk | hfits
  · have := two_mul_le hk
    omega
  · omega

/-- The hardware reports what has been published. -/
theorem rxFifoFilledDepth_eq :
    cfg.regs.rxFifoFilledDepth cfg.rxFifo.depth = cfg.rxWindow.length := by
  have hlt := h.length_rxWindow_lt
  rw [h.length_rxWindow] at hlt ⊢
  rw [FifoRegs.rxFifoFilledDepth, h.rxDepth, Nat.mod_eq_of_lt hlt]

/-- The free thread is told how many descriptors were returned. -/
theorem recvNodeFromTxFifo_eq : cfg.recvNodeFromTxFifo = cfg.txWindow.length := by
  have hlt := h.length_txWindow_lt
  rw [h.length_txWindow] at hlt ⊢
  rw [recvNodeFromTxFifo, FifoRegs.txFifoFilledDepth, h.txDepth, Nat.mod_eq_of_lt hlt]

/-- Descriptors are written behind those that were published. -/
theorem rxSlot_eq (hk : k ≤ 31) (i : ℕ) : cfg.rxSlot i = (cfg.regs.rxWptr + i) % 2 ^ k := by
  have hslot := u32_and_slot (k := k) (x := cfg.rxFifo.wr) (y := i) (by omega)
  rw [rxSlot, h.rxDepth, hslot, h.rxWr]

/-- The descriptors that were returned are read in their order. -/
theorem getTxFifoRp_eq (hk : k ≤ 31) {i : ℕ} (hi : i < cfg.txWindow.length) :
    cfg.getTxFifoRp i = cfg.txWindow[i] := by
  have hslot := u32_and_slot (k := k) (x := cfg.txFifo.rd) (y := i) (by omega)
  simp only [txWindow, Ring.getElem_window]
  rw [getTxFifoRp, txSlot, h.txDepth, hslot, h.txRd]

/-! ## The hardware -/

/-- A descriptor is fetched. -/
theorem rxWindow_hwFetch (hne : cfg.regs.rxRptr ≠ cfg.regs.rxWptr) :
    cfg.rxWindow = cfg.hwNode :: cfg.hwFetch.rxWindow := by
  simp only [rxWindow, hwNode, hwFetch, h.rxDepth]
  exact Ring.window_succ_left _ (Nat.dvd_mul_left _ _) h.rxRptr h.rxWptr hne.symm

theorem hwFetch (hne : cfg.regs.rxRptr ≠ cfg.regs.rxWptr) : cfg.hwFetch.Pointers k (n + 1) where
  rxDepth := h.rxDepth
  txDepth := h.txDepth
  rxWr := h.rxWr
  txRd := h.txRd
  rxWptr := h.rxWptr
  rxRptr := by
    have hpos := Nat.two_pow_pos k
    simp only [CmnFifoCfgTag.hwFetch, h.rxDepth]
    exact Nat.mod_lt _ (by omega)
  txWptr := h.txWptr
  txRptr := h.txRptr
  fits := by
    refine h.fits.imp id fun hfits ↦ ?_
    have hlt := h.rxWptr
    simp only [CmnFifoCfgTag.hwFetch, h.rxDepth]
    rw [Nat.mod_eq_of_lt (by omega)]
    omega

/-- A descriptor is returned. -/
theorem txWindow_hwReturn (node : NodeDescriptionTag) (hroom : cfg.txWindow.length < 2 ^ k) :
    (cfg.hwReturn node).txWindow = cfg.txWindow ++ [node] := by
  rw [h.length_txWindow] at hroom
  simp only [txWindow, hwReturn, h.txDepth]
  exact Ring.window_push _ (Nat.dvd_mul_left _ _) h.txRptr h.txWptr node hroom (by omega)

theorem hwReturn (node : NodeDescriptionTag) (hpos : 0 < n) :
    (cfg.hwReturn node).Pointers k (n - 1) where
  rxDepth := h.rxDepth
  txDepth := h.txDepth
  rxWr := h.rxWr
  txRd := h.txRd
  rxWptr := h.rxWptr
  rxRptr := h.rxRptr
  txWptr := by
    have hpow := Nat.two_pow_pos k
    simp only [CmnFifoCfgTag.hwReturn, h.txDepth]
    exact Nat.mod_lt _ (by omega)
  txRptr := h.txRptr
  fits := by
    refine h.fits.imp id fun hfits ↦ ?_
    have hlt := h.rxWptr
    simp only [CmnFifoCfgTag.hwReturn, h.txDepth]
    rw [Nat.mod_eq_of_lt (by omega)]
    omega

/-! ## The driver -/

theorem nextRxWr_eq (hk : k ≤ 31) (num : ℕ) :
    cfg.nextRxWr num = (cfg.regs.rxWptr + num) % (2 * 2 ^ k) := by
  have hmask := u32_and_ptrMask (k := k) (x := cfg.rxFifo.wr) (y := num) (by omega)
  rw [nextRxWr, h.rxDepth, hmask, h.rxWr]

/-- The pointer that is published fits, if the depth is small. -/
theorem nextRxWr_le (hk : k ≤ 15) (num : ℕ) : cfg.nextRxWr num ≤ 0xFFFF := by
  have hlt := Nat.mod_lt (cfg.regs.rxWptr + num) (Nat.mul_pos Nat.two_pos (Nat.two_pow_pos k))
  have hle := two_mul_le hk
  rw [h.nextRxWr_eq (by omega)]
  omega

/-- What `set_rx_fifo_wr` does while there is room and the pointer fits. -/
theorem setRxFifoWr_eq (hk : k ≤ 31) {num : ℕ} (hpos : 0 < num)
    (hroom : cfg.rxWindow.length + num ≤ 2 ^ k) (hfit : cfg.nextRxWr num ≤ 0xFFFF) :
    (cfg.setRxFifoWr num).1 =
      { cfg with
        regs := { cfg.regs with rxWptr := cfg.nextRxWr num }
        rxFifo := { cfg.rxFifo with wr := cfg.nextRxWr num } } := by
  have hdepth : 2 ^ k < 2 ^ 32 := Nat.pow_lt_pow_right (by omega) (by omega)
  have hleft : u32 (cfg.rxFifo.depth - cfg.regs.rxFifoFilledDepth cfg.rxFifo.depth) =
      2 ^ k - cfg.rxWindow.length := by
    rw [h.rxFifoFilledDepth_eq, h.rxDepth, ← Int.natCast_sub (by omega)]
    exact u32_natCast (by omega)
  have hmin : min num (2 ^ k - cfg.rxWindow.length) = num := by omega
  simp only [setRxFifoWr, hleft, hmin, FifoRegs.updateRxFifoWptr]
  rw [if_neg (by omega), if_neg (by omega)]

/-- A descriptor that is written behind others is not published. -/
theorem write (hk : k ≤ 31) {i : ℕ} (des : NodeDescriptionTag)
    (hroom : cfg.rxWindow.length + i < 2 ^ k) :
    (cfg.writeRxNode i des).rxWindow = cfg.rxWindow ∧ (cfg.writeRxNode i des).Pointers k n := by
  rw [h.length_rxWindow] at hroom
  refine ⟨?_, h.rxDepth, h.txDepth, h.rxWr, h.txRd, h.rxWptr, h.rxRptr, h.txWptr, h.txRptr,
    h.fits⟩
  simp only [rxWindow, writeRxNode, h.rxSlot_eq hk, h.rxDepth]
  exact Ring.window_update _ des
    (Ring.add_notMem_live (Nat.dvd_mul_left _ _) h.rxRptr h.rxWptr hroom)

section Publish

variable (hk : k ≤ 31) (des : NodeDescriptionTag) (hroom : cfg.rxWindow.length < 2 ^ k)
  (hfit : cfg.nextRxWr 1 ≤ 0xFFFF)

include hk hroom hfit

/-- A descriptor is published. -/
theorem publish_eq :
    ((cfg.writeRxNode 0 des).setRxFifoWr 1).1 =
      { cfg with
        regs := { cfg.regs with rxWptr := cfg.nextRxWr 1 }
        rxFifo :=
          { cfg.rxFifo with
            wr := cfg.nextRxWr 1
            node := Function.update cfg.rxFifo.node (cfg.rxSlot 0) des } } := by
  obtain ⟨hwin, hptr⟩ := h.write hk (i := 0) des hroom
  refine hptr.setRxFifoWr_eq hk Nat.one_pos ?_ hfit
  rw [hwin]
  exact hroom

theorem rxWindow_publish :
    ((cfg.writeRxNode 0 des).setRxFifoWr 1).1.rxWindow = cfg.rxWindow ++ [des] := by
  rw [h.publish_eq hk des hroom hfit]
  rw [h.length_rxWindow] at hroom
  simp only [rxWindow, h.rxSlot_eq hk, Nat.add_zero, h.rxDepth, h.nextRxWr_eq hk]
  exact Ring.window_push _ (Nat.dvd_mul_left _ _) h.rxRptr h.rxWptr des hroom (by omega)

theorem txWindow_publish :
    ((cfg.writeRxNode 0 des).setRxFifoWr 1).1.txWindow = cfg.txWindow := by
  rw [h.publish_eq hk des hroom hfit]
  rfl

theorem publish : ((cfg.writeRxNode 0 des).setRxFifoWr 1).1.Pointers k n := by
  have hlt := Nat.mod_lt (cfg.regs.rxWptr + 1) (Nat.mul_pos Nat.two_pos (Nat.two_pow_pos k))
  have hnext := h.nextRxWr_eq hk 1
  rw [h.publish_eq hk des hroom hfit]
  refine ⟨h.rxDepth, h.txDepth, rfl, h.txRd, ?_, h.rxRptr, h.txWptr, h.txRptr, ?_⟩
  · simp only [hnext]
    exact hlt
  · rcases h.fits with hsmall | hfits
    · exact .inl hsmall
    · rcases Nat.lt_or_ge 15 k with hbig | hsmall
      · -- the pointer has not wrapped
        have hpow : 2 ^ 16 ≤ 2 ^ k := Nat.pow_le_pow_right Nat.two_pos hbig
        rw [Nat.mod_eq_of_lt (by omega)] at hnext
        refine .inr ⟨hfits.1, hfits.2.1, ?_, hfit⟩
        simp only [hnext]
        omega
      · exact .inl hsmall

end Publish

section PublishMany

variable (hk : k ≤ 15) {num : ℕ} (hpos : 0 < num) (hroom : cfg.rxWindow.length + num ≤ 2 ^ k)

include hk hpos hroom

/-- The descriptors that were written are published together. -/
theorem rxWindow_setRxFifoWr :
    (cfg.setRxFifoWr num).1.rxWindow =
      cfg.rxWindow ++ Ring.contents cfg.rxFifo.node (2 ^ k) cfg.regs.rxWptr num := by
  rw [h.setRxFifoWr_eq (by omega) hpos hroom (h.nextRxWr_le hk num)]
  rw [h.length_rxWindow] at hroom
  simp only [rxWindow, h.rxDepth, h.nextRxWr_eq (show k ≤ 31 by omega)]
  exact Ring.window_add_right _ (Nat.dvd_mul_left _ _) h.rxRptr h.rxWptr
    (by have := Nat.two_pow_pos k; omega)

theorem setRxFifoWr : (cfg.setRxFifoWr num).1.Pointers k n := by
  have hlt := Nat.mod_lt (cfg.regs.rxWptr + num) (Nat.mul_pos Nat.two_pos (Nat.two_pow_pos k))
  rw [h.setRxFifoWr_eq (by omega) hpos hroom (h.nextRxWr_le hk num),
    h.nextRxWr_eq (by omega)]
  exact ⟨h.rxDepth, h.txDepth, rfl, h.txRd, hlt, h.rxRptr, h.txWptr, h.txRptr, .inl hk⟩

/-- Publishing leaves what was returned. -/
theorem txWindow_setRxFifoWr : (cfg.setRxFifoWr num).1.txWindow = cfg.txWindow := by
  rw [h.setRxFifoWr_eq (by omega) hpos hroom (h.nextRxWr_le hk num)]
  rfl

end PublishMany

section SetRp

variable (hk : k ≤ 31) {num : ℕ} (hnum : num ≤ cfg.txWindow.length)

include hk hnum

/-- What `set_tx_fifo_rp` does: the pointer fits. -/
theorem setTxFifoRp_eq :
    (cfg.setTxFifoRp num).1 =
      { cfg with
        regs := { cfg.regs with txRptr := (cfg.regs.txRptr + num) % (2 * 2 ^ k) }
        txFifo := { cfg.txFifo with rd := (cfg.regs.txRptr + num) % (2 * 2 ^ k) } } := by
  have hmask := u32_and_ptrMask (k := k) (x := cfg.txFifo.rd) (y := num) (by omega)
  have hlt := Nat.mod_lt (cfg.regs.txRptr + num) (Nat.mul_pos Nat.two_pos (Nat.two_pow_pos k))
  have hfit : ¬ (cfg.regs.txRptr + num) % (2 * 2 ^ k) > 0xFFFF := by
    rcases h.fits with hsmall | hfits
    · have hle := two_mul_le hsmall
      omega
    · have hcases := Ring.dist_cases h.txRptr h.txWptr
      have hlen := h.length_txWindow
      have hmod := Nat.mod_le (cfg.regs.txRptr + num) (2 * 2 ^ k)
      omega
  rw [← h.txRd] at hmask
  simp only [CmnFifoCfgTag.setTxFifoRp, h.txDepth, ← h.txRd, hmask, FifoRegs.updateTxFifoRptr,
    if_neg hfit]

theorem txWindow_setTxFifoRp : (cfg.setTxFifoRp num).1.txWindow = cfg.txWindow.drop num := by
  rw [h.setTxFifoRp_eq hk hnum]
  rw [h.length_txWindow] at hnum
  simp only [txWindow, h.txDepth]
  exact Ring.window_add_left _ (Nat.dvd_mul_left _ _) h.txRptr h.txWptr hnum

theorem rxWindow_setTxFifoRp : (cfg.setTxFifoRp num).1.rxWindow = cfg.rxWindow := by
  rw [h.setTxFifoRp_eq hk hnum]
  rfl

theorem setTxFifoRp : (cfg.setTxFifoRp num).1.Pointers k n := by
  have hlt := Nat.mod_lt (cfg.regs.txRptr + num) (Nat.mul_pos Nat.two_pos (Nat.two_pow_pos k))
  rw [h.setTxFifoRp_eq hk hnum]
  refine ⟨h.rxDepth, h.txDepth, h.rxWr, rfl, h.rxWptr, h.rxRptr, h.txWptr, hlt, ?_⟩
  refine h.fits.imp id fun hfits ↦ ⟨?_, hfits.2⟩
  have hcases := Ring.dist_cases h.txRptr h.txWptr
  have hlen := h.length_txWindow
  have hmod := Nat.mod_le (cfg.regs.txRptr + num) (2 * 2 ^ k)
  simp only
  omega

end SetRp

end Pointers

end CmnFifoCfgTag

end Wwan.Sipa
