import Mathlib.Data.Multiset.Basic
import Wwan.Sipc.Sblock

/-!
# No block is lost or used twice

The arrays of an sblock channel are never checked for being full. They cannot overflow,
because each block is at one place at a time: free in the pool, with a caller of the side
that sends, on its way in the ring, or with a caller of the side that receives. As a sum
of multisets this is `SblockInv.owned`, and every bound follows from its size.

A call that has written a descriptor and not moved the pointer still has its block, and
one that has read a descriptor and not moved the pointer does not have it yet.
-/

namespace Wwan.Sipc

open Wwan Bytes

/-! ## Places -/

namespace SblockDir

variable (A : SblockArea) (s : SblockDir)

/-- The free blocks. -/
def freePool : List ℕ := (s.pool.window A.count).map SblockBlks.addr

/-- The blocks on their way. -/
def inFlight : List SblockBlks := s.ring.window A.count

/-- The block of a call of `sblock_put`. -/
def putting : List ℕ :=
  match s.poolTx with
  | .putting addr => [addr]
  | _ => []

/-- The blocks with callers of the side that sends. -/
def senderHolds : List ℕ := s.sender ++ s.putting ++ (s.ringTx.map Prod.fst).toList

/-- The blocks with callers of the side that receives. -/
def receiverHolds : List ℕ := s.receiver ++ s.poolRx.toList

/-- The blocks at all places, by their stored addresses. -/
def owned : Multiset ℕ :=
  s.freePool A + (s.senderHolds.map (A.toStored A.txVirt) : List ℕ) +
    ((s.inFlight A).map SblockBlks.addr : List ℕ) +
    (s.receiverHolds.map (A.toStored A.rxVirt) : List ℕ)

end SblockDir

/-- What holds of a direction between any two steps. -/
structure SblockInv (A : SblockArea) (s : SblockDir) : Prop where
  poolRd : s.pool.rd < 2 ^ 32
  poolWt : s.pool.wt < 2 ^ 32
  ringRd : s.ring.rd < 2 ^ 32
  ringWt : s.ring.wt < 2 ^ 32
  /-- Each block is at one place. -/
  owned : s.owned A = A.blocks
  /-- What has been read is the first descriptor. -/
  getting : ∀ i blk, s.poolTx = .getting i blk →
    s.pool.wt ≠ s.pool.rd ∧ s.pool.blks (s.pool.rd % A.count) = blk
  /-- What has been written is in the slot before the pool. -/
  putting : ∀ addr, s.poolTx = .putting addr →
    (s.pool.blks (Ring.pred (2 ^ 32) s.pool.rd % A.count)).addr = A.toStored A.txVirt addr
  /-- What has been written is in the slot behind the ring. -/
  sending : ∀ addr length, s.ringTx = some (addr, length) →
    s.ring.blks (s.ring.wt % A.count) = ⟨A.toStored A.txVirt addr, length⟩
  /-- What has been read is the first descriptor. -/
  receiving : ∀ blk, s.ringRx = some blk →
    s.ring.wt ≠ s.ring.rd ∧ s.ring.blks (s.ring.rd % A.count) = blk
  /-- What has been written is in the slot behind the pool. -/
  releasing : ∀ addr, s.poolRx = some addr →
    (s.pool.blks (s.pool.wt % A.count)).addr = A.toStored A.rxVirt addr
  order : s.sent = s.received ++ s.inFlight A
  waiting : ∀ i seen, s.getters i = .waiting seen → seen = []
  failures : ∀ err seen, .noData err seen ∈ s.failures → seen = []

/-! ## Addresses -/

section Addr

variable {A : SblockArea}

theorem lt_of_mem_blocks {a : ℕ} (h : a ∈ A.blocks) : a < 2 ^ 32 := by
  obtain ⟨i, -, rfl⟩ := List.mem_map.mp h
  exact u32_lt _

/-- A caller gives back the address that was stored. -/
theorem toStored_toVirt {virt a : ℕ} (h : a < 2 ^ 32) :
    A.toStored virt (A.toVirt virt a) = a := by
  unfold SblockArea.toStored SblockArea.toVirt u32
  omega

theorem blocks_nodup : A.blocks.Nodup := by
  refine List.Nodup.map_on ?_ List.nodup_range
  intro i hi j hj heq
  have hsize := A.size_pos
  have hfits := A.fits
  have hbound : ∀ {k}, k ∈ List.range A.count → A.base + k * A.size < 2 ^ 32 := fun {k} hk ↦ by
    have : (k + 1) * A.size ≤ A.count * A.size :=
      Nat.mul_le_mul_right _ (List.mem_range.mp hk)
    rw [Nat.succ_mul] at this
    omega
  have hi' := hbound hi
  have hj' := hbound hj
  refine Nat.eq_of_mul_eq_mul_right hsize ?_
  unfold SblockArea.blkAddr u32 at heq
  generalize hx : i * A.size = x at *
  generalize hy : j * A.size = y at *
  have hx' : (i : ℤ) * A.size = x := by rw [← hx]; rfl
  have hy' : (j : ℤ) * A.size = y := by rw [← hy]; rfl
  rw [hx', hy'] at heq
  omega

end Addr

/-! ## Windows -/

section Window

variable {n : ℕ} {hd : SblockHeader} (hdvd : n ∣ 2 ^ 32) (hlt : n < 2 ^ 32)
  (hrd : hd.rd < 2 ^ 32) (hwt : hd.wt < 2 ^ 32)

theorem length_window (n : ℕ) (hd : SblockHeader) :
    (hd.window n).length = Ring.dist (2 ^ 32) hd.rd hd.wt := Ring.length_window hd.blks

include hrd hwt in
theorem window_eq_nil_iff : hd.window n = [] ↔ hd.wt = hd.rd :=
  Ring.window_eq_nil_iff hd.blks hrd hwt

include hdvd hrd hwt

theorem window_pop (h : hd.wt ≠ hd.rd) :
    hd.window n =
      hd.blks (hd.rd % n) :: SblockHeader.window n { hd with rd := u32 (hd.rd + 1) } := by
  rw [u32_succ]
  exact Ring.window_succ_left hd.blks hdvd hrd hwt h

theorem window_write_back (x : SblockBlks) (h : (hd.window n).length < n) :
    SblockHeader.window n { hd with blks := Function.update hd.blks (hd.wt % n) x } =
      hd.window n := by
  rw [length_window] at h
  exact Ring.window_update hd.blks x (Ring.wt_notMem_live hdvd hrd hwt h)

omit hwt in
theorem window_write_front (x : SblockBlks) (h : (hd.window n).length < n) :
    SblockHeader.window n
      { hd with blks := Function.update hd.blks (Ring.pred (2 ^ 32) hd.rd % n) x } =
      hd.window n := by
  rw [length_window] at h
  have hfree := Ring.pred_notMem_live hdvd hrd h
  dsimp only [SblockHeader.window]
  exact Ring.window_update hd.blks x hfree

include hlt

theorem window_push (h : (hd.window n).length < n) :
    SblockHeader.window n { hd with wt := u32 (hd.wt + 1) } =
      hd.window n ++ [hd.blks (hd.wt % n)] := by
  rw [length_window] at h
  rw [u32_succ]
  exact Ring.window_succ_right hd.blks hdvd hrd hwt h hlt

theorem window_unpop (h : (hd.window n).length < n) :
    SblockHeader.window n { hd with rd := u32 (hd.rd - 1) } =
      hd.blks (Ring.pred (2 ^ 32) hd.rd % n) :: hd.window n := by
  rw [length_window] at h
  rw [Ring.u32_pred hrd]
  exact Ring.window_pred_left hd.blks hdvd hrd hwt h hlt

omit hlt in
theorem rd_ne_wt (h : (hd.window n).length < n) (hne : hd.wt ≠ hd.rd) :
    hd.rd % n ≠ hd.wt % n := by
  rw [length_window] at h
  intro heq
  exact Ring.wt_notMem_live hdvd hrd hwt h (heq ▸ Ring.rd_mem_live hrd hwt hne)

omit hlt in
theorem pred_ne_wt (h : (hd.window n).length + 1 < n) :
    Ring.pred (2 ^ 32) hd.rd % n ≠ hd.wt % n := by
  rw [length_window] at h
  exact Ring.pred_mod_ne_wt_mod hdvd hrd hwt h

/-- The pointers do not agree after a descriptor was appended. -/
theorem succ_ne_rd (h : (hd.window n).length < n) : u32 (hd.wt + 1) ≠ hd.rd := by
  intro heq
  have hnil : SblockHeader.window n { hd with wt := u32 (hd.wt + 1) } = [] := by
    refine (window_eq_nil_iff ?_ ?_).mpr heq
    · exact hrd
    · dsimp only
      exact u32_lt _
  rw [window_push hdvd hlt hrd hwt h] at hnil
  simp at hnil

end Window

/-! ## Steps -/

section Steps

variable {A : SblockArea} {s : SblockDir}

theorem SblockInv.card (h : SblockInv A s) :
    (s.pool.window A.count).length + s.senderHolds.length + (s.ring.window A.count).length +
      s.receiverHolds.length = A.count := by
  have hcard := congrArg Multiset.card h.owned
  simpa [SblockDir.owned, SblockDir.freePool, SblockDir.inFlight, SblockArea.blocks,
    Nat.add_assoc] using hcard

/-- There is room in both arrays while a caller has a block. -/
theorem SblockInv.room (h : SblockInv A s)
    (hheld : 0 < s.senderHolds.length ∨ 0 < s.receiverHolds.length) :
    (s.pool.window A.count).length < A.count ∧ (s.ring.window A.count).length < A.count := by
  have := h.card
  omega

/-- There is room for two while callers of both sides have one. -/
theorem SblockInv.room_two (h : SblockInv A s) (hsender : 0 < s.senderHolds.length)
    (hreceiver : 0 < s.receiverHolds.length) :
    (s.pool.window A.count).length + 1 < A.count := by
  have := h.card
  omega

theorem senderHolds_pos_of_mem {addr : ℕ} (h : addr ∈ s.sender) : 0 < s.senderHolds.length :=
  List.length_pos_of_mem (List.mem_append_left _ (List.mem_append_left _ h))

theorem senderHolds_pos_of_putting {addr : ℕ} (h : s.poolTx = .putting addr) :
    0 < s.senderHolds.length := by
  simp only [SblockDir.senderHolds, SblockDir.putting, h, List.length_append,
    List.length_singleton]
  omega

theorem senderHolds_pos_of_sending {b : ℕ × ℕ} (h : s.ringTx = some b) :
    0 < s.senderHolds.length := by
  simp only [SblockDir.senderHolds, h, Option.map_some, Option.toList_some, List.length_append,
    List.length_singleton]
  omega

theorem receiverHolds_pos_of_mem {addr : ℕ} (h : addr ∈ s.receiver) :
    0 < s.receiverHolds.length :=
  List.length_pos_of_mem (List.mem_append_left _ h)

theorem receiverHolds_pos_of_releasing {addr : ℕ} (h : s.poolRx = some addr) :
    0 < s.receiverHolds.length := by
  simp only [SblockDir.receiverHolds, h, Option.toList_some, List.length_append,
    List.length_singleton]
  omega

/-! ### Hands -/

theorem senderHolds_putWrite (hfree : s.poolTx = .free) {addr : ℕ} (hmem : addr ∈ s.sender) :
    (s.putWrite A addr).senderHolds.Perm s.senderHolds := by
  simp only [SblockDir.senderHolds, SblockDir.putting, SblockDir.putWrite, hfree,
    List.append_nil]
  refine List.Perm.append_right _ ?_
  exact (List.perm_append_singleton _ _).trans (List.perm_cons_erase hmem).symm

theorem senderHolds_sendWrite (hfree : s.ringTx = none) {addr length : ℕ}
    (hmem : addr ∈ s.sender) : (s.sendWrite A addr length).senderHolds.Perm s.senderHolds := by
  simp only [SblockDir.senderHolds, SblockDir.putting, SblockDir.sendWrite, hfree,
    Option.map_some, Option.map_none, Option.toList_some, Option.toList_none, List.append_nil]
  refine (List.perm_append_singleton _ _).trans ?_
  exact (List.perm_cons_erase hmem).symm.append_right _

theorem receiverHolds_releaseWrite (hfree : s.poolRx = none) {addr : ℕ}
    (hmem : addr ∈ s.receiver) : (s.releaseWrite A addr).receiverHolds.Perm s.receiverHolds := by
  simp only [SblockDir.receiverHolds, SblockDir.releaseWrite, hfree, Option.toList_some,
    Option.toList_none, List.append_nil]
  exact (List.perm_append_singleton _ _).trans (List.perm_cons_erase hmem).symm

/-! ### Descriptors -/

section Descriptors

variable (h : SblockInv A s)

include h

/-- A descriptor in the pool has the address of a block. -/
theorem SblockInv.pool_mem {blk : SblockBlks}
    (hblk : blk ∈ s.pool.window A.count) : blk.addr ∈ A.blocks := by
  rw [← Multiset.mem_coe, ← h.owned]
  simp only [SblockDir.owned, SblockDir.freePool, Multiset.mem_add, Multiset.mem_coe]
  exact .inl (.inl (.inl (List.mem_map_of_mem hblk)))

/-- A descriptor in the ring has the address of a block. -/
theorem SblockInv.ring_mem {blk : SblockBlks}
    (hblk : blk ∈ s.ring.window A.count) : blk.addr ∈ A.blocks := by
  rw [← Multiset.mem_coe, ← h.owned]
  simp only [SblockDir.owned, SblockDir.inFlight, Multiset.mem_add, Multiset.mem_coe]
  exact .inl (.inr (List.mem_map_of_mem hblk))

theorem SblockInv.setGetter {i : ℕ} {c : GetPhase}
    (hc : ∀ seen, c = .waiting seen → seen = []) : SblockInv A (s.setGetter i c) :=
  { h with
    waiting := fun j seen hj ↦ by
      by_cases hji : j = i
      · subst hji
        exact hc seen ((Function.update_self ..).symm.trans hj)
      · exact h.waiting j seen ((Function.update_of_ne hji ..).symm.trans hj) }

theorem SblockInv.failGet {i : ℕ} {f : GetFailure}
    (hf : ∀ err seen, f = .noData err seen → seen = []) : SblockInv A (s.failGet i f) :=
  { h.setGetter (i := i) (c := .out) (by simp) with
    failures := fun err seen hmem ↦ by
      rcases List.mem_cons.mp hmem with heq | hmem
      · exact hf err seen heq.symm
      · exact h.failures err seen hmem }

/-- A pool whose pointers agree is empty. -/
theorem SblockInv.pool_eq_nil (heq : s.pool.rd = s.pool.wt) :
    s.pool.window A.count = [] := (window_eq_nil_iff h.poolRd h.poolWt).mpr heq.symm

theorem SblockInv.getSample (i : ℕ) (timeout : ℤ) : SblockInv A (s.getSample A i timeout) := by
  unfold SblockDir.getSample
  split
  · rename_i heq
    have hnil := h.pool_eq_nil heq
    split
    · refine h.failGet fun err seen hf ↦ ?_
      cases hf
      exact hnil
    · refine h.setGetter fun seen hc ↦ ?_
      cases hc
      exact hnil
  · exact h.setGetter (by simp)

theorem SblockInv.getLock (hfree : s.poolTx = .free) (i : ℕ) : SblockInv A (s.getLock A i) := by
  unfold SblockDir.getLock
  split
  · rename_i hne
    have hputting : s.putting = [] := by
      unfold SblockDir.putting
      rw [hfree]
    refine { h.setGetter (i := i) (c := .locked) (by simp) with
      owned := ?_, getting := ?_, putting := by simp }
    · have howned := h.owned
      unfold SblockDir.owned SblockDir.senderHolds at *
      rw [hputting] at howned
      exact howned
    · intro j blk heq
      cases heq
      exact ⟨Ne.symm hne, by rw [sblockGetRingpos_eq]; rfl⟩
  · rename_i hne
    refine h.failGet fun err seen hf ↦ ?_
    cases hf
    exact h.pool_eq_nil (not_not.mp hne)

end Descriptors

/-- The places of blocks, if only the hands are ordered in another way. -/
theorem owned_congr {s' : SblockDir} (hpool : s'.pool.window A.count = s.pool.window A.count)
    (hsender : s'.senderHolds.Perm s.senderHolds)
    (hring : s'.ring.window A.count = s.ring.window A.count)
    (hreceiver : s'.receiverHolds.Perm s.receiverHolds) : s'.owned A = s.owned A := by
  unfold SblockDir.owned SblockDir.freePool SblockDir.inFlight
  rw [hpool, hring, Multiset.coe_eq_coe.mpr (hsender.map _),
    Multiset.coe_eq_coe.mpr (hreceiver.map _)]

variable (h : SblockInv A s) (hdvd : A.count ∣ 2 ^ 32)

include h hdvd

/-- The descriptor that was read is the first one of the pool, and that of a block. -/
theorem SblockInv.getting_pop {i : ℕ} {blk : SblockBlks} (hget : s.poolTx = .getting i blk) :
    s.pool.window A.count =
      blk :: SblockHeader.window A.count { s.pool with rd := u32 (s.pool.rd + 1) } ∧
      blk.addr ∈ A.blocks := by
  obtain ⟨hne, hblk⟩ := h.getting i blk hget
  have hpop := window_pop hdvd h.poolRd h.poolWt hne
  rw [hblk] at hpop
  exact ⟨hpop, h.pool_mem (hpop ▸ List.mem_cons_self)⟩

/-- The descriptor that was read is the first one of the ring, and that of a block. -/
theorem SblockInv.receiving_pop {blk : SblockBlks} (hrecv : s.ringRx = some blk) :
    s.ring.window A.count =
      blk :: SblockHeader.window A.count { s.ring with rd := u32 (s.ring.rd + 1) } ∧
      blk.addr ∈ A.blocks := by
  obtain ⟨hne, hblk⟩ := h.receiving blk hrecv
  have hpop := window_pop hdvd h.ringRd h.ringWt hne
  rw [hblk] at hpop
  exact ⟨hpop, h.ring_mem (hpop ▸ List.mem_cons_self)⟩

/-- The block that was got is in the hands of the caller. -/
theorem SblockInv.getDone {i : ℕ}
    {blk : SblockBlks} (hget : s.poolTx = .getting i blk) : SblockInv A (s.getDone A i blk) := by
  obtain ⟨hpop, hmem⟩ := h.getting_pop hdvd hget
  have hlt := lt_of_mem_blocks hmem
  refine { h.setGetter (i := i) (c := .out) (by simp) with
    poolRd := ?_, owned := ?_, getting := by simp [SblockDir.getDone],
    putting := by simp [SblockDir.getDone] }
  · dsimp only [SblockDir.getDone]
    exact u32_lt _
  have howned := h.owned
  simp only [SblockDir.owned, SblockDir.freePool, SblockDir.senderHolds, SblockDir.putting, hget,
    hpop, List.map_cons, ← Multiset.cons_coe, Multiset.cons_add, List.append_nil] at howned
  simp only [SblockDir.owned, SblockDir.freePool, SblockDir.senderHolds, SblockDir.putting,
    SblockDir.getDone, List.append_nil, List.cons_append, List.map_cons, toStored_toVirt hlt,
    ← Multiset.cons_coe, Multiset.add_cons, Multiset.cons_add]
  exact howned

theorem SblockInv.putWrite (hfree : s.poolTx = .free) {addr : ℕ} (hmem : addr ∈ s.sender) :
    SblockInv A (s.putWrite A addr) := by
  have hlen := (h.room (.inl (senderHolds_pos_of_mem hmem))).1
  have hslot : sblockGetRingpos (u32 (s.pool.rd - 1)) A.count =
      Ring.pred (2 ^ 32) s.pool.rd % A.count := by
    rw [sblockGetRingpos_eq, Ring.u32_pred h.poolRd]
  have howned : (s.putWrite A addr).owned A = s.owned A := by
    refine owned_congr ?_ ?_ rfl (.refl _)
    · dsimp only [SblockDir.putWrite]
      rw [hslot]
      exact window_write_front hdvd h.poolRd _ hlen
    · exact senderHolds_putWrite hfree hmem
  refine { h with owned := howned.trans h.owned, getting := ?_, putting := ?_, releasing := ?_ }
  · simp [SblockDir.putWrite]
  · intro addr' heq
    cases heq
    dsimp only [SblockDir.putWrite]
    rw [hslot, Function.update_self]
  · intro addr' heq
    -- A call of `sblock_release` has another block, so that there are two free slots.
    have hroom := h.room_two (senderHolds_pos_of_mem hmem) (receiverHolds_pos_of_releasing heq)
    dsimp only [SblockDir.putWrite]
    rw [hslot, Function.update_of_ne (pred_ne_wt hdvd h.poolRd h.poolWt hroom).symm]
    exact h.releasing addr' heq

/-- The block that was put is in the pool. -/
theorem SblockInv.putDone {addr : ℕ}
    (hput : s.poolTx = .putting addr) : SblockInv A (s.putDone A addr) := by
  have hlen := (h.room (.inl (senderHolds_pos_of_putting hput))).1
  have hpush := window_unpop hdvd A.count_lt h.poolRd h.poolWt hlen
  have haddr := h.putting addr hput
  refine { h with poolRd := ?_, owned := ?_, getting := ?_, putting := ?_ }
  · dsimp only [SblockDir.putDone]
    exact u32_lt _
  · have howned := h.owned
    simp only [SblockDir.owned, SblockDir.freePool, SblockDir.senderHolds, SblockDir.putting, hput,
      List.map_append, List.map_cons, List.map_nil, ← Multiset.coe_add, ← Multiset.cons_coe,
      Multiset.coe_nil, Multiset.add_cons, Multiset.cons_add, Multiset.add_zero] at howned
    simp only [SblockDir.owned, SblockDir.freePool, SblockDir.senderHolds, SblockDir.putting,
      SblockDir.putDone, hpush, haddr, List.map_append, List.map_cons,
      List.append_nil, ← Multiset.coe_add, ← Multiset.cons_coe, Multiset.cons_add]
    exact howned
  · simp [SblockDir.putDone]
  · simp [SblockDir.putDone]

theorem SblockInv.sendWrite (hfree : s.ringTx = none) {addr length : ℕ} (hmem : addr ∈ s.sender) :
    SblockInv A (s.sendWrite A addr length) := by
  have hlen := (h.room (.inl (senderHolds_pos_of_mem hmem))).2
  have hslot := sblockGetRingpos_eq s.ring.wt A.count
  have hwindow : (s.sendWrite A addr length).ring.window A.count = s.ring.window A.count := by
    dsimp only [SblockDir.sendWrite]
    rw [hslot]
    exact window_write_back hdvd h.ringRd h.ringWt _ hlen
  have howned : (s.sendWrite A addr length).owned A = s.owned A := by
    refine owned_congr rfl ?_ hwindow (.refl _)
    exact senderHolds_sendWrite hfree hmem
  refine { h with owned := howned.trans h.owned, sending := ?_, receiving := ?_, order := ?_ }
  · intro addr' length' heq
    cases heq
    dsimp only [SblockDir.sendWrite]
    rw [hslot, Function.update_self]
  · intro blk heq
    obtain ⟨hne, hblk⟩ := h.receiving blk heq
    refine ⟨hne, ?_⟩
    dsimp only [SblockDir.sendWrite]
    rw [hslot, Function.update_of_ne (rd_ne_wt hdvd h.ringRd h.ringWt hlen hne), hblk]
  · unfold SblockDir.inFlight
    rw [hwindow]
    exact h.order

/-- The block that was sent is in the ring. -/
theorem SblockInv.sendDone {addr length : ℕ}
    (hsend : s.ringTx = some (addr, length)) : SblockInv A (s.sendDone A addr length) := by
  have hlen := (h.room (.inl (senderHolds_pos_of_sending hsend))).2
  have hpush := window_push hdvd A.count_lt h.ringRd h.ringWt hlen
  rw [h.sending addr length hsend] at hpush
  refine { h with ringWt := ?_, owned := ?_, sending := ?_, receiving := ?_, order := ?_ }
  · dsimp only [SblockDir.sendDone]
    exact u32_lt _
  · have howned := h.owned
    simp only [SblockDir.owned, SblockDir.inFlight, SblockDir.senderHolds, hsend, Option.map_some,
      Option.toList_some, List.map_append, List.map_cons, List.map_nil, ← Multiset.coe_add,
      ← Multiset.cons_coe, Multiset.coe_nil, Multiset.add_cons, Multiset.cons_add,
      Multiset.add_zero] at howned
    simp only [SblockDir.owned, SblockDir.inFlight, SblockDir.senderHolds, SblockDir.sendDone,
      hpush, Option.map_none, Option.toList_none, List.map_append, List.map_cons, List.map_nil,
      List.append_nil, ← Multiset.coe_add, ← Multiset.cons_coe, Multiset.coe_nil,
      Multiset.add_cons, Multiset.cons_add, Multiset.add_zero]
    exact howned
  · simp [SblockDir.sendDone]
  · intro blk heq
    refine ⟨?_, (h.receiving blk heq).2⟩
    dsimp only [SblockDir.sendDone]
    exact succ_ne_rd hdvd A.count_lt h.ringRd h.ringWt hlen
  · dsimp only [SblockDir.sendDone, SblockDir.inFlight]
    rw [hpush, ← List.append_assoc, h.order]
    rfl

omit hdvd in
theorem SblockInv.recvRead (hne : s.ring.wt ≠ s.ring.rd) :
    SblockInv A (s.recvRead A) := by
  refine { h with receiving := ?_ }
  intro blk heq
  cases heq
  refine ⟨hne, ?_⟩
  rw [sblockGetRingpos_eq]
  rfl

/-- The block that was received is in the hands of the caller. -/
theorem SblockInv.recvDone {blk : SblockBlks}
    (hrecv : s.ringRx = some blk) : SblockInv A (s.recvDone A blk) := by
  obtain ⟨hpop, hmem⟩ := h.receiving_pop hdvd hrecv
  have hlt := lt_of_mem_blocks hmem
  refine { h with ringRd := ?_, owned := ?_, receiving := ?_, order := ?_ }
  · dsimp only [SblockDir.recvDone]
    exact u32_lt _
  · have howned := h.owned
    simp only [SblockDir.owned, SblockDir.inFlight, SblockDir.receiverHolds, hpop, List.map_cons,
      ← Multiset.cons_coe, Multiset.add_cons, Multiset.cons_add] at howned
    simp only [SblockDir.owned, SblockDir.inFlight, SblockDir.receiverHolds, SblockDir.recvDone,
      toStored_toVirt hlt, List.cons_append, List.map_cons, ← Multiset.cons_coe, Multiset.add_cons]
    exact howned
  · simp [SblockDir.recvDone]
  · have horder := h.order
    unfold SblockDir.inFlight at horder
    rw [hpop] at horder
    dsimp only [SblockDir.recvDone, SblockDir.inFlight]
    rw [horder, toStored_toVirt hlt, List.append_assoc]
    rfl

theorem SblockInv.releaseWrite (hfree : s.poolRx = none) {addr : ℕ} (hmem : addr ∈ s.receiver) :
    SblockInv A (s.releaseWrite A addr) := by
  have hlen := (h.room (.inr (receiverHolds_pos_of_mem hmem))).1
  have hslot := sblockGetRingpos_eq s.pool.wt A.count
  have howned : (s.releaseWrite A addr).owned A = s.owned A := by
    refine owned_congr ?_ (.refl _) rfl ?_
    · dsimp only [SblockDir.releaseWrite]
      rw [hslot]
      exact window_write_back hdvd h.poolRd h.poolWt _ hlen
    · exact receiverHolds_releaseWrite hfree hmem
  refine { h with owned := howned.trans h.owned, getting := ?_, putting := ?_, releasing := ?_ }
  · intro i blk heq
    obtain ⟨hne, hblk⟩ := h.getting i blk heq
    refine ⟨hne, ?_⟩
    dsimp only [SblockDir.releaseWrite]
    rw [hslot, Function.update_of_ne (rd_ne_wt hdvd h.poolRd h.poolWt hlen hne), hblk]
  · intro addr' heq
    -- The call of `sblock_put` has another block, so that there are two free slots.
    have hroom := h.room_two (senderHolds_pos_of_putting heq) (receiverHolds_pos_of_mem hmem)
    dsimp only [SblockDir.releaseWrite]
    rw [hslot, Function.update_of_ne (pred_ne_wt hdvd h.poolRd h.poolWt hroom)]
    exact h.putting addr' heq
  · intro addr' heq
    cases heq
    dsimp only [SblockDir.releaseWrite]
    rw [hslot, Function.update_self]

/-- The block that was released is in the pool. -/
theorem SblockInv.releaseDone {addr : ℕ}
    (hrel : s.poolRx = some addr) : SblockInv A (s.releaseDone A addr) := by
  have hlen := (h.room (.inr (receiverHolds_pos_of_releasing hrel))).1
  have hpush := window_push hdvd A.count_lt h.poolRd h.poolWt hlen
  have haddr := h.releasing addr hrel
  refine { h with poolWt := ?_, owned := ?_, getting := ?_, releasing := ?_ }
  · dsimp only [SblockDir.releaseDone]
    exact u32_lt _
  · have howned := h.owned
    simp only [SblockDir.owned, SblockDir.receiverHolds, hrel, Option.toList_some, List.map_append,
      List.map_cons, List.map_nil, ← Multiset.coe_add, ← Multiset.cons_coe, Multiset.coe_nil,
      Multiset.add_cons, Multiset.add_zero] at howned
    simp only [SblockDir.owned, SblockDir.freePool, SblockDir.receiverHolds, SblockDir.releaseDone,
      hpush, haddr, Option.toList_none, List.map_append, List.map_cons, List.map_nil,
      List.append_nil, ← Multiset.coe_add, ← Multiset.cons_coe, Multiset.coe_nil,
      Multiset.add_cons, Multiset.cons_add, Multiset.add_zero]
    exact howned
  · intro i blk heq
    refine ⟨?_, (h.getting i blk heq).2⟩
    dsimp only [SblockDir.releaseDone]
    exact succ_ne_rd hdvd A.count_lt h.poolRd h.poolWt hlen
  · simp [SblockDir.releaseDone]

theorem SblockInv.txAct {e : SblockTxStep} (he : e.enabled s = true) : SblockInv A (e.act A s) := by
  cases e with
  | getEnter i timeout => exact h.setGetter (by simp)
  | getSample i =>
    dsimp only [SblockTxStep.act]
    split
    · exact h.getSample i _
    · exact h
  | getResource i err => exact h.failGet (by simp)
  | getWake i => exact h.setGetter (by simp)
  | getAbort i err =>
    dsimp only [SblockTxStep.act]
    split
    · rename_i seen hwait
      refine h.failGet fun err' seen' hf ↦ ?_
      cases hf
      exact h.waiting i seen hwait
    · exact h
  | getLock i => exact h.getLock (of_decide_eq_true he).2 i
  | getDone =>
    dsimp only [SblockTxStep.act]
    split
    · exact h.getDone hdvd ‹_›
    · exact h
  | putWrite addr =>
    obtain ⟨hfree, hmem⟩ := of_decide_eq_true he
    exact h.putWrite hdvd hfree hmem
  | putDone =>
    dsimp only [SblockTxStep.act]
    split
    · exact h.putDone hdvd ‹_›
    · exact h
  | sendWrite addr length =>
    obtain ⟨hfree, hmem, -⟩ := of_decide_eq_true he
    exact h.sendWrite hdvd hfree hmem
  | sendDone =>
    dsimp only [SblockTxStep.act]
    split
    · exact h.sendDone hdvd ‹_›
    · exact h

theorem SblockInv.rxAct {e : SblockRxStep} (he : e.enabled s = true) : SblockInv A (e.act A s) := by
  cases e with
  | recvRead => exact h.recvRead (of_decide_eq_true he).2
  | recvDone =>
    dsimp only [SblockRxStep.act]
    split
    · exact h.recvDone hdvd ‹_›
    · exact h
  | releaseWrite addr =>
    obtain ⟨hfree, hmem⟩ := of_decide_eq_true he
    exact h.releaseWrite hdvd hfree hmem
  | releaseDone =>
    dsimp only [SblockRxStep.act]
    split
    · exact h.releaseDone hdvd ‹_›
    · exact h

end Steps

/-! ## Live descriptors -/

/-- The descriptors in the pool and in the ring are not written to. -/
structure LiveKept (A : SblockArea) (s s' : SblockDir) : Prop where
  pool : ∀ i ∈ Ring.live (2 ^ 32) A.count s.pool.rd s.pool.wt, s'.pool.blks i = s.pool.blks i
  ring : ∀ i ∈ Ring.live (2 ^ 32) A.count s.ring.rd s.ring.wt, s'.ring.blks i = s.ring.blks i

section Live

variable {A : SblockArea} {s s' : SblockDir}

theorem LiveKept.of_eq (hpool : s'.pool.blks = s.pool.blks) (hring : s'.ring.blks = s.ring.blks) :
    LiveKept A s s' :=
  ⟨fun i _ ↦ congrFun hpool i, fun i _ ↦ congrFun hring i⟩

/-- Only three steps write descriptors, each to a slot next to the live ones. -/
theorem SblockInv.liveKept_tx (h : SblockInv A s) (hdvd : A.count ∣ 2 ^ 32) {e : SblockTxStep}
    (he : e.enabled s = true) : LiveKept A s (e.act A s) := by
  cases e with
  | putWrite addr =>
    obtain ⟨-, hmem⟩ := of_decide_eq_true he
    have hlen := (h.room (.inl (senderHolds_pos_of_mem hmem))).1
    rw [length_window] at hlen
    refine ⟨fun i hi ↦ ?_, fun i _ ↦ rfl⟩
    refine Function.update_of_ne ?_ _ _
    rintro rfl
    rw [sblockGetRingpos_eq, Ring.u32_pred h.poolRd] at hi
    exact Ring.pred_notMem_live hdvd h.poolRd hlen hi
  | sendWrite addr length =>
    obtain ⟨-, hmem, -⟩ := of_decide_eq_true he
    have hlen := (h.room (.inl (senderHolds_pos_of_mem hmem))).2
    rw [length_window] at hlen
    refine ⟨fun i _ ↦ rfl, fun i hi ↦ ?_⟩
    refine Function.update_of_ne ?_ _ _
    rintro rfl
    rw [sblockGetRingpos_eq] at hi
    exact Ring.wt_notMem_live hdvd h.ringRd h.ringWt hlen hi
  | getSample i =>
    dsimp only [SblockTxStep.act, SblockDir.getSample]
    split
    · split
      · split <;> exact .of_eq rfl rfl
      · exact .of_eq rfl rfl
    · exact .of_eq rfl rfl
  | getLock i =>
    dsimp only [SblockTxStep.act, SblockDir.getLock]
    split <;> exact .of_eq rfl rfl
  | getAbort i err =>
    dsimp only [SblockTxStep.act]
    split <;> exact .of_eq rfl rfl
  | getDone =>
    dsimp only [SblockTxStep.act]
    split <;> exact .of_eq rfl rfl
  | putDone =>
    dsimp only [SblockTxStep.act]
    split <;> exact .of_eq rfl rfl
  | sendDone =>
    dsimp only [SblockTxStep.act]
    split <;> exact .of_eq rfl rfl
  | _ => exact .of_eq rfl rfl

theorem SblockInv.liveKept_rx (h : SblockInv A s) (hdvd : A.count ∣ 2 ^ 32) {e : SblockRxStep}
    (he : e.enabled s = true) : LiveKept A s (e.act A s) := by
  cases e with
  | releaseWrite addr =>
    obtain ⟨-, hmem⟩ := of_decide_eq_true he
    have hlen := (h.room (.inr (receiverHolds_pos_of_mem hmem))).1
    rw [length_window] at hlen
    refine ⟨fun i hi ↦ ?_, fun i _ ↦ rfl⟩
    refine Function.update_of_ne ?_ _ _
    rintro rfl
    rw [sblockGetRingpos_eq] at hi
    exact Ring.wt_notMem_live hdvd h.poolRd h.poolWt hlen hi
  | recvRead => exact .of_eq rfl rfl
  | recvDone =>
    dsimp only [SblockRxStep.act]
    split <;> exact .of_eq rfl rfl
  | releaseDone =>
    dsimp only [SblockRxStep.act]
    split <;> exact .of_eq rfl rfl

end Live

/-! ## Runs -/

section Start

variable {A : SblockArea} {p r : ℕ} {mem : ℕ → SblockBlks}

theorem start_window (hp : p < 2 ^ 32) :
    (SblockDir.start A p r mem).pool.window A.count =
      (List.range A.count).map fun i ↦ ⟨A.blkAddr i, A.size⟩ := by
  have hdist : Ring.dist (2 ^ 32) p (u32 (p + A.count)) = A.count := by
    have hcount := A.count_lt
    have hcases := Ring.dist_cases hp (u32_lt (p + A.count))
    unfold u32 at *
    omega
  dsimp only [SblockHeader.window, SblockDir.start, Ring.window]
  rw [hdist, Ring.contents, Ring.slots, List.range'_eq_map_range, List.map_map, List.map_map]
  refine List.map_congr_left fun i hi ↦ ?_
  have hi' := List.mem_range.mp hi
  have hmod : ((p + i) % A.count + (A.count - p % A.count)) % A.count = i := by
    have hle := (Nat.mod_lt p (by omega : 0 < A.count)).le
    have hsum : p + i + (A.count - p % A.count) = i + A.count * (p / A.count + 1) := by
      have := Nat.div_add_mod p A.count
      rw [Nat.mul_succ]
      omega
    rw [Nat.mod_add_mod, hsum, Nat.add_mul_mod_self_left, Nat.mod_eq_of_lt hi']
  simp only [Function.comp_apply, hmod]

/-- A direction that no call is about, with nothing on its way. -/
theorem SblockInv.quiet {s : SblockDir} (hpool : s.pool.rd < 2 ^ 32 ∧ s.pool.wt < 2 ^ 32)
    (hring : s.ring.rd < 2 ^ 32 ∧ s.ring.wt = s.ring.rd)
    (howned : (s.freePool A ++ s.sender.map (A.toStored A.txVirt) ++
      s.receiver.map (A.toStored A.rxVirt)).Perm A.blocks)
    (hlocks : s.poolTx = .free ∧ s.ringTx = none ∧ s.ringRx = none ∧ s.poolRx = none)
    (hlog : s.sent = s.received) (hwaiting : ∀ i seen, s.getters i = .waiting seen → seen = [])
    (hfailures : ∀ err seen, .noData err seen ∈ s.failures → seen = []) : SblockInv A s := by
  obtain ⟨hpoolTx, hringTx, hringRx, hpoolRx⟩ := hlocks
  have hwt : s.ring.wt < 2 ^ 32 := hring.2 ▸ hring.1
  have hflight : s.inFlight A = [] := (window_eq_nil_iff hring.1 hwt).mpr hring.2
  refine
    { poolRd := hpool.1
      poolWt := hpool.2
      ringRd := hring.1
      ringWt := hwt
      owned := ?_
      getting := by simp [hpoolTx]
      putting := by simp [hpoolTx]
      sending := by simp [hringTx]
      receiving := by simp [hringRx]
      releasing := by simp [hpoolRx]
      order := ?_
      waiting := hwaiting
      failures := hfailures }
  · simp only [SblockDir.owned, SblockDir.senderHolds, SblockDir.receiverHolds, SblockDir.putting,
      hflight, hpoolTx, hringTx, hpoolRx, Option.map_none, Option.toList_none, List.append_nil,
      List.map_nil, Multiset.coe_add]
    exact Multiset.coe_eq_coe.mpr howned
  · rw [hflight, hlog, List.append_nil]

theorem SblockInv.start (hp : p < 2 ^ 32) (hr : r < 2 ^ 32) :
    SblockInv A (SblockDir.start A p r mem) := by
  refine .quiet ⟨hp, ?_⟩ ⟨hr, rfl⟩ ?_ ⟨rfl, rfl, rfl, rfl⟩ rfl ?_ ?_
  · dsimp only [SblockDir.start]
    exact u32_lt _
  · unfold SblockDir.freePool
    rw [start_window hp, List.map_map]
    dsimp only [SblockDir.start]
    rw [List.map_nil, List.map_nil, List.append_nil, List.append_nil]
    exact .refl _
  · intro i seen heq
    cases heq
  · intro err seen hmem
    cases hmem

end Start

/-- What the channel keeps of its blocks. -/
structure Conserved (A : SblockArea) (s : SblockDir) : Prop where
  /-- Each block is at one place. -/
  once : A.blocks.Nodup ∧
    (s.freePool A ++ s.senderHolds.map (A.toStored A.txVirt) ++
      (s.inFlight A).map SblockBlks.addr ++
      s.receiverHolds.map (A.toStored A.rxVirt)).Perm A.blocks
  /-- The blocks are received in the order they were sent, with their lengths. -/
  order : s.sent = s.received ++ s.inFlight A
  /-- A call of `sblock_get` fails because of its resource, or has seen the pool empty. -/
  failures : ∀ f ∈ s.failures, (∃ err, f = .resource err) ∨ ∃ err, f = .noData err []

theorem SblockInv.conserved {A : SblockArea} {s : SblockDir} (h : SblockInv A s) :
    Conserved A s := by
  refine ⟨⟨blocks_nodup, ?_⟩, h.order, fun f hf ↦ ?_⟩
  · rw [← Multiset.coe_eq_coe]
    exact h.owned
  · cases f with
    | resource err => exact .inl ⟨err, rfl⟩
    | noData err seen =>
      have hnil := h.failures err seen hf
      exact .inr ⟨err, by rw [hnil]⟩

theorem count_dvd {A : SblockArea} (hpow : A.count.isPowerOfTwo) : A.count ∣ 2 ^ 32 := by
  obtain ⟨k, hk⟩ := hpow
  have hlt : 2 ^ k < 2 ^ 32 := hk ▸ A.count_lt
  rw [hk]
  exact Nat.pow_dvd_pow 2 ((Nat.pow_lt_pow_iff_right (by decide)).mp hlt).le

section Runs

variable {A : Dir → SblockArea} {p r : Dir → ℕ} {mem : Dir → ℕ → SblockBlks} {s : Dir → SblockDir}

theorem sblock_inv (hdvd : ∀ d, (A d).count ∣ 2 ^ 32) (hp : ∀ d, p d < 2 ^ 32)
    (hr : ∀ d, r d < 2 ^ 32) (hs : (sblockSystem A p r mem).Reach (fun _ _ ↦ True) s) :
    ∀ d, SblockInv (A d) (s d) := by
  refine hs.invariant (I := fun s ↦ ∀ d, SblockInv (A d) (s d)) (fun d ↦ .start (hp d) (hr d)) ?_
  intro s e hinv he _ d
  by_cases hd : d = e.dir
  · subst hd
    dsimp only [sblockSystem]
    rw [Function.update_self]
    obtain ⟨side, e | e⟩ := e
    · exact (hinv _).txAct (hdvd _) he
    · exact (hinv _).rxAct (hdvd _) he
  · dsimp only [sblockSystem]
    rw [Function.update_of_ne hd]
    exact hinv d

/-- In every run of both sides each block is at one place, no live descriptor is written to,
and the blocks are received as they were sent. -/
theorem sblock_conserves (hpow : ∀ d, (A d).count.isPowerOfTwo) (hp : ∀ d, p d < 2 ^ 32)
    (hr : ∀ d, r d < 2 ^ 32) (hs : (sblockSystem A p r mem).Reach (fun _ _ ↦ True) s) :
    (∀ d, Conserved (A d) (s d)) ∧
      ∀ e, (sblockSystem A p r mem).enabled s e →
        ∀ d, LiveKept (A d) (s d) ((sblockSystem A p r mem).next s e d) := by
  have hdvd := fun d ↦ count_dvd (hpow d)
  have hinv := sblock_inv hdvd hp hr hs
  refine ⟨fun d ↦ (hinv d).conserved, fun e he d ↦ ?_⟩
  by_cases hd : d = e.dir
  · subst hd
    dsimp only [sblockSystem]
    rw [Function.update_self]
    obtain ⟨side, e | e⟩ := e
    · exact (hinv _).liveKept_tx (hdvd _) he
    · exact (hinv _).liveKept_rx (hdvd _) he
  · dsimp only [sblockSystem]
    rw [Function.update_of_ne hd]
    exact .of_eq rfl rfl

end Runs

/-- Two blocks of eight bytes. -/
def smallArea : SblockArea :=
  { count := 2
    size := 8
    base := 96
    stored := 4096
    txVirt := 65536
    rxVirt := 131072
    size_pos := by decide
    count_lt := by decide
    fits := by decide }

/-- A channel with two blocks in each direction, and all pointers about to wrap. -/
def smallSystem : System (Dir → SblockDir) SblockStep :=
  sblockSystem (fun _ ↦ smallArea) (fun _ ↦ 2 ^ 32 - 1) (fun _ ↦ 2 ^ 32 - 1) fun _ _ ↦ ⟨0, 0⟩

instance (s : Dir → SblockDir) (e : SblockStep) : Decidable (smallSystem.enabled s e) :=
  inferInstanceAs (Decidable (SblockStep.enabled (s e.dir) e = true))

/-- A block is got and sent by the host, and received by the client. -/
def smallRun : List SblockStep :=
  [(.host, .inl (.getEnter 0 0)), (.host, .inl (.getSample 0)), (.host, .inl (.getLock 0)),
    (.host, .inl .getDone), (.host, .inl (.sendWrite 65632 5)), (.host, .inl .sendDone),
    (.client, .inr .recvRead), (.client, .inr .recvDone)]

/-- A request for the resource of `sblock_get` is interrupted by a signal. -/
def interruptedRun : List SblockStep :=
  [(.host, .inl (.getEnter 0 (-1))), (.host, .inl (.getResource 0 (-512)))]

/-- The state of the host's blocks after some steps. -/
def smallTx (es : List SblockStep) : SblockDir := smallSystem.exec smallSystem.init es .tx

theorem smallRun_reach :
    smallSystem.Reach (fun _ _ ↦ True) (smallSystem.exec smallSystem.init smallRun) :=
  System.Reach.init.exec (by decide)

/-- The client has received what the host has sent, and no block is lost. -/
theorem smallRun_conserved :
    (smallTx smallRun).received = [⟨4192, 5⟩] ∧ Conserved smallArea (smallTx smallRun) :=
  ⟨by decide, (sblock_conserves (fun _ ↦ ⟨1, rfl⟩) (fun _ ↦ by decide) (fun _ ↦ by decide)
    smallRun_reach).1 .tx⟩

/-- A call of `sblock_get` fails though there are free blocks all the time: a request for
the resource is interrupted. -/
theorem sblock_get_fails_not_empty :
    smallSystem.Reach (fun _ _ ↦ True) (smallSystem.exec smallSystem.init interruptedRun) ∧
      (∀ n ≤ 2, (smallTx (interruptedRun.take n)).freePool smallArea = [4192, 4200]) ∧
      ¬ ∀ f ∈ (smallTx interruptedRun).failures, ∃ err, f = .noData err [] := by
  refine ⟨System.Reach.init.exec (by decide), by decide, fun h ↦ ?_⟩
  obtain ⟨err, herr⟩ := h (.resource (-512)) (by decide)
  exact absurd herr (by simp)

end Wwan.Sipc
