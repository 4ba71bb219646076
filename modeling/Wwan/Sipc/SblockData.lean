import Wwan.Sipc.SblockChannel

/-!
# What is in the blocks

An sblock channel moves descriptors. The bytes of a block stay where they are: a caller that
has got the block writes to it, and after it was sent the side that receives reads it, or writes
to it. No lock is held while it does.

What is received is what was sent, because a block is in one hand at a time. A block that is on
its way is in nobody's hand, and the blocks of both directions are apart.
-/

namespace Wwan.Sipc

open Wwan Bytes

/-! ## Memory -/

/-- `n` bytes from `addr` on, for a side whose `smem_virt` is `virt`. The shared memory starts
there. -/
def sharedBytes (mem : ℕ → UInt8) (virt addr n : ℕ) : List UInt8 :=
  (List.range n).map fun j ↦ mem (addr + j - virt)

/-- The bytes of a descriptor, for the side that receives. -/
def SblockArea.content (A : SblockArea) (mem : ℕ → UInt8) (blk : SblockBlks) : List UInt8 :=
  sharedBytes mem A.rxVirt (A.toVirt A.rxVirt blk.addr) blk.length

/-- The descriptors on their way, with that of a call of `sblock_send` that has not moved the
pointer. -/
def SblockDir.onTheWay (A : SblockArea) (s : SblockDir) : List SblockBlks :=
  s.inFlight A ++ (s.ringTx.map fun b ↦ ⟨A.toStored A.txVirt b.1, b.2⟩).toList

/-- Both directions of a channel, with the memory. -/
structure SblockMem where
  /-- The descriptors. -/
  dirs : Dir → SblockDir
  /-- The shared memory. -/
  mem : ℕ → UInt8
  /-- What was in the blocks when `sblock_send` was called. -/
  sentData : Dir → List (List UInt8)
  /-- What is in the blocks when `sblock_receive` returns. -/
  recvData : Dir → List (List UInt8)

/-- A step of a caller. -/
inductive SblockMemStep
  | /-- A step of a call. -/
    call (e : SblockStep)
  | /-- A byte is written to a block that was got. -/
    txStore (side : Side) (addr i : ℕ) (b : UInt8)
  | /-- A byte is written to a block that was received. -/
    rxStore (side : Side) (addr i : ℕ) (b : UInt8)
  deriving DecidableEq

namespace SblockMem

variable (A : Dir → SblockArea) (s : SblockMem)

/-- What is in a block when `sblock_send` is called. -/
def sending : SblockStep → Option (List UInt8)
  | (side, .inl (.sendWrite addr length)) =>
    some (sharedBytes s.mem (A side.txDir).txVirt addr length)
  | _ => none

/-- What is in a block when `sblock_receive` returns. -/
def receiving : SblockStep → Option (List UInt8)
  | (side, .inr .recvDone) => (s.dirs side.rxDir).ringRx.map ((A side.rxDir).content s.mem)
  | _ => none

/-- A step of a call. -/
def call (e : SblockStep) : SblockMem :=
  { s with
    dirs := Function.update s.dirs e.dir (SblockStep.act (A e.dir) (s.dirs e.dir) e)
    sentData := Function.update s.sentData e.dir (s.sentData e.dir ++ (s.sending A e).toList)
    recvData := Function.update s.recvData e.dir (s.recvData e.dir ++ (s.receiving A e).toList) }

/-- A byte is written, by a side whose `smem_virt` is `virt`. -/
def store (virt addr i : ℕ) (b : UInt8) : SblockMem :=
  { s with mem := Function.update s.mem (addr + i - virt) b }

end SblockMem

namespace SblockMemStep

/-- When a step may be taken. -/
def enabled (s : SblockMem) : SblockMemStep → Bool
  | call e => SblockStep.enabled (s.dirs e.dir) e
  | txStore side addr _ _ => addr ∈ (s.dirs side.txDir).sender
  | rxStore side addr _ _ => addr ∈ (s.dirs side.rxDir).receiver

/-- What a step does. -/
def act (A : Dir → SblockArea) (s : SblockMem) : SblockMemStep → SblockMem
  | call e => s.call A e
  | txStore side addr i b => s.store (A side.txDir).txVirt addr i b
  | rxStore side addr i b => s.store (A side.rxDir).rxVirt addr i b

/-- A caller stays within the `length` of the block that it was given. -/
def inBlock (A : Dir → SblockArea) : SblockMemStep → Bool
  | call (side, .inl (.sendWrite _ length)) => length ≤ (A side.txDir).size
  | txStore side _ i _ => i < (A side.txDir).size
  | rxStore side _ i _ => i < (A side.rxDir).size
  | _ => true

end SblockMemStep

/-- The runs of both sides of a channel that stays ready, and of their callers. -/
def sblockMemSystem (A : Dir → SblockArea) (poolPtr ringPtr : Dir → ℕ)
    (blks : Dir → ℕ → SblockBlks) (mem : ℕ → UInt8) : System SblockMem SblockMemStep :=
  { init :=
      { dirs := fun d ↦ .start (A d) (poolPtr d) (ringPtr d) (blks d)
        mem := mem
        sentData := fun _ ↦ []
        recvData := fun _ ↦ [] }
    enabled := fun s e ↦ e.enabled s
    next := fun s e ↦ e.act A s }

/-- The blocks of the directions are apart, as `sblock_host_init` lays them out. -/
def Apart (A : Dir → SblockArea) : Prop :=
  (A .tx).base + (A .tx).count * (A .tx).size ≤ (A .rx).base ∨
    (A .rx).base + (A .rx).count * (A .rx).size ≤ (A .tx).base

/-- `rxblk_addr` is where the blocks of the host end. -/
theorem apart_of_layout {A : Dir → SblockArea}
    (h : (A .rx).base = (A .tx).base + (A .tx).count * (A .tx).size) : Apart A := .inl h.ge

/-! ## Bytes of a block -/

section Content

variable {A : SblockArea} {mem : ℕ → UInt8} {virt : ℕ}

@[simp] theorem length_sharedBytes (addr n : ℕ) : (sharedBytes mem virt addr n).length = n := by
  simp [sharedBytes]

/-- Both sides see the same bytes. -/
theorem sharedBytes_toVirt {i n : ℕ} (hi : i < A.count) :
    sharedBytes mem virt (A.toVirt virt (A.blkAddr i)) n =
      (List.range n).map fun j ↦ mem (A.base + i * A.size + j) := by
  unfold sharedBytes
  rw [toVirt_blkAddr hi]
  apply List.map_congr_left
  intro j _
  congr 1
  omega

theorem content_blkAddr {i n : ℕ} (hi : i < A.count) :
    A.content mem ⟨A.blkAddr i, n⟩ =
      (List.range n).map fun j ↦ mem (A.base + i * A.size + j) := sharedBytes_toVirt hi

@[simp] theorem toStored_blkAddr (i : ℕ) :
    A.toStored virt (A.toVirt virt (A.blkAddr i)) = A.blkAddr i := toStored_toVirt (u32_lt _)

/-- Where a byte of a block is in the shared memory. -/
theorem toVirt_sub {i j : ℕ} (hi : i < A.count) :
    A.toVirt virt (A.blkAddr i) + j - virt = A.base + i * A.size + j := by
  rw [toVirt_blkAddr hi]
  omega

/-- A block ends before the area does. -/
theorem block_end_le {i : ℕ} (hi : i < A.count) :
    A.base + i * A.size + A.size ≤ A.base + A.count * A.size := by
  have hmul : (i + 1) * A.size ≤ A.count * A.size := Nat.mul_le_mul_right _ hi
  rw [Nat.succ_mul] at hmul
  omega

/-- The bytes of two blocks are apart. -/
theorem block_apart {i k x y : ℕ} (hne : k ≠ i) (hx : x < A.size) (hy : y < A.size) :
    A.base + k * A.size + y ≠ A.base + i * A.size + x := by
  intro heq
  apply hne
  have hdiv {a b : ℕ} (hb : b < A.size) : (a * A.size + b) / A.size = a := by
    rw [Nat.add_comm, Nat.add_mul_div_right _ _ A.size_pos, Nat.div_eq_of_lt hb, Nat.zero_add]
  have hsame : k * A.size + y = i * A.size + x := by omega
  have hquot := congrArg (· / A.size) hsame
  rwa [hdiv hy, hdiv hx] at hquot

/-- What is written elsewhere does not change a block. -/
theorem content_update {k n pos : ℕ} (b : UInt8) (hk : k < A.count) (hn : n ≤ A.size)
    (hpos : ∀ y < A.size, A.base + k * A.size + y ≠ pos) :
    A.content (Function.update mem pos b) ⟨A.blkAddr k, n⟩ = A.content mem ⟨A.blkAddr k, n⟩ := by
  rw [content_blkAddr hk, content_blkAddr hk]
  apply List.map_congr_left
  intro j hj
  have hlt : j < A.size := (List.mem_range.mp hj).trans_le hn
  exact Function.update_of_ne (hpos j hlt) _ _

end Content

/-! ## Directions without blocks -/

section Blank

variable {A : SblockArea} {s : SblockDir}

/-- Nobody has a block of a direction that has none. -/
theorem SblockInv.blank (h : SblockInv A s) (hzero : A.count = 0) :
    s.senderHolds = [] ∧ s.receiverHolds = [] ∧ s.pool.wt = s.pool.rd ∧ s.ring.wt = s.ring.rd := by
  have hcard := h.card
  have hpool : s.pool.window A.count = [] := List.eq_nil_of_length_eq_zero (by omega)
  have hring : s.ring.window A.count = [] := List.eq_nil_of_length_eq_zero (by omega)
  refine ⟨?_, ?_, ?_, ?_⟩
  · exact List.eq_nil_of_length_eq_zero (by omega)
  · exact List.eq_nil_of_length_eq_zero (by omega)
  · exact (window_eq_nil_iff h.poolRd h.poolWt).mp hpool
  · exact (window_eq_nil_iff h.ringRd h.ringWt).mp hring

/-- No step of the side that sends is about a block then. -/
theorem SblockDirInv.txAct_blank (h : SblockDirInv A s) (hzero : A.count = 0) {e : SblockTxStep}
    (he : e.enabled s = true) : SblockDirInv A (e.act A s) := by
  obtain ⟨hsender, -, hpool, -⟩ := h.inv.blank hzero
  obtain ⟨⟨hgot, hputting⟩, hsending⟩ :
      (s.sender = [] ∧ s.putting = []) ∧ s.ringTx = none := by
    simpa [SblockDir.senderHolds, and_assoc] using hsender
  cases e with
  | getEnter i timeout => exact ⟨h.inv.setGetter (by simp), h.tx, h.rx⟩
  | getSample i =>
    dsimp only [SblockTxStep.act]
    split
    · refine ⟨h.inv.getSample i _, ?_, ?_⟩
      all_goals
        unfold SblockDir.getSample
        rw [if_pos hpool.symm]
        split
      · exact h.tx
      · exact h.tx
      · exact h.rx
      · exact h.rx
    · exact h
  | getResource i err => exact ⟨h.inv.failGet (by simp), h.tx, h.rx⟩
  | getWake i => exact ⟨h.inv.setGetter (by simp), h.tx, h.rx⟩
  | getAbort i err =>
    dsimp only [SblockTxStep.act]
    split
    · rename_i seen hwait
      refine ⟨h.inv.failGet fun err' seen' hf ↦ ?_, h.tx, h.rx⟩
      cases hf
      exact h.inv.waiting i seen hwait
    · exact h
  | getLock i =>
    refine ⟨h.inv.getLock (of_decide_eq_true he).2 i, ?_, ?_⟩
    all_goals
      dsimp only [SblockTxStep.act]
      unfold SblockDir.getLock
      rw [if_neg (not_not.mpr hpool.symm)]
    · exact h.tx
    · exact h.rx
  | getDone =>
    dsimp only [SblockTxStep.act]
    split
    · rename_i i blk hget
      exact absurd hpool (h.inv.getting i blk hget).1
    · exact h
  | putWrite addr =>
    have hmem := (of_decide_eq_true he).2
    rw [hgot] at hmem
    cases hmem
  | putDone =>
    dsimp only [SblockTxStep.act]
    split
    · rename_i addr hput
      simp [SblockDir.putting, hput] at hputting
    · exact h
  | sendWrite addr length =>
    have hmem := (of_decide_eq_true he).2.1
    rw [hgot] at hmem
    cases hmem
  | sendDone =>
    dsimp only [SblockTxStep.act]
    rw [hsending]
    exact h

/-- No step of the side that receives may be taken then. -/
theorem SblockDirInv.rxAct_blank (h : SblockDirInv A s) (hzero : A.count = 0) {e : SblockRxStep}
    (he : e.enabled s = true) : SblockDirInv A (e.act A s) := by
  obtain ⟨-, hreceiver, -, hring⟩ := h.inv.blank hzero
  obtain ⟨hreceived, hreleasing⟩ : s.receiver = [] ∧ s.poolRx = none := by
    simpa [SblockDir.receiverHolds] using hreceiver
  cases e with
  | recvRead => exact absurd hring (of_decide_eq_true he).2
  | recvDone =>
    dsimp only [SblockRxStep.act]
    split
    · rename_i blk hrecv
      exact absurd hring (h.inv.receiving blk hrecv).1
    · exact h
  | releaseWrite addr =>
    have hmem := (of_decide_eq_true he).2
    rw [hreceived] at hmem
    cases hmem
  | releaseDone =>
    dsimp only [SblockRxStep.act]
    rw [hreleasing]
    exact h

/-- A step keeps what holds of a direction, whether it has blocks or not. -/
theorem SblockDirInv.act (h : SblockDirInv A s) (hcount : A.count = 0 ∨ A.count.isPowerOfTwo)
    {e : SblockStep} (he : e.enabled s = true) : SblockDirInv A (e.act A s) := by
  obtain ⟨side, e | e⟩ := e
  · rcases hcount with hzero | hpow
    · exact h.txAct_blank hzero he
    · exact h.txAct (count_dvd hpow) he
  · rcases hcount with hzero | hpow
    · exact h.rxAct_blank hzero he
    · exact h.rxAct (count_dvd hpow) he

end Blank

/-! ## The way of a block -/

section Way

variable {A : SblockArea} {s : SblockDir}

/-- Only the ring and its pointers say which blocks are on their way. -/
theorem onTheWay_congr {s' : SblockDir} (hring : s'.ring = s.ring) (htx : s'.ringTx = s.ringTx) :
    s'.onTheWay A = s.onTheWay A := by
  unfold SblockDir.onTheWay SblockDir.inFlight
  rw [hring, htx]

/-- The descriptor of a call of `sblock_send` that begins. -/
def SblockTxStep.puts (A : SblockArea) : SblockTxStep → List SblockBlks
  | sendWrite addr length => [⟨A.toStored A.txVirt addr, length⟩]
  | _ => []

/-- The descriptor of a call of `sblock_receive` that returns. -/
def SblockRxStep.takes (s : SblockDir) : SblockRxStep → List SblockBlks
  | recvDone => s.ringRx.toList
  | _ => []

variable (h : SblockInv A s) (hcount : A.count = 0 ∨ A.count.isPowerOfTwo)

include h hcount

theorem dvd_of_sender (hpos : 0 < s.senderHolds.length) : A.count ∣ 2 ^ 32 := by
  rcases hcount with hzero | hpow
  · rw [(h.blank hzero).1] at hpos
    cases hpos
  · exact count_dvd hpow

theorem onTheWay_sendWrite (hfree : s.ringTx = none) {addr : ℕ} (hmem : addr ∈ s.sender)
    (length : ℕ) :
    (s.sendWrite A addr length).onTheWay A =
      s.onTheWay A ++ [⟨A.toStored A.txVirt addr, length⟩] := by
  have hpos := senderHolds_pos_of_mem hmem
  have hdvd := dvd_of_sender h hcount hpos
  have hwindow : (s.sendWrite A addr length).ring.window A.count = s.ring.window A.count := by
    dsimp only [SblockDir.sendWrite]
    rw [sblockGetRingpos_eq]
    exact window_write_back hdvd h.ringRd h.ringWt _ (h.room (.inl hpos)).2
  unfold SblockDir.onTheWay SblockDir.inFlight
  rw [hwindow, hfree, Option.map_none, Option.toList_none, List.append_nil]
  rfl

theorem onTheWay_sendDone {addr length : ℕ} (hsend : s.ringTx = some (addr, length)) :
    (s.sendDone A addr length).onTheWay A = s.onTheWay A := by
  have hpos := senderHolds_pos_of_sending hsend
  have hdvd := dvd_of_sender h hcount hpos
  have hpush := window_push hdvd A.count_lt h.ringRd h.ringWt (h.room (.inl hpos)).2
  rw [h.sending addr length hsend] at hpush
  unfold SblockDir.onTheWay SblockDir.inFlight
  dsimp only [SblockDir.sendDone]
  rw [hpush, hsend, Option.map_none, Option.toList_none, List.append_nil]
  rfl

theorem onTheWay_recvDone {blk : SblockBlks} (hrecv : s.ringRx = some blk) :
    s.onTheWay A = blk :: (s.recvDone A blk).onTheWay A := by
  have hdvd : A.count ∣ 2 ^ 32 := by
    rcases hcount with hzero | hpow
    · exact absurd (h.blank hzero).2.2.2 (h.receiving blk hrecv).1
    · exact count_dvd hpow
  unfold SblockDir.onTheWay SblockDir.inFlight
  rw [(h.receiving_pop hdvd hrecv).1, List.cons_append]
  dsimp only [SblockDir.recvDone]

/-- A step of the side that sends puts a block on its way when the call begins. -/
theorem onTheWay_tx {e : SblockTxStep} (he : e.enabled s = true) :
    (e.act A s).onTheWay A = s.onTheWay A ++ e.puts A := by
  cases e with
  | sendWrite addr length =>
    obtain ⟨hfree, hmem, -⟩ := of_decide_eq_true he
    exact onTheWay_sendWrite h hcount hfree hmem length
  | sendDone =>
    dsimp only [SblockTxStep.act, SblockTxStep.puts]
    rw [List.append_nil]
    split
    · exact onTheWay_sendDone h hcount ‹_›
    · rfl
  | getSample i =>
    dsimp only [SblockTxStep.act, SblockTxStep.puts, SblockDir.getSample]
    rw [List.append_nil]
    split
    · split
      · split <;> exact onTheWay_congr rfl rfl
      · exact onTheWay_congr rfl rfl
    · rfl
  | getLock i =>
    dsimp only [SblockTxStep.act, SblockTxStep.puts, SblockDir.getLock]
    rw [List.append_nil]
    split <;> exact onTheWay_congr rfl rfl
  | getAbort i err =>
    dsimp only [SblockTxStep.act, SblockTxStep.puts]
    rw [List.append_nil]
    split
    · exact onTheWay_congr rfl rfl
    · rfl
  | getDone =>
    dsimp only [SblockTxStep.act, SblockTxStep.puts]
    rw [List.append_nil]
    split
    · exact onTheWay_congr rfl rfl
    · rfl
  | putDone =>
    dsimp only [SblockTxStep.act, SblockTxStep.puts]
    rw [List.append_nil]
    split
    · exact onTheWay_congr rfl rfl
    · rfl
  | _ => exact (onTheWay_congr rfl rfl).trans (List.append_nil _).symm

/-- A step of the side that receives takes the first block when the call returns. -/
theorem onTheWay_rx (e : SblockRxStep) :
    s.onTheWay A = e.takes s ++ (e.act A s).onTheWay A := by
  cases e with
  | recvRead => exact (onTheWay_congr rfl rfl).symm.trans (List.nil_append _).symm
  | recvDone =>
    dsimp only [SblockRxStep.act, SblockRxStep.takes]
    split
    · rename_i blk hrecv
      rw [hrecv]
      exact onTheWay_recvDone h hcount hrecv
    · rename_i hnone
      rw [hnone, Option.toList_none, List.nil_append]
  | releaseWrite addr => exact (onTheWay_congr rfl rfl).symm.trans (List.nil_append _).symm
  | releaseDone =>
    dsimp only [SblockRxStep.act, SblockRxStep.takes]
    rw [List.nil_append]
    split
    · exact (onTheWay_congr rfl rfl).symm
    · rfl

omit hcount

/-- The blocks that callers may write to are apart from those on their way, and from those of the
other side. -/
theorem hands_nodup :
    (s.sender.map (A.toStored A.txVirt) ++ (s.onTheWay A).map SblockBlks.addr ++
      s.receiver.map (A.toStored A.rxVirt)).Nodup := by
  have howned : (s.owned A).Nodup := h.owned ▸ Multiset.coe_nodup.mpr blocks_nodup
  rw [← Multiset.coe_nodup]
  refine Multiset.nodup_of_le (Multiset.le_iff_exists_add.mpr
    ⟨s.freePool A + s.putting.map (A.toStored A.txVirt) +
      s.poolRx.toList.map (A.toStored A.rxVirt), ?_⟩) howned
  have htx : (s.ringTx.map fun b ↦ SblockBlks.mk (A.toStored A.txVirt b.1) b.2).toList.map
      SblockBlks.addr = (s.ringTx.map Prod.fst).toList.map (A.toStored A.txVirt) := by
    cases s.ringTx <;> rfl
  simp only [SblockDir.owned, SblockDir.onTheWay, SblockDir.senderHolds, SblockDir.receiverHolds,
    List.map_append, htx, ← Multiset.coe_add]
  ac_rfl

/-- A descriptor on its way is about a block. -/
theorem exists_of_mem_onTheWay {blk : SblockBlks} (hblk : blk ∈ s.onTheWay A) :
    ∃ k < A.count, blk.addr = A.blkAddr k := by
  have hmem : blk.addr ∈ A.blocks := by
    rw [← Multiset.mem_coe, ← h.owned]
    rcases List.mem_append.mp hblk with hring | htx
    · simp only [SblockDir.owned, Multiset.mem_add, Multiset.mem_coe]
      exact .inl (.inr (List.mem_map_of_mem hring))
    · obtain ⟨b, hb, rfl⟩ := Option.map_eq_some_iff.mp (Option.mem_toList.mp htx)
      simp only [SblockDir.owned, SblockDir.senderHolds, hb, Multiset.mem_add, Multiset.mem_coe]
      exact .inl (.inl (.inr (by simp)))
  obtain ⟨k, hk, heq⟩ := List.mem_map.mp hmem
  exact ⟨k, List.mem_range.mp hk, heq.symm⟩

end Way

/-! ## Stores -/

section Store

variable {A : Dir → SblockArea} {s : SblockMem}

/-- What holds of the memory between any two steps. -/
structure SblockMemInv (A : Dir → SblockArea) (s : SblockMem) : Prop where
  dirs : ∀ d, SblockDirInv (A d) (s.dirs d)
  fits : ∀ d, ∀ blk ∈ (s.dirs d).onTheWay (A d), blk.length ≤ (A d).size ∧ blk.length < 2 ^ 32
  /-- What was sent and not received is in the blocks on their way. -/
  data : ∀ d, s.sentData d =
    s.recvData d ++ ((s.dirs d).onTheWay (A d)).map ((A d).content s.mem)

/-- Blocks of different directions are apart. -/
theorem Apart.ne (hapart : Apart A) {d d' : Dir} (hne : d ≠ d') {k i x y : ℕ}
    (hk : k < (A d).count) (hi : i < (A d').count) (hy : y < (A d).size) (hx : x < (A d').size) :
    (A d).base + k * (A d).size + y ≠ (A d').base + i * (A d').size + x := by
  have hkend := block_end_le hk
  have hiend := block_end_le hi
  cases d <;> cases d'
  · exact absurd rfl hne
  · rcases hapart with h | h <;> omega
  · rcases hapart with h | h <;> omega
  · exact absurd rfl hne

/-- A store to a block leaves the others as they are. -/
theorem content_store (hapart : Apart A) {d d' : Dir} {virt k i j n : ℕ} (b : UInt8)
    (hk : k < (A d).count) (hn : n ≤ (A d).size) (hi : i < (A d').count) (hj : j < (A d').size)
    (hne : d = d' → k ≠ i) :
    (A d).content (s.store virt ((A d').toVirt virt ((A d').blkAddr i)) j b).mem
        ⟨(A d).blkAddr k, n⟩ =
      (A d).content s.mem ⟨(A d).blkAddr k, n⟩ := by
  dsimp only [SblockMem.store]
  rw [toVirt_sub hi]
  apply content_update b hk hn
  intro y hy
  by_cases hd : d = d'
  · subst hd
    exact block_apart (hne rfl) hj hy
  · exact hapart.ne hd hk hi hy hj

/-- The blocks on their way keep their bytes, if the one that is written to is not on its way. -/
theorem SblockMemInv.store (h : SblockMemInv A s) (hapart : Apart A) {d' : Dir} {virt addr i j : ℕ}
    (b : UInt8) (hi : i < (A d').count) (haddr : addr = (A d').toVirt virt ((A d').blkAddr i))
    (hj : j < (A d').size)
    (hway : (A d').blkAddr i ∉ ((s.dirs d').onTheWay (A d')).map SblockBlks.addr) :
    SblockMemInv A (s.store virt addr j b) := by
  subst haddr
  refine ⟨h.dirs, h.fits, fun d ↦ ?_⟩
  refine (h.data d).trans (congrArg _ (List.map_congr_left fun blk hblk ↦ ?_))
  obtain ⟨k, hk, heq⟩ := exists_of_mem_onTheWay (h.dirs d).inv hblk
  have hlength := (h.fits d blk hblk).1
  obtain ⟨blkaddr, length⟩ := blk
  obtain rfl : blkaddr = (A d).blkAddr k := heq
  refine (content_store hapart b hk hlength hi hj fun hd ↦ ?_).symm
  subst hd
  rintro rfl
  exact hway (List.mem_map_of_mem hblk)

end Store

/-! ## Runs -/

section Runs

variable {A : Dir → SblockArea} {s : SblockMem}

/-- A caller that sends a block has written to where the other side will read. -/
theorem puts_content {A : SblockArea} {s : SblockDir} (h : SblockDirInv A s) (mem : ℕ → UInt8)
    {addr length : ℕ} (hmem : addr ∈ s.sender) :
    A.content mem ⟨A.toStored A.txVirt addr, length⟩ = sharedBytes mem A.txVirt addr length := by
  obtain ⟨i, hi, rfl⟩ := h.tx.known addr (List.mem_append_left _ (List.mem_append_left _ hmem))
  rw [toStored_blkAddr, content_blkAddr hi, sharedBytes_toVirt hi]

/-- A direction goes on, and its logs with it. -/
theorem SblockMemInv.setDir (h : SblockMemInv A s) {d : Dir} {x : SblockDir}
    {sent recv : List (List UInt8)} (hx : SblockDirInv (A d) x)
    (hfits : ∀ blk ∈ x.onTheWay (A d), blk.length ≤ (A d).size ∧ blk.length < 2 ^ 32)
    (hdata : s.sentData d ++ sent =
      s.recvData d ++ recv ++ (x.onTheWay (A d)).map ((A d).content s.mem)) :
    SblockMemInv A
      { s with
        dirs := Function.update s.dirs d x
        sentData := Function.update s.sentData d (s.sentData d ++ sent)
        recvData := Function.update s.recvData d (s.recvData d ++ recv) } := by
  refine ⟨fun d' ↦ ?_, fun d' ↦ ?_, fun d' ↦ ?_⟩ <;> dsimp only <;>
    rcases eq_or_ne d' d with rfl | hd
  · rwa [Function.update_self]
  · rw [Function.update_of_ne hd]
    exact h.dirs d'
  · rwa [Function.update_self]
  · rw [Function.update_of_ne hd]
    exact h.fits d'
  · rwa [Function.update_self, Function.update_self, Function.update_self]
  · rw [Function.update_of_ne hd, Function.update_of_ne hd, Function.update_of_ne hd]
    exact h.data d'

theorem SblockMemInv.txCall (h : SblockMemInv A s) {side : Side}
    (hcount : (A side.txDir).count = 0 ∨ (A side.txDir).count.isPowerOfTwo) {e : SblockTxStep}
    (he : e.enabled (s.dirs side.txDir) = true)
    (hin : (SblockMemStep.call (side, .inl e)).inBlock A = true) :
    SblockMemInv A (s.call A (side, .inl e)) := by
  have hdir := h.dirs side.txDir
  have hway := onTheWay_tx hdir.inv hcount he
  have hact : SblockDirInv (A side.txDir) (e.act (A side.txDir) (s.dirs side.txDir)) :=
    hdir.act hcount (e := (side, .inl e)) he
  refine h.setDir hact ?_ ?_
  · intro blk hblk
    rcases List.mem_append.mp (hway ▸ hblk) with hold | hnew
    · exact h.fits _ blk hold
    · cases e with
      | sendWrite addr length =>
        obtain rfl := List.mem_singleton.mp hnew
        exact ⟨of_decide_eq_true hin, (of_decide_eq_true he).2.2⟩
      | _ => cases hnew
  · have hputs : (e.puts (A side.txDir)).map ((A side.txDir).content s.mem) =
        (s.sending A (side, .inl e)).toList := by
      cases e with
      | sendWrite addr length =>
        have hmem := (of_decide_eq_true he).2.1
        exact congrArg (fun x ↦ [x]) (puts_content hdir s.mem hmem)
      | _ => rfl
    have hnone : (s.receiving A (side, .inl e)).toList = [] := rfl
    dsimp only [SblockStep.act, SblockStep.dir]
    rw [hway, List.map_append, hputs, hnone, h.data, List.append_nil, List.append_assoc]

theorem SblockMemInv.rxCall (h : SblockMemInv A s) {side : Side}
    (hcount : (A side.rxDir).count = 0 ∨ (A side.rxDir).count.isPowerOfTwo) {e : SblockRxStep}
    (he : e.enabled (s.dirs side.rxDir) = true) : SblockMemInv A (s.call A (side, .inr e)) := by
  have hdir := h.dirs side.rxDir
  have hway := onTheWay_rx hdir.inv hcount e
  have hact : SblockDirInv (A side.rxDir) (e.act (A side.rxDir) (s.dirs side.rxDir)) :=
    hdir.act hcount (e := (side, .inr e)) he
  refine h.setDir hact ?_ ?_
  · intro blk hblk
    apply h.fits _ blk
    dsimp only [SblockStep.dir]
    rw [hway]
    exact List.mem_append_right _ hblk
  · have htakes : (e.takes (s.dirs side.rxDir)).map ((A side.rxDir).content s.mem) =
        (s.receiving A (side, .inr e)).toList := by
      cases e with
      | recvDone => exact Option.toList_map.symm
      | _ => rfl
    have hnone : (s.sending A (side, .inr e)).toList = [] := rfl
    dsimp only [SblockStep.act, SblockStep.dir]
    rw [← htakes, hnone, h.data, hway, List.map_append, List.append_nil, List.append_assoc]

/-- The blocks of the side that sends are known and not on their way. -/
theorem SblockMemInv.txStore (h : SblockMemInv A s) (hapart : Apart A) {d : Dir} {addr i : ℕ}
    (b : UInt8) (hmem : addr ∈ (s.dirs d).sender) (hi : i < (A d).size) :
    SblockMemInv A (s.store (A d).txVirt addr i b) := by
  obtain ⟨k, hk, heq⟩ :=
    (h.dirs d).tx.known addr (List.mem_append_left _ (List.mem_append_left _ hmem))
  refine h.store hapart b hk heq hi fun hway ↦ ?_
  have hstored : (A d).blkAddr k = (A d).toStored (A d).txVirt addr := by
    rw [heq, toStored_blkAddr]
  have hnodup := (List.nodup_append.mp (hands_nodup (h.dirs d).inv)).1
  rw [hstored] at hway
  exact (List.nodup_append.mp hnodup).2.2 _ (List.mem_map_of_mem hmem) _ hway rfl

/-- The blocks of the side that receives are known and not on their way. -/
theorem SblockMemInv.rxStore (h : SblockMemInv A s) (hapart : Apart A) {d : Dir} {addr i : ℕ}
    (b : UInt8) (hmem : addr ∈ (s.dirs d).receiver) (hi : i < (A d).size) :
    SblockMemInv A (s.store (A d).rxVirt addr i b) := by
  obtain ⟨k, hk, heq⟩ := (h.dirs d).rx.known addr (List.mem_append_left _ hmem)
  refine h.store hapart b hk heq hi fun hway ↦ ?_
  have hstored : (A d).blkAddr k = (A d).toStored (A d).rxVirt addr := by
    rw [heq, toStored_blkAddr]
  have hnodup := List.nodup_append.mp (hands_nodup (h.dirs d).inv)
  rw [hstored] at hway
  exact hnodup.2.2 _ (List.mem_append_right _ hway) _ (List.mem_map_of_mem hmem) rfl

variable {p r : Dir → ℕ} {blks : Dir → ℕ → SblockBlks} {mem : ℕ → UInt8}

theorem SblockMemInv.init (hp : ∀ d, p d < 2 ^ 32) (hr : ∀ d, r d < 2 ^ 32) :
    SblockMemInv A (sblockMemSystem A p r blks mem).init := by
  have hinv (d : Dir) : SblockInv (A d) (.start (A d) (p d) (r d) (blks d)) :=
    .start (hp d) (hr d)
  have hway (d : Dir) : SblockDir.onTheWay (A d) (.start (A d) (p d) (r d) (blks d)) = [] := by
    have hring := (window_eq_nil_iff (n := (A d).count) (hinv d).ringRd (hinv d).ringWt).mpr rfl
    unfold SblockDir.onTheWay SblockDir.inFlight
    rw [hring]
    rfl
  refine ⟨fun d ↦ ⟨hinv d, .nil _ _, .nil _ _⟩, fun d blk hblk ↦ ?_, fun d ↦ ?_⟩
  · dsimp only [sblockMemSystem] at hblk
    rw [hway d] at hblk
    cases hblk
  · dsimp only [sblockMemSystem]
    rw [hway d]
    rfl

/-- A step of a caller that stays within its block keeps what holds of the memory. -/
theorem SblockMemInv.act (h : SblockMemInv A s) (hapart : Apart A)
    (hcount : ∀ d, (A d).count = 0 ∨ (A d).count.isPowerOfTwo) {e : SblockMemStep}
    (he : e.enabled s = true) (hin : e.inBlock A = true) : SblockMemInv A (e.act A s) := by
  cases e with
  | call e =>
    obtain ⟨side, e | e⟩ := e
    · exact h.txCall (hcount _) he hin
    · exact h.rxCall (hcount _) he
  | txStore side addr i b => exact h.txStore hapart b (of_decide_eq_true he) (of_decide_eq_true hin)
  | rxStore side addr i b => exact h.rxStore hapart b (of_decide_eq_true he) (of_decide_eq_true hin)

/-- A step that writes to this block, which a caller has received. -/
def SblockMemStep.storesTo (d : Dir) (addr : ℕ) : SblockMemStep → Bool
  | rxStore side addr' _ _ => side.rxDir = d ∧ addr' = addr
  | _ => false

/-- A caller that has received a block finds the same bytes until it writes to it. -/
theorem SblockMemInv.held (h : SblockMemInv A s) (hapart : Apart A) {d : Dir} {addr n : ℕ}
    (hmem : addr ∈ (s.dirs d).receiver) (hn : n ≤ (A d).size) {e : SblockMemStep}
    (he : e.enabled s = true) (hin : e.inBlock A = true) (hother : e.storesTo d addr = false) :
    sharedBytes (e.act A s).mem (A d).rxVirt addr n = sharedBytes s.mem (A d).rxVirt addr n := by
  obtain ⟨k, hk, rfl⟩ := (h.dirs d).rx.known addr (List.mem_append_left _ hmem)
  have hcontent (mem : ℕ → UInt8) :
      sharedBytes mem (A d).rxVirt ((A d).toVirt (A d).rxVirt ((A d).blkAddr k)) n =
        (A d).content mem ⟨(A d).blkAddr k, n⟩ := rfl
  rw [hcontent, hcontent]
  cases e with
  | call e => rfl
  | txStore side addr' j b =>
    have hmem' : addr' ∈ (s.dirs side.txDir).sender := of_decide_eq_true he
    obtain ⟨i, hi, rfl⟩ := (h.dirs side.txDir).tx.known addr'
      (List.mem_append_left _ (List.mem_append_left _ hmem'))
    refine content_store hapart b hk hn hi (of_decide_eq_true hin) ?_
    rintro rfl rfl
    -- the block would be with both sides
    have hnodup := List.nodup_append.mp (hands_nodup (h.dirs side.txDir).inv)
    refine hnodup.2.2 _ (List.mem_append_left _ (List.mem_map_of_mem hmem')) _
      (List.mem_map_of_mem hmem) ?_
    rw [toStored_blkAddr, toStored_blkAddr]
  | rxStore side addr' j b =>
    have hmem' : addr' ∈ (s.dirs side.rxDir).receiver := of_decide_eq_true he
    obtain ⟨i, hi, rfl⟩ := (h.dirs side.rxDir).rx.known addr' (List.mem_append_left _ hmem')
    refine content_store hapart b hk hn hi (of_decide_eq_true hin) ?_
    rintro rfl rfl
    exact absurd (decide_eq_false_iff_not.mp hother) (not_not.mpr ⟨rfl, rfl⟩)

theorem sblockMem_inv (hcount : ∀ d, (A d).count = 0 ∨ (A d).count.isPowerOfTwo)
    (hapart : Apart A) (hp : ∀ d, p d < 2 ^ 32) (hr : ∀ d, r d < 2 ^ 32)
    (hs : (sblockMemSystem A p r blks mem).Reach (fun _ e ↦ e.inBlock A = true) s) :
    SblockMemInv A s :=
  hs.invariant (.init hp hr) fun _ _ hinv he hin ↦ hinv.act hapart hcount he hin

/-- In every run of both sides whose callers stay within their blocks, what was in a block when
`sblock_send` was called is in it when `sblock_receive` returns it, in the same order, and stays
in it until the caller that has received it writes to it. -/
theorem sblock_data (hcount : ∀ d, (A d).count = 0 ∨ (A d).count.isPowerOfTwo)
    (hapart : Apart A) (hp : ∀ d, p d < 2 ^ 32) (hr : ∀ d, r d < 2 ^ 32)
    (hs : (sblockMemSystem A p r blks mem).Reach (fun _ e ↦ e.inBlock A = true) s) (d : Dir) :
    s.sentData d =
        s.recvData d ++ ((s.dirs d).onTheWay (A d)).map ((A d).content s.mem) ∧
      ∀ e : SblockMemStep, e.enabled s = true → e.inBlock A = true →
        ∀ addr ∈ (s.dirs d).receiver, e.storesTo d addr = false → ∀ n ≤ (A d).size,
          sharedBytes (e.act A s).mem (A d).rxVirt addr n =
            sharedBytes s.mem (A d).rxVirt addr n := by
  have hinv := sblockMem_inv hcount hapart hp hr hs
  constructor
  · exact hinv.data d
  · intro e he hin addr hmem hother n hn
    exact hinv.held hapart hmem hn he hin hother

end Runs

/-! ## A run -/

/-- `sizeof(struct sblock_header)` -/
def sblockHeaderSize : ℕ := 96

/-- Two blocks of eight bytes in each direction, as `sblock_host_init` lays them out. -/
def smallAreas : Dir → SblockArea
  | .tx => { smallArea with base := sblockHeaderSize, fits := by decide }
  | .rx => { smallArea with base := sblockHeaderSize + 2 * 8, fits := by decide }

/-- A channel with its memory. -/
def smallMem : System SblockMem SblockMemStep :=
  sblockMemSystem smallAreas (fun _ ↦ 2 ^ 32 - 1) (fun _ ↦ 2 ^ 32 - 1) (fun _ _ ↦ ⟨0, 0⟩) fun _ ↦ 0

instance (s : SblockMem) (e : SblockMemStep) : Decidable (smallMem.enabled s e) :=
  inferInstanceAs (Decidable (e.enabled s = true))

/-- The host writes two bytes and sends them, and the client receives them. -/
def smallDataRun : List SblockMemStep :=
  (smallRun.take 4).map .call ++ [.txStore .host 65632 0 7, .txStore .host 65632 1 9] ++
    ([(.host, .inl (.sendWrite 65632 2)), (.host, .inl .sendDone), (.client, .inr .recvRead),
      (.client, .inr .recvDone)] : List SblockStep).map .call

theorem smallDataRun_reach :
    smallMem.Reach (fun _ e ↦ e.inBlock smallAreas = true)
      (smallMem.exec smallMem.init smallDataRun) :=
  System.Reach.init.exec (by decide)

theorem sblock_data_small :
    (smallMem.exec smallMem.init smallDataRun).recvData .tx = [[7, 9]] ∧
      (smallMem.exec smallMem.init smallDataRun).sentData .tx =
        (smallMem.exec smallMem.init smallDataRun).recvData .tx ++
          (((smallMem.exec smallMem.init smallDataRun).dirs .tx).onTheWay (smallAreas .tx)).map
            ((smallAreas .tx).content (smallMem.exec smallMem.init smallDataRun).mem) :=
  ⟨by decide, (sblock_data (fun d ↦ .inr ⟨1, by cases d <;> rfl⟩) (apart_of_layout rfl)
    (fun _ ↦ by decide) (fun _ ↦ by decide) smallDataRun_reach .tx).1⟩

end Wwan.Sipc
