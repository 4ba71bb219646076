import Wwan.Lib.RingWindow
import Wwan.Sipc.Sbuf
import Wwan.Sipc.Smsg

/-!
# Blocks in shared memory

A direction of an sblock channel has a number of blocks. The descriptors of the blocks
that are free are in the *pool*, those of the blocks that have been sent in the *ring*:
two circular arrays, with pointers that run freely in 32 bits.

`sblock_get` takes a block from the pool and `sblock_put` puts it back at the same end;
`sblock_send` appends it to the ring, where `sblock_receive` of the other side takes it, and
`sblock_release` of the other side appends it to the pool. There is a lock for `sblock_get`
and `sblock_put`, and one each for the other three. The two sides share no lock, and so a
call that holds one writes or reads a descriptor in one step and moves the pointer in
another.

No array is ever checked for being full.
-/

namespace Wwan.Sipc

open Wwan Bytes

/-! ## Memory -/

/-- `struct sblock_blks`. -/
structure SblockBlks where
  /-- The address of the block, as both sides store it. -/
  addr : ℕ
  /-- `length`. -/
  length : ℕ
  deriving DecidableEq

/-- A direction of `struct sblock_ring_header`: that of the ring or that of the pool. -/
structure SblockHeader where
  /-- The read pointer. -/
  rd : ℕ
  /-- The write pointer. -/
  wt : ℕ
  /-- The descriptors. -/
  blks : ℕ → SblockBlks

/-- `sblock_get_ringpos`. -/
def sblockGetRingpos (x y : ℕ) : ℕ := if y.isPowerOfTwo then x &&& (y - 1) else x % y

/-- `sblock_get_index`. -/
def sblockGetIndex (x y : ℕ) : ℕ := x / y

@[simp] theorem sblockGetRingpos_eq (x y : ℕ) : sblockGetRingpos x y = x % y := by
  unfold sblockGetRingpos
  split
  · rename_i h
    obtain ⟨k, rfl⟩ := h
    exact Nat.and_two_pow_sub_one_eq_mod x k
  · rfl

/-- The blocks of a direction, and where both sides see them. -/
structure SblockArea where
  /-- `txblknum` of the side that sends. -/
  count : ℕ
  /-- `txblksz` of the side that sends. -/
  size : ℕ
  /-- Where the first block is in the shared memory. -/
  base : ℕ
  /-- `stored_smem_addr`. -/
  stored : ℕ
  /-- `smem_virt` of the side that sends. -/
  txVirt : ℕ
  /-- `smem_virt` of the side that receives. -/
  rxVirt : ℕ
  size_pos : 0 < size
  count_lt : count < 2 ^ 32
  fits : base + count * size ≤ 2 ^ 32

namespace SblockArea

variable (A : SblockArea)

/-- The stored address of a block. -/
def blkAddr (i : ℕ) : ℕ := u32 (A.stored + A.base + i * A.size)

/-- The stored addresses of all blocks. -/
def blocks : List ℕ := (List.range A.count).map A.blkAddr

/-- The stored address of `addr` for a side whose `smem_virt` is `virt`. -/
def toStored (virt addr : ℕ) : ℕ := u32 (addr - virt + A.stored)

/-- What is stored as `addr` for a side whose `smem_virt` is `virt`. -/
def toVirt (virt addr : ℕ) : ℕ := virt + u32 (addr - A.stored)

/-- The index of a block in `txrecord` or `rxrecord`. -/
def index (virt addr : ℕ) : ℕ := sblockGetIndex (u32 (addr - (virt + A.base))) A.size

end SblockArea

/-! ## Calls -/

/-- The values of `txrecord` and `rxrecord`. -/
inductive BlkState
  | /-- `SBLOCK_BLK_STATE_DONE`. -/
    done
  | /-- `SBLOCK_BLK_STATE_PENDING`. -/
    pending
  deriving DecidableEq

/-- Who has `p_txlock`. -/
inductive PoolTx
  | /-- Nobody. -/
    free
  | /-- A call of `sblock_get` that has read a descriptor. -/
    getting (i : ℕ) (blk : SblockBlks)
  | /-- A call of `sblock_put` that has written one for the block at `addr`. -/
    putting (addr : ℕ)
  deriving DecidableEq

/-- Where a call of `sblock_get` is. -/
inductive GetPhase
  | /-- There is no call. -/
    out
  | /-- It has not looked at the pointers. -/
    entered (timeout : ℤ)
  | /-- It has seen this pool, and waits. -/
    waiting (seen : List SblockBlks)
  | /-- It is about to take `p_txlock`. -/
    ready
  | /-- It has `p_txlock`. -/
    locked
  deriving DecidableEq

/-- Why a call of `sblock_get` has failed. -/
inductive GetFailure
  | /-- `sipc_smem_request_resource` has failed. -/
    resource (err : ℤ)
  | /-- It has taken this pool for an empty one. -/
    noData (err : ℤ) (seen : List SblockBlks)
  deriving DecidableEq

/-- A direction of an sblock channel. -/
structure SblockDir where
  /-- The ring. -/
  ring : SblockHeader
  /-- The pool. -/
  pool : SblockHeader
  /-- `txrecord` of the side that sends. -/
  txrecord : ℕ → BlkState
  /-- `rxrecord` of the side that receives. -/
  rxrecord : ℕ → BlkState
  /-- Who has `p_txlock` of the side that sends. -/
  poolTx : PoolTx
  /-- The block and its length, if a call of `sblock_send` has `r_txlock`. -/
  ringTx : Option (ℕ × ℕ)
  /-- The descriptor that was read, if a call of `sblock_receive` has `r_rxlock`. -/
  ringRx : Option SblockBlks
  /-- The block, if a call of `sblock_release` has `p_rxlock`. -/
  poolRx : Option ℕ
  /-- The calls of `sblock_get`. -/
  getters : ℕ → GetPhase
  /-- The blocks that callers have got. -/
  sender : List ℕ
  /-- The blocks that callers have received. -/
  receiver : List ℕ
  /-- All blocks that were sent. -/
  sent : List SblockBlks
  /-- All blocks that were received. -/
  received : List SblockBlks
  /-- The calls of `sblock_get` that failed. -/
  failures : List GetFailure

/-- The descriptors between the pointers. -/
def SblockHeader.window (n : ℕ) (hd : SblockHeader) : List SblockBlks :=
  Ring.window (2 ^ 32) n hd.blks hd.rd hd.wt

/-- The steps of the side that sends. -/
inductive SblockTxStep
  | /-- `sblock_get` is called. -/
    getEnter (i : ℕ) (timeout : ℤ)
  | /-- It looks at the pointers. -/
    getSample (i : ℕ)
  | /-- `sipc_smem_request_resource` fails. -/
    getResource (i : ℕ) (err : ℤ)
  | /-- The wait ends. -/
    getWake (i : ℕ)
  | /-- The wait is interrupted or ends after `timeout`. -/
    getAbort (i : ℕ) (err : ℤ)
  | /-- It takes `p_txlock`, and reads a descriptor or fails. -/
    getLock (i : ℕ)
  | /-- It moves the pointer and returns. -/
    getDone
  | /-- `sblock_put` takes `p_txlock` and writes a descriptor. -/
    putWrite (addr : ℕ)
  | /-- It moves the pointer and returns. -/
    putDone
  | /-- `sblock_send` or `sblock_send_prepare` takes `r_txlock` and writes a descriptor. -/
    sendWrite (addr length : ℕ)
  | /-- It moves the pointer and returns. -/
    sendDone
  deriving DecidableEq

/-- The steps of the side that receives. -/
inductive SblockRxStep
  | /-- `sblock_receive` takes `r_rxlock` and reads a descriptor. -/
    recvRead
  | /-- It moves the pointer and returns. -/
    recvDone
  | /-- `sblock_release` takes `p_rxlock` and writes a descriptor. -/
    releaseWrite (addr : ℕ)
  | /-- It moves the pointer and returns. -/
    releaseDone
  deriving DecidableEq

namespace SblockDir

variable (A : SblockArea) (s : SblockDir)

/-! ### `sblock_get` -/

/-- A call of `sblock_get` goes on. -/
def setGetter (i : ℕ) (c : GetPhase) : SblockDir :=
  { s with getters := Function.update s.getters i c }

/-- A call of `sblock_get` fails. -/
def failGet (i : ℕ) (f : GetFailure) : SblockDir :=
  { s.setGetter i .out with failures := f :: s.failures }

/-- `sblock_get` looks at the pointers. -/
def getSample (i : ℕ) (timeout : ℤ) : SblockDir :=
  if s.pool.rd = s.pool.wt then
    if timeout = 0 then s.failGet i (.noData enodata (s.pool.window A.count))
    else s.setGetter i (.waiting (s.pool.window A.count))
  else s.setGetter i .ready

/-- `sblock_get` takes `p_txlock`. -/
def getLock (i : ℕ) : SblockDir :=
  if s.pool.rd ≠ s.pool.wt then
    { s.setGetter i .locked with
      poolTx := .getting i (s.pool.blks (sblockGetRingpos s.pool.rd A.count)) }
  else s.failGet i (.noData eagain (s.pool.window A.count))

/-- `sblock_get` moves the pointer. -/
def getDone (i : ℕ) (blk : SblockBlks) : SblockDir :=
  let addr := A.toVirt A.txVirt blk.addr
  { s.setGetter i .out with
    pool := { s.pool with rd := u32 (s.pool.rd + 1) }
    txrecord := Function.update s.txrecord (A.index A.txVirt addr) .pending
    poolTx := .free
    sender := addr :: s.sender }

/-! ### `sblock_put` -/

/-- `sblock_put` writes a descriptor. -/
def putWrite (addr : ℕ) : SblockDir :=
  { s with
    pool :=
      { s.pool with
        blks := Function.update s.pool.blks
          (sblockGetRingpos (u32 (s.pool.rd - 1)) A.count) ⟨A.toStored A.txVirt addr, A.size⟩ }
    poolTx := .putting addr
    sender := s.sender.erase addr }

/-- `sblock_put` moves the pointer. -/
def putDone (addr : ℕ) : SblockDir :=
  { s with
    pool := { s.pool with rd := u32 (s.pool.rd - 1) }
    txrecord := Function.update s.txrecord (A.index A.txVirt addr) .done
    poolTx := .free }

/-! ### `sblock_send` -/

/-- `sblock_send_ex` writes a descriptor. -/
def sendWrite (addr length : ℕ) : SblockDir :=
  { s with
    ring :=
      { s.ring with
        blks := Function.update s.ring.blks
          (sblockGetRingpos s.ring.wt A.count) ⟨A.toStored A.txVirt addr, length⟩ }
    ringTx := some (addr, length)
    sender := s.sender.erase addr }

/-- `sblock_send_ex` moves the pointer. -/
def sendDone (addr length : ℕ) : SblockDir :=
  { s with
    ring := { s.ring with wt := u32 (s.ring.wt + 1) }
    txrecord := Function.update s.txrecord (A.index A.txVirt addr) .done
    ringTx := none
    sent := s.sent ++ [⟨A.toStored A.txVirt addr, length⟩] }

/-! ### `sblock_receive` -/

/-- `sblock_receive` reads a descriptor. -/
def recvRead : SblockDir :=
  { s with ringRx := some (s.ring.blks (sblockGetRingpos s.ring.rd A.count)) }

/-- `sblock_receive` moves the pointer. -/
def recvDone (blk : SblockBlks) : SblockDir :=
  let addr := A.toVirt A.rxVirt blk.addr
  { s with
    ring := { s.ring with rd := u32 (s.ring.rd + 1) }
    rxrecord := Function.update s.rxrecord (A.index A.rxVirt addr) .pending
    ringRx := none
    receiver := addr :: s.receiver
    received := s.received ++ [⟨A.toStored A.rxVirt addr, blk.length⟩] }

/-! ### `sblock_release` -/

/-- `sblock_release` writes a descriptor. -/
def releaseWrite (addr : ℕ) : SblockDir :=
  { s with
    pool :=
      { s.pool with
        blks := Function.update s.pool.blks
          (sblockGetRingpos s.pool.wt A.count) ⟨A.toStored A.rxVirt addr, A.size⟩ }
    poolRx := some addr
    receiver := s.receiver.erase addr }

/-- `sblock_release` moves the pointer. -/
def releaseDone (addr : ℕ) : SblockDir :=
  { s with
    pool := { s.pool with wt := u32 (s.pool.wt + 1) }
    rxrecord := Function.update s.rxrecord (A.index A.rxVirt addr) .done
    poolRx := none }

end SblockDir

/-! ## Runs -/

namespace SblockTxStep

/-- When a step of the side that sends may be taken. -/
def enabled (s : SblockDir) : SblockTxStep → Bool
  | getEnter i _ => s.getters i = .out
  | getSample i =>
    match s.getters i with
    | .entered _ => true
    | _ => false
  | getResource i err =>
    match s.getters i with
    | .entered _ => err < 0
    | .ready => err < 0
    | _ => false
  | getWake i =>
    match s.getters i with
    | .waiting _ => true
    | _ => false
  | getAbort i err =>
    match s.getters i with
    | .waiting _ => err < 0
    | _ => false
  | getLock i => s.getters i = .ready ∧ s.poolTx = .free
  | getDone =>
    match s.poolTx with
    | .getting .. => true
    | _ => false
  | putWrite addr => s.poolTx = .free ∧ addr ∈ s.sender
  | putDone =>
    match s.poolTx with
    | .putting _ => true
    | _ => false
  | sendWrite addr length => s.ringTx = none ∧ addr ∈ s.sender ∧ length < 2 ^ 32
  | sendDone => s.ringTx.isSome

/-- What a step of the side that sends does. -/
def act (A : SblockArea) (s : SblockDir) : SblockTxStep → SblockDir
  | getEnter i timeout => s.setGetter i (.entered timeout)
  | getSample i =>
    match s.getters i with
    | .entered timeout => s.getSample A i timeout
    | _ => s
  | getResource i err => s.failGet i (.resource err)
  | getWake i => s.setGetter i .ready
  | getAbort i err =>
    match s.getters i with
    | .waiting seen => s.failGet i (.noData err seen)
    | _ => s
  | getLock i => s.getLock A i
  | getDone =>
    match s.poolTx with
    | .getting i blk => s.getDone A i blk
    | _ => s
  | putWrite addr => s.putWrite A addr
  | putDone =>
    match s.poolTx with
    | .putting addr => s.putDone A addr
    | _ => s
  | sendWrite addr length => s.sendWrite A addr length
  | sendDone =>
    match s.ringTx with
    | some (addr, length) => s.sendDone A addr length
    | none => s

end SblockTxStep

namespace SblockRxStep

/-- When a step of the side that receives may be taken. -/
def enabled (s : SblockDir) : SblockRxStep → Bool
  | recvRead => s.ringRx = none ∧ s.ring.wt ≠ s.ring.rd
  | recvDone => s.ringRx.isSome
  | releaseWrite addr => s.poolRx = none ∧ addr ∈ s.receiver
  | releaseDone => s.poolRx.isSome

/-- What a step of the side that receives does. -/
def act (A : SblockArea) (s : SblockDir) : SblockRxStep → SblockDir
  | recvRead => s.recvRead A
  | recvDone =>
    match s.ringRx with
    | some blk => s.recvDone A blk
    | none => s
  | releaseWrite addr => s.releaseWrite A addr
  | releaseDone =>
    match s.poolRx with
    | some addr => s.releaseDone A addr
    | none => s

end SblockRxStep

/-- A step of a side, as the one that sends or the one that receives. -/
abbrev SblockStep := Side × (SblockTxStep ⊕ SblockRxStep)

/-- The direction a step is about, by `sblock_host_init` and `sblock_client_init`. -/
def SblockStep.dir : SblockStep → Dir
  | (side, .inl _) => side.txDir
  | (side, .inr _) => side.rxDir

/-- When a step may be taken. -/
def SblockStep.enabled (s : SblockDir) : SblockStep → Bool
  | (_, .inl e) => e.enabled s
  | (_, .inr e) => e.enabled s

/-- What a step does to the direction it is about. -/
def SblockStep.act (A : SblockArea) (s : SblockDir) : SblockStep → SblockDir
  | (_, .inl e) => e.act A s
  | (_, .inr e) => e.act A s

/-- A direction with all blocks in the pool. `sblock_host_init` lets the pointers start at
`0`. -/
def SblockDir.start (A : SblockArea) (poolPtr ringPtr : ℕ) (mem : ℕ → SblockBlks) : SblockDir :=
  { ring := ⟨ringPtr, ringPtr, mem⟩
    pool :=
      { rd := poolPtr
        wt := u32 (poolPtr + A.count)
        blks := fun j ↦
          ⟨A.blkAddr ((j + (A.count - poolPtr % A.count)) % A.count), A.size⟩ }
    txrecord := fun _ ↦ .done
    rxrecord := fun _ ↦ .done
    poolTx := .free
    ringTx := none
    ringRx := none
    poolRx := none
    getters := fun _ ↦ .out
    sender := []
    receiver := []
    sent := []
    received := []
    failures := [] }

/-- The runs of both sides of a channel that stays ready. -/
def sblockSystem (A : Dir → SblockArea) (poolPtr ringPtr : Dir → ℕ) (mem : Dir → ℕ → SblockBlks) :
    System (Dir → SblockDir) SblockStep :=
  { init := fun d ↦ .start (A d) (poolPtr d) (ringPtr d) (mem d)
    enabled := fun s e ↦ SblockStep.enabled (s e.dir) e
    next := fun s e ↦ Function.update s e.dir (SblockStep.act (A e.dir) (s e.dir) e) }

end Wwan.Sipc
