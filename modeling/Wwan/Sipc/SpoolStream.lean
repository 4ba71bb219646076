import Wwan.Sipc.SblockData
import Wwan.Sipc.Spool

/-!
# A stream of bytes over shared memory

`spool_read` is called on a file while the other side sends, and while callers of both sides
write to the blocks that they have. It receives a block with `sblock_receive`, copies from the
shared memory, and passes the block to `sblock_release` when it is through with it. A block that
it holds from one call to the next stays in the shared memory all that time.

The reads of the file are the only calls of its side for this direction.
-/

namespace Wwan.Sipc.Spool

open Wwan Bytes

/-! ## Steps -/

/-- Where a call of `spool_read` is. -/
inductive SpoolPhase
  | /-- There is no call. -/
    idle
  | /-- It is in `sblock_receive`. -/
    receiving (count : ℕ)
  | /-- It is about to copy, with the address and the length of what it has received. -/
    copying (count : ℕ) (blk : Option (ℕ × ℕ))
  | /-- It is in `sblock_release`. -/
    releasing (addr : ℕ)
  | /-- `sblock_release` has written the descriptor. -/
    released
  deriving DecidableEq

/-- A channel, with a file of one side. -/
structure SpoolChan where
  /-- The channel. -/
  chan : SblockMem
  /-- The file, and what its reads have done. -/
  run : SpoolRun
  /-- The call. -/
  phase : SpoolPhase
  /-- A call has copied what is behind its block. -/
  overread : Bool

/-- A step of a channel with a file. -/
inductive SpoolStep
  | /-- A step of another caller. -/
    other (e : SblockMemStep)
  | /-- `spool_read` is called. -/
    readCall (count : ℕ)
  | /-- A step of `sblock_receive` or `sblock_release`. -/
    call (e : SblockRxStep)
  | /-- `sblock_receive` fails. -/
    fail (ret : Int32)
  | /-- `spool_read` copies, or `unalign_copy_to_user` fails. -/
    copy (copied : Bool)
  deriving DecidableEq

/-- `n` bytes at `addr` as a block. The `length` of a block is an `u32`. -/
def loadBlock (virt : ℕ) (mem : ℕ → UInt8) (addr length : ℕ) : Block :=
  { addr := addr
    data := sharedBytes mem virt addr (u32 length)
    length_lt := by
      rw [length_sharedBytes]
      exact u32_lt _ }

/-- A block that is held is in the shared memory. -/
def SpoolFile.load (virt : ℕ) (mem : ℕ → UInt8) (f : SpoolFile) : SpoolFile :=
  if f.isHold then { f with hold := loadBlock virt mem f.hold.addr f.hold.length } else f

/-- A read has done something. -/
def SpoolRun.after (s : SpoolRun) (d : ReadDone) : SpoolRun :=
  { file := d.file
    received := s.received ++ d.received.toList
    returned := s.returned ++ d.bytes.take d.ret.toNat
    released := s.released ++ d.released.toList }

namespace SpoolPhase

/-- The step of `sblock_receive` or `sblock_release` that a call may take. -/
def permits : SpoolPhase → SblockRxStep → Bool
  | receiving _, .recvRead => true
  | receiving _, .recvDone => true
  | releasing addr, .releaseWrite addr' => addr' = addr
  | released, .releaseDone => true
  | _, _ => false

/-- How a call goes on after such a step. -/
def next (A : SblockArea) (s : SblockDir) : SpoolPhase → SblockRxStep → SpoolPhase
  | receiving count, .recvDone =>
    copying count (s.ringRx.map fun blk ↦ (A.toVirt A.rxVirt blk.addr, blk.length))
  | releasing _, .releaseWrite _ => released
  | released, .releaseDone => idle
  | c, _ => c

/-- What `sblock_receive` has returned to a call that is about to copy. -/
def received (virt : ℕ) (mem : ℕ → UInt8) (hold : Block) : Option (ℕ × ℕ) → BlockResult
  | some (addr, length) => ⟨0, loadBlock virt mem addr length⟩
  | none => ⟨0, hold⟩

end SpoolPhase

namespace SpoolChan

variable (A : Dir → SblockArea) (side : Side) (s : SpoolChan)

/-- `spool_read` up to `sblock_receive`, or up to the copy if a block is held. -/
def readCall (count : ℕ) : SpoolChan :=
  { s with phase := if s.run.file.isHold then .copying count none else .receiving count }

/-- `spool_read`, when `sblock_receive` has failed. -/
def fail (count : ℕ) (ret : Int32) : SpoolChan :=
  match spoolRead s.run.file ⟨count, ⟨ret, s.run.file.hold⟩, true⟩ with
  | some d => { s with run := s.run.after d, phase := .idle }
  | none => { s with phase := .idle, overread := true }

/-- `spool_read` from the copy up to `sblock_release`. -/
def copy (count : ℕ) (blk : Option (ℕ × ℕ)) (copied : Bool) : SpoolChan :=
  let virt := (A side.rxDir).rxVirt
  let file := s.run.file.load virt s.chan.mem
  match spoolRead file ⟨count, SpoolPhase.received virt s.chan.mem file.hold blk, copied⟩ with
  | some d =>
    { s with
      run := s.run.after d
      phase :=
        match d.released with
        | some blk => .releasing blk.addr
        | none => .idle }
  | none => { s with phase := .idle, overread := true }

end SpoolChan

namespace SpoolStep

/-- When a step may be taken. -/
def enabled (side : Side) (s : SpoolChan) : SpoolStep → Bool
  | other e => e.enabled s.chan
  | readCall _ => s.phase = .idle
  | call e => s.phase.permits e ∧ e.enabled (s.chan.dirs side.rxDir)
  | fail ret =>
    match s.phase with
    | .receiving _ => (s.chan.dirs side.rxDir).ringRx = none ∧ ret < 0
    | _ => false
  | copy _ =>
    match s.phase with
    | .copying _ _ => true
    | _ => false

/-- What a step does. -/
def act (A : Dir → SblockArea) (side : Side) (s : SpoolChan) : SpoolStep → SpoolChan
  | other e => { s with chan := e.act A s.chan }
  | readCall count => s.readCall count
  | call e =>
    { s with
      chan := s.chan.call A (side, .inr e)
      phase := s.phase.next (A side.rxDir) (s.chan.dirs side.rxDir) e }
  | fail ret =>
    match s.phase with
    | .receiving count => s.fail count ret
    | _ => s
  | copy copied =>
    match s.phase with
    | .copying count blk => s.copy A side count blk copied
    | _ => s

/-- The blocks of this direction are received by nobody else. -/
def foreign (side : Side) : SblockMemStep → Bool
  | .call (side', .inr _) => side' ≠ side
  | .rxStore side' _ _ _ => side' ≠ side
  | _ => true

/-- Other callers keep to their blocks, and the buffers of the reads can be written to. -/
def proper (A : Dir → SblockArea) (side : Side) : SpoolStep → Bool
  | other e => foreign side e ∧ e.inBlock A
  | copy copied => copied
  | _ => true

end SpoolStep

/-- The runs of a channel, with one file that is opened when it is ready. -/
def spoolSystem (A : Dir → SblockArea) (side : Side) (poolPtr ringPtr : Dir → ℕ)
    (blks : Dir → ℕ → SblockBlks) (mem : ℕ → UInt8) (hold : Block) (ppos : ℤ) :
    System SpoolChan SpoolStep :=
  { init :=
      { chan := (sblockMemSystem A poolPtr ringPtr blks mem).init
        run := .opened hold ppos
        phase := .idle
        overread := false }
    enabled := fun s e ↦ e.enabled side s
    next := fun s e ↦ e.act A side s }

/-! ## A read -/

section Read

variable {f : SpoolFile} {c : ReadCall} {d : ReadDone} {s : SpoolRun}

theorem readCopy_received {received : Option Block} {blk : Block} {rdsize : ℤ} {copied : Bool}
    (h : readCopy f received blk rdsize copied = some d) : d.received = received := by
  unfold readCopy at h
  split at h
  · cases h
    rfl
  · obtain ⟨bytes, -, rfl⟩ := Option.map_eq_some_iff.mp h
    rfl

/-- A read receives a block if none is held. -/
theorem spoolRead_received (h : spoolRead f c = some d) :
    d.received = if f.isHold ∨ c.receive.ret < 0 then none else some c.receive.blk := by
  unfold spoolRead at h
  dsimp only at h
  split at h
  · rename_i hhold
    rw [if_pos (.inl hhold)]
    split at h <;> exact readCopy_received h
  · rename_i hhold
    split at h
    · rename_i hfail
      rw [if_pos (.inr hfail)]
      cases h
      rfl
    · rename_i hfail
      rw [if_neg (not_or.mpr ⟨hhold, hfail⟩)]
      split at h <;> exact readCopy_received h

/-- A read goes on with a stream, and so has a result. -/
theorem SpoolRun.Stream.after (h : s.Stream) (hcopied : c.copied = true) :
    ∃ d, spoolRead s.file c = some d ∧ (s.after d).Stream := by
  obtain ⟨s', hread, hs'⟩ := h.read hcopied
  obtain ⟨d, hd, rfl⟩ := Option.map_eq_some_iff.mp hread
  exact ⟨d, hd, hs'⟩

/-- The blocks that a read has had are those that it releases or holds. -/
theorem SpoolRun.Stream.hands (h : s.Stream) (h' : (s.after d).Stream) :
    s.file.held.toList ++ d.received.toList = d.released.toList ++ d.file.held.toList := by
  have horder := h'.order
  dsimp only [SpoolRun.after] at horder
  rw [h.order, List.append_assoc, List.append_assoc] at horder
  exact List.append_cancel_left horder

end Read

/-! ## Loads -/

section Load

variable {virt : ℕ} {mem mem' : ℕ → UInt8} {addr length : ℕ}

@[simp] theorem loadBlock_addr : (loadBlock virt mem addr length).addr = addr := rfl

@[simp] theorem loadBlock_length : (loadBlock virt mem addr length).length = u32 length :=
  length_sharedBytes _ _

/-- A block can be loaded again. -/
theorem loadBlock_loadBlock :
    loadBlock virt mem (loadBlock virt mem addr length).addr
        (loadBlock virt mem addr length).length =
      loadBlock virt mem addr length := by
  rw [loadBlock_addr, loadBlock_length]
  unfold loadBlock
  congr 2
  exact u32_natCast (u32_lt _)

theorem loadBlock_congr
    (h : sharedBytes mem' virt addr (u32 length) = sharedBytes mem virt addr (u32 length)) :
    loadBlock virt mem' addr length = loadBlock virt mem addr length := by
  unfold loadBlock
  congr 1

theorem load_eq {f : SpoolFile}
    (h : ∀ blk ∈ f.held, loadBlock virt mem blk.addr blk.length = blk) :
    f.load virt mem = f := by
  unfold SpoolFile.load
  split
  · rename_i hhold
    rw [h f.hold (by rw [SpoolFile.held, if_pos hhold]; rfl)]
  · rfl

end Load

/-! ## Invariant -/

/-- What has been received and not copied. -/
def SpoolPhase.fresh : SpoolPhase → List (ℕ × ℕ)
  | copying _ blk => blk.toList
  | _ => []

/-- What the call has in its hands, besides the block that the file holds. -/
def SpoolPhase.inHand : SpoolPhase → List ℕ
  | copying _ blk => (blk.map Prod.fst).toList
  | releasing addr => [addr]
  | _ => []

/-- A block is received if none is held. -/
def SpoolPhase.Agrees (isHold : Bool) : SpoolPhase → Prop
  | receiving _ => isHold = false
  | copying _ blk => isHold = blk.isNone
  | _ => True

/-- What holds of a channel with a file between any two steps. -/
structure SpoolInv (A : Dir → SblockArea) (side : Side) (s : SpoolChan) : Prop where
  chan : SblockMemInv A s.chan
  stream : s.run.Stream
  /-- What the reads have got is what was received. -/
  data : s.chan.recvData side.rxDir = s.run.received.map Block.data ++
    s.phase.fresh.map fun b ↦ sharedBytes s.chan.mem (A side.rxDir).rxVirt b.1 b.2
  fresh : ∀ b ∈ s.phase.fresh, b.2 ≤ (A side.rxDir).size ∧ b.2 < 2 ^ 32
  /-- The side has no other blocks. -/
  hands : (s.chan.dirs side.rxDir).receiver =
    s.phase.inHand ++ s.run.file.held.toList.map Block.addr
  /-- The block that is held is as it was. -/
  held : ∀ blk ∈ s.run.file.held, blk.length ≤ (A side.rxDir).size ∧
    loadBlock (A side.rxDir).rxVirt s.chan.mem blk.addr blk.length = blk
  agrees : s.phase.Agrees s.run.file.isHold
  overread : s.overread = false

section Inv

variable {A : Dir → SblockArea} {side : Side} {s : SpoolChan}

theorem held_of_not_isHold {f : SpoolFile} (h : f.isHold = false) : f.held = none := by
  rw [SpoolFile.held, h, if_neg (by decide)]

/-- A block of the file is in the hands of its side. -/
theorem SpoolInv.held_mem (h : SpoolInv A side s) {blk : Block} (hblk : blk ∈ s.run.file.held) :
    blk.addr ∈ (s.chan.dirs side.rxDir).receiver := by
  rw [h.hands]
  exact List.mem_append_right _ (List.mem_map_of_mem (Option.mem_toList.mpr hblk))

/-- What the call has received is in the hands of its side. -/
theorem SpoolInv.fresh_mem (h : SpoolInv A side s) {b : ℕ × ℕ} (hb : b ∈ s.phase.fresh) :
    b.1 ∈ (s.chan.dirs side.rxDir).receiver := by
  rw [h.hands]
  apply List.mem_append_left
  cases hphase : s.phase with
  | copying count blk =>
    rw [hphase] at hb
    obtain rfl := Option.mem_toList.mp hb
    exact List.mem_singleton.mpr rfl
  | _ =>
    rw [hphase] at hb
    cases hb

/-- The other side's calls do not take or give back a block of this side. -/
theorem act_receiver {A : SblockArea} {s : SblockDir} (e : SblockTxStep) :
    (e.act A s).receiver = s.receiver := by
  cases e with
  | getSample i =>
    dsimp only [SblockTxStep.act, SblockDir.getSample]
    split
    · split
      · split <;> rfl
      · rfl
    · rfl
  | getLock i =>
    dsimp only [SblockTxStep.act, SblockDir.getLock]
    split <;> rfl
  | getAbort i err =>
    dsimp only [SblockTxStep.act]
    split <;> rfl
  | getDone =>
    dsimp only [SblockTxStep.act]
    split <;> rfl
  | putDone =>
    dsimp only [SblockTxStep.act]
    split <;> rfl
  | sendDone =>
    dsimp only [SblockTxStep.act]
    split <;> rfl
  | _ => rfl

theorem rxDir_injective {side side' : Side} (h : side'.rxDir = side.rxDir) : side' = side := by
  cases side <;> cases side' <;> first | rfl | cases h

/-- A step of another caller does not receive, release or write to a block of the file. -/
theorem foreign_act {s : SblockMem} {e : SblockMemStep}
    (hforeign : SpoolStep.foreign side e = true) :
    ((e.act A s).dirs side.rxDir).receiver = (s.dirs side.rxDir).receiver ∧
      (e.act A s).recvData side.rxDir = s.recvData side.rxDir ∧
      ∀ addr, e.storesTo side.rxDir addr = false := by
  cases e with
  | call e =>
    obtain ⟨side', e | e⟩ := e
    · refine ⟨?_, ?_, fun _ ↦ rfl⟩ <;> dsimp only [SblockMemStep.act, SblockMem.call] <;>
        rcases eq_or_ne side.rxDir side'.txDir with hd | hd
      · dsimp only [SblockStep.dir]
        rw [hd, Function.update_self]
        exact act_receiver e
      · dsimp only [SblockStep.dir]
        rw [Function.update_of_ne hd]
      · dsimp only [SblockStep.dir]
        rw [hd, Function.update_self]
        exact List.append_nil _
      · dsimp only [SblockStep.dir]
        rw [Function.update_of_ne hd]
    · have hd : side.rxDir ≠ side'.rxDir :=
        fun h ↦ of_decide_eq_true hforeign (rxDir_injective h.symm)
      dsimp only [SblockMemStep.act, SblockMem.call, SblockStep.dir]
      rw [Function.update_of_ne hd, Function.update_of_ne hd]
      exact ⟨rfl, rfl, fun _ ↦ rfl⟩
  | txStore side' addr i b => exact ⟨rfl, rfl, fun _ ↦ rfl⟩
  | rxStore side' addr i b =>
    refine ⟨rfl, rfl, fun addr' ↦ ?_⟩
    exact decide_eq_false fun h ↦ of_decide_eq_true hforeign (rxDir_injective h.1)

/-! ### Steps of others -/

section Steps

variable (h : SpoolInv A side s)

include h

theorem SpoolInv.other (hapart : Apart A)
    (hcount : ∀ d, (A d).count = 0 ∨ (A d).count.isPowerOfTwo) {e : SblockMemStep}
    (he : e.enabled s.chan = true) (hin : e.inBlock A = true)
    (hforeign : SpoolStep.foreign side e = true) :
    SpoolInv A side { s with chan := e.act A s.chan } := by
  obtain ⟨hreceiver, hdata, hstores⟩ := foreign_act (A := A) (s := s.chan) hforeign
  have hbytes {addr n : ℕ} (hmem : addr ∈ (s.chan.dirs side.rxDir).receiver)
      (hn : n ≤ (A side.rxDir).size) :
      sharedBytes (e.act A s.chan).mem (A side.rxDir).rxVirt addr n =
        sharedBytes s.chan.mem (A side.rxDir).rxVirt addr n :=
    h.chan.held hapart hmem hn he hin (hstores addr)
  refine { h with
    chan := h.chan.act hapart hcount he hin
    data := ?_
    hands := hreceiver.trans h.hands
    held := fun blk hblk ↦ ?_ }
  · refine (hdata.trans h.data).trans (congrArg _ (List.map_congr_left fun b hb ↦ ?_))
    exact (hbytes (h.fresh_mem hb) (h.fresh b hb).1).symm
  · obtain ⟨hsize, hload⟩ := h.held blk hblk
    have hlength : u32 blk.length = blk.length := u32_natCast blk.length_lt
    refine ⟨hsize, (loadBlock_congr (hbytes (h.held_mem hblk) ?_)).trans hload⟩
    rwa [hlength]

/-! ### Steps of the file -/

/-- A call goes on with the same blocks in its hands. -/
theorem SpoolInv.setPhase {c : SpoolPhase}
    (hfresh : c.fresh = s.phase.fresh) (hhand : c.inHand = s.phase.inHand)
    (hagrees : c.Agrees s.run.file.isHold) : SpoolInv A side { s with phase := c } := by
  refine { h with data := ?_, fresh := ?_, hands := ?_, agrees := hagrees }
  · dsimp only
    rw [hfresh]
    exact h.data
  · dsimp only
    rw [hfresh]
    exact h.fresh
  · dsimp only
    rw [hhand]
    exact h.hands

theorem SpoolInv.readCall (hidle : s.phase = .idle) (count : ℕ) :
    SpoolInv A side (s.readCall count) := by
  refine h.setPhase ?_ ?_ ?_
  · rw [hidle]
    split <;> rfl
  · rw [hidle]
    split <;> rfl
  · split
    · assumption
    · exact (Bool.not_eq_true _).mp ‹_›

/-- A step of `sblock_receive` or `sblock_release` that moves no block of this side. -/
theorem SpoolInv.call_same {e : SblockRxStep} {c : SpoolPhase}
    (hchan : SblockMemInv A (s.chan.call A (side, .inr e)))
    (hreceiver : (e.act (A side.rxDir) (s.chan.dirs side.rxDir)).receiver =
      (s.chan.dirs side.rxDir).receiver)
    (hnone : s.chan.receiving A (side, .inr e) = none) (hfresh : c.fresh = s.phase.fresh)
    (hhand : c.inHand = s.phase.inHand) (hagrees : c.Agrees s.run.file.isHold) :
    SpoolInv A side { s with chan := s.chan.call A (side, .inr e), phase := c } := by
  have h' := h.setPhase hfresh hhand hagrees
  refine { h' with chan := hchan, data := ?_, hands := ?_ }
  · dsimp only [SblockMem.call, SblockStep.dir]
    rw [Function.update_self, hnone, Option.toList_none, List.append_nil]
    exact h'.data
  · dsimp only [SblockMem.call, SblockStep.dir, SblockStep.act]
    rw [Function.update_self, hreceiver]
    exact h'.hands

/-- `sblock_receive` returns a block. -/
theorem SpoolInv.recvDone (hcount : ∀ d, (A d).count = 0 ∨ (A d).count.isPowerOfTwo) {count : ℕ}
    (hphase : s.phase = .receiving count) {blk : SblockBlks}
    (hrecv : (s.chan.dirs side.rxDir).ringRx = some blk) :
    SpoolInv A side
      { s with
        chan := s.chan.call A (side, .inr .recvDone)
        phase := .copying count
          (some ((A side.rxDir).toVirt (A side.rxDir).rxVirt blk.addr, blk.length)) } := by
  have hdir := h.chan.dirs side.rxDir
  have hagrees := h.agrees
  have hdata := h.data
  have hhands := h.hands
  rw [hphase] at hagrees hdata hhands
  have hway : blk ∈ (s.chan.dirs side.rxDir).onTheWay (A side.rxDir) := by
    rw [onTheWay_recvDone hdir.inv (hcount _) hrecv]
    exact List.mem_cons_self
  refine { h with
    chan := h.chan.rxCall (hcount _) ?_
    data := ?_
    fresh := ?_
    hands := ?_
    agrees := hagrees }
  · exact Option.isSome_iff_exists.mpr ⟨blk, hrecv⟩
  · dsimp only [SblockMem.call, SblockStep.dir, SblockMem.receiving, SpoolPhase.fresh]
    rw [Function.update_self, hrecv, hdata]
    simp only [SpoolPhase.fresh, List.map_nil, List.append_nil, Option.map_some,
      Option.toList_some, List.map_cons]
    rfl
  · intro b hb
    obtain rfl := List.mem_singleton.mp hb
    exact h.chan.fits side.rxDir blk hway
  · dsimp only [SblockMem.call, SblockStep.dir, SblockStep.act, SblockRxStep.act]
    rw [Function.update_self, hrecv]
    dsimp only [SblockDir.recvDone]
    rw [hhands]
    rfl

/-- `sblock_release` writes the descriptor of a block. -/
theorem SpoolInv.releaseWrite (hcount : ∀ d, (A d).count = 0 ∨ (A d).count.isPowerOfTwo) {addr : ℕ}
    (hphase : s.phase = .releasing addr)
    (he : SblockRxStep.enabled (s.chan.dirs side.rxDir) (.releaseWrite addr) = true) :
    SpoolInv A side
      { s with chan := s.chan.call A (side, .inr (.releaseWrite addr)), phase := .released } := by
  have hdata := h.data
  have hhands := h.hands
  rw [hphase] at hdata hhands
  refine { h with
    chan := h.chan.rxCall (hcount _) he
    data := ?_
    fresh := ?_
    hands := ?_
    agrees := trivial }
  · dsimp only [SblockMem.call, SblockStep.dir, SblockMem.receiving]
    rw [Function.update_self, Option.toList_none, List.append_nil]
    exact hdata
  · intro b hb
    cases hb
  · dsimp only [SblockMem.call, SblockStep.dir, SblockStep.act, SblockRxStep.act]
    rw [Function.update_self]
    dsimp only [SblockDir.releaseWrite]
    rw [hhands, SpoolPhase.inHand, List.singleton_append, List.erase_cons_head]
    rfl

/-- A step of `sblock_receive` or `sblock_release`. -/
theorem SpoolInv.call (hcount : ∀ d, (A d).count = 0 ∨ (A d).count.isPowerOfTwo) {e : SblockRxStep}
    (hpermits : s.phase.permits e = true) (he : e.enabled (s.chan.dirs side.rxDir) = true) :
    SpoolInv A side (SpoolStep.act A side s (.call e)) := by
  have hchan : SblockMemInv A (s.chan.call A (side, .inr e)) := h.chan.rxCall (hcount _) he
  have hagrees := h.agrees
  dsimp only [SpoolStep.act]
  cases hphase : s.phase with
  | idle =>
    rw [hphase] at hpermits
    cases e <;> cases hpermits
  | copying count blk =>
    rw [hphase] at hpermits
    cases e <;> cases hpermits
  | receiving count =>
    rw [hphase] at hpermits hagrees
    cases e with
    | recvRead =>
      refine h.call_same hchan rfl rfl ?_ ?_ hagrees
      · rw [hphase]
        rfl
      · rw [hphase]
        rfl
    | recvDone =>
      obtain ⟨blk, hrecv⟩ := Option.isSome_iff_exists.mp he
      dsimp only [SpoolPhase.next]
      rw [hrecv]
      exact h.recvDone hcount hphase hrecv
    | releaseWrite addr => cases hpermits
    | releaseDone => cases hpermits
  | releasing addr =>
    rw [hphase] at hpermits
    cases e with
    | releaseWrite addr' =>
      obtain rfl : addr' = addr := of_decide_eq_true hpermits
      exact h.releaseWrite hcount hphase he
    | recvRead => cases hpermits
    | recvDone => cases hpermits
    | releaseDone => cases hpermits
  | released =>
    rw [hphase] at hpermits
    cases e with
    | releaseDone =>
      obtain ⟨addr, hrel⟩ := Option.isSome_iff_exists.mp he
      refine h.call_same hchan ?_ rfl ?_ ?_ trivial
      · dsimp only [SblockRxStep.act]
        rw [hrel]
        rfl
      · rw [hphase]
        rfl
      · rw [hphase]
        rfl
    | recvRead => cases hpermits
    | recvDone => cases hpermits
    | releaseWrite addr => cases hpermits

/-- `sblock_receive` fails, and so does the read. -/
theorem SpoolInv.fail {count : ℕ} (hphase : s.phase = .receiving count)
    {ret : Int32} (hret : ret < 0) : SpoolInv A side (s.fail count ret) := by
  have hagrees := h.agrees
  have hdata := h.data
  have hhands := h.hands
  rw [hphase] at hagrees hdata hhands
  obtain ⟨d, hread, hstream⟩ := h.stream.after (c := ⟨count, ⟨ret, s.run.file.hold⟩, true⟩) rfl
  have hnone : d.received = none := by
    rw [spoolRead_received hread, if_pos (.inr hret)]
  have hlaw := h.stream.hands hstream
  rw [hnone, held_of_not_isHold hagrees] at hlaw
  have hheld : d.file.held = none :=
    Option.toList_eq_nil_iff.mp (List.append_eq_nil_iff.mp hlaw.symm).2
  unfold SpoolChan.fail
  rw [hread]
  refine { h with
    stream := hstream
    data := ?_
    fresh := ?_
    hands := ?_
    held := ?_
    agrees := trivial }
  · dsimp only [SpoolRun.after]
    rw [hnone, Option.toList_none, List.append_nil]
    exact hdata
  · intro b hb
    cases hb
  · dsimp only [SpoolRun.after]
    rw [hheld, hhands, held_of_not_isHold hagrees]
    rfl
  · intro blk hblk
    dsimp only [SpoolRun.after] at hblk
    rw [hheld] at hblk
    cases hblk

/-- What a read gets is what was received for it. -/
theorem SpoolInv.copy_received {count : ℕ} {blk : Option (ℕ × ℕ)}
    (hphase : s.phase = .copying count blk) {d : ReadDone}
    (hread : spoolRead s.run.file
      ⟨count, SpoolPhase.received (A side.rxDir).rxVirt s.chan.mem s.run.file.hold blk, true⟩ =
        some d) :
    d.received = blk.map fun b ↦ loadBlock (A side.rxDir).rxVirt s.chan.mem b.1 b.2 := by
  have hagrees := h.agrees
  rw [hphase] at hagrees
  rw [spoolRead_received hread]
  cases blk with
  | none => exact if_pos (.inl hagrees)
  | some b =>
    have hnot : s.run.file.isHold = false := hagrees
    have hzero : ¬(0 : Int32) < 0 := by decide
    rw [if_neg]
    · rfl
    · rintro (hhold | hneg)
      · rw [hnot] at hhold
        cases hhold
      · exact absurd hneg hzero

/-- A read copies from the block that it has, and releases the block or holds it. -/
theorem SpoolInv.copy {count : ℕ} {blk : Option (ℕ × ℕ)}
    (hphase : s.phase = .copying count blk) : SpoolInv A side (s.copy A side count blk true) := by
  have hagrees := h.agrees
  have hdata := h.data
  have hfresh := h.fresh
  have hhands := h.hands
  rw [hphase] at hagrees hdata hfresh hhands
  have hload : s.run.file.load (A side.rxDir).rxVirt s.chan.mem = s.run.file :=
    load_eq fun b hb ↦ (h.held b hb).2
  obtain ⟨d, hread, hstream⟩ := h.stream.after
    (c := ⟨count, SpoolPhase.received (A side.rxDir).rxVirt s.chan.mem s.run.file.hold blk, true⟩)
    rfl
  have hreceived := h.copy_received hphase hread
  have hlaw := h.stream.hands hstream
  -- the read had the block held or the one received, never both
  have hhad : (blk.map Prod.fst).toList ++ s.run.file.held.toList.map Block.addr =
      d.released.toList.map Block.addr ++ d.file.held.toList.map Block.addr := by
    rw [← List.map_append, ← hlaw, hreceived, List.map_append]
    cases blk with
    | none => exact (List.append_nil _).symm
    | some b =>
      rw [held_of_not_isHold hagrees]
      rfl
  have hheld : ∀ b ∈ d.file.held, b.length ≤ (A side.rxDir).size ∧
      loadBlock (A side.rxDir).rxVirt s.chan.mem b.addr b.length = b := by
    intro b hb
    have hmem : b ∈ s.run.file.held.toList ++ d.received.toList := by
      rw [hlaw]
      exact List.mem_append_right _ (Option.mem_toList.mpr hb)
    rcases List.mem_append.mp hmem with hold | hnew
    · exact h.held b (Option.mem_toList.mp hold)
    · rw [hreceived] at hnew
      obtain ⟨x, rfl, rfl⟩ := Option.map_eq_some_iff.mp (Option.mem_toList.mp hnew)
      have hx := hfresh x (Option.mem_toList.mpr rfl)
      refine ⟨?_, loadBlock_loadBlock⟩
      rw [loadBlock_length, u32_natCast hx.2]
      exact hx.1
  have hgot : s.chan.recvData side.rxDir =
      (s.run.received ++ d.received.toList).map Block.data := by
    rw [hdata, hreceived, List.map_append]
    cases blk with
    | none => rfl
    | some b =>
      have hb := (hfresh b (Option.mem_toList.mpr rfl)).2
      have hbytes : (loadBlock (A side.rxDir).rxVirt s.chan.mem b.1 b.2).data =
          sharedBytes s.chan.mem (A side.rxDir).rxVirt b.1 b.2 := by
        dsimp only [loadBlock]
        rw [u32_natCast hb]
      exact congrArg _ (congrArg (fun x ↦ [x]) hbytes.symm)
  unfold SpoolChan.copy
  dsimp only
  rw [hload, hread]
  dsimp only
  cases hreleased : d.released with
  | none =>
    rw [hreleased] at hhad
    exact { h with
      stream := hstream
      data := hgot.trans (List.append_nil _).symm
      fresh := fun b hb ↦ by cases hb
      hands := hhands.trans hhad
      held := hheld
      agrees := trivial }
  | some b =>
    rw [hreleased] at hhad
    exact { h with
      stream := hstream
      data := hgot.trans (List.append_nil _).symm
      fresh := fun b hb ↦ by cases hb
      hands := hhands.trans hhad
      held := hheld
      agrees := trivial }

/-- A step keeps what holds of a channel with a file. -/
theorem SpoolInv.act (hapart : Apart A)
    (hcount : ∀ d, (A d).count = 0 ∨ (A d).count.isPowerOfTwo) {e : SpoolStep}
    (he : e.enabled side s = true) (hproper : e.proper A side = true) :
    SpoolInv A side (e.act A side s) := by
  cases e with
  | other e =>
    obtain ⟨hforeign, hin⟩ := of_decide_eq_true hproper
    exact h.other hapart hcount he hin hforeign
  | readCall count => exact h.readCall (of_decide_eq_true he) count
  | call e =>
    obtain ⟨hpermits, he⟩ := of_decide_eq_true he
    exact h.call hcount hpermits he
  | fail ret =>
    dsimp only [SpoolStep.act]
    split
    · rename_i count hphase
      simp only [SpoolStep.enabled, hphase] at he
      exact h.fail hphase (of_decide_eq_true he).2
    · exact h
  | copy copied =>
    obtain rfl : copied = true := hproper
    dsimp only [SpoolStep.act]
    split
    · rename_i count blk hphase
      exact h.copy hphase
    · exact h

end Steps

/-! ## Runs -/

variable {p r : Dir → ℕ} {blks : Dir → ℕ → SblockBlks} {mem : ℕ → UInt8} {hold : Block} {ppos : ℤ}

theorem spool_inv (hcount : ∀ d, (A d).count = 0 ∨ (A d).count.isPowerOfTwo) (hapart : Apart A)
    (hp : ∀ d, p d < 2 ^ 32) (hr : ∀ d, r d < 2 ^ 32)
    (hs : (spoolSystem A side p r blks mem hold ppos).Reach
      (fun _ e ↦ e.proper A side = true) s) :
    SpoolInv A side s := by
  refine hs.invariant ?_ fun s e hinv he hproper ↦ hinv.act hapart hcount he hproper
  exact
    { chan := .init hp hr
      stream := stream_opened hold ppos
      data := rfl
      fresh := fun b hb ↦ by cases hb
      hands := rfl
      held := fun b hb ↦ by cases hb
      agrees := trivial
      overread := rfl }

/-- In every run in which no buffer of a read fails, the bytes that the reads of a file return are
those that were in the blocks when `sblock_send` was called on the other side, in the same order and
without gaps. No read copies what is behind a block. Between two reads the side has the block that
is held and no other, and if there is none, all that was received has been returned. -/
theorem spool_read_stream (hcount : ∀ d, (A d).count = 0 ∨ (A d).count.isPowerOfTwo)
    (hapart : Apart A) (hp : ∀ d, p d < 2 ^ 32) (hr : ∀ d, r d < 2 ^ 32)
    (hs : (spoolSystem A side p r blks mem hold ppos).Reach
      (fun _ e ↦ e.proper A side = true) s) :
    s.run.returned <+: (s.chan.sentData side.rxDir).flatten ∧ s.overread = false ∧
      (s.phase = .idle →
        (s.chan.dirs side.rxDir).receiver = s.run.file.held.toList.map Block.addr ∧
          (s.run.file.held = none →
            s.run.returned = (s.chan.recvData side.rxDir).flatten)) := by
  have hinv := spool_inv hcount hapart hp hr hs
  refine ⟨?_, hinv.overread, fun hidle ↦ ?_⟩
  · have hreads : s.run.returned <+: (s.run.received.map Block.data).flatten := by
      rw [← List.flatMap_def]
      exact hinv.stream.isPrefix
    apply hreads.trans
    rw [hinv.chan.data, hinv.data, List.flatten_append, List.flatten_append, List.append_assoc]
    exact List.prefix_append _ _
  · have hhands := hinv.hands
    have hdata := hinv.data
    rw [hidle] at hhands hdata
    refine ⟨hhands, fun hnone ↦ ?_⟩
    obtain ⟨horder, n, hbytes, -⟩ := hinv.stream
    rw [hnone, Option.toList_none, List.append_nil] at horder
    rw [hdata, horder, hbytes, hnone, contents, List.flatMap_def]
    simp [SpoolPhase.fresh, contents]

end Inv

theorem nil_length_lt : ([] : List UInt8).length < 2 ^ 32 := by decide

/-- The file of the client is read in two calls. -/
def smallSpool : System SpoolChan SpoolStep :=
  spoolSystem smallAreas .client (fun _ ↦ 2 ^ 32 - 1) (fun _ ↦ 2 ^ 32 - 1) (fun _ _ ↦ ⟨0, 0⟩)
    (fun _ ↦ 0) ⟨0, [], nil_length_lt⟩ 0

instance (s : SpoolChan) (e : SpoolStep) : Decidable (smallSpool.enabled s e) :=
  inferInstanceAs (Decidable (e.enabled .client s = true))

/-- The host sends two bytes, and gets another block while the client reads them one by one. -/
def smallReads : List SpoolStep :=
  (smallDataRun.take 8).map .other ++
    [.readCall 1, .call .recvRead, .call .recvDone, .copy true,
      .other (.call (.host, .inl (.getEnter 0 0))), .readCall 9, .copy true,
      .call (.releaseWrite 131168), .call .releaseDone]

theorem smallReads_reach :
    smallSpool.Reach (fun _ e ↦ e.proper smallAreas .client = true)
      (smallSpool.exec smallSpool.init smallReads) :=
  System.Reach.init.exec (by decide)

theorem spool_read_small :
    (smallSpool.exec smallSpool.init smallReads).run.returned = [7, 9] ∧
      (smallSpool.exec smallSpool.init smallReads).run.returned <+:
        ((smallSpool.exec smallSpool.init smallReads).chan.sentData .tx).flatten :=
  ⟨by decide, (spool_read_stream (fun d ↦ .inr ⟨1, by cases d <;> rfl⟩) (apart_of_layout rfl)
    (fun _ ↦ by decide) (fun _ ↦ by decide) smallReads_reach).1⟩

end Wwan.Sipc.Spool
