import Mathlib.Data.List.Basic
import Mathlib.Data.Int.Notation
import Wwan.Lib.Loop
import Wwan.Sipc.Sbuf

/-!
# The spool device

`spool_read` returns the blocks of a channel as one stream of bytes. A block that does not fit into
one read is held, and the position of the file says how much of it has been returned.

`spool_write` cuts a buffer into blocks. It stops at the first block that cannot be had or filled,
but the one that could not be filled is sent all the same, and a block that could not be had makes
an error of what has been sent before.

`vfs_read` and `vfs_write` limit a count to `MAX_RW_COUNT`, so that it fits into an `int`.
-/

namespace Wwan.Sipc.Spool

open Bytes

/-- `MAX_RW_COUNT` -/
def maxRwCount : ℕ := 0x7ffff000

/-- A `struct sblock`, with the `length` bytes at its address. -/
structure Block where
  addr : ℕ
  data : List UInt8
  /-- `length` is an `u32`. -/
  length_lt : data.length < 2 ^ 32
  deriving DecidableEq

/-- `length` -/
def Block.length (blk : Block) : ℕ := blk.data.length

/-- What `sblock_receive` and `sblock_get` return, and the block if that is not negative. -/
structure BlockResult where
  ret : Int32
  blk : Block
  deriving DecidableEq

/-! ## Reading -/

/-- `struct spool_sblock`, with the position of the file. -/
structure SpoolFile where
  isHold : Bool
  hold : Block
  ppos : ℤ
  deriving DecidableEq

/-- A call of `spool_read`: its count, what `sblock_receive` does if it is called, and whether the
bytes can be copied. -/
structure ReadCall where
  count : ℕ
  receive : BlockResult
  copied : Bool
  deriving DecidableEq

/-- What a call of `spool_read` does. -/
structure ReadDone where
  ret : ℤ
  /-- The bytes that it has copied to the user. -/
  bytes : List UInt8
  /-- The block that `sblock_receive` has given to it. -/
  received : Option Block
  /-- The block that it has passed to `sblock_release`. -/
  released : Option Block
  file : SpoolFile
  deriving DecidableEq

/-- `n` bytes of a block from `pos` on. There are none behind the block. -/
def Block.slice (blk : Block) (pos : ℤ) (n : ℕ) : Option (List UInt8) :=
  if 0 ≤ pos ∧ pos + n ≤ blk.length then some ((blk.data.drop pos.toNat).take n) else none

/-- `spool_read` from the copy on. -/
def readCopy (s : SpoolFile) (received : Option Block) (blk : Block) (rdsize : ℤ) (copied : Bool) :
    Option ReadDone :=
  if ¬copied then
    some
      { ret := efault
        bytes := []
        received := received
        released := some blk
        file := { s with isHold := false, ppos := 0 } }
  else
    (blk.slice s.ppos (rdsize % 2 ^ 64).toNat).map fun bytes ↦
      { ret := rdsize
        bytes := bytes
        received := received
        released := if s.isHold then none else some blk
        file := { s with ppos := s.ppos + rdsize } }

/-- `spool_read`, with a count that `vfs_read` has limited. There is no result if it copies what is
behind the block. -/
def spoolRead (s : SpoolFile) (c : ReadCall) : Option ReadDone :=
  let count := min c.count maxRwCount
  if s.isHold then
    let rest := s.hold.length - s.ppos
    if count < rest % 2 ^ 64 then readCopy s none s.hold (int32 count) c.copied
    else readCopy { s with isHold := false } none s.hold (int32 rest) c.copied
  else
    let s := { s with ppos := 0 }
    let blk := c.receive.blk
    if c.receive.ret < 0 then
      some { ret := c.receive.ret.toInt, bytes := [], received := none, released := none, file := s }
    else if blk.length ≤ count then
      readCopy s (some blk) blk (int32 blk.length) c.copied
    else
      readCopy { s with isHold := true, hold := blk } (some blk) blk (int32 count) c.copied

/-- A file and what its reads have done. -/
structure SpoolRun where
  file : SpoolFile
  /-- The blocks received. -/
  received : List Block
  /-- The bytes returned. -/
  returned : List UInt8
  /-- The blocks passed to `sblock_release`. -/
  released : List Block
  deriving DecidableEq

/-- The block held. -/
def SpoolFile.held (s : SpoolFile) : Option Block := if s.isHold then some s.hold else none

/-- One more read. What it returns is the first `ret` bytes of the user's buffer. -/
def SpoolRun.read (s : SpoolRun) (c : ReadCall) : Option SpoolRun :=
  (spoolRead s.file c).map fun d ↦
    { file := d.file
      received := s.received ++ d.received.toList
      returned := s.returned ++ d.bytes.take d.ret.toNat
      released := s.released ++ d.released.toList }

/-- After `spool_open`. -/
def SpoolRun.opened (hold : Block) (ppos : ℤ) : SpoolRun :=
  { file := { isHold := false, hold := hold, ppos := ppos }
    received := []
    returned := []
    released := [] }

/-- A run of reads. -/
def SpoolRun.reads (s : SpoolRun) (cs : List ReadCall) : Option SpoolRun :=
  cs.foldlM SpoolRun.read s

/-- The bytes of some blocks. -/
def contents (blks : List Block) : List UInt8 := blks.flatMap Block.data

/-- The blocks that have been received are released in order, up to one that is held. The bytes of
those released have been returned, and some of that which is held, but not all. -/
structure SpoolRun.Stream (s : SpoolRun) : Prop where
  order : s.received = s.released ++ s.file.held.toList
  bytes : ∃ n, s.returned = contents s.released ++ (contents s.file.held.toList).take n ∧
    ∀ blk ∈ s.file.held, s.file.ppos = n ∧ n < blk.length

variable {s : SpoolRun} {c : ReadCall}

theorem int32_count {n : ℕ} (h : n ≤ maxRwCount) : int32 n = n := by
  rw [maxRwCount] at h
  exact int32_of_range (by omega) (by omega)

/-- A copy that stays in the block. -/
theorem readCopy_of_le {file : SpoolFile} {received : Option Block} {blk : Block} {n : ℕ} (pos : ℕ)
    (hpos : file.ppos = pos) (hn : n ≤ maxRwCount) (hle : pos + n ≤ blk.length) :
    readCopy file received blk n true =
      some
        { ret := n
          bytes := (blk.data.drop pos).take n
          received := received
          released := if file.isHold then none else some blk
          file := { file with ppos := (pos + n : ℕ) } } := by
  have hsize : ((n : ℤ) % 2 ^ 64).toNat = n := by
    rw [maxRwCount] at hn
    omega
  have hin : (0 : ℤ) ≤ pos ∧ (pos : ℤ) + n ≤ blk.length := by omega
  rw [readCopy, if_neg (by decide), hpos, hsize, Block.slice, if_pos hin, Option.map_some,
    Int.toNat_natCast, Int.natCast_add]

/-- A read that leaves something of the block `blk`, of which `pos` bytes had been returned. -/
theorem stream_partial (blk : Block) (released : List Block) (pos n : ℕ)
    (hlt : pos + n < blk.length) :
    SpoolRun.Stream
      { file := { isHold := true, hold := blk, ppos := (pos + n : ℕ) }
        received := released ++ [blk]
        returned := contents released ++ blk.data.take pos ++ (blk.data.drop pos).take n
        released := released } := by
  refine ⟨rfl, pos + n, ?_, ?_⟩
  · simp [SpoolFile.held, contents, List.take_add]
  · rintro _ ⟨⟩
    exact ⟨rfl, hlt⟩

/-- A read of the rest of the block `blk`, of which `pos` bytes had been returned. -/
theorem stream_whole (blk hold : Block) (released : List Block) (ppos : ℤ) (pos n : ℕ)
    (heq : pos + n = blk.length) :
    SpoolRun.Stream
      { file := { isHold := false, hold := hold, ppos := ppos }
        received := released ++ [blk]
        returned := contents released ++ blk.data.take pos ++ (blk.data.drop pos).take n
        released := released ++ [blk] } := by
  have hall : blk.data.take pos ++ (blk.data.drop pos).take n = blk.data := by
    rw [← List.take_add, heq]
    exact List.take_length
  refine ⟨by simp [SpoolFile.held], 0, ?_, ?_⟩
  · simp [SpoolFile.held, contents, hall]
  · rintro _ ⟨⟩

/-- A read keeps the stream. -/
theorem SpoolRun.Stream.read (h : s.Stream) (hcopied : c.copied = true) :
    ∃ s', s.read c = some s' ∧ s'.Stream := by
  obtain ⟨horder, n, hbytes, hheld⟩ := h
  have hcap : min c.count maxRwCount ≤ maxRwCount := Nat.min_le_right _ _
  unfold SpoolRun.read spoolRead
  generalize min c.count maxRwCount = count at hcap
  rw [hcopied]
  obtain ⟨⟨isHold, hold, ppos⟩, received, returned, released⟩ := s
  dsimp only at *
  cases isHold with
  | true =>
    -- the rest of the block held, or as much of it as is wanted
    obtain ⟨rfl, hlt⟩ := hheld hold rfl
    have hmax : hold.length < 2 ^ 32 := hold.length_lt
    have hrest : ((hold.length : ℤ) - n) % 2 ^ 64 = (hold.length - n : ℕ) := by omega
    have hrdsize : (hold.length : ℤ) - n = (hold.length - n : ℕ) := by omega
    rw [if_pos rfl, hrest]
    subst horder hbytes
    by_cases hless : (count : ℤ) < (hold.length - n : ℕ)
    · rw [if_pos hless, int32_count hcap, readCopy_of_le n rfl hcap (by omega)]
      refine ⟨_, rfl, ?_⟩
      have hnext := stream_partial hold released n count (by omega)
      simpa [SpoolFile.held, contents, List.take_take] using hnext
    · have hle : hold.length - n ≤ maxRwCount := by omega
      rw [if_neg hless, hrdsize, int32_count hle, readCopy_of_le n rfl hle (by omega)]
      refine ⟨_, rfl, ?_⟩
      have hnext := stream_whole hold hold released (n + (hold.length - n) : ℕ) n
        (hold.length - n) (by omega)
      simpa [SpoolFile.held, contents, List.take_take] using hnext
  | false =>
    have hret : returned = contents released := by simpa [SpoolFile.held, contents] using hbytes
    have hrec : received = released := by simpa [SpoolFile.held] using horder
    subst hret hrec
    rw [if_neg (by decide)]
    by_cases hfail : c.receive.ret < 0
    · rw [if_pos hfail]
      refine ⟨_, rfl, ?_, 0, ?_, ?_⟩
      · simp [SpoolFile.held]
      · simp [SpoolFile.held, contents]
      · rintro _ ⟨⟩
    rw [if_neg hfail]
    by_cases hfits : c.receive.blk.length ≤ count
    · have hle := hfits.trans hcap
      rw [if_pos hfits, int32_count hle, readCopy_of_le 0 rfl hle (by omega)]
      refine ⟨_, rfl, ?_⟩
      have hnext := stream_whole c.receive.blk hold received c.receive.blk.length 0 _
        (Nat.zero_add _)
      simpa [SpoolFile.held, contents, List.take_take] using hnext
    · rw [if_neg hfits, int32_count hcap, readCopy_of_le 0 rfl hcap (by omega)]
      refine ⟨_, rfl, ?_⟩
      have hnext := stream_partial c.receive.blk received 0 count (by omega)
      simpa [SpoolFile.held, contents, List.take_take] using hnext

theorem stream_opened (hold : Block) (ppos : ℤ) : (SpoolRun.opened hold ppos).Stream :=
  ⟨rfl, 0, rfl, by rintro _ ⟨⟩⟩

theorem SpoolRun.Stream.reads {cs : List ReadCall} (h : s.Stream)
    (hcopied : ∀ c ∈ cs, c.copied = true) : ∃ s', s.reads cs = some s' ∧ s'.Stream := by
  induction cs generalizing s with
  | nil => exact ⟨s, rfl, h⟩
  | cons c cs ih =>
    obtain ⟨t, hread, ht⟩ := h.read (hcopied c List.mem_cons_self)
    obtain ⟨s', hreads, hs'⟩ := ih ht fun c hc ↦ hcopied c (List.mem_cons_of_mem _ hc)
    refine ⟨s', ?_, hs'⟩
    rw [SpoolRun.reads, List.foldlM_cons, hread]
    exact hreads

theorem SpoolRun.Stream.isPrefix (h : s.Stream) : s.returned <+: contents s.received := by
  obtain ⟨horder, n, hbytes, -⟩ := h
  rw [horder, hbytes, contents, contents, contents, List.flatMap_append]
  exact (List.prefix_append_right_inj _).mpr (List.take_prefix _ _)

/-- Reads return the bytes of the blocks in order, and release each block when its last byte has
been returned. -/
theorem reads_stream (hold : Block) (ppos : ℤ) {cs : List ReadCall}
    (hcopied : ∀ c ∈ cs, c.copied = true) :
    ∃ s, (SpoolRun.opened hold ppos).reads cs = some s ∧
      s.returned <+: contents s.received ∧ s.Stream := by
  obtain ⟨s, hreads, hs⟩ := (stream_opened hold ppos).reads hcopied
  exact ⟨s, hreads, hs.isPrefix, hs⟩

/-- A block of three bytes, read by two and one, between two blocks that fit. -/
def threeBlocks : List ReadCall :=
  [⟨4, ⟨0, ⟨0, [1, 2, 3, 4], by decide⟩⟩, true⟩, ⟨2, ⟨0, ⟨4, [5, 6, 7], by decide⟩⟩, true⟩,
    ⟨1, ⟨-11, ⟨0, [], by decide⟩⟩, true⟩, ⟨9, ⟨0, ⟨8, [8], by decide⟩⟩, true⟩]

theorem reads_stream_three : ∃ s, (SpoolRun.opened ⟨0, [], by decide⟩ 0).reads threeBlocks = some s ∧
    s.returned <+: contents s.received ∧ s.Stream :=
  reads_stream _ _ (by decide)

/-! ## Writing -/

/-- What the calls of one pass do: `sblock_get`, and how many bytes `copy_from_user` does not copy,
if there are as many. -/
structure WriteOutcome where
  get : BlockResult
  uncopied : ℕ
  deriving DecidableEq

/-- The loop head of `spool_write`. -/
structure WriteState where
  pass : ℕ
  len : ℕ
  pos : ℤ
  /-- The bytes of the blocks passed to `sblock_send`. -/
  sent : List UInt8
  deriving DecidableEq

/-- What `spool_write` returns, with what it has sent. -/
structure Written where
  ret : ℤ
  sent : List UInt8
  deriving DecidableEq

section Write

-- the memory of the user from `buf` on, what the calls of each pass do, and the count
variable (buf : ℤ → UInt8) (outcome : ℕ → WriteOutcome) (count : ℕ)

/-- `n` bytes from `buf + pos` on. -/
def userBytes (pos : ℤ) (n : ℕ) : List UInt8 := (List.range n).map fun i : ℕ ↦ buf (pos + i)

/-- The value of `return count - len`. -/
def progress (len : ℕ) : ℤ := Int.bmod (count - len) (2 ^ 64)

/-- One pass of the loop of `spool_write`. -/
def writePass (s : WriteState) : Written ⊕ WriteState :=
  let o := outcome s.pass
  let blk := o.get.blk
  if o.get.ret < 0 then .inl ⟨o.get.ret.toInt, s.sent⟩
  else
    let wrsize := int32 (if blk.length > s.len then s.len else blk.length)
    let size := (wrsize % 2 ^ 64).toNat
    let left := min o.uncopied size
    if left ≠ 0 then
      -- `blk.length` is not changed, and the block is sent as it is
      let copied := userBytes buf s.pos (size - left)
      .inl ⟨progress count s.len, s.sent ++ copied ++ blk.data.drop copied.length⟩
    else
      let len := ((s.len - wrsize) % 2 ^ 64).toNat
      let sent := s.sent ++ userBytes buf s.pos size
      if len > 0 ∧ o.get.ret = 0 then .inr ⟨s.pass + 1, len, int32 (s.pos + wrsize), sent⟩
      else .inl ⟨progress count len, sent⟩

/-- The result is right: what has been sent is as much of the user's buffer as is reported. -/
def Written.Right (w : Written) : Prop := w.sent = userBytes buf 0 w.ret.toNat

instance (w : Written) : Decidable (w.Right buf) := inferInstanceAs (Decidable (_ = _))

/-- The law of `spool_write`, with a count that `vfs_write` has limited. -/
def WriteLaw : Prop :=
  ∃ w, Loop.Returns (writePass buf outcome (min count maxRwCount))
    ⟨0, min count maxRwCount, 0, []⟩ w ∧ w.Right buf

/-- How many bytes the blocks before a pass hold. -/
def offset : ℕ → ℕ
  | 0 => 0
  | k + 1 => offset k + min (outcome k).get.blk.length (count - offset k)

/-- The size of the copy of a pass. -/
def wrsize (k : ℕ) : ℕ := min (outcome k).get.blk.length (count - offset outcome count k)

/-- A pass is the last: an outcome stops it, or everything has been written. -/
def Ends (k : ℕ) : Prop :=
  (outcome k).get.ret ≠ 0 ∨ 0 < min (outcome k).uncopied (wrsize outcome count k) ∨
    offset outcome count (k + 1) = count

/-- A pass that ends has not failed after the first byte. -/
structure PassOk (k : ℕ) : Prop where
  get : (outcome k).get.ret < 0 → offset outcome count k = 0
  copy : ¬ (outcome k).get.ret < 0 → min (outcome k).uncopied (wrsize outcome count k) = 0

/-- The loop head of a pass. -/
def headAt (k : ℕ) : WriteState :=
  { pass := k
    len := count - offset outcome count k
    pos := offset outcome count k
    sent := userBytes buf 0 (offset outcome count k) }

variable {outcome count buf}

theorem offset_le (k : ℕ) : offset outcome count k ≤ count := by
  induction k with
  | zero => exact Nat.zero_le count
  | succ k ih =>
    rw [offset]
    omega

@[simp] theorem length_userBytes (pos : ℤ) (n : ℕ) : (userBytes buf pos n).length = n := by
  simp [userBytes]

theorem userBytes_append (n m : ℕ) :
    userBytes buf 0 n ++ userBytes buf n m = userBytes buf 0 (n + m) := by
  simp [userBytes, List.range_add, Function.comp_def]

theorem progress_sub {n : ℕ} (hcount : count ≤ maxRwCount) (hn : n ≤ count) :
    progress count (count - n) = n := by
  rw [maxRwCount] at hcount
  rw [progress, Int.bmod_def]
  split <;> omega

/-- A pass of `spool_write`, without the conversions between the integers. -/
theorem writePass_headAt_eq (hcount : count ≤ maxRwCount) (k : ℕ) :
    writePass buf outcome count (headAt buf outcome count k) =
      if (outcome k).get.ret < 0 then
        .inl ⟨(outcome k).get.ret.toInt, userBytes buf 0 (offset outcome count k)⟩
      else if min (outcome k).uncopied (wrsize outcome count k) ≠ 0 then
        let copied := userBytes buf (offset outcome count k)
          (wrsize outcome count k - min (outcome k).uncopied (wrsize outcome count k))
        .inl ⟨offset outcome count k, userBytes buf 0 (offset outcome count k) ++ copied ++
          (outcome k).get.blk.data.drop copied.length⟩
      else if offset outcome count (k + 1) ≠ count ∧ (outcome k).get.ret = 0 then
        .inr (headAt buf outcome count (k + 1))
      else .inl ⟨offset outcome count (k + 1), userBytes buf 0 (offset outcome count (k + 1))⟩ := by
  have hoff : offset outcome count k ≤ count := offset_le k
  have hsucc : offset outcome count (k + 1) = offset outcome count k + wrsize outcome count k := rfl
  have hle : offset outcome count (k + 1) ≤ count := offset_le (k + 1)
  have hmore : count - offset outcome count (k + 1) > 0 ↔ offset outcome count (k + 1) ≠ count := by
    omega
  have hcap : wrsize outcome count k ≤ maxRwCount := by omega
  have hsize : int32 (if (outcome k).get.blk.length > count - offset outcome count k then
      ((count - offset outcome count k : ℕ) : ℤ) else (outcome k).get.blk.length) =
        wrsize outcome count k := by
    rw [← int32_count hcap, wrsize]
    congr 1
    split <;> omega
  have hnat : ((wrsize outcome count k : ℤ) % 2 ^ 64).toNat = wrsize outcome count k := by
    rw [maxRwCount] at hcap
    omega
  have hlen : (((count - offset outcome count k : ℕ) : ℤ) - wrsize outcome count k) % 2 ^ 64 =
      (count - offset outcome count (k + 1) : ℕ) := by
    rw [maxRwCount] at hcount
    omega
  have hpos : int32 (offset outcome count k + wrsize outcome count k) =
      offset outcome count (k + 1) := by
    have hnext := int32_count (hle.trans hcount)
    rw [hsucc, Int.natCast_add] at hnext
    rw [hsucc, Int.natCast_add, hnext]
  have hsent : userBytes buf 0 (offset outcome count k) ++
      userBytes buf (offset outcome count k) (wrsize outcome count k) =
        userBytes buf 0 (offset outcome count (k + 1)) := userBytes_append _ _
  unfold writePass headAt
  dsimp only
  rw [hsize, hnat, hlen, hpos, Int.toNat_natCast, hsent, progress_sub hcount hoff,
    progress_sub hcount hle]
  simp only [hmore]

/-- The passes of `spool_write`. -/
theorem writePass_headAt (hcount : count ≤ maxRwCount) (k : ℕ) :
    (¬ Ends outcome count k ∧
      writePass buf outcome count (headAt buf outcome count k) =
        .inr (headAt buf outcome count (k + 1))) ∨
    (Ends outcome count k ∧ ∃ w, writePass buf outcome count (headAt buf outcome count k) = .inl w ∧
      (w.Right buf ↔ PassOk outcome count k)) := by
  rw [writePass_headAt_eq hcount]
  by_cases hget : (outcome k).get.ret < 0
  · -- an error, whatever has been sent
    rw [if_pos hget]
    refine .inr ⟨.inl fun h ↦ absurd hget (by rw [h]; decide), _, rfl, ?_⟩
    have hret : (outcome k).get.ret.toInt.toNat = 0 :=
      Int.toNat_of_nonpos (Int.le_of_lt (Int32.lt_iff_toInt_lt.mp hget))
    rw [Written.Right, hret]
    constructor
    · intro h
      refine ⟨fun _ ↦ ?_, fun h ↦ absurd hget h⟩
      simpa using congrArg List.length h
    · intro h
      rw [h.get hget]
  rw [if_neg hget]
  by_cases hleft : min (outcome k).uncopied (wrsize outcome count k) = 0
  swap
  · -- a block that is not filled is sent with its whole length
    rw [if_pos hleft]
    refine .inr ⟨.inr (.inl (Nat.pos_of_ne_zero hleft)), _, rfl, ?_⟩
    refine iff_of_false (fun h ↦ ?_) fun h ↦ hleft (h.copy hget)
    have hwr : wrsize outcome count k ≤ (outcome k).get.blk.length := Nat.min_le_left _ _
    have hlen := congrArg List.length h
    simp only [List.length_append, length_userBytes, List.length_drop, Int.toNat_natCast] at hlen
    rw [Block.length] at hwr
    omega
  rw [if_neg (not_not.mpr hleft)]
  by_cases hstay : offset outcome count (k + 1) ≠ count ∧ (outcome k).get.ret = 0
  · rw [if_pos hstay]
    refine .inl ⟨?_, rfl⟩
    rintro (h | h | h)
    · exact h hstay.2
    · exact Nat.ne_of_gt h hleft
    · exact hstay.1 h
  · rw [if_neg hstay]
    refine .inr ⟨?_, _, rfl, iff_of_true ?_ ⟨fun h ↦ absurd h hget, fun _ ↦ hleft⟩⟩
    · rcases not_and_or.mp hstay with h | h
      · exact .inr (.inr (not_not.mp h))
      · exact .inl h
    · rw [Written.Right, Int.toNat_natCast]

/-- Some pass is the last, and is a good one. -/
def WriteOk (outcome : ℕ → WriteOutcome) (count : ℕ) : Prop :=
  ∃ k, (∀ i < k, ¬ Ends outcome count i) ∧ Ends outcome count k ∧ PassOk outcome count k

/-- `spool_write` reports exactly what it sends if and only if a pass is the last, it finds a block
unless nothing has been sent before, and it copies everything. -/
theorem spoolWrite_right_iff (buf : ℤ → UInt8) (outcome : ℕ → WriteOutcome) (count : ℕ) :
    WriteLaw buf outcome count ↔ WriteOk outcome (min count maxRwCount) := by
  unfold WriteLaw WriteOk
  have hcount : min count maxRwCount ≤ maxRwCount := Nat.min_le_right _ _
  generalize min count maxRwCount = count at hcount
  have hhead : (⟨0, count, 0, []⟩ : WriteState) = headAt buf outcome count 0 := rfl
  have hpass (k : ℕ) := @writePass_headAt buf outcome count hcount k
  have hbody : ∀ k t, writePass buf outcome count (headAt buf outcome count k) = .inr t →
      t = headAt buf outcome count (k + 1) := by
    intro k t ht
    rcases hpass k with ⟨-, hnext⟩ | ⟨-, w, hlast, -⟩
    · rw [hnext] at ht
      exact (Sum.inr.inj ht).symm
    · rw [hlast] at ht
      cases ht
  have hstay : ∀ i, writePass buf outcome count (headAt buf outcome count i) =
      .inr (headAt buf outcome count (i + 1)) ↔ ¬ Ends outcome count i := by
    intro i
    rcases hpass i with ⟨hnot, hnext⟩ | ⟨hends, w, hlast, -⟩
    · exact iff_of_true hnext hnot
    · exact iff_of_false (by rw [hlast]; rintro ⟨⟩) (not_not.mpr hends)
  rw [hhead]
  simp only [Loop.returns_seq_iff hbody, hstay]
  constructor
  · rintro ⟨w, ⟨k, hlast, hbefore⟩, hright⟩
    rcases hpass k with ⟨-, hnext⟩ | ⟨hends, w', hlast', hiff⟩
    · rw [hnext] at hlast
      cases hlast
    · rw [hlast'] at hlast
      rw [← Sum.inl.inj hlast] at hright
      exact ⟨k, hbefore, hends, hiff.mp hright⟩
  · rintro ⟨k, hbefore, hends, hok⟩
    rcases hpass k with ⟨hnot, -⟩ | ⟨-, w, hlast, hiff⟩
    · exact absurd hends hnot
    · exact ⟨w, ⟨k, hlast, hbefore⟩, hiff.mpr hok⟩

end Write

/-- A block of one byte, and no other. -/
def oneBlock : ℕ → WriteOutcome
  | 0 => ⟨⟨0, ⟨0, [0], by decide⟩⟩, 0⟩
  | _ => ⟨⟨-11, ⟨0, [], by decide⟩⟩, 0⟩

/-- A block of two bytes, of which one cannot be filled. -/
def badCopy : ℕ → WriteOutcome := fun _ ↦ ⟨⟨0, ⟨0, [7, 7], by decide⟩⟩, 1⟩

/-- A byte that has been sent is followed by an error, and a block that has not been filled is sent
although nothing is reported. -/
theorem spoolWrite_wrong :
    (Loop.Returns (writePass (fun _ ↦ 1) oneBlock 2) ⟨0, 2, 0, []⟩ ⟨-11, [1]⟩ ∧
      ¬ WriteLaw (fun _ ↦ 1) oneBlock 2) ∧
    Loop.Returns (writePass (fun _ ↦ 1) badCopy 2) ⟨0, 2, 0, []⟩ ⟨0, [1, 7]⟩ ∧
      ¬ WriteLaw (fun _ ↦ 1) badCopy 2 := by
  have hone : Loop.Returns (writePass (fun _ ↦ 1) oneBlock 2) ⟨0, 2, 0, []⟩ ⟨-11, [1]⟩ :=
    ⟨2, by decide⟩
  have hbad : Loop.Returns (writePass (fun _ ↦ 1) badCopy 2) ⟨0, 2, 0, []⟩ ⟨0, [1, 7]⟩ :=
    ⟨1, by decide⟩
  refine ⟨⟨hone, ?_⟩, hbad, ?_⟩
  · rintro ⟨w, hreturns, hright⟩
    rw [hreturns.unique hone] at hright
    exact absurd hright (by decide)
  · rintro ⟨w, hreturns, hright⟩
    rw [hreturns.unique hbad] at hright
    exact absurd hright (by decide)

end Wwan.Sipc.Spool
