import Wwan.Lib.Bytes
import Wwan.Lib.RingCopy
import Wwan.Lib.Transition

/-!
# Byte rings in shared memory

A ring of an sbuf channel has two directions. What one side calls `tx` is `rx` for the
other, and each direction is a buffer with a read and a write pointer that run freely in
32 bits.

Sizes and pointers are the values of `u32` variables, and `left`, `txsize`, `rxsize` and
`tail` those of `int` variables. A copy that leaves the ring or the buffer of the
caller has no result.
-/

namespace Wwan.Sipc

open Wwan Bytes

/-! ## The ring -/

/-- One direction of a ring. -/
structure SbufRing where
  /-- `tx_size` of the side that writes, `rx_size` of the one that reads. -/
  size : ℕ
  /-- The buffer. -/
  mem : ℕ → UInt8
  /-- The read pointer. -/
  rd : ℕ
  /-- The write pointer. -/
  wt : ℕ

/-- The difference of the pointers. -/
def SbufRing.used (r : SbufRing) : ℕ := u32 (r.wt - r.rd)

/-- `-EFAULT`. -/
def efault : ℤ := -14

section Copy

variable (size : ℕ) (mem : ℕ → UInt8)

/-- `unalign_memcpy(base + pos, src + off, n)` into the ring. -/
def memcpyTo (pos : ℕ) (src : List UInt8) (off n : ℤ) : Option (ℕ → UInt8) :=
  if 0 ≤ n ∧ pos + n ≤ size ∧ 0 ≤ off ∧ off + n ≤ src.length then
    some (Ring.blit mem pos ((src.drop off.toNat).take n.toNat))
  else none

/-- `unalign_memcpy(buf + off, base + pos, n)` out of the ring, into a buffer of `room`
bytes. -/
def memcpyFrom (pos : ℕ) (room : ℕ) (off n : ℤ) : Option (List UInt8) :=
  if 0 ≤ n ∧ pos + n ≤ size ∧ 0 ≤ off ∧ off + n ≤ room then some (Ring.segment mem pos n.toNat)
  else none

/-- What of `n` bytes from `pos` on goes over the end of the ring. -/
def tailOf (pos : ℕ) (n : ℤ) : ℤ := int32 (pos + n - size)

/-- The copy in the loop of `sbuf_write`. -/
def copyIn (pos : ℕ) (src : List UInt8) (n : ℤ) : Option (ℕ → UInt8) :=
  let tail := tailOf size pos n
  if 0 < tail then
    (memcpyTo size mem pos src 0 (int32 (n - tail))).bind fun mem ↦
      memcpyTo size mem 0 src (n - tail) tail
  else memcpyTo size mem pos src 0 n

/-- The copy in the loop of `sbuf_read`. -/
def copyOut (pos room : ℕ) (n : ℤ) : Option (List UInt8) :=
  let tail := tailOf size pos n
  if 0 < tail then
    (memcpyFrom size mem pos room 0 (int32 (n - tail))).bind fun l ↦
      (memcpyFrom size mem 0 room (n - tail) tail).map fun l' ↦ l ++ l'
  else memcpyFrom size mem pos room 0 n

end Copy

/-! ## Calls -/

/-- A call of `sbuf_write` in its loop. -/
structure WriteCall where
  /-- `len`. -/
  len : ℕ
  /-- `left`. -/
  left : ℤ
  /-- What `u_buf` points to. -/
  buf : List UInt8
  /-- `rval`. -/
  rval : ℤ

/-- A call of `sbuf_read` in its loop. -/
structure ReadCall where
  /-- `len`. -/
  len : ℕ
  /-- `left`. -/
  left : ℤ
  /-- The bytes there are where `u_buf` points to. -/
  room : ℕ
  /-- `rval`. -/
  rval : ℤ

/-- A call of `sbuf_write` that comes to its loop. -/
def WriteCall.enter (data : List UInt8) : WriteCall := ⟨data.length, int32 data.length, data, 0⟩

/-- A call of `sbuf_read` that comes to its loop. -/
def ReadCall.enter (len : ℕ) : ReadCall := ⟨len, int32 len, len, 0⟩

/-- What `sbuf_write` and `sbuf_read` return. -/
def sbufRet (len : ℕ) (left rval : ℤ) : ℤ := if len = u32 left then rval else int32 (len - left)

section Pass

variable (r : SbufRing)

/-- The condition of the loop of `sbuf_write`, apart from `state`. -/
def WriteCall.more (call : WriteCall) : Prop := call.rval = 0 ∧ call.left ≠ 0 ∧ r.used < r.size

/-- The condition of the loop of `sbuf_read`, apart from `state`. -/
def ReadCall.more (call : ReadCall) : Prop := call.rval = 0 ∧ call.left ≠ 0 ∧ r.wt ≠ r.rd

instance (call : WriteCall) : Decidable (call.more r) :=
  inferInstanceAs (Decidable (call.rval = 0 ∧ call.left ≠ 0 ∧ r.used < r.size))

instance (call : ReadCall) : Decidable (call.more r) :=
  inferInstanceAs (Decidable (call.rval = 0 ∧ call.left ≠ 0 ∧ r.wt ≠ r.rd))

/-- `txsize`. -/
def txsize (left : ℤ) : ℤ := min (int32 (r.size - r.used)) left

/-- The outcome of `unalign_copy_from_user`. -/
inductive CopyOutcome
  | /-- All bytes are copied. -/
    done
  | /-- It fails and leaves these bytes in the ring. -/
    failed (junk : List UInt8)

/-- A pass of the loop of `sbuf_write`, and whether the other side is notified. -/
def writePass (forceSend : Bool) (call : WriteCall) (o : CopyOutcome) :
    Option (SbufRing × WriteCall × Bool) :=
  let pos := r.wt % r.size
  let n := txsize r call.left
  (copyIn r.size r.mem pos call.buf n).bind fun mem ↦
    match o with
    | .done =>
      let wt := u32 (r.wt + n)
      some ({ r with mem := mem, wt := wt },
        { call with left := call.left - n, buf := call.buf.drop n.toNat },
        forceSend || u32 (wt - r.rd) = u32 n)
    | .failed junk =>
      (copyIn r.size r.mem pos (junk.take n.toNat) (junk.take n.toNat).length).map fun mem ↦
        ({ r with mem := mem }, { call with rval := efault }, false)

/-- The size and the bytes of the copy in the loop of `sbuf_read`. The read pointer is
read for the position and again for the size. -/
def rxCopy (size : ℕ) (mem : ℕ → UInt8) (rd rd' wt : ℕ) (left : ℤ) (room : ℕ) :
    Option (ℤ × List UInt8) :=
  if size = 0 then none
  else
    let n := min (int32 (wt - rd')) left
    (copyOut size mem (rd % size) room n).map fun l ↦ (n, l)

/-- A pass of the loop of `sbuf_read`, the bytes it returns and whether the other side is
notified. `ok` is whether `unalign_copy_to_user` succeeds. -/
def readPass (call : ReadCall) (ok : Bool) :
    Option (SbufRing × ReadCall × List UInt8 × Bool) :=
  (rxCopy r.size r.mem r.rd r.rd r.wt call.left call.room).map fun (n, l) ↦
    if ok then
      let rd := u32 (r.rd + n)
      ({ r with rd := rd }, { call with left := call.left - n, room := call.room - n.toNat }, l,
        u32 (r.wt - rd) = u32 (r.size - n))
    else (r, { call with rval := efault }, [], false)

end Pass

/-! ## Runs -/

/-- A direction of a ring and the calls on it. `mutex_lock_interruptible` is not
checked, so that several calls may be in their loops. -/
structure Pipe where
  /-- The ring. -/
  ring : SbufRing
  /-- The calls of `sbuf_write` in their loops, and the bytes each has moved. -/
  writers : ℕ → Option (WriteCall × ℕ)
  /-- The calls of `sbuf_read` in their loops, and the bytes each has moved. -/
  readers : ℕ → Option (ReadCall × ℕ)
  /-- All bytes accepted. -/
  accepted : List UInt8
  /-- All bytes returned. -/
  returned : List UInt8
  /-- What the calls that have ended returned, and the bytes each moved. -/
  rets : List (ℤ × ℕ)
  /-- Some copy had no result. -/
  wild : Bool

/-- The two directions, as `struct sbuf_ring_header` names them. -/
inductive Dir
  | tx
  | rx
  deriving DecidableEq

/-- The two ends of a channel. -/
inductive Side
  | host
  | client
  deriving DecidableEq

/-- The direction a side writes to, by `sbuf_host_init` and `sbuf_client_init`. -/
def Side.txDir : Side → Dir
  | host => .tx
  | client => .rx

/-- The direction a side reads from, by `sbuf_host_init` and `sbuf_client_init`. -/
def Side.rxDir : Side → Dir
  | host => .rx
  | client => .tx

/-- The steps of the calls of one side. -/
inductive SbufStep
  | /-- A call of `sbuf_write` comes to its loop. -/
    enterWrite (i : ℕ) (data : List UInt8)
  | /-- A pass of the loop of `sbuf_write`. -/
    writePass (i : ℕ) (o : CopyOutcome)
  | /-- A call of `sbuf_write` leaves its loop: the condition fails, or the channel is not
    ready, or the copy failed. -/
    leaveWrite (i : ℕ)
  | /-- A call of `sbuf_write` or `sbuf_read` fails before its loop. -/
    fail (err : ℤ)
  | /-- A call of `sbuf_read` comes to its loop. -/
    enterRead (i : ℕ) (len : ℕ)
  | /-- A pass of the loop of `sbuf_read`. -/
    readPass (i : ℕ) (ok : Bool)
  | /-- A call of `sbuf_read` leaves its loop. -/
    leaveRead (i : ℕ)

/-- When a step may be taken. -/
def SbufStep.enabled (p : Dir → Pipe) : Side × SbufStep → Prop
  | (s, enterWrite i data) => (p s.txDir).writers i = none ∧ data.length < 2 ^ 32
  | (s, writePass i _) => ∃ c ∈ (p s.txDir).writers i, c.1.more (p s.txDir).ring
  | (s, leaveWrite i) => ((p s.txDir).writers i).isSome
  | (_, fail err) => err < 0
  | (s, enterRead i len) => (p s.rxDir).readers i = none ∧ len < 2 ^ 32
  | (s, readPass i _) => ∃ c ∈ (p s.rxDir).readers i, c.1.more (p s.rxDir).ring
  | (s, leaveRead i) => ((p s.rxDir).readers i).isSome

instance SbufStep.decidableEnabled (p : Dir → Pipe) : ∀ e, Decidable (SbufStep.enabled p e)
  | (s, enterWrite i data) =>
    inferInstanceAs (Decidable ((p s.txDir).writers i = none ∧ data.length < 2 ^ 32))
  | (s, writePass i _) =>
    inferInstanceAs (Decidable (∃ c ∈ (p s.txDir).writers i, c.1.more (p s.txDir).ring))
  | (s, leaveWrite i) => inferInstanceAs (Decidable ((p s.txDir).writers i).isSome)
  | (_, fail err) => inferInstanceAs (Decidable (err < 0))
  | (s, enterRead i len) =>
    inferInstanceAs (Decidable ((p s.rxDir).readers i = none ∧ len < 2 ^ 32))
  | (s, readPass i _) =>
    inferInstanceAs (Decidable (∃ c ∈ (p s.rxDir).readers i, c.1.more (p s.rxDir).ring))
  | (s, leaveRead i) => inferInstanceAs (Decidable ((p s.rxDir).readers i).isSome)

namespace Pipe

variable (p : Pipe) (i : ℕ)

/-- A call of `sbuf_write` comes to its loop. -/
def enterWrite (data : List UInt8) : Pipe :=
  { p with writers := Function.update p.writers i (some (.enter data, 0)) }

/-- A pass of the loop of `sbuf_write`. -/
def passWrite (force : Bool) (o : CopyOutcome) : Pipe :=
  match p.writers i with
  | none => p
  | some (call, moved) =>
    match writePass p.ring force call o with
    | none => { p with wild := true }
    | some (ring, call', _) =>
      let n := (call.left - call'.left).toNat
      { p with
        ring := ring
        writers := Function.update p.writers i (some (call', moved + n))
        accepted := p.accepted ++ call.buf.take n }

/-- A call of `sbuf_write` returns. -/
def leaveWrite : Pipe :=
  match p.writers i with
  | none => p
  | some (call, moved) =>
    { p with
      writers := Function.update p.writers i none
      rets := (sbufRet call.len call.left call.rval, moved) :: p.rets }

/-- A call of `sbuf_read` comes to its loop. -/
def enterRead (len : ℕ) : Pipe :=
  { p with readers := Function.update p.readers i (some (.enter len, 0)) }

/-- A pass of the loop of `sbuf_read`. -/
def passRead (ok : Bool) : Pipe :=
  match p.readers i with
  | none => p
  | some (call, moved) =>
    match readPass p.ring call ok with
    | none => { p with wild := true }
    | some (ring, call', l, _) =>
      { p with
        ring := ring
        readers := Function.update p.readers i (some (call', moved + l.length))
        returned := p.returned ++ l }

/-- A call of `sbuf_read` returns. -/
def leaveRead : Pipe :=
  match p.readers i with
  | none => p
  | some (call, moved) =>
    { p with
      readers := Function.update p.readers i none
      rets := (sbufRet call.len call.left call.rval, moved) :: p.rets }

end Pipe

/-- What a step does to the direction it is about. -/
def SbufStep.act (force : Bool) : SbufStep → Pipe → Pipe
  | enterWrite i data, p => p.enterWrite i data
  | writePass i o, p => p.passWrite i force o
  | leaveWrite i, p => p.leaveWrite i
  | fail err, p => { p with rets := (err, 0) :: p.rets }
  | enterRead i len, p => p.enterRead i len
  | readPass i ok, p => p.passRead i ok
  | leaveRead i, p => p.leaveRead i

/-- The direction a step is about. -/
def SbufStep.dir : Side × SbufStep → Dir
  | (s, enterRead ..) => s.rxDir
  | (s, readPass ..) => s.rxDir
  | (s, leaveRead ..) => s.rxDir
  | (s, enterWrite ..) => s.txDir
  | (s, writePass ..) => s.txDir
  | (s, leaveWrite ..) => s.txDir
  | (s, fail ..) => s.txDir

/-- A ring with nothing in it. -/
def Pipe.empty (size start : ℕ) (mem : ℕ → UInt8) : Pipe :=
  { ring := ⟨size, mem, start, start⟩
    writers := fun _ ↦ none
    readers := fun _ ↦ none
    accepted := []
    returned := []
    rets := []
    wild := false }

/-- The runs of the calls of both sides on a ring, from given directions on. -/
def sbufSystem (force : Bool) (init : Dir → Pipe) : System (Dir → Pipe) (Side × SbufStep) :=
  { init := init
    enabled := SbufStep.enabled
    next := fun p e ↦ Function.update p (SbufStep.dir e) (e.2.act force (p (SbufStep.dir e))) }

instance (force : Bool) (init p : Dir → Pipe) (e : Side × SbufStep) :
    Decidable ((sbufSystem force init).enabled p e) :=
  SbufStep.decidableEnabled p e

end Wwan.Sipc
