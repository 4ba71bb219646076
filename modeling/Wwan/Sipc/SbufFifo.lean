import Wwan.Sipc.Sbuf

/-!
# An sbuf ring is a queue of bytes

`writePass_done` and `readPass_ok` say what a pass does to the ring, for every size below
`2 ^ 31`. If the size divides `2 ^ 32`, the pointers can be read as counts of bytes and
the ring is a queue: `PipeInv` is kept by all steps of both sides.
-/

namespace Wwan.Sipc

open Wwan Bytes

/-! ## Passes -/

section Copy

variable {size : ℕ} (mem : ℕ → UInt8)

theorem tailOf_eq {pos k : ℕ} (hsize : size < 2 ^ 31) (hpos : pos < size) (hk : k ≤ size) :
    tailOf size pos k = pos + k - size := by
  unfold tailOf
  exact int32_of_range (by omega) (by omega)

/-- The copy of `sbuf_write` in two parts. -/
theorem copyIn_eq (hsize : size < 2 ^ 31) (s : ℕ) {src : List UInt8} {k : ℕ} (hk : k ≤ size)
    (hpos : 0 < size) (hsrc : k ≤ src.length) :
    copyIn size mem (s % size) src k = some (Ring.store mem size s (src.take k)) := by
  have hs : s % size < size := Nat.mod_lt s hpos
  have hlen : (src.take k).length = k := by rw [List.length_take]; omega
  unfold copyIn Ring.store
  dsimp only
  rw [tailOf_eq hsize hs hk, hlen]
  by_cases hwrap : size < s % size + k
  · have hfirst : ((k : ℤ) - (↑(s % size) + k - size)) = ((size - s % size : ℕ) : ℤ) := by omega
    have htail : ((↑(s % size) + k - size : ℤ)) = ((s % size + k - size : ℕ) : ℤ) := by omega
    rw [if_pos (by omega), if_pos hwrap, hfirst, int32_of_range (by omega) (by omega)]
    unfold memcpyTo
    rw [if_pos (by omega), Option.bind_some, if_pos (by omega), htail]
    simp only [Int.toNat_zero, List.drop_zero, Int.toNat_natCast]
    rw [List.take_take, Nat.min_eq_left (by omega), List.drop_take,
      show k - (size - s % size) = s % size + k - size by omega]
  · rw [if_neg (by omega), if_neg hwrap]
    unfold memcpyTo
    rw [if_pos (by omega)]
    simp only [Int.toNat_zero, List.drop_zero, Int.toNat_natCast]

/-- The copy of `sbuf_read` in two parts. -/
theorem copyOut_eq (hsize : size < 2 ^ 31) (s : ℕ) {k room : ℕ} (hk : k ≤ size) (hpos : 0 < size)
    (hroom : k ≤ room) : copyOut size mem (s % size) room k = some (Ring.load mem size s k) := by
  have hs : s % size < size := Nat.mod_lt s hpos
  unfold copyOut Ring.load
  dsimp only
  rw [tailOf_eq hsize hs hk]
  by_cases hwrap : size < s % size + k
  · have hfirst : ((k : ℤ) - (↑(s % size) + k - size)) = ((size - s % size : ℕ) : ℤ) := by omega
    have htail : ((↑(s % size) + k - size : ℤ)) = ((s % size + k - size : ℕ) : ℤ) := by omega
    rw [if_pos (by omega), if_pos hwrap, hfirst, int32_of_range (by omega) (by omega)]
    unfold memcpyFrom
    rw [if_pos (by omega), Option.bind_some, if_pos (by omega), htail]
    simp only [Option.map_some, Int.toNat_natCast]
  · rw [if_neg (by omega), if_neg hwrap]
    unfold memcpyFrom
    rw [if_pos (by omega)]
    simp only [Int.toNat_natCast]

end Copy

section Pass

variable {r : SbufRing}

theorem WriteCall.enter_left {data : List UInt8} (h : data.length < 2 ^ 31) :
    (WriteCall.enter data).left = (WriteCall.enter data).buf.length := by
  dsimp only [WriteCall.enter]
  exact int32_of_range (by omega) (by omega)

theorem ReadCall.enter_left {len : ℕ} (h : len < 2 ^ 31) :
    (ReadCall.enter len).left = (ReadCall.enter len).room := by
  dsimp only [ReadCall.enter]
  exact int32_of_range (by omega) (by omega)

/-- The size of a copy into a ring that is not full. -/
theorem txsize_eq (hsize : r.size < 2 ^ 31) (hused : r.used ≤ r.size) (left : ℕ) :
    txsize r left = (min (r.size - r.used) left : ℕ) := by
  unfold txsize
  rw [int32_of_range (by omega) (by omega)]
  omega

theorem u32_add (a k : ℕ) : u32 (a + k) = (a + k) % 2 ^ 32 := by
  unfold u32
  omega

/-- A pass of `sbuf_write`. -/
theorem writePass_done (hsize : r.size < 2 ^ 31) (hused : r.used < r.size) (force : Bool)
    {call : WriteCall} (hleft : call.left = call.buf.length) {k : ℕ}
    (hk : k = min (r.size - r.used) call.buf.length) :
    ∃ b, writePass r force call .done =
      some ({ r with mem := Ring.store r.mem r.size r.wt (call.buf.take k)
                     wt := (r.wt + k) % 2 ^ 32 },
        { call with left := call.left - k, buf := call.buf.drop k }, b) := by
  have hn : txsize r call.left = k := by rw [hleft, txsize_eq hsize hused.le, hk]
  unfold writePass
  dsimp only
  rw [hn, copyIn_eq r.mem hsize r.wt (by omega) (by omega) (by omega), Option.bind_some, u32_add,
    Int.toNat_natCast]
  exact ⟨_, rfl⟩

/-- A pass of `sbuf_write` whose copy fails changes the ring behind what is stored. -/
theorem writePass_failed (hsize : r.size < 2 ^ 31) (hused : r.used < r.size) (force : Bool)
    {call : WriteCall} (hleft : call.left = call.buf.length) (junk : List UInt8) :
    ∃ l : List UInt8, l.length ≤ r.size - r.used ∧
      writePass r force call (.failed junk) =
        some ({ r with mem := Ring.store r.mem r.size r.wt l }, { call with rval := efault },
          false) := by
  have hn : txsize r call.left = (min (r.size - r.used) call.buf.length : ℕ) := by
    rw [hleft, txsize_eq hsize hused.le]
  refine ⟨junk.take (min (r.size - r.used) call.buf.length), ?_, ?_⟩
  · rw [List.length_take]
    omega
  · have hlen : (junk.take (min (r.size - r.used) call.buf.length)).length ≤ r.size := by
      rw [List.length_take]
      omega
    unfold writePass
    dsimp only
    rw [hn, copyIn_eq r.mem hsize r.wt (by omega) (by omega) (by omega), Option.bind_some,
      Int.toNat_natCast, copyIn_eq r.mem hsize r.wt hlen (by omega) le_rfl, List.take_length]
    rfl

/-- A pass of `sbuf_read`. -/
theorem readPass_eq (hsize : r.size < 2 ^ 31) (hpos : 0 < r.size) (hused : r.used ≤ r.size)
    {call : ReadCall} (hleft : call.left = call.room) {k : ℕ} (hk : k = min r.used call.room)
    (ok : Bool) :
    ∃ b, readPass r call ok = some (if ok then
        ({ r with rd := (r.rd + k) % 2 ^ 32 },
          { call with left := call.left - k, room := call.room - k },
          Ring.load r.mem r.size r.rd k, b)
      else (r, { call with rval := efault }, [], false)) := by
  have hint : int32 ((r.wt : ℤ) - r.rd) = r.used := by
    have hlt : r.used < 2 ^ 31 := by omega
    have hmod : ((r.wt : ℤ) - r.rd).bmod (2 ^ 32) = (r.used : ℤ).bmod (2 ^ 32) := by
      unfold SbufRing.used u32
      rw [Int.toNat_of_nonneg (by omega)]
      exact (Int.emod_bmod _ _).symm
    unfold int32
    rw [hmod]
    exact int32_of_range (by omega) (by omega)
  have hn : min (int32 ((r.wt : ℤ) - r.rd)) call.left = k := by
    rw [hint, hleft, hk]
    omega
  unfold readPass rxCopy
  dsimp only
  rw [if_neg (by omega), hn, copyOut_eq r.mem hsize r.rd (by omega) hpos (by omega)]
  simp only [Option.map_some, u32_add, Int.toNat_natCast]
  exact ⟨_, rfl⟩

end Pass

/-! ## The queue -/

/-- The bytes between the pointers. -/
def SbufRing.stored (r : SbufRing) : List UInt8 := Ring.contents r.mem r.size r.rd r.used

/-- A call returned the number of bytes it moved, or an error if it moved none. -/
def RetOk (x : ℤ × ℕ) : Prop := x.1 = x.2 ∨ (x.1 < 0 ∧ x.2 = 0)

/-- The direction of a ring is a queue of bytes. -/
structure Fifo (p : Pipe) : Prop where
  tame : p.wild = false
  stream : p.accepted = p.returned ++ p.ring.stored
  bound : p.ring.used ≤ p.ring.size
  rets : ∀ x ∈ p.rets, RetOk x

/-- A call of `sbuf_write` that has moved `m` bytes. -/
structure WriterOk (call : WriteCall) (m : ℕ) : Prop where
  len_lt : call.len < 2 ^ 31
  left : call.left = call.buf.length
  moved : m + call.buf.length = call.len
  rval : call.rval ≤ 0

/-- A call of `sbuf_read` that has moved `m` bytes. -/
structure ReaderOk (call : ReadCall) (m : ℕ) : Prop where
  len_lt : call.len < 2 ^ 31
  left : call.left = call.room
  moved : m + call.room = call.len
  rval : call.rval ≤ 0

/-- The invariant of a direction whose pointers started at `start`. -/
structure PipeInv (size start : ℕ) (p : Pipe) : Prop where
  ringSize : p.ring.size = size
  rd : p.ring.rd = (start + p.returned.length) % 2 ^ 32
  wt : p.ring.wt = (start + p.accepted.length) % 2 ^ 32
  le : p.returned.length ≤ p.accepted.length
  room : p.accepted.length ≤ p.returned.length + size
  stream : p.accepted = p.returned ++ Ring.contents p.ring.mem size (start + p.returned.length)
    (p.accepted.length - p.returned.length)
  writers : ∀ i, ∀ c ∈ p.writers i, WriterOk c.1 c.2
  readers : ∀ i, ∀ c ∈ p.readers i, ReaderOk c.1 c.2
  rets : ∀ x ∈ p.rets, RetOk x
  tame : p.wild = false

/-- The difference of two counts of which 32 bits are kept. -/
theorem u32_sub_mod {a b : ℕ} (hle : a ≤ b) (hlt : b - a < 2 ^ 32) :
    u32 ((b % 2 ^ 32 : ℕ) - (a % 2 ^ 32 : ℕ)) = b - a := by
  unfold u32
  omega

theorem efault_le : efault ≤ 0 := by decide

theorem retOk_sbufRet {len m n : ℕ} {left rval : ℤ} (hlen : len < 2 ^ 31) (hleft : left = n)
    (hmoved : m + n = len) (hrval : rval ≤ 0) : RetOk (sbufRet len left rval, m) := by
  have hu : u32 left = n := by
    rw [hleft]
    exact u32_natCast (by omega)
  have hint : int32 (len - left) = m := by
    rw [hleft, int32_of_range (by omega) (by omega)]
    omega
  unfold RetOk sbufRet
  rw [hu, hint]
  dsimp only
  split <;> omega

section Inv

variable {size start : ℕ} {p : Pipe} {i : ℕ}

theorem PipeInv.used (h : PipeInv size start p) (hsize : size < 2 ^ 31) :
    p.ring.used = p.accepted.length - p.returned.length := by
  have hle := h.le
  have hroom := h.room
  unfold SbufRing.used
  rw [h.wt, h.rd, u32_sub_mod (by omega) (by omega)]
  omega

/-- The slots do not depend on the bits of the counts that are lost. -/
theorem contents_count (hdvd : size ∣ 2 ^ 32) (f : ℕ → UInt8) (a k : ℕ) :
    Ring.contents f size (a % 2 ^ 32) k = Ring.contents f size a k := by
  rw [← Ring.contents_mod, Nat.mod_mod_of_dvd a hdvd, Ring.contents_mod]

theorem PipeInv.fifo (h : PipeInv size start p) (hsize : size < 2 ^ 31) (hdvd : size ∣ 2 ^ 32) :
    Fifo p := by
  have hroom := h.room
  refine ⟨h.tame, ?_, ?_, h.rets⟩
  · unfold SbufRing.stored
    rw [h.used hsize, h.ringSize, h.rd, contents_count hdvd]
    exact h.stream
  · rw [h.used hsize, h.ringSize]
    omega

theorem PipeInv.empty (size : ℕ) (hstart : start < 2 ^ 32) (mem : ℕ → UInt8) :
    PipeInv size start (.empty size start mem) :=
  { ringSize := rfl
    rd := (Nat.mod_eq_of_lt hstart).symm
    wt := (Nat.mod_eq_of_lt hstart).symm
    le := le_rfl
    room := Nat.zero_le _
    stream := rfl
    writers := nofun
    readers := nofun
    rets := nofun
    tame := rfl }

/-- What is kept for all calls is kept if one of them changes. -/
theorem forall_update {β : Type*} {f : ℕ → Option β} {P : β → Prop}
    (h : ∀ j, ∀ c ∈ f j, P c) {x : Option β} (hx : ∀ c ∈ x, P c) (j : ℕ) :
    ∀ c ∈ Function.update f i x j, P c := by
  by_cases hj : j = i
  · rw [hj, Function.update_self]
    exact hx
  · rw [Function.update_of_ne hj]
    exact h j

section Calls

variable (h : PipeInv size start p)

include h

theorem PipeInv.enterWrite {data : List UInt8}
    (hlen : data.length < 2 ^ 31) : PipeInv size start (p.enterWrite i data) := by
  have hcall : WriterOk (.enter data) 0 :=
    ⟨hlen, WriteCall.enter_left hlen, Nat.zero_add _, le_rfl⟩
  exact { h with writers := forall_update h.writers fun c hc ↦ Option.some.inj hc ▸ hcall }

theorem PipeInv.enterRead {len : ℕ} (hlen : len < 2 ^ 31) :
    PipeInv size start (p.enterRead i len) := by
  have hcall : ReaderOk (.enter len) 0 := ⟨hlen, ReadCall.enter_left hlen, Nat.zero_add _, le_rfl⟩
  exact { h with readers := forall_update h.readers fun c hc ↦ Option.some.inj hc ▸ hcall }

theorem PipeInv.leaveWrite : PipeInv size start (p.leaveWrite i) := by
  unfold Pipe.leaveWrite
  split
  · exact h
  · rename_i call moved hi
    have hok : WriterOk call moved := h.writers i _ hi
    exact { h with
      writers := forall_update h.writers nofun
      rets := List.forall_mem_cons.mpr
        ⟨retOk_sbufRet hok.len_lt hok.left hok.moved hok.rval, h.rets⟩ }

theorem PipeInv.leaveRead : PipeInv size start (p.leaveRead i) := by
  unfold Pipe.leaveRead
  split
  · exact h
  · rename_i call moved hi
    have hok : ReaderOk call moved := h.readers i _ hi
    exact { h with
      readers := forall_update h.readers nofun
      rets := List.forall_mem_cons.mpr
        ⟨retOk_sbufRet hok.len_lt hok.left hok.moved hok.rval, h.rets⟩ }

/-- A block is stored behind the bytes in the ring. -/
theorem PipeInv.contents_store (hdvd : size ∣ 2 ^ 32) {l : List UInt8}
    (hl : p.accepted.length - p.returned.length + l.length ≤ size) :
    Ring.contents (Ring.store p.ring.mem p.ring.size p.ring.wt l) size
        (start + p.returned.length) (p.accepted.length - p.returned.length + l.length) =
      Ring.contents p.ring.mem size (start + p.returned.length)
        (p.accepted.length - p.returned.length) ++ l := by
  have hle := h.le
  have hcount : start + p.accepted.length =
      start + p.returned.length + (p.accepted.length - p.returned.length) := by omega
  rw [h.ringSize, h.wt, Ring.store_mod hdvd, hcount]
  exact Ring.contents_store p.ring.mem hl

end Calls

/-- A call has written `k` bytes. -/
theorem WriterOk.advance {call : WriteCall} {moved k : ℕ} (h : WriterOk call moved)
    (hk : k ≤ call.buf.length) :
    WriterOk { call with left := call.left - k, buf := call.buf.drop k } (moved + k) := by
  have hmoved := h.moved
  have hleft := h.left
  refine ⟨h.len_lt, ?_, ?_, h.rval⟩
  · dsimp only
    rw [List.length_drop]
    omega
  · dsimp only
    rw [List.length_drop]
    omega

/-- A call has read `k` bytes. -/
theorem ReaderOk.advance {call : ReadCall} {moved k : ℕ} (h : ReaderOk call moved)
    (hk : k ≤ call.room) :
    ReaderOk { call with left := call.left - k, room := call.room - k } (moved + k) := by
  have hmoved := h.moved
  have hleft := h.left
  refine ⟨h.len_lt, ?_, ?_, h.rval⟩
  · dsimp only
    omega
  · dsimp only
    omega

theorem PipeInv.passWrite (h : PipeInv size start p) (hsize : size < 2 ^ 31)
    (hdvd : size ∣ 2 ^ 32) (force : Bool) (o : CopyOutcome)
    (hmore : ∃ c ∈ p.writers i, c.1.more p.ring) : PipeInv size start (p.passWrite i force o) := by
  obtain ⟨⟨call, moved⟩, hi, -, -, hused⟩ := hmore
  have hok : WriterOk call moved := h.writers i _ hi
  have hu := h.used hsize
  have hsz := h.ringSize
  have hle := h.le
  unfold Pipe.passWrite
  rw [Option.mem_def.mp hi]
  dsimp only
  cases o with
  | done =>
    obtain ⟨b, hpass⟩ := writePass_done (by omega) hused force hok.left rfl
    rw [hpass]
    generalize hk : min (p.ring.size - p.ring.used) call.buf.length = k
    have hkn : (call.left - (call.left - (k : ℤ))).toNat = k := by omega
    have hlen : (call.buf.take k).length = k := by rw [List.length_take]; omega
    have hcall := hok.advance (k := k) (by omega)
    dsimp only
    rw [hkn]
    refine
      { ringSize := hsz
        rd := h.rd
        wt := ?_
        le := ?_
        room := ?_
        stream := ?_
        writers := forall_update h.writers fun c hc ↦ Option.some.inj hc ▸ hcall
        readers := h.readers
        rets := h.rets
        tame := h.tame }
    · dsimp only
      rw [h.wt, Nat.mod_add_mod, List.length_append, hlen, Nat.add_assoc]
    · dsimp only
      rw [List.length_append]
      omega
    · dsimp only
      rw [List.length_append, hlen]
      omega
    · dsimp only
      have hcount : (p.accepted ++ call.buf.take k).length - p.returned.length =
          p.accepted.length - p.returned.length + (call.buf.take k).length := by
        rw [List.length_append]
        omega
      rw [hcount, h.contents_store hdvd (by omega), ← List.append_assoc]
      exact congrArg (· ++ _) h.stream
  | failed junk =>
    obtain ⟨l, hl, hpass⟩ := writePass_failed (by omega) hused force hok.left junk
    rw [hpass]
    dsimp only
    rw [Int.sub_self, Int.toNat_zero, List.take_zero, List.append_nil, Nat.add_zero]
    have hcall : WriterOk { call with rval := efault } moved :=
      ⟨hok.len_lt, hok.left, hok.moved, efault_le⟩
    refine { h with stream := ?_, writers := forall_update h.writers fun c hc ↦
      Option.some.inj hc ▸ hcall }
    have hstore := h.contents_store hdvd (l := l) (by omega)
    have htake := congrArg (List.take (p.accepted.length - p.returned.length)) hstore
    rw [Ring.take_contents _ (by omega), List.take_left' (Ring.length_contents _)] at htake
    rw [htake]
    exact h.stream

theorem PipeInv.passRead (h : PipeInv size start p) (hsize : size < 2 ^ 31) (hpos : 0 < size)
    (hdvd : size ∣ 2 ^ 32) (ok : Bool) (hmore : ∃ c ∈ p.readers i, c.1.more p.ring) :
    PipeInv size start (p.passRead i ok) := by
  obtain ⟨⟨call, moved⟩, hi, -⟩ := hmore
  have hok : ReaderOk call moved := h.readers i _ hi
  have hu := h.used hsize
  have hsz := h.ringSize
  have hle := h.le
  have hroom := h.room
  unfold Pipe.passRead
  rw [Option.mem_def.mp hi]
  dsimp only
  obtain ⟨b, hpass⟩ := readPass_eq (r := p.ring) (by omega) (by omega) (by omega) hok.left rfl ok
  rw [hpass]
  cases ok with
  | true =>
    generalize hk : min p.ring.used call.room = k
    have hload : Ring.load p.ring.mem p.ring.size p.ring.rd k =
        Ring.contents p.ring.mem size (start + p.returned.length) k := by
      rw [hsz, Ring.load_eq_contents _ hpos (by omega), h.rd, contents_count hdvd]
    have hcall := hok.advance (k := k) (by omega)
    simp only [if_true, hload, Ring.length_contents]
    refine
      { ringSize := hsz
        rd := ?_
        wt := h.wt
        le := ?_
        room := ?_
        stream := ?_
        writers := h.writers
        readers := forall_update h.readers fun c hc ↦ Option.some.inj hc ▸ hcall
        rets := h.rets
        tame := h.tame }
    · dsimp only
      rw [h.rd, Nat.mod_add_mod, List.length_append, Ring.length_contents, Nat.add_assoc]
    · dsimp only
      rw [List.length_append, Ring.length_contents]
      omega
    · dsimp only
      rw [List.length_append, Ring.length_contents]
      omega
    · dsimp only
      have hsplit : p.accepted.length - p.returned.length =
          k + (p.accepted.length - (p.returned.length + k)) := by omega
      have hstream := h.stream
      rw [hsplit, Ring.contents_add, ← List.append_assoc] at hstream
      rw [List.length_append, Ring.length_contents, ← Nat.add_assoc]
      exact hstream
  | false =>
    have hcall : ReaderOk { call with rval := efault } moved :=
      ⟨hok.len_lt, hok.left, hok.moved, efault_le⟩
    simp only [Bool.false_eq_true, if_false, List.length_nil, Nat.add_zero, List.append_nil]
    exact { h with readers := forall_update h.readers fun c hc ↦ Option.some.inj hc ▸ hcall }

end Inv

/-! ## Runs -/

/-- No call is asked for `2 ^ 31` bytes or more. -/
def ShortCalls (_ : Dir → Pipe) : Side × SbufStep → Prop
  | (_, .enterWrite _ data) => data.length < 2 ^ 31
  | (_, .enterRead _ len) => len < 2 ^ 31
  | _ => True

instance (p : Dir → Pipe) : ∀ e, Decidable (ShortCalls p e)
  | (_, .enterWrite _ data) => inferInstanceAs (Decidable (data.length < 2 ^ 31))
  | (_, .enterRead _ len) => inferInstanceAs (Decidable (len < 2 ^ 31))
  | (_, .writePass ..) => .isTrue trivial
  | (_, .leaveWrite ..) => .isTrue trivial
  | (_, .fail ..) => .isTrue trivial
  | (_, .readPass ..) => .isTrue trivial
  | (_, .leaveRead ..) => .isTrue trivial

/-- Rings of given sizes, with the pointers at any value. -/
def emptyRings (size start : Dir → ℕ) (mem : Dir → ℕ → UInt8) : Dir → Pipe := fun d ↦
  .empty (size d) (start d) (mem d)

section Run

variable {size start : Dir → ℕ} {mem : Dir → ℕ → UInt8} {force : Bool} {p : Dir → Pipe}

/-- A step of either side keeps the invariant of the direction it is about. -/
theorem PipeInv.act (hsize : ∀ d, size d < 2 ^ 31) (hdvd : ∀ d, size d ∣ 2 ^ 32)
    (h : ∀ d, PipeInv (size d) (start d) (p d)) {e : Side × SbufStep}
    (he : SbufStep.enabled p e) (hg : ShortCalls p e) :
    PipeInv (size (SbufStep.dir e)) (start (SbufStep.dir e))
      (e.2.act force (p (SbufStep.dir e))) := by
  have hpos : ∀ d, 0 < size d := fun d ↦ Nat.pos_of_dvd_of_pos (hdvd d) (by decide)
  obtain ⟨s, e⟩ := e
  cases e with
  | enterWrite i data => exact (h s.txDir).enterWrite hg
  | writePass i o => exact (h s.txDir).passWrite (hsize _) (hdvd _) force o he
  | leaveWrite i => exact (h s.txDir).leaveWrite
  | fail err =>
    have herr : RetOk (err, 0) := .inr ⟨he, rfl⟩
    exact { h s.txDir with rets := List.forall_mem_cons.mpr ⟨herr, (h s.txDir).rets⟩ }
  | enterRead i len => exact (h s.rxDir).enterRead hg
  | readPass i ok => exact (h s.rxDir).passRead (hsize _) (hpos _) (hdvd _) ok he
  | leaveRead i => exact (h s.rxDir).leaveRead

/-- The invariant holds in every state of every run. -/
theorem PipeInv.of_reach (hsize : ∀ d, size d < 2 ^ 31) (hdvd : ∀ d, size d ∣ 2 ^ 32)
    (hstart : ∀ d, start d < 2 ^ 32)
    (hs : (sbufSystem force (emptyRings size start mem)).Reach ShortCalls p) (d : Dir) :
    PipeInv (size d) (start d) (p d) := by
  refine hs.invariant (I := fun p ↦ ∀ d, PipeInv (size d) (start d) (p d))
    (fun d ↦ .empty (size d) (hstart d) (mem d)) (fun p e h he hg d ↦ ?_) d
  by_cases hd : d = SbufStep.dir e
  · rw [hd]
    show PipeInv _ _ (Function.update p (SbufStep.dir e) _ (SbufStep.dir e))
    rw [Function.update_self]
    exact PipeInv.act hsize hdvd h he hg
  · show PipeInv _ _ (Function.update p (SbufStep.dir e) _ d)
    rw [Function.update_of_ne hd]
    exact h d

end Run

/-- In every run, whatever the two sides do, both directions of a ring whose size is a
power of two below `2 ^ 31` are queues of bytes. -/
theorem sbuf_fifo (force : Bool) {k start : Dir → ℕ} {mem : Dir → ℕ → UInt8} {p : Dir → Pipe}
    (hk : ∀ d, k d < 31) (hstart : ∀ d, start d < 2 ^ 32)
    (hs : (sbufSystem force (emptyRings (fun d ↦ 2 ^ k d) start mem)).Reach ShortCalls p)
    (d : Dir) : Fifo (p d) := by
  have hsize : ∀ d, 2 ^ k d < 2 ^ 31 := fun d ↦ Nat.pow_lt_pow_right (by decide) (hk d)
  have hdvd : ∀ d, 2 ^ k d ∣ 2 ^ 32 := fun d ↦ Nat.pow_dvd_pow 2 (by have := hk d; omega)
  exact (PipeInv.of_reach hsize hdvd hstart hs d).fifo (hsize d) (hdvd d)

/-- Three bytes are written across the end of the ring and of the pointers, and two are
read. -/
def wrapRun : List (Side × SbufStep) :=
  [(.host, .enterWrite 0 [1, 2, 3]), (.host, .writePass 0 .done), (.client, .enterRead 5 2),
    (.client, .readPass 5 true), (.host, .leaveWrite 0), (.client, .leaveRead 5)]

/-- The rings `wrapRun` begins with. -/
def wrapRings : Dir → Pipe := emptyRings (fun _ ↦ 2 ^ 2) (fun _ ↦ 2 ^ 32 - 1) fun _ _ ↦ 0

/-- After `wrapRun` the first two bytes have been returned and the third is stored. -/
theorem wrapRun_fifo :
    (sbufSystem false wrapRings).Along ShortCalls wrapRings wrapRun ∧
      ((sbufSystem false wrapRings).exec wrapRings wrapRun .tx).returned = [1, 2] ∧
      ((sbufSystem false wrapRings).exec wrapRings wrapRun .tx).rets = [(2, 2), (3, 3)] ∧
      Fifo ((sbufSystem false wrapRings).exec wrapRings wrapRun .tx) := by
  have hrun : (sbufSystem false wrapRings).Along ShortCalls wrapRings wrapRun := by decide
  exact ⟨hrun, by decide, by decide,
    sbuf_fifo false (fun _ ↦ by decide) (fun _ ↦ by decide) (.exec .init hrun) .tx⟩

/-- A byte is written, and a read asks for `2 ^ 32 - 1` bytes. -/
def longRun : List (Side × SbufStep) :=
  [(.host, .enterWrite 0 [7]), (.host, .writePass 0 .done), (.client, .enterRead 0 (2 ^ 32 - 1)),
    (.client, .readPass 0 true)]

/-- The rings `longRun` begins with. -/
def longRings : Dir → Pipe := emptyRings (fun _ ↦ 2 ^ 2) (fun _ ↦ 0) fun _ _ ↦ 0

/-- A byte is written. -/
def hugeRun : List (Side × SbufStep) := [(.host, .enterWrite 0 [7]), (.host, .writePass 0 .done)]

/-- The rings `hugeRun` begins with. -/
def hugeRings : Dir → Pipe := emptyRings (fun _ ↦ 2 ^ 31) (fun _ ↦ 0) fun _ _ ↦ 0

/-- `left` is negative in the one run, `txsize` in the other, and so is the number of bytes
to be copied. -/
theorem sbuf_not_fifo :
    ((sbufSystem false longRings).Along (fun _ _ ↦ True) longRings longRun ∧
      ¬ Fifo ((sbufSystem false longRings).exec longRings longRun .tx)) ∧
    ((sbufSystem false hugeRings).Along (fun _ _ ↦ True) hugeRings hugeRun ∧
      ¬ Fifo ((sbufSystem false hugeRings).exec hugeRings hugeRun .tx)) := by
  refine ⟨⟨by decide, fun h ↦ ?_⟩, by decide, fun h ↦ ?_⟩
  · have hwild : ((sbufSystem false longRings).exec longRings longRun .tx).wild = true := by decide
    exact Bool.false_ne_true (h.tame.symm.trans hwild)
  · have hwild : ((sbufSystem false hugeRings).exec hugeRings hugeRun .tx).wild = true := by decide
    exact Bool.false_ne_true (h.tame.symm.trans hwild)

end Wwan.Sipc
