import Wwan.Sipc.Sbuf
import Wwan.Sipc.Smsg

/-!
# What the modem may write

The messages and the pointers of the rings are in memory that the modem writes to. The
host uses them as indices and sizes: the channel of a message for the arrays of
`struct smsg_ipc`, the value of an event for the rings of an sbuf, and the pointers of a
ring for the copies of `sbuf_read`.

For each we say which values keep the host in its bounds.
-/

namespace Wwan.Sipc

open Wwan Bytes

/-! ## Events -/

/-- `SMSG_EVENT_SBUF_WRPTR`. -/
def smsgEventSbufWrptr : UInt16 := 1

/-- `SMSG_EVENT_SBUF_RDPTR`. -/
def smsgEventSbufRdptr : UInt16 := 2

/-- `POLLIN` and `POLLOUT` of `poll_mask`. -/
structure PollMask where
  /-- `POLLIN`. -/
  pollIn : Bool
  /-- `POLLOUT`. -/
  pollOut : Bool
  deriving DecidableEq

/-- The rings of `struct sbuf_mgr`. -/
structure SbufMgr where
  /-- `ringnr`. -/
  ringnr : UInt32
  /-- `poll_mask` of the `rings`. -/
  rings : Fin ringnr.toNat → PollMask

/-- The mask of a ring after an event. -/
def PollMask.event (flag : UInt16) (mask : PollMask) : PollMask :=
  if flag = smsgEventSbufRdptr then { mask with pollOut := true }
  else if flag = smsgEventSbufWrptr then { mask with pollIn := true }
  else mask

/-- The case of `SMSG_TYPE_EVENT` in `sbuf_thread`. A `bufid` that is too large is only
warned of. -/
def sbufThreadEvent (sbuf : SbufMgr) (mrecv : Smsg) : Except SipcFault SbufMgr := do
  let bufid := int32 mrecv.value.toNat
  let i ← arrayAt sbuf.ringnr.toNat bufid
  return { sbuf with
    rings := Function.update sbuf.rings i ((sbuf.rings i).event mrecv.flag) }

theorem sbufThreadEvent_ne_wild_iff (sbuf : SbufMgr) (mrecv : Smsg) :
    sbufThreadEvent sbuf mrecv ≠ .error .wild ↔
      mrecv.value < sbuf.ringnr ∧ mrecv.value.toNat < 2 ^ 31 := by
  have hval := mrecv.value.toNat_lt
  have hnr := sbuf.ringnr.toNat_lt
  have hidx : arrayAt sbuf.ringnr.toNat (int32 mrecv.value.toNat) ≠ .error .wild ↔
      mrecv.value < sbuf.ringnr ∧ mrecv.value.toNat < 2 ^ 31 := by
    rw [arrayAt_ne_wild_iff, UInt32.lt_iff_toNat_lt]
    unfold int32
    rw [Int.bmod_def]
    split <;> omega
  rw [← hidx]
  unfold sbufThreadEvent
  dsimp only
  cases harr : arrayAt sbuf.ringnr.toNat (int32 mrecv.value.toNat) with
  | ok i => simp [bind, Except.bind, pure, Except.pure]
  | error e => simp [bind, Except.bind]

/-! ## Copies -/

/-- What a pass of the loop of `sbuf_read` reads of the shared memory. The peer may write
to it between two reads. -/
structure RxReads where
  /-- The write pointer in the condition of the loop. -/
  condWt : ℕ
  /-- The read pointer in the condition of the loop. -/
  condRd : ℕ
  /-- The read pointer in `rxpos`. -/
  posRd : ℕ
  /-- The write pointer in `rxsize`. -/
  sizeWt : ℕ
  /-- The read pointer in `rxsize`. -/
  sizeRd : ℕ
  /-- The buffer. -/
  mem : ℕ → UInt8
  /-- Whether the first `unalign_copy_to_user` succeeds. If not, there is no second. -/
  first : Bool
  /-- Whether all of them succeed. -/
  ok : Bool

/-- `rxsize`. -/
def RxReads.rxsize (left : ℤ) (p : RxReads) : ℤ := min (int32 (p.sizeWt - p.sizeRd)) left

/-- The size of the first copy. -/
def RxReads.firstSize (size : ℕ) (left : ℤ) (p : RxReads) : ℤ :=
  let tail := tailOf size (p.posRd % size) (p.rxsize left)
  if 0 < tail then int32 (p.rxsize left - tail) else p.rxsize left

/-- The copies of a pass of the loop of `sbuf_read`. -/
def rxPass (size : ℕ) (call : ReadCall) (p : RxReads) : Option ReadCall :=
  if p.first then
    (rxCopy size p.mem p.posRd p.sizeRd p.sizeWt call.left call.room).map fun (n, _) ↦
      if p.ok then { call with left := call.left - n, room := call.room - n.toNat }
      else { call with rval := efault }
  else if size = 0 then none
  else
    (memcpyFrom size p.mem (p.posRd % size) call.room 0 (p.firstSize size call.left)).map
      fun _ ↦ { call with rval := efault }

/-- The loop of `sbuf_read`, as long as there are reads. -/
def rxLoop (size : ℕ) : ReadCall → List RxReads → Option ReadCall
  | call, [] => some call
  | call, p :: ps =>
    if call.rval = 0 ∧ call.left ≠ 0 ∧ p.condWt ≠ p.condRd then
      (rxPass size call p).bind fun call ↦ rxLoop size call ps
    else some call

/-- If the peer leaves the memory alone in between, the passes are those of `readPass`. -/
theorem rxPass_eq_readPass (r : SbufRing) (call : ReadCall) (ok : Bool) :
    rxPass r.size call ⟨r.wt, r.rd, r.rd, r.wt, r.rd, r.mem, true, ok⟩ =
      (readPass r call ok).map fun x ↦ x.2.1 := by
  unfold rxPass readPass
  rw [if_pos rfl, Option.map_map]
  congr 1
  funext ⟨n, l⟩
  cases ok with
  | true => rfl
  | false => rfl

namespace RxReads

variable (size : ℕ) (left : ℤ) (p : RxReads)

/-- The pointers of a pass keep the copy in bounds: `rxsize` is not negative, and the copy
ends in the ring when it starts again once. -/
def Fits : Prop :=
  0 ≤ p.rxsize left ∧ p.posRd % size + p.rxsize left ≤ 2 * size ∧
    size ≤ p.posRd % size + p.rxsize left + 2 ^ 31

/-- The pointers of a pass keep its first copy in bounds. -/
def FitsFirst : Prop :=
  0 ≤ p.firstSize size left ∧ p.posRd % size + p.firstSize size left ≤ size ∧
    (0 ≤ left → p.firstSize size left ≤ left)

/-- The pointers of each pass that is taken keep the copies in bounds. -/
def FitsAll : ℤ → List RxReads → Prop
  | _, [] => True
  | left, p :: ps =>
    left ≠ 0 ∧ p.condWt ≠ p.condRd →
      size ≠ 0 ∧ (p.first = false → p.FitsFirst size left) ∧
        (p.first = true →
          p.Fits size left ∧ (p.ok = true → FitsAll (left - p.rxsize left) ps))

end RxReads

theorem memcpyFrom_isSome_iff {size pos room : ℕ} {mem : ℕ → UInt8} {off n : ℤ} :
    (memcpyFrom size mem pos room off n).isSome ↔
      0 ≤ n ∧ pos + n ≤ size ∧ 0 ≤ off ∧ off + n ≤ room := by
  unfold memcpyFrom
  split
  · rename_i h
    exact iff_of_true rfl h
  · rename_i h
    exact iff_of_false Bool.false_ne_true h

theorem bind_map_isSome {α β γ : Type} (x : Option α) (y : Option β) (f : α → β → γ) :
    (x.bind fun a ↦ y.map fun b ↦ f a b).isSome ↔ x.isSome ∧ y.isSome := by
  cases x with
  | none => simp
  | some a => simp

/-- The copy of a pass is in bounds if and only if its size is not negative, there is room
for it, and it starts again at most once. For rings of more than `2 ^ 31` bytes `tail`
may also overflow. -/
theorem copyOut_isSome_iff {size pos room : ℕ} {mem : ℕ → UInt8} {n : ℤ} (hpos : pos < size)
    (hsize : size < 2 ^ 32) (hn : n < 2 ^ 31) :
    (copyOut size mem pos room n).isSome ↔
      n ≤ room ∧ 0 ≤ n ∧ pos + n ≤ 2 * size ∧ size ≤ pos + n + 2 ^ 31 := by
  obtain ⟨hlow, hhigh, k, hk⟩ := int32_spec (pos + n - size)
  unfold copyOut
  dsimp only [tailOf]
  generalize int32 (pos + n - size) = tail at *
  obtain ⟨hlow', hhigh', k', hk'⟩ := int32_spec (n - tail)
  split
  · rw [bind_map_isSome, memcpyFrom_isSome_iff, memcpyFrom_isSome_iff]
    generalize int32 (n - tail) = head at *
    constructor
    · rintro ⟨⟨h₁, h₂, -, h₃⟩, h₄, h₅, h₆, h₇⟩
      omega
    · rintro ⟨h₁, h₂, h₃, h₄⟩
      omega
  · rw [memcpyFrom_isSome_iff]
    constructor
    · rintro ⟨h₁, h₂, -, h₃⟩
      omega
    · rintro ⟨h₁, h₂, h₃, h₄⟩
      omega

theorem rxPass_isSome_iff {size : ℕ} (hsize : size < 2 ^ 32) {call : ReadCall} {p : RxReads}
    (hfirst : p.first = true) :
    (rxPass size call p).isSome ↔
      size ≠ 0 ∧ p.rxsize call.left ≤ call.room ∧ p.Fits size call.left := by
  unfold rxPass rxCopy
  rw [if_pos hfirst, Option.isSome_map]
  split
  · rename_i h0
    exact iff_of_false Bool.false_ne_true fun h ↦ h.1 h0
  · rename_i h0
    dsimp only
    rw [Option.isSome_map, copyOut_isSome_iff (Nat.mod_lt _ (Nat.pos_of_ne_zero h0)) hsize]
    · exact ⟨fun h ↦ ⟨h0, h⟩, fun h ↦ h.2⟩
    · exact lt_of_le_of_lt (min_le_left _ _) (int32_spec _).2.1

theorem firstSize_lt (size : ℕ) (left : ℤ) (p : RxReads) : p.firstSize size left < 2 ^ 31 := by
  unfold RxReads.firstSize
  dsimp only
  split
  · exact (int32_spec _).2.1
  · exact lt_of_le_of_lt (min_le_left _ _) (int32_spec _).2.1

/-- A pass whose first copy fails is in bounds if and only if that copy is. -/
theorem rxPass_first_isSome_iff {size : ℕ} {call : ReadCall} {p : RxReads}
    (hfirst : p.first = false)
    (hroom : call.left < 0 ∧ 2 ^ 31 ≤ call.room ∨ call.left = call.room) :
    (rxPass size call p).isSome ↔ size ≠ 0 ∧ p.FitsFirst size call.left := by
  have hlt := firstSize_lt size call.left p
  unfold rxPass RxReads.FitsFirst
  rw [if_neg (Bool.eq_false_iff.mp hfirst)]
  split
  · rename_i h0
    exact iff_of_false Bool.false_ne_true fun h ↦ h.1 h0
  · rename_i h0
    rw [Option.isSome_map, memcpyFrom_isSome_iff, and_iff_right h0]
    constructor
    · rintro ⟨hn, hpos, -, hle⟩
      exact ⟨hn, by omega, by omega⟩
    · rintro ⟨hn, hpos, hle⟩
      exact ⟨hn, by omega, le_rfl, by omega⟩

/-- What a pass does to the call. -/
theorem rxPass_some {size : ℕ} {call call' : ReadCall} {p : RxReads} (hfirst : p.first = true)
    (h : rxPass size call p = some call') :
    (p.ok = true → call'.rval = call.rval ∧ call'.left = call.left - p.rxsize call.left ∧
      call'.room = call.room - (p.rxsize call.left).toNat) ∧
    (p.ok = false → call'.rval ≠ 0) := by
  unfold rxPass at h
  rw [if_pos hfirst] at h
  obtain ⟨⟨n, l⟩, hcopy, rfl⟩ := Option.map_eq_some_iff.mp h
  have hn : n = p.rxsize call.left := by
    unfold rxCopy at hcopy
    split at hcopy
    · exact absurd hcopy (by simp)
    · obtain ⟨l', -, heq⟩ := Option.map_eq_some_iff.mp hcopy
      exact (Prod.mk.inj heq).1.symm
  subst hn
  dsimp only
  constructor
  · intro hok
    rw [if_pos hok]
    exact ⟨rfl, rfl, rfl⟩
  · intro hok
    rw [if_neg (Bool.eq_false_iff.mp hok)]
    exact (by decide : efault ≠ 0)

/-- After a failed first copy the call is over. -/
theorem rxPass_first_some {size : ℕ} {call call' : ReadCall} {p : RxReads}
    (hfirst : p.first = false) (h : rxPass size call p = some call') : call'.rval ≠ 0 := by
  unfold rxPass at h
  rw [if_neg (Bool.eq_false_iff.mp hfirst)] at h
  split at h
  · exact absurd h (by simp)
  · obtain ⟨l, -, rfl⟩ := Option.map_eq_some_iff.mp h
    exact (by decide : efault ≠ 0)

theorem rxLoop_of_rval {size : ℕ} {call : ReadCall} (h : call.rval ≠ 0) (ps : List RxReads) :
    rxLoop size call ps = some call := by
  cases ps with
  | nil => rfl
  | cons p ps =>
    unfold rxLoop
    rw [if_neg fun hmore ↦ h hmore.1]

theorem enter_rval (len : ℕ) : (ReadCall.enter len).rval = 0 := by
  rw [ReadCall.enter]

theorem enter_left (len : ℕ) : (ReadCall.enter len).left = int32 len := by
  rw [ReadCall.enter]

theorem enter_room (len : ℕ) : (ReadCall.enter len).room = len := by
  rw [ReadCall.enter]

/-- A call of `sbuf_read` stays in the ring and in the buffer of the caller if and only if
the pointers of each pass keep it there. -/
theorem rxLoop_isSome_iff {size : ℕ} (hsize : size < 2 ^ 32) {call : ReadCall}
    (hrval : call.rval = 0)
    (hroom : call.left < 0 ∧ 2 ^ 31 ≤ call.room ∨ call.left = call.room) (ps : List RxReads) :
    (rxLoop size call ps).isSome ↔ RxReads.FitsAll size call.left ps := by
  -- What is left is the room of the caller, so that only the ring matters.
  induction ps generalizing call with
  | nil => exact iff_of_true rfl trivial
  | cons p ps ih =>
    have hle : p.rxsize call.left ≤ call.left := min_le_right _ _
    have hfits : p.Fits size call.left → p.rxsize call.left ≤ call.room := fun h ↦ by
      have := h.1
      omega
    unfold rxLoop RxReads.FitsAll
    by_cases hmore : call.left ≠ 0 ∧ p.condWt ≠ p.condRd
    · rw [if_pos ⟨hrval, hmore⟩, forall_prop_of_true hmore]
      cases hfirst : p.first with
      | false =>
        simp only [reduceCtorEq, IsEmpty.forall_iff, and_true, forall_const]
        rw [← rxPass_first_isSome_iff hfirst hroom]
        cases hsome : rxPass size call p with
        | none => exact Iff.rfl
        | some call' =>
          rw [Option.bind_some, rxLoop_of_rval (rxPass_first_some hfirst hsome), Option.isSome_some]
      | true =>
        have hpass : (rxPass size call p).isSome ↔ size ≠ 0 ∧ p.Fits size call.left := by
          rw [rxPass_isSome_iff hsize hfirst]
          exact and_congr_right fun _ ↦ and_iff_right_of_imp hfits
        simp only [reduceCtorEq, IsEmpty.forall_iff, true_and, forall_const]
        cases hsome : rxPass size call p with
        | none =>
          rw [hsome] at hpass
          exact iff_of_false Bool.false_ne_true fun h ↦
            absurd (hpass.mpr ⟨h.1, h.2.1⟩) Bool.false_ne_true
        | some call' =>
          rw [hsome] at hpass
          obtain ⟨h0, hfit⟩ := hpass.mp rfl
          rw [Option.bind_some, and_iff_right h0, and_iff_right hfit]
          have hcall := rxPass_some hfirst hsome
          cases hok : p.ok with
          | true =>
            obtain ⟨hrval', hleft', hroom'⟩ := hcall.1 hok
            have := hfit.1
            rw [forall_prop_of_true rfl, ← hleft']
            exact ih (hrval'.trans hrval) (by omega)
          | false =>
            rw [rxLoop_of_rval (hcall.2 hok)]
            exact iff_of_true rfl fun h ↦ absurd h Bool.false_ne_true
    · rw [if_neg fun h ↦ hmore h.2]
      exact iff_of_true rfl fun h ↦ absurd h hmore

/-! ## The bounds of the host -/

/-- What the modem writes keeps the host in its bounds if and only if messages are on
channels of `sipc_cfg`, events are for rings there are, and the pointers do not make the
copies of `sbuf_read` negative or larger than the ring. -/
theorem sipc_in_bounds_iff (debugEnable : Bool) (ipc : SmsgIpc) (msg : Smsg) (sbuf : SbufMgr)
    (mrecv : Smsg) (size len : UInt32) (ps : List RxReads) :
    (smsgMsgProcess debugEnable ipc msg ≠ .error .wild ↔
      msg.channel ∈ sipcCfg ∨ msg.type = smsgTypeDie ∧ debugEnable = true) ∧
    (sbufThreadEvent sbuf mrecv ≠ .error .wild ↔
      mrecv.value < sbuf.ringnr ∧ mrecv.value.toNat < 2 ^ 31) ∧
    ((rxLoop size.toNat (.enter len.toNat) ps).isSome ↔
      RxReads.FitsAll size.toNat (int32 len.toNat) ps) := by
  refine ⟨smsgMsgProcess_ne_wild_iff .., sbufThreadEvent_ne_wild_iff .., ?_⟩
  rw [← enter_left]
  refine rxLoop_isSome_iff size.toNat_lt (enter_rval _) ?_ ps
  rw [enter_left, enter_room]
  have hlen := len.toNat_lt
  obtain ⟨hlow, hhigh, k, hk⟩ := int32_spec len.toNat
  omega

/-- An ipc without channels. -/
def idleIpc : SmsgIpc := ⟨fun _ ↦ none, fun _ ↦ 0, fun _ ↦ .unused⟩

/-- An sbuf with one ring. -/
def oneRing : SbufMgr := ⟨1, fun _ ↦ ⟨false, true⟩⟩

/-- The host leaves `busy` by a message on channel 254, the rings by an event for the second
of one ring, and a ring of four bytes by pointers that are twelve bytes apart. -/
theorem sipc_out_of_bounds :
    smsgMsgProcess false idleIpc ⟨254, smsgTypeOpen, smsgOpenMagic, 0⟩ = .error .wild ∧
    sbufThreadEvent oneRing ⟨5, smsgTypeEvent, smsgEventSbufWrptr, 1⟩ = .error .wild ∧
    rxLoop 4 (.enter 16) [⟨12, 0, 0, 12, 0, fun _ ↦ 0, true, true⟩] = none := by
  refine ⟨rfl, ?_, ?_⟩
  · exact not_not.mp (mt (sbufThreadEvent_ne_wild_iff ..).mp (by decide))
  · rw [← Option.not_isSome_iff_eq_none]
    decide

end Wwan.Sipc
