import Mathlib.Algebra.Order.Group.Nat
import Wwan.Lib.Bytes
import Wwan.Lib.Loop
import Wwan.Lib.Pieces

/-!
# Writing the MHI character device

`mhi_uci_write` cuts a message into chunks of at most the `mtu` and queues them one after the other,
so that an exit can be taken while some chunks are with the device already. What happens in a pass
of its loop is given: the free descriptors, the wait, `kmalloc`, `copy_from_user` and
`mhi_queue_transfer`.

Sizes are the values of `size_t` variables.
-/

namespace Wwan.MhiUci

open Bytes

/-- `-EAGAIN`. -/
def eagain : ℤ := -11

/-- `-ENOMEM`. -/
def enomem : ℤ := -12

/-- `-EINVAL`. -/
def einval : ℤ := -22

/-- `-ERESTARTSYS`. -/
def erestartsys : ℤ := -512

/-- `enum MHI_FLAGS`, as far as it is used here. -/
inductive MhiFlags
  | eot
  | chain
  deriving DecidableEq

/-- A buffer that was queued to the device. -/
structure Chunk where
  data : List UInt8
  flags : MhiFlags
  deriving DecidableEq

/-- What happens in a pass of the loop. -/
structure Pass where
  /-- The free descriptors at the start. -/
  nrAvail : ℤ
  /-- `wait_event_interruptible` returns `-ERESTARTSYS`. -/
  interrupted : Bool
  /-- `enabled` behind the wait. -/
  enabled : Bool
  /-- The free descriptors that the wait has seen last. -/
  nrFree : ℤ
  kmalloc : Bool
  /-- What `copy_from_user` leaves, if it was to copy as much. -/
  uncopied : ℕ
  /-- `enabled` under the lock. -/
  stillEnabled : Bool
  /-- What `mhi_queue_transfer` returns. -/
  queueTransfer : ℤ
  queueTransfer_mem : -2 ^ 31 ≤ queueTransfer ∧ queueTransfer ≤ 0

/-- A call of `mhi_uci_write_mutex`. -/
structure WriteCall where
  /-- What `mutex_lock_interruptible` returns. -/
  mutexLock : ℤ
  bufNull : Bool
  rxError : ℕ
  /-- `enabled` at the start. -/
  enabled : Bool
  /-- `O_NONBLOCK` is set. -/
  nonblock : Bool
  mtu : ℕ
  /-- The bytes at `buf`. -/
  user : ℕ → UInt8
  count : ℕ
  pass : ℕ → Pass

/-- The variables of the loop, the number of the pass and what was queued. -/
structure Progress where
  nr : ℕ
  bytesXfered : ℕ
  /-- How far `buf` was moved. -/
  buf : ℕ
  count : ℕ
  queued : List Chunk

/-- What `copy_from_user` leaves of `xferSize` bytes. -/
def Pass.left (o : Pass) (xferSize : ℕ) : ℕ := min o.uncopied xferSize

namespace WriteCall

variable (c : WriteCall)

/-- `kbuf` behind `copy_from_user`, which fills up with zeros. -/
def kbuf (o : Pass) (buf xferSize : ℕ) : List UInt8 :=
  (List.range' buf xferSize).map fun i ↦
    if i < buf + (xferSize - o.left xferSize) then c.user i else 0

/-- The loop of `mhi_uci_write`. -/
def loop (s : Progress) : (ℤ × List Chunk) ⊕ Progress :=
  if s.count = 0 then .inl (s.bytesXfered, s.queued)
  else
    let o := c.pass s.nr
    if o.nrAvail = 0 ∧ c.nonblock = true then .inl (eagain, s.queued)
    else if o.interrupted = true ∨ o.enabled = false then .inl (erestartsys, s.queued)
    else
      let xferSize := min s.count c.mtu
      if o.kmalloc = false then .inl (enomem, s.queued)
      else
        let ret := int32 (o.left xferSize)
        if ret ≠ 0 then .inl (ret, s.queued)
        else
          let flags := if o.nrFree > 1 ∧ s.count - xferSize ≠ 0 then .chain else .eot
          let ret := if o.stillEnabled = true then o.queueTransfer else erestartsys
          if ret ≠ 0 then .inl (ret, s.queued)
          else
            .inr {
              nr := s.nr + 1
              bytesXfered := s.bytesXfered + xferSize
              buf := s.buf + xferSize
              count := s.count - xferSize
              queued := s.queued ++ [⟨c.kbuf o s.buf xferSize, flags⟩] }

/-- The loop at its start. -/
def start : Progress := ⟨0, 0, 0, c.count, []⟩

/-- `mhi_uci_write`, with what it returns and has queued. -/
def mhiUciWrite (fuel : ℕ) : Option (ℤ × List Chunk) :=
  if c.bufNull = true ∨ c.count = 0 ∨ c.rxError ≠ 0 then some (einval, [])
  else if c.enabled = false then some (erestartsys, [])
  else Loop.run c.loop fuel c.start

/-- `mhi_uci_write_mutex`, which takes the `ssize_t` into an `int`. -/
def mhiUciWriteMutex (fuel : ℕ) : Option (ℤ × List Chunk) :=
  if c.mutexLock < 0 then some (erestartsys, [])
  else (c.mhiUciWrite fuel).map fun r ↦ (int32 r.1, r.2)

/-! ## The passes -/

/-- How much of the message is with the device before a pass, if all passes before have queued. -/
def pos (k : ℕ) : ℕ := min (k * c.mtu) c.count

/-- The size of the chunk of a pass. -/
def size (k : ℕ) : ℕ := min (c.count - c.pos k) c.mtu

/-- The chunk of a pass. -/
def chunk (k : ℕ) : Chunk where
  data := c.kbuf (c.pass k) (c.pos k) (c.size k)
  flags := if (c.pass k).nrFree > 1 ∧ c.count - c.pos k - c.size k ≠ 0 then .chain else .eot

/-- The loop before a pass. -/
def head (k : ℕ) : Progress where
  nr := k
  bytesXfered := c.pos k
  buf := c.pos k
  count := c.count - c.pos k
  queued := (List.range k).map c.chunk

/-- What `copy_from_user` returns in a pass, as an `int`. -/
def residue (k : ℕ) : ℤ := int32 ((c.pass k).left (c.size k))

/-- A pass comes to `copy_from_user`. -/
def ToCopy (k : ℕ) : Prop :=
  ¬ ((c.pass k).nrAvail = 0 ∧ c.nonblock = true) ∧
    ¬ ((c.pass k).interrupted = true ∨ (c.pass k).enabled = false) ∧ (c.pass k).kmalloc ≠ false

/-- A pass queues its chunk. -/
def Queues (k : ℕ) : Prop :=
  c.ToCopy k ∧ c.residue k = 0 ∧ (c.pass k).stillEnabled = true ∧ (c.pass k).queueTransfer = 0

/-- What a pass has not copied is zero anyway. -/
def Whole (k : ℕ) : Prop :=
  ∀ i ∈ List.range' (c.pos k) (c.size k),
    c.pos k + (c.size k - (c.pass k).left (c.size k)) ≤ i → c.user i = 0

/-- What a pass does: it queues its chunk, or it leaves the loop with what `copy_from_user` returns
or with an error. -/
inductive PassOutcome (k : ℕ) : (ℤ × List Chunk) ⊕ Progress → Prop
  | queues (hqueues : c.Queues k) : PassOutcome k (.inr (c.head (k + 1)))
  | copies (hcopy : c.ToCopy k) (hne : c.residue k ≠ 0) :
      PassOutcome k (.inl (c.residue k, (List.range k).map c.chunk))
  | fails {e : ℤ} (hneg : e < 0) (hrange : -2 ^ 31 ≤ e) (hqueues : ¬ c.Queues k)
      (hcopy : ¬ (c.ToCopy k ∧ c.residue k ≠ 0)) :
      PassOutcome k (.inl (e, (List.range k).map c.chunk))

variable {c} {k : ℕ}

theorem pos_zero : c.pos 0 = 0 := by
  rw [pos, Nat.zero_mul, Nat.zero_min]

theorem pos_le (k : ℕ) : c.pos k ≤ c.count := Nat.min_le_right ..

theorem pos_of_lt (h : c.pos k < c.count) : c.pos k = k * c.mtu := by
  unfold pos at h ⊢
  omega

theorem size_le_mtu (k : ℕ) : c.size k ≤ c.mtu := Nat.min_le_right ..

/-- The chunks follow each other. -/
theorem pos_succ (k : ℕ) : c.pos (k + 1) = c.pos k + c.size k := by
  unfold size pos
  rw [Nat.succ_mul]
  omega

theorem head_succ (k : ℕ) : c.head (k + 1) = {
    nr := k + 1
    bytesXfered := c.pos k + c.size k
    buf := c.pos k + c.size k
    count := c.count - c.pos k - c.size k
    queued := (List.range k).map c.chunk ++ [c.chunk k] } := by
  rw [head, pos_succ, Nat.sub_add_eq, List.range_succ, List.map_append]
  rfl

/-- The loop leaves with the whole count. -/
theorem loop_head_of_eq (h : c.pos k = c.count) :
    c.loop (c.head k) = .inl (c.count, (List.range k).map c.chunk) := by
  unfold loop head
  rw [h, if_pos (Nat.sub_self _)]

theorem loop_head_outcome (h : c.pos k < c.count) : c.PassOutcome k (c.loop (c.head k)) := by
  have hcount : ¬ (c.head k).count = 0 := Nat.sub_ne_zero_of_lt h
  unfold loop
  rw [if_neg hcount]
  dsimp only
  split
  next hfull =>
    exact .fails (by decide) (by decide) (fun hq ↦ hq.1.1 hfull) fun hc ↦ hc.1.1 hfull
  next hfull =>
    split
    next hwait =>
      exact .fails (by decide) (by decide) (fun hq ↦ hq.1.2.1 hwait) fun hc ↦ hc.1.2.1 hwait
    next hwait =>
      split
      next halloc =>
        exact .fails (by decide) (by decide) (fun hq ↦ hq.1.2.2 halloc) fun hc ↦ hc.1.2.2 halloc
      next halloc =>
        have hcopy : c.ToCopy k := ⟨hfull, hwait, halloc⟩
        split
        next hret => exact .copies hcopy hret
        next hret =>
          have hzero : c.residue k = 0 := not_not.mp hret
          split
          next hstill =>
            split
            next hsend =>
              have hneg := lt_of_le_of_ne (c.pass k).queueTransfer_mem.2 hsend
              exact .fails hneg (c.pass k).queueTransfer_mem.1 (fun hq ↦ hsend hq.2.2.2)
                fun hc ↦ hc.2 hzero
            next hsend =>
              have hnext := PassOutcome.queues ⟨hcopy, hzero, hstill, not_not.mp hsend⟩
              rw [head_succ] at hnext
              exact hnext
          next hstill =>
            rw [if_pos (by decide)]
            exact .fails (by decide) (by decide) (fun hq ↦ hstill hq.2.2.1) fun hc ↦ hc.2 hzero

/-! ## Reports -/

/-- A result reports what was queued: the first `r` bytes of the message, where `r` is the result if
it is no error and 0 if it is one, with the end of the transfer marked on the last chunk. -/
structure Reports (user : ℕ → UInt8) (r : ℤ × List Chunk) : Prop where
  bytes : r.2.flatMap Chunk.data = (List.range' 0 r.1.toNat).map user
  eot : ∀ x ∈ r.2.getLast?, x.flags = .eot

theorem reports_nil {user : ℕ → UInt8} {e : ℤ} : Reports user (e, []) ↔ e ≤ 0 := by
  constructor
  · intro h
    have hlen := congrArg List.length h.bytes
    rw [List.flatMap_nil, List.length_nil, List.length_map, List.length_range'] at hlen
    exact Int.toNat_eq_zero.mp hlen.symm
  · intro h
    refine ⟨?_, fun x hx ↦ absurd hx (Option.not_mem_none x)⟩
    rw [Int.toNat_eq_zero.mpr h]
    rfl

theorem data_eq_iff (k : ℕ) :
    (c.chunk k).data = (Pieces.piece c.pos k).map c.user ↔ c.Whole k := by
  have hpiece : Pieces.piece c.pos k = List.range' (c.pos k) (c.size k) := by
    rw [Pieces.piece, pos_succ, Nat.add_sub_cancel_left]
  rw [hpiece, chunk, kbuf, List.map_inj_left]
  refine forall₂_congr fun i _ ↦ ?_
  by_cases hlt : i < c.pos k + (c.size k - (c.pass k).left (c.size k))
  · rw [if_pos hlt]
    exact iff_of_true rfl fun hle ↦ absurd hlt (Nat.not_lt.mpr hle)
  · rw [if_neg hlt]
    exact ⟨fun h _ ↦ h.symm, fun h ↦ (h (Nat.not_lt.mp hlt)).symm⟩

theorem length_data (k : ℕ) : (c.chunk k).data.length = c.pos (k + 1) - c.pos k := by
  rw [pos_succ, Nat.add_sub_cancel_left, chunk, kbuf, List.length_map, List.length_range']

theorem flags_eq_eot_iff (k : ℕ) :
    (c.chunk k).flags = .eot ↔ (c.pass k).nrFree ≤ 1 ∨ c.pos (k + 1) = c.count := by
  have hpos := pos_le (c := c) (k + 1)
  have hsub : c.count - c.pos k - c.size k = c.count - c.pos (k + 1) := by
    rw [pos_succ, Nat.sub_add_eq]
  rw [chunk, hsub]
  dsimp only
  split
  next h => exact iff_of_false (by decide) fun hor ↦ by omega
  next h => exact iff_of_true rfl (by omega)

/-- What the first passes queue is reported by a result that says how much it was. -/
theorem reports_chunks_iff (k : ℕ) (e : ℤ) :
    Reports c.user (e, (List.range k).map c.chunk) ↔
      (e.toNat = c.pos k ∧ ∀ i < k, c.Whole i) ∧ (k = 0 ∨ (c.chunk (k - 1)).flags = .eot) := by
  have hbytes : ((List.range k).map c.chunk).flatMap Chunk.data =
      (List.range' 0 e.toNat).map c.user ↔ e.toNat = c.pos k ∧ ∀ i < k, c.Whole i := by
    rw [List.flatMap_map, Pieces.flatMap_eq_range'_iff pos_zero
      (fun i ↦ (pos_succ i).symm ▸ Nat.le_add_right _ _) length_data c.user]
    exact and_congr_right fun _ ↦ forall₂_congr fun i _ ↦ data_eq_iff i
  have heot : (∀ x ∈ ((List.range k).map c.chunk).getLast?, x.flags = .eot) ↔
      k = 0 ∨ (c.chunk (k - 1)).flags = .eot := by
    cases k with
    | zero => exact iff_of_true (fun x hx ↦ absurd hx (Option.not_mem_none x)) (.inl rfl)
    | succ k =>
      rw [List.range_succ, List.map_append, List.map_singleton, List.getLast?_concat]
      exact ⟨fun h ↦ .inr (h _ rfl), fun h x hx ↦
        Option.some.inj hx ▸ h.resolve_left (Nat.succ_ne_zero k)⟩
  rw [← hbytes, ← heot]
  exact ⟨fun h ↦ ⟨h.bytes, h.eot⟩, fun h ↦ ⟨h.1, h.2⟩⟩

/-! ## Runs -/

variable (c) in
/-- A call that does not come to the loop. -/
def Refused : Prop :=
  c.mutexLock < 0 ∨ c.bufNull = true ∨ c.count = 0 ∨ c.rxError ≠ 0 ∨ c.enabled = false

variable (c) in
/-- What a call returns and has queued. -/
def Returns (r : ℤ × List Chunk) : Prop := ∃ fuel, c.mhiUciWriteMutex fuel = some r

variable {r r' : ℤ × List Chunk}

theorem start_eq : c.start = c.head 0 := by
  rw [head, pos_zero]
  rfl

/-- A refused call returns an error. -/
theorem returns_of_refused (h : c.Refused) :
    ∃ e < 0, ∀ fuel, c.mhiUciWriteMutex fuel = some (e, []) := by
  unfold mhiUciWriteMutex mhiUciWrite
  by_cases hlock : c.mutexLock < 0
  · exact ⟨erestartsys, by decide, fun _ ↦ if_pos hlock⟩
  · by_cases hargs : c.bufNull = true ∨ c.count = 0 ∨ c.rxError ≠ 0
    · refine ⟨einval, by decide, fun _ ↦ ?_⟩
      rw [if_neg hlock, if_pos hargs]
      rfl
    · have henabled : c.enabled = false := by
        rcases h with h | h | h | h | h
        · exact absurd h hlock
        · exact absurd (.inl h) hargs
        · exact absurd (.inr (.inl h)) hargs
        · exact absurd (.inr (.inr h)) hargs
        · exact h
      refine ⟨erestartsys, by decide, fun _ ↦ ?_⟩
      rw [if_neg hlock, if_neg hargs, if_pos henabled]
      rfl

/-- Another call returns what its loop returns, as an `int`. -/
theorem returns_iff_of_not_refused (h : ¬ c.Refused) :
    c.Returns r ↔ ∃ q, Loop.Returns c.loop (c.head 0) q ∧ (int32 q.1, q.2) = r := by
  have hargs : ¬ (c.bufNull = true ∨ c.count = 0 ∨ c.rxError ≠ 0) := by
    rintro (hx | hx | hx)
    · exact h (.inr (.inl hx))
    · exact h (.inr (.inr (.inl hx)))
    · exact h (.inr (.inr (.inr (.inl hx))))
  have hrun (fuel : ℕ) : c.mhiUciWriteMutex fuel =
      (Loop.run c.loop fuel (c.head 0)).map fun r ↦ (int32 r.1, r.2) := by
    rw [mhiUciWriteMutex, if_neg (fun hx ↦ h (.inl hx)), mhiUciWrite, if_neg hargs,
      if_neg (fun hx ↦ h (.inr (.inr (.inr (.inr hx))))), start_eq]
  constructor
  · rintro ⟨fuel, hfuel⟩
    rw [hrun, Option.map_eq_some_iff] at hfuel
    obtain ⟨q, hq, heq⟩ := hfuel
    exact ⟨q, ⟨fuel, hq⟩, heq⟩
  · rintro ⟨q, ⟨fuel, hq⟩, heq⟩
    exact ⟨fuel, by rw [hrun, hq, Option.map_some, heq]⟩

/-- A call returns one result, whatever the fuel. -/
theorem Returns.unique (h : c.Returns r) (h' : c.Returns r') : r = r' := by
  by_cases hrefused : c.Refused
  · obtain ⟨e, -, hreturns⟩ := returns_of_refused hrefused
    obtain ⟨fuel, hfuel⟩ := h
    obtain ⟨fuel', hfuel'⟩ := h'
    rw [hreturns, Option.some.injEq] at hfuel hfuel'
    exact hfuel.symm.trans hfuel'
  · obtain ⟨q, hq, rfl⟩ := (returns_iff_of_not_refused hrefused).mp h
    obtain ⟨q', hq', rfl⟩ := (returns_iff_of_not_refused hrefused).mp h'
    rw [hq.unique hq']

/-- The loop passes through its heads. -/
theorem loop_head_inr {t : Progress} (k : ℕ) (h : c.loop (c.head k) = .inr t) :
    t = c.head (k + 1) := by
  rcases Nat.lt_or_ge (c.pos k) c.count with hlt | hge
  · have hcase := loop_head_outcome hlt
    rw [h] at hcase
    cases hcase
    rfl
  · rw [loop_head_of_eq (Nat.le_antisymm (pos_le k) hge)] at h
    exact absurd h Sum.inl_ne_inr

theorem loop_head_of_queues (hlt : c.pos k < c.count) (h : c.Queues k) :
    c.loop (c.head k) = .inr (c.head (k + 1)) := by
  have hcase := loop_head_outcome hlt
  generalize c.loop (c.head k) = o at hcase ⊢
  cases hcase with
  | queues => rfl
  | copies _ hne => exact absurd h.2.1 hne
  | fails _ _ hnot => exact absurd h hnot

/-- Every message comes to its end, or to a pass that does not queue. -/
theorem exists_last (hmtu : 0 < c.mtu) :
    ∃ k, (∀ i < k, c.pos i < c.count ∧ c.Queues i) ∧
      (c.pos k = c.count ∨ c.pos k < c.count ∧ ¬ c.Queues k) := by
  classical
  have hex : ∃ k, c.pos k = c.count ∨ ¬ c.Queues k := by
    refine ⟨c.count, .inl (Nat.min_eq_right ?_)⟩
    exact Nat.le_mul_of_pos_right _ hmtu
  refine ⟨Nat.find hex, fun i hi ↦ ?_, ?_⟩
  · have hnot := not_or.mp (Nat.find_min hex hi)
    exact ⟨lt_of_le_of_ne (pos_le i) hnot.1, not_not.mp hnot.2⟩
  · by_cases heq : c.pos (Nat.find hex) = c.count
    · exact .inl heq
    · exact .inr ⟨lt_of_le_of_ne (pos_le _) heq, (Nat.find_spec hex).resolve_left heq⟩

/-- A run returns what its last pass leaves with. -/
theorem returns_iff_of_last (hrefused : ¬ c.Refused)
    (hstay : ∀ i < k, c.pos i < c.count ∧ c.Queues i) {q : ℤ × List Chunk}
    (hlast : c.loop (c.head k) = .inl q) : c.Returns r ↔ (int32 q.1, q.2) = r := by
  have hloop : Loop.Returns c.loop (c.head 0) q :=
    (Loop.returns_seq_iff (f := c.head) fun k _ ↦ loop_head_inr k).mpr
      ⟨k, hlast, fun i hi ↦ loop_head_of_queues (hstay i hi).1 (hstay i hi).2⟩
  rw [returns_iff_of_not_refused hrefused]
  constructor
  · rintro ⟨q', hq', heq⟩
    rw [hloop.unique hq']
    exact heq
  · intro heq
    exact ⟨q, hloop, heq⟩

variable (c) in
/-- A call returns and reports what was queued. -/
def WriteReports : Prop := ∃ r, c.Returns r ∧ Reports c.user r

variable (c) in
/-- When a call reports what was queued: it is refused, or it queues the whole message and an `int`
holds the count, or it fails in its first pass without `copy_from_user` being the reason, or the
second pass copies nothing of a full chunk after a first one that had to end the transfer. -/
def Honest : Prop :=
  c.Refused ∨
  (c.count < 2 ^ 31 ∧ ∀ k, c.pos k < c.count → c.Queues k ∧ c.Whole k) ∨
  (¬ c.Queues 0 ∧ ¬ (c.ToCopy 0 ∧ 0 < c.residue 0)) ∨
  (c.mtu < c.count ∧ c.Queues 0 ∧ c.Whole 0 ∧ (c.pass 0).nrFree ≤ 1 ∧ c.ToCopy 1 ∧
    c.residue 1 = c.mtu)

theorem int32_residue (k : ℕ) : int32 (c.residue k) = c.residue k :=
  int32_of_range (int32_spec _).1 (int32_spec _).2.1

/-- `copy_from_user` returns at most what it was to copy. -/
theorem residue_le (k : ℕ) : c.residue k ≤ c.mtu := by
  have hleft : (c.pass k).left (c.size k) ≤ c.mtu :=
    (Nat.min_le_right _ _).trans (size_le_mtu k)
  obtain ⟨hlow, hhigh, m, hm⟩ := int32_spec ((c.pass k).left (c.size k) : ℤ)
  unfold residue
  omega

theorem pos_mono {i : ℕ} (h : i ≤ k) : c.pos i ≤ c.pos k := by
  have hmul := Nat.mul_le_mul_right c.mtu h
  unfold pos
  omega

/-- A message that is queued as a whole. -/
theorem reports_whole_iff (hpos : c.pos k = c.count)
    (hstay : ∀ i < k, c.pos i < c.count ∧ c.Queues i) :
    Reports c.user (int32 c.count, (List.range k).map c.chunk) ↔
      c.count < 2 ^ 31 ∧ ∀ i, c.pos i < c.count → c.Queues i ∧ c.Whole i := by
  have hcount : (int32 c.count).toNat = c.count ↔ c.count < 2 ^ 31 := by
    obtain ⟨hlow, hhigh, m, hm⟩ := int32_spec (c.count : ℤ)
    constructor
    · intro h
      omega
    · intro h
      rw [int32_of_range (by omega) (by omega), Int.toNat_natCast]
  have hlt (i : ℕ) : c.pos i < c.count ↔ i < k := by
    constructor
    · intro h
      by_contra hge
      have hmono := pos_mono (c := c) (Nat.not_lt.mp hge)
      omega
    · exact fun h ↦ (hstay i h).1
  have heot : k = 0 ∨ (c.chunk (k - 1)).flags = .eot := by
    cases k with
    | zero => exact .inl rfl
    | succ k => exact .inr ((flags_eq_eot_iff k).mpr (.inr hpos))
  rw [reports_chunks_iff, and_iff_left heot, hpos, hcount]
  refine and_congr_right fun _ ↦ forall_congr' fun i ↦ ?_
  rw [hlt]
  exact forall_congr' fun hi ↦ (and_iff_right (hstay i hi).2).symm

/-- An exit behind the first chunk is reported only if it returns the length of this chunk. -/
theorem reports_exit_succ_iff {e : ℤ} (hmtu : 0 < c.mtu) (hlt : c.pos (k + 1) < c.count)
    (hle : e ≤ c.mtu) :
    Reports c.user (e, (List.range (k + 1)).map c.chunk) ↔
      k = 0 ∧ c.Whole 0 ∧ e = c.mtu ∧ (c.pass 0).nrFree ≤ 1 := by
  have hpos := pos_of_lt hlt
  rw [reports_chunks_iff, or_iff_right (Nat.succ_ne_zero k), Nat.add_sub_cancel, flags_eq_eot_iff,
    or_iff_left (Nat.ne_of_lt hlt), hpos]
  constructor
  · rintro ⟨⟨he, hwhole⟩, hfree⟩
    have hk : k = 0 := by
      by_contra hne
      have htwo : 2 * c.mtu ≤ (k + 1) * c.mtu := Nat.mul_le_mul_right _ (by omega)
      omega
    subst hk
    rw [Nat.zero_add, Nat.one_mul] at he
    exact ⟨rfl, hwhole 0 Nat.one_pos, by omega, hfree⟩
  · rintro ⟨rfl, hwhole, rfl, hfree⟩
    refine ⟨⟨by omega, fun i hi ↦ ?_⟩, hfree⟩
    rw [Nat.lt_one_iff.mp hi]
    exact hwhole

/-- A pass that does not queue leaves the loop, and what it leaves with is positive only if it is
what `copy_from_user` returns. -/
theorem exists_exit (hlt : c.pos k < c.count) (hqueues : ¬ c.Queues k) :
    ∃ e : ℤ, c.loop (c.head k) = .inl (e, (List.range k).map c.chunk) ∧ int32 e = e ∧
      e ≤ c.mtu ∧ (0 < e ↔ c.ToCopy k ∧ 0 < c.residue k) ∧ (0 < e → e = c.residue k) := by
  have hcase := loop_head_outcome hlt
  generalize c.loop (c.head k) = o at hcase ⊢
  cases hcase with
  | queues hq => exact absurd hq hqueues
  | copies hcopy hne =>
    exact ⟨_, rfl, int32_residue k, residue_le k, (and_iff_right hcopy).symm, fun _ ↦ rfl⟩
  | @fails e hneg hrange _ hcopy =>
    refine ⟨e, rfl, int32_of_range hrange (by omega), by omega, ?_, fun h ↦ by omega⟩
    exact iff_of_false (by omega) fun h ↦ hcopy ⟨h.1, h.2.ne'⟩

theorem pos_lt_count_zero (h : ¬ c.Refused) : c.pos 0 < c.count := by
  rw [pos_zero]
  exact Nat.pos_of_ne_zero fun hx ↦ h (.inr (.inr (.inl hx)))

/-- A call reports what was queued exactly in these cases. -/
theorem mhiUciWrite_reports_iff (c : WriteCall) (hmtu : 0 < c.mtu) :
    c.WriteReports ↔ c.Honest := by
  unfold WriteReports Honest
  by_cases hrefused : c.Refused
  · obtain ⟨e, hneg, hreturns⟩ := returns_of_refused hrefused
    exact iff_of_true ⟨(e, []), ⟨0, hreturns 0⟩, reports_nil.mpr hneg.le⟩ (.inl hrefused)
  rw [or_iff_right hrefused]
  have hzero := pos_lt_count_zero hrefused
  obtain ⟨k, hstay, hlast⟩ := exists_last hmtu
  rcases hlast with hpos | ⟨hlt, hqueues⟩
  · -- the whole message is queued
    have hreturns {r : ℤ × List Chunk} := returns_iff_of_last (r := r) hrefused hstay
      (loop_head_of_eq hpos)
    have hk : 0 < k := by
      refine Nat.pos_of_ne_zero ?_
      rintro rfl
      omega
    have hfirst := (hstay 0 hk).2
    have hone : ¬ (c.mtu < c.count ∧ c.Queues 0 ∧ c.Whole 0 ∧ (c.pass 0).nrFree ≤ 1 ∧ c.ToCopy 1 ∧
        c.residue 1 = c.mtu) := by
      rintro ⟨hcount, -, -, -, -, hresidue⟩
      have hk1 : 1 < k := by
        by_contra hle
        obtain rfl : k = 1 := by omega
        rw [pos, Nat.one_mul] at hpos
        omega
      have hres := (hstay 1 hk1).2.2.1
      omega
    rw [or_iff_left (not_or.mpr ⟨fun hx ↦ hx.1 hfirst, hone⟩), ← reports_whole_iff hpos hstay]
    constructor
    · rintro ⟨r, hr, hreports⟩
      rwa [hreturns.mp hr]
    · intro hreports
      exact ⟨_, hreturns.mpr rfl, hreports⟩
  · -- a pass leaves the loop
    have hnotall : ¬ (c.count < 2 ^ 31 ∧ ∀ k, c.pos k < c.count → c.Queues k ∧ c.Whole k) :=
      fun hx ↦ hqueues (hx.2 k hlt).1
    obtain ⟨e, hexit, hint, hle, hsign, hresidue⟩ := exists_exit hlt hqueues
    have hreports : (∃ r, c.Returns r ∧ Reports c.user r) ↔
        Reports c.user (e, (List.range k).map c.chunk) := by
      have hreturns {r : ℤ × List Chunk} := returns_iff_of_last (r := r) hrefused hstay hexit
      rw [hint] at hreturns
      constructor
      · rintro ⟨r, hr, hreports⟩
        rwa [hreturns.mp hr]
      · intro hreports
        exact ⟨_, hreturns.mpr rfl, hreports⟩
    rw [or_iff_right hnotall, hreports]
    cases k with
    | zero =>
      rw [or_iff_left fun hx ↦ hqueues hx.2.1, and_iff_right hqueues, ← hsign, not_lt]
      exact reports_nil
    | succ k =>
      rw [or_iff_right fun hx ↦ hx.1 (hstay 0 k.succ_pos).2, reports_exit_succ_iff hmtu hlt hle]
      constructor
      · rintro ⟨rfl, hwhole, rfl, hfree⟩
        have hpos := pos_of_lt hlt
        have hcopy := hsign.mp (Int.natCast_pos.mpr hmtu)
        refine ⟨by omega, (hstay 0 Nat.one_pos).2, hwhole, hfree, hcopy.1, ?_⟩
        exact (hresidue (Int.natCast_pos.mpr hmtu)).symm
      · rintro ⟨-, -, hwhole, hfree, hcopy, hmtu'⟩
        have hk : k = 0 := by
          by_contra hne
          have hres := (hstay 1 (by omega)).2.2.1
          omega
        subst hk
        have hpos : 0 < e := hsign.mpr ⟨hcopy, by rw [Nat.zero_add]; omega⟩
        exact ⟨rfl, hwhole, (hresidue hpos).trans hmtu', hfree⟩

/-! ## A message of two chunks -/

/-- A pass in which everything goes well. -/
def goodPass : Pass where
  nrAvail := 8
  interrupted := false
  enabled := true
  nrFree := 8
  kmalloc := true
  uncopied := 0
  stillEnabled := true
  queueTransfer := 0
  queueTransfer_mem := by decide

/-- A message of four bytes with an `mtu` of two. -/
def twoChunks (second : Pass) : WriteCall where
  mutexLock := 0
  bufNull := false
  rxError := 0
  enabled := true
  nonblock := true
  mtu := 2
  user := fun i ↦ UInt8.ofNat i
  count := 4
  pass := fun k ↦ if k = 0 then goodPass else second

theorem mhiUciWrite_reports_iff_twoChunks :
    (twoChunks goodPass).WriteReports ↔ (twoChunks goodPass).Honest :=
  mhiUciWrite_reports_iff _ (by decide)

/-- The ring is full behind the first chunk: `-EAGAIN` is returned with two bytes queued. -/
theorem mhiUciWrite_reports_full : ¬ ∀ c : WriteCall, 0 < c.mtu → c.WriteReports := by
  intro h
  obtain ⟨r, hr, hreports⟩ := h (twoChunks { goodPass with nrAvail := 0 }) (by decide)
  have hfull : (twoChunks { goodPass with nrAvail := 0 }).Returns (-11, [⟨[0, 1], .chain⟩]) :=
    ⟨2, by decide⟩
  rw [hr.unique hfull] at hreports
  exact absurd hreports.bytes (by decide)

end WriteCall

end Wwan.MhiUci
