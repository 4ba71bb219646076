import Mathlib.Data.List.Forall2
import Wwan.Lib.Batch
import Wwan.QmiWwanF.TxAgg

/-!
# What uplink aggregation loses

Every run in which two things do not happen conserves the packets (`txSystem_lawful`). A frame is
not to be copied beyond the size of its buffer (`Overruns`): the first frame of a buffer is copied
without a comparison, and the following ones are compared with the limit in force, which need not be
the one the buffer was allocated with. And a call is not to hand a buffer on while
`rmnet_usb_tx_agg_work` still holds an older one.

The run is matched by a `Batch` of frames, whose closed batches are the buffers handed on, then the
one that the work holds, then the one that the call holds. Handing one on leaves this list as it
is.
-/

namespace Wwan.QmiWwanF

open Wwan.Kernel Wwan.Bytes
open Wwan.QmiWwanQ (AllocSkb AggParams Timespec64)

variable {κ ε : Type*}

/-! ## The law -/

namespace TxPc

/-- The buffer that the call has detached and not yet handed on. -/
def held : TxPc → Option Sent
  | handOn sent _ => some sent
  | _ => none

/-- The frame of the call, before it has been copied. -/
def waiting : TxPc → List (List UInt8)
  | entered c | newPacket c _ | handOn _ (some (c, _)) => [c.frame]
  | _ => []

/-- Before the limit has been compared there may be one frame more in the pending buffer. -/
def slack : TxPc → ℕ
  | copied _ _ => 0
  | _ => 1

end TxPc

namespace TxState

variable (s : TxState κ)

/-- The detached buffers that have not been handed on, oldest first. -/
def transit : List Sent := s.work.toList ++ s.pc.held.toList

/-- The bytes of the pending buffer. -/
def pendingBytes : List UInt8 := (s.up.aggSkb.map AggBuf.data).getD []

/-- Neither a call nor the work is in progress. -/
structure AtRest : Prop where
  pc : s.pc = .idle
  work : s.work = none

/-- The frames of all calls are, in call order, those of the buffers handed on and of the pending
buffer; each buffer is the concatenation of a group of them, no larger than the limit. -/
structure Conserves : Prop where
  bytes : (s.xmit.map Sent.data).flatten ++ s.pendingBytes = s.queued.flatten
  groups : ∃ (groups : List (List (List UInt8))) (pending : List (List UInt8)),
    List.Forall₂ (fun sent g ↦ sent.data = g.flatten ∧ g.length ≤ sent.limit) s.xmit groups ∧
      s.pendingBytes = pending.flatten ∧ pending.length = s.up.aggCount ∧
        groups.flatten ++ pending = s.queued

/-- Between calls nothing is lost, nothing is put beyond the size of a buffer, and no packet takes a
third pass. -/
structure Lawful : Prop where
  conserves : s.AtRest → s.Conserves
  panicked : s.panicked = false
  pending_le : ∀ buf, s.up.aggSkb = some buf → buf.data.length ≤ buf.size
  sent_le : ∀ sent ∈ s.xmit ++ s.transit, sent.data.length ≤ sent.size
  passes : ∀ c n, s.pc = .newPacket c n → n < 2

end TxState

/-! ## The condition -/

/-- The pass puts a frame beyond the size that its buffer was allocated with. -/
inductive Overruns (A : AllocSkb) (P : AggParams) (L : AggLimits) (up : Uplink) (c : TxCall)
    (n : ℕ) : Prop
  | /-- The first frame of a buffer is larger than the buffer. -/
    first (hskb : up.aggSkb = none) (hwaits : bypass P up c n = false)
      (halloc : c.allocAgg = true ∧ L.maxSize ≤ A.max) (hlong : L.maxSize < c.frame.length)
  | /-- The pending buffer is smaller than the limit that the frame is compared with. -/
    next (buf : AggBuf) (hskb : up.aggSkb = some buf)
      (hcheck : u32 (buf.data.length + c.skb.len) < L.maxSize)
      (hlong : buf.size < buf.data.length + c.frame.length)

/-- The step of the call puts no frame beyond its buffer, and does not overtake the work. -/
def TxOrderly (V : TxPort) (D : TxDriver κ ε) (s : TxState κ) : TxEvent ε → Prop
  | .step => match s.pc with
    | .newPacket c n => ¬ Overruns V.alloc V.params (D.limits s.settings) s.up c n
    | .handOn _ _ => s.work = none
    | _ => True
  | _ => True

/-! ## Passes -/

/-- The ways a pass can go that puts no frame beyond its buffer. -/
inductive PassCase (L : AggLimits) (up : Uplink) (c : TxCall) (n : ℕ) : Uplink × TxPc → Prop
  | /-- The frame joins the pending buffer. -/
    joined {buf buf' : AggBuf} (hskb : up.aggSkb = some buf)
      (hdata : buf'.data = buf.data ++ c.frame) (hle : buf'.data.length ≤ buf'.size) :
      PassCase L up c n (up.count buf', .copied c n)
  | /-- The pending buffer is handed on; the next pass finds none. -/
    retried {buf : AggBuf} (hskb : up.aggSkb = some buf) :
      PassCase L up c n
        (.detach (c.now n), .handOn (buf.sent L.maxDatagrams) (some (c, n + 1)))
  | /-- The frame starts a buffer. -/
    started {buf' : AggBuf} (hskb : up.aggSkb = none) (hdata : buf'.data = c.frame)
      (hle : buf'.data.length ≤ buf'.size) : PassCase L up c n (up.count buf', .idle)
  | /-- The packet goes out in its own buffer. -/
    alone (hskb : up.aggSkb = none) :
      PassCase L up c n ({ up with aggTime := c.now n }, .handOn (c.sent L.maxDatagrams) none)

theorem newPacket_case {A : AllocSkb} {P : AggParams} {L : AggLimits} {up : Uplink} {c : TxCall}
    {n : ℕ} (h : ¬ Overruns A P L up c n) :
    ∃ r, newPacket A P L up c n = some r ∧ PassCase L up c n r := by
  unfold newPacket
  split
  next buf hskb =>
    split
    next hcheck =>
      have hle : buf.data.length + c.frame.length ≤ buf.size :=
        Nat.not_lt.mp fun hlong ↦ h (.next buf hskb hcheck hlong)
      obtain ⟨buf', hput, hdata, hsize⟩ := AggBuf.exists_put hle
      refine ⟨_, by rw [hput]; rfl, .joined hskb hdata ?_⟩
      rwa [hdata, hsize, List.length_append]
    next => exact ⟨_, rfl, .retried hskb⟩
  next hskb =>
    cases hbypass : bypass P up c n with
    | true => exact ⟨_, rfl, .alone hskb⟩
    | false =>
      rw [if_neg Bool.false_ne_true]
      by_cases halloc : c.allocAgg = true ∧ L.maxSize ≤ A.max
      · obtain ⟨buf, hbuf, hnil, hmax⟩ := exists_allocSkb halloc
        have hlong := Nat.not_lt.mp fun hlong ↦ h (.first hskb hbypass halloc hlong)
        have hle : buf.data.length + c.frame.length ≤ buf.size := by
          rwa [hnil, hmax, List.length_nil, Nat.zero_add]
        obtain ⟨buf', hput, hdata, hsize⟩ := AggBuf.exists_put hle
        rw [hbuf]
        refine ⟨_, by simp only [hput]; rfl, .started hskb (by rw [hdata, hnil]; rfl) ?_⟩
        rwa [hdata, hsize, List.length_append]
      · rw [allocSkb, if_neg halloc]
        exact ⟨_, rfl, .alone hskb⟩

/-! ## The invariant -/

/-- The pending buffer holds the frames of the open batch. -/
inductive Holds : Option AggBuf → List (List UInt8) → Prop
  | empty : Holds none []
  | pending {buf : AggBuf} {frames : List (List UInt8)} (hne : frames ≠ [])
      (hdata : buf.data = frames.flatten) (hle : buf.data.length ≤ buf.size) :
      Holds (some buf) frames

theorem Holds.eq_nil {frames : List (List UInt8)} (h : Holds none frames) : frames = [] := by
  cases h
  rfl

theorem Holds.flatten {buf : AggBuf} {frames : List (List UInt8)} (h : Holds (some buf) frames) :
    buf.data = frames.flatten ∧ buf.data.length ≤ buf.size := by
  cases h with
  | pending hne hdata hle => exact ⟨hdata, hle⟩

theorem Holds.eq_none {o : Option AggBuf} (h : Holds o []) : o = none := by
  cases h with
  | empty => rfl
  | pending hne => exact absurd rfl hne

/-- What holds of a call in progress. -/
def CallOk (L : AggLimits) (up : Uplink) : TxPc → Prop
  | .newPacket _ n => L.maxDatagrams ≠ 1 ∧ (n = 0 ∨ n = 1 ∧ up.aggSkb = none)
  | .handOn _ none => up.aggSkb = none
  | .handOn _ (some (_, n)) => up.aggSkb = none ∧ L.maxDatagrams ≠ 1 ∧ n = 1
  | _ => True

/-- The state matches a batch of frames. -/
structure Refines (L : AggLimits) (s : TxState κ) (b : Batch (List UInt8)) : Prop where
  panicked : s.panicked = false
  one_le : 1 ≤ L.maxDatagrams
  call : CallOk L s.up s.pc
  closed : (s.xmit ++ s.transit).map (fun sent ↦ (sent.limit, sent.data)) =
    b.closed.map fun g ↦ (g.1, g.2.flatten)
  sent_le : ∀ sent ∈ s.xmit ++ s.transit, sent.data.length ≤ sent.size
  bounded : b.Bounded
  holds : Holds s.up.aggSkb b.pending
  aggCount : s.up.aggCount = b.pending.length
  /-- The pending buffer may take one more datagram. -/
  room : b.pending.length + s.pc.slack ≤ L.maxDatagrams
  items : b.items ++ s.pc.waiting = s.queued

namespace Refines

variable {L : AggLimits} {s : TxState κ} {b : Batch (List UInt8)}

variable (h : Refines L s b)

include h

/-- Without a pending buffer the open batch is empty. -/
theorem pending_eq_nil (hskb : s.up.aggSkb = none) : b.pending = [] :=
  Holds.eq_nil (hskb ▸ h.holds)

/-- A pending buffer is the concatenation of the open batch. -/
theorem pending_flatten {buf : AggBuf} (hskb : s.up.aggSkb = some buf) :
    buf.data = b.pending.flatten ∧ buf.data.length ≤ buf.size :=
  Holds.flatten (hskb ▸ h.holds)

theorem pendingBytes_eq : s.pendingBytes = b.pending.flatten := by
  unfold TxState.pendingBytes
  cases hskb : s.up.aggSkb with
  | none =>
    rw [h.pending_eq_nil hskb]
    rfl
  | some buf => exact (h.pending_flatten hskb).1

/-- While a buffer is pending the call holds none. -/
theorem held_eq_none {buf : AggBuf} (hskb : s.up.aggSkb = some buf) : s.pc.held = none := by
  have hcall := h.call
  cases hpc : s.pc with
  | handOn sent rest =>
    rw [hpc] at hcall
    have hnone : s.up.aggSkb = none := by
      cases rest with
      | none => exact hcall
      | some rest => exact hcall.1
    cases hskb.symm.trans hnone
  | _ => rfl

/-- What is in flight, with one more buffer at its end, is matched by the batches with one more
closed. -/
theorem closed_flush (b' : Batch (List UInt8)) (sent : Sent)
    (hclosed : b'.closed = b.closed) (hlimit : sent.limit = L.maxDatagrams)
    (hdata : sent.data = b'.pending.flatten) :
    (s.xmit ++ s.transit ++ [sent]).map (fun sent ↦ (sent.limit, sent.data)) =
      (b'.flush L.maxDatagrams).closed.map fun g ↦ (g.1, g.2.flatten) := by
  rw [List.map_append, h.closed]
  simp [Batch.flush, hclosed, hlimit, hdata]

/-! ### Steps -/

/-- A buffer is detached by the call. -/
theorem detach (hheld : s.pc.held = none) (b' : Batch (List UInt8))
    {up : Uplink} {sent : Sent} {rest : Option (TxCall × ℕ)}
    (hclosed : b'.closed = b.closed) (hlen : b'.pending.length ≤ L.maxDatagrams)
    (hlimit : sent.limit = L.maxDatagrams) (hdata : sent.data = b'.pending.flatten)
    (hsize : sent.data.length ≤ sent.size) (hskb : up.aggSkb = none) (hcount : up.aggCount = 0)
    (hcall : CallOk L up (.handOn sent rest))
    (hitems : b'.items ++ (TxPc.handOn sent rest).waiting = s.queued) :
    Refines L { s with up := up, pc := .handOn sent rest } (b'.flush L.maxDatagrams) := by
  have hflight : s.xmit ++ (s.work.toList ++ [sent]) = s.xmit ++ s.transit ++ [sent] := by
    simp [TxState.transit, hheld]
  exact
    { panicked := h.panicked
      one_le := h.one_le
      call := hcall
      closed := by
        rw [← h.closed_flush b' sent hclosed hlimit hdata, ← hflight]
        rfl
      sent_le := by
        intro sent' hmem
        have hmem' : sent' ∈ s.xmit ++ s.transit ++ [sent] := hflight ▸ hmem
        rcases List.mem_append.mp hmem' with hmem' | hmem'
        · exact h.sent_le sent' hmem'
        · rw [List.mem_singleton.mp hmem']
          exact hsize
      bounded := Batch.Bounded.flush (by rw [Batch.Bounded, hclosed]; exact h.bounded) hlen
      holds := by
        rw [hskb]
        exact .empty
      aggCount := hcount
      room := h.one_le
      items := by rw [Batch.items_flush, hitems] }

/-- A frame is copied to the pending buffer. -/
theorem push {f : List UInt8} {buf : AggBuf} {pc : TxPc}
    (hheld : s.pc.held = none) (hheld' : pc.held = none) (hwaiting : s.pc.waiting = [f])
    (hwaiting' : pc.waiting = []) (hdata : buf.data = b.pending.flatten ++ f)
    (hle : buf.data.length ≤ buf.size) (hcall : CallOk L (s.up.count buf) pc)
    (hroom : b.pending.length + 1 + pc.slack ≤ L.maxDatagrams) :
    Refines L { s with up := s.up.count buf, pc := pc } (b.push f) := by
  have htransit : s.work.toList ++ pc.held.toList = s.transit := by
    rw [TxState.transit, hheld, hheld']
  exact
    { panicked := h.panicked
      one_le := h.one_le
      call := hcall
      closed := by
        have hclosed := h.closed
        rw [← htransit] at hclosed
        exact hclosed
      sent_le := by
        intro sent hmem
        exact h.sent_le sent (htransit ▸ hmem)
      bounded := h.bounded.push f
      holds := .pending (by simp [Batch.push]) (by simp [Batch.push, hdata]) hle
      aggCount := by simp [Uplink.count, Batch.push, h.aggCount]
      room := by simpa [Batch.push] using hroom
      items := by
        rw [hwaiting', List.append_nil, Batch.items_push, ← h.items, hwaiting] }

/-- The packet of the call goes out in its own buffer. -/
theorem alone {c : TxCall} (hwaiting : s.pc.waiting = [c.frame])
    (hheld : s.pc.held = none) (hskb : s.up.aggSkb = none) (now : Timespec64) :
    Refines L
      { s with up := { s.up with aggTime := now }, pc := .handOn (c.sent L.maxDatagrams) none }
      ((b.push c.frame).flush L.maxDatagrams) := by
  have hnil := h.pending_eq_nil hskb
  have hcount : s.up.aggCount = 0 := by rw [h.aggCount, hnil]; rfl
  refine h.detach hheld (b.push c.frame) rfl ?_ rfl ?_ le_rfl hskb hcount hskb ?_
  · simpa [Batch.push, hnil] using h.one_le
  · simp [Batch.push, hnil, TxCall.sent]
  · rw [← h.items, hwaiting, Batch.items_push]
    exact List.append_nil _

/-- A pass of the call. -/
theorem newPacket {c : TxCall} {n : ℕ} {r : Uplink × TxPc}
    (hpc : s.pc = .newPacket c n) (hcase : PassCase L s.up c n r) :
    ∃ b', Refines L { s with up := r.1, pc := r.2 } b' := by
  have hheld : s.pc.held = none := by rw [hpc]; rfl
  have hwaiting : s.pc.waiting = [c.frame] := by rw [hpc]; rfl
  have hroom := h.room
  have hitems := h.items
  have hcall := h.call
  rw [hpc] at hroom hcall
  rw [hwaiting] at hitems
  obtain ⟨hlim, hpasses⟩ := hcall
  cases hcase with
  | joined hskb hdata hle =>
    refine ⟨_, h.push hheld rfl hwaiting rfl ?_ hle trivial hroom⟩
    rw [hdata, (h.pending_flatten hskb).1]
  | retried hskb =>
    have hn : n + 1 = 1 := by
      rcases hpasses with rfl | ⟨-, hnone⟩
      · rfl
      · cases hskb.symm.trans hnone
    obtain ⟨hdata, hle⟩ := h.pending_flatten hskb
    exact ⟨_, h.detach hheld b rfl (Nat.le_of_lt hroom) rfl hdata hle rfl rfl ⟨rfl, hlim, hn⟩
      hitems⟩
  | started hskb hdata hle =>
    have hnil := h.pending_eq_nil hskb
    refine ⟨_, h.push hheld rfl hwaiting rfl (by rw [hdata, hnil]; rfl) hle trivial ?_⟩
    have hone := h.one_le
    simp only [hnil, List.length_nil, TxPc.slack]
    omega
  | alone hskb =>
    exact ⟨_, h.alone hwaiting hheld hskb _⟩

/-- The end of a pass that has copied the frame. -/
theorem afterCopy {P : AggParams} {c : TxCall} {n : ℕ} (hpc : s.pc = .copied c n) :
    ∃ b', Refines L { s with up := (afterCopy P L s.up c n).1, pc := (afterCopy P L s.up c n).2 }
      b' := by
  have hheld : s.pc.held = none := by rw [hpc]; rfl
  have hroom := h.room
  have hitems := h.items
  have hclosed := h.closed
  have hsent := h.sent_le
  rw [hpc] at hroom hitems
  rw [TxState.transit, hheld] at hclosed hsent
  unfold QmiWwanF.afterCopy
  split
  next buf hskb =>
    obtain ⟨hdata, hle⟩ := h.pending_flatten hskb
    split
    next => exact ⟨_, h.detach hheld b rfl hroom rfl hdata hle rfl rfl rfl hitems⟩
    next hready =>
      have hcount := h.aggCount
      simp only [Bool.or_eq_true, decide_eq_true_eq, not_or] at hready
      have hslack : b.pending.length + 1 ≤ L.maxDatagrams := by
        have hle : b.pending.length ≤ L.maxDatagrams := hroom
        have hne : b.pending.length ≠ L.maxDatagrams := hcount ▸ hready.1.2
        omega
      exact ⟨b, { h with call := trivial, closed := hclosed, sent_le := hsent, room := hslack,
                         items := hitems }⟩
  next hskb =>
    have hslack : b.pending.length + 1 ≤ L.maxDatagrams := by
      simpa [h.pending_eq_nil hskb] using h.one_le
    exact ⟨b, { h with call := trivial, closed := hclosed, sent_le := hsent, room := hslack,
                       items := hitems }⟩

/-- The call hands a buffer on, while the work holds none. -/
theorem handOn {sent : Sent} {rest : Option (TxCall × ℕ)}
    (hpc : s.pc = .handOn sent rest) (hwork : s.work = none) :
    Refines L { s with xmit := s.xmit ++ [sent], pc := .retry rest } b := by
  have hflight : s.xmit ++ s.transit = s.xmit ++ [sent] ++ (s.work.toList ++ []) := by
    simp [TxState.transit, hpc, hwork, TxPc.held]
  have hclosed := h.closed
  have hsent := h.sent_le
  have hcall := h.call
  have hroom := h.room
  have hitems := h.items
  rw [hflight] at hclosed hsent
  rw [hpc] at hcall hroom hitems
  rcases rest with _ | ⟨c, n⟩
  · exact { h with call := trivial, closed := hclosed, sent_le := hsent, room := hroom,
                   items := hitems }
  · exact { h with call := ⟨hcall.2.1, .inr ⟨hcall.2.2, hcall.1⟩⟩, closed := hclosed,
                   sent_le := hsent, room := hroom, items := hitems }

/-- A step of the call. -/
theorem step {V : TxPort}
    (horderly : match s.pc with
      | .newPacket c n => ¬ Overruns V.alloc V.params L s.up c n
      | .handOn _ _ => s.work = none
      | _ => True) :
    ∃ b', Refines L (s.step V L) b' := by
  unfold TxState.step
  cases hpc : s.pc with
  | idle => exact ⟨b, h⟩
  | entered c =>
    have hheld : s.pc.held = none := by rw [hpc]; rfl
    have hroom := h.room
    have hitems := h.items
    have hclosed := h.closed
    have hsent := h.sent_le
    rw [hpc] at hroom hitems
    rw [TxState.transit, hheld] at hclosed hsent
    dsimp only
    split
    next hone =>
      -- the limit is one: nothing is pending
      have hle : b.pending.length + 1 ≤ L.maxDatagrams := hroom
      have hnil : b.pending = [] := List.length_eq_zero_iff.mp (by omega)
      have hskb := Holds.eq_none (hnil ▸ h.holds)
      exact ⟨_, h.alone (by rw [hpc]; rfl) hheld hskb s.up.aggTime⟩
    next hlim =>
      exact ⟨b, { h with call := ⟨hlim, .inl rfl⟩, closed := hclosed, sent_le := hsent,
                         room := hroom, items := hitems }⟩
  | newPacket c n =>
    rw [hpc] at horderly
    obtain ⟨r, hr, hcase⟩ := newPacket_case horderly
    dsimp only
    rw [hr]
    exact h.newPacket hpc hcase
  | copied c n => exact h.afterCopy hpc
  | handOn sent rest =>
    rw [hpc] at horderly
    exact ⟨b, h.handOn hpc horderly⟩

/-- The limits change. -/
theorem setting {L' : AggLimits} (hle : L.maxDatagrams ≤ L'.maxDatagrams)
    (settings : κ) : Refines L' { s with settings := settings } b := by
  have hone := h.one_le
  have hcall := h.call
  refine { h with one_le := hone.trans hle, call := ?_, room := h.room.trans hle }
  have hne : L.maxDatagrams ≠ 1 → L'.maxDatagrams ≠ 1 := by omega
  dsimp only
  cases hpc : s.pc with
  | newPacket c n =>
    rw [hpc] at hcall
    exact ⟨hne hcall.1, hcall.2⟩
  | handOn sent rest =>
    rw [hpc] at hcall
    cases rest with
    | none => exact hcall
    | some rest => exact ⟨hcall.1, hne hcall.2.1, hcall.2.2⟩
  | _ => trivial

/-- A call begins. -/
theorem entered (hpc : s.pc = .idle) (c : TxCall) :
    Refines L { s with pc := .entered c, queued := s.queued ++ [c.frame] } b := by
  have hroom := h.room
  have hitems := h.items
  have hclosed := h.closed
  have hsent := h.sent_le
  have hheld : s.pc.held = none := by rw [hpc]; rfl
  rw [hpc] at hroom hitems
  rw [TxState.transit, hheld] at hclosed hsent
  refine { h with call := trivial, closed := hclosed, sent_le := hsent, room := hroom, items := ?_ }
  rw [← hitems]
  simp [TxPc.waiting]

/-- The work takes the pending buffer. -/
theorem workDetach (hwork : s.work = none) (now : Timespec64) :
    ∃ b', Refines L (s.workDetach L now) b' := by
  unfold TxState.workDetach
  split
  next => exact ⟨b, h⟩
  next buf hskb =>
    have hheld := h.held_eq_none hskb
    obtain ⟨hdata, hle⟩ := h.pending_flatten hskb
    have hflight : s.xmit ++ ([buf.sent L.maxDatagrams] ++ s.pc.held.toList) =
        s.xmit ++ s.transit ++ [buf.sent L.maxDatagrams] := by
      simp [TxState.transit, hheld, hwork]
    refine ⟨b.flush L.maxDatagrams, { h with
      call := ?_
      closed := ?_
      sent_le := ?_
      bounded := h.bounded.flush (Nat.le_of_add_right_le h.room)
      holds := .empty
      aggCount := rfl
      room := ?_
      items := ?_ }⟩
    · cases hpc' : s.pc with
      | newPacket c n =>
        have hcall := h.call
        rw [hpc'] at hcall
        exact ⟨hcall.1, hcall.2.imp_right fun hn ↦ ⟨hn.1, rfl⟩⟩
      | handOn sent rest =>
        rw [hpc'] at hheld
        cases hheld
      | _ => trivial
    · rw [← h.closed_flush b (buf.sent L.maxDatagrams) rfl rfl hdata, ← hflight]
      rfl
    · intro sent hmem
      have hmem' : sent ∈ s.xmit ++ s.transit ++ [buf.sent L.maxDatagrams] := hflight ▸ hmem
      rcases List.mem_append.mp hmem' with hmem' | hmem'
      · exact h.sent_le sent hmem'
      · rw [List.mem_singleton.mp hmem']
        exact hle
    · have hslack : s.pc.slack ≤ 1 := by cases s.pc <;> simp [TxPc.slack]
      have hone := h.one_le
      simp only [Batch.flush, List.length_nil]
      omega
    · rw [Batch.items_flush]
      exact h.items

/-- The work hands its buffer on. -/
theorem workXmit : Refines L { s with xmit := s.xmit ++ s.work.toList, work := none } b := by
  have hflight : s.xmit ++ s.transit =
      s.xmit ++ s.work.toList ++ ((none : Option Sent).toList ++ s.pc.held.toList) := by
    simp [TxState.transit]
  have hclosed := h.closed
  have hsent := h.sent_le
  rw [hflight] at hclosed hsent
  exact { h with closed := hclosed, sent_le := hsent }

end Refines

/-! ## Every run -/

/-- The law, of a state that matches a batch of frames. -/
theorem Refines.lawful {L : AggLimits} {s : TxState κ} {b : Batch (List UInt8)}
    (h : Refines L s b) : s.Lawful where
  conserves := by
    rintro ⟨hpc, hwork⟩
    have hclosed := h.closed
    have hitems := h.items
    rw [TxState.transit, hpc, hwork] at hclosed
    rw [hpc] at hitems
    simp only [TxPc.held, TxPc.waiting, Option.toList_none, List.append_nil] at hclosed hitems
    have hbytes : s.xmit.map Sent.data = b.closed.map fun g ↦ g.2.flatten := by
      have hsnd := congrArg (List.map Prod.snd) hclosed
      rw [List.map_map, List.map_map] at hsnd
      exact hsnd
    refine ⟨?_, b.closed.map Prod.snd, b.pending, ?_, h.pendingBytes_eq, h.aggCount.symm, hitems⟩
    · rw [h.pendingBytes_eq, hbytes, ← hitems, Batch.items]
      simp [List.flatten_flatten, Function.comp_def]
    · have hforall : List.Forall₂ (· = ·) (s.xmit.map fun sent ↦ (sent.limit, sent.data))
          (b.closed.map fun g ↦ (g.1, g.2.flatten)) := List.forall₂_eq_eq_eq ▸ hclosed
      rw [List.forall₂_map_left_iff, List.forall₂_map_right_iff] at hforall
      rw [List.forall₂_map_right_iff]
      refine ((List.forall₂_and_left _ _).mpr ⟨h.bounded, hforall.flip⟩).flip.imp ?_
      rintro sent g ⟨hle, heq⟩
      obtain ⟨hlimit, hdata⟩ := Prod.ext_iff.mp heq
      exact ⟨hdata, hle.trans (Nat.le_of_eq hlimit.symm)⟩
  panicked := h.panicked
  pending_le _ hskb := (h.pending_flatten hskb).2
  sent_le := h.sent_le
  passes c n hpc := by
    have hcall := h.call
    rw [hpc] at hcall
    rcases hcall.2 with rfl | ⟨rfl, -⟩ <;> decide

theorem step_settings (V : TxPort) (L : AggLimits) (s : TxState κ) :
    (s.step V L).settings = s.settings := by
  unfold TxState.step
  split
  next => rfl
  next => rfl
  next => split <;> rfl
  next => rfl
  next => rfl

theorem workDetach_settings (L : AggLimits) (s : TxState κ) (now : Timespec64) :
    (s.workDetach L now).settings = s.settings := by
  unfold TxState.workDetach
  split <;> rfl

/-- A step that is orderly leads from matched states to matched states. -/
theorem txSystem_step {V : TxPort} {D : TxDriver κ ε} {s : TxState κ} {e : TxEvent ε}
    {b : Batch (List UInt8)} (h : Refines (D.limits s.settings) s b)
    (henabled : (txSystem V D).enabled s e) (horderly : TxOrderly V D s e) :
    ∃ b', Refines (D.limits ((txSystem V D).next s e).settings) ((txSystem V D).next s e) b' := by
  cases e with
  | setting e => exact ⟨b, h.setting (D.limit_le _ e) _⟩
  | startXmit p =>
    simp only [txSystem]
    split
    next => exact ⟨b, h⟩
    next c _ => exact ⟨b, h.entered (TxPc.eq_idle henabled.2.1) c⟩
  | step =>
    obtain ⟨b', h'⟩ := h.step (V := V) horderly
    have hsettings : ((txSystem V D).next s .step).settings = s.settings := step_settings V _ s
    rw [hsettings]
    exact ⟨b', h'⟩
  | work now =>
    obtain ⟨b', h'⟩ := h.workDetach henabled.2.1 now
    have hsettings : ((txSystem V D).next s (.work now)).settings = s.settings :=
      workDetach_settings _ s now
    rw [hsettings]
    exact ⟨b', h'⟩
  | workXmit => exact ⟨b, h.workXmit⟩

/-- Between calls nothing is lost or put where there is no room for it, in every run without an
overrun and without a call that overtakes the work. -/
theorem txSystem_lawful (V : TxPort) (D : TxDriver κ ε) {s : TxState κ}
    (hs : (txSystem V D).Reach (TxOrderly V D) s) : s.Lawful := by
  have hinv : ∃ b, Refines (D.limits s.settings) s b := by
    refine hs.invariant (I := fun s ↦ ∃ b, Refines (D.limits s.settings) s b) ?_ ?_
    · exact ⟨.empty,
        { panicked := rfl
          one_le := D.one_le_start
          call := trivial
          closed := rfl
          sent_le := by
            intro sent hmem
            cases hmem
          bounded := by
            intro g hg
            cases hg
          holds := .empty
          aggCount := rfl
          room := D.one_le_start
          items := rfl }⟩
    · rintro s e ⟨b, hb⟩ henabled horderly
      exact txSystem_step hb henabled horderly
  obtain ⟨b, hb⟩ := hinv
  exact hb.lawful

end Wwan.QmiWwanF
