import Mathlib.Data.Int.Notation
import Wwan.Lib.RingWindow
import Wwan.Lib.Transition

/-!
# Reading the MHI character device

`mhi_queue_inbound` allocates one buffer more than it queues to the device. A buffer that has been
read is not queued again itself: for buffer `i` the driver queues buffer `i - 1`, the one that was
spare, so that the buffers of the ring keep their order. `mhi_dl_xfer_cb` counts along and accepts
only the buffer that is next.

For the DUN, QMI and MBIM channels the callback copies the data and queues a buffer at once; for the
others the buffer itself waits for the reader. Either way the pages that wait and the buffers that
are queued are successive ones of the ring. A completion of no bytes, or of more than the `mtu`,
moves the counter on but queues nothing, and that descriptor is lost; the others are accounted for
(`lawful_iff`).
-/

namespace Wwan.MhiUci

/-- A `struct uci_buf` that waits to be read: one of the ring, or a copy of its data. -/
inductive UciBuf
  | page (nrTrb : ℕ)
  | copy (data : List UInt8)
  deriving DecidableEq

/-- The ring index of a buffer that has a page. -/
def UciBuf.page? : UciBuf → Option ℕ
  | .page i => some i
  | .copy _ => none

/-- `struct uci_dev`, with what is queued to the device. -/
structure UciDev where
  mtu : ℕ
  /-- `dl_chan_id` is that of DUN, QMI or MBIM. -/
  copied : Bool
  refCount : ℕ
  nrTrbs : ℕ
  /-- The buffer whose completion is next. -/
  nrTrb : ℕ
  /-- The data of the buffers of the ring, as long as their `len`. -/
  data : ℕ → List UInt8
  pending : List UciBuf
  curBuf : Option UciBuf
  rxSize : ℕ
  rxError : ℕ
  /-- `mhi_uci_read` is about to copy from `curBuf`. -/
  reading : Bool
  /-- The buffers queued to the device. -/
  queue : List ℕ
  /-- The bytes of the completions of one to `mtu` bytes. -/
  received : List UInt8
  /-- The bytes that reads have returned. -/
  returned : List UInt8

namespace UciDev

/-- The bytes of a buffer. -/
def bytes (s : UciDev) : UciBuf → List UInt8
  | .page i => s.data i
  | .copy data => data

/-- The buffer before a buffer in the ring. -/
def before (s : UciDev) (i : ℕ) : ℕ := if i ≠ 0 then i - 1 else s.nrTrbs - 1

/-- `mhi_queue_transfer`. -/
def mhiQueueTransfer (s : UciDev) (i : ℕ) : UciDev := { s with queue := s.queue ++ [i] }

/-- `mhi_dl_xfer_cb`, for a transfer into the buffer `bufAddr`. -/
def mhiDlXferCb (s : UciDev) (bufAddr : ℕ) (transactionStatus : ℤ) (bytesXferd : ℕ) : UciDev :=
  if bufAddr ≠ s.nrTrb then { s with rxError := s.rxError + 1 }
  else
    let s := { s with nrTrb := if s.nrTrb + 1 = s.nrTrbs then 0 else s.nrTrb + 1 }
    -- `-ENOTCONN`
    if transactionStatus = -107 then s
    else if bytesXferd > s.mtu ∨ bytesXferd = 0 then s
    else if s.copied then
      let s := if s.refCount = 1 then s
        else { s with pending := s.pending ++ [.copy (s.data bufAddr)] }
      s.mhiQueueTransfer (s.before bufAddr)
    else { s with pending := s.pending ++ [.page bufAddr] }

/-- The device writes into its next buffer and completes it. -/
def complete (s : UciDev) (data : List UInt8) : UciDev :=
  match s.queue with
  | [] => s
  | i :: queue =>
    { s with
      queue := queue
      data := Function.update s.data i data
      received := if 0 < data.length ∧ data.length ≤ s.mtu then s.received ++ data
        else s.received }.mhiDlXferCb i 0 data.length

/-- `mhi_uci_read` up to the copy: it takes the next buffer, if it has none. -/
def readPick (s : UciDev) : UciDev :=
  match s.curBuf, s.pending with
  | none, uciBuf :: pending =>
    { s with
      pending := pending
      curBuf := some uciBuf
      rxSize := (s.bytes uciBuf).length
      reading := true }
  | _, _ => { s with reading := true }

/-- The bytes of the current buffer that have not been read. -/
def rest (s : UciDev) : List UInt8 :=
  match s.curBuf with
  | some uciBuf => (s.bytes uciBuf).drop ((s.bytes uciBuf).length - s.rxSize)
  | none => []

/-- The end of a buffer that has been read. -/
def recycle (s : UciDev) : UciBuf → UciDev
  | .page i => { s with curBuf := none }.mhiQueueTransfer (s.before i)
  | .copy _ => { s with curBuf := none }

/-- `mhi_uci_read` from the copy on. -/
def readCopy (s : UciDev) (count : ℕ) : UciDev :=
  match s.curBuf with
  | none => { s with reading := false }
  | some uciBuf =>
    let toCopy := min count s.rxSize
    let s := { s with
      reading := false
      returned := s.returned ++ s.rest.take toCopy
      rxSize := s.rxSize - toCopy }
    if s.rxSize = 0 then s.recycle uciBuf else s

end UciDev

inductive Event
  | /-- A transfer of these bytes into the next buffer. -/
    complete (data : List UInt8)
  | readPick
  | readCopy (count : ℕ)
  deriving DecidableEq

def Event.next (s : UciDev) : Event → UciDev
  | .complete data => s.complete data
  | .readPick => s.readPick
  | .readCopy count => s.readCopy count

/-- A read that finds nothing waits, or returns without an effect, as it does after an error. Reads
come one at a time, as they hold `r_mutex`. -/
def Event.Enabled (s : UciDev) : Event → Prop
  | .complete _ => s.queue ≠ []
  | .readPick => s.reading = false ∧ s.rxError = 0 ∧ (s.curBuf ≠ none ∨ s.pending ≠ [])
  | .readCopy count => s.reading = true ∧ 0 < count

/-- A device that is open, after `mhi_queue_inbound` found `n` free descriptors: `others` is the
number of open files beyond the first. -/
def UciDev.init (n mtu : ℕ) (copied : Bool) (others : ℕ) : UciDev where
  mtu := mtu
  copied := copied
  -- that of `QUEC_MHI_UCI_ALWAYS_OPEN`, and that of the first open file
  refCount := others + 2
  nrTrbs := n + 1
  nrTrb := 0
  data _ := []
  pending := []
  curBuf := none
  rxSize := 0
  rxError := 0
  reading := false
  queue := List.range n
  received := []
  returned := []

/-- The runs of a device that stays open. -/
def uciSystem (n mtu : ℕ) (copied : Bool) (others : ℕ) : System UciDev Event :=
  ⟨.init n mtu copied others, Event.Enabled, Event.next⟩

/-! ## What is to hold -/

namespace UciDev

/-- The buffers that wait, the current one first. -/
def waiting (s : UciDev) : List UciBuf := s.curBuf.toList ++ s.pending

/-- The pages that wait. -/
def pages (s : UciDev) : List ℕ := s.waiting.filterMap UciBuf.page?

/-- The bytes received are returned in order; no buffer that waits is queued to the device; no
transfer has been refused; and no descriptor is lost. -/
structure Lawful (n : ℕ) (s : UciDev) : Prop where
  returned : s.returned <+: s.received
  apart : ∀ i ∈ s.queue, UciBuf.page i ∉ s.waiting
  rxError : s.rxError = 0
  descriptors : s.queue.length + s.pages.length = n

end UciDev

/-- Transfers have at least one byte, and at most `mtu`. -/
def Event.Orderly (s : UciDev) : Event → Prop
  | .complete data => 0 < data.length ∧ data.length ≤ s.mtu
  | _ => True

/-! ## The ring -/

namespace UciDev

variable {s : UciDev} {n : ℕ}

theorem before_eq_pred (hnr : s.nrTrbs = n + 1) {i : ℕ} (hi : i < n + 1) :
    s.before i = Ring.pred (n + 1) i := by
  unfold before
  rw [hnr]
  rcases Ring.pred_cases hi with ⟨hpos, h⟩ | ⟨hzero, h⟩
  · rw [if_pos (Nat.ne_of_gt hpos), h]
  · rw [if_neg (not_not.mpr hzero), h]

/-- The first of `n` buffers in a row leaves, and the spare one follows the last. -/
theorem slots_shift {b i : ℕ} {xs : List ℕ} (h : i :: xs = Ring.slots (n + 1) b n) :
    xs ++ [Ring.pred (n + 1) i] = Ring.slots (n + 1) (b + 1) n := by
  cases n with
  | zero => cases h
  | succ n =>
    rw [Ring.slots_succ] at h
    obtain ⟨rfl, rfl⟩ := List.cons.inj h
    have hpred : Ring.pred (n + 1 + 1) (b % (n + 1 + 1)) = (b + 1 + n) % (n + 1 + 1) := by
      unfold Ring.pred
      rw [Nat.add_sub_assoc (Nat.le_add_left 1 _), Nat.mod_add_mod]
      congr 1
      omega
    rw [Ring.slots_snoc, hpred]

/-- The counter follows the ring. -/
theorem nrTrb_succ {a : ℕ} (h : s.nrTrb = a % (n + 1)) :
    (if s.nrTrb + 1 = n + 1 then 0 else s.nrTrb + 1) = (a + 1) % (n + 1) := by
  have hpos : 0 < n + 1 := Nat.succ_pos n
  have hlt : a % (n + 1) < n + 1 := Nat.mod_lt a hpos
  rw [Ring.succ_mod hpos, h]
  split
  next heq => rw [if_pos heq.ge]
  next hne => rw [if_neg (by omega)]

/-- What holds of the device while transfers are orderly. -/
structure Inv (n : ℕ) (s : UciDev) : Prop where
  nrTrbs : s.nrTrbs = n + 1
  refCount : s.refCount ≠ 1
  rxError : s.rxError = 0
  ring : ∃ b, s.pages ++ s.queue = Ring.slots (n + 1) b n ∧
    s.nrTrb = (b + s.pages.length) % (n + 1)
  copied : s.copied = true → s.pages = []
  nonempty : ∀ uciBuf ∈ s.waiting, s.bytes uciBuf ≠ []
  current : ∀ uciBuf, s.curBuf = some uciBuf → 0 < s.rxSize ∧
    s.rxSize ≤ (s.bytes uciBuf).length
  received : s.received = s.returned ++ s.rest ++ s.pending.flatMap s.bytes
  reading : s.reading = true → s.curBuf ≠ none

theorem mem_pages {i : ℕ} (h : UciBuf.page i ∈ s.waiting) : i ∈ s.pages :=
  List.mem_filterMap.mpr ⟨.page i, h, rfl⟩

namespace Inv

theorem nodup (h : s.Inv n) : (s.pages ++ s.queue).Nodup := by
  obtain ⟨b, hslots, -⟩ := h.ring
  rw [hslots]
  exact Ring.nodup_slots (Nat.le_succ n)

theorem lawful (h : s.Inv n) : s.Lawful n where
  returned := ⟨_, by rw [h.received, List.append_assoc]⟩
  apart i hi hwaiting := (List.nodup_append.mp h.nodup).2.2 i (mem_pages hwaiting) i hi rfl
  rxError := h.rxError
  descriptors := by
    obtain ⟨b, hslots, -⟩ := h.ring
    have hlength := congrArg List.length hslots
    rw [List.length_append, Ring.length_slots] at hlength
    omega

/-- The transfer is into the buffer that is next. -/
theorem head (h : s.Inv n) {i : ℕ} {queue : List ℕ} (hqueue : s.queue = i :: queue) :
    i = s.nrTrb ∧ i < n + 1 ∧ i ∉ s.pages := by
  obtain ⟨b, hslots, hnrTrb⟩ := h.ring
  have hi : i = s.nrTrb := by
    have hget := congrArg (fun l ↦ l[s.pages.length]?) hslots
    have hlt : s.pages.length < n := by
      have hlength := congrArg List.length hslots
      rw [List.length_append, Ring.length_slots, hqueue, List.length_cons] at hlength
      omega
    rw [hnrTrb]
    simpa [hqueue, Ring.getElem?_slots hlt] using hget
  refine ⟨hi, ?_, fun hpage ↦ ?_⟩
  · rw [hi, hnrTrb]
    exact Nat.mod_lt _ (Nat.succ_pos n)
  · refine (List.nodup_append.mp h.nodup).2.2 i hpage i ?_ rfl
    rw [hqueue]
    exact List.mem_cons_self

end Inv

/-! ## Transfers -/

theorem bytes_update {i : ℕ} {data : List UInt8} {uciBuf : UciBuf} (h : uciBuf ≠ .page i) :
    bytes { s with data := Function.update s.data i data } uciBuf = s.bytes uciBuf := by
  cases uciBuf with
  | copy data => rfl
  | page j => exact Function.update_of_ne (fun hj ↦ h (congrArg UciBuf.page hj)) _ _

/-- A transfer into another buffer leaves what is to be read of the current one. -/
theorem rest_update {i : ℕ} {data : List UInt8}
    (h : ∀ uciBuf, s.curBuf = some uciBuf →
      bytes { s with data := Function.update s.data i data } uciBuf = s.bytes uciBuf) :
    rest { s with data := Function.update s.data i data } = s.rest := by
  unfold rest
  cases hcur : s.curBuf with
  | none => rfl
  | some uciBuf =>
    change (bytes { s with data := Function.update s.data i data } uciBuf).drop
      ((bytes { s with data := Function.update s.data i data } uciBuf).length - s.rxSize) = _
    rw [h uciBuf hcur]

section Complete

variable {i : ℕ} {queue : List ℕ} {data : List UInt8}
variable (h : s.Inv n) (hqueue : s.queue = i :: queue)

include h hqueue

/-- A transfer that does not count the bytes it should. -/
theorem complete_of_not_orderly (hdata : ¬Event.Orderly s (.complete data)) :
    ¬(s.complete data).Lawful n := by
  intro hlawful
  obtain ⟨hi, -, -⟩ := h.head hqueue
  have hbad : data.length > s.mtu ∨ data.length = 0 := by
    by_contra hgood
    push Not at hgood
    exact hdata ⟨Nat.pos_of_ne_zero hgood.2, hgood.1⟩
  have hstate : (s.complete data).queue = queue ∧ (s.complete data).pages = s.pages := by
    unfold complete mhiDlXferCb
    rw [hqueue]
    dsimp only
    rw [if_neg (not_not.mpr hi), if_neg (by decide), if_pos hbad]
    exact ⟨rfl, rfl⟩
  have hcount := hlawful.descriptors
  have hbefore := h.lawful.descriptors
  rw [hstate.1, hstate.2] at hcount
  rw [hqueue, List.length_cons] at hbefore
  omega

variable (hdata : Event.Orderly s (.complete data))

include hdata

/-- What an orderly transfer does: the data waits to be read, and it is a copy and another buffer
has been queued, or the buffer itself. -/
theorem complete_of_orderly :
    s.complete data =
      { s with
        nrTrb := if s.nrTrb + 1 = n + 1 then 0 else s.nrTrb + 1
        data := Function.update s.data i data
        received := s.received ++ data
        pending := s.pending ++ [if s.copied then .copy data else .page i]
        queue := if s.copied then queue ++ [Ring.pred (n + 1) i] else queue } := by
  obtain ⟨hi, hlt, -⟩ := h.head hqueue
  have hgood : 0 < data.length ∧ data.length ≤ s.mtu := hdata
  have hbefore := before_eq_pred h.nrTrbs hlt
  unfold complete mhiDlXferCb
  rw [hqueue]
  dsimp only
  rw [if_neg (not_not.mpr hi), if_neg (by decide),
    if_neg (not_or.mpr ⟨Nat.not_lt.mpr hgood.2, Nat.ne_of_gt hgood.1⟩), if_pos hgood]
  unfold mhiQueueTransfer
  cases hcopied : s.copied with
  | true =>
    rw [if_pos rfl, if_pos rfl, if_pos rfl, if_neg h.refCount]
    dsimp only
    rw [Function.update_self, ← hbefore, ← h.nrTrbs]
    rfl
  | false =>
    rw [if_neg Bool.false_ne_true, if_neg Bool.false_ne_true, if_neg Bool.false_ne_true,
      ← h.nrTrbs]

/-- The ring after an orderly transfer. -/
theorem Inv.complete_ring :
    ∃ b, (s.complete data).pages ++ (s.complete data).queue = Ring.slots (n + 1) b n ∧
      (s.complete data).nrTrb = (b + (s.complete data).pages.length) % (n + 1) := by
  obtain ⟨b, hslots, hnrTrb⟩ := h.ring
  have hnext := nrTrb_succ hnrTrb
  rw [complete_of_orderly h hqueue hdata]
  unfold pages waiting
  dsimp only
  rw [← List.append_assoc, List.filterMap_append]
  change ∃ b, s.pages ++ _ ++ _ = _ ∧ _ = (b + (s.pages ++ _).length) % (n + 1)
  rw [hqueue] at hslots
  cases hcopied : s.copied with
  | false =>
    refine ⟨b, ?_, hnext.trans ?_⟩
    · rw [← hslots, List.append_assoc]
      rfl
    · rw [List.length_append]
      rfl
  | true =>
    rw [h.copied hcopied] at hslots hnext ⊢
    exact ⟨b + 1, slots_shift hslots, hnext⟩

theorem Inv.complete : (s.complete data).Inv n := by
  obtain ⟨-, -, hpage⟩ := h.head hqueue
  have hring := h.complete_ring hqueue hdata
  have hgood : 0 < data.length ∧ data.length ≤ s.mtu := hdata
  have hbytes : ∀ uciBuf ∈ s.waiting,
      bytes { s with data := Function.update s.data i data } uciBuf = s.bytes uciBuf := by
    intro uciBuf hwaiting
    refine bytes_update ?_
    rintro rfl
    exact hpage (mem_pages hwaiting)
  have hcurrent : ∀ uciBuf, s.curBuf = some uciBuf →
      bytes { s with data := Function.update s.data i data } uciBuf = s.bytes uciBuf := by
    intro uciBuf hcur
    refine hbytes uciBuf (List.mem_append_left _ ?_)
    rw [hcur]
    exact List.mem_singleton_self uciBuf
  have hnew : bytes { s with data := Function.update s.data i data }
      (if s.copied then .copy data else .page i) = data := by
    split
    · rfl
    · exact Function.update_self i data s.data
  have hpending : s.pending.flatMap (bytes { s with data := Function.update s.data i data }) =
      s.pending.flatMap s.bytes :=
    List.flatMap_congr fun uciBuf hmem ↦ hbytes uciBuf (List.mem_append_right _ hmem)
  rw [complete_of_orderly h hqueue hdata] at hring ⊢
  refine ⟨h.nrTrbs, h.refCount, h.rxError, hring, fun hcopied ↦ ?_, fun uciBuf hmem ↦ ?_,
    fun uciBuf hcur ↦ ?_, ?_, h.reading⟩
  · have hnone := h.copied hcopied
    unfold pages waiting at hnone ⊢
    dsimp only
    rw [← List.append_assoc, List.filterMap_append, hnone, if_pos hcopied]
    rfl
  · have hmem : uciBuf ∈ s.waiting ++ [if s.copied then .copy data else .page i] := by
      unfold waiting
      rw [List.append_assoc]
      exact hmem
    change bytes { s with data := Function.update s.data i data } uciBuf ≠ []
    rcases List.mem_append.mp hmem with hold | hlast
    · rw [hbytes uciBuf hold]
      exact h.nonempty uciBuf hold
    · rw [List.mem_singleton.mp hlast, hnew]
      exact List.ne_nil_of_length_pos hgood.1
  · change 0 < s.rxSize ∧
      s.rxSize ≤ (bytes { s with data := Function.update s.data i data } uciBuf).length
    rw [hcurrent uciBuf hcur]
    exact h.current uciBuf hcur
  · have hrest := rest_update hcurrent
    change s.received ++ data =
      s.returned ++ rest { s with data := Function.update s.data i data } ++
      (s.pending ++ [_]).flatMap (bytes { s with data := Function.update s.data i data })
    rw [hrest, List.flatMap_append, hpending, List.flatMap_singleton, hnew, h.received,
      List.append_assoc]

end Complete

/-! ## Reads -/

theorem Inv.readPick (h : s.Inv n) (hsome : s.curBuf ≠ none ∨ s.pending ≠ []) :
    s.readPick.Inv n := by
  unfold UciDev.readPick
  split
  next uciBuf pending hcur hpending =>
    have hwaiting : s.waiting = uciBuf :: pending := by
      unfold waiting
      rw [hcur, hpending]
      rfl
    have hne := h.nonempty uciBuf (by
      rw [hwaiting]
      exact List.mem_cons_self)
    have hring := h.ring
    have hcopied := h.copied
    have hnonempty := h.nonempty
    unfold pages at hring hcopied
    rw [hwaiting] at hring hcopied hnonempty
    refine ⟨h.nrTrbs, h.refCount, h.rxError, hring, hcopied, hnonempty, fun x hx ↦ ?_, ?_,
      fun _ ↦ Option.some_ne_none uciBuf⟩
    · obtain rfl := Option.some.inj hx
      exact ⟨List.length_pos_of_ne_nil hne, le_rfl⟩
    · have hreceived := h.received
      unfold rest at hreceived
      rw [hcur, hpending, List.append_nil] at hreceived
      change s.received = s.returned ++ (s.bytes uciBuf).drop ((s.bytes uciBuf).length -
        (s.bytes uciBuf).length) ++ pending.flatMap s.bytes
      rw [Nat.sub_self, List.drop_zero, List.append_assoc]
      exact hreceived
  next hnone =>
    refine ⟨h.nrTrbs, h.refCount, h.rxError, h.ring, h.copied, h.nonempty, h.current, h.received,
      fun _ hcur ↦ ?_⟩
    rcases hsome with hsome | hsome
    · exact hsome hcur
    · obtain ⟨uciBuf, pending, hpending⟩ := List.exists_cons_of_ne_nil hsome
      exact hnone uciBuf pending hcur hpending

/-- A buffer that has been read leaves, and the spare one is queued if it was one of the ring. -/
theorem Inv.recycle (h : s.Inv n) {uciBuf : UciBuf} (hcur : s.curBuf = some uciBuf)
    {returned : List UInt8} (hreturned : returned = s.returned ++ s.rest) (rxSize : ℕ) :
    (UciDev.recycle { s with reading := false, returned := returned, rxSize := rxSize }
      uciBuf).Inv n := by
  have hwaiting : s.waiting = uciBuf :: s.pending := by
    unfold waiting
    rw [hcur]
    rfl
  have hnonempty : ∀ x ∈ s.pending, s.bytes x ≠ [] := by
    intro x hx
    refine h.nonempty x ?_
    rw [hwaiting]
    exact List.mem_cons_of_mem _ hx
  have hreceived : s.received = returned ++ [] ++ s.pending.flatMap s.bytes := by
    rw [hreturned, List.append_nil]
    exact h.received
  obtain ⟨b, hslots, hnrTrb⟩ := h.ring
  have hcopied := h.copied
  unfold pages at hslots hnrTrb hcopied
  rw [hwaiting] at hslots hnrTrb hcopied
  cases uciBuf with
  | copy data =>
    refine ⟨h.nrTrbs, h.refCount, h.rxError, ⟨b, hslots, hnrTrb⟩, hcopied, hnonempty, ?_,
      hreceived, ?_⟩
    · rintro x ⟨⟩
    · rintro ⟨⟩
  | page i =>
    change i :: (s.pending.filterMap UciBuf.page? ++ s.queue) = _ at hslots
    change _ = (b + (i :: s.pending.filterMap UciBuf.page?).length) % (n + 1) at hnrTrb
    have hi : i < n + 1 := by
      have hmem : i ∈ Ring.slots (n + 1) b n := by
        rw [← hslots]
        exact List.mem_cons_self
      obtain ⟨a, -, -, rfl⟩ := Ring.mem_slots.mp hmem
      exact Nat.mod_lt a (Nat.succ_pos n)
    have hring := slots_shift hslots
    rw [← before_eq_pred h.nrTrbs hi, List.append_assoc] at hring
    rw [List.length_cons, Nat.add_comm _ 1, ← Nat.add_assoc] at hnrTrb
    refine ⟨h.nrTrbs, h.refCount, h.rxError, ⟨b + 1, hring, hnrTrb⟩, fun hc ↦ ?_, hnonempty, ?_,
      hreceived, ?_⟩
    · exact absurd (hcopied hc) (List.cons_ne_nil i _)
    · rintro x ⟨⟩
    · rintro ⟨⟩

theorem Inv.readCopy (h : s.Inv n) (count : ℕ) : (s.readCopy count).Inv n := by
  unfold UciDev.readCopy
  split
  next hcur =>
    refine ⟨h.nrTrbs, h.refCount, h.rxError, h.ring, h.copied, h.nonempty, h.current, h.received,
      ?_⟩
    rintro ⟨⟩
  next uciBuf hcur =>
    obtain ⟨-, hle⟩ := h.current uciBuf hcur
    have hrest : s.rest = (s.bytes uciBuf).drop ((s.bytes uciBuf).length - s.rxSize) := by
      unfold rest
      rw [hcur]
    have hlength : s.rest.length = s.rxSize := by
      rw [hrest, List.length_drop]
      omega
    dsimp only
    split
    next hzero =>
      refine h.recycle hcur ?_ _
      rw [List.take_of_length_le]
      omega
    next hpos =>
      refine ⟨h.nrTrbs, h.refCount, h.rxError, h.ring, h.copied, h.nonempty, fun x hx ↦ ?_, ?_, ?_⟩
      · obtain rfl : uciBuf = x := Option.some.inj (hcur.symm.trans hx)
        exact ⟨Nat.pos_of_ne_zero hpos, (Nat.sub_le _ _).trans hle⟩
      · -- what was not copied is still to be read
        have hafter : rest { s with
            reading := false
            returned := s.returned ++ s.rest.take (min count s.rxSize)
            rxSize := s.rxSize - min count s.rxSize } = s.rest.drop (min count s.rxSize) := by
          unfold rest
          dsimp only
          rw [hcur]
          change (s.bytes uciBuf).drop ((s.bytes uciBuf).length - (s.rxSize - min count s.rxSize)) =
            ((s.bytes uciBuf).drop ((s.bytes uciBuf).length - s.rxSize)).drop (min count s.rxSize)
          rw [List.drop_drop]
          congr 1
          omega
        change s.received = s.returned ++ s.rest.take (min count s.rxSize) ++ rest _ ++
          s.pending.flatMap s.bytes
        rw [hafter, List.append_assoc s.returned, List.take_append_drop]
        exact h.received
      · rintro ⟨⟩

/-! ## Runs -/

theorem Inv.init (n mtu : ℕ) (copied : Bool) (others : ℕ) :
    (UciDev.init n mtu copied others).Inv n := by
  refine ⟨rfl, ?_, rfl, ⟨0, ?_, rfl⟩, fun _ ↦ rfl, ?_, ?_, rfl, ?_⟩
  · change others + 2 ≠ 1
    omega
  · change List.range n = (List.range' 0 n).map (· % (n + 1))
    rw [← List.range_eq_range']
    refine (List.map_congr_left fun i hi ↦ ?_).trans (List.map_id _) |>.symm
    exact Nat.mod_eq_of_lt ((List.mem_range.mp hi).trans (Nat.lt_succ_self n))
  · rintro x ⟨⟩
  · rintro x ⟨⟩
  · rintro ⟨⟩

/-- A step keeps the invariant if it is orderly, and the law only then. -/
theorem Inv.next_iff (h : s.Inv n) {e : Event} (henabled : Event.Enabled s e) :
    ((e.next s).Lawful n ↔ Event.Orderly s e) ∧ (Event.Orderly s e → (e.next s).Inv n) := by
  cases e with
  | complete data =>
    obtain ⟨i, queue, hqueue⟩ := List.exists_cons_of_ne_nil henabled
    refine ⟨⟨fun hlawful ↦ ?_, fun horderly ↦ (h.complete hqueue horderly).lawful⟩,
      h.complete hqueue⟩
    by_contra hdata
    exact complete_of_not_orderly h hqueue hdata hlawful
  | readPick =>
    have hnext := h.readPick henabled.2.2
    exact ⟨iff_of_true hnext.lawful trivial, fun _ ↦ hnext⟩
  | readCopy count =>
    have hnext := h.readCopy count
    exact ⟨iff_of_true hnext.lawful trivial, fun _ ↦ hnext⟩

end UciDev

/-- In a run of an open device, whatever the number of its descriptors and of its open files, the
law holds after each step if and only if all transfers have one to `mtu` bytes. -/
theorem lawful_iff (n mtu : ℕ) (copied : Bool) (others : ℕ) (es : List Event) :
    (uciSystem n mtu copied others).Along (fun s e ↦ (e.next s).Lawful n)
        (.init n mtu copied others) es ↔
      (uciSystem n mtu copied others).Along Event.Orderly (.init n mtu copied others) es :=
  System.along_iff_of_invariant (I := UciDev.Inv n) (fun _ _ h henabled ↦ (h.next_iff henabled).1)
    (fun _ _ h henabled horderly ↦ (h.next_iff henabled).2 horderly) (.init n mtu copied others) es

/-- A completion of no bytes loses its descriptor. -/
theorem emptyTransfer_lost :
    ¬ ∀ (n mtu : ℕ) (copied : Bool) (others : ℕ) (es : List Event), 1 ≤ n →
      (uciSystem n mtu copied others).Along (fun _ _ ↦ True) (.init n mtu copied others) es →
      (uciSystem n mtu copied others).Along (fun s e ↦ (e.next s).Lawful n)
        (.init n mtu copied others) es := by
  intro h
  have halong :=
    h 2 4096 false 0 [.complete []] (by decide) ⟨List.cons_ne_nil _ _, trivial, trivial⟩
  have hcount := halong.2.1.descriptors
  revert hcount
  decide

end Wwan.MhiUci
