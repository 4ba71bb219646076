import Mathlib.Data.Int.Notation
import Wwan.Lib.Allocation
import Wwan.Lib.Transition

/-!
# The life of the MHI character device

`struct uci_dev` is shared by the bus, which removes the device, and the open files. Its reference
count is that of the open files, and with `QUEC_MHI_UCI_ALWAYS_OPEN` one more from the first open to
the removal; who takes it to zero frees what there is.

The buffers and the pages are freed by the last close only, so that they are left behind by a
removal with no file open; the copies that wait are freed by no one; and an open whose
`mhi_queue_inbound` fails frees the buffers but keeps the pointer and the reference. Apart from
that all is balanced (`life_balanced`).
-/

namespace Wwan.MhiUci

/-- What is allocated. -/
inductive Obj
  | /-- `uci_dev`. -/
    dev
  | /-- An array `uci_buf`. -/
    array (k : ℕ)
  | /-- The page of the `i`-th buffer of an array. -/
    page (k i : ℕ)
  | /-- A copy of received data. -/
    copy (m : ℕ)
  deriving DecidableEq

/-- A `struct uci_buf` in `pending` or `cur_buf`. -/
inductive Waiting
  | page (i : ℕ)
  | copy (m : ℕ)
  deriving DecidableEq

/-- `struct uci_dev` and its surroundings. -/
structure Device where
  mem : Allocation Obj
  /-- The number of the next array or copy. -/
  fresh : ℕ
  /-- `node` is in the list of the driver. -/
  listed : Bool
  enabled : Bool
  /-- `dl_chan_id` is that of DUN, QMI or MBIM. -/
  copied : Bool
  refCount : ℤ
  /-- The channels are prepared for transfer. -/
  started : Bool
  uciBuf : Option ℕ
  nrTrbs : ℕ
  /-- The number of buffers of the array that have a page; the `page` of the next one is NULL, and
  those behind it were not written. -/
  filled : ℕ
  pending : List Waiting
  curBuf : Option Waiting
  /-- The number of open files. -/
  handles : ℕ
  /-- A read is about to copy from `curBuf`. -/
  reading : Bool

/-- What comes of the calls of an open. -/
structure OpenInput where
  /-- `mhi_prepare_for_transfer` succeeds. -/
  prepared : Bool
  /-- `mhi_get_no_free_descriptors`. -/
  nrTrbs : ℕ
  /-- The array is allocated. -/
  array : Bool
  /-- The number of pages that can be allocated. -/
  pages : ℕ
  /-- The number of transfers that can be queued. -/
  transfers : ℕ
  deriving DecidableEq

/-- The first pages of an array. -/
def pagesOf (k n : ℕ) : List Obj := (List.range n).map (Obj.page k)

namespace Device

def use (s : Device) (x : Obj) : Device := { s with mem := s.mem.use x }

/-- The queuing of the buffers in `mhi_queue_inbound`; without one it fails. -/
def queueBuffers (s : Device) (x : OpenInput) (k : ℕ) : Bool × Device :=
  if x.nrTrbs = 0 then (false, s) else (decide (x.nrTrbs ≤ x.transfers), s.use (.array k))

/-- `mhi_queue_inbound`. -/
def mhiQueueInbound (s : Device) (x : OpenInput) : Bool × Device :=
  match s.uciBuf with
  | some k => s.queueBuffers x k
  | none =>
    if x.array then
      let filled := min x.pages (x.nrTrbs + 1)
      let s' := { s with
        nrTrbs := x.nrTrbs + 1
        mem := (s.mem.alloc (.array s.fresh)).allocAll (pagesOf s.fresh filled)
        uciBuf := some s.fresh
        filled := filled
        fresh := s.fresh + 1 }
      if filled < x.nrTrbs + 1 then (false, s') else s'.queueBuffers x s.fresh
    else (false, { s with nrTrbs := x.nrTrbs + 1 })

/-- The page of a buffer is freed, if there is one; a pointer that was not written is no page. -/
def freeEntry (k filled : ℕ) (mem : Allocation Obj) (i : ℕ) : Allocation Obj :=
  if i < filled then mem.free (.page k i) else if i = filled then mem else mem.fault

/-- The array and its pages are freed; the pointer to it stays. -/
def freeBufs (s : Device) : Device :=
  match s.uciBuf with
  | none => s
  | some k =>
    let mem := (List.range s.nrTrbs).foldl (freeEntry k s.filled) (s.mem.use (.array k))
    { s with mem := mem.free (.array k) }

/-- `mhi_uci_open`, and whether it succeeds. -/
def mhiUciOpen (s : Device) (x : OpenInput) : Bool × Device :=
  if s.listed = false then (false, s)
  else
    let s := s.use .dev
    if s.enabled = false then (false, s)
    else if s.refCount + 1 = 1 then
      if x.prepared then
        let r := { s with refCount := s.refCount + 1, started := true }.mhiQueueInbound x
        if r.1 then
          -- `QUEC_MHI_UCI_ALWAYS_OPEN`
          (true, { r.2 with refCount := r.2.refCount + 1, handles := r.2.handles + 1 })
        else (false, { r.2 with started := false }.freeBufs)
      else (false, s)
    else (true, { s with refCount := s.refCount + 1, handles := s.handles + 1 })

/-- `mhi_uci_release`. -/
def mhiUciRelease (s : Device) : Device :=
  let s := { s.use .dev with refCount := s.refCount - 1, handles := s.handles - 1 }
  if s.refCount = 0 then
    let s' := { { s with started := s.started && !s.enabled }.freeBufs with curBuf := none }
    if s.enabled then s' else { s' with mem := s'.mem.free .dev }
  else s

/-- `mhi_uci_remove`. -/
def mhiUciRemove (s : Device) : Device :=
  let s := { s.use .dev with enabled := false, listed := false }
  let s := { s with refCount := if 0 < s.refCount then s.refCount - 1 else s.refCount }
  if s.refCount = 0 then { s with mem := s.mem.free .dev } else s

/-- `mhi_dl_xfer_cb`, for the `i`-th buffer: `taken` says that the transfer is accepted, and
`kmalloc` that a copy can be allocated. -/
def mhiDlXferCb (s : Device) (i : ℕ) (taken kmalloc : Bool) : Device :=
  match s.uciBuf with
  | none => { s with mem := (s.mem.use .dev).fault }
  | some k =>
    let s := (s.use .dev).use (.array k)
    if taken = false then s
    else if s.copied then
      if s.refCount = 1 ∨ kmalloc = false then s
      else
        { s with
          mem := (s.mem.alloc (.copy s.fresh)).use (.page k i)
          fresh := s.fresh + 1
          pending := s.pending ++ [.copy s.fresh] }
    else { s with pending := s.pending ++ [.page i] }

/-- `mhi_uci_read` up to the copy. -/
def readPick (s : Device) : Device :=
  let s := s.use .dev
  if s.enabled = false then s
  else
    match s.curBuf, s.pending with
    | none, [] => s
    | none, w :: pending => { s with pending := pending, curBuf := some w, reading := true }
    | some _, _ => { s with reading := true }

/-- The data of a buffer is read. -/
def useData (s : Device) : Waiting → Device
  | .copy m => s.use (.copy m)
  | .page i =>
    match s.uciBuf with
    | some k => (s.use (.array k)).use (.page k i)
    | none => { s with mem := s.mem.fault }

/-- The end of a buffer that has been read. -/
def recycle (s : Device) : Waiting → Device
  | .copy m => { s with mem := s.mem.free (.copy m) }
  | .page _ =>
    match s.uciBuf with
    | some k => s.use (.array k)
    | none => { s with mem := s.mem.fault }

/-- `mhi_uci_read` from the copy on; `whole` says that it comes to the end of the buffer. -/
def readCopy (s : Device) (whole : Bool) : Device :=
  let s := { s.use .dev with reading := false }
  match s.curBuf with
  | none => s
  | some w =>
    let s := s.useData w
    if whole = false then s
    else if s.enabled then { s with curBuf := none }.recycle w else { s with curBuf := none }

/-- What waits, the current buffer first. -/
def waiting (s : Device) : List Waiting := s.curBuf.toList ++ s.pending

/-- `mhi_uci_probe`. -/
def probe (copied : Bool) : Device where
  mem := Allocation.empty.alloc .dev
  fresh := 0
  listed := true
  enabled := true
  copied := copied
  refCount := 0
  started := false
  uciBuf := none
  nrTrbs := 0
  filled := 0
  pending := []
  curBuf := none
  handles := 0
  reading := false

end Device

namespace Lifecycle

inductive Event
  | openFile (x : OpenInput)
  | release
  | remove
  | receive (i : ℕ) (taken kmalloc : Bool)
  | readPick
  | readCopy (whole : Bool)
  deriving DecidableEq

def Event.next (s : Device) : Event → Device
  | .openFile x => (s.mhiUciOpen x).2
  | .release => s.mhiUciRelease
  | .remove => s.mhiUciRemove
  | .receive i taken kmalloc => s.mhiDlXferCb i taken kmalloc
  | .readPick => s.readPick
  | .readCopy whole => s.readCopy whole

/-- A file that is read is not closed meanwhile; reads come one at a time. The core completes
transfers while the channel is started, and stops it before it removes the device. -/
def Event.Enabled (s : Device) : Event → Prop
  | .openFile _ => True
  | .release => (if s.reading then 1 else 0) < s.handles
  | .remove => s.listed = true
  | .receive i _ _ => s.started = true ∧ s.listed = true ∧ i < s.nrTrbs
  | .readPick => s.reading = false ∧ 0 < s.handles
  | .readCopy _ => s.reading = true

/-- The runs of a device. -/
def system (copied : Bool) : System Device Event := ⟨.probe copied, Event.Enabled, Event.next⟩

/-! ## What is to hold -/

/-- An open that fails changes nothing, nothing is used or freed that is not allocated, and nothing
is allocated when the device has been removed and all files are closed. -/
structure Balanced (s : Device) (e : Event) : Prop where
  failing : ∀ x, e = .openFile x → (s.mhiUciOpen x).1 = false →
    (e.next s).refCount = s.refCount ∧ (e.next s).uciBuf = s.uciBuf ∧
      (e.next s).started = s.started
  sound : (e.next s).mem.faulty = false
  closed : (e.next s).listed = false → (e.next s).handles = 0 → ∀ x, (e.next s).mem.live x = false

/-- `mhi_queue_inbound` succeeds on a device without buffers. -/
def OpenInput.Queues (x : OpenInput) : Prop :=
  x.array = true ∧ x.nrTrbs < x.pages ∧ 0 < x.nrTrbs ∧ x.nrTrbs ≤ x.transfers

/-- The first open queues its buffers, if its channel starts; the device is not removed between two
opens; and no copy waits when the last file is closed, or is read to its end after the removal. -/
def Orderly (s : Device) : Event → Prop
  | .openFile x => s.listed = true → s.refCount = 0 → x.prepared = true → OpenInput.Queues x
  | .release => s.refCount = 1 → ∀ m, .copy m ∉ s.waiting
  | .remove => s.refCount ≠ 1
  | .readCopy whole => s.enabled = false → whole = true → ∀ m, s.curBuf ≠ some (.copy m)
  | _ => True

/-! ## What is owned -/

def Waiting.copy? : Waiting → Option ℕ
  | .page _ => none
  | .copy m => some m

/-- What is allocated while a device has the array `k` of `n` buffers, and these wait. -/
def Owned (n k : ℕ) (ws : List Waiting) : Obj → Prop
  | .dev => True
  | .array j => j = k
  | .page j i => j = k ∧ i < n
  | .copy m => .copy m ∈ ws

/-- The memory of a device that has an array: what waits is in it, and each copy waits once. -/
structure Stock (mem : Allocation Obj) (fresh n k : ℕ) (ws : List Waiting) : Prop where
  owns : mem.Owns (Owned n k ws)
  pages : ∀ i, .page i ∈ ws → i < n
  copies : (ws.filterMap Waiting.copy?).Nodup
  fresh : ∀ m, .copy m ∈ ws → m < fresh

namespace Stock

variable {mem : Allocation Obj} {fresh n k : ℕ} {ws : List Waiting}

theorem push_page (h : Stock mem fresh n k ws) {i : ℕ} (hi : i < n) :
    Stock mem fresh n k (ws ++ [.page i]) := by
  refine ⟨h.owns.congr fun x ↦ ?_, fun j hj ↦ ?_, ?_, fun m hm ↦ h.fresh m (by simpa using hm)⟩
  · cases x <;> simp [Owned]
  · rw [List.mem_append, List.mem_singleton] at hj
    rcases hj with hj | hj
    · exact h.pages j hj
    · cases hj
      exact hi
  · rw [List.filterMap_append, List.filterMap_cons_none rfl]
    simpa using h.copies

theorem push_copy (h : Stock mem fresh n k ws) :
    Stock (mem.alloc (.copy fresh)) (fresh + 1) n k (ws ++ [.copy fresh]) := by
  refine ⟨(h.owns.alloc _).congr fun x ↦ ?_, fun i hi ↦ h.pages i (by simpa using hi), ?_,
    fun m hm ↦ ?_⟩
  · cases x <;> simp [Owned, or_comm]
  · have hnew : fresh ∉ ws.filterMap Waiting.copy? := by
      rw [List.mem_filterMap]
      rintro ⟨_ | m, hm, hm'⟩
      · cases hm'
      · cases hm'
        exact Nat.lt_irrefl _ (h.fresh _ hm)
    rw [List.filterMap_append, List.nodup_append]
    refine ⟨h.copies, List.nodup_singleton _, fun x hx y hy ↦ ?_⟩
    rw [List.mem_singleton.mp hy]
    exact ne_of_mem_of_not_mem hx hnew
  · rw [List.mem_append, List.mem_singleton] at hm
    rcases hm with hm | hm
    · exact Nat.lt_succ_of_lt (h.fresh m hm)
    · cases hm
      exact Nat.lt_succ_self _

theorem pop_page {i : ℕ} (h : Stock mem fresh n k (.page i :: ws)) : Stock mem fresh n k ws := by
  refine ⟨h.owns.congr fun x ↦ ?_, fun j hj ↦ h.pages j (.tail _ hj), h.copies,
    fun m hm ↦ h.fresh m (.tail _ hm)⟩
  cases x <;> simp [Owned]

theorem pop_copy {m : ℕ} (h : Stock mem fresh n k (.copy m :: ws)) :
    Stock (mem.free (.copy m)) fresh n k ws := by
  obtain ⟨hnot, hcopies⟩ := List.nodup_cons.mp h.copies
  have hmem : .copy m ∉ ws := fun hm ↦ hnot (List.mem_filterMap.mpr ⟨_, hm, rfl⟩)
  have hcopy : Owned n k (.copy m :: ws) (.copy m) := List.mem_cons_self
  refine ⟨(h.owns.free hcopy).congr fun x ↦ ?_, fun j hj ↦ h.pages j (.tail _ hj), hcopies,
    fun m hm ↦ h.fresh m (.tail _ hm)⟩
  cases x with
  | copy j =>
    show .copy j ∈ ws ↔ .copy j ∈ .copy m :: ws ∧ Obj.copy j ≠ .copy m
    rw [List.mem_cons]
    constructor
    · exact fun hj ↦ ⟨.inr hj, fun heq ↦ hmem (by cases heq; exact hj)⟩
    · rintro ⟨hj | hj, hne⟩
      · cases hj
        exact absurd rfl hne
      · exact hj
  | _ => simp [Owned]

end Stock

/-- A device that has not been opened. -/
structure Probed (s : Device) : Prop where
  listed : s.listed = true
  enabled : s.enabled = true
  refCount : s.refCount = 0
  started : s.started = false
  uciBuf : s.uciBuf = none
  waiting : s.waiting = []
  handles : s.handles = 0
  reading : s.reading = false
  owns : s.mem.Owns (· = .dev)

/-- A device that has been opened, and is listed or has an open file. -/
structure Opened (s : Device) (k : ℕ) : Prop where
  enabled : s.enabled = s.listed
  uciBuf : s.uciBuf = some k
  filled : s.filled = s.nrTrbs
  count : s.refCount = s.handles + if s.listed then 1 else 0
  held : s.listed = false → 0 < s.handles
  reading : s.reading = true → 0 < s.handles ∧ s.curBuf ≠ none
  stock : Stock s.mem s.fresh s.nrTrbs k s.waiting

/-- A device that has been removed, and has no open file. -/
structure Gone (s : Device) : Prop where
  listed : s.listed = false
  handles : s.handles = 0
  reading : s.reading = false
  owns : s.mem.Owns fun _ ↦ False

/-- The state of a device in an orderly run. -/
def Inv (s : Device) : Prop := Probed s ∨ (∃ k, Opened s k) ∨ Gone s

section Opened

variable {s : Device} {k : ℕ}

theorem use_eq {p : Obj → Prop} (hp : s.mem.Owns p) {x : Obj} (hx : p x) : s.use x = s := by
  show { s with mem := s.mem.use x } = s
  rw [hp.use hx]

theorem Opened.owns (hs : Opened s k) : s.mem.Owns (Owned s.nrTrbs k s.waiting) := hs.stock.owns

theorem Opened.use_dev (hs : Opened s k) : s.use .dev = s := use_eq hs.owns trivial

theorem Opened.use_array (hs : Opened s k) : s.use (.array k) = s :=
  use_eq hs.owns (show Owned s.nrTrbs k s.waiting (.array k) from rfl)

/-- An array all of whose buffers have a page loses them one after the other. -/
theorem foldl_freeEntry (mem : Allocation Obj) (k n : ℕ) :
    (List.range n).foldl (Device.freeEntry k n) mem = mem.freeAll (pagesOf k n) := by
  rw [Allocation.freeAll, pagesOf, List.foldl_map]
  refine List.foldl_ext _ _ _ fun mem i hi ↦ ?_
  exact if_pos (List.mem_range.mp hi)

theorem nodup_pagesOf (k n : ℕ) : (pagesOf k n).Nodup :=
  List.nodup_range.map fun _ _ h ↦ (Obj.page.inj h).2

theorem mem_pagesOf {x : Obj} {n : ℕ} : x ∈ pagesOf k n ↔ ∃ i < n, Obj.page k i = x := by
  simp [pagesOf]

theorem freeBufs_eq (s : Device) : s.freeBufs = { s with mem := s.freeBufs.mem } := by
  rcases s with ⟨_, _, _, _, _, _, _, _ | _, _, _, _, _, _, _⟩ <;> rfl

/-- The pages and the array are freed. -/
theorem owns_freeBufs (huciBuf : s.uciBuf = some k) (hfilled : s.filled = s.nrTrbs)
    (howns : s.mem.Owns (Owned s.nrTrbs k s.waiting)) :
    s.freeBufs.mem.Owns fun x ↦ x = .dev ∨ ∃ m, .copy m ∈ s.waiting ∧ x = .copy m := by
  have harray : Owned s.nrTrbs k s.waiting (.array k) := rfl
  have hmem : s.freeBufs.mem = (s.mem.freeAll (pagesOf k s.nrTrbs)).free (.array k) := by
    rw [Device.freeBufs, huciBuf]
    simp only [howns.use harray, hfilled, foldl_freeEntry]
  have hpages : ∀ x ∈ pagesOf k s.nrTrbs, Owned s.nrTrbs k s.waiting x := by
    intro x hx
    obtain ⟨i, hi, rfl⟩ := mem_pagesOf.mp hx
    exact ⟨rfl, hi⟩
  have hnot : Obj.array k ∉ pagesOf k s.nrTrbs := by
    intro hmem
    obtain ⟨i, -, hi⟩ := mem_pagesOf.mp hmem
    cases hi
  rw [hmem]
  refine ((howns.freeAll (nodup_pagesOf k _) hpages).free ⟨harray, hnot⟩).congr fun x ↦ ?_
  cases x with
  | dev => simp [Owned, mem_pagesOf]
  | array j => simp [Owned, mem_pagesOf]
  | page j i =>
    have hnone : ¬ (Owned s.nrTrbs k s.waiting (.page j i) ∧ .page j i ∉ pagesOf k s.nrTrbs) := by
      rintro ⟨⟨rfl, hi⟩, hnot⟩
      exact hnot (mem_pagesOf.mpr ⟨i, hi, rfl⟩)
    exact iff_of_false (by simp) fun h ↦ hnone h.1
  | copy m => simp [Owned, mem_pagesOf]

/-! ## One event -/

/-- The buffers of the first open. -/
theorem mhiQueueInbound_first (huciBuf : s.uciBuf = none) (hdev : s.mem.Owns (· = .dev))
    {x : OpenInput} (hx : OpenInput.Queues x) :
    ∃ mem, s.mhiQueueInbound x = (true, { s with
        mem := mem
        fresh := s.fresh + 1
        uciBuf := some s.fresh
        nrTrbs := x.nrTrbs + 1
        filled := x.nrTrbs + 1 }) ∧
      Stock mem (s.fresh + 1) (x.nrTrbs + 1) s.fresh [] := by
  obtain ⟨harray, hpages, hpos, hqueued⟩ := hx
  have hmin : min x.pages (x.nrTrbs + 1) = x.nrTrbs + 1 := Nat.min_eq_right hpages
  have hstock : Stock ((s.mem.alloc (.array s.fresh)).allocAll (pagesOf s.fresh (x.nrTrbs + 1)))
      (s.fresh + 1) (x.nrTrbs + 1) s.fresh [] := by
    refine ⟨((hdev.alloc _).allocAll _).congr fun y ↦ ?_, by simp, List.nodup_nil, by simp⟩
    cases y with
    | dev => simp [Owned]
    | array j => simp [Owned, mem_pagesOf]
    | page j i => simp [Owned, mem_pagesOf, and_comm, eq_comm]
    | copy m => simp [Owned, mem_pagesOf]
  refine ⟨_, ?_, hstock⟩
  have harrayOwned : Owned (x.nrTrbs + 1) s.fresh [] (.array s.fresh) := rfl
  rw [Device.mhiQueueInbound, huciBuf]
  simp only [harray, hmin, if_true]
  rw [if_neg (Nat.lt_irrefl _), Device.queueBuffers, if_neg (Nat.pos_iff_ne_zero.mp hpos),
    use_eq hstock.owns harrayOwned, decide_eq_true hqueued]

/-- The first open fails without an effect, or gives the device its array. -/
theorem Probed.open (hs : Probed s) (x : OpenInput)
    (hx : x.prepared = true → OpenInput.Queues x) :
    s.mhiUciOpen x = (false, s) ∨
      (s.mhiUciOpen x).1 = true ∧ ∃ k, Opened (s.mhiUciOpen x).2 k := by
  have huse : s.use .dev = s := use_eq hs.owns rfl
  cases hprepared : x.prepared with
  | false =>
    refine .inl ?_
    simp [Device.mhiUciOpen, huse, hs.listed, hs.enabled, hs.refCount, hprepared]
  | true =>
    obtain ⟨mem, hqueue, hstock⟩ :=
      mhiQueueInbound_first (s := { s with refCount := s.refCount + 1, started := true })
        hs.uciBuf hs.owns (hx hprepared)
    have hopen : s.mhiUciOpen x =
        (true, { s with
          mem := mem
          fresh := s.fresh + 1
          refCount := s.refCount + 1 + 1
          started := true
          uciBuf := some s.fresh
          nrTrbs := x.nrTrbs + 1
          filled := x.nrTrbs + 1
          handles := s.handles + 1 }) := by
      rw [Device.mhiUciOpen, if_neg (by rw [hs.listed]; decide), huse]
      show (if s.enabled = false then _ else _) = _
      rw [if_neg (by rw [hs.enabled]; decide), if_pos (by rw [hs.refCount]; rfl),
        if_pos hprepared, hqueue]
      rfl
    rw [hopen]
    exact .inr ⟨rfl, s.fresh, {
      enabled := hs.enabled.trans hs.listed.symm
      uciBuf := rfl
      filled := rfl
      count := by
        show s.refCount + 1 + 1 = ((s.handles + 1 : ℕ) : ℤ) + if s.listed then 1 else 0
        rw [hs.refCount, hs.handles, hs.listed]
        rfl
      held := fun _ ↦ Nat.succ_pos _
      reading := fun hreading ↦ absurd (hs.reading.symm.trans hreading) (by decide)
      stock := by
        show Stock mem _ _ _ s.waiting
        rw [hs.waiting]
        exact hstock }⟩

section Opened

variable (hs : Opened s k)

include hs

theorem Opened.open (x : OpenInput) :
    s.mhiUciOpen x = (false, s) ∨
      (s.mhiUciOpen x).1 = true ∧ Opened (s.mhiUciOpen x).2 k := by
  cases hlisted : s.listed with
  | false => exact .inl (if_pos hlisted)
  | true =>
    have henabled : s.enabled = true := hs.enabled.trans hlisted
    have hcount := hs.count
    rw [hlisted, if_pos rfl] at hcount
    have hopen : s.mhiUciOpen x =
        (true, { s with refCount := s.refCount + 1, handles := s.handles + 1 }) := by
      rw [Device.mhiUciOpen, hs.use_dev, if_neg (by rw [hlisted]; decide)]
      show (if s.enabled = false then _ else _) = _
      rw [if_neg (by rw [henabled]; decide), if_neg (by omega)]
    rw [hopen]
    refine .inr ⟨rfl, { hs with count := ?_, held := ?_, reading := ?_ }⟩
    · show s.refCount + 1 = ((s.handles + 1 : ℕ) : ℤ) + if s.listed then 1 else 0
      rw [hs.count]
      omega
    · exact fun _ ↦ Nat.succ_pos _
    · exact fun hreading ↦ ⟨Nat.succ_pos _, (hs.reading hreading).2⟩

theorem Opened.release (henabled : Event.Enabled s .release)
    (hcount : s.refCount ≠ 1) : Opened s.mhiUciRelease k := by
  have hrelease : s.mhiUciRelease =
      { s with refCount := s.refCount - 1, handles := s.handles - 1 } := by
    rw [Device.mhiUciRelease, hs.use_dev]
    exact if_neg (show s.refCount - 1 ≠ 0 by omega)
  have hlt : (if s.reading then 1 else 0) < s.handles := henabled
  rw [hrelease]
  refine { hs with count := ?_, held := ?_, reading := ?_ }
  · show s.refCount - 1 = ((s.handles - 1 : ℕ) : ℤ) + if s.listed then 1 else 0
    rw [hs.count]
    omega
  · intro hlisted
    have hall := hs.count
    rw [show s.listed = false from hlisted] at hall
    show 0 < s.handles - 1
    simp at hall
    omega
  · intro hreading
    rw [show s.reading = true from hreading, if_pos rfl] at hlt
    exact ⟨Nat.sub_pos_of_lt hlt, (hs.reading hreading).2⟩

theorem Opened.release_last (henabled : Event.Enabled s .release)
    (hcount : s.refCount = 1) (hwaiting : ∀ m, .copy m ∉ s.waiting) : Gone s.mhiUciRelease := by
  have hlt : (if s.reading then 1 else 0) < s.handles := henabled
  have hall := hs.count
  have hlisted : s.listed = false := by
    cases hlisted : s.listed with
    | false => rfl
    | true =>
      rw [hlisted, hcount, if_pos rfl] at hall
      omega
  have hhandles : s.handles = 1 := by
    rw [hlisted, hcount] at hall
    simp at hall
    omega
  have hreading : s.reading = false := by
    cases hreading : s.reading with
    | false => rfl
    | true =>
      rw [hreading, hhandles] at hlt
      exact absurd hlt (Nat.lt_irrefl 1)
  generalize hr : { s with
    refCount := s.refCount - 1
    handles := s.handles - 1
    started := s.started && !s.enabled } = r
  have huciBuf : r.uciBuf = some k := by rw [← hr, hs.uciBuf]
  have hfilled : r.filled = r.nrTrbs := by rw [← hr, hs.filled]
  have howns : r.mem.Owns (Owned r.nrTrbs k r.waiting) := by
    rw [← hr]
    exact hs.owns
  have hnone : ∀ m, .copy m ∉ r.waiting := by
    rw [← hr]
    exact hwaiting
  have hfreed : r.freeBufs.mem.Owns (· = .dev) := by
    refine (owns_freeBufs huciBuf hfilled howns).congr fun x ↦ ?_
    exact ⟨Or.inl, fun h ↦ h.resolve_right fun ⟨m, hm, _⟩ ↦ hnone m hm⟩
  have hrelease : s.mhiUciRelease =
      { r.freeBufs with curBuf := none, mem := r.freeBufs.mem.free .dev } := by
    rw [Device.mhiUciRelease, hs.use_dev, if_pos (show s.refCount - 1 = 0 by omega)]
    rw [if_neg (show ¬ s.enabled = true by rw [hs.enabled, hlisted]; decide), ← hr]
  rw [hrelease, freeBufs_eq]
  subst hr
  refine ⟨hlisted, ?_, hreading, ?_⟩
  · show s.handles - 1 = 0
    rw [hhandles]
  · exact (hfreed.free rfl).congr fun x ↦ ⟨False.elim, fun h ↦ h.2 h.1⟩

theorem Opened.remove (henabled : Event.Enabled s .remove)
    (hcount : s.refCount ≠ 1) : Opened s.mhiUciRemove k := by
  have hlisted : s.listed = true := henabled
  have hall := hs.count
  rw [hlisted, if_pos rfl] at hall
  have hremove : s.mhiUciRemove =
      { s with enabled := false, listed := false, refCount := s.refCount - 1 } := by
    rw [Device.mhiUciRemove, hs.use_dev]
    simp only
    rw [if_pos (show 0 < s.refCount by omega), if_neg (show s.refCount - 1 ≠ 0 by omega)]
  rw [hremove]
  refine { hs with enabled := rfl, count := ?_, held := ?_ }
  · show s.refCount - 1 = s.handles + 0
    omega
  · intro _
    show 0 < s.handles
    omega

theorem Opened.receive {i : ℕ} {taken kmalloc : Bool}
    (henabled : Event.Enabled s (.receive i taken kmalloc)) :
    Opened (s.mhiDlXferCb i taken kmalloc) k := by
  obtain ⟨-, -, hi⟩ := henabled
  rw [Device.mhiDlXferCb, hs.uciBuf]
  simp only [hs.use_dev, hs.use_array]
  split
  · exact hs
  split
  · split
    · exact hs
    · have hstock := hs.stock.push_copy
      have hpage : Owned s.nrTrbs k (s.waiting ++ [.copy s.fresh]) (.page k i) := ⟨rfl, hi⟩
      refine { hs with stock := ?_ }
      show Stock ((s.mem.alloc _).use _) _ _ _ (s.curBuf.toList ++ (s.pending ++ _))
      rw [hstock.owns.use hpage, ← List.append_assoc]
      exact hstock
  · refine { hs with stock := ?_ }
    show Stock _ _ _ _ (s.curBuf.toList ++ (s.pending ++ _))
    rw [← List.append_assoc]
    exact hs.stock.push_page hi

theorem Opened.readPick (henabled : Event.Enabled s .readPick) : Opened s.readPick k := by
  obtain ⟨-, hhandles⟩ := henabled
  rw [Device.readPick, hs.use_dev]
  split
  · exact hs
  split
  · exact hs
  · rename_i w pending hcurBuf hpending
    have hstock := hs.stock
    rw [Device.waiting, hcurBuf, hpending] at hstock
    exact { hs with reading := fun _ ↦ ⟨hhandles, Option.some_ne_none w⟩, stock := hstock }
  · rename_i w hcurBuf
    exact { hs with reading := fun _ ↦ ⟨hhandles, by rw [hcurBuf]; exact Option.some_ne_none w⟩ }

/-- A buffer that waits can be read. -/
theorem Opened.useData {w : Waiting} (hw : w ∈ s.waiting) : s.useData w = s := by
  cases w with
  | page i =>
    have hpage : Owned s.nrTrbs k s.waiting (.page k i) := ⟨rfl, hs.stock.pages i hw⟩
    rw [Device.useData, hs.uciBuf]
    simp only [hs.use_array, use_eq hs.owns hpage]
  | copy m => exact use_eq hs.owns (show Owned s.nrTrbs k s.waiting (.copy m) from hw)

/-- A page that has been read goes. -/
theorem Opened.pop_page (hreading : s.reading = false) {i : ℕ}
    (hi : s.curBuf = some (.page i)) : Opened { s with curBuf := none } k := by
  have hstock := hs.stock
  rw [Device.waiting, hi] at hstock
  exact { hs with
    reading := fun h ↦ absurd (hreading.symm.trans h) Bool.false_ne_true
    stock := hstock.pop_page }

/-- A copy that has been read is freed. -/
theorem Opened.pop_copy (hreading : s.reading = false) {m : ℕ}
    (hm : s.curBuf = some (.copy m)) : Opened ({ s with curBuf := none }.recycle (.copy m)) k := by
  have hstock := hs.stock
  rw [Device.waiting, hm] at hstock
  exact { hs with
    reading := fun h ↦ absurd (hreading.symm.trans h) Bool.false_ne_true
    stock := hstock.pop_copy }

/-- For a page, the buffer before it in the array is queued again. -/
theorem Opened.recycle_page (i : ℕ) : s.recycle (.page i) = s := by
  rw [Device.recycle, hs.uciBuf]
  exact hs.use_array

end Opened

theorem readCopy_eq {t : Device} (ht : { s.use .dev with reading := false } = t) {w : Waiting}
    (hw : t.curBuf = some w) (hdata : t.useData w = t) (whole : Bool) :
    s.readCopy whole =
      if whole = false then t
      else if t.enabled then { t with curBuf := none }.recycle w
      else { t with curBuf := none } := by
  rw [Device.readCopy, ht]
  simp only [hw, hdata]

/-- A read goes on with its buffer, which has been there since it took it. -/
theorem Opened.readCopy (hs : Opened s k) {whole : Bool}
    (henabled : Event.Enabled s (.readCopy whole)) (hguard : Orderly s (.readCopy whole)) :
    Opened (s.readCopy whole) k := by
  obtain ⟨w, hw⟩ := Option.ne_none_iff_exists'.mp (hs.reading henabled).2
  generalize ht : { s.use .dev with reading := false } = t
  have hopened : Opened t k := by
    rw [← ht, hs.use_dev]
    exact { hs with reading := fun h ↦ absurd h Bool.false_ne_true }
  have hcurBuf : t.curBuf = some w := by rw [← ht, hs.use_dev, hw]
  have hmem : w ∈ t.waiting := by
    rw [Device.waiting, hcurBuf]
    exact List.mem_cons_self
  have hreading : t.reading = false := by rw [← ht]
  have hlive : t.enabled = s.enabled := by rw [← ht, hs.use_dev]
  rw [readCopy_eq ht hcurBuf (hopened.useData hmem)]
  cases whole with
  | false => exact hopened
  | true =>
    rw [if_neg (by decide)]
    cases w with
    | page i =>
      have hpop := hopened.pop_page hreading hcurBuf
      rw [hpop.recycle_page, ite_self]
      exact hpop
    | copy m =>
      have htrue : t.enabled = true := by
        cases hdead : t.enabled with
        | false => exact absurd hw (hguard (hlive.symm.trans hdead) rfl m)
        | true => rfl
      rw [if_pos htrue]
      exact hopened.pop_copy hreading hcurBuf

theorem Probed.remove (hs : Probed s) : Gone s.mhiUciRemove := by
  have huse : s.use .dev = s := use_eq hs.owns rfl
  have hremove : s.mhiUciRemove =
      { s with enabled := false, listed := false, mem := s.mem.free .dev } := by
    simp [Device.mhiUciRemove, huse, hs.refCount]
  rw [hremove]
  refine ⟨rfl, hs.handles, hs.reading, ?_⟩
  exact (hs.owns.free rfl).congr fun x ↦ ⟨False.elim, fun h ↦ h.2 h.1⟩

theorem Gone.open (hs : Gone s) (x : OpenInput) : s.mhiUciOpen x = (false, s) := if_pos hs.listed

end Opened

/-! ## Every run -/

/-- In every state an open fails without an effect, or the device is open afterwards. -/
theorem Inv.open {s : Device} (hs : Inv s) {x : OpenInput} (hx : Orderly s (.openFile x)) :
    s.mhiUciOpen x = (false, s) ∨
      (s.mhiUciOpen x).1 = true ∧ ∃ k, Opened (s.mhiUciOpen x).2 k := by
  rcases hs with hs | ⟨k, hs⟩ | hs
  · exact hs.open x (hx hs.listed hs.refCount)
  · rcases hs.open x with h | ⟨h, h'⟩
    · exact .inl h
    · exact .inr ⟨h, k, h'⟩
  · exact .inl (hs.open x)

theorem Inv.next {s : Device} (hs : Inv s) {e : Event} (henabled : e.Enabled s)
    (hguard : Orderly s e) : Inv (e.next s) := by
  cases e with
  | openFile x =>
    show Inv (s.mhiUciOpen x).2
    rcases hs.open hguard with h | ⟨-, h⟩
    · rw [h]
      exact hs
    · exact .inr (.inl h)
  | release =>
    have hhandles : 0 < s.handles := Nat.zero_lt_of_lt henabled
    rcases hs with hs | ⟨k, hs⟩ | hs
    · exact absurd hs.handles (Nat.ne_of_gt hhandles)
    · by_cases hcount : s.refCount = 1
      · exact .inr (.inr (hs.release_last henabled hcount (hguard hcount)))
      · exact .inr (.inl ⟨k, hs.release henabled hcount⟩)
    · exact absurd hs.handles (Nat.ne_of_gt hhandles)
  | remove =>
    rcases hs with hs | ⟨k, hs⟩ | hs
    · exact .inr (.inr hs.remove)
    · exact .inr (.inl ⟨k, hs.remove henabled hguard⟩)
    · exact absurd (hs.listed.symm.trans henabled) Bool.false_ne_true
  | receive i taken kmalloc =>
    have hstarted : s.started = true := henabled.1
    have hlisted : s.listed = true := henabled.2.1
    rcases hs with hs | ⟨k, hs⟩ | hs
    · exact absurd (hs.started.symm.trans hstarted) Bool.false_ne_true
    · exact .inr (.inl ⟨k, hs.receive henabled⟩)
    · exact absurd (hs.listed.symm.trans hlisted) Bool.false_ne_true
  | readPick =>
    rcases hs with hs | ⟨k, hs⟩ | hs
    · exact absurd hs.handles (Nat.ne_of_gt henabled.2)
    · exact .inr (.inl ⟨k, hs.readPick henabled⟩)
    · exact absurd hs.handles (Nat.ne_of_gt henabled.2)
  | readCopy whole =>
    rcases hs with hs | ⟨k, hs⟩ | hs
    · exact absurd (hs.reading.symm.trans henabled) Bool.false_ne_true
    · exact .inr (.inl ⟨k, hs.readCopy henabled hguard⟩)
    · exact absurd (hs.reading.symm.trans henabled) Bool.false_ne_true

theorem Inv.sound {s : Device} (hs : Inv s) : s.mem.faulty = false := by
  rcases hs with hs | ⟨k, hs⟩ | hs
  · exact hs.owns.sound
  · exact hs.owns.sound
  · exact hs.owns.sound

/-- Nothing is left of a device that has been removed and is not open. -/
theorem Inv.closed {s : Device} (hs : Inv s) (hlisted : s.listed = false) (hhandles : s.handles = 0)
    (x : Obj) : s.mem.live x = false := by
  rcases hs with hs | ⟨k, hs⟩ | hs
  · exact absurd (hlisted.symm.trans hs.listed) Bool.false_ne_true
  · exact absurd hhandles (Nat.ne_of_gt (hs.held hlisted))
  · exact Bool.eq_false_iff.mpr fun hx ↦ (hs.owns.live x).mp hx

theorem inv_probe (copied : Bool) : Inv (.probe copied) :=
  .inl ⟨rfl, rfl, rfl, rfl, rfl, rfl, rfl, rfl,
    (Allocation.Owns.empty.alloc _).congr fun _ ↦ (or_false _).to_iff.symm⟩

/-- In an orderly run every step is balanced. -/
theorem life_balanced {copied : Bool} {s : Device} {e : Event}
    (hs : (system copied).Reach Orderly s) (henabled : e.Enabled s) (hguard : Orderly s e) :
    Balanced s e := by
  have hinv : Inv s :=
    hs.invariant (inv_probe copied) fun _ _ h henabled hguard ↦ h.next henabled hguard
  have hnext : Inv (e.next s) := hinv.next henabled hguard
  refine ⟨?_, hnext.sound, hnext.closed⟩
  rintro x rfl hfail
  rcases hinv.open hguard with h | ⟨htrue, -⟩
  · show (s.mhiUciOpen x).2.refCount = _ ∧ (s.mhiUciOpen x).2.uciBuf = _ ∧ _
    rw [h]
    exact ⟨rfl, rfl, by rw [Event.next, h]⟩
  · exact absurd (hfail.symm.trans htrue) Bool.false_ne_true

/-- The close of the only file, after the removal. -/
theorem life_balanced_release :
    Balanced ((system true).exec (.probe true) [.openFile ⟨true, 1, true, 2, 1⟩, .remove])
      .release := by
  refine life_balanced (System.Reach.exec .init ⟨trivial, ?_, rfl, ?_, trivial⟩) ?_ ?_
  · exact fun _ _ _ ↦ ⟨rfl, by decide, by decide, by decide⟩
  · show (2 : ℤ) ≠ 1
    decide
  · show 0 < 1
    decide
  · exact fun _ m hm ↦ by cases hm

/-- If the only buffer cannot be queued, the open fails and keeps its reference. -/
theorem failing_open_counts :
    ¬ ∀ copied s e, (system copied).Reach (fun _ _ ↦ True) s → e.Enabled s → Balanced s e := by
  intro h
  have hopen := (h true _ (.openFile ⟨true, 1, true, 2, 0⟩) .init trivial).failing _ rfl (by decide)
  exact absurd hopen.1 (by decide)

-- A removal with no file open leaves the array, and the last close the copy that waits.
example : (((system true).exec (.probe true)
    [.openFile ⟨true, 1, true, 2, 1⟩, .release, .remove]).mem.live (.array 0)) = true := by decide

example : (((system true).exec (.probe true)
    [.openFile ⟨true, 1, true, 2, 1⟩, .receive 0 true true, .remove,
      .release]).mem.live (.copy 1)) = true := by decide

end Lifecycle

end Wwan.MhiUci
