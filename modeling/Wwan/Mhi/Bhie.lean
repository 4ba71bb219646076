import Wwan.Lib.Allocation
import Wwan.Lib.Bytes
import Wwan.Lib.Memory

/-!
# The vector table of a firmware image

`mhi_alloc_bhie_table` allocates a firmware image in segments of `seg_len` bytes, and behind them a
buffer for the table that tells the device where they are. `mhi_firmware_copy` fills the segments
and the table side by side. The build is one for 64 bits.

A buffer is at a DMA address, and `buf` names the request that got it. The table's buffer is the
array of its entries.
-/

namespace Wwan.Mhi.Bhie

open Wwan Bytes Memory

/-- What a firmware load allocates. -/
inductive Resource
  | firmware
  | sblBuffer
  | imageInfo
  | mhiBufs
  | segment (i : ℕ)
deriving DecidableEq

/-- `struct mhi_buf`. -/
structure MhiBuf where
  len : ℕ
  buf : ℕ
  dmaAddr : ℕ
deriving DecidableEq

/-- `struct bhi_vec_entry`. -/
structure BhiVecEntry where
  dmaAddr : ℕ
  size : ℕ
deriving DecidableEq

/-- `sizeof(struct bhi_vec_entry)`. -/
abbrev entrySize : ℕ := 16

/-- `struct image_info`. -/
structure ImageInfo where
  mhiBuf : List MhiBuf
  /-- The buffer that `bhi_vec` points to. -/
  bhiVec : Option MhiBuf
  entries : ℕ
deriving DecidableEq

/-- What the allocations of a table return. -/
structure AllocEnv where
  kzalloc : Bool
  kcalloc : Bool
  /-- The DMA address of the buffer that a request gets. -/
  coherent : ℕ → Option ℕ

/-! ## Allocating and freeing a table -/

/-- `DIV_ROUND_UP` for numbers of type `size_t`. -/
def divRoundUp (n d : ℕ) : ℕ := (n + d - 1) % 2 ^ 64 / d

/-- The `int` variable `segments`. -/
def segmentCount (allocSize segSize : ℕ) : ℤ := int32 (divRoundUp allocSize segSize + 1)

/-- The size of a request; the last entry is for the vector table. -/
def vecSize (segSize segments i : ℕ) : ℕ := if i = segments - 1 then entrySize * i else segSize

/-- The loop of the requests: the buffers that were got, and whether all were. -/
def allocSegments (env : AllocEnv) (segSize segments : ℕ) :
    ℕ → ℕ → List MhiBuf → Allocation Resource → List MhiBuf × Bool × Allocation Resource
  | 0, _, bufs, h => (bufs, true, h)
  | todo + 1, i, bufs, h => match env.coherent i with
    | none => (bufs, false, h)
    | some dma => allocSegments env segSize segments todo (i + 1)
        (bufs ++ [⟨vecSize segSize segments i, i, dma⟩]) (h.alloc (.segment i))

/-- `mhi_free_coherent` for one buffer after the other. -/
def freeBufs (bufs : List MhiBuf) (h : Allocation Resource) : Allocation Resource :=
  h.freeAll (bufs.map fun b ↦ .segment b.buf)

/-- `mhi_alloc_bhie_table`; `none` is `-ENOMEM`. No array has a negative number of elements. -/
def mhiAllocBhieTable (env : AllocEnv) (segSize allocSize : ℕ) (h : Allocation Resource) :
    Option ImageInfo × Allocation Resource :=
  let segments := segmentCount allocSize segSize
  if !env.kzalloc then (none, h)
  else
    let h := h.alloc .imageInfo
    if segments < 0 ∨ !env.kcalloc then (none, h.free .imageInfo)
    else
      let h := h.alloc .mhiBufs
      match allocSegments env segSize segments.toNat segments.toNat 0 [] h with
      | (bufs, true, h) => (some ⟨bufs, bufs.getLast?, segments.toNat⟩, h)
      -- `error_alloc_segment` goes backwards and leaves `img_info->mhi_buf` alone
      | (bufs, false, h) => (none, (freeBufs bufs.reverse h).free .imageInfo)

/-- `mhi_free_bhie_table`. -/
def mhiFreeBhieTable (info : ImageInfo) (h : Allocation Resource) : Allocation Resource :=
  ((freeBufs (info.mhiBuf.take info.entries) h).free .mhiBufs).free .imageInfo

/-! ## Filling a table -/

/-- The memory that the device reads. -/
structure Dma where
  mem : ℕ → UInt8
  /-- The entries in the table's buffer. -/
  vec : ℕ → BhiVecEntry

/-- The loop of `mhi_firmware_copy` with `buf` left to copy. `none` is an access behind the array
of buffers or behind the table, which the assertion only reports. -/
def copyLoop (table : MhiBuf) : List MhiBuf → ℕ → List UInt8 → Dma → Option Dma
  | _, _, [], d => some d
  | [], _, _ :: _, _ => none
  | b :: bufs, i, data@(_ :: _), d =>
    let toCpy := min data.length b.len
    if entrySize * (i + 1) ≤ table.len then
      copyLoop table bufs (i + 1) (data.drop toCpy)
        ⟨poke d.mem b.dmaAddr (data.take toCpy), Function.update d.vec i ⟨b.dmaAddr, toCpy⟩⟩
    else none

/-- `mhi_firmware_copy`. -/
def mhiFirmwareCopy (firmware : List UInt8) (info : ImageInfo) (d : Dma) : Option Dma :=
  match info.bhiVec with
  | none => none
  | some table => copyLoop table info.mhiBuf 0 firmware d

variable {env : AllocEnv} {seg n i k : ℕ} {bufs segs rest : List MhiBuf} {table : MhiBuf}
  {h : Allocation Resource} {d d' : Dma} {data : List UInt8} {dma : ℕ → ℕ}

/-! ## Counting segments -/

/-- Data that needs one more segment needs as many behind its first one. -/
theorem ceil_drop (hseg : 0 < seg) {len : ℕ} (hlen : (len + seg - 1) / seg = n + 1) :
    (len - min len seg + seg - 1) / seg = n := by
  rcases Nat.le_total len seg with hle | hle
  · have hlt : len + seg - 1 < 2 * seg := by omega
    have hn : n + 1 < 2 := hlen ▸ (Nat.div_lt_iff_lt_mul hseg).mpr hlt
    rw [Nat.min_eq_left hle, Nat.sub_self, Nat.zero_add, Nat.div_eq_of_lt (by omega)]
    omega
  · have hsplit : len + seg - 1 = len - seg + seg - 1 + seg := by omega
    rw [hsplit, Nat.add_div_right _ hseg] at hlen
    rw [Nat.min_eq_right hle]
    exact Nat.succ.inj hlen

theorem ceil_pos (hseg : 0 < seg) {len : ℕ} (hlen : 0 < len) : 0 < (len + seg - 1) / seg :=
  Nat.div_pos (by omega) hseg

/-! ## The copy -/

/-- The data that some entries of the table describe. -/
def gather (d : Dma) (i n : ℕ) : List UInt8 :=
  (List.range' i n).flatMap fun k ↦ peek d.mem (d.vec k).dmaAddr (d.vec k).size

theorem gather_succ (d : Dma) (i n : ℕ) :
    gather d i (n + 1) = peek d.mem (d.vec i).dmaAddr (d.vec i).size ++ gather d (i + 1) n := by
  rw [gather, List.range'_succ, List.flatMap_cons]
  rfl

/-- A buffer does not have the cell at an address. -/
def MhiBuf.Avoids (b : MhiBuf) (a : ℕ) : Prop := a < b.dmaAddr ∨ b.dmaAddr + b.len ≤ a

/-- Two buffers have no cell in common. -/
def Separate (b c : MhiBuf) : Prop :=
  ∀ a, b.dmaAddr ≤ a → a < b.dmaAddr + b.len → c.Avoids a

/-- What copying data to segments changes: the entries from `i` on describe the data. -/
structure Copied (segs : List MhiBuf) (i : ℕ) (data : List UInt8) (d d' : Dma) : Prop where
  gathered : gather d' i segs.length = data
  entry : ∀ k (hk : k < segs.length), (d'.vec (i + k)).dmaAddr = segs[k].dmaAddr
  size : ∀ k (hk : k < segs.length), (d'.vec (i + k)).size ≤ segs[k].len
  others : ∀ k, k < i ∨ i + segs.length ≤ k → d'.vec k = d.vec k
  outside : ∀ a, (∀ b ∈ segs, b.Avoids a) → d'.mem a = d.mem a

theorem Copied.nil : Copied [] i [] d d where
  gathered := rfl
  entry k hk := absurd hk (Nat.not_lt_zero k)
  size k hk := absurd hk (Nat.not_lt_zero k)
  others _ _ := rfl
  outside _ _ := rfl

/-- The step of the loop in front of the rest. -/
theorem Copied.cons {b : MhiBuf} (hsep : ∀ c ∈ segs, Separate b c)
    (hrest : Copied segs (i + 1) (data.drop (min data.length b.len))
      ⟨poke d.mem b.dmaAddr (data.take (min data.length b.len)),
        Function.update d.vec i ⟨b.dmaAddr, min data.length b.len⟩⟩ d') :
    Copied (b :: segs) i data d d' := by
  have hvec : d'.vec i = ⟨b.dmaAddr, min data.length b.len⟩ :=
    (hrest.others i (.inl i.lt_succ_self)).trans (Function.update_self ..)
  have htake : (data.take (min data.length b.len)).length = min data.length b.len :=
    List.length_take_of_le (Nat.min_le_left ..)
  have hpeek : peek d'.mem b.dmaAddr (min data.length b.len) =
      data.take (min data.length b.len) := by
    have hframe : peek d'.mem b.dmaAddr (min data.length b.len) =
        peek (poke d.mem b.dmaAddr (data.take (min data.length b.len))) b.dmaAddr
          (min data.length b.len) :=
      peek_congr fun a hlow hhigh ↦ hrest.outside a fun c hc ↦ hsep c hc a hlow
        (Nat.lt_of_lt_of_le hhigh (Nat.add_le_add_left (Nat.min_le_right ..) _))
    have hholds : Holds (poke d.mem b.dmaAddr (data.take (min data.length b.len))) b.dmaAddr
      (data.take (min data.length b.len)) := holds_poke
    rw [hframe]
    rwa [Holds, htake] at hholds
  constructor
  case gathered =>
    rw [List.length_cons, gather_succ, hvec, hrest.gathered]
    dsimp only
    rw [hpeek, List.take_append_drop]
  case entry =>
    rintro (_ | k) hk
    · rw [Nat.add_zero, hvec]
      rfl
    · rw [← Nat.add_assoc, Nat.add_right_comm]
      exact hrest.entry k (Nat.lt_of_succ_lt_succ hk)
  case size =>
    rintro (_ | k) hk
    · rw [Nat.add_zero, hvec]
      exact Nat.min_le_right ..
    · rw [← Nat.add_assoc, Nat.add_right_comm]
      exact hrest.size k (Nat.lt_of_succ_lt_succ hk)
  case others =>
    intro k hk
    rw [List.length_cons] at hk
    rw [hrest.others k (by omega)]
    exact Function.update_of_ne (by omega) ..
  case outside =>
    intro a ha
    obtain ⟨hb, hsegs⟩ := List.forall_mem_cons.mp ha
    rw [hrest.outside a hsegs]
    refine poke_of_outside (hb.imp_right fun hle ↦ ?_)
    rw [htake]
    exact Nat.le_trans (Nat.add_le_add_left (Nat.min_le_right ..) _) hle

/-- The loop stops behind the last segment: neither the table's buffer nor what is behind the table
is touched. -/
theorem copyLoop_copied (hseg : 0 < seg) (hlen : ∀ b ∈ segs, b.len = seg)
    (hsep : segs.Pairwise Separate) (hroom : entrySize * (i + segs.length) ≤ table.len)
    (hcount : (data.length + seg - 1) / seg = segs.length) :
    ∃ d', copyLoop table (segs ++ rest) i data d = some d' ∧ Copied segs i data d d' := by
  induction segs generalizing i data d with
  | nil =>
    have hnil : data = [] := by
      rcases Nat.eq_zero_or_pos data.length with hzero | hpos
      · exact List.eq_nil_of_length_eq_zero hzero
      · exact absurd hcount (Nat.ne_of_gt (ceil_pos hseg hpos))
    subst hnil
    exact ⟨d, by rw [copyLoop], Copied.nil⟩
  | cons b segs ih =>
    obtain ⟨hb, hlen⟩ := List.forall_mem_cons.mp hlen
    obtain ⟨hsepb, hsep⟩ := List.pairwise_cons.mp hsep
    rw [List.length_cons] at hroom hcount
    have hcount' : ((data.drop (min data.length b.len)).length + seg - 1) / seg =
        segs.length := by
      rw [List.length_drop, hb]
      exact ceil_drop hseg hcount
    have hroom' : entrySize * (i + 1 + segs.length) ≤ table.len := by
      rwa [Nat.add_assoc, Nat.add_comm 1]
    have hfirst : entrySize * (i + 1) ≤ table.len :=
      Nat.le_trans (Nat.mul_le_mul_left _ (by omega)) hroom
    cases data with
    | nil =>
      rw [List.length_nil, Nat.zero_add, Nat.div_eq_of_lt (by omega)] at hcount
      exact absurd hcount (Nat.succ_ne_zero _).symm
    | cons c cs =>
      obtain ⟨d', hd', hcopied⟩ := ih hlen hsep hroom' hcount'
      refine ⟨d', ?_, hcopied.cons hsepb⟩
      rw [List.cons_append, copyLoop, if_pos hfirst]
      exact hd'

/-! ## The allocation -/

/-- The buffer of a request. -/
def bufAt (segSize segments : ℕ) (dma : ℕ → ℕ) (i : ℕ) : MhiBuf :=
  ⟨vecSize segSize segments i, i, dma i⟩

theorem allocSegments_success (hdma : ∀ i, env.coherent i = some (dma i)) (todo : ℕ) :
    allocSegments env seg n todo i bufs h =
      (bufs ++ (List.range' i todo).map (bufAt seg n dma), true,
        h.allocAll ((List.range' i todo).map .segment)) := by
  induction todo generalizing i bufs h with
  | zero =>
    rw [allocSegments, List.range'_zero, List.map_nil, List.append_nil]
    rfl
  | succ todo ih =>
    rw [allocSegments, hdma i]
    dsimp only
    rw [ih, List.range'_succ, List.map_cons, List.append_assoc]
    rfl

theorem segmentCount_eq {allocSize segSize : ℕ}
    (hcount : divRoundUp allocSize segSize + 1 < 2 ^ 31) :
    segmentCount allocSize segSize = divRoundUp allocSize segSize + 1 :=
  int32_of_range (by omega) (by omega)

/-- The buffers of a table with `n` segments. -/
def tableBufs (seg n : ℕ) (dma : ℕ → ℕ) : List MhiBuf :=
  (List.range (n + 1)).map (bufAt seg (n + 1) dma)

theorem tableBufs_eq (seg n : ℕ) (dma : ℕ → ℕ) : tableBufs seg n dma =
    (List.range n).map (fun i ↦ ⟨seg, i, dma i⟩) ++ [⟨entrySize * n, n, dma n⟩] := by
  rw [tableBufs, List.range_succ, List.map_append, List.map_singleton]
  congr 1
  · refine List.map_congr_left fun i hi ↦ ?_
    rw [bufAt, vecSize, Nat.add_sub_cancel, if_neg (Nat.ne_of_lt (List.mem_range.mp hi))]
  · rw [bufAt, vecSize, Nat.add_sub_cancel, if_pos rfl]

/-- The image that is allocated if all allocations succeed. -/
def imageOf (seg n : ℕ) (dma : ℕ → ℕ) : ImageInfo :=
  ⟨tableBufs seg n dma, some ⟨entrySize * n, n, dma n⟩, n + 1⟩

theorem mhiAllocBhieTable_success {allocSize : ℕ} (hkzalloc : env.kzalloc) (hkcalloc : env.kcalloc)
    (hdma : ∀ i, env.coherent i = some (dma i)) (hn : divRoundUp allocSize seg = n)
    (hcount : n + 1 < 2 ^ 31) :
    (mhiAllocBhieTable env seg allocSize h).1 = some (imageOf seg n dma) := by
  subst hn
  have hpos : ¬ ((divRoundUp allocSize seg : ℤ) + 1 < 0 ∨ (!env.kcalloc) = true) := by
    rw [hkcalloc]
    simp only [Bool.not_true, Bool.false_eq_true, or_false]
    omega
  have hnat : ((divRoundUp allocSize seg : ℤ) + 1).toNat = divRoundUp allocSize seg + 1 := by omega
  have hlast : (tableBufs seg (divRoundUp allocSize seg) dma).getLast? =
      some ⟨entrySize * divRoundUp allocSize seg, divRoundUp allocSize seg,
        dma (divRoundUp allocSize seg)⟩ := by
    rw [tableBufs_eq, List.getLast?_append_of_ne_nil _ (List.cons_ne_nil _ _)]
    rfl
  unfold mhiAllocBhieTable
  rw [segmentCount_eq hcount, hkzalloc]
  dsimp only
  rw [if_neg (by decide), if_neg hpos, hnat, allocSegments_success hdma, ← List.range_eq_range',
    List.nil_append]
  dsimp only
  rw [imageOf, ← hlast]
  rfl

/-! ## The table describes the image -/

/-- The buffers of a table have no cells in common. -/
def BufsApart (seg n : ℕ) (dma : ℕ → ℕ) : Prop :=
  (tableBufs seg n dma).Pairwise Separate

/-- The table describes the image: its buffer is the last one and has room for the entries and no
others, the entries are the segments in order and the firmware, and it is not written itself. -/
structure Describes (firmware : List UInt8) (info : ImageInfo) (d d' : Dma) : Prop where
  last : info.bhiVec = info.mhiBuf[info.entries - 1]?
  room : ∃ table, info.bhiVec = some table ∧ table.len = entrySize * (info.entries - 1)
  image : gather d' 0 (info.entries - 1) = firmware
  inside : ∀ k < info.entries - 1, ∃ b, info.mhiBuf[k]? = some b ∧
    (d'.vec k).dmaAddr = b.dmaAddr ∧ (d'.vec k).size ≤ b.len
  behind : ∀ k, info.entries - 1 ≤ k → d'.vec k = d.vec k
  kept : ∀ table, info.bhiVec = some table →
    ∀ a, table.dmaAddr ≤ a → a < table.dmaAddr + table.len → d'.mem a = d.mem a

/-- A table is allocated and filled, and describes the image. -/
def FirmwareDescribed (env : AllocEnv) (segLen : ℕ) (firmware : List UInt8)
    (h : Allocation Resource) (d : Dma) : Prop :=
  ∃ info d', (mhiAllocBhieTable env segLen firmware.length h).1 = some info ∧
    mhiFirmwareCopy firmware info d = some d' ∧ Describes firmware info d d'

/-- A table of enough segments is filled with the image. -/
theorem copy_describes {firmware : List UInt8} (hseg : 0 < seg)
    (hcount : (firmware.length + seg - 1) / seg = n) (hsep : BufsApart seg n dma) :
    ∃ d', mhiFirmwareCopy firmware (imageOf seg n dma) d = some d' ∧
      Describes firmware (imageOf seg n dma) d d' := by
  let segs : List MhiBuf := (List.range n).map fun i ↦ ⟨seg, i, dma i⟩
  let table : MhiBuf := ⟨entrySize * n, n, dma n⟩
  have hlength : segs.length = n := by rw [List.length_map, List.length_range]
  have hbufs : tableBufs seg n dma = segs ++ [table] := tableBufs_eq seg n dma
  rw [BufsApart, hbufs] at hsep
  obtain ⟨hsegs, -, htable⟩ := List.pairwise_append.mp hsep
  have hlen : ∀ b ∈ segs, b.len = seg := by
    intro b hb
    obtain ⟨i, -, rfl⟩ := List.mem_map.mp hb
    rfl
  have hroom : entrySize * (0 + segs.length) ≤ table.len :=
    Nat.le_of_eq (by rw [hlength, Nat.zero_add])
  obtain ⟨d', hd', hcopied⟩ : ∃ d', copyLoop table (segs ++ [table]) 0 firmware d = some d' ∧
      Copied segs 0 firmware d d' :=
    copyLoop_copied hseg hlen hsegs hroom (hcount.trans hlength.symm)
  have hget (k : ℕ) (hk : k < n) : (tableBufs seg n dma)[k]? = some ⟨seg, k, dma k⟩ := by
    rw [hbufs, List.getElem?_append_left (hlength.symm ▸ hk), List.getElem?_map,
      List.getElem?_range hk]
    rfl
  refine ⟨d', ?_, ?_⟩
  · rw [mhiFirmwareCopy, imageOf]
    dsimp only
    rw [hbufs]
    exact hd'
  constructor
  case last =>
    show some table = (tableBufs seg n dma)[n]?
    rw [hbufs, List.getElem?_append_right (Nat.le_of_eq hlength), hlength, Nat.sub_self]
    rfl
  case room => exact ⟨table, rfl, rfl⟩
  case image =>
    have hgathered := hcopied.gathered
    rwa [hlength] at hgathered
  case inside =>
    intro k hk
    have hk' : k < segs.length := hlength.symm ▸ hk
    have hseg' : segs[k] = ⟨seg, k, dma k⟩ := by
      rw [List.getElem_map, List.getElem_range]
    have hentry := hcopied.entry k hk'
    have hsize := hcopied.size k hk'
    rw [hseg', Nat.zero_add] at hentry hsize
    exact ⟨_, hget k hk, hentry, hsize⟩
  case behind =>
    intro k hk
    refine hcopied.others k (.inr ?_)
    rw [hlength, Nat.zero_add]
    exact hk
  case kept =>
    intro t ht a hlow hhigh
    obtain rfl : table = t := Option.some.inj ht
    refine hcopied.outside a fun b hb ↦ ?_
    by_contra hnot
    have hin : b.dmaAddr ≤ a ∧ a < b.dmaAddr + b.len := by
      rw [MhiBuf.Avoids, not_or, Nat.not_lt, Nat.not_le] at hnot
      exact hnot
    rcases htable b hb table (List.mem_singleton_self _) a hin.1 hin.2 with hlt | hle
    · exact absurd hlow (Nat.not_le_of_gt hlt)
    · exact absurd hhigh (Nat.not_lt_of_ge hle)

/-- `DIV_ROUND_UP` is rounded up as long as its sum does not wrap. -/
theorem divRoundUp_of_le {len : ℕ} (hle : len + seg ≤ 2 ^ 64) :
    divRoundUp len seg = (len + seg - 1) / seg := by
  rw [divRoundUp, Nat.mod_eq_of_lt (by omega)]

/-- `DIV_ROUND_UP` of a sum that wraps is zero. -/
theorem divRoundUp_of_lt {len : ℕ} (hlen : len < 2 ^ 64) (hseg : seg < 2 ^ 64)
    (hlt : 2 ^ 64 < len + seg) : divRoundUp len seg = 0 := by
  have hmod : (len + seg - 1) % 2 ^ 64 = len + seg - 1 - 2 ^ 64 := by omega
  rw [divRoundUp, hmod, Nat.div_eq_of_lt (by omega)]

/-- Without a segment the first entry is behind the table. -/
theorem mhiFirmwareCopy_zero {firmware : List UInt8} (hne : firmware ≠ []) :
    mhiFirmwareCopy firmware (imageOf seg 0 dma) d = none := by
  cases firmware with
  | nil => exact absurd rfl hne
  | cons c cs =>
    show copyLoop ⟨0, 0, dma 0⟩ [⟨0, 0, dma 0⟩] 0 (c :: cs) d = none
    rw [copyLoop]
    exact if_neg (Nat.not_succ_le_zero _)

/-- A sum that wraps leaves no segments, and the first entry is written behind the table. -/
theorem not_firmwareDescribed {firmware : List UInt8} (hkzalloc : env.kzalloc)
    (hkcalloc : env.kcalloc) (hdma : ∀ i, env.coherent i = some (dma i))
    (hne : firmware ≠ []) (hlen : firmware.length < 2 ^ 64) (hseg : seg < 2 ^ 64)
    (hlt : 2 ^ 64 < firmware.length + seg) : ¬ FirmwareDescribed env seg firmware h d := by
  rintro ⟨info, d', halloc, hcopy, -⟩
  have hzero := divRoundUp_of_lt hlen hseg hlt
  rw [mhiAllocBhieTable_success hkzalloc hkcalloc hdma hzero (by decide)] at halloc
  obtain rfl := Option.some.inj halloc
  rw [mhiFirmwareCopy_zero hne] at hcopy
  exact absurd hcopy (Option.some_ne_none d').symm

/-- If the allocations succeed, the table describes the image if and only if the sum that is
rounded up does not wrap. -/
theorem bhie_firmwareDescribed_iff (env : AllocEnv) (segLen : ℕ) (firmware : List UInt8)
    (h : Allocation Resource) (d : Dma) (dma : ℕ → ℕ) (hkzalloc : env.kzalloc)
    (hkcalloc : env.kcalloc) (hdma : ∀ i, env.coherent i = some (dma i))
    (happart : BufsApart segLen (divRoundUp firmware.length segLen) dma)
    (hsize : 1 ≤ firmware.length) (hsize' : firmware.length < 2 ^ 64)
    (hseg : 1 ≤ segLen) (hseg' : segLen < 2 ^ 64)
    (hcount : (firmware.length + segLen - 1) / segLen + 1 < 2 ^ 31) :
    FirmwareDescribed env segLen firmware h d ↔ firmware.length + segLen ≤ 2 ^ 64 := by
  constructor
  · intro hdescribed
    by_contra hlt
    exact not_firmwareDescribed hkzalloc hkcalloc hdma (List.ne_nil_of_length_pos hsize) hsize'
      hseg' (Nat.lt_of_not_le hlt) hdescribed
  · intro hle
    have hn := divRoundUp_of_le hle
    rw [hn] at happart
    obtain ⟨d', hcopy, hdescribes⟩ := copy_describes (d := d) hseg rfl happart
    exact ⟨_, d', mhiAllocBhieTable_success hkzalloc hkcalloc hdma hn hcount, hcopy, hdescribes⟩

theorem separate_of_le {b c : MhiBuf} (hle : b.dmaAddr + b.len ≤ c.dmaAddr) : Separate b c :=
  fun _ _ hhigh ↦ .inl (Nat.lt_of_lt_of_le hhigh hle)

/-- An environment where every request succeeds. -/
def allGranted (dma : ℕ → ℕ) : AllocEnv := ⟨true, true, fun i ↦ some (dma i)⟩

/-- Five bytes in segments of four. -/
theorem bhie_firmwareDescribed_iff_five :
    FirmwareDescribed (allGranted fun i ↦ 64 * i) 4 [1, 2, 3, 4, 5] .empty
      ⟨fun _ ↦ 0, fun _ ↦ ⟨0, 0⟩⟩ ↔ [1, 2, 3, 4, 5].length + 4 ≤ 2 ^ 64 := by
  have happart : BufsApart 4 2 fun i ↦ 64 * i :=
    List.Pairwise.imp separate_of_le (by decide)
  exact bhie_firmwareDescribed_iff (allGranted fun i ↦ 64 * i) 4 [1, 2, 3, 4, 5] .empty
    ⟨fun _ ↦ 0, fun _ ↦ ⟨0, 0⟩⟩ (fun i ↦ 64 * i) rfl rfl (fun _ ↦ rfl) happart (by decide)
    (by decide) (by decide) (by decide) (by decide)

/-- Two bytes in one segment of the largest size. -/
theorem bhie_firmwareDescribed_wraps : ¬ ∀ (env : AllocEnv) (segLen : ℕ) (firmware : List UInt8)
    (h : Allocation Resource) (d : Dma) (dma : ℕ → ℕ), env.kzalloc → env.kcalloc →
    (∀ i, env.coherent i = some (dma i)) →
    BufsApart segLen (divRoundUp firmware.length segLen) dma →
    1 ≤ firmware.length → firmware.length < 2 ^ 64 → 1 ≤ segLen → segLen < 2 ^ 64 →
    (firmware.length + segLen - 1) / segLen + 1 < 2 ^ 31 →
      FirmwareDescribed env segLen firmware h d := by
  intro hall
  have happart : BufsApart (2 ^ 64 - 1) 0 fun i ↦ 64 * i := List.pairwise_singleton _ _
  have hdescribed := hall (allGranted fun i ↦ 64 * i) (2 ^ 64 - 1) [0, 0] .empty
    ⟨fun _ ↦ 0, fun _ ↦ ⟨0, 0⟩⟩ (fun i ↦ 64 * i) rfl rfl (fun _ ↦ rfl) happart (by decide)
    (by decide) (by decide) (by decide) (by decide)
  exact not_firmwareDescribed rfl rfl (fun _ ↦ rfl) (List.cons_ne_nil _ _) (by decide)
    (by decide) (by decide) hdescribed

end Wwan.Mhi.Bhie
