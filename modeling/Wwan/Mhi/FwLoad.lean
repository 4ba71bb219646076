import Wwan.Mhi.Bhie

/-!
# Loading the firmware

`mhi_fw_load_worker` gets the firmware, sends its first part through a buffer of its own and, if
`fbc_download` is set, builds a vector table for all of it. Each step can fail, and the worker has
to give back what it has got by then.

The steps that have an outcome of their own are in `Outcomes`. Copying the image allocates nothing
and frees nothing, and is left out.
-/

namespace Wwan.Mhi.Bhie

open Wwan

/-- `enum mhi_ee`, as far as the worker looks at it. -/
inductive Ee
  | pbl
  | pthru
  | edl
  | other
deriving DecidableEq

/-- The fields of `struct mhi_controller` that the worker reads. -/
structure FwController where
  edlImage : Option String
  fwImage : Option String
  fbcDownload : Bool
  sblSize : ℕ
  segLen : ℕ
deriving DecidableEq

/-- What happens around the worker. -/
structure Outcomes where
  /-- The first wait ends in time and without an error state. -/
  inPbl : Bool
  /-- `mhi_cntrl->ee` at each time it is looked at. -/
  ee : ℕ → Ee
  /-- The size of the firmware that `request_firmware` gets. -/
  requestFirmware : String → Option ℕ
  sblBuffer : Bool
  /-- `mhi_fw_load_sbl`. -/
  loadSbl : ℤ
  table : AllocEnv
  /-- `mhi_ready_state_transition`. -/
  ready : ℤ
  /-- The wait for the SBL ends in time and without an error state. -/
  inSbl : Bool

/-! ## The worker -/

/-- The part of the worker that builds the table; the image is `fbc_image`. -/
def loadImage (c : FwController) (o : Outcomes) (size : ℕ) (h : Allocation Resource) :
    Allocation Resource × Option ImageInfo :=
  match mhiAllocBhieTable o.table c.segLen size h with
  -- `error_alloc_fw_table`
  | (none, h) => (h.free .firmware, none)
  | (some image, h) =>
    -- `error_read`
    if o.ready ≠ 0 ∨ !o.inSbl then ((mhiFreeBhieTable image h).free .firmware, none)
    -- whatever `mhi_fw_load_amss` returns
    else (h.free .firmware, some image)

/-- The part of the worker behind `request_firmware`. -/
def loadFirmware (c : FwController) (o : Outcomes) (size : ℕ) (h : Allocation Resource) :
    Allocation Resource × Option ImageInfo :=
  let h := h.alloc .firmware
  if !o.sblBuffer then (h.free .firmware, none)
  else
    let h := (h.alloc .sblBuffer).free .sblBuffer
    if o.loadSbl ≠ 0 ∨ o.ee 2 = .edl then (h.free .firmware, none)
    else if c.fbcDownload then loadImage c o size h
    else (h.free .firmware, none)

/-- `mhi_fw_load_worker` with `fbc_image` `NULL`. -/
def mhiFwLoadWorker (c : FwController) (o : Outcomes) (h : Allocation Resource) :
    Allocation Resource × Option ImageInfo :=
  if !o.inPbl then (h, none)
  else if o.ee 0 = .pthru then (h, none)
  else
    match if o.ee 1 = .edl then c.edlImage else c.fwImage with
    | none => (h, none)
    | some name =>
      if c.fbcDownload ∧ (c.sblSize = 0 ∨ c.segLen = 0) then (h, none)
      else
        match o.requestFirmware name with
        | none => (h, none)
        | some size => loadFirmware c o size h

/-! ## What a run leaves -/

/-- The size of the firmware if the worker comes to the allocation of the table. -/
def reachesTable (c : FwController) (o : Outcomes) : Option ℕ :=
  if !o.inPbl then none
  else if o.ee 0 = .pthru then none
  else
    match if o.ee 1 = .edl then c.edlImage else c.fwImage with
    | none => none
    | some name =>
      if c.fbcDownload ∧ (c.sblSize = 0 ∨ c.segLen = 0) then none
      else
        match o.requestFirmware name with
        | none => none
        | some size =>
          if o.sblBuffer ∧ o.loadSbl = 0 ∧ o.ee 2 ≠ .edl ∧ c.fbcDownload then some size else none

/-- What is reachable through `fbc_image`. -/
def reachable : Option ImageInfo → Resource → Prop
  | none, _ => False
  | some image, x => (∃ b ∈ image.mhiBuf, x = .segment b.buf) ∨ x = .mhiBufs ∨ x = .imageInfo

/-- The segments up to the `n`th one. -/
def SegmentsTo (n : ℕ) (x : Resource) : Prop := ∃ i < n, x = .segment i

variable {env : AllocEnv} {c : FwController} {o : Outcomes} {segSize segments size i n : ℕ}
  {bufs : List MhiBuf} {h : Allocation Resource} {p : Resource → Prop} {image : ImageInfo}

/-! ## The allocation of a table -/

theorem segmentsTo_succ (x : Resource) :
    SegmentsTo (n + 1) x ↔ x = .segment n ∨ SegmentsTo n x := by
  constructor
  · rintro ⟨i, hi, rfl⟩
    rcases Nat.lt_succ_iff_lt_or_eq.mp hi with hlt | rfl
    · exact .inr ⟨i, hlt, rfl⟩
    · exact .inl rfl
  · rintro (rfl | ⟨i, hi, rfl⟩)
    · exact ⟨n, n.lt_succ_self, rfl⟩
    · exact ⟨i, Nat.lt_succ_of_lt hi, rfl⟩

/-- The requests stop at the first one that fails. -/
theorem allocSegments_spec (env : AllocEnv) (segSize segments todo : ℕ)
    (hbufs : bufs.map MhiBuf.buf = List.range i)
    (howns : h.Owns fun x ↦ SegmentsTo i x ∨ p x) :
    ∃ j bufs' h', allocSegments env segSize segments todo i bufs h =
        (bufs', decide (j = i + todo), h') ∧
      j ≤ i + todo ∧ bufs'.map MhiBuf.buf = List.range j ∧
      (h'.Owns fun x ↦ SegmentsTo j x ∨ p x) ∧
      (j = i + todo ↔ ∀ k, i ≤ k → k < i + todo → env.coherent k ≠ none) := by
  induction todo generalizing i bufs h with
  | zero =>
    refine ⟨i, bufs, h, ?_, Nat.le_refl _, hbufs, howns, iff_of_true rfl ?_⟩
    · rw [allocSegments, decide_eq_true (Nat.add_zero i).symm]
    · intro k hle hlt
      exact absurd hle (Nat.not_le_of_gt hlt)
  | succ todo ih =>
    cases hdma : env.coherent i with
    | none =>
      have hne : i ≠ i + (todo + 1) := by omega
      refine ⟨i, bufs, h, ?_, Nat.le_add_right _ _, hbufs, howns, iff_of_false hne ?_⟩
      · rw [allocSegments, hdma, decide_eq_false hne]
      · intro hall
        exact hall i (Nat.le_refl i) (by omega) hdma
    | some dma =>
      have hbufs' : (bufs ++ [(⟨vecSize segSize segments i, i, dma⟩ : MhiBuf)]).map
          MhiBuf.buf = List.range (i + 1) := by
        rw [List.map_append, hbufs, List.range_succ]
        rfl
      have howns' : (h.alloc (.segment i)).Owns fun x ↦ SegmentsTo (i + 1) x ∨ p x := by
        refine (howns.alloc _).congr fun x ↦ ?_
        rw [segmentsTo_succ, or_assoc]
      obtain ⟨j, bufs', h', heq, hle, hbufs'', howns'', hiff⟩ := ih hbufs' howns'
      have hsum : i + 1 + todo = i + (todo + 1) := by omega
      rw [hsum] at heq hle hiff
      refine ⟨j, bufs', h', ?_, hle, hbufs'', howns'', hiff.trans ⟨?_, ?_⟩⟩
      · rw [allocSegments, hdma]
        exact heq
      · intro hall k hk hlt
        rcases Nat.eq_or_lt_of_le hk with rfl | hk
        · rw [hdma]
          exact Option.some_ne_none dma
        · exact hall k hk hlt
      · intro hall k hk hlt
        exact hall k (Nat.le_of_succ_le hk) hlt

/-- Segments that are owned are freed one after the other, in any order. -/
theorem freeBufs_owns (hbufs : (bufs.map MhiBuf.buf).Perm (List.range n))
    (hp : ∀ k, ¬ p (.segment k)) (howns : h.Owns fun x ↦ SegmentsTo n x ∨ p x) :
    (freeBufs bufs h).Owns p := by
  have hmap : bufs.map (fun b ↦ Resource.segment b.buf) =
      (bufs.map MhiBuf.buf).map Resource.segment := (List.map_map ..).symm
  have hmem (x : Resource) : x ∈ (bufs.map MhiBuf.buf).map Resource.segment ↔ SegmentsTo n x := by
    rw [(hbufs.map _).mem_iff, List.mem_map]
    constructor
    · rintro ⟨k, hk, rfl⟩
      exact ⟨k, List.mem_range.mp hk, rfl⟩
    · rintro ⟨k, hk, rfl⟩
      exact ⟨k, List.mem_range.mpr hk, rfl⟩
  have hnodup : ((bufs.map MhiBuf.buf).map Resource.segment).Nodup := by
    refine ((hbufs.map _).nodup_iff).mpr (List.nodup_range.map ?_)
    intro a b hab
    exact Resource.segment.inj hab
  unfold freeBufs
  rw [hmap]
  refine (howns.freeAll hnodup fun x hx ↦ .inl ((hmem x).mp hx)).congr fun x ↦ ?_
  rw [hmem]
  constructor
  · intro hx
    refine ⟨.inr hx, ?_⟩
    rintro ⟨k, -, rfl⟩
    exact hp k hx
  · rintro ⟨hx, hnot⟩
    exact hx.resolve_left hnot

/-- The segments of a table are those of its requests. -/
def ImageInfo.Numbered (image : ImageInfo) : Prop :=
  image.mhiBuf.map MhiBuf.buf = List.range image.entries

/-- A table in which a segment could not be allocated. -/
def LosesArray (env : AllocEnv) (segLen size : ℕ) : Prop :=
  env.kzalloc ∧ env.kcalloc ∧ 0 ≤ segmentCount size segLen ∧
    ∃ k < (segmentCount size segLen).toNat, env.coherent k = none

/-- A table for which all allocations succeed. -/
def TableBuilt (env : AllocEnv) (segLen size : ℕ) : Prop :=
  env.kzalloc ∧ env.kcalloc ∧ 0 ≤ segmentCount size segLen ∧
    ∀ k < (segmentCount size segLen).toNat, env.coherent k ≠ none

/-- A resource that a table has none of. -/
def OtherThanTable (p : Resource → Prop) : Prop :=
  ¬ p .imageInfo ∧ ¬ p .mhiBufs ∧ ∀ k, ¬ p (.segment k)

/-- What a call of `mhi_alloc_bhie_table` leaves: nothing, or the array of buffers, or a table. -/
inductive TableOutcome (env : AllocEnv) (segLen size : ℕ) (p : Resource → Prop) :
    Option ImageInfo × Allocation Resource → Prop
  | refused {h : Allocation Resource} (hbuilt : ¬ TableBuilt env segLen size)
      (hloses : ¬ LosesArray env segLen size) (howns : h.Owns p) :
      TableOutcome env segLen size p (none, h)
  | lost {h : Allocation Resource} (hbuilt : ¬ TableBuilt env segLen size)
      (hloses : LosesArray env segLen size) (howns : h.Owns fun x ↦ x = .mhiBufs ∨ p x) :
      TableOutcome env segLen size p (none, h)
  | built {h : Allocation Resource} {image : ImageInfo} (hbuilt : TableBuilt env segLen size)
      (hloses : ¬ LosesArray env segLen size) (hnumbered : image.Numbered)
      (hentries : image.entries = (segmentCount size segLen).toNat)
      (howns : h.Owns fun x ↦
        SegmentsTo image.entries x ∨ x = .mhiBufs ∨ x = .imageInfo ∨ p x) :
      TableOutcome env segLen size p (some image, h)

theorem mhiAllocBhieTable_outcome (env : AllocEnv) (segLen size : ℕ) (hp : OtherThanTable p)
    (howns : h.Owns p) :
    TableOutcome env segLen size p (mhiAllocBhieTable env segLen size h) := by
  obtain ⟨himage, hbufs, hsegs⟩ := hp
  have hinfo := howns.alloc Resource.imageInfo
  -- a table that is given up gives its `image_info` back
  have hback : ((h.alloc .imageInfo).free .imageInfo).Owns p :=
    (hinfo.free (.inl rfl)).congr fun x ↦
      ⟨fun hx ↦ ⟨.inr hx, fun hx' ↦ himage (hx' ▸ hx)⟩, fun hx ↦ hx.1.resolve_left hx.2⟩
  unfold mhiAllocBhieTable
  dsimp only
  split
  next hz =>
    have hz : ¬ env.kzalloc = true := by simpa using hz
    exact .refused (fun hb ↦ hz hb.1) (fun hl ↦ hz hl.1) howns
  next hz =>
    split
    next hc =>
      have hnot : ¬ (env.kcalloc = true ∧ 0 ≤ segmentCount size segLen) := by
        rintro ⟨hcalloc, hpos⟩
        rcases hc with hneg | hc
        · exact absurd hpos (Int.not_le.mpr hneg)
        · exact absurd hcalloc (by simpa using hc)
      exact .refused (fun hb ↦ hnot ⟨hb.2.1, hb.2.2.1⟩) (fun hl ↦ hnot ⟨hl.2.1, hl.2.2.1⟩) hback
    next hc =>
      obtain ⟨hneg, hcalloc⟩ := not_or.mp hc
      have hpos := Int.not_lt.mp hneg
      have hz : env.kzalloc = true := by simpa using hz
      have hcalloc : env.kcalloc = true := by simpa using hcalloc
      have hstart : ((h.alloc .imageInfo).alloc .mhiBufs).Owns fun x ↦
          SegmentsTo 0 x ∨ x = .mhiBufs ∨ x = .imageInfo ∨ p x := by
        refine (hinfo.alloc Resource.mhiBufs).congr fun x ↦ or_iff_right ?_
        rintro ⟨k, hk, -⟩
        exact absurd hk (Nat.not_lt_zero k)
      obtain ⟨j, bufs, h', heq, hle, hnum, howns', hiff⟩ := allocSegments_spec env segLen
        (segmentCount size segLen).toNat (segmentCount size segLen).toNat
        (List.map_nil (f := MhiBuf.buf)) hstart
      rw [Nat.zero_add] at heq hle hiff
      rw [heq]
      by_cases hj : j = (segmentCount size segLen).toNat
      · have hall := hiff.mp hj
        rw [decide_eq_true hj]
        refine .built ⟨hz, hcalloc, hpos, fun k hk ↦ hall k k.zero_le hk⟩ ?_ ?_ ?_ ?_
        · rintro ⟨-, -, -, k, hk, hnone⟩
          exact hall k k.zero_le hk hnone
        · rw [ImageInfo.Numbered, hnum, hj]
        · dsimp only
        · exact hj ▸ howns'
      · have hsome : ∃ k < (segmentCount size segLen).toNat, env.coherent k = none := by
          by_contra hnot
          refine hj (hiff.mpr fun k _ hk hnone ↦ hnot ⟨k, hk, hnone⟩)
        rw [decide_eq_false hj]
        have hreverse : ((bufs.reverse).map MhiBuf.buf).Perm (List.range j) := by
          rw [List.map_reverse, hnum]
          exact List.reverse_perm _
        have hfreed : (freeBufs bufs.reverse h').Owns fun x ↦
            x = .mhiBufs ∨ x = .imageInfo ∨ p x := by
          refine freeBufs_owns hreverse (fun k hk ↦ ?_) howns'
          rcases hk with hk | hk | hk
          · exact absurd hk (by simp)
          · exact absurd hk (by simp)
          · exact hsegs k hk
        refine .lost ?_ ⟨hz, hcalloc, hpos, hsome⟩ ?_
        · rintro ⟨-, -, -, hall⟩
          obtain ⟨k, hk, hnone⟩ := hsome
          exact hall k hk hnone
        · refine (hfreed.free (.inr (.inl rfl))).congr fun x ↦ ⟨?_, ?_⟩
          · rintro (rfl | hx)
            · exact ⟨.inl rfl, by simp⟩
            · exact ⟨.inr (.inr hx), fun hx' ↦ himage (hx' ▸ hx)⟩
          · rintro ⟨hx | hx | hx, hne⟩
            · exact .inl hx
            · exact absurd hx hne
            · exact .inr hx

/-- A table is freed as a whole. -/
theorem mhiFreeBhieTable_owns (hnum : image.Numbered) (hp : OtherThanTable p)
    (howns : h.Owns fun x ↦ SegmentsTo image.entries x ∨ x = .mhiBufs ∨ x = .imageInfo ∨ p x) :
    (mhiFreeBhieTable image h).Owns p := by
  obtain ⟨himage, hbufs, hsegs⟩ := hp
  have htake : image.mhiBuf.take image.entries = image.mhiBuf := by
    refine List.take_of_length_le (Nat.le_of_eq ?_)
    rw [← List.length_map (f := MhiBuf.buf), hnum, List.length_range]
  have hfreed : (freeBufs image.mhiBuf h).Owns fun x ↦ x = .mhiBufs ∨ x = .imageInfo ∨ p x := by
    refine freeBufs_owns (hnum ▸ List.Perm.refl _) (fun k hk ↦ ?_) howns
    rcases hk with hk | hk | hk
    · exact absurd hk (by simp)
    · exact absurd hk (by simp)
    · exact hsegs k hk
  unfold mhiFreeBhieTable
  rw [htake]
  have harray : ((freeBufs image.mhiBuf h).free .mhiBufs).Owns fun x ↦ x = .imageInfo ∨ p x := by
    refine (hfreed.free (.inl rfl)).congr fun x ↦ ⟨?_, ?_⟩
    · rintro (rfl | hx)
      · exact ⟨.inr (.inl rfl), by simp⟩
      · exact ⟨.inr (.inr hx), fun hx' ↦ hbufs (hx' ▸ hx)⟩
    · rintro ⟨hx, hne⟩
      exact hx.resolve_left hne
  refine (harray.free (.inl rfl)).congr fun x ↦ ⟨?_, ?_⟩
  · intro hx
    exact ⟨.inr hx, fun hx' ↦ himage (hx' ▸ hx)⟩
  · rintro ⟨hx, hne⟩
    exact hx.resolve_left hne

/-! ## The run -/

/-- A run leaves what is reachable through `fbc_image` and nothing else, and that is a whole table
if one was built and the device came up. -/
structure LeavesNothing (c : FwController) (o : Outcomes)
    (r : Allocation Resource × Option ImageInfo) : Prop where
  owns : r.1.Owns (reachable r.2)
  loaded : r.2.isSome ↔ ∃ size, reachesTable c o = some size ∧
    TableBuilt o.table c.segLen size ∧ o.ready = 0 ∧ o.inSbl
  complete : ∀ image, r.2 = some image → image.Numbered

theorem numbered_segments (hnum : image.Numbered) {x : Resource} :
    (∃ b ∈ image.mhiBuf, x = .segment b.buf) ↔ SegmentsTo image.entries x := by
  have hmem (k : ℕ) : k ∈ image.mhiBuf.map MhiBuf.buf ↔ k < image.entries := by
    rw [hnum, List.mem_range]
  constructor
  · rintro ⟨b, hb, rfl⟩
    exact ⟨b.buf, (hmem _).mp (List.mem_map_of_mem hb), rfl⟩
  · rintro ⟨k, hk, rfl⟩
    obtain ⟨b, hb, rfl⟩ := List.mem_map.mp ((hmem k).mpr hk)
    exact ⟨b, hb, rfl⟩

/-- The firmware is given back last. -/
theorem free_firmware (hp : ¬ p .firmware) (howns : h.Owns fun x ↦ x = .firmware ∨ p x) :
    (h.free .firmware).Owns p :=
  (howns.free (.inl rfl)).congr fun _ ↦
    ⟨fun hx ↦ ⟨.inr hx, fun hx' ↦ hp (hx' ▸ hx)⟩, fun hx ↦ hx.1.resolve_left hx.2⟩

/-- Behind the SBL a run leaves nothing unless the array of buffers is lost. -/
theorem loadImage_leavesNothing_iff (hreach : reachesTable c o = some size)
    (howns : h.Owns fun x ↦ x = .firmware ∨ False) :
    LeavesNothing c o (loadImage c o size h) ↔ ¬ LosesArray o.table c.segLen size := by
  have hother : OtherThanTable fun x ↦ x = Resource.firmware ∨ False := by
    refine ⟨?_, ?_, fun k ↦ ?_⟩
    all_goals simp
  have hloaded : (∃ size, reachesTable c o = some size ∧
      TableBuilt o.table c.segLen size ∧ o.ready = 0 ∧ o.inSbl) ↔
        TableBuilt o.table c.segLen size ∧ o.ready = 0 ∧ o.inSbl := by
    rw [hreach]
    constructor
    · rintro ⟨_, heq, hrest⟩
      obtain rfl := Option.some.inj heq
      exact hrest
    · intro hrest
      exact ⟨size, rfl, hrest⟩
  unfold loadImage
  have hcase := mhiAllocBhieTable_outcome o.table c.segLen size hother howns
  generalize mhiAllocBhieTable o.table c.segLen size h = r at hcase ⊢
  have hnone {image : ImageInfo} : (none : Option ImageInfo) = some image → image.Numbered :=
    fun hx ↦ absurd hx (Option.some_ne_none image).symm
  cases hcase with
  | refused hbuilt hloses howns =>
    refine iff_of_true ⟨free_firmware id howns, ?_, fun _ ↦ hnone⟩ hloses
    exact iff_of_false Bool.false_ne_true fun hx ↦ hbuilt (hloaded.mp hx).1
  | lost hbuilt hloses howns =>
    refine iff_of_false (fun hx ↦ ?_) (not_not.mpr hloses)
    -- the array is still there, and nothing is reachable
    have hfreed := howns.free (.inr (.inl rfl))
    have harray := (hfreed.live .mhiBufs).mpr ⟨.inl rfl, by simp⟩
    exact (hx.owns.live .mhiBufs).mp harray
  | built hbuilt hloses hnum hentries howns =>
    rename_i h image
    refine iff_of_true ?_ hloses
    dsimp only
    split
    next hfail =>
      have hnot : ¬ (o.ready = 0 ∧ o.inSbl = true) := by
        rintro ⟨hready, hsbl⟩
        rcases hfail with hfail | hfail
        · exact hfail hready
        · exact absurd hsbl (by simpa using hfail)
      refine ⟨free_firmware id (mhiFreeBhieTable_owns hnum hother howns), ?_, fun _ ↦ hnone⟩
      exact iff_of_false Bool.false_ne_true fun hx ↦ hnot (hloaded.mp hx).2
    next hgood =>
      obtain ⟨hready, hsbl⟩ := not_or.mp hgood
      have hready := not_not.mp hready
      have hsbl : o.inSbl = true := by simpa using hsbl
      refine ⟨?_, iff_of_true rfl (hloaded.mpr ⟨hbuilt, hready, hsbl⟩), ?_⟩
      · refine free_firmware (by simp [reachable]) (howns.congr fun x ↦ ?_)
        rw [reachable, numbered_segments hnum, or_false, or_comm, or_assoc, or_assoc]
      · intro image' heq
        obtain rfl := Option.some.inj heq
        exact hnum

/-- Before the table a run gives everything back. -/
def GivenBack (r : Allocation Resource × Option ImageInfo) : Prop :=
  r.2 = none ∧ r.1.Owns fun _ ↦ False

/-- The firmware comes to the table, or everything is given back. -/
theorem loadFirmware_cases (c : FwController) (o : Outcomes) (size : ℕ)
    (howns : h.Owns fun _ ↦ False) :
    if o.sblBuffer ∧ o.loadSbl = 0 ∧ o.ee 2 ≠ .edl ∧ c.fbcDownload then
      ∃ h', loadFirmware c o size h = loadImage c o size h' ∧
        h'.Owns fun x ↦ x = .firmware ∨ False
    else GivenBack (loadFirmware c o size h) := by
  have hfirmware := howns.alloc Resource.firmware
  have hsbl : (((h.alloc .firmware).alloc .sblBuffer).free .sblBuffer).Owns fun x ↦
      x = .firmware ∨ False := by
    refine ((hfirmware.alloc Resource.sblBuffer).free (.inl rfl)).congr fun x ↦ ⟨?_, ?_⟩
    · rintro (rfl | hx)
      · exact ⟨.inr (.inl rfl), by simp⟩
      · exact hx.elim
    · rintro ⟨hx, hne⟩
      exact hx.resolve_left hne
  unfold loadFirmware
  dsimp only
  by_cases hbuffer : o.sblBuffer = true
  case neg =>
    have hnot : (!o.sblBuffer) = true := by simpa using hbuffer
    rw [if_neg fun hx ↦ hbuffer hx.1, if_pos hnot]
    exact ⟨rfl, free_firmware id hfirmware⟩
  have hnot : ¬ (!o.sblBuffer) = true := by simpa using hbuffer
  rw [if_neg hnot]
  by_cases hload : o.loadSbl ≠ 0 ∨ o.ee 2 = .edl
  · rw [if_neg fun hx ↦ hload.elim (fun hl ↦ hl hx.2.1) fun he ↦ hx.2.2.1 he, if_pos hload]
    exact ⟨rfl, free_firmware id hsbl⟩
  obtain ⟨hzero, hedl⟩ := not_or.mp hload
  rw [if_neg hload]
  by_cases hfbc : c.fbcDownload = true
  · rw [if_pos ⟨hbuffer, not_not.mp hzero, hedl, hfbc⟩, if_pos hfbc]
    exact ⟨_, rfl, hsbl⟩
  · rw [if_neg fun hx ↦ hfbc hx.2.2.2, if_neg hfbc]
    exact ⟨rfl, free_firmware id hsbl⟩

/-- The worker comes to the table, or everything is given back. -/
theorem mhiFwLoadWorker_cases (c : FwController) (o : Outcomes) :
    match reachesTable c o with
    | none => GivenBack (mhiFwLoadWorker c o .empty)
    | some size => ∃ h, mhiFwLoadWorker c o .empty = loadImage c o size h ∧
        h.Owns fun x ↦ x = .firmware ∨ False := by
  have hempty : GivenBack (.empty, none) := ⟨rfl, .empty⟩
  unfold reachesTable mhiFwLoadWorker
  by_cases hpbl : (!o.inPbl) = true
  · rw [if_pos hpbl, if_pos hpbl]
    exact hempty
  rw [if_neg hpbl, if_neg hpbl]
  by_cases hpthru : o.ee 0 = .pthru
  · rw [if_pos hpthru, if_pos hpthru]
    exact hempty
  rw [if_neg hpthru, if_neg hpthru]
  generalize (if o.ee 1 = .edl then c.edlImage else c.fwImage) = image
  cases image with
  | none => exact hempty
  | some name =>
    dsimp only
    by_cases hguard : c.fbcDownload ∧ (c.sblSize = 0 ∨ c.segLen = 0)
    · rw [if_pos hguard, if_pos hguard]
      exact hempty
    rw [if_neg hguard, if_neg hguard]
    cases o.requestFirmware name with
    | none => exact hempty
    | some size =>
      have hcases := loadFirmware_cases c o size (h := .empty) .empty
      split at hcases
      next hreach =>
        dsimp only
        rw [if_pos hreach]
        exact hcases
      next hreach =>
        dsimp only
        rw [if_neg hreach]
        exact hcases

/-- A load leaves nothing behind if and only if it does not come to a table in which a segment
cannot be allocated. -/
theorem fwLoad_leavesNothing_iff (c : FwController) (o : Outcomes) :
    LeavesNothing c o (mhiFwLoadWorker c o .empty) ↔
      ∀ size, reachesTable c o = some size → ¬ LosesArray o.table c.segLen size := by
  have hcases := mhiFwLoadWorker_cases c o
  cases hreach : reachesTable c o with
  | none =>
    rw [hreach] at hcases
    obtain ⟨himage, howns⟩ := hcases
    refine iff_of_true ⟨?_, ?_, ?_⟩ fun size hsize ↦ absurd hsize (Option.some_ne_none size).symm
    · rw [himage]
      exact howns
    · rw [himage]
      refine iff_of_false Bool.false_ne_true ?_
      rintro ⟨size, hsize, -⟩
      exact absurd (hreach.symm.trans hsize) (Option.some_ne_none size).symm
    · intro image hsome
      exact absurd (himage.symm.trans hsome) (Option.some_ne_none image).symm
  | some size =>
    rw [hreach] at hcases
    obtain ⟨h, heq, howns⟩ := hcases
    rw [heq, loadImage_leavesNothing_iff hreach howns]
    constructor
    · intro hloses size' hsize
      obtain rfl := Option.some.inj hsize
      exact hloses
    · exact fun hall ↦ hall size rfl

/-- A load of eight bytes in segments of four where the second one cannot be allocated. -/
def secondSegmentFails : Outcomes where
  inPbl := true
  ee _ := .pbl
  requestFirmware _ := some 8
  sblBuffer := true
  loadSbl := 0
  table := ⟨true, true, fun i ↦ if i = 1 then none else some (64 * i)⟩
  ready := 0
  inSbl := true

/-- The array of buffers is not freed. -/
theorem fwLoad_loses_array : ¬ ∀ (c : FwController) (o : Outcomes),
    LeavesNothing c o (mhiFwLoadWorker c o .empty) := by
  intro h
  have hleaves := h ⟨none, some "sbl", true, 4, 4⟩ secondSegmentFails
  exact (hleaves.owns.live .mhiBufs).mp (by decide)

end Wwan.Mhi.Bhie
