import Wwan.Kernel.GenAlloc
import Wwan.Lib.Bytes
import Wwan.Lib.Transition

/-!
# Shared memory

`smem_alloc` and `smem_free` keep three accounts of a pool: the bitmap of `genalloc`, a list
of records and the number of bytes in `used`. A size is rounded up to pages if the pool is
large and to a few bytes if it is small. `smem_free` asks for the size of the block where it
means that of the pool, so that the two calls may round one size in two ways.
-/

namespace Wwan.Sipc

open Wwan Bytes Kernel

/-! ## Sizes -/

/-- What the kernel is configured with. -/
structure SmemConfig where
  /-- `PAGE_SHIFT`. -/
  pageShift : ℕ
  /-- `SMEM_MIN_ORDER`. `SMEM_ALIGN_BYTES` is two to its power. -/
  minOrder : ℕ
  minOrder_le : minOrder ≤ pageShift
  pageShift_le : pageShift ≤ 18

/-- `SMEM_ALIGN_POOLSZ`. -/
def smemAlignPoolsz : ℕ := 0x40000

/-- `ALIGN` of a `u32` to `2 ^ k` bytes. -/
def alignTo (k x : ℕ) : ℕ := (x + (2 ^ k - 1)) % 2 ^ 32 / 2 ^ k * 2 ^ k

/-- `size` rounded up, by pages if `of` is the size of a large pool. -/
def SmemConfig.round (c : SmemConfig) (of size : ℕ) : ℕ :=
  if smemAlignPoolsz ≤ of then alignTo c.pageShift size else alignTo c.minOrder size

/-! ## Calls -/

/-- `struct smem_record`. -/
structure SmemRecord where
  /-- `size`. -/
  size : ℕ
  /-- `addr`. -/
  addr : ℕ
  deriving DecidableEq

/-- A block that a caller has. -/
structure SmemBlock where
  /-- What `smem_alloc` has returned. -/
  addr : ℕ
  /-- The size it was called with. -/
  n : ℕ
  /-- The number of bytes that it took from `genalloc`. -/
  taken : ℕ
  deriving DecidableEq

/-- `struct smem_pool`. -/
structure SmemPool where
  /-- `addr`. -/
  addr : ℕ
  /-- `size`. -/
  size : ℕ
  /-- `used`. -/
  used : ℕ
  /-- `gen`. -/
  gen : GenPool
  /-- The list at `smem_head`. -/
  records : List SmemRecord
  /-- The blocks that callers have. -/
  live : List SmemBlock

/-- The pool that `smem_init` adds. -/
def smemInit (c : SmemConfig) (addr size : ℕ) : SmemPool :=
  let size := c.round size size
  { addr := addr
    size := size
    used := 0
    gen := .create (if smemAlignPoolsz ≤ size then c.pageShift else c.minOrder) addr size
    records := []
    live := [] }

/-- `smem_alloc`: what it returns, and the pool after the call. -/
def smemAlloc (c : SmemConfig) (p : SmemPool) (n : ℕ) : ℕ × SmemPool :=
  let size := c.round p.size n
  match p.gen.alloc size with
  | none => (0, p)
  | some (a, gen) =>
    let addr := u32 a
    if addr = 0 then (0, { p with gen := gen })
    else
      (addr,
        { p with
          used := u32 (p.used + size)
          gen := gen
          records := p.records ++ [⟨size, addr⟩]
          live := p.live ++ [⟨addr, n, gen.used - p.gen.used⟩] })

/-- `smem_free`, unless `gen_pool_free` ends in `BUG`. -/
def smemFree (c : SmemConfig) (p : SmemPool) (addr n : ℕ) : Option SmemPool :=
  let size := c.round n n
  (p.gen.free addr size).map fun gen ↦
    { p with
      used := u32 (p.used - size)
      gen := gen
      records := p.records.eraseP (·.addr = addr)
      live := p.live.eraseP (·.addr = addr) }

/-! ## Runs -/

/-- The calls. -/
inductive SmemStep
  | /-- `smem_init`. -/
    init (addr size dst : ℕ)
  | /-- `smem_alloc`, and whether there is memory for a record. -/
    alloc (dst n : ℕ) (recd : Bool)
  | /-- `smem_free`. -/
    free (dst addr n : ℕ)
  deriving DecidableEq

/-- The pools, as `shmem_find_pool` finds them. -/
abbrev SmemPools := ℕ → Option SmemPool

namespace SmemStep

/-- A block is freed once, with the size it was allocated with. -/
def enabled (s : SmemPools) : SmemStep → Bool
  | init addr size _ => addr < 2 ^ 32 ∧ size < 2 ^ 32
  | alloc _ n _ => n < 2 ^ 32
  | free dst addr n =>
    match s dst with
    | some p => p.live.any fun b ↦ b.addr = addr ∧ b.n = n
    | none => false

/-- What a call does. -/
def act (c : SmemConfig) (s : SmemPools) : SmemStep → SmemPools
  | init addr size dst =>
    match s dst with
    | some _ => s
    | none => Function.update s dst (some (smemInit c addr size))
  | alloc dst n recd =>
    match s dst with
    | some p => if recd then Function.update s dst (some (smemAlloc c p n).2) else s
    | none => s
  | free dst addr n =>
    match s dst with
    | some p => Function.update s dst (some ((smemFree c p addr n).getD p))
    | none => s

end SmemStep

/-- The runs of the calls. -/
def smemSystem (c : SmemConfig) : System SmemPools SmemStep :=
  { init := fun _ ↦ none
    enabled := fun s e ↦ e.enabled s
    next := fun s e ↦ e.act c s }

instance (c : SmemConfig) (s : SmemPools) (e : SmemStep) :
    Decidable ((smemSystem c).enabled s e) :=
  inferInstanceAs (Decidable (e.enabled s = true))

/-! ## Rounding -/

section Round

variable {c : SmemConfig} {k m n : ℕ}

theorem alignTo_lt (k n : ℕ) : alignTo k n < 2 ^ 32 :=
  (Nat.div_mul_le_self _ _).trans_lt (Nat.mod_lt _ (by decide))

theorem alignTo_eq (h : n + (2 ^ k - 1) < 2 ^ 32) : alignTo k n = n ⌈/⌉ 2 ^ k * 2 ^ k := by
  have hpos := Nat.two_pow_pos k
  unfold alignTo
  rw [Nat.mod_eq_of_lt h, Nat.ceilDiv_eq_add_pred_div, Nat.add_sub_assoc hpos]

/-- Rounding once more does not matter if the units are larger. -/
theorem ceilDiv_mul_ceilDiv (h : k ≤ m) : (n ⌈/⌉ 2 ^ k * 2 ^ k) ⌈/⌉ 2 ^ m = n ⌈/⌉ 2 ^ m := by
  have hm := Nat.two_pow_pos m
  have hk := Nat.two_pow_pos k
  obtain ⟨d, rfl⟩ := Nat.exists_eq_add_of_le h
  refine eq_of_forall_ge_iff fun x ↦ ?_
  rw [ceilDiv_le_iff_le_mul hm, ceilDiv_le_iff_le_mul hm, Nat.pow_add, Nat.mul_assoc,
    Nat.mul_comm _ (2 ^ k), Nat.mul_le_mul_left_iff hk, ceilDiv_le_iff_le_mul hk]

/-- Rounding up does not make a size smaller, unless it wraps to nothing. -/
theorem alignTo_ge (hk : k ≤ 18) (h : n < 2 ^ 32) (hpos : 0 < alignTo k n) :
    n ≤ alignTo k n := by
  by_cases hlt : n + (2 ^ k - 1) < 2 ^ 32
  · rw [alignTo_eq hlt, Nat.mul_comm]
    exact (ceilDiv_le_iff_le_mul (Nat.two_pow_pos k)).mp le_rfl
  · have hunit : 2 ^ k ≤ 2 ^ 18 := Nat.pow_le_pow_right (by decide) hk
    have hmod : (n + (2 ^ k - 1)) % 2 ^ 32 < 2 ^ k := by
      generalize 2 ^ k = u at *
      omega
    unfold alignTo at hpos
    rw [Nat.div_eq_of_lt hmod, Nat.zero_mul] at hpos
    omega

end Round

/-! ## Accounts -/

/-- The bits that are set for a block of a pool of `size` bytes. -/
def SmemBlock.span (c : SmemConfig) (size : ℕ) (gen : GenPool) (b : SmemBlock) : Finset ℕ :=
  gen.range ((b.addr - gen.start) / gen.unit) (c.round size b.n)

/-- A block that a caller has is allocated. -/
structure SmemHeld (c : SmemConfig) (size : ℕ) (gen : GenPool) (b : SmemBlock) (i : ℕ) : Prop where
  n_lt : b.n < 2 ^ 32
  pos : 0 < c.round size b.n
  addr : b.addr = gen.start + i * gen.unit
  fit : i + gen.units (c.round size b.n) ≤ gen.size / gen.unit
  set : gen.range i (c.round size b.n) ⊆ gen.bits
  taken : b.taken = c.round size b.n

/-- What holds of a pool between any two calls. -/
structure SmemInv (c : SmemConfig) (p : SmemPool) : Prop where
  size_lt : p.size < 2 ^ 32
  order : p.gen.order = if smemAlignPoolsz ≤ p.size then c.pageShift else c.minOrder
  chunk : p.gen.size = p.size
  inside : p.gen.start + p.gen.size ≤ 2 ^ 32
  bits : p.gen.bits ⊆ Finset.range (p.gen.size / p.gen.unit)
  held : ∀ b ∈ p.live, ∃ i, SmemHeld c p.size p.gen b i
  apart : ∀ b ∈ p.live, ∀ b' ∈ p.live, b.addr ≠ b'.addr →
    Disjoint (b.span c p.size p.gen) (b'.span c p.size p.gen)
  addrs : (p.live.map SmemBlock.addr).Nodup
  records : p.records = p.live.map fun b ↦ ⟨c.round p.size b.n, b.addr⟩
  sum_le : (p.records.map SmemRecord.size).sum ≤ p.gen.used

section Steps

variable {c : SmemConfig} {p : SmemPool} {gen : GenPool} {b : SmemBlock} {size i n : ℕ}

theorem SmemHeld.span_eq (h : SmemHeld c size gen b i) :
    b.span c size gen = gen.range i (c.round size b.n) := by
  unfold SmemBlock.span
  rw [h.addr, Nat.add_sub_cancel_left, Nat.mul_div_cancel _ GenPool.unit_pos]

theorem SmemHeld.mem_span (h : SmemHeld c size gen b i) : i ∈ b.span c size gen := by
  have hpos := GenPool.units_pos (g := gen) h.pos
  rw [h.span_eq]
  simp only [GenPool.range, Finset.mem_Ico]
  omega

theorem SmemHeld.span_subset (h : SmemHeld c size gen b i) : b.span c size gen ⊆ gen.bits :=
  h.span_eq ▸ h.set

/-- The pool rounds to whole units. -/
theorem SmemInv.units_mul (h : SmemInv c p) (n : ℕ) :
    p.gen.units (c.round p.size n) * p.gen.unit = c.round p.size n := by
  have hround : ∃ q, c.round p.size n = q * p.gen.unit := by
    unfold SmemConfig.round GenPool.unit
    rw [h.order]
    split
    · exact ⟨_, rfl⟩
    · exact ⟨_, rfl⟩
  obtain ⟨q, hq⟩ := hround
  unfold GenPool.units
  rw [hq]
  congr 1
  have hpos := GenPool.unit_pos (g := p.gen)
  refine eq_of_forall_ge_iff fun x ↦ ?_
  rw [ceilDiv_le_iff_le_mul hpos, Nat.mul_comm, Nat.mul_le_mul_left_iff hpos]

/-- `smem_free` hands back as many units as `smem_alloc` has taken. -/
theorem SmemInv.units_free (h : SmemInv c p) (hb : SmemHeld c p.size p.gen b i) :
    p.gen.units (c.round b.n b.n) = p.gen.units (c.round p.size b.n) := by
  have hle : c.round p.size b.n ≤ p.size := by
    calc c.round p.size b.n = p.gen.units (c.round p.size b.n) * p.gen.unit :=
          (h.units_mul _).symm
      _ ≤ p.gen.size / p.gen.unit * p.gen.unit :=
          Nat.mul_le_mul_right _ ((Nat.le_add_left _ _).trans hb.fit)
      _ ≤ p.gen.size := Nat.div_mul_le_self ..
      _ = p.size := h.chunk
  have hpos := hb.pos
  have hlt := hb.n_lt
  have horder := h.order
  unfold SmemConfig.round at *
  by_cases hpool : smemAlignPoolsz ≤ p.size
  · rw [if_pos hpool] at horder hpos hle ⊢
    by_cases hn : smemAlignPoolsz ≤ b.n
    · rw [if_pos hn]
    · -- Neither of the two wraps, and pages are made of whole small units.
      have hunit : ∀ k ≤ 18, b.n + (2 ^ k - 1) < 2 ^ 32 := fun k hk ↦ by
        have : 2 ^ k ≤ 2 ^ 18 := Nat.pow_le_pow_right (by decide) hk
        unfold smemAlignPoolsz at hn
        omega
      rw [if_neg hn, alignTo_eq (hunit _ (c.minOrder_le.trans c.pageShift_le)),
        alignTo_eq (hunit _ c.pageShift_le)]
      unfold GenPool.units GenPool.unit
      rw [horder, ceilDiv_mul_ceilDiv c.minOrder_le, ceilDiv_mul_ceilDiv le_rfl]
  · rw [if_neg hpool] at hpos hle ⊢
    have hge := alignTo_ge (c.minOrder_le.trans c.pageShift_le) hlt hpos
    rw [if_neg (by omega)]

/-- A block stays allocated as long as its bits are set. -/
theorem SmemHeld.setBits (h : SmemHeld c size gen b i) {bits : Finset ℕ}
    (hset : b.span c size gen ⊆ bits) : SmemHeld c size { gen with bits := bits } b i :=
  { h with set := h.span_eq ▸ hset }

/-- More memory is allocated. -/
theorem SmemInv.allocBits (h : SmemInv c p) (hfit : i + p.gen.units n ≤ p.gen.size / p.gen.unit)
    (hfree : Disjoint (p.gen.range i n) p.gen.bits) :
    SmemInv c { p with gen := { p.gen with bits := p.gen.bits ∪ p.gen.range i n } } := by
  refine { h with bits := ?_, held := ?_, sum_le := ?_ }
  · refine Finset.union_subset h.bits fun j hj ↦ ?_
    have hmem := Finset.mem_Ico.mp hj
    exact Finset.mem_range.mpr (hmem.2.trans_le hfit)
  · intro b hb
    obtain ⟨j, hj⟩ := h.held b hb
    exact ⟨j, hj.setBits (hj.span_subset.trans Finset.subset_union_left)⟩
  · refine h.sum_le.trans ?_
    rw [GenPool.used_union hfree]
    omega

/-- A block is given to a caller. -/
theorem SmemInv.addBlock (h : SmemInv c p) (hb : SmemHeld c p.size p.gen b i)
    (hapart : ∀ b' ∈ p.live, Disjoint (b'.span c p.size p.gen) (b.span c p.size p.gen))
    (hsum : (p.records.map SmemRecord.size).sum + c.round p.size b.n ≤ p.gen.used) (used : ℕ) :
    SmemInv c
      { p with
        used := used
        records := p.records ++ [⟨c.round p.size b.n, b.addr⟩]
        live := p.live ++ [b] } := by
  have hnew : ∀ b' ∈ p.live, b'.addr ≠ b.addr := by
    intro b' hb' heq
    obtain ⟨j, hj⟩ := h.held b' hb'
    have hij : j = i := by
      have haddr := hj.addr.symm.trans (heq.trans hb.addr)
      exact Nat.eq_of_mul_eq_mul_right GenPool.unit_pos (Nat.add_left_cancel haddr)
    exact Finset.disjoint_left.mp (hapart b' hb') (hij ▸ hj.mem_span) hb.mem_span
  refine { h with held := ?_, apart := ?_, addrs := ?_, records := ?_, sum_le := ?_ }
  · intro b' hb'
    rcases List.mem_append.mp hb' with hb' | hb'
    · exact h.held b' hb'
    · rw [List.mem_singleton.mp hb']
      exact ⟨i, hb⟩
  · intro x hx y hy hne
    rcases List.mem_append.mp hx with hx | hx <;> rcases List.mem_append.mp hy with hy | hy
    · exact h.apart x hx y hy hne
    · rw [List.mem_singleton.mp hy]
      exact hapart x hx
    · rw [List.mem_singleton.mp hx]
      exact (hapart y hy).symm
    · rw [List.mem_singleton.mp hx, List.mem_singleton.mp hy] at hne
      exact absurd rfl hne
  · dsimp only
    rw [List.map_append, List.map_singleton, ← List.concat_eq_append]
    refine List.Nodup.concat ?_ h.addrs
    rw [List.mem_map]
    rintro ⟨b', hb', heq⟩
    exact hnew b' hb' heq
  · dsimp only
    rw [List.map_append, h.records]
    rfl
  · simpa using hsum

theorem SmemInv.alloc (h : SmemInv c p) (hn : n < 2 ^ 32) : SmemInv c (smemAlloc c p n).2 := by
  unfold smemAlloc
  dsimp only
  split
  · exact h
  rename_i a gen halloc
  obtain ⟨i, hpos, hfit, hfree, rfl, rfl⟩ := GenPool.alloc_eq_some halloc
  have hinv := h.allocBits hfit hfree
  split
  · exact hinv
  have hlt : p.gen.start + i * p.gen.unit < 2 ^ 32 := by
    have hunits := GenPool.units_pos (g := p.gen) hpos
    have hend : (i + 1) * p.gen.unit ≤ p.gen.size :=
      (Nat.mul_le_mul_right _ (by omega)).trans (Nat.div_mul_le_self ..)
    have hinside := h.inside
    have hunit := GenPool.unit_pos (g := p.gen)
    rw [Nat.succ_mul] at hend
    omega
  have hused := GenPool.used_union hfree
  rw [h.units_mul] at hused
  rw [u32_natCast hlt, hused, Nat.add_sub_cancel_left]
  have hheld : SmemHeld c p.size { p.gen with bits := p.gen.bits ∪ p.gen.range i (c.round p.size n) }
      ⟨p.gen.start + i * p.gen.unit, n, c.round p.size n⟩ i :=
    { n_lt := hn, pos := hpos, addr := rfl, fit := hfit, set := Finset.subset_union_right
      taken := rfl }
  refine hinv.addBlock hheld (fun b' hb' ↦ ?_) ?_ _
  · obtain ⟨j, hj⟩ := h.held b' hb'
    rw [hheld.span_eq]
    exact hfree.symm.mono_left hj.span_subset
  · dsimp only
    rw [hused]
    exact Nat.add_le_add_right h.sum_le _

/-- The list without a block. -/
theorem eraseP_addr {l : List SmemBlock} (h : (l.map SmemBlock.addr).Nodup) (hb : b ∈ l) :
    ∃ l₁ l₂, l = l₁ ++ b :: l₂ ∧ l.eraseP (·.addr = b.addr) = l₁ ++ l₂ ∧
      ∀ b' ∈ l₁ ++ l₂, b'.addr ≠ b.addr := by
  obtain ⟨x, l₁, l₂, hl₁, hx, hl, herase⟩ :=
    List.exists_of_eraseP (p := fun b' ↦ b'.addr = b.addr) hb (by simp)
  have hxb : x = b := by
    refine List.inj_on_of_nodup_map h ?_ hb (by simpa using hx)
    rw [hl]
    simp
  subst hxb
  refine ⟨l₁, l₂, hl, herase, fun b' hb' heq ↦ ?_⟩
  rw [hl, List.map_append, List.map_cons, List.nodup_middle, List.nodup_cons] at h
  exact h.1 (by rw [← heq, ← List.map_append]; exact List.mem_map_of_mem hb')

/-- What a caller of `smem_free` gives back. -/
theorem SmemInv.free_eq (h : SmemInv c p) (hheld : SmemHeld c p.size p.gen b i) :
    smemFree c p b.addr b.n = some
      { p with
        used := u32 (p.used - c.round b.n b.n)
        gen := { p.gen with bits := p.gen.bits \ p.gen.range i (c.round p.size b.n) }
        records := p.records.eraseP (·.addr = b.addr)
        live := p.live.eraseP (·.addr = b.addr) } := by
  have hunits := h.units_free hheld
  have hrange : p.gen.range i (c.round b.n b.n) = p.gen.range i (c.round p.size b.n) := by
    unfold GenPool.range
    rw [hunits]
  have hgen := GenPool.free_eq_some (g := p.gen) (hunits ▸ hheld.fit) (hrange ▸ hheld.set)
  rw [hrange, ← hheld.addr] at hgen
  unfold smemFree
  dsimp only
  rw [hgen, Option.map_some]

/-- A block is taken back. -/
theorem SmemInv.free (h : SmemInv c p) (hb : b ∈ p.live) :
    ∃ p', smemFree c p b.addr b.n = some p' ∧ SmemInv c p' ∧
      p'.used = u32 (p.used - c.round b.n b.n) ∧ p'.gen.used + b.taken = p.gen.used ∧
      (p'.records.map SmemRecord.size).sum + c.round p.size b.n =
        (p.records.map SmemRecord.size).sum := by
  obtain ⟨i, hheld⟩ := h.held b hb
  have hused := GenPool.used_sdiff hheld.set
  rw [h.units_mul] at hused
  obtain ⟨l₁, l₂, hlive, herase, hother⟩ := eraseP_addr h.addrs hb
  have hrecords : p.records.eraseP (·.addr = b.addr) =
      (l₁ ++ l₂).map fun b ↦ ⟨c.round p.size b.n, b.addr⟩ := by
    rw [h.records, List.eraseP_map, ← herase]
    rfl
  have hsum : (((l₁ ++ l₂).map fun b ↦ (⟨c.round p.size b.n, b.addr⟩ : SmemRecord)).map
      SmemRecord.size).sum + c.round p.size b.n = (p.records.map SmemRecord.size).sum := by
    rw [h.records, hlive]
    simp only [List.map_append, List.map_cons, List.sum_append, List.sum_cons]
    omega
  have hmem : ∀ b' ∈ l₁ ++ l₂, b' ∈ p.live := fun b' hb' ↦ by
    rw [hlive]
    rcases List.mem_append.mp hb' with hb' | hb'
    · exact List.mem_append_left _ hb'
    · exact List.mem_append_right _ (List.mem_cons_of_mem _ hb')
  refine ⟨_, h.free_eq hheld, ?_, rfl, by rw [hheld.taken]; exact hused, ?_⟩
  · refine { h with bits := ?_, held := ?_, apart := ?_, addrs := ?_, records := ?_, sum_le := ?_ }
    · exact Finset.sdiff_subset.trans h.bits
    · dsimp only
      rw [herase]
      intro b' hb'
      obtain ⟨j, hj⟩ := h.held b' (hmem b' hb')
      refine ⟨j, hj.setBits (Finset.subset_sdiff.mpr ⟨hj.span_subset, ?_⟩)⟩
      rw [← hheld.span_eq]
      exact h.apart b' (hmem b' hb') b hb (hother b' hb')
    · dsimp only
      rw [herase]
      intro x hx y hy
      exact h.apart x (hmem x hx) y (hmem y hy)
    · exact h.addrs.sublist (List.eraseP_sublist.map _)
    · dsimp only
      rw [hrecords, herase]
    · dsimp only
      rw [hrecords]
      have hle := h.sum_le
      omega
  · dsimp only
    rw [hrecords]
    exact hsum

/-- All records fit into the pool. -/
theorem SmemInv.sum_lt (h : SmemInv c p) : (p.records.map SmemRecord.size).sum < 2 ^ 32 := by
  have hcard := Finset.card_le_card h.bits
  rw [Finset.card_range] at hcard
  calc (p.records.map SmemRecord.size).sum ≤ p.gen.bits.card * p.gen.unit := h.sum_le
    _ ≤ p.gen.size / p.gen.unit * p.gen.unit := Nat.mul_le_mul_right _ hcard
    _ ≤ p.gen.size := Nat.div_mul_le_self ..
    _ = p.size := h.chunk
    _ < 2 ^ 32 := h.size_lt

theorem SmemInv.init (c : SmemConfig) {addr size : ℕ}
    (hinside : addr + c.round size size ≤ 2 ^ 32) : SmemInv c (smemInit c addr size) := by
  refine
    { size_lt := ?_
      order := rfl
      chunk := rfl
      inside := hinside
      bits := Finset.empty_subset _
      held := by simp [smemInit]
      apart := by simp [smemInit]
      addrs := List.nodup_nil
      records := rfl
      sum_le := Nat.zero_le _ }
  dsimp only [smemInit, SmemConfig.round]
  split
  · exact alignTo_lt _ _
  · exact alignTo_lt _ _

/-- `used` is the sum of the records. -/
def SmemPool.UsedExact (p : SmemPool) : Prop := p.used = (p.records.map SmemRecord.size).sum

theorem SmemInv.usedExact_alloc (h : SmemInv c p) (hn : n < 2 ^ 32) (hused : p.UsedExact) :
    (smemAlloc c p n).2.UsedExact := by
  have hlt := (h.alloc hn).sum_lt
  revert hlt
  unfold SmemPool.UsedExact smemAlloc at *
  dsimp only
  split
  · exact fun _ ↦ hused
  · split
    · exact fun _ ↦ hused
    · intro hlt
      rw [List.map_append, List.sum_append] at hlt ⊢
      rw [hused]
      exact u32_natCast hlt

/-- What `used` loses is what the record was. -/
theorem SmemInv.usedExact_free (h : SmemInv c p) (hb : b ∈ p.live) (hused : p.UsedExact)
    (hround : c.round p.size b.n = c.round b.n b.n) :
    ((smemFree c p b.addr b.n).getD p).UsedExact := by
  obtain ⟨p', hfree, hinv, hused', -, hsum⟩ := h.free hb
  have hlt := hinv.sum_lt
  unfold SmemPool.UsedExact at *
  rw [hfree, Option.getD_some, hused', ← hround, hused, ← hsum, Nat.cast_add, add_sub_cancel_right]
  exact u32_natCast hlt

end Steps

/-! ## Exact accounts -/

/-- What is promised of a pool. -/
structure SmemAccounted (c : SmemConfig) (p : SmemPool) : Prop where
  /-- `used` is the sum of the records. -/
  used : p.used = (p.records.map SmemRecord.size).sum
  /-- Nothing is used when everything has been freed. -/
  empty : p.live = [] → p.used = 0
  /-- `smem_free` of a block will hand back what `smem_alloc` has taken for it. -/
  bytes : ∀ b ∈ p.live, ∃ p', smemFree c p b.addr b.n = some p' ∧
    p'.gen.used + b.taken = p.gen.used

/-- The pool lies within the 32-bit addresses. -/
def SmemStep.inside (c : SmemConfig) : SmemStep → Prop
  | init addr size _ => addr + c.round size size ≤ 2 ^ 32
  | _ => True

/-- A block that is freed has a size that its pool rounds like `smem_free`. -/
def SmemStep.rounds (c : SmemConfig) (s : SmemPools) : SmemStep → Prop
  | free dst _ n =>
    match s dst with
    | some p => c.round p.size n = c.round n n
    | none => True
  | _ => True

section Runs

variable {c : SmemConfig} {s : SmemPools} {e : SmemStep}

/-- What every call keeps of a pool, all pools have. -/
theorem SmemStep.act_pools {I : SmemPool → Prop} (h : ∀ dst p, s dst = some p → I p)
    (he : e.enabled s = true)
    (hinit : ∀ addr size dst, e = .init addr size dst → I (smemInit c addr size))
    (halloc : ∀ p n, n < 2 ^ 32 → I p → I (smemAlloc c p n).2)
    (hfree : ∀ dst p, s dst = some p → ∀ b ∈ p.live, e = .free dst b.addr b.n → I p →
      I ((smemFree c p b.addr b.n).getD p)) :
    ∀ dst p, e.act c s dst = some p → I p := by
  have hupdate : ∀ {d x}, I x → ∀ dst p, Function.update s d (some x) dst = some p → I p := by
    intro d x hx dst p hp
    by_cases hd : dst = d
    · subst hd
      rw [Function.update_self] at hp
      cases hp
      exact hx
    · rw [Function.update_of_ne hd] at hp
      exact h dst p hp
  cases e with
  | init addr size d =>
    cases hd : s d with
    | some p => simpa only [act, hd] using h
    | none =>
      simp only [act, hd]
      exact hupdate (hinit addr size d rfl)
  | alloc d n recd =>
    cases hd : s d with
    | none => simpa only [act, hd] using h
    | some p =>
      simp only [act, hd]
      split
      · exact hupdate (halloc p n (of_decide_eq_true he) (h d p hd))
      · exact h
  | free d addr n =>
    cases hd : s d with
    | none =>
      simp only [enabled, hd] at he
      cases he
    | some p =>
      simp only [enabled, hd, List.any_eq_true, decide_eq_true_eq] at he
      obtain ⟨b, hb, rfl, rfl⟩ := he
      simp only [act, hd]
      exact hupdate (hfree d p hd b hb rfl (h d p hd))

/-- In every run the bitmap and the records agree. -/
theorem smem_inv (hs : (smemSystem c).Reach (fun _ e ↦ e.inside c) s) :
    ∀ dst p, s dst = some p → SmemInv c p := by
  refine hs.invariant (I := fun s ↦ ∀ dst p, s dst = some p → SmemInv c p) ?_ ?_
  · intro dst p hp
    cases hp
  · intro s e hinv he hinside
    refine SmemStep.act_pools hinv he ?_ (fun p n hn hp ↦ hp.alloc hn) ?_
    · rintro addr size dst rfl
      exact .init c hinside
    · intro dst p _ b hb _ hp
      obtain ⟨p', hfree, hinv', -⟩ := hp.free hb
      rw [hfree]
      exact hinv'

theorem smem_used (hs : (smemSystem c).Reach (fun s e ↦ e.inside c ∧ e.rounds c s) s) :
    ∀ dst p, s dst = some p → p.UsedExact := by
  suffices h : ∀ dst p, s dst = some p → SmemInv c p ∧ p.UsedExact from
    fun dst p hp ↦ (h dst p hp).2
  refine hs.invariant (I := fun s ↦ ∀ dst p, s dst = some p → SmemInv c p ∧ p.UsedExact) ?_ ?_
  · intro dst p hp
    cases hp
  · rintro s e hinv he ⟨hinside, hrounds⟩
    refine SmemStep.act_pools hinv he ?_ ?_ ?_
    · rintro addr size dst rfl
      exact ⟨.init c hinside, rfl⟩
    · rintro p n hn ⟨hp, hused⟩
      exact ⟨hp.alloc hn, hp.usedExact_alloc hn hused⟩
    · rintro dst p hd b hb rfl ⟨hp, hused⟩
      obtain ⟨p', hfree, hinv', -⟩ := hp.free hb
      simp only [SmemStep.rounds, hd] at hrounds
      exact ⟨by rw [hfree]; exact hinv', hp.usedExact_free hb hused hrounds⟩

/-- In every run in which the blocks that are freed have sizes that both calls round in one
way, the accounts of all pools are exact. -/
theorem smem_accounted (hs : (smemSystem c).Reach (fun s e ↦ e.inside c ∧ e.rounds c s) s)
    {dst : ℕ} {p : SmemPool} (hp : s dst = some p) : SmemAccounted c p := by
  have hinv := smem_inv (hs.mono fun _ _ h ↦ h.1) dst p hp
  have hused := smem_used hs dst p hp
  refine ⟨hused, fun hempty ↦ ?_, fun b hb ↦ ?_⟩
  · rw [hused, hinv.records, hempty]
    rfl
  · obtain ⟨p', hfree, -, -, hbytes, -⟩ := hinv.free hb
    exact ⟨p', hfree, hbytes⟩

end Runs

/-- A kernel for 64-bit machines with pages of 4096 bytes. -/
def smemConfig64 : SmemConfig := ⟨12, 3, by decide, by decide⟩

instance (c : SmemConfig) (s : SmemPools) : ∀ e : SmemStep, Decidable (e.inside c ∧ e.rounds c s)
  | .init addr size _ => inferInstanceAs (Decidable (addr + c.round size size ≤ 2 ^ 32 ∧ True))
  | .alloc _ _ _ => .isTrue ⟨trivial, trivial⟩
  | .free dst _ n =>
    match h : s dst with
    | some p =>
      decidable_of_iff (c.round p.size n = c.round n n)
        (by simp [SmemStep.inside, SmemStep.rounds, h])
    | none => .isTrue (by simp [SmemStep.inside, SmemStep.rounds, h])

/-- The pool after some calls on one of 256 KiB. -/
def largePool (es : List SmemStep) : Option SmemPool :=
  (smemSystem smemConfig64).exec (smemSystem smemConfig64).init
    (.init 0x10000000 0x40000 0 :: es) 0

/-- Two blocks of a page each, of which one is freed. -/
def pageRun : List SmemStep :=
  [.alloc 0 4096 true, .alloc 0 4096 true, .free 0 0x10000000 4096]

/-- A block of eight bytes that is freed. -/
def bytesRun : List SmemStep := [.alloc 0 8 true, .free 0 0x10000000 8]

theorem pageRun_accounted :
    SmemAccounted smemConfig64 ((largePool pageRun).get (by decide)) :=
  smem_accounted (System.Reach.init.exec (by decide)) (Option.some_get _).symm

/-- All that was allocated has been freed, and 4088 bytes are still counted as used. -/
theorem smem_used_drifts :
    (smemSystem smemConfig64).Along (fun _ _ ↦ True) (smemSystem smemConfig64).init
      (.init 0x10000000 0x40000 0 :: bytesRun) ∧
      ((largePool bytesRun).get (by decide)).live = [] ∧
      ((largePool bytesRun).get (by decide)).used = 4088 ∧
      ¬ SmemAccounted smemConfig64 ((largePool bytesRun).get (by decide)) := by
  refine ⟨by decide, by decide, by decide, fun h ↦ ?_⟩
  have hused := h.used
  revert hused
  decide

end Wwan.Sipc
