import Wwan.Lib.Allocation
import Wwan.Lib.Fault
import Wwan.Sipc.Smem

/-!
# Setting up a channel

`sbuf_host_init`, `sbuf_client_init`, `sblock_host_init` and `sblock_client_init` take a block of
shared memory, map it, allocate arrays and ask for the power resource. Each of these may fail,
and then what has been taken is given back. The host has its block in `smem_addr`. A client has
the block of the host there, and its own in `smem_addr_debug`.
-/

namespace Wwan.Sipc.Setup

open Bytes

/-! ## What a set-up takes -/

/-- What a set-up takes hold of. -/
inductive Held
  | /-- A block of `smem_alloc`. -/
    smem (addr : UInt32)
  | /-- The mapping of the header alone, by a client. -/
    head
  | /-- The mapping in `smem_virt`. -/
    virt
  | /-- An array. -/
    rings | txrecord | rxrecord
  deriving DecidableEq

/-- How the calls end that a set-up makes. -/
structure Outcome where
  /-- `smem_alloc` has memory for a record. -/
  recd : Bool
  /-- The pointer is not `NULL`. -/
  got : Held → Bool
  /-- What `sipc_smem_request_resource` returns. -/
  request : ℤ

/-- The pools, and what the set-up itself has taken and not given back. -/
structure SetupState where
  pools : SmemPools
  held : Allocation Held

abbrev SetupM := StateT SetupState Option

/-- `smem_alloc`, which looks for its pool first. -/
def smemAllocAt (c : SmemConfig) (s : SmemPools) (dst : UInt8) (size : UInt32) (recd : Bool) :
    UInt32 × SmemPools :=
  match s dst.toNat with
  | none => (0, s)
  | some p =>
    if recd then
      let (addr, p) := Sipc.smemAlloc c p size.toNat
      (.ofNat addr, Function.update s dst.toNat (some p))
    else (0, s)

/-- `smem_free`, which looks for its pool first. -/
def smemFreeAt (c : SmemConfig) (s : SmemPools) (dst : UInt8) (addr size : UInt32) :
    Option SmemPools :=
  match s dst.toNat with
  | none => some s
  | some p =>
    (Sipc.smemFree c p addr.toNat size.toNat).map fun p ↦ Function.update s dst.toNat (some p)

/-- `smem_alloc`. -/
def smemAlloc (c : SmemConfig) (o : Outcome) (dst : UInt8) (size : UInt32) : SetupM UInt32 :=
  fun t ↦
    let (addr, pools) := smemAllocAt c t.pools dst size o.recd
    some (addr, ⟨pools, if addr = 0 then t.held else t.held.alloc (.smem addr)⟩)

/-- `smem_free`. -/
def smemFree (c : SmemConfig) (dst : UInt8) (addr size : UInt32) : SetupM Unit := fun t ↦
  (smemFreeAt c t.pools dst addr size).map fun pools ↦ ((), ⟨pools, t.held.free (.smem addr)⟩)

/-- `shmem_ram_vmap_nocache` or `kcalloc`: whether the pointer is not `NULL`. -/
def take (o : Outcome) (x : Held) : SetupM Bool := fun t ↦
  some (o.got x, if o.got x then { t with held := t.held.alloc x } else t)

/-- `shmem_ram_unmap` or `kfree`. -/
def give (x : Held) : SetupM Unit := fun t ↦ some ((), { t with held := t.held.free x })

/-! ## The set-ups -/

/-- `ENOMEM`, `EFAULT` -/
def enomem : ℤ := 12
def efault : ℤ := 14

/-- `struct smsg_ipc`. -/
structure SmsgIpc where
  smem_base : UInt32
  dst_smem_base : UInt32

/-- `struct sbuf_mgr`. -/
structure SbufMgr where
  dst : UInt8
  smem_addr : UInt32
  smem_size : UInt32
  smem_addr_debug : UInt32
  dst_smem_addr : UInt32
  ringnr : UInt32

/-- `struct sblock_mgr`. -/
structure SblockMgr where
  dst : UInt8
  smem_addr : UInt32
  smem_addr_debug : UInt32
  smem_size : UInt32
  dst_smem_addr : UInt32
  stored_smem_addr : UInt32
  txblksz : UInt32
  rxblksz : UInt32
  txblknum : UInt32
  rxblknum : UInt32

/-- What `sbuf_client_init` reads of the header. -/
structure SbufHead where
  ringnr : UInt32
  txbuf_size : UInt32
  rxbuf_size : UInt32

/-- What `sblock_client_init` reads of the header. -/
structure SblockHead where
  txblk_count : UInt32
  txblk_size : UInt32
  rxblk_count : UInt32
  rxblk_size : UInt32

/-- `smem_size` of a channel with `bufnum` rings. -/
def sbufSmemSize (bufnum txbufsize rxbufsize : UInt32) : UInt32 :=
  let hsize := 4 + 32 * bufnum
  hsize + (txbufsize + rxbufsize) * bufnum

/-- `smem_size` of a channel of blocks. -/
def sblockSmemSize (txblocknum txblocksize rxblocknum rxblocksize : UInt32) : UInt32 :=
  let hsize := 96
  hsize + txblocknum * txblocksize + rxblocknum * rxblocksize +
    (txblocknum + rxblocknum) * 8 + (txblocknum + rxblocknum) * 8

/-- `ALIGN` to `SBLOCK_ALIGN_BYTES`. -/
def sblockAlign (config64Bit : Bool) (x : UInt32) : UInt32 :=
  .ofNat (alignTo (if config64Bit then 3 else 2) x.toNat)

section Init

variable (c : SmemConfig) (o : Outcome)

/-- `sbuf_host_init`. -/
def sbufHostInit (sipc : SmsgIpc) (sbuf : SbufMgr) (bufnum txbufsize rxbufsize : UInt32) :
    SetupM (ℤ × SbufMgr) := do
  let sbuf := { sbuf with
    ringnr := bufnum, smem_size := sbufSmemSize bufnum txbufsize rxbufsize }
  let addr ← smemAlloc c o sbuf.dst sbuf.smem_size
  let sbuf := { sbuf with smem_addr := addr }
  if sbuf.smem_addr = 0 then
    return (-enomem, sbuf)
  let sbuf := { sbuf with
    dst_smem_addr := sbuf.smem_addr - sipc.smem_base + sipc.dst_smem_base }
  if !(← take o .virt) then
    smemFree c sbuf.dst sbuf.smem_addr sbuf.smem_size
    return (-efault, sbuf)
  if !(← take o .rings) then
    smemFree c sbuf.dst sbuf.smem_addr sbuf.smem_size
    give .virt
    return (-enomem, sbuf)
  if o.request < 0 then
    smemFree c sbuf.dst sbuf.smem_addr sbuf.smem_size
    give .virt
    give .rings
    return (o.request, sbuf)
  return (0, sbuf)

/-- `sbuf_client_init`. -/
def sbufClientInit (sbuf : SbufMgr) (smem : SbufHead) : SetupM (ℤ × SbufMgr) := do
  if !(← take o .head) then
    return (-efault, sbuf)
  let bufnum := smem.ringnr
  let txbufsize := smem.rxbuf_size
  let rxbufsize := smem.txbuf_size
  let sbuf := { sbuf with
    ringnr := bufnum, smem_size := sbufSmemSize bufnum txbufsize rxbufsize }
  give .head
  let addr ← smemAlloc c o sbuf.dst sbuf.smem_size
  let sbuf := { sbuf with smem_addr_debug := addr }
  if sbuf.smem_addr_debug = 0 then
    return (-enomem, sbuf)
  if !(← take o .virt) then
    smemFree c sbuf.dst sbuf.smem_addr_debug sbuf.smem_size
    return (-efault, sbuf)
  if !(← take o .rings) then
    smemFree c sbuf.dst sbuf.smem_addr_debug sbuf.smem_size
    give .virt
    return (-enomem, sbuf)
  if o.request < 0 then
    -- Not `smem_addr_debug`, as above.
    smemFree c sbuf.dst sbuf.smem_addr sbuf.smem_size
    give .virt
    give .rings
    return (o.request, sbuf)
  return (0, sbuf)

/-- `sblock_host_init`. -/
def sblockHostInit (config64Bit : Bool) (sipc : SmsgIpc) (sblock : SblockMgr)
    (txblocknum txblocksize rxblocknum rxblocksize : UInt32) : SetupM (ℤ × SblockMgr) := do
  let txblocksize := sblockAlign config64Bit txblocksize
  let rxblocksize := sblockAlign config64Bit rxblocksize
  let sblock := { sblock with
    txblksz := txblocksize, rxblksz := rxblocksize, txblknum := txblocknum, rxblknum := rxblocknum
    smem_size := sblockSmemSize txblocknum txblocksize rxblocknum rxblocksize }
  let addr ← smemAlloc c o sblock.dst sblock.smem_size
  let sblock := { sblock with smem_addr := addr }
  if sblock.smem_addr = 0 then
    return (-enomem, sblock)
  let sblock := { sblock with
    dst_smem_addr := sblock.smem_addr - sipc.smem_base + sipc.dst_smem_base }
  let sblock := { sblock with stored_smem_addr := sblock.dst_smem_addr }
  if !(← take o .virt) then
    smemFree c sblock.dst sblock.smem_addr sblock.smem_size
    return (-enomem, sblock)
  if !(← take o .txrecord) then
    give .virt
    smemFree c sblock.dst sblock.smem_addr sblock.smem_size
    return (-enomem, sblock)
  if !(← take o .rxrecord) then
    give .txrecord
    give .virt
    smemFree c sblock.dst sblock.smem_addr sblock.smem_size
    return (-enomem, sblock)
  if o.request < 0 then
    give .rxrecord
    give .txrecord
    give .virt
    smemFree c sblock.dst sblock.smem_addr sblock.smem_size
    return (o.request, sblock)
  return (0, sblock)

/-- `sblock_client_init`. -/
def sblockClientInit (sblock : SblockMgr) (ringhd : SblockHead) : SetupM (ℤ × SblockMgr) := do
  if !(← take o .head) then
    return (-enomem, sblock)
  let txblocknum := ringhd.rxblk_count
  let txblocksize := ringhd.rxblk_size
  let rxblocknum := ringhd.txblk_count
  let rxblocksize := ringhd.txblk_size
  let sblock := { sblock with
    txblksz := txblocksize, rxblksz := rxblocksize, txblknum := txblocknum, rxblknum := rxblocknum }
  give .head
  let sblock := { sblock with
    smem_size := sblockSmemSize txblocknum txblocksize rxblocknum rxblocksize }
  let addr ← smemAlloc c o sblock.dst sblock.smem_size
  let sblock := { sblock with smem_addr_debug := addr }
  if sblock.smem_addr_debug = 0 then
    return (-enomem, sblock)
  let sblock := { sblock with stored_smem_addr := sblock.smem_addr }
  if !(← take o .virt) then
    smemFree c sblock.dst sblock.smem_addr_debug sblock.smem_size
    return (-enomem, sblock)
  if !(← take o .txrecord) then
    give .virt
    smemFree c sblock.dst sblock.smem_addr_debug sblock.smem_size
    return (-enomem, sblock)
  if !(← take o .rxrecord) then
    give .txrecord
    give .virt
    smemFree c sblock.dst sblock.smem_addr_debug sblock.smem_size
    return (-enomem, sblock)
  if o.request < 0 then
    -- `rxrecord` is not freed.
    give .txrecord
    give .virt
    smemFree c sblock.dst sblock.smem_addr_debug sblock.smem_size
    return (o.request, sblock)
  return (0, sblock)

/-- A call of one of them. -/
inductive ChannelInit
  | sbufHost (sipc : SmsgIpc) (sbuf : SbufMgr) (bufnum txbufsize rxbufsize : UInt32)
  | sbufClient (sbuf : SbufMgr) (smem : SbufHead)
  | sblockHost (config64Bit : Bool) (sipc : SmsgIpc) (sblock : SblockMgr)
    (txblocknum txblocksize rxblocknum rxblocksize : UInt32)
  | sblockClient (sblock : SblockMgr) (ringhd : SblockHead)

/-- What the call returns. -/
def ChannelInit.run : ChannelInit → SetupM ℤ
  | sbufHost sipc sbuf bufnum txbufsize rxbufsize =>
    Prod.fst <$> sbufHostInit c o sipc sbuf bufnum txbufsize rxbufsize
  | sbufClient sbuf smem => Prod.fst <$> sbufClientInit c o sbuf smem
  | sblockHost config64Bit sipc sblock txblocknum txblocksize rxblocknum rxblocksize =>
    Prod.fst <$> sblockHostInit c o config64Bit sipc sblock
      txblocknum txblocksize rxblocknum rxblocksize
  | sblockClient sblock ringhd => Prod.fst <$> sblockClientInit c o sblock ringhd

end Init

/-! ## The law -/

/-- The records of a pool. -/
def recordsOf (s : SmemPools) (dst : ℕ) : List SmemRecord :=
  match s dst with
  | some p => p.records
  | none => []

/-- The pools are as they were, and the set-up has nothing of them. -/
structure Undone (s : SmemPools) (t : SetupState) : Prop where
  /-- The records are those from before the call. -/
  records : ∀ dst r, r ∈ recordsOf t.pools dst ↔ r ∈ recordsOf s dst
  /-- Nothing was given back that the call had not taken. -/
  owned : t.held.faulty = false
  /-- Every block that it took was given back. -/
  freed : ∀ addr, t.held.live (.smem addr) = false

/-- What is promised of a call: it returns, and if it fails it has undone what it did. -/
def SetupLaw (s : SmemPools) (x : SetupM ℤ) : Prop :=
  Completes x ⟨s, .empty⟩ fun rval t ↦ rval ≠ 0 → Undone s t

/-- The last step of `sbuf_client_init` fails, and the block of the host is not the one that the
call has taken. -/
def ChannelInit.FreesHosts (c : SmemConfig) (o : Outcome) (s : SmemPools) : ChannelInit → Prop
  | .sbufClient sbuf smem =>
    let addr := (smemAllocAt c s sbuf.dst
      (sbufSmemSize smem.ringnr smem.rxbuf_size smem.txbuf_size) o.recd).1
    o.got .head ∧ addr ≠ 0 ∧ o.got .virt ∧ o.got .rings ∧ o.request < 0 ∧ sbuf.smem_addr ≠ addr
  | _ => False

/-! ## The pool -/

section Pool

variable {c : SmemConfig} {s s' : SmemPools} {dst : UInt8} {addr size : UInt32} {recd : Bool}

theorem recordsOf_update (p : SmemPool) (d : ℕ) :
    recordsOf (Function.update s dst.toNat (some p)) d =
      if d = dst.toNat then p.records else recordsOf s d := by
  unfold recordsOf
  by_cases hd : d = dst.toNat
  · rw [if_pos hd, hd, Function.update_self]
  · rw [if_neg hd, Function.update_of_ne hd]

/-- Either the pool has no block for the call, or there is one more record. -/
theorem smemAlloc_cases (c : SmemConfig) (p : SmemPool) (n : ℕ) :
    ((Sipc.smemAlloc c p n).1 = 0 ∧ (Sipc.smemAlloc c p n).2.records = p.records) ∨
      (Sipc.smemAlloc c p n).1 ≠ 0 ∧ (Sipc.smemAlloc c p n).1 < 2 ^ 32 ∧
        (Sipc.smemAlloc c p n).2.records =
          p.records ++ [⟨c.round p.size n, (Sipc.smemAlloc c p n).1⟩] ∧
        ∃ b : SmemBlock, b.addr = (Sipc.smemAlloc c p n).1 ∧ b.n = n ∧
          (Sipc.smemAlloc c p n).2.live = p.live ++ [b] := by
  unfold Sipc.smemAlloc
  dsimp only
  split
  · exact .inl ⟨rfl, rfl⟩
  · split
    · exact .inl ⟨rfl, rfl⟩
    · rename_i hpos
      exact .inr ⟨hpos, u32_lt (_ : ℕ), rfl, _, rfl, rfl, rfl⟩

/-- The pool has given a block at `addr` to the call. -/
structure Granted (c : SmemConfig) (s s' : SmemPools) (dst : UInt8) (addr size : UInt32)
    (p p' : SmemPool) (b : SmemBlock) : Prop where
  pool : s dst.toNat = some p
  pools : s' = Function.update s dst.toNat (some p')
  inv : SmemInv c p'
  records : p'.records = p.records ++ [⟨c.round p.size b.n, b.addr⟩]
  live : p'.live = p.live ++ [b]
  addr : b.addr = addr.toNat
  n : b.n = size.toNat

/-- What `smem_alloc` does. -/
theorem smemAllocAt_cases (hinv : ∀ dst p, s dst = some p → SmemInv c p) (dst : UInt8)
    (size : UInt32) (recd : Bool) :
    ((smemAllocAt c s dst size recd).1 = 0 ∧
        ∀ d, recordsOf (smemAllocAt c s dst size recd).2 d = recordsOf s d) ∨
      (smemAllocAt c s dst size recd).1 ≠ 0 ∧ ∃ p p' b,
        Granted c s (smemAllocAt c s dst size recd).2 dst (smemAllocAt c s dst size recd).1 size
          p p' b := by
  unfold smemAllocAt
  cases hpool : s dst.toNat with
  | none => exact .inl ⟨rfl, fun _ ↦ rfl⟩
  | some p =>
    cases recd with
    | false => exact .inl ⟨rfl, fun _ ↦ rfl⟩
    | true =>
      have hnew := (hinv _ p hpool).alloc size.toNat_lt
      obtain ⟨hzero, hrec⟩ | ⟨hpos, hlt, hrec, b, hb, hn, hlive⟩ :=
        smemAlloc_cases c p size.toNat
      · refine .inl ⟨congrArg UInt32.ofNat hzero, fun d ↦ ?_⟩
        dsimp only
        rw [if_pos rfl, recordsOf_update, hrec]
        split
        · rw [‹d = _›, recordsOf, hpool]
        · rfl
      · have haddr : (UInt32.ofNat (Sipc.smemAlloc c p size.toNat).1).toNat =
            (Sipc.smemAlloc c p size.toNat).1 := UInt32.toNat_ofNat_of_lt' hlt
        refine .inr ⟨fun hzero ↦ hpos ?_, p, _, b, hpool, rfl, hnew, ?_, hlive, ?_, hn⟩
        · rw [← haddr]
          exact congrArg UInt32.toNat hzero
        · rw [hn, hb]
          exact hrec
        · exact hb.trans haddr.symm

namespace Granted

variable {p p' : SmemPool} {b : SmemBlock}

variable (h : Granted c s s' dst addr size p p' b)

include h

/-- No other block has the address. -/
theorem fresh {r : SmemRecord} (hr : r ∈ p.records) : r.addr ≠ b.addr := by
  have haddrs := h.inv.addrs
  have hrecords : p'.records.map SmemRecord.addr = p'.live.map SmemBlock.addr := by
    rw [h.inv.records, List.map_map]
    rfl
  rw [← hrecords, h.records, List.map_append, List.map_singleton, List.nodup_append] at haddrs
  exact haddrs.2.2 _ (List.mem_map_of_mem hr) _ (List.mem_singleton_self _)

/-- The block can be given back, and then the records are those from before. -/
theorem free :
    ∃ t, smemFreeAt c s' dst addr size = some t ∧ ∀ d, recordsOf t d = recordsOf s d := by
  have hb : b ∈ p'.live := by
    rw [h.live]
    exact List.mem_append_right _ (List.mem_singleton_self _)
  obtain ⟨i, hheld⟩ := h.inv.held b hb
  have herase : p'.records.eraseP (·.addr = b.addr) = p.records := by
    rw [h.records, List.eraseP_append_right _ fun r hr ↦ by simpa using h.fresh hr]
    simp
    trace_state
  obtain ⟨q, hfree, hrecords⟩ : ∃ q, Sipc.smemFree c p' b.addr b.n = some q ∧
      q.records = p.records := ⟨_, h.inv.free_eq hheld, herase⟩
  rw [h.addr, h.n] at hfree
  refine ⟨Function.update s dst.toNat (some q), ?_, fun d ↦ ?_⟩
  · unfold smemFreeAt
    rw [h.pools, Function.update_self]
    dsimp only
    rw [hfree, Option.map_some, Function.update_idem]
  · rw [recordsOf_update, hrecords]
    split
    · rw [‹d = _›, recordsOf, h.pool]
    · rfl

/-- If another block is given back instead, the record stays. -/
theorem free_other {a : UInt32} (ha : a ≠ addr)
    {t : SmemPools} (ht : smemFreeAt c s' dst a size = some t) :
    ∃ r ∈ recordsOf t dst.toNat, r ∉ recordsOf s dst.toNat := by
  unfold smemFreeAt at ht
  rw [h.pools, Function.update_self] at ht
  obtain ⟨q, hq, rfl⟩ := Option.map_eq_some_iff.mp ht
  obtain ⟨gen, -, rfl⟩ := Option.map_eq_some_iff.mp hq
  refine ⟨⟨c.round p.size b.n, b.addr⟩, ?_, fun hold ↦ ?_⟩
  · rw [recordsOf_update, if_pos rfl]
    dsimp only
    refine (List.mem_eraseP_of_neg ?_).mpr ?_
    · simpa [h.addr, UInt32.toNat_inj] using ha.symm
    · rw [h.records]
      exact List.mem_append_right _ (List.mem_singleton_self _)
  · rw [recordsOf, h.pool] at hold
    exact h.fresh hold rfl

end Granted

end Pool

/-! ## The calls -/

section Calls

variable {c : SmemConfig} {o : Outcome} {α : Type} {t : SetupState} {dst : UInt8}
variable {addr size : UInt32} {x : Held}

theorem completes_take {Q : Bool → SetupState → Prop} :
    Completes (take o x) t Q ↔
      Q (o.got x) (if o.got x then { t with held := t.held.alloc x } else t) :=
  Completes.step_iff rfl

theorem completes_give {Q : Unit → SetupState → Prop} :
    Completes (give x) t Q ↔ Q () { t with held := t.held.free x } :=
  Completes.step_iff rfl

theorem completes_smemFree {Q : Unit → SetupState → Prop} :
    Completes (smemFree c dst addr size) t Q ↔
      ∃ pools, smemFreeAt c t.pools dst addr size = some pools ∧
        Q () ⟨pools, t.held.free (.smem addr)⟩ := by
  unfold Completes smemFree
  constructor
  · rintro ⟨_, _, h, hQ⟩
    obtain ⟨pools, hpools, heq⟩ := Option.map_eq_some_iff.mp h
    cases heq
    exact ⟨pools, hpools, hQ⟩
  · rintro ⟨pools, hpools, hQ⟩
    exact ⟨(), _, Option.map_eq_some_iff.mpr ⟨pools, hpools, rfl⟩, hQ⟩

theorem completes_smemAlloc {Q : UInt32 → SetupState → Prop} :
    Completes (smemAlloc c o dst size) t Q ↔
      Q (smemAllocAt c t.pools dst size o.recd).1
        ⟨(smemAllocAt c t.pools dst size o.recd).2,
          if (smemAllocAt c t.pools dst size o.recd).1 = 0 then t.held
          else t.held.alloc (.smem (smemAllocAt c t.pools dst size o.recd).1)⟩ :=
  Completes.step_iff rfl

/-- A pointer is checked at once. -/
theorem completes_check {y z : SetupM α} {Q : α → SetupState → Prop} :
    Completes (take o x >>= fun ok ↦ if !ok then y else z) t Q ↔
      (o.got x = false → Completes y t Q) ∧
        (o.got x = true → Completes z { t with held := t.held.alloc x } Q) := by
  rw [Completes.bind_iff, completes_take]
  cases o.got x with
  | false => simp
  | true => simp

end Calls

section Exits

variable {c : SmemConfig} {s s' : SmemPools} {dst : UInt8} {addr size : UInt32}
variable {p p' : SmemPool} {b : SmemBlock} {held : Allocation Held} {rval : ℤ}

/-- Nothing had been taken. -/
theorem Undone.of_records (hrec : ∀ d, recordsOf s' d = recordsOf s d)
    (hheld : held.Owns fun _ ↦ False) : Undone s ⟨s', held⟩ where
  records d r := by rw [hrec d]
  owned := hheld.sound
  freed addr := Bool.eq_false_iff.mpr ((hheld.live _).not.mpr not_false)

/-- What an exit gives back, of the block and of `xs`, was taken, and the block is among it. -/
def GivesBack (addr : UInt32) (xs ys : List Held) : Prop :=
  (∀ a, .smem a ∉ xs) ∧ ys.Nodup ∧ (∀ y ∈ ys, y ∈ xs ∨ y = .smem addr) ∧ .smem addr ∈ ys

/-- An exit of a set-up that has taken the block and `xs`, and gives back `ys`. -/
theorem Granted.exit (h : Granted c s s' dst addr size p p' b) (hheld : held.Owns fun _ ↦ False)
    (xs ys : List Held) (hback : GivesBack addr xs ys) :
    ∃ pools, smemFreeAt c s' dst addr size = some pools ∧
      (∀ d, recordsOf pools d = recordsOf s d) ∧
      (((held.alloc (.smem addr)).allocAll xs).freeAll ys).Owns
        fun y ↦ (y ∈ xs ∨ y = .smem addr) ∧ y ∉ ys := by
  obtain ⟨-, hnodup, htaken, -⟩ := hback
  obtain ⟨t, ht, hrec⟩ := h.free
  have howns := ((hheld.alloc (.smem addr)).allocAll xs).freeAll hnodup
    fun y hy ↦ (htaken y hy).imp_right .inl
  exact ⟨t, ht, hrec, howns.congr fun y ↦ by rw [or_false]⟩

theorem Granted.undone (h : Granted c s s' dst addr size p p' b)
    (hheld : held.Owns fun _ ↦ False) (xs ys : List Held) (hback : GivesBack addr xs ys) :
    ∃ pools, smemFreeAt c s' dst addr size = some pools ∧
      (rval ≠ 0 → Undone s ⟨pools, ((held.alloc (.smem addr)).allocAll xs).freeAll ys⟩) := by
  obtain ⟨t, ht, hrec, howns⟩ := h.exit hheld xs ys hback
  obtain ⟨hother, -, -, hblock⟩ := hback
  refine ⟨t, ht, fun _ ↦ ⟨fun d r ↦ by rw [hrec d], howns.sound, fun a ↦ ?_⟩⟩
  rw [Bool.eq_false_iff, Ne, howns.live]
  rintro ⟨ha | ha, hnot⟩
  · exact hother a ha
  · exact hnot (ha ▸ hblock)

end Exits

section Laws

variable {c : SmemConfig} {o : Outcome} {s : SmemPools}
variable (hinv : ∀ dst p, s dst = some p → SmemInv c p)

include hinv

theorem sbufHostInit_law (sipc : SmsgIpc) (sbuf : SbufMgr) (bufnum txbufsize rxbufsize : UInt32) :
    SetupLaw s (Prod.fst <$> sbufHostInit c o sipc sbuf bufnum txbufsize rxbufsize) := by
  unfold SetupLaw sbufHostInit
  simp only [Completes.map_iff]
  rw [Completes.bind_iff, completes_smemAlloc]
  obtain ⟨hzero, hrec⟩ | ⟨hpos, p, p', b, hgrant⟩ :=
    smemAllocAt_cases hinv sbuf.dst (sbufSmemSize bufnum txbufsize rxbufsize) o.recd
  · rw [if_pos hzero, if_pos hzero, Completes.pure_iff]
    exact fun _ ↦ .of_records hrec .empty
  · rw [if_neg hpos, if_neg hpos]
    generalize smemAllocAt c s sbuf.dst (sbufSmemSize bufnum txbufsize rxbufsize) o.recd = a at *
    refine completes_check.mpr ⟨fun _ ↦ ?_, fun _ ↦ completes_check.mpr ⟨fun _ ↦ ?_, fun _ ↦ ?_⟩⟩
    · simp only [Completes.bind_iff, completes_smemFree, Completes.pure_iff]
      exact hgrant.undone .empty [] [.smem a.1] (by simp [GivesBack])
    · simp only [Completes.bind_iff, completes_smemFree, completes_give, Completes.pure_iff]
      exact hgrant.undone .empty [.virt] [.smem a.1, .virt] (by simp [GivesBack])
    · split
      · simp only [Completes.bind_iff, completes_smemFree, completes_give, Completes.pure_iff]
        exact hgrant.undone .empty [.virt, .rings] [.smem a.1, .virt, .rings] (by simp [GivesBack])
      · exact Completes.pure_iff.mpr fun h ↦ absurd rfl h

theorem sblockHostInit_law (config64Bit : Bool) (sipc : SmsgIpc) (sblock : SblockMgr)
    (txblocknum txblocksize rxblocknum rxblocksize : UInt32) :
    SetupLaw s (Prod.fst <$> sblockHostInit c o config64Bit sipc sblock
      txblocknum txblocksize rxblocknum rxblocksize) := by
  unfold SetupLaw sblockHostInit
  simp only [Completes.map_iff]
  rw [Completes.bind_iff, completes_smemAlloc]
  generalize sblockSmemSize txblocknum (sblockAlign config64Bit txblocksize) rxblocknum
    (sblockAlign config64Bit rxblocksize) = size
  obtain ⟨hzero, hrec⟩ | ⟨hpos, p, p', b, hgrant⟩ :=
    smemAllocAt_cases hinv sblock.dst size o.recd
  · rw [if_pos hzero, if_pos hzero, Completes.pure_iff]
    exact fun _ ↦ .of_records hrec .empty
  · rw [if_neg hpos, if_neg hpos]
    generalize smemAllocAt c s sblock.dst size o.recd = a at *
    refine completes_check.mpr ⟨fun _ ↦ ?_, fun _ ↦ completes_check.mpr ⟨fun _ ↦ ?_, fun _ ↦
      completes_check.mpr ⟨fun _ ↦ ?_, fun _ ↦ ?_⟩⟩⟩
    · simp only [Completes.bind_iff, completes_smemFree, Completes.pure_iff]
      exact hgrant.undone .empty [] [.smem a.1] (by simp [GivesBack])
    · simp only [Completes.bind_iff, completes_smemFree, completes_give, Completes.pure_iff]
      exact hgrant.undone .empty [.virt] [.virt, .smem a.1] (by simp [GivesBack])
    · simp only [Completes.bind_iff, completes_smemFree, completes_give, Completes.pure_iff]
      exact hgrant.undone .empty [.virt, .txrecord] [.txrecord, .virt, .smem a.1]
        (by simp [GivesBack])
    · split
      · simp only [Completes.bind_iff, completes_smemFree, completes_give, Completes.pure_iff]
        exact hgrant.undone .empty [.virt, .txrecord, .rxrecord]
          [.rxrecord, .txrecord, .virt, .smem a.1] (by simp [GivesBack])
      · exact Completes.pure_iff.mpr fun h ↦ absurd rfl h

omit hinv in
/-- The header is mapped only to be read. -/
theorem owns_head : ((Allocation.empty.alloc Held.head).free .head).Owns fun _ ↦ False :=
  ((Allocation.Owns.empty.alloc Held.head).free (.inl rfl)).congr fun x ↦ by tauto

theorem sblockClientInit_law (sblock : SblockMgr) (ringhd : SblockHead) :
    SetupLaw s (Prod.fst <$> sblockClientInit c o sblock ringhd) := by
  unfold SetupLaw sblockClientInit
  simp only [Completes.map_iff]
  refine completes_check.mpr ⟨fun _ ↦ ?_, fun _ ↦ ?_⟩
  · exact Completes.pure_iff.mpr fun _ ↦ .of_records (fun _ ↦ rfl) .empty
  rw [Completes.bind_iff, completes_give, Completes.bind_iff, completes_smemAlloc]
  dsimp only
  generalize sblockSmemSize ringhd.rxblk_count ringhd.rxblk_size ringhd.txblk_count
    ringhd.txblk_size = size
  obtain ⟨hzero, hrec⟩ | ⟨hpos, p, p', b, hgrant⟩ :=
    smemAllocAt_cases hinv sblock.dst size o.recd
  · rw [if_pos hzero, if_pos hzero, Completes.pure_iff]
    exact fun _ ↦ .of_records hrec owns_head
  · rw [if_neg hpos, if_neg hpos]
    generalize smemAllocAt c s sblock.dst size o.recd = a at *
    refine completes_check.mpr ⟨fun _ ↦ ?_, fun _ ↦ completes_check.mpr ⟨fun _ ↦ ?_, fun _ ↦
      completes_check.mpr ⟨fun _ ↦ ?_, fun _ ↦ ?_⟩⟩⟩
    · simp only [Completes.bind_iff, completes_smemFree, Completes.pure_iff]
      exact hgrant.undone owns_head [] [.smem a.1] (by simp [GivesBack])
    · simp only [Completes.bind_iff, completes_smemFree, completes_give, Completes.pure_iff]
      exact hgrant.undone owns_head [.virt] [.virt, .smem a.1] (by simp [GivesBack])
    · simp only [Completes.bind_iff, completes_smemFree, completes_give, Completes.pure_iff]
      exact hgrant.undone owns_head [.virt, .txrecord] [.txrecord, .virt, .smem a.1]
        (by simp [GivesBack])
    · split
      · simp only [Completes.bind_iff, completes_smemFree, completes_give, Completes.pure_iff]
        exact hgrant.undone owns_head [.virt, .txrecord, .rxrecord] [.txrecord, .virt, .smem a.1]
          (by simp [GivesBack])
      · exact Completes.pure_iff.mpr fun h ↦ absurd rfl h

theorem sbufClientInit_law_iff (sbuf : SbufMgr) (smem : SbufHead) :
    SetupLaw s (Prod.fst <$> sbufClientInit c o sbuf smem) ↔
      ¬ (ChannelInit.sbufClient sbuf smem).FreesHosts c o s := by
  unfold SetupLaw sbufClientInit ChannelInit.FreesHosts
  simp only [Completes.map_iff]
  rw [completes_check]
  simp only [Completes.pure_iff]
  rw [Completes.bind_iff, completes_give, Completes.bind_iff, completes_smemAlloc]
  dsimp only
  generalize sbufSmemSize smem.ringnr smem.rxbuf_size smem.txbuf_size = size
  obtain ⟨hzero, hrec⟩ | ⟨hpos, p, p', b, hgrant⟩ := smemAllocAt_cases hinv sbuf.dst size o.recd
  · rw [if_pos hzero, if_pos hzero, Completes.pure_iff]
    exact iff_of_true ⟨fun _ _ ↦ .of_records (fun _ ↦ rfl) .empty,
      fun _ _ ↦ .of_records hrec owns_head⟩ fun h ↦ h.2.1 hzero
  · rw [if_neg hpos, if_neg hpos]
    generalize smemAllocAt c s sbuf.dst size o.recd = a at *
    constructor
    · rintro ⟨-, hlaw⟩ ⟨hhead, -, hvirt, hrings, hrequest, hne⟩
      have hlast := (completes_check.mp ((completes_check.mp (hlaw hhead)).2 hvirt)).2 hrings
      rw [if_pos hrequest] at hlast
      simp only [Completes.bind_iff, completes_smemFree, completes_give, Completes.pure_iff]
        at hlast
      obtain ⟨pools, hfree, hundone⟩ := hlast
      obtain ⟨r, hr, hnew⟩ := hgrant.free_other hne hfree
      exact hnew (((hundone hrequest.ne).records _ r).mp hr)
    · intro hright
      refine ⟨fun _ _ ↦ .of_records (fun _ ↦ rfl) .empty, fun hhead ↦ ?_⟩
      refine completes_check.mpr ⟨fun _ ↦ ?_, fun hvirt ↦
        completes_check.mpr ⟨fun _ ↦ ?_, fun hrings ↦ ?_⟩⟩
      · simp only [Completes.bind_iff, completes_smemFree, Completes.pure_iff]
        exact hgrant.undone owns_head [] [.smem a.1] (by simp [GivesBack])
      · simp only [Completes.bind_iff, completes_smemFree, completes_give, Completes.pure_iff]
        exact hgrant.undone owns_head [.virt] [.smem a.1, .virt] (by simp [GivesBack])
      · split
        · rename_i hrequest
          have heq : sbuf.smem_addr = a.1 := by
            by_contra hne
            exact hright ⟨hhead, hpos, hvirt, hrings, hrequest, hne⟩
          simp only [Completes.bind_iff, completes_smemFree, completes_give, Completes.pure_iff]
          rw [heq]
          exact hgrant.undone owns_head [.virt, .rings] [.smem a.1, .virt, .rings]
            (by simp [GivesBack])
        · exact Completes.pure_iff.mpr fun h ↦ absurd rfl h

end Laws

/-- In every state of the pools, a channel set-up that fails leaves the records as they were and
gives back its own block alone, except that the last exit of `sbuf_client_init` gives back the
block of the host. -/
theorem setup_law_iff {c : SmemConfig} {s : SmemPools}
    (hs : (smemSystem c).Reach (fun _ e ↦ e.inside c) s) (o : Outcome) (x : ChannelInit) :
    SetupLaw s (x.run c o) ↔ ¬ x.FreesHosts c o s := by
  have hinv := smem_inv hs
  cases x with
  | sbufHost => exact iff_of_true (sbufHostInit_law hinv ..) not_false
  | sbufClient => exact sbufClientInit_law_iff hinv ..
  | sblockHost => exact iff_of_true (sblockHostInit_law hinv ..) not_false
  | sblockClient => exact iff_of_true (sblockClientInit_law hinv ..) not_false

/-- A pool of 256 KiB in which another channel has the first page. -/
def sharedPool : SmemPools :=
  (smemSystem smemConfig64).exec (smemSystem smemConfig64).init
    [.init 0x10000000 0x40000 1, .alloc 1 4096 true]

theorem sharedPool_reached :
    (smemSystem smemConfig64).Reach (fun _ e ↦ e.inside smemConfig64) sharedPool := by
  have hinside : 0x10000000 + smemConfig64.round 0x40000 0x40000 ≤ 2 ^ 32 := by decide
  exact System.Reach.init.exec ⟨by decide, hinside, by decide, trivial, trivial⟩

/-- The request for the power resource is interrupted. -/
def interrupted : Outcome := ⟨true, fun _ ↦ true, -512⟩

/-- A client of blocks whose header is at the page of the other channel. -/
def sblockClient : ChannelInit :=
  .sblockClient ⟨1, 0x10000000, 0, 0, 0, 0, 0, 0, 0, 0⟩ ⟨4, 256, 4, 256⟩

/-- A client with one ring whose header is there. -/
def sbufClient : ChannelInit :=
  .sbufClient ⟨1, 0x10000000, 0, 0, 0, 0⟩ ⟨1, 1024, 1024⟩

theorem sblockClient_undone : SetupLaw sharedPool (sblockClient.run smemConfig64 interrupted) :=
  (setup_law_iff sharedPool_reached interrupted sblockClient).mpr not_false

/-- The page of the other channel is freed, and the block of the client is not. -/
theorem sbufClient_frees_other :
    (smemSystem smemConfig64).Reach (fun _ e ↦ e.inside smemConfig64) sharedPool ∧
      recordsOf sharedPool 1 = [⟨4096, 0x10000000⟩] ∧
      ((sbufClient.run smemConfig64 interrupted ⟨sharedPool, .empty⟩).map fun r ↦
        (r.1, recordsOf r.2.pools 1)) = some (-512, [⟨4096, 0x10001000⟩]) ∧
      ¬ SetupLaw sharedPool (sbufClient.run smemConfig64 interrupted) := by
  have hbefore : recordsOf sharedPool 1 = [⟨4096, 0x10000000⟩] := by decide
  have hafter : ((sbufClient.run smemConfig64 interrupted ⟨sharedPool, .empty⟩).map fun r ↦
      (r.1, recordsOf r.2.pools 1)) = some (-512, [⟨4096, 0x10001000⟩]) := by decide
  refine ⟨sharedPool_reached, hbefore, hafter, ?_⟩
  rintro ⟨rval, t, hrun, hlaw⟩
  rw [hrun, Option.map_some, Option.some.injEq, Prod.mk.injEq] at hafter
  obtain ⟨rfl, hrecords⟩ := hafter
  have hmem := (hlaw (by decide)).records 1 ⟨4096, 0x10001000⟩
  rw [hrecords, hbefore] at hmem
  revert hmem
  decide

end Wwan.Sipc.Setup
