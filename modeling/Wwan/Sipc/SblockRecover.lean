import Wwan.Sipc.SblockConserve

/-!
# Recovering the pools

When the peer opens a channel again, `sblock_recover` empties the rings and fills the pools
with the blocks that no caller of this side has. It writes their descriptors from slot `0`
on, while the pool goes on where the old pointers were: what `sblock_get` will read are the
new descriptors only if the slots agree.
-/

namespace Wwan.Sipc

open Wwan Bytes

/-! ## The loop -/

/-- The blocks that no caller has. -/
def doneBlks (A : SblockArea) (record : ℕ → BlkState) : List ℕ :=
  (List.range A.count).filter (record · = .done)

/-- The descriptor of a block. -/
def SblockArea.blk (A : SblockArea) (i : ℕ) : SblockBlks := ⟨A.blkAddr i, A.size⟩

/-- A pass of the loop of `sblock_recover`: the header and `j`. -/
def refillPass (A : SblockArea) (record : ℕ → BlkState) (x : SblockHeader × ℕ) (i : ℕ) :
    SblockHeader × ℕ :=
  if record i = .done then
    ({ x.1 with
        wt := u32 (x.1.wt + 1)
        blks := Function.update x.1.blks x.2 (A.blk i) }, x.2 + 1)
  else x

/-- The loop of `sblock_recover`. -/
def refill (A : SblockArea) (record : ℕ → BlkState) (hd : SblockHeader) : SblockHeader :=
  ((List.range A.count).foldl (refillPass A record) (hd, 0)).1

/-- `sblock_recover` of the side that sends. -/
def SblockDir.recoverTx (A : SblockArea) (s : SblockDir) : SblockDir :=
  { s with
    ring := { s.ring with wt := s.ring.rd }
    pool := refill A s.txrecord { s.pool with rd := s.pool.wt } }

/-- `sblock_recover` of the side that receives. -/
def SblockDir.recoverRx (A : SblockArea) (s : SblockDir) : SblockDir :=
  { s with
    ring := { s.ring with rd := s.ring.wt }
    pool := refill A s.rxrecord { s.pool with wt := s.pool.rd } }

/-- The descriptors that `sblock_get` will read. -/
def SblockHeader.handout (n : ℕ) (hd : SblockHeader) : List SblockBlks :=
  (List.range (u32 (hd.wt - hd.rd))).map fun k ↦ hd.blks (sblockGetRingpos (u32 (hd.rd + k)) n)

section Refill

variable {A : SblockArea} {record : ℕ → BlkState}

theorem foldl_refillPass (l : List ℕ) (hd : SblockHeader) (j : ℕ) :
    (l.foldl (refillPass A record) (hd, j)).1 =
      { rd := hd.rd
        wt := if l.filter (record · = .done) = [] then hd.wt
          else u32 (hd.wt + (l.filter (record · = .done)).length)
        blks := Ring.blit hd.blks j ((l.filter (record · = .done)).map A.blk) } := by
  induction l generalizing hd j with
  | nil => simp
  | cons i l ih =>
    rw [List.foldl_cons]
    by_cases hi : record i = .done
    · rw [refillPass, if_pos hi, ih, List.filter_cons_of_pos (by simpa using hi), List.map_cons,
        Ring.blit_cons, if_neg (List.cons_ne_nil _ _), List.length_cons]
      congr 1
      split
      · rename_i hnil
        rw [hnil, List.length_nil]
        rfl
      · dsimp only
        unfold u32
        omega
    · rw [refillPass, if_neg hi, ih, List.filter_cons_of_neg (by simpa using hi)]

theorem doneBlks_length_le (A : SblockArea) (record : ℕ → BlkState) :
    (doneBlks A record).length ≤ A.count := by
  have := List.length_filter_le (record · = .done) (List.range A.count)
  rwa [List.length_range] at this

/-- What `sblock_get` will read of an empty pool after the loop: the slots are those from
the old pointer on, with the new descriptors from slot `0` on. -/
theorem handout_refill {hd : SblockHeader} (hempty : hd.wt = hd.rd) :
    (refill A record hd).handout A.count =
      ((List.range (doneBlks A record).length).map fun k ↦ u32 (hd.rd + k) % A.count).map
        (Ring.blit hd.blks 0 ((doneBlks A record).map A.blk)) := by
  have hlen := doneBlks_length_le A record
  have hcount := A.count_lt
  have hsize : u32 ((refill A record hd).wt - (refill A record hd).rd) =
      (doneBlks A record).length := by
    unfold refill
    rw [foldl_refillPass]
    dsimp only
    rw [hempty]
    split
    · rename_i hnil
      unfold doneBlks
      rw [hnil, Int.sub_self]
      rfl
    · unfold doneBlks at hlen ⊢
      unfold u32
      omega
  unfold SblockHeader.handout
  rw [hsize, List.map_map]
  refine List.map_congr_left fun k _ ↦ ?_
  unfold refill
  rw [foldl_refillPass, sblockGetRingpos_eq]
  rfl

end Refill

/-! ## Exact recovery -/

/-- The ring is empty, and what `sblock_get` will get are the blocks that no caller has. -/
structure Recovered (A : SblockArea) (record : ℕ → BlkState) (s : SblockDir) : Prop where
  pool : ((s.pool.handout A.count).map SblockBlks.addr).Perm
    ((doneBlks A record).map A.blkAddr)
  ring : s.ring.rd = s.ring.wt

/-- The slots from `w` on are different, and those that the loop does not write to have the
descriptors that it writes to other slots. -/
def RefillFits (A : SblockArea) (record : ℕ → BlkState) (blks : ℕ → SblockBlks) (w : ℕ) : Prop :=
  let done := (doneBlks A record).map A.blkAddr
  let slots := (List.range done.length).map fun k ↦ u32 (w + k) % A.count
  slots.Nodup ∧ ((slots.filter (done.length ≤ ·)).map fun i ↦ (blks i).addr).Perm
    (((List.range done.length).filter (· ∉ slots)).map
      (Ring.blit (fun i ↦ (blks i).addr) 0 done))

theorem doneAddrs_nodup (A : SblockArea) (record : ℕ → BlkState) :
    ((doneBlks A record).map A.blkAddr).Nodup :=
  blocks_nodup.sublist (List.filter_sublist.map _)

theorem handout_refill_perm_iff (A : SblockArea) (record : ℕ → BlkState) (hd : SblockHeader)
    (hempty : hd.wt = hd.rd) :
    (((refill A record hd).handout A.count).map SblockBlks.addr).Perm
      ((doneBlks A record).map A.blkAddr) ↔ RefillFits A record hd.blks hd.rd := by
  unfold RefillFits
  dsimp only
  rw [← Ring.map_blit_perm_iff _ (doneAddrs_nodup A record), handout_refill hempty, List.map_map,
    List.length_map]
  have hblit : SblockBlks.addr ∘ Ring.blit hd.blks 0 ((doneBlks A record).map A.blk) =
      Ring.blit (fun i ↦ (hd.blks i).addr) 0 ((doneBlks A record).map A.blkAddr) := by
    funext i
    rw [Function.comp_apply, Ring.apply_blit SblockBlks.addr, List.map_map]
    rfl
  rw [hblit]

/-- `sblock_recover` rebuilds the pools of both directions exactly if and only if the old
descriptors fit. -/
theorem recover_exact_iff (At Ar : SblockArea) (st sr : SblockDir) :
    Recovered At st.txrecord (st.recoverTx At) ∧ Recovered Ar sr.rxrecord (sr.recoverRx Ar) ↔
      RefillFits At st.txrecord st.pool.blks st.pool.wt ∧
        RefillFits Ar sr.rxrecord sr.pool.blks sr.pool.rd := by
  have htx := handout_refill_perm_iff At st.txrecord { st.pool with rd := st.pool.wt } rfl
  have hrx := handout_refill_perm_iff Ar sr.rxrecord { sr.pool with wt := sr.pool.rd } rfl
  constructor
  · rintro ⟨ht, hr⟩
    exact ⟨htx.mp ht.pool, hrx.mp hr.pool⟩
  · rintro ⟨ht, hr⟩
    exact ⟨⟨htx.mpr ht, rfl⟩, ⟨hrx.mpr hr, rfl⟩⟩

/-- A channel with two blocks in each direction, as `sblock_host_init` leaves it. -/
def freshSystem : System (Dir → SblockDir) SblockStep :=
  sblockSystem (fun _ ↦ smallArea) (fun _ ↦ 0) (fun _ ↦ 0) fun _ _ ↦ ⟨0, 0⟩

instance (s : Dir → SblockDir) (e : SblockStep) : Decidable (freshSystem.enabled s e) :=
  inferInstanceAs (Decidable (SblockStep.enabled (s e.dir) e = true))

/-- The first block comes back from the client, and the host gets the second one. -/
def heldRun : List SblockStep :=
  [(.host, .inl (.getEnter 0 0)), (.host, .inl (.getSample 0)), (.host, .inl (.getLock 0)),
    (.host, .inl .getDone), (.host, .inl (.sendWrite 65632 5)), (.host, .inl .sendDone),
    (.client, .inr .recvRead), (.client, .inr .recvDone), (.client, .inr (.releaseWrite 131168)),
    (.client, .inr .releaseDone), (.host, .inl (.getEnter 0 0)), (.host, .inl (.getSample 0)),
    (.host, .inl (.getLock 0)), (.host, .inl .getDone)]

/-- The direction from the host to the client after `heldRun`. -/
def heldTx : SblockDir := freshSystem.exec freshSystem.init heldRun .tx

/-- After `sblock_recover` the pool has the block that a caller still holds, and not the
free one. -/
theorem recover_not_exact :
    freshSystem.Reach (fun _ _ ↦ True) (freshSystem.exec freshSystem.init heldRun) ∧
      heldTx.sender = [65640] ∧ (heldTx.recoverTx smallArea).pool.handout 2 = [⟨4200, 8⟩] ∧
      ¬ Recovered smallArea heldTx.txrecord (heldTx.recoverTx smallArea) := by
  refine ⟨System.Reach.init.exec (by decide), by decide, by decide, fun h ↦ ?_⟩
  have hperm := h.pool
  revert hperm
  decide

end Wwan.Sipc
