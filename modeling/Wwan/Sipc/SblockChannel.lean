import Wwan.Sipc.SblockRecover

/-!
# A channel that goes down

`SMSG_TYPE_CLOSE` makes a channel idle. When the client has started again its
`SMSG_TYPE_OPEN` makes the host recover the pools, one direction after the other; a client
never recovers, because its host initialises the memory when it starts.

A call of `sblock_send` or `sblock_release` fails while the channel is idle, and leaves the
block as it was: recorded as pending, and known to nobody. A call of `sblock_put` does not
look at the state.
-/

namespace Wwan.Sipc

open Wwan Bytes

/-! ## The channel -/

/-- Both directions of an sblock channel, and what the threads of the two sides keep. -/
structure SblockChan where
  /-- The directions. -/
  dirs : Dir → SblockDir
  /-- Whether `state` is `SBLOCK_STATE_READY`. -/
  ready : Side → Bool
  /-- The direction that `sblock_recover` of the host comes to next. -/
  recovering : Option Dir

/-- The steps of a channel. -/
inductive SblockChanStep
  | /-- A call goes on. -/
    call (e : SblockStep)
  | /-- `sblock_get` finds the state idle and returns `-EIO`. -/
    getIdle (side : Side) (i : ℕ)
  | /-- `sblock_send` finds the state idle and returns `-EIO`. -/
    sendIdle (side : Side) (addr : ℕ)
  | /-- `sblock_release` finds the state idle and returns `-ENODEV`. -/
    releaseIdle (side : Side) (addr : ℕ)
  | /-- `sblock_thread` receives `SMSG_TYPE_CLOSE`, or `sblock_down` is called. -/
    close (side : Side)
  | /-- `sblock_thread` of the host receives `SMSG_TYPE_OPEN` and calls `sblock_recover`. -/
    openRecv
  | /-- `sblock_recover` empties the ring and fills the pool of a direction. -/
    recover
  | /-- `sipc_smem_request_resource` fails and so `sblock_recover` does nothing. -/
    recoverFail
  | /-- `sblock_thread` makes the channel ready. -/
    setReady (side : Side)
  deriving DecidableEq

/-- The steps of a call that are taken only if the state is `SBLOCK_STATE_READY`. The calls
of `sblock_send` and `sblock_release` look at it before they take their locks, and it may
have changed since. -/
def SblockStep.looks : SblockStep → Bool
  | (_, .inl (.getEnter _ _)) => true
  | (_, .inl (.getWake _)) => true
  | (_, .inl (.getLock _)) => true
  | (_, .inr .recvRead) => true
  | _ => false

namespace SblockDir

variable (A : SblockArea) (s : SblockDir)

/-- `sblock_get` returns. -/
def getIdle (i : ℕ) : SblockDir := s.setGetter i .out

/-- `sblock_send` returns. -/
def sendIdle (addr : ℕ) : SblockDir := { s with sender := s.sender.erase addr }

/-- `sblock_release` returns. -/
def releaseIdle (addr : ℕ) : SblockDir := { s with receiver := s.receiver.erase addr }

/-- The side that sends has started again. -/
def restartTx : SblockDir :=
  { s with
    txrecord := fun _ ↦ .done
    poolTx := .free
    ringTx := none
    getters := fun _ ↦ .out
    sender := [] }

/-- The side that receives has started again. -/
def restartRx : SblockDir :=
  { s with
    rxrecord := fun _ ↦ .done
    ringRx := none
    poolRx := none
    receiver := [] }

/-- The client has started again. -/
def restart : Dir → SblockDir
  | .tx => s.restartRx
  | .rx => s.restartTx

/-- The part of `sblock_recover` of the host that is about a direction. What was on its way
is gone. -/
def recover : Dir → SblockDir
  | .tx => { s.restartRx.recoverTx A with sent := s.received }
  | .rx => { s.restartTx.recoverRx A with sent := s.received }

/-- The locks that the host needs for it are free. -/
def unlocked : Dir → Bool
  | .tx => s.poolTx = .free ∧ s.ringTx = none
  | .rx => s.ringRx = none ∧ s.poolRx = none

end SblockDir

namespace SblockChan

variable (A : Dir → SblockArea) (s : SblockChan)

/-- One direction changes. -/
def setDir (d : Dir) (x : SblockDir) : SblockChan := { s with dirs := Function.update s.dirs d x }

/-- The state of one side changes. -/
def setState (side : Side) (ready : Bool) : SblockChan :=
  { s with ready := Function.update s.ready side ready }

/-- Whether a side runs: the client waits while the host recovers. -/
def runs : Side → Bool
  | .host => true
  | .client => s.recovering.isNone

end SblockChan

/-- When a step of a channel may be taken. -/
def SblockChanStep.enabled (s : SblockChan) : SblockChanStep → Bool
  | call e => s.runs e.1 && (s.ready e.1 || !e.looks) && e.enabled (s.dirs e.dir)
  | getIdle side i =>
    s.runs side && !s.ready side &&
      match (s.dirs side.txDir).getters i with
      | .waiting _ => true
      | .ready => true
      | _ => false
  | sendIdle side addr => s.runs side && !s.ready side && addr ∈ (s.dirs side.txDir).sender
  | releaseIdle side addr => s.runs side && !s.ready side && addr ∈ (s.dirs side.rxDir).receiver
  | close side => s.runs side
  | openRecv => s.recovering.isNone
  | recover =>
    match s.recovering with
    | some d => (s.dirs d).unlocked d
    | none => false
  | recoverFail => s.recovering = some .tx
  | setReady _ => s.recovering.isNone

/-- What a step does to a channel. -/
def SblockChanStep.act (A : Dir → SblockArea) (s : SblockChan) : SblockChanStep → SblockChan
  | call e => s.setDir e.dir (e.act (A e.dir) (s.dirs e.dir))
  | getIdle side i => s.setDir side.txDir ((s.dirs side.txDir).getIdle i)
  | sendIdle side addr => s.setDir side.txDir ((s.dirs side.txDir).sendIdle addr)
  | releaseIdle side addr => s.setDir side.rxDir ((s.dirs side.rxDir).releaseIdle addr)
  | close side => s.setState side false
  | openRecv => { s with ready := fun _ ↦ false, recovering := some .tx }
  | recover =>
    match s.recovering with
    | some .tx => { s.setDir .tx ((s.dirs .tx).recover (A .tx) .tx) with recovering := some .rx }
    | some .rx => { s.setDir .rx ((s.dirs .rx).recover (A .rx) .rx) with recovering := none }
    | none => s
  | recoverFail => { s with dirs := fun d ↦ (s.dirs d).restart d, recovering := none }
  | setReady side => s.setState side true

/-- The runs of a channel that goes down and comes up again. -/
def sblockChanSystem (A : Dir → SblockArea) (poolPtr ringPtr : Dir → ℕ)
    (mem : Dir → ℕ → SblockBlks) : System SblockChan SblockChanStep :=
  { init :=
      { dirs := fun d ↦ .start (A d) (poolPtr d) (ringPtr d) (mem d)
        ready := fun _ ↦ true
        recovering := none }
    enabled := fun s e ↦ e.enabled s
    next := fun s e ↦ e.act A s }

/-! ## The records -/

/-- A record says which blocks a side has. -/
structure Recorded (A : SblockArea) (virt : ℕ) (record : ℕ → BlkState) (holds : List ℕ) : Prop where
  known : ∀ v ∈ holds, ∃ i < A.count, v = A.toVirt virt (A.blkAddr i)
  pending : ∀ i < A.count, record i = .pending ↔ A.toVirt virt (A.blkAddr i) ∈ holds

section Record

variable {A : SblockArea} {virt : ℕ} {record : ℕ → BlkState} {holds holds' : List ℕ}

/-- A block ends before the end of the memory. -/
theorem offset_lt {i : ℕ} (hi : i < A.count) : A.base + i * A.size < 2 ^ 32 := by
  have hmul : (i + 1) * A.size ≤ A.count * A.size := Nat.mul_le_mul_right _ hi
  rw [Nat.succ_mul] at hmul
  have hfits := A.fits
  have hsize := A.size_pos
  omega

/-- Where a side sees a block. -/
theorem toVirt_blkAddr {i : ℕ} (hi : i < A.count) :
    A.toVirt virt (A.blkAddr i) = virt + (A.base + i * A.size) := by
  have hlt := offset_lt hi
  unfold SblockArea.toVirt SblockArea.blkAddr u32
  generalize hx : i * A.size = x at *
  have hx' : (i : ℤ) * A.size = x := by rw [← hx]; rfl
  rw [hx']
  omega

theorem index_toVirt {i : ℕ} (hi : i < A.count) :
    A.index virt (A.toVirt virt (A.blkAddr i)) = i := by
  have hlt := offset_lt hi
  have hoff : u32 (((virt + (A.base + i * A.size) : ℕ) : ℤ) - (virt + A.base)) = i * A.size := by
    generalize i * A.size = x at *
    unfold u32
    omega
  unfold SblockArea.index sblockGetIndex
  rw [toVirt_blkAddr hi, hoff]
  exact Nat.mul_div_cancel i A.size_pos

theorem toVirt_ne {i j : ℕ} (hi : i < A.count) (hj : j < A.count) (hne : j ≠ i) :
    A.toVirt virt (A.blkAddr j) ≠ A.toVirt virt (A.blkAddr i) := by
  intro heq
  apply hne
  rw [← index_toVirt hj, heq, index_toVirt hi]

variable (h : Recorded A virt record holds)

include h

theorem Recorded.perm (hperm : holds'.Perm holds) : Recorded A virt record holds' := by
  refine ⟨fun v hv ↦ h.known v (hperm.mem_iff.mp hv), fun i hi ↦ ?_⟩
  rw [hperm.mem_iff]
  exact h.pending i hi

/-- A block comes to a side. -/
theorem Recorded.take {v i : ℕ} (hi : i < A.count) (hv : v = A.toVirt virt (A.blkAddr i)) :
    Recorded A virt (Function.update record (A.index virt v) .pending) (v :: holds) := by
  subst hv
  rw [index_toVirt hi]
  refine ⟨fun w hw ↦ ?_, fun j hj ↦ ?_⟩
  · rcases List.mem_cons.mp hw with rfl | hw
    · exact ⟨i, hi, rfl⟩
    · exact h.known w hw
  · by_cases hji : j = i
    · subst hji
      simp
    · rw [Function.update_of_ne hji, List.mem_cons, or_iff_right (toVirt_ne hi hj hji)]
      exact h.pending j hj

/-- A block leaves a side. -/
theorem Recorded.give {v : ℕ} (hperm : holds.Perm (v :: holds')) (hv : v ∉ holds') :
    Recorded A virt (Function.update record (A.index virt v) .done) holds' := by
  obtain ⟨i, hi, rfl⟩ := h.known v (hperm.mem_iff.mpr List.mem_cons_self)
  rw [index_toVirt hi]
  refine ⟨fun w hw ↦ h.known w (hperm.mem_iff.mpr (List.mem_cons_of_mem _ hw)), fun j hj ↦ ?_⟩
  by_cases hji : j = i
  · subst hji
    simpa using hv
  · rw [Function.update_of_ne hji, h.pending j hj, hperm.mem_iff, List.mem_cons,
      or_iff_right (toVirt_ne hi hj hji)]

/-- The blocks that a side has are those that are pending. -/
theorem Recorded.holds_perm (hnodup : holds.Nodup) :
    holds.Perm (((List.range A.count).filter fun i ↦ !decide (record i = .done)).map fun i ↦
      A.toVirt virt (A.blkAddr i)) := by
  have hmem : ∀ i, i ∈ (List.range A.count).filter (fun i ↦ !decide (record i = .done)) ↔
      i < A.count ∧ record i = .pending := by
    intro i
    rw [List.mem_filter, List.mem_range]
    cases record i <;> simp
  refine (List.perm_ext_iff_of_nodup hnodup ?_).mpr fun v ↦ ?_
  · refine List.Nodup.map_on ?_ (List.nodup_range.filter _)
    intro i hi j hj heq
    by_contra hne
    exact toVirt_ne ((hmem j).mp hj).1 ((hmem i).mp hi).1 hne heq
  · rw [List.mem_map]
    constructor
    · intro hv
      obtain ⟨i, hi, rfl⟩ := h.known v hv
      exact ⟨i, (hmem i).mpr ⟨hi, (h.pending i hi).mpr hv⟩, rfl⟩
    · rintro ⟨i, hi, rfl⟩
      obtain ⟨hlt, hpending⟩ := (hmem i).mp hi
      exact (h.pending i hlt).mp hpending

/-- A block is done, or a side has it. -/
theorem Recorded.blocks_perm (hnodup : holds.Nodup) :
    ((doneBlks A record).map A.blkAddr ++ holds.map (A.toStored virt)).Perm A.blocks := by
  have hstored : ∀ l : List ℕ, (l.map fun i ↦ A.toVirt virt (A.blkAddr i)).map
      (A.toStored virt) = l.map A.blkAddr := fun l ↦ by
    rw [List.map_map]
    exact List.map_congr_left fun i _ ↦ toStored_toVirt (u32_lt _)
  refine (((h.holds_perm hnodup).map _).append_left _).trans ?_
  rw [hstored, ← List.map_append]
  exact (List.filter_append_perm _ _).map _

end Record

/-- What holds of a direction between any two steps of a channel. -/
structure SblockDirInv (A : SblockArea) (s : SblockDir) : Prop where
  inv : SblockInv A s
  tx : Recorded A A.txVirt s.txrecord s.senderHolds
  rx : Recorded A A.rxVirt s.rxrecord s.receiverHolds

section Calls

variable {A : SblockArea} {s : SblockDir}

theorem SblockInv.owned_perm (h : SblockInv A s) :
    (s.freePool A ++ s.senderHolds.map (A.toStored A.txVirt) ++
      (s.inFlight A).map SblockBlks.addr ++
      s.receiverHolds.map (A.toStored A.rxVirt)).Perm A.blocks := h.conserved.once.2

theorem SblockInv.owned_nodup (h : SblockInv A s) :
    (s.freePool A ++ s.senderHolds.map (A.toStored A.txVirt) ++
      (s.inFlight A).map SblockBlks.addr ++
      s.receiverHolds.map (A.toStored A.rxVirt)).Nodup :=
  h.owned_perm.nodup_iff.mpr blocks_nodup

theorem SblockInv.senderHolds_nodup (h : SblockInv A s) : s.senderHolds.Nodup := by
  have hnodup := h.owned_nodup
  simp only [List.nodup_append] at hnodup
  exact hnodup.1.1.2.1.of_map

theorem SblockInv.receiverHolds_nodup (h : SblockInv A s) : s.receiverHolds.Nodup := by
  have hnodup := h.owned_nodup
  simp only [List.nodup_append] at hnodup
  exact hnodup.2.1.of_map

/-- The record of the side that sends goes along with its hands. -/
theorem SblockDirInv.tx_txAct (h : SblockDirInv A s) (hdvd : A.count ∣ 2 ^ 32) {e : SblockTxStep}
    (he : e.enabled s = true) :
    Recorded A A.txVirt (e.act A s).txrecord (e.act A s).senderHolds := by
  have hnodup := h.inv.senderHolds_nodup
  cases e with
  | getSample i =>
    dsimp only [SblockTxStep.act, SblockDir.getSample]
    split
    · split
      · split <;> exact h.tx
      · exact h.tx
    · exact h.tx
  | getAbort i err =>
    dsimp only [SblockTxStep.act]
    split <;> exact h.tx
  | getLock i =>
    dsimp only [SblockTxStep.act, SblockDir.getLock]
    split
    · have htx := h.tx
      simp only [SblockDir.senderHolds, SblockDir.putting, (of_decide_eq_true he).2] at htx
      exact htx
    · exact h.tx
  | getDone =>
    dsimp only [SblockTxStep.act]
    split
    · rename_i i blk hget
      obtain ⟨j, hj, haddr⟩ := List.mem_map.mp (h.inv.getting_pop hdvd hget).2
      have htake := h.tx.take (List.mem_range.mp hj) (congrArg (A.toVirt A.txVirt) haddr.symm)
      simp only [SblockDir.senderHolds, SblockDir.putting, hget] at htake
      exact htake
    · exact h.tx
  | putWrite addr =>
    obtain ⟨hfree, hmem⟩ := of_decide_eq_true he
    exact h.tx.perm (senderHolds_putWrite hfree hmem)
  | putDone =>
    dsimp only [SblockTxStep.act]
    split
    · rename_i addr hput
      have hperm : s.senderHolds.Perm (addr :: (s.putDone A addr).senderHolds) := by
        simp only [SblockDir.senderHolds, SblockDir.putting, SblockDir.putDone, hput,
          List.append_nil, ← List.cons_append]
        exact (List.perm_append_singleton _ _).append_right _
      exact h.tx.give hperm (List.nodup_cons.mp (hperm.nodup_iff.mp hnodup)).1
    · exact h.tx
  | sendWrite addr length =>
    obtain ⟨hfree, hmem, -⟩ := of_decide_eq_true he
    exact h.tx.perm (senderHolds_sendWrite hfree hmem)
  | sendDone =>
    dsimp only [SblockTxStep.act]
    split
    · rename_i addr length hsend
      have hperm : s.senderHolds.Perm (addr :: (s.sendDone A addr length).senderHolds) := by
        simp only [SblockDir.senderHolds, SblockDir.putting, SblockDir.sendDone, hsend,
          Option.map_some, Option.map_none, Option.toList_some, Option.toList_none,
          List.append_nil]
        exact List.perm_append_singleton _ _
      exact h.tx.give hperm (List.nodup_cons.mp (hperm.nodup_iff.mp hnodup)).1
    · exact h.tx
  | _ => exact h.tx

/-- A step of the side that sends does not touch what the other side keeps. -/
theorem SblockTxStep.act_rx (e : SblockTxStep) :
    (e.act A s).rxrecord = s.rxrecord ∧ (e.act A s).receiverHolds = s.receiverHolds := by
  cases e with
  | getSample i =>
    dsimp only [act, SblockDir.getSample]
    split
    · split
      · split <;> exact ⟨rfl, rfl⟩
      · exact ⟨rfl, rfl⟩
    · exact ⟨rfl, rfl⟩
  | getLock i =>
    dsimp only [act, SblockDir.getLock]
    split <;> exact ⟨rfl, rfl⟩
  | getAbort i err =>
    dsimp only [act]
    split <;> exact ⟨rfl, rfl⟩
  | getDone =>
    dsimp only [act]
    split <;> exact ⟨rfl, rfl⟩
  | putDone =>
    dsimp only [act]
    split <;> exact ⟨rfl, rfl⟩
  | sendDone =>
    dsimp only [act]
    split <;> exact ⟨rfl, rfl⟩
  | _ => exact ⟨rfl, rfl⟩

theorem SblockDirInv.txAct (h : SblockDirInv A s) (hdvd : A.count ∣ 2 ^ 32) {e : SblockTxStep}
    (he : e.enabled s = true) : SblockDirInv A (e.act A s) := by
  refine ⟨h.inv.txAct hdvd he, h.tx_txAct hdvd he, ?_⟩
  obtain ⟨hrecord, hholds⟩ := e.act_rx (A := A) (s := s)
  rw [hrecord, hholds]
  exact h.rx

theorem SblockDirInv.rxAct (h : SblockDirInv A s) (hdvd : A.count ∣ 2 ^ 32) {e : SblockRxStep}
    (he : e.enabled s = true) : SblockDirInv A (e.act A s) := by
  have hinv := h.inv.rxAct hdvd he
  have hnodup := h.inv.receiverHolds_nodup
  cases e with
  | recvRead => exact ⟨hinv, h.tx, h.rx⟩
  | recvDone =>
    dsimp only [SblockRxStep.act] at hinv ⊢
    split at hinv
    · rename_i blk hrecv
      obtain ⟨j, hj, haddr⟩ := List.mem_map.mp (h.inv.receiving_pop hdvd hrecv).2
      exact ⟨hinv, h.tx,
        h.rx.take (List.mem_range.mp hj) (congrArg (A.toVirt A.rxVirt) haddr.symm)⟩
    · exact h
  | releaseWrite addr =>
    obtain ⟨hfree, hmem⟩ := of_decide_eq_true he
    exact ⟨hinv, h.tx, h.rx.perm (receiverHolds_releaseWrite hfree hmem)⟩
  | releaseDone =>
    dsimp only [SblockRxStep.act] at hinv ⊢
    split at hinv
    · rename_i addr hrel
      have hperm : s.receiverHolds.Perm (addr :: (s.releaseDone A addr).receiverHolds) := by
        simp only [SblockDir.receiverHolds, SblockDir.releaseDone, hrel, Option.toList_some,
          Option.toList_none, List.append_nil]
        exact List.perm_append_singleton _ _
      exact ⟨hinv, h.tx,
        h.rx.give hperm (List.nodup_cons.mp (hperm.nodup_iff.mp hnodup)).1⟩
    · exact h

end Calls

/-! ## Recovery -/

section Recover

variable {A : SblockArea} {s : SblockDir} {record : ℕ → BlkState} {hd : SblockHeader}

/-- What `sblock_get` will read is what is between the pointers. -/
theorem handout_eq_window {n : ℕ} (hdvd : n ∣ 2 ^ 32) (hrd : hd.rd < 2 ^ 32)
    (hwt : hd.wt < 2 ^ 32) : hd.handout n = hd.window n := by
  unfold SblockHeader.handout SblockHeader.window Ring.window Ring.contents Ring.slots
  rw [Ring.u32_sub hrd hwt, List.range'_eq_map_range, List.map_map, List.map_map, bind_pure_comp,
    List.map_eq_map, List.map_map]
  refine List.map_congr_left fun k _ ↦ ?_
  have hmod : u32 (hd.rd + k) % n = (hd.rd + k) % n := by
    have hcast : u32 (hd.rd + k) = (hd.rd + k) % 2 ^ 32 := by
      unfold u32
      omega
    rw [hcast, Nat.mod_mod_of_dvd _ hdvd]
  simp only [Function.comp_apply, sblockGetRingpos_eq, hmod]

theorem refill_lt (record : ℕ → BlkState) (hrd : hd.rd < 2 ^ 32) (hwt : hd.wt < 2 ^ 32) :
    (refill A record hd).rd < 2 ^ 32 ∧ (refill A record hd).wt < 2 ^ 32 := by
  unfold refill
  rw [foldl_refillPass]
  refine ⟨hrd, ?_⟩
  dsimp only
  split
  · exact hwt
  · exact u32_lt _

/-- The pool is filled with the blocks that are done. -/
theorem window_refill (record : ℕ → BlkState) (hd : SblockHeader) (hdvd : A.count ∣ 2 ^ 32)
    (hrd : hd.rd < 2 ^ 32) (hempty : hd.wt = hd.rd)
    (hfits : RefillFits A record hd.blks hd.rd) :
    (((refill A record hd).window A.count).map SblockBlks.addr).Perm
      ((doneBlks A record).map A.blkAddr) := by
  obtain ⟨hrd', hwt'⟩ := refill_lt (A := A) record hrd (hempty ▸ hrd)
  rw [← handout_eq_window hdvd hrd' hwt']
  exact (handout_refill_perm_iff A record hd hempty).mpr hfits

theorem Recorded.nil (A : SblockArea) (virt : ℕ) : Recorded A virt (fun _ ↦ .done) [] :=
  ⟨by simp, by simp⟩

/-- After the host has recovered what it sends, its own blocks are the only ones that are not
in the pool. -/
theorem SblockDirInv.recover_tx (h : SblockDirInv A s) (hdvd : A.count ∣ 2 ^ 32)
    (hlocks : s.poolTx = .free ∧ s.ringTx = none)
    (hfits : RefillFits A s.txrecord s.pool.blks s.pool.wt) :
    SblockDirInv A (s.recover A .tx) := by
  have hholds : s.senderHolds = s.sender := by
    simp [SblockDir.senderHolds, SblockDir.putting, hlocks]
  have hperm := h.tx.blocks_perm h.inv.senderHolds_nodup
  rw [hholds] at hperm
  have hpool := window_refill s.txrecord { s.pool with rd := s.pool.wt }
    hdvd h.inv.poolWt rfl hfits
  refine ⟨.quiet (refill_lt _ h.inv.poolWt h.inv.poolWt) ⟨h.inv.ringRd, rfl⟩ ?_
    ⟨hlocks.1, hlocks.2, rfl, rfl⟩ rfl h.inv.waiting h.inv.failures, h.tx, .nil _ _⟩
  have hgone : (s.recover A .tx).receiver.map (A.toStored A.rxVirt) = [] := rfl
  rw [hgone, List.append_nil]
  exact (hpool.append_right _).trans hperm

/-- After the host has recovered what it receives, its own blocks are the only ones that are
not in the pool. -/
theorem SblockDirInv.recover_rx (h : SblockDirInv A s) (hdvd : A.count ∣ 2 ^ 32)
    (hlocks : s.ringRx = none ∧ s.poolRx = none)
    (hfits : RefillFits A s.rxrecord s.pool.blks s.pool.rd) :
    SblockDirInv A (s.recover A .rx) := by
  have hholds : s.receiverHolds = s.receiver := by
    simp [SblockDir.receiverHolds, hlocks]
  have hperm := h.rx.blocks_perm h.inv.receiverHolds_nodup
  rw [hholds] at hperm
  have hpool := window_refill s.rxrecord { s.pool with wt := s.pool.rd }
    hdvd h.inv.poolRd rfl hfits
  refine ⟨.quiet (refill_lt _ h.inv.poolRd h.inv.poolRd) ⟨h.inv.ringWt, rfl⟩ ?_
    ⟨rfl, rfl, hlocks.1, hlocks.2⟩ rfl ?_ h.inv.failures, .nil _ _, h.rx⟩
  · have hgone : (s.recover A .rx).sender.map (A.toStored A.txVirt) = [] := rfl
    rw [hgone, List.append_nil]
    exact (hpool.append_right _).trans hperm
  · intro i seen heq
    cases heq

end Recover

/-! ## Runs -/

/-- What a direction needs for its recovery. -/
def SblockDir.fits (A : SblockArea) (s : SblockDir) : Dir → Prop
  | .tx => RefillFits A s.txrecord s.pool.blks s.pool.wt
  | .rx => RefillFits A s.rxrecord s.pool.blks s.pool.rd

/-- No call returns a block to an idle channel, and the host recovers whenever the client has
started again, with descriptors that fit. -/
def SblockChanStep.kept (A : Dir → SblockArea) (s : SblockChan) : SblockChanStep → Prop
  | sendIdle _ _ => False
  | releaseIdle _ _ => False
  | recoverFail => False
  | recover =>
    match s.recovering with
    | some d => (s.dirs d).fits (A d) d
    | none => True
  | _ => True

instance (A : SblockArea) (record : ℕ → BlkState) (blks : ℕ → SblockBlks) (w : ℕ) :
    Decidable (RefillFits A record blks w) :=
  inferInstanceAs (Decidable (_ ∧ _))

instance (A : SblockArea) (s : SblockDir) : ∀ d, Decidable (s.fits A d)
  | .tx => inferInstanceAs (Decidable (RefillFits _ _ _ _))
  | .rx => inferInstanceAs (Decidable (RefillFits _ _ _ _))

instance (A : Dir → SblockArea) (s : SblockChan) : ∀ e, Decidable (SblockChanStep.kept A s e)
  | .sendIdle _ _ => .isFalse id
  | .releaseIdle _ _ => .isFalse id
  | .recoverFail => .isFalse id
  | .recover =>
    match h : s.recovering with
    | some d => decidable_of_iff ((s.dirs d).fits (A d) d) (by simp [SblockChanStep.kept, h])
    | none => .isTrue (by simp [SblockChanStep.kept, h])
  | .call _ => .isTrue trivial
  | .getIdle _ _ => .isTrue trivial
  | .close _ => .isTrue trivial
  | .openRecv => .isTrue trivial
  | .setReady _ => .isTrue trivial

/-- Nobody has a block of a direction. -/
def SblockDir.handsEmpty (s : SblockDir) : Prop := s.senderHolds = [] ∧ s.receiverHolds = []

/-- Each block is free or on its way. -/
def SblockDir.Returned (A : SblockArea) (s : SblockDir) : Prop :=
  ∀ a ∈ A.blocks, a ∈ s.freePool A ∨ a ∈ (s.inFlight A).map SblockBlks.addr

theorem SblockInv.returned {A : SblockArea} {s : SblockDir} (h : SblockInv A s)
    (hhands : s.handsEmpty) : s.Returned A := by
  intro a ha
  have hmem := h.owned_perm.mem_iff.mpr ha
  simpa [hhands.1, hhands.2] using hmem

/-- What holds of a channel between any two steps. -/
def SblockChanInv (A : Dir → SblockArea) (s : SblockChan) : Prop :=
  ∀ d, (A d).count ∣ 2 ^ 32 → SblockDirInv (A d) (s.dirs d)

section Chan

variable {A : Dir → SblockArea} {p r : Dir → ℕ} {mem : Dir → ℕ → SblockBlks} {s : SblockChan}

theorem SblockChanInv.setDir (h : SblockChanInv A s) {d : Dir} {x : SblockDir}
    (hx : (A d).count ∣ 2 ^ 32 → SblockDirInv (A d) x) : SblockChanInv A (s.setDir d x) := by
  intro d' hdvd
  dsimp only [SblockChan.setDir]
  by_cases hd : d' = d
  · subst hd
    rw [Function.update_self]
    exact hx hdvd
  · rw [Function.update_of_ne hd]
    exact h d' hdvd

theorem sblockChan_inv (hp : ∀ d, p d < 2 ^ 32) (hr : ∀ d, r d < 2 ^ 32)
    (hs : (sblockChanSystem A p r mem).Reach (SblockChanStep.kept A) s) :
    SblockChanInv A s := by
  refine hs.invariant (I := SblockChanInv A) ?_ ?_
  · intro d _
    exact ⟨.start (hp d) (hr d), .nil _ _, .nil _ _⟩
  · intro s e hinv he hkept
    cases e with
    | call e =>
      have hcall : e.enabled (s.dirs e.dir) = true := (Bool.and_eq_true_iff.mp he).2
      refine hinv.setDir fun hdvd ↦ ?_
      obtain ⟨side, e | e⟩ := e
      · exact (hinv _ hdvd).txAct hdvd hcall
      · exact (hinv _ hdvd).rxAct hdvd hcall
    | getIdle side i =>
      refine hinv.setDir fun hdvd ↦ ?_
      have h := hinv _ hdvd
      exact ⟨h.inv.setGetter (by simp), h.tx, h.rx⟩
    | sendIdle side addr => exact hkept.elim
    | releaseIdle side addr => exact hkept.elim
    | recoverFail => exact hkept.elim
    | recover =>
      dsimp only [sblockChanSystem, SblockChanStep.enabled, SblockChanStep.act,
        SblockChanStep.kept] at he hkept ⊢
      split
      · rename_i hdir
        rw [hdir] at he hkept
        exact hinv.setDir fun hdvd ↦
          (hinv _ hdvd).recover_tx hdvd (of_decide_eq_true he) hkept
      · rename_i hdir
        rw [hdir] at he hkept
        exact hinv.setDir fun hdvd ↦
          (hinv _ hdvd).recover_rx hdvd (of_decide_eq_true he) hkept
      · exact hinv
    | _ => exact hinv

/-- In every run in which no block is returned to an idle channel and the recovered
descriptors fit, a direction whose blocks nobody has has them all in the pool or in the
ring. -/
theorem sblock_returned (hcount : ∀ d, (A d).count = 0 ∨ (A d).count.isPowerOfTwo)
    (hp : ∀ d, p d < 2 ^ 32) (hr : ∀ d, r d < 2 ^ 32)
    (hs : (sblockChanSystem A p r mem).Reach (SblockChanStep.kept A) s) (d : Dir)
    (hhands : (s.dirs d).handsEmpty) : (s.dirs d).Returned (A d) := by
  rcases hcount d with hzero | hpow
  · intro a ha
    simp [SblockArea.blocks, hzero] at ha
  · exact (sblockChan_inv hp hr hs d (count_dvd hpow)).inv.returned hhands

end Chan

/-- A channel with two blocks in each direction that may go down. -/
def smallChan : System SblockChan SblockChanStep :=
  sblockChanSystem (fun _ ↦ smallArea) (fun _ ↦ 0) (fun _ ↦ 0) fun _ _ ↦ ⟨0, 0⟩

instance (s : SblockChan) (e : SblockChanStep) : Decidable (smallChan.enabled s e) :=
  inferInstanceAs (Decidable (e.enabled s = true))

/-- The host gets a block, and the channel is closed. -/
def heldClose : List SblockChanStep :=
  [.call (.host, .inl (.getEnter 0 0)), .call (.host, .inl (.getSample 0)),
    .call (.host, .inl (.getLock 0)), .call (.host, .inl .getDone), .close .host]

/-- The client opens the channel again, and the host recovers. -/
def reopen : List SblockChanStep :=
  [.openRecv, .recover, .recover, .setReady .host, .setReady .client]

/-- The block is put while the channel is idle. -/
def putRun : List SblockChanStep :=
  heldClose ++ [.call (.host, .inl (.putWrite 65632)), .call (.host, .inl .putDone)] ++ reopen

/-- The block is sent while the channel is idle. -/
def sendRun : List SblockChanStep := heldClose ++ [.sendIdle .host 65632] ++ reopen

/-- The state after some steps. -/
def smallChanAfter (es : List SblockChanStep) : SblockChan := smallChan.exec smallChan.init es

theorem putRun_returned :
    (smallChanAfter putRun).ready .host = true ∧
      ((smallChanAfter putRun).dirs .tx).Returned smallArea :=
  ⟨by decide, sblock_returned (fun _ ↦ .inr ⟨1, rfl⟩) (fun _ ↦ by decide) (fun _ ↦ by decide)
    (System.Reach.init.exec (by decide) : smallChan.Reach _ _) .tx ⟨by decide, by decide⟩⟩

/-- The block of a call of `sblock_send` that fails is lost, also after `sblock_recover`. -/
theorem sblock_send_loses :
    smallChan.Reach (fun _ _ ↦ True) (smallChanAfter sendRun) ∧
      ((smallChanAfter sendRun).dirs .tx).handsEmpty ∧
      ¬ ((smallChanAfter sendRun).dirs .tx).Returned smallArea := by
  refine ⟨System.Reach.init.exec (by decide), ⟨by decide, by decide⟩, fun h ↦ ?_⟩
  have hlost := h 4192 (by decide)
  revert hlost
  decide

end Wwan.Sipc
