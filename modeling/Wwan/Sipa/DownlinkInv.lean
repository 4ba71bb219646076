import Wwan.Sipa.Downlink
import Wwan.Sipa.FifoWindow

/-!
# Buffers of the downlink

The entries of `recv_array` are, in this order, those of the descriptors that were returned and not
passed to `sipa_recv_skb`, those the hardware has, those that were published, and those that were
written and not published. Each step moves the boundaries between them.
-/

namespace Wwan.Sipa

open Wwan Bytes

/-! ## Places -/

namespace FillThread

/-- What is known at each place, with the number of entries of `recv_array`. -/
def Place (depth : ℕ) (state : Bool) (len : ℕ) (need : ℤ) : FillThread → Prop
  | .preparing i cnt => cnt = depth ∧ i ≤ cnt ∧ state = false ∧ len = i
  | .waiting => len + need = depth
  | .filling i cnt => state = true ∧ i ≤ cnt ∧ cnt ≤ need ∧ len + need = depth + i
  | .publishing n => state = true ∧ n ≤ need ∧ len + need = depth + n
  | .counting n => state = true ∧ n ≤ need ∧ len + need = depth + n

/-- How many descriptors were written and not published: before the FIFO is opened all of them, then
those of `fill_free_fifo`. -/
def unpublished (depth : ℕ) (state : Bool) : FillThread → ℕ
  | .preparing i _ => i
  | .waiting => if state then 0 else depth
  | .filling i _ => i
  | .publishing n => n
  | .counting _ => 0

variable {depth len : ℕ} {state : Bool} {need : ℤ} {t : FillThread}

/-- The array has room for all entries. -/
theorem Place.le (h : t.Place depth state len need) (hneed : 0 ≤ need) : len ≤ depth := by
  cases t with
  | preparing i cnt =>
    obtain ⟨rfl, hle, -, rfl⟩ := h
    exact hle
  | waiting =>
    dsimp only [Place] at h
    omega
  | filling i cnt =>
    obtain ⟨-, hle, hcnt, hlen⟩ := h
    omega
  | publishing n =>
    obtain ⟨-, hle, hlen⟩ := h
    omega
  | counting n =>
    obtain ⟨-, hle, hlen⟩ := h
    omega

/-- An entry is taken out. -/
theorem Place.take (h : t.Place depth true (len + 1) need) : t.Place depth true len (need + 1) := by
  cases t with
  | preparing i cnt => cases h.2.2.1
  | waiting =>
    dsimp only [Place] at h ⊢
    omega
  | filling i cnt =>
    obtain ⟨hstate, hle, hcnt, hlen⟩ := h
    exact ⟨hstate, hle, by omega, by omega⟩
  | publishing n =>
    obtain ⟨hstate, hle, hlen⟩ := h
    exact ⟨hstate, by omega, by omega⟩
  | counting n =>
    obtain ⟨hstate, hle, hlen⟩ := h
    exact ⟨hstate, by omega, by omega⟩

end FillThread

/-- What is known at each place, with the number of descriptors that were returned. -/
def RxPoll.Place (len : ℕ) : RxPoll → Prop
  | .idle => True
  | .receiving budget skbCnt => skbCnt ≤ budget ∧ budget ≤ len
  | .setRp pkts => pkts ≤ len

theorem RxPoll.Place.taken_le {len : ℕ} {p : RxPoll} (h : p.Place len) : p.taken ≤ len := by
  cases p with
  | idle => exact Nat.zero_le len
  | receiving budget skbCnt => exact h.1.trans h.2
  | setRp pkts => exact h

theorem RxPoll.Place.mono {len len' : ℕ} {p : RxPoll} (h : p.Place len) (hle : len ≤ len') :
    p.Place len' := by
  cases p with
  | idle => trivial
  | receiving budget skbCnt => exact ⟨h.1, h.2.trans hle⟩
  | setRp pkts => exact h.trans hle

namespace Downlink

variable {k : ℕ} {s : Downlink}

/-! ## The invariant -/

/-- The descriptors that were written and not published. -/
def unpublished (s : Downlink) : List NodeDescriptionTag :=
  Ring.contents s.receiver.recvFifo.rxFifo.node s.receiver.recvArray.depth
    s.receiver.recvFifo.regs.rxWptr
    (s.fill.unpublished s.receiver.recvArray.depth s.receiver.state)

/-- The descriptors that were returned and not passed to `sipa_recv_skb`. -/
def returned (s : Downlink) : List NodeDescriptionTag :=
  s.receiver.recvFifo.txWindow.drop s.poll.taken

/-- The descriptors of the buffers in `recv_array`. -/
def descriptors (s : Downlink) : List NodeDescriptionTag :=
  s.returned ++ (s.published ++ s.unpublished)

/-- Before the first `SMSG_TYPE_DONE` nothing has happened but the preparation. -/
structure Closed (s : Downlink) : Prop where
  regs : s.receiver.recvFifo.regs = ⟨0, 0, 0, 0⟩
  need : s.receiver.needFillCnt = 0
  remote : s.receiver.remoteReady = false
  busy : s.busy = []
  poll : s.poll = .idle

/-- What holds in every run that meets the condition. -/
structure DownlinkInv (k : ℕ) (s : Downlink) : Prop where
  pointers : s.receiver.recvFifo.Pointers k s.busy.length
  array : s.receiver.recvArray.Valid k
  addresses : s.entries.map SkbDmaAddrNode.dmaAddr =
    s.descriptors.map NodeDescriptionTag.address
  positive : ∀ entry ∈ s.entries, 0 < entry.dmaAddr
  need : 0 ≤ s.receiver.needFillCnt
  fill : s.fill.Place (2 ^ k) s.receiver.state s.entries.length s.receiver.needFillCnt
  poll : s.poll.Place s.receiver.recvFifo.txWindow.length
  closed : s.receiver.state = false → s.Closed
  remote : s.receiver.state = true → s.receiver.remoteReady = true
  once : (s.entries.map idOf ++ s.handed ++ s.freed).Perm (s.allocated.map some)
  nodup : s.allocated.Nodup

namespace DownlinkInv

variable (h : DownlinkInv k s)

include h

theorem length_le : s.entries.length ≤ 2 ^ k := h.fill.le h.need

/-- The entries by the descriptors. -/
theorem length_entries :
    s.entries.length = s.returned.length + (s.busy.length +
      s.receiver.recvFifo.rxWindow.length +
        s.fill.unpublished s.receiver.recvArray.depth s.receiver.state) := by
  have hlen := congrArg List.length h.addresses
  rw [List.length_map, List.length_map, descriptors, List.length_append, List.length_append,
    published, List.length_append, unpublished, Ring.length_contents] at hlen
  exact hlen

/-- The rx ring has room for the entries. -/
theorem rx_room : s.receiver.recvFifo.rxWindow.length +
    s.fill.unpublished s.receiver.recvArray.depth s.receiver.state ≤ s.entries.length := by
  have := h.length_entries
  omega

/-! ## Filling -/

/-- The filling thread goes on without doing anything. -/
theorem setFill {t : FillThread}
    (hplace : t.Place (2 ^ k) s.receiver.state s.entries.length s.receiver.needFillCnt)
    (hunpublished : t.unpublished (2 ^ k) s.receiver.state =
      s.fill.unpublished (2 ^ k) s.receiver.state) : DownlinkInv k { s with fill := t } where
  pointers := h.pointers
  array := h.array
  addresses := by
    have haddr := h.addresses
    simp only [descriptors, returned, published, unpublished, entries] at haddr ⊢
    rw [h.array.depth] at haddr ⊢
    rw [hunpublished]
    exact haddr
  positive := h.positive
  need := h.need
  fill := hplace
  poll := h.poll
  closed := fun hstate ↦
    have hclosed := h.closed hstate
    ⟨hclosed.regs, hclosed.need, hclosed.remote, hclosed.busy, hclosed.poll⟩
  remote := h.remote
  once := h.once
  nodup := h.nodup

/-- A buffer that cannot be mapped is freed. -/
theorem mapError {skb : SkBuff} (hfresh : s.Fresh (.mapError skb)) :
    DownlinkInv k
      { s with allocated := s.allocated ++ [skb.id], freed := s.freed ++ [some skb.id] } where
  pointers := h.pointers
  array := h.array
  addresses := h.addresses
  positive := h.positive
  need := h.need
  fill := h.fill
  poll := h.poll
  closed := fun hstate ↦
    have hclosed := h.closed hstate
    ⟨hclosed.regs, hclosed.need, hclosed.remote, hclosed.busy, hclosed.poll⟩
  remote := h.remote
  once := by
    rw [List.map_append, ← List.append_assoc]
    exact h.once.append_right [some skb.id]
  nodup := List.nodup_append.mpr ⟨h.nodup, List.nodup_singleton _, by
    rintro a ha b hb rfl
    rw [List.mem_singleton.mp hb] at ha
    exact hfresh ha⟩

section Mapped

variable (hk : k ≤ 15) (skb : SkBuff) (dma : ℕ)
  (hroom : s.entries.length < 2 ^ k)

include hk hroom

/-- A descriptor is written behind the others, and a buffer put into the array. -/
theorem fillNode :
    let i := s.fill.unpublished s.receiver.recvArray.depth s.receiver.state
    let r := s.receiver.fillNode i skb dma
    r.recvFifo.Pointers k s.busy.length ∧ r.recvFifo.rxWindow = s.receiver.recvFifo.rxWindow ∧
      r.recvArray.Valid k ∧
      r.recvArray.entries = s.entries ++
        [⟨some (skb.reserve s.receiver.rsvd).putAll, SipaCore.deviceAddr dma⟩] ∧
      Ring.contents r.recvFifo.rxFifo.node (2 ^ k) r.recvFifo.regs.rxWptr (i + 1) =
        s.unpublished ++ [s.receiver.nodeDesc (skb.reserve s.receiver.rsvd).putAll
          (SipaCore.deviceAddr dma)] := by
  intro i r
  have hrx := h.rx_room
  obtain ⟨harray, hentries⟩ := h.array.put (show k < 32 by omega) hroom
    ⟨some (skb.reserve s.receiver.rsvd).putAll, SipaCore.deviceAddr dma⟩
  obtain ⟨hwindow, hpointers⟩ := h.pointers.write (show k ≤ 31 by omega) (i := i)
    (s.receiver.nodeDesc (skb.reserve s.receiver.rsvd).putAll (SipaCore.deviceAddr dma))
    (by omega)
  refine ⟨hpointers, hwindow, harray, hentries, ?_⟩
  have hslot := h.pointers.rxSlot_eq (show k ≤ 31 by omega) i
  simp only [r, SipaSkbReceiver.fillNode, CmnFifoCfgTag.writeRxNode, hslot]
  rw [Ring.contents_snoc, Ring.contents_update _ _ (by omega), Function.update_self, unpublished]
  simp only [i, h.array.depth]

/-- A buffer is added to the rings. -/
theorem mapped {t : FillThread} (hfresh : s.Fresh (.mapped skb dma))
    (hplace : t.Place (2 ^ k) s.receiver.state (s.entries.length + 1) s.receiver.needFillCnt)
    (hunpublished : t.unpublished (2 ^ k) s.receiver.state =
      s.fill.unpublished (2 ^ k) s.receiver.state + 1) :
    DownlinkInv k
      { s with
        receiver := s.receiver.fillNode
          (s.fill.unpublished s.receiver.recvArray.depth s.receiver.state) skb dma
        fill := t
        allocated := s.allocated ++ [skb.id] } := by
  obtain ⟨hpointers, hwindow, harray, hentries, hcontents⟩ := h.fillNode hk skb dma hroom
  refine ⟨hpointers, harray, ?addresses, ?positive, h.need, ?fill, h.poll, ?closed, h.remote, ?once,
    ?nodup⟩
  case addresses =>
    have haddr := h.addresses
    have hdesc : (s.receiver.nodeDesc (skb.reserve s.receiver.rsvd).putAll
        (SipaCore.deviceAddr dma)).address = SipaCore.deviceAddr dma := Nat.mod_eq_of_lt hfresh.2.2
    simp only [descriptors, returned, published, unpublished] at haddr ⊢
    dsimp only [entries]
    rw [hentries, hwindow, harray.depth]
    have hstate : (s.receiver.fillNode (s.fill.unpublished s.receiver.recvArray.depth
      s.receiver.state) skb dma).state = s.receiver.state := rfl
    rw [hstate, hunpublished]
    rw [h.array.depth] at hcontents haddr ⊢
    rw [hcontents, List.map_append, haddr, unpublished, h.array.depth]
    simp only [List.map_append, List.map_cons, List.map_nil, hdesc, List.append_assoc]
    rfl
  case positive =>
    dsimp only [entries]
    rw [hentries]
    intro entry hentry
    rcases List.mem_append.mp hentry with hold | hnew
    · exact h.positive entry hold
    · rw [List.mem_singleton.mp hnew]
      exact hfresh.2.1
  case fill =>
    dsimp only [entries]
    rw [hentries, List.length_append]
    exact hplace
  case closed =>
    intro hstate
    have hclosed := h.closed hstate
    exact ⟨hclosed.regs, hclosed.need, hclosed.remote, hclosed.busy, hclosed.poll⟩
  case once =>
    have hid : idOf ⟨some (skb.reserve s.receiver.rsvd).putAll, SipaCore.deviceAddr dma⟩ =
        some skb.id := congrArg some (skb.id_putAll_reserve _)
    dsimp only [entries]
    rw [hentries, List.map_append, List.map_append, List.append_assoc, List.append_assoc,
      List.map_cons, hid]
    have honce := h.once
    rw [List.append_assoc] at honce
    refine .trans (List.Perm.append_left _ List.perm_append_comm) ?_
    rw [← List.append_assoc]
    exact honce.append_right [some skb.id]
  case nodup =>
    refine List.nodup_append.mpr ⟨h.nodup, List.nodup_singleton _, ?_⟩
    rintro a ha b hb rfl
    rw [List.mem_singleton.mp hb] at ha
    exact hfresh.1 ha

end Mapped

/-- The descriptors that were written are published. -/
theorem publish (hk : k ≤ 15) {n : ℕ} (hfill : s.fill = .publishing n) (hn : n ≠ 0) :
    DownlinkInv k
      { s with
        receiver := { s.receiver with recvFifo := (s.receiver.recvFifo.setRxFifoWr n).1 }
        fill := .counting n } := by
  have hplace := h.fill
  have hrx := h.rx_room
  have hle := h.length_le
  have haddr := h.addresses
  rw [hfill] at hplace hrx
  dsimp only [FillThread.unpublished] at hrx
  have hpos : 0 < n := Nat.pos_of_ne_zero hn
  have hroom : s.receiver.recvFifo.rxWindow.length + n ≤ 2 ^ k := by omega
  have hrxw := h.pointers.rxWindow_setRxFifoWr hk hpos hroom
  have htxw := h.pointers.txWindow_setRxFifoWr hk hpos hroom
  refine ⟨h.pointers.setRxFifoWr hk hpos hroom, h.array, ?addresses, h.positive, h.need, hplace,
    ?poll, ?closed, h.remote, h.once, h.nodup⟩
  case addresses =>
    simp only [descriptors, returned, published, unpublished, hfill, FillThread.unpublished,
      h.array.depth, entries] at haddr ⊢
    rw [hrxw, htxw, haddr, Ring.contents_zero, List.append_nil, List.append_assoc]
  case poll =>
    dsimp only
    rw [htxw]
    exact h.poll
  case closed =>
    intro hstate
    exact absurd (hstate.symm.trans hplace.1) (by decide)

/-- `need_fill_cnt` is what is missing again. -/
theorem count {n : ℕ} (hfill : s.fill = .counting n) :
    DownlinkInv k
      { s with
        receiver :=
          { s.receiver with
            needFillCnt :=
              if s.receiver.needFillCnt > 0 then s.receiver.needFillCnt - n
              else s.receiver.needFillCnt }
        fill := .waiting } := by
  have hplace := h.fill
  have haddr := h.addresses
  rw [hfill] at hplace
  obtain ⟨hstate, hle, hlen⟩ := hplace
  have hneed : (if s.receiver.needFillCnt > 0 then s.receiver.needFillCnt - n
      else s.receiver.needFillCnt) = s.receiver.needFillCnt - n := by
    split
    · rfl
    · omega
  rw [hneed]
  refine ⟨h.pointers, h.array, ?addresses, h.positive, ?need, ?fill, h.poll, ?closed, h.remote,
    h.once, h.nodup⟩
  case addresses =>
    simp only [descriptors, returned, published, unpublished, hfill, FillThread.unpublished,
      hstate, if_true, entries] at haddr ⊢
    exact haddr
  case need =>
    dsimp only
    omega
  case fill =>
    change (s.entries.length : ℤ) + (s.receiver.needFillCnt - n) = (2 ^ k : ℕ)
    omega
  case closed =>
    intro hclosed
    exact absurd (hclosed.symm.trans hstate) (by decide)

/-- A step of the filling thread. -/
theorem fillStep (hk : k ≤ 15) {alloc : RecvAlloc} (henabled : s.Enabled (.fill alloc))
    (hready : s.Ready (.fill alloc)) : DownlinkInv k (s.fillStep alloc) := by
  have hplace := h.fill
  cases hfill : s.fill with
  | preparing i cnt =>
    rw [hfill] at hplace
    obtain ⟨rfl, hle, hstate, hlen⟩ := hplace
    dsimp only [Downlink.fillStep]
    rw [hfill]
    dsimp only
    split
    · rename_i hlt
      obtain ⟨skb, dma, rfl⟩ := hready i (2 ^ k) hfill hlt
      have hmapped := h.mapped (t := .preparing (i + 1) (2 ^ k)) hk skb dma (by omega) henabled.2
        ⟨rfl, hlt, hstate, by omega⟩ (by rw [hfill]; rfl)
      rw [hfill] at hmapped
      exact hmapped
    · refine h.setFill ?_ ?_
      · have hneed := (h.closed hstate).need
        change (s.entries.length : ℤ) + s.receiver.needFillCnt = (2 ^ k : ℕ)
        omega
      · simp only [hfill, FillThread.unpublished, hstate]
        rw [if_neg (by decide)]
        omega
  | waiting =>
    rw [hfill] at hplace
    have hneed := henabled.1 hfill
    have hstate : s.receiver.state = true := by
      by_contra hclosed
      have hzero := (h.closed (Bool.not_eq_true _ ▸ hclosed)).need
      omega
    dsimp only [Downlink.fillStep]
    rw [hfill]
    refine h.setFill ⟨hstate, Nat.zero_le _, by omega, ?_⟩ ?_
    · dsimp only [FillThread.Place] at hplace
      omega
    · rw [hfill, FillThread.unpublished, FillThread.unpublished, hstate, if_pos rfl]
  | filling i cnt =>
    rw [hfill] at hplace
    obtain ⟨hstate, hle, hcnt, hlen⟩ := hplace
    dsimp only [Downlink.fillStep]
    rw [hfill]
    dsimp only
    -- what was added so far is published when the loop ends
    have hend : ∀ t : Downlink, DownlinkInv k t → t.fill = .filling i cnt →
        DownlinkInv k { t with fill := .publishing i } := by
      intro t ht htfill
      have htplace := ht.fill
      rw [htfill] at htplace
      refine ht.setFill ⟨htplace.1, ?_, htplace.2.2.2⟩ ?_
      · have hi := htplace.2.1
        have hc := htplace.2.2.1
        omega
      · rw [htfill]
        rfl
    split
    · rename_i hlt
      cases alloc with
      | noSkb => exact hend s h hfill
      | mapError skb => exact hend _ (h.mapError henabled.2) hfill
      | mapped skb dma =>
        have hmapped := h.mapped (t := .filling (i + 1) cnt) hk skb dma (by omega) henabled.2
          ⟨hstate, hlt, hcnt, by omega⟩ (by rw [hfill]; rfl)
        rw [hfill] at hmapped
        exact hmapped
    · exact hend s h hfill
  | publishing n =>
    dsimp only [Downlink.fillStep]
    rw [hfill]
    dsimp only
    split
    · rename_i hn
      exact h.publish hk hfill hn
    · rename_i hn
      rw [hfill] at hplace
      obtain ⟨hstate, hle, hlen⟩ := hplace
      have hzero : n = 0 := not_not.mp hn
      refine h.setFill ?_ ?_
      · change (s.entries.length : ℤ) + s.receiver.needFillCnt = (2 ^ k : ℕ)
        omega
      · rw [hfill, hzero, FillThread.unpublished, FillThread.unpublished, hstate, if_pos rfl]
  | counting n =>
    have hcount := h.count hfill
    dsimp only [Downlink.fillStep]
    rw [hfill]
    exact hcount

end DownlinkInv

end Downlink

end Wwan.Sipa
