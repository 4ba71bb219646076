import Wwan.Lib.Loop
import Wwan.Sipa.Downlink
import Wwan.Sipa.FifoWindow

/-!
# Termination of the receive poll

`sipa_dummy_rx_poll_handler` reads the tx ring again as long as it is not empty and budget is left.
Each descriptor that is passed takes an entry out of `recv_array`, whether its buffer is handed to
the stack, freed or dropped. When descriptors are left and no entries, `sipa_recv_skb` returns NULL
and passes nothing, and the handler reads the same descriptor for ever.
-/

namespace Wwan.Sipa

open Wwan

/-! ## The handler -/

/-- `get_tx_empty_status`, a bit that the hardware computes. -/
def CmnFifoCfgTag.getTxEmptyStatus (cfg : CmnFifoCfgTag) : Bool :=
  cfg.regs.txRptr = cfg.regs.txWptr

namespace SipaSkbReceiver

/-- `sipa_check_recv_tx_fifo_empty`. -/
def checkRecvTxFifoEmpty (r : SipaSkbReceiver) : Bool :=
  if r.remoteReady then r.recvFifo.getTxEmptyStatus else true

/-- The loop of `sipa_dummy_rx`, with the passes that are left and `skb_cnt`. `devOn` says of the
packets, in the order they are received, whether the device is there and not `DEV_OFF`. -/
def dummyRx (devOn : ℕ → Bool) : ℕ → ℕ → SipaSkbReceiver → SipaSkbReceiver × ℕ
  | 0, skbCnt, r => (r, skbCnt)
  | left + 1, skbCnt, r =>
    match r.recvSkb skbCnt with
    | (r, .noData) | (r, .dropped _) | (r, .received none _) => (r, skbCnt)
    | (r, .received (some _) netid) =>
      if netid ≥ sipaDummyIfaceNum ∨ devOn skbCnt = false then (r, skbCnt + 1)
      else dummyRx devOn left (skbCnt + 1) r

end SipaSkbReceiver

/-- `sipa_dummy_rx_poll_handler` at `READ_AGAIN`. -/
structure PollState where
  receiver : SipaSkbReceiver
  budget : ℕ
  tmp : ℕ
  /-- An interrupt came since this was last cleared. -/
  rxEvt : Bool

namespace PollState

variable (devOn : ℕ → Bool) (s : PollState)

/-- The descriptors that wait in the tx ring. -/
def window : List NodeDescriptionTag := s.receiver.recvFifo.txWindow

/-- The entries of `recv_array`. -/
def entries : List SkbDmaAddrNode := s.receiver.recvArray.entries

/-- The handler at `check`: it returns, or goes back to `READ_AGAIN`. -/
def check : ℕ ⊕ PollState :=
  if s.receiver.checkRecvTxFifoEmpty = false ∨ s.rxEvt = true then .inr { s with rxEvt := false }
  else .inl s.tmp

/-- What `sipa_dummy_rx` and `sipa_nic_set_tx_fifo_rp` do with at most `num` packets. -/
def receive (num : ℕ) : PollState :=
  let (receiver, pkts) := s.receiver.dummyRx (fun i ↦ devOn (s.tmp + i)) num 0
  { receiver := if pkts > 0 then receiver.setTxFifoRp pkts else receiver
    budget := s.budget - pkts
    tmp := s.tmp + pkts
    rxEvt := false }

/-- A pass through `READ_AGAIN`. -/
def pollPass : ℕ ⊕ PollState :=
  let num := s.receiver.getFilledNum
  if num = 0 then s.check
  else
    let s := s.receive devOn (min num s.budget)
    if s.budget = 0 then .inl s.tmp else s.check

/-- What is asked of the handler. -/
structure PollEnds : Prop where
  ends : Loop.Halts (pollPass devOn) s
  /-- A pass that is not the last uses up budget or passes descriptors, or there was none and it
  has taken note of an interrupt from before. -/
  progress : ∀ t u, Loop.Reaches (pollPass devOn) s t → pollPass devOn t = .inr u →
    u.budget < t.budget ∨ u.receiver.getFilledNum < t.receiver.getFilledNum ∨
      t.receiver.getFilledNum = 0 ∧ t.rxEvt = true ∧ u.rxEvt = false

end PollState

/-! ## Entries and descriptors -/

/-- The buffer of the entry is the one of the descriptor. -/
def Matches (entry : SkbDmaAddrNode) (node : NodeDescriptionTag) : Prop :=
  node.address ≠ 0 ∧ entry.dmaAddr = node.address

instance (entry : SkbDmaAddrNode) (node : NodeDescriptionTag) : Decidable (Matches entry node) :=
  inferInstanceAs (Decidable (_ ∧ _))

/-- How many entries match the descriptor in the same place. -/
def matched : List SkbDmaAddrNode → List NodeDescriptionTag → ℕ
  | entry :: es, node :: ws => (if Matches entry node then 1 else 0) + matched es ws
  | _, _ => 0

@[simp] theorem matched_nil_left (ws : List NodeDescriptionTag) : matched [] ws = 0 := by
  cases ws <;> rfl

/-- What holds of a receiver whose rings have depth `2 ^ k`, whatever is in them. -/
structure RecvReady (k n : ℕ) (r : SipaSkbReceiver) : Prop where
  pointers : r.recvFifo.Pointers k n
  array : r.recvArray.Valid k
  /-- `put_recv_array_node` is called with buffers. -/
  buffers : ∀ entry ∈ r.recvArray.entries, entry.skb.isSome

/-! ## One descriptor -/

section Receive

variable {k n : ℕ} {r : SipaSkbReceiver} (h : RecvReady k n r)

include h

theorem recvSkb_nil (i : ℕ) (hentries : r.recvArray.entries = []) : r.recvSkb i = (r, .noData) := by
  have hwp : r.recvArray.wp = r.recvArray.rp :=
    (Ring.window_eq_nil_iff _ h.array.rp h.array.wp).mp hentries
  have hgot : r.recvArray.getRecvArrayNode = (r.recvArray, none) := by
    rw [SipaSkbArray.getRecvArrayNode, if_neg (not_not.mpr hwp.symm)]
  simp only [SipaSkbReceiver.recvSkb, hgot]

variable (hk : k ≤ 15) {i : ℕ} {entry : SkbDmaAddrNode} {es : List SkbDmaAddrNode}
  (hentries : r.recvArray.entries = entry :: es) (hi : i < r.recvFifo.txWindow.length)

include hk hentries

/-- The first entry has been taken out. -/
theorem RecvReady.taken : RecvReady k n
    { r with
      recvArray := r.recvArray.getRecvArrayNode.1
      needFillCnt := r.needFillCnt + 1 } ∧
    r.recvArray.getRecvArrayNode.1.entries = es := by
  obtain ⟨-, hvalid, hrest⟩ := h.array.get (show k < 32 by omega) hentries
  refine ⟨⟨h.pointers, hvalid, ?_⟩, hrest⟩
  intro e he
  rw [hrest] at he
  apply h.buffers
  rw [hentries]
  exact List.mem_cons_of_mem _ he

include hi

/-- A buffer is received if its entry matches. -/
theorem recvSkb_matches (hmatch : Matches entry r.recvFifo.txWindow[i]) :
    ∃ skb, r.recvSkb i =
      ({ r with
          recvArray := r.recvArray.getRecvArrayNode.1
          needFillCnt := r.needFillCnt + 1 },
        .received (some skb) r.recvFifo.txWindow[i].netId) := by
  obtain ⟨hgot, -, -⟩ := h.array.get (show k < 32 by omega) hentries
  have hnode := h.pointers.getTxFifoRp_eq (show k ≤ 31 by omega) hi
  have hsome := h.buffers entry (by rw [hentries]; exact List.mem_cons_self)
  obtain ⟨skb, hskb⟩ := Option.isSome_iff_exists.mp hsome
  obtain ⟨hzero, haddr⟩ := hmatch
  use skb
  simp only [SipaSkbReceiver.recvSkb, hgot, hnode, hskb]
  rw [if_neg]
  rintro (heq | hne)
  · exact hzero heq
  · exact hne haddr

/-- A descriptor that does not match is passed, and the buffer freed. -/
theorem recvSkb_not_matches (hmatch : ¬ Matches entry r.recvFifo.txWindow[i]) :
    r.recvSkb i =
      ({ r with
          recvFifo := (r.recvFifo.setTxFifoRp 1).1
          recvArray := r.recvArray.getRecvArrayNode.1
          needFillCnt := r.needFillCnt + 1 },
        .dropped entry.skb) := by
  obtain ⟨hgot, -, -⟩ := h.array.get (show k < 32 by omega) hentries
  have hnode := h.pointers.getTxFifoRp_eq (show k ≤ 31 by omega) hi
  simp only [SipaSkbReceiver.recvSkb, hgot, hnode]
  rw [if_pos]
  by_contra hboth
  rcases not_or.mp hboth with ⟨hzero, haddr⟩
  exact hmatch ⟨hzero, not_not.mp haddr⟩

end Receive

/-! ## The loop of `sipa_dummy_rx` -/

/-- What the loop does that begins with `skbCnt`: it goes on to `pkts`, and may have dropped one
more. As many entries are taken out as descriptors are passed. -/
structure Received (k n : ℕ) (r r' : SipaSkbReceiver) (skbCnt pkts drops : ℕ) : Prop where
  ready : RecvReady k n r'
  remote : r'.remoteReady = r.remoteReady
  pkts_ge : skbCnt ≤ pkts
  window_le : pkts + drops ≤ r.recvFifo.txWindow.length
  entries_le : pkts + drops ≤ skbCnt + r.recvArray.entries.length
  window : r'.recvFifo.txWindow = r.recvFifo.txWindow.drop drops
  entries : r'.recvArray.entries = r.recvArray.entries.drop (pkts + drops - skbCnt)
  matched : matched r.recvArray.entries (r.recvFifo.txWindow.drop skbCnt) =
    pkts - skbCnt + Sipa.matched (r.recvArray.entries.drop (pkts + drops - skbCnt))
      (r.recvFifo.txWindow.drop (pkts + drops))

section Loop

variable {k n : ℕ} {r : SipaSkbReceiver}

/-- Nothing is received. -/
theorem Received.none (h : RecvReady k n r) {skbCnt : ℕ}
    (hle : skbCnt ≤ r.recvFifo.txWindow.length) : Received k n r r skbCnt skbCnt 0 where
  ready := h
  remote := rfl
  pkts_ge := le_rfl
  window_le := hle
  entries_le := Nat.le_add_right _ _
  window := rfl
  entries := by rw [Nat.add_zero, Nat.sub_self, List.drop_zero]
  matched := by rw [Nat.add_zero, Nat.sub_self, List.drop_zero, Nat.zero_add]

variable {entry : SkbDmaAddrNode} {es : List SkbDmaAddrNode} {skbCnt : ℕ}

/-- The first descriptor is dropped. -/
theorem Received.drop (h : RecvReady k n r) (hk : k ≤ 15)
    (hentries : r.recvArray.entries = entry :: es) (hi : skbCnt < r.recvFifo.txWindow.length)
    (hmatch : ¬ Matches entry r.recvFifo.txWindow[skbCnt]) :
    Received k n r (r.recvSkb skbCnt).1 skbCnt skbCnt 1 := by
  obtain ⟨htaken, hrest⟩ := h.taken hk hentries
  have hone : 1 ≤ r.recvFifo.txWindow.length := by omega
  have hdrop : skbCnt + 1 - skbCnt = 1 := by omega
  rw [recvSkb_not_matches h hk hentries hi hmatch]
  refine
    { ready := ⟨h.pointers.setTxFifoRp (show k ≤ 31 by omega) hone, htaken.array, htaken.buffers⟩
      remote := rfl
      pkts_ge := le_rfl
      window_le := hi
      entries_le := ?_
      window := h.pointers.txWindow_setTxFifoRp (show k ≤ 31 by omega) hone
      entries := ?_
      matched := ?_ }
  · rw [hentries, List.length_cons]
    omega
  · rw [hdrop, hentries]
    exact hrest
  · rw [hdrop, hentries, List.drop_eq_getElem_cons hi, Sipa.matched, if_neg hmatch, Nat.sub_self]
    rfl

/-- The first descriptor is received, before others. -/
theorem Received.cons {r₁ r' : SipaSkbReceiver} {pkts drops : ℕ}
    (h : Received k n r₁ r' (skbCnt + 1) pkts drops) (hentries : r.recvArray.entries = entry :: es)
    (hi : skbCnt < r.recvFifo.txWindow.length)
    (hmatch : Matches entry r.recvFifo.txWindow[skbCnt])
    (hremote : r₁.remoteReady = r.remoteReady) (hwindow : r₁.recvFifo = r.recvFifo)
    (hrest : r₁.recvArray.entries = es) : Received k n r r' skbCnt pkts drops := by
  have hge := h.pkts_ge
  have hwindow_le := h.window_le
  have hentries_le := h.entries_le
  have hwindow' := h.window
  have hentries' := h.entries
  have hmatched := h.matched
  rw [hwindow] at hwindow_le hwindow' hmatched
  rw [hrest] at hentries_le hentries' hmatched
  obtain ⟨m, hm⟩ : ∃ m, pkts + drops - skbCnt = m + 1 := ⟨pkts + drops - skbCnt - 1, by omega⟩
  have hm' : pkts + drops - (skbCnt + 1) = m := by omega
  rw [hm'] at hentries' hmatched
  refine
    { ready := h.ready
      remote := h.remote.trans hremote
      pkts_ge := by omega
      window_le := hwindow_le
      entries_le := ?_
      window := hwindow'
      entries := ?_
      matched := ?_ }
  · rw [hentries, List.length_cons]
    omega
  · rw [hm, hentries]
    exact hentries'
  · rw [hm, hentries, List.drop_eq_getElem_cons hi, Sipa.matched, if_pos hmatch, hmatched,
      List.drop_succ_cons]
    omega

variable (skbCnt) in
theorem received_dummyRx (hk : k ≤ 15) (devOn : ℕ → Bool) (left : ℕ) (h : RecvReady k n r)
    (hle : skbCnt + left ≤ r.recvFifo.txWindow.length) :
    ∃ drops, Received k n r (r.dummyRx devOn left skbCnt).1 skbCnt (r.dummyRx devOn left skbCnt).2
        drops ∧
      (r.dummyRx devOn left skbCnt).2 ≤ skbCnt + left ∧
      (0 < left → r.recvArray.entries ≠ [] →
        skbCnt < (r.dummyRx devOn left skbCnt).2 + drops) := by
  induction left generalizing skbCnt r with
  | zero => exact ⟨0, .none h (by omega), le_rfl, fun hpos ↦ absurd hpos (Nat.lt_irrefl 0)⟩
  | succ left ih =>
    have hi : skbCnt < r.recvFifo.txWindow.length := by omega
    cases hentries : r.recvArray.entries with
    | nil =>
      -- the exit of `sipa_recv_skb` that passes nothing
      have hrecv : r.dummyRx devOn (left + 1) skbCnt = (r, skbCnt) := by
        rw [SipaSkbReceiver.dummyRx, recvSkb_nil h skbCnt hentries]
      rw [hrecv]
      exact ⟨0, .none h hi.le, Nat.le_add_right _ _, fun _ hne ↦ absurd rfl hne⟩
    | cons entry es =>
      obtain ⟨htaken, hrest⟩ := h.taken hk hentries
      by_cases hmatch : Matches entry r.recvFifo.txWindow[skbCnt]
      · obtain ⟨skb, hrecv⟩ := recvSkb_matches h hk hentries hi hmatch
        rw [SipaSkbReceiver.dummyRx, hrecv]
        dsimp only
        split
        · refine ⟨0, ?_, by omega, fun _ _ ↦ by omega⟩
          exact (Received.none htaken hi).cons hentries hi hmatch rfl rfl hrest
        · obtain ⟨drops, hrec, hpkts, -⟩ := ih (skbCnt + 1) htaken (by
            dsimp only
            omega)
          refine ⟨drops, hrec.cons hentries hi hmatch rfl rfl hrest, by omega, fun _ _ ↦ ?_⟩
          have hge := hrec.pkts_ge
          omega
      · have hdrop := Received.drop h hk hentries hi hmatch
        have hrecv : r.dummyRx devOn (left + 1) skbCnt = ((r.recvSkb skbCnt).1, skbCnt) := by
          rw [SipaSkbReceiver.dummyRx, recvSkb_not_matches h hk hentries hi hmatch]
        rw [hrecv]
        exact ⟨1, hdrop, Nat.le_add_right _ _, fun _ _ ↦ Nat.lt_succ_self _⟩

end Loop

/-! ## A pass through `READ_AGAIN` -/

namespace PollState

/-- What holds at `READ_AGAIN`. -/
structure Ready (k n : ℕ) (s : PollState) : Prop where
  receiver : RecvReady k n s.receiver
  budget : 0 < s.budget

/-- Nothing is received, or there is an entry for each descriptor, or those that match use the
budget up. -/
def Enough (s : PollState) : Prop :=
  s.receiver.remoteReady = false ∨ s.window.length ≤ s.entries.length ∨
    s.budget ≤ matched s.entries s.window

/-- What a pass does that finds descriptors. -/
structure Pass (k n : ℕ) (s s' : PollState) (passed pkts : ℕ) : Prop where
  receiver : RecvReady k n s'.receiver
  remote : s'.receiver.remoteReady = s.receiver.remoteReady
  rxEvt : s'.rxEvt = false
  pkts_le_passed : pkts ≤ passed
  pkts_le_budget : pkts ≤ s.budget
  budget : s'.budget = s.budget - pkts
  window_le : passed ≤ s.window.length
  entries_le : passed ≤ s.entries.length
  window : s'.window = s.window.drop passed
  entries : s'.entries = s.entries.drop passed
  matched : matched s.entries s.window = pkts + Wwan.Sipa.matched s'.entries s'.window
  progress : s.entries ≠ [] → 0 < passed

section Pass

variable {k n : ℕ} {s s' : PollState} {devOn : ℕ → Bool}

theorem getFilledNum_eq (h : RecvReady k n s.receiver) :
    s.receiver.getFilledNum = if s.receiver.remoteReady then s.window.length else 0 := by
  rw [SipaSkbReceiver.getFilledNum, h.pointers.recvNodeFromTxFifo_eq]
  rfl

/-- The hardware calls the ring empty when it has no descriptors to report. -/
theorem checkRecvTxFifoEmpty_iff (h : RecvReady k n s.receiver) :
    s.receiver.checkRecvTxFifoEmpty = false ↔ s.receiver.getFilledNum ≠ 0 := by
  rw [getFilledNum_eq h, SipaSkbReceiver.checkRecvTxFifoEmpty]
  cases s.receiver.remoteReady with
  | false => simp
  | true =>
    have hnil : s.window = [] ↔ s.receiver.recvFifo.regs.txWptr =
        s.receiver.recvFifo.regs.txRptr := by
      rw [window, CmnFifoCfgTag.txWindow, h.pointers.txDepth]
      exact Ring.window_eq_nil_iff _ h.pointers.txRptr h.pointers.txWptr
    rw [if_pos rfl, if_pos rfl, CmnFifoCfgTag.getTxEmptyStatus, decide_eq_false_iff_not, ne_eq,
      List.length_eq_zero_iff, hnil, eq_comm]

theorem check_eq (h : RecvReady k n s.receiver) :
    s.check = if s.receiver.getFilledNum ≠ 0 ∨ s.rxEvt = true then .inr { s with rxEvt := false }
      else .inl s.tmp :=
  if_congr (or_congr_left (checkRecvTxFifoEmpty_iff h)) rfl rfl

/-- Descriptors are passed together. -/
theorem recvReady_setTxFifoRp {r : SipaSkbReceiver} (h : RecvReady k n r) (hk : k ≤ 15)
    (hremote : r.remoteReady = true) {pkts : ℕ} (hle : pkts ≤ r.recvFifo.txWindow.length) :
    RecvReady k n (if pkts > 0 then r.setTxFifoRp pkts else r) ∧
      (if pkts > 0 then r.setTxFifoRp pkts else r).recvFifo.txWindow =
        r.recvFifo.txWindow.drop pkts ∧
      (if pkts > 0 then r.setTxFifoRp pkts else r).recvArray = r.recvArray ∧
      (if pkts > 0 then r.setTxFifoRp pkts else r).remoteReady = r.remoteReady := by
  split
  next =>
    rw [SipaSkbReceiver.setTxFifoRp, if_pos hremote]
    have hk' : k ≤ 31 := Nat.le_trans hk (by decide)
    refine ⟨⟨h.pointers.setTxFifoRp hk' hle, h.array, h.buffers⟩, ?_, rfl, rfl⟩
    exact h.pointers.txWindow_setTxFifoRp hk' hle
  next hpkts =>
    obtain rfl : pkts = 0 := Nat.eq_zero_of_not_pos hpkts
    exact ⟨h, rfl, rfl, rfl⟩

variable (devOn) in
theorem Ready.exists_pass (h : s.Ready k n) (hk : k ≤ 15) (hfilled : s.receiver.getFilledNum ≠ 0) :
    ∃ passed pkts, Pass k n s (s.receive devOn (min s.receiver.getFilledNum s.budget)) passed
      pkts := by
  have hnum := getFilledNum_eq h.receiver
  have hremote : s.receiver.remoteReady = true := by
    by_contra hoff
    rw [if_neg hoff] at hnum
    exact hfilled hnum
  rw [if_pos hremote] at hnum
  rw [hnum] at hfilled ⊢
  have hbudget := h.budget
  set num := min s.window.length s.budget with hmin
  have hwindow : num ≤ s.window.length := Nat.min_le_left _ _
  obtain ⟨drops, hrec, hpkts, hprogress⟩ := received_dummyRx 0 hk (fun i ↦ devOn (s.tmp + i)) num
    h.receiver (by rw [Nat.zero_add]; exact hwindow)
  generalize hrun : s.receiver.dummyRx (fun i ↦ devOn (s.tmp + i)) num 0 = x at hrec hpkts hprogress
  obtain ⟨r', pkts⟩ := x
  dsimp only at hrec hpkts hprogress
  have hready := hrec.remote.trans hremote
  have hleft : pkts ≤ r'.recvFifo.txWindow.length := by
    have hle := hrec.window_le
    rw [hrec.window, List.length_drop]
    omega
  -- the descriptors of the packets are behind those that were dropped
  have hset := recvReady_setTxFifoRp hrec.ready hk hready hleft
  rw [hrec.window, List.drop_drop, Nat.add_comm drops] at hset
  have hreceive : s.receive devOn num =
      { receiver := if pkts > 0 then r'.setTxFifoRp pkts else r'
        budget := s.budget - pkts
        tmp := s.tmp + pkts
        rxEvt := false } := by
    rw [receive, hrun]
  generalize (if pkts > 0 then r'.setTxFifoRp pkts else r') = r'' at hset hreceive
  obtain ⟨hafter, hafterWindow, hafterArray, hafterRemote⟩ := hset
  have hcount : pkts + drops - 0 = pkts + drops := Nat.sub_zero _
  have hentries_le := hrec.entries_le
  have hentries := hrec.entries
  have hmatched := hrec.matched
  rw [Nat.zero_add] at hentries_le
  rw [hcount] at hentries
  rw [hcount, List.drop_zero, Nat.sub_zero] at hmatched
  rw [hreceive]
  refine ⟨pkts + drops, pkts,
    { receiver := hafter
      remote := hafterRemote.trans hrec.remote
      rxEvt := rfl
      pkts_le_passed := Nat.le_add_right _ _
      pkts_le_budget := by omega
      budget := rfl
      window_le := hrec.window_le
      entries_le := hentries_le
      window := hafterWindow
      entries := ?_
      matched := ?_
      progress := fun hne ↦ hprogress (by omega) hne }⟩
  · change r''.recvArray.entries = _
    rw [hafterArray]
    exact hentries
  · change matched s.receiver.recvArray.entries s.receiver.recvFifo.txWindow =
      pkts + matched r''.recvArray.entries r''.recvFifo.txWindow
    rw [hafterArray, hentries, hafterWindow]
    exact hmatched

/-- A pass leaves what is needed and what there is in the same relation. -/
theorem Pass.enough_iff {passed pkts : ℕ} (h : Pass k n s s' passed pkts) :
    s.Enough ↔ s'.Enough := by
  have hpkts := h.pkts_le_budget
  have hwindow_le := h.window_le
  have hentries_le := h.entries_le
  have hmatched := h.matched
  have hwindow : s'.window.length = s.window.length - passed := by
    rw [h.window, List.length_drop]
  have hentries : s'.entries.length = s.entries.length - passed := by
    rw [h.entries, List.length_drop]
  rw [Enough, Enough, h.remote, h.budget]
  refine or_congr_right (or_congr ?_ ?_)
  · omega
  · omega

/-- With enough entries a pass that finds descriptors passes some. -/
theorem Enough.entries_ne_nil (h : s.Enough) (hready : s.Ready k n)
    (hfilled : s.receiver.getFilledNum ≠ 0) : s.entries ≠ [] := by
  intro hnil
  have hnum := getFilledNum_eq hready.receiver
  have hbudget := hready.budget
  rcases h with hoff | hlen | hmatched
  · rw [hoff] at hnum
    exact hfilled hnum
  · rw [hnil, List.length_nil, Nat.le_zero] at hlen
    rw [hlen] at hnum
    exact hfilled (hnum.trans (ite_self 0))
  · rw [hnil, matched_nil_left] at hmatched
    omega

/-- A pass that is not the last has taken note of an interrupt, or has found descriptors. -/
theorem Ready.pollPass_inr (h : s.Ready k n) (hk : k ≤ 15) (hpass : s.pollPass devOn = .inr s') :
    (s.receiver.getFilledNum = 0 ∧ s.rxEvt = true ∧ s' = { s with rxEvt := false }) ∨
      s.receiver.getFilledNum ≠ 0 ∧ 0 < s'.budget ∧ ∃ passed pkts, Pass k n s s' passed pkts := by
  rw [pollPass] at hpass
  dsimp only at hpass
  by_cases hfilled : s.receiver.getFilledNum = 0
  · rw [if_pos hfilled, check_eq h.receiver] at hpass
    split at hpass
    · rename_i hgo
      cases hpass
      exact .inl ⟨hfilled, hgo.resolve_left (not_not.mpr hfilled), rfl⟩
    · cases hpass
  · obtain ⟨passed, pkts, hp⟩ := h.exists_pass devOn hk hfilled
    rw [if_neg hfilled, check_eq hp.receiver] at hpass
    split at hpass
    · cases hpass
    · rename_i hbudget
      split at hpass
      · cases hpass
        exact .inr ⟨hfilled, Nat.pos_of_ne_zero hbudget, passed, pkts, hp⟩
      · cases hpass

/-- The state at the next `READ_AGAIN`. -/
theorem Ready.next (h : s.Ready k n) (hk : k ≤ 15) (hpass : s.pollPass devOn = .inr s') :
    s'.Ready k n ∧ (s.Enough ↔ s'.Enough) := by
  rcases h.pollPass_inr hk hpass with ⟨-, -, rfl⟩ | ⟨-, hbudget, passed, pkts, hp⟩
  · exact ⟨⟨h.receiver, h.budget⟩, Iff.rfl⟩
  · exact ⟨⟨hp.receiver, hbudget⟩, hp.enough_iff⟩

/-- Without enough entries there is always a next pass. -/
theorem Ready.not_enough (h : s.Ready k n) (hk : k ≤ 15) (hnot : ¬ s.Enough) :
    ∃ t, s.pollPass devOn = .inr t ∧ t.Ready k n ∧ ¬ t.Enough := by
  have hfilled : ∀ {t : PollState}, RecvReady k n t.receiver → ¬ t.Enough →
      t.receiver.getFilledNum ≠ 0 := by
    intro t ht hlack
    obtain ⟨hremote, hlen, -⟩ := not_or.mp hlack |>.imp_right not_or.mp
    rw [getFilledNum_eq ht, if_pos (Bool.eq_true_of_not_eq_false hremote)]
    omega
  have hsome := hfilled h.receiver hnot
  obtain ⟨passed, pkts, hp⟩ := h.exists_pass devOn hk hsome
  have hlack := mt hp.enough_iff.mpr hnot
  have hbudget := hp.budget
  have hmatched := hp.matched
  obtain ⟨-, -, hused⟩ := not_or.mp hnot |>.imp_right not_or.mp
  refine ⟨_, ?_, ⟨hp.receiver, ?_⟩, hlack⟩
  · rw [pollPass]
    dsimp only
    rw [if_neg hsome, if_neg (by omega), check_eq hp.receiver,
      if_pos (.inl (hfilled hp.receiver hlack))]
    rfl
  · omega

end Pass

/-! ## The poll -/

section Poll

variable {k n : ℕ} {s t : PollState} {devOn : ℕ → Bool}

theorem Ready.reaches (h : s.Ready k n) (hk : k ≤ 15)
    (hreach : Loop.Reaches (pollPass devOn) s t) : t.Ready k n ∧ (s.Enough ↔ t.Enough) := by
  induction hreach with
  | refl => exact ⟨h, Iff.rfl⟩
  | tail _ hpass ih =>
    obtain ⟨hready, hiff⟩ := ih.1.next hk hpass
    exact ⟨hready, ih.2.trans hiff⟩

/-- The handler returns, and makes progress in each pass, if and only if there are entries for all
descriptors, or for so many that the budget is used up. -/
theorem pollEnds_iff (h : s.Ready k n) (hk : k ≤ 15) (devOn : ℕ → Bool) :
    PollEnds devOn s ↔ s.Enough := by
  constructor
  · intro hlaw
    by_contra hnot
    refine Loop.not_halts_of_invariant (P := fun t ↦ t.Ready k n ∧ ¬ t.Enough) ?_ ⟨h, hnot⟩ hlaw.ends
    rintro t ⟨ht, hlack⟩
    exact ht.not_enough hk hlack
  · intro henough
    have hprogress : ∀ t u, Loop.Reaches (pollPass devOn) s t → pollPass devOn t = .inr u →
        (t.receiver.getFilledNum = 0 ∧ t.rxEvt = true ∧ u = { t with rxEvt := false }) ∨
          u.rxEvt = false ∧ u.budget ≤ t.budget ∧ u.window.length ≤ t.window.length ∧
            (u.budget < t.budget ∨ u.receiver.getFilledNum < t.receiver.getFilledNum ∧
              u.window.length < t.window.length) := by
      intro t u hreach hpass
      obtain ⟨hready, hiff⟩ := h.reaches hk hreach
      rcases hready.pollPass_inr hk hpass with hevt | ⟨hfilled, -, passed, pkts, hp⟩
      · exact .inl hevt
      · have hpos := hp.progress ((hiff.mp henough).entries_ne_nil hready hfilled)
        have hle := hp.window_le
        have hbudget := hp.budget
        have hpkts := hp.pkts_le_budget
        have hwindow : u.window.length = t.window.length - passed := by
          rw [hp.window, List.length_drop]
        have hnum := getFilledNum_eq hready.receiver
        have hnum' := getFilledNum_eq hp.receiver
        have hremote : t.receiver.remoteReady = true := by
          by_contra hoff
          rw [if_neg hoff] at hnum
          exact hfilled hnum
        rw [if_pos hremote] at hnum
        rw [hp.remote, if_pos hremote] at hnum'
        refine .inr ⟨hp.rxEvt, by omega, by omega, .inr ⟨by omega, by omega⟩⟩
    constructor
    · apply Loop.halts_of_measure fun t ↦ t.budget + t.window.length + t.rxEvt.toNat
      intro t u hreach hpass
      rcases hprogress t u hreach hpass with ⟨-, hevt, rfl⟩ | ⟨hevt, hbudget, hwindow, hless⟩
      · rw [hevt]
        exact Nat.lt_succ_self _
      · rw [hevt, Bool.toNat_false]
        omega
    · intro t u hreach hpass
      rcases hprogress t u hreach hpass with ⟨hfilled, hevt, rfl⟩ | ⟨-, -, -, hless⟩
      · exact .inr (.inr ⟨hfilled, hevt, rfl⟩)
      · exact hless.imp_right fun hnum ↦ .inl hnum.1

end Poll

/-! ## Runs -/

/-- The remote has returned descriptors in rings of 16. -/
def filled (addresses : List ℕ) (entries : List SkbDmaAddrNode) : PollState where
  receiver :=
    { SipaSkbReceiver.create 16 0 0 with
      recvFifo := addresses.foldl (fun cfg address ↦
        cfg.hwReturn { NodeDescriptionTag.zero with address := address }) (.opened 16 0)
      recvArray := entries.foldl (fun array entry ↦ (array.putRecvArrayNode entry).1) (.create 16)
      remoteReady := true }
  budget := 64
  tmp := 0
  rxEvt := false

/-- Three descriptors, with an entry between them that does not match. -/
def threeFilled : PollState :=
  filled [64, 128, 192] [⟨some ⟨0, 0, 0⟩, 64⟩, ⟨some ⟨1, 0, 0⟩, 100⟩, ⟨some ⟨2, 0, 0⟩, 192⟩]

theorem threeFilled_ready : threeFilled.Ready 4 0 := by
  refine ⟨⟨⟨rfl, rfl, rfl, rfl, ?_, ?_, ?_, ?_, .inl (by decide)⟩, ⟨rfl, ?_, ?_⟩, ?_⟩, ?_⟩
  all_goals decide

theorem pollEnds_threeFilled : PollEnds (fun _ ↦ true) threeFilled :=
  (pollEnds_iff threeFilled_ready (by decide) _).mpr (.inr (.inl (by decide)))

/-- Without an entry the descriptor is read for ever. -/
theorem oneFilled_endless : ¬ PollEnds (fun _ ↦ true) (filled [64] []) := by
  intro h
  have hpass : pollPass (fun _ ↦ true) (filled [64] []) = .inr (filled [64] []) := rfl
  exact Loop.not_halts_of_fixed .refl hpass h.ends

end PollState

end Wwan.Sipa
