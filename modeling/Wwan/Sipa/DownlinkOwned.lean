import Wwan.Sipa.DownlinkInv

/-!
# Ownership on the downlink

The other steps of the downlink keep the invariant as well: `SMSG_TYPE_DONE`, the hardware and the
poll handler. So every descriptor the hardware may use has a buffer of its own, in every run in
which the rings are prepared completely and opened again only when nothing is missing.
-/

namespace Wwan.Sipa

open Wwan Bytes

namespace Downlink

variable {k : ℕ} {s : Downlink}

namespace DownlinkInv

variable (h : DownlinkInv k s)

include h

/-! ## Opening -/

/-- The first `SMSG_TYPE_DONE` publishes all descriptors. -/
theorem opens (hk : k ≤ 15) (hfill : ∀ i cnt, s.fill ≠ .preparing i cnt)
    (hstate : s.receiver.state = false) :
    DownlinkInv k { s with receiver := s.receiver.smsgDone } := by
  obtain ⟨hregs, hneed, -, hbusy, hpoll⟩ := h.closed hstate
  have hplace := h.fill
  have haddr := h.addresses
  have hfill' : s.fill = .waiting := by
    cases hthread : s.fill with
    | waiting => rfl
    | preparing i cnt => exact absurd hthread (hfill i cnt)
    | filling i cnt =>
      rw [hthread] at hplace
      exact absurd (hstate.symm.trans hplace.1) (by decide)
    | publishing n =>
      rw [hthread] at hplace
      exact absurd (hstate.symm.trans hplace.1) (by decide)
    | counting n =>
      rw [hthread] at hplace
      exact absurd (hstate.symm.trans hplace.1) (by decide)
  have hhal : s.receiver.halOpen.1 =
      { s.receiver with
        recvFifo :=
          { s.receiver.recvFifo with
            regs := ⟨0, 0, 0, 0⟩
            rxFifo := { s.receiver.recvFifo.rxFifo with rd := 0, wr := 0 }
            txFifo := { s.receiver.recvFifo.txFifo with rd := 0, wr := 0 } }
        state := true } := by
    rw [SipaSkbReceiver.halOpen, if_neg (by simp [hstate])]
  set fifo : CmnFifoCfgTag :=
    { s.receiver.recvFifo with
      regs := ⟨0, 0, 0, 0⟩
      rxFifo := { s.receiver.recvFifo.rxFifo with rd := 0, wr := 0 }
      txFifo := { s.receiver.recvFifo.txFifo with rd := 0, wr := 0 } } with hfifo
  have hpow := Nat.two_pow_pos k
  have hptr : fifo.Pointers k 0 := by
    refine ⟨h.pointers.rxDepth, h.pointers.txDepth, rfl, rfl, ?_, ?_, ?_, ?_, .inl hk⟩
    all_goals exact Nat.mul_pos Nat.two_pos hpow
  have hrx : fifo.rxWindow = [] := Ring.window_zero ..
  have htx : fifo.txWindow = [] := Ring.window_zero ..
  have hdepth : fifo.rxFifo.depth = 2 ^ k := hptr.rxDepth
  have hroom : fifo.rxWindow.length + 2 ^ k ≤ 2 ^ k := by
    rw [hrx, List.length_nil, Nat.zero_add]
  have hrxw := hptr.rxWindow_setRxFifoWr hk hpow hroom
  have htxw := hptr.txWindow_setRxFifoWr hk hpow hroom
  have hdone : s.receiver.smsgDone =
      { s.receiver with
        recvFifo := (fifo.setRxFifoWr (2 ^ k)).1
        state := true
        needFillCnt := 0
        remoteReady := true } := by
    simp only [SipaSkbReceiver.smsgDone, SipaSkbReceiver.openCmnFifo, hhal,
      SipaSkbReceiver.fillFreeNode, hdepth]
  rw [hdone]
  refine ⟨?pointers, h.array, ?addresses, h.positive, le_rfl, ?fill, ?poll, nofun, fun _ ↦ rfl,
    h.once, h.nodup⟩
  case pointers =>
    rw [hbusy]
    exact hptr.setRxFifoWr hk hpow hroom
  case addresses =>
    have hrxs : s.receiver.recvFifo.rxWindow = [] := by
      rw [CmnFifoCfgTag.rxWindow, hregs]
      exact Ring.window_zero ..
    have htxs : s.receiver.recvFifo.txWindow = [] := by
      rw [CmnFifoCfgTag.txWindow, hregs]
      exact Ring.window_zero ..
    simp only [descriptors, returned, published, unpublished, hbusy, hfill',
      FillThread.unpublished, hstate, if_true, h.array.depth, entries, hrxw, htxw, hrx, htx, hrxs,
      htxs, hregs, List.drop_nil, List.nil_append, Ring.contents_zero, List.append_nil] at haddr ⊢
    rw [haddr]
    rfl
  case fill =>
    rw [hfill'] at hplace ⊢
    change (s.entries.length : ℤ) + s.receiver.needFillCnt = (2 ^ k : ℕ) at hplace
    change (s.entries.length : ℤ) + 0 = (2 ^ k : ℕ)
    omega
  case poll =>
    dsimp only
    rw [hpoll]
    trivial

/-- A further `SMSG_TYPE_DONE` does nothing if there is nothing to fill. -/
theorem reopens (hstate : s.receiver.state = true) (hneed : s.receiver.needFillCnt = 0)
    (hfull : s.receiver.recvFifo.rxWindow.length = s.receiver.recvFifo.rxFifo.depth) :
    s.receiver.smsgDone = s.receiver := by
  have hhal : s.receiver.halOpen.1 = s.receiver := by
    rw [SipaSkbReceiver.halOpen, if_pos hstate]
  have hset : (s.receiver.recvFifo.setRxFifoWr s.receiver.recvFifo.rxFifo.depth).1 =
      s.receiver.recvFifo := by
    have hleft : u32 (s.receiver.recvFifo.rxFifo.depth -
        s.receiver.recvFifo.regs.rxFifoFilledDepth s.receiver.recvFifo.rxFifo.depth) = 0 := by
      rw [h.pointers.rxFifoFilledDepth_eq, hfull, Int.sub_self]
      rfl
    simp only [CmnFifoCfgTag.setRxFifoWr, hleft, if_true]
  rw [SipaSkbReceiver.smsgDone, SipaSkbReceiver.openCmnFifo, hhal]
  simp only [SipaSkbReceiver.fillFreeNode, hset]
  rw [← hneed, ← h.remote hstate]

/-! ## The hardware -/

/-- A descriptor is taken by the hardware. -/
theorem fetch (hne : s.receiver.recvFifo.regs.rxRptr ≠ s.receiver.recvFifo.regs.rxWptr) :
    DownlinkInv k s.fetch := by
  have hwindow := h.pointers.rxWindow_hwFetch hne
  have haddr := h.addresses
  refine ⟨?pointers, h.array, ?addresses, h.positive, h.need, h.fill, h.poll, ?closed, h.remote,
    h.once, h.nodup⟩
  case pointers =>
    dsimp only [Downlink.fetch]
    rw [List.length_append]
    exact h.pointers.hwFetch hne
  case addresses =>
    simp only [descriptors, returned, published, hwindow] at haddr
    simp only [descriptors, returned, published, Downlink.fetch, List.append_assoc,
      List.singleton_append]
    simp only [List.append_assoc, List.cons_append] at haddr
    exact haddr
  case closed =>
    intro hstate
    rw [(h.closed hstate).regs] at hne
    exact absurd rfl hne

/-- A descriptor is returned. -/
theorem complete (netId errCode : ℕ) (hbusy : s.busy ≠ [])
    (hroom : s.receiver.recvFifo.txWindow.length < s.receiver.recvFifo.txFifo.depth) :
    DownlinkInv k (s.complete netId errCode) := by
  have haddr := h.addresses
  have hpointers := h.pointers
  have htaken := h.poll.taken_le
  obtain ⟨node, busy, hcons⟩ := List.exists_cons_of_ne_nil hbusy
  rw [h.pointers.txDepth] at hroom
  have hwindow :=
    h.pointers.txWindow_hwReturn { node with netId := netId, errCode := errCode } hroom
  dsimp only [Downlink.complete]
  rw [hcons]
  rw [hcons, List.length_cons] at hpointers
  refine ⟨hpointers.hwReturn _ (Nat.succ_pos _), h.array, ?addresses, h.positive, h.need, h.fill,
    ?poll, ?closed, h.remote, h.once, h.nodup⟩
  case addresses =>
    simp only [descriptors, returned, published, unpublished, entries, hcons] at haddr ⊢
    rw [hwindow, List.drop_append_of_le_length htaken, haddr]
    simp only [List.map_append, List.map_cons, List.append_assoc, List.cons_append,
      List.nil_append]
    rfl
  case poll =>
    refine h.poll.mono ?_
    dsimp only
    rw [hwindow, List.length_append]
    exact Nat.le_add_right _ _
  case closed =>
    intro hstate
    exact absurd (h.closed hstate).busy hbusy

/-! ## The poll handler -/

/-- The filled entries are given back. -/
theorem setRp (hk : k ≤ 15) {pkts : ℕ} (hpoll : s.poll = .setRp pkts) :
    DownlinkInv k
      { s with
        receiver := if pkts > 0 then s.receiver.setTxFifoRp pkts else s.receiver
        poll := .idle } := by
  have hplace := h.poll
  have haddr := h.addresses
  have hstate : s.receiver.state = true := by
    by_contra hclosed
    have hidle := (h.closed (Bool.not_eq_true _ ▸ hclosed)).poll
    rw [hpoll] at hidle
    cases hidle
  rw [hpoll] at hplace
  split
  · rename_i hpos
    have hset : s.receiver.setTxFifoRp pkts =
        { s.receiver with recvFifo := (s.receiver.recvFifo.setTxFifoRp pkts).1 } := by
      rw [SipaSkbReceiver.setTxFifoRp, if_pos (h.remote hstate)]
    have htx := h.pointers.txWindow_setTxFifoRp (show k ≤ 31 by omega) hplace
    have hrx := h.pointers.rxWindow_setTxFifoRp (show k ≤ 31 by omega) hplace
    have heq := h.pointers.setTxFifoRp_eq (show k ≤ 31 by omega) hplace
    rw [hset]
    refine ⟨h.pointers.setTxFifoRp (by omega) hplace, h.array, ?_, h.positive, h.need, h.fill,
      trivial, ?_, h.remote, h.once, h.nodup⟩
    · simp only [descriptors, returned, published, unpublished, entries, hpoll,
        RxPoll.taken] at haddr ⊢
      rw [htx, hrx, List.drop_zero, haddr, heq]
    · intro hclosed
      exact absurd (hclosed.symm.trans hstate) (by decide)
  · rename_i hpos
    have hzero : pkts = 0 := by omega
    refine ⟨h.pointers, h.array, ?_, h.positive, h.need, h.fill, trivial, ?_, h.remote, h.once,
      h.nodup⟩
    · simp only [descriptors, returned, published, unpublished, entries, hpoll, hzero,
        RxPoll.taken] at haddr ⊢
      exact haddr
    · intro hclosed
      exact absurd (hclosed.symm.trans hstate) (by decide)

section Receive

variable (hk : k ≤ 15) {budget skbCnt : ℕ} (hpoll : s.poll = .receiving budget skbCnt)
  (hlt : skbCnt < budget)

include hpoll

theorem state_of_receiving : s.receiver.state = true := by
  by_contra hclosed
  have hidle := (h.closed (Bool.not_eq_true _ ▸ hclosed)).poll
  rw [hpoll] at hidle
  cases hidle

include hk hlt

/-- The first entry is that of the next descriptor that was returned. -/
theorem first_entry : ∃ entry rest,
    s.entries = entry :: rest ∧
      entry.dmaAddr = (s.receiver.recvFifo.getTxFifoRp skbCnt).address ∧
      rest.map SkbDmaAddrNode.dmaAddr =
        (s.receiver.recvFifo.txWindow.drop (skbCnt + 1) ++ (s.published ++ s.unpublished)).map
          NodeDescriptionTag.address := by
  have hplace := h.poll
  have haddr := h.addresses
  rw [hpoll] at hplace
  have hindex : skbCnt < s.receiver.recvFifo.txWindow.length := hlt.trans_le hplace.2
  rw [h.pointers.getTxFifoRp_eq (by omega) hindex]
  rw [descriptors, returned, hpoll, RxPoll.taken, List.drop_eq_getElem_cons hindex] at haddr
  cases hentries : s.entries with
  | nil =>
    rw [hentries] at haddr
    cases haddr
  | cons entry rest =>
    rw [hentries] at haddr
    obtain ⟨hfirst, hrest⟩ := List.cons.inj haddr
    exact ⟨entry, rest, rfl, hfirst, hrest⟩

/-- `sipa_recv_skb` returns the buffer of the first entry. -/
theorem recvSkb : ∃ skb entry rest,
    s.entries = entry :: rest ∧ entry.skb = some skb ∧
      (s.receiver.recvSkb skbCnt).2 =
        .received (some skb) (s.receiver.recvFifo.getTxFifoRp skbCnt).netId ∧
      (s.receiver.recvSkb skbCnt).1 =
        { s.receiver with
          recvArray := s.receiver.recvArray.getRecvArrayNode.1
          needFillCnt := s.receiver.needFillCnt + 1 } ∧
      s.receiver.recvArray.getRecvArrayNode.1.Valid k ∧
      s.receiver.recvArray.getRecvArrayNode.1.entries = rest := by
  obtain ⟨entry, rest, hentries, haddr, hrest⟩ := h.first_entry hk hpoll hlt
  obtain ⟨hgot, hvalid, hleft⟩ := h.array.get (show k < 32 by omega) hentries
  have hpos := h.positive entry (by rw [hentries]; exact List.mem_cons_self)
  have hid : idOf entry ∈ s.allocated.map some := by
    refine h.once.subset ?_
    rw [hentries]
    exact List.mem_cons_self
  obtain ⟨id, -, hsome⟩ := List.mem_map.mp hid
  obtain ⟨skb, hskb, -⟩ := Option.map_eq_some_iff.mp hsome.symm
  have hmatch : ¬ ((s.receiver.recvFifo.getTxFifoRp skbCnt).address = 0 ∨
      entry.dmaAddr ≠ (s.receiver.recvFifo.getTxFifoRp skbCnt).address) := by
    rw [← haddr]
    rintro (hzero | hne)
    · omega
    · exact hne rfl
  refine ⟨skb, entry, rest, hentries, hskb, ?_, ?_, hvalid, hleft⟩
  · simp only [SipaSkbReceiver.recvSkb, hgot, if_neg hmatch, hskb]
  · simp only [SipaSkbReceiver.recvSkb, hgot, if_neg hmatch]

/-- The buffer is handed to the stack, or freed because there is no device for it. -/
theorem dummyRx (devOn : Bool) : DownlinkInv k (s.dummyRx budget skbCnt devOn) := by
  obtain ⟨skb, entry, rest, hentries, hskb, hresult, hreceiver, hvalid, hleft⟩ :=
    h.recvSkb hk hpoll hlt
  obtain ⟨entry', rest', hentries', -, haddr⟩ := h.first_entry hk hpoll hlt
  have hstate := h.state_of_receiving hpoll
  have hpollPlace := h.poll
  rw [hpoll] at hpollPlace
  obtain ⟨rfl, rfl⟩ : entry = entry' ∧ rest = rest' := List.cons.inj (hentries.symm.trans hentries')
  have hfill := h.fill
  rw [hstate, hentries, List.length_cons] at hfill
  -- where the buffer goes is all the branches differ in
  have hkept : ∀ (handed freed : List (Option ℕ)) (p : RxPoll),
      (handed ++ freed).Perm (some skb.id :: (s.handed ++ s.freed)) → p.taken = skbCnt + 1 →
        p.Place s.receiver.recvFifo.txWindow.length →
          DownlinkInv k
            { s with
              receiver := (s.receiver.recvSkb skbCnt).1
              handed := handed
              freed := freed
              poll := p } := by
    intro handed freed p hperm htaken hplace
    rw [hreceiver]
    refine ⟨h.pointers, hvalid, ?addresses, ?positive, ?need, ?fill, hplace, ?closed, h.remote,
      ?once, h.nodup⟩
    case addresses =>
      simp only [entries, hleft, haddr, descriptors, returned, htaken, published, unpublished,
        hvalid.depth, h.array.depth]
    case positive =>
      intro e he
      refine h.positive e ?_
      dsimp only [entries] at he
      rw [hleft] at he
      rw [hentries]
      exact List.mem_cons_of_mem _ he
    case need => exact Int.add_nonneg h.need (by decide)
    case fill =>
      simp only [entries, hleft, hstate]
      exact hfill.take
    case closed =>
      intro hclosed
      exact absurd (hclosed.symm.trans hstate) (by decide)
    case once =>
      have honce := h.once
      rw [hentries, List.map_cons, List.append_assoc] at honce
      have hid : idOf entry = some skb.id := by rw [idOf, hskb]; rfl
      rw [hid] at honce
      simp only [entries, hleft]
      rw [List.append_assoc]
      refine .trans (.append_left _ hperm) (.trans ?_ honce)
      exact List.perm_middle
  dsimp only [Downlink.dummyRx]
  rw [hresult]
  dsimp only
  split
  · refine hkept s.handed (s.freed ++ [some skb.id]) (.setRp (skbCnt + 1)) ?_ rfl
      (Nat.succ_le_of_lt (hlt.trans_le hpollPlace.2))
    rw [← List.append_assoc]
    exact List.perm_append_singleton _ _
  · refine hkept (s.handed ++ [some skb.id]) s.freed (.receiving budget (skbCnt + 1)) ?_ rfl
      ⟨hlt, hpollPlace.2⟩
    rw [List.append_assoc]
    exact List.perm_middle

end Receive

/-- The poll handler goes on without doing anything. -/
theorem setPoll {p : RxPoll} (hopen : p = .idle ∨ s.receiver.state = true)
    (htaken : p.taken = s.poll.taken) (hplace : p.Place s.receiver.recvFifo.txWindow.length) :
    DownlinkInv k { s with poll := p } where
  pointers := h.pointers
  array := h.array
  addresses := by
    have haddr := h.addresses
    simp only [descriptors, returned, published, unpublished, entries] at haddr ⊢
    rw [htaken]
    exact haddr
  positive := h.positive
  need := h.need
  fill := h.fill
  poll := hplace
  closed := fun hstate ↦
    have hclosed := h.closed hstate
    ⟨hclosed.regs, hclosed.need, hclosed.remote, hclosed.busy,
      hopen.resolve_right fun hopened ↦ absurd (hstate.symm.trans hopened) (by decide)⟩
  remote := h.remote
  once := h.once
  nodup := h.nodup

/-- A step of the poll handler. -/
theorem rxStep (hk : k ≤ 15) (budget : ℕ) (devOn : Bool) :
    DownlinkInv k (s.rxStep budget devOn) := by
  cases hpoll : s.poll with
  | idle =>
    dsimp only [Downlink.rxStep]
    rw [hpoll]
    dsimp only
    split
    · exact h
    · rename_i hnum
      have hremote : s.receiver.remoteReady = true := by
        by_contra hoff
        exact hnum (if_neg hoff)
      have hstate : s.receiver.state = true := by
        by_contra hclosed
        have hoff := (h.closed (Bool.not_eq_true _ ▸ hclosed)).remote
        exact absurd (hremote.symm.trans hoff) (by decide)
      have hfilled : s.receiver.getFilledNum = s.receiver.recvFifo.txWindow.length := by
        rw [SipaSkbReceiver.getFilledNum, if_pos hremote, h.pointers.recvNodeFromTxFifo_eq]
      refine h.setPoll (.inr hstate) ?_ ⟨Nat.zero_le _, ?_⟩
      · rw [hpoll]
        rfl
      · rw [hfilled]
        exact Nat.min_le_left _ _
  | receiving budget' skbCnt =>
    dsimp only [Downlink.rxStep]
    rw [hpoll]
    dsimp only
    split
    · rename_i hlt
      exact h.dummyRx hk hpoll hlt devOn
    · have hplace := h.poll
      rw [hpoll] at hplace
      refine h.setPoll (.inr (h.state_of_receiving hpoll)) ?_ (hplace.1.trans hplace.2)
      rw [hpoll]
      rfl
  | setRp pkts =>
    have hset := h.setRp hk hpoll
    dsimp only [Downlink.rxStep]
    rw [hpoll]
    exact hset

/-- Every step keeps the invariant. -/
theorem next (hk : k ≤ 15) {e : DownlinkEvent} (henabled : s.Enabled e) (hready : s.Ready e) :
    DownlinkInv k (s.next e) := by
  cases e with
  | fill alloc => exact h.fillStep hk henabled hready
  | done =>
    cases hstate : s.receiver.state with
    | false => exact h.opens hk henabled hstate
    | true =>
      obtain ⟨hneed, hfull⟩ := hready.resolve_left (by rw [hstate]; decide)
      have hdone := h.reopens hstate hneed hfull
      dsimp only [Downlink.next]
      rw [hdone]
      exact h
  | fetch => exact h.fetch henabled
  | complete netId errCode => exact h.complete netId errCode henabled.1 henabled.2
  | rx budget devOn => exact h.rxStep hk budget devOn

end DownlinkInv

/-- The invariant holds before the preparation. -/
theorem downlinkInv_init (k cur dst : ℕ) : DownlinkInv k (init (2 ^ k) cur dst) where
  pointers := CmnFifoCfgTag.pointers_opened k cur
  array := SipaSkbArray.valid_create k
  addresses := by
    have hentries : (init (2 ^ k) cur dst).entries = [] := SipaSkbArray.entries_create (2 ^ k)
    have hrx := CmnFifoCfgTag.rxWindow_opened (2 ^ k) cur
    have htx := CmnFifoCfgTag.txWindow_opened (2 ^ k) cur
    rw [hentries]
    simp only [descriptors, returned, published, unpublished, init, SipaSkbReceiver.create, hrx,
      htx, FillThread.unpublished, Ring.contents_zero, List.drop_nil, List.append_nil, List.map_nil]
  positive := by
    intro entry hentry
    rw [show (init (2 ^ k) cur dst).entries = [] from SipaSkbArray.entries_create (2 ^ k)] at hentry
    cases hentry
  need := le_rfl
  fill := ⟨rfl, Nat.zero_le _, rfl, by
    rw [show (init (2 ^ k) cur dst).entries = [] from SipaSkbArray.entries_create (2 ^ k)]
    rfl⟩
  poll := trivial
  closed := fun _ ↦ ⟨rfl, rfl, rfl, rfl, rfl⟩
  remote := nofun
  once := by
    rw [show (init (2 ^ k) cur dst).entries = [] from SipaSkbArray.entries_create (2 ^ k)]
    exact .refl _
  nodup := List.nodup_nil

/-- What the invariant says of the buffers. -/
theorem DownlinkInv.owned (h : DownlinkInv k s) : s.Owned (2 ^ k) where
  published := by
    have haddr := h.addresses
    rw [descriptors, List.map_append, List.map_append] at haddr
    refine ⟨(s.entries.drop s.returned.length).take s.published.length,
      (List.take_sublist _ _).trans (List.drop_sublist _ _), ?_⟩
    rw [List.map_take, List.map_drop, haddr, List.drop_left' (List.length_map _),
      List.take_left' (List.length_map _)]
  live := by
    intro entry hentry
    have hmem : idOf entry ∈ s.entries.map idOf := List.mem_map_of_mem hentry
    have hall : idOf entry ∈ s.allocated.map some := by
      refine h.once.subset ?_
      rw [List.append_assoc]
      exact List.mem_append_left _ hmem
    obtain ⟨id, hid, hsome⟩ := List.mem_map.mp hall
    have hnodup : (s.entries.map idOf ++ s.handed ++ s.freed).Nodup :=
      h.once.nodup_iff.mpr (h.nodup.map (Option.some_injective ℕ))
    rw [List.append_assoc] at hnodup
    have hdisjoint := List.disjoint_of_nodup_append hnodup
    rw [← hsome] at hmem
    exact ⟨id, hid, hsome.symm, fun hhanded ↦ hdisjoint hmem (List.mem_append_left _ hhanded),
      fun hfreed ↦ hdisjoint hmem (List.mem_append_right _ hfreed)⟩
  counted := by
    intro hfill
    have hplace := h.fill
    cases hthread : s.fill with
    | preparing i cnt => exact absurd hthread (hfill i cnt)
    | waiting =>
      rw [hthread] at hplace
      exact Eq.trans hplace (Int.add_zero _).symm
    | filling i cnt =>
      rw [hthread] at hplace
      exact hplace.2.2.2
    | publishing n =>
      rw [hthread] at hplace
      exact hplace.2.2
    | counting n =>
      rw [hthread] at hplace
      exact hplace.2.2
  once := ⟨h.once, h.nodup⟩

/-! ## Runs -/

theorem isPreparing_eq_false (t : FillThread) :
    t.isPreparing = false ↔ ∀ i cnt, t ≠ .preparing i cnt := by
  constructor
  · rintro h i cnt rfl
    cases h
  · intro h
    cases t with
    | preparing i cnt => exact absurd rfl (h i cnt)
    | waiting => rfl
    | filling i cnt => rfl
    | publishing n => rfl
    | counting n => rfl

instance (t : FillThread) : Decidable (∀ i cnt, t ≠ .preparing i cnt) :=
  decidable_of_iff (t.isPreparing = false) (isPreparing_eq_false t)

instance (alloc : RecvAlloc) : Decidable (s.Fresh alloc) :=
  match alloc with
  | .noSkb => .isTrue trivial
  | .mapError skb => inferInstanceAs (Decidable (skb.id ∉ s.allocated))
  | .mapped skb _ => inferInstanceAs (Decidable (skb.id ∉ s.allocated ∧ _ < _ ∧ _ < _))

instance (s : Downlink) (e : DownlinkEvent) :
    Decidable ((system depth cur dst).enabled s e) :=
  match e with
  | .fill alloc =>
    inferInstanceAs (Decidable ((s.fill = .waiting → s.receiver.needFillCnt > 0) ∧ s.Fresh alloc))
  | .done => inferInstanceAs (Decidable (∀ i cnt, s.fill ≠ .preparing i cnt))
  | .fetch => inferInstanceAs (Decidable (_ ≠ _))
  | .complete _ _ => inferInstanceAs (Decidable (s.busy ≠ [] ∧ _ < _))
  | .rx _ _ => .isTrue trivial

theorem ready_fill_iff (alloc : RecvAlloc) :
    s.Ready (.fill alloc) ↔ s.fill.needsBuffer = false ∨ alloc.isMapped = true := by
  constructor
  · intro h
    cases hthread : s.fill with
    | preparing i cnt =>
      by_cases hlt : i < cnt
      · obtain ⟨skb, dma, rfl⟩ := h i cnt hthread hlt
        exact .inr rfl
      · exact .inl (decide_eq_false hlt)
    | waiting => exact .inl rfl
    | filling i cnt => exact .inl rfl
    | publishing n => exact .inl rfl
    | counting n => exact .inl rfl
  · intro h i cnt hthread hlt
    rw [hthread] at h
    obtain hneeds | hmapped := h
    · exact absurd hlt (of_decide_eq_false hneeds)
    · cases alloc with
      | noSkb => cases hmapped
      | mapError skb => cases hmapped
      | mapped skb dma => exact ⟨skb, dma, rfl⟩

instance (s : Downlink) (e : DownlinkEvent) : Decidable (s.Ready e) :=
  match e with
  | .fill alloc => decidable_of_iff _ (ready_fill_iff alloc).symm
  | .done => inferInstanceAs (Decidable (_ = _ ∨ _ ∧ _))
  | .fetch => .isTrue trivial
  | .complete _ _ => .isTrue trivial
  | .rx _ _ => .isTrue trivial

/-- In every run in which the rings are prepared completely, and opened again only when nothing is
missing, each descriptor the hardware may use has a buffer of its own. -/
theorem owned_of_ready (hk : k ≤ 15) (cur dst : ℕ) (hs : (system (2 ^ k) cur dst).Reach Ready s) :
    s.Owned (2 ^ k) := by
  have hinv : DownlinkInv k s := hs.invariant (downlinkInv_init k cur dst)
    fun _ _ h henabled hready ↦ h.next hk henabled hready
  exact hinv.owned

/-- Four buffers are prepared and the FIFO is opened. Two packets are received, one of them for no
device, and their descriptors get new buffers. -/
def refilled : List DownlinkEvent :=
  (List.range 5).map (fun i ↦ .fill (.mapped ⟨i, 0, 64⟩ (4096 * (i + 1)))) ++
    [.done, .fetch, .fetch, .complete 0 0, .complete 0 0, .rx 64 true, .rx 64 true, .fill .noSkb,
      .rx 64 false, .fill (.mapped ⟨7, 0, 64⟩ 0x8000), .rx 64 true, .fill .noSkb, .fill .noSkb,
      .fill .noSkb, .fill .noSkb, .fill (.mapped ⟨8, 0, 64⟩ 0x9000), .fetch, .fill .noSkb,
      .fill .noSkb, .fill .noSkb]

/-- The hardware has all four descriptors again. -/
theorem owned_of_ready_refilled :
    let s := (system (2 ^ 2) 0x10 0x6).exec (init (2 ^ 2) 0x10 0x6) refilled
    s.Owned (2 ^ 2) ∧ s.published.length = 4 ∧ s.handed = [some 0] ∧ s.freed = [some 1] := by
  refine ⟨?_, by decide, by decide, by decide⟩
  exact owned_of_ready (by decide) 0x10 0x6 (System.Reach.init.exec (by decide))

/-! ## Descriptors without buffers -/

/-- The first buffer cannot be allocated, and the FIFO is opened all the same. -/
def unprepared : List DownlinkEvent := [.fill .noSkb, .done]

/-- All is prepared, a packet is received, and then `SMSG_TYPE_DONE` comes again. -/
def reopened : List DownlinkEvent :=
  (List.range 5).map (fun i ↦ .fill (.mapped ⟨i, 0, 64⟩ (4096 * (i + 1)))) ++
    [.done, .fetch, .complete 0 0, .rx 64 true, .rx 64 true, .done]

/-- Each published descriptor needs an entry. -/
theorem Owned.length_le {depth : ℕ} (h : s.Owned depth) :
    s.published.length ≤ s.entries.length := by
  obtain ⟨owners, hsub, heq⟩ := h.published
  have hlen := congrArg List.length heq
  rw [List.length_map, List.length_map] at hlen
  rw [← hlen]
  exact hsub.length_le

/-- The hardware is given descriptors without a buffer if the preparation failed, and if the FIFO is
opened again while entries are missing. -/
theorem unprepared_and_reopened_not_owned :
    ((system 4 0x10 0x6).Along (fun _ _ ↦ True) (init 4 0x10 0x6) unprepared ∧
      ¬ ((system 4 0x10 0x6).exec (init 4 0x10 0x6) unprepared).Owned 4) ∧
    (system 4 0x10 0x6).Along (fun _ _ ↦ True) (init 4 0x10 0x6) reopened ∧
      ¬ ((system 4 0x10 0x6).exec (init 4 0x10 0x6) reopened).Owned 4 := by
  refine ⟨⟨by decide, fun h ↦ ?_⟩, by decide, fun h ↦ ?_⟩
  · exact absurd h.length_le (by decide)
  · exact absurd h.length_le (by decide)

end Downlink

end Wwan.Sipa
