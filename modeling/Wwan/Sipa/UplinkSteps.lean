import Wwan.Sipa.UplinkInv

/-!
# The steps of the uplink

Each step keeps the invariant. What flow control does touches neither the lists nor the rings, and
the other steps move one entry or one descriptor.
-/

namespace Wwan.Sipa

open Wwan

/-! ## Flow control -/

namespace SipaCore

/-- The core after some flow control. -/
def setFlow (c : SipaCore) (nic : ℕ → Option SipaNic)
    (nicLock sendLock freeNotifyNet epCoverNet : Bool) : SipaCore :=
  { c with
    nic := nic
    sender :=
      { c.sender with
        nicLock := nicLock
        sendLock := sendLock
        freeNotifyNet := freeNotifyNet
        epCoverNet := epCoverNet } }

/-- One core is the other after some flow control. -/
def FlowOf (c c' : SipaCore) : Prop :=
  ∃ nic nicLock sendLock freeNotifyNet epCoverNet,
    c' = c.setFlow nic nicLock sendLock freeNotifyNet epCoverNet

theorem FlowOf.refl (c : SipaCore) : c.FlowOf c := ⟨_, _, _, _, _, rfl⟩

theorem FlowOf.trans {c c' c'' : SipaCore} (h : c.FlowOf c') (h' : c'.FlowOf c'') :
    c.FlowOf c'' := by
  obtain ⟨_, _, _, _, _, rfl⟩ := h
  obtain ⟨nic, nicLock, sendLock, freeNotifyNet, epCoverNet, rfl⟩ := h'
  exact ⟨nic, nicLock, sendLock, freeNotifyNet, epCoverNet, rfl⟩

theorem flowOf_informEvtToNics {c c' : SipaCore} {evt : SipaEvtType}
    (h : c.informEvtToNics evt = some c') : c.FlowOf c' := by
  unfold informEvtToNics at h
  split at h
  · cases h
  · cases evt with
    | enterFlowctrl =>
      cases h
      exact ⟨_, _, _, _, _, rfl⟩
    | leaveFlowctrl =>
      dsimp only at h
      split at h
      · cases h
        exact ⟨_, _, _, _, _, rfl⟩
      · split at h
        · cases h
          exact ⟨_, _, _, _, _, rfl⟩
        · cases h
          exact ⟨_, _, _, _, _, rfl⟩

theorem flowOf_informLocked (c : SipaCore) (evt : SipaEvtType) :
    c.FlowOf (c.informLocked evt).1 := by
  unfold informLocked
  split
  · exact ⟨_, _, _, _, _, rfl⟩
  case h_2 c' hinform => exact flowOf_informEvtToNics hinform

theorem stopQueues_ne (c : SipaCore) : c.stopQueues.2 ≠ .ret 0 := by
  unfold stopQueues
  dsimp only
  split
  · decide
  · decide

/-- A call takes the buffer over, or only does some flow control. -/
theorem sendData_cases (c : SipaCore) (skb : SkBuff) (dst netid intStatus : ℕ) (dma : Option ℕ) :
    (c.Accepts intStatus dma ∧ ∃ a, dma = some a ∧
        c.sendData skb dst netid intStatus dma = c.publish skb dst netid (deviceAddr a)) ∨
      ¬ c.Accepts intStatus dma ∧ (c.sendData skb dst netid intStatus dma).2 ≠ .ret 0 ∧
        c.FlowOf (c.sendData skb dst netid intStatus dma).1 := by
  have hstop : ∀ freeNotifyNet epCoverNet,
      c.FlowOf (stopQueues { c with
        sender :=
          { c.sender with freeNotifyNet := freeNotifyNet, epCoverNet := epCoverNet } }).1 :=
    fun _ _ ↦ FlowOf.trans ⟨_, _, _, _, _, rfl⟩ (flowOf_informLocked _ _)
  unfold sendData Accepts
  split
  case isTrue hcover => exact .inr ⟨fun h ↦ by simp [hcover] at h, nofun, FlowOf.refl c⟩
  case isFalse hcover =>
  split
  case isTrue hstatus => exact .inr ⟨fun h ↦ h.2.1 hstatus, nofun, FlowOf.refl c⟩
  case isFalse hstatus =>
  split
  case isTrue henter =>
    exact .inr ⟨fun h ↦ by simp [henter] at h, stopQueues_ne _, hstop _ _⟩
  case isFalse henter =>
  split
  case isTrue hnotify => exact .inr ⟨fun h ↦ by simp [hnotify] at h, nofun, FlowOf.refl c⟩
  case isFalse hnotify =>
  split
  case isTrue hleft => exact .inr ⟨fun h ↦ h.2.2.2.2.1 hleft, stopQueues_ne _, hstop _ _⟩
  case isFalse hleft =>
  cases dma with
  | none => exact .inr ⟨fun h ↦ by simp at h, stopQueues_ne _, hstop _ _⟩
  | some a =>
    refine .inl ⟨⟨?_, hstatus, ?_, ?_, hleft, rfl⟩, a, rfl, rfl⟩
    · simpa using hcover
    · simpa using henter
    · simpa using hnotify

end SipaCore

namespace UplinkInv

variable {k : ℕ} {s : Uplink}

/-- Flow control keeps the invariant. -/
theorem flow (h : UplinkInv k s) {c : SipaCore} (hc : s.core.FlowOf c) :
    UplinkInv k { s with core := c } := by
  obtain ⟨_, _, _, _, _, rfl⟩ := hc
  exact ⟨h.pointers, h.place, h.entries, h.counted, h.last, h.outstanding, h.distinct, h.mapped,
    h.returned, h.releasing, h.freed, h.accounted, h.nodup, h.known⟩

/-- The thread may come to another place with the same counts. -/
theorem setThread (h : UplinkInv k s) {t : FreeThread} (hiter : t.iter = s.thread.iter)
    (hpassed : t.passed = s.thread.passed) (hcredit : t.uncredited = s.thread.uncredited)
    (hvalid : t.Valid s.core.sendFifo.txWindow.length) :
    UplinkInv k { s with thread := t } := by
  have hpending : Uplink.pending { s with thread := t } = s.pending := by
    simp only [Uplink.pending, hpassed]
  have hheld : Uplink.held { s with thread := t } = s.held := by
    simp only [Uplink.held, hiter]
  have hout : Uplink.outstanding { s with thread := t } = s.outstanding := by
    simp only [Uplink.outstanding, hpending]
  refine ⟨h.pointers, hvalid, h.entries, ?_, ?_, ?_, ?_, ?_, ?_, ?_, h.freed, ?_, h.nodup, h.known⟩
  · simp only [hcredit]
    exact h.counted
  · simp only [hiter]
    exact h.last
  · rw [hout]
    exact h.outstanding
  · rw [hheld]
    exact h.distinct
  · rw [hheld]
    exact h.mapped
  · rw [hpending]
    exact h.returned
  · simp only [hiter]
    exact h.releasing
  · rw [hheld]
    exact h.accounted

/-! ## The hardware -/

/-- One element is moved from a list to the end of the next. -/
theorem perm_append_move {α : Type*} (l₁ l₂ l₃ : List α) (a : α) :
    (l₁ ++ l₂ ++ (l₃ ++ [a])).Perm (l₁ ++ a :: l₂ ++ l₃) := by
  calc l₁ ++ l₂ ++ (l₃ ++ [a])
      = l₁ ++ l₂ ++ l₃ ++ [a] := (List.append_assoc ..).symm
    List.Perm _ (a :: (l₁ ++ l₂ ++ l₃)) := List.perm_append_singleton _ _
    List.Perm _ (l₁ ++ a :: l₂ ++ l₃) := by
        rw [List.append_assoc, List.append_assoc]
        exact List.perm_middle.symm

theorem fetch (h : UplinkInv k s)
    (hne : s.core.sendFifo.regs.rxRptr ≠ s.core.sendFifo.regs.rxWptr) : UplinkInv k s.fetch := by
  have hrx := h.pointers.rxWindow_hwFetch hne
  have hlen : s.fetch.busy.length = s.busy.length + 1 := List.length_append
  refine ⟨?_, h.place, h.entries, h.counted, h.last, ?_, h.distinct, h.mapped, h.returned,
    h.releasing, h.freed, h.accounted, h.nodup, h.known⟩
  · rw [hlen]
    exact h.pointers.hwFetch hne
  · refine List.Perm.trans ?_ h.outstanding
    refine List.Perm.map _ (List.Perm.append_right _ ?_)
    calc s.core.sendFifo.hwFetch.rxWindow ++ (s.busy ++ [s.core.sendFifo.hwNode])
        = s.core.sendFifo.hwFetch.rxWindow ++ s.busy ++ [s.core.sendFifo.hwNode] :=
          (List.append_assoc ..).symm
      List.Perm _ (s.core.sendFifo.hwNode :: (s.core.sendFifo.hwFetch.rxWindow ++ s.busy)) :=
          List.perm_append_singleton _ _
      _ = s.core.sendFifo.rxWindow ++ s.busy := by rw [hrx]; rfl

theorem complete (h : UplinkInv k s) {j : ℕ} (hj : j < s.busy.length) (errCode : ℕ) :
    UplinkInv k (s.complete j errCode) := by
  obtain ⟨i, hi, haddr⟩ := h.exists_sending (x := s.busy[j])
    (List.mem_append_left _ (List.mem_append_right _ (List.getElem_mem hj)))
  obtain ⟨skb, -, hskb⟩ := h.skb_of_held (mem_held_of_sending hi)
  have hmapped : s.mapped s.busy[j].address = some skb := by
    rw [← haddr, h.mapped i (mem_held_of_sending hi), hskb]
  have hlen : (s.busy.eraseIdx j).length = s.busy.length - 1 := by
    rw [List.length_eraseIdx, if_pos hj]
  have heq : s.complete j errCode =
      { s with
        core :=
          { s.core with
            sendFifo := s.core.sendFifo.hwReturn { s.busy[j] with errCode := errCode } }
        busy := s.busy.eraseIdx j
        completed := s.completed ++ [skb] } := by
    simp only [Uplink.complete, List.getElem?_eq_getElem hj, hmapped, Option.toList_some]
  have htx := h.pointers.txWindow_hwReturn { s.busy[j] with errCode := errCode } h.tx_room
  have hpending : (s.complete j errCode).pending =
      s.pending ++ [{ s.busy[j] with errCode := errCode }] := by
    rw [heq]
    simp only [Uplink.pending, htx]
    exact List.drop_append_of_le_length h.place.passed_le
  have hgrow : ∀ skb', skb' ∈ s.completed → skb' ∈ s.completed ++ [skb] :=
    fun _ ↦ List.mem_append_left _
  have hout : (s.complete j errCode).outstanding.Perm (s.core.sender.sendingList.map s.addrOf) := by
    have hbusy := (List.getElem_cons_eraseIdx_perm hj).map NodeDescriptionTag.address
    refine List.Perm.trans ?_ h.outstanding
    simp only [Uplink.outstanding, hpending, List.map_append, List.map_cons, List.map_nil]
      at hbusy ⊢
    rw [heq]
    exact (perm_append_move _ _ _ _).trans ((hbusy.append_left _).append_right _)
  rw [heq] at hpending hout ⊢
  refine ⟨?_, ?_, h.entries, h.counted, h.last, hout, h.distinct, h.mapped, ?_, ?_, ?_,
    h.accounted, h.nodup, h.known⟩
  · rw [hlen]
    exact h.pointers.hwReturn _ (by omega)
  · refine h.place.mono ?_
    rw [htx, List.length_append]
    exact Nat.le_add_right _ _
  · rw [hpending]
    intro x hx
    rcases List.mem_append.mp hx with hx | hx
    · obtain ⟨skb', hdone, hskb'⟩ := h.returned x hx
      exact ⟨skb', hgrow skb' hdone, hskb'⟩
    · rw [List.mem_singleton.mp hx]
      exact ⟨skb, List.mem_append_right _ List.mem_cons_self, hmapped⟩
  · intro i hi
    obtain ⟨skb', hdone, hskb'⟩ := h.releasing i hi
    exact ⟨skb', hgrow skb' hdone, hskb'⟩
  · intro x hx
    obtain ⟨skb', hdone, hskb'⟩ := h.freed x hx
    exact ⟨skb', hgrow skb' hdone, hskb'⟩

/-! ## Sending -/

/-- What a call that takes a buffer over changes. -/
theorem publish_eq {c : SipaCore} {node : ℕ} {free : List ℕ}
    (hfree : c.sender.pairFreeList = node :: free) (skb : SkBuff) (dst netid a : ℕ) :
    c.publish skb dst netid a =
      ({ c with
          sendFifo := ((c.sendFifo.writeRxNode 0 (c.nodeDesc skb dst netid a)).setRxFifoWr 1).1
          sender :=
            { c.sender with
              pairFreeList := free
              sendingList := c.sender.sendingList ++ [node]
              pairCache := Function.update c.sender.pairCache node ⟨some skb, a⟩
              leftCnt := c.sender.leftCnt - 1 } },
        .ret 0) := by
  unfold SipaCore.publish
  rw [hfree]

theorem publish (h : UplinkInv k s) (hk : 2 ≤ k) (hk' : k ≤ 31) {skb : SkBuff}
    (dst netid : ℕ) {a : ℕ} (hleft : s.core.sender.leftCnt ≠ 0) (hskb : skb ∉ s.accepted)
    (hlt : a < 2 ^ 40) (hdistinct : ∀ i ∈ s.held, s.addrOf i ≠ a)
    (hfit : s.core.sendFifo.nextRxWr 1 ≤ 0xFFFF) :
    UplinkInv k
      { s with
        core := (s.core.publish skb dst netid a).1
        mapped := Function.update s.mapped a (some skb)
        accepted := s.accepted ++ [skb] } := by
  obtain ⟨node, free, hfree, hnode, hlast⟩ := h.exists_free hk
  set des := s.core.nodeDesc skb dst netid a with hdes
  have haddress : des.address = a := Nat.mod_eq_of_lt hlt
  have hrx := h.pointers.rxWindow_publish hk' des h.rx_room hfit
  have htx := h.pointers.txWindow_publish hk' des h.rx_room hfit
  have hother : ∀ i ∈ s.held,
      Function.update s.core.sender.pairCache node ⟨some skb, a⟩ i = s.core.sender.pairCache i := by
    intro i hi
    refine Function.update_of_ne ?_ _ _
    rintro rfl
    exact hnode hi
  have hself : Function.update s.core.sender.pairCache node ⟨some skb, a⟩ node = ⟨some skb, a⟩ :=
    Function.update_self ..
  rw [publish_eq hfree]
  set s' : Uplink :=
    { s with
      core :=
        { s.core with
          sendFifo := ((s.core.sendFifo.writeRxNode 0 des).setRxFifoWr 1).1
          sender :=
            { s.core.sender with
              pairFreeList := free
              sendingList := s.core.sender.sendingList ++ [node]
              pairCache := Function.update s.core.sender.pairCache node ⟨some skb, a⟩
              leftCnt := s.core.sender.leftCnt - 1 } }
      mapped := Function.update s.mapped a (some skb)
      accepted := s.accepted ++ [skb] } with hs'
  change UplinkInv k s'
  have haddr : ∀ i ∈ s.held, s'.addrOf i = s.addrOf i := fun i hi ↦
    congrArg SkbDmaAddrNode.dmaAddr (hother i hi)
  have hskbOf : ∀ i ∈ s.held, s'.skbOf i = s.skbOf i := fun i hi ↦
    congrArg SkbDmaAddrNode.skb (hother i hi)
  have haddrs : ∀ l : List ℕ, l ⊆ s.held → l.map s'.addrOf = l.map s.addrOf := fun l hl ↦
    List.map_congr_left fun i hi ↦ haddr i (hl hi)
  have hskbs : ∀ l : List ℕ, l ⊆ s.held → l.map s'.skbOf = l.map s.skbOf := fun l hl ↦
    List.map_congr_left fun i hi ↦ hskbOf i (hl hi)
  have haddrNew : s'.addrOf node = a := congrArg SkbDmaAddrNode.dmaAddr hself
  have hskbNew : s'.skbOf node = some skb := congrArg SkbDmaAddrNode.skb hself
  have hheld : s'.held = s.held ++ [node] := (List.append_assoc ..).symm
  have hpending : s'.pending = s.pending := congrArg (List.drop s.thread.passed) htx
  have hmap : ∀ b, b ≠ a → s'.mapped b = s.mapped b := fun b hb ↦ Function.update_of_ne hb _ _
  refine ⟨?pointers, ?place, ?entries, ?counted, hlast, ?outstanding, ?distinct, ?mapped, ?returned,
    ?releasing, h.freed, ?accounted, ?nodup, ?known⟩
  case pointers => exact h.pointers.publish hk' des h.rx_room hfit
  case place => exact h.place.mono (congrArg List.length htx).ge
  case entries =>
    have hperm := h.entries
    rw [hfree] at hperm
    refine List.Perm.trans ?_ hperm
    calc free ++ (s.core.sender.sendingList ++ [node])
        = free ++ s.core.sender.sendingList ++ [node] := (List.append_assoc ..).symm
      List.Perm _ (node :: (free ++ s.core.sender.sendingList)) := List.perm_append_singleton _ _
  case counted =>
    have hcount := h.counted
    have hlen : s'.core.sender.sendingList.length = s.core.sender.sendingList.length + 1 :=
      List.length_append
    have hcredit : s'.thread.uncredited = s.thread.uncredited := rfl
    have hleft' : s'.core.sender.leftCnt = s.core.sender.leftCnt - 1 := rfl
    omega
  case outstanding =>
    have hsending : s'.core.sender.sendingList.map s'.addrOf =
        s.core.sender.sendingList.map s.addrOf ++ [a] := by
      rw [← haddrs _ (List.subset_append_right _ _), ← haddrNew]
      exact List.map_append
    have hrx' : s'.core.sendFifo.rxWindow = s.core.sendFifo.rxWindow ++ [des] := hrx
    rw [hsending]
    refine List.Perm.trans ?_ (h.outstanding.append_right [a])
    simp only [Uplink.outstanding, hpending, hrx', List.map_append, List.map_cons, haddress,
      List.append_assoc, List.singleton_append]
    refine List.Perm.append_left _ ?_
    rw [← List.append_assoc (s.busy.map _)]
    exact (List.perm_append_singleton a _).symm
  case distinct =>
    rw [hheld, List.map_append, haddrs _ (List.Subset.refl _), List.map_singleton, haddrNew]
    refine List.nodup_append.mpr ⟨h.distinct, List.nodup_singleton a, ?_⟩
    intro b hb c hc
    obtain ⟨i, hi, rfl⟩ := List.mem_map.mp hb
    rw [List.mem_singleton.mp hc]
    exact hdistinct i hi
  case mapped =>
    rw [hheld]
    intro i hi
    rcases List.mem_append.mp hi with hi | hi
    · rw [haddr i hi, hskbOf i hi, hmap _ (hdistinct i hi)]
      exact h.mapped i hi
    · rw [List.mem_singleton.mp hi, haddrNew, hskbNew]
      exact Function.update_self ..
  case returned =>
    rw [hpending]
    intro x hx
    obtain ⟨i, hi, hxi⟩ := h.exists_sending_of_pending hx
    rw [hmap _ (hxi ▸ hdistinct i (mem_held_of_sending hi))]
    exact h.returned x hx
  case releasing =>
    intro i hi
    have hmem : i ∈ s.held := List.mem_append_left _ (Option.mem_toList.mpr hi)
    rw [hskbOf i hmem]
    exact h.releasing i hi
  case accounted =>
    have haccepted : s'.accepted.map some = s.accepted.map some ++ [some skb] := List.map_append
    rw [hheld, List.map_append, hskbs _ (List.Subset.refl _), List.map_singleton, hskbNew,
      haccepted, ← List.append_assoc]
    exact h.accounted.append_right _
  case nodup =>
    refine List.nodup_append.mpr ⟨h.nodup, List.nodup_singleton skb, ?_⟩
    rintro b hb c hc rfl
    rw [List.mem_singleton.mp hc] at hb
    exact hskb hb
  case known =>
    intro i skb' hi
    by_cases hnode' : i = node
    · rw [hnode', hskbNew] at hi
      cases hi
      exact List.mem_append_right _ List.mem_cons_self
    · have hskb' : s'.skbOf i = s.skbOf i :=
        congrArg SkbDmaAddrNode.skb (Function.update_of_ne hnode' _ _)
      rw [hskb'] at hi
      exact List.mem_append_left _ (h.known i skb' hi)

/-! ## The free thread -/

/-- The free thread finds the entry of the next descriptor. -/
theorem checkAgain_eq (h : UplinkInv k s) (hk : k ≤ 31) {p : FreePass} {retryCnt : ℕ}
    (hthread : s.thread = .checkAgain p retryCnt) :
    ∃ x iter rest, s.pending = x :: s.core.sendFifo.txWindow.drop (p.i + 1) ∧
      s.addrOf iter = x.address ∧ s.core.sender.sendingList.Perm (iter :: rest) ∧
      s.core.checkAgain p retryCnt =
        ({ s.core with
            sender :=
              { s.core.sender with
                sendingList := rest
                pairFreeList := s.core.sender.pairFreeList ++ [iter] } },
          .unmapping p iter) := by
  have hplace := h.place
  rw [hthread] at hplace
  have hi : p.i < s.core.sendFifo.txWindow.length := hplace.1.trans_le hplace.2.1
  have hnode := h.pointers.getTxFifoRp_eq hk hi
  have hpending : s.pending =
      s.core.sendFifo.txWindow[p.i] :: s.core.sendFifo.txWindow.drop (p.i + 1) := by
    simp only [Uplink.pending, hthread]
    exact List.drop_eq_getElem_cons hi
  obtain ⟨i, hsending, haddr⟩ := h.exists_sending_of_pending (x := s.core.sendFifo.txWindow[p.i])
    (hpending ▸ List.mem_cons_self)
  have hne : s.core.sender.sendingList ≠ [] := List.ne_nil_of_mem hsending
  unfold SipaCore.checkAgain
  rw [if_neg hne, hnode]
  dsimp only
  split
  case h_1 iter rest hpop =>
    have hfits := fits_of_popFirst hpop
    exact ⟨_, iter, rest, hpending, beq_iff_eq.mp hfits, perm_of_popFirst hpop, rfl⟩
  case h_2 hpop =>
    have hnone := popFirst_eq_none_iff.mp hpop i hsending
    simp only [beq_eq_false_iff_ne] at hnone
    exact absurd haddr hnone

/-- An entry is moved back, and its buffer is about to be freed. -/
theorem checkAgain (h : UplinkInv k s) (hk : k ≤ 31) {p : FreePass} {retryCnt : ℕ}
    (hthread : s.thread = .checkAgain p retryCnt) :
    UplinkInv k
      { s with
        core := (s.core.checkAgain p retryCnt).1
        thread := (s.core.checkAgain p retryCnt).2 } := by
  obtain ⟨x, iter, rest, hpending, haddr, hperm, heq⟩ := h.checkAgain_eq hk hthread
  have hplace := h.place
  have hcount := h.counted
  have hout := h.outstanding
  have hheld : s.held = s.core.sender.sendingList := by
    rw [Uplink.held, hthread]
    rfl
  have hmem : ∀ i ∈ iter :: rest, i ∈ s.held := fun i hi ↦ hheld ▸ hperm.mem_iff.mpr hi
  obtain ⟨skb, hdone, hmapped⟩ := h.returned x (hpending ▸ List.mem_cons_self)
  have hskb : s.skbOf iter = some skb := by
    rw [← h.mapped iter (hmem iter List.mem_cons_self), haddr, hmapped]
  rw [heq]
  rw [hthread] at hplace hcount
  refine ⟨h.pointers, hplace, ?entries, ?counted, ?last, ?outstanding, ?distinct, ?mapped,
    ?returned, ?releasing, h.freed, ?accounted, h.nodup, h.known⟩
  case entries =>
    refine List.Perm.trans ?_ h.entries
    have hmove : (s.core.sender.pairFreeList ++ [iter] ++ rest) =
        s.core.sender.pairFreeList ++ (iter :: rest) := List.append_cons .. |>.symm
    rw [hmove]
    exact hperm.symm.append_left _
  case counted =>
    have hlen := hperm.length_eq
    simp only [FreeThread.uncredited, List.length_cons] at hcount hlen ⊢
    omega
  case last =>
    rintro i ⟨⟩
    exact ⟨_, rfl⟩
  case outstanding =>
    have hcons : (s.core.sendFifo.rxWindow ++ s.busy ++
        x :: s.core.sendFifo.txWindow.drop (p.i + 1)).map NodeDescriptionTag.address |>.Perm
          (x.address :: (s.core.sendFifo.rxWindow ++ s.busy ++
            s.core.sendFifo.txWindow.drop (p.i + 1)).map NodeDescriptionTag.address) :=
      List.perm_middle.map _
    rw [Uplink.outstanding, hpending] at hout
    have hboth := hcons.symm.trans (hout.trans (hperm.map s.addrOf))
    rw [List.map_cons, haddr] at hboth
    exact hboth.cons_inv
  case distinct =>
    have hnodup := h.distinct
    rw [hheld] at hnodup
    exact (hperm.map s.addrOf).nodup_iff.mp hnodup
  case mapped => exact fun i hi ↦ h.mapped i (hmem i hi)
  case returned => exact fun y hy ↦ h.returned y (hpending ▸ List.mem_cons_of_mem _ hy)
  case releasing =>
    rintro i ⟨⟩
    exact ⟨skb, hdone, hskb⟩
  case accounted =>
    have haccount := h.accounted
    rw [hheld] at haccount
    exact ((hperm.map s.skbOf).symm.append_left _).trans haccount

theorem freeStep_unmapping {intStatus : ℕ} {p : FreePass} {iter : ℕ}
    (hthread : s.thread = .unmapping p iter) : s.freeStep intStatus =
      { s with
        thread := { p with i := p.i + 1, successCnt := p.successCnt + 1 : FreePass }.loop
        mapped := Function.update s.mapped (s.addrOf iter) none
        freed := s.freed ++ [s.skbOf iter] } := by
  simp only [Uplink.freeStep, hthread, FreeThread.iter, SipaCore.freeStep]

/-- The buffer of an entry is freed. -/
theorem unmapping (h : UplinkInv k s) {intStatus : ℕ} {p : FreePass} {iter : ℕ}
    (hthread : s.thread = .unmapping p iter) : UplinkInv k (s.freeStep intStatus) := by
  rw [freeStep_unmapping hthread]
  have hplace := h.place
  have hcount := h.counted
  have hheld : s.held = iter :: s.core.sender.sendingList := by
    rw [Uplink.held, hthread]
    rfl
  rw [hthread] at hplace hcount
  obtain ⟨hlt, hnum, hsucc⟩ := hplace
  have hhead := loopHead (p := { p with i := p.i + 1, successCnt := p.successCnt + 1 })
    (Nat.succ_le_of_lt hlt) hnum (congrArg Nat.succ hsucc)
  have hnodup := h.distinct
  rw [hheld, List.map_cons, List.nodup_cons] at hnodup
  have hpending : s.core.sendFifo.txWindow.drop (p.i + 1) = s.pending := by
    simp only [Uplink.pending, hthread]
    rfl
  have hother : ∀ i ∈ s.core.sender.sendingList,
      Function.update s.mapped (s.addrOf iter) none (s.addrOf i) = s.mapped (s.addrOf i) := by
    intro i hi
    refine Function.update_of_ne ?_ _ _
    intro heq
    exact hnodup.1 (heq ▸ List.mem_map_of_mem hi)
  refine ⟨h.pointers, hhead.valid, h.entries, ?counted, ?last, ?outstanding, ?distinct, ?mapped,
    ?returned, ?releasing, ?freed, ?accounted, h.nodup, h.known⟩
  case counted =>
    simp only [hhead.uncredited]
    exact hcount
  case last =>
    simp only [hhead.iter]
    rintro _ ⟨⟩
  case outstanding =>
    simp only [Uplink.outstanding, Uplink.pending, hhead.passed, hpending]
    exact h.outstanding
  case distinct =>
    simp only [Uplink.held, hhead.iter]
    exact hnodup.2
  case mapped =>
    simp only [Uplink.held, hhead.iter]
    intro i hi
    exact (hother i hi).trans (h.mapped i (mem_held_of_sending hi))
  case returned =>
    simp only [Uplink.pending, hhead.passed, hpending]
    intro x hx
    obtain ⟨i, hi, haddr⟩ := h.exists_sending_of_pending hx
    rw [← haddr, hother i hi, haddr]
    exact h.returned x hx
  case releasing =>
    simp only [hhead.iter]
    rintro _ ⟨⟩
  case freed =>
    intro x hx
    rcases List.mem_append.mp hx with hx | hx
    · exact h.freed x hx
    · rw [List.mem_singleton.mp hx]
      exact h.releasing iter (by rw [hthread]; rfl)
  case accounted =>
    have haccount := h.accounted
    rw [hheld, List.map_cons] at haccount
    simp only [Uplink.held, hhead.iter, List.append_assoc]
    exact haccount

/-- The pass tells the hardware how far it came. -/
theorem setRp (h : UplinkInv k s) (hk : k ≤ 31) {p : FreePass} (hthread : s.thread = .setRp p) :
    UplinkInv k
      { s with
        core := { s.core with sendFifo := (s.core.sendFifo.setTxFifoRp p.i).1 }
        thread := .crediting p } := by
  have hplace := h.place
  have hcount := h.counted
  rw [hthread] at hplace hcount
  have htx := h.pointers.txWindow_setTxFifoRp hk hplace.1
  have hrx := h.pointers.rxWindow_setTxFifoRp hk hplace.1
  have hpending : s.core.sendFifo.txWindow.drop p.i = s.pending := by
    simp only [Uplink.pending, hthread]
    rfl
  have hheld : s.held = s.core.sender.sendingList := by
    rw [Uplink.held, hthread]
    rfl
  have hdistinct := h.distinct
  have hmapped := h.mapped
  have haccount := h.accounted
  rw [hheld] at hdistinct hmapped haccount
  refine ⟨h.pointers.setTxFifoRp hk hplace.1, trivial, h.entries, hcount, (by rintro _ ⟨⟩), ?_,
    hdistinct, hmapped, ?_, (by rintro _ ⟨⟩), h.freed, haccount, h.nodup, h.known⟩
  · simp only [Uplink.outstanding, Uplink.pending, htx, hrx, hpending]
    exact h.outstanding
  · simp only [Uplink.pending, htx, hpending]
    exact h.returned

/-- What was freed may be sent again. -/
theorem crediting (h : UplinkInv k s) {p : FreePass} (hthread : s.thread = .crediting p) :
    UplinkInv k
      { s with
        core :=
          { s.core with
            sender := { s.core.sender with leftCnt := s.core.sender.leftCnt + p.successCnt } }
        thread := .freeEnd } := by
  have hcount := h.counted
  have hheld : s.held = s.core.sender.sendingList := by
    rw [Uplink.held, hthread]
    rfl
  have hpending : s.core.sendFifo.txWindow = s.pending := by
    simp only [Uplink.pending, hthread]
    rfl
  have hdistinct := h.distinct
  have hmapped := h.mapped
  have haccount := h.accounted
  have hout := h.outstanding
  have hreturned := h.returned
  rw [hthread] at hcount
  rw [hheld] at hdistinct hmapped haccount
  rw [Uplink.outstanding, ← hpending] at hout
  rw [← hpending] at hreturned
  refine ⟨h.pointers, trivial, h.entries, ?_, (by rintro _ ⟨⟩), hout, hdistinct, hmapped, hreturned,
    (by rintro _ ⟨⟩),
    h.freed, haccount, h.nodup, h.known⟩
  simp only [FreeThread.uncredited] at hcount ⊢
  omega

theorem freeStep_eq (intStatus : ℕ) {t : FreeThread} (hthread : s.thread = t)
    (hiter : t.iter = none) :
    s.freeStep intStatus =
      { s with
        core := (s.core.freeStep intStatus t).1
        thread := (s.core.freeStep intStatus t).2 } := by
  simp only [Uplink.freeStep, hthread, hiter]

/-- Any step of the free thread. -/
theorem freeStep (h : UplinkInv k s) (hk : k ≤ 31) (intStatus : ℕ) :
    UplinkInv k (s.freeStep intStatus) := by
  -- between two passes no count matters
  have hidle : ∀ t t' : FreeThread, s.thread = t → t.iter = none → t.passed = 0 →
      t.uncredited = 0 → t'.iter = none → t'.passed = 0 → t'.uncredited = 0 →
      t'.Valid s.core.sendFifo.txWindow.length → UplinkInv k { s with thread := t' } := by
    rintro t t' rfl hiter hpassed hcredit hiter' hpassed' hcredit' hvalid
    exact h.setThread (hiter'.trans hiter.symm) (hpassed'.trans hpassed.symm)
      (hcredit'.trans hcredit.symm) hvalid
  cases hthread : s.thread with
  | waiting =>
    have hhead := loopHead (n := s.core.sendFifo.txWindow.length)
      (p := ⟨0, s.core.sendFifo.recvNodeFromTxFifo, 0, 0⟩) (Nat.zero_le _)
      h.pointers.recvNodeFromTxFifo_eq.le rfl
    rw [freeStep_eq intStatus hthread rfl]
    exact hidle _ _ hthread rfl rfl rfl hhead.iter hhead.passed hhead.uncredited hhead.valid
  | checkAgain p retryCnt =>
    rw [freeStep_eq intStatus hthread rfl]
    exact h.checkAgain hk hthread
  | unmapping p iter => exact h.unmapping hthread
  | setRp p =>
    rw [freeStep_eq intStatus hthread rfl]
    exact h.setRp hk hthread
  | crediting p =>
    rw [freeStep_eq intStatus hthread rfl]
    exact h.crediting hthread
  | freeEnd =>
    have hcover : ∀ exitFlow, UplinkInv k { s with thread := .checkCover exitFlow } :=
      fun _ ↦ hidle _ _ hthread rfl rfl rfl rfl rfl rfl trivial
    rw [freeStep_eq intStatus hthread rfl]
    dsimp only [SipaCore.freeStep]
    split
    · exact (hcover true).flow ⟨_, _, _, _, _, rfl⟩
    · exact hcover false
  | checkCover exitFlow =>
    have hleaving : UplinkInv k { s with thread := .leaving } :=
      hidle _ _ hthread rfl rfl rfl rfl rfl rfl trivial
    rw [freeStep_eq intStatus hthread rfl]
    dsimp only [SipaCore.freeStep]
    split
    · exact hleaving.flow ⟨_, _, _, _, _, rfl⟩
    · cases exitFlow with
      | true => exact hleaving
      | false => exact hidle _ _ hthread rfl rfl rfl rfl rfl rfl trivial
  | leaving =>
    have hflow := SipaCore.flowOf_informLocked s.core .leaveFlowctrl
    have hwaiting : UplinkInv k { s with thread := .waiting } :=
      hidle _ _ hthread rfl rfl rfl rfl rfl rfl trivial
    have hspins : UplinkInv k { s with thread := .spins } :=
      hidle _ _ hthread rfl rfl rfl rfl rfl rfl trivial
    rw [freeStep_eq intStatus hthread rfl]
    dsimp only [SipaCore.freeStep]
    split
    · exact hwaiting.flow hflow
    · exact hspins.flow hflow
  | spins =>
    rw [freeStep_eq intStatus hthread rfl]
    exact hidle _ _ hthread rfl rfl rfl rfl rfl rfl trivial

/-- A step whose pointer fits keeps the invariant. -/
theorem next (h : UplinkInv k s) (hk : 2 ≤ k) (hk' : k ≤ 31) {e : UplinkEvent}
    (henabled : s.Enabled e) (hfits : s.Fits e) : UplinkInv k (s.next e) := by
  cases e with
  | send skb dst netid intStatus dma =>
    obtain ⟨-, hskb, haddr⟩ := henabled
    rcases s.core.sendData_cases skb dst netid intStatus dma with
      ⟨haccepts, a, rfl, heq⟩ | ⟨-, hret, hflow⟩
    · obtain ⟨node, free, hfree, -⟩ := h.exists_free hk
      have hret : (s.core.publish skb dst netid (SipaCore.deviceAddr a)).2 = .ret 0 := by
        rw [publish_eq hfree]
      obtain ⟨hlt, hdistinct⟩ := haddr a rfl
      have hkept := h.publish hk hk' dst netid haccepts.2.2.2.2.1 hskb hlt hdistinct
        (hfits haccepts)
      simpa only [Uplink.next, Uplink.send, heq, hret, if_true, Option.getD_some] using hkept
    · have hkept := h.flow hflow
      simpa only [Uplink.next, Uplink.send, hret, if_false] using hkept
  | free intStatus => exact h.freeStep hk' intStatus
  | fetch => exact h.fetch henabled
  | complete j errCode => exact h.complete henabled errCode

/-- The invariant holds in every state that is reached while the pointers fit. -/
theorem of_reach (hk : 2 ≤ k) (hk' : k ≤ 31) {cur : ℕ} {nic : ℕ → Option SipaNic}
    {nicList : List ℕ} (hs : (Uplink.system (2 ^ k) cur nic nicList).Reach Uplink.Fits s) :
    UplinkInv k s :=
  hs.invariant (UplinkInv.init k cur nic nicList) fun _ _ h henabled hfits ↦
    h.next hk hk' henabled hfits

end UplinkInv

end Wwan.Sipa
