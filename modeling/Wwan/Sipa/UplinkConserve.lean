import Wwan.Sipa.UplinkSteps

/-!
# The uplink loses no buffer

Every state that is reached while the pointers fit their registers is `Conserved`. That a buffer
can still be freed takes more: `SIPA_LEAVE_FLOWCTRL` that comes while the other reason holds returns
with `nic_lock` held, and the next who takes it spins with `send_lock` held, so that the free thread
does not get further. In runs where this does not happen the uplink `Drains`.
-/

namespace Wwan.Sipa

open Wwan

namespace UplinkInv

variable {k : ℕ} {s : Uplink}

/-- The invariant contains what is required of a state. -/
theorem conserved (h : UplinkInv k s) (hk : 2 ≤ k) : s.Conserved (2 ^ k) where
  entries := h.entries
  counted := h.counted
  once := by
    intro skb hskb
    have hcount := h.accounted.count_eq (some skb)
    rw [List.count_append, List.count_map_of_injective _ _ (Option.some_injective _),
      List.count_eq_one_of_mem h.nodup hskb] at hcount
    exact hcount
  freed := by
    intro x hx
    obtain ⟨skb, hdone, rfl⟩ := h.freed x hx
    have hmem := h.accounted.mem_iff.mp (List.mem_append_left _ hx)
    exact ⟨skb, (List.mem_map_of_injective (Option.some_injective _)).mp hmem, rfl, hdone⟩
  held := fun i hi ↦ h.skb_of_held hi
  refused := by
    intro skb dst netid intStatus dma henabled hret i hi
    rcases s.core.sendData_cases skb dst netid intStatus dma with
      ⟨-, a, rfl, heq⟩ | ⟨-, -, _, _, _, _, _, heq⟩
    · obtain ⟨node, free, hfree, -⟩ := h.exists_free hk
      rw [heq, publish_eq hfree] at hret
      exact hret rfl
    · simp only [Uplink.send, hret, if_false, Uplink.skbOf, heq] at hi
      exact henabled.2.1 (h.known i skb hi)
  taken := by
    intro intStatus dma _
    obtain ⟨node, free, hfree, hnode, -⟩ := h.exists_free hk
    refine ⟨node, by rw [hfree]; rfl, fun hiter ↦ hnode ?_⟩
    exact List.mem_append_left _ (Option.mem_toList.mpr hiter)

end UplinkInv

/-! ## Draining -/

namespace Uplink

/-- A step that is not a call. -/
def NoSend (_ : Uplink) (e : UplinkEvent) : Prop :=
  ∀ skb dst netid intStatus dma, e ≠ .send skb dst netid intStatus dma

/-- What the free thread does not touch in its loop. -/
structure Keeps (s t : Uplink) : Prop where
  sendFifo : t.core.sendFifo = s.core.sendFifo
  nicLock : t.core.sender.nicLock = s.core.sender.nicLock
  sendLock : t.core.sender.sendLock = s.core.sender.sendLock
  busy : t.busy = s.busy
  accepted : t.accepted = s.accepted

variable {k depth cur : ℕ} {nic : ℕ → Option SipaNic} {nicList : List ℕ} {s : Uplink}

theorem leads_free {t : Uplink} (intStatus : ℕ) (henabled : s.Enabled (.free intStatus))
    (h : (system depth cur nic nicList).Leads NoSend (s.freeStep intStatus) t) :
    (system depth cur nic nicList).Leads NoSend s t :=
  .head (.free intStatus) henabled (by rintro _ _ _ _ _ ⟨⟩) h

theorem enabled_free {intStatus : ℕ} (hlock : s.core.sender.sendLock = false)
    (hthread : s.thread ≠ .spins) : s.Enabled (.free intStatus) := by
  cases h : s.thread with
  | spins => exact absurd h hthread
  | checkAgain p retryCnt =>
    simp only [Enabled, h]
    exact hlock
  | leaving =>
    simp only [Enabled, h]
    exact hlock
  | _ => simp only [Enabled, h]

/-- The rest of the loop of a pass. -/
theorem leads_setRp (hk : k ≤ 31) {n : ℕ} (h : UplinkInv k s)
    (hlock : s.core.sender.sendLock = false) {p : FreePass} (hle : p.i ≤ p.num)
    (hn : p.num - p.i = n) (hthread : s.thread = p.loop ∨ ∃ r, s.thread = .checkAgain p r) :
    ∃ t p', (system depth cur nic nicList).Leads NoSend s t ∧ UplinkInv k t ∧ s.Keeps t ∧
      t.thread = .setRp p' ∧ p'.i = p.num := by
  induction n generalizing s p with
  | zero =>
    have hnot : ¬ p.i < p.num := by omega
    rcases hthread with hthread | ⟨r, hthread⟩
    · rw [FreePass.loop, if_neg hnot] at hthread
      exact ⟨s, p, .refl s, h, ⟨rfl, rfl, rfl, rfl, rfl⟩, hthread, by omega⟩
    · have hplace := h.place
      rw [hthread] at hplace
      exact absurd hplace.1 hnot
  | succ n ih =>
    have hcheck : ∃ r, s.thread = .checkAgain p r := by
      rcases hthread with hthread | hthread
      · rw [FreePass.loop, if_pos (by omega)] at hthread
        exact ⟨_, hthread⟩
      · exact hthread
    obtain ⟨r, hcheck⟩ := hcheck
    obtain ⟨x, iter, rest, -, -, -, heq⟩ := h.checkAgain_eq hk hcheck
    have hfirst := UplinkInv.freeStep_eq 0 hcheck rfl
    rw [show s.core.freeStep 0 (.checkAgain p r) = s.core.checkAgain p r from rfl, heq] at hfirst
    have hinv := h.freeStep hk 0
    have hinv' := hinv.freeStep hk 0
    rw [hfirst] at hinv hinv'
    obtain ⟨t, p', hleads, ht, hkeeps, hthread', hp'⟩ := ih hinv' hlock
      (p := { p with i := p.i + 1, successCnt := p.successCnt + 1 }) (by simp only; omega)
      (by simp only; omega) (.inl rfl)
    refine ⟨t, p', ?_, ht, ⟨hkeeps.sendFifo, hkeeps.nicLock, hkeeps.sendLock, hkeeps.busy,
      hkeeps.accepted⟩, hthread', hp'⟩
    refine leads_free 0 (enabled_free hlock (by rw [hcheck]; rintro ⟨⟩)) ?_
    rw [hfirst]
    exact leads_free 0 trivial hleads

theorem informLocked_fst {c : SipaCore} (hnic : c.sender.nicLock = false) (evt : SipaEvtType) :
    (c.informLocked evt).1.sender.sendLock = c.sender.sendLock ∧ (c.informLocked evt).2 = true := by
  unfold SipaCore.informLocked SipaCore.informEvtToNics
  rw [if_neg (by simp [hnic])]
  cases evt with
  | enterFlowctrl => exact ⟨rfl, rfl⟩
  | leaveFlowctrl =>
    dsimp only
    by_cases hfree : c.sender.freeNotifyNet = true
    · rw [if_pos hfree]
      exact ⟨rfl, rfl⟩
    · rw [if_neg hfree]
      by_cases hcover : c.sender.epCoverNet = true
      · rw [if_pos hcover]
        exact ⟨rfl, rfl⟩
      · rw [if_neg hcover]
        exact ⟨rfl, rfl⟩

/-- The free thread can come to the end of its pass. -/
def Finishes (S : System Uplink UplinkEvent) (k : ℕ) (s : Uplink) : Prop :=
  ∃ t, S.Leads NoSend s t ∧ UplinkInv k t ∧ t.core.sender.sendLock = false ∧
    t.accepted = s.accepted ∧ t.thread = .waiting

/-- A step that leads to a state from which it can. -/
theorem finishes_of_step (hk : k ≤ 31) (h : UplinkInv k s) (hlock : s.core.sender.sendLock = false)
    (hthread : s.thread ≠ .spins) {t : Uplink} (hstep : s.freeStep 0 = t)
    (haccepted : t.accepted = s.accepted)
    (hnext : UplinkInv k t → Finishes (system depth cur nic nicList) k t) :
    Finishes (system depth cur nic nicList) k s := by
  subst hstep
  obtain ⟨u, hleads, hu, hlock', haccepted', hwaiting⟩ := hnext (h.freeStep hk 0)
  exact ⟨u, leads_free 0 (enabled_free hlock hthread) hleads, hu, hlock',
    haccepted'.trans haccepted, hwaiting⟩

section Pass

variable (hk : k ≤ 31) (h : UplinkInv k s) (hlock : s.core.sender.sendLock = false)
  (hnic : s.core.sender.nicLock = false)

include hk h hlock hnic

/-- The last steps of a pass, if `nic_lock` is free. -/
theorem finishes_of_leaving (hthread : s.thread = .leaving) :
    Finishes (system depth cur nic nicList) k s := by
  obtain ⟨hsend, hreturned⟩ := informLocked_fst hnic .leaveFlowctrl
  refine finishes_of_step hk h hlock (by rw [hthread]; rintro ⟨⟩)
    (UplinkInv.freeStep_eq 0 hthread rfl) rfl fun ht ↦ ⟨_, .refl _, ht, hsend.trans hlock, rfl, ?_⟩
  simp only [SipaCore.freeStep, hreturned, if_true]

theorem finishes_of_checkCover {exitFlow : Bool} (hthread : s.thread = .checkCover exitFlow) :
    Finishes (system depth cur nic nicList) k s := by
  have heq := UplinkInv.freeStep_eq 0 hthread rfl
  have hstep : s.core.freeStep 0 (.checkCover exitFlow) =
      (s.core, if exitFlow then .leaving else .waiting) := by
    simp [SipaCore.freeStep, exitFlowCtrl]
  rw [hstep] at heq
  refine finishes_of_step hk h hlock (by rw [hthread]; rintro ⟨⟩) heq rfl fun ht ↦ ?_
  cases exitFlow with
  | false => exact ⟨_, .refl _, ht, hlock, rfl, rfl⟩
  | true => exact finishes_of_leaving hk ht hlock hnic rfl

theorem finishes_of_freeEnd (hthread : s.thread = .freeEnd) :
    Finishes (system depth cur nic nicList) k s := by
  have hstep : ∃ c exitFlow, s.core.freeStep 0 .freeEnd = (c, .checkCover exitFlow) ∧
      c.sender.sendLock = false ∧ c.sender.nicLock = false := by
    dsimp only [SipaCore.freeStep]
    split
    · exact ⟨_, _, rfl, hlock, hnic⟩
    · exact ⟨_, _, rfl, hlock, hnic⟩
  obtain ⟨c, exitFlow, hstep, hlock', hnic'⟩ := hstep
  have heq := UplinkInv.freeStep_eq 0 hthread rfl
  rw [hstep] at heq
  exact finishes_of_step hk h hlock (by rw [hthread]; rintro ⟨⟩) heq rfl fun ht ↦
    finishes_of_checkCover hk ht hlock' hnic' rfl

theorem finishes_of_crediting {p : FreePass} (hthread : s.thread = .crediting p) :
    Finishes (system depth cur nic nicList) k s :=
  finishes_of_step hk h hlock (by rw [hthread]; rintro ⟨⟩) (UplinkInv.freeStep_eq 0 hthread rfl)
    rfl fun ht ↦ finishes_of_freeEnd hk ht hlock hnic rfl

theorem finishes_of_setRp {p : FreePass} (hthread : s.thread = .setRp p) :
    Finishes (system depth cur nic nicList) k s :=
  finishes_of_step hk h hlock (by rw [hthread]; rintro ⟨⟩) (UplinkInv.freeStep_eq 0 hthread rfl)
    rfl fun ht ↦ finishes_of_crediting hk ht hlock hnic rfl

/-- From the loop. -/
theorem finishes_of_loop {p : FreePass} (hle : p.i ≤ p.num)
    (hthread : s.thread = p.loop ∨ ∃ r, s.thread = .checkAgain p r) :
    Finishes (system depth cur nic nicList) k s := by
  obtain ⟨t, p', hleads, ht, hkeeps, hthread', -⟩ := leads_setRp hk h hlock hle rfl hthread
  obtain ⟨u, hleads', hu, hlock', haccepted, hwaiting⟩ := finishes_of_setRp hk ht
    (hkeeps.sendLock.trans hlock) (hkeeps.nicLock.trans hnic) hthread'
  exact ⟨u, hleads.trans hleads', hu, hlock', haccepted.trans hkeeps.accepted, hwaiting⟩

/-- The free thread comes to the end of its pass, if `nic_lock` is free. -/
theorem finishes (hspins : s.thread ≠ .spins) : Finishes (system depth cur nic nicList) k s := by
  have hplace := h.place
  cases hthread : s.thread with
  | waiting => exact ⟨s, .refl s, h, hlock, rfl, hthread⟩
  | checkAgain p r =>
    rw [hthread] at hplace
    exact finishes_of_loop hk h hlock hnic hplace.1.le (.inr ⟨r, hthread⟩)
  | unmapping p iter =>
    rw [hthread] at hplace
    exact finishes_of_step hk h hlock hspins (UplinkInv.freeStep_unmapping hthread) rfl fun ht ↦
      finishes_of_loop (p := { p with i := p.i + 1, successCnt := p.successCnt + 1 }) hk ht hlock
        hnic hplace.1 (.inl rfl)
  | setRp p => exact finishes_of_setRp hk h hlock hnic hthread
  | crediting p => exact finishes_of_crediting hk h hlock hnic hthread
  | freeEnd => exact finishes_of_freeEnd hk h hlock hnic hthread
  | checkCover exitFlow => exact finishes_of_checkCover hk h hlock hnic hthread
  | leaving => exact finishes_of_leaving hk h hlock hnic hthread
  | spins => exact absurd hthread hspins

end Pass

/-- The hardware returns what it has fetched. -/
theorem leads_returned {n : ℕ} (h : UplinkInv k s) (hn : s.busy.length = n) :
    ∃ t, (system depth cur nic nicList).Leads NoSend s t ∧ UplinkInv k t ∧
      t.core.sender = s.core.sender ∧ t.core.sendFifo.rxWindow = s.core.sendFifo.rxWindow ∧
      t.accepted = s.accepted ∧ t.thread = s.thread ∧ t.busy = [] := by
  induction n generalizing s with
  | zero =>
    exact ⟨s, .refl s, h, rfl, rfl, rfl, rfl, List.eq_nil_of_length_eq_zero hn⟩
  | succ n ih =>
    have hpos : 0 < s.busy.length := by omega
    have heq : s.complete 0 0 =
        { s with
          core :=
            { s.core with
              sendFifo := s.core.sendFifo.hwReturn { s.busy[0] with errCode := 0 } }
          busy := s.busy.eraseIdx 0
          completed := s.completed ++ (s.mapped s.busy[0].address).toList } := by
      simp only [Uplink.complete, List.getElem?_eq_getElem hpos]
    have hinv := h.complete hpos 0
    rw [heq] at hinv
    obtain ⟨t, hleads, ht, hsender, hrx, haccepted, hthread, hbusy⟩ := ih hinv
      (by rw [List.length_eraseIdx, if_pos hpos]; omega)
    refine ⟨t, .head (.complete 0 0) hpos (by rintro _ _ _ _ _ ⟨⟩) ?_, ht, hsender, hrx,
      haccepted, hthread, hbusy⟩
    have hnext : (system depth cur nic nicList).next s (.complete 0 0) = s.complete 0 0 := rfl
    rw [hnext, heq]
    exact hleads

/-- The hardware fetches and returns all that was published. -/
theorem leads_idle {n : ℕ} (h : UplinkInv k s) (hn : s.core.sendFifo.rxWindow.length = n) :
    ∃ t, (system depth cur nic nicList).Leads NoSend s t ∧ UplinkInv k t ∧
      t.core.sender = s.core.sender ∧ t.core.sendFifo.rxWindow = [] ∧
      t.accepted = s.accepted ∧ t.thread = s.thread ∧ t.busy = [] := by
  induction n generalizing s with
  | zero =>
    obtain ⟨t, hleads, ht, hsender, hrx, hrest⟩ := leads_returned h rfl
    rw [List.eq_nil_of_length_eq_zero hn] at hrx
    exact ⟨t, hleads, ht, hsender, hrx, hrest⟩
  | succ n ih =>
    have hne : s.core.sendFifo.regs.rxRptr ≠ s.core.sendFifo.regs.rxWptr := by
      intro heq
      rw [h.pointers.length_rxWindow,
        (Ring.dist_eq_zero_iff h.pointers.rxRptr h.pointers.rxWptr).mpr heq.symm] at hn
      omega
    have hlen := congrArg List.length (h.pointers.rxWindow_hwFetch hne)
    rw [hn, List.length_cons] at hlen
    obtain ⟨t, hleads, ht, hrest⟩ := ih (h.fetch hne) (Nat.succ.inj hlen).symm
    exact ⟨t, .head .fetch hne (by rintro _ _ _ _ _ ⟨⟩) hleads, ht, hrest⟩

/-- All buffers can be freed unless the free thread is, or would be, stuck. -/
theorem drains (hk : k ≤ 31) (h : UplinkInv k s) (hlock : s.core.sender.sendLock = false)
    (hnic : s.core.sender.nicLock = false) (hspins : s.thread ≠ .spins) :
    s.Drains (system depth cur nic nicList) := by
  obtain ⟨t, hleads, ht, hlock', haccepted, hwaiting⟩ :=
    @finishes k depth cur nic nicList s hk h hlock hnic hspins
  obtain ⟨u, hleads', hu, hsender, hrx, haccepted', hthread, hbusy⟩ :=
    @leads_idle k depth cur nic nicList t _ ht rfl
  -- the next pass
  have hwaiting' : u.thread = .waiting := hthread.trans hwaiting
  have hlock'' : u.core.sender.sendLock = false :=
    (congrArg SipaSkbSender.sendLock hsender).trans hlock'
  have heq := UplinkInv.freeStep_eq 0 hwaiting' rfl
  have hinv := hu.freeStep hk 0
  rw [heq] at hinv
  obtain ⟨v, p', hleads'', hv, hkeeps, hsetRp, hp'⟩ :=
    @leads_setRp k depth cur nic nicList _ hk _ hinv hlock'' _ (Nat.zero_le _) rfl (.inl rfl)
  have hstart : (system depth cur nic nicList).Leads NoSend u v := by
    refine leads_free 0 (enabled_free hlock'' (by rw [hwaiting']; rintro ⟨⟩)) ?_
    rw [heq]
    exact hleads''
  obtain ⟨es, hes, rfl⟩ := hleads.trans (hleads'.trans hstart)
  refine ⟨es, hes, ?_⟩
  generalize (system depth cur nic nicList).exec s es = v at *
  -- it has dealt with all descriptors
  have hlen : v.core.sendFifo.txWindow.length = p'.i :=
    (congrArg (fun cfg ↦ cfg.txWindow.length) hkeeps.sendFifo).trans
      (hu.pointers.recvNodeFromTxFifo_eq.symm.trans hp'.symm)
  have hpending : v.pending = [] := by
    simp only [pending, hsetRp, FreeThread.passed]
    rw [← hlen, List.drop_length]
  have hout := hv.length_outstanding
  have hrx' : v.core.sendFifo.rxWindow = [] :=
    (congrArg CmnFifoCfgTag.rxWindow hkeeps.sendFifo).trans hrx
  have hbusy' : v.busy = [] := hkeeps.busy.trans hbusy
  rw [hrx', hbusy', hpending] at hout
  have hheld : v.held = [] := by
    rw [held, hsetRp, List.eq_nil_of_length_eq_zero hout.symm]
    rfl
  have haccount := hv.accounted
  have hsame : v.accepted = s.accepted :=
    hkeeps.accepted.trans (haccepted'.trans haccepted)
  rw [hheld, List.map_nil, List.append_nil, hsame] at haccount
  exact haccount

/-! ## Locks -/

/-- Nobody holds a lock that is not released. -/
structure Unlocked (s : Uplink) : Prop where
  nicLock : s.core.sender.nicLock = false
  sendLock : s.core.sender.sendLock = false
  spins : s.thread ≠ .spins

theorem stopQueues_unlocked {c : SipaCore} (hnic : c.sender.nicLock = false) :
    c.stopQueues.1.sender.nicLock = false ∧
      c.stopQueues.1.sender.sendLock = c.sender.sendLock := by
  have hinform : c.informEvtToNics .enterFlowctrl = some (c.informAll .enterFlowctrl) := by
    unfold SipaCore.informEvtToNics
    rw [if_neg (by simp [hnic])]
  simp only [SipaCore.stopQueues, SipaCore.informLocked, hinform]
  exact ⟨hnic, rfl⟩

/-- A call releases the locks if they are free before it. -/
theorem sendData_unlocked {c : SipaCore} (hnic : c.sender.nicLock = false) (skb : SkBuff)
    (dst netid intStatus : ℕ) (dma : Option ℕ) :
    (c.sendData skb dst netid intStatus dma).1.sender.nicLock = false ∧
      (c.sendData skb dst netid intStatus dma).1.sender.sendLock = c.sender.sendLock := by
  unfold SipaCore.sendData
  split
  · exact ⟨hnic, rfl⟩
  split
  · exact ⟨hnic, rfl⟩
  split
  · exact stopQueues_unlocked hnic
  split
  · exact ⟨hnic, rfl⟩
  split
  · exact stopQueues_unlocked hnic
  cases dma with
  | none => exact stopQueues_unlocked hnic
  | some a =>
    simp only [SipaCore.publish]
    split
    · exact ⟨hnic, rfl⟩
    · exact ⟨hnic, rfl⟩

theorem loop_ne_spins (p : FreePass) : p.loop ≠ .spins := by
  unfold FreePass.loop
  split
  · rintro ⟨⟩
  · rintro ⟨⟩

/-- So does a step of the free thread, unless it wakes the queues too early. -/
theorem freeStep_unlocked (h : s.Unlocked) {intStatus : ℕ} (hleaves : s.Leaves (.free intStatus)) :
    (s.core.freeStep intStatus s.thread).1.sender.nicLock = false ∧
      (s.core.freeStep intStatus s.thread).1.sender.sendLock = false ∧
        (s.core.freeStep intStatus s.thread).2 ≠ .spins := by
  cases hthread : s.thread with
  | waiting => exact ⟨h.nicLock, h.sendLock, loop_ne_spins _⟩
  | checkAgain p r =>
    dsimp only [SipaCore.freeStep, SipaCore.checkAgain]
    split
    · exact ⟨h.nicLock, h.sendLock, by rintro ⟨⟩⟩
    split
    · exact ⟨h.nicLock, h.sendLock, by rintro ⟨⟩⟩
    split
    · exact ⟨h.nicLock, h.sendLock, by rintro ⟨⟩⟩
    · exact ⟨h.nicLock, h.sendLock, loop_ne_spins _⟩
  | unmapping p iter => exact ⟨h.nicLock, h.sendLock, loop_ne_spins _⟩
  | setRp p => exact ⟨h.nicLock, h.sendLock, by rintro ⟨⟩⟩
  | crediting p => exact ⟨h.nicLock, h.sendLock, by rintro ⟨⟩⟩
  | freeEnd =>
    dsimp only [SipaCore.freeStep]
    split
    · exact ⟨h.nicLock, h.sendLock, by rintro ⟨⟩⟩
    · exact ⟨h.nicLock, h.sendLock, by rintro ⟨⟩⟩
  | checkCover exitFlow =>
    dsimp only [SipaCore.freeStep]
    split
    · exact ⟨h.nicLock, h.sendLock, by rintro ⟨⟩⟩
    · cases exitFlow with
      | true => exact ⟨h.nicLock, h.sendLock, by rintro ⟨⟩⟩
      | false => exact ⟨h.nicLock, h.sendLock, by rintro ⟨⟩⟩
  | leaving =>
    obtain ⟨hfree, hcover⟩ := hleaves hthread
    have hinform : s.core.informEvtToNics .leaveFlowctrl =
        some (s.core.informAll .leaveFlowctrl) := by
      unfold SipaCore.informEvtToNics
      rw [if_neg (by simp [h.nicLock])]
      dsimp only
      rw [if_neg (by simp [hfree]), if_neg (by simp [hcover])]
    simp only [SipaCore.freeStep, SipaCore.informLocked, hinform]
    exact ⟨h.nicLock, h.sendLock, by rintro ⟨⟩⟩
  | spins => exact absurd hthread h.spins

theorem Unlocked.next (h : s.Unlocked) {e : UplinkEvent} (hleaves : s.Leaves e) :
    (s.next e).Unlocked := by
  cases e with
  | send skb dst netid intStatus dma =>
    obtain ⟨hnic, hsend⟩ := sendData_unlocked h.nicLock skb dst netid intStatus dma
    simp only [Uplink.next, Uplink.send]
    split
    · exact ⟨hnic, hsend.trans h.sendLock, h.spins⟩
    · exact ⟨hnic, hsend.trans h.sendLock, h.spins⟩
  | free intStatus =>
    obtain ⟨hnic, hsend, hspins⟩ := freeStep_unlocked h hleaves
    simp only [Uplink.next, Uplink.freeStep]
    split
    · exact ⟨hnic, hsend, hspins⟩
    · exact ⟨hnic, hsend, hspins⟩
  | fetch => exact ⟨h.nicLock, h.sendLock, h.spins⟩
  | complete j errCode =>
    simp only [Uplink.next, Uplink.complete]
    split
    · exact h
    · exact ⟨h.nicLock, h.sendLock, h.spins⟩

/-! ## Runs -/

instance decidableEnabled (s : Uplink) (e : UplinkEvent) : Decidable (s.Enabled e) :=
  match e with
  | .send skb _ _ _ dma =>
    inferInstanceAs (Decidable (s.core.sender.sendLock = false ∧ skb ∉ s.accepted ∧
      ∀ a ∈ dma, SipaCore.deviceAddr a < 2 ^ 40 ∧
        ∀ i ∈ s.held, s.addrOf i ≠ SipaCore.deviceAddr a))
  | .free _ =>
    match h : s.thread with
    | .checkAgain _ _ | .leaving =>
      decidable_of_iff (s.core.sender.sendLock = false) (by simp only [Enabled, h])
    | .spins => .isFalse (by simp only [Enabled, h]; exact id)
    | .waiting | .unmapping _ _ | .setRp _ | .crediting _ | .freeEnd | .checkCover _ =>
      .isTrue (by simp only [Enabled, h])
  | .fetch => inferInstanceAs (Decidable (_ ≠ _))
  | .complete j _ => inferInstanceAs (Decidable (j < s.busy.length))

instance (s : Uplink) (e : UplinkEvent) :
    Decidable ((system depth cur nic nicList).enabled s e) := decidableEnabled s e

instance (s : Uplink) (e : UplinkEvent) : Decidable (s.Fits e ∧ s.Leaves e) :=
  match e with
  | .send .. => inferInstanceAs (Decidable ((_ → _) ∧ True))
  | .free _ => inferInstanceAs (Decidable (True ∧ (_ → _)))
  | .fetch => .isTrue ⟨trivial, trivial⟩
  | .complete .. => .isTrue ⟨trivial, trivial⟩

/-- Every reached state is conserved as long as the pointers fit, which they do for a small depth,
and drains as long as the queues are not woken too early. -/
theorem conserved_and_drains (hk : 2 ≤ k) (hk' : k ≤ 31) (cur : ℕ) (nic : ℕ → Option SipaNic)
    (nicList : List ℕ) :
    (∀ s, (system (2 ^ k) cur nic nicList).Reach Fits s → s.Conserved (2 ^ k)) ∧
    (∀ s, (system (2 ^ k) cur nic nicList).Reach (fun s e ↦ s.Fits e ∧ s.Leaves e) s →
      s.Conserved (2 ^ k) ∧ s.Drains (system (2 ^ k) cur nic nicList)) ∧
    (k ≤ 15 → ∀ s, (system (2 ^ k) cur nic nicList).Reach (fun _ _ ↦ True) s →
      (system (2 ^ k) cur nic nicList).Reach Fits s) := by
  refine ⟨fun s hs ↦ (UplinkInv.of_reach hk hk' hs).conserved hk, fun s hs ↦ ?_,
    fun hsmall s hs ↦ ?_⟩
  · have hinv := UplinkInv.of_reach hk hk' (hs.mono fun _ _ h ↦ h.1)
    have hunlocked : s.Unlocked := hs.invariant ⟨rfl, rfl, by rintro ⟨⟩⟩
      fun _ _ h _ hguard ↦ h.next hguard.2
    exact ⟨hinv.conserved hk,
      drains hk' hinv hunlocked.sendLock hunlocked.nicLock hunlocked.spins⟩
  · induction hs with
    | init => exact .init
    | step e _ henabled _ ih =>
      refine ih.step e henabled ?_
      cases e with
      | send skb dst netid intStatus dma =>
        exact fun _ ↦ (UplinkInv.of_reach hk hk' ih).pointers.nextRxWr_le hsmall 1
      | _ => trivial

/-- A buffer, mapped at an address of its own. -/
def sendNth (i intStatus : ℕ) : UplinkEvent :=
  .send ⟨i, 100, 16⟩ 6 0 intStatus (some (4096 * (i + 1)))

/-- Three buffers fill a FIFO of depth 4 and a fourth is refused. Two of them come back, not in
their order, and the free thread frees them. -/
def refusedFourth : List UplinkEvent :=
  [sendNth 0 0, sendNth 1 0, sendNth 2 0, .fetch, .fetch, .fetch, .complete 1 0, .complete 0 0,
    sendNth 3 0] ++ List.replicate 10 (.free 0)

/-- A device that is open. -/
def openNic (i : ℕ) : Option SipaNic := if i = 0 then some ⟨true, false, false⟩ else none

/-- The third buffer is still to be freed, and can be. -/
theorem conserved_and_drains_refusedFourth :
    let S := system (2 ^ 2) 0x10 openNic [0]
    let s := S.exec S.init refusedFourth
    s.accepted.map (·.id) = [0, 1, 2] ∧ s.freed.map (·.map (·.id)) = [some 1, some 0] ∧
      s.core.nic 0 = openNic 0 ∧ s.Conserved (2 ^ 2) ∧ s.Drains S := by
  intro S s
  have hrun := conserved_and_drains (show 2 ≤ 2 by decide) (show 2 ≤ 31 by decide) 0x10 openNic [0]
  have hreach : S.Reach (fun s e ↦ s.Fits e ∧ s.Leaves e) s := System.Reach.init.exec (by decide)
  exact ⟨by decide, by decide, by decide, hrun.2.1 s hreach⟩

/-! ## A queue that is woken too early -/

/-- Three buffers fill a FIFO of depth 4, a fourth stops the queues, and then the endpoint asks to
stop. Two buffers are freed, and the wake-up leaves `nic_lock` held; then the endpoint asks to go
on, and the free thread spins. -/
def earlyWake : List UplinkEvent :=
  [sendNth 0 0, sendNth 1 0, sendNth 2 0, .fetch, .fetch, .fetch, .complete 0 0, .complete 0 0,
    sendNth 3 0, sendNth 4 (2 ^ 19)] ++ List.replicate 10 (.free 0) ++
  List.replicate 6 (.free (2 ^ 20))

/-- Once the free thread spins nothing is freed. -/
theorem freed_of_spins {S : System Uplink UplinkEvent} (hS : S.enabled = Enabled)
    (hS' : S.next = next) (hspins : s.thread = .spins) {es : List UplinkEvent}
    (hes : S.Along NoSend s es) : (S.exec s es).freed = s.freed := by
  induction es generalizing s with
  | nil => rfl
  | cons e es ih =>
    obtain ⟨henabled, hnosend, hes⟩ := hes
    have hstep : (S.next s e).thread = .spins ∧ (S.next s e).freed = s.freed := by
      rw [hS'] at *
      rw [hS] at henabled
      cases e with
      | send skb dst netid intStatus dma => exact absurd rfl (hnosend skb dst netid intStatus dma)
      | free intStatus =>
        simp only [Enabled, hspins] at henabled
      | fetch => exact ⟨hspins, rfl⟩
      | complete j errCode =>
        simp only [next, complete]
        split
        · exact ⟨hspins, rfl⟩
        · exact ⟨hspins, rfl⟩
    exact (ih hstep.1 hes).trans hstep.2

/-- A buffer that was taken over can never be freed. -/
theorem earlyWake_not_drains :
    ¬ ∀ s, (system 4 0x10 (fun _ ↦ none) []).Reach (fun _ _ ↦ True) s →
      s.Conserved 4 ∧ s.Drains (system 4 0x10 (fun _ ↦ none) []) := by
  intro h
  set S := system 4 0x10 (fun _ ↦ none) [] with hS
  have hreach : S.Reach (fun _ _ ↦ True) (S.exec S.init earlyWake) := by
    refine System.Reach.init.exec ?_
    decide
  obtain ⟨-, es, hes, hfreed⟩ := h _ hreach
  have hspins : (S.exec S.init earlyWake).thread = .spins := by decide
  have hlen := hfreed.length_eq
  rw [freed_of_spins rfl rfl hspins hes, List.length_map] at hlen
  exact absurd hlen (by decide)

end Uplink

end Wwan.Sipa
