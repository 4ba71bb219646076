import Wwan.Lib.Transition
import Wwan.Sipa.SkbSend

/-!
# Flow control of SIPA

There are two reasons to stop the queues of the devices: nothing more can be sent
(`free_notify_net`), and the endpoint has asked for it (`ep_cover_net`). Both are set and cleared
in several places, and `flow_ctrl_status` of a device is to say whether one of them holds.

`sipa_inform_evt_to_nics` refuses to wake the queues while a reason holds, and then returns with
`nic_lock` held. `sipa_nic_open` puts a device on the list without looking at the reasons. A run
that comes to neither is in order.
-/

namespace Wwan.Sipa

open Wwan

/-- `-ENOMEM`. -/
def enomem : ℤ := -12

/-- `SIPA_NIC_MAX`. -/
def sipaNicMax : ℕ := 12

/-! ## Operations -/

namespace SipaCore

variable (c : SipaCore)

/-- `sipa_sender_notify_cb` with `SIPA_IRQ_ENTER_FLOW_CTRL`. -/
def notifyEnter : SipaCore × Bool :=
  informLocked { c with sender := { c.sender with epCoverNet := true } } .enterFlowctrl

/-- `sipa_sender_notify_cb` with `SIPA_IRQ_EXIT_FLOW_CTRL`. -/
def notifyExit : SipaCore × Bool :=
  informLocked { c with sender := { c.sender with epCoverNet := false } } .leaveFlowctrl

/-- `sipa_sender_notify_cb`, and whether it returns. -/
def senderNotifyCb (evt : ℕ) : SipaCore × Bool :=
  let (c, returned) := if enterFlowCtrl evt then c.notifyEnter else (c, true)
  if returned ∧ exitFlowCtrl evt then c.notifyExit else (c, returned)

/-- `sipa_skb_sender_add_nic`. -/
def addNic (i : ℕ) : SipaCore :=
  { c with sender := { c.sender with nicList := c.sender.nicList ++ [i] } }

/-- `sipa_nic_open`, and `netif_start_queue` after it in `sipa_eth_open`. `alloc` says whether
`kzalloc` succeeds. -/
def nicOpen (netid : ℕ) (alloc : Bool) : SipaCore × ℤ :=
  if c.remoteReady = false then (c, einval)
  else if netid = sipaNicMax then (c, einval)
  else
    match c.nic netid with
    | some nic =>
      if nic.isOpen then (c, ebusy)
      else
        ({ c with
            nic := Function.update c.nic netid
              (some { nic with isOpen := true, queueStopped := false }) }.addNic netid, netid)
    | none =>
      if alloc then
        ({ c with nic := Function.update c.nic netid (some ⟨true, false, false⟩) }.addNic netid,
          netid)
      else (c, enomem)

/-- The conditions under which `sipa_nic_open` puts a device on the list. -/
def Opens (netid : ℕ) (alloc : Bool) : Prop :=
  c.remoteReady = true ∧ netid ≠ sipaNicMax ∧
    match c.nic netid with
    | some nic => nic.isOpen = false
    | none => alloc = true

/-- `sipa_nic_close`. To delete an entry that is on no list faults while `nic_lock` is held. -/
def nicClose (nicId : ℕ) : SipaCore :=
  match c.nic nicId with
  | none => c
  | some nic =>
    if nicId = sipaNicMax then c
    else
      let c := { c with nic := Function.update c.nic nicId (some { nic with isOpen := false }) }
      if nicId ∈ c.sender.nicList then
        { c with sender := { c.sender with nicList := c.sender.nicList.erase nicId } }
      else { c with sender := { c.sender with nicLock := true } }

end SipaCore

/-- The core, and where the free thread is. -/
structure FlowState where
  core : SipaCore
  thread : FreeThread

inductive FlowEvent
  | send (skb : SkBuff) (dst netid intStatus : ℕ) (dma : Option ℕ)
  | notify (evt : ℕ)
  | /-- A step of the free thread. -/
    free (intStatus : ℕ)
  | nicOpen (netid : ℕ) (alloc : Bool)
  | nicClose (nicId : ℕ)
  | /-- The hardware changes the FIFO. -/
    hw (cfg : CmnFifoCfgTag)

namespace FlowState

variable (s : FlowState)

/-- The state after an event. -/
def next : FlowEvent → FlowState
  | .send skb dst netid intStatus dma =>
    { s with core := (s.core.sendData skb dst netid intStatus dma).1 }
  | .notify evt => { s with core := (s.core.senderNotifyCb evt).1 }
  | .free intStatus =>
    let (core, thread) := s.core.freeStep intStatus s.thread
    ⟨core, thread⟩
  | .nicOpen netid alloc => { s with core := (s.core.nicOpen netid alloc).1 }
  | .nicClose nicId => { s with core := s.core.nicClose nicId }
  | .hw cfg => { s with core := { s.core with sendFifo := cfg } }

/-- Who needs a lock waits until it is free. -/
def Enabled : FlowEvent → Prop
  | .send .. | .notify _ => s.core.sender.sendLock = false
  | .free _ =>
    match s.thread with
    | .checkAgain _ _ | .leaving => s.core.sender.sendLock = false
    | .spins => False
    | _ => True
  | .nicOpen .. | .nicClose _ => s.core.sender.nicLock = false
  | .hw _ => True

/-- All orders of operations, on a sender that was created for a FIFO of this depth. -/
def system (depth cur : ℕ) (remoteReady : Bool) : System FlowState FlowEvent where
  init :=
    { core :=
        { sendFifo := .opened depth cur
          remoteReady := remoteReady
          nic := fun _ ↦ none
          sender := .create depth }
      thread := .waiting }
  enabled := Enabled
  next := next

/-! ## What is required -/

/-- A reason to stop the queues holds. -/
def stopped : Bool := s.core.sender.freeNotifyNet || s.core.sender.epCoverNet

end FlowState

/-- The free thread is about to wake the queues. -/
def FreeThread.exiting : FreeThread → Bool
  | .checkCover exitFlow => exitFlow
  | .leaving => true
  | _ => false

namespace FlowState

/-- The locks are free, and the devices on the list and their queues agree with the reasons. Only
inside `sipa_free_sent_items` they may still be stopped after the last reason has gone. -/
structure Consistent (s : FlowState) : Prop where
  nicLock : s.core.sender.nicLock = false
  sendLock : s.core.sender.sendLock = false
  agree : ∀ i ∈ s.core.sender.nicList, ∀ nic ∈ s.core.nic i,
    nic.flowCtrlStatus = s.stopped ∧ nic.queueStopped = s.stopped ∨
      s.thread.exiting = true ∧ nic.flowCtrlStatus = true ∧ nic.queueStopped = true

/-- The queues are woken only when neither reason holds, a device is opened only then and after it
was closed with its queue running, and a device is closed while it is open. -/
def Timely (s : FlowState) : FlowEvent → Prop
  | .notify evt => exitFlowCtrl evt → s.core.sender.freeNotifyNet = false
  | .free _ => s.thread = .leaving → s.stopped = false
  | .nicOpen netid alloc => s.core.Opens netid alloc →
      s.stopped = false ∧ ∀ nic ∈ s.core.nic netid, nic.flowCtrlStatus = false
  | .nicClose nicId => nicId ≠ sipaNicMax → ∀ nic ∈ s.core.nic nicId, nic.isOpen = true
  | _ => True

/-! ## Devices -/

/-- A device is on the list while it is open. -/
structure Devices (c : SipaCore) : Prop where
  ready : ∀ i ∈ c.sender.nicList, c.remoteReady = true
  listed : ∀ i, i ∈ c.sender.nicList ↔ ∃ nic ∈ c.nic i, nic.isOpen = true
  nodup : c.sender.nicList.Nodup
  notMax : sipaNicMax ∉ c.sender.nicList

/-- The devices on the list and their queues all say the same. -/
def AllAgree (c : SipaCore) (b : Bool) : Prop :=
  ∀ i ∈ c.sender.nicList, ∀ nic ∈ c.nic i, nic.flowCtrlStatus = b ∧ nic.queueStopped = b

/-- Each device on the list agrees with its queue. -/
def QueuesAgree (c : SipaCore) : Prop :=
  ∀ i ∈ c.sender.nicList, ∀ nic ∈ c.nic i, nic.queueStopped = nic.flowCtrlStatus

theorem isOpen_informEvt (ready : Bool) (evt : SipaEvtType) (nic : SipaNic) :
    (nic.informEvt ready evt).isOpen = nic.isOpen := by
  unfold SipaNic.informEvt SipaNic.notifyEvt
  split
  · rfl
  split
  · rfl
  · rfl

/-- A device that is told has its status and its queue as told. -/
theorem informEvt_spec {nic : SipaNic} (h : nic.queueStopped = nic.flowCtrlStatus)
    (evt : SipaEvtType) :
    (nic.informEvt true evt).flowCtrlStatus = evt.enters ∧
      (nic.informEvt true evt).queueStopped = evt.enters := by
  unfold SipaNic.informEvt SipaNic.notifyEvt
  split
  case isTrue heq => exact ⟨heq, h.trans heq⟩
  case isFalse => exact ⟨rfl, rfl⟩

variable {c : SipaCore}

theorem mem_informAll {evt : SipaEvtType} {i : ℕ} (hi : i ∈ c.sender.nicList) {nic : SipaNic} :
    nic ∈ (c.informAll evt).nic i ↔ ∃ old ∈ c.nic i, nic = old.informEvt c.remoteReady evt := by
  simp only [SipaCore.informAll, hi, if_true, Option.mem_def, Option.map_eq_some_iff]
  exact exists_congr fun _ ↦ and_congr_right fun _ ↦ eq_comm

theorem Devices.informAll (h : Devices c) (evt : SipaEvtType) : Devices (c.informAll evt) where
  ready := h.ready
  listed := by
    intro i
    refine (h.listed i).trans ?_
    by_cases hi : i ∈ c.sender.nicList
    · constructor
      · rintro ⟨nic, hnic, hopen⟩
        exact ⟨_, (mem_informAll hi).mpr ⟨nic, hnic, rfl⟩,
          (isOpen_informEvt _ _ _).trans hopen⟩
      · rintro ⟨nic, hnic, hopen⟩
        obtain ⟨old, hold, rfl⟩ := (mem_informAll hi).mp hnic
        exact ⟨old, hold, (isOpen_informEvt _ _ _).symm.trans hopen⟩
    · simp only [SipaCore.informAll, hi, if_false]
  nodup := h.nodup
  notMax := h.notMax

theorem allAgree_informAll (h : Devices c) (hq : QueuesAgree c) (evt : SipaEvtType) :
    AllAgree (c.informAll evt) evt.enters := by
  intro i hi nic hnic
  have hlisted : i ∈ c.sender.nicList := hi
  obtain ⟨old, hold, rfl⟩ := (mem_informAll hlisted).mp hnic
  rw [h.ready i hlisted]
  exact informEvt_spec (hq i hlisted old hold) evt

/-- The devices and the list are the same. -/
structure SameDevices (c c' : SipaCore) : Prop where
  nicList : c'.sender.nicList = c.sender.nicList
  nic : c'.nic = c.nic
  ready : c'.remoteReady = c.remoteReady

theorem SameDevices.devices {c' : SipaCore} (hsame : SameDevices c c') (h : Devices c) :
    Devices c' where
  ready := by
    rw [hsame.nicList, hsame.ready]
    exact h.ready
  listed := by
    rw [hsame.nicList, hsame.nic]
    exact h.listed
  nodup := by
    rw [hsame.nicList]
    exact h.nodup
  notMax := by
    rw [hsame.nicList]
    exact h.notMax

theorem SameDevices.queuesAgree {c' : SipaCore} (hsame : SameDevices c c') (h : QueuesAgree c) :
    QueuesAgree c' := by
  unfold QueuesAgree
  rw [hsame.nicList, hsame.nic]
  exact h

/-! ## What each operation does -/

variable (hnic : c.sender.nicLock = false)

include hnic

theorem informEvtToNics_enter :
    c.informEvtToNics .enterFlowctrl = some (c.informAll .enterFlowctrl) := by
  unfold SipaCore.informEvtToNics
  rw [if_neg (by simp [hnic])]

theorem informLocked_enter :
    c.informLocked .enterFlowctrl = (c.informAll .enterFlowctrl, true) := by
  rw [SipaCore.informLocked, informEvtToNics_enter hnic]

/-- The queues are woken if no reason holds, and else `nic_lock` is not released. -/
theorem informLocked_leave :
    c.informLocked .leaveFlowctrl =
      (if c.sender.freeNotifyNet || c.sender.epCoverNet then
        { c with sender := { c.sender with nicLock := true } }
      else c.informAll .leaveFlowctrl, true) := by
  have hinform : c.informEvtToNics .leaveFlowctrl =
      some (if c.sender.freeNotifyNet || c.sender.epCoverNet then
        { c with sender := { c.sender with nicLock := true } }
      else c.informAll .leaveFlowctrl) := by
    unfold SipaCore.informEvtToNics
    rw [if_neg (by simp [hnic])]
    cases hfree : c.sender.freeNotifyNet with
    | true => simp
    | false =>
      cases hcover : c.sender.epCoverNet with
      | true => simp
      | false => simp
  rw [SipaCore.informLocked, hinform]

end FlowState

/-- What holds between any two events of a run in order. -/
structure FlowInv (s : FlowState) : Prop extends s.Consistent where
  devices : FlowState.Devices s.core
  spins : s.thread ≠ .spins

namespace FlowInv

open FlowState

variable {s : FlowState}

theorem queuesAgree (h : FlowInv s) : QueuesAgree s.core := by
  intro i hi nic hnic
  rcases h.agree i hi nic hnic with ⟨hstatus, hqueue⟩ | ⟨-, hstatus, hqueue⟩
  · rw [hstatus, hqueue]
  · rw [hstatus, hqueue]

/-- All devices were told of what holds now. -/
theorem of_allAgree {c : SipaCore} {t : FreeThread} (hdev : Devices c)
    (hnic : c.sender.nicLock = false) (hsend : c.sender.sendLock = false)
    (hagree : AllAgree c (c.sender.freeNotifyNet || c.sender.epCoverNet)) (ht : t ≠ .spins) :
    FlowInv ⟨c, t⟩ :=
  ⟨⟨hnic, hsend, fun i hi nic hn ↦ .inl (hagree i hi nic hn)⟩, hdev, ht⟩

section Same

variable {c : SipaCore} {t : FreeThread} (h : FlowInv s) (hsame : SameDevices s.core c)
  (hnic : c.sender.nicLock = false) (hsend : c.sender.sendLock = false) (ht : t ≠ .spins)

include h hsame hnic hsend ht

/-- All devices are told what holds now. -/
theorem told {evt : SipaEvtType}
    (hreason : (c.sender.freeNotifyNet || c.sender.epCoverNet) = evt.enters) :
    FlowInv ⟨c.informAll evt, t⟩ := by
  have hagree := allAgree_informAll (hsame.devices h.devices) (hsame.queuesAgree h.queuesAgree) evt
  refine of_allAgree ((hsame.devices h.devices).informAll evt) hnic hsend ?_ ht
  exact hreason.symm ▸ hagree

/-- Nothing has changed for the devices. -/
theorem unchanged (hreason : (c.sender.freeNotifyNet || c.sender.epCoverNet) = s.stopped)
    (hexit : s.thread.exiting = true → t.exiting = true) : FlowInv ⟨c, t⟩ := by
  refine ⟨⟨hnic, hsend, ?_⟩, hsame.devices h.devices, ht⟩
  intro i hi nic hn
  rw [hsame.nicList] at hi
  rw [hsame.nic] at hn
  have hstopped : FlowState.stopped ⟨c, t⟩ = s.stopped := hreason
  rw [hstopped]
  rcases h.agree i hi nic hn with hagree | ⟨hthread, hrest⟩
  · exact .inl hagree
  · exact .inr ⟨hexit hthread, hrest⟩

/-- A reason has gone, and the free thread is about to wake the queues. -/
theorem cleared (hstopped : s.stopped = true) (hexit : t.exiting = true) : FlowInv ⟨c, t⟩ := by
  refine ⟨⟨hnic, hsend, ?_⟩, hsame.devices h.devices, ht⟩
  intro i hi nic hn
  rw [hsame.nicList] at hi
  rw [hsame.nic] at hn
  rcases h.agree i hi nic hn with hagree | ⟨-, hrest⟩
  · rw [hstopped] at hagree
    exact .inr ⟨hexit, hagree⟩
  · exact .inr ⟨hexit, hrest⟩

end Same

/-! ## Steps -/

theorem stopQueues_eq {c : SipaCore} (hnic : c.sender.nicLock = false) :
    c.stopQueues = (c.informAll .enterFlowctrl, .ret eagain) := by
  simp only [SipaCore.stopQueues, informLocked_enter hnic, if_true]

theorem send (h : FlowInv s) (skb : SkBuff) (dst netid intStatus : ℕ) (dma : Option ℕ) :
    FlowInv (s.next (.send skb dst netid intStatus dma)) := by
  have hstop : ∀ c, SameDevices s.core c → c.sender.nicLock = false → c.sender.sendLock = false →
      (c.sender.freeNotifyNet || c.sender.epCoverNet) = true →
      FlowInv ⟨c.stopQueues.1, s.thread⟩ := by
    intro c hsame hnic hsend hreason
    rw [stopQueues_eq hnic]
    exact h.told hsame hnic hsend h.spins hreason
  dsimp only [FlowState.next, SipaCore.sendData]
  split
  · exact h
  split
  · exact h
  split
  · exact hstop _ ⟨rfl, rfl, rfl⟩ h.nicLock h.sendLock (Bool.or_true _)
  split
  · exact h
  split
  · exact hstop _ ⟨rfl, rfl, rfl⟩ h.nicLock h.sendLock rfl
  cases dma with
  | none => exact hstop _ ⟨rfl, rfl, rfl⟩ h.nicLock h.sendLock rfl
  | some a =>
    dsimp only [SipaCore.publish]
    split
    · exact h
    · exact h.unchanged ⟨rfl, rfl, rfl⟩ h.nicLock h.sendLock h.spins rfl id

theorem enter (h : FlowInv s) :
    s.core.notifyEnter = (SipaCore.informAll
      { s.core with sender := { s.core.sender with epCoverNet := true } } .enterFlowctrl, true) ∧
      FlowInv ⟨s.core.notifyEnter.1, s.thread⟩ := by
  set c : SipaCore := { s.core with sender := { s.core.sender with epCoverNet := true } } with hc
  have heq : s.core.notifyEnter = (c.informAll .enterFlowctrl, true) := informLocked_enter h.nicLock
  refine ⟨heq, ?_⟩
  rw [heq]
  exact h.told (c := c) ⟨rfl, rfl, rfl⟩ h.nicLock h.sendLock h.spins (Bool.or_true _)

theorem exit (h : FlowInv s) :
    (s.core.sender.freeNotifyNet = false → FlowInv ⟨s.core.notifyExit.1, s.thread⟩) ∧
      (s.core.sender.freeNotifyNet = true → s.core.notifyExit.1.sender.nicLock = true) := by
  set c : SipaCore := { s.core with sender := { s.core.sender with epCoverNet := false } } with hc
  have heq := informLocked_leave (c := c) h.nicLock
  rw [SipaCore.notifyExit, heq]
  constructor
  · intro hfree
    have hreason : (c.sender.freeNotifyNet || c.sender.epCoverNet) = false := by
      rw [show c.sender.freeNotifyNet = false from hfree]
      rfl
    rw [hreason]
    exact h.told (c := c) ⟨rfl, rfl, rfl⟩ h.nicLock h.sendLock h.spins hreason
  · intro hfree
    have hreason : (c.sender.freeNotifyNet || c.sender.epCoverNet) = true := by
      rw [show c.sender.freeNotifyNet = true from hfree]
      rfl
    rw [hreason]
    rfl

theorem notify (h : FlowInv s) (evt : ℕ) :
    (s.Timely (.notify evt) → FlowInv (s.next (.notify evt))) ∧
      (¬ s.Timely (.notify evt) → ¬ (s.next (.notify evt)).Consistent) := by
  -- what comes before `SIPA_IRQ_EXIT_FLOW_CTRL` is looked at
  obtain ⟨c, hfirst, hc, hfree⟩ : ∃ c,
      (if enterFlowCtrl evt then s.core.notifyEnter else (s.core, true)) = (c, true) ∧
        FlowInv ⟨c, s.thread⟩ ∧ c.sender.freeNotifyNet = s.core.sender.freeNotifyNet := by
    split
    · obtain ⟨heq, hinv⟩ := h.enter
      rw [heq] at hinv ⊢
      exact ⟨_, rfl, hinv, rfl⟩
    · exact ⟨_, rfl, h, rfl⟩
  obtain ⟨hwake, hstuck⟩ := hc.exit
  simp only [FlowState.Timely, FlowState.next, SipaCore.senderNotifyCb, hfirst, true_and]
  rw [hfree] at hwake hstuck
  cases hexit : exitFlowCtrl evt with
  | false => exact ⟨fun _ ↦ hc, fun hnot ↦ absurd (by rintro ⟨⟩) hnot⟩
  | true =>
    refine ⟨fun hfree ↦ hwake (hfree rfl), fun hnot hcons ↦ ?_⟩
    have hlocked := hcons.nicLock
    rw [if_pos rfl, hstuck (by simpa using hnot)] at hlocked
    cases hlocked

theorem loop_exiting (p : FreePass) : p.loop.exiting = false ∧ p.loop ≠ .spins := by
  unfold FreePass.loop
  split
  · exact ⟨rfl, nofun⟩
  · exact ⟨rfl, nofun⟩

/-- A step of the free thread that does not concern the devices. -/
theorem quiet (h : FlowInv s) {intStatus : ℕ} {c : SipaCore} {t t' : FreeThread}
    (hthread : s.thread = t) (hgoes : t.exiting = false) (hsame : SameDevices s.core c)
    (hnic : c.sender.nicLock = false) (hsend : c.sender.sendLock = false) (ht' : t' ≠ .spins)
    (hreason : (c.sender.freeNotifyNet || c.sender.epCoverNet) = s.stopped)
    (hstep : s.core.freeStep intStatus t = (c, t')) :
    (s.Timely (.free intStatus) → FlowInv (s.next (.free intStatus))) ∧
      (¬ s.Timely (.free intStatus) → ¬ (s.next (.free intStatus)).Consistent) := by
  subst hthread
  refine ⟨fun _ ↦ ?_, fun hnot ↦ absurd (fun hthread ↦ ?_) hnot⟩
  · simp only [FlowState.next, hstep]
    exact h.unchanged hsame hnic hsend ht' hreason fun hexit ↦
      absurd (hgoes.symm.trans hexit) Bool.false_ne_true
  · rw [hthread] at hgoes
    cases hgoes

theorem checkAgain_quiet (h : FlowInv s) (p : FreePass) (retryCnt : ℕ) :
    SameDevices s.core (s.core.checkAgain p retryCnt).1 ∧
      (s.core.checkAgain p retryCnt).1.sender.nicLock = false ∧
      (s.core.checkAgain p retryCnt).1.sender.sendLock = false ∧
      (s.core.checkAgain p retryCnt).2 ≠ .spins ∧
      ((s.core.checkAgain p retryCnt).1.sender.freeNotifyNet ||
        (s.core.checkAgain p retryCnt).1.sender.epCoverNet) = s.stopped := by
  unfold SipaCore.checkAgain
  split
  · exact ⟨⟨rfl, rfl, rfl⟩, h.nicLock, h.sendLock, by rintro ⟨⟩, rfl⟩
  dsimp only
  split
  · exact ⟨⟨rfl, rfl, rfl⟩, h.nicLock, h.sendLock, by rintro ⟨⟩, rfl⟩
  split
  · exact ⟨⟨rfl, rfl, rfl⟩, h.nicLock, h.sendLock, by rintro ⟨⟩, rfl⟩
  · exact ⟨⟨rfl, rfl, rfl⟩, h.nicLock, h.sendLock, (loop_exiting _).2, rfl⟩

theorem free (h : FlowInv s) (intStatus : ℕ) :
    (s.Timely (.free intStatus) → FlowInv (s.next (.free intStatus))) ∧
      (¬ s.Timely (.free intStatus) → ¬ (s.next (.free intStatus)).Consistent) := by
  have hnot : ∀ {t : FreeThread}, s.thread = t → t.exiting = false →
      ¬ s.thread.exiting = true := by
    rintro t rfl hexit hexit'
    rw [hexit] at hexit'
    cases hexit'
  cases hthread : s.thread with
  | waiting =>
    exact h.quiet hthread rfl ⟨rfl, rfl, rfl⟩ h.nicLock h.sendLock (loop_exiting _).2 rfl rfl
  | checkAgain p r =>
    obtain ⟨hsame, hnic, hsend, hspins, hreason⟩ := h.checkAgain_quiet p r
    exact h.quiet hthread rfl hsame hnic hsend hspins hreason rfl
  | unmapping p iter =>
    exact h.quiet hthread rfl ⟨rfl, rfl, rfl⟩ h.nicLock h.sendLock (loop_exiting _).2 rfl rfl
  | setRp p =>
    exact h.quiet (c := { s.core with sendFifo := (s.core.sendFifo.setTxFifoRp p.i).1 }) hthread
      rfl ⟨rfl, rfl, rfl⟩ h.nicLock h.sendLock (by rintro ⟨⟩) rfl rfl
  | crediting p =>
    exact h.quiet
      (c := { s.core with
        sender := { s.core.sender with leftCnt := s.core.sender.leftCnt + p.successCnt } })
      hthread rfl ⟨rfl, rfl, rfl⟩ h.nicLock h.sendLock (by rintro ⟨⟩) rfl rfl
  | freeEnd =>
    refine ⟨fun _ ↦ ?_, fun hnot ↦ absurd (fun heq ↦ by rw [hthread] at heq; cases heq) hnot⟩
    simp only [FlowState.next, hthread, SipaCore.freeStep]
    split
    case isTrue hfree =>
      have hstopped : s.stopped = true := by rw [FlowState.stopped, hfree.1]; rfl
      exact h.cleared ⟨rfl, rfl, rfl⟩ h.nicLock h.sendLock (by rintro ⟨⟩) hstopped rfl
    case isFalse =>
      exact h.unchanged ⟨rfl, rfl, rfl⟩ h.nicLock h.sendLock (by rintro ⟨⟩) rfl
        fun hexit ↦ absurd hexit (hnot hthread rfl)
  | checkCover exitFlow =>
    refine ⟨fun _ ↦ ?_, fun hnot ↦ absurd (fun heq ↦ by rw [hthread] at heq; cases heq) hnot⟩
    simp only [FlowState.next, hthread, SipaCore.freeStep]
    split
    case isTrue hcover =>
      have hstopped : s.stopped = true := by rw [FlowState.stopped, hcover.1, Bool.or_true]
      exact h.cleared ⟨rfl, rfl, rfl⟩ h.nicLock h.sendLock (by rintro ⟨⟩) hstopped rfl
    case isFalse =>
      cases exitFlow with
      | true =>
        exact h.unchanged (t := .leaving) ⟨rfl, rfl, rfl⟩ h.nicLock h.sendLock (by rintro ⟨⟩)
          rfl fun _ ↦ rfl
      | false =>
        exact h.unchanged (t := .waiting) ⟨rfl, rfl, rfl⟩ h.nicLock h.sendLock (by rintro ⟨⟩)
          rfl fun hexit ↦ absurd hexit (hnot hthread rfl)
  | leaving =>
    have heq := informLocked_leave (c := s.core) h.nicLock
    have hstopped : (s.core.sender.freeNotifyNet || s.core.sender.epCoverNet) = s.stopped := rfl
    simp only [FlowState.Timely, FlowState.next, hthread, SipaCore.freeStep, heq, hstopped]
    cases hs : s.stopped with
    | false =>
      refine ⟨fun _ ↦ ?_, fun hnot ↦ absurd (fun _ ↦ rfl) hnot⟩
      have hreason : (s.core.sender.freeNotifyNet || s.core.sender.epCoverNet) =
          SipaEvtType.leaveFlowctrl.enters := hstopped.trans hs
      exact h.told (t := .waiting) ⟨rfl, rfl, rfl⟩ h.nicLock h.sendLock (by decide) hreason
    | true =>
      refine ⟨fun htimely ↦ absurd (htimely trivial) (by decide), fun _ hcons ↦ ?_⟩
      have hlocked := hcons.nicLock
      cases hlocked
  | spins => exact absurd hthread h.spins

/-! ## Opening and closing -/

theorem nicOpen_of_not_opens {c : SipaCore} {netid : ℕ} {alloc : Bool}
    (hopens : ¬ c.Opens netid alloc) : (c.nicOpen netid alloc).1 = c := by
  unfold SipaCore.Opens at hopens
  unfold SipaCore.nicOpen
  split
  · rfl
  case isFalse hready =>
  split
  · rfl
  case isFalse hmax =>
  split
  case h_1 nic hnic =>
    cases hopen : nic.isOpen with
    | true => rfl
    | false => exact absurd ⟨by simpa using hready, hmax, by rw [hnic]; exact hopen⟩ hopens
  case h_2 hnic =>
    cases alloc with
    | true => exact absurd ⟨by simpa using hready, hmax, by rw [hnic]⟩ hopens
    | false => rfl

/-- A device is put on the list with the status it had, and its queue runs. -/
theorem nicOpen_of_opens {c : SipaCore} {netid : ℕ} {alloc : Bool}
    (hopens : c.Opens netid alloc) :
    ∃ nic : SipaNic, nic.isOpen = true ∧ nic.queueStopped = false ∧
      (nic.flowCtrlStatus = false ↔ ∀ old ∈ c.nic netid, old.flowCtrlStatus = false) ∧
      (c.nicOpen netid alloc).1 =
        { c with nic := Function.update c.nic netid (some nic) }.addNic netid := by
  obtain ⟨hready, hmax, hslot⟩ := hopens
  unfold SipaCore.nicOpen
  rw [if_neg (by simp [hready]), if_neg hmax]
  cases hnic : c.nic netid with
  | none =>
    rw [hnic] at hslot
    refine ⟨⟨true, false, false⟩, rfl, rfl, ⟨fun _ ↦ nofun, fun _ ↦ rfl⟩, ?_⟩
    dsimp only at hslot ⊢
    rw [if_pos hslot]
  | some old =>
    rw [hnic] at hslot
    refine ⟨{ old with isOpen := true, queueStopped := false }, rfl, rfl, ?_, ?_⟩
    · constructor
      · rintro hstatus _ ⟨⟩
        exact hstatus
      · intro hall
        exact hall old rfl
    · dsimp only at hslot ⊢
      rw [if_neg (by simp [hslot])]

theorem notMem_of_opens {c : SipaCore} (hdev : Devices c) {netid : ℕ} {alloc : Bool}
    (hopens : c.Opens netid alloc) : netid ∉ c.sender.nicList := by
  intro hmem
  obtain ⟨nic, hnic, hopen⟩ := (hdev.listed netid).mp hmem
  have hslot := hopens.2.2
  rw [Option.mem_def.mp hnic] at hslot
  exact absurd (hopen.symm.trans hslot) (by decide)

theorem devices_addNic {c : SipaCore} (hdev : Devices c) {netid : ℕ} {alloc : Bool}
    (hopens : c.Opens netid alloc) {nic : SipaNic} (hopen : nic.isOpen = true) :
    Devices ({ c with nic := Function.update c.nic netid (some nic) }.addNic netid) where
  ready := fun _ _ ↦ hopens.1
  listed := by
    intro i
    simp only [SipaCore.addNic, List.mem_append, List.mem_singleton]
    by_cases hi : i = netid
    · subst hi
      simp [hopen]
    · rw [Function.update_of_ne hi]
      simpa [hi] using hdev.listed i
  nodup := by
    have hnew := notMem_of_opens hdev hopens
    refine List.nodup_append.mpr ⟨hdev.nodup, List.nodup_singleton netid, ?_⟩
    rintro a ha b hb rfl
    rw [List.mem_singleton.mp hb] at ha
    exact hnew ha
  notMax := by
    simp only [SipaCore.addNic, List.mem_append, List.mem_singleton, not_or]
    exact ⟨hdev.notMax, hopens.2.1.symm⟩

theorem nicOpen (h : FlowInv s) (netid : ℕ) (alloc : Bool) :
    (s.Timely (.nicOpen netid alloc) → FlowInv (s.next (.nicOpen netid alloc))) ∧
      (¬ s.Timely (.nicOpen netid alloc) → ¬ (s.next (.nicOpen netid alloc)).Consistent) := by
  by_cases hopens : s.core.Opens netid alloc
  · obtain ⟨nic, hopen, hqueue, hstatus, heq⟩ := nicOpen_of_opens hopens
    have hnew := notMem_of_opens h.devices hopens
    simp only [FlowState.Timely, FlowState.next, heq, hopens, forall_true_left]
    have hself : nic ∈ Function.update s.core.nic netid (some nic) netid := by
      rw [Function.update_self]
      rfl
    constructor
    · rintro ⟨hstopped, hall⟩
      refine ⟨⟨h.nicLock, h.sendLock, ?_⟩, devices_addNic h.devices hopens hopen, h.spins⟩
      intro i hi nic' hnic'
      rcases List.mem_append.mp hi with hi | hi
      · refine h.agree i hi nic' ?_
        have hne : i ≠ netid := fun heq ↦ hnew (heq ▸ hi)
        have hold : nic' ∈ Function.update s.core.nic netid (some nic) i := hnic'
        rwa [Function.update_of_ne hne] at hold
      · rw [List.mem_singleton.mp hi] at hnic'
        cases Option.mem_unique hself hnic'
        refine .inl ⟨?_, hqueue.trans hstopped.symm⟩
        exact (hstatus.mpr hall).trans hstopped.symm
    · intro hnot hcons
      rcases hcons.agree netid (List.mem_append_right _ List.mem_cons_self) nic hself with
        ⟨hflow, hrun⟩ | ⟨-, -, hrun⟩
      · have hstopped : s.stopped = false := hrun.symm.trans hqueue
        exact hnot ⟨hstopped, hstatus.mp (hflow.trans hstopped)⟩
      · exact absurd (hqueue.symm.trans hrun) (by decide)
  · have heq := nicOpen_of_not_opens hopens
    refine ⟨fun _ ↦ ?_, fun hnot ↦ absurd (fun h ↦ absurd h hopens) hnot⟩
    simp only [FlowState.next, heq]
    exact h

/-- A device leaves the list. -/
theorem devices_erase {c : SipaCore} (hdev : Devices c) (nicId : ℕ) (nic : SipaNic) :
    Devices
      { c with
        nic := Function.update c.nic nicId (some { nic with isOpen := false })
        sender := { c.sender with nicList := c.sender.nicList.erase nicId } } where
  ready := fun i hi ↦ hdev.ready i (List.mem_of_mem_erase hi)
  listed := by
    intro i
    dsimp only
    by_cases hi : i = nicId
    · subst hi
      simp [hdev.nodup.mem_erase_iff]
    · rw [Function.update_of_ne hi, List.mem_erase_of_ne hi]
      exact hdev.listed i
  nodup := hdev.nodup.erase _
  notMax := fun hmem ↦ hdev.notMax (List.mem_of_mem_erase hmem)

theorem nicClose (h : FlowInv s) (nicId : ℕ) :
    (s.Timely (.nicClose nicId) → FlowInv (s.next (.nicClose nicId))) ∧
      (¬ s.Timely (.nicClose nicId) → ¬ (s.next (.nicClose nicId)).Consistent) := by
  simp only [FlowState.Timely, FlowState.next, SipaCore.nicClose]
  cases hnic : s.core.nic nicId with
  | none => exact ⟨fun _ ↦ h, fun hnot ↦ absurd (fun _ ↦ nofun) hnot⟩
  | some nic =>
    dsimp only
    by_cases hmax : nicId = sipaNicMax
    · rw [if_pos hmax]
      exact ⟨fun _ ↦ h, fun hnot ↦ absurd (fun hne ↦ absurd hmax hne) hnot⟩
    rw [if_neg hmax]
    have hlisted := h.devices.listed nicId
    simp only [hnic, Option.mem_some_iff, exists_eq_left'] at hlisted
    constructor
    · intro htimely
      have hmem := hlisted.mpr (htimely hmax nic rfl)
      rw [if_pos hmem]
      refine ⟨⟨h.nicLock, h.sendLock, ?_⟩, devices_erase h.devices nicId nic, h.spins⟩
      intro i hi nic' hnic'
      obtain ⟨hne, hmem'⟩ := h.devices.nodup.mem_erase_iff.mp hi
      refine h.agree i hmem' nic' ?_
      have hold : nic' ∈ Function.update s.core.nic nicId
          (some { nic with isOpen := false }) i := hnic'
      rwa [Function.update_of_ne hne] at hold
    · intro hnot hcons
      have hclosed : nicId ∉ s.core.sender.nicList := by
        intro hmem
        refine hnot fun _ nic' hnic' ↦ ?_
        cases hnic'
        exact hlisted.mp hmem
      rw [if_neg hclosed] at hcons
      have hlocked : true = false := hcons.nicLock
      cases hlocked

/-- An operation leaves everything in order if and only if it is timely. -/
theorem next (h : FlowInv s) (e : FlowEvent) :
    (s.Timely e → FlowInv (s.next e)) ∧ (¬ s.Timely e → ¬ (s.next e).Consistent) := by
  cases e with
  | send skb dst netid intStatus dma =>
    exact ⟨fun _ ↦ h.send skb dst netid intStatus dma, fun hnot ↦ absurd trivial hnot⟩
  | notify evt => exact h.notify evt
  | free intStatus => exact h.free intStatus
  | nicOpen netid alloc => exact h.nicOpen netid alloc
  | nicClose nicId => exact h.nicClose nicId
  | hw cfg =>
    refine ⟨fun _ ↦ ?_, fun hnot ↦ absurd trivial hnot⟩
    exact h.unchanged (c := { s.core with sendFifo := cfg }) ⟨rfl, rfl, rfl⟩ h.nicLock h.sendLock
      h.spins rfl id

theorem init (depth cur : ℕ) (ready : Bool) : FlowInv (FlowState.system depth cur ready).init where
  nicLock := rfl
  sendLock := rfl
  agree := nofun
  devices := ⟨nofun, fun _ ↦ ⟨nofun, fun ⟨_, hnic, _⟩ ↦ nomatch hnic⟩, List.nodup_nil, nofun⟩
  spins := nofun

end FlowInv

namespace FlowState

/-! ## Runs -/

/-- After each operation of a run the locks are free and the devices agree with the reasons, if and
only if each operation is timely. -/
theorem consistent_iff_timely (depth cur : ℕ) (ready : Bool) (es : List FlowEvent) :
    (system depth cur ready).Along (fun s e ↦ (s.next e).Consistent)
      (system depth cur ready).init es ↔
      (system depth cur ready).Along Timely (system depth cur ready).init es := by
  refine System.along_iff_of_invariant (I := FlowInv) ?_ ?_ (FlowInv.init depth cur ready) es
  · intro s e h _
    obtain ⟨hkeeps, hbreaks⟩ := h.next e
    exact ⟨fun hcons ↦ by_contra fun hnot ↦ hbreaks hnot hcons,
      fun htimely ↦ (hkeeps htimely).toConsistent⟩
  · exact fun s e h _ htimely ↦ (h.next e).1 htimely

/-- A mapping fails, and then the endpoint asks to go on: `nic_lock` is not released. -/
theorem refusedWake_not_consistent :
    ¬ ∀ (depth cur : ℕ) (ready : Bool) (es : List FlowEvent),
      (system depth cur ready).Along (fun _ _ ↦ True) (system depth cur ready).init es →
      (system depth cur ready).Along (fun s e ↦ (s.next e).Consistent)
        (system depth cur ready).init es := by
  intro h
  have hrun := h 4 0x10 true [.send ⟨0, 100, 16⟩ 6 0 0 none, .notify (2 ^ 20)]
    ⟨rfl, trivial, rfl, trivial, trivial⟩
  obtain ⟨-, -, -, hcons, -⟩ := hrun
  exact absurd hcons.nicLock (by decide)

end FlowState

end Wwan.Sipa
