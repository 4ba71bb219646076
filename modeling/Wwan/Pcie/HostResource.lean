import Wwan.Lib.Transition
import Wwan.Lib.WorkQueue

/-!
# Scanning and removing the endpoint

`pcie_host_resource.c` scans for the PCIe endpoint when its resource is requested and removes
the endpoint when the resource is released. Both are done by work items on a queue with one
thread. Whether a call queues an item depends on a state that it is the items that change, so
a call may be dropped though the queue is about to do the opposite.

`start_remove` enters `WAIT_REMOVED`; `start_scan` tests `WAIT_SCANNED`, but nothing enters it.
-/

namespace Wwan.Pcie

open Wwan

/-! ## The driver -/

/-- `enum rc_state`. -/
inductive RcState
  | waitFirstReady
  | waitScanned
  | scanned
  | waitRemoved
  | removed
  | scanned2bar
  | waitPowerOff
  deriving DecidableEq

/-- What the endpoint driver reports. -/
inductive EpEvent
  | /-- `PCIE_EP_PROBE`. -/
    probe
  | /-- `PCIE_EP_REMOVE`. -/
    remove
  | /-- `PCIE_EP_PROBE_BEFORE_SPLIT_BAR`. -/
    probeBeforeSplitBar
  deriving DecidableEq

/-- The two work items. -/
inductive ResWork
  | /-- `scan_work`. -/
    scan
  | /-- `remove_work`. -/
    remove
  deriving DecidableEq

/-- `struct sprd_pcie_res`. -/
structure PcieRes where
  state : RcState
  epDevProbe : Bool
  epReadyForRescan : Bool
  /-- The items that are queued on `wq`. -/
  wq : List ResWork
  deriving DecidableEq

namespace PcieRes

variable (res : PcieRes)

/-- `sprd_pcie_resource_start_scan`. -/
def startScan : PcieRes :=
  if res.state = .scanned ∨ res.state = .waitScanned then res
  else { res with wq := schedule res.wq .scan }

/-- `sprd_pcie_resource_start_remove`. -/
def startRemove : PcieRes :=
  if res.state = .waitPowerOff then res
  else if res.state = .scanned ∨ res.state = .waitFirstReady ∨ res.state = .scanned2bar then
    { res with state := .waitRemoved, wq := schedule res.wq .remove }
  else res

/-- `sprd_pcie_resource_rescan`. -/
def rescan : PcieRes := res.startRemove.startScan

/-- `sprd_pcie_resource_host_ep_notify`. -/
def hostEpNotify (event : EpEvent) : PcieRes :=
  if res.state = .waitPowerOff then res
  else
    match event with
    | .probe => { res with state := .scanned, epDevProbe := true }
    | .remove => { res with state := .removed, epDevProbe := false }
    | .probeBeforeSplitBar =>
      let res := { res with state := .scanned2bar, epDevProbe := true }
      if res.epReadyForRescan = false then res else res.rescan

/-- `sprd_pcie_resource_scan_fn`, where `sprd_pcie_configure_device` reports `event`. -/
def scanFn (event : EpEvent) : PcieRes :=
  if res.state = .waitPowerOff then res else res.hostEpNotify event

/-- `sprd_pcie_resource_remove_fn`, where `sprd_pcie_unconfigure_device` reports `event`. -/
def removeFn (event : EpEvent) : PcieRes :=
  if res.state = .waitPowerOff ∨ res.epDevProbe = false then res else res.hostEpNotify event

/-- `sprd_pcie_request_resource`. -/
def requestResource : PcieRes := if res.state ≠ .waitFirstReady then res.startScan else res

/-- `sprd_pcie_release_resource`. -/
def releaseResource : PcieRes := res.startRemove

end PcieRes

/-! ## Runs -/

/-- A call from the power manager. -/
inductive ResCall
  | /-- `sprd_pcie_request_resource`. -/
    request
  | /-- `sprd_pcie_release_resource`. -/
    release
  deriving DecidableEq

/-- The item that does what a call asks for. -/
def ResCall.work : ResCall → ResWork
  | .request => .scan
  | .release => .remove

/-- The driver, the item that its thread runs and the last call. -/
structure PcieRun where
  res : PcieRes
  /-- The item that is running, and whether the device has reported. -/
  running : Option (ResWork × Bool)
  last : Option ResCall
  deriving DecidableEq

/-- What may happen. -/
inductive PcieStep
  | /-- A call is made. -/
    call (c : ResCall)
  | /-- The thread takes the first item from the queue. -/
    start
  | /-- The device is configured or unconfigured, and reports. -/
    report
  | /-- The item is done. -/
    finish
  deriving DecidableEq

namespace PcieRun

variable (s : PcieRun)

/-- A call is made. -/
def call (c : ResCall) : PcieRun :=
  { s with
    res := match c with
      | .request => s.res.requestResource
      | .release => s.res.releaseResource
    last := some c }

/-- The thread takes the first item from the queue. -/
def start : PcieRun :=
  match s.res.wq with
  | [] => s
  | work :: wq => { s with res := { s.res with wq := wq }, running := some (work, false) }

/-- The item that is running does its work. -/
def report : PcieRun :=
  match s.running with
  | some (.scan, false) => { s with res := s.res.scanFn .probe, running := some (.scan, true) }
  | some (.remove, false) =>
    { s with res := s.res.removeFn .remove, running := some (.remove, true) }
  | _ => s

/-- What is still to be done, in order. -/
def outstanding : List ResWork :=
  (s.running.elim [] fun r ↦ if r.2 then [] else [r.1]) ++ s.res.wq

end PcieRun

namespace PcieStep

/-- Whether a step can be made. -/
def enabled (s : PcieRun) : PcieStep → Bool
  | call _ => true
  | start => s.running = none ∧ s.res.wq ≠ []
  | report => s.running.any fun r ↦ !r.2
  | finish => s.running.any fun r ↦ r.2

/-- What a step does. -/
def act (s : PcieRun) : PcieStep → PcieRun
  | call c => s.call c
  | start => s.start
  | report => s.report
  | finish => { s with running := none }

end PcieStep

/-- The runs after the first successful probe. -/
def pcieSystem (ready : Bool) : System PcieRun PcieStep :=
  { init := ⟨⟨.scanned, true, ready, []⟩, none, none⟩
    enabled := fun s e ↦ e.enabled s
    next := fun s e ↦ e.act s }

instance (ready : Bool) (s : PcieRun) (e : PcieStep) : Decidable ((pcieSystem ready).enabled s e) :=
  inferInstanceAs (Decidable (e.enabled s = true))

/-! ## What the queue will do -/

/-- Whether a call comes when the driver can do what it asks for. In the state `SCANNED` a
request is dropped, so the last thing to be done must not be a removal; in another state a
release is dropped, so it must not be a scan. A call that is not dropped must not find its item
queued with the other one behind it. -/
def PcieRun.clear (s : PcieRun) : ResCall → Bool
  | .request =>
    if s.res.state = .scanned then s.outstanding.getLast? ≠ some .remove
    else .scan ∈ s.res.wq → s.res.wq.getLast? = some .scan
  | .release =>
    if s.res.state = .scanned then .remove ∈ s.res.wq → s.res.wq.getLast? = some .remove
    else s.outstanding.getLast? ≠ some .scan

/-- The condition on a step. -/
def PcieStep.clear (s : PcieRun) : PcieStep → Bool
  | call c => s.clear c
  | _ => true

/-- What was or will be done last. -/
def PcieRun.target (s : PcieRun) : ResWork :=
  s.outstanding.getLast?.getD (if s.res.epDevProbe then .scan else .remove)

/-- What holds of the state, the queue and the last call. -/
structure PcieInv (s : PcieRun) : Prop where
  /-- The states that are entered after the first probe. -/
  state : s.res.state = .scanned ∨ s.res.state = .waitRemoved ∨ s.res.state = .removed
  probe : s.res.epDevProbe = true ↔ s.res.state ≠ .removed
  waiting : s.res.state = .waitRemoved → .remove ∈ s.outstanding
  target : ∀ c, s.last = some c → s.target = c.work

section Calls

variable {res : PcieRes}

/-- The endpoint is there already. -/
theorem requestResource_scanned (h : res.state = .scanned) : res.requestResource = res := by
  unfold PcieRes.requestResource PcieRes.startScan
  simp only [h, true_or, if_true, ite_self]

theorem requestResource_queues (h : res.state = .waitRemoved ∨ res.state = .removed) :
    res.requestResource = { res with wq := schedule res.wq .scan } := by
  unfold PcieRes.requestResource PcieRes.startScan
  rcases h with h | h <;>
    simp only [h, reduceCtorEq, ne_eq, not_false_eq_true, or_self, if_true, if_false]

theorem releaseResource_queues (h : res.state = .scanned) :
    res.releaseResource = { res with state := .waitRemoved, wq := schedule res.wq .remove } := by
  unfold PcieRes.releaseResource PcieRes.startRemove
  simp only [h, reduceCtorEq, true_or, if_true, if_false]

/-- The endpoint is gone already, or a removal waits. -/
theorem releaseResource_dropped (h : res.state = .waitRemoved ∨ res.state = .removed) :
    res.releaseResource = res := by
  unfold PcieRes.releaseResource PcieRes.startRemove
  rcases h with h | h <;> simp only [h, reduceCtorEq, or_self, if_false]

theorem scanFn_probe (h : res.state ≠ .waitPowerOff) :
    res.scanFn .probe = { res with state := .scanned, epDevProbe := true } := by
  unfold PcieRes.scanFn PcieRes.hostEpNotify
  rw [if_neg h, if_neg h]

/-- There is nothing to remove. -/
theorem removeFn_gone (h : res.epDevProbe = false) (event : EpEvent) :
    res.removeFn event = res := by
  unfold PcieRes.removeFn
  rw [if_pos (.inr h)]

theorem removeFn_remove (h : res.state ≠ .waitPowerOff) (hprobe : res.epDevProbe = true) :
    res.removeFn .remove = { res with state := .removed, epDevProbe := false } := by
  have hgo : ¬ (res.state = .waitPowerOff ∨ res.epDevProbe = false) := by
    rintro (hoff | hgone)
    · exact h hoff
    · rw [hprobe] at hgone
      cases hgone
  unfold PcieRes.removeFn PcieRes.hostEpNotify
  rw [if_neg hgo, if_neg h]

end Calls

section Steps

variable {s : PcieRun}

theorem target_of_getLast? {work : ResWork} (h : s.outstanding.getLast? = some work) :
    s.target = work := by
  unfold PcieRun.target
  rw [h]
  rfl

theorem target_of_nil (h : s.outstanding = []) :
    s.target = if s.res.epDevProbe then .scan else .remove := by
  unfold PcieRun.target
  rw [h]
  rfl

/-- Nothing but a scan will be done last if the endpoint is there and no removal is. -/
theorem target_eq_scan (hprobe : s.res.epDevProbe = true)
    (h : s.outstanding.getLast? ≠ some .remove) : s.target = .scan := by
  unfold PcieRun.target
  rw [hprobe]
  cases hlast : s.outstanding.getLast? with
  | none => rfl
  | some work =>
    cases work with
    | scan => rfl
    | remove => exact absurd hlast h

/-- Nothing but a removal will be done last if the endpoint is gone, or about to go. -/
theorem target_eq_remove (hinv : PcieInv s) (hstate : s.res.state ≠ .scanned)
    (h : s.outstanding.getLast? ≠ some .scan) : s.target = .remove := by
  cases hlast : s.outstanding.getLast? with
  | none =>
    have hnil := List.getLast?_eq_none_iff.mp hlast
    have hprobe : s.res.epDevProbe = false := by
      rcases hinv.state with hs | hs | hs
      · exact absurd hs hstate
      · have hmem := hinv.waiting hs
        rw [hnil] at hmem
        cases hmem
      · exact Bool.eq_false_iff.mpr fun hp ↦ hinv.probe.mp hp hs
    rw [target_of_nil hnil, hprobe]
    rfl
  | some work =>
    cases work with
    | scan => exact absurd hlast h
    | remove => exact target_of_getLast? hlast

/-- An item that is queued last will be done last. -/
theorem getLast?_outstanding {work : ResWork} (h : s.res.wq.getLast? = some work) :
    s.outstanding.getLast? = some work := by
  unfold PcieRun.outstanding
  rw [List.getLast?_append, h]
  rfl

theorem PcieInv.request (h : PcieInv s) (hclear : s.clear .request = true) :
    PcieInv (s.call .request) := by
  dsimp only [PcieRun.clear] at hclear
  dsimp only [PcieRun.call]
  rcases h.state with hs | hs
  · rw [if_pos hs] at hclear
    have hprobe : s.res.epDevProbe = true := h.probe.mpr (by rw [hs]; decide)
    rw [requestResource_scanned hs]
    refine ⟨h.state, h.probe, h.waiting, fun c hc ↦ ?_⟩
    cases hc
    exact target_eq_scan (s := s) hprobe (of_decide_eq_true hclear)
  · have hne : s.res.state ≠ .scanned := fun hscanned ↦ by
      rw [hscanned] at hs
      cases hs <;> contradiction
    rw [if_neg hne] at hclear
    have hlast : (schedule s.res.wq .scan).getLast? = some .scan :=
      getLast?_schedule_iff.mpr (of_decide_eq_true hclear)
    rw [requestResource_queues hs]
    refine ⟨h.state, h.probe, fun hw ↦ ?_, fun c hc ↦ ?_⟩
    · rcases List.mem_append.mp (h.waiting hw) with hmem | hmem
      · exact List.mem_append_left _ hmem
      · exact List.mem_append_right _ (mem_schedule_of_mem hmem)
    · cases hc
      exact target_of_getLast? (getLast?_outstanding hlast)

theorem PcieInv.release (h : PcieInv s) (hclear : s.clear .release = true) :
    PcieInv (s.call .release) := by
  dsimp only [PcieRun.clear] at hclear
  dsimp only [PcieRun.call]
  rcases h.state with hs | hs
  · rw [if_pos hs] at hclear
    have hlast : (schedule s.res.wq .remove).getLast? = some .remove :=
      getLast?_schedule_iff.mpr (of_decide_eq_true hclear)
    rw [releaseResource_queues hs]
    refine ⟨.inr (.inl rfl), ?_, fun _ ↦ ?_, fun c hc ↦ ?_⟩
    · exact iff_of_true (h.probe.mpr (by rw [hs]; decide)) RcState.noConfusion
    · exact List.mem_append_right _ (List.mem_of_getLast? hlast)
    · cases hc
      exact target_of_getLast? (getLast?_outstanding hlast)
  · have hne : s.res.state ≠ .scanned := fun hscanned ↦ by
      rw [hscanned] at hs
      cases hs <;> contradiction
    rw [if_neg hne] at hclear
    rw [releaseResource_dropped hs]
    refine ⟨h.state, h.probe, h.waiting, fun c hc ↦ ?_⟩
    cases hc
    exact target_eq_remove (s := s) h hne (of_decide_eq_true hclear)

/-- The order of what is to be done does not change when an item is taken from the queue. -/
theorem outstanding_start (h : s.running = none) : s.start.outstanding = s.outstanding := by
  unfold PcieRun.start
  split
  · rfl
  · rename_i work wq hwq
    unfold PcieRun.outstanding
    rw [h, hwq]
    rfl

theorem PcieInv.start (h : PcieInv s) (hnone : s.running = none) : PcieInv s.start := by
  have hout := outstanding_start hnone
  have hsame : s.start.res.state = s.res.state ∧ s.start.res.epDevProbe = s.res.epDevProbe ∧
      s.start.last = s.last := by
    unfold PcieRun.start
    split <;> exact ⟨rfl, rfl, rfl⟩
  refine ⟨?_, ?_, ?_, ?_⟩
  · rw [hsame.1]
    exact h.state
  · rw [hsame.1, hsame.2.1]
    exact h.probe
  · rw [hsame.1, hout]
    exact h.waiting
  · unfold PcieRun.target
    rw [hsame.2.2, hout, hsame.2.1]
    exact h.target

/-- The item that was first is done, and the endpoint is as it left it. -/
theorem target_tail {t : PcieRun} {work : ResWork} {wq : List ResWork}
    (hs : s.outstanding = work :: wq) (ht : t.outstanding = wq)
    (hprobe : t.res.epDevProbe = true ↔ work = .scan) : t.target = s.target := by
  unfold PcieRun.target
  rw [hs, ht]
  cases wq with
  | cons next wq => rw [List.getLast?_cons_cons]; rfl
  | nil =>
    cases work with
    | scan => rw [hprobe.mpr rfl]; rfl
    | remove =>
      rw [Bool.eq_false_iff.mpr fun hp ↦ ResWork.noConfusion (hprobe.mp hp)]
      rfl

theorem PcieInv.report (h : PcieInv s) (hrun : ∃ work, s.running = some (work, false)) :
    PcieInv s.report := by
  obtain ⟨work, hwork⟩ := hrun
  have hon : s.res.state ≠ .waitPowerOff := by
    intro hoff
    have hstate := h.state
    rw [hoff] at hstate
    rcases hstate with hs | hs | hs <;> cases hs
  have hout : s.outstanding = work :: s.res.wq := by
    unfold PcieRun.outstanding
    rw [hwork]
    rfl
  unfold PcieRun.report
  rw [hwork]
  cases work with
  | scan =>
    dsimp only
    rw [scanFn_probe hon]
    refine ⟨.inl rfl, iff_of_true rfl RcState.noConfusion, RcState.noConfusion, fun c hc ↦ ?_⟩
    exact (target_tail hout rfl (iff_of_true rfl rfl)).trans (h.target c hc)
  | remove =>
    dsimp only
    cases hp : s.res.epDevProbe with
    | false =>
      have hremoved : s.res.state = .removed := by
        by_contra hne
        rw [h.probe.mpr hne] at hp
        cases hp
      rw [removeFn_gone hp]
      refine ⟨h.state, h.probe, fun hw ↦ ?_, fun c hc ↦ ?_⟩
      · exact absurd (hw.symm.trans hremoved) RcState.noConfusion
      · refine (target_tail hout rfl ?_).trans (h.target c hc)
        exact iff_of_false (by rw [hp]; exact Bool.false_ne_true) ResWork.noConfusion
    | true =>
      rw [removeFn_remove hon hp]
      refine ⟨.inr (.inr rfl), iff_of_false Bool.false_ne_true fun hne ↦ hne rfl,
        RcState.noConfusion, fun c hc ↦ ?_⟩
      refine (target_tail hout rfl ?_).trans (h.target c hc)
      exact iff_of_false Bool.false_ne_true ResWork.noConfusion

theorem PcieInv.finish (h : PcieInv s) (hrun : ∃ work, s.running = some (work, true)) :
    PcieInv { s with running := none } := by
  obtain ⟨work, hwork⟩ := hrun
  have hout : PcieRun.outstanding { s with running := none } = s.outstanding := by
    unfold PcieRun.outstanding
    rw [hwork]
    rfl
  refine ⟨h.state, h.probe, fun hw ↦ hout ▸ h.waiting hw, fun c hc ↦ ?_⟩
  have htarget : PcieRun.target { s with running := none } = s.target := by
    unfold PcieRun.target
    rw [hout]
  exact htarget.trans (h.target c hc)

theorem PcieInv.act {e : PcieStep} (h : PcieInv s) (he : e.enabled s = true)
    (hclear : e.clear s = true) : PcieInv (e.act s) := by
  cases e with
  | call c =>
    cases c with
    | request => exact h.request hclear
    | release => exact h.release hclear
  | start => exact h.start (of_decide_eq_true he).1
  | report =>
    obtain ⟨⟨work, done⟩, hrun, hnot⟩ := (Option.any_eq_true _ _).mp he
    cases done with
    | false => exact h.report ⟨work, hrun⟩
    | true => cases hnot
  | finish =>
    obtain ⟨⟨work, done⟩, hrun, hdone⟩ := (Option.any_eq_true _ _).mp he
    cases done with
    | false => cases hdone
    | true => exact h.finish ⟨work, hrun⟩

end Steps

/-- When nothing is queued or running, the endpoint is as the last call wanted it. -/
def PcieRun.Settled (s : PcieRun) : Prop :=
  s.res.wq = [] → s.running = none →
    (s.last = some .request → s.res.state = .scanned ∧ s.res.epDevProbe = true) ∧
      (s.last = some .release → s.res.state = .removed ∧ s.res.epDevProbe = false)

theorem PcieInv.settled {s : PcieRun} (h : PcieInv s) : s.Settled := by
  intro hwq hrun
  have hnil : s.outstanding = [] := by
    unfold PcieRun.outstanding
    rw [hwq, hrun]
    rfl
  have htarget := target_of_nil hnil
  have hwait : s.res.state ≠ .waitRemoved := fun hw ↦ by
    have hmem := h.waiting hw
    rw [hnil] at hmem
    cases hmem
  refine ⟨fun hlast ↦ ?_, fun hlast ↦ ?_⟩
  · rw [h.target _ hlast] at htarget
    cases hp : s.res.epDevProbe with
    | false =>
      rw [hp] at htarget
      cases htarget
    | true =>
      refine ⟨?_, rfl⟩
      rcases h.state with hs | hs | hs
      · exact hs
      · exact absurd hs hwait
      · exact absurd hs (h.probe.mp hp)
  · rw [h.target _ hlast] at htarget
    cases hp : s.res.epDevProbe with
    | true =>
      rw [hp] at htarget
      cases htarget
    | false =>
      refine ⟨?_, rfl⟩
      by_contra hne
      rw [h.probe.mpr hne] at hp
      cases hp

/-- In every run in which each call comes when the driver can do what it asks for, the driver
settles on the last call. -/
theorem pcie_settles {ready : Bool} {s : PcieRun}
    (hs : (pcieSystem ready).Reach (fun s e ↦ e.clear s = true) s) : s.Settled := by
  refine PcieInv.settled (hs.invariant ?_ fun s e h he hclear ↦ h.act he hclear)
  refine ⟨.inl rfl, iff_of_true rfl RcState.noConfusion, RcState.noConfusion, fun c hc ↦ ?_⟩
  cases hc

/-- The state after some steps. -/
def pcieAfter (es : List PcieStep) : PcieRun := (pcieSystem true).exec (pcieSystem true).init es

/-- The resource is released and requested again at once, and released when all is done. -/
def againRun : List PcieStep :=
  [.call .release, .call .request, .start, .report, .finish, .start, .report, .finish,
    .call .release, .start, .report, .finish]

theorem againRun_settled :
    (pcieAfter againRun).last = some .release ∧ (pcieAfter againRun).res.state = .removed ∧
      (pcieAfter againRun).Settled :=
  ⟨by decide, by decide, pcie_settles (System.Reach.init.exec (by decide) :
    (pcieSystem true).Reach (fun s e ↦ e.clear s = true) _)⟩

/-- The resource is released, requested and released again before anything is done. -/
def dropRun : List PcieStep :=
  [.call .release, .call .request, .call .release, .start, .report, .finish, .start, .report,
    .finish]

/-- The last call was a release, and the endpoint is there. -/
theorem pcie_release_dropped :
    (pcieSystem true).Reach (fun _ _ ↦ True) (pcieAfter dropRun) ∧
      (pcieAfter dropRun).res = ⟨.scanned, true, true, []⟩ ∧ (pcieAfter dropRun).running = none ∧
      (pcieAfter dropRun).last = some .release ∧ ¬ (pcieAfter dropRun).Settled := by
  refine ⟨System.Reach.init.exec (by decide), by decide, by decide, by decide, fun h ↦ ?_⟩
  exact absurd ((h (by decide) (by decide)).2 (by decide)).1 (by decide)

end Wwan.Pcie
