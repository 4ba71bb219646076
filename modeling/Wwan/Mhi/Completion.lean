import Wwan.Mhi.DataChan

/-!
# Every accepted buffer is completed once and in order

Each step of the data channels keeps the invariant of the rings and the counts and
that of the unread events. What the clients see follows from it: the buffers let go
are an initial part of the buffers accepted, and the rest is in flight.
-/

namespace Wwan.Mhi

open Wwan

/-- The invariant of the runs. -/
structure RunInv (cfg : Fin maxChan → ChanCfg) (s : MhiCntrl) : Prop where
  inv : Inv cfg 0 s
  events : ∀ c, EventInv cfg s c

variable {cfg : Fin maxChan → ChanCfg} {s : MhiCntrl} {c : Fin maxChan}

/-! ## Elements of the event rings -/

theorem live_completionEvent (c d : Fin maxChan) (ch : MhiChan) (seq code len : ℕ) :
    live d (completionEvent (cfg c) c ch seq code len) = decide (d = c) := by
  have hc : c.val < 128 := c.isLt
  have htype : (completionEvent (cfg c) c ch seq code len).tre.evType = txEvent := by
    unfold completionEvent MhiTre.evType MhiTre.evDword1 txEvent
    dsimp only
    omega
  have hchid : (completionEvent (cfg c) c ch seq code len).tre.evChid = c.val := by
    unfold completionEvent MhiTre.evChid MhiTre.evDword1 txEvent
    dsimp only
    omega
  unfold live
  rw [htype, hchid]
  simp [Fin.ext_iff, eq_comm]

theorem evCode_completionEvent {code len : ℕ} (hcode : isCompletion code = true)
    (hlen : len < 2 ^ 16) (ch : MhiChan) (seq : ℕ) :
    (completionEvent (cfg c) c ch seq code len).tre.evCode = code := by
  have hlt : code < 256 := by
    unfold isCompletion ccOverflow ccEob ccEot at hcode
    simp only [decide_eq_true_eq] at hcode
    omega
  unfold completionEvent MhiTre.evCode
  dsimp only
  omega

/-- Marking takes the transfer events of `c` and leaves those of the others. -/
theorem live_markStale (c d : Fin maxChan) (e : Event) :
    live d (markStale c e) = (live d e && decide (d ≠ c)) := by
  have hc : c.val < 128 := c.isLt
  unfold markStale
  by_cases h : e.tre.evType = txEvent ∧ c.val = e.tre.evChid
  · rw [if_pos h]
    have hstale : MhiTre.evType { e.tre with dword1 := MhiTre.evDword1 c staleEvent } ≠ txEvent := by
      unfold MhiTre.evType MhiTre.evDword1 staleEvent txEvent
      dsimp only
      omega
    unfold live
    dsimp only
    by_cases hd : d = c
    · simp [hstale, hd]
    · have hne : e.tre.evChid ≠ d.val := fun heq ↦ hd (Fin.ext (h.2.trans heq).symm)
      simp [hstale, hne]
  · rw [if_neg h]
    by_cases hd : d = c
    · subst hd
      have hdead : live d e = false := by
        unfold live
        simp only [decide_eq_false_iff_not]
        exact fun hl ↦ h ⟨hl.1, hl.2.symm⟩
      rw [hdead, Bool.false_and]
    · simp [hd]

/-- The address the event of a descriptor leads to is that of the next one. -/
theorem devRpOf_eq {ch : MhiChan} (hr : Rings (cfg c) ch) (seq : ℕ) :
    devRpOf ch.treRing ((cfg c).treIommuBase + treSize * (seq % (cfg c).elements)) =
      (cfg c).treBase + treSize * ((seq + 1) % (cfg c).elements) := by
  have hafter := hr.tre.after_eq seq
  have hmod : seq % (cfg c).elements < (cfg c).elements :=
    Nat.mod_lt _ (cfg c).elements_pos
  have hlt := (cfg c).tre_lt
  have hle : treSize * (seq % (cfg c).elements) + treSize ≤ treSize * (cfg c).elements :=
    Nat.mul_le_mul_left treSize hmod
  have hvirt : mhiToVirtual ch.treRing
      ((cfg c).treIommuBase + treSize * (seq % (cfg c).elements)) =
      (cfg c).treBase + treSize * (seq % (cfg c).elements) := by
    unfold mhiToVirtual
    rw [hr.treIommuBase, hr.treBase]
    omega
  unfold devRpOf
  rw [hvirt, Nat.mod_eq_of_lt (by omega)]
  unfold MhiRing.after at hafter
  rw [hr.treBase, hr.treElements, hr.treElSize] at hafter
  rw [hr.treBase]
  exact hafter

theorem xferParsing_eq_some {ch : MhiChan} {e : MhiTre} {target : ℕ} {p : Parsing} :
    xferParsing ch e target = some p ↔ ch.phase = .enabled ∧ isCompletion e.evCode = true ∧
      p = ⟨devRpOf ch.treRing e.ptr, e.evStatus, e.evLen, target⟩ := by
  unfold xferParsing
  split
  · rename_i hgo
    simp [hgo, eq_comm]
  · rename_i hgo
    simp only [reduceCtorEq, false_iff]
    exact fun h ↦ hgo ⟨h.1, h.2.1⟩

/-! ## Steps -/

theorem RunInv.call (h : RunInv cfg s) {q : QueueCall} (hq : (s.chan q.chan).phase ≠ .stopped) :
    RunInv cfg (mhiQueue cfg s q).2 := by
  obtain ⟨hinv, hframe⟩ := mhiQueue_inv h.inv hq
  exact ⟨hinv, fun c ↦ (h.events c).kept (hframe.kept c)⟩

/-- The parts of a channel the rings do not depend on. -/
theorem ChanInv.control {cf : ChanCfg} {ch : MhiChan} (h : ChanInv cf ch) {ph : Phase}
    (hlive : ph ≠ .stopped → ch.phase ≠ .stopped) (hstop : ph = .stopped → ch.head = ch.tail)
    (pa : Option Parsing) (rep : ℕ) :
    ChanInv cf { ch with phase := ph, parsing := pa, reported := rep } := by
  refine ⟨fun hph ↦ ?_, hstop, h.history⟩
  have hr := h.rings (hlive hph)
  exact ⟨hr.tre, hr.buf, hr.treElements, hr.bufElements, hr.treElSize, hr.treBase,
    hr.treIommuBase⟩

theorem Inv.control (h : Inv cfg 0 s) (ph : Phase) (pa : Option Parsing)
    (hlive : ph ≠ .stopped → (s.chan c).phase ≠ .stopped)
    (hstop : ph = .stopped → (s.chan c).head = (s.chan c).tail) :
    Inv cfg 0 (s.upd c fun ch ↦ { ch with phase := ph, parsing := pa }) :=
  h.upd ((h.chan c).control hlive hstop _ _) rfl rfl

theorem RunInv.report (h : RunInv cfg s) {seq code len : ℕ}
    (hphase : (s.chan c).phase = .enabled ∨ (s.chan c).phase = .disabled)
    (hle : (s.chan c).reported ≤ seq) (hlt : seq < (s.chan c).tail)
    (hcode : isCompletion code = true) (hlen : len < 2 ^ 16) :
    RunInv cfg (MhiStep.next cfg s (.report c seq code len)) := by
  have hu : Inv cfg 0 (s.upd c fun ch ↦ { ch with reported := seq + 1 }) :=
    h.inv.upd ((h.inv.chan c).control id (h.inv.chan c).stopped _ _) rfl rfl
  refine ⟨⟨hu.chan, hu.pending, hu.wake, hu.runtime⟩, fun d ↦ ?_⟩
  by_cases hd : d = c
  · subst hd
    have hev := h.events d
    have hchan : (MhiStep.next cfg s (.report d seq code len)).chan d =
        { s.chan d with reported := seq + 1 } :=
      s.upd_self d fun ch ↦ { ch with reported := seq + 1 }
    -- in its own event ring the new event comes last
    have hlive : liveOf (MhiStep.next cfg s (.report d seq code len)) d (cfg d).erIndex =
        liveOf s d (cfg d).erIndex ++ [completionEvent (cfg d) d (s.chan d) seq code len] := by
      unfold liveOf MhiStep.next
      dsimp only
      rw [Function.update_self, List.filter_append, List.filter_singleton, live_completionEvent]
      simp
    have hdone := (hev.done_le hphase).trans hle
    refine ⟨fun er her ↦ ?_, fun hq ↦ ?_, ?_, fun e he ↦ ?_, fun p hp ↦ ?_, fun _ ↦ ?_, ?_⟩
    · have hother : liveOf (MhiStep.next cfg s (.report d seq code len)) d er = liveOf s d er := by
        unfold liveOf MhiStep.next
        dsimp only
        rw [Function.update_of_ne her]
      rw [hother]
      exact hev.elsewhere er her
    · rw [hchan] at hq
      dsimp only at hq
      rcases hphase with hp | hp <;> simp [hp] at hq
    · rw [hlive, List.pairwise_append]
      refine ⟨hev.sorted, List.pairwise_singleton _ _, fun e he e' he' ↦ ?_⟩
      rw [List.mem_singleton.mp he']
      exact Nat.lt_of_lt_of_le (hev.fresh e he).lt hle
    · rw [hchan]
      rw [hlive, List.mem_append, List.mem_singleton] at he
      rcases he with he | rfl
      · obtain ⟨h₁, h₂, h₃, h₄, h₅⟩ := hev.fresh e he
        exact ⟨h₁, by dsimp only; omega, h₃, h₄, h₅⟩
      · exact ⟨hdone, Nat.lt_succ_self seq, rfl, rfl,
          by rw [evCode_completionEvent hcode hlen]; exact hcode⟩
    · rw [hchan] at hp ⊢
      obtain ⟨h₁, h₂, h₃, h₄⟩ := hev.parsing p hp
      exact ⟨h₁, h₂, h₃, by dsimp only; omega⟩
    · rw [hchan]
      exact hdone.trans (Nat.le_succ seq)
    · rw [hchan]
      exact hlt
  · refine (h.events d).kept (.of_chan_eq
      (s.upd_of_ne c (fun ch ↦ { ch with reported := seq + 1 }) hd) fun er ↦ ?_)
    have hdead : live d (completionEvent (cfg c) c (s.chan c) seq code len) = false := by
      rw [live_completionEvent]
      simp [hd]
    rw [liveOf, MhiStep.next]
    dsimp only
    rw [liveOf_push hdead]

theorem RunInv.other (h : RunInv cfg s) {er : ℕ} {tre : MhiTre} (htype : tre.evType ≠ txEvent) :
    RunInv cfg (MhiStep.next cfg s (.other er tre)) := by
  refine ⟨⟨h.inv.chan, h.inv.pending, h.inv.wake, h.inv.runtime⟩, fun d ↦ ?_⟩
  refine (h.events d).kept (.of_chan_eq rfl fun er' ↦ ?_)
  have hdead : live d ⟨tre, 0, 0⟩ = false := by simp [live, htype]
  rw [liveOf, MhiStep.next]
  dsimp only
  rw [liveOf_push hdead]

/-- Dropping an event that is not acted on. -/
theorem RunInv.pop (h : RunInv cfg s) {er : ℕ} {e : Event} {es : List Event}
    (hring : s.evRing er = e :: es) :
    RunInv cfg { s with evRing := Function.update s.evRing er es } :=
  ⟨⟨h.inv.chan, h.inv.pending, h.inv.wake, h.inv.runtime⟩, fun d ↦
    (h.events d).kept (.of_chan_eq rfl (liveOf_pop hring d))⟩

/-- Entering the loop of `parse_xfer_event`. -/
theorem RunInv.parse (h : RunInv cfg s) {er : ℕ} {e : Event} {es : List Event}
    (hring : s.evRing er = e :: es) (hlive : live c e = true)
    (hidle : ∀ d, (cfg d).erIndex = er → (s.chan d).parsing = none)
    (hphase : (s.chan c).phase = .enabled) {p : Parsing}
    (hdevRp : p.devRp = devRpOf (s.chan c).treRing e.tre.ptr) (htarget : p.target = e.seq + 1) :
    RunInv cfg ({ s with evRing := Function.update s.evRing er es }.upd c fun ch ↦
      { ch with parsing := some p }) := by
  have hpop := h.pop hring
  have hev := h.events c
  have hmem : e ∈ liveOf s c er := by
    rw [liveOf, hring]
    exact List.mem_filter.mpr ⟨List.mem_cons_self, hlive⟩
  have her : er = (cfg c).erIndex := by
    by_contra hne
    rw [hev.elsewhere er hne] at hmem
    exact absurd hmem List.not_mem_nil
  subst her
  have hnone := hidle c rfl
  have hfresh := hev.fresh e hmem
  have hhead : (s.chan c).head ≤ e.seq := by
    have hdone := hfresh.done_le
    rwa [MhiChan.done, hnone] at hdone
  have hr := (h.inv.chan c).rings (by simp [hphase])
  refine ⟨hpop.inv.control (s.chan c).phase (some p) id (h.inv.chan c).stopped, fun d ↦ ?_⟩
  by_cases hd : d = c
  · subst hd
    have hchan : ({ s with evRing := Function.update s.evRing (cfg d).erIndex es }.upd d fun ch ↦
        { ch with parsing := some p }).chan d = { s.chan d with parsing := some p } :=
      MhiCntrl.upd_self _ d _
    -- the event was the first of the channel, the others are behind it
    have hcons : liveOf s d (cfg d).erIndex = e :: es.filter (live d) := by
      rw [liveOf, hring, List.filter_cons_of_pos hlive]
    have hlater : ∀ e' ∈ es.filter (live d), e.seq < e'.seq := by
      have hsorted := hev.sorted
      rw [hcons] at hsorted
      exact (List.pairwise_cons.mp hsorted).1
    have hrest : liveOf ({ s with evRing := Function.update s.evRing (cfg d).erIndex es }.upd d
        fun ch ↦ { ch with parsing := some p }) d (cfg d).erIndex = es.filter (live d) := by
      unfold liveOf MhiCntrl.upd
      dsimp only
      rw [Function.update_self]
    refine ⟨(hpop.events d).elsewhere, fun hq ↦ ?_, (hpop.events d).sorted, fun e' he' ↦ ?_,
      fun p' hp' ↦ ?_, fun _ ↦ ?_, ?_⟩
    · rw [hchan] at hq
      simp [hphase] at hq
    · rw [hrest] at he'
      obtain ⟨-, h₂, h₃, h₄, h₅⟩ := hev.fresh e' (by rw [hcons]; exact List.mem_cons_of_mem e he')
      rw [hchan]
      refine ⟨?_, h₂, h₃, h₄, h₅⟩
      show p.target ≤ e'.seq
      rw [htarget]
      exact hlater e' he'
    · rw [hchan] at hp' ⊢
      obtain rfl : p = p' := Option.some.inj hp'
      refine ⟨hphase, ?_, ?_, ?_⟩
      · rw [hdevRp, hfresh.ptr, devRpOf_eq hr, htarget]
      · rw [htarget]
        exact hhead.trans (Nat.le_succ _)
      · rw [htarget]
        exact hfresh.lt
    · rw [hchan]
      show p.target ≤ (s.chan d).reported
      rw [htarget]
      exact hfresh.lt
    · rw [hchan]
      exact hev.reported_le
  · exact (hpop.events d).kept (.of_chan_eq (MhiCntrl.upd_of_ne _ c _ hd) fun _ ↦ List.Sublist.refl _)

theorem RunInv.fetch (h : RunInv cfg s) {er : ℕ}
    (hidle : ∀ d, (cfg d).erIndex = er → (s.chan d).parsing = none) :
    RunInv cfg (MhiStep.next cfg s (.fetch er)) := by
  rw [MhiStep.next]
  split
  · exact h
  · rename_i e es hring
    unfold processEvent parseXferEvent
    split
    · rename_i htype
      split
      · rename_i hchid
        split
        · exact h.pop hring
        · rename_i p hp
          have hlive : live ⟨e.tre.evChid, hchid⟩ e = true := by simp [live, htype]
          obtain ⟨hphase, -, rfl⟩ := xferParsing_eq_some.mp hp
          exact h.parse hring hlive hidle hphase rfl rfl
      · exact h.pop hring
    · exact h.pop hring

/-- Letting go of the oldest buffer of a channel, for an event that covers it or in
the course of a reset. -/
theorem EventInv.handedOver (h : EventInv cfg s c) (hd : Handed)
    (hwhy : (∃ p ∈ (s.chan c).parsing, (s.chan c).head < p.target) ∨
      (s.chan c).phase = .draining) : EventInv cfg (handedOver s c hd) c := by
  have hchan : (Mhi.handedOver s c hd).chan c = (s.chan c).delElements.hand hd :=
    MhiCntrl.upd_self _ c _
  have hlive : ∀ er, liveOf (Mhi.handedOver s c hd) c er = liveOf s c er := fun _ ↦ rfl
  rcases hwhy with ⟨p, hp, hlt⟩ | hdrain
  · have hdone : ((Mhi.handedOver s c hd).chan c).done = (s.chan c).done := by
      rw [hchan]
      simp only [MhiChan.done, MhiChan.hand, MhiChan.delElements, Option.mem_def.mp hp]
    refine ⟨h.elsewhere, fun hq ↦ ?_, h.sorted, fun e he ↦ ?_, fun p' hp' ↦ ?_, fun hph ↦ ?_, ?_⟩
    · rw [hchan] at hq
      exact h.quiet hq
    · obtain ⟨h₁, h₂, h₃, h₄, h₅⟩ := h.fresh e he
      exact ⟨hdone ▸ h₁, by rw [hchan]; exact h₂, by rw [hchan]; exact h₃, h₄, h₅⟩
    · rw [hchan] at hp' ⊢
      obtain rfl : p = p' := Option.some.inj (hp.symm.trans hp')
      obtain ⟨h₁, h₂, -, h₄⟩ := h.parsing p hp
      exact ⟨h₁, h₂, hlt, h₄⟩
    · rw [hdone, hchan]
      rw [hchan] at hph
      exact h.done_le hph
    · rw [hchan]
      exact h.reported_le
  · have hnil : liveOf s c (cfg c).erIndex = [] := h.quiet (.inr hdrain)
    have hphase : ((Mhi.handedOver s c hd).chan c).phase = .draining := by
      rw [hchan]
      exact hdrain
    refine ⟨h.elsewhere, fun _ ↦ hnil, h.sorted, fun e he ↦ ?_, fun p' hp' ↦ ?_, fun hph ↦ ?_, ?_⟩
    · rw [hlive, hnil] at he
      exact absurd he List.not_mem_nil
    · rw [hchan] at hp'
      exact absurd ((h.parsing p' hp').phase.symm.trans hdrain) (by decide)
    · simp [hphase] at hph
    · rw [hchan]
      exact h.reported_le

theorem events_handedOver (h : ∀ d, EventInv cfg s d) (hd : Handed)
    (hwhy : (∃ p ∈ (s.chan c).parsing, (s.chan c).head < p.target) ∨
      (s.chan c).phase = .draining) (d : Fin maxChan) : EventInv cfg (handedOver s c hd) d := by
  by_cases hdc : d = c
  · subst hdc
    exact (h d).handedOver hd hwhy
  · exact (h d).kept (.of_chan_eq (MhiCntrl.upd_of_ne _ c _ hdc) fun _ ↦ List.Sublist.refl _)

section Steps

variable (h : RunInv cfg s)

include h

/-- While the loop of `parse_xfer_event` goes on, its target is ahead. -/
theorem RunInv.loop {p : Parsing} (hp : p ∈ (s.chan c).parsing) :
    (s.chan c).treRing.rp = p.devRp ↔ (s.chan c).head = p.target := by
  have hpi := (h.events c).parsing p hp
  have hr := (h.inv.chan c).rings (by simp [hpi.phase])
  have hle := hpi.le.trans (h.events c).reported_le
  have hlt := hr.tre.lt
  have haddr := hr.tre.addr_eq_iff hpi.head_le (by omega)
  rw [hr.tre.rp_eq, hpi.devRp, ← haddr, hr.treBase, hr.treElSize, hr.treElements]

theorem RunInv.retire {calls : List QueueCall} {m : Bool}
    (hloop : AtLoop (s.chan c) true) (hcalls : CallsOk s calls) :
    RunInv cfg (MhiStep.next cfg s (.retire c calls m)) := by
  obtain ⟨p, hp, hgo⟩ := hloop
  have hpi := (h.events c).parsing p hp
  have hne : (s.chan c).head ≠ p.target := fun heq ↦
    (of_decide_eq_true hgo) ((h.loop hp).mpr heq)
  have hlt : (s.chan c).head < p.target := Nat.lt_of_le_of_ne hpi.head_le hne
  have htail := hpi.le.trans (h.events c).reported_le
  obtain ⟨hinv, hframe⟩ := xferTre_inv h.inv (by simp [hpi.phase]) (Nat.lt_of_lt_of_le hlt htail)
    hcalls p.status p.xferLen m
  simp only [MhiStep.next, Option.mem_def.mp hp]
  exact ⟨hinv, fun d ↦
    (events_handedOver h.events _ (.inl ⟨p, hp, hlt⟩) d).kept (hframe.kept d)⟩

theorem RunInv.drain {calls : List QueueCall} (hphase : (s.chan c).phase = .draining)
    (hne : (s.chan c).treRing.rp ≠ (s.chan c).treRing.wp) (hcalls : CallsOk s calls) :
    RunInv cfg (MhiStep.next cfg s (.drain c calls)) := by
  have hr := (h.inv.chan c).rings (by simp [hphase])
  have hlt : (s.chan c).head < (s.chan c).tail :=
    Nat.lt_of_le_of_ne hr.tre.le fun heq ↦ hne (hr.tre.rp_eq_wp_iff.mpr heq)
  obtain ⟨hd, -, hinv, hframe⟩ := resetTre_inv h.inv (by simp [hphase]) hlt hcalls
  exact ⟨hinv, fun d ↦ (events_handedOver h.events hd (.inr hphase) d).kept (hframe.kept d)⟩

/-- A change of the phase, or the end of the loop of `parse_xfer_event`. -/
theorem RunInv.control {ph : Phase} {pa : Option Parsing}
    (hlive : ph ≠ .stopped → (s.chan c).phase ≠ .stopped)
    (hstop : ph = .stopped → (s.chan c).head = (s.chan c).tail)
    (hquiet : ph = .stopped ∨ ph = .draining → liveOf s c (cfg c).erIndex = [])
    (hold : ph = .enabled ∨ ph = .disabled →
      (s.chan c).phase = .enabled ∨ (s.chan c).phase = .disabled)
    (hpa : pa = none) (hdone : (s.chan c).done = (s.chan c).head) :
    RunInv cfg (s.upd c fun ch ↦ { ch with phase := ph, parsing := pa }) := by
  subst hpa
  refine ⟨h.inv.control ph none hlive hstop, fun d ↦ ?_⟩
  by_cases hd : d = c
  · subst hd
    have hev := h.events d
    have hchan : (s.upd d fun ch ↦ { ch with phase := ph, parsing := none }).chan d =
        { s.chan d with phase := ph, parsing := none } := MhiCntrl.upd_self _ d _
    refine ⟨hev.elsewhere, fun hq ↦ ?_, hev.sorted, fun e he ↦ ?_, fun p hp ↦ ?_, fun hph ↦ ?_, ?_⟩
    · rw [hchan] at hq
      exact hquiet hq
    · obtain ⟨h₁, h₂, h₃, h₄, h₅⟩ := hev.fresh e he
      rw [hdone] at h₁
      rw [hchan]
      exact ⟨h₁, h₂, h₃, h₄, h₅⟩
    · rw [hchan] at hp
      exact nomatch hp
    · rw [hchan] at hph ⊢
      show (s.chan d).head ≤ (s.chan d).reported
      rw [← hdone]
      exact hev.done_le (hold hph)
    · rw [hchan]
      exact hev.reported_le
  · exact (h.events d).kept (.of_chan_eq (MhiCntrl.upd_of_ne _ c _ hd) fun _ ↦ List.Sublist.refl _)

theorem RunInv.parsed (hloop : AtLoop (s.chan c) false) :
    RunInv cfg (MhiStep.next cfg s (.parsed c)) := by
  obtain ⟨p, hp, hgo⟩ := hloop
  have hphase := ((h.events c).parsing p hp).phase
  have heq : (s.chan c).head = p.target := (h.loop hp).mp (by simpa using hgo)
  have hdone : (s.chan c).done = (s.chan c).head := by
    simp only [MhiChan.done, Option.mem_def.mp hp, heq]
  exact h.control id (fun hst ↦ by simp [hphase] at hst) (fun hq ↦ by simp [hphase] at hq)
    (fun _ ↦ .inl hphase) rfl hdone

theorem RunInv.disable (hphase : (s.chan c).phase = .enabled)
    (hnone : (s.chan c).parsing = none) : RunInv cfg (MhiStep.next cfg s (.disable c)) := by
  have hdone : (s.chan c).done = (s.chan c).head := by simp only [MhiChan.done, hnone]
  exact h.control (fun _ ↦ by simp [hphase]) nofun nofun (fun _ ↦ .inl hphase) hnone hdone

/-- A channel that is not enabled is not in the loop of `parse_xfer_event`. -/
theorem RunInv.parsing_eq_none (hphase : (s.chan c).phase ≠ .enabled) :
    (s.chan c).parsing = none := by
  cases hpa : (s.chan c).parsing with
  | none => rfl
  | some p => exact absurd ((h.events c).parsing p hpa).phase hphase

end Steps

/-- The freed rings do not matter while the channel is stopped. -/
theorem Inv.deinit (h : Inv cfg 0 s) (hphase : (s.chan c).phase = .draining)
    (heq : (s.chan c).treRing.rp = (s.chan c).treRing.wp) :
    (s.chan c).head = (s.chan c).tail ∧ Inv cfg 0 (s.upd c mhiDeinitChanCtxt) := by
  have hr := (h.chan c).rings (by simp [hphase])
  have hend := hr.tre.rp_eq_wp_iff.mp heq
  have hch : ChanInv (cfg c) (mhiDeinitChanCtxt (s.chan c)) :=
    ⟨fun hph ↦ absurd rfl hph, fun _ ↦ hend, (h.chan c).history⟩
  exact ⟨hend, h.upd hch rfl rfl⟩

theorem RunInv.deinit (h : RunInv cfg s) (hphase : (s.chan c).phase = .draining)
    (heq : (s.chan c).treRing.rp = (s.chan c).treRing.wp) :
    RunInv cfg (MhiStep.next cfg s (.deinit c)) := by
  obtain ⟨hend, hinv⟩ := h.inv.deinit hphase heq
  have hnone := h.parsing_eq_none (c := c) (by simp [hphase])
  have hdone : (s.chan c).done = (s.chan c).head := by simp only [MhiChan.done, hnone]
  have hstop : RunInv cfg (s.upd c fun ch ↦ { ch with phase := .stopped, parsing := none }) :=
    h.control nofun (fun _ ↦ hend) (fun _ ↦ (h.events c).quiet (.inr hphase)) nofun rfl hdone
  have hchan : (s.upd c mhiDeinitChanCtxt).chan c = mhiDeinitChanCtxt (s.chan c) :=
    MhiCntrl.upd_self s c _
  have hchan' : (s.upd c fun ch ↦ { ch with phase := .stopped, parsing := none }).chan c =
      { s.chan c with phase := .stopped, parsing := none } := MhiCntrl.upd_self s c _
  refine ⟨hinv, fun d ↦ ?_⟩
  by_cases hd : d = c
  · subst hd
    refine (hstop.events d).kept ⟨fun _ ↦ List.Sublist.refl _, ?_, ?_, ?_, ?_, ?_, ?_⟩ <;>
      rw [MhiStep.next, hchan, hchan'] <;> first | rfl | exact hnone
  · exact (h.events d).kept (.of_chan_eq (MhiCntrl.upd_of_ne _ c _ hd) fun _ ↦ List.Sublist.refl _)

/-- Marking the events of `c` leaves those of the other channels. -/
theorem filter_markStale {d : Fin maxChan} (hd : d ≠ c) (l : List Event) :
    (l.map (markStale c)).filter (live d) = l.filter (live d) := by
  induction l with
  | nil => rfl
  | cons e l ih =>
    have hlive : live d (markStale c e) = live d e := by
      rw [live_markStale]
      simp [hd]
    cases he : live d e with
    | false =>
      rw [List.map_cons, List.filter_cons_of_neg (by simp [hlive, he]), ih,
        List.filter_cons_of_neg (by simp [he])]
    | true =>
      have hsame : markStale c e = e := by
        unfold markStale
        refine if_neg fun hmark ↦ ?_
        simp only [live, decide_eq_true_eq] at he
        exact hd (Fin.ext (he.2.symm.trans hmark.2.symm))
      rw [List.map_cons, hsame, List.filter_cons_of_pos he, List.filter_cons_of_pos he, ih]

/-- Marking the events of `c` leaves none of them. -/
theorem filter_markStale_self (l : List Event) : (l.map (markStale c)).filter (live c) = [] := by
  rw [List.filter_eq_nil_iff]
  intro e he
  obtain ⟨e', -, rfl⟩ := List.mem_map.mp he
  rw [live_markStale]
  simp

theorem RunInv.mark (h : RunInv cfg s) (hphase : (s.chan c).phase = .disabled) :
    RunInv cfg (MhiStep.next cfg s (.mark c)) := by
  have hmarked : RunInv cfg (mhiMarkStaleEvents s (cfg c).erIndex c) := by
    refine ⟨⟨h.inv.chan, h.inv.pending, h.inv.wake, h.inv.runtime⟩, fun d ↦ ?_⟩
    refine (h.events d).kept (.of_chan_eq rfl fun er ↦ ?_)
    unfold liveOf mhiMarkStaleEvents
    dsimp only
    by_cases her : er = (cfg c).erIndex
    · subst her
      rw [Function.update_self]
      by_cases hd : d = c
      · subst hd
        rw [filter_markStale_self]
        exact List.nil_sublist _
      · rw [filter_markStale hd]
    · rw [Function.update_of_ne her]
  have hnil : liveOf (mhiMarkStaleEvents s (cfg c).erIndex c) c (cfg c).erIndex = [] := by
    unfold liveOf mhiMarkStaleEvents
    dsimp only
    rw [Function.update_self, filter_markStale_self]
  have hnone := h.parsing_eq_none (c := c) (by simp [hphase])
  have hdone : (s.chan c).done = (s.chan c).head := by simp only [MhiChan.done, hnone]
  exact hmarked.control (fun _ ↦ by show (s.chan c).phase ≠ _; simp [hphase]) nofun
    (fun _ ↦ hnil) nofun hnone hdone

/-- A buffer `__mhi_prepare_channel` puts on the rings of a downlink channel. -/
theorem mhiGenTre_inv (h : Inv cfg 0 s) (hphase : (s.chan c).phase ≠ .stopped)
    (hdir : (cfg c).dir = .fromDevice)
    (hroom : (s.chan c).tail + 1 < (s.chan c).head + (cfg c).elements) (b len : ℕ) :
    Inv cfg 0 (mhiGenTre s c b len false).2 ∧ Frame cfg s (mhiGenTre s c b len false).2 ∧
      ((mhiGenTre s c b len false).2.chan c).tail = (s.chan c).tail + 1 ∧
      ((mhiGenTre s c b len false).2.chan c).accepted = (s.chan c).accepted ++ [b] := by
  have hr := (h.chan c).rings hphase
  have hfull : mhiIsRingFull (s.chan c).treRing = false := by
    rw [Bool.eq_false_iff]
    intro hfull
    have := hr.full_iff.mp hfull
    omega
  have hgen : (mhiGenTre s c b len false).2 = s.upd c fun ch ↦ (ch.writeBufInfo fun i ↦
      { i with cbBuf := b, wp := ch.treRing.wp, len := len, num := ch.tail }).addElements :=
    MhiCntrl.upd_upd s c _ _
  rw [hgen]
  refine ⟨?_, ?_, ?_, ?_⟩
  · have hq : Inv cfg 0 (uplinkTaken cfg (s.upd c fun ch ↦ (ch.writeBufInfo fun i ↦
        { i with cbBuf := b, wp := ch.treRing.wp, len := len, num := ch.tail }).addElements) c) :=
      h.queued (((h.chan c).writeBufInfo hphase _).addElements hphase hfull) rfl rfl
    rwa [uplinkTaken, if_neg (by simp [hdir])] at hq
  · refine .upd s c rfl rfl rfl rfl rfl rfl (Nat.le_succ _) (fun i hle hlt ↦ ?_) fun _ i ↦ ?_
    · dsimp only [MhiChan.addElements]
      exact hr.writeBufInfo_stored _ i hle hlt
    · dsimp only [MhiChan.addElements]
      refine (s.chan c).writeBufInfo_used (fun _ ↦ ?_) i
      rfl
  · rw [MhiCntrl.upd_self]
    rfl
  · rw [MhiCntrl.upd_self]
    unfold MhiChan.addElements MhiChan.writeBufInfo
    dsimp only
    rw [Function.update_self]

/-- A buffer that cannot be mapped is not put on the rings. -/
theorem mhiGenTre_mapFails_inv (h : Inv cfg 0 s) (hphase : (s.chan c).phase ≠ .stopped)
    (b len : ℕ) :
    Inv cfg 0 (mhiGenTre s c b len true).2 ∧ Frame cfg s (mhiGenTre s c b len true).2 ∧
      ((mhiGenTre s c b len true).2.chan c).accepted = (s.chan c).accepted := by
  have hgen : (mhiGenTre s c b len true).2 = s.upd c fun ch ↦ ch.writeBufInfo fun i ↦
      { i with cbBuf := b, wp := ch.treRing.wp, len := len, num := ch.tail } := rfl
  rw [hgen]
  refine ⟨h.upd ((h.chan c).writeBufInfo hphase _) rfl rfl, ?_, ?_⟩
  · refine .upd s c rfl rfl rfl rfl rfl rfl le_rfl
      (((h.chan c).rings hphase).writeBufInfo_stored _) fun _ i ↦ ?_
    refine (s.chan c).writeBufInfo_used (fun _ ↦ ?_) i
    rfl
  · rw [MhiCntrl.upd_self]
    rfl

/-- The buffers `__mhi_prepare_channel` puts on the rings of a downlink channel. -/
theorem mhiGenTre_foldl_inv (len : ℕ) (bufs : List ℕ) (h : Inv cfg 0 s)
    (hphase : (s.chan c).phase ≠ .stopped) (hdir : (cfg c).dir = .fromDevice)
    (hroom : (s.chan c).tail + bufs.length < (s.chan c).head + (cfg c).elements) :
    Inv cfg 0 (bufs.foldl (fun s b ↦ (mhiGenTre s c b len false).2) s) ∧
      Frame cfg s (bufs.foldl (fun s b ↦ (mhiGenTre s c b len false).2) s) := by
  induction bufs generalizing s with
  | nil => exact ⟨h, .refl cfg s⟩
  | cons b bufs ih =>
    rw [List.length_cons] at hroom
    obtain ⟨hinv, hframe, htail, -⟩ := mhiGenTre_inv h hphase hdir (by omega) b len
    obtain ⟨hinv', hframe'⟩ := ih hinv (by rw [hframe.phase]; exact hphase) (by
      rw [htail, hframe.head]
      omega)
    exact ⟨hinv', hframe.trans hframe'⟩

/-- The rings as `mhi_init_chan_ctxt` sets them up are empty. -/
theorem Inv.init (h : Inv cfg 0 s) (hphase : (s.chan c).phase = .stopped) (bufBase : ℕ) :
    Inv cfg 0 (s.upd c fun ch ↦ startChan (cfg c) ch bufBase) := by
  have hacc := (h.chan c).accepted_stopped hphase
  have hch : ChanInv (cfg c) (startChan (cfg c) (s.chan c) bufBase) :=
    ⟨fun _ ↦ rings_startChan (cfg c) (s.chan c) bufBase, nofun,
      hacc.trans (List.append_nil _).symm⟩
  exact h.upd_empty hch ((h.chan c).stopped hphase) rfl

/-- `__mhi_prepare_channel`, with the buffers it puts on the rings. -/
theorem Inv.start (h : Inv cfg 0 s) (bufBase len : ℕ) {bufs : List ℕ}
    (hphase : (s.chan c).phase = .stopped) (hlt : bufs.length < (cfg c).elements)
    (hbufs : (cfg c).preAlloc = false → bufs = []) :
    Inv cfg 0 (MhiStep.next cfg s (.start c bufBase bufs len)) ∧
      Frame cfg (s.upd c fun ch ↦ startChan (cfg c) ch bufBase)
        (MhiStep.next cfg s (.start c bufBase bufs len)) := by
  have hinit := h.init hphase bufBase
  rw [MhiStep.next]
  cases hpre : (cfg c).preAlloc with
  | false =>
    rw [hbufs hpre]
    exact ⟨hinit, .refl cfg _⟩
  | true =>
    have hchan : (s.upd c fun ch ↦ startChan (cfg c) ch bufBase).chan c =
        startChan (cfg c) (s.chan c) bufBase := MhiCntrl.upd_self _ c _
    refine mhiGenTre_foldl_inv len bufs hinit ?_ ((cfg c).preAlloc_dir hpre) ?_
    · rw [hchan]
      exact nofun
    · rw [hchan]
      simpa [startChan, mhiInitChanCtxt] using hlt

theorem RunInv.init (h : RunInv cfg s) (hphase : (s.chan c).phase = .stopped) (bufBase : ℕ) :
    RunInv cfg (s.upd c fun ch ↦ startChan (cfg c) ch bufBase) := by
  have hnone := h.parsing_eq_none (c := c) (by simp [hphase])
  refine ⟨h.inv.init hphase bufBase, fun d ↦ ?_⟩
  by_cases hd : d = c
  · subst hd
    have hnil := (h.events d).quiet (.inl hphase)
    have hchan : (s.upd d fun ch ↦ startChan (cfg d) ch bufBase).chan d =
        startChan (cfg d) (s.chan d) bufBase := MhiCntrl.upd_self _ d _
    refine ⟨(h.events d).elsewhere, fun _ ↦ hnil, (h.events d).sorted, fun e he ↦ ?_,
      fun p hp ↦ ?_, fun _ ↦ ?_, ?_⟩
    · have he' : e ∈ liveOf s d (cfg d).erIndex := he
      rw [hnil] at he'
      exact absurd he' List.not_mem_nil
    · rw [hchan] at hp
      exact nomatch hp.symm.trans hnone
    · rw [hchan]
      have hdone : (startChan (cfg d) (s.chan d) bufBase).done = 0 := by
        unfold MhiChan.done startChan mhiInitChanCtxt
        rw [hnone]
      rw [hdone]
      exact Nat.zero_le _
    · rw [hchan]
      exact le_rfl
  · exact (h.events d).kept (.of_chan_eq (MhiCntrl.upd_of_ne _ c _ hd) fun _ ↦ List.Sublist.refl _)

theorem RunInv.start (h : RunInv cfg s) {bufBase len : ℕ} {bufs : List ℕ}
    (hphase : (s.chan c).phase = .stopped) (hlt : bufs.length < (cfg c).elements)
    (hbufs : (cfg c).preAlloc = false → bufs = []) :
    RunInv cfg (MhiStep.next cfg s (.start c bufBase bufs len)) := by
  obtain ⟨hinv, hframe⟩ := h.inv.start bufBase len hphase hlt hbufs
  exact ⟨hinv, fun d ↦ ((h.init hphase bufBase).events d).kept (hframe.kept d)⟩

/-- Every step keeps the invariant. -/
theorem RunInv.step (h : RunInv cfg s) (e : MhiStep) (he : e.enabled cfg s) :
    RunInv cfg (e.next cfg s) := by
  cases e with
  | call q => exact h.call he
  | pm p => exact ⟨⟨h.inv.chan, h.inv.pending, h.inv.wake, h.inv.runtime⟩, fun d ↦
      (h.events d).kept (.of_chan_eq rfl fun _ ↦ List.Sublist.refl _)⟩
  | report c seq code len => exact h.report he.1 he.2.1 he.2.2.1 he.2.2.2.1 he.2.2.2.2
  | other er tre => exact h.other he.1
  | fetch er => exact h.fetch he.2
  | retire c calls m => exact h.retire he.1 he.2
  | parsed c => exact h.parsed he
  | disable c => exact h.disable he.1 he.2
  | mark c => exact h.mark he
  | drain c calls => exact h.drain he.1 he.2.1 he.2.2
  | deinit c => exact h.deinit he.1 he.2
  | start c bufBase bufs len => exact h.start he.1 he.2.1 he.2.2

theorem RunInv.fresh (cfg : Fin maxChan → ChanCfg) : RunInv cfg MhiCntrl.fresh := by
  have hup : uplink cfg MhiCntrl.fresh = 0 := by
    simp [uplink, uplinkOf, MhiCntrl.fresh, MhiChan.fresh]
  refine ⟨⟨fun c ↦ ⟨fun hph ↦ absurd rfl hph, fun _ ↦ rfl, rfl⟩, ?_, ?_, rfl⟩, fun c ↦ ?_⟩
  · rw [hup]
    rfl
  · rw [hup]
    rfl
  · exact ⟨fun _ _ ↦ rfl, fun _ ↦ rfl, List.Pairwise.nil, nofun, nofun, nofun, le_rfl⟩

/-- The invariant holds in every state of every run. -/
theorem RunInv.of_reach {guard : MhiCntrl → MhiStep → Prop}
    (hs : (mhiSystem cfg).Reach guard s) : RunInv cfg s :=
  hs.invariant (RunInv.fresh cfg) fun _ e h he _ ↦ h.step e he

/-! ## What the clients see -/

/-- The buffers accepted are those let go, in order, and those in flight. -/
def ExactlyOnce (ch : MhiChan) : Prop :=
  ch.accepted = ch.handed.map Handed.buf ++ ch.inFlight.map BufInfo.cbBuf

/-- The pointers of the two rings designate elements of the same index. -/
def Lockstep (ch : MhiChan) : Prop :=
  ch.treRing.index ch.treRing.rp = ch.bufRing.index ch.bufRing.rp ∧
    ch.treRing.index ch.treRing.wp = ch.bufRing.index ch.bufRing.wp

/-- The event points at a descriptor between the pointers of the transfer ring. -/
def PointsInFlight (cfg : ChanCfg) (ch : MhiChan) (e : Event) : Prop :=
  ∃ i < ch.inFlight.length, e.tre.ptr = cfg.treIommuBase +
    treSize * ((ch.treRing.index ch.treRing.rp + i) % cfg.elements)

/-- `mhi_queue_buf` looks at the PM state before it looks at the ring. -/
def QueueCall.pmFirst : QueueCall → Bool
  | buf .. => true
  | _ => false

/-- The number of descriptors is the most a ring of `cfg` can hold. -/
def RingFull (cfg : ChanCfg) (ch : MhiChan) : Prop := ch.inFlight.length = cfg.elements - 1

/-- The queue functions: when they fail with `-ENOMEM`, and what a failure leaves. -/
structure QueueSpec (cfg : Fin maxChan → ChanCfg) (s : MhiCntrl) (q : QueueCall) : Prop where
  enomem_iff : (mhiQueue cfg s q).1 = .enomem ↔
    (RingFull (cfg q.chan) (s.chan q.chan) ∧ ¬ (q.pmFirst = true ∧ s.pmState.inErrorState = true)) ∨
      (¬ RingFull (cfg q.chan) (s.chan q.chan) ∧ s.pmState.inErrorState = false ∧
        q.mapFails = true)
  unchanged : RingFull (cfg q.chan) (s.chan q.chan) → (mhiQueue cfg s q).2 = s
  failed : (mhiQueue cfg s q).1 ≠ .ok →
    ∀ c, ((mhiQueue cfg s q).2.chan c).inFlight = (s.chan c).inFlight

theorem Rings.ringFull_iff {cf : ChanCfg} {ch : MhiChan} (h : ChanInv cf ch) (hr : Rings cf ch) :
    RingFull cf ch ↔ mhiIsRingFull ch.treRing = true := by
  have := cf.two_le
  have := hr.tre.le
  rw [hr.full_iff, RingFull, h.length_inFlight]
  omega

/-- What the queue functions return. -/
theorem mhiQueue_ret (q : QueueCall) :
    (mhiQueue cfg s q).1 = .enomem ↔
      (mhiIsRingFull (s.chan q.chan).treRing = true ∧
        ¬ (q.pmFirst = true ∧ s.pmState.inErrorState = true)) ∨
      (¬ mhiIsRingFull (s.chan q.chan).treRing = true ∧ s.pmState.inErrorState = false ∧
        q.mapFails = true) := by
  cases q with
  | skb c b len m =>
    cases hf : mhiIsRingFull (s.chan c).treRing <;> cases hp : s.pmState.inErrorState <;>
      cases m <;> simp [mhiQueue, mhiQueueSkb, QueueCall.chan, QueueCall.mapFails,
        QueueCall.pmFirst, hf, hp]
  | dma c b len =>
    cases hf : mhiIsRingFull (s.chan c).treRing <;> cases hp : s.pmState.inErrorState <;>
      simp [mhiQueue, mhiQueueDma, QueueCall.chan, QueueCall.mapFails, QueueCall.pmFirst, hf, hp]
  | buf c b len m =>
    cases hf : mhiIsRingFull (s.chan c).treRing <;> cases hp : s.pmState.inErrorState <;>
      cases m <;> simp [mhiQueue, mhiQueueBuf, mhiGenTre, QueueCall.chan, QueueCall.mapFails,
        QueueCall.pmFirst, hf, hp]

/-- A call on a full ring is refused before anything is touched. -/
theorem mhiQueue_full (q : QueueCall) (hf : mhiIsRingFull (s.chan q.chan).treRing = true) :
    (mhiQueue cfg s q).2 = s := by
  cases q with
  | skb c b len m =>
    have hf' : mhiIsRingFull (s.chan c).treRing = true := hf
    simp [mhiQueue, mhiQueueSkb, hf']
  | dma c b len =>
    have hf' : mhiIsRingFull (s.chan c).treRing = true := hf
    simp [mhiQueue, mhiQueueDma, hf']
  | buf c b len m =>
    have hf' : mhiIsRingFull (s.chan c).treRing = true := hf
    cases hp : s.pmState.inErrorState <;> simp [mhiQueue, mhiQueueBuf, hf', hp]

theorem RunInv.queueSpec (h : RunInv cfg s) {q : QueueCall}
    (hq : (s.chan q.chan).phase ≠ .stopped) : QueueSpec cfg s q := by
  have hfull := Rings.ringFull_iff (h.inv.chan q.chan) ((h.inv.chan q.chan).rings hq)
  refine ⟨?_, fun hf ↦ mhiQueue_full q (hfull.mp hf), fun hret c ↦ ?_⟩
  · rw [mhiQueue_ret, hfull]
  · have hcase := mhiQueue_case cfg s q
    generalize mhiQueue cfg s q = r at hcase hret
    cases hcase with
    | refused _ => rfl
    | queued f _ hroom => exact absurd rfl hret
    | unmapped f _ =>
      dsimp only
      by_cases hc : c = q.chan
      · subst hc
        have hw := (h.inv.chan q.chan).writeBufInfo hq (f (s.chan q.chan))
        have hr := (h.inv.chan q.chan).rings hq
        rw [MhiCntrl.upd_self, hw.inFlight_eq, (h.inv.chan q.chan).inFlight_eq]
        have hslot : (s.chan q.chan).bufRing.index (s.chan q.chan).bufRing.wp =
            ((s.chan q.chan).head + ((s.chan q.chan).tail - (s.chan q.chan).head)) %
              (cfg q.chan).elements := by
          rw [hr.buf.index_wp, hr.bufElements, Nat.add_sub_cancel' hr.buf.le]
        unfold MhiChan.writeBufInfo
        dsimp only
        rw [hslot, Ring.contents_update _ _ hr.count_lt]
      · rw [MhiCntrl.upd_of_ne _ _ _ hc]

theorem RunInv.pointsInFlight (h : RunInv cfg s) {er : ℕ} {e : Event} (he : e ∈ s.evRing er)
    (hlive : live c e = true) :
    er = (cfg c).erIndex ∧ e.epoch = (s.chan c).epoch ∧ PointsInFlight (cfg c) (s.chan c) e := by
  have hev := h.events c
  have hmem : e ∈ liveOf s c er := List.mem_filter.mpr ⟨he, hlive⟩
  have her : er = (cfg c).erIndex := by
    by_contra hne
    rw [hev.elsewhere er hne] at hmem
    exact absurd hmem List.not_mem_nil
  subst her
  have hfresh := hev.fresh e hmem
  have hphase : (s.chan c).phase ≠ .stopped := fun hst ↦ by
    rw [hev.quiet (.inl hst)] at hmem
    exact absurd hmem List.not_mem_nil
  have hr := (h.inv.chan c).rings hphase
  have hhead : (s.chan c).head ≤ (s.chan c).done := by
    unfold MhiChan.done
    split
    · exact le_rfl
    · rename_i p hp
      exact (hev.parsing p hp).head_le
  have hle := hhead.trans hfresh.done_le
  have hlt := Nat.lt_of_lt_of_le hfresh.lt hev.reported_le
  refine ⟨rfl, hfresh.epoch, e.seq - (s.chan c).head, ?_, ?_⟩
  · rw [(h.inv.chan c).length_inFlight]
    omega
  · rw [hfresh.ptr, hr.tre.index_rp, hr.treElements, Nat.mod_add_mod, Nat.add_sub_cancel' hle]

/-- In every state of every run: the buffers let go and those in flight are the
accepted ones, each once and in order; the rings are in lockstep; the descriptors in
flight and the available ones make up all but one element; a queue function that is
called without a PM error and whose buffer can be mapped fails with `-ENOMEM` exactly
on a full ring, and then changes nothing; `pending_pkts` is the number of uplink
descriptors in flight, with a runtime reference held while it is positive; and an
unread event that is not stale was written since the last start of its channel and
points at a descriptor in flight. -/
theorem dataChan_exactlyOnce (hs : (mhiSystem cfg).Reach (fun _ _ ↦ True) s) :
    (∀ c, ExactlyOnce (s.chan c)) ∧
      (∀ c, (s.chan c).phase ≠ .stopped → Lockstep (s.chan c) ∧
        ((s.chan c).inFlight.length : ℤ) + getNrAvailRingElements (s.chan c).treRing =
          (cfg c).elements - 1) ∧
      (∀ q : QueueCall, (s.chan q.chan).phase ≠ .stopped → QueueSpec cfg s q) ∧
      s.pendingPkts = ∑ c, (if (cfg c).dir = .toDevice then ((s.chan c).inFlight.length : ℤ) else 0) ∧
      s.runtime = (if 0 < s.pendingPkts then 1 else 0) ∧
      ∀ c er, ∀ e ∈ s.evRing er, live c e = true →
        er = (cfg c).erIndex ∧ e.epoch = (s.chan c).epoch ∧
          PointsInFlight (cfg c) (s.chan c) e := by
  have h := RunInv.of_reach hs
  refine ⟨fun c ↦ ?_, fun c hph ↦ ⟨⟨?_, ?_⟩, ?_⟩, fun q hq ↦ h.queueSpec hq, ?_, h.inv.runtime,
    fun c er e he hl ↦ h.pointsInFlight he hl⟩
  · rw [ExactlyOnce, (h.inv.chan c).inFlight_eq]
    exact (h.inv.chan c).history
  · have hr := (h.inv.chan c).rings hph
    rw [hr.tre.index_rp, hr.buf.index_rp, hr.treElements, hr.bufElements]
  · have hr := (h.inv.chan c).rings hph
    rw [hr.tre.index_wp, hr.buf.index_wp, hr.treElements, hr.bufElements]
  · have hr := (h.inv.chan c).rings hph
    rw [(h.inv.chan c).length_inFlight, hr.tre.nrAvail_eq, hr.treElements]
  · rw [h.inv.pending, uplink, Nat.cast_zero, add_zero]
    refine Finset.sum_congr rfl fun c _ ↦ ?_
    have := (h.inv.chan c).head_le
    unfold uplinkOf
    rw [(h.inv.chan c).length_inFlight]
    split <;> omega

theorem smallCfg_tre_lt : 4096 + treSize * 2 < 2 ^ 64 := by decide

theorem smallCfg_iommu_lt : 8192 + treSize * 2 < 2 ^ 64 := by decide

/-- Uplink channels with room for one descriptor. -/
def smallCfg : Fin maxChan → ChanCfg := fun _ ↦
  { elements := 2
    dir := .toDevice
    xferType := .skb
    preAlloc := false
    erIndex := 0
    treBase := 4096
    treIommuBase := 8192
    two_le := by decide
    preAlloc_dir := nofun
    tre_lt := smallCfg_tre_lt
    iommu_lt := smallCfg_iommu_lt }

/-- The first channel. -/
def chan0 : Fin maxChan := ⟨0, by decide⟩

/-- A buffer is queued and completed, and from the callback another one is queued. -/
def requeueRun : List MhiStep :=
  [.start chan0 65536 [] 0, .call (.skb chan0 1 100 false), .report chan0 0 ccEot 0, .fetch 0,
    .retire chan0 [.skb chan0 2 100 false] false, .parsed chan0]

/-- After `requeueRun` buffer 1 has been handed over and buffer 2 is in flight. -/
theorem requeueRun_exactlyOnce :
    (mhiSystem smallCfg).Along (fun _ _ ↦ True) MhiCntrl.fresh requeueRun ∧
      (((mhiSystem smallCfg).exec MhiCntrl.fresh requeueRun).chan chan0).handed =
        [.xferCb ⟨1, .ok, 0⟩] ∧
      ExactlyOnce (((mhiSystem smallCfg).exec MhiCntrl.fresh requeueRun).chan chan0) := by
  have hrun : (mhiSystem smallCfg).Along (fun _ _ ↦ True) MhiCntrl.fresh requeueRun := by decide
  exact ⟨hrun, by decide, (dataChan_exactlyOnce (.exec .init hrun)).1 chan0⟩

/-- A channel that has been started, with an empty ring. -/
def startedRun : List MhiStep := [.start chan0 65536 [] 0]

/-- A full ring, and the device in an error state. -/
def fullRun : List MhiStep :=
  [.start chan0 65536 [] 0, .call (.skb chan0 1 100 false), .pm .sysErrDetect]

/-- A channel that has been started and stopped again. -/
def stoppedRun : List MhiStep :=
  [.start chan0 65536 [] 0, .disable chan0, .mark chan0, .deinit chan0]

/-- `-ENOMEM` does not go with a full ring: a buffer that cannot be mapped is refused
with it although the ring is empty, and on a full ring `mhi_queue_buf` returns `-EIO`
in an error state. On a stopped channel a buffer is accepted and lost. -/
theorem queue_codes :
    (mhiSystem smallCfg).Along (fun _ _ ↦ True) MhiCntrl.fresh startedRun ∧
      (mhiQueue smallCfg ((mhiSystem smallCfg).exec MhiCntrl.fresh startedRun)
        (.skb chan0 1 100 true)).1 = .enomem ∧
      ¬ RingFull (smallCfg chan0)
        (((mhiSystem smallCfg).exec MhiCntrl.fresh startedRun).chan chan0) ∧
      (mhiSystem smallCfg).Along (fun _ _ ↦ True) MhiCntrl.fresh fullRun ∧
      RingFull (smallCfg chan0) (((mhiSystem smallCfg).exec MhiCntrl.fresh fullRun).chan chan0) ∧
      (mhiQueue smallCfg ((mhiSystem smallCfg).exec MhiCntrl.fresh fullRun)
        (.buf chan0 2 100 false)).1 = .eio ∧
      (mhiSystem smallCfg).Along (fun _ _ ↦ True) MhiCntrl.fresh stoppedRun ∧
      (mhiQueue smallCfg ((mhiSystem smallCfg).exec MhiCntrl.fresh stoppedRun)
        (.skb chan0 1 100 false)).1 = .ok ∧
      ¬ ExactlyOnce ((mhiQueue smallCfg ((mhiSystem smallCfg).exec MhiCntrl.fresh stoppedRun)
        (.skb chan0 1 100 false)).2.chan chan0) := by
  unfold RingFull ExactlyOnce
  decide

end Wwan.Mhi
