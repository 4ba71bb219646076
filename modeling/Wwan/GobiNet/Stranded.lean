import Mathlib.Data.List.Nodup
import Mathlib.Order.Basic
import Wwan.GobiNet.Readers

/-!
# Readers that sleep on data

A message that is stored notifies one waiter, and the notification is a promise that someone looks
at the read list. The promise is kept for the readers of one transaction id separately: as long as
a reader waits for it, there are at least as many notified readers with the same transaction id as
there are messages it would take (`Covered`). That takes two things. Readers of any message
and readers of one must not wait side by side, because a notification can then go to the wrong
kind. And a reader that was notified must not give up, unless the others that are notified
suffice.
-/

namespace Wwan.GobiNet

open Wwan

/-! ## Messages and promises -/

/-- The messages of a client that a reader would take. -/
def ReadState.wanted (s : ReadState) (clientID transactionID : UInt16) : ℕ :=
  (s.clients clientID).mpList.countP (accepts transactionID)

/-- The notified readers of a client with a transaction id. -/
def ReadState.promised (s : ReadState) (clientID transactionID : UInt16) : ℕ :=
  s.notified.countP fun r ↦ r.clientID = clientID ∧ r.transactionID = transactionID

/-- A reader of the client waits for the transaction id. -/
def ReadState.Waits (s : ReadState) (clientID transactionID : UInt16) : Prop :=
  ∃ r ∈ (s.clients clientID).mpReadNotifyList, r.transactionID = transactionID

instance (s : ReadState) (clientID transactionID : UInt16) :
    Decidable (s.Waits clientID transactionID) :=
  inferInstanceAs (Decidable (∃ r ∈ _, _))

/-- Readers of any message and readers of one do not wait side by side. -/
def ReadState.Alike (s : ReadState) (clientID transactionID : UInt16) : Prop :=
  ∀ r ∈ (s.clients clientID).mpReadNotifyList, r.transactionID = 0 ↔ transactionID = 0

instance (s : ReadState) (clientID transactionID : UInt16) :
    Decidable (s.Alike clientID transactionID) :=
  inferInstanceAs (Decidable (∀ r ∈ _, (_ ↔ _)))

/-- Who has to wait joins others of its kind, and who was notified gives up only if nobody waits
for the same transaction id, or the others that are notified suffice. -/
def ReadStep.Fair (s : ReadState) : ReadStep → Prop
  | start clientID transactionID _ memory =>
    memory = true → s.wanted clientID transactionID = 0 → s.Alike clientID transactionID
  | resume reader memory =>
    reader.sync = true → memory = true → s.wanted reader.clientID reader.transactionID = 0 →
      s.Alike reader.clientID reader.transactionID
  | leave reader =>
    reader ∈ s.notified → s.Waits reader.clientID reader.transactionID →
      s.wanted reader.clientID reader.transactionID <
        s.promised reader.clientID reader.transactionID
  | store _ _ _ | interrupt _ => True

instance (s : ReadState) : (e : ReadStep) → Decidable (e.Fair s)
  | .start _ _ _ _ => inferInstanceAs (Decidable (_ → _ → _))
  | .resume _ _ => inferInstanceAs (Decidable (_ → _ → _ → _))
  | .leave _ => inferInstanceAs (Decidable (_ → _ → _))
  | .store _ _ _ | .interrupt _ => inferInstanceAs (Decidable True)

/-- What is kept in fair runs. -/
structure Covered (s : ReadState) : Prop where
  home : ∀ c, ∀ r ∈ (s.clients c).mpReadNotifyList, r.clientID = c
  alike : ∀ c, ∀ r ∈ (s.clients c).mpReadNotifyList, s.Alike c r.transactionID
  promise : ∀ c t, s.Waits c t → s.wanted c t ≤ s.promised c t

section Accepts

variable {l : List ReadMem} {t : UInt16}

theorem countP_accepts_eq_zero : l.countP (accepts t) = 0 ↔ ∀ m ∈ l, accepts t m = false := by
  rw [List.countP_eq_zero]
  exact forall₂_congr fun m _ ↦ by rw [Bool.not_eq_true]

/-- A message that a waiter would take notifies readers of its transaction id only. -/
theorem transactionID_of_notifies {m : ReadMem} {r w : Reader}
    (hr : notifies m.transactionID r = true) (hw : accepts w.transactionID m = true)
    (halike : r.transactionID = 0 ↔ w.transactionID = 0) :
    r.transactionID = w.transactionID := by
  simp only [notifies, accepts, decide_eq_true_eq] at hr hw
  by_cases hzero : w.transactionID = 0
  · rw [halike.mpr hzero, hzero]
  · have hm := hw.resolve_left hzero
    have hne : m.transactionID ≠ 0 := hm ▸ hzero
    rw [hm, (hr.resolve_left hne).resolve_left (halike.not.mpr hzero)]

/-- A message that a waiter would take notifies somebody. -/
theorem notifies_of_accepts {m : ReadMem} {w : Reader}
    (hw : accepts w.transactionID m = true) : notifies m.transactionID w = true := by
  simp only [notifies, accepts, decide_eq_true_eq] at hw ⊢
  rcases hw with h | h
  · exact .inr (.inl h)
  · exact .inr (.inr h.symm)

end Accepts

/-! ## Steps -/

section Set

variable (s : ReadState) (c : UInt16) (client : ClientMem)

/-- What holds of the client that is changed, and of the others, holds of all. -/
theorem forall_clients_set {P : UInt16 → ClientMem → Prop} (hself : P c client)
    (hother : ∀ c' ≠ c, P c' (s.clients c')) : ∀ c', P c' ((s.set c client).clients c') :=
  (Function.forall_update_iff s.clients P).mpr ⟨hself, hother⟩

end Set

section Steps

variable {s : ReadState} {reader : Reader}

/-- What is kept of one client, as many readers of a transaction id as given being notified. -/
structure ClientMem.Served (client : ClientMem) (c : UInt16) (promised : UInt16 → ℕ) : Prop where
  home : ∀ r ∈ client.mpReadNotifyList, r.clientID = c
  alike : ∀ r ∈ client.mpReadNotifyList, ∀ r' ∈ client.mpReadNotifyList,
    r'.transactionID = 0 ↔ r.transactionID = 0
  promise : ∀ r ∈ client.mpReadNotifyList,
    client.mpList.countP (accepts r.transactionID) ≤ promised r.transactionID

theorem Covered.served (h : Covered s) (c : UInt16) : (s.clients c).Served c (s.promised c) :=
  ⟨h.home c, h.alike c, fun r hr ↦ h.promise c _ ⟨r, hr, rfl⟩⟩

theorem covered_of_served (h : ∀ c, (s.clients c).Served c (s.promised c)) : Covered s := by
  refine ⟨fun c ↦ (h c).home, fun c ↦ (h c).alike, ?_⟩
  rintro c t ⟨r, hr, rfl⟩
  exact (h c).promise r hr

/-- A reader is added that is of the kind of the others and wants nothing of what is there. -/
theorem ClientMem.Served.append {client : ClientMem} {promised : UInt16 → ℕ}
    (h : client.Served reader.clientID promised)
    (halike : ∀ r ∈ client.mpReadNotifyList, r.transactionID = 0 ↔ reader.transactionID = 0)
    (hnone : client.mpList.countP (accepts reader.transactionID) = 0) :
    (client.addToNotifyList reader).Served reader.clientID promised := by
  refine ⟨?_, ?_, ?_⟩
  · intro r hr
    rcases List.mem_append.mp hr with hr | hr
    · exact h.home r hr
    · rw [List.mem_singleton.mp hr]
  · intro r hr r' hr'
    rcases List.mem_append.mp hr with hr | hr <;> rcases List.mem_append.mp hr' with hr' | hr'
    · exact h.alike r hr r' hr'
    · rw [List.mem_singleton.mp hr']
      exact (halike r hr).symm
    · rw [List.mem_singleton.mp hr]
      exact halike r' hr'
    · rw [List.mem_singleton.mp hr, List.mem_singleton.mp hr']
  · intro r hr
    rcases List.mem_append.mp hr with hr | hr
    · exact h.promise r hr
    · rw [List.mem_singleton.mp hr]
      exact hnone.trans_le (Nat.zero_le _)

/-- The promises hold if one more reader with the transaction id of `reader` is notified. -/
structure CoveredBy (s : ReadState) (reader : Reader) : Prop where
  home : ∀ c, ∀ r ∈ (s.clients c).mpReadNotifyList, r.clientID = c
  alike : ∀ c, ∀ r ∈ (s.clients c).mpReadNotifyList, s.Alike c r.transactionID
  promise : ∀ c t, s.Waits c t → s.wanted c t ≤ s.promised c t +
    if reader.clientID = c ∧ reader.transactionID = t then 1 else 0

theorem Covered.coveredBy (h : Covered s) (reader : Reader) : CoveredBy s reader :=
  ⟨h.home, h.alike, fun c t hwaits ↦ Nat.le_trans (h.promise c t hwaits) (Nat.le_add_right _ _)⟩

/-- The client of `reader` is changed. -/
theorem CoveredBy.set (h : CoveredBy s reader) {client : ClientMem}
    (hclient : client.Served reader.clientID (s.promised reader.clientID)) :
    Covered (s.set reader.clientID client) := by
  refine covered_of_served ?_
  refine forall_clients_set s reader.clientID client
    (P := fun c client ↦ client.Served c (s.promised c)) hclient fun c hne ↦ ?_
  refine ⟨h.home c, h.alike c, fun r hr ↦ ?_⟩
  have hle := h.promise c _ ⟨r, hr, rfl⟩
  rwa [if_neg fun hboth ↦ hne hboth.1.symm] at hle

/-- The list of waiters of a client loses entries, and the messages change. -/
theorem CoveredBy.shrink (h : CoveredBy s reader) {c : UInt16} {client : ClientMem}
    (hlist : client.mpReadNotifyList ⊆ (s.clients c).mpReadNotifyList)
    (hself : ∀ t, s.Waits c t → client.mpList.countP (accepts t) ≤ s.promised c t)
    (hc : reader.clientID = c) : Covered (s.set c client) := by
  subst hc
  refine h.set ⟨?_, ?_, ?_⟩
  · exact fun r hr ↦ h.home _ r (hlist hr)
  · exact fun r hr r' hr' ↦ h.alike _ r (hlist hr) r' (hlist hr')
  · exact fun r hr ↦ hself _ ⟨r, hlist hr, rfl⟩

theorem promised_notify (r : Reader) (c t : UInt16) :
    ReadState.promised { s with notified := s.notified ++ [r] } c t =
      s.promised c t + if r.clientID = c ∧ r.transactionID = t then 1 else 0 := by
  unfold ReadState.promised
  rw [List.countP_append, List.countP_singleton]
  simp only [decide_eq_true_eq]

theorem promised_erase (hmem : reader ∈ s.notified) (c t : UInt16) :
    s.promised c t = ReadState.promised { s with notified := s.notified.erase reader } c t +
      if reader.clientID = c ∧ reader.transactionID = t then 1 else 0 := by
  unfold ReadState.promised
  rw [(List.perm_cons_erase hmem).countP_eq, List.countP_cons]
  simp only [decide_eq_true_eq]

theorem Covered.notify (h : Covered s) (r : Reader) :
    Covered { s with notified := s.notified ++ [r] } := by
  refine ⟨h.home, h.alike, fun c t hwaits ↦ ?_⟩
  rw [promised_notify]
  exact Nat.le_trans (h.promise c t hwaits) (Nat.le_add_right _ _)

/-- A reader that wants nothing of what is there waits among its kind. -/
theorem CoveredBy.wait (h : CoveredBy s reader) (memory : Bool)
    (hnone : s.wanted reader.clientID reader.transactionID = 0)
    (halike : memory = true → s.Alike reader.clientID reader.transactionID) :
    Covered (s.wait reader memory) := by
  have hown : Covered s := by
    refine ⟨h.home, h.alike, fun c t hwaits ↦ ?_⟩
    have hle := h.promise c t hwaits
    split at hle
    case isTrue hboth =>
      obtain ⟨rfl, rfl⟩ := hboth
      exact hnone.trans_le (Nat.zero_le _)
    · exact hle
  unfold ReadState.wait
  split
  case isFalse => exact hown
  case isTrue hmemory =>
    exact h.set ((hown.served _).append (halike hmemory) hnone)

/-- A reader takes a message, which is one less that is wanted, or waits. -/
theorem CoveredBy.take (h : CoveredBy s reader) (memory : Bool)
    (halike : reader.sync = true → memory = true →
      s.wanted reader.clientID reader.transactionID = 0 →
        s.Alike reader.clientID reader.transactionID) : Covered (s.take reader memory) := by
  unfold ReadState.take ClientMem.popFromReadMemList
  cases hpop : popFirst (accepts reader.transactionID) (s.clients reader.clientID).mpList with
  | none =>
    have hnone : s.wanted reader.clientID reader.transactionID = 0 :=
      countP_accepts_eq_zero.mpr (popFirst_eq_none_iff.mp hpop)
    dsimp only [Option.map_none]
    split
    case isTrue hsync => exact h.wait memory hnone fun hmemory ↦ halike hsync hmemory hnone
    case isFalse =>
      -- Without memory there is no entry either.
      have hwait := h.wait false hnone fun hfalse ↦ absurd hfalse Bool.false_ne_true
      exact hwait
  | some x =>
    obtain ⟨mem, rest⟩ := x
    dsimp only [Option.map_some]
    have hcovered : Covered (s.set reader.clientID
        { s.clients reader.clientID with mpList := rest }) := by
      refine h.shrink (List.Subset.refl _) (fun t hwaits ↦ ?_) rfl
      have hle := h.promise _ t hwaits
      have hcount := countP_popFirst (q := accepts t) hpop
      unfold ReadState.wanted at hle
      by_cases ht : reader.transactionID = t
      · subst ht
        rw [if_pos (fits_of_popFirst hpop)] at hcount
        rw [if_pos ⟨rfl, rfl⟩] at hle
        dsimp only
        omega
      · rw [if_neg fun hboth ↦ ht hboth.2] at hle
        dsimp only
        omega
    exact ⟨hcovered.home, hcovered.alike, hcovered.promise⟩

theorem Covered.start (h : Covered s) (c t : UInt16) (sync memory : Bool)
    (hfair : (ReadStep.start c t sync memory).Fair s) : Covered (s.start c t sync memory) := by
  have hcalled : Covered { s with fresh := s.fresh + 1 } := ⟨h.home, h.alike, h.promise⟩
  unfold ReadState.start
  dsimp only
  split
  · exact (hcalled.coveredBy _).take memory fun _ ↦ hfair
  · unfold ReadState.readAsync
    split
    · exact hcalled.notify _
    case isFalse hnone =>
      have hnone' : s.wanted c t = 0 := by
        refine countP_accepts_eq_zero.mpr fun m hm ↦ ?_
        rw [List.any_eq_true] at hnone
        exact Bool.eq_false_iff.mpr fun hacc ↦ hnone ⟨m, hm, hacc⟩
      exact (hcalled.coveredBy _).wait memory hnone' fun hmemory ↦ hfair hmemory hnone'

/-- A message that some waiter wants goes with a promise to that waiter's kind. -/
theorem Covered.store (h : Covered s) (c t : UInt16) (memory : Bool) :
    Covered (s.store c t memory) := by
  unfold ReadState.store
  split
  case isFalse => exact h
  case isTrue =>
    set mem : ReadMem := ⟨s.fresh, c, t⟩
    have hcount : ∀ t', ((s.clients c).addToReadMemList mem).mpList.countP (accepts t') =
        s.wanted c t' + if accepts t' mem then 1 else 0 := by
      intro t'
      unfold ClientMem.addToReadMemList ReadState.wanted
      rw [List.countP_append, List.countP_singleton]
    unfold ClientMem.notifyAndPopNotifyList
    dsimp only
    cases hpop : popFirst (notifies t) ((s.clients c).addToReadMemList mem).mpReadNotifyList with
    | none =>
      dsimp only [Option.map_none]
      have hcovered : Covered (s.set c ((s.clients c).addToReadMemList mem)) := by
        refine (h.coveredBy ⟨0, c, 0, true⟩).shrink (List.Subset.refl _) ?_ rfl
        rintro t' ⟨w, hw, rfl⟩
        have hnot : accepts w.transactionID mem ≠ true := by
          intro hacc
          have hnotified := popFirst_eq_none_iff.mp hpop w hw
          rw [notifies_of_accepts (m := mem) hacc] at hnotified
          cases hnotified
        rw [hcount, if_neg hnot]
        exact h.promise c _ ⟨w, hw, rfl⟩
      exact ⟨hcovered.home, hcovered.alike, hcovered.promise⟩
    | some x =>
      obtain ⟨r, rest⟩ := x
      dsimp only [Option.map_some]
      have hmem : r ∈ (s.clients c).mpReadNotifyList := mem_of_popFirst hpop
      have hrest : rest ⊆ (s.clients c).mpReadNotifyList := subset_of_popFirst hpop
      have hcovered : Covered ({ s with notified := s.notified ++ [r] }.set c
          { (s.clients c).addToReadMemList mem with mpReadNotifyList := rest }) := by
        refine ((h.notify r).coveredBy ⟨0, c, 0, true⟩).shrink hrest ?_ rfl
        rintro t' ⟨w, hw, rfl⟩
        have hle := h.promise c _ ⟨w, hw, rfl⟩
        rw [promised_notify]
        dsimp only
        rw [hcount]
        by_cases hacc : accepts w.transactionID mem = true
        · -- The reader that is notified is of the kind of the waiter.
          have hkind := transactionID_of_notifies (m := mem) (fits_of_popFirst hpop) hacc
            (h.alike c w hw r hmem)
          rw [if_pos hacc, if_pos ⟨h.home c r hmem, hkind⟩]
          exact Nat.add_le_add_right hle 1
        · rw [if_neg hacc]
          exact Nat.le_trans hle (Nat.le_add_right _ _)
      exact ⟨hcovered.home, hcovered.alike, hcovered.promise⟩

/-- A notified reader goes on. -/
theorem Covered.resume (h : Covered s) (hmem : reader ∈ s.notified) (memory : Bool)
    (hfair : (ReadStep.resume reader memory).Fair s) : Covered (s.resume reader memory) := by
  have hby : CoveredBy { s with notified := s.notified.erase reader } reader := by
    refine ⟨h.home, h.alike, fun c t hwaits ↦ ?_⟩
    rw [← promised_erase hmem]
    exact h.promise c t hwaits
  exact hby.take memory hfair

/-- A reader gives up. -/
theorem Covered.leave (h : Covered s) (hfair : (ReadStep.leave reader).Fair s) :
    Covered (s.leave reader) := by
  unfold ReadState.leave
  by_cases hmem : reader ∈ s.notified
  · have hby : CoveredBy { s with notified := s.notified.erase reader } reader := by
      refine ⟨h.home, h.alike, fun c t hwaits ↦ ?_⟩
      rw [← promised_erase hmem]
      exact h.promise c t hwaits
    have hcovered : Covered ({ s with notified := s.notified.erase reader }.set reader.clientID
        { s.clients reader.clientID with
          mpReadNotifyList :=
            (s.clients reader.clientID).mpReadNotifyList.erase reader }) := by
      refine hby.shrink List.erase_subset (fun t hwaits ↦ ?_) rfl
      have herase := promised_erase hmem reader.clientID t
      by_cases ht : reader.transactionID = t
      · subst ht
        have hlt := hfair hmem hwaits
        rw [if_pos ⟨rfl, rfl⟩] at herase
        unfold ReadState.wanted at hlt
        dsimp only
        omega
      · have hle := h.promise reader.clientID t hwaits
        rw [if_neg fun hboth ↦ ht hboth.2] at herase
        unfold ReadState.wanted at hle
        dsimp only
        omega
    exact ⟨hcovered.home, hcovered.alike, hcovered.promise⟩
  · rw [List.erase_of_not_mem hmem]
    have hcovered : Covered (s.set reader.clientID
        { s.clients reader.clientID with
          mpReadNotifyList :=
            (s.clients reader.clientID).mpReadNotifyList.erase reader }) :=
      (h.coveredBy reader).shrink List.erase_subset (fun t hwaits ↦ h.promise _ t hwaits) rfl
    exact ⟨hcovered.home, hcovered.alike, hcovered.promise⟩

theorem covered_of_reach (hs : readSystem.Reach (fun s e ↦ e.Fair s) s) : Covered s := by
  refine hs.invariant (I := Covered) ?_ ?_
  · refine ⟨fun _ _ hr ↦ ?_, fun _ _ hr ↦ ?_, fun _ _ hwaits ↦ ?_⟩
    · cases hr
    · cases hr
    · exact Nat.zero_le _
  · intro s e h he hfair
    cases e with
    | start c t sync memory => exact h.start c t sync memory hfair
    | store c t memory => exact h.store c t memory
    | resume reader memory => exact h.resume he.1 memory hfair
    | interrupt reader => exact ⟨h.home, h.alike, h.promise⟩
    | leave reader => exact h.leave hfair

end Steps

/-! ## What is returned -/

/-- A message is in one place at a time. -/
structure Kept (s : ReadState) : Prop where
  stored : ∀ c, ∀ m ∈ (s.clients c).mpList,
    m.clientID = c ∧ m.node < s.fresh ∧ m ∉ s.returned.map Prod.snd
  nodup : ∀ c, (s.clients c).mpList.Nodup
  old : ∀ m ∈ s.returned.map Prod.snd, m.node < s.fresh
  once : (s.returned.map Prod.snd).Nodup

section Kept

variable {s : ReadState}

/-- The read lists and what was returned stay. -/
theorem Kept.congr (h : Kept s) {s' : ReadState}
    (hlist : ∀ c, (s'.clients c).mpList = (s.clients c).mpList)
    (hreturned : s'.returned = s.returned) (hfresh : s.fresh ≤ s'.fresh) : Kept s' := by
  refine ⟨fun c m hm ↦ ?_, fun c ↦ ?_, fun m hm ↦ ?_, ?_⟩
  · rw [hlist] at hm
    rw [hreturned]
    obtain ⟨hc, hlt, hnot⟩ := h.stored c m hm
    exact ⟨hc, Nat.lt_of_lt_of_le hlt hfresh, hnot⟩
  · rw [hlist]
    exact h.nodup c
  · rw [hreturned] at hm
    exact Nat.lt_of_lt_of_le (h.old m hm) hfresh
  · rw [hreturned]
    exact h.once

/-- The list of waiters of a client is changed. -/
theorem mpList_set {c : UInt16} {client : ClientMem}
    (hlist : client.mpList = (s.clients c).mpList) :
    ∀ c', ((s.set c client).clients c').mpList = (s.clients c').mpList :=
  forall_clients_set s c client (P := fun c' client ↦ client.mpList = (s.clients c').mpList) hlist
    fun _ _ ↦ rfl

theorem Kept.wait (h : Kept s) (reader : Reader) (memory : Bool) :
    Kept (s.wait reader memory) := by
  unfold ReadState.wait
  split
  · exact h.congr (mpList_set rfl) rfl (Nat.le_refl _)
  · exact h

/-- A reader returns a message that it has taken from the read list. -/
theorem Kept.give (h : Kept s) {reader : Reader} {mem : ReadMem} {rest : List ReadMem}
    (hperm : (s.clients reader.clientID).mpList.Perm (mem :: rest)) :
    Kept { s.set reader.clientID { s.clients reader.clientID with mpList := rest } with
      returned := s.returned ++ [(reader, mem)] } := by
  obtain ⟨hclient, hlt, hnot⟩ := h.stored _ mem (hperm.symm.subset List.mem_cons_self)
  have hnodup := List.nodup_cons.mp (hperm.nodup_iff.mp (h.nodup reader.clientID))
  have hmap : (s.returned ++ [(reader, mem)]).map Prod.snd =
      s.returned.map Prod.snd ++ [mem] := by
    rw [List.map_append]
    rfl
  refine ⟨?_, ?_, fun m hm ↦ ?_, ?_⟩
  · dsimp only
    simp only [hmap, List.mem_append, List.mem_singleton, not_or]
    refine forall_clients_set s reader.clientID _
      (P := fun c client ↦ ∀ m ∈ client.mpList, m.clientID = c ∧ m.node < s.fresh ∧
        m ∉ s.returned.map Prod.snd ∧ m ≠ mem) ?_ ?_
    · intro m hm
      obtain ⟨hc, hltm, hnotm⟩ :=
        h.stored _ m (hperm.symm.subset (List.mem_cons_of_mem _ hm))
      refine ⟨hc, hltm, hnotm, ?_⟩
      rintro rfl
      exact hnodup.1 hm
    · intro c hne m hm
      obtain ⟨hc, hltm, hnotm⟩ := h.stored c m hm
      refine ⟨hc, hltm, hnotm, ?_⟩
      rintro rfl
      exact hne (hc.symm.trans hclient)
  · exact forall_clients_set s reader.clientID _ (P := fun _ client ↦ client.mpList.Nodup)
      hnodup.2 fun c _ ↦ h.nodup c
  · dsimp only at hm
    rw [hmap] at hm
    rcases List.mem_append.mp hm with hm | hm
    · exact h.old m hm
    · rw [List.mem_singleton.mp hm]
      exact hlt
  · dsimp only
    rw [hmap]
    refine List.Nodup.append h.once (List.nodup_singleton _) ?_
    intro m hm hm'
    rw [List.mem_singleton.mp hm'] at hm
    exact hnot hm

theorem Kept.take (h : Kept s) (reader : Reader) (memory : Bool) :
    Kept (s.take reader memory) := by
  unfold ReadState.take ClientMem.popFromReadMemList
  cases hpop : popFirst (accepts reader.transactionID) (s.clients reader.clientID).mpList with
  | none =>
    dsimp only [Option.map_none]
    split
    · exact h.wait reader memory
    · exact h
  | some x => exact h.give (perm_of_popFirst hpop)

/-- A new message is stored. -/
theorem Kept.add (h : Kept s) {c t : UInt16} {client : ClientMem} {notified : List Reader}
    (hlist : client.mpList = (s.clients c).mpList ++ [⟨s.fresh, c, t⟩]) :
    Kept { s.set c client with fresh := s.fresh + 1, notified := notified } := by
  refine ⟨?_, ?_, fun m hm ↦ Nat.lt_succ_of_lt (h.old m hm), h.once⟩
  · refine forall_clients_set s c client
      (P := fun c client ↦ ∀ m ∈ client.mpList,
        m.clientID = c ∧ m.node < s.fresh + 1 ∧ m ∉ s.returned.map Prod.snd) ?_ ?_
    · intro m hm
      rw [hlist] at hm
      rcases List.mem_append.mp hm with hm | hm
      · obtain ⟨hc, hlt, hnot⟩ := h.stored c m hm
        exact ⟨hc, Nat.lt_succ_of_lt hlt, hnot⟩
      · rw [List.mem_singleton.mp hm]
        exact ⟨rfl, Nat.lt_succ_self _, fun hold ↦ Nat.lt_irrefl _ (h.old _ hold)⟩
    · intro c' _ m hm
      obtain ⟨hc, hlt, hnot⟩ := h.stored c' m hm
      exact ⟨hc, Nat.lt_succ_of_lt hlt, hnot⟩
  · refine forall_clients_set s c client (P := fun _ client ↦ client.mpList.Nodup) ?_
      fun c' _ ↦ h.nodup c'
    rw [hlist]
    refine List.Nodup.append (h.nodup c) (List.nodup_singleton _) ?_
    intro m hm hm'
    rw [List.mem_singleton.mp hm'] at hm
    exact Nat.lt_irrefl _ (h.stored c _ hm).2.1

theorem Kept.store (h : Kept s) (c t : UInt16) (memory : Bool) : Kept (s.store c t memory) := by
  unfold ReadState.store
  split
  case isFalse => exact h
  case isTrue =>
    unfold ClientMem.notifyAndPopNotifyList
    dsimp only
    cases popFirst (notifies t)
        ((s.clients c).addToReadMemList ⟨s.fresh, c, t⟩).mpReadNotifyList with
    | none => exact h.add (t := t) rfl
    | some x => exact h.add (t := t) rfl

/-- Whatever the readers do, a message is in one place. -/
theorem kept_of_reach {guard : ReadState → ReadStep → Prop} (hs : readSystem.Reach guard s) :
    Kept s := by
  refine hs.invariant (I := Kept) ?_ ?_
  · refine ⟨fun _ _ hm ↦ ?_, fun _ ↦ List.nodup_nil, fun _ hm ↦ ?_, List.nodup_nil⟩
    · cases hm
    · cases hm
  · intro s e h _ _
    cases e with
    | start c t sync memory =>
      have hcalled : Kept { s with fresh := s.fresh + 1 } :=
        h.congr (fun _ ↦ rfl) rfl (Nat.le_succ _)
      change Kept (s.start c t sync memory)
      unfold ReadState.start
      dsimp only
      split
      · exact hcalled.take _ memory
      · unfold ReadState.readAsync
        split
        · exact hcalled.congr (fun _ ↦ rfl) rfl (Nat.le_refl _)
        · exact hcalled.wait _ memory
    | store c t memory => exact h.store c t memory
    | resume reader memory =>
      have herased : Kept { s with notified := s.notified.erase reader } :=
        h.congr (fun _ ↦ rfl) rfl (Nat.le_refl _)
      exact herased.take reader memory
    | interrupt reader => exact h.congr (fun _ ↦ rfl) rfl (Nat.le_refl _)
    | leave reader => exact h.congr (mpList_set rfl) rfl (Nat.le_refl _)

end Kept

/-! ## Nobody is stranded -/

/-- No reader waits on a client with a message that it would take. -/
def ReadState.NoneStranded (s : ReadState) : Prop :=
  ∀ c, ∀ r ∈ (s.clients c).mpReadNotifyList, ∀ m ∈ (s.clients c).mpList,
    accepts r.transactionID m = false

/-- In every run, a message is returned at most once. In every fair run, nobody sleeps on a
message that it would take once all who were notified have gone on. -/
theorem readers_not_stranded (s : ReadState) :
    (readSystem.Reach (fun _ _ ↦ True) s → (s.returned.map Prod.snd).Nodup) ∧
      (readSystem.Reach (fun s e ↦ e.Fair s) s → s.notified = [] → s.NoneStranded) := by
  refine ⟨fun hs ↦ (kept_of_reach hs).once, fun hs hnotified c r hr ↦ ?_⟩
  refine countP_accepts_eq_zero.mp (Nat.le_zero.mp ?_)
  have hle := (covered_of_reach hs).promise c r.transactionID ⟨r, hr, rfl⟩
  unfold ReadState.promised at hle
  rw [hnotified] at hle
  exact hle

/-- Two readers of client 1 wait for one transaction id each, and the second one's message comes
with an indication. -/
def twoReaders : List ReadStep :=
  [.start 1 5 true true, .start 1 6 true true, .store 1 0 true, .resume ⟨0, 1, 5, true⟩ true,
    .store 1 6 true, .resume ⟨1, 1, 6, true⟩ true]

theorem twoReaders_not_stranded :
    (readSystem.exec readSystem.init twoReaders).returned = [(⟨1, 1, 6, true⟩, ⟨3, 1, 6⟩)] ∧
      (readSystem.exec readSystem.init twoReaders).NoneStranded :=
  ⟨by decide, (readers_not_stranded _).2 (.exec .init (by decide)) (by decide)⟩

/-- A reader of the transaction id 5 waits before a reader of any message. An indication
notifies the first, which goes back to sleep, and the second sleeps on it. -/
theorem reader_stranded :
    ¬ ∀ s, readSystem.Reach (fun _ _ ↦ True) s → s.notified = [] → s.NoneStranded := by
  intro h
  have hnone := h (readSystem.exec readSystem.init
    [.start 1 5 true true, .start 1 0 true true, .store 1 0 true, .resume ⟨0, 1, 5, true⟩ true])
    (.exec .init (by decide)) (by decide)
  exact absurd (hnone 1 ⟨1, 1, 0, true⟩ (by decide) ⟨2, 1, 0⟩ (by decide)) (by decide)

end Wwan.GobiNet
