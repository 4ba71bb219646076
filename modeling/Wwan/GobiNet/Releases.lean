import Mathlib.Data.Finset.Card
import Mathlib.Data.Finset.Range
import Mathlib.Data.List.TakeWhile
import Wwan.GobiNet.ClientList

/-!
# Releases that overlap

A call of `ReleaseClientID` that has let go of the lock relies on two pointers: the one to its node,
and the one in its node. They stay right as long as nobody removes one of the two neighbours of the
node, and nobody appends a node behind it.
-/

namespace Wwan.GobiNet

open Wwan

/-! ## What is expected of the list -/

/-- The list is in order: its nodes are allocated, the clients that are not being released are in
it once, and the nodes of the clients that were released were freed once. -/
structure ListOk (s : ClientList) : Prop where
  nodes : ∃ l, Chain s.mpNext s.mpClientMemList l ∧ (∀ a ∈ l, a < s.fresh ∧ a ∉ s.freed) ∧
    ∀ client ∈ s.acquired, l.countP (s.hasId client.1) = 1
  freed : ∀ client ∈ s.released, s.freed.count client.2 = 1

/-- Nothing is left to be notified or killed, so that the node will be freed. -/
def ClientList.Settled (s : ClientList) (phase : Phase) (a : ℕ) : Prop :=
  (phase = .notify → (s.nodes a).notifyList = 0) ∧ (s.nodes a).urbList = 0

instance (s : ClientList) (phase : Phase) (a : ℕ) : Decidable (s.Settled phase a) :=
  inferInstanceAs (Decidable ((_ → _) ∧ _))

/-- Nobody polls the client, and the node is no neighbour of one that is being released. -/
def ClientList.Clear (s : ClientList) (client : Client) : Prop :=
  (s.nodes client.2).waitqueueActive = false ∧ ∀ r ∈ s.releases, r.client.1 ≠ client.1 →
    r.ppDelClientMem ≠ .next client.2 ∧ r.pNextClientMem ≠ some client.2

instance (s : ClientList) (client : Client) : Decidable (s.Clear client) :=
  inferInstanceAs (Decidable (_ ∧ ∀ r ∈ s.releases, _ → _ ∧ _))

/-- Nobody changes what a call that has let go of the lock relies on. -/
def ListStep.Calm (s : ClientList) : ListStep → Prop
  | get _ memory => memory = true → ∀ r ∈ s.releases, r.pNextClientMem ≠ none
  | release client => s.Settled .notify client.2 → s.Clear client
  | resume r => s.Settled r.phase r.client.2 → s.Clear r.client
  | touch _ _ _ _ => True

instance (s : ClientList) : (e : ListStep) → Decidable (e.Calm s)
  | .get _ _ => inferInstanceAs (Decidable (_ → ∀ r ∈ s.releases, _))
  | .release _ => inferInstanceAs (Decidable (_ → _))
  | .resume _ => inferInstanceAs (Decidable (_ → _))
  | .touch _ _ _ _ => inferInstanceAs (Decidable True)

/-! ## The invariant -/

/-- The ids of the clients that have a node. -/
def ClientList.ids (s : ClientList) : List UInt16 :=
  s.acquired.map Prod.fst ++ s.releases.map fun r ↦ r.client.1

/-- What is kept in calm runs. -/
structure ListInv (s : ClientList) (l : List ℕ) : Prop where
  chain : Chain s.mpNext s.mpClientMemList l
  lt : ∀ a ∈ l, a < s.fresh
  distinct : (l.map fun a ↦ (s.nodes a).mClientID).Nodup
  allocated : ∀ a ∈ l, a ∉ s.freed
  acquired : ∀ client ∈ s.acquired, client.2 ∈ l ∧ (s.nodes client.2).mClientID = client.1
  releases : ∀ r ∈ s.releases, (s.nodes r.client.2).mClientID = r.client.1 ∧
    At l r.ppDelClientMem r.client.2 r.pNextClientMem
  ids : s.ids.Nodup
  once : s.freed.Nodup
  old : ∀ a ∈ s.freed, a < s.fresh
  released : ∀ client ∈ s.released, client.2 ∈ s.freed

section Lookup

variable {s : ClientList} {l : List ℕ} {a : ℕ}

variable (h : ListInv s l)

include h

theorem ListInv.nodup : l.Nodup := List.Nodup.of_map _ h.distinct

/-- The loops over the list come to an end. -/
theorem ListInv.length_le : l.length ≤ s.fresh := by
  have hsub : l.toFinset ⊆ Finset.range s.fresh := by
    intro a ha
    exact Finset.mem_range.mpr (h.lt a (List.mem_toFinset.mp ha))
  have hcard := Finset.card_le_card hsub
  rwa [List.toFinset_card_of_nodup h.nodup, Finset.card_range] at hcard

theorem ListInv.inj {b : ℕ} (ha : a ∈ l) (hb : b ∈ l)
    (hid : (s.nodes a).mClientID = (s.nodes b).mClientID) : a = b :=
  List.inj_on_of_nodup_map h.distinct ha hb hid

/-- The loop of `ReleaseClientID` stops at the place of the node. -/
theorem ListInv.walk_eq {l₁ l₂ : List ℕ} (hl : l = l₁ ++ a :: l₂) :
    s.walk (s.hasId (s.nodes a).mClientID) .head = Link.behind l₁ := by
  subst hl
  have hbefore : ∀ b ∈ l₁, (!s.hasId (s.nodes a).mClientID b) = true := by
    intro b hb
    rw [Bool.not_eq_true', ClientList.hasId, decide_eq_false_iff_not]
    intro hid
    have heq : b = a := h.inj (List.mem_append_left _ hb)
      (List.mem_append_right _ List.mem_cons_self) hid
    subst heq
    exact (List.nodup_append.mp h.nodup).2.2 b hb b List.mem_cons_self rfl
  have hself : (!s.hasId (s.nodes a).mClientID a) = false := by
    simp [ClientList.hasId]
  have hchain : Chain s.mpNext s.mpClientMemList ([] ++ (l₁ ++ a :: l₂)) := h.chain
  refine (hchain.walk_behind (s.hasId (s.nodes a).mClientID) h.length_le).trans ?_
  rw [List.nil_append, List.takeWhile_append_of_pos hbefore, List.takeWhile_cons, hself]
  simp

theorem ListInv.deref_behind {l₁ l₂ : List ℕ} (hl : l = l₁ ++ l₂) :
    s.deref (Link.behind l₁) = l₂.head? := by
  subst hl
  exact h.chain.deref_behind

theorem ListInv.mpNext_eq {l₁ l₂ : List ℕ} (hl : l = l₁ ++ a :: l₂) : s.mpNext a = l₂.head? := by
  subst hl
  exact h.chain.after.head_eq

theorem ListInv.findClientMem_eq (ha : a ∈ l) : s.findClientMem (s.nodes a).mClientID = some a := by
  obtain ⟨l₁, l₂, hl⟩ := List.append_of_mem ha
  unfold ClientList.findClientMem
  rw [h.walk_eq hl, h.deref_behind hl]
  rfl

end Lookup

/-! ## Writes -/

section Writes

variable (s : ClientList) (a b : ℕ)

@[simp] theorem mClientID_touch (n u : ℕ) (w : Bool) :
    ((s.touch a n u w).nodes b).mClientID = (s.nodes b).mClientID := by
  unfold ClientList.touch
  obtain rfl | hne := eq_or_ne b a
  · simp
  · simp [Function.update_of_ne hne]

@[simp] theorem mpNext_touch (n u : ℕ) (w : Bool) : (s.touch a n u w).mpNext = s.mpNext := by
  funext b
  unfold ClientList.mpNext ClientList.touch
  obtain rfl | hne := eq_or_ne b a
  · simp
  · simp [Function.update_of_ne hne]

variable (v : Option ℕ) (link : Link ℕ)

@[simp] theorem mClientID_assign :
    ((s.assign v link).nodes b).mClientID = (s.nodes b).mClientID := by
  cases link with
  | head => rfl
  | next a =>
    unfold ClientList.assign
    obtain rfl | hne := eq_or_ne b a
    · simp
    · simp [Function.update_of_ne hne]

theorem mpNext_assign : (s.assign v link).mpNext = link.assignNext s.mpNext v := by
  cases link with
  | head => rfl
  | next a =>
    funext b
    unfold ClientList.mpNext ClientList.assign Link.assignNext
    obtain rfl | hne := eq_or_ne b a
    · simp
    · simp [Function.update_of_ne hne]

theorem mpClientMemList_assign :
    (s.assign v link).mpClientMemList = link.assignHead s.mpClientMemList v := by
  cases link with
  | head => rfl
  | next a => rfl

@[simp] theorem fresh_assign : (s.assign v link).fresh = s.fresh := by cases link <;> rfl

@[simp] theorem freed_assign : (s.assign v link).freed = s.freed := by cases link <;> rfl

@[simp] theorem acquired_assign : (s.assign v link).acquired = s.acquired := by cases link <;> rfl

@[simp] theorem releases_assign : (s.assign v link).releases = s.releases := by cases link <;> rfl

@[simp] theorem released_assign : (s.assign v link).released = s.released := by cases link <;> rfl

end Writes

section Steps

variable {s : ClientList} {l : List ℕ}

/-- The entries of the lists of a node do not matter. -/
theorem ListInv.touch (h : ListInv s l) (a n u : ℕ) (w : Bool) : ListInv (s.touch a n u w) l := by
  refine ⟨?_, h.lt, ?_, h.allocated, ?_, ?_, h.ids, h.once, h.old, h.released⟩
  · rw [mpNext_touch]
    exact h.chain
  · simpa using h.distinct
  · intro client hclient
    rw [mClientID_touch]
    exact h.acquired client hclient
  · intro r hr
    rw [mClientID_touch]
    exact h.releases r hr

end Steps

/-! ## `GetClientID` -/

/-- A node is allocated for a client. -/
def ClientList.alloc (s : ClientList) (clientID : UInt16) : ClientList :=
  { s with
    nodes := Function.update s.nodes s.fresh ⟨clientID, none, 0, 0, false⟩
    fresh := s.fresh + 1
    acquired := s.acquired ++ [(clientID, s.fresh)] }

section Get

variable {s : ClientList} {l : List ℕ} {clientID : UInt16}

theorem ListInv.fresh_notMem (h : ListInv s l) : s.fresh ∉ l :=
  fun hmem ↦ Nat.lt_irrefl _ (h.lt _ hmem)

theorem ListInv.nodes_alloc (h : ListInv s l) {a : ℕ} (ha : a ∈ l) :
    (s.alloc clientID).nodes a = s.nodes a := by
  refine Function.update_of_ne ?_ ..
  rintro rfl
  exact h.fresh_notMem ha

theorem nodes_alloc_fresh (s : ClientList) (clientID : UInt16) :
    (s.alloc clientID).nodes s.fresh = ⟨clientID, none, 0, 0, false⟩ :=
  Function.update_self ..

variable (h : ListInv s l)

include h

/-- A walk over the whole list stops behind its last node. -/
theorem ListInv.walk_end : s.walk (fun _ ↦ false) .head = Link.behind l := by
  have hchain : Chain s.mpNext s.mpClientMemList ([] ++ l) := h.chain
  refine (hchain.walk_behind _ h.length_le).trans ?_
  rw [List.nil_append]
  exact congrArg Link.behind (List.takeWhile_eq_self_iff.mpr fun _ _ ↦ rfl)

/-- The list with the new node. -/
theorem ListInv.chain_append (clientID : UInt16) :
    Chain ((s.alloc clientID).assign (some s.fresh) (Link.behind l)).mpNext
      ((s.alloc clientID).assign (some s.fresh) (Link.behind l)).mpClientMemList
      (l ++ [s.fresh]) := by
  have hold : Chain (s.alloc clientID).mpNext (s.alloc clientID).mpClientMemList (l ++ []) := by
    rw [List.append_nil]
    refine h.chain.congr fun a ha ↦ ?_
    unfold ClientList.mpNext
    rw [h.nodes_alloc ha]
  have hnew : Chain (s.alloc clientID).mpNext (some s.fresh) [s.fresh] := by
    refine ⟨rfl, ?_⟩
    change ((s.alloc clientID).nodes s.fresh).mpNext = none
    rw [nodes_alloc_fresh]
  rw [mpNext_assign, mpClientMemList_assign]
  refine hold.assign h.nodup hnew fun a ha hmem ↦ ?_
  rw [List.mem_singleton.mp hmem] at ha
  exact h.fresh_notMem ha

theorem ListInv.ids_alloc (hid : clientID ∉ s.ids) : (s.alloc clientID).ids.Nodup := by
  have hperm : (s.alloc clientID).ids.Perm (clientID :: s.ids) := by
    change ((s.acquired ++ [(clientID, s.fresh)]).map Prod.fst ++ _).Perm _
    rw [List.map_append, List.append_assoc]
    exact List.perm_middle
  exact hperm.nodup_iff.mpr (List.nodup_cons.mpr ⟨hid, h.ids⟩)

/-- A node is appended for a new client, and nobody remembers the end of the list. -/
theorem ListInv.append (hnew : ∀ a ∈ l, (s.nodes a).mClientID ≠ clientID)
    (hid : clientID ∉ s.ids) (hlast : ∀ r ∈ s.releases, r.pNextClientMem ≠ none) :
    ListInv ((s.alloc clientID).assign (some s.fresh) (Link.behind l)) (l ++ [s.fresh]) := by
  refine ⟨h.chain_append clientID, ?_, ?_, ?_, ?_, ?_, ?_, ?_, ?_, ?_⟩
  · rw [fresh_assign]
    intro a ha
    rcases List.mem_append.mp ha with ha | ha
    · exact Nat.lt_succ_of_lt (h.lt a ha)
    · rw [List.mem_singleton.mp ha]
      exact Nat.lt_succ_self _
  · simp only [mClientID_assign]
    rw [List.map_append, List.map_congr_left fun a ha ↦ congrArg _ (h.nodes_alloc ha),
      List.map_singleton, nodes_alloc_fresh]
    refine List.Nodup.append h.distinct (List.nodup_singleton _) ?_
    intro id hid hid'
    obtain ⟨a, ha, rfl⟩ := List.mem_map.mp hid
    exact hnew a ha (List.mem_singleton.mp hid')
  · rw [freed_assign]
    intro a ha hmem
    rcases List.mem_append.mp ha with ha | ha
    · exact h.allocated a ha hmem
    · rw [List.mem_singleton.mp ha] at hmem
      exact Nat.lt_irrefl _ (h.old _ hmem)
  · rw [acquired_assign]
    intro client hclient
    rw [mClientID_assign]
    rcases List.mem_append.mp hclient with hclient | hclient
    · obtain ⟨hmem, hid⟩ := h.acquired client hclient
      rw [h.nodes_alloc hmem]
      exact ⟨List.mem_append_left _ hmem, hid⟩
    · rw [List.mem_singleton.mp hclient, nodes_alloc_fresh]
      exact ⟨List.mem_append_right _ List.mem_cons_self, rfl⟩
  · rw [releases_assign]
    intro r hr
    rw [mClientID_assign]
    obtain ⟨hid, hat⟩ := h.releases r hr
    rw [h.nodes_alloc hat.mem]
    exact ⟨hid, hat.append (hlast r hr) _⟩
  · unfold ClientList.ids
    rw [acquired_assign, releases_assign]
    exact h.ids_alloc hid
  · rw [freed_assign]
    exact h.once
  · rw [freed_assign, fresh_assign]
    exact fun a ha ↦ Nat.lt_succ_of_lt (h.old a ha)
  · rw [released_assign, freed_assign]
    exact h.released

/-- `GetClientID` appends a node, which nobody remembers as the end of the list. -/
theorem ListInv.get {memory : Bool} (he : (ListStep.get clientID memory).enabled s)
    (hcalm : (ListStep.get clientID memory).Calm s) :
    ∃ l', ListInv (s.getClientID clientID memory) l' := by
  unfold ClientList.getClientID
  cases hfind : s.findClientMem clientID with
  | some a => exact ⟨l, h⟩
  | none =>
    dsimp only
    split
    case isFalse => exact ⟨l, h⟩
    case isTrue hmemory =>
      have hnew : ∀ a ∈ l, (s.nodes a).mClientID ≠ clientID := by
        rintro a ha rfl
        rw [h.findClientMem_eq ha] at hfind
        cases hfind
      have hid : clientID ∉ s.ids := by
        intro hmem
        rcases List.mem_append.mp hmem with hmem | hmem
        · obtain ⟨client, hclient, heq⟩ := List.mem_map.mp hmem
          exact he.1 client hclient heq
        · obtain ⟨r, hr, heq⟩ := List.mem_map.mp hmem
          exact he.2 r hr heq
      rw [h.walk_end]
      exact ⟨l ++ [s.fresh], h.append hnew hid (hcalm hmemory)⟩

end Get

/-- A call of `ReleaseClientID` that has the lock. -/
structure Running (s : ClientList) (l : List ℕ) (r : Release) : Prop where
  inv : ListInv s l
  id : (s.nodes r.client.2).mClientID = r.client.1
  place : At l r.ppDelClientMem r.client.2 r.pNextClientMem
  acquired : ∀ client ∈ s.acquired, client.1 ≠ r.client.1
  releases : ∀ r' ∈ s.releases, r'.client.1 ≠ r.client.1

section Run

variable {s s' : ClientList} {l : List ℕ} {r : Release}

section Entries

variable (h : Running s l r)

include h

theorem Running.findClientMem_eq : s.findClientMem r.client.1 = some r.client.2 := by
  rw [← h.id]
  exact h.inv.findClientMem_eq h.place.mem

theorem Running.phase (phase : Phase) : Running s l { r with phase := phase } :=
  ⟨h.inv, h.id, h.place, h.acquired, h.releases⟩

/-- Taking an entry of one of the lists of the node. -/
theorem Running.popEntry {phase : Phase}
    (hpop : s.popEntry r.client.1 phase = some s') : Running s' l r := by
  unfold ClientList.popEntry at hpop
  rw [h.findClientMem_eq, Option.bind_some] at hpop
  have htouch : ∀ n u w, Running (s.touch r.client.2 n u w) l r := by
    intro n u w
    refine ⟨h.inv.touch _ n u w, ?_, h.place, h.acquired, h.releases⟩
    rw [mClientID_touch]
    exact h.id
  cases phase with
  | notify =>
    dsimp only at hpop
    split at hpop
    · cases hpop
    · cases hpop
      exact htouch _ _ _
  | kill =>
    dsimp only at hpop
    split at hpop
    · cases hpop
    · cases hpop
      exact htouch _ _ _

theorem Running.notifyList_eq (hpop : s.popEntry r.client.1 .notify = none) :
    (s.nodes r.client.2).notifyList = 0 := by
  unfold ClientList.popEntry at hpop
  rw [h.findClientMem_eq, Option.bind_some] at hpop
  dsimp only at hpop
  by_contra hne
  rw [if_neg hne] at hpop
  cases hpop

theorem Running.urbList_eq (hpop : s.popEntry r.client.1 .kill = none) :
    (s.nodes r.client.2).urbList = 0 := by
  unfold ClientList.popEntry at hpop
  rw [h.findClientMem_eq, Option.bind_some] at hpop
  dsimp only at hpop
  by_contra hne
  rw [if_neg hne] at hpop
  cases hpop

/-- There is no entry to take if there is nothing left. -/
theorem Running.settled (hpop : s.popEntry r.client.1 r.phase = none)
    (hkill : (if r.phase = .notify then s.popEntry r.client.1 .kill else none) = none) :
    s.Settled r.phase r.client.2 := by
  cases hphase : r.phase with
  | notify =>
    rw [hphase] at hpop hkill
    exact ⟨fun _ ↦ h.notifyList_eq hpop, h.urbList_eq hkill⟩
  | kill =>
    rw [hphase] at hpop
    exact ⟨fun hnot ↦ Phase.noConfusion hnot, h.urbList_eq hpop⟩

/-- The lock is let go of. -/
theorem Running.suspend : ListInv (s.suspend r) l := by
  refine ⟨h.inv.chain, h.inv.lt, h.inv.distinct, h.inv.allocated, h.inv.acquired, ?_, ?_,
    h.inv.once, h.inv.old, h.inv.released⟩
  · intro r' hr'
    rcases List.mem_append.mp hr' with hr' | hr'
    · exact h.inv.releases r' hr'
    · rw [List.mem_singleton.mp hr']
      exact ⟨h.id, h.place⟩
  · have hids : (s.suspend r).ids = s.ids ++ [r.client.1] := by
      unfold ClientList.ids ClientList.suspend
      rw [List.map_append, ← List.append_assoc]
      rfl
    rw [hids]
    refine List.Nodup.append h.inv.ids (List.nodup_singleton _) ?_
    intro id hid hid'
    rw [List.mem_singleton.mp hid'] at hid
    rcases List.mem_append.mp hid with hid | hid
    · obtain ⟨client, hclient, heq⟩ := List.mem_map.mp hid
      exact h.acquired client hclient heq
    · obtain ⟨r', hr', heq⟩ := List.mem_map.mp hid
      exact h.releases r' hr' heq

end Entries

theorem mClientID_unlink (b : ℕ) :
    ((s.unlink r).nodes b).mClientID = (s.nodes b).mClientID := by
  unfold ClientList.unlink
  split <;> exact mClientID_assign _ _ _ _

end Run

/-! ## The node is freed -/

section Unlink

variable {s : ClientList} {l₁ l₂ : List ℕ} {r : Release}

variable (h : Running s (l₁ ++ r.client.2 :: l₂) r)

include h

/-- The place that is remembered is written, and the node is freed. -/
theorem Running.unlink_eq (hplace : r.ppDelClientMem = Link.behind l₁)
    (hactive : (s.nodes r.client.2).waitqueueActive = false) :
    s.unlink r =
      { s with freed := s.freed ++ [r.client.2] }.assign r.pNextClientMem r.ppDelClientMem := by
  unfold ClientList.unlink
  rw [hplace, h.inv.deref_behind rfl]
  dsimp only [List.head?_cons]
  rw [hactive]
  rfl

theorem Running.chain_unlink :
    Chain ((Link.behind l₁).assignNext s.mpNext l₂.head?)
      ((Link.behind l₁).assignHead s.mpClientMemList l₂.head?) (l₁ ++ l₂) := by
  have hrest : Chain s.mpNext l₂.head? l₂ := by
    have hafter := h.inv.chain.after
    rwa [hafter.head_eq] at hafter
  obtain ⟨hnodup, -, hdisjoint⟩ := List.nodup_append.mp h.inv.nodup
  refine h.inv.chain.assign hnodup hrest fun a ha hmem ↦ ?_
  exact hdisjoint a ha a (List.mem_cons_of_mem _ hmem) rfl

theorem Running.notMem : r.client.2 ∉ l₁ ++ l₂ :=
  (List.nodup_middle.mp h.inv.nodup).notMem

/-- The other clients' nodes stay. -/
theorem Running.acquired_mem {client : Client}
    (hclient : client ∈ s.acquired) : client.2 ∈ l₁ ++ l₂ := by
  obtain ⟨hmem, hid⟩ := h.inv.acquired client hclient
  rcases List.mem_append.mp hmem with hmem | hmem
  · exact List.mem_append_left _ hmem
  rcases List.mem_cons.mp hmem with heq | hmem
  · refine absurd ?_ (h.acquired client hclient)
    rw [← hid, heq]
    exact h.id
  · exact List.mem_append_right _ hmem

/-- The other releases keep their places. -/
theorem Running.releases_at (hclear : s.Clear r.client) {r' : Release} (hr' : r' ∈ s.releases) :
    At (l₁ ++ l₂) r'.ppDelClientMem r'.client.2 r'.pNextClientMem := by
  obtain ⟨hid, hat⟩ := h.inv.releases r' hr'
  have hne := h.releases r' hr'
  obtain ⟨hlink, hnext⟩ := hclear.2 r' hr' hne
  refine hat.remove ?_ hlink hnext
  intro heq
  refine hne ?_
  rw [← hid, heq]
  exact h.id

/-- The node is removed from the list and freed, and no other release relies on it. -/
theorem Running.unlink
    (hplace : r.ppDelClientMem = Link.behind l₁) (hnext : r.pNextClientMem = l₂.head?)
    (hclear : s.Clear r.client) :
    ListInv (s.unlink r) (l₁ ++ l₂) ∧ r.client.2 ∈ (s.unlink r).freed := by
  have hsub : (l₁ ++ l₂).Sublist (l₁ ++ r.client.2 :: l₂) :=
    (List.sublist_cons_self _ _).append_left l₁
  rw [h.unlink_eq hplace hclear.1]
  refine ⟨⟨?_, ?_, ?_, ?_, ?_, ?_, ?_, ?_, ?_, ?_⟩, ?_⟩
  · rw [mpNext_assign, mpClientMemList_assign, hplace, hnext]
    exact h.chain_unlink
  · rw [fresh_assign]
    exact fun a ha ↦ h.inv.lt a (hsub.subset ha)
  · simp only [mClientID_assign]
    exact h.inv.distinct.sublist (hsub.map _)
  · rw [freed_assign]
    intro a ha hmem
    rcases List.mem_append.mp hmem with hmem | hmem
    · exact h.inv.allocated a (hsub.subset ha) hmem
    · rw [List.mem_singleton.mp hmem] at ha
      exact h.notMem ha
  · rw [acquired_assign]
    intro client hclient
    rw [mClientID_assign]
    exact ⟨h.acquired_mem hclient, (h.inv.acquired client hclient).2⟩
  · rw [releases_assign]
    intro r' hr'
    rw [mClientID_assign]
    exact ⟨(h.inv.releases r' hr').1, h.releases_at hclear hr'⟩
  · unfold ClientList.ids
    rw [acquired_assign, releases_assign]
    exact h.inv.ids
  · rw [freed_assign]
    refine List.Nodup.append h.inv.once (List.nodup_singleton _) ?_
    intro a ha hmem
    rw [List.mem_singleton.mp hmem] at ha
    exact h.inv.allocated _ h.place.mem ha
  · rw [freed_assign, fresh_assign]
    intro a ha
    rcases List.mem_append.mp ha with ha | ha
    · exact h.inv.old a ha
    · rw [List.mem_singleton.mp ha]
      exact h.inv.lt _ h.place.mem
  · rw [released_assign, freed_assign]
    exact fun client hclient ↦ List.mem_append_left _ (h.inv.released client hclient)
  · rw [freed_assign]
    exact List.mem_append_right _ List.mem_cons_self

/-- Behind the freed node the loop finds no other node of the client. -/
theorem Running.loop_ends
    (hplace : r.ppDelClientMem = Link.behind l₁) (hinv : ListInv (s.unlink r) (l₁ ++ l₂)) :
    (s.unlink r).deref ((s.unlink r).walk ((s.unlink r).hasId r.client.1) r.ppDelClientMem)
      = none := by
  have hother : ∀ b ∈ l₂, (!(s.unlink r).hasId r.client.1 b) = true := by
    intro b hb
    rw [Bool.not_eq_true', ClientList.hasId, decide_eq_false_iff_not, mClientID_unlink]
    intro hid
    have heq : b = r.client.2 :=
      h.inv.inj (List.mem_append_right _ (List.mem_cons_of_mem _ hb)) h.place.mem
        (hid.trans h.id.symm)
    subst heq
    exact h.notMem (List.mem_append_right _ hb)
  have hlen : l₂.length ≤ (s.unlink r).fresh := by
    have hle := hinv.length_le
    rw [List.length_append] at hle
    exact Nat.le_trans (Nat.le_add_left _ _) hle
  have hwalk := hinv.chain.walk_behind ((s.unlink r).hasId r.client.1) hlen
  rw [List.takeWhile_eq_self_iff.mpr hother, ← hplace] at hwalk
  unfold ClientList.walk
  rw [hwalk]
  exact hinv.deref_behind (List.append_nil _).symm

end Unlink

section Run

variable {s : ClientList} {l : List ℕ} {r : Release}

/-- The call returns when its node is freed. -/
theorem ListInv.complete (h : ListInv s l) {client : Client} (hfreed : client.2 ∈ s.freed) :
    ListInv (s.complete client) l := by
  refine ⟨h.chain, h.lt, h.distinct, h.allocated, h.acquired, h.releases, h.ids, h.once, h.old,
    ?_⟩
  intro client' hclient
  rcases List.mem_append.mp hclient with hclient | hclient
  · exact h.released client' hclient
  · rw [List.mem_singleton.mp hclient]
    exact hfreed

/-- The call lets go of the lock, or frees the node and returns: there is no other node of the
client. -/
theorem Running.turn (h : Running s l r)
    (hclear : s.Settled r.phase r.client.2 → s.Clear r.client) :
    (∃ l', ListInv (s.turn r).1 l') ∧ (s.turn r).2 = none := by
  unfold ClientList.turn
  cases hpop : s.popEntry r.client.1 r.phase with
  | some s' => exact ⟨⟨l, (h.popEntry hpop).suspend⟩, rfl⟩
  | none =>
    dsimp only
    cases hkill : (if r.phase = .notify then s.popEntry r.client.1 .kill else none) with
    | some s' =>
      split at hkill
      · exact ⟨⟨l, ((h.popEntry hkill).phase .kill).suspend⟩, rfl⟩
      · cases hkill
    | none =>
      obtain ⟨l₁, l₂, rfl, hplace, hnext⟩ := h.place
      obtain ⟨hinv, hfreed⟩ := h.unlink hplace hnext (hclear (h.settled hpop hkill))
      dsimp only
      rw [h.loop_ends hplace hinv]
      exact ⟨⟨l₁ ++ l₂, hinv.complete hfreed⟩, rfl⟩

theorem Running.run (h : Running s l r)
    (hclear : s.Settled r.phase r.client.2 → s.Clear r.client) (fuel : ℕ) :
    ∃ l', ListInv (ClientList.run fuel s r) l' := by
  obtain ⟨hinv, hend⟩ := h.turn hclear
  cases fuel with
  | zero => exact hinv
  | succ fuel =>
    rw [ClientList.run, hend]
    exact hinv

end Run

section Calls

variable {s : ClientList} {l : List ℕ}

/-- `ReleaseClientID` finds the node of its client. -/
theorem ListInv.release (h : ListInv s l) {client : Client} (hclient : client ∈ s.acquired)
    (hcalm : (ListStep.release client).Calm s) : ∃ l', ListInv (s.releaseClientID client) l' := by
  obtain ⟨hmem, hid⟩ := h.acquired client hclient
  obtain ⟨l₁, l₂, hl⟩ := List.append_of_mem hmem
  have hwalk := h.walk_eq hl
  rw [hid] at hwalk
  have hperm := List.perm_cons_erase hclient
  have hids :
      (client.1 :: ClientList.ids { s with acquired := s.acquired.erase client }).Nodup := by
    refine (List.Perm.nodup_iff ?_).mp h.ids
    exact (hperm.map Prod.fst).append_right _
  rw [List.nodup_cons] at hids
  have hrunning : Running { s with acquired := s.acquired.erase client } l
      ⟨client, Link.behind l₁, s.mpNext client.2, .notify⟩ := by
    refine ⟨⟨h.chain, h.lt, h.distinct, h.allocated, ?_, h.releases, hids.2, h.once, h.old,
      h.released⟩, hid, ⟨l₁, l₂, hl, rfl, h.mpNext_eq hl⟩, ?_, ?_⟩
    · exact fun c hc ↦ h.acquired c (List.mem_of_mem_erase hc)
    · intro c hc heq
      exact hids.1 (List.mem_append_left _ (heq ▸ List.mem_map_of_mem hc))
    · intro r hr heq
      refine hids.1 (List.mem_append_right _ ?_)
      exact heq ▸ List.mem_map_of_mem hr
  unfold ClientList.releaseClientID
  dsimp only
  rw [hwalk, h.deref_behind hl]
  exact hrunning.run hcalm s.fresh

/-- A call of `ReleaseClientID` goes on. -/
theorem ListInv.resume (h : ListInv s l) {r : Release} (hr : r ∈ s.releases)
    (hcalm : (ListStep.resume r).Calm s) : ∃ l', ListInv (s.resume r) l' := by
  obtain ⟨hid, hat⟩ := h.releases r hr
  have hids : (r.client.1 :: ClientList.ids { s with releases := s.releases.erase r }).Nodup := by
    refine (List.Perm.nodup_iff ?_).mp h.ids
    exact (((List.perm_cons_erase hr).map fun r ↦ r.client.1).append_left _).trans
      List.perm_middle
  rw [List.nodup_cons] at hids
  have hrunning : Running { s with releases := s.releases.erase r } l r := by
    refine ⟨⟨h.chain, h.lt, h.distinct, h.allocated, h.acquired, ?_, hids.2, h.once, h.old,
      h.released⟩, hid, hat, ?_, ?_⟩
    · exact fun r' hr' ↦ h.releases r' (List.mem_of_mem_erase hr')
    · intro c hc heq
      exact hids.1 (List.mem_append_left _ (heq ▸ List.mem_map_of_mem hc))
    · intro r' hr' heq
      refine hids.1 (List.mem_append_right _ ?_)
      exact heq ▸ List.mem_map_of_mem hr'
  refine hrunning.run (fun hsettled ↦ ?_) s.fresh
  obtain ⟨hactive, hothers⟩ := hcalm hsettled
  exact ⟨hactive, fun r' hr' hne ↦ hothers r' (List.mem_of_mem_erase hr') hne⟩

theorem listInv_of_reach (hs : listSystem.Reach (fun s e ↦ e.Calm s) s) :
    ∃ l, ListInv s l := by
  refine hs.invariant (I := fun s ↦ ∃ l, ListInv s l) ?_ ?_
  · refine ⟨[], rfl, ?_, List.nodup_nil, ?_, ?_, ?_, List.nodup_nil, List.nodup_nil, ?_, ?_⟩
    all_goals
      intro x hx
      cases hx
  · rintro s e ⟨l, h⟩ he hcalm
    cases e with
    | get clientID memory => exact h.get he hcalm
    | release client => exact h.release he hcalm
    | resume r => exact h.resume he hcalm
    | touch clientID n u w =>
      change ∃ l', ListInv (ListStep.act s (.touch clientID n u w)) l'
      simp only [ListStep.act]
      split
      · exact ⟨l, h⟩
      · exact ⟨l, h.touch _ n u w⟩

/-- A client that has a node has one. -/
theorem ListInv.countP_eq (h : ListInv s l) {client : Client} (hclient : client ∈ s.acquired) :
    l.countP (s.hasId client.1) = 1 := by
  obtain ⟨hmem, hid⟩ := h.acquired client hclient
  have hcount : l.countP (s.hasId client.1) =
      (l.map fun a ↦ (s.nodes a).mClientID).count client.1 := by
    rw [List.count, List.countP_map]
    refine List.countP_congr fun a _ ↦ ?_
    simp [ClientList.hasId]
  rw [hcount]
  exact List.count_eq_one_of_mem h.distinct (hid ▸ List.mem_map_of_mem hmem)

end Calls

/-! ## The list in calm runs -/

/-- In every run in which nobody changes what a release relies on while it has let go of the lock,
the list is in order. -/
theorem clients_listed {s : ClientList} (hs : listSystem.Reach (fun s e ↦ e.Calm s) s) :
    ListOk s := by
  obtain ⟨l, h⟩ := listInv_of_reach hs
  refine ⟨⟨l, h.chain, fun a ha ↦ ⟨h.lt a ha, h.allocated a ha⟩, fun c hc ↦ h.countP_eq hc⟩, ?_⟩
  intro client hclient
  exact List.count_eq_one_of_mem h.once (h.released client hclient)

/-- Of three clients, the first and the last are released, each with a reader that waits. -/
def twoReleases : List ListStep :=
  [.get 1 true, .get 2 true, .get 3 true, .touch 1 1 0 false, .touch 3 1 0 false,
    .release (1, 0), .release (3, 2), .resume ⟨(3, 2), .next 1, none, .notify⟩,
    .resume ⟨(1, 0), .head, some 1, .notify⟩]

theorem twoReleases_listed :
    (listSystem.exec listSystem.init twoReleases).released = [(3, 2), (1, 0)] ∧
      ListOk (listSystem.exec listSystem.init twoReleases) :=
  ⟨by decide, clients_listed (.exec .init (by decide))⟩

/-- The client after one that is being released is released meanwhile, and its node is back in the
list after it was freed. -/
theorem freed_node_listed : ¬ ∀ s, listSystem.Reach (fun _ _ ↦ True) s → ListOk s := by
  intro h
  obtain ⟨l, hchain, hl, -⟩ := (h (listSystem.exec listSystem.init
    [.get 1 true, .get 2 true, .touch 1 1 0 false, .release (1, 0), .release (2, 1),
      .resume ⟨(1, 0), .head, some 1, .notify⟩]) (.exec .init (by decide))).nodes
  cases l with
  | nil => exact absurd hchain.head_eq (by decide)
  | cons a l =>
    obtain rfl : 1 = a := Option.some.inj hchain.1
    exact absurd (hl 1 List.mem_cons_self).2 (by decide)

end Wwan.GobiNet
