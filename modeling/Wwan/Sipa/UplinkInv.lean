import Wwan.Sipa.FifoWindow
import Wwan.Sipa.Uplink

/-!
# What holds of the uplink at each step

The entries on `sending_list` are the descriptors that were published and not yet passed by the free
thread: each is in the rx ring, with the hardware, or in the tx ring. The entry whose buffer the
free thread has still to free is on `pair_free_list` again, as the last one. What `left_cnt` and
the entries not yet credited leave is at least a quarter of the list, so the first one is not it.
-/

namespace Wwan.Sipa

open Wwan

/-- The descriptors in the tx ring that the free thread has dealt with. -/
def FreeThread.passed : FreeThread → ℕ
  | .checkAgain p _ => p.i
  | .unmapping p _ => p.i + 1
  | .setRp p => p.i
  | _ => 0

/-- The counters of a pass, when there are `len` descriptors in the tx ring. -/
def FreeThread.Valid (len : ℕ) : FreeThread → Prop
  | .checkAgain p _ => p.i < p.num ∧ p.num ≤ len ∧ p.successCnt = p.i
  | .unmapping p _ => p.i < p.num ∧ p.num ≤ len ∧ p.successCnt = p.i
  | .setRp p => p.i ≤ len ∧ p.successCnt = p.i
  | _ => True

section Thread

variable {t : FreeThread} {n : ℕ}

theorem FreeThread.Valid.passed_le (h : t.Valid n) : t.passed ≤ n := by
  cases t <;> simp only [FreeThread.Valid, FreeThread.passed] at h ⊢ <;> omega

theorem FreeThread.Valid.passed_le_uncredited (h : t.Valid n) : t.passed ≤ t.uncredited := by
  cases t <;> simp only [FreeThread.Valid, FreeThread.passed, FreeThread.uncredited] at h ⊢ <;>
    omega

theorem FreeThread.Valid.mono {m : ℕ} (h : t.Valid n) (hle : n ≤ m) : t.Valid m := by
  cases t <;> simp only [FreeThread.Valid] at h ⊢ <;> omega

theorem FreeThread.one_le_uncredited {i : ℕ} (h : i ∈ t.iter) : 1 ≤ t.uncredited := by
  cases t with
  | unmapping p iter => exact Nat.succ_le_succ (Nat.zero_le _)
  | _ => cases h

/-- What the head of the loop leads to. -/
structure LoopHead (p : FreePass) (n : ℕ) : Prop where
  iter : p.loop.iter = none
  passed : p.loop.passed = p.i
  uncredited : p.loop.uncredited = p.successCnt
  valid : p.loop.Valid n

theorem loopHead {p : FreePass} (hle : p.i ≤ p.num) (hnum : p.num ≤ n)
    (hsucc : p.successCnt = p.i) : LoopHead p n := by
  have hcases : p.loop = .checkAgain p 10 ∧ p.i < p.num ∨ p.loop = .setRp p := by
    unfold FreePass.loop
    split
    case isTrue hlt => exact .inl ⟨rfl, hlt⟩
    case isFalse => exact .inr rfl
  rcases hcases with ⟨hloop, hlt⟩ | hloop
  · constructor
    · rw [hloop]; rfl
    · rw [hloop]; rfl
    · rw [hloop]; rfl
    · rw [hloop]; exact ⟨hlt, hnum, hsucc⟩
  · constructor
    · rw [hloop]; rfl
    · rw [hloop]; rfl
    · rw [hloop]; rfl
    · rw [hloop]; exact ⟨hle.trans hnum, hsucc⟩

end Thread

namespace Uplink

/-- The descriptors in the tx ring that the free thread has not dealt with. -/
def pending (s : Uplink) : List NodeDescriptionTag :=
  s.core.sendFifo.txWindow.drop s.thread.passed

/-- The addresses that were published and not dealt with. -/
def outstanding (s : Uplink) : List ℕ :=
  (s.core.sendFifo.rxWindow ++ s.busy ++ s.pending).map NodeDescriptionTag.address

end Uplink

/-- What holds between any two steps. -/
structure UplinkInv (k : ℕ) (s : Uplink) : Prop where
  pointers : s.core.sendFifo.Pointers k s.busy.length
  place : s.thread.Valid s.core.sendFifo.txWindow.length
  entries : (s.core.sender.pairFreeList ++ s.core.sender.sendingList).Perm (List.range (2 ^ k))
  counted : s.core.sender.leftCnt + s.core.sender.sendingList.length + s.thread.uncredited =
    2 ^ k / 4 * 3
  /-- The entry that is being freed is the last one. -/
  last : ∀ i ∈ s.thread.iter, ∃ front, s.core.sender.pairFreeList = front ++ [i]
  /-- The entries on `sending_list` are what was published and not dealt with. -/
  outstanding : s.outstanding.Perm (s.core.sender.sendingList.map s.addrOf)
  distinct : (s.held.map s.addrOf).Nodup
  mapped : ∀ i ∈ s.held, s.mapped (s.addrOf i) = s.skbOf i
  returned : ∀ x ∈ s.pending, ∃ skb ∈ s.completed, s.mapped x.address = some skb
  releasing : ∀ i ∈ s.thread.iter, ∃ skb ∈ s.completed, s.skbOf i = some skb
  freed : ∀ x ∈ s.freed, ∃ skb ∈ s.completed, x = some skb
  /-- Each buffer that was taken over is at one place. -/
  accounted : (s.freed ++ s.held.map s.skbOf).Perm (s.accepted.map some)
  nodup : s.accepted.Nodup
  known : ∀ i skb, s.skbOf i = some skb → skb ∈ s.accepted

namespace UplinkInv

variable {k : ℕ} {s : Uplink}

theorem init (k cur : ℕ) (nic : ℕ → Option SipaNic) (nicList : List ℕ) :
    UplinkInv k (Uplink.init (2 ^ k) cur nic nicList) where
  pointers := CmnFifoCfgTag.pointers_opened k cur
  place := trivial
  entries := by
    have hnil : (List.range (2 ^ k) ++ []).Perm (List.range (2 ^ k)) := by rw [List.append_nil]
    exact hnil
  counted := rfl
  last := nofun
  outstanding := by
    simp only [Uplink.outstanding, Uplink.pending, Uplink.init,
      CmnFifoCfgTag.rxWindow_opened, CmnFifoCfgTag.txWindow_opened]
    exact List.Perm.nil
  distinct := List.nodup_nil
  mapped := nofun
  returned := by
    intro x hx
    have hmem : x ∈ (CmnFifoCfgTag.opened (2 ^ k) cur).txWindow := hx
    rw [CmnFifoCfgTag.txWindow_opened] at hmem
    cases hmem
  releasing := nofun
  freed := nofun
  accounted := List.Perm.nil
  nodup := List.nodup_nil
  known := nofun

/-! ## Consequences -/

section Facts

variable (h : UplinkInv k s)

include h

theorem length_entries :
    s.core.sender.pairFreeList.length + s.core.sender.sendingList.length = 2 ^ k := by
  have hlen := h.entries.length_eq
  rwa [List.length_append, List.length_range] at hlen

theorem length_outstanding :
    s.core.sendFifo.rxWindow.length + s.busy.length + s.pending.length =
      s.core.sender.sendingList.length := by
  have hlen := h.outstanding.length_eq
  rwa [Uplink.outstanding, List.length_map, List.length_map, List.length_append,
    List.length_append] at hlen

/-- The rx ring has room for the next descriptor. -/
theorem rx_room : s.core.sendFifo.rxWindow.length < 2 ^ k := by
  have hlen := h.length_outstanding
  have hcount := h.counted
  have hpos := Nat.two_pow_pos k
  omega

/-- The tx ring has room for the next descriptor. -/
theorem tx_room : s.core.sendFifo.txWindow.length < 2 ^ k := by
  have hlen := h.length_outstanding
  have hcount := h.counted
  have hpos := Nat.two_pow_pos k
  have hpassed := h.place.passed_le_uncredited
  have hdrop : s.pending.length = s.core.sendFifo.txWindow.length - s.thread.passed :=
    List.length_drop
  omega

theorem nodup_entries : (s.core.sender.pairFreeList ++ s.core.sender.sendingList).Nodup :=
  h.entries.nodup_iff.mpr List.nodup_range

/-- What is held are buffers that were taken over. -/
theorem skb_of_held {i : ℕ} (hi : i ∈ s.held) : ∃ skb ∈ s.accepted, s.skbOf i = some skb := by
  have hmem : s.skbOf i ∈ s.freed ++ s.held.map s.skbOf :=
    List.mem_append_right _ (List.mem_map_of_mem hi)
  obtain ⟨skb, hskb, heq⟩ := List.mem_map.mp (h.accounted.mem_iff.mp hmem)
  exact ⟨skb, hskb, heq.symm⟩

/-- An address that was published belongs to an entry on `sending_list`. -/
theorem exists_sending {x : NodeDescriptionTag}
    (hx : x ∈ s.core.sendFifo.rxWindow ++ s.busy ++ s.pending) :
    ∃ i ∈ s.core.sender.sendingList, s.addrOf i = x.address := by
  have hmem : x.address ∈ s.outstanding := List.mem_map_of_mem hx
  exact List.mem_map.mp (h.outstanding.mem_iff.mp hmem)

theorem exists_sending_of_pending {x : NodeDescriptionTag} (hx : x ∈ s.pending) :
    ∃ i ∈ s.core.sender.sendingList, s.addrOf i = x.address :=
  h.exists_sending (List.mem_append_right _ hx)

omit h in
theorem mem_held_of_sending {i : ℕ} (hi : i ∈ s.core.sender.sendingList) : i ∈ s.held :=
  List.mem_append_right _ hi

/-- The first free entry is not the one whose buffer is being freed. -/
theorem exists_free (hk : 2 ≤ k) :
    ∃ node free, s.core.sender.pairFreeList = node :: free ∧ node ∉ s.held ∧
      ∀ i ∈ s.thread.iter, ∃ front, free = front ++ [i] := by
  have hlen := h.length_entries
  have hcount := h.counted
  have hpow : 4 ≤ 2 ^ k := Nat.pow_le_pow_right (n := 2) Nat.two_pos hk
  cases hfree : s.core.sender.pairFreeList with
  | nil =>
    rw [hfree, List.length_nil] at hlen
    omega
  | cons node free =>
    have hnodup := h.nodup_entries
    rw [hfree, List.cons_append, List.nodup_cons] at hnodup
    have hlast : ∀ i ∈ s.thread.iter, ∃ front, free = front ++ [i] := by
      intro i hi
      obtain ⟨front, hfront⟩ := h.last i hi
      have hone := FreeThread.one_le_uncredited hi
      have hsplit := hfree.symm.trans hfront
      cases front with
      | nil =>
        rw [hfree, hsplit] at hlen
        simp only [List.nil_append, List.length_cons, List.length_nil] at hlen
        omega
      | cons a front => exact ⟨front, (List.cons.inj hsplit).2⟩
    refine ⟨node, free, rfl, ?_, hlast⟩
    intro hheld
    rcases List.mem_append.mp hheld with hiter | hsending
    · obtain ⟨front, rfl⟩ := hlast node (Option.mem_toList.mp hiter)
      exact hnodup.1 (List.mem_append_left _ (List.mem_append_right _ List.mem_cons_self))
    · exact hnodup.1 (List.mem_append_right _ hsending)

end Facts

end UplinkInv

end Wwan.Sipa
