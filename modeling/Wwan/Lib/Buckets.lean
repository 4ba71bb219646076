import Mathlib.Data.List.Nodup
import Mathlib.Data.List.Induction
import Mathlib.Data.List.Perm.Basic

/-!
# Objects whose keys keep their order

An object of a scripting language has its keys in the order in which they were put. A list is
gathered into buckets by a key; an element either joins the bucket of its key or takes its place.
-/

namespace Wwan.Buckets

variable {κ α β γ : Type} [DecidableEq κ]

/-- The value of a key is changed, or a new one is put behind the others. -/
def upsert (k : κ) (new : β) (f : β → β) : List (κ × β) → List (κ × β)
  | [] => [(k, new)]
  | (k', v) :: obj => if k' = k then (k', f v) :: obj else (k', v) :: upsert k new f obj

section Upsert

variable {k : κ} {new : β} {f : β → β} {obj : List (κ × β)}

/-- The keys stay where they are. -/
theorem keys_upsert (k : κ) (new : β) (f : β → β) (obj : List (κ × β)) :
    (upsert k new f obj).map Prod.fst =
      if k ∈ obj.map Prod.fst then obj.map Prod.fst else obj.map Prod.fst ++ [k] := by
  induction obj with
  | nil => rfl
  | cons p obj ih =>
    obtain ⟨k', v⟩ := p
    rw [upsert, List.map_cons]
    split
    next h => rw [if_pos (h ▸ List.mem_cons_self), List.map_cons]
    next h =>
      have hk : k ∈ k' :: obj.map Prod.fst ↔ k ∈ obj.map Prod.fst :=
        List.mem_cons.trans (or_iff_right fun hk ↦ h hk.symm)
      simp only [List.map_cons, ih, hk]
      split
      all_goals rfl

theorem mem_keys_upsert (h : k ∈ obj.map Prod.fst) (k' : κ) (new : β) (f : β → β) :
    k ∈ (upsert k' new f obj).map Prod.fst := by
  rw [keys_upsert]
  split
  · exact h
  · exact List.mem_append_left _ h

theorem self_mem_keys_upsert (k : κ) (new : β) (f : β → β) (obj : List (κ × β)) :
    k ∈ (upsert k new f obj).map Prod.fst := by
  rw [keys_upsert]
  split
  next h => exact h
  next => exact List.mem_append_right _ List.mem_cons_self

theorem nodup_keys_upsert (h : (obj.map Prod.fst).Nodup) (k : κ) (new : β) (f : β → β) :
    ((upsert k new f obj).map Prod.fst).Nodup := by
  rw [keys_upsert]
  split
  next => exact h
  next hk =>
    refine List.nodup_append.mpr ⟨h, List.nodup_singleton k, fun a ha b hb hab ↦ hk ?_⟩
    rwa [← List.mem_singleton.mp hb, ← hab]

/-- What is in the object then. -/
theorem of_mem_upsert {p : κ × β} (hnodup : (obj.map Prod.fst).Nodup)
    (h : p ∈ upsert k new f obj) :
    p ∈ obj ∧ p.1 ≠ k ∨ (∃ v, (k, v) ∈ obj ∧ p = (k, f v)) ∨
      k ∉ obj.map Prod.fst ∧ p = (k, new) := by
  induction obj with
  | nil => exact .inr (.inr ⟨List.not_mem_nil, List.mem_singleton.mp h⟩)
  | cons q obj ih =>
    obtain ⟨k', v⟩ := q
    obtain ⟨hk', hnodup⟩ := List.nodup_cons.mp hnodup
    rw [upsert] at h
    split at h
    next heq =>
      subst heq
      rcases List.mem_cons.mp h with rfl | h
      · exact .inr (.inl ⟨v, List.mem_cons_self, rfl⟩)
      · refine .inl ⟨List.mem_cons_of_mem _ h, fun hp ↦ hk' ?_⟩
        have hmem : p.1 ∈ obj.map Prod.fst := List.mem_map_of_mem h
        rw [hp] at hmem
        exact hmem
    next hne =>
      rcases List.mem_cons.mp h with rfl | h
      · exact .inl ⟨List.mem_cons_self, hne⟩
      · rcases ih hnodup h with ⟨h, hp⟩ | ⟨v', hv', rfl⟩ | ⟨hk, rfl⟩
        · exact .inl ⟨List.mem_cons_of_mem _ h, hp⟩
        · exact .inr (.inl ⟨v', List.mem_cons_of_mem _ hv', rfl⟩)
        · refine .inr (.inr ⟨fun hmem ↦ ?_, rfl⟩)
          rcases List.mem_cons.mp hmem with hmem | hmem
          · exact hne hmem.symm
          · exact hk hmem

/-- An object whose values stand for those of another one. -/
theorem map_upsert {g : β → γ} {f' : γ → γ} (h : ∀ p ∈ obj, p.1 = k → g (f p.2) = f' (g p.2)) :
    (upsert k new f obj).map (Prod.map id g) = upsert k (g new) f' (obj.map (Prod.map id g)) := by
  induction obj with
  | nil => rfl
  | cons p obj ih =>
    obtain ⟨k', v⟩ := p
    have hrest := ih fun q hq ↦ h q (List.mem_cons_of_mem _ hq)
    rw [upsert, List.map_cons, Prod.map_apply, id, upsert]
    split
    next heq => rw [List.map_cons, Prod.map_apply, id, h (k', v) List.mem_cons_self heq]
    next => rw [List.map_cons, Prod.map_apply, id, hrest]

end Upsert

/-! ## Gathering -/

/-- An element joins the bucket of its key, or takes its place. -/
def gather (key : α → κ) (joins : α → Bool) (obj : List (κ × List α)) (a : α) :
    List (κ × List α) :=
  upsert (key a) [a] (fun as ↦ if joins a then as ++ [a] else [a]) obj

/-- A list in buckets. -/
def gathered (key : α → κ) (joins : α → Bool) (l : List α) : List (κ × List α) :=
  l.foldl (gather key joins) []

section Gather

variable {key : α → κ} {joins : α → Bool} {l : List α} {k : κ} {as : List α} {a : α}

theorem gathered_append_singleton (key : α → κ) (joins : α → Bool) (l : List α) (a : α) :
    gathered key joins (l ++ [a]) = gather key joins (gathered key joins l) a :=
  List.foldl_append

theorem nodup_keys_gathered (key : α → κ) (joins : α → Bool) (l : List α) :
    ((gathered key joins l).map Prod.fst).Nodup := by
  induction l using List.reverseRecOn with
  | nil => exact List.nodup_nil
  | append_singleton l a ih =>
    rw [gathered_append_singleton]
    exact nodup_keys_upsert ih _ _ _

theorem key_mem_gathered (h : a ∈ l) : key a ∈ (gathered key joins l).map Prod.fst := by
  induction l using List.reverseRecOn with
  | nil => cases h
  | append_singleton l b ih =>
    rw [gathered_append_singleton]
    rcases List.mem_append.mp h with h | h
    · exact mem_keys_upsert (ih h) _ _ _
    · rw [List.mem_singleton.mp h]
      exact self_mem_keys_upsert _ _ _ _

/-- A bucket is not empty and has elements of its key. -/
theorem of_mem_gathered (h : (k, as) ∈ gathered key joins l) :
    as ≠ [] ∧ ∀ a ∈ as, a ∈ l ∧ key a = k := by
  induction l using List.reverseRecOn generalizing as with
  | nil => cases h
  | append_singleton l b ih =>
    rw [gathered_append_singleton] at h
    have hsingle : ∀ a ∈ [b], a ∈ l ++ [b] ∧ key a = key b := by
      intro a ha
      exact ⟨List.mem_append_right _ ha, congrArg key (List.mem_singleton.mp ha)⟩
    have hcases := of_mem_upsert (nodup_keys_gathered key joins l) h
    rcases hcases with ⟨h, -⟩ | ⟨as', has', heq⟩ | ⟨-, heq⟩
    · obtain ⟨hne, hall⟩ := ih h
      exact ⟨hne, fun a ha ↦ ⟨List.mem_append_left _ (hall a ha).1, (hall a ha).2⟩⟩
    · obtain ⟨rfl, rfl⟩ := Prod.mk.inj heq
      obtain ⟨hne, hall⟩ := ih has'
      split
      · refine ⟨List.append_ne_nil_of_left_ne_nil hne _, fun a ha ↦ ?_⟩
        rcases List.mem_append.mp ha with ha | ha
        · exact ⟨List.mem_append_left _ (hall a ha).1, (hall a ha).2⟩
        · exact hsingle a ha
      · exact ⟨List.cons_ne_nil _ _, hsingle⟩
    · obtain ⟨rfl, rfl⟩ := Prod.mk.inj heq
      exact ⟨List.cons_ne_nil _ _, hsingle⟩

/-- An element that does not join has its key for itself. -/
def Apart (key : α → κ) (joins : α → Bool) (l : List α) : Prop :=
  ∀ a ∈ l, ∀ b ∈ l, key a = key b → a = b ∨ joins a

/-- Then a bucket has all elements of its key. -/
theorem eq_filter_of_mem_gathered (hnodup : l.Nodup) (hapart : Apart key joins l)
    (h : (k, as) ∈ gathered key joins l) : as = l.filter fun a ↦ key a = k := by
  induction l using List.reverseRecOn generalizing as with
  | nil => cases h
  | append_singleton l b ih =>
    obtain ⟨hnodup', -, hdisjoint⟩ := List.nodup_append.mp hnodup
    have hb : b ∉ l := fun hb ↦ hdisjoint b hb b List.mem_cons_self rfl
    have hapart' : Apart key joins l := fun a ha b hb ↦
      hapart a (List.mem_append_left _ ha) b (List.mem_append_left _ hb)
    have hself : [b].filter (fun a ↦ key a = key b) = [b] :=
      List.filter_cons_of_pos (decide_eq_true rfl)
    rw [gathered_append_singleton] at h
    rw [List.filter_append]
    have hcases := of_mem_upsert (nodup_keys_gathered key joins l) h
    rcases hcases with ⟨h, hk⟩ | ⟨as', has', heq⟩ | ⟨hk, heq⟩
    · have hother : [b].filter (fun a ↦ key a = k) = [] :=
        List.filter_cons_of_neg fun hbk ↦ hk (of_decide_eq_true hbk).symm
      rw [hother, List.append_nil]
      exact ih hnodup' hapart' h
    · obtain ⟨rfl, rfl⟩ := Prod.mk.inj heq
      obtain ⟨hne, hall⟩ := of_mem_gathered has'
      obtain ⟨a, ha⟩ := List.exists_mem_of_ne_nil as' hne
      obtain ⟨hal, hkey⟩ := hall a ha
      rcases hapart b (List.mem_append_right _ List.mem_cons_self) a
        (List.mem_append_left _ hal) hkey.symm with rfl | hjoins
      · exact absurd hal hb
      · rw [if_pos hjoins, hself, ih hnodup' hapart' has']
    · obtain ⟨rfl, rfl⟩ := Prod.mk.inj heq
      have hnone : l.filter (fun a ↦ key a = key b) = [] := by
        refine List.filter_eq_nil_iff.mpr fun a ha hkey ↦ hk ?_
        rw [← of_decide_eq_true hkey]
        exact key_mem_gathered ha
      rw [hnone, hself, List.nil_append]

/-- Then no element is lost or doubled. -/
theorem flatten_gathered_perm (hnodup : l.Nodup) (hapart : Apart key joins l) :
    ((gathered key joins l).map Prod.snd).flatten.Perm l := by
  have hbucket {p : κ × List α} (hp : p ∈ gathered key joins l) :
      p.2 = l.filter fun a ↦ key a = p.1 := eq_filter_of_mem_gathered hnodup hapart hp
  refine (List.perm_ext_iff_of_nodup ?_ hnodup).mpr fun a ↦ ?_
  · refine List.nodup_flatten.mpr ⟨fun as has ↦ ?_, ?_⟩
    · obtain ⟨p, hp, rfl⟩ := List.mem_map.mp has
      rw [hbucket hp]
      exact hnodup.filter _
    · rw [List.pairwise_map]
      refine (List.pairwise_map.mp (nodup_keys_gathered key joins l)).imp_of_mem
        fun {p q} hp hq hne a ha ha' ↦ hne ?_
      exact ((of_mem_gathered hp).2 a ha).2.symm.trans ((of_mem_gathered hq).2 a ha').2
  · constructor
    · intro h
      obtain ⟨as, has, ha⟩ := List.mem_flatten.mp h
      obtain ⟨p, hp, rfl⟩ := List.mem_map.mp has
      exact ((of_mem_gathered hp).2 a ha).1
    · intro h
      have hkey : key a ∈ (gathered key joins l).map Prod.fst := key_mem_gathered h
      obtain ⟨p, hp, hk⟩ := List.mem_map.mp hkey
      refine List.mem_flatten.mpr ⟨p.2, List.mem_map_of_mem hp, ?_⟩
      rw [hbucket hp]
      exact List.mem_filter.mpr ⟨h, decide_eq_true hk.symm⟩

end Gather

end Wwan.Buckets
