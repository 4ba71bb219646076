import Mathlib.Data.List.TakeWhile

/-!
# Lines, and reads of a bounded size

A file is the sequence of its lines, each with the newline behind it; the last one may have none.
`pieces` is what a reader gets of it that stops behind a newline, or when its buffer is full. Such
a reader sees line for line, and a line as one piece if it fits the buffer with its newline.

Where any of several bytes ends a line, `ended` are the lines of a stream that have come to their
end and have something in them.
-/

namespace Wwan.Lines

variable {size room : ℕ} {content t l : List UInt8}

/-- The newline. -/
abbrev nl : UInt8 := 10

/-- A byte in front of the first text. -/
def consHead (c : UInt8) : List (List UInt8) → List (List UInt8)
  | [] => [[c]]
  | t :: ts => (c :: t) :: ts

/-- The lines of a file, with their newlines. -/
def texts : List UInt8 → List (List UInt8)
  | [] => []
  | c :: cs => if c = nl then [c] :: texts cs else consHead c (texts cs)

/-- A line without its newline. -/
def lineOf (t : List UInt8) : List UInt8 := t.takeWhile (· ≠ nl)

/-- The lines of a file. -/
def linesOf (content : List UInt8) : List (List UInt8) := (texts content).map lineOf

/-- What reads of `size` bytes at most get of a file; the one under way still has room for `room`.
A read ends with a newline too. -/
def pieces (size : ℕ) : ℕ → List UInt8 → List (List UInt8)
  | _, [] => []
  | room, c :: cs =>
    if c = nl ∨ room ≤ 1 then [c] :: pieces size size cs
    else consHead c (pieces size (room - 1) cs)

/-- A line with its newline, or a line at the end of a file that has none. -/
def IsText (t : List UInt8) : Prop := ∃ l, nl ∉ l ∧ (t = l ++ [nl] ∨ t = l ∧ l ≠ [])

/-! ## Lines -/

theorem texts_eq_nil : texts content = [] ↔ content = [] := by
  cases content with
  | nil => exact iff_of_true rfl rfl
  | cons c cs =>
    refine iff_of_false (fun h ↦ ?_) (List.cons_ne_nil c cs)
    unfold texts at h
    split at h
    next => exact List.cons_ne_nil _ _ h
    next =>
      cases hcs : texts cs with
      | nil =>
        rw [hcs] at h
        exact List.cons_ne_nil _ _ h
      | cons t ts =>
        rw [hcs] at h
        exact List.cons_ne_nil _ _ h

/-- The lines make the file. -/
theorem flatten_texts (content : List UInt8) : (texts content).flatten = content := by
  induction content with
  | nil => rfl
  | cons c cs ih =>
    rw [texts]
    split
    · rw [List.flatten_cons, ih, List.singleton_append]
    · cases hcs : texts cs with
      | nil => rw [texts_eq_nil.mp hcs, consHead, List.flatten_singleton]
      | cons t ts =>
        rw [hcs, List.flatten_cons] at ih
        rw [consHead, List.flatten_cons, List.cons_append, ih]

theorem mem_of_mem_texts (h : t ∈ texts content) {b : UInt8} (hb : b ∈ t) : b ∈ content := by
  rw [← flatten_texts content]
  exact List.mem_flatten.mpr ⟨t, h, hb⟩

theorem isText_of_mem (h : t ∈ texts content) : IsText t := by
  induction content generalizing t with
  | nil => exact absurd h List.not_mem_nil
  | cons c cs ih =>
    unfold texts at h
    split at h
    next hc =>
      rcases List.mem_cons.mp h with rfl | h
      · exact ⟨[], List.not_mem_nil, .inl (by rw [hc, List.nil_append])⟩
      · exact ih h
    next hc =>
      cases hcs : texts cs with
      | nil =>
        rw [hcs] at h
        rw [List.mem_singleton.mp h]
        exact ⟨[c], by simpa using Ne.symm hc, .inr ⟨rfl, List.cons_ne_nil c []⟩⟩
      | cons t' ts =>
        rw [hcs] at h ih
        rcases List.mem_cons.mp h with rfl | h
        · obtain ⟨l, hl, htext⟩ := ih List.mem_cons_self
          refine ⟨c :: l, ?_, ?_⟩
          · rintro (_ | ⟨_, hmem⟩)
            · exact hc rfl
            · exact hl hmem
          · rcases htext with rfl | ⟨rfl, hne⟩
            · exact .inl rfl
            · exact .inr ⟨rfl, List.cons_ne_nil c t'⟩
        · exact ih (List.mem_cons_of_mem t' h)

theorem lineOf_append (h : nl ∉ l) (r : List UInt8) : lineOf (l ++ nl :: r) = l := by
  rw [lineOf, List.takeWhile_append_of_pos, List.takeWhile_cons_of_neg (by decide), List.append_nil]
  intro c hc
  exact decide_eq_true (ne_of_mem_of_not_mem hc h)

theorem lineOf_self (h : nl ∉ l) : lineOf l = l := by
  apply List.takeWhile_eq_self_iff.mpr
  intro c hc
  exact decide_eq_true (ne_of_mem_of_not_mem hc h)

theorem length_le_lineOf (h : IsText t) : t.length ≤ (lineOf t).length + 1 := by
  obtain ⟨l, hl, rfl | ⟨rfl, -⟩⟩ := h
  · rw [lineOf_append hl [], List.length_append, List.length_singleton]
  · rw [lineOf_self hl]
    exact Nat.le_succ _

theorem nl_notMem_lineOf : nl ∉ lineOf t := by
  intro h
  exact absurd (List.mem_takeWhile_imp h) (by decide)

/-- A line with a newline is the first of a file that starts with it. -/
theorem texts_append (h : nl ∉ l) (r : List UInt8) :
    texts (l ++ nl :: r) = (l ++ [nl]) :: texts r := by
  induction l with
  | nil => rfl
  | cons c l ih =>
    have hc : c ≠ nl := fun heq ↦ h (heq ▸ List.mem_cons_self)
    rw [List.cons_append, texts, if_neg hc, ih fun hmem ↦ h (List.mem_cons_of_mem c hmem)]
    rfl

/-- A file within a line. -/
theorem texts_of_notMem (h : nl ∉ l) (hne : l ≠ []) : texts l = [l] := by
  induction l with
  | nil => exact absurd rfl hne
  | cons c l ih =>
    have hc : c ≠ nl := fun heq ↦ h (heq ▸ List.mem_cons_self)
    rw [texts, if_neg hc]
    cases l with
    | nil => rfl
    | cons c' l =>
      rw [ih (fun hmem ↦ h (List.mem_cons_of_mem c hmem)) (List.cons_ne_nil c' l)]
      rfl

/-- Lines with a newline each; the last one may have none. -/
def WellFormed : List (List UInt8) → Prop
  | [] => True
  | [t] => IsText t
  | t :: t' :: ts => (∃ l, nl ∉ l ∧ t = l ++ [nl]) ∧ WellFormed (t' :: ts)

/-- Such lines are the lines of the file that they make. -/
theorem texts_flatten {ts : List (List UInt8)} (h : WellFormed ts) : texts ts.flatten = ts := by
  induction ts with
  | nil => rfl
  | cons t ts ih =>
    cases ts with
    | nil =>
      rw [List.flatten_singleton]
      obtain ⟨l, hl, rfl | ⟨rfl, hne⟩⟩ := h
      · exact texts_append hl []
      · exact texts_of_notMem hl hne
    | cons t' ts =>
      obtain ⟨⟨l, hl, rfl⟩, hrest⟩ := h
      rw [List.flatten_cons, List.append_assoc, List.singleton_append, texts_append hl,
        ih hrest]

theorem wellFormed_texts (content : List UInt8) : WellFormed (texts content) := by
  induction content with
  | nil => trivial
  | cons c cs ih =>
    rw [texts]
    split
    next hc =>
      subst hc
      cases hcs : texts cs with
      | nil => exact ⟨[], List.not_mem_nil, .inl rfl⟩
      | cons t ts => exact ⟨⟨[], List.not_mem_nil, rfl⟩, hcs ▸ ih⟩
    next hc =>
      have hnotMem {l : List UInt8} (hl : nl ∉ l) : nl ∉ c :: l := fun hmem ↦
        (List.mem_cons.mp hmem).elim (fun h ↦ hc h.symm) hl
      cases hcs : texts cs with
      | nil => exact ⟨[c], hnotMem List.not_mem_nil, .inr ⟨rfl, List.cons_ne_nil c []⟩⟩
      | cons t ts =>
        rw [hcs] at ih
        cases ts with
        | nil =>
          obtain ⟨l, hl, rfl | ⟨rfl, hne⟩⟩ := ih
          · exact ⟨c :: l, hnotMem hl, .inl rfl⟩
          · exact ⟨c :: t, hnotMem hl, .inr ⟨rfl, List.cons_ne_nil c t⟩⟩
        | cons t' ts =>
          obtain ⟨⟨l, hl, rfl⟩, hrest⟩ := ih
          exact ⟨⟨c :: l, hnotMem hl, rfl⟩, hrest⟩

/-- A whole line in the place of another one. -/
theorem WellFormed.replace {pre rest : List (List UInt8)}
    (h : WellFormed (pre ++ t :: rest)) (hl : nl ∉ l) :
    WellFormed (pre ++ (l ++ [nl]) :: rest) := by
  induction pre with
  | nil =>
    cases rest with
    | nil => exact ⟨l, hl, .inl rfl⟩
    | cons t' rest => exact ⟨⟨l, hl, rfl⟩, h.2⟩
  | cons t' pre ih =>
    cases pre with
    | nil => exact ⟨h.1, ih h.2⟩
    | cons t'' pre => exact ⟨h.1, ih h.2⟩

/-- A file that is written line by line. -/
theorem texts_flatMap {ls : List (List UInt8)} (h : ∀ l ∈ ls, nl ∉ l) :
    texts (ls.flatMap (· ++ [nl])) = ls.map (· ++ [nl]) := by
  induction ls with
  | nil => rfl
  | cons l ls ih =>
    rw [List.flatMap_cons, List.append_assoc, List.singleton_append,
      texts_append (h l List.mem_cons_self), List.map_cons,
      ih fun l' hl' ↦ h l' (List.mem_cons_of_mem l hl')]

theorem linesOf_flatMap {ls : List (List UInt8)} (h : ∀ l ∈ ls, nl ∉ l) :
    linesOf (ls.flatMap (· ++ [nl])) = ls := by
  rw [linesOf, texts_flatMap h, List.map_map]
  exact (List.map_congr_left fun l hl ↦ lineOf_append (h l hl) []).trans (List.map_id ls)

/-! ## Pieces -/

/-- A line that fits the buffer is one piece. -/
theorem pieces_isText (h : IsText t) (hlen : t.length ≤ room) : pieces size room t = [t] := by
  obtain ⟨l, hl, htext⟩ := h
  induction l generalizing t room with
  | nil =>
    rcases htext with rfl | ⟨-, hne⟩
    · rfl
    · exact absurd rfl hne
  | cons c l ih =>
    have hc : c ≠ nl := fun heq ↦ hl (heq ▸ List.mem_cons_self)
    have hrest : nl ∉ l := fun hmem ↦ hl (List.mem_cons_of_mem c hmem)
    have hpos : ∀ s : List UInt8, s ≠ [] → t = c :: s →
        pieces size (room - 1) s = [s] → pieces size room t = [t] := by
      rintro s hne rfl hpieces
      have hs := List.length_pos_iff.mpr hne
      rw [List.length_cons] at hlen
      rw [pieces, if_neg (not_or.mpr ⟨hc, by omega⟩), hpieces]
      rfl
    have hshort : ∀ s : List UInt8, t = c :: s → s.length ≤ room - 1 := by
      rintro s rfl
      exact Nat.le_sub_one_of_lt hlen
    rcases htext with rfl | ⟨rfl, -⟩
    · refine hpos (l ++ [nl]) (List.append_ne_nil_of_right_ne_nil l (List.cons_ne_nil _ _)) rfl ?_
      exact ih (hshort _ rfl) hrest (.inl rfl)
    · rcases l with _ | ⟨c', l⟩
      · rw [pieces, pieces]
        split
        next => rfl
        next => rfl
      · refine hpos (c' :: l) (List.cons_ne_nil c' l) rfl ?_
        exact ih (hshort _ rfl) hrest (.inr ⟨rfl, List.cons_ne_nil c' l⟩)

/-- A line that fills the buffer leaves its newline to the next read. -/
theorem pieces_full (h : nl ∉ l) (hne : l ≠ []) (hlen : l.length = room) (r : List UInt8) :
    pieces size room (l ++ r) = l :: pieces size size r := by
  induction l generalizing room with
  | nil => exact absurd rfl hne
  | cons c l ih =>
    have hc : c ≠ nl := fun heq ↦ h (heq ▸ List.mem_cons_self)
    rw [List.length_cons] at hlen
    rw [List.cons_append, pieces]
    rcases l with _ | ⟨c', l⟩
    · rw [if_pos (.inr (Nat.le_of_eq hlen.symm)), List.nil_append]
    · rw [List.length_cons] at hlen
      rw [if_neg (not_or.mpr ⟨hc, by omega⟩),
        ih (fun hmem ↦ h (List.mem_cons_of_mem c hmem)) (List.cons_ne_nil c' l)
          (by rw [List.length_cons]; omega)]
      rfl

theorem pieces_ne_nil (h : t ≠ []) : pieces size room t ≠ [] := by
  cases t with
  | nil => exact absurd rfl h
  | cons c cs =>
    unfold pieces
    split
    next => exact List.cons_ne_nil _ _
    next =>
      cases pieces size (room - 1) cs with
      | nil => exact List.cons_ne_nil _ _
      | cons p ps => exact List.cons_ne_nil _ _

/-- Reads go line for line. -/
theorem pieces_texts (content : List UInt8) :
    pieces size size content = (texts content).flatMap (pieces size size) := by
  have hgen : ∀ room, pieces size room content =
      match texts content with
      | [] => []
      | t :: ts => pieces size room t ++ ts.flatMap (pieces size size) := by
    induction content with
    | nil => exact fun _ ↦ rfl
    | cons c cs ih =>
      have hsize : pieces size size cs = (texts cs).flatMap (pieces size size) := by
        rw [ih size]
        cases texts cs with
        | nil => rfl
        | cons t ts => rw [List.flatMap_cons]
      intro room
      by_cases hc : c = nl
      · subst hc
        rw [texts, if_pos rfl, pieces, if_pos (.inl rfl), hsize]
        rfl
      · rw [texts, if_neg hc]
        cases hts : texts cs with
        | nil =>
          rw [texts_eq_nil.mp hts]
          simp only [consHead, List.flatMap_nil, List.append_nil]
        | cons t ts =>
          have hrest := ih (room - 1)
          rw [hts] at hrest hsize
          simp only [consHead]
          rw [pieces, pieces]
          split
          · rw [hsize, List.flatMap_cons, List.cons_append]
          · rw [hrest]
            have htext : IsText t := isText_of_mem (hts ▸ List.mem_cons_self)
            have hne : t ≠ [] := by
              rcases htext with ⟨l, -, rfl | ⟨rfl, hne⟩⟩
              · exact List.append_ne_nil_of_right_ne_nil l (List.cons_ne_nil _ _)
              · exact hne
            cases hp : pieces size (room - 1) t with
            | nil => exact absurd hp (pieces_ne_nil hne)
            | cons p ps =>
              simp only [hp]
              rfl
  rw [hgen size]
  cases texts content with
  | nil => rfl
  | cons t ts => rw [List.flatMap_cons]

/-- The piece under way fits its room, the others fit the buffer, and none has a newline but at its
end. -/
theorem fits_of_pieces (hsize : 0 < size) {p : List UInt8} {ps : List (List UInt8)}
    (hroom : 0 < room) (h : pieces size room t = p :: ps) :
    (p.length ≤ room ∧ nl ∉ p.dropLast) ∧ ∀ q ∈ ps, q.length ≤ size ∧ nl ∉ q.dropLast := by
  induction t generalizing room p ps with
  | nil => exact absurd h.symm (List.cons_ne_nil p ps)
  | cons c cs ih =>
    rw [pieces] at h
    split at h
    next =>
      obtain ⟨rfl, rfl⟩ := List.cons.inj h
      refine ⟨⟨hroom, List.not_mem_nil⟩, fun q hq ↦ ?_⟩
      cases hcs : pieces size size cs with
      | nil =>
        rw [hcs] at hq
        exact absurd hq List.not_mem_nil
      | cons p' ps' =>
        rw [hcs] at hq
        obtain ⟨hhead, htail⟩ := ih hsize hcs
        rcases List.mem_cons.mp hq with rfl | hq
        · exact hhead
        · exact htail q hq
    next hc =>
      obtain ⟨hne, hlarge⟩ := not_or.mp hc
      cases hcs : pieces size (room - 1) cs with
      | nil =>
        rw [hcs] at h
        obtain ⟨rfl, rfl⟩ := List.cons.inj h
        exact ⟨⟨hroom, List.not_mem_nil⟩, fun q hq ↦ absurd hq List.not_mem_nil⟩
      | cons p' ps' =>
        rw [hcs] at h
        obtain ⟨rfl, rfl⟩ := List.cons.inj h
        obtain ⟨⟨hlen, hnl⟩, htail⟩ := ih (by omega) hcs
        refine ⟨⟨by rw [List.length_cons]; omega, ?_⟩, htail⟩
        rcases p' with _ | ⟨c', p'⟩
        · exact List.not_mem_nil
        · rw [List.dropLast_cons_of_ne_nil (List.cons_ne_nil c' p')]
          rintro (_ | ⟨_, hmem⟩)
          · exact hne rfl
          · exact hnl hmem

/-- A piece fits the buffer, and has no newline but at its end. -/
theorem of_mem_pieces (hsize : 0 < size) {p : List UInt8} (h : p ∈ pieces size size t) :
    p.length ≤ size ∧ nl ∉ p.dropLast := by
  cases hps : pieces size size t with
  | nil =>
    rw [hps] at h
    exact absurd h List.not_mem_nil
  | cons p' ps =>
    rw [hps] at h
    obtain ⟨hhead, htail⟩ := fits_of_pieces hsize hsize hps
    rcases List.mem_cons.mp h with rfl | h
    · exact hhead
    · exact htail p h

/-! ## Streams -/

section Ended

variable {sep : UInt8 → Bool}

/-- The lines of a stream that are not empty and have a separator behind them. -/
def ended (sep : UInt8 → Bool) (content : List UInt8) : List (List UInt8) :=
  (content.splitOnP sep).dropLast.filter (· ≠ [])

theorem ended_eq_nil (h : ∀ c ∈ l, sep c = false) : ended sep l = [] := by
  rw [ended, List.splitOnP_eq_singleton h]
  rfl

/-- A line and its separator. -/
theorem ended_append_cons (h : ∀ c ∈ l, sep c = false) {c : UInt8} (hc : sep c) (r : List UInt8) :
    ended sep (l ++ c :: r) = [l].filter (· ≠ []) ++ ended sep r := by
  rw [ended, List.splitOnP_append_cons_of_forall_mem h c hc,
    List.dropLast_cons_of_ne_nil (List.splitOnP_ne_nil sep r), ← List.singleton_append,
    List.filter_append]
  rfl

theorem ended_line (h : ∀ c ∈ l, sep c = false) (hne : l ≠ []) {c : UInt8} (hc : sep c)
    (r : List UInt8) : ended sep (l ++ c :: r) = l :: ended sep r := by
  rw [ended_append_cons h hc, List.filter_cons_of_pos (by simpa using hne)]
  rfl

/-- Separators in front are passed over. -/
theorem ended_append_left {e : List UInt8} (h : ∀ c ∈ e, sep c) (r : List UInt8) :
    ended sep (e ++ r) = ended sep r := by
  induction e with
  | nil => rfl
  | cons c e ih =>
    have hhead := ended_append_cons (l := []) (List.forall_mem_nil _) (h c List.mem_cons_self)
      (e ++ r)
    rw [List.nil_append] at hhead
    rw [List.cons_append, hhead, ih fun c' hc' ↦ h c' (List.mem_cons_of_mem c hc')]
    rfl

/-- What is behind a separator is split as by itself. -/
theorem mem_splitOnP_behind {c : UInt8} (hc : sep c) {e r : List UInt8}
    (h : t ∈ r.splitOnP sep) : t ∈ (e ++ c :: r).splitOnP sep := by
  rw [List.splitOnP_append_cons e r hc]
  exact List.mem_append_right _ h

/-- The first line starts with the first byte. -/
theorem exists_mem_splitOnP_cons {c : UInt8} (hc : sep c = false) (r : List UInt8) :
    ∃ l ∈ (c :: r).splitOnP sep, l.head? = some c := by
  obtain ⟨l, ls, hls⟩ := List.exists_cons_of_ne_nil (List.splitOnP_ne_nil sep r)
  refine ⟨c :: l, ?_, rfl⟩
  rw [List.splitOnP_cons_eq_if_modifyHead, hc, hls]
  exact List.mem_cons_self

/-- A stream is separators, and then a line that has come to its end or one that has not. -/
theorem exists_ended_or (sep : UInt8 → Bool) (content : List UInt8) :
    ∃ e, (∀ c ∈ e, sep c) ∧
      ((∃ l, content = e ++ l ∧ ∀ c ∈ l, sep c = false) ∨
        ∃ l c r, content = e ++ (l ++ c :: r) ∧ (∀ c ∈ l, sep c = false) ∧ l ≠ [] ∧ sep c) := by
  induction content with
  | nil => exact ⟨[], List.forall_mem_nil _, .inl ⟨[], rfl, List.forall_mem_nil _⟩⟩
  | cons c cs ih =>
    obtain ⟨e, he, hrest⟩ := ih
    by_cases hc : sep c
    · refine ⟨c :: e, List.forall_mem_cons.mpr ⟨hc, he⟩, ?_⟩
      rcases hrest with ⟨l, rfl, hl⟩ | ⟨l, d, r, rfl, hl, hne, hd⟩
      · exact .inl ⟨l, rfl, hl⟩
      · exact .inr ⟨l, d, r, rfl, hl, hne, hd⟩
    · rw [Bool.not_eq_true] at hc
      refine ⟨[], List.forall_mem_nil _, ?_⟩
      rcases e with _ | ⟨d, e⟩
      · rcases hrest with ⟨l, heq, hl⟩ | ⟨l, d, r, rfl, hl, -, hd⟩
        · exact .inl ⟨c :: l, congrArg (c :: ·) heq, List.forall_mem_cons.mpr ⟨hc, hl⟩⟩
        · refine .inr ⟨c :: l, d, r, rfl, List.forall_mem_cons.mpr ⟨hc, hl⟩, ?_, hd⟩
          exact List.cons_ne_nil c l
      · -- the byte alone is a line
        have hd := he d List.mem_cons_self
        have hline : ∀ b ∈ [c], sep b = false := List.forall_mem_singleton.mpr hc
        rcases hrest with ⟨l, rfl, -⟩ | ⟨l, d', r, rfl, -⟩
        · exact .inr ⟨[c], d, e ++ l, rfl, hline, List.cons_ne_nil c [], hd⟩
        · exact .inr ⟨[c], d, e ++ (l ++ d' :: r), rfl, hline, List.cons_ne_nil c [], hd⟩

end Ended

end Wwan.Lines
