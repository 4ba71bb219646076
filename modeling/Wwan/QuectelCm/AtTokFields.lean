import Wwan.QuectelCm.AtTok

/-!
# The fields that `at_tok_scanf` recovers

One conversion takes one field, leaves what precedes it as it is, and the cursor behind the comma.
Over the whole response every field is recovered if and only if no placeholder that is read as a
number has a blank before it or the end of the line behind it.
-/

namespace Wwan.QuectelCm

open Bytes Memory Text

/-! ## Texts without commas -/

theorem digitValue_lt {b : UInt8} (h : digitValue b < 36) :
    b ≠ 0 ∧ b ≠ comma ∧ b ≠ quote ∧ b ≠ 45 ∧ b ≠ 43 ∧ isspace b = false := by
  simp only [digitValue, UInt8.le_iff_toNat_le, ← UInt8.toNat_inj, ne_eq, isspace,
    ← Bool.not_eq_true, Bool.or_eq_true, Bool.and_eq_true, decide_eq_true_eq,
    comma, quote, UInt8.reduceToNat] at h ⊢
  split at h
  · omega
  split at h
  · omega
  split at h
  · omega
  · omega

/-- A text that is cut at a comma as it is. -/
structure Plain (tok : List UInt8) : Prop where
  noNul : 0 ∉ tok
  noComma : comma ∉ tok
  head : ∃ b, tok.head? = some b ∧ isspace b = false ∧ b ≠ quote

theorem plain_digits {digits : List UInt8} (hne : digits ≠ [])
    (h : ∀ b ∈ digits, digitValue b < 36) : Plain digits where
  noNul hmem := (digitValue_lt (h 0 hmem)).1 rfl
  noComma hmem := (digitValue_lt (h comma hmem)).2.1 rfl
  head := by
    obtain ⟨b, digits, rfl⟩ := List.exists_cons_of_ne_nil hne
    have hb := digitValue_lt (h b List.mem_cons_self)
    exact ⟨b, rfl, hb.2.2.2.2.2, hb.2.2.1⟩

/-- A character in front keeps a text plain, if it is plain itself. -/
theorem Plain.cons {b : UInt8} {tok : List UInt8} (hb : Plain [b]) (htok : Plain tok) :
    Plain (b :: tok) where
  noNul hmem := (List.mem_cons.mp hmem).elim
    (fun h ↦ hb.noNul (List.mem_singleton.mpr h)) htok.noNul
  noComma hmem := (List.mem_cons.mp hmem).elim
    (fun h ↦ hb.noComma (List.mem_singleton.mpr h)) htok.noComma
  head := hb.head

theorem plain_dash : Plain [45] := ⟨by decide, by decide, 45, rfl, by decide⟩

/-! ## Tokens -/

namespace AtLine

variable {s_line : ℕ → UInt8} {p : ℕ} {cur : Option ℕ} {blanks tok ys : List UInt8}

/-- A scan of the buffer stops at the first byte that it does not pass. -/
theorem skip_eq {c : UInt8 → Bool} {xs : List UInt8} {y : UInt8}
    (h : Holds s_line p (xs ++ y :: ys)) (hxs : ∀ x ∈ xs, x ≠ 0 ∧ c x) (hy : y = 0 ∨ c y = false)
    (hn : p + xs.length < lineSize) : (AtLine.mk s_line cur).skip c p = p + xs.length := by
  apply skipWhile_eq h
  · intro x hx
    simpa using hxs x hx
  · rcases hy with rfl | hy
    · rfl
    · rw [hy, Bool.and_false]
  · exact Nat.lt_sub_of_add_lt (Nat.add_comm _ _ ▸ hn)

/-- Blanks are skipped, up to what is none. -/
theorem skipWhiteSpace_eq {y : UInt8} (h : Holds s_line p (blanks ++ y :: ys))
    (hblanks : ∀ b ∈ blanks, b = 32) (hspace : isspace y = false)
    (hn : p + blanks.length < lineSize) :
    (AtLine.mk s_line (some p)).skipWhiteSpace = ⟨s_line, some (p + blanks.length)⟩ := by
  have hskip : (AtLine.mk s_line (some p)).skip isspace p = p + blanks.length :=
    skip_eq h (fun b hb ↦ hblanks b hb ▸ ⟨by decide, by decide⟩) (.inr hspace) hn
  rw [skipWhiteSpace, Option.map_some, hskip]

theorem skipNextComma_eq (h : Holds s_line p ([] ++ comma :: ys)) (hn : p < lineSize) :
    (AtLine.mk s_line (some p)).skipNextComma = ⟨s_line, some (p + 1)⟩ := by
  have hstay : (AtLine.mk s_line (some p)).skip (fun b ↦ b ≠ comma) p = p :=
    skip_eq h (List.forall_mem_nil _) (.inr (by decide)) hn
  have hcomma : s_line p = comma := h.getElem (Nat.zero_lt_succ _)
  simp only [skipNextComma, Option.map_some, hstay, hcomma, if_true]

/-- What a cursor that was at `p` has behind the field that ended at `q`: the fields that were
there, the string that was cut out ends before them, and nothing in front of `p` has changed. -/
structure Behind (s_line : ℕ → UInt8) (p q : ℕ) (rest : List UInt8) (s : AtLine) : Prop where
  front : ∀ a < p, s.s_line a = s_line a
  rest : rest ≠ [] → s.cur = some (q + 1) ∧ Holds s.s_line (q + 1) rest

/-- What follows a field: a comma and the other fields, or the end of the line. -/
def after (rest : List UInt8) : List UInt8 := if rest = [] then [0] else comma :: rest

variable {rest : List UInt8}

theorem nextTok_plain (htok : Plain tok) (h : Holds s_line p (blanks ++ tok ++ after rest))
    (hblanks : ∀ b ∈ blanks, b = 32) (hn : p + (blanks ++ tok).length < lineSize) :
    ∃ s : AtLine, (AtLine.mk s_line (some p)).nextTok = (some (p + blanks.length), s) ∧
      Behind s_line p (p + (blanks ++ tok).length) rest s ∧
      Holds s.s_line (p + blanks.length) (tok ++ [0]) := by
  obtain ⟨y, hhead, hspace, hquote⟩ := htok.head
  obtain ⟨tail, htail⟩ := List.head?_eq_some_iff.mp hhead
  rw [List.length_append] at hn
  have hskip : (AtLine.mk s_line (some p)).skipWhiteSpace = ⟨s_line, some (p + blanks.length)⟩ := by
    rw [htail, List.append_assoc] at h
    exact skipWhiteSpace_eq h hblanks hspace (by omega)
  have hat := (holds_append.mp (List.append_assoc blanks tok _ ▸ h)).2
  have hfirst : s_line (p + blanks.length) = y := by
    rw [htail] at hat
    exact hat.getElem (Nat.zero_lt_succ _)
  have hlt : tok.length < lineSize - (p + blanks.length) := by omega
  rw [nextTok, hskip]
  simp only [hfirst, if_neg hquote]
  unfold after at hat
  split at hat
  next hrest =>
    have hcut : (AtLine.mk s_line (some (p + blanks.length))).cut (p + blanks.length) comma =
        ⟨s_line, none⟩ := by
      rw [cut, strsep_last hat htok.noNul htok.noComma (by decide) hlt]
    exact ⟨_, rfl, hcut ▸ ⟨fun _ _ ↦ rfl, fun hne ↦ absurd hrest hne⟩, hcut ▸ hat⟩
  next hrest =>
    have hcut : (AtLine.mk s_line (some (p + blanks.length))).cut (p + blanks.length) comma =
        ⟨poke s_line (p + blanks.length + tok.length) [0],
          some (p + blanks.length + tok.length + 1)⟩ := by
      rw [cut, strsep_delim hat htok.noNul htok.noComma hlt]
    refine ⟨_, rfl, hcut ▸ ⟨fun a ha ↦ poke_of_outside (.inl ?_), fun _ ↦ ?_⟩, ?_⟩
    · show a < p + blanks.length + tok.length
      omega
    · rw [List.length_append, ← Nat.add_assoc]
      exact ⟨rfl, holds_behind hat⟩
    · rw [hcut]
      exact holds_cut hat

theorem nextTok_quoted {chars : List UInt8} (hnul : 0 ∉ chars) (hquote : quote ∉ chars)
    (h : Holds s_line p (blanks ++ quote :: (chars ++ [quote]) ++ after rest))
    (hblanks : ∀ b ∈ blanks, b = 32)
    (hn : p + (blanks ++ quote :: (chars ++ [quote])).length < lineSize) :
    ∃ s : AtLine, (AtLine.mk s_line (some p)).nextTok = (some (p + blanks.length + 1), s) ∧
      Behind s_line p (p + (blanks ++ quote :: (chars ++ [quote])).length) rest s ∧
      Holds s.s_line (p + blanks.length + 1) (chars ++ [0]) := by
  have hlen : (blanks ++ quote :: (chars ++ [quote])).length = blanks.length + chars.length + 2 := by
    simp only [List.length_append, List.length_cons, List.length_nil]
    omega
  rw [hlen] at hn ⊢
  have hassoc : blanks ++ quote :: (chars ++ [quote]) ++ after rest =
      blanks ++ ([quote] ++ (chars ++ quote :: after rest)) := by simp
  rw [hassoc] at h
  have hskip : (AtLine.mk s_line (some p)).skipWhiteSpace = ⟨s_line, some (p + blanks.length)⟩ :=
    skipWhiteSpace_eq h hblanks (by decide) (by omega)
  have hopen := (holds_append.mp h).2
  have hfirst : s_line (p + blanks.length) = quote := hopen.getElem (Nat.zero_lt_succ _)
  have hat : Holds s_line (p + blanks.length + 1) (chars ++ quote :: after rest) :=
    (holds_append.mp hopen).2
  -- the closing quote is overwritten
  have hcut : (AtLine.mk s_line (some (p + blanks.length))).cut (p + blanks.length + 1) quote =
      ⟨poke s_line (p + blanks.length + 1 + chars.length) [0],
        some (p + blanks.length + 1 + chars.length + 1)⟩ := by
    rw [cut, strsep_delim hat hnul hquote (by omega)]
  have hbehind := holds_behind hat
  rw [nextTok, hskip]
  simp only [hfirst, if_true, hcut]
  refine ⟨_, rfl, ⟨fun a ha ↦ poke_of_outside (.inl ?_), fun hrest ↦ ?_⟩, holds_cut hat⟩
  · show a < p + blanks.length + 1 + chars.length
    omega
  · rw [after, if_neg hrest] at hbehind
    have hq : p + blanks.length + 1 + chars.length + 1 = p + (blanks.length + chars.length + 2) := by
      omega
    rw [hq] at hbehind ⊢
    rw [skipNextComma_eq hbehind hn]
    exact ⟨rfl, (holds_cons.mp hbehind).2⟩

/-- A number is read up to the comma. -/
theorem nextintBase_plain (w : LongWidth) (base : ℕ) (uns : Bool) (htok : Plain tok)
    (h : Holds s_line p (blanks ++ tok ++ after rest)) (hblanks : ∀ b ∈ blanks, b = 32)
    (hn : p + (blanks ++ tok).length < lineSize) :
    let l := if uns then strtoul w base tok else strtol w base tok
    ∃ s : AtLine, nextintBase w base uns ⟨s_line, some p⟩ =
        (l.isSome, some (int32 (l.getD 0)), s) ∧
      Behind s_line p (p + (blanks ++ tok).length) rest s := by
  obtain ⟨s, htoken, hbehind, hstring⟩ := nextTok_plain htok h hblanks hn
  rw [List.length_append] at hn
  have htext : stringAt s.s_line (p + blanks.length) (lineSize - (p + blanks.length)) = tok :=
    stringAt_eq hstring htok.noNul (by omega)
  refine ⟨s, ?_, hbehind⟩
  simp only [nextintBase, htoken, htext]

end AtLine

/-! ## Numbers -/

theorem signOf_digits {digits : List UInt8} (h : ∀ b ∈ digits, digitValue b < 36) :
    signOf digits = (false, digits) := by
  unfold signOf
  split
  next text => exact absurd rfl (digitValue_lt (h 45 List.mem_cons_self)).2.2.2.1
  next text => exact absurd rfl (digitValue_lt (h 43 List.mem_cons_self)).2.2.2.2.1
  next => rfl

theorem dropOx_digits {base : ℕ} {digits : List UInt8} (hbase : base ≤ 16)
    (h : ∀ b ∈ digits, digitValue b < base) : dropOx base digits = digits := by
  unfold dropOx
  split
  next x b text =>
    -- `x` is no digit
    have hx : digitValue x < base := h x (by simp)
    apply if_neg
    rintro ⟨-, rfl | rfl, -⟩
    · exact absurd (Nat.lt_of_lt_of_le hx hbase) (by decide)
    · exact absurd (Nat.lt_of_lt_of_le hx hbase) (by decide)
  next => rfl

theorem head_digits {digits : List UInt8} (h : ∀ b ∈ digits, digitValue b < 36) :
    digits.head?.any isspace = false := by
  cases digits with
  | nil => rfl
  | cons b digits => exact (digitValue_lt (h b List.mem_cons_self)).2.2.2.2.2

namespace DecText

variable (t : DecText)

theorem digits_lt : ∀ b ∈ t.digits, digitValue b < 36 := fun b hb ↦
  Nat.lt_of_lt_of_le (t.isDigit b hb) (by decide)

theorem plain : Plain (AtField.dec t).text := by
  have hdigits := plain_digits t.ne t.digits_lt
  cases hneg : t.neg with
  | false => simpa [AtField.text, hneg] using hdigits
  | true => simpa [AtField.text, hneg] using plain_dash.cons hdigits

theorem strtol_text (w : LongWidth) : strtol w 10 (AtField.dec t).text = some t.value := by
  apply strtol_int
  · cases hneg : t.neg with
    | false =>
      simp only [AtField.text, hneg, Bool.false_eq_true, if_false, List.nil_append]
      exact signedNumeral_digits (head_digits t.digits_lt) (signOf_digits t.digits_lt)
        (dropOx_digits (by decide) t.isDigit) t.isDigit t.ne
    | true =>
      simp only [AtField.text, hneg, if_true, List.singleton_append]
      exact signedNumeral_digits rfl rfl (dropOx_digits (by decide) t.isDigit)
        t.isDigit t.ne
  · exact t.low
  · exact t.high

end DecText

namespace HexText

variable (t : HexText)

theorem digits_lt : ∀ b ∈ t.digits, digitValue b < 36 := fun b hb ↦
  Nat.lt_of_lt_of_le (t.isDigit b hb) (by decide)

theorem plain : Plain (AtField.hex t).text := by
  have hdigits := plain_digits t.ne t.digits_lt
  cases hox : t.ox with
  | false => simpa [AtField.text, hox] using hdigits
  | true =>
    have hzero : Plain [48] := ⟨by decide, by decide, 48, rfl, by decide⟩
    have hx : Plain [120] := ⟨by decide, by decide, 120, rfl, by decide⟩
    simpa [AtField.text, hox] using hzero.cons (hx.cons hdigits)

theorem strtoul_text (w : LongWidth) :
    strtoul w 16 (AtField.hex t).text = some (numeral 16 t.digits : ℤ) := by
  apply strtoul_unsigned
  · cases hox : t.ox with
    | false =>
      simp only [AtField.text, hox, Bool.false_eq_true, if_false, List.nil_append]
      exact signedNumeral_digits (head_digits t.digits_lt) (signOf_digits t.digits_lt)
        (dropOx_digits (Nat.le_refl _) t.isDigit) t.isDigit t.ne
    | true =>
      obtain ⟨b, digits, hdigits⟩ := List.exists_cons_of_ne_nil t.ne
      have hb : digitValue b < 16 := t.isDigit b (hdigits ▸ List.mem_cons_self)
      simp only [AtField.text, hox, if_true]
      have hdrop : dropOx 16 ([48, 120] ++ t.digits) = t.digits := by
        rw [hdigits]
        exact if_pos ⟨rfl, .inl rfl, hb⟩
      exact signedNumeral_digits rfl rfl hdrop t.isDigit t.ne
  · exact t.fits

end HexText

/-- As an `unsigned int` it is the number again. -/
theorem u32_int32 {n : ℕ} (h : n < 2 ^ 32) : u32 (int32 n) = n := by
  obtain ⟨-, -, k, hk⟩ := int32_spec n
  unfold u32
  omega

/-! ## One conversion -/

namespace AtScan

variable {w : LongWidth} {s : AtScan} {p : ℕ} {e : AtEntry} {rest : List UInt8}

theorem store_self {i : ℕ} {v : AtValue} : s.store i (some v) i = some v := if_pos rfl

theorem store_of_ne {i j : ℕ} {v : Option AtValue} (h : j ≠ i) : s.store i v j = s.out j := if_neg h

theorem field_int {k : AtConv} {line line' : AtLine} {base : ℕ} {uns ok : Bool} {v : Option ℤ}
    (hk : k = .d ∧ base = 10 ∧ uns = false ∨ k = .x ∧ base = 16 ∧ uns = true)
    (h : line.nextintBase w base uns = (ok, v, line')) :
    field w k.char line = (ok, v.map .int, line') := by
  rcases hk with ⟨rfl, rfl, rfl⟩ | ⟨rfl, rfl, rfl⟩
  · have hrun : line.nextint w = (ok, v, line') := h
    simp only [field, AtConv.char, hrun, if_true]
  · have hrun : line.nexthexint w = (ok, v, line') := h
    simp only [field, AtConv.char, hrun, if_true]
    rfl

theorem field_str {line line' : AtLine} {tok : Option ℕ} {q : ℕ} (hcur : line.cur = some q)
    (h : line.nextTok = (tok, line')) :
    field w AtConv.s.char line = (true, some (.str tok), line') := by
  have hrun : line.nextstr = (true, some tok, line') := by
    simp only [AtLine.nextstr, hcur, h]
  simp only [field, AtConv.char, hrun]
  rfl

/-- A conversion that does not find `-,` at the cursor, nor the end of the line. -/
theorem convert_eq {k : UInt8} {ok : Bool} {v : Option AtValue} {line : AtLine}
    (hcur : s.line.cur = some p) (hnul : s.line.s_line p ≠ 0)
    (hdash : ¬ (s.line.s_line p = 45 ∧ s.line.s_line (p + 1) = comma))
    (h : field w k ⟨s.line.s_line, some p⟩ = (ok, v, line)) :
    s.convert w k =
      (ok, ⟨line, if ok then s.n + 1 else s.n, s.args + 1, s.store s.args v⟩) := by
  rw [← hcur] at h
  simp only [convert, hcur, if_neg hnul, if_neg hdash, h]
  rfl

/-- What one conversion does to a scan whose cursor was at `p`. -/
structure Took (s s' : AtScan) (p : ℕ) (e : AtEntry) (rest : List UInt8) : Prop where
  n : s'.n = s.n + 1
  args : s'.args = s.args + 1
  others : ∀ i, i ≠ s.args → s'.out i = s.out i
  stored : ∀ m : ℕ → UInt8, (∀ a < p + e.text.length + 1, m a = s'.line.s_line a) →
    e.field.Stored m (s'.out s.args) e.conv
  behind : AtLine.Behind s.line.s_line p (p + e.text.length) rest s'.line

theorem Took.mk' {v : AtValue} {line : AtLine}
    (hbehind : AtLine.Behind s.line.s_line p (p + e.text.length) rest line)
    (hstored : ∀ m : ℕ → UInt8, (∀ a < p + e.text.length + 1, m a = line.s_line a) →
      e.field.Stored m (some v) e.conv) :
    Took s ⟨line, s.n + 1, s.args + 1, s.store s.args (some v)⟩ p e rest where
  n := rfl
  args := rfl
  others _ hi := store_of_ne hi
  stored m hm := by
    show e.field.Stored m (s.store s.args (some v) s.args) e.conv
    rw [store_self]
    exact hstored m hm
  behind := hbehind

end AtScan

namespace AtEntry

variable {w : LongWidth} {s : AtScan} {p : ℕ} {e : AtEntry} {rest : List UInt8}

/-- The blank before a field. -/
def blanks (e : AtEntry) : List UInt8 := if e.blank then [32] else []

theorem text_eq : e.text = e.blanks ++ e.field.text := rfl

theorem blanks_eq : ∀ b ∈ e.blanks, b = 32 := by
  intro b hb
  unfold blanks at hb
  split at hb
  · exact List.mem_singleton.mp hb
  · exact absurd hb List.not_mem_nil

/-- The field that `-,` at the cursor belongs to. -/
def Skipped (e : AtEntry) (rest : List UInt8) : Prop :=
  e.field = .placeholder ∧ e.blank = false ∧ rest ≠ []

/-- A text that `-,` does not start. -/
def Starts (l : List UInt8) : Prop :=
  ∃ a l', l = a :: l' ∧ a ≠ 0 ∧ (a = 45 → ∃ b l'', l' = b :: l'' ∧ b ≠ comma)

theorem starts_digits {digits : List UInt8} (hne : digits ≠ [])
    (h : ∀ b ∈ digits, digitValue b < 36) (ys : List UInt8) : Starts (digits ++ ys) := by
  obtain ⟨b, digits, rfl⟩ := List.exists_cons_of_ne_nil hne
  have hb := digitValue_lt (h b List.mem_cons_self)
  exact ⟨b, _, rfl, hb.1, fun heq ↦ absurd heq hb.2.2.2.1⟩

/-- Only a field that is skipped starts with `-,`. -/
theorem starts_of_not_skipped (hskip : ¬ e.Skipped rest) : Starts (e.text ++ AtLine.after rest) := by
  unfold text
  cases hblank : e.blank with
  | true => exact ⟨32, _, rfl, by decide, fun h ↦ absurd h (by decide)⟩
  | false =>
    simp only [Bool.false_eq_true, if_false, List.nil_append]
    cases hfield : e.field with
    | dec t =>
      cases hneg : t.neg with
      | false =>
        simp only [AtField.text, hneg, Bool.false_eq_true, if_false, List.nil_append]
        exact starts_digits t.ne t.digits_lt _
      | true =>
        obtain ⟨b, digits, hdigits⟩ := List.exists_cons_of_ne_nil t.ne
        have hb := digitValue_lt (t.digits_lt b (hdigits ▸ List.mem_cons_self))
        refine ⟨45, t.digits ++ AtLine.after rest, ?_, by decide, fun _ ↦ ?_⟩
        · simp only [AtField.text, hneg, if_true, List.nil_append, List.cons_append]
        · exact ⟨b, digits ++ AtLine.after rest, by rw [hdigits, List.cons_append], hb.2.1⟩
    | hex t =>
      cases hox : t.ox with
      | false =>
        simp only [AtField.text, hox, Bool.false_eq_true, if_false, List.nil_append]
        exact starts_digits t.ne t.digits_lt _
      | true =>
        refine ⟨48, 120 :: (t.digits ++ AtLine.after rest), ?_, by decide,
          fun h ↦ absurd h (by decide)⟩
        simp only [AtField.text, hox, if_true, List.cons_append, List.nil_append]
    | str t => exact ⟨quote, _, rfl, by decide, fun h ↦ absurd h (by decide)⟩
    | placeholder =>
      have hrest : rest = [] := by
        by_contra hne
        exact hskip ⟨hfield, hblank, hne⟩
      refine ⟨45, _, rfl, by decide, fun _ ↦ ?_⟩
      rw [hrest]
      exact ⟨0, [], rfl, by decide⟩

theorem Starts.convert {l : List UInt8} (h : Holds s.line.s_line p l) (hl : Starts l) :
    s.line.s_line p ≠ 0 ∧ ¬ (s.line.s_line p = 45 ∧ s.line.s_line (p + 1) = comma) := by
  obtain ⟨a, l, rfl, hne, hdash⟩ := hl
  have hfirst : s.line.s_line p = a := h.getElem (k := 0) (Nat.zero_lt_succ _)
  rw [hfirst]
  refine ⟨hne, ?_⟩
  rintro ⟨heq, hcomma⟩
  obtain ⟨b, l, rfl, hb⟩ := hdash heq
  have hsecond : s.line.s_line (p + 1) = b :=
    h.getElem (k := 1) (Nat.succ_lt_succ (Nat.zero_lt_succ _))
  exact hb (hsecond ▸ hcomma)

variable (hcur : s.line.cur = some p) (h : Holds s.line.s_line p (e.text ++ AtLine.after rest))
  (hn : p + e.text.length < lineSize)

include hcur h in
/-- A placeholder that is skipped. -/
theorem convert_skipped (hskip : e.Skipped rest) :
    ∃ s', s.convert w e.conv.char = (true, s') ∧ s.Took s' p e rest := by
  obtain ⟨hfield, hblank, hrest⟩ := hskip
  have htext : e.text = [45] := by simp [text, hblank, hfield, AtField.text]
  rw [htext, AtLine.after, if_neg hrest] at h
  have hfirst : s.line.s_line p = 45 := h.getElem (k := 0) (Nat.zero_lt_succ _)
  have hsecond : s.line.s_line (p + 1) = comma :=
    h.getElem (k := 1) (Nat.succ_lt_succ (Nat.zero_lt_succ _))
  have hbehind : Holds s.line.s_line (p + 1 + 1) rest :=
    (holds_cons.mp (holds_cons.mp h).2).2
  have hrun : s.convert w e.conv.char = (true, ⟨⟨s.line.s_line, some (p + 2)⟩, s.n + 1, s.args + 1,
      s.store s.args (if e.conv.char = 100 then some (.int (-1)) else none)⟩) := by
    simp only [AtScan.convert, hcur, hfirst, hsecond, and_self, if_true]
    rfl
  refine ⟨_, hrun, rfl, rfl, fun i hi ↦ AtScan.store_of_ne hi, ?_, fun _ _ ↦ rfl, fun _ ↦ ?_⟩
  · intro m _
    rw [hfield]
    intro hconv
    rw [hconv]
    exact AtScan.store_self
  · rw [htext]
    exact ⟨rfl, hbehind⟩

include hcur h hn in
/-- The field is taken by its conversion, unless it is a placeholder that `strtol` gets. -/
theorem convert_took (hpass : e.field = .placeholder → e.conv ≠ .s → e.blank = false ∧ rest ≠ []) :
    ∃ s', s.convert w e.conv.char = (true, s') ∧ s.Took s' p e rest := by
  by_cases hskip : e.Skipped rest
  · exact convert_skipped hcur h hskip
  obtain ⟨hnul, hdash⟩ := Starts.convert h (starts_of_not_skipped hskip)
  rw [text_eq] at h hn
  have hfits := e.fits
  cases hfield : e.field with
  | dec t =>
    rw [hfield] at h hn hfits
    obtain ⟨line, hrun, hbehind⟩ :=
      AtLine.nextintBase_plain w 10 false t.plain h e.blanks_eq hn
    have hvalue : int32 t.value = t.value := int32_of_range t.low t.high
    simp only [Bool.false_eq_true, if_false, t.strtol_text, Option.isSome_some, Option.getD_some,
      hvalue] at hrun
    have hstep := AtScan.field_int (.inl ⟨hfits, rfl, rfl⟩) hrun
    refine ⟨_, AtScan.convert_eq hcur hnul hdash hstep, AtScan.Took.mk' ?_ ?_⟩
    · rwa [text_eq, hfield]
    · intro m _
      rw [hfield]
      rfl
  | hex t =>
    rw [hfield] at h hn hfits
    obtain ⟨line, hrun, hbehind⟩ :=
      AtLine.nextintBase_plain w 16 true t.plain h e.blanks_eq hn
    simp only [if_true, t.strtoul_text, Option.isSome_some, Option.getD_some] at hrun
    have hstep := AtScan.field_int (.inr ⟨hfits, rfl, rfl⟩) hrun
    refine ⟨_, AtScan.convert_eq hcur hnul hdash hstep, AtScan.Took.mk' ?_ ?_⟩
    · rwa [text_eq, hfield]
    · intro m _
      rw [hfield]
      exact ⟨_, rfl, u32_int32 t.fits⟩
  | str t =>
    rw [hfield] at h hn hfits
    obtain ⟨line, hrun, hbehind, hstring⟩ :=
      AtLine.nextTok_quoted t.noNul t.noQuote h e.blanks_eq hn
    rw [show e.conv = .s from hfits]
    have hstep := AtScan.field_str (w := w) rfl hrun
    refine ⟨_, AtScan.convert_eq hcur hnul hdash hstep, AtScan.Took.mk' ?_ ?_⟩
    · rwa [text_eq, hfield]
    · intro m hm
      rw [hfield]
      refine ⟨_, rfl, ?_⟩
      have hlen : e.text.length = e.blanks.length + (t.chars.length + 2) := by
        simp [text_eq, hfield, AtField.text]
      refine (peek_congr fun a _ ha ↦ hm a ?_).trans hstring
      rw [List.length_append, List.length_singleton] at ha
      omega
  | placeholder =>
    have hconv : e.conv = .s := by
      by_contra hne
      obtain ⟨hblank, hrest⟩ := hpass hfield hne
      exact hskip ⟨hfield, hblank, hrest⟩
    rw [hfield] at h hn
    obtain ⟨line, hrun, hbehind, -⟩ := AtLine.nextTok_plain plain_dash h e.blanks_eq hn
    rw [hconv]
    have hstep := AtScan.field_str (w := w) rfl hrun
    refine ⟨_, AtScan.convert_eq hcur hnul hdash hstep, AtScan.Took.mk' ?_ ?_⟩
    · rwa [text_eq, hfield]
    · intro m _
      rw [hfield, hconv]
      exact fun h ↦ absurd h (by decide)

include hcur h hn in
/-- `strtol` does not convert a placeholder. -/
theorem convert_lost (hfield : e.field = .placeholder) (hconv : e.conv ≠ .s)
    (hskip : ¬ e.Skipped rest) :
    ∃ s', s.convert w e.conv.char = (false, s') ∧ s'.n = s.n := by
  obtain ⟨hnul, hdash⟩ := Starts.convert h (starts_of_not_skipped hskip)
  rw [text_eq, hfield] at h hn
  cases hk : e.conv with
  | d =>
    obtain ⟨line, hrun, -⟩ := AtLine.nextintBase_plain w 10 false plain_dash h e.blanks_eq hn
    have hstep := AtScan.field_int (.inl ⟨rfl, rfl, rfl⟩) hrun
    exact ⟨_, AtScan.convert_eq hcur hnul hdash hstep, rfl⟩
  | x =>
    obtain ⟨line, hrun, -⟩ := AtLine.nextintBase_plain w 16 true plain_dash h e.blanks_eq hn
    have hstep := AtScan.field_int (.inr ⟨rfl, rfl, rfl⟩) hrun
    exact ⟨_, AtScan.convert_eq hcur hnul hdash hstep, rfl⟩
  | s => exact absurd hk hconv

end AtEntry

/-! ## The loop over the format -/

namespace AtEntry

variable {w : LongWidth} {es : List AtEntry}

/-- The text of fields and the end of the line. -/
def fields : List AtEntry → List UInt8
  | [] => []
  | e :: es => e.text ++ AtLine.after (fields es)

theorem length_after (rest : List UInt8) : (AtLine.after rest).length = rest.length + 1 := by
  unfold AtLine.after
  split
  next h => rw [h, List.length_singleton, List.length_nil]
  next => rw [List.length_cons]

theorem fields_ne_nil : fields es ≠ [] ↔ es ≠ [] := by
  cases es with
  | nil => exact iff_of_false (fun h ↦ h rfl) (fun h ↦ h rfl)
  | cons e es =>
    have hpos : 0 < (fields (e :: es)).length := by
      rw [fields, List.length_append, length_after]
      exact Nat.succ_pos _
    exact iff_of_true (List.ne_nil_of_length_pos hpos) (List.cons_ne_nil e es)

theorem fields_eq (h : es ≠ []) : fields es = [comma].intercalate (es.map text) ++ [0] := by
  induction es with
  | nil => exact absurd rfl h
  | cons e es ih =>
    cases es with
    | nil => simp [fields, AtLine.after, List.intercalate]
    | cons e' es =>
      have hne : fields (e' :: es) ≠ [] := fields_ne_nil.mpr (List.cons_ne_nil e' es)
      rw [fields, AtLine.after, if_neg hne, ih (List.cons_ne_nil e' es)]
      simp [List.intercalate]

variable {s : AtScan}

theorem scan_seps (seps : List Bool) (fmt : List UInt8) :
    AtScan.scan w s (sepChars seps ++ fmt) = AtScan.scan w s fmt := by
  induction seps with
  | nil => rfl
  | cons blank seps ih =>
    rw [sepChars, List.map_cons, List.cons_append, AtScan.scan.eq_def]
    cases blank with
    | false => exact ih
    | true => exact ih

theorem scan_format (e : AtEntry) (fmt : List UInt8) {ok : Bool} {s' : AtScan}
    (h : s.convert w e.conv.char = (ok, s')) :
    AtScan.scan w s (e.format ++ fmt) = if ok then AtScan.scan w s' fmt else s' := by
  rw [format, List.append_assoc, scan_seps]
  rw [List.cons_append, List.cons_append, List.nil_append, AtScan.scan.eq_def]
  simp only [h]
  cases ok with
  | false => rfl
  | true => rfl

/-- What the rest of a scan has done whose cursor was at `p`. -/
structure Ran (s s' : AtScan) (p : ℕ) (es : List AtEntry) : Prop where
  n : s'.n = s.n + es.length
  stored : ∀ i (h : i < es.length),
    es[i].field.Stored s'.line.s_line (s'.out (s.args + i)) es[i].conv
  others : ∀ i, i < s.args ∨ s.args + es.length ≤ i → s'.out i = s.out i
  front : ∀ a < p, s'.line.s_line a = s.line.s_line a

/-- The scan has the fields before it, if there are any. -/
def At (s : AtScan) (p : ℕ) (es : List AtEntry) : Prop :=
  fields es ≠ [] → s.line.cur = some p ∧ Holds s.line.s_line p (fields es)

variable {p : ℕ} {e : AtEntry} {seps : List Bool}

theorem passed_iff : e.Passed es ↔
    (e.field = .placeholder → e.conv ≠ .s → e.blank = false ∧ fields es ≠ []) := by
  unfold Passed
  split
  next h => simp only [h, fields_ne_nil, forall_const]
  next h => exact iff_of_true trivial fun h' ↦ absurd h' h

/-- Every field is taken in turn. -/
theorem scan_passed (hat : At s p es) (hn : p + (fields es).length ≤ lineSize)
    (hpass : AllPassed es) :
    Ran s (AtScan.scan w s (es.flatMap format ++ sepChars seps)) p es := by
  induction es generalizing s p with
  | nil =>
    have hrun : AtScan.scan w s (sepChars seps) = s := by
      have h := scan_seps (w := w) (s := s) seps []
      rwa [List.append_nil] at h
    rw [List.flatMap_nil, List.nil_append, hrun]
    exact ⟨rfl, fun i hi ↦ absurd hi (Nat.not_lt_zero i), fun _ _ ↦ rfl, fun _ _ ↦ rfl⟩
  | cons e es ih =>
    obtain ⟨hcur, hholds⟩ := hat (fields_ne_nil.mpr (List.cons_ne_nil e es))
    rw [fields, List.length_append, length_after] at hn
    obtain ⟨s₁, hstep, htook⟩ :=
      convert_took (w := w) hcur hholds (by omega) (passed_iff.mp hpass.1)
    rw [List.flatMap_cons, List.append_assoc, scan_format e _ hstep, if_pos rfl]
    have hrest := ih (s := s₁) htook.behind.rest (by omega) hpass.2
    refine ⟨?_, ?_, ?_, ?_⟩
    · rw [hrest.n, htook.n, List.length_cons]
      omega
    · intro i hi
      cases i with
      | zero =>
        have hkept := hrest.others s.args (.inl (htook.args ▸ Nat.lt_succ_self _))
        rw [Nat.add_zero, hkept]
        exact htook.stored _ hrest.front
      | succ i =>
        have hstored := hrest.stored i (Nat.lt_of_succ_lt_succ hi)
        rwa [htook.args, Nat.add_assoc, Nat.add_comm 1 i] at hstored
    · intro i hi
      rw [List.length_cons] at hi
      rw [hrest.others i (by rw [htook.args]; omega), htook.others i (by omega)]
    · intro a ha
      rw [hrest.front a (by omega), htook.behind.front a ha]

/-- The fields behind a placeholder that is lost are lost too. -/
theorem scan_lost (hat : At s p es) (hn : p + (fields es).length ≤ lineSize)
    (hpass : ¬ AllPassed es) :
    (AtScan.scan w s (es.flatMap format ++ sepChars seps)).n < s.n + es.length := by
  induction es generalizing s p with
  | nil => exact absurd trivial hpass
  | cons e es ih =>
    obtain ⟨hcur, hholds⟩ := hat (fields_ne_nil.mpr (List.cons_ne_nil e es))
    rw [fields, List.length_append, length_after] at hn
    rw [List.flatMap_cons, List.append_assoc, List.length_cons]
    by_cases hhead : e.Passed es
    · obtain ⟨s₁, hstep, htook⟩ :=
        convert_took (w := w) hcur hholds (by omega) (passed_iff.mp hhead)
      have hrest := ih (s := s₁) htook.behind.rest (by omega) fun h ↦ hpass ⟨hhead, h⟩
      rw [htook.n] at hrest
      rw [scan_format e _ hstep, if_pos rfl]
      omega
    · rw [passed_iff] at hhead
      obtain ⟨hfield, hrest⟩ := Classical.not_imp.mp hhead
      obtain ⟨hconv, hplace⟩ := Classical.not_imp.mp hrest
      obtain ⟨s₁, hstep, hcount⟩ := convert_lost (w := w) hcur hholds (by omega) hfield hconv
        fun hskip ↦ hplace hskip.2
      rw [scan_format e _ hstep, if_neg Bool.false_ne_true, hcount]
      omega

end AtEntry

/-! ## The response -/

namespace AtResponse

variable {r : AtResponse}

/-- The buffer holds the line, and its end. -/
theorem holds_copyLine (b : LineBuffer) {line : List UInt8} (h : line.length < lineSize) :
    Holds (copyLine b.bytes line) 0 (line ++ [0]) := by
  have htake : line.take (lineSize - 1) = line := List.take_of_length_le (Nat.le_pred_of_lt h)
  rw [copyLine, htake]
  have hcopy : Holds (poke b.bytes 0 (line ++ List.replicate (lineSize - 1 - line.length) 0)) 0
      (line ++ List.replicate (lineSize - 1 - line.length) 0) := holds_poke
  rw [holds_append] at hcopy
  refine holds_append.mpr ⟨hcopy.1, ?_⟩
  cases hpad : lineSize - 1 - line.length with
  | zero =>
    -- the line is as long as can be, and the last byte of the buffer ends it
    have hlen : line.length = lineSize - 1 := by omega
    have hlast : poke b.bytes 0 (line ++ List.replicate 0 0) (0 + line.length) = 0 := by
      rw [poke_of_outside (.inr (by simp)), Nat.zero_add, hlen]
      exact b.last
    exact congrArg (· :: []) hlast
  | succ k =>
    have hzeros := hcopy.2
    rw [hpad, List.replicate_succ] at hzeros
    exact holds_cons.mpr ⟨(holds_cons.mp hzeros).1, rfl⟩

/-- The cursor starts behind the colon. -/
theorem atTokStart_line (b : LineBuffer) (h : r.line.length < lineSize) :
    ∃ s_line : ℕ → UInt8, atTokStart ⟨copyLine b.bytes r.line, some 0⟩ 0 =
        (true, ⟨s_line, some (r.pre.length + 1)⟩) ∧
      (r.entries ≠ [] → Holds s_line (r.pre.length + 1) (AtEntry.fields r.entries)) := by
  have hholds := holds_copyLine b h
  have hlen : r.pre.length < lineSize := by
    rw [line, List.length_append] at h
    exact Nat.lt_of_le_of_lt (Nat.le_add_right _ _) h
  have hskip : (AtLine.mk (copyLine b.bytes r.line) (some 0)).skip (fun c ↦ c ≠ colon) 0 =
      0 + r.pre.length := by
    rw [line, List.append_assoc] at hholds
    refine AtLine.skip_eq hholds (fun c hc ↦ ⟨?_, ?_⟩) (.inr (by decide)) (by omega)
    · exact ne_of_mem_of_not_mem hc r.noNul
    · exact decide_eq_true (ne_of_mem_of_not_mem hc r.noColon)
  rw [Nat.zero_add] at hskip
  have hbehind := (holds_append.mp (List.append_assoc .. ▸ hholds)).2
  rw [Nat.zero_add] at hbehind
  have hcolon : copyLine b.bytes r.line r.pre.length = colon :=
    hbehind.getElem (k := 0) (Nat.zero_lt_succ _)
  refine ⟨copyLine b.bytes r.line, ?_, fun hne ↦ ?_⟩
  · simp only [atTokStart, hskip, hcolon, if_true]
  · have hfields := (holds_cons.mp hbehind).2
    rw [if_neg (fun h ↦ hne h.1), List.nil_append] at hfields
    rw [AtEntry.fields_eq hne]
    exact hfields

theorem length_fields (h : r.line.length < lineSize) :
    r.pre.length + 1 + (AtEntry.fields r.entries).length ≤ lineSize := by
  rw [line, List.length_append, List.length_cons, List.length_append] at h
  cases hentries : r.entries with
  | nil =>
    rw [AtEntry.fields, List.length_nil]
    omega
  | cons e es =>
    rw [AtEntry.fields_eq (List.cons_ne_nil e es), List.length_append, List.length_singleton]
    rw [hentries] at h
    omega

/-- `at_tok_scanf` is the loop over the format, at the first field. -/
theorem atTokScanf_eq (w : LongWidth) (b : LineBuffer) (h : r.line.length < lineSize) :
    ∃ s : AtScan, AtEntry.At s (r.pre.length + 1) r.entries ∧ s.n = 0 ∧ s.args = 0 ∧
      (∀ i, s.out i = none) ∧
      atTokScanf w b.bytes (some r.line) r.format = AtScan.scan w s r.format := by
  obtain ⟨s_line, hstart, hholds⟩ := atTokStart_line b h
  refine ⟨⟨⟨s_line, some (r.pre.length + 1)⟩, 0, 0, fun _ ↦ none⟩, fun hne ↦ ?_, rfl, rfl,
    fun _ ↦ rfl, ?_⟩
  · exact ⟨rfl, hholds (AtEntry.fields_ne_nil.mp hne)⟩
  · simp only [atTokScanf, hstart]

theorem recovered_of_passed (w : LongWidth) (b : LineBuffer) (h : r.line.length < lineSize)
    (hpass : AtEntry.AllPassed r.entries) :
    r.Recovered (atTokScanf w b.bytes (some r.line) r.format) := by
  obtain ⟨s, hat, hn, hargs, hout, hrun⟩ := atTokScanf_eq w b h
  have hran : AtEntry.Ran s (AtScan.scan w s r.format) _ _ :=
    AtEntry.scan_passed hat (length_fields h) hpass
  rw [hrun]
  refine ⟨?_, fun i hi ↦ ?_, fun i hi ↦ ?_⟩
  · rw [hran.n, hn, Nat.zero_add]
  · have hstored := hran.stored i hi
    rwa [hargs, Nat.zero_add] at hstored
  · rw [hran.others i (.inr (by rwa [hargs, Nat.zero_add])), hout]

theorem not_recovered_of_lost (w : LongWidth) (b : LineBuffer) (h : r.line.length < lineSize)
    (hpass : ¬ AtEntry.AllPassed r.entries) :
    ¬ r.Recovered (atTokScanf w b.bytes (some r.line) r.format) := by
  obtain ⟨s, hat, hn, -, -, hrun⟩ := atTokScanf_eq w b h
  have hlost : (AtScan.scan w s r.format).n < s.n + r.entries.length :=
    AtEntry.scan_lost hat (length_fields h) hpass
  rintro ⟨hcount, -, -⟩
  rw [hrun] at hcount
  omega

/-- Every field is recovered, whatever the buffer held, if and only if each placeholder that is read
with `%d` or `%x` is followed by a comma and has no blank before it. -/
theorem atTokScanf_recovered_iff (w : LongWidth) (b : LineBuffer) (h : r.line.length < lineSize) :
    r.Recovered (atTokScanf w b.bytes (some r.line) r.format) ↔ AtEntry.AllPassed r.entries := by
  constructor
  · intro hrec
    by_contra hpass
    exact not_recovered_of_lost w b h hpass hrec
  · exact recovered_of_passed w b h

/-- `+C: 1,-`, for `%d,%d`. -/
def lastDash : AtResponse where
  pre := [43, 67]
  noNul := by decide
  noColon := by decide
  entries :=
    [⟨true, .dec ⟨false, [49], by decide, List.forall_mem_singleton.mpr (by decide), by decide,
        by decide⟩, [], .d, rfl⟩,
      ⟨false, .placeholder, [false], .d, trivial⟩]
  blank := false
  seps := []

/-- `+C: -,1`, for `%d%d`; the placeholder stands behind a blank or not. -/
def firstDash (blank : Bool) : AtResponse where
  pre := [43, 67]
  noNul := by decide
  noColon := by decide
  entries :=
    [⟨blank, .placeholder, [], .d, trivial⟩,
      ⟨false, .dec ⟨false, [49], by decide, List.forall_mem_singleton.mpr (by decide), by decide,
        by decide⟩, [], .d, rfl⟩]
  blank := false
  seps := []

/-- A placeholder alone before a comma is read as `-1`. -/
theorem firstDash_recovered :
    (firstDash false).Recovered (atTokScanf ⟨64, by decide⟩ (fun _ ↦ 0)
      (some (firstDash false).line) (firstDash false).format) :=
  (atTokScanf_recovered_iff ⟨64, by decide⟩ ⟨fun _ ↦ 0, rfl⟩ (by decide)).mpr
    ⟨fun _ ↦ ⟨rfl, List.cons_ne_nil _ _⟩, trivial, trivial⟩

/-- At the end of the line, or behind a blank, it is not. -/
theorem lastDash_lost :
    ¬ ∀ (w : LongWidth) (b : LineBuffer) (r : AtResponse), r.line.length < lineSize →
      r.Recovered (atTokScanf w b.bytes (some r.line) r.format) := by
  intro hall
  refine not_recovered_of_lost ⟨64, by decide⟩ ⟨fun _ ↦ 0, rfl⟩ (r := lastDash) (by decide) ?_
    (hall _ _ lastDash (by decide))
  rintro ⟨-, hpass, -⟩
  exact (hpass (by decide)).2 rfl

end AtResponse

end Wwan.QuectelCm
