import Wwan.Lib.Text

/-!
# `at_tok_scanf`

The fields of a response are cut out of a copy in a static buffer, one for each conversion of the
format. A field `-` stands for a number that is not known. It is passed over where a comma follows
it at once and nothing precedes it; elsewhere `strtol` is asked to read it, and the rest of the
response is lost.
-/

namespace Wwan.QuectelCm

open Bytes Memory Text

/-! ## The scanner -/

/-- `sizeof(s_line)`. -/
def lineSize : ℕ := 1024

abbrev quote : UInt8 := 34
abbrev comma : UInt8 := 44
abbrev colon : UInt8 := 58

/-- `s_line`, and the cursor `line` into it, which may be `NULL`. -/
structure AtLine where
  s_line : ℕ → UInt8
  cur : Option ℕ

namespace AtLine

/-- `while (**p_cur != '\0' && c(**p_cur)) (*p_cur)++`. -/
def skip (s : AtLine) (c : UInt8 → Bool) (p : ℕ) : ℕ :=
  skipWhile s.s_line (fun b ↦ b ≠ 0 && c b) (lineSize - p) p

def skipWhiteSpace (s : AtLine) : AtLine := { s with cur := s.cur.map (s.skip isspace) }

def skipNextComma (s : AtLine) : AtLine :=
  { s with cur := s.cur.map fun p ↦
      let q := s.skip (· ≠ comma) p
      if s.s_line q = comma then q + 1 else q }

/-- `strsep(p_cur, delim)`, at a cursor that is not `NULL`. -/
def cut (s : AtLine) (p : ℕ) (delim : UInt8) : AtLine :=
  let (cur, s_line) := strsep s.s_line p delim (lineSize - p)
  ⟨s_line, cur⟩

/-- `nextTok`, with the token it returns. -/
def nextTok (s : AtLine) : Option ℕ × AtLine :=
  let s := s.skipWhiteSpace
  match s.cur with
  | none => (none, s)
  | some p =>
    if s.s_line p = quote then (some (p + 1), (s.cut (p + 1) quote).skipNextComma)
    else (some p, s.cut p comma)

/-- `at_tok_nextint_base`: whether it returns 0, and what it stores in `*p_out`. `(int)l` is the
same for a `long` and for the number it was made from. -/
def nextintBase (w : LongWidth) (base : ℕ) (uns : Bool) (s : AtLine) :
    Bool × Option ℤ × AtLine :=
  match s.cur with
  | none => (false, none, s)
  | some _ =>
    match s.nextTok with
    | (none, s) => (false, none, s)
    | (some ret, s) =>
      let text := stringAt s.s_line ret (lineSize - ret)
      let l := if uns then strtoul w base text else strtol w base text
      (l.isSome, some (int32 (l.getD 0)), s)

def nextint (w : LongWidth) : AtLine → Bool × Option ℤ × AtLine := nextintBase w 10 false

def nexthexint (w : LongWidth) : AtLine → Bool × Option ℤ × AtLine := nextintBase w 16 true

def nextbool (w : LongWidth) (s : AtLine) : Bool × Option ℤ × AtLine :=
  let (ok, result, s) := s.nextint w
  if ok ∧ (result = some 0 ∨ result = some 1) then (true, result, s) else (false, none, s)

/-- `at_tok_nextstr`: whether it returns 0, and the pointer that it stores. -/
def nextstr (s : AtLine) : Bool × Option (Option ℕ) × AtLine :=
  match s.cur with
  | none => (false, none, s)
  | some _ =>
    let (ret, s) := s.nextTok
    (true, some ret, s)

end AtLine

/-- What a conversion stores. -/
inductive AtValue
  | int (v : ℤ)
  | bool (v : ℤ)
  | /-- A pointer into `s_line`. -/
    str (p : Option ℕ)
  deriving DecidableEq

/-- The state of `at_tok_scanf`: `n`, the number of arguments taken by `va_arg`, and what their
targets got. -/
structure AtScan where
  line : AtLine
  n : ℕ
  args : ℕ
  out : ℕ → Option AtValue

namespace AtScan

/-- The `switch` on the conversion. -/
def field (w : LongWidth) (k : UInt8) (line : AtLine) : Bool × Option AtValue × AtLine :=
  if k = 100 then
    let (ok, v, line) := line.nextint w
    (ok, v.map .int, line)
  else if k = 120 then
    let (ok, v, line) := line.nexthexint w
    (ok, v.map .int, line)
  else if k = 98 then
    let (ok, v, line) := line.nextbool w
    (ok, v.map .bool, line)
  else if k = 115 then
    let (ok, v, line) := line.nextstr
    (ok, v.map .str, line)
  else (false, none, line)

/-- A store through `d`, the latest argument. -/
def store (s : AtScan) (i : ℕ) (v : Option AtValue) : ℕ → Option AtValue := fun j ↦
  if j = i then v.or (s.out j) else s.out j

/-- One conversion, and whether the loop goes on. -/
def convert (w : LongWidth) (k : UInt8) (s : AtScan) : Bool × AtScan :=
  let i := s.args
  let s := { s with args := i + 1 }
  match s.line.cur with
  | none => (false, s)
  | some p =>
    -- `at_tok_hasmore`
    if s.line.s_line p = 0 then (false, s)
    else if s.line.s_line p = 45 ∧ s.line.s_line (p + 1) = comma then
      (true, { s with
        line := { s.line with cur := some (p + 2) }
        n := s.n + 1
        out := s.store i (if k = 100 then some (.int (-1)) else none) })
    else
      let (ok, v, line) := field w k s.line
      (ok, { s with line, n := if ok then s.n + 1 else s.n, out := s.store i v })

/-- The loop over the format. -/
def scan (w : LongWidth) (s : AtScan) : List UInt8 → AtScan
  | [] => s
  | c :: fmt =>
    if c = comma ∨ c = 32 then scan w s fmt
    else if c ≠ 37 then s
    else
      match fmt with
      | [] => s
      | k :: fmt =>
        match s.convert w k with
        | (false, s) => s
        | (true, s) => scan w s fmt

end AtScan

/-- `strncpy(s_line, in_line, sizeof(s_line) - 1)`. -/
def copyLine (s_line : ℕ → UInt8) (in_line : List UInt8) : ℕ → UInt8 :=
  poke s_line 0
    (in_line.take (lineSize - 1) ++ List.replicate (lineSize - 1 - in_line.length) 0)

/-- `at_tok_start`: whether it returns 0. -/
def atTokStart (s : AtLine) (p : ℕ) : Bool × AtLine :=
  let q := s.skip (· ≠ colon) p
  if s.s_line q = colon then (true, { s with cur := some (q + 1) })
  else (false, { s with cur := none })

/-- `at_tok_scanf` up to its return, for a buffer with these contents; a line of none is `NULL`. -/
def atTokScanf (w : LongWidth) (s_line : ℕ → UInt8) (in_line : Option (List UInt8))
    (fmt : List UInt8) : AtScan :=
  match in_line with
  | none => ⟨⟨s_line, none⟩, 0, 0, fun _ ↦ none⟩
  | some in_line =>
    match atTokStart ⟨copyLine s_line in_line, some 0⟩ 0 with
    | (false, line) => ⟨line, 0, 0, fun _ ↦ none⟩
    | (true, line) => AtScan.scan w ⟨line, 0, 0, fun _ ↦ none⟩ fmt

/-! ## The buffer between two calls -/

/-- The contents of the buffer between two calls. -/
structure LineBuffer where
  bytes : ℕ → UInt8
  last : bytes (lineSize - 1) = 0

/-- Nothing but zeros was written. -/
def Zeroes (m m' : ℕ → UInt8) : Prop := ∀ a, m' a = m a ∨ m' a = 0

namespace Zeroes

variable {m m' m'' : ℕ → UInt8}

theorem refl (m : ℕ → UInt8) : Zeroes m m := fun _ ↦ .inl rfl

theorem trans (h : Zeroes m m') (h' : Zeroes m' m'') : Zeroes m m'' := by
  intro a
  rcases h' a with heq | hzero
  · rw [heq]
    exact h a
  · exact .inr hzero

theorem poke_zero (q : ℕ) : Zeroes m (poke m q [0]) := by
  intro a
  by_cases ha : a = q
  · subst ha
    exact .inr (by simp [poke])
  · refine .inl (poke_of_outside ?_)
    rw [List.length_singleton]
    omega

end Zeroes

namespace AtLine

theorem cut_zeroes (s : AtLine) (p : ℕ) (delim : UInt8) :
    Zeroes s.s_line (s.cut p delim).s_line := by
  simp only [cut, strsep]
  split
  next => exact Zeroes.poke_zero _
  next => exact Zeroes.refl _

theorem nextTok_zeroes (s : AtLine) : Zeroes s.s_line s.nextTok.2.s_line := by
  simp only [nextTok]
  split
  next => exact Zeroes.refl _
  next p _ =>
    split
    next => exact cut_zeroes s.skipWhiteSpace (p + 1) quote
    next => exact cut_zeroes s.skipWhiteSpace p comma

theorem nextintBase_zeroes (w : LongWidth) (base : ℕ) (uns : Bool) (s : AtLine) :
    Zeroes s.s_line (nextintBase w base uns s).2.2.s_line := by
  have htok := s.nextTok_zeroes
  unfold nextintBase
  split
  next => exact Zeroes.refl _
  next =>
    split
    next s' heq =>
      rw [heq] at htok
      exact htok
    next ret s' heq =>
      rw [heq] at htok
      exact htok

theorem nextbool_zeroes (w : LongWidth) (s : AtLine) :
    Zeroes s.s_line (s.nextbool w).2.2.s_line := by
  have hint := nextintBase_zeroes w 10 false s
  simp only [nextbool]
  split
  next => exact hint
  next => exact hint

theorem nextstr_zeroes (s : AtLine) : Zeroes s.s_line s.nextstr.2.2.s_line := by
  unfold nextstr
  split
  next => exact Zeroes.refl _
  next => exact s.nextTok_zeroes

end AtLine

namespace AtScan

theorem field_zeroes (w : LongWidth) (k : UInt8) (line : AtLine) :
    Zeroes line.s_line (field w k line).2.2.s_line := by
  unfold field
  split
  next => exact line.nextintBase_zeroes w 10 false
  split
  next => exact line.nextintBase_zeroes w 16 true
  split
  next => exact line.nextbool_zeroes w
  split
  next => exact line.nextstr_zeroes
  next => exact Zeroes.refl _

theorem convert_zeroes (w : LongWidth) (k : UInt8) (s : AtScan) :
    Zeroes s.line.s_line (s.convert w k).2.line.s_line := by
  cases hcur : s.line.cur with
  | none =>
    simp only [convert, hcur]
    exact Zeroes.refl _
  | some p =>
    by_cases hnul : s.line.s_line p = 0
    · simp only [convert, hcur, hnul, if_true]
      exact Zeroes.refl _
    by_cases hdash : s.line.s_line p = 45 ∧ s.line.s_line (p + 1) = comma
    · simp only [convert, hcur, hdash, and_self, if_true]
      exact Zeroes.refl _
    · simp only [convert, hcur, hnul, hdash, if_false]
      exact field_zeroes w k s.line

theorem scan_zeroes (w : LongWidth) (fmt : List UInt8) (s : AtScan) :
    Zeroes s.line.s_line (scan w s fmt).line.s_line := by
  fun_induction scan w s fmt with
  | case1 s => exact Zeroes.refl _
  | case2 s c fmt hsep ih => exact ih
  | case3 s c fmt hsep hpercent => exact Zeroes.refl _
  | case4 s c hsep hpercent => exact Zeroes.refl _
  | case5 s c hsep hpercent k fmt s' hstep =>
    have hconv := convert_zeroes w k s
    rwa [hstep] at hconv
  | case6 s c hsep hpercent k fmt s' hstep ih =>
    have hconv := convert_zeroes w k s
    rw [hstep] at hconv
    exact hconv.trans ih

end AtScan

/-- No call writes to the last byte of the buffer, unless to zero it. -/
theorem atTokScanf_last (w : LongWidth) (b : LineBuffer) (in_line : Option (List UInt8))
    (fmt : List UInt8) : (atTokScanf w b.bytes in_line fmt).line.s_line (lineSize - 1) = 0 := by
  cases in_line with
  | none => exact b.last
  | some in_line =>
    have hcopy : copyLine b.bytes in_line (lineSize - 1) = 0 := by
      refine (poke_of_outside (.inr ?_)).trans b.last
      rw [List.length_append, List.length_take, List.length_replicate]
      omega
    have hstart : (atTokStart ⟨copyLine b.bytes in_line, some 0⟩ 0).2.s_line =
        copyLine b.bytes in_line := by
      simp only [atTokStart]
      split
      next => rfl
      next => rfl
    simp only [atTokScanf]
    split
    next line heq =>
      rw [heq] at hstart
      exact (congrFun hstart _).trans hcopy
    next line heq =>
      rw [heq] at hstart
      rcases AtScan.scan_zeroes w fmt ⟨line, 0, 0, fun _ ↦ none⟩ (lineSize - 1) with hkept | hzero
      · exact hkept.trans ((congrFun hstart _).trans hcopy)
      · exact hzero

/-- The buffer that a call leaves to the next one. -/
def LineBuffer.scanf (w : LongWidth) (b : LineBuffer) (in_line : Option (List UInt8))
    (fmt : List UInt8) : LineBuffer := ⟨_, atTokScanf_last w b in_line fmt⟩

/-! ## Responses -/

/-- A decimal number that fits an `int`. -/
structure DecText where
  neg : Bool
  digits : List UInt8
  ne : digits ≠ []
  isDigit : ∀ b ∈ digits, digitValue b < 10
  low : -2 ^ 31 ≤ if neg then -(numeral 10 digits : ℤ) else numeral 10 digits
  high : (if neg then -(numeral 10 digits : ℤ) else numeral 10 digits) < 2 ^ 31

def DecText.value (t : DecText) : ℤ :=
  if t.neg then -(numeral 10 t.digits : ℤ) else numeral 10 t.digits

/-- A hexadecimal number that fits an `unsigned int`, with `0x` in front of it or not. -/
structure HexText where
  ox : Bool
  digits : List UInt8
  ne : digits ≠ []
  isDigit : ∀ b ∈ digits, digitValue b < 16
  fits : numeral 16 digits < 2 ^ 32

/-- A string without quotes. -/
structure StrText where
  chars : List UInt8
  noNul : 0 ∉ chars
  noQuote : quote ∉ chars

inductive AtField
  | dec (t : DecText)
  | hex (t : HexText)
  | str (t : StrText)
  | /-- `-` -/
    placeholder

inductive AtConv
  | d
  | x
  | s
  deriving DecidableEq

/-- The character of a conversion. -/
def AtConv.char : AtConv → UInt8
  | .d => 100
  | .x => 120
  | .s => 115

namespace AtField

/-- The field as it stands in the line. -/
def text : AtField → List UInt8
  | dec t => (if t.neg then [45] else []) ++ t.digits
  | hex t => (if t.ox then [48, 120] else []) ++ t.digits
  | str t => quote :: (t.chars ++ [quote])
  | placeholder => [45]

/-- The conversions that a field is read with. -/
def Matches : AtField → AtConv → Prop
  | dec _, k => k = .d
  | hex _, k => k = .x
  | str _, k => k = .s
  | placeholder, _ => True

/-- What was stored is the value of the field, read as the type of the conversion. For a
placeholder that is asked of `%d` only. -/
def Stored (s_line : ℕ → UInt8) (v : Option AtValue) : AtField → AtConv → Prop
  | dec t, _ => v = some (.int t.value)
  | hex t, _ => ∃ x, v = some (.int x) ∧ u32 x = numeral 16 t.digits
  | str t, _ => ∃ a, v = some (.str (some a)) ∧ Holds s_line a (t.chars ++ [0])
  | placeholder, k => k = .d → v = some (.int (-1))

end AtField

/-- A field with the blank before it, and its conversion with the separators before that. -/
structure AtEntry where
  blank : Bool
  field : AtField
  /-- Blanks (`true`) and commas of the format. -/
  seps : List Bool
  conv : AtConv
  fits : field.Matches conv

namespace AtEntry

def text (e : AtEntry) : List UInt8 := (if e.blank then [32] else []) ++ e.field.text

/-- The characters that the loop over the format skips. -/
def sepChars (seps : List Bool) : List UInt8 := seps.map fun blank ↦ if blank then 32 else comma

def format (e : AtEntry) : List UInt8 := sepChars e.seps ++ [37, e.conv.char]

/-- A placeholder that is read as a number stands alone before a comma. -/
def Passed (e : AtEntry) (es : List AtEntry) : Prop :=
  match e.field with
  | .placeholder => e.conv ≠ .s → e.blank = false ∧ es ≠ []
  | _ => True

/-- `Passed`, for every field and those behind it. -/
def AllPassed : List AtEntry → Prop
  | [] => True
  | e :: es => e.Passed es ∧ AllPassed es

end AtEntry

/-- A response and a format that matches it. -/
structure AtResponse where
  pre : List UInt8
  noNul : 0 ∉ pre
  noColon : colon ∉ pre
  entries : List AtEntry
  /-- A response without fields may have a blank behind the colon too. -/
  blank : Bool
  /-- The separators behind the last conversion. -/
  seps : List Bool

namespace AtResponse

def line (r : AtResponse) : List UInt8 :=
  r.pre ++ colon :: ((if r.entries = [] ∧ r.blank then [32] else []) ++
    [comma].intercalate (r.entries.map AtEntry.text))

def format (r : AtResponse) : List UInt8 :=
  r.entries.flatMap AtEntry.format ++ AtEntry.sepChars r.seps

/-- Every field was recovered, and nothing else was stored. -/
structure Recovered (r : AtResponse) (s : AtScan) : Prop where
  count : s.n = r.entries.length
  stored : ∀ i (h : i < r.entries.length),
    r.entries[i].field.Stored s.line.s_line (s.out i) r.entries[i].conv
  only : ∀ i, r.entries.length ≤ i → s.out i = none

end AtResponse

end Wwan.QuectelCm
