import Mathlib.Data.List.TakeWhile
import Wwan.Lib.Lines

/-!
# Searching an ini file

`IniReadValue` and `IniWriteValue` of `multi-pdn-manager` look for a line that begins with the
section, and behind it for a line that begins with the key. The reader goes on behind a key that it
found and takes the last value, the writer replaces the first line.

A line is a string, so it has no zero; a string that is compared with `strncmp` over its own length
is a prefix.
-/

namespace Wwan.FibocomDial.Ini

/-- A line, with its newline. -/
abbrev Line := List UInt8

/-- The bytes of a literal. -/
def ascii (s : String) : List UInt8 := s.toList.map fun c ↦ UInt8.ofNat c.toNat

/-- `[` -/
abbrev bracket : UInt8 := 91

/-- `=` -/
abbrev equals : UInt8 := 61

/-- Comments and empty lines. -/
def skipped (lineContent : Line) : Bool :=
  match lineContent with
  | [] => true
  | c :: _ => c = 59 || c = 13 || c = 10

/-- `lineContent[0] == '['` -/
def isHeader (lineContent : Line) : Bool := lineContent.head? = some bracket

/-! ## `IniReadValue` -/

/-- The string in a buffer. -/
def string (val : List UInt8) : List UInt8 := val.takeWhile (· ≠ 0)

/-- Bytes are copied to the beginning of a buffer. -/
def overlay (val xs : List UInt8) : List UInt8 := xs ++ val.drop xs.length

/-- What is behind the first `=` behind the key. -/
def valueOf (key lineContent : Line) : Option (List UInt8) :=
  match (lineContent.drop key.length).dropWhile (· ≠ equals) with
  | [] => none
  | _ :: value => some value

/-- The loop over the characters of `val`. -/
def endLines (val : List UInt8) : List UInt8 :=
  let lineContentLen := (string val).length
  (val.take lineContentLen).map (fun c ↦ if c = 13 ∨ c = 10 then 0 else c) ++
    val.drop lineContentLen

/-- The inner loop of `IniReadValue`. -/
def readKeys (key : Line) : List Line → List UInt8 → List UInt8
  | [], val => val
  | lineContent :: rest, val =>
    if key <+: lineContent then
      match valueOf key lineContent with
      | none => val
      | some value => readKeys key rest (endLines (overlay val value))
    else if isHeader lineContent then val
    else readKeys key rest val

/-- `IniReadValue`, with what `fgets` reads of the file. -/
def iniReadValue (sect key : Line) : List Line → List UInt8 → List UInt8
  | [], val => val
  | lineContent :: rest, val =>
    if skipped lineContent then iniReadValue sect key rest val
    else if sect <+: lineContent then readKeys key rest val
    else iniReadValue sect key rest val

/-! ## `IniWriteValue` -/

/-- `strWrite`. -/
def strWrite (key val : List UInt8) : Line := key ++ equals :: (val ++ [Lines.nl])

/-- The inner loop of `IniWriteValue`, which has `todo` lines to look at. -/
def writeKeys (key str : Line) : ℕ → List Line → Option (List Line)
  | 0, fileContents => some fileContents
  | _ + 1, [] => none
  | todo + 1, lineContent :: rest =>
    if key <+: lineContent then some (str :: rest)
    else if isHeader lineContent then some (lineContent :: rest)
    else (writeKeys key str todo rest).map (lineContent :: ·)

/-- `IniWriteValue`. -/
def iniWriteValue (sect key str : Line) : ℕ → List Line → Option (List Line)
  | 0, fileContents => some fileContents
  | _ + 1, [] => none
  | todo + 1, lineContent :: rest =>
    if skipped lineContent then (iniWriteValue sect key str todo rest).map (lineContent :: ·)
    else if sect <+: lineContent then (writeKeys key str todo rest).map (lineContent :: ·)
    else (iniWriteValue sect key str todo rest).map (lineContent :: ·)

/-! ## Lines that matter -/

/-- A line that begins with the key, then blanks and `=`. -/
def Named (key lineContent : Line) : Prop :=
  ∃ blanks value, lineContent = key ++ (blanks ++ equals :: value) ∧
    ∀ b ∈ blanks, b = 32 ∨ b = 9

/-- The next line of the section that begins with the key, if there is one, has no value. -/
def Settled (key : Line) : List Line → Prop
  | [] => True
  | lineContent :: rest =>
    if key <+: lineContent then valueOf key lineContent = none
    else isHeader lineContent ∨ Settled key rest

instance decidableSettled (key : Line) : ∀ lines, Decidable (Settled key lines)
  | [] => .isTrue trivial
  | lineContent :: rest =>
    haveI := decidableSettled key rest
    inferInstanceAs (Decidable (if key <+: lineContent then valueOf key lineContent = none
      else isHeader lineContent ∨ Settled key rest))

/-- A line between others: the first line of the section that begins with the key. -/
structure Found (sect key : Line) (pre : List Line) (header : Line) (mid : List Line)
    (line : Line) : Prop where
  outside : ∀ l ∈ pre, ¬ sect <+: l
  section_header : sect <+: header
  passed : ∀ l ∈ mid, ¬ key <+: l ∧ isHeader l = false
  begins : key <+: line

section Search

variable {sect sect' key key' str line line' header : Line} {pre mid rest rest' : List Line}
  {val value : List UInt8} {todo : ℕ}

theorem not_skipped (hsect : sect.head? = some bracket) (h : sect <+: line) :
    skipped line = false := by
  obtain ⟨t, rfl⟩ := h
  cases sect with
  | nil => cases hsect
  | cons c sect =>
    obtain rfl := Option.some.inj hsect
    rfl

theorem isHeader_of_section (hsect : sect.head? = some bracket) (h : sect <+: line) :
    isHeader line := by
  obtain ⟨t, rfl⟩ := h
  cases sect with
  | nil => cases hsect
  | cons c sect =>
    obtain rfl := Option.some.inj hsect
    rfl

/-- A key that is a name is not the beginning of a header. -/
theorem not_prefix_of_isHeader (hkey : key.head? ≠ some bracket) (hne : key ≠ [])
    (h : isHeader line) : ¬ key <+: line := by
  rintro ⟨t, rfl⟩
  obtain ⟨c, key, rfl⟩ := List.exists_cons_of_ne_nil hne
  exact hkey (of_decide_eq_true h)

theorem isHeader_of_begins (hkey : key.head? ≠ some bracket) (hne : key ≠ [])
    (h : key <+: line) : isHeader line = false :=
  Bool.eq_false_iff.mpr fun hheader ↦ not_prefix_of_isHeader hkey hne hheader h

/-! ## Reading -/

theorem readKeys_passed (h : ∀ l ∈ mid, ¬ key <+: l ∧ isHeader l = false) :
    readKeys key (mid ++ rest) val = readKeys key rest val := by
  induction mid with
  | nil => rfl
  | cons l mid ih =>
    obtain ⟨⟨hkey, hheader⟩, hmid⟩ := List.forall_mem_cons.mp h
    rw [List.cons_append, readKeys, if_neg hkey, hheader, if_neg Bool.false_ne_true, ih hmid]

theorem readKeys_settled (h : Settled key rest) : readKeys key rest val = val := by
  induction rest with
  | nil => rfl
  | cons l rest ih =>
    rw [Settled] at h
    rw [readKeys]
    split at h
    next hkey => rw [if_pos hkey, h]
    next hkey =>
      rw [if_neg hkey]
      rcases h with hheader | hrest
      · rw [if_pos hheader]
      · split
        · rfl
        · exact ih hrest

/-- What is behind the section does not matter. -/
theorem readKeys_header (hkey : key.head? ≠ some bracket) (hne : key ≠ [])
    (hheader : isHeader header) :
    readKeys key (pre ++ header :: rest) val = readKeys key (pre ++ header :: rest') val := by
  induction pre generalizing val with
  | nil =>
    have hstop (rest : List Line) : readKeys key (header :: rest) val = val := by
      rw [readKeys, if_neg (not_prefix_of_isHeader hkey hne hheader), if_pos hheader]
    exact (hstop rest).trans (hstop rest').symm
  | cons l pre ih =>
    rw [List.cons_append, List.cons_append, readKeys, readKeys]
    split
    · split
      · rfl
      · exact ih
    · split
      · rfl
      · exact ih

/-- Nor does a line of another key. -/
theorem readKeys_replace (h : ¬ key <+: line) (h' : ¬ key <+: line')
    (hheader : isHeader line = false) (hheader' : isHeader line' = false) :
    readKeys key (pre ++ line :: rest) val = readKeys key (pre ++ line' :: rest) val := by
  induction pre generalizing val with
  | nil =>
    rw [List.nil_append, List.nil_append, readKeys, readKeys, if_neg h, if_neg h', hheader,
      hheader']
  | cons l pre ih =>
    rw [List.cons_append, List.cons_append, readKeys, readKeys]
    split
    · split
      · rfl
      · exact ih
    · split
      · rfl
      · exact ih

theorem iniReadValue_cons_of_not (h : ¬ sect <+: line) :
    iniReadValue sect key (line :: rest) val = iniReadValue sect key rest val := by
  rw [iniReadValue, if_neg h, ite_self]

theorem iniReadValue_cons_of_begins (hsect : sect.head? = some bracket) (h : sect <+: line) :
    iniReadValue sect key (line :: rest) val = readKeys key rest val := by
  rw [iniReadValue, not_skipped hsect h, if_neg Bool.false_ne_true, if_pos h]

theorem iniReadValue_outside (h : ∀ l ∈ pre, ¬ sect <+: l) :
    iniReadValue sect key (pre ++ rest) val = iniReadValue sect key rest val := by
  induction pre with
  | nil => rfl
  | cons l pre ih =>
    obtain ⟨hl, hpre⟩ := List.forall_mem_cons.mp h
    rw [List.cons_append, iniReadValue_cons_of_not hl, ih hpre]

/-- What the reader finds: the value of the first line, and what it makes of the others. -/
theorem Found.iniReadValue (h : Found sect key pre header mid line)
    (hsect : sect.head? = some bracket) (hvalue : valueOf key line = some value) :
    Ini.iniReadValue sect key (pre ++ header :: (mid ++ line :: rest)) val =
      readKeys key rest (endLines (overlay val value)) := by
  rw [iniReadValue_outside h.outside, iniReadValue_cons_of_begins hsect h.section_header,
    readKeys_passed h.passed, readKeys, if_pos h.begins, hvalue]

/-- A line of another key does not matter. -/
theorem iniReadValue_replace (hsect : sect.head? = some bracket) (h : ¬ key <+: line)
    (h' : ¬ key <+: line') (hheader : isHeader line = false) (hheader' : isHeader line' = false) :
    iniReadValue sect key (pre ++ line :: rest) val =
      iniReadValue sect key (pre ++ line' :: rest) val := by
  induction pre with
  | nil =>
    have hno {l : Line} (hl : isHeader l = false) : ¬ sect <+: l := fun hprefix ↦ by
      rw [isHeader_of_section hsect hprefix] at hl
      cases hl
    rw [List.nil_append, List.nil_append, iniReadValue_cons_of_not (hno hheader),
      iniReadValue_cons_of_not (hno hheader')]
  | cons l pre ih =>
    rw [List.cons_append, List.cons_append]
    by_cases hl : sect <+: l
    · rw [iniReadValue_cons_of_begins hsect hl, iniReadValue_cons_of_begins hsect hl]
      exact readKeys_replace h h' hheader hheader'
    · rw [iniReadValue_cons_of_not hl, iniReadValue_cons_of_not hl, ih]

/-- Nor does a line of another section. -/
theorem iniReadValue_other (hsect : sect.head? = some bracket) (hkey : key.head? ≠ some bracket)
    (hne : key ≠ []) (hheader : isHeader header) (hother : ¬ sect <+: header)
    (hmid : ∀ l ∈ mid, isHeader l = false) (hline : isHeader line = false)
    (hline' : isHeader line' = false) :
    iniReadValue sect key (pre ++ header :: (mid ++ line :: rest)) val =
      iniReadValue sect key (pre ++ header :: (mid ++ line' :: rest)) val := by
  have hno {l : Line} (hl : isHeader l = false) : ¬ sect <+: l := fun hprefix ↦ by
    rw [isHeader_of_section hsect hprefix] at hl
    cases hl
  induction pre with
  | nil =>
    rw [List.nil_append, List.nil_append, iniReadValue_cons_of_not hother,
      iniReadValue_cons_of_not hother, iniReadValue_outside fun l hl ↦ hno (hmid l hl),
      iniReadValue_outside fun l hl ↦ hno (hmid l hl), iniReadValue_cons_of_not (hno hline),
      iniReadValue_cons_of_not (hno hline')]
  | cons l pre ih =>
    rw [List.cons_append, List.cons_append]
    by_cases hl : sect <+: l
    · rw [iniReadValue_cons_of_begins hsect hl, iniReadValue_cons_of_begins hsect hl]
      exact readKeys_header hkey hne hheader
    · rw [iniReadValue_cons_of_not hl, iniReadValue_cons_of_not hl, ih]

/-- An empty read at the end of the file does not matter. -/
theorem readKeys_append_nil (hne : key ≠ []) :
    readKeys key (rest ++ [[]]) val = readKeys key rest val := by
  induction rest generalizing val with
  | nil =>
    have hpassed : ∀ l ∈ [([] : Line)], ¬ key <+: l ∧ isHeader l = false :=
      List.forall_mem_singleton.mpr ⟨fun h ↦ hne (List.prefix_nil.mp h), rfl⟩
    exact readKeys_passed hpassed
  | cons l rest ih =>
    rw [List.cons_append, readKeys, readKeys]
    split
    · split
      · rfl
      · exact ih
    · split
      · rfl
      · exact ih

theorem iniReadValue_append_nil (hne : key ≠ []) :
    iniReadValue sect key (rest ++ [[]]) val = iniReadValue sect key rest val := by
  induction rest with
  | nil => rfl
  | cons l rest ih =>
    rw [List.cons_append, iniReadValue, iniReadValue, ih, readKeys_append_nil hne]

/-! ## Writing -/

theorem writeKeys_found (hpassed : ∀ l ∈ mid, ¬ key <+: l ∧ isHeader l = false)
    (hbegins : key <+: line) (htodo : mid.length < todo) :
    writeKeys key str todo (mid ++ line :: rest) = some (mid ++ str :: rest) := by
  induction mid generalizing todo with
  | nil =>
    obtain ⟨todo, rfl⟩ := Nat.exists_eq_add_one_of_ne_zero (Nat.ne_zero_of_lt htodo)
    rw [List.nil_append, writeKeys, if_pos hbegins]
    rfl
  | cons l mid ih =>
    obtain ⟨todo, rfl⟩ := Nat.exists_eq_add_one_of_ne_zero (Nat.ne_zero_of_lt htodo)
    obtain ⟨⟨hkey, hheader⟩, hmid⟩ := List.forall_mem_cons.mp hpassed
    rw [List.cons_append, writeKeys, if_neg hkey, hheader, if_neg Bool.false_ne_true,
      ih hmid (Nat.lt_of_succ_lt_succ htodo)]
    rfl

/-- The writer replaces the line. -/
theorem Found.iniWriteValue (h : Found sect key pre header mid line)
    (hsect : sect.head? = some bracket) (htodo : pre.length + (mid.length + 1) < todo) :
    Ini.iniWriteValue sect key str todo (pre ++ header :: (mid ++ line :: rest)) =
      some (pre ++ header :: (mid ++ str :: rest)) := by
  obtain ⟨houtside, hheader, hpassed, hbegins⟩ := h
  induction pre generalizing todo with
  | nil =>
    obtain ⟨todo, rfl⟩ := Nat.exists_eq_add_one_of_ne_zero (Nat.ne_zero_of_lt htodo)
    rw [List.length_nil, Nat.zero_add] at htodo
    rw [List.nil_append, Ini.iniWriteValue, not_skipped hsect hheader,
      if_neg Bool.false_ne_true, if_pos hheader,
      writeKeys_found hpassed hbegins (Nat.lt_of_succ_lt_succ htodo)]
    rfl
  | cons l pre ih =>
    obtain ⟨todo, rfl⟩ := Nat.exists_eq_add_one_of_ne_zero (Nat.ne_zero_of_lt htodo)
    obtain ⟨hl, hpre⟩ := List.forall_mem_cons.mp houtside
    rw [List.length_cons, Nat.add_right_comm] at htodo
    rw [List.cons_append, Ini.iniWriteValue, if_neg hl, ite_self,
      ih (Nat.lt_of_succ_lt_succ htodo) hpre]
    rfl

end Search

end Wwan.FibocomDial.Ini
