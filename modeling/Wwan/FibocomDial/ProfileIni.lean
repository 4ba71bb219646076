import Wwan.FibocomDial.IniSearch
import Wwan.Lib.Transition
import Wwan.QuectelCm.AtTokFields
import Wwan.QuectelCm.GetpidByPdp

/-!
# The profile file of `multi-pdn-manager`

`loadConfigFromIni` copies the lines of the file into `fileContents`, the writers change a line
there, and `saveConfigToIni` writes the lines back. A line is copied over what its place held
before, so a place has to be empty, or to hold the line already; and there are 80 places.

A session is careful where the file is loaded only while nothing is to be saved, and where a key is
written whose line is the first in its section to begin with it and the last to have a value.
-/

namespace Wwan.FibocomDial.Ini

open Lines Bytes Text QuectelCm

/-! ## Sections and keys -/

/-- The keys of a profile. -/
inductive Key
  | apn
  | user
  | password
  | auth
  | ipfamily
  | pin
  deriving DecidableEq

def Key.text : Key → Line
  | apn => ascii "apn"
  | user => ascii "user"
  | password => ascii "password"
  | auth => ascii "auth"
  | ipfamily => ascii "ipfamily"
  | pin => ascii "pin"

/-- `profilename`. -/
def profilename (profileIndex : Fin 8) : List UInt8 :=
  ascii "profile" ++ [49 + UInt8.ofNat profileIndex]

/-- `sect`. -/
def sect (profileIndex : Fin 8) : Line := bracket :: (profilename profileIndex ++ [93])

/-! ## The file -/

/-- What `fgets` reads until `feof`, as strings: the last one is empty unless the file ends within
a line. -/
def reads (content : List UInt8) : List Line :=
  let ps := pieces 255 255 content
  let eof :=
    match ps.getLast? with
    | none => false
    | some p => p.getLast? ≠ some nl && p.length < 255
  (if eof then ps else ps ++ [[]]).map string

/-- `val`, of 256 zeros, after `IniReadValue`. -/
def readLines (profileIndex : Fin 8) (key : Key) (lines : List Line) : List UInt8 :=
  string (iniReadValue (sect profileIndex) key.text lines (List.replicate 256 0))

/-- `readStringValue`. -/
def readStringValue (profileIndex : Fin 8) (key : Key) (file : List UInt8) : List UInt8 :=
  readLines profileIndex key (reads file)

/-- `atoi`, of a number that is an `int`. -/
def atoi (w : LongWidth) (str : List UInt8) : ℤ := (strtol w 10 str).getD 0

/-- `readIntValue`. -/
def readIntValue (w : LongWidth) (profileIndex : Fin 8) (key : Key) (file : List UInt8) : ℤ :=
  atoi w (readStringValue profileIndex key file)

/-- `struct profile`. -/
structure Profile where
  apn : List UInt8
  user : List UInt8
  password : List UInt8
  auth : ℤ
  ipfamily : ℤ
  pin : List UInt8
  deriving DecidableEq

/-- An entry of `profileList` after it was read. -/
def readProfile (w : LongWidth) (file : List UInt8) (profileIndex : Fin 8) : Profile where
  apn := readStringValue profileIndex .apn file
  user := readStringValue profileIndex .user file
  password := readStringValue profileIndex .password file
  auth := readIntValue w profileIndex .auth file
  ipfamily := readIntValue w profileIndex .ipfamily file
  pin := readStringValue profileIndex .pin file

/-! ## The copy in memory -/

/-- The file, and the variables of the manager. What follows the string in a place of
`fileContents` is zero. -/
structure Config where
  file : List UInt8
  fileContents : List Line
  fileIndex : ℕ
  profileList : List Profile

/-- The lines are copied over the beginnings of their places; an empty one is nothing to copy. -/
def loadLines : List Line → List Line → Option (List Line)
  | [], fileContents => some fileContents
  | lineContent :: rest, place :: places =>
    (loadLines rest places).map (overlay place lineContent :: ·)
  | lineContent :: rest, [] => if lineContent = [] then loadLines rest [] else none

/-- `loadConfigFromIni`, where `get_qmap_num` returns `qmapNum`. -/
def loadConfigFromIni (w : LongWidth) (qmapNum : ℤ) (c : Config) : Option Config :=
  if qmapNum = 0 ∨ qmapNum = -1 then some c
  else
    (loadLines (reads c.file) c.fileContents).map fun fileContents ↦
      { c with
        fileContents := fileContents
        fileIndex := (reads c.file).length
        profileList := (List.finRange 8).map (readProfile w c.file) }

/-- `writeStringVlaue`. `strWrite` has 256 bytes. -/
def writeStringVlaue (profileIndex : Fin 8) (key : Key) (val : List UInt8) (c : Config) :
    Option Config :=
  let str := strWrite key.text val
  if 256 ≤ str.length then none
  else
    (iniWriteValue (sect profileIndex) key.text str (c.fileIndex + 1) c.fileContents).map
      fun fileContents ↦ { c with fileContents := fileContents }

/-- `writeIntValue`. -/
def writeIntValue (profileIndex : Fin 8) (key : Key) (val : ℤ) (c : Config) : Option Config :=
  writeStringVlaue profileIndex key (decimal val) c

/-- `saveConfigToIni`. -/
def saveConfigToIni (c : Config) : Option Config :=
  if c.fileIndex < c.fileContents.length then
    some { c with file := (c.fileContents.take (c.fileIndex + 1)).flatten }
  else none

/-! ## Sessions -/

inductive Event
  | load (qmapNum : ℤ)
  | writeString (profileIndex : Fin 8) (key : Key) (val : List UInt8)
  | writeInt (profileIndex : Fin 8) (key : Key) (val : ℤ)
  | save
  deriving DecidableEq

/-- The values that were written, the latest first. -/
abbrev Writes := List ((Fin 8 × Key) × List UInt8)

/-- A run of the manager: none is an access outside of `fileContents` or `strWrite`. -/
structure Session where
  config : Option Config
  written : Writes
  /-- What had been written when it was saved. -/
  saved : Writes

namespace Session

def write (s : Session) (profileIndex : Fin 8) (key : Key) (val : List UInt8) : Session :=
  { s with
    config := s.config.bind (writeStringVlaue profileIndex key val)
    written := ((profileIndex, key), val) :: s.written }

def next (w : LongWidth) (s : Session) : Event → Session
  | .load qmapNum => { s with config := s.config.bind (loadConfigFromIni w qmapNum) }
  | .writeString profileIndex key val => s.write profileIndex key val
  | .writeInt profileIndex key val => s.write profileIndex key (decimal val)
  | .save => { s with config := s.config.bind saveConfigToIni, saved := s.written }

/-- Values are strings of less than 240 characters, and ints. -/
def enabled (_ : Session) : Event → Prop
  | .writeString _ _ val => val.length < 240 ∧ 0 ∉ val
  | .writeInt _ _ val => -2 ^ 31 ≤ val ∧ val < 2 ^ 31
  | _ => True

end Session

/-- The runs on a file. -/
def system (w : LongWidth) (content : List UInt8) : System Session Event where
  init := ⟨some ⟨content, List.replicate 80 [], 0, []⟩, [], []⟩
  enabled := Session.enabled
  next := Session.next w

/-! ## What is to hold -/

/-- The header in force behind a line. -/
def headerAfter (header lineContent : Line) : Line :=
  if isHeader lineContent then lineContent else header

/-- The lines of a file under a header, and the same with some keys of their sections written. -/
inductive Kept (ws : Writes) : Line → List Line → List Line → Prop
  | nil (header : Line) : Kept ws header [] []
  | same {header l : Line} {ls ls' : List Line} (h : Kept ws (headerAfter header l) ls ls') :
      Kept ws header (l :: ls) (l :: ls')
  | written {header l : Line} {ls ls' : List Line} {profileIndex : Fin 8} {key : Key}
      {val : List UInt8} (hmem : ((profileIndex, key), val) ∈ ws)
      (hsect : sect profileIndex <+: header) (hnamed : Named key.text l)
      (h : Kept ws header ls ls') : Kept ws header (l :: ls) (strWrite key.text val :: ls')

/-- Nothing was accessed outside; every key is read as it was last written before the file was
saved, and as it was in the beginning if it was not; all lines but the ones of written keys are as
they were. -/
def Survives (w : LongWidth) (content : List UInt8) (s : Session) : Prop :=
  ∃ c, s.config = some c ∧
    (∀ profileIndex key, readStringValue profileIndex key c.file =
      (s.saved.lookup (profileIndex, key)).getD (readStringValue profileIndex key content)) ∧
    (∀ profileIndex key val, -2 ^ 31 ≤ val → val < 2 ^ 31 →
      s.saved.lookup (profileIndex, key) = some (decimal val) →
      readIntValue w profileIndex key c.file = val) ∧
    Kept s.saved [] (texts content) (texts c.file)

/-! ## Careful sessions -/

/-- The file fits, and the memory holds nothing else than the file, or nothing yet. -/
def LoadsClean (c : Config) : Prop :=
  0 ∉ c.file ∧ (reads c.file).length < 80 ∧
    (c.fileIndex = 0 ∨ c.fileContents.flatten = c.file)

/-- The first line of the section that begins with the key is that of the key, and the next one has
no value. -/
def Editable (profileIndex : Fin 8) (key : Key) (c : Config) : Prop :=
  ∃ pre header mid line rest,
    c.fileContents.take (c.fileIndex + 1) = pre ++ header :: (mid ++ line :: rest) ∧
    Found (sect profileIndex) key.text pre header mid line ∧ Named key.text line ∧
    Settled key.text rest

def Careful (s : Session) (e : Event) : Prop :=
  ∀ c, s.config = some c →
    match e with
    | .load qmapNum => qmapNum = 0 ∨ qmapNum = -1 ∨ LoadsClean c
    | .writeString profileIndex key val =>
      (∀ b ∈ val, b ≠ 13 ∧ b ≠ nl) ∧ Editable profileIndex key c
    | .writeInt profileIndex key _ => Editable profileIndex key c
    | .save => c.fileIndex ≠ 0 ∨ c.file = []

/-! ## Keys and sections -/

section Names

variable {key key' : Key} {line : Line} {val : List UInt8} {profileIndex : Fin 8}

theorem Key.head_text (key : Key) : key.text.head? ≠ some bracket := by
  cases key
  all_goals decide

theorem Key.text_ne_nil (key : Key) : key.text ≠ [] := by
  cases key
  all_goals decide

theorem Key.length_text_le (key : Key) : key.text.length ≤ 8 := by
  cases key
  all_goals decide

theorem Key.not_mem_text (key : Key) : nl ∉ key.text ∧ 0 ∉ key.text := by
  cases key
  all_goals decide

/-- No key is the beginning of another one. -/
theorem Key.prefix_eq (h : key.text <+: key'.text) : key = key' := by
  revert h
  cases key
  all_goals
    cases key'
    all_goals decide

theorem Key.eq_of_begins (h : key.text <+: line) (h' : key'.text <+: line) : key = key' := by
  rcases List.prefix_or_prefix_of_prefix h h' with h | h
  · exact Key.prefix_eq h
  · exact (Key.prefix_eq h).symm

theorem head_sect (profileIndex : Fin 8) : (sect profileIndex).head? = some bracket := rfl

/-- Nor is a section. -/
theorem prefix_sect_eq : ∀ p p' : Fin 8, sect p <+: sect p' → p = p' := by decide

theorem sect_eq_of_begins {p p' : Fin 8} (h : sect p <+: line) (h' : sect p' <+: line) :
    p = p' := by
  rcases List.prefix_or_prefix_of_prefix h h' with h | h
  · exact prefix_sect_eq p p' h
  · exact (prefix_sect_eq p' p h).symm

theorem Named.begins (h : Named key.text line) : key.text <+: line := by
  obtain ⟨blanks, value, rfl, -⟩ := h
  exact List.prefix_append _ _

theorem Named.isHeader (h : Named key.text line) : Ini.isHeader line = false :=
  isHeader_of_begins key.head_text key.text_ne_nil h.begins

theorem Named.ne_nil (h : Named key.text line) : line ≠ [] := by
  rintro rfl
  exact key.text_ne_nil (List.prefix_nil.mp h.begins)

theorem named_strWrite (key : Key) (val : List UInt8) : Named key.text (strWrite key.text val) :=
  ⟨[], val ++ [nl], rfl, fun _ h ↦ nomatch h⟩

theorem valueOf_strWrite (key : Line) (val : List UInt8) :
    valueOf key (strWrite key val) = some (val ++ [nl]) := by
  rw [valueOf, strWrite, List.drop_left, List.dropWhile_cons_of_neg (by decide)]

end Names

/-! ## Strings -/

section Strings

variable {xs val content : List UInt8} {lines : List Line} {m : ℕ}

theorem string_eq_self (h : 0 ∉ xs) : string xs = xs := by
  refine List.takeWhile_eq_self_iff.mpr fun b hb ↦ decide_eq_true ?_
  rintro rfl
  exact h hb

theorem string_append (h : 0 ∉ xs) (ys : List UInt8) : string (xs ++ 0 :: ys) = xs := by
  rw [string, List.takeWhile_append_of_pos fun b hb ↦ ?_]
  · rw [List.takeWhile_cons_of_neg (by decide), List.append_nil]
  · refine decide_eq_true ?_
    rintro rfl
    exact h hb

/-- A value that is read into the buffer alone. -/
theorem string_endLines (hzero : 0 ∉ val) (hends : ∀ b ∈ val, b ≠ 13 ∧ b ≠ nl)
    (hlen : val.length + 1 < 256) :
    string (endLines (overlay (List.replicate 256 0) (val ++ [nl]))) = val := by
  obtain ⟨m, hm⟩ : ∃ m, 256 - (val ++ [nl]).length = m + 1 := by
    rw [List.length_append, List.length_singleton]
    exact Nat.exists_eq_add_one_of_ne_zero (by omega)
  have hbuf : overlay (List.replicate 256 0) (val ++ [nl]) =
      (val ++ [nl]) ++ 0 :: List.replicate m 0 := by
    rw [overlay, List.drop_replicate, hm, List.replicate_succ]
  have hzero' : 0 ∉ val ++ [nl] := by
    intro h
    rcases List.mem_append.mp h with h | h
    · exact hzero h
    · exact absurd (List.mem_singleton.mp h) (by decide)
  have hmap : (val.map fun c ↦ if c = 13 ∨ c = 10 then 0 else c) = val := by
    refine (List.map_congr_left fun b hb ↦ if_neg ?_).trans (List.map_id val)
    rintro (h | h)
    · exact (hends b hb).1 h
    · exact (hends b hb).2 h
  rw [hbuf, endLines, string_append hzero', List.take_left, List.drop_left, List.map_append, hmap,
    List.append_assoc]
  exact string_append hzero _

/-- Lines that `fgets` gets whole. -/
def Short (lines : List Line) : Prop := ∀ l ∈ lines, l.length ≤ 255 ∧ 0 ∉ l

theorem reads_eq (h : Short (texts content)) :
    ∃ e, (e = [] ∨ e = [[]]) ∧ reads content = texts content ++ e := by
  have hpieces : pieces 255 255 content = texts content := by
    rw [pieces_texts]
    have hone : ∀ t ∈ texts content, pieces 255 255 t = [t] := fun t ht ↦
      pieces_isText (isText_of_mem ht) (h t ht).1
    rw [List.flatMap_congr hone]
    exact List.flatMap_singleton' _
  have hstring : (texts content).map string = texts content :=
    (List.map_congr_left fun t ht ↦ string_eq_self (h t ht).2).trans (List.map_id _)
  have hend (eof : Bool) : ∃ e, (e = [] ∨ e = [[]]) ∧
      (if eof then texts content else texts content ++ [[]]).map string = texts content ++ e := by
    cases eof with
    | false =>
      refine ⟨[[]], .inr rfl, ?_⟩
      rw [if_neg Bool.false_ne_true, List.map_append, hstring]
      rfl
    | true => exact ⟨[], .inl rfl, by rw [if_pos rfl, hstring, List.append_nil]⟩
  rw [reads, hpieces]
  exact hend _

/-- An empty read does not matter. -/
theorem readLines_append_end {e : List Line} (he : e = [] ∨ e = [[]]) (profileIndex : Fin 8)
    (key : Key) (lines : List Line) :
    readLines profileIndex key (lines ++ e) = readLines profileIndex key lines := by
  rcases he with rfl | rfl
  · rw [List.append_nil]
  · rw [readLines, iniReadValue_append_nil key.text_ne_nil, readLines]

theorem readStringValue_eq (h : Short (texts content)) (profileIndex : Fin 8) (key : Key) :
    readStringValue profileIndex key content = readLines profileIndex key (texts content) := by
  obtain ⟨e, he, hreads⟩ := reads_eq h
  rw [readStringValue, hreads, readLines_append_end he]

end Strings

/-! ## Writing a key -/

section Edits

variable {key : Key} {profileIndex : Fin 8} {pre mid rest base : List Line}
  {header line : Line} {val : List UInt8} {ws : Writes}

theorem Settled.of_append {key : Line} {rest' : List Line} (h : Settled key (rest ++ rest')) :
    Settled key rest := by
  induction rest with
  | nil => trivial
  | cons l rest ih =>
    rw [List.cons_append, Settled] at h
    rw [Settled]
    split
    next hl => rwa [if_pos hl] at h
    next hl =>
      rw [if_neg hl] at h
      exact h.imp_right ih

/-- A written key is read as it was written. -/
theorem readLines_written (hfound : Found (sect profileIndex) key.text pre header mid line)
    (hsettled : Settled key.text rest) (hzero : 0 ∉ val) (hends : ∀ b ∈ val, b ≠ 13 ∧ b ≠ nl)
    (hlen : val.length < 240) :
    readLines profileIndex key (pre ++ header :: (mid ++ strWrite key.text val :: rest)) = val := by
  have hfound' : Found (sect profileIndex) key.text pre header mid (strWrite key.text val) :=
    { hfound with begins := (named_strWrite key val).begins }
  rw [readLines, hfound'.iniReadValue (head_sect profileIndex) (valueOf_strWrite key.text val),
    readKeys_settled hsettled, string_endLines hzero hends (by omega)]

/-- The other keys are read as before. -/
theorem readLines_other (hfound : Found (sect profileIndex) key.text pre header mid line)
    (hnamed : Named key.text line) {p : Fin 8} {k : Key} (hne : (p, k) ≠ (profileIndex, key)) :
    readLines p k (pre ++ header :: (mid ++ strWrite key.text val :: rest)) =
      readLines p k (pre ++ header :: (mid ++ line :: rest)) := by
  have hwritten := named_strWrite key val
  rw [readLines, readLines]
  congr 1
  by_cases hk : k = key
  · have hp : p ≠ profileIndex := fun hp ↦ hne (by rw [hp, hk])
    have hother : ¬ sect p <+: header := fun h ↦ hp (sect_eq_of_begins h hfound.section_header)
    exact iniReadValue_other (head_sect p) k.head_text k.text_ne_nil
      (isHeader_of_section (head_sect profileIndex) hfound.section_header) hother
      (fun l hl ↦ (hfound.passed l hl).2) hwritten.isHeader hnamed.isHeader
  · have hno {l : Line} (hl : Named key.text l) : ¬ k.text <+: l := fun h ↦
      hk (Key.eq_of_begins h hl.begins)
    have happend (l : Line) : pre ++ header :: (mid ++ l :: rest) =
        (pre ++ header :: mid) ++ l :: rest := by
      rw [List.append_assoc]
      rfl
    rw [happend, happend]
    exact iniReadValue_replace (head_sect p) (hno hwritten) (hno hnamed) hwritten.isHeader
      hnamed.isHeader

theorem Kept.refl (ws : Writes) (header : Line) (ls : List Line) : Kept ws header ls ls := by
  induction ls generalizing header with
  | nil => exact .nil header
  | cons l ls ih => exact .same (ih _)

theorem Kept.mono {ws' : Writes} (hsub : ws ⊆ ws') {ls ls' : List Line}
    (h : Kept ws header ls ls') : Kept ws' header ls ls' := by
  induction h with
  | nil header => exact .nil header
  | same _ ih => exact .same ih
  | written hmem hsect hnamed _ ih => exact .written (hsub hmem) hsect hnamed ih

/-- A line of a written key is that key's. -/
theorem eq_of_named_strWrite {k : Key} (h : Named key.text (strWrite k.text val)) : k = key :=
  Key.eq_of_begins (named_strWrite k val).begins h.begins

/-- One more key is written under the header in force. -/
theorem Kept.write {h₀ : Line} (h : Kept ws h₀ base (pre ++ line :: rest))
    (hheader : sect profileIndex <+: pre.foldl headerAfter h₀) (hnamed : Named key.text line) :
    Kept (((profileIndex, key), val) :: ws) h₀ base (pre ++ strWrite key.text val :: rest) := by
  have hsub : ws ⊆ ((profileIndex, key), val) :: ws := List.subset_cons_self _ _
  have hafter {h₀ l : Line} {k : Key} (hl : Named k.text l) : headerAfter h₀ l = h₀ := by
    rw [headerAfter, hl.isHeader, if_neg Bool.false_ne_true]
  induction pre generalizing h₀ base with
  | nil =>
    cases h with
    | same h =>
      rw [hafter hnamed] at h
      exact .written List.mem_cons_self hheader hnamed (h.mono hsub)
    | written hmem hsect hnamed' h =>
      obtain rfl := eq_of_named_strWrite hnamed
      exact .written List.mem_cons_self hheader hnamed' (h.mono hsub)
  | cons l pre ih =>
    cases h with
    | same h => exact .same (ih h hheader)
    | @written _ _ _ _ _ k v hmem hsect hnamed' h =>
      rw [List.foldl_cons, hafter (named_strWrite k v)] at hheader
      exact .written (hsub hmem) hsect hnamed' (ih h hheader)

theorem foldl_headerAfter (hmid : ∀ l ∈ mid, isHeader l = false) :
    mid.foldl headerAfter header = header := by
  induction mid with
  | nil => rfl
  | cons l mid ih =>
    obtain ⟨hl, hmid⟩ := List.forall_mem_cons.mp hmid
    rw [List.foldl_cons, headerAfter, hl, if_neg Bool.false_ne_true, ih hmid]

/-- The lines are those of the file with some keys written. -/
structure Edited (content : List UInt8) (ws : Writes) (lines : List Line) : Prop where
  read : ∀ p k, readLines p k lines =
    (ws.lookup (p, k)).getD (readLines p k (texts content))
  kept : Kept ws [] (texts content) lines

theorem Edited.refl (content : List UInt8) : Edited content [] (texts content) where
  read _ _ := rfl
  kept := Kept.refl [] [] _

theorem Edited.write {content : List UInt8}
    (h : Edited content ws (pre ++ header :: (mid ++ line :: rest)))
    (hfound : Found (sect profileIndex) key.text pre header mid line)
    (hnamed : Named key.text line) (hsettled : Settled key.text rest) (hzero : 0 ∉ val)
    (hends : ∀ b ∈ val, b ≠ 13 ∧ b ≠ nl) (hlen : val.length < 240) :
    Edited content (((profileIndex, key), val) :: ws)
      (pre ++ header :: (mid ++ strWrite key.text val :: rest)) where
  read p k := by
    by_cases heq : (p, k) = (profileIndex, key)
    · obtain ⟨rfl, rfl⟩ := Prod.mk.inj heq
      rw [readLines_written hfound hsettled hzero hends hlen, List.lookup_cons_self]
      rfl
    · rw [readLines_other hfound hnamed heq, h.read, List.lookup_cons, beq_eq_false_iff_ne.mpr heq]
  kept := by
    have happend (l : Line) : pre ++ header :: (mid ++ l :: rest) =
        (pre ++ header :: mid) ++ l :: rest := by
      rw [List.append_assoc]
      rfl
    have hkept := h.kept
    rw [happend] at hkept ⊢
    refine hkept.write ?_ hnamed
    have hheader : isHeader header := isHeader_of_section (head_sect _) hfound.section_header
    rw [List.foldl_append, List.foldl_cons, headerAfter, if_pos hheader,
      foldl_headerAfter fun l hl ↦ (hfound.passed l hl).2]
    exact hfound.section_header

end Edits

/-! ## The places -/

section Places

variable {doc places e : List Line} {pre rest rest' : List Line} {line : Line} {m : ℕ}

/-- The places of some lines. -/
def placesOf (doc : List Line) : List Line := doc ++ List.replicate (80 - doc.length) []

theorem overlay_nil (l : Line) : overlay [] l = l := by
  rw [overlay, List.drop_nil, List.append_nil]

theorem overlay_self (l : Line) : overlay l l = l := by
  rw [overlay, List.drop_length, List.append_nil]

/-- Lines are copied into places that are empty, or hold them already. -/
theorem loadLines_eq (he : e = [] ∨ e = [[]]) (hplaces : places = List.replicate doc.length [] ∨
    places = doc) (m : ℕ) :
    loadLines (doc ++ e) (places ++ List.replicate m []) = some (doc ++ List.replicate m []) := by
  have hend : loadLines e (List.replicate m []) = some (List.replicate m []) := by
    rcases he with rfl | rfl
    · rw [loadLines]
    · cases m with
      | zero => rfl
      | succ m =>
        rw [List.replicate_succ, loadLines, loadLines, Option.map_some, overlay_self]
  induction doc generalizing places with
  | nil =>
    have hnil : places = [] := hplaces.elim id id
    rw [hnil]
    exact hend
  | cons l doc ih =>
    rcases hplaces with rfl | rfl
    · rw [List.length_cons, List.replicate_succ, List.cons_append, List.cons_append, loadLines,
        ih (.inl rfl), Option.map_some, overlay_nil]
      rfl
    · rw [List.cons_append, List.cons_append, loadLines, ih (.inr rfl), Option.map_some,
        overlay_self]

theorem length_placesOf (h : doc.length ≤ 80) : (placesOf doc).length = 80 := by
  rw [placesOf, List.length_append, List.length_replicate]
  omega

theorem flatten_take_placesOf (h : doc.length ≤ m) :
    ((placesOf doc).take m).flatten = doc.flatten := by
  rw [placesOf, List.take_append, List.take_of_length_le h, List.take_replicate,
    List.flatten_append, List.flatten_replicate_nil, List.append_nil]

/-- A line that is found is none of the empty places. -/
theorem exists_rest (h : doc ++ List.replicate m [] = pre ++ line :: rest) (hne : line ≠ []) :
    ∃ rest', doc = pre ++ line :: rest' ∧ rest = rest' ++ List.replicate m [] := by
  rcases List.append_eq_append_iff.mp h with ⟨xs, -, hxs⟩ | ⟨xs, hdoc, hxs⟩
  · have hmem : line ∈ List.replicate m ([] : Line) := by
      rw [hxs]
      exact List.mem_append_right _ List.mem_cons_self
    exact absurd (List.eq_of_mem_replicate hmem) hne
  · cases xs with
    | nil =>
      have hmem : line ∈ List.replicate m ([] : Line) := by
        rw [List.nil_append] at hxs
        rw [← hxs]
        exact List.mem_cons_self
      exact absurd (List.eq_of_mem_replicate hmem) hne
    | cons x xs =>
      obtain ⟨rfl, rfl⟩ := List.cons.inj hxs
      exact ⟨xs, hdoc, rfl⟩

end Places

end Wwan.FibocomDial.Ini
