import Wwan.FibocomDial.ProfileIni

/-!
# Sessions of `multi-pdn-manager`

A careful session is in one of two states. Either nothing was loaded, and then nothing was written;
or the places hold the lines of the file with the values that were written since, and the file holds
those that were saved. So the file survives.
-/

namespace Wwan.FibocomDial.Ini

open Lines Bytes Text QuectelCm

/-! ## Numbers -/

section Numbers

variable {val : ℤ}

theorem numeral_append_singleton (base : ℕ) (digits : List UInt8) (b : UInt8) :
    numeral base (digits ++ [b]) = numeral base digits * base + digitValue b := by
  rw [numeral, List.foldl_append]
  rfl

theorem digitValue_digitChar :
    ∀ d < 10, digitValue (UInt8.ofNat (Nat.digitChar d).toNat) = d := by decide

theorem numeral_toDigits (n : ℕ) :
    numeral 10 ((Nat.toDigits 10 n).map fun c ↦ UInt8.ofNat c.toNat) = n := by
  induction n using Nat.strongRecOn with
  | _ n ih =>
    rcases Nat.lt_or_ge n 10 with h | h
    · rw [Nat.toDigits_of_lt_base h]
      exact (numeral_append_singleton 10 [] _).trans
        ((Nat.zero_add _).trans (digitValue_digitChar n h))
    · rw [Nat.toDigits_of_base_le (by decide) h, List.map_append, List.map_singleton,
        numeral_append_singleton, ih _ (Nat.div_lt_self (by omega) (by decide)),
        digitValue_digitChar _ (Nat.mod_lt n (by decide))]
      exact Nat.div_add_mod' n 10

theorem digitValue_of_mem_toDigits {n : ℕ} {b : UInt8}
    (h : b ∈ (Nat.toDigits 10 n).map fun c ↦ UInt8.ofNat c.toNat) : digitValue b < 10 := by
  obtain ⟨hlow, hhigh⟩ := of_mem_toDigits h
  rw [digitValue, if_pos ⟨UInt8.le_iff_toNat_le.mpr hlow, UInt8.le_iff_toNat_le.mpr hhigh⟩]
  omega

theorem signed_natAbs (val : ℤ) :
    (if decide (val < 0) then -(val.natAbs : ℤ) else val.natAbs) = val := by
  by_cases hneg : val < 0
  · rw [decide_eq_true hneg, if_pos rfl]
    omega
  · rw [decide_eq_false hneg, if_neg Bool.false_ne_true]
    omega

/-- An int as it is printed. -/
def decText (val : ℤ) (hlow : -2 ^ 31 ≤ val) (hhigh : val < 2 ^ 31) : DecText where
  neg := decide (val < 0)
  digits := (Nat.toDigits 10 val.natAbs).map fun c ↦ UInt8.ofNat c.toNat
  ne h := Nat.toDigits_ne_nil (List.map_eq_nil_iff.mp h)
  isDigit _ h := digitValue_of_mem_toDigits h
  low := by
    rw [numeral_toDigits, signed_natAbs]
    exact hlow
  high := by
    rw [numeral_toDigits, signed_natAbs]
    exact hhigh

/-- `atoi` reads what `%d` writes. -/
theorem atoi_decimal (w : LongWidth) (hlow : -2 ^ 31 ≤ val) (hhigh : val < 2 ^ 31) :
    atoi w (decimal val) = val := by
  have htext : decimal val = (AtField.dec (decText val hlow hhigh)).text := by
    have hneg : val < 0 ↔ (decText val hlow hhigh).neg = true := decide_eq_true_iff.symm
    exact congrArg (· ++ _) (if_congr hneg rfl rfl)
  have hvalue : (decText val hlow hhigh).value = val := by
    rw [DecText.value, decText, numeral_toDigits, signed_natAbs]
  rw [atoi, htext, DecText.strtol_text, hvalue]
  rfl

theorem ends_of_mem_decimal {b : UInt8} (h : b ∈ decimal val) : b ≠ 13 ∧ b ≠ nl := by
  rcases of_mem_decimal h with rfl | ⟨hlow, -⟩
  · decide
  · constructor
    · rintro rfl
      exact absurd hlow (by decide)
    · rintro rfl
      exact absurd hlow (by decide)

theorem length_decimal (hlow : -2 ^ 31 ≤ val) (hhigh : val < 2 ^ 31) :
    (decimal val).length < 240 := by
  have hdigits : (Nat.toDigits 10 val.natAbs).length ≤ 10 :=
    (Nat.length_toDigits_le_iff (by decide) (by decide)).mpr (by omega)
  rw [decimal, List.length_append, List.length_map]
  split
  · rw [List.length_singleton]
    omega
  · rw [List.length_nil]
    omega

end Numbers

/-! ## Invariant -/

/-- Nothing was loaded yet. -/
structure Fresh (content : List UInt8) (s : Session) (c : Config) : Prop where
  file : c.file = content
  fileContents : c.fileContents = placesOf []
  fileIndex : c.fileIndex = 0
  written : s.written = []
  saved : s.saved = []

/-- The places hold the lines of the file with what was written; the file holds what was saved. -/
structure Loaded (content : List UInt8) (s : Session) (c : Config) (doc : List Line) : Prop where
  fileContents : c.fileContents = placesOf doc
  length_le : doc.length ≤ c.fileIndex
  fileIndex_ne : c.fileIndex ≠ 0
  fileIndex_lt : c.fileIndex < 80
  wellFormed : WellFormed doc
  short : Short doc
  short_content : Short (texts content)
  short_file : Short (texts c.file)
  written : Edited content s.written doc
  saved : Edited content s.saved (texts c.file)

/-- What a careful session keeps. -/
def Intact (content : List UInt8) (s : Session) : Prop :=
  ∃ c, s.config = some c ∧ (Fresh content s c ∨ ∃ doc, Loaded content s c doc)

section Steps

variable {w : LongWidth} {content file val : List UInt8} {s : Session} {c : Config}
  {doc : List Line} {profileIndex : Fin 8} {key : Key} {qmapNum : ℤ}

theorem short_texts (hlines : ∀ t ∈ texts content, (lineOf t).length < 255)
    (hzero : 0 ∉ content) : Short (texts content) := by
  intro t ht
  constructor
  · exact (length_le_lineOf (isText_of_mem ht)).trans (hlines t ht)
  · exact fun hmem ↦ hzero (mem_of_mem_texts ht hmem)

theorem reads_ne_nil (file : List UInt8) : reads file ≠ [] := by
  have hcons (eof : Bool) (p : Line) (ps : List Line) :
      (if eof then p :: ps else p :: ps ++ [[]]) ≠ [] := by
    cases eof
    all_goals exact List.cons_ne_nil p _
  rw [reads]
  intro h
  have hnil := List.map_eq_nil_iff.mp h
  cases hps : pieces 255 255 file with
  | nil =>
    rw [hps] at hnil
    exact absurd hnil (by decide)
  | cons p ps =>
    rw [hps] at hnil
    exact hcons _ p ps hnil

theorem length_texts_le_reads (h : Short (texts file)) :
    (texts file).length ≤ (reads file).length := by
  obtain ⟨e, -, heq⟩ := reads_eq h
  rw [heq, List.length_append]
  exact Nat.le_add_right _ _

theorem take_placesOf {m : ℕ} (h : doc.length ≤ m) :
    ∃ j, (placesOf doc).take m = doc ++ List.replicate j [] := by
  refine ⟨min (m - doc.length) (80 - doc.length), ?_⟩
  rw [placesOf, List.take_append, List.take_of_length_le h, List.take_replicate]

/-- A load into memory that is empty, or holds the file. -/
theorem loadConfigFromIni_eq (hq : ¬ (qmapNum = 0 ∨ qmapNum = -1)) (hshort : Short (texts c.file))
    (hreads : (reads c.file).length < 80)
    (hplaces : c.fileContents = placesOf [] ∨ c.fileContents = placesOf (texts c.file)) :
    ∃ c', loadConfigFromIni w qmapNum c = some c' ∧ c'.file = c.file ∧
      c'.fileContents = placesOf (texts c.file) ∧ c'.fileIndex = (reads c.file).length := by
  obtain ⟨e, he, heq⟩ := reads_eq hshort
  have hlength : (texts c.file).length ≤ 80 := by
    rw [heq, List.length_append] at hreads
    omega
  have hload : loadLines (reads c.file) c.fileContents = some (placesOf (texts c.file)) := by
    rw [heq, placesOf]
    rcases hplaces with h | h
    · have hsplit : placesOf [] = List.replicate (texts c.file).length [] ++
          List.replicate (80 - (texts c.file).length) [] := by
        rw [List.replicate_append_replicate, Nat.add_sub_cancel' hlength]
        rfl
      rw [h, hsplit]
      exact loadLines_eq he (.inl rfl) _
    · rw [h, placesOf]
      exact loadLines_eq he (.inr rfl) _
  rw [loadConfigFromIni, if_neg hq, hload, Option.map_some]
  exact ⟨_, rfl, rfl, rfl, rfl⟩

theorem Fresh.load (h : Fresh content s c) (hq : ¬ (qmapNum = 0 ∨ qmapNum = -1))
    (hlines : ∀ t ∈ texts content, (lineOf t).length < 255) (hclean : LoadsClean c) :
    ∃ c', loadConfigFromIni w qmapNum c = some c' ∧ Loaded content s c' (texts content) := by
  obtain ⟨hzero, hreads, -⟩ := hclean
  have hfile := h.file
  have hshort : Short (texts content) := short_texts hlines (hfile ▸ hzero)
  obtain ⟨c', hload, hfile', hcontents, hindex⟩ :=
    loadConfigFromIni_eq hq (hfile ▸ hshort) hreads (.inl h.fileContents)
  rw [hfile] at hfile' hcontents hindex hreads
  refine ⟨c', hload, ?_⟩
  exact {
    fileContents := hcontents
    length_le := by rw [hindex]; exact length_texts_le_reads hshort
    fileIndex_ne := by rw [hindex]; exact fun h ↦ reads_ne_nil _ (List.length_eq_zero_iff.mp h)
    fileIndex_lt := by rw [hindex]; exact hreads
    wellFormed := wellFormed_texts content
    short := hshort
    short_content := hshort
    short_file := by rw [hfile']; exact hshort
    written := by rw [h.written]; exact Edited.refl content
    saved := by rw [h.saved, hfile']; exact Edited.refl content }

theorem Loaded.load (h : Loaded content s c doc) (hq : ¬ (qmapNum = 0 ∨ qmapNum = -1))
    (hclean : LoadsClean c) :
    ∃ c', loadConfigFromIni w qmapNum c = some c' ∧ Loaded content s c' doc := by
  obtain ⟨-, hreads, hindex | hflatten⟩ := hclean
  · exact absurd hindex h.fileIndex_ne
  · have hfile : texts c.file = doc := by
      rw [← hflatten, h.fileContents, placesOf, List.flatten_append, List.flatten_replicate_nil,
        List.append_nil, texts_flatten h.wellFormed]
    obtain ⟨c', hload, hfile', hcontents, hindex⟩ :=
      loadConfigFromIni_eq hq h.short_file hreads (.inr (hfile.symm ▸ h.fileContents))
    refine ⟨c', hload, ?_⟩
    exact { h with
      fileContents := hfile ▸ hcontents
      length_le := by rw [hindex, ← hfile]; exact length_texts_le_reads h.short_file
      fileIndex_ne := by rw [hindex]; exact fun h ↦ reads_ne_nil _ (List.length_eq_zero_iff.mp h)
      fileIndex_lt := by rw [hindex]; exact hreads
      short_file := by rw [hfile']; exact h.short_file
      saved := by rw [hfile']; exact h.saved }

/-- An editable line is one of the file. -/
theorem Loaded.exists_line (h : Loaded content s c doc) (hedit : Editable profileIndex key c) :
    ∃ pre header mid line rest, doc = pre ++ header :: (mid ++ line :: rest) ∧
      Found (sect profileIndex) key.text pre header mid line ∧ Named key.text line ∧
      Settled key.text rest := by
  obtain ⟨pre, header, mid, line, rest, htake, hfound, hnamed, hsettled⟩ := hedit
  obtain ⟨j, hj⟩ := take_placesOf (h.length_le.trans (Nat.le_succ _))
  have happend (rest : List Line) : pre ++ header :: (mid ++ line :: rest) =
      (pre ++ header :: mid) ++ line :: rest := by
    rw [List.append_assoc]
    rfl
  rw [h.fileContents, hj, happend] at htake
  obtain ⟨rest', hdoc, rfl⟩ := exists_rest htake hnamed.ne_nil
  exact ⟨pre, header, mid, line, rest', hdoc.trans (happend rest').symm, hfound, hnamed,
    hsettled.of_append⟩

theorem placesOf_line {pre mid rest : List Line} {header line : Line} :
    placesOf (pre ++ header :: (mid ++ line :: rest)) =
      pre ++ header :: (mid ++ line :: (rest ++
        List.replicate (80 - (pre.length + (mid.length + (rest.length + 1) + 1))) [])) := by
  simp only [placesOf, List.length_append, List.length_cons, List.append_assoc, List.cons_append]

/-- `strWrite` is a line. -/
theorem strWrite_eq (key : Key) (hends : ∀ b ∈ val, b ≠ 13 ∧ b ≠ nl) :
    ∃ l, nl ∉ l ∧ strWrite key.text val = l ++ [nl] := by
  refine ⟨key.text ++ equals :: val, ?_, ?_⟩
  · intro hmem
    rcases List.mem_append.mp hmem with hmem | hmem
    · exact key.not_mem_text.1 hmem
    · rcases List.mem_cons.mp hmem with hmem | hmem
      · exact absurd hmem (by decide)
      · exact (hends nl hmem).2 rfl
  · rw [strWrite, List.append_assoc, List.cons_append]

theorem zero_not_mem_strWrite (key : Key) (hzero : 0 ∉ val) : 0 ∉ strWrite key.text val := by
  intro hmem
  rcases List.mem_append.mp hmem with hmem | hmem
  · exact key.not_mem_text.2 hmem
  · rcases List.mem_cons.mp hmem with hmem | hmem
    · exact absurd hmem (by decide)
    · rcases List.mem_append.mp hmem with hmem | hmem
      · exact hzero hmem
      · exact absurd (List.mem_singleton.mp hmem) (by decide)

theorem length_strWrite (key : Key) (hlen : val.length < 240) :
    (strWrite key.text val).length < 250 := by
  have hkey := key.length_text_le
  rw [strWrite, List.length_append, List.length_cons, List.length_append, List.length_singleton]
  omega

theorem Short.replace {pre rest : List Line} {line line' : Line}
    (h : Short (pre ++ line :: rest)) (hline : line'.length ≤ 255 ∧ 0 ∉ line') :
    Short (pre ++ line' :: rest) := by
  intro l hl
  rcases List.mem_append.mp hl with hl | hl
  · exact h l (List.mem_append_left _ hl)
  · rcases List.mem_cons.mp hl with rfl | hl
    · exact hline
    · exact h l (List.mem_append_right _ (List.mem_cons_of_mem line hl))

theorem Loaded.write (h : Loaded content s c doc) (hedit : Editable profileIndex key c)
    (hzero : 0 ∉ val) (hends : ∀ b ∈ val, b ≠ 13 ∧ b ≠ nl) (hlen : val.length < 240) :
    ∃ c' doc', writeStringVlaue profileIndex key val c = some c' ∧
      Loaded content (s.write profileIndex key val) c' doc' := by
  obtain ⟨pre, header, mid, line, rest, rfl, hfound, hnamed, hsettled⟩ := h.exists_line hedit
  have hstr := length_strWrite key hlen
  have hlength := h.length_le
  rw [List.length_append, List.length_cons, List.length_append, List.length_cons] at hlength
  have hini : iniWriteValue (sect profileIndex) key.text (strWrite key.text val)
      (c.fileIndex + 1) c.fileContents =
        some (placesOf (pre ++ header :: (mid ++ strWrite key.text val :: rest))) := by
    rw [h.fileContents, placesOf_line, placesOf_line]
    exact hfound.iniWriteValue (head_sect profileIndex) (by omega)
  have hwrite : writeStringVlaue profileIndex key val c = some { c with
      fileContents := placesOf (pre ++ header :: (mid ++ strWrite key.text val :: rest)) } := by
    have hfits : ¬ 256 ≤ (strWrite key.text val).length := by omega
    simp only [writeStringVlaue, if_neg hfits, hini, Option.map_some]
  have happend (line : Line) : pre ++ header :: (mid ++ line :: rest) =
      (pre ++ header :: mid) ++ line :: rest := by
    rw [List.append_assoc]
    rfl
  have hwellFormed := h.wellFormed
  have hshort := h.short
  rw [happend] at hwellFormed hshort
  obtain ⟨l, hl, hline⟩ := strWrite_eq key hends
  refine ⟨_, pre ++ header :: (mid ++ strWrite key.text val :: rest), hwrite, ?_⟩
  exact {
    fileContents := rfl
    length_le := by
      rw [List.length_append, List.length_cons, List.length_append, List.length_cons]
      exact hlength
    fileIndex_ne := h.fileIndex_ne
    fileIndex_lt := h.fileIndex_lt
    wellFormed := by
      rw [happend, hline]
      exact hwellFormed.replace hl
    short := by
      rw [happend]
      exact hshort.replace ⟨by omega, zero_not_mem_strWrite key hzero⟩
    short_content := h.short_content
    short_file := h.short_file
    written := h.written.write hfound hnamed hsettled hzero hends hlen
    saved := h.saved }

/-- Before a load there is no line to edit. -/
theorem Fresh.not_editable (h : Fresh content s c) : ¬ Editable profileIndex key c := by
  rintro ⟨pre, header, mid, line, rest, htake, -⟩
  have hlength := congrArg List.length htake
  rw [h.fileContents, h.fileIndex, List.length_append, List.length_cons, List.length_append,
    List.length_cons] at hlength
  have hone : ((placesOf []).take (0 + 1)).length = 1 := rfl
  omega

theorem Loaded.save (h : Loaded content s c doc) :
    ∃ c', saveConfigToIni c = some c' ∧ Loaded content { s with saved := s.written } c' doc := by
  have hindex := h.fileIndex_lt
  have hlength := h.length_le
  have hplaces : c.fileContents.length = 80 := by
    rw [h.fileContents, length_placesOf (by omega)]
  have hfile : (c.fileContents.take (c.fileIndex + 1)).flatten = doc.flatten := by
    rw [h.fileContents, flatten_take_placesOf (by omega)]
  have htexts := texts_flatten h.wellFormed
  rw [saveConfigToIni, if_pos (by omega), hfile]
  refine ⟨_, rfl, ?_⟩
  exact { h with
    short_file := by rw [htexts]; exact h.short
    saved := by rw [htexts]; exact h.written }

theorem Fresh.save (h : Fresh content s c) (hfile : c.file = []) :
    ∃ c', saveConfigToIni c = some c' ∧ Fresh content { s with saved := s.written } c' := by
  have hcontent : content = [] := h.file.symm.trans hfile
  rw [saveConfigToIni, h.fileContents, h.fileIndex, if_pos (by decide)]
  refine ⟨_, rfl, ?_⟩
  exact ⟨hcontent.symm, rfl, rfl, h.written, h.written⟩

/-- One event of a careful session. -/
theorem Intact.next (hlines : ∀ t ∈ texts content, (lineOf t).length < 255)
    (h : Intact content s) {e : Event} (henabled : s.enabled e) (hcareful : Careful s e) :
    Intact content (s.next w e) := by
  obtain ⟨c, hc, hstate⟩ := h
  have hstep := hcareful c hc
  have hwrite {profileIndex : Fin 8} {key : Key} {val : List UInt8} (hzero : 0 ∉ val)
      (hends : ∀ b ∈ val, b ≠ 13 ∧ b ≠ nl) (hlen : val.length < 240)
      (hedit : Editable profileIndex key c) : Intact content (s.write profileIndex key val) := by
    rcases hstate with h | ⟨doc, h⟩
    · exact absurd hedit h.not_editable
    · obtain ⟨c', doc', hwrite, h'⟩ := h.write hedit hzero hends hlen
      exact ⟨c', by rw [Session.write, hc]; exact hwrite, .inr ⟨doc', h'⟩⟩
  cases e with
  | load qmapNum =>
    by_cases hq : qmapNum = 0 ∨ qmapNum = -1
    · refine ⟨c, ?_, ?_⟩
      · rw [Session.next, hc]
        exact if_pos hq
      · rcases hstate with h | ⟨doc, h⟩
        · exact .inl { h with }
        · exact .inr ⟨doc, { h with }⟩
    · have hclean : LoadsClean c :=
        (hstep.resolve_left fun h ↦ hq (.inl h)).resolve_left fun h ↦ hq (.inr h)
      rcases hstate with h | ⟨doc, h⟩
      · obtain ⟨c', hload, h'⟩ := h.load (w := w) hq hlines hclean
        exact ⟨c', by rw [Session.next, hc]; exact hload, .inr ⟨_, { h' with }⟩⟩
      · obtain ⟨c', hload, h'⟩ := h.load (w := w) hq hclean
        exact ⟨c', by rw [Session.next, hc]; exact hload, .inr ⟨_, { h' with }⟩⟩
  | writeString profileIndex key val =>
    exact hwrite henabled.2 hstep.1 henabled.1 hstep.2
  | writeInt profileIndex key val =>
    exact hwrite (zero_not_mem_decimal val) (fun b hb ↦ ends_of_mem_decimal hb)
      (length_decimal henabled.1 henabled.2) hstep
  | save =>
    rcases hstate with h | ⟨doc, h⟩
    · obtain ⟨c', hsave, h'⟩ := h.save (hstep.resolve_left fun hne ↦ hne h.fileIndex)
      exact ⟨c', by rw [Session.next, hc]; exact hsave, .inl { h' with }⟩
    · obtain ⟨c', hsave, h'⟩ := h.save
      exact ⟨c', by rw [Session.next, hc]; exact hsave, .inr ⟨_, { h' with }⟩⟩

theorem Intact.survives (w : LongWidth) (h : Intact content s) : Survives w content s := by
  obtain ⟨c, hc, h⟩ := h
  have hread : ∀ profileIndex key, readStringValue profileIndex key c.file =
      (s.saved.lookup (profileIndex, key)).getD (readStringValue profileIndex key content) := by
    intro profileIndex key
    rcases h with h | ⟨doc, h⟩
    · rw [h.file, h.saved]
      rfl
    · rw [readStringValue_eq h.short_file, h.saved.read, readStringValue_eq h.short_content]
  refine ⟨c, hc, hread, ?_, ?_⟩
  · intro profileIndex key val hlow hhigh hlookup
    rw [readIntValue, hread, hlookup]
    exact atoi_decimal w hlow hhigh
  · rcases h with h | ⟨doc, h⟩
    · rw [h.file]
      exact Kept.refl _ _ _
    · exact h.saved.kept

end Steps

/-! ## The file survives -/

/-- Careful sessions keep a file whose lines `fgets` gets whole: a key is read as it was last
written, the others and all other lines are as they were, and all accesses are inside. -/
theorem survives_of_careful (w : LongWidth) {content : List UInt8}
    (hlines : ∀ t ∈ texts content, (lineOf t).length < 255) {s : Session}
    (h : (system w content).Reach Careful s) : Survives w content s := by
  have hinit : Intact content (system w content).init :=
    ⟨_, rfl, .inl ⟨rfl, rfl, rfl, rfl, rfl⟩⟩
  have hintact : Intact content s :=
    h.invariant hinit fun s e hs henabled hcareful ↦ hs.next hlines henabled hcareful
  exact hintact.survives w

/-! ## A file with all sections -/

/-- The lines of a section. -/
def sectionLines (profileIndex : Fin 8) (lines : List Line) : List Line :=
  ((lines.dropWhile fun l ↦ ¬ sect profileIndex <+: l).drop 1).takeWhile fun l ↦ ¬ isHeader l

/-- Every section has all keys. -/
def Complete (content : List UInt8) : Prop :=
  ∀ (profileIndex : Fin 8) (key : Key), ∃ line ∈ sectionLines profileIndex (texts content),
    key.text ++ [equals] <+: line

/-- A section with its keys, and with lines in front of them. -/
def sectionText (profileIndex : Fin 8) (lines : List UInt8) : List UInt8 :=
  sect profileIndex ++ nl :: (lines ++
    ascii "apn=ctnet\nuser=\npassword=\nauth=0\nipfamily=1\npin=\n\n")

/-- A file with lines in front of the keys of the first section. -/
def iniFile (lines : List UInt8) : List UInt8 :=
  ascii "[Setting]\nqmap_num=4\n\n" ++ (List.finRange 8).flatMap fun profileIndex ↦
    sectionText profileIndex (if profileIndex = 0 then lines else [])

/-- The system of a 64-bit host. -/
def host (content : List UInt8) : System Session Event := system ⟨64, by decide⟩ content

/-- An APN is written and saved. -/
def editApn : List Event := [.load 4, .writeString 0 .apn (ascii "internet"), .save]

theorem enabled_internet : (ascii "internet").length < 240 ∧ 0 ∉ ascii "internet" := by
  decide +kernel

theorem eq_of_config {α : Type} {s : Session} {c : Config} (f : Config → α) {x : α}
    (hc : s.config = some c) (h : s.config.map f = some x) : f c = x := by
  rw [hc] at h
  exact Option.some.inj h

theorem survives_editApn : Survives ⟨64, by decide⟩ (iniFile [])
    ((host (iniFile [])).exec (host (iniFile [])).init editApn) := by
  apply survives_of_careful ⟨64, by decide⟩ (by decide +kernel)
  apply System.Reach.exec .init
  refine ⟨trivial, fun c hc ↦ ?_, enabled_internet, fun c hc ↦ ?_, trivial, fun c hc ↦ ?_, trivial⟩
  · have hfile : c.file = iniFile [] := eq_of_config Config.file hc rfl
    have hindex : c.fileIndex = 0 := eq_of_config Config.fileIndex hc rfl
    refine .inr (.inr ⟨?_, ?_, .inl hindex⟩)
    · rw [hfile]
      decide +kernel
    · rw [hfile]
      decide +kernel
  · have hlines : c.fileContents.take (c.fileIndex + 1) = texts (iniFile []) ++ [[], []] :=
      eq_of_config (fun c ↦ c.fileContents.take (c.fileIndex + 1)) hc (by decide +kernel)
    refine ⟨by decide +kernel, (texts (iniFile [])).take 3, ascii "[profile1]\n", [],
      ascii "apn=ctnet\n", (texts (iniFile [])).drop 5 ++ [[], []], ?_, ?_, ?_, ?_⟩
    · rw [hlines]
      decide +kernel
    · exact ⟨by decide +kernel, by decide +kernel, by decide +kernel, by decide +kernel⟩
    · exact ⟨[], ascii "ctnet\n", by decide +kernel, List.forall_mem_nil _⟩
    · decide +kernel
  · have hindex : c.fileIndex = 68 := eq_of_config Config.fileIndex hc (by decide +kernel)
    exact .inl (by rw [hindex]; decide)

/-- A line that only begins like the key is replaced, and the old value read again. -/
theorem not_survives_prefixed : ¬ ∀ content : List UInt8,
    (∀ t ∈ texts content, (lineOf t).length < 255) → Complete content →
      ∀ s, (host content).Reach (fun _ _ ↦ True) s →
        Survives ⟨64, by decide⟩ content s := by
  intro h
  have hcomplete : Complete (iniFile (ascii "apntype=ip\n")) := by
    have hkeys : ∀ key ∈ [Key.apn, .user, .password, .auth, .ipfamily, .pin], ∀ p : Fin 8,
        ∃ line ∈ sectionLines p (texts (iniFile (ascii "apntype=ip\n"))),
          key.text ++ [equals] <+: line := by
      decide +kernel
    intro profileIndex key
    refine hkeys key ?_ profileIndex
    cases key
    all_goals decide
  have halong : (host (iniFile (ascii "apntype=ip\n"))).Along (fun _ _ ↦ True)
      (host (iniFile (ascii "apntype=ip\n"))).init editApn :=
    ⟨trivial, trivial, enabled_internet, trivial, trivial, trivial, trivial⟩
  have hreach := System.Reach.exec .init halong
  obtain ⟨c, hc, hread, -⟩ := h _ (by decide +kernel) hcomplete _ hreach
  have hold : readStringValue 0 .apn c.file = ascii "ctnet" :=
    eq_of_config (fun c ↦ readStringValue 0 .apn c.file) hc (by decide +kernel)
  have hnew := hold.symm.trans (hread 0 .apn)
  exact absurd hnew (by decide +kernel)

end Wwan.FibocomDial.Ini
