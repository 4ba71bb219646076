import Wwan.Lib.Text

/-!
# `getpid_by_pdp`

The process that holds the connection of a PDP is looked for by the text of its command line. All
the command lines are read into one buffer of 512 bytes, of which a shorter one leaves the rest as
it was, and the text is searched for the program name and for `-n` with the number. What it shows
of a process is its arguments only as far as they are few, and it does not show where they end.
-/

namespace Wwan.QuectelCm

open Text

/-! ## The search -/

/-- The directories of `/proc` that have a `cmdline`. -/
inductive ProcDir
  | process (pid : ℕ) (pos : 0 < pid)
  | /-- `self` and `thread-self`. -/
    self
  deriving DecidableEq

/-- `atoi` of the name. -/
def ProcDir.pid : ProcDir → ℤ
  | process pid _ => pid
  | self => 0

/-- An entry that `glob` lists, and what `cmdline` contains: the arguments, a zero behind each one.
None is an entry that cannot be opened. -/
structure ProcEntry where
  dir : ProcDir
  cmdline : Option (List UInt8)

/-- `sizeof(cmdline)`. -/
def cmdlineSize : ℕ := 512

/-- `%d` -/
def decimal (n : ℤ) : List UInt8 :=
  (if n < 0 then [45] else []) ++ (Nat.toDigits 10 n.natAbs).map fun c ↦ UInt8.ofNat c.toNat

/-- `filter`, which is `-n %d`. -/
def pdpFilter (pdp : ℤ) : List UInt8 := [45, 110, 32] ++ decimal pdp

/-- The zeros become spaces, but for one at the end. -/
def spaced (c : List UInt8) : List UInt8 :=
  c.dropLast.map (fun b ↦ if b = 0 then 32 else b) ++ c.drop (c.length - 1)

/-- `read` into `cmdline`, and the loop over what was read. -/
def readCmdline (cmdline : List UInt8) (contents : List UInt8) : List UInt8 :=
  let new := contents.take cmdlineSize
  spaced new ++ cmdline.drop new.length

section Search

variable (pdp : ℤ) (programName behind : List UInt8)

/-- The test of the buffer. Without a zero in it, it is searched on in what is `behind` it. -/
def tests (cmdline : List UInt8) : Bool :=
  let text := (cmdline ++ behind).takeWhile (· ≠ 0)
  strstr text programName && strstr text (pdpFilter pdp)

/-- The loop over the entries. -/
def searchPdp : List UInt8 → List ProcEntry → ℤ
  | _, [] => -1
  | cmdline, e :: es =>
    match e.cmdline with
    | none => -1
    | some contents =>
      let cmdline := readCmdline cmdline contents
      if tests pdp programName behind cmdline then e.dir.pid else searchPdp cmdline es

/-- `getpid_by_pdp`, when `glob` lists these entries. -/
def getpidByPdp (entries : List ProcEntry) : ℤ :=
  searchPdp pdp programName behind (List.replicate cmdlineSize 0) entries

/-- The name behind the last slash of `argv[0]`. -/
def baseName (self : List UInt8) : List UInt8 := (self.reverse.takeWhile (· ≠ 47)).reverse

/-- `kill_data_call_pdp`, with the process that gets the `SIGINT`. -/
def killDataCallPdp (self : List UInt8) (entries : List ProcEntry) : Option ℤ :=
  let pid := getpidByPdp pdp (baseName self) behind entries
  if 0 < pid then some pid else none

end Search

/-! ## The law -/

/-- What `/proc` lists: a process once. -/
structure ProcListing where
  entries : List ProcEntry
  unique : ∀ e ∈ entries, ∀ e' ∈ entries, 0 < e.dir.pid → e.dir.pid = e'.dir.pid → e = e'

/-- `-n` and the number stand in a command line as two arguments, one behind the other. -/
def HasArguments (pdp : ℤ) (contents : List UInt8) : Prop :=
  ∃ pre post, contents = pre ++ ([45, 110, 0] ++ decimal pdp) ++ post ∧
    (pre = [] ∨ pre.getLast? = some 0) ∧ (post = [] ∨ post.head? = some 0)

/-- The command line contains the program name and the arguments. -/
def ProcEntry.Genuine (pdp : ℤ) (programName : List UInt8) (e : ProcEntry) : Prop :=
  ∃ contents, e.cmdline = some contents ∧ programName <:+: contents ∧ HasArguments pdp contents

namespace ProcListing

variable (l : ProcListing) (pdp : ℤ) (programName behind : List UInt8)

def AllOpen : Prop := ∀ e ∈ l.entries, e.cmdline.isSome

/-- A pid that is returned is that of a process with the arguments, and if there is one, such a pid
is returned. -/
structure Law (r : ℤ) : Prop where
  sound : 0 < r → ∃ e ∈ l.entries, e.dir.pid = r ∧ e.Genuine pdp programName
  complete : l.AllOpen → (∃ e ∈ l.entries, 0 < e.dir.pid ∧ e.Genuine pdp programName) →
    ∃ e ∈ l.entries, 0 < e.dir.pid ∧ e.dir.pid = r ∧ e.Genuine pdp programName

end ProcListing

/-! ## What the buffer shows -/

/-- The text that is searched for a command line: its first 512 bytes with spaces for the zeros, up
to a zero at the end of them. Without one the text goes on with what `old` ones have left, and with
what is `behind` the buffer. -/
def shownText (behind old contents : List UInt8) : List UInt8 :=
  let new := contents.take cmdlineSize
  if new.getLast? = some 0 then new.dropLast.map fun b ↦ if b = 0 then 32 else b
  else (new.map fun b ↦ if b = 0 then 32 else b) ++
    (old.drop new.length ++ behind).takeWhile (· ≠ 0)

/-- The buffer after the command lines of these entries. -/
def bufferAfter (cmdline : List UInt8) (es : List ProcEntry) : List UInt8 :=
  es.foldl (fun cmdline e ↦ readCmdline cmdline (e.cmdline.getD [])) cmdline

section Shown

variable (pdp : ℤ) (programName behind cmdline : List UInt8)

/-- The text for `e`, behind the entries `es`, contains the program name and `-n` with the
number. -/
def Shown (es : List ProcEntry) (e : ProcEntry) : Prop :=
  ∃ contents, e.cmdline = some contents ∧
    programName <:+: shownText behind (bufferAfter cmdline es) contents ∧
      pdpFilter pdp <:+: shownText behind (bufferAfter cmdline es) contents

/-- It does so for the first time, and could be read up to there. -/
structure FirstShown (es : List ProcEntry) (e : ProcEntry) : Prop where
  before : ∀ ys y zs, es = ys ++ y :: zs →
    y.cmdline.isSome ∧ ¬ Shown pdp programName behind cmdline ys y
  shown : Shown pdp programName behind cmdline es e

end Shown

namespace ProcListing

variable (l : ProcListing) (pdp : ℤ) (programName behind : List UInt8)

/-- The entry stands behind `es`, and its text contains both strings. -/
def ShownAt (es : List ProcEntry) (e : ProcEntry) : Prop :=
  Shown pdp programName behind (List.replicate cmdlineSize 0) es e

/-- No process is mistaken for one with the arguments, or it stands behind an entry whose text
contains both strings or which cannot be opened; and if a process has the arguments, the text of one
contains both strings, and not that of `self` in front of it. -/
structure Distinguished : Prop where
  mistaken : ∀ es e es', l.entries = es ++ e :: es' → 0 < e.dir.pid →
    ShownAt pdp programName behind es e → ¬ e.Genuine pdp programName →
      ∃ ys y zs, es = ys ++ y :: zs ∧ (y.cmdline = none ∨ ShownAt pdp programName behind ys y)
  missed : l.AllOpen → (∃ e ∈ l.entries, 0 < e.dir.pid ∧ e.Genuine pdp programName) →
    ∃ es e es', l.entries = es ++ e :: es' ∧ 0 < e.dir.pid ∧ ShownAt pdp programName behind es e ∧
      ∀ ys y zs, es = ys ++ y :: zs → ShownAt pdp programName behind ys y → 0 < y.dir.pid

/-- The first entry that the buffer shows. -/
def First (e : ProcEntry) : Prop :=
  ∃ es es', l.entries = es ++ e :: es' ∧
    FirstShown pdp programName behind (List.replicate cmdlineSize 0) es e

end ProcListing

section Run

variable {pdp : ℤ} {programName behind cmdline contents : List UInt8} {es es' : List ProcEntry}
  {e : ProcEntry}

/-- Behind spaces the text goes on. -/
theorem takeWhile_spaces (t rest : List UInt8) :
    ((t.map fun b ↦ if b = 0 then (32 : UInt8) else b) ++ rest).takeWhile (· ≠ 0) =
      (t.map fun b ↦ if b = 0 then 32 else b) ++ rest.takeWhile (· ≠ 0) := by
  apply List.takeWhile_append_of_pos
  intro b hb
  obtain ⟨c, -, rfl⟩ := List.mem_map.mp hb
  split
  next => decide
  next hne => exact decide_eq_true hne

theorem text_readCmdline (old : List UInt8) :
    (readCmdline old contents ++ behind).takeWhile (· ≠ 0) = shownText behind old contents := by
  unfold readCmdline shownText
  generalize contents.take cmdlineSize = new
  dsimp only
  rcases List.eq_nil_or_concat new with rfl | ⟨init, b, rfl⟩
  · exact congrArg (List.takeWhile _) (congrArg (· ++ behind) (List.nil_append old))
  · rw [List.concat_eq_append, List.getLast?_concat, spaced, List.dropLast_concat,
      List.length_append, List.length_singleton, Nat.add_sub_cancel, List.drop_left,
      List.append_assoc, List.append_assoc, takeWhile_spaces]
    by_cases hb : b = 0
    · rw [if_pos (congrArg some hb), hb]
      exact List.append_nil _
    · rw [if_neg fun h ↦ hb (Option.some.inj h), List.map_append, List.map_singleton, if_neg hb,
        List.append_assoc, List.singleton_append, List.takeWhile_cons_of_pos (by simpa using hb)]
      rfl

/-- The test of the buffer is one of the text. -/
theorem shown_iff (h : e.cmdline = some contents) : Shown pdp programName behind cmdline [] e ↔
    tests pdp programName behind (readCmdline cmdline contents) := by
  rw [tests, text_readCmdline, Bool.and_eq_true, strstr_iff, strstr_iff]
  constructor
  · rintro ⟨contents', h', hshown⟩
    obtain rfl : contents = contents' := Option.some.inj (h.symm.trans h')
    exact hshown
  · intro hshown
    exact ⟨contents, h, hshown⟩

theorem shown_cons {y : ProcEntry} (h : y.cmdline = some contents) :
    Shown pdp programName behind cmdline (y :: es) e ↔
      Shown pdp programName behind (readCmdline cmdline contents) es e := by
  have hbuffer : bufferAfter cmdline (y :: es) = bufferAfter (readCmdline cmdline contents) es := by
    rw [bufferAfter, List.foldl_cons, h]
    rfl
  unfold Shown
  rw [hbuffer]

/-- The pid of the first entry that is shown is returned. -/
theorem searchPdp_of_firstShown (h : FirstShown pdp programName behind cmdline es e) :
    searchPdp pdp programName behind cmdline (es ++ e :: es') = e.dir.pid := by
  induction es generalizing cmdline with
  | nil =>
    obtain ⟨contents, hcontents, -⟩ := h.shown
    rw [List.nil_append, searchPdp, hcontents]
    exact if_pos ((shown_iff hcontents).mp h.shown)
  | cons y ys ih =>
    obtain ⟨hopened, hnot⟩ := h.before [] y ys rfl
    obtain ⟨contents, hcontents⟩ := Option.isSome_iff_exists.mp hopened
    rw [shown_iff hcontents] at hnot
    rw [List.cons_append, searchPdp, hcontents]
    refine (if_neg hnot).trans (ih ⟨fun zs z zs' heq ↦ ?_, (shown_cons hcontents).mp h.shown⟩)
    have hbefore := h.before (y :: zs) z zs' (by rw [heq, List.cons_append])
    rwa [shown_cons hcontents] at hbefore

/-- Nothing is returned if none is shown. -/
theorem searchPdp_of_none {l : List ProcEntry}
    (h : ∀ es e es', l = es ++ e :: es' → ¬ FirstShown pdp programName behind cmdline es e) :
    searchPdp pdp programName behind cmdline l = -1 := by
  induction l generalizing cmdline with
  | nil => rfl
  | cons e l ih =>
    cases hcontents : e.cmdline with
    | none => simp only [searchPdp, hcontents]
    | some contents =>
      have hnot : ¬ Shown pdp programName behind cmdline [] e := fun hshown ↦
        h [] e l rfl ⟨fun ys y zs heq ↦ absurd heq (by simp), hshown⟩
      simp only [searchPdp, hcontents, if_neg fun htest ↦ hnot ((shown_iff hcontents).mpr htest)]
      refine ih fun es e' es' heq hfirst ↦ ?_
      refine h (e :: es) e' es' (by rw [heq, List.cons_append])
        ⟨?_, (shown_cons hcontents).mpr hfirst.shown⟩
      rintro (_ | ⟨y, ys⟩) z zs hsplit
      · obtain ⟨rfl, rfl⟩ := List.cons.inj hsplit
        exact ⟨hcontents ▸ rfl, hnot⟩
      · obtain ⟨rfl, rfl⟩ := List.cons.inj hsplit
        rw [shown_cons hcontents]
        exact hfirst.before ys z zs rfl

/-- If an entry is shown, one is shown first, unless an entry cannot be opened. -/
theorem exists_firstShown (hopen : ∀ y ∈ es, y.cmdline.isSome)
    (h : Shown pdp programName behind cmdline es e) :
    FirstShown pdp programName behind cmdline es e ∨
      ∃ ys y zs, es = ys ++ y :: zs ∧ FirstShown pdp programName behind cmdline ys y := by
  induction hlen : es.length using Nat.strong_induction_on generalizing es e with
  | _ n ih =>
    by_cases hbefore : ∃ ys y zs, es = ys ++ y :: zs ∧ Shown pdp programName behind cmdline ys y
    · obtain ⟨ys, y, zs, rfl, hshown⟩ := hbefore
      have hlt : ys.length < n := by
        rw [← hlen, List.length_append, List.length_cons]
        omega
      right
      rcases ih _ hlt (fun x hx ↦ hopen x (List.mem_append_left _ hx)) hshown rfl with
        hfirst | ⟨ys', y', zs', rfl, hfirst⟩
      · exact ⟨ys, y, zs, rfl, hfirst⟩
      · exact ⟨ys', y', zs' ++ y :: zs, by rw [List.append_assoc, List.cons_append], hfirst⟩
    · refine .inl ⟨fun ys y zs heq ↦ ⟨?_, fun hshown ↦ hbefore ⟨ys, y, zs, heq, hshown⟩⟩, h⟩
      exact hopen y (heq ▸ List.mem_append_right ys List.mem_cons_self)

end Run

namespace ProcListing

variable {l : ProcListing} {pdp : ℤ} {programName behind : List UInt8}

theorem getpidByPdp_of_first {e : ProcEntry} (h : l.First pdp programName behind e) :
    getpidByPdp pdp programName behind l.entries = e.dir.pid ∧ e ∈ l.entries := by
  obtain ⟨es, es', heq, hfirst⟩ := h
  rw [heq]
  exact ⟨searchPdp_of_firstShown hfirst, List.mem_append_right es List.mem_cons_self⟩

theorem getpidByPdp_of_not_first (h : ∀ e, ¬ l.First pdp programName behind e) :
    getpidByPdp pdp programName behind l.entries = -1 :=
  searchPdp_of_none fun es e es' heq hfirst ↦ h e ⟨es, es', heq, hfirst⟩

/-- A pid that is returned is that of the entry that is shown first. -/
theorem exists_first (h : 0 < getpidByPdp pdp programName behind l.entries) :
    ∃ e, l.First pdp programName behind e ∧
      e.dir.pid = getpidByPdp pdp programName behind l.entries := by
  by_cases hfirst : ∃ e, l.First pdp programName behind e
  · obtain ⟨e, he⟩ := hfirst
    exact ⟨e, he, (getpidByPdp_of_first he).1.symm⟩
  · rw [getpidByPdp_of_not_first (not_exists.mp hfirst)] at h
    exact absurd h (by decide)

/-- The process that is shown first has the arguments. -/
theorem Distinguished.genuine (h : l.Distinguished pdp programName behind) {e : ProcEntry}
    (he : l.First pdp programName behind e) (hpid : 0 < e.dir.pid) : e.Genuine pdp programName := by
  obtain ⟨es, es', heq, hfirst⟩ := he
  by_contra hnot
  obtain ⟨ys, y, zs, hsplit, hends⟩ := h.mistaken es e es' heq hpid hfirst.shown hnot
  obtain ⟨hopened, hbefore⟩ := hfirst.before ys y zs hsplit
  rcases hends with hnone | hshown
  · rw [hnone] at hopened
    cases hopened
  · exact hbefore hshown

theorem Distinguished.law (h : l.Distinguished pdp programName behind) :
    l.Law pdp programName (getpidByPdp pdp programName behind l.entries) := by
  constructor
  · intro hpos
    obtain ⟨e, he, hreturn⟩ := exists_first hpos
    exact ⟨e, (getpidByPdp_of_first he).2, hreturn, h.genuine he (hreturn ▸ hpos)⟩
  · intro hopen hgenuine
    obtain ⟨es, e, es', heq, hpid, hshown, hself⟩ := h.missed hopen hgenuine
    have hbefore : ∀ y ∈ es, y.cmdline.isSome := fun y hy ↦
      hopen y (heq ▸ List.mem_append_left _ hy)
    -- the entry that is shown first is this one, or one in front of it
    have hfirst : ∃ e, l.First pdp programName behind e ∧ 0 < e.dir.pid := by
      rcases exists_firstShown hbefore hshown with hfirst | ⟨ys, y, zs, rfl, hfirst⟩
      · exact ⟨e, ⟨es, es', heq, hfirst⟩, hpid⟩
      · refine ⟨y, ⟨ys, zs ++ e :: es', ?_, hfirst⟩, hself ys y zs rfl hfirst.shown⟩
        rw [heq, List.append_assoc, List.cons_append]
    obtain ⟨e, he, hpid⟩ := hfirst
    obtain ⟨hreturn, hmem⟩ := getpidByPdp_of_first he
    exact ⟨e, hmem, hpid, hreturn.symm, h.genuine he hpid⟩

theorem distinguished_of_law
    (h : l.Law pdp programName (getpidByPdp pdp programName behind l.entries)) :
    l.Distinguished pdp programName behind := by
  refine ⟨fun es e es' heq hpid hshown hnot ↦ ?_, fun hopen hgenuine ↦ ?_⟩
  · by_contra hends
    have hfirst : l.First pdp programName behind e := by
      refine ⟨es, es', heq, fun ys y zs hsplit ↦ ⟨?_, fun hy ↦ ?_⟩, hshown⟩
      · rw [← Option.ne_none_iff_isSome]
        exact fun hnone ↦ hends ⟨ys, y, zs, hsplit, .inl hnone⟩
      · exact hends ⟨ys, y, zs, hsplit, .inr hy⟩
    obtain ⟨hreturn, hmem⟩ := getpidByPdp_of_first hfirst
    obtain ⟨e', hmem', hpid', hgenuine⟩ := h.sound (hreturn ▸ hpid)
    rw [l.unique e hmem e' hmem' hpid (hreturn.symm.trans hpid'.symm)] at hnot
    exact hnot hgenuine
  · obtain ⟨e, -, hpos, hreturn, -⟩ := h.complete hopen hgenuine
    obtain ⟨e₀, ⟨es, es', heq, hfirst⟩, hreturn₀⟩ := exists_first (hreturn ▸ hpos)
    refine ⟨es, e₀, es', heq, ?_, hfirst.shown, fun ys y zs hsplit hy ↦ ?_⟩
    · rw [hreturn₀, ← hreturn]
      exact hpos
    · exact absurd hy (hfirst.before ys y zs hsplit).2

/-- The right process is found if and only if the command lines tell the processes apart. -/
theorem getpidByPdp_law_iff (l : ProcListing) (pdp : ℤ) (programName behind : List UInt8) :
    l.Law pdp programName (getpidByPdp pdp programName behind l.entries) ↔
      l.Distinguished pdp programName behind :=
  ⟨distinguished_of_law, Distinguished.law⟩

end ProcListing

/-! ## Decimal numbers -/

theorem of_mem_toDigits {n : ℕ} {b : UInt8}
    (h : b ∈ (Nat.toDigits 10 n).map fun c ↦ UInt8.ofNat c.toNat) :
    48 ≤ b.toNat ∧ b.toNat ≤ 57 := by
  obtain ⟨c, hc, rfl⟩ := List.mem_map.mp h
  have hdigit := Nat.isDigit_of_mem_toDigits (by decide) (by decide) hc
  rw [Char.isDigit, Bool.and_eq_true, decide_eq_true_eq, decide_eq_true_eq] at hdigit
  obtain ⟨hlow, hhigh⟩ := hdigit
  have hlow' : 48 ≤ c.toNat := hlow
  have hhigh' : c.toNat ≤ 57 := hhigh
  have hbyte : (UInt8.ofNat c.toNat).toNat = c.toNat := Nat.mod_eq_of_lt (by omega)
  exact ⟨hbyte.symm ▸ hlow', hbyte.symm ▸ hhigh'⟩

/-- A decimal number has a sign and digits. -/
theorem of_mem_decimal {n : ℤ} {b : UInt8} (h : b ∈ decimal n) :
    b = 45 ∨ 48 ≤ b.toNat ∧ b.toNat ≤ 57 := by
  rcases List.mem_append.mp h with h | h
  · split at h
    · exact .inl (List.mem_singleton.mp h)
    · exact absurd h List.not_mem_nil
  · exact .inr (of_mem_toDigits h)

theorem zero_not_mem_decimal (n : ℤ) : 0 ∉ decimal n := by
  intro hmem
  rcases of_mem_decimal hmem with h | ⟨h, -⟩
  · exact absurd h (by decide)
  · exact absurd h (by decide)

/-! ## A longer number -/

namespace ProcListing

/-- `quectel-CM -n 10` -/
def pdpTen : ProcListing where
  entries := [⟨.process 7 (by decide), some
    [113, 117, 101, 99, 116, 101, 108, 45, 67, 77, 0, 45, 110, 0, 49, 48, 0]⟩]
  unique := by
    intro e he e' he' _ _
    rw [List.mem_singleton.mp he, List.mem_singleton.mp he']

/-- The process that holds the connection of PDP 10 is found for PDP 1. -/
theorem pdpTen_not_law :
    ¬ ∀ (l : ProcListing) (pdp : ℤ) (programName behind : List UInt8),
      l.Law pdp programName (getpidByPdp pdp programName behind l.entries) := by
  intro hall
  obtain ⟨e, hmem, -, contents, hcontents, -, pre, post, heq, -, hpost⟩ :=
    (hall pdpTen 1 [113, 117, 101, 99, 116, 101, 108, 45, 67, 77] []).sound (by decide)
  rw [List.mem_singleton.mp hmem] at hcontents
  cases hcontents
  rcases hpost with rfl | hpost
  · -- the last byte is a zero
    have hlast := congrArg List.getLast? heq
    rw [List.append_nil, ← List.append_assoc, List.getLast?_append_of_ne_nil _ (by decide)] at hlast
    exact absurd hlast (by decide)
  · -- another digit follows the 1
    obtain ⟨post, rfl⟩ := List.head?_eq_some_iff.mp hpost
    have hinfix : [45, 110, 0, 49, 0] <:+: pre ++ ([45, 110, 0] ++ decimal 1) ++ 0 :: post := by
      refine ⟨pre, post, ?_⟩
      rw [show decimal 1 = [49] by decide]
      simp
    rw [← heq] at hinfix
    exact absurd hinfix (by decide)

end ProcListing

end Wwan.QuectelCm
