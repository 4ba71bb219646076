import Wwan.AtcProxy.Readline

/-!
# The lines that `readline` returns

As long as no read fills the buffer, nothing is written behind it, and the lines of the modem are
returned however the reads cut the stream. The text between the cursor and the zero is what the
next lines are made of; `Follows` says where in the stream it is.
-/

namespace Wwan.AtcProxy

open CString Lines Memory

/-! ## Lines of the stream -/

/-- No line starts with `>`. -/
def NoPrompt (stream : List UInt8) : Prop := ∀ l ∈ stream.splitOnP isEol, l.head? ≠ some gt

instance (stream : List UInt8) : Decidable (NoPrompt stream) :=
  inferInstanceAs (Decidable (∀ l ∈ _, _))

section Follows

variable {stream rest t e l r : List UInt8} {lines : List (List UInt8)} {x : UInt8}

/-- Of a stream, `rest` is still to come; of the part that has come, these are the first lines, and
`t` is behind them. -/
structure Follows (stream rest : List UInt8) (lines : List (List UInt8)) (t : List UInt8) :
    Prop where
  delivered : ∃ came, stream = came ++ rest ∧
    ∀ more, ended isEol (came ++ more) = lines ++ ended isEol (t ++ more)
  noPrompt : NoPrompt (t ++ rest)
  noNul : 0 ∉ rest

namespace Follows

theorem start (hprompt : NoPrompt stream) (hnul : 0 ∉ stream) : Follows stream stream [] [] where
  delivered := ⟨[], rfl, fun _ ↦ rfl⟩
  noPrompt := hprompt
  noNul := hnul

/-- Newlines in front are passed over. -/
theorem skip (he : ∀ b ∈ e, isEol b) (h : Follows stream rest lines (e ++ t)) :
    Follows stream rest lines t where
  delivered := by
    obtain ⟨came, hcame, hended⟩ := h.delivered
    refine ⟨came, hcame, fun more ↦ ?_⟩
    rw [hended, List.append_assoc, ended_append_left he]
  noPrompt := by
    have hprompt := h.noPrompt
    clear h
    induction e with
    | nil => exact hprompt
    | cons b e ih =>
      refine ih (fun b' hb' ↦ he b' (List.mem_cons_of_mem b hb')) fun l hl ↦ hprompt l ?_
      exact mem_splitOnP_behind (e := []) (he b List.mem_cons_self) hl
  noNul := h.noNul

/-- The first line is returned. -/
theorem line (hl : ∀ b ∈ l, isEol b = false) (hne : l ≠ []) (hx : isEol x)
    (h : Follows stream rest lines (l ++ x :: r)) : Follows stream rest (lines ++ [l]) r where
  delivered := by
    obtain ⟨came, hcame, hended⟩ := h.delivered
    refine ⟨came, hcame, fun more ↦ ?_⟩
    rw [hended, List.append_assoc, List.cons_append, ended_line hl hne hx, List.append_assoc,
      List.singleton_append]
  noPrompt := by
    intro l' hl'
    apply h.noPrompt
    rw [List.append_assoc, List.cons_append]
    exact mem_splitOnP_behind hx hl'
  noNul := h.noNul

/-- More of the stream comes. -/
theorem read (h : Follows stream (e ++ rest) lines t) : Follows stream rest lines (t ++ e) where
  delivered := by
    obtain ⟨came, hcame, hended⟩ := h.delivered
    refine ⟨came ++ e, by rw [hcame, List.append_assoc], fun more ↦ ?_⟩
    rw [List.append_assoc, hended, List.append_assoc]
  noPrompt := by
    rw [List.append_assoc]
    exact h.noPrompt
  noNul hmem := h.noNul (List.mem_append_right e hmem)

theorem ne_prompt (h : Follows stream rest lines t) : t ≠ [gt, 32] := by
  rintro rfl
  have hgt : isEol gt = false := rfl
  obtain ⟨l, hl, hhead⟩ := exists_mem_splitOnP_cons hgt ([32] ++ rest)
  exact h.noPrompt l hl hhead

/-- What was returned are the first lines of what has come, and all of them if no line is left. -/
theorem lines_eq (h : Follows stream rest lines t) : ∃ came, stream = came ++ rest ∧
    lines <+: ended isEol came ∧ ((∀ b ∈ t, isEol b = false) → lines = ended isEol came) := by
  obtain ⟨came, hcame, hended⟩ := h.delivered
  have heq : ended isEol came = lines ++ ended isEol t := by
    have hnil := hended []
    rwa [List.append_nil, List.append_nil] at hnil
  refine ⟨came, hcame, ⟨_, heq.symm⟩, fun ht ↦ ?_⟩
  rw [heq, ended_eq_nil ht, List.append_nil]

end Follows

end Follows

namespace AtReader

variable {s : AtReader} {t e l r : List UInt8} {x : UInt8}

/-! ## Steps -/

/-- The buffer ends with a zero, and a read that is due has the cursor in front of it, and room. -/
structure Safe (s : AtReader) : Prop where
  last : s.s_ATBuffer (maxAtResponse - 1) = 0
  noNul : ∀ l ∈ s.lines, 0 ∉ l
  reading : ∀ p_read, s.phase = .read p_read →
    s.s_ATBufferCur < maxAtResponse ∧ p_read < maxAtResponse

/-- The lines are those of the stream, and the text in the buffer goes on from them. If the reader
waits for more, no line is left in the buffer. -/
structure Tracks (stream : List UInt8) (s : AtReader) (t : List UInt8) : Prop where
  text : s.HasText t
  follows : Follows stream s.stream s.lines t
  unended : s.phase ≠ .call → ∀ b ∈ t, isEol b = false
  atEnd : ∀ p_read, s.phase = .read p_read → p_read = s.s_ATBufferCur + t.length

/-- A call returns a line or comes to its loop, and does not read. -/
def Called (s s' : AtReader) : Prop :=
  s'.stream = s.stream ∧ (s'.phase ≠ .call ∨ s'.lines.length = s.lines.length + 1)

/-- What a step does. -/
def Steps (s : AtReader) (n : ℕ) : Prop :=
  ∃ s', s.step n = .ok s' ∧ s'.Safe ∧ (s.phase = .call → s.Called s') ∧
    ∀ stream t, Tracks stream s t → ∃ t', Tracks stream s' t'

theorem Safe.taken {p_eol : ℕ} (hlast : s.s_ATBuffer (maxAtResponse - 1) = 0)
    (hlines : ∀ l ∈ s.lines, 0 ∉ l) (hl : 0 ∉ l) : (s.taken p_eol l).Safe where
  last := poke_nul_eq hlast
  noNul := List.forall_mem_append.mpr ⟨hlines, List.forall_mem_singleton.mpr hl⟩
  reading p_read hphase := by cases hphase

section MovedUp

variable {mem : ℕ → UInt8} (hmem : HoldsString maxAtResponse mem 0 l)
include hmem

theorem Safe.movedUp (hlast : mem (maxAtResponse - 1) = 0) (hlines : ∀ l ∈ s.lines, 0 ∉ l) :
    (s.movedUp mem l.length).Safe where
  last := hlast
  noNul := hlines
  reading p_read hphase := by
    cases hphase
    refine ⟨hmem.lt_size, ?_⟩
    exact Nat.lt_of_le_of_lt (Nat.le_add_left _ _) hmem.inside

theorem Tracks.movedUp {stream : List UInt8} (hfollows : Follows stream s.stream s.lines l)
    (hl : ∀ b ∈ l, isEol b = false) : Tracks stream (s.movedUp mem l.length) l where
  text := hmem
  follows := hfollows
  unended _ := hl
  atEnd p_read hphase := by
    cases hphase
    exact (Nat.zero_add _).symm

end MovedUp

/-- A search takes a line, or leaves the cursor at one that has not ended. -/
theorem search_cases (hlast : s.s_ATBuffer (maxAtResponse - 1) = 0)
    (hlines : ∀ l ∈ s.lines, 0 ∉ l) (h : s.HasText t) :
    (∃ s₁ p_eol s', s.search = .ok (s₁, some p_eol) ∧ s₁.takeLine p_eol = .ok s' ∧ s'.Safe ∧
      s.Called s' ∧ ∀ stream, Follows stream s.stream s.lines t → ∃ t', Tracks stream s' t') ∨
    ∃ e l, t = e ++ l ∧ (∀ b ∈ e, isEol b) ∧ (∀ b ∈ l, isEol b = false) ∧
      s.search = .ok (s.moved e, none) := by
  have hcalled : ∀ p_eol l, s.Called (s.taken p_eol l) := fun _ l ↦
    ⟨rfl, .inr (List.length_append.trans rfl)⟩
  obtain ⟨e, he, ⟨l, rfl, hl⟩ | ⟨l, x, r, rfl, hl, hne, hx⟩⟩ := exists_ended_or isEol t
  · by_cases hprompt : l = [gt, 32]
    · subst hprompt
      obtain ⟨p_eol, hsearch, htake⟩ := search_prompt h he
      refine .inl ⟨_, p_eol, _, hsearch, htake, .taken hlast hlines (by decide), hcalled _ _, ?_⟩
      intro stream hfollows
      exact absurd rfl (hfollows.skip he).ne_prompt
    · exact .inr ⟨e, l, rfl, he, hl, search_part h he hl hprompt⟩
  · obtain ⟨p_eol, hsearch, htake, htext⟩ := search_line h he hl hne hx
    have hnul : 0 ∉ l := fun hmem ↦ h.drop.noNul (List.mem_append_left _ hmem)
    refine .inl ⟨_, p_eol, _, hsearch, htake, .taken hlast hlines hnul, hcalled _ _, ?_⟩
    intro stream hfollows
    refine ⟨r, htext, (hfollows.skip he).line hl hne hx, fun hphase ↦ absurd rfl hphase, ?_⟩
    intro p_read hphase
    cases hphase

theorem steps_call (hs : s.Safe) (hphase : s.phase = .call)
    (hcur : s.s_ATBufferCur < maxAtResponse) {n : ℕ} : s.Steps n := by
  have hstep : s.step n = s.call := by rw [step, hphase]
  have hcalled : ∀ mem len, s.phase = .call → s.Called (s.movedUp mem len) :=
    fun _ _ _ ↦ ⟨rfl, .inl ReaderPhase.noConfusion⟩
  obtain ⟨t, ht⟩ : ∃ t, s.HasText t :=
    exists_holdsString hs.last (Nat.le_sub_one_of_lt hcur) (by decide)
  rcases t with _ | ⟨b, t⟩
  · have hlast : poke s.s_ATBuffer 0 [0] (maxAtResponse - 1) = 0 :=
      (poke_of_outside (.inr (by decide))).trans hs.last
    have hmem : HoldsString maxAtResponse (poke s.s_ATBuffer 0 [0]) 0 [] :=
      ⟨holds_poke, List.not_mem_nil, by decide⟩
    refine ⟨_, hstep.trans (call_nil ht), .movedUp hmem hlast hs.noNul, hcalled _ _, ?_⟩
    intro stream t' htracks
    obtain rfl := htracks.text.unique ht
    exact ⟨[], .movedUp hmem htracks.follows (List.forall_mem_nil _)⟩
  · rw [call_cons ht] at hstep
    rcases search_cases hs.last hs.noNul ht with
      ⟨s₁, p_eol, s', hsearch, htake, hsafe, hline, htracks⟩ | ⟨e, l, heq, he, hl, hsearch⟩
    · rw [hsearch] at hstep
      refine ⟨s', hstep.trans htake, hsafe, fun _ ↦ hline, fun stream t' ht' ↦ htracks stream ?_⟩
      exact ht'.text.unique ht ▸ ht'.follows
    · rw [hsearch] at hstep
      rw [heq] at ht
      have hmoved : (s.moved e).HasText l := ht.drop
      obtain ⟨mem, hup, hmem, hlast⟩ := moveUp_eq hmoved
      refine ⟨_, hstep.trans hup, .movedUp hmem (hlast hs.last) hs.noNul, hcalled _ _, ?_⟩
      intro stream t' htracks
      obtain rfl := htracks.text.unique ht
      exact ⟨l, .movedUp hmem (htracks.follows.skip he) hl⟩

section Filled

variable {p_read : ℕ} {bytes : List UInt8} (hroom : p_read + bytes.length < maxAtResponse)
include hroom

/-- A read that leaves room leaves the last byte. -/
theorem filled_last (hlast : s.s_ATBuffer (maxAtResponse - 1) = 0) :
    (s.filled p_read bytes).s_ATBuffer (maxAtResponse - 1) = 0 := by
  unfold filled
  rw [poke_append]
  exact poke_nul_eq ((poke_of_outside (.inr (Nat.le_sub_one_of_lt hroom))).trans hlast)

/-- Without zeroes, the text is what was there and what was read. -/
theorem Tracks.filled {stream : List UInt8} (h : Tracks stream s t)
    (hphase : s.phase = .read p_read) (hbytes : bytes <+: s.stream) :
    (s.filled p_read bytes).HasText (t ++ bytes) ∧
      Follows stream (s.filled p_read bytes).stream s.lines (t ++ bytes) := by
  have hend := h.atEnd p_read hphase
  obtain ⟨rest, hrest⟩ := hbytes
  have hdrop : s.stream.drop bytes.length = rest := by rw [← hrest, List.drop_left]
  have hfollows := h.follows
  rw [← hrest] at hfollows
  have hnul : 0 ∉ bytes := fun hmem ↦ hfollows.noNul (List.mem_append_left _ hmem)
  constructor
  · have htext := h.text.append hnul (hend ▸ hroom)
    rwa [← hend] at htext
  · unfold AtReader.filled
    rw [hdrop]
    exact hfollows.read

end Filled

theorem steps_read (hs : s.Safe) {p_read n : ℕ} (hphase : s.phase = .read p_read)
    (hroom : p_read + (s.got p_read n).length < maxAtResponse) : s.Steps n := by
  have hstep : s.step n = s.pass p_read n := by rw [step, hphase]
  have hcalled : ∀ s', s.phase = .call → s.Called s' := fun s' hcall ↦
    ReaderPhase.noConfusion (hphase.symm.trans hcall)
  obtain ⟨hcur, hp⟩ := hs.reading p_read hphase
  by_cases hgot : s.got p_read n = []
  · refine ⟨_, hstep.trans (pass_nil hp hgot), ⟨hs.last, hs.noNul, ?_⟩, hcalled _, ?_⟩
    · intro p_read hread
      cases hread
    · intro stream t htracks
      refine ⟨t, htracks.text, htracks.follows, fun _ ↦ htracks.unended ?_, ?_⟩
      · rw [hphase]
        exact ReaderPhase.noConfusion
      · intro p_read hread
        cases hread
  rw [pass_cons hroom hgot] at hstep
  have hpre : s.got p_read n <+: s.stream := List.take_prefix _ _
  generalize s.got p_read n = bytes at hstep hroom hpre
  have hlast := filled_last hroom hs.last
  obtain ⟨t, ht⟩ : ∃ t, (s.filled p_read bytes).HasText t :=
    exists_holdsString hlast (Nat.le_sub_one_of_lt hcur) (by decide)
  rcases search_cases hlast hs.noNul ht with
    ⟨s₁, p_eol, s', hsearch, htake, hsafe, -, htracks⟩ | ⟨e, l, heq, he, hl, hsearch⟩
  · rw [hsearch] at hstep
    refine ⟨s', hstep.trans htake, hsafe, hcalled s', fun stream t' ht' ↦ htracks stream ?_⟩
    obtain ⟨htext, hfollows⟩ := ht'.filled hroom hphase hpre
    exact ht.unique htext ▸ hfollows
  · rw [hsearch] at hstep
    rw [heq] at ht
    refine ⟨_, hstep, ⟨hlast, hs.noNul, ?_⟩, hcalled _, fun stream t' ht' ↦ ?_⟩
    · intro p_read' hread'
      cases hread'
      exact ⟨ht.drop.lt_size, hroom⟩
    · obtain ⟨htext, hfollows⟩ := ht'.filled hroom hphase hpre
      have hsame := ht.unique htext
      rw [← hsame] at hfollows
      refine ⟨l, ht.drop, hfollows.skip he, fun _ ↦ hl, fun p_read' hread' ↦ ?_⟩
      cases hread'
      have hlen := congrArg List.length hsame
      rw [List.length_append, List.length_append] at hlen
      have hend := ht'.atEnd p_read hphase
      show p_read + bytes.length = s.s_ATBufferCur + e.length + l.length
      omega

theorem steps (hs : s.Safe) {n : ℕ} (hroom : s.Roomy n) : s.Steps n := by
  unfold Roomy at hroom
  split at hroom
  next hphase => exact steps_call hs hphase hroom
  next hphase => exact steps_read hs hphase hroom
  next hphase =>
    refine ⟨s, ?_, hs, fun hcall ↦ ?_, fun stream t htracks ↦ ⟨t, htracks⟩⟩
    · rw [step, hphase]
    · exact ReaderPhase.noConfusion (hphase.symm.trans hcall)

theorem step_full {p_read n : ℕ} (hphase : s.phase = .read p_read) (hp : p_read < maxAtResponse)
    (hfull : maxAtResponse ≤ p_read + (s.got p_read n).length) : s.step n = .error .write := by
  have hlen : (s.got p_read n).length ≤ maxAtResponse - p_read :=
    (List.length_take_le _ _).trans (Nat.min_le_right _ _)
  have hne : s.got p_read n ≠ [] := by
    intro hnil
    rw [hnil, List.length_nil] at hfull
    omega
  rw [step, hphase]
  dsimp only
  rw [pass_of_ne_nil hp hne, fill_eq_error (by omega)]
  rfl

end AtReader

/-! ## Runs -/

section Runs

variable {stream : List UInt8} {σ : Except Outside AtReader}

/-- No access was outside of the buffer, and the lines are those of the stream. -/
def OnTrack (stream : List UInt8) (σ : Except Outside AtReader) : Prop :=
  ∃ s, σ = .ok s ∧ s.Safe ∧ (0 ∉ stream → NoPrompt stream → ∃ t, AtReader.Tracks stream s t)

theorem onTrack_start : OnTrack stream (.ok (.start stream)) := by
  refine ⟨_, rfl, ⟨rfl, List.forall_mem_nil _, ?_⟩, fun hnul hprompt ↦ ⟨[], ?_⟩⟩
  · intro p_read hread
    cases hread
  · refine ⟨⟨rfl, List.not_mem_nil, ?_⟩, .start hprompt hnul, ?_, ?_⟩
    · exact Nat.zero_lt_succ _
    · exact fun _ ↦ List.forall_mem_nil _
    · intro p_read hread
      cases hread

theorem onTrack_next {n : ℕ} (h : OnTrack stream σ) (hroom : RoomySteps σ n) :
    OnTrack stream ((readerSystem stream).next σ n) := by
  obtain ⟨s, rfl, hsafe, htracks⟩ := h
  obtain ⟨s', hstep, hsafe', -, hnext⟩ := AtReader.steps hsafe hroom
  refine ⟨s', hstep, hsafe', fun hnul hprompt ↦ ?_⟩
  obtain ⟨t, ht⟩ := htracks hnul hprompt
  exact hnext stream t ht

theorem onTrack_of_reach (h : (readerSystem stream).Reach RoomySteps σ) : OnTrack stream σ :=
  h.invariant onTrack_start fun _ _ hσ _ hroom ↦ onTrack_next hσ hroom

/-- A run in which a read fills what is left of the buffer. -/
theorem exec_full {ns : List ℕ} {s : AtReader} {p_read n : ℕ}
    (h : (readerSystem stream).exec σ ns = .ok s) (hphase : s.phase = .read p_read)
    (hp : p_read < maxAtResponse) (hfull : maxAtResponse ≤ p_read + (s.got p_read n).length) :
    (readerSystem stream).exec σ (ns ++ [n]) = .error .write := by
  have happend : (readerSystem stream).exec σ (ns ++ [n]) =
      (readerSystem stream).next ((readerSystem stream).exec σ ns) n := List.foldl_concat ..
  rw [happend, h]
  exact AtReader.step_full hphase hp hfull

section Lines

variable (hnul : 0 ∉ stream) (hprompt : NoPrompt stream) {s : AtReader}
  (h : (readerSystem stream).Reach RoomySteps (.ok s))
include hnul hprompt h

theorem follows_of_reach : ∃ t, AtReader.Tracks stream s t := by
  obtain ⟨s', heq, -, htracks⟩ := onTrack_of_reach h
  cases heq
  exact htracks hnul hprompt

/-- What was returned are the first lines of what was read, and all of them when the reader has to
read or comes to the end. -/
theorem lines_of_reach : ∃ came, stream = came ++ s.stream ∧ s.lines <+: ended isEol came ∧
    (s.phase ≠ .call → s.lines = ended isEol came) := by
  obtain ⟨t, ht⟩ := follows_of_reach hnul hprompt h
  obtain ⟨came, hcame, hpre, hall⟩ := ht.follows.lines_eq
  exact ⟨came, hcame, hpre, fun hphase ↦ hall (ht.unended hphase)⟩

/-- The calls come to a read or to the end. -/
theorem exists_waiting : ∃ s', (readerSystem stream).Leads RoomySteps (.ok s) (.ok s') ∧
    s'.stream = s.stream ∧ s'.phase ≠ .call := by
  obtain ⟨came, hcame, hpre, -⟩ := lines_of_reach hnul hprompt h
  -- every call that does not returns another line of what was read
  induction hleft : (ended isEol came).length - s.lines.length using Nat.strong_induction_on
    generalizing s with
  | _ left ih =>
    by_cases hphase : s.phase = .call
    · obtain ⟨_, heq, hsafe, htracks⟩ := onTrack_of_reach h
      cases heq
      obtain ⟨t, ht⟩ := htracks hnul hprompt
      have hroom : s.Roomy 0 := by
        unfold AtReader.Roomy
        rw [hphase]
        exact ht.text.lt_size
      obtain ⟨s', hstep, -, hcalled, -⟩ := AtReader.steps hsafe hroom
      obtain ⟨hstream, hline⟩ := hcalled hphase
      have hnext : (readerSystem stream).next (.ok s) 0 = .ok s' := hstep
      have hreach := h.step 0 trivial hroom
      have hlead : (readerSystem stream).Leads RoomySteps (.ok s) _ := .single 0 trivial hroom
      rw [hnext] at hreach hlead
      by_cases hphase' : s'.phase = .call
      · obtain ⟨came', hcame', hpre', -⟩ := lines_of_reach hnul hprompt hreach
        have hsame : came' = came := by
          rw [hstream, hcame] at hcame'
          exact (List.append_cancel_right hcame').symm
        rw [hsame] at hpre'
        have hlen := hpre'.length_le
        have hlonger := hline.resolve_left (not_not_intro hphase')
        obtain ⟨s'', hleads, hstream', hwaits⟩ :=
          ih _ (by omega) hreach (hstream ▸ hcame) hpre' rfl
        exact ⟨s'', hlead.trans hleads, hstream'.trans hstream, hwaits⟩
      · exact ⟨s', hlead, hstream, hphase'⟩
    · exact ⟨s, .refl _, rfl, hphase⟩

end Lines

end Runs

/-! ## Forwarding -/

theorem length_onUnsolicitedBuf (s : List UInt8) (sms_pdu : Option (List UInt8)) :
    (Proxy.onUnsolicitedBuf (chars s) (sms_pdu.map chars)).length =
      (s ++ crlf ++ sms_pdu.elim [] (· ++ crlf)).length := by
  have hchars : ∀ s : List UInt8, (chars s).length = s.length := fun s ↦ List.length_map _
  have hcrlf : "\r\n".toList.length = 2 := rfl
  unfold Proxy.onUnsolicitedBuf
  cases sms_pdu with
  | none => simp [hchars]
  | some pdu => simp [hchars]

/-- The strings fit if the text that is sent is shorter than the buffer. -/
theorem copyUnsolicited_ok_iff {s : List UInt8} {sms_pdu : Option (List UInt8)} (hs : 0 ∉ s)
    (hpdu : ∀ pdu ∈ sms_pdu, 0 ∉ pdu) (buf : ℕ → UInt8) :
    (∃ buf', copyUnsolicited buf (some s) sms_pdu = .ok buf') ↔
      (Proxy.onUnsolicitedBuf (chars s) (sms_pdu.map chars)).length < Proxy.bufSize := by
  have hcrlf : (0 : UInt8) ∉ crlf := by decide
  have hcopy : Builds Proxy.bufSize (strcpy Proxy.bufSize buf s) s := builds_strcpy hs
  have hline := hcopy.strcat hcrlf
  rw [length_onUnsolicitedBuf]
  cases sms_pdu with
  | none =>
    have hnone : copyUnsolicited buf (some s) none =
        strcpy Proxy.bufSize buf s >>= (strcat Proxy.bufSize · crlf) := bind_pure _
    rw [Option.elim_none, List.append_nil, hnone]
    exact hline.ok_iff
  | some pdu =>
    have hboth := (hline.strcat (hpdu pdu rfl)).strcat hcrlf
    rw [List.append_assoc _ pdu, bind_assoc] at hboth
    exact hboth.ok_iff

theorem mem_of_mem_forwards {lines : List (List UInt8)} {f : List UInt8 × Option (List UInt8)}
    (h : f ∈ forwards lines) : f.1 ∈ lines ∧ ∀ pdu ∈ f.2, pdu ∈ lines := by
  induction lines using forwards.induct with
  | case1 => cases h
  | case2 line hsms =>
    rw [forwards, if_pos hsms] at h
    cases h
  | case3 line hsms =>
    rw [forwards, if_neg hsms] at h
    rw [List.mem_singleton.mp h]
    refine ⟨List.mem_cons_self, fun pdu hpdu ↦ ?_⟩
    cases hpdu
  | case4 line line2 lines hsms ih =>
    rw [forwards, if_pos hsms] at h
    rcases List.mem_cons.mp h with rfl | h
    · refine ⟨List.mem_cons_self, fun pdu hpdu ↦ ?_⟩
      cases hpdu
      exact List.mem_cons_of_mem _ List.mem_cons_self
    · have hmem : ∀ l ∈ lines, l ∈ line :: line2 :: lines := fun l hl ↦
        List.mem_cons_of_mem _ (List.mem_cons_of_mem _ hl)
      exact ⟨hmem _ (ih h).1, fun pdu hpdu ↦ hmem pdu ((ih h).2 pdu hpdu)⟩
  | case5 line line2 lines hsms ih =>
    rw [forwards, if_neg hsms] at h
    rcases List.mem_cons.mp h with rfl | h
    · refine ⟨List.mem_cons_self, fun pdu hpdu ↦ ?_⟩
      cases hpdu
    · exact ⟨List.mem_cons_of_mem _ (ih h).1, fun pdu hpdu ↦
        List.mem_cons_of_mem _ ((ih h).2 pdu hpdu)⟩

/-! ## The law -/

/-- The lines of what was read are returned, in order; the reader has returned all of them when it
has to read more or comes to the end, and without reading it comes to that. -/
def ReturnsLines (stream : List UInt8) (s : AtReader) : Prop :=
  ∃ came, stream = came ++ s.stream ∧ s.lines <+: ended isEol came ∧
    (s.phase ≠ .call → s.lines = ended isEol came) ∧
    ∃ s', (readerSystem stream).Leads RoomySteps (.ok s) (.ok s') ∧ s'.stream = s.stream ∧
      s'.phase ≠ .call

/-- In runs whose steps are roomy no access is outside of the buffer, and the lines are returned
however the stream is cut. What is forwarded fits if it is short with its newlines. -/
theorem readline_law {stream : List UInt8} {σ : Except Outside AtReader}
    (h : (readerSystem stream).Reach RoomySteps σ) :
    ∃ s, σ = .ok s ∧ (0 ∉ stream → NoPrompt stream → ReturnsLines stream s) ∧
      ∀ f ∈ forwards s.lines, ∀ buf, (∃ buf', copyUnsolicited buf (some f.1) f.2 = .ok buf') ↔
        (Proxy.onUnsolicitedBuf (chars f.1) (f.2.map chars)).length < Proxy.bufSize := by
  obtain ⟨s, rfl, hsafe, -⟩ := onTrack_of_reach h
  refine ⟨s, rfl, fun hnul hprompt ↦ ?_, fun f hf buf ↦ ?_⟩
  · obtain ⟨came, hcame, hpre, hall⟩ := lines_of_reach hnul hprompt h
    exact ⟨came, hcame, hpre, hall, exists_waiting hnul hprompt h⟩
  · obtain ⟨hline, hpdu⟩ := mem_of_mem_forwards hf
    apply copyUnsolicited_ok_iff
    · exact hsafe.noNul _ hline
    · exact fun pdu hmem ↦ hsafe.noNul pdu (hpdu pdu hmem)

/-- `OK` and `+CMTI`. -/
def okCmti : List UInt8 := [79, 75, 13, 10, 43, 67, 77, 84, 73, 13, 10]

/-- The reads end inside of each line and between the bytes of a newline. -/
theorem readline_okCmti :
    ∃ s, (readerSystem okCmti).exec (.ok (.start okCmti)) [0, 1, 2, 0, 3, 5] = .ok s ∧
      ReturnsLines okCmti s ∧ s.lines = [[79, 75], [43, 67, 77, 84, 73]] := by
  have hroomy : (readerSystem okCmti).Along RoomySteps (.ok (.start okCmti)) [0, 1, 2, 0, 3, 5] := by
    decide +kernel
  have hread : ((readerSystem okCmti).exec (.ok (.start okCmti)) [0, 1, 2, 0, 3, 5]).map
      AtReader.lines = .ok [[79, 75], [43, 67, 77, 84, 73]] := by
    decide +kernel
  obtain ⟨s, heq, hlines, -⟩ := readline_law (System.Reach.init.exec hroomy)
  refine ⟨s, heq, hlines (by decide) (by decide +kernel), ?_⟩
  exact Except.ok.inj ((congrArg (Except.map AtReader.lines) heq).symm.trans hread)

/-- A line that is shorter than the buffer, and its newline. -/
def longLine : List UInt8 := List.replicate 4095 65 ++ [10]

/-- The first bytes of the line are read. -/
theorem longLine_started : ∃ s,
    (readerSystem longLine).exec (.ok (.start longLine)) [0, 10] = .ok s ∧ s.phase = .read 10 ∧
      maxAtResponse ≤ 10 + (s.got 10 4086).length := by
  have hstep : ((readerSystem longLine).exec (.ok (.start longLine)) [0, 10]).toOption.any
      (fun s ↦ s.phase = .read 10 ∧ maxAtResponse ≤ 10 + (s.got 10 4086).length) := by
    decide +kernel
  cases hexec : (readerSystem longLine).exec (.ok (.start longLine)) [0, 10] with
  | error outside =>
    rw [hexec] at hstep
    exact absurd hstep Bool.false_ne_true
  | ok s =>
    rw [hexec] at hstep
    exact ⟨s, rfl, of_decide_eq_true hstep⟩

/-- A read that gets the rest of the line with its newline fills the buffer, and the zero behind it
is written outside; and a line of 1023 bytes does not fit for forwarding. -/
theorem readline_full :
    0 ∉ longLine ∧ NoPrompt longLine ∧ (∀ l ∈ ended isEol longLine, l.length < maxAtResponse) ∧
      (readerSystem longLine).exec (.ok (.start longLine)) [0, 10, 4086] = .error .write ∧
      ∀ buf, ¬ ∃ buf', copyUnsolicited buf (some (List.replicate 1023 65)) none = .ok buf' := by
  have hletter : ∀ n, ∀ c ∈ List.replicate n (65 : UInt8), isEol c = false ∧ c ≠ 0 ∧ c ≠ gt := by
    intro n c hc
    rw [List.eq_of_mem_replicate hc]
    decide
  have hline : ∀ c ∈ List.replicate 4095 (65 : UInt8), isEol c = false :=
    fun c hc ↦ (hletter 4095 c hc).1
  have hnl : isEol 10 = true := rfl
  have hnul : ∀ n, 0 ∉ List.replicate n (65 : UInt8) := fun n hmem ↦ (hletter n 0 hmem).2.1 rfl
  refine ⟨?_, ?_, ?_, ?_, fun buf ↦ ?_⟩
  · intro hmem
    rcases List.mem_append.mp hmem with hmem | hmem
    · exact hnul 4095 hmem
    · exact absurd hmem (by decide)
  · unfold NoPrompt longLine
    rw [List.splitOnP_append_cons_of_forall_mem hline 10 hnl, List.splitOnP_nil]
    refine List.forall_mem_cons.mpr ⟨fun hhead ↦ ?_, by decide⟩
    exact (hletter 4095 gt (List.mem_of_head? hhead)).2.2 rfl
  · intro l hl
    have hlen : ∀ n, ∀ l ∈ [List.replicate n (65 : UInt8)].filter (· ≠ []), l.length = n := by
      intro n l hl
      rw [List.mem_singleton.mp (List.mem_of_mem_filter hl), List.length_replicate]
    unfold longLine at hl
    rw [ended_append_cons hline hnl] at hl
    rcases List.mem_append.mp hl with hl | hl
    · rw [hlen 4095 l hl]
      decide
    · cases hl
  · obtain ⟨s, hexec, hphase, hfull⟩ := longLine_started
    have hlast := exec_full hexec hphase (by decide) hfull
    rwa [List.cons_append, List.singleton_append] at hlast
  · rw [copyUnsolicited_ok_iff (hnul 1023) (by simp), Nat.not_lt, length_onUnsolicitedBuf,
      List.length_append, List.length_append, List.length_replicate]
    decide

end Wwan.AtcProxy
