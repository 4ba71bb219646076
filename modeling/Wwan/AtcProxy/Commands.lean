import Mathlib.Data.List.Basic
import Mathlib.Data.List.Perm.Basic
import Wwan.AtcProxy.AtChannel
import Wwan.Lib.Transition

/-!
# Commands and what they return

One thread sends commands and waits for their final responses, while the reader takes lines. The
two meet at `cm_command_mutex`: lines can come between a final response and the return of the wait,
and are answers to the same command.
-/

namespace Wwan.AtcProxy

/-! ## Commands -/

/-- The functions that send a command, with what they are given besides its text. -/
inductive AtCommand
  | /-- `at_send_command`, and a try of `at_handshake` -/
    normal
  | /-- `at_send_command_singleline` -/
    singleline (responsePrefix : Line)
  | /-- `at_send_command_numeric` -/
    numeric
  | /-- `at_send_command_sms` -/
    sms (pdu responsePrefix : Line)
  | /-- `at_send_command_multiline` -/
    multiline (responsePrefix : Line)
  | /-- `at_send_command_raw` -/
    raw (raw_data responsePrefix : Line)
  deriving DecidableEq

namespace AtCommand

def type : AtCommand → ATCommandType
  | .normal => .noResult
  | .singleline _ | .sms _ _ | .raw _ _ => .singleline
  | .numeric => .numeric
  | .multiline _ => .multiline

def responsePrefix : AtCommand → Option Line
  | .normal | .numeric => none
  | .singleline responsePrefix | .sms _ responsePrefix | .multiline responsePrefix
  | .raw _ responsePrefix => some responsePrefix

def smspdu : AtCommand → Option Line
  | .sms pdu _ => some pdu
  | _ => none

/-- `s_raw_data` is set by one of the functions only, and left alone by the others. -/
def rawData (s_raw_data : Option Line) : AtCommand → Option Line
  | .raw raw_data _ => some raw_data
  | _ => s_raw_data

/-- A successful command must have an intermediate response. -/
def Checked : AtCommand → Prop
  | .singleline _ | .numeric | .sms _ _ => True
  | .normal | .multiline _ | .raw _ _ => False

instance : DecidablePred Checked
  | .singleline _ | .numeric | .sms _ _ => .isTrue trivial
  | .normal | .multiline _ | .raw _ _ => .isFalse id

end AtCommand

/-- The errors of a command that was written. -/
inductive AtError
  | channelClosed
  | timeout
  | invalidResponse
  deriving DecidableEq

/-- The result of a command, and `*pp_outResponse`; no error is `0`. -/
structure AtReply where
  err : Option AtError
  response : Option ATResponse
  deriving DecidableEq

def ATResponse.reverseIntermediates (rsp : ATResponse) : ATResponse :=
  { rsp with p_intermediates := rsp.p_intermediates.reverse }

/-- What `at_send_command_full_nolock` returns when its wait is over. -/
def AtChannel.reply (chan : AtChannel) (timedOut readerClosed : Bool) : AtReply :=
  if timedOut then ⟨some .timeout, none⟩
  else
    ⟨if readerClosed then some .channelClosed else none,
      chan.sp_response.map ATResponse.reverseIntermediates⟩

/-- What the function for the command makes of that. -/
def AtCommand.checkReply (command : AtCommand) (reply : AtReply) : AtReply :=
  if command.Checked ∧ reply.err = none ∧
      reply.response.any fun rsp ↦ rsp.success && rsp.p_intermediates.isEmpty then
    ⟨some .invalidResponse, none⟩
  else reply

/-! ## The reader -/

/-- A round of `readerLoop`: a line, and the next one if that is announced. -/
abbrev Round := Line × Option Line

def Round.read (line line2 : Line) : Round :=
  (line, if isSMSUnsolicited line then some line2 else none)

/-- A line that announces another is no matter of the command. -/
def AtChannel.readRound (chan : AtChannel) (r : Round) : AtChannel × LineAction :=
  if r.2.isSome then (chan, .unsolicited) else chan.processLine r.1

/-! ## The two threads -/

/-- A command, with `s_raw_data` when it was written, and what has happened since: the rounds of the
reader, the calls of the handler and what was written for a prompt. -/
structure Exchange where
  command : AtCommand
  raw : Option Line
  rounds : List Round
  handled : List Round
  written : List Line
  deriving DecidableEq

def Exchange.start (command : AtCommand) (raw : Option Line) : Exchange :=
  ⟨command, raw, [], [], []⟩

def Exchange.take (x : Exchange) (r : Round) : LineAction → Exchange
  | .nothing => { x with rounds := x.rounds ++ [r] }
  | .unsolicited => { x with rounds := x.rounds ++ [r], handled := x.handled ++ [r] }
  | .write data => { x with rounds := x.rounds ++ [r], written := x.written ++ [data] }

structure AtThreads where
  chan : AtChannel
  /-- The command that is waited for. -/
  pending : Option Exchange
  /-- The commands that have returned. -/
  returned : List (Exchange × AtReply)

inductive AtThreadsEvent
  | /-- A command is written, or cannot be. -/
    send (command : AtCommand) (written : Bool)
  | /-- The reader has a line, or two. -/
    line (line line2 : Line)
  | /-- The wait returns. -/
    wake (timedOut readerClosed : Bool)

namespace AtThreads

/-- A command is sent by one thread, which waits for the one before. -/
def Enabled (s : AtThreads) : AtThreadsEvent → Prop
  | .send _ _ => s.pending = none
  | .line _ _ => True
  | .wake _ _ => s.pending.isSome

def next (s : AtThreads) : AtThreadsEvent → AtThreads
  | .send command written =>
    let chan := { s.chan with s_raw_data := command.rawData s.chan.s_raw_data }
    let (chan, waits) :=
      chan.startCommand command.type command.responsePrefix command.smspdu written
    { s with
      chan
      pending := if waits then some (.start command chan.s_raw_data) else none }
  | .line line line2 =>
    let (chan, action) := s.chan.readRound (.read line line2)
    { s with chan, pending := s.pending.map fun x ↦ x.take (.read line line2) action }
  | .wake timedOut readerClosed =>
    let (chan, waits) := s.chan.wakeCommand timedOut readerClosed
    if waits then { s with chan }
    else
      { chan
        pending := none
        returned := s.returned ++ (s.pending.map fun x ↦
          (x, x.command.checkReply (s.chan.reply timedOut readerClosed))).toList }

end AtThreads

/-- The channel after `at_open`. -/
def atChannelSystem (proxy : Bool) : System AtThreads AtThreadsEvent where
  init := ⟨{ AtChannel.idle with s_atc_proxy := proxy }, none, []⟩
  enabled := AtThreads.Enabled
  next := AtThreads.next

/-! ## What the lines mean -/

def Round.isFinal (r : Round) : Bool :=
  r.2.isNone && (isFinalResponseSuccess r.1 || isFinalResponseError r.1)

/-- The prompts. -/
def Round.connect : Round := ("CONNECT".toList, none)

def Round.smsPrompt : Round := ("> ".toList, none)

/-- The line is of the form that the command asks for. -/
def AtCommand.answers (line : Line) : AtCommand → Bool
  | .normal => false
  | .numeric => line.head?.any Char.isDigit
  | .singleline responsePrefix | .sms _ responsePrefix | .multiline responsePrefix
  | .raw _ responsePrefix => strStartsWith line responsePrefix

namespace Exchange

variable (x : Exchange)

/-- The rounds without the first of each prompt that is waited for. -/
def answers : List Round :=
  let rounds := if x.raw.isSome then x.rounds.erase .connect else x.rounds
  if x.command.smspdu.isSome then rounds.erase .smsPrompt else rounds

/-- A line that may be an intermediate response. -/
def wants (r : Round) : Bool := r.2.isNone && !r.isFinal && x.command.answers r.1

/-- All of them with a command for several lines, and the first one with the other commands. -/
def intermediates : List Round :=
  if x.command.type = .multiline then x.answers.filter x.wants
  else (x.answers.filter x.wants).take 1

/-- The lines that are no answers. -/
def unsolicited (proxy : Bool) : List Round :=
  let others :=
    if x.command.type = .multiline then x.answers.filter fun r ↦ !x.wants r
    else x.answers.eraseP x.wants
  others.filter fun r ↦ proxy || !r.isFinal

/-- The final responses; the last of them stays. -/
def finals : List Round := x.answers.filter Round.isFinal

def response : ATResponse where
  success := x.finals.getLast?.any fun r ↦ isFinalResponseSuccess r.1
  finalResponse := x.finals.getLast?.map Prod.fst
  p_intermediates := x.intermediates.map Prod.fst

/-- What the prompts are answered with. -/
def prompted : List Line :=
  (if Round.connect ∈ x.rounds then x.raw.toList else []) ++
    if Round.smsPrompt ∈ x.rounds then (x.command.smspdu.map (· ++ [Char.ofNat 26])).toList else []

end Exchange

/-! ## Rounds one by one -/

namespace Exchange

variable {x : Exchange} {proxy : Bool}

/-- The channel as the rounds have left it. -/
def chan (x : Exchange) (proxy : Bool) : AtChannel where
  s_atc_proxy := proxy
  s_type := x.command.type
  s_responsePrefix := x.command.responsePrefix
  s_smsPDU := if Round.smsPrompt ∈ x.rounds then none else x.command.smspdu
  s_raw_data := if Round.connect ∈ x.rounds then none else x.raw
  sp_response := some x.response.reverseIntermediates

/-- The round is the prompt that the data is for. -/
def AwaitsConnect (x : Exchange) (r : Round) : Prop :=
  r = .connect ∧ x.raw.isSome ∧ Round.connect ∉ x.rounds

def AwaitsPdu (x : Exchange) (r : Round) : Prop :=
  r = .smsPrompt ∧ x.command.smspdu.isSome ∧ Round.smsPrompt ∉ x.rounds

instance (r : Round) : Decidable (x.AwaitsConnect r) :=
  inferInstanceAs (Decidable (_ ∧ _ ∧ _))

instance (r : Round) : Decidable (x.AwaitsPdu r) :=
  inferInstanceAs (Decidable (_ ∧ _ ∧ _))

/-- The command takes another intermediate response. -/
def Open (x : Exchange) : Prop := x.command.type = .multiline ∨ x.intermediates = []

instance : Decidable x.Open := inferInstanceAs (Decidable (_ ∨ _))

/-! ### What a round adds -/

@[simp] theorem rounds_take (r : Round) (action : LineAction) :
    (x.take r action).rounds = x.rounds ++ [r] := by cases action <;> rfl

@[simp] theorem command_take (r : Round) (action : LineAction) :
    (x.take r action).command = x.command := by cases action <;> rfl

@[simp] theorem raw_take (r : Round) (action : LineAction) : (x.take r action).raw = x.raw := by
  cases action <;> rfl

theorem wants_take (r : Round) (action : LineAction) : (x.take r action).wants = x.wants := by
  funext r'
  simp only [wants, command_take]

/-- The first one of a kind is taken out, whatever comes behind it. -/
theorem erase_concat (rounds : List Round) (r prompt : Round) :
    (rounds ++ [r]).erase prompt =
      if r = prompt ∧ prompt ∉ rounds then rounds.erase prompt
      else rounds.erase prompt ++ [r] := by
  by_cases hmem : prompt ∈ rounds
  · rw [List.erase_append_left _ hmem, if_neg fun h ↦ h.2 hmem]
  · rw [List.erase_append_right _ hmem, List.erase_of_not_mem hmem]
    by_cases hr : r = prompt
    · rw [if_pos ⟨hr, hmem⟩, hr, List.erase_cons_head, List.append_nil]
    · rw [if_neg fun h ↦ hr h.1, List.erase_cons_tail (by simpa using hr), List.erase_nil]

theorem eraseP_concat (rounds : List Round) (r : Round) (p : Round → Bool) :
    (rounds ++ [r]).eraseP p =
      if rounds.filter p = [] ∧ p r then rounds else rounds.eraseP p ++ [r] := by
  by_cases hnone : rounds.filter p = []
  · have hnot := List.filter_eq_nil_iff.mp hnone
    rw [List.eraseP_append_right _ hnot, List.eraseP_of_forall_not hnot]
    by_cases hr : p r = true
    · rw [if_pos ⟨hnone, hr⟩, List.eraseP_cons_of_pos hr, List.append_nil]
    · rw [if_neg fun h ↦ hr h.2, List.eraseP_cons_of_neg hr, List.eraseP_nil]
  · obtain ⟨r', hr'⟩ := List.exists_mem_of_ne_nil _ hnone
    obtain ⟨hmem, hp⟩ := List.mem_filter.mp hr'
    rw [List.eraseP_append_left hp _ hmem, if_neg fun h ↦ hnone h.1]

theorem answers_take {r : Round} (hconnect : ¬x.AwaitsConnect r) (hpdu : ¬x.AwaitsPdu r)
    (action : LineAction) : (x.take r action).answers = x.answers ++ [r] := by
  have hraw : (if x.raw.isSome then (x.rounds ++ [r]).erase .connect else x.rounds ++ [r]) =
      (if x.raw.isSome then x.rounds.erase .connect else x.rounds) ++ [r] := by
    split
    · rename_i hsome
      rw [erase_concat, if_neg fun h : _ ∧ _ ↦ hconnect ⟨h.1, hsome, h.2⟩]
    · rfl
  simp only [answers, rounds_take, command_take, raw_take, hraw]
  split
  · rename_i hsome
    rw [erase_concat, if_neg]
    rintro ⟨rfl, hmem⟩
    refine hpdu ⟨rfl, hsome, fun hrounds ↦ hmem ?_⟩
    split
    · exact (List.mem_erase_of_ne (by decide)).mpr hrounds
    · exact hrounds
  · rfl

theorem answers_take_connect {r : Round} (h : x.AwaitsConnect r) (action : LineAction) :
    (x.take r action).answers = x.answers := by
  obtain ⟨rfl, hsome, hmem⟩ := h
  have herase : (x.rounds ++ [Round.connect]).erase .connect = x.rounds.erase .connect := by
    rw [erase_concat, if_pos ⟨rfl, hmem⟩]
  simp only [answers, rounds_take, command_take, raw_take, if_pos hsome, herase]

theorem answers_take_pdu {r : Round} (h : x.AwaitsPdu r) (action : LineAction) :
    (x.take r action).answers = x.answers := by
  obtain ⟨rfl, hsome, hmem⟩ := h
  have hraw : (if x.raw.isSome then (x.rounds ++ [Round.smsPrompt]).erase .connect
      else x.rounds ++ [Round.smsPrompt]) =
      (if x.raw.isSome then x.rounds.erase .connect else x.rounds) ++ [Round.smsPrompt] := by
    split
    · rw [erase_concat, if_neg fun h : _ ∧ _ ↦ absurd h.1 (by decide)]
    · rfl
  simp only [answers, rounds_take, command_take, raw_take, hraw, if_pos hsome]
  rw [erase_concat, if_pos]
  refine ⟨rfl, fun hrounds ↦ hmem ?_⟩
  split at hrounds
  · exact List.mem_of_mem_erase hrounds
  · exact hrounds

/-- Only the prompt that data waits for makes a difference. -/
theorem pending_concat {β : Type} {rounds : List Round} {r prompt : Round} {data : Option Line}
    (h : ¬(r = prompt ∧ data.isSome ∧ prompt ∉ rounds)) (f g : Option Line → β)
    (hnone : f none = g none) :
    (if prompt ∈ rounds ++ [r] then f data else g data) =
      if prompt ∈ rounds then f data else g data := by
  simp only [List.mem_append, List.mem_singleton]
  by_cases hmem : prompt ∈ rounds
  · rw [if_pos (.inl hmem), if_pos hmem]
  · by_cases hr : prompt = r
    · rw [if_pos (.inr hr), if_neg hmem]
      cases data with
      | none => exact hnone
      | some data => exact absurd ⟨hr.symm, rfl, hmem⟩ h
    · rw [if_neg fun h ↦ h.elim hmem hr, if_neg hmem]

section Answers

variable {r : Round} {action : LineAction}

theorem finals_take (h : (x.take r action).answers = x.answers ++ [r]) :
    (x.take r action).finals = x.finals ++ if r.isFinal then [r] else [] := by
  rw [finals, h, List.filter_append, List.filter_cons, List.filter_nil]
  rfl

theorem filter_wants_take (h : (x.take r action).answers = x.answers ++ [r]) :
    (x.take r action).answers.filter (x.take r action).wants =
      x.answers.filter x.wants ++ if x.wants r then [r] else [] := by
  rw [wants_take, h, List.filter_append, List.filter_cons, List.filter_nil]

/-- With one intermediate response, the command is open until it has it. -/
theorem open_iff (hsingle : ¬x.command.type = .multiline) :
    x.Open ↔ x.answers.filter x.wants = [] := by
  rw [Open, or_iff_right hsingle, intermediates, if_neg hsingle, List.take_eq_nil_iff]
  exact or_iff_right Nat.one_ne_zero

/-- The command takes a line if it wants it and does not have one already. -/
theorem intermediates_take (h : (x.take r action).answers = x.answers ++ [r]) :
    (x.take r action).intermediates =
      x.intermediates ++ if x.wants r ∧ x.Open then [r] else [] := by
  rw [intermediates, command_take, filter_wants_take h]
  by_cases hseveral : x.command.type = .multiline
  · rw [if_pos hseveral, intermediates, if_pos hseveral]
    simp only [Open, hseveral, true_or, and_true]
  · have hopen := open_iff hseveral
    rw [if_neg hseveral, intermediates, if_neg hseveral]
    cases hall : x.answers.filter x.wants with
    | nil => simp only [hopen.mpr hall, and_true]; split <;> rfl
    | cons r' rest =>
      have hclosed : ¬x.Open := fun h ↦ List.cons_ne_nil _ _ (hall.symm.trans (hopen.mp h))
      simp only [hclosed, and_false, if_false, List.append_nil]
      rfl

/-- The handler gets what the command does not take. -/
theorem unsolicited_take (h : (x.take r action).answers = x.answers ++ [r]) (proxy : Bool) :
    (x.take r action).unsolicited proxy = x.unsolicited proxy ++
      if x.wants r ∧ x.Open then [] else if proxy || !r.isFinal then [r] else [] := by
  simp only [unsolicited, command_take, wants_take, h]
  by_cases hseveral : x.command.type = .multiline
  · have hopen : x.Open := .inl hseveral
    simp only [if_pos hseveral, hopen, and_true, List.filter_append, List.filter_cons,
      List.filter_nil]
    cases hwants : x.wants r
    · simp [List.filter_cons]
    · rfl
  · have hiff : (x.wants r = true ∧ x.Open) ↔ (x.answers.filter x.wants = [] ∧ x.wants r) := by
      rw [open_iff hseveral, and_comm]
    simp only [if_neg hseveral, eraseP_concat, hiff]
    by_cases htakes : x.answers.filter x.wants = [] ∧ x.wants r = true
    · have hnot := List.filter_eq_nil_iff.mp htakes.1
      rw [if_pos htakes, if_pos htakes, List.append_nil, List.eraseP_of_forall_not hnot]
    · rw [if_neg htakes, if_neg htakes, List.filter_append, List.filter_cons, List.filter_nil]

/-- A line that is not answered at once changes the response as `processLine` does. -/
theorem chan_take (hconnect : ¬x.AwaitsConnect r) (hpdu : ¬x.AwaitsPdu r) :
    (x.take r action).chan proxy = { x.chan proxy with
      sp_response := some (x.take r action).response.reverseIntermediates } := by
  have hraw := pending_concat hconnect (fun _ ↦ none) id rfl
  have hsms := pending_concat hpdu (fun _ ↦ none) id rfl
  simp only [id_eq] at hraw hsms
  simp only [chan, rounds_take, command_take, raw_take, hraw, hsms]

end Answers

/-! ### The round of the reader -/

/-- What happened is what the rounds are about. -/
structure Recorded (x : Exchange) (proxy : Bool) : Prop where
  handled : x.handled = x.unsolicited proxy
  written : x.written.Perm x.prompted

/-- What comes of a round while the command is pending. -/
def Takes (x : Exchange) (proxy : Bool) (r : Round) (result : AtChannel × LineAction) : Prop :=
  result.1 = (x.take r result.2).chan proxy ∧
    (x.Recorded proxy → (x.take r result.2).Recorded proxy)

variable {r : Round}

theorem response_congr {action : LineAction} (h : (x.take r action).answers = x.answers) :
    (x.take r action).response = x.response := by
  simp only [response, finals, intermediates, command_take, wants_take, h]

theorem unsolicited_congr {action : LineAction} (h : (x.take r action).answers = x.answers) :
    (x.take r action).unsolicited proxy = x.unsolicited proxy := by
  simp only [unsolicited, command_take, wants_take, h]

theorem prompted_connect (h : x.AwaitsConnect r) :
    ((x.take r (.write (x.raw.getD []))).prompted).Perm (x.prompted ++ [x.raw.getD []]) := by
  obtain ⟨rfl, hsome, hmem⟩ := h
  obtain ⟨raw, hraw⟩ := Option.isSome_iff_exists.mp hsome
  have hne : Round.smsPrompt ≠ .connect := by decide
  simp only [prompted, rounds_take, command_take, raw_take, List.mem_append, List.mem_singleton,
    hmem, hne, hraw, or_true, or_false, if_true, if_false, Option.toList_some, List.nil_append,
    Option.getD_some]
  exact List.perm_append_comm

theorem prompted_pdu (h : x.AwaitsPdu r) :
    (x.take r (.write (x.command.smspdu.getD [] ++ [Char.ofNat 26]))).prompted =
      x.prompted ++ [x.command.smspdu.getD [] ++ [Char.ofNat 26]] := by
  obtain ⟨rfl, hsome, hmem⟩ := h
  obtain ⟨pdu, hpdu⟩ := Option.isSome_iff_exists.mp hsome
  have hne : Round.connect ≠ .smsPrompt := by decide
  simp only [prompted, rounds_take, command_take, raw_take, List.mem_append, List.mem_singleton,
    hmem, hne, hpdu, or_true, or_false, if_true, if_false, Option.toList_some, List.append_nil,
    Option.getD_some, Option.map_some]

theorem prompted_take {action : LineAction} (hconnect : ¬x.AwaitsConnect r)
    (hpdu : ¬x.AwaitsPdu r) : (x.take r action).prompted = x.prompted := by
  have hraw := pending_concat hconnect Option.toList (fun _ ↦ []) rfl
  have hsms := pending_concat hpdu (fun pdu ↦ (pdu.map (· ++ [Char.ofNat 26])).toList)
    (fun _ ↦ []) rfl
  simp only [prompted, rounds_take, command_take, raw_take, hraw, hsms]

theorem takes_connect (h : x.AwaitsConnect r) : x.Takes proxy r
    ({ x.chan proxy with s_raw_data := none }, .write (x.raw.getD [])) := by
  have hanswers := answers_take_connect h (.write (x.raw.getD []))
  refine ⟨?_, fun hrec ↦ ⟨?_, ?_⟩⟩
  · have hpdu : ¬x.AwaitsPdu r := fun hpdu ↦ absurd (h.1.symm.trans hpdu.1) (by decide)
    have hsms := pending_concat hpdu (fun _ ↦ none) id rfl
    have hmem : Round.connect ∈ x.rounds ++ [r] := by simp [h.1]
    simp only [id_eq] at hsms
    simp only [chan, rounds_take, command_take, raw_take, hsms, response_congr hanswers,
      if_pos hmem]
  · exact hrec.handled.trans (unsolicited_congr hanswers).symm
  · exact (hrec.written.append_right _).trans (prompted_connect h).symm

theorem takes_pdu (h : x.AwaitsPdu r) : x.Takes proxy r
    ({ x.chan proxy with s_smsPDU := none },
      .write (x.command.smspdu.getD [] ++ [Char.ofNat 26])) := by
  have hanswers := answers_take_pdu h (.write (x.command.smspdu.getD [] ++ [Char.ofNat 26]))
  refine ⟨?_, fun hrec ↦ ⟨?_, ?_⟩⟩
  · have hconnect : ¬x.AwaitsConnect r := fun hc ↦ absurd (h.1.symm.trans hc.1) (by decide)
    have hraw := pending_concat hconnect (fun _ ↦ none) id rfl
    have hmem : Round.smsPrompt ∈ x.rounds ++ [r] := by simp [h.1]
    simp only [id_eq] at hraw
    simp only [chan, rounds_take, command_take, raw_take, hraw, response_congr hanswers,
      if_pos hmem]
  · exact hrec.handled.trans (unsolicited_congr hanswers).symm
  · exact (hrec.written.append_right _).trans (.of_eq (prompted_pdu h).symm)

section Plain

variable (hconnect : ¬x.AwaitsConnect r) (hpdu : ¬x.AwaitsPdu r)

include hconnect hpdu

theorem takes_final (hfinal : r.isFinal) : x.Takes proxy r
    ((x.chan proxy).handleFinalResponse x.response.reverseIntermediates
      (isFinalResponseSuccess r.1) r.1, if proxy then .unsolicited else .nothing) := by
  have hwants : x.wants r = false := by simp [wants, hfinal]
  have hresponse (action : LineAction) : (x.take r action).response =
      { x.response with success := isFinalResponseSuccess r.1, finalResponse := some r.1 } := by
    have hanswers := answers_take hconnect hpdu action
    simp [response, finals_take hanswers, intermediates_take hanswers, hfinal, hwants]
  refine ⟨?_, fun hrec ↦ ⟨?_, ?_⟩⟩
  · rw [chan_take hconnect hpdu, hresponse]
    rfl
  · have hanswers := answers_take hconnect hpdu (if proxy then .unsolicited else .nothing)
    rw [unsolicited_take hanswers, ← hrec.handled]
    cases proxy <;> simp [take, hfinal, hwants]
  · rw [prompted_take hconnect hpdu]
    cases proxy <;> exact hrec.written

/-- The command takes the line. -/
theorem takes_wanted (hwants : x.wants r) (hopen : x.Open) : x.Takes proxy r
    ((x.chan proxy).addIntermediate x.response.reverseIntermediates r.1, .nothing) := by
  have hanswers := answers_take hconnect hpdu .nothing
  have hfinal : r.isFinal = false := by
    simp only [wants, Bool.and_eq_true, Bool.not_eq_true'] at hwants
    exact hwants.1.2
  refine ⟨?_, fun hrec ↦ ⟨?_, ?_⟩⟩
  · have hresponse : (x.take r .nothing).response.reverseIntermediates =
        { x.response.reverseIntermediates with
          p_intermediates := r.1 :: x.response.reverseIntermediates.p_intermediates } := by
      simp [response, ATResponse.reverseIntermediates, finals_take hanswers,
        intermediates_take hanswers, hfinal, hwants, hopen]
    rw [chan_take hconnect hpdu, hresponse]
    rfl
  · rw [unsolicited_take hanswers, if_pos ⟨hwants, hopen⟩, List.append_nil]
    exact hrec.handled
  · rw [prompted_take hconnect hpdu]
    exact hrec.written

/-- The handler gets the line. -/
theorem takes_other (hfinal : r.isFinal = false) (hnot : ¬(x.wants r ∧ x.Open)) :
    x.Takes proxy r (x.chan proxy, .unsolicited) := by
  have hanswers := answers_take hconnect hpdu .unsolicited
  refine ⟨?_, fun hrec ↦ ⟨?_, ?_⟩⟩
  · have hresponse : (x.take r .unsolicited).response = x.response := by
      simp [response, finals_take hanswers, intermediates_take hanswers, hfinal, hnot]
    rw [chan_take hconnect hpdu, hresponse]
    rfl
  · rw [unsolicited_take hanswers, if_neg hnot, ← hrec.handled, hfinal, Bool.not_false,
      Bool.or_true, if_pos rfl]
    rfl
  · rw [prompted_take hconnect hpdu]
    exact hrec.written

end Plain

/-- A prompt is one when its data waits. -/
theorem pending_iff {rounds : List Round} {line prompt : Line} {data : Option Line} :
    ((if (prompt, none) ∈ rounds then none else data).isSome ∧ line = prompt) ↔
      ((line, none) : Round) = (prompt, none) ∧ data.isSome ∧
        ((prompt, none) : Round) ∉ rounds := by
  rw [Prod.mk.injEq, and_comm]
  by_cases hmem : ((prompt, none) : Round) ∈ rounds <;> simp [hmem]

/-- A line that is no final response and no prompt is taken if the command wants it and is open. -/
theorem intermediate_chan {line : Line} (hfinal : Round.isFinal (line, none) = false) :
    (x.chan proxy).intermediate x.response.reverseIntermediates line =
      if x.wants (line, none) ∧ x.Open then
        ((x.chan proxy).addIntermediate x.response.reverseIntermediates line, .nothing)
      else (x.chan proxy, .unsolicited) := by
  have hwants : x.wants (line, none) = x.command.answers line := by simp [wants, hfinal]
  have hempty : x.response.reverseIntermediates.p_intermediates.isEmpty ↔
      x.intermediates = [] := by simp [response, ATResponse.reverseIntermediates]
  have htype : (x.chan proxy).s_type = x.command.type := rfl
  have hstart : (x.chan proxy).s_responsePrefix = x.command.responsePrefix := rfl
  have hopen : x.Open ↔ x.command.type = .multiline ∨ x.intermediates = [] := Iff.rfl
  simp only [AtChannel.intermediate, htype, hstart, hwants, hopen, hempty]
  generalize x.command = command
  cases command with
  | normal => simp [AtCommand.type, AtCommand.answers]
  | numeric => simp [AtCommand.type, AtCommand.answers, and_comm]
  | multiline responsePrefix =>
    by_cases hline : strStartsWith line responsePrefix = true
    · simp [AtCommand.type, AtCommand.answers, AtCommand.responsePrefix, hline]
    · simp [AtCommand.type, AtCommand.answers, AtCommand.responsePrefix, hline]
  | singleline responsePrefix | sms pdu responsePrefix | raw data responsePrefix =>
    simp [AtCommand.type, AtCommand.answers, AtCommand.responsePrefix, and_comm]

/-- `processLine` when a command is pending, with the cases in its order -/
theorem takes_processLine (line : Line) :
    x.Takes proxy (line, none) ((x.chan proxy).processLine line) := by
  have hconnect : ((x.chan proxy).s_raw_data.isSome ∧ line = "CONNECT".toList) ↔
      x.AwaitsConnect (line, none) := pending_iff
  have hpdu : ((x.chan proxy).s_smsPDU.isSome ∧ line = "> ".toList) ↔
      x.AwaitsPdu (line, none) := pending_iff
  change x.Takes proxy (line, none) (if _ then _ else _)
  by_cases hawaits : x.AwaitsConnect (line, none)
  · rw [if_pos (hconnect.mpr hawaits)]
    have hdata : (x.chan proxy).s_raw_data = x.raw := if_neg hawaits.2.2
    rw [hdata]
    exact takes_connect hawaits
  rw [if_neg (mt hconnect.mp hawaits)]
  have hnotPdu (hfinal : Round.isFinal (line, none)) : ¬x.AwaitsPdu (line, none) := by
    rintro ⟨hprompt, -⟩
    exact absurd (hprompt ▸ hfinal) (by decide)
  by_cases hsuccess : isFinalResponseSuccess line = true
  · have hfinal : Round.isFinal (line, none) := by simp [Round.isFinal, hsuccess]
    have htakes : x.Takes proxy _ _ := takes_final hawaits (hnotPdu hfinal) hfinal
    rw [hsuccess] at htakes
    rwa [if_pos hsuccess]
  rw [if_neg hsuccess]
  by_cases herror : isFinalResponseError line = true
  · have hfinal : Round.isFinal (line, none) := by simp [Round.isFinal, herror]
    have htakes : x.Takes proxy _ _ := takes_final hawaits (hnotPdu hfinal) hfinal
    rw [(Bool.not_eq_true _).mp hsuccess] at htakes
    rwa [if_pos herror]
  rw [if_neg herror]
  have hfinal : Round.isFinal (line, none) = false := by simp [Round.isFinal, hsuccess, herror]
  by_cases hprompt : x.AwaitsPdu (line, none)
  · rw [if_pos (hpdu.mpr hprompt)]
    have hdata : (x.chan proxy).s_smsPDU = x.command.smspdu := if_neg hprompt.2.2
    rw [hdata]
    exact takes_pdu hprompt
  rw [if_neg (mt hpdu.mp hprompt), intermediate_chan hfinal]
  by_cases hwanted : x.wants (line, none) ∧ x.Open
  · rw [if_pos hwanted]
    exact takes_wanted hawaits hprompt hwanted.1 hwanted.2
  · rw [if_neg hwanted]
    exact takes_other hawaits hprompt hfinal hwanted

theorem takes_readRound (r : Round) : x.Takes proxy r ((x.chan proxy).readRound r) := by
  obtain ⟨line, line2⟩ := r
  cases line2 with
  | none => exact takes_processLine line
  | some line2 =>
    have hconnect : ¬x.AwaitsConnect (line, some line2) :=
      fun h ↦ Option.some_ne_none _ (congrArg Prod.snd h.1)
    have hpdu : ¬x.AwaitsPdu (line, some line2) :=
      fun h ↦ Option.some_ne_none _ (congrArg Prod.snd h.1)
    have hwants : ¬(x.wants (line, some line2) ∧ x.Open) := fun h ↦ Bool.false_ne_true h.1
    exact takes_other hconnect hpdu rfl hwants

theorem answers_sublist : x.answers.Sublist x.rounds := by
  have hraw : (if x.raw.isSome then x.rounds.erase .connect else x.rounds).Sublist x.rounds := by
    split
    · exact List.erase_sublist
    · exact .refl _
  unfold answers
  dsimp only
  split
  · exact List.erase_sublist.trans hraw
  · exact hraw

theorem answers_start (command : AtCommand) (raw : Option Line) :
    (start command raw).answers = [] := List.sublist_nil.mp answers_sublist

theorem chan_start (command : AtCommand) (raw : Option Line) :
    (start command raw).chan proxy =
      { s_atc_proxy := proxy
        s_type := command.type
        s_responsePrefix := command.responsePrefix
        s_smsPDU := command.smspdu
        s_raw_data := raw
        sp_response := some .new } := by
  have hresponse : (start command raw).response.reverseIntermediates = .new := by
    simp [response, finals, intermediates, answers_start, ATResponse.reverseIntermediates,
      ATResponse.new]
  rw [chan, hresponse]
  rfl

theorem recorded_start (command : AtCommand) (raw : Option Line) :
    (start command raw).Recorded proxy := by
  have hunsolicited : (start command raw).unsolicited proxy = [] := by
    simp [unsolicited, answers_start]
  exact ⟨hunsolicited.symm, .of_eq (by simp [prompted, start])⟩

/-! ### Where the lines are -/

/-- The prompt, and what is to be written for it. -/
def Prompts (x : Exchange) (r : Round) (data : Line) : Prop :=
  r = .connect ∧ x.raw = some data ∨
    r = .smsPrompt ∧ x.command.smspdu.map (· ++ [Char.ofNat 26]) = some data

/-- Each round is a prompt that was answered, an intermediate response, a final response, or was
passed to the handler, and the handler of a proxy gets the final responses too. What was written is
the raw data for `CONNECT` and the PDU for `> `, each once at most. -/
structure Accounted (x : Exchange) (proxy : Bool) : Prop where
  rounds : ∃ answered : List (Round × Line), (∀ a ∈ answered, x.Prompts a.1 a.2) ∧
    (answered.map Prod.fst).Nodup ∧ x.written.Perm (answered.map Prod.snd) ∧
      (answered.map Prod.fst ++ x.intermediates ++ (if proxy then [] else x.finals) ++
        x.handled).Perm x.rounds
  handled : x.handled.Sublist x.rounds
  intermediates : x.intermediates.Sublist x.rounds

/-- One that satisfies the predicate, if there is one, and the others. -/
theorem take_one_eraseP_perm (p : Round → Bool) (rounds : List Round) :
    ((rounds.filter p).take 1 ++ rounds.eraseP p).Perm rounds := by
  induction rounds with
  | nil => exact .nil
  | cons r rounds ih =>
    by_cases hr : p r = true
    · rw [List.filter_cons_of_pos hr, List.eraseP_cons_of_pos hr]
      exact .refl _
    · rw [List.filter_cons_of_neg hr, List.eraseP_cons_of_neg hr]
      exact List.perm_middle.trans (ih.cons r)

/-- The answers are the intermediate responses and what is left of them. -/
theorem intermediates_append_perm (x : Exchange) :
    (x.intermediates ++ if x.command.type = .multiline then x.answers.filter fun r ↦ !x.wants r
      else x.answers.eraseP x.wants).Perm x.answers := by
  unfold intermediates
  split
  · exact List.filter_append_perm _ _
  · exact take_one_eraseP_perm _ _

theorem not_final_of_mem {r : Round} (h : r ∈ x.intermediates) : r.isFinal = false := by
  have hmem : r ∈ x.answers.filter x.wants := by
    unfold intermediates at h
    split at h
    · exact h
    · exact List.mem_of_mem_take h
  have hwants := (List.mem_filter.mp hmem).2
  simp only [wants, Bool.and_eq_true, Bool.not_eq_true'] at hwants
  exact hwants.1.2

theorem unsolicited_perm (x : Exchange) (proxy : Bool) :
    (x.intermediates ++ (if proxy then [] else x.finals) ++ x.unsolicited proxy).Perm
      x.answers := by
  have hsplit := x.intermediates_append_perm
  unfold unsolicited
  dsimp only
  generalize (if x.command.type = .multiline then x.answers.filter fun r ↦ !x.wants r
    else x.answers.eraseP x.wants) = others at hsplit ⊢
  cases proxy with
  | true => simpa using hsplit
  | false =>
    have hnone : x.intermediates.filter Round.isFinal = [] :=
      List.filter_eq_nil_iff.mpr fun r hr ↦ by simp [not_final_of_mem hr]
    have hfinals : (others.filter Round.isFinal).Perm x.finals := by
      have hfilter := hsplit.filter Round.isFinal
      rwa [List.filter_append, hnone, List.nil_append] at hfilter
    have hothers : (x.finals ++ others.filter fun r ↦ !r.isFinal).Perm others :=
      (hfinals.symm.append_right _).trans (List.filter_append_perm _ _)
    simp only [Bool.false_eq_true, if_false, Bool.false_or]
    rw [List.append_assoc]
    exact (hothers.append_left _).trans hsplit

/-- The prompts that were answered, with what was written for them. -/
def answered (x : Exchange) : List (Round × Line) :=
  (if Round.connect ∈ x.rounds then (x.raw.map (Round.connect, ·)).toList else []) ++
    if Round.smsPrompt ∈ x.rounds then
      (x.command.smspdu.map fun pdu ↦ (Round.smsPrompt, pdu ++ [Char.ofNat 26])).toList
    else []

theorem map_snd_answered (x : Exchange) : x.answered.map Prod.snd = x.prompted := by
  rw [answered, prompted, List.map_append]
  congr 1
  · cases x.raw <;> split <;> rfl
  · cases x.command.smspdu <;> split <;> rfl

theorem prompts_answered (x : Exchange) : ∀ a ∈ x.answered, x.Prompts a.1 a.2 := by
  intro a ha
  rcases List.mem_append.mp ha with ha | ha
  · split at ha
    · obtain ⟨data, hdata, rfl⟩ := Option.map_eq_some_iff.mp (Option.mem_toList.mp ha)
      exact .inl ⟨rfl, hdata⟩
    · cases ha
  · split at ha
    · obtain ⟨pdu, hpdu, rfl⟩ := Option.map_eq_some_iff.mp (Option.mem_toList.mp ha)
      exact .inr ⟨rfl, by rw [hpdu]; rfl⟩
    · cases ha

theorem nodup_answered (x : Exchange) : (x.answered.map Prod.fst).Nodup := by
  have hone (prompt : Round) (data : Option Line) (f : Line → Line) :
      ((if prompt ∈ x.rounds then (data.map fun data ↦ (prompt, f data)).toList else []).map
        Prod.fst).Sublist [prompt] := by
    split
    · cases data with
      | none => exact List.nil_sublist _
      | some data => exact .refl _
    · exact List.nil_sublist _
  have hsub := (hone .connect x.raw id).append
    (hone .smsPrompt x.command.smspdu (· ++ [Char.ofNat 26]))
  rw [answered, List.map_append]
  exact List.Nodup.sublist hsub (by decide)

theorem answered_append_perm (x : Exchange) :
    (x.answered.map Prod.fst ++ x.answers).Perm x.rounds := by
  have hone (prompt : Round) (data : Option Line) (f : Line → Line) (rounds : List Round) :
      ((if prompt ∈ rounds then (data.map fun data ↦ (prompt, f data)).toList else []).map
        Prod.fst ++ if data.isSome then rounds.erase prompt else rounds).Perm rounds := by
    cases data with
    | none =>
      rw [Option.map_none, Option.toList_none, ite_self]
      exact .refl _
    | some data =>
      by_cases hmem : prompt ∈ rounds
      · rw [if_pos hmem]
        exact (List.perm_cons_erase hmem).symm
      · rw [if_neg hmem]
        exact .of_eq (List.erase_of_not_mem hmem)
  have hraw := hone .connect x.raw id x.rounds
  have hsms := hone .smsPrompt x.command.smspdu (· ++ [Char.ofNat 26])
    (if x.raw.isSome then x.rounds.erase .connect else x.rounds)
  have hmem : Round.smsPrompt ∈ (if x.raw.isSome then x.rounds.erase .connect else x.rounds) ↔
      Round.smsPrompt ∈ x.rounds := by
    split
    · exact List.mem_erase_of_ne (by decide)
    · exact Iff.rfl
  simp only [hmem] at hsms
  rw [answered, List.map_append, List.append_assoc]
  exact (hsms.append_left _).trans hraw

theorem Recorded.accounted (h : x.Recorded proxy) : x.Accounted proxy := by
  refine ⟨⟨x.answered, x.prompts_answered, x.nodup_answered, ?_, ?_⟩, ?_, ?_⟩
  · rw [map_snd_answered]
    exact h.written
  · rw [h.handled, List.append_assoc, List.append_assoc, ← List.append_assoc x.intermediates]
    exact ((x.unsolicited_perm proxy).append_left _).trans x.answered_append_perm
  · rw [h.handled]
    refine List.filter_sublist.trans (List.Sublist.trans ?_ answers_sublist)
    split
    · exact List.filter_sublist
    · exact List.eraseP_sublist
  · refine List.Sublist.trans ?_ answers_sublist
    unfold Exchange.intermediates
    split
    · exact List.filter_sublist
    · exact (List.take_sublist 1 _).trans List.filter_sublist

/-! ### What is returned -/

/-- What the function for the command may return after the rounds. -/
def Returns (x : Exchange) (reply : AtReply) : Prop :=
  reply = ⟨some .timeout, none⟩ ∨
  reply = ⟨some .channelClosed, some x.response⟩ ∨
  x.response.finalResponse.isSome ∧ reply = x.command.checkReply ⟨none, some x.response⟩

theorem reverse_reverseIntermediates (rsp : ATResponse) :
    rsp.reverseIntermediates.reverseIntermediates = rsp := by
  simp [ATResponse.reverseIntermediates]

theorem returns_wake {timedOut readerClosed : Bool}
    (h : ((x.chan proxy).wakeCommand timedOut readerClosed).2 = false) :
    x.Returns (x.command.checkReply ((x.chan proxy).reply timedOut readerClosed)) := by
  cases timedOut with
  | true => exact .inl (if_neg (by simp [AtChannel.reply]))
  | false =>
    have hreply : (x.chan proxy).reply false readerClosed =
        ⟨if readerClosed then some .channelClosed else none, some x.response⟩ := by
      simp [AtChannel.reply, chan, reverse_reverseIntermediates]
    cases readerClosed with
    | true =>
      rw [hreply]
      exact .inr (.inl (if_neg (by simp)))
    | false =>
      rw [hreply]
      refine .inr (.inr ⟨?_, rfl⟩)
      by_contra hnone
      have hwaits : ((x.chan proxy).wakeCommand false false).2 = true := by
        have hopen : x.response.finalResponse.isNone = true := by simpa using hnone
        simp [AtChannel.wakeCommand, chan, ATResponse.reverseIntermediates, hopen]
      exact absurd (hwaits.symm.trans h) (by decide)

end Exchange

/-! ## Runs -/

/-- The channel is as the rounds since the command was written have left it. -/
structure AtThreads.Inv (proxy : Bool) (s : AtThreads) : Prop where
  pending : ∀ x, s.pending = some x → s.chan = x.chan proxy ∧ x.Recorded proxy
  idle : s.pending = none → s.chan.sp_response = none ∧ s.chan.s_atc_proxy = proxy
  returned : ∀ x ∈ s.returned, x.1.Recorded proxy ∧ x.1.Returns x.2

namespace AtThreads.Inv

variable {proxy : Bool} {s : AtThreads}

theorem send (h : s.Inv proxy) (hnone : s.pending = none) (command : AtCommand) (written : Bool) :
    (s.next (.send command written)).Inv proxy := by
  obtain ⟨hrsp, hproxy⟩ := h.idle hnone
  cases written with
  | false =>
    refine ⟨fun x hx ↦ ?_, fun _ ↦ ⟨?_, ?_⟩, h.returned⟩
    · simp [next, AtChannel.startCommand] at hx
    · simp [next, AtChannel.startCommand, AtChannel.clearPendingCommand]
    · simpa [next, AtChannel.startCommand, AtChannel.clearPendingCommand] using hproxy
  | true =>
    refine ⟨fun x hx ↦ ?_, fun hx ↦ ?_, h.returned⟩
    · have hstart : x = .start command (command.rawData s.chan.s_raw_data) := by
        simpa [next, AtChannel.startCommand, hrsp] using hx.symm
      subst hstart
      refine ⟨?_, Exchange.recorded_start _ _⟩
      rw [Exchange.chan_start, ← hproxy]
      simp [next, AtChannel.startCommand, hrsp]
    · simp [next, AtChannel.startCommand, hrsp] at hx

theorem line (h : s.Inv proxy) (line line2 : Line) : (s.next (.line line line2)).Inv proxy := by
  refine ⟨fun x hx ↦ ?_, fun hx ↦ ?_, h.returned⟩
  · obtain ⟨y, hy, rfl⟩ := Option.map_eq_some_iff.mp hx
    obtain ⟨hchan, hrec⟩ := h.pending y hy
    have htakes : y.Takes proxy _ _ := y.takes_readRound (.read line line2)
    rw [← hchan] at htakes
    exact ⟨htakes.1, htakes.2 hrec⟩
  · have hnone : s.pending = none := Option.map_eq_none_iff.mp hx
    have hidle := h.idle hnone
    have hchan : (s.chan.readRound (.read line line2)).1 = s.chan := by
      unfold AtChannel.readRound AtChannel.processLine
      rw [hidle.1]
      split <;> rfl
    exact ⟨(congrArg _ hchan).trans hidle.1, (congrArg _ hchan).trans hidle.2⟩

theorem wake (h : s.Inv proxy) {x : Exchange} (hx : s.pending = some x)
    (timedOut readerClosed : Bool) : (s.next (.wake timedOut readerClosed)).Inv proxy := by
  obtain ⟨hchan, hrec⟩ := h.pending x hx
  unfold next
  dsimp only
  cases hwaits : (s.chan.wakeCommand timedOut readerClosed).2 with
  | true =>
    have hsame : (s.chan.wakeCommand timedOut readerClosed).1 = s.chan := by
      unfold AtChannel.wakeCommand at hwaits ⊢
      split at hwaits
      · rename_i hcond
        rw [if_pos hcond]
      · cases hwaits
    rw [if_pos rfl, hsame]
    exact h
  | false =>
    have hclear : (s.chan.wakeCommand timedOut readerClosed).1 = s.chan.clearPendingCommand := by
      unfold AtChannel.wakeCommand at hwaits ⊢
      split at hwaits
      · cases hwaits
      · rename_i hcond
        rw [if_neg hcond]
    rw [if_neg Bool.false_ne_true, hclear, hx, hchan]
    refine ⟨fun y hy ↦ ?_, fun _ ↦ ⟨rfl, rfl⟩, fun y hy ↦ ?_⟩
    · cases hy
    · rcases List.mem_append.mp hy with hy | hy
      · exact h.returned y hy
      · obtain rfl := List.mem_singleton.mp hy
        rw [hchan] at hwaits
        exact ⟨hrec, Exchange.returns_wake hwaits⟩

end AtThreads.Inv

theorem inv_of_reach {proxy : Bool} {s : AtThreads}
    (h : (atChannelSystem proxy).Reach (fun _ _ ↦ True) s) : s.Inv proxy := by
  refine h.invariant ⟨fun x hx ↦ ?_, fun _ ↦ ⟨rfl, rfl⟩, fun x hx ↦ ?_⟩ ?_
  · cases hx
  · cases hx
  · rintro s e hs henabled -
    cases e with
    | send command written => exact hs.send henabled command written
    | line line line2 => exact hs.line line line2
    | wake timedOut readerClosed =>
      obtain ⟨x, hx⟩ := Option.isSome_iff_exists.mp henabled
      exact hs.wake hx timedOut readerClosed

/-- The signal quality is asked for, and a call comes in meanwhile. -/
def signalRun : List AtThreadsEvent :=
  [.send (.singleline "+CSQ:".toList) true, .line "RING".toList [], .line "+CSQ: 20,99".toList [],
    .line "OK".toList [], .wake false false]

theorem signalRun_along :
    (atChannelSystem false).Along (fun _ _ ↦ True) (atChannelSystem false).init signalRun :=
  ⟨rfl, trivial, trivial, trivial, trivial, trivial, trivial, trivial, rfl, trivial, trivial⟩

def signalExchange : Exchange where
  command := .singleline "+CSQ:".toList
  raw := none
  rounds := [("RING".toList, none), ("+CSQ: 20,99".toList, none), ("OK".toList, none)]
  handled := [("RING".toList, none)]
  written := []

/-- No line is lost, and none is used twice. The prompts that are answered get their data. -/
theorem accounted_of_reach {proxy : Bool} {s : AtThreads}
    (h : (atChannelSystem proxy).Reach (fun _ _ ↦ True) s) {x : Exchange}
    (hx : x ∈ s.pending ∨ x ∈ s.returned.map Prod.fst) : x.Accounted proxy := by
  rcases hx with hpending | hreturned
  · exact ((inv_of_reach h).pending x hpending).2.accounted
  · obtain ⟨y, hy, rfl⟩ := List.mem_map.mp hreturned
    exact ((inv_of_reach h).returned y hy).1.accounted

/-- A message is sent, and a call comes in while the prompt is answered. -/
def smsRun : List AtThreadsEvent :=
  [.send (.sms "07".toList "+CMGS:".toList) true, .line "> ".toList [], .line "RING".toList [],
    .line "+CMGS: 3".toList [], .line "OK".toList [], .wake false false]

theorem smsRun_along :
    (atChannelSystem false).Along (fun _ _ ↦ True) (atChannelSystem false).init smsRun :=
  ⟨rfl, trivial, trivial, trivial, trivial, trivial, trivial, trivial, trivial, trivial, rfl,
    trivial, trivial⟩

def smsExchange : Exchange where
  command := .sms "07".toList "+CMGS:".toList
  raw := none
  rounds := [Round.smsPrompt, ("RING".toList, none), ("+CMGS: 3".toList, none),
    ("OK".toList, none)]
  handled := [("RING".toList, none)]
  written := [['0', '7', Char.ofNat 26]]

theorem accounted_smsRun : smsExchange.Accounted false :=
  accounted_of_reach (System.Reach.init.exec smsRun_along) (.inr (by decide))

end Wwan.AtcProxy
