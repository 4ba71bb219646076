import Wwan.AtcProxy.Proxy
import Wwan.Lib.CString
import Wwan.Lib.Lines

/-!
# `readline`

What `read` gets from the modem is put behind the unfinished line in a buffer, with a zero behind
it, and `readline` returns the lines one by one; a cursor says how far it is. If a read fills the
buffer, the zero is written behind the end of it. `onUnsolicited` copies lines to a smaller buffer.
-/

namespace Wwan.AtcProxy

open CString Lines Memory Text

/-! ## The reader -/

/-- `MAX_AT_RESPONSE` -/
def maxAtResponse : ℕ := 4096

abbrev gt : UInt8 := 62

/-- `'\r'` or `'\n'` -/
def isEol (b : UInt8) : Bool := b = 13 || b = 10

/-- What the reader does next. -/
inductive ReaderPhase
  | /-- It calls `readline`. -/
    call
  | /-- It is in the loop of `readline`. -/
    read (p_read : ℕ)
  | /-- It has left `readerLoop`, as `readline` returned `NULL`. -/
    closed
  deriving DecidableEq

/-- The reader thread. Pointers are offsets from `s_ATBuffer`. -/
structure AtReader where
  s_ATBuffer : ℕ → UInt8
  s_ATBufferCur : ℕ
  phase : ReaderPhase
  /-- What the modem will send. -/
  stream : List UInt8
  /-- What `readline` has returned. -/
  lines : List (List UInt8)

/-- Nothing has been read. -/
def AtReader.start (stream : List UInt8) : AtReader where
  s_ATBuffer := fun _ ↦ 0
  s_ATBufferCur := 0
  phase := .call
  stream := stream
  lines := []

/-- `cur[0] == '>' && cur[1] == ' ' && cur[2] == '\0'` -/
def isPrompt (mem : ℕ → UInt8) (cur : ℕ) : Except Outside Bool := do
  if (← load maxAtResponse mem cur) ≠ gt then return false
  if (← load maxAtResponse mem (cur + 1)) ≠ 32 then return false
  return (← load maxAtResponse mem (cur + 2)) = 0

def findNextEOL (mem : ℕ → UInt8) (cur : ℕ) : Except Outside (Option ℕ) := do
  if ← isPrompt mem cur then return some (cur + 2)
  let eol ← scan maxAtResponse mem (fun b ↦ b ≠ 0 && !isEol b) cur
  return if mem eol = 0 then none else some eol

namespace AtReader

variable (s : AtReader)

/-- The cursor is moved over newlines, and `p_eol` is looked for. -/
def search : Except Outside (AtReader × Option ℕ) := do
  let cur ← scan maxAtResponse s.s_ATBuffer isEol s.s_ATBufferCur
  let p_eol ← findNextEOL s.s_ATBuffer cur
  return ({ s with s_ATBufferCur := cur }, p_eol)

/-- The end of `readline`: the line is returned. -/
def takeLine (p_eol : ℕ) : Except Outside AtReader := do
  let mem ← CString.store maxAtResponse s.s_ATBuffer p_eol [0]
  let ret := stringAt mem s.s_ATBufferCur (maxAtResponse - s.s_ATBufferCur)
  return { s with
    s_ATBuffer := mem
    s_ATBufferCur := p_eol + 1
    phase := .call
    lines := s.lines ++ [ret] }

/-- A partial line is moved up. -/
def moveUp : Except Outside AtReader := do
  let nul ← scan maxAtResponse s.s_ATBuffer (· ≠ 0) s.s_ATBufferCur
  let len := nul - s.s_ATBufferCur
  let mem ← CString.store maxAtResponse s.s_ATBuffer 0 (peek s.s_ATBuffer s.s_ATBufferCur (len + 1))
  return { s with s_ATBuffer := mem, s_ATBufferCur := 0, phase := .read len }

/-- `readline` up to its loop. -/
def call : Except Outside AtReader := do
  if (← load maxAtResponse s.s_ATBuffer s.s_ATBufferCur) = 0 then
    let mem ← CString.store maxAtResponse s.s_ATBuffer 0 [0]
    return { s with s_ATBuffer := mem, s_ATBufferCur := 0, phase := .read 0 }
  else
    match ← s.search with
    | (s, none) => s.moveUp
    | (s, some p_eol) => s.takeLine p_eol

/-- The buffer is ditched if it is full. -/
def ditch (p_read : ℕ) : AtReader × ℕ :=
  if p_read = maxAtResponse then
    ({ s with s_ATBuffer := poke s.s_ATBuffer 0 [0], s_ATBufferCur := 0 }, 0)
  else (s, p_read)

/-- What `read` gets if `n` bytes are there. -/
def got (p_read n : ℕ) : List UInt8 := s.stream.take (min n (maxAtResponse - p_read))

/-- `p_read[count] = '\0'`, and `read` before it. -/
def fill (p_read : ℕ) (bytes : List UInt8) : Except Outside AtReader := do
  let mem ← CString.store maxAtResponse s.s_ATBuffer p_read bytes
  let mem ← CString.store maxAtResponse mem (p_read + bytes.length) [0]
  return { s with s_ATBuffer := mem, stream := s.stream.drop bytes.length }

/-- One pass of the loop of `readline`. -/
def pass (p_read n : ℕ) : Except Outside AtReader := do
  let (s, p_read) := s.ditch p_read
  let bytes := s.got p_read n
  if bytes = [] then return { s with phase := .closed }
  else
    match ← (← s.fill p_read bytes).search with
    | (s, none) => return { s with phase := .read (p_read + bytes.length) }
    | (s, some p_eol) => s.takeLine p_eol

/-- What the reader does up to its next `read` or call; `n` bytes are there if it reads. It reads
none at the end of the stream, and may do so after an error. -/
def step (n : ℕ) : Except Outside AtReader :=
  match s.phase with
  | .call => s.call
  | .read p_read => s.pass p_read n
  | .closed => .ok s

/-- The cursor is in the buffer, and a read leaves room for the zero. -/
def Roomy (n : ℕ) : Prop :=
  match s.phase with
  | .call => s.s_ATBufferCur < maxAtResponse
  | .read p_read => p_read + (s.got p_read n).length < maxAtResponse
  | .closed => True

end AtReader

/-- The reader with a modem that sends this stream, up to an access outside of the buffer. -/
def readerSystem (stream : List UInt8) : System (Except Outside AtReader) ℕ where
  init := .ok (.start stream)
  enabled _ _ := True
  next s n := s.bind (·.step n)

/-- The steps are roomy. -/
def RoomySteps (s : Except Outside AtReader) (n : ℕ) : Prop :=
  match s with
  | .ok s => s.Roomy n
  | .error _ => True

instance : ∀ s n, Decidable (AtReader.Roomy s n)
  | ⟨_, _, .call, _, _⟩, _ => inferInstanceAs (Decidable (_ < maxAtResponse))
  | ⟨_, _, .read _, _, _⟩, _ => inferInstanceAs (Decidable (_ < maxAtResponse))
  | ⟨_, _, .closed, _, _⟩, _ => .isTrue trivial

instance : ∀ s n, Decidable (RoomySteps s n)
  | .ok s, n => inferInstanceAs (Decidable (s.Roomy n))
  | .error _, _ => .isTrue trivial

instance (stream : List UInt8) : ∀ s n, Decidable ((readerSystem stream).enabled s n) :=
  fun _ _ ↦ .isTrue trivial

/-- The characters of a string. -/
def chars (s : List UInt8) : Line := s.map fun b ↦ Char.ofNat b.toNat

/-- What `readerLoop` makes of the lines: one that announces a message goes to `onUnsolicited` with
the next one; any other goes there by itself, if `processLine` has no use for it. -/
def forwards : List (List UInt8) → List (List UInt8 × Option (List UInt8))
  | [] => []
  | [line] => if isSMSUnsolicited (chars line) then [] else [(line, none)]
  | line :: line2 :: lines =>
    if isSMSUnsolicited (chars line) then (line, some line2) :: forwards lines
    else (line, none) :: forwards (line2 :: lines)

/-- `"\r\n"` -/
abbrev crlf : List UInt8 := [13, 10]

/-- The strings are put into `buf` of `onUnsolicited`. -/
def copyUnsolicited (buf : ℕ → UInt8) (s sms_pdu : Option (List UInt8)) :
    Except Outside (ℕ → UInt8) :=
  (match s with
    | some s => strcpy Proxy.bufSize buf s >>= (strcat Proxy.bufSize · crlf)
    | none => .ok buf) >>= fun buf ↦
  match sms_pdu with
    | some pdu => strcat Proxy.bufSize buf pdu >>= (strcat Proxy.bufSize · crlf)
    | none => .ok buf

/-! ## The search for a line -/

section Search

variable {mem : ℕ → UInt8} {cur : ℕ} {t : List UInt8}

theorem isPrompt_eq (h : HoldsString maxAtResponse mem cur t) :
    isPrompt mem cur = .ok (decide (t = [gt, 32])) := by
  unfold isPrompt
  rw [h.load_head]
  rcases t with _ | ⟨a, t⟩
  · rfl
  rw [h.tail.load_head]
  rcases t with _ | ⟨b, t⟩
  · by_cases ha : a = gt
    · simp [ha, bind, Except.bind, pure, Except.pure]
    · simp [ha, bind, Except.bind, pure, Except.pure]
  rw [h.tail.tail.load_head]
  have hnil : t.head?.getD 0 = 0 ↔ t = [] := by
    rcases t with _ | ⟨c, t⟩
    · simp
    · have hc : (0 : UInt8) ≠ c := fun heq ↦ h.tail.tail.noNul (heq ▸ List.mem_cons_self)
      simp [hc.symm]
  by_cases ha : a = gt
  · by_cases hb : b = 32
    · simp [ha, hb, hnil, bind, Except.bind, pure, Except.pure]
    · simp [ha, hb, bind, Except.bind, pure, Except.pure]
  · simp [ha, bind, Except.bind, pure, Except.pure]

/-- The prompt is a line without a newline. -/
theorem findNextEOL_prompt (h : HoldsString maxAtResponse mem cur [gt, 32]) :
    findNextEOL mem cur = .ok (some (cur + 2)) := by
  unfold findNextEOL
  rw [isPrompt_eq h]
  rfl

/-- The bytes that the search passes. -/
theorem passed_search (h : 0 ∉ t) (ht : ∀ b ∈ t, isEol b = false) :
    ∀ b ∈ t, (fun b : UInt8 ↦ b ≠ 0 && !isEol b) b := by
  intro b hb
  have hb' := ne_of_mem_of_not_mem hb h
  simp [hb', ht b hb]

/-- A line ends at its newline. -/
theorem findNextEOL_line {l r : List UInt8} {x : UInt8}
    (h : HoldsString maxAtResponse mem cur (l ++ x :: r)) (hl : ∀ b ∈ l, isEol b = false)
    (hx : isEol x) : findNextEOL mem cur = .ok (some (cur + l.length)) := by
  have hne : l ++ x :: r ≠ [gt, 32] := by
    intro heq
    have hmem : x ∈ [gt, 32] := heq ▸ List.mem_append_right l List.mem_cons_self
    rcases List.mem_cons.mp hmem with rfl | hmem
    · exact absurd hx (by decide)
    · rw [List.mem_singleton.mp hmem] at hx
      exact absurd hx (by decide)
  have hnul : 0 ∉ l := fun hmem ↦ h.noNul (List.mem_append_left _ hmem)
  have hx0 : mem (cur + l.length) ≠ 0 := by
    rw [(holds_cons.mp h.drop.holds).1]
    rintro rfl
    exact absurd hx (by decide)
  have hholds := h.holds
  rw [List.append_assoc, List.cons_append] at hholds
  have hscan := scan_eq hholds (passed_search hnul hl) (by simp [hx]) h.drop.lt_size
  unfold findNextEOL
  rw [isPrompt_eq h, decide_eq_false hne]
  dsimp only [bind, Except.bind]
  rw [if_neg Bool.false_ne_true, hscan]
  exact congrArg Except.ok (if_neg hx0)

theorem findNextEOL_part (h : HoldsString maxAtResponse mem cur t)
    (ht : ∀ b ∈ t, isEol b = false) (hne : t ≠ [gt, 32]) : findNextEOL mem cur = .ok none := by
  have hscan := scan_eq h.holds (passed_search h.noNul ht) (by simp) h.inside
  have hnul : mem (cur + t.length) = 0 := (holds_cons.mp (holds_append.mp h.holds).2).1
  unfold findNextEOL
  rw [isPrompt_eq h, decide_eq_false hne]
  dsimp only [bind, Except.bind]
  rw [if_neg Bool.false_ne_true, hscan]
  exact congrArg Except.ok (if_pos hnul)

end Search

namespace AtReader

variable {s : AtReader} {t e l r : List UInt8} {x : UInt8}

/-- What is left in the buffer from the cursor on. -/
def HasText (s : AtReader) (t : List UInt8) : Prop :=
  HoldsString maxAtResponse s.s_ATBuffer s.s_ATBufferCur t

/-- Behind newlines. -/
def moved (s : AtReader) (e : List UInt8) : AtReader :=
  { s with s_ATBufferCur := s.s_ATBufferCur + e.length }

/-- With a line taken that ends at `p_eol`. -/
def taken (s : AtReader) (p_eol : ℕ) (l : List UInt8) : AtReader where
  s_ATBuffer := poke s.s_ATBuffer p_eol [0]
  s_ATBufferCur := p_eol + 1
  phase := .call
  stream := s.stream
  lines := s.lines ++ [l]

/-- With a partial line at the start of the buffer. -/
def movedUp (s : AtReader) (mem : ℕ → UInt8) (len : ℕ) : AtReader :=
  { s with s_ATBuffer := mem, s_ATBufferCur := 0, phase := .read len }

/-- With these bytes read to `p_read`. -/
def filled (s : AtReader) (p_read : ℕ) (bytes : List UInt8) : AtReader :=
  { s with
    s_ATBuffer := poke s.s_ATBuffer p_read (bytes ++ [0])
    stream := s.stream.drop bytes.length }

theorem search_eq (h : s.HasText (e ++ t)) (he : ∀ b ∈ e, isEol b)
    (ht : isEol (t.head?.getD 0) = false) {p_eol : Option ℕ}
    (heol : findNextEOL s.s_ATBuffer (s.s_ATBufferCur + e.length) = .ok p_eol) :
    s.search = .ok (s.moved e, p_eol) := by
  have hscan : scan maxAtResponse s.s_ATBuffer isEol s.s_ATBufferCur =
      .ok (s.s_ATBufferCur + e.length) := by
    have hholds := h.holds
    rw [List.append_assoc] at hholds
    rcases t with _ | ⟨b, t⟩
    · exact scan_eq hholds he ht h.drop.lt_size
    · exact scan_eq hholds he ht h.drop.lt_size
  unfold search
  rw [hscan]
  dsimp only [bind, Except.bind]
  rw [heol]
  rfl

theorem search_part (h : s.HasText (e ++ l)) (he : ∀ b ∈ e, isEol b)
    (hl : ∀ b ∈ l, isEol b = false) (hne : l ≠ [gt, 32]) : s.search = .ok (s.moved e, none) := by
  refine search_eq h he ?_ (findNextEOL_part h.drop hl hne)
  rcases l with _ | ⟨b, l⟩
  · rfl
  · exact hl b List.mem_cons_self

theorem takeLine_eq {p_eol : ℕ} (hp : p_eol < maxAtResponse)
    (h : HoldsString maxAtResponse (poke s.s_ATBuffer p_eol [0]) s.s_ATBufferCur l) :
    s.takeLine p_eol = .ok (s.taken p_eol l) := by
  unfold takeLine taken
  rw [store_eq (show p_eol + 1 ≤ maxAtResponse from hp), ← h.stringAt]
  rfl

/-- A line is found and taken. -/
theorem search_line (h : s.HasText (e ++ (l ++ x :: r))) (he : ∀ b ∈ e, isEol b)
    (hl : ∀ b ∈ l, isEol b = false) (hne : l ≠ []) (hx : isEol x) :
    ∃ p_eol, s.search = .ok (s.moved e, some p_eol) ∧
      (s.moved e).takeLine p_eol = .ok (s.taken p_eol l) ∧ (s.taken p_eol l).HasText r := by
  have hhead : isEol ((l ++ x :: r).head?.getD 0) = false := by
    obtain ⟨b, l, rfl⟩ := List.exists_cons_of_ne_nil hne
    exact hl b List.mem_cons_self
  refine ⟨_, search_eq h he hhead (findNextEOL_line h.drop hl hx), ?_,
    h.drop.behind⟩
  exact takeLine_eq h.drop.drop.lt_size h.drop.cut

/-- The prompt is taken. -/
theorem search_prompt (h : s.HasText (e ++ [gt, 32])) (he : ∀ b ∈ e, isEol b) :
    ∃ p_eol, s.search = .ok (s.moved e, some p_eol) ∧
      (s.moved e).takeLine p_eol = .ok (s.taken p_eol [gt, 32]) := by
  refine ⟨_, search_eq h he (by decide) (findNextEOL_prompt h.drop), ?_⟩
  exact takeLine_eq h.drop.inside h.drop.ended

theorem moveUp_eq (h : s.HasText t) :
    ∃ mem, s.moveUp = .ok (s.movedUp mem t.length) ∧ HoldsString maxAtResponse mem 0 t ∧
      (s.s_ATBuffer (maxAtResponse - 1) = 0 → mem (maxAtResponse - 1) = 0) := by
  have hlen : 0 + (peek s.s_ATBuffer s.s_ATBufferCur (t.length + 1)).length ≤ maxAtResponse := by
    rw [length_peek, Nat.zero_add]
    exact Nat.lt_of_le_of_lt (Nat.le_add_left _ _) h.inside
  refine ⟨_, ?_, h.move, ?_⟩
  · unfold moveUp
    rw [h.scan_nul]
    dsimp only [bind, Except.bind]
    rw [Nat.add_sub_cancel_left, store_eq hlen]
    rfl
  · intro hlast
    have hend := (holds_cons.mp (holds_append.mp h.move.holds).2).1
    have hinside := h.inside
    rcases Nat.lt_or_ge t.length (maxAtResponse - 1) with hlt | hge
    · rw [poke_of_outside (.inr ?_), hlast]
      rwa [Nat.zero_add, length_peek]
    · have heq : maxAtResponse - 1 = 0 + t.length := by omega
      rw [heq]
      exact hend

theorem call_nil (h : s.HasText []) :
    s.call = .ok (s.movedUp (poke s.s_ATBuffer 0 [0]) 0) := by
  unfold call
  rw [h.load_head]
  rfl

theorem call_cons {b : UInt8} (h : s.HasText (b :: t)) :
    s.call = s.search >>= fun
      | (s, none) => s.moveUp
      | (s, some p_eol) => s.takeLine p_eol := by
  have hb : b ≠ 0 := fun heq ↦ h.noNul (heq ▸ List.mem_cons_self)
  unfold call
  rw [h.load_head]
  exact if_neg hb

theorem pass_nil {p_read n : ℕ} (hp : p_read < maxAtResponse) (h : s.got p_read n = []) :
    s.pass p_read n = .ok { s with phase := .closed } := by
  unfold pass ditch
  rw [if_neg (Nat.ne_of_lt hp)]
  exact if_pos h

theorem pass_of_ne_nil {p_read n : ℕ} (hp : p_read < maxAtResponse) (h : s.got p_read n ≠ []) :
    s.pass p_read n = s.fill p_read (s.got p_read n) >>= fun s' ↦ s'.search >>= fun
      | (s', none) => .ok { s' with phase := .read (p_read + (s.got p_read n).length) }
      | (s', some p_eol) => s'.takeLine p_eol := by
  unfold pass ditch
  rw [if_neg (Nat.ne_of_lt hp)]
  exact if_neg h

theorem fill_eq {p_read : ℕ} {bytes : List UInt8} (h : p_read + bytes.length < maxAtResponse) :
    s.fill p_read bytes = .ok (s.filled p_read bytes) := by
  unfold fill filled
  rw [store_eq (Nat.le_of_lt h)]
  dsimp only [bind, Except.bind]
  rw [store_eq (show _ + 1 ≤ _ from h), poke_append]
  rfl

/-- A read that fills the buffer has the zero written behind it. -/
theorem fill_eq_error {p_read : ℕ} {bytes : List UInt8}
    (h : p_read + bytes.length = maxAtResponse) : s.fill p_read bytes = .error .write := by
  unfold fill
  rw [store_eq (Nat.le_of_eq h)]
  dsimp only [bind, Except.bind]
  rw [store_eq_error (show _ < _ + 1 from Nat.lt_succ_of_le (Nat.le_of_eq h.symm))]

theorem pass_cons {p_read n : ℕ} (hroom : p_read + (s.got p_read n).length < maxAtResponse)
    (h : s.got p_read n ≠ []) :
    s.pass p_read n = (s.filled p_read (s.got p_read n)).search >>= fun
      | (s', none) => .ok { s' with phase := .read (p_read + (s.got p_read n).length) }
      | (s', some p_eol) => s'.takeLine p_eol := by
  rw [pass_of_ne_nil (Nat.lt_of_le_of_lt (Nat.le_add_right _ _) hroom) h, fill_eq hroom]
  rfl

end AtReader

end Wwan.AtcProxy
