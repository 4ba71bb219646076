import Mathlib.Data.List.Flatten
import Wwan.QuectelCm.ProxyRead

/-!
# Whole messages from a proxy

The messages that the proxy wrote arrive exactly if each `read` returns all that it was asked for
and no message is longer than `cm_recv_buf`. Otherwise bytes are lost. Whatever is on the stream,
a `read` is asked for more than there is room for exactly if a header gives a length that is less
than its own, and a message that is copied is not all there exactly if the rest of it was not read.
-/

namespace Wwan.QuectelCm

/-! ## Messages in a stream -/

namespace MessageHeader

variable (h : MessageHeader)

/-- A well-formed message. -/
abbrev Message := { msg : List UInt8 // h.size ≤ msg.length ∧ h.total msg = msg.length }

/-- The calls read a stream to its end. -/
def ReadsAll (s : ProxyReader) (calls : List ReadCall) : Prop :=
  (h.readSystem s).Along (fun _ _ ↦ True) s calls ∧ ((h.readSystem s).exec s calls).stream = []

/-- The bytes of messages. -/
def bytes (messages : List h.Message) : List UInt8 := (messages.map Subtype.val).flatten

/-- No `read` is asked for more than there is room for. -/
def AsksInside (s : ProxyReader) (c : ReadCall) : Prop :=
  ∀ k ∈ c.first, k = h.size → h.fits (s.receive 0 k).buf.toList →
    h.size + h.restCount (s.receive 0 k).buf.toList ≤ cmRecvBufSize

/-- `mbim_recv_command` copies nothing but what was received. -/
def CopiesInside (s : ProxyReader) (c : ReadCall) : Prop :=
  let r := h.proxyRead s c.first c.second
  0 < r.1 → h.accepts r.1 r.2.buf.toList →
    (mbimRecvCommandCopies r.2.buf.toList c.request c.memory : ℤ) ≤ r.1

/-! ## The conditions -/

/-- Each call that reads anything reads one message, which is not longer than the buffer. -/
def Whole : List (List UInt8) → List ReadCall → Prop
  | [], _ => True
  | _ :: _, [] => False
  | msg :: messages, c :: calls =>
    if c.first = none then Whole (msg :: messages) calls
    else c.first = some h.size ∧ msg.length ≤ cmRecvBufSize ∧
      c.second = some (msg.length - h.size) ∧ Whole messages calls

/-- The length in a header that was read is not less than that of the header. -/
def HeaderOk (s : ProxyReader) (c : ReadCall) : Prop :=
  c.first = some h.size → h.size ≤ h.total (s.stream.take h.size)

/-- Of a message that is copied the rest was read; if its header was not, what stands in the buffer
there gives no length that is more than was read. -/
def CopyOk (s : ProxyReader) (c : ReadCall) : Prop :=
  ∀ k ∈ c.first, 0 < k → c.memory → c.request = some (transactionId (s.receive 0 k).buf.toList) →
    if k = h.size then
      h.total (s.stream.take h.size) ≤ cmRecvBufSize ∧
        c.second = some (h.total (s.stream.take h.size) - h.size)
    else messageLength (s.receive 0 k).buf.toList ≤ k

instance decidableReadsAll (s : ProxyReader) (calls : List ReadCall) :
    Decidable (h.ReadsAll s calls) :=
  haveI : ∀ (s' : ProxyReader) (c : ReadCall), Decidable ((h.readSystem s).enabled s' c) :=
    fun s' c ↦ h.decidablePossible s' c
  inferInstanceAs (Decidable (_ ∧ _))

end MessageHeader

/-! ## One call -/

/-- What is in the buffer after a `read` that stays inside. -/
theorem receive_buf (s : ProxyReader) {offset k : ℕ} (hk : offset + k ≤ cmRecvBufSize)
    (hstream : k ≤ s.stream.length) :
    (s.receive offset k).buf.toList.take (offset + k) =
      s.buf.toList.take offset ++ s.stream.take k := by
  have hlen : (s.stream.take k).length = k := List.length_take_of_le hstream
  obtain ⟨buf, hstore, htake⟩ := s.buf.exists_store offset (s.stream.take k)
    (by rw [hlen]; exact hk)
  rw [hlen] at htake
  rw [ProxyReader.receive, hstore]
  exact htake

/-- A `read` to the beginning of the buffer. -/
theorem receive_zero (s : ProxyReader) {k : ℕ} (hk : k ≤ cmRecvBufSize)
    (hstream : k ≤ s.stream.length) : (s.receive 0 k).buf.toList.take k = s.stream.take k := by
  rw [← Nat.zero_add k] at hk
  have hbuf := receive_buf s hk hstream
  rwa [Nat.zero_add, List.take_zero, List.nil_append] at hbuf

section Call

variable {h : MessageHeader} {s : ProxyReader} {c : ReadCall} {msg rest : List UInt8}

/-- The length in the header that was read. -/
theorem total_receive (hstream : h.size ≤ s.stream.length) :
    h.total (s.receive 0 h.size).buf.toList = h.total (s.stream.take h.size) := by
  refine h.total_congr _ _ ?_
  rw [receive_zero s h.size_le hstream, List.take_take, Nat.min_self]

theorem total_append (hmsg : h.size ≤ msg.length) (rest : List UInt8) :
    h.total ((msg ++ rest).take h.size) = h.total msg := by
  refine h.total_congr _ _ ?_
  rw [List.take_take, Nat.min_self, List.take_append_of_le_length hmsg]

/-- What the second `read` is asked for. -/
theorem restCount_eq {l : List UInt8} (hl : h.size ≤ h.total l) :
    h.restCount l = h.total l - h.size := by
  have hlt := h.total_lt l
  unfold MessageHeader.restCount
  omega

/-- A second `read` is made. -/
theorem proxyRead_rest {second : ReadResult} (hfits : h.fits (s.receive 0 h.size).buf.toList) :
    h.proxyRead s (some h.size) second = match second with
      | none => ((h.size : ℤ) - 1, s.receive 0 h.size)
      | some k₂ => ((h.size : ℤ) + k₂, (s.receive 0 h.size).receive h.size k₂) :=
  if_pos ⟨rfl, hfits⟩

/-- No second `read` is made. -/
theorem proxyRead_short {k : ℕ} {second : ReadResult}
    (hrest : ¬(k = h.size ∧ h.fits (s.receive 0 k).buf.toList)) :
    h.proxyRead s (some k) second = ((k : ℤ), s.receive 0 k) :=
  if_neg hrest

/-- The value of a call is not more than was read. -/
theorem proxyRead_spec (hpossible : h.Possible s c) :
    (h.proxyRead s c.first c.second).2.passed = s.passed ∧
      (h.proxyRead s c.first c.second).2.stream.length ≤ s.stream.length ∧
      (h.proxyRead s c.first c.second).1 +
        (h.proxyRead s c.first c.second).2.stream.length ≤ s.stream.length := by
  obtain ⟨first, second, request, memory⟩ := c
  obtain ⟨hfirst, hsecond⟩ := hpossible
  cases first with
  | none =>
    refine ⟨rfl, Nat.le_refl _, ?_⟩
    dsimp only [MessageHeader.proxyRead]
    omega
  | some k =>
    obtain ⟨-, hk, -⟩ := hfirst
    dsimp only at hsecond ⊢
    have hlen : (s.receive 0 k).stream.length = s.stream.length - k := List.length_drop
    by_cases hrest : k = h.size ∧ h.fits (s.receive 0 k).buf.toList
    swap
    · rw [proxyRead_short hrest]
      exact ⟨rfl, by dsimp only; omega, by dsimp only; omega⟩
    obtain ⟨rfl, hfits⟩ := hrest
    rw [proxyRead_rest hfits]
    cases second with
    | none => exact ⟨rfl, by dsimp only; omega, by dsimp only; omega⟩
    | some k₂ =>
      obtain ⟨-, hk₂, -⟩ := hsecond rfl hfits
      have hlen₂ : ((s.receive 0 h.size).receive h.size k₂).stream.length =
          (s.receive 0 h.size).stream.length - k₂ := List.length_drop
      rw [List.length_drop] at hk₂
      exact ⟨rfl, by dsimp only; omega, by dsimp only; omega⟩

/-- What a call passes on was read in it. -/
theorem turn_spec (hpossible : h.Possible s c) :
    ∃ out, (h.turn s c).passed = s.passed ++ out ∧
      out.flatten.length + (h.turn s c).stream.length ≤ s.stream.length ∧
      (∀ x ∈ out, (x.length : ℤ) ≤ (h.proxyRead s c.first c.second).1) ∧ out.length ≤ 1 := by
  obtain ⟨hpassed, hlen, hvalue⟩ := proxyRead_spec hpossible
  unfold MessageHeader.turn
  dsimp only
  split
  · refine ⟨_, congrArg (· ++ _) hpassed, ?_, ?_, Nat.le_refl _⟩
    · rw [List.flatten_singleton, List.length_take]
      dsimp only [ProxyReader.pass]
      omega
    · intro x hx
      rw [List.mem_singleton.mp hx, List.length_take]
      omega
  · refine ⟨[], ?_, ?_, fun x hx ↦ absurd hx List.not_mem_nil, Nat.zero_le _⟩
    · rw [hpassed, List.append_nil]
    · rw [List.flatten_nil, List.length_nil, Nat.zero_add]
      exact hlen

/-- A call in which no byte is read passes nothing on. -/
theorem turn_idle (hidle : c.first = none ∨ c.first = some 0) :
    (h.turn s c).passed = s.passed ∧ (h.turn s c).stream = s.stream := by
  have hturn : (h.proxyRead s c.first c.second).1 ≤ 0 ∧
      (h.proxyRead s c.first c.second).2.passed = s.passed ∧
      (h.proxyRead s c.first c.second).2.stream = s.stream := by
    rcases hidle with hidle | hidle
    · rw [hidle]
      exact ⟨show (-1 : ℤ) ≤ 0 by decide, rfl, rfl⟩
    · rw [hidle, proxyRead_short fun hrest ↦ Nat.ne_of_lt h.size_pos hrest.1]
      exact ⟨Int.le_refl _, rfl, rfl⟩
  rw [MessageHeader.turn, if_neg fun haccepts ↦ absurd haccepts.1 (Int.not_lt.mpr hturn.1)]
  exact hturn.2

/-- While there is something to read, a call in which no byte is read is told so. -/
theorem first_ne_zero (hpossible : h.Possible s c) (hstream : s.stream ≠ []) :
    c.first ≠ some 0 := by
  intro hzero
  have hcount := hpossible.1
  rw [hzero] at hcount
  rcases hcount.2.2 rfl with hsize | hnil
  · exact absurd hsize (Nat.ne_of_gt h.size_pos)
  · exact absurd hnil hstream

/-- When everything is read, no byte is. -/
theorem first_of_nil (hpossible : h.Possible s c) (hstream : s.stream = []) :
    c.first = none ∨ c.first = some 0 := by
  have hcount := hpossible.1
  rw [hstream] at hcount
  cases hfirst : c.first with
  | none => exact .inl rfl
  | some k =>
    rw [hfirst] at hcount
    exact .inr (congrArg some (Nat.le_zero.mp hcount.2.1))

/-- While there is something to read, a call that is not told that there is nothing reads a byte. -/
theorem turn_shorter (hpossible : h.Possible s c) (hstream : s.stream ≠ [])
    (hfirst : c.first ≠ none) : (h.turn s c).stream.length < s.stream.length := by
  have hzero := first_ne_zero hpossible hstream
  have hcount := hpossible.1
  have hturn : (h.turn s c).stream = (h.proxyRead s c.first c.second).2.stream := by
    rw [MessageHeader.turn]
    split <;> rfl
  rw [hturn]
  cases hc : c.first with
  | none => exact absurd hc hfirst
  | some k =>
    rw [hc] at hzero hcount
    have hk := hcount.2.1
    have hpos : 0 < k := Nat.pos_of_ne_zero fun hk0 ↦ hzero (congrArg some hk0)
    have hlen : (s.receive 0 k).stream.length = s.stream.length - k := List.length_drop
    by_cases hrest : k = h.size ∧ h.fits (s.receive 0 k).buf.toList
    swap
    · rw [proxyRead_short hrest]
      dsimp only
      omega
    obtain ⟨rfl, hfits⟩ := hrest
    rw [proxyRead_rest hfits]
    cases c.second with
    | none =>
      dsimp only
      omega
    | some k₂ =>
      have hlen₂ : ((s.receive 0 h.size).receive h.size k₂).stream.length =
          (s.receive 0 h.size).stream.length - k₂ := List.length_drop
      dsimp only
      omega

/-- What a header gives that was read, and what the second `read` is asked for then. -/
theorem fits_header (hstream : s.stream = msg ++ rest) (hmsg : h.size ≤ msg.length)
    (htotal : h.total msg = msg.length) :
    h.total (s.receive 0 h.size).buf.toList = msg.length ∧
      (h.fits (s.receive 0 h.size).buf.toList ↔ msg.length ≤ cmRecvBufSize) ∧
      h.restCount (s.receive 0 h.size).buf.toList = msg.length - h.size := by
  have hlen : h.size ≤ s.stream.length := by
    rw [hstream, List.length_append]
    exact Nat.le_trans hmsg (Nat.le_add_right _ _)
  have hheader : h.total (s.receive 0 h.size).buf.toList = msg.length := by
    rw [total_receive hlen, hstream, total_append hmsg, htotal]
  refine ⟨hheader, ?_, ?_⟩
  · rw [h.fits_iff, hheader]
  · rw [restCount_eq (by rw [hheader]; exact hmsg), hheader]

/-- The buffer begins with a message that was read. -/
theorem receive_whole (hstream : s.stream = msg ++ rest) (hmsg : h.size ≤ msg.length)
    (hfit : msg.length ≤ cmRecvBufSize) :
    ((s.receive 0 h.size).receive h.size (msg.length - h.size)).buf.toList.take msg.length
      = msg := by
  have hlen : s.stream.length = msg.length + rest.length := by rw [hstream, List.length_append]
  have hstream₁ : (s.receive 0 h.size).stream = msg.drop h.size ++ rest := by
    rw [ProxyReader.receive, hstream, List.drop_append_of_le_length hmsg]
  have htake₁ := receive_zero s h.size_le (by omega)
  have htake₂ := receive_buf (s.receive 0 h.size)
    (show h.size + (msg.length - h.size) ≤ cmRecvBufSize by omega)
    (by rw [hstream₁, List.length_append, List.length_drop]; omega)
  rw [hstream, List.take_append_of_le_length hmsg] at htake₁
  rw [Nat.add_sub_cancel' hmsg, htake₁, hstream₁, List.take_left' List.length_drop,
    List.take_append_drop] at htake₂
  exact htake₂

/-- A call that reads a whole message passes it on. -/
theorem turn_whole (hstream : s.stream = msg ++ rest) (hmsg : h.size ≤ msg.length)
    (htotal : h.total msg = msg.length) (hfit : msg.length ≤ cmRecvBufSize)
    (hfirst : c.first = some h.size) (hsecond : c.second = some (msg.length - h.size)) :
    (h.turn s c).passed = s.passed ++ [msg] ∧ (h.turn s c).stream = rest := by
  obtain ⟨-, hfits, -⟩ := fits_header (s := s) hstream hmsg htotal
  have hbuf := receive_whole hstream hmsg hfit
  set s₂ := (s.receive 0 h.size).receive h.size (msg.length - h.size) with hs₂
  have hread : h.proxyRead s c.first c.second = ((msg.length : ℤ), s₂) := by
    rw [hfirst, hsecond, proxyRead_rest (hfits.mpr hfit)]
    exact Prod.ext (by dsimp only; omega) rfl
  have htotal₂ : h.total s₂.buf.toList = msg.length := by
    refine (h.total_congr _ _ ?_).trans htotal
    have htake := congrArg (List.take h.size) hbuf
    rwa [List.take_take, Nat.min_eq_left hmsg] at htake
  have haccepts : 0 < (msg.length : ℤ) ∧ h.accepts msg.length s₂.buf.toList := by
    refine ⟨by have := h.size_pos; omega, ?_⟩
    rw [← htotal₂]
    exact h.accepts_total _
  have hturn : h.turn s c = s₂.pass msg.length := by
    rw [MessageHeader.turn, hread]
    exact if_pos haccepts
  rw [hturn]
  refine ⟨?_, ?_⟩
  · rw [ProxyReader.pass, Int.toNat_natCast, hbuf]
    rfl
  · rw [ProxyReader.pass, hs₂, ProxyReader.receive, ProxyReader.receive, hstream, List.drop_drop,
      Nat.add_sub_cancel' hmsg, List.drop_left' rfl]

/-- A call that passes on a whole message has read it whole. -/
theorem whole_of_turn (hpossible : h.Possible s c) (hstream : s.stream = msg ++ rest)
    (hmsg : h.size ≤ msg.length) (htotal : h.total msg = msg.length)
    (hfirst : c.first ≠ none)
    (hvalue : (msg.length : ℤ) ≤ (h.proxyRead s c.first c.second).1) :
    c.first = some h.size ∧ msg.length ≤ cmRecvBufSize ∧
      c.second = some (msg.length - h.size) := by
  obtain ⟨first, second, request, memory⟩ := c
  obtain ⟨hcount, hrest⟩ := hpossible
  dsimp only at hcount hrest hfirst hvalue ⊢
  cases first with
  | none => exact absurd rfl hfirst
  | some k =>
    have hk := hcount.1
    obtain ⟨-, hfits, hask⟩ := fits_header (s := s) hstream hmsg htotal
    by_cases hwhole : k = h.size ∧ h.fits (s.receive 0 k).buf.toList
    · obtain ⟨rfl, hfit⟩ := hwhole
      have hsecond := hrest rfl hfit
      rw [proxyRead_rest hfit] at hvalue
      cases second with
      | none =>
        dsimp only at hvalue
        omega
      | some k₂ =>
        have hk₂ := hsecond.1
        rw [hask] at hk₂
        dsimp only at hvalue
        exact ⟨rfl, hfits.mp hfit, congrArg some (by omega)⟩
    · rw [proxyRead_short hwhole] at hvalue
      have heq : k = h.size := by
        dsimp only at hvalue
        omega
      subst heq
      -- no more than the header was read
      have hlong := hfits.not.mp fun hfit ↦ hwhole ⟨rfl, hfit⟩
      have hle := h.size_le
      dsimp only at hvalue
      omega

end Call

/-! ## Runs -/

section Run

variable {h : MessageHeader} {init s : ProxyReader} {calls : List ReadCall}

/-- What is passed on was read. -/
theorem exec_spec (halong : (h.readSystem init).Along (fun _ _ ↦ True) s calls) :
    ∃ out, ((h.readSystem init).exec s calls).passed = s.passed ++ out ∧
      out.flatten.length + ((h.readSystem init).exec s calls).stream.length ≤
        s.stream.length := by
  induction calls generalizing s with
  | nil =>
    refine ⟨[], (List.append_nil _).symm, ?_⟩
    rw [List.flatten_nil, List.length_nil, Nat.zero_add]
    exact Nat.le_refl _
  | cons c calls ih =>
    obtain ⟨hpossible, -, halong⟩ := halong
    obtain ⟨out, hout, hlen, -⟩ := turn_spec hpossible
    obtain ⟨out', hout', hlen'⟩ := ih halong
    refine ⟨out ++ out', ?_, ?_⟩
    · rw [← List.append_assoc, ← hout]
      exact hout'
    · rw [List.flatten_append, List.length_append]
      change out'.flatten.length + ((h.readSystem init).exec (h.turn s c) calls).stream.length ≤
        (h.turn s c).stream.length at hlen'
      change out.flatten.length + out'.flatten.length +
        ((h.readSystem init).exec (h.turn s c) calls).stream.length ≤ _
      omega

theorem bytes_cons (m : h.Message) (messages : List h.Message) :
    h.bytes (m :: messages) = m.1 ++ h.bytes messages := by
  rw [MessageHeader.bytes, List.map_cons, List.flatten_cons]
  rfl

theorem message_ne_nil (m : h.Message) : m.1 ≠ [] := by
  have hpos := h.size_pos
  have hle := m.2.1
  rw [← List.length_pos_iff]
  omega

/-- When everything is read, nothing is passed on. -/
theorem passed_of_nil (hstream : s.stream = [])
    (halong : (h.readSystem init).Along (fun _ _ ↦ True) s calls) :
    ((h.readSystem init).exec s calls).passed = s.passed := by
  induction calls generalizing s with
  | nil => rfl
  | cons c calls ih =>
    obtain ⟨hpossible, -, halong⟩ := halong
    obtain ⟨hpassed, hsame⟩ := turn_idle (h := h) (first_of_nil hpossible hstream)
    exact (ih (hsame.trans hstream) halong).trans hpassed

/-- Calls that read whole messages pass them on. -/
theorem passed_of_whole {messages : List h.Message} (hstream : s.stream = h.bytes messages)
    (halong : (h.readSystem init).Along (fun _ _ ↦ True) s calls)
    (hwhole : h.Whole (messages.map Subtype.val) calls) :
    ((h.readSystem init).exec s calls).passed = s.passed ++ messages.map Subtype.val := by
  induction calls generalizing s messages with
  | nil =>
    cases messages with
    | nil => exact (List.append_nil _).symm
    | cons m messages => exact hwhole.elim
  | cons c calls ih =>
    cases messages with
    | nil =>
      rw [passed_of_nil hstream halong]
      exact (List.append_nil _).symm
    | cons m messages =>
      obtain ⟨hpossible, -, halong⟩ := halong
      rw [List.map_cons, MessageHeader.Whole] at hwhole
      split at hwhole
      · rename_i hidle
        obtain ⟨hpassed, hsame⟩ := turn_idle (h := h) (s := s) (.inl hidle)
        have hrest := ih (hsame.trans hstream) halong hwhole
        rw [hpassed] at hrest
        exact hrest
      · obtain ⟨hfirst, hfit, hsecond, hwhole⟩ := hwhole
        obtain ⟨hpassed, hrest⟩ := turn_whole (hstream.trans (bytes_cons m messages)) m.2.1
          m.2.2 hfit hfirst hsecond
        have hall := ih hrest halong hwhole
        rw [hpassed, List.append_assoc] at hall
        exact hall

/-- If all messages are passed on, each was read whole: otherwise bytes are missing. -/
theorem whole_of_passed {messages : List h.Message} (hstream : s.stream = h.bytes messages)
    (halong : (h.readSystem init).Along (fun _ _ ↦ True) s calls)
    (hpassed : ((h.readSystem init).exec s calls).passed =
      s.passed ++ messages.map Subtype.val) :
    h.Whole (messages.map Subtype.val) calls := by
  induction calls generalizing s messages with
  | nil =>
    cases messages with
    | nil => trivial
    | cons m messages =>
      exact absurd (List.self_eq_append_right.mp hpassed) (List.cons_ne_nil _ _)
  | cons c calls ih =>
    cases messages with
    | nil => trivial
    | cons m messages =>
      obtain ⟨hpossible, -, halong⟩ := halong
      rw [List.map_cons, MessageHeader.Whole]
      split
      · rename_i hidle
        obtain ⟨hkeep, hsame⟩ := turn_idle (h := h) (s := s) (.inl hidle)
        exact ih (hsame.trans hstream) halong (hpassed.trans (congrArg (· ++ _) hkeep.symm))
      · rename_i hfirst
        have hne : s.stream ≠ [] := by
          rw [hstream, bytes_cons]
          exact List.append_ne_nil_of_left_ne_nil (message_ne_nil m) _
        obtain ⟨out, hout, -, hread, hone⟩ := turn_spec hpossible
        obtain ⟨out', hout', hlen'⟩ := exec_spec halong
        have houts : out ++ out' = m.1 :: messages.map Subtype.val := by
          refine (List.append_right_inj s.passed).mp ?_
          rw [← List.append_assoc, ← hout]
          exact hout'.symm.trans hpassed
        rcases out with _ | ⟨x, out⟩
        · -- nothing was passed on, but bytes were read: they are missing in the end
          have hshort := turn_shorter hpossible hne hfirst
          have hall : out'.flatten.length = s.stream.length := by
            rw [hstream, MessageHeader.bytes]
            exact congrArg (List.length ∘ List.flatten) houts
          change out'.flatten.length + _ ≤ (h.turn s c).stream.length at hlen'
          omega
        · obtain rfl : out = [] := List.eq_nil_of_length_eq_zero (by
            rw [List.length_cons] at hone
            omega)
          obtain rfl : x = m.1 := (List.cons.inj houts).1
          have hcons := hstream.trans (bytes_cons m messages)
          obtain ⟨hsize, hfit, hsecond⟩ := whole_of_turn hpossible hcons m.2.1 m.2.2 hfirst
            (hread m.1 (List.mem_singleton.mpr rfl))
          refine ⟨hsize, hfit, hsecond, ?_⟩
          obtain ⟨hpass, hrest⟩ := turn_whole hcons m.2.1 m.2.2 hfit hsize hsecond
          refine ih hrest halong (hpassed.trans ?_)
          rw [hpass, List.append_assoc]
          rfl

/-- The messages are passed on exactly if each was read whole. -/
theorem passed_iff {messages : List h.Message} (hstream : s.stream = h.bytes messages)
    (hall : h.ReadsAll s calls) :
    ((h.readSystem s).exec s calls).passed = s.passed ++ messages.map Subtype.val ↔
      h.Whole (messages.map Subtype.val) calls :=
  ⟨whole_of_passed hstream hall.1, passed_of_whole hstream hall.1⟩

end Run

/-! ## Any bytes -/

section Any

variable {h : MessageHeader} {s : ProxyReader} {c : ReadCall}

/-- A length that is less than the header's makes the count of the second `read` wrap around. -/
theorem asksInside_iff (hpossible : h.Possible s c) : h.AsksInside s c ↔ h.HeaderOk s c := by
  obtain ⟨hcount, -⟩ := hpossible
  have hsize := h.size_le
  have hbuf : cmRecvBufSize = 4096 := rfl
  constructor
  · intro hasks hfirst
    rw [hfirst] at hcount
    have htotal := total_receive (h := h) hcount.2.1
    by_contra hshort
    have hask := hasks h.size hfirst rfl
    rw [h.fits_iff, MessageHeader.restCount, htotal] at hask
    have := h.total_lt (s.stream.take h.size)
    omega
  · intro hheader k hfirst hk hfits
    subst hk
    rw [hfirst] at hcount
    have htotal := total_receive (h := h) hcount.2.1
    have hle := hheader hfirst
    rw [← htotal] at hle
    rw [restCount_eq hle]
    have := (h.fits_iff _).mp hfits
    omega

end Any

section Copies

variable {s : ProxyReader} {c : ReadCall}

theorem messageLength_congr {l l' : List UInt8} (h : l.take 12 = l'.take 12) :
    messageLength l = messageLength l' :=
  mbimHeader.total_congr l l' h

theorem transactionId_congr {l l' : List UInt8} (h : l.take 12 = l'.take 12) :
    transactionId l = transactionId l' := by
  unfold transactionId field32
  rw [field16_congr h (by decide), field16_congr h (by decide)]

/-- What is copied is not more than a bound. -/
theorem copies_le_iff (l : List UInt8) (request : Option ℕ) (memory : Bool) (n : ℤ) (hn : 0 ≤ n) :
    (mbimRecvCommandCopies l request memory : ℤ) ≤ n ↔
      (memory → request = some (transactionId l) → (messageLength l : ℤ) ≤ n) := by
  unfold mbimRecvCommandCopies
  split
  · rename_i hcopy
    exact ⟨fun hle _ _ ↦ hle, fun hle ↦ hle hcopy.2 hcopy.1⟩
  · rename_i hcopy
    exact ⟨fun _ hmemory hrequest ↦ absurd ⟨hrequest, hmemory⟩ hcopy, fun _ ↦ hn⟩

/-- What `mbim_recv_command` does with what is in the buffer. -/
theorem copiesInside_of {s₂ : ProxyReader} {n : ℤ}
    (hread : mbimHeader.proxyRead s c.first c.second = (n, s₂)) (hn : 0 < n) :
    mbimHeader.CopiesInside s c ↔ (c.memory → c.request = some (transactionId s₂.buf.toList) →
      (messageLength s₂.buf.toList : ℤ) ≤ n) := by
  rw [← copies_le_iff _ _ _ _ hn.le, MessageHeader.CopiesInside, hread]
  exact ⟨fun hcopies ↦ hcopies hn rfl, fun hle _ _ ↦ hle⟩

/-- The second `read` leaves the header. -/
theorem header_receive {k : ℕ} (hk : 12 + k ≤ cmRecvBufSize) (hstream : k ≤ s.stream.length) :
    (s.receive 12 k).buf.toList.take 12 = s.buf.toList.take 12 := by
  have hbuf := congrArg (List.take 12) (receive_buf s hk hstream)
  have hlen : (s.buf.toList.take 12).length = 12 := by
    rw [List.length_take, List.Vector.toList_length]
    rfl
  rwa [List.take_take, Nat.min_eq_left (Nat.le_add_right _ _), List.take_left' hlen] at hbuf

/-- A message that is copied is all there exactly if the rest of it was read. -/
theorem copiesInside_iff (hpossible : mbimHeader.Possible s c) (hheader : mbimHeader.HeaderOk s c) :
    mbimHeader.CopiesInside s c ↔ mbimHeader.CopyOk s c := by
  obtain ⟨first, second, request, memory⟩ := c
  obtain ⟨hcount, hrest⟩ := hpossible
  dsimp only at hcount hrest
  cases first with
  | none =>
    exact ⟨fun _ k hk ↦ absurd hk (Option.not_mem_none k),
      fun _ hpos ↦ absurd hpos (show ¬(0 : ℤ) < -1 by decide)⟩
  | some k =>
    have hsize : mbimHeader.size = 12 := rfl
    have hbuf : cmRecvBufSize = 4096 := rfl
    -- no message is copied if nothing was read
    rcases Nat.eq_zero_or_pos k with rfl | hpos
    · have hread : mbimHeader.proxyRead s (some 0) second = (((0 : ℕ) : ℤ), s.receive 0 0) :=
        proxyRead_short fun hrest ↦ Nat.ne_of_lt mbimHeader.size_pos hrest.1
      refine ⟨fun _ k hk hpos ↦ ?_, fun _ hpos ↦ ?_⟩
      · exact absurd (Option.mem_some_iff.mp hk) (Nat.ne_of_lt hpos)
      · rw [hread] at hpos
        exact absurd hpos (Int.lt_irrefl 0)
    have hcopy : mbimHeader.CopyOk s ⟨some k, second, request, memory⟩ ↔
        (memory → request = some (transactionId (s.receive 0 k).buf.toList) →
          if k = mbimHeader.size then
            mbimHeader.total (s.stream.take mbimHeader.size) ≤ cmRecvBufSize ∧
              second = some (mbimHeader.total (s.stream.take mbimHeader.size) - mbimHeader.size)
          else messageLength (s.receive 0 k).buf.toList ≤ k) := by
      refine ⟨fun hok ↦ hok k rfl hpos, fun hok k' hk' _ ↦ ?_⟩
      obtain rfl := Option.mem_some_iff.mp hk'
      exact hok
    rw [hcopy]
    by_cases hk : k = mbimHeader.size
    swap
    · have hread : mbimHeader.proxyRead s (some k) second = ((k : ℤ), s.receive 0 k) :=
        proxyRead_short fun hrest ↦ hk hrest.1
      rw [copiesInside_of (c := ⟨some k, second, request, memory⟩) hread
        (Int.natCast_pos.mpr hpos), if_neg hk, Int.ofNat_le]
    subst hk
    rw [if_pos rfl]
    have htotal := total_receive (h := mbimHeader) hcount.2.1
    have hlong := hheader rfl
    rw [← htotal] at hlong ⊢
    have hmsg : messageLength (s.receive 0 mbimHeader.size).buf.toList =
        mbimHeader.total (s.receive 0 mbimHeader.size).buf.toList := rfl
    by_cases hfits : mbimHeader.fits (s.receive 0 mbimHeader.size).buf.toList
    · have hfit := (mbimHeader.fits_iff _).mp hfits
      have hsecond := hrest rfl hfits
      rw [restCount_eq hlong] at hsecond
      cases second with
      | none =>
        have hread : mbimHeader.proxyRead s (some mbimHeader.size) none =
            ((mbimHeader.size : ℤ) - 1, s.receive 0 mbimHeader.size) := proxyRead_rest hfits
        rw [copiesInside_of (c := ⟨some mbimHeader.size, none, request, memory⟩) hread
          (by decide)]
        refine imp_congr_right fun _ ↦ imp_congr_right fun _ ↦ ?_
        refine ⟨fun hle ↦ ?_, fun hread ↦ absurd hread.2 (Option.some_ne_none _).symm⟩
        rw [hmsg] at hle
        omega
      | some k₂ =>
        have hread : mbimHeader.proxyRead s (some mbimHeader.size) (some k₂) =
            ((mbimHeader.size : ℤ) + k₂,
              (s.receive 0 mbimHeader.size).receive mbimHeader.size k₂) :=
          proxyRead_rest hfits
        rw [copiesInside_of (c := ⟨some mbimHeader.size, some k₂, request, memory⟩) hread
          (by omega)]
        have hroom : 12 + k₂ ≤ cmRecvBufSize := by
          have := hsecond.1
          omega
        have hheader₂ := header_receive (s := s.receive 0 mbimHeader.size) hroom hsecond.2.1
        rw [← hsize] at hheader₂
        rw [transactionId_congr hheader₂, messageLength_congr hheader₂, hmsg]
        refine imp_congr_right fun _ ↦ imp_congr_right fun _ ↦ ?_
        have hcount₂ := hsecond.1
        rw [Option.some_inj]
        omega
    · have hlong₂ := (mbimHeader.fits_iff _).not.mp hfits
      have hread : mbimHeader.proxyRead s (some mbimHeader.size) second =
          ((mbimHeader.size : ℤ), s.receive 0 mbimHeader.size) :=
        proxyRead_short fun hrest ↦ hfits hrest.2
      rw [copiesInside_of (c := ⟨some mbimHeader.size, second, request, memory⟩) hread
        (Int.natCast_pos.mpr hpos), hmsg]
      refine imp_congr_right fun _ ↦ imp_congr_right fun _ ↦ ?_
      refine ⟨fun hle ↦ ?_, fun hread ↦ absurd hread.1 hlong₂⟩
      omega

end Copies

/-! ## The readers of `quectel-cm` -/

/-- A message of seven bytes on the socket. -/
def oneMessage : ProxyReader := ⟨List.Vector.replicate _ 0, [1, 6, 0, 0, 0, 0, 7], []⟩

/-- When the socket returns three bytes and then four, the message is not passed on. -/
theorem splitMessage_not_passed :
    ¬∀ (s : ProxyReader) (calls : List ReadCall) (messages : List qmiHeader.Message),
      s.stream = qmiHeader.bytes messages → qmiHeader.ReadsAll s calls →
        ((qmiHeader.readSystem s).exec s calls).passed =
          s.passed ++ messages.map Subtype.val := by
  intro hclaim
  have hpassed := hclaim oneMessage [⟨some 3, none, none, true⟩, ⟨some 4, none, none, true⟩]
    [⟨[1, 6, 0, 0, 0, 0, 7], by decide⟩] rfl (by decide +kernel)
  exact absurd hpassed (by decide +kernel)

/-- The messages of the proxy are passed on in order exactly if each was read whole. The second
`read` has room exactly if no header gives a length that is less than its own, and
`mbim_recv_command` copies what was received exactly if the rest of the message was read too. -/
theorem proxyReads_iff (s : ProxyReader) (calls : List ReadCall) :
    (∀ messages : List qmiHeader.Message, s.stream = qmiHeader.bytes messages →
      qmiHeader.ReadsAll s calls →
        (((qmiHeader.readSystem s).exec s calls).passed = s.passed ++ messages.map Subtype.val ↔
          qmiHeader.Whole (messages.map Subtype.val) calls)) ∧
    (∀ messages : List mbimHeader.Message, s.stream = mbimHeader.bytes messages →
      mbimHeader.ReadsAll s calls →
        (((mbimHeader.readSystem s).exec s calls).passed = s.passed ++ messages.map Subtype.val ↔
          mbimHeader.Whole (messages.map Subtype.val) calls)) ∧
    ((qmiHeader.readSystem s).Along qmiHeader.AsksInside s calls ↔
      (qmiHeader.readSystem s).Along qmiHeader.HeaderOk s calls) ∧
    ((mbimHeader.readSystem s).Along
        (fun s c ↦ mbimHeader.AsksInside s c ∧ mbimHeader.CopiesInside s c) s calls ↔
      (mbimHeader.readSystem s).Along
        (fun s c ↦ mbimHeader.HeaderOk s c ∧ mbimHeader.CopyOk s c) s calls) := by
  refine ⟨fun messages hstream hall ↦ ?_, fun messages hstream hall ↦ ?_, ?_, ?_⟩
  · exact passed_iff hstream hall
  · exact passed_iff hstream hall
  · exact System.along_congr (fun _ _ ↦ asksInside_iff) s calls
  · refine System.along_congr (fun s c hpossible ↦ ?_) s calls
    rw [asksInside_iff hpossible]
    exact and_congr_right (copiesInside_iff hpossible)

/-- Two messages on the socket. -/
def twoMessages : ProxyReader :=
  ⟨List.Vector.replicate _ 0, [1, 6, 0, 0, 0, 0, 7, 1, 7, 0, 0, 0, 0, 8, 9], []⟩

/-- Each is passed on when its headers are read and then the rest, with an `EAGAIN` before. -/
theorem proxyReads_twoMessages :
    ((qmiHeader.readSystem twoMessages).exec twoMessages
      [⟨none, none, none, true⟩, ⟨some 6, some 1, none, true⟩, ⟨none, none, none, true⟩,
        ⟨some 6, some 2, none, true⟩]).passed = [[1, 6, 0, 0, 0, 0, 7], [1, 7, 0, 0, 0, 0, 8, 9]] :=
  ((proxyReads_iff twoMessages _).1
    [⟨[1, 6, 0, 0, 0, 0, 7], by decide⟩, ⟨[1, 7, 0, 0, 0, 0, 8, 9], by decide⟩] rfl
    (by decide +kernel)).mpr ⟨rfl, by decide, rfl, rfl, by decide, rfl, trivial⟩

end Wwan.QuectelCm
