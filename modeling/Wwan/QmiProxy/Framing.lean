import Mathlib.Data.List.Flatten
import Mathlib.Data.List.GetD
import Wwan.QmiProxy.Proxy

/-!
# Messages on the stream socket

Clients talk to the proxy over a `SOCK_STREAM` socket, on which the messages are one stream of
bytes, and `read` may cut it anywhere. `qmi_proxy_loop` takes what one `read` returns for a message
if the length in the header at its beginning agrees with the size of the read, and drops it
otherwise. All reads go into one buffer, so the header of a read that is shorter than a header is
completed by what was read before.
-/

namespace Wwan.QmiProxy

/-! ## Reading -/

/-- What is read into `qmi_buf`. -/
inductive LoopRead
  | /-- A client's `read` returns a chunk of its stream. -/
    client (fd : ℤ) (chunk : List UInt8)
  | /-- After a read from the device, the buffer has a new content. -/
    device (buf : List UInt8)
  deriving DecidableEq

/-- The size of `qmi_buf`. -/
def qmiBufSize : ℕ := 4096

/-- `qmi_buf` and what was passed to `recv_qmi_from_client`. -/
structure Receiver where
  qmiBuf : List UInt8
  /-- The messages, with the descriptors of the clients. -/
  passed : List (ℤ × List UInt8)
  deriving DecidableEq

/-- `read` overwrites the beginning of the buffer. -/
def readInto (qmiBuf chunk : List UInt8) : List UInt8 := chunk ++ qmiBuf.drop chunk.length

/-- A turn of `qmi_proxy_loop` that reads. -/
def Receiver.read (s : Receiver) : LoopRead → Receiver
  | .client fd chunk =>
    let qmiBuf := readInto s.qmiBuf chunk
    if chunk.length ≠ hdrLength qmiBuf + 1 then { s with qmiBuf := qmiBuf }
    else ⟨qmiBuf, s.passed ++ [(fd, qmiBuf.take chunk.length)]⟩
  | .device buf => { s with qmiBuf := buf }

/-- The turns of `qmi_proxy_loop`, from a buffer with any content. -/
def receive (qmiBuf : List UInt8) (reads : List LoopRead) : Receiver :=
  reads.foldl Receiver.read ⟨qmiBuf, []⟩

/-- What was passed on for a client. -/
def Receiver.messages (s : Receiver) (fd : ℤ) : List (List UInt8) :=
  (s.passed.filter fun m ↦ m.1 = fd).map Prod.snd

/-- The chunks in which the stream of a client was read. -/
def LoopRead.chunks (fd : ℤ) : List LoopRead → List (List UInt8)
  | [] => []
  | .client fd' chunk :: reads => if fd' = fd then chunk :: chunks fd reads else chunks fd reads
  | .device _ :: reads => chunks fd reads

/-- A QMI message: there is a header, and its length is that of the message. -/
def WellFormed (qmi : List UInt8) : Prop := 6 ≤ qmi.length ∧ qmi.length = hdrLength qmi + 1

instance (qmi : List UInt8) : Decidable (WellFormed qmi) := inferInstanceAs (Decidable (_ ∧ _))

/-! ## Chunks that are passed on -/

section Chunks

variable {s : Receiver} {fd : ℤ}

/-- A sublist that has lost no byte has lost nothing, if nothing is empty. -/
theorem eq_of_sublist_of_flatten {α : Type*} {l₁ l₂ : List (List α)} (hsub : l₁.Sublist l₂)
    (hne : ∀ c ∈ l₂, c ≠ []) (hlen : l₁.flatten.length = l₂.flatten.length) : l₁ = l₂ := by
  induction hsub with
  | slnil => rfl
  | @cons l₁ l₂ c hsub _ =>
    exfalso
    have hle := (hsub.flatten).length_le
    have hpos := List.length_pos_iff.mpr (hne c List.mem_cons_self)
    rw [List.flatten_cons, List.length_append] at hlen
    omega
  | @cons_cons l₁ l₂ c _ ih =>
    rw [List.flatten_cons, List.flatten_cons, List.length_append, List.length_append,
      Nat.add_left_cancel_iff] at hlen
    rw [ih (fun c hc ↦ hne c (List.mem_cons_of_mem _ hc)) hlen]

/-- What comes of a chunk. -/
def framed (qmiBuf chunk : List UInt8) : List (List UInt8) :=
  if chunk.length ≠ hdrLength (readInto qmiBuf chunk) + 1 then [] else [chunk]

theorem framed_sublist (qmiBuf chunk : List UInt8) : (framed qmiBuf chunk).Sublist [chunk] := by
  unfold framed
  split
  · exact List.nil_sublist _
  · exact List.Sublist.refl _

/-- The header of a message is read with it. -/
theorem framed_of_wellFormed (qmiBuf : List UInt8) {qmi : List UInt8} (h : WellFormed qmi) :
    framed qmiBuf qmi = [qmi] := by
  have hbyte : ∀ i < 6, qmiByte (readInto qmiBuf qmi) i = qmiByte qmi i := by
    intro i hi
    unfold qmiByte readInto
    rw [List.getD_append _ _ _ _ (Nat.lt_of_lt_of_le hi h.1)]
  have hlength : hdrLength (readInto qmiBuf qmi) = hdrLength qmi := by
    unfold hdrLength qmiShort
    rw [hbyte 1 (by decide), hbyte 2 (by decide)]
  unfold framed
  rw [hlength, if_neg (not_not.mpr h.2)]

theorem messages_read_client (chunk : List UInt8) :
    (s.read (.client fd chunk)).messages fd = s.messages fd ++ framed s.qmiBuf chunk := by
  unfold Receiver.read framed Receiver.messages
  dsimp only
  split
  · rw [List.append_nil]
  · simp [readInto]

theorem messages_read_other {r : LoopRead} (hr : ∀ chunk, r ≠ .client fd chunk) :
    (s.read r).messages fd = s.messages fd := by
  cases r with
  | device buf => rfl
  | client fd' chunk =>
    have hne : fd' ≠ fd := by
      rintro rfl
      exact hr chunk rfl
    unfold Receiver.read Receiver.messages
    dsimp only
    split
    · rfl
    · simp [hne]

/-- What is passed on are chunks, and all chunks that are messages. -/
theorem messages_foldl (fd : ℤ) (reads : List LoopRead) (s : Receiver) :
    ∃ passed, (reads.foldl Receiver.read s).messages fd = s.messages fd ++ passed ∧
      passed.Sublist (LoopRead.chunks fd reads) ∧
        ((∀ c ∈ LoopRead.chunks fd reads, WellFormed c) →
          passed = LoopRead.chunks fd reads) := by
  induction reads generalizing s with
  | nil => exact ⟨[], (List.append_nil _).symm, List.Sublist.refl _, fun _ ↦ rfl⟩
  | cons r reads ih =>
    obtain ⟨passed, heq, hsub, hall⟩ := ih (s.read r)
    rw [List.foldl_cons, heq]
    cases r with
    | device buf =>
      rw [messages_read_other (fun _ h ↦ LoopRead.noConfusion h)]
      exact ⟨passed, rfl, hsub, hall⟩
    | client fd' chunk =>
      rw [LoopRead.chunks]
      obtain rfl | hne := eq_or_ne fd' fd
      · rw [if_pos rfl, messages_read_client]
        refine ⟨framed s.qmiBuf chunk ++ passed, List.append_assoc _ _ _, ?_, ?_⟩
        · exact (framed_sublist s.qmiBuf chunk).append hsub
        · intro hwf
          rw [framed_of_wellFormed s.qmiBuf (hwf chunk List.mem_cons_self),
            hall fun c hc ↦ hwf c (List.mem_cons_of_mem _ hc)]
          rfl
      · rw [if_neg hne, messages_read_other]
        · exact ⟨passed, rfl, hsub, hall⟩
        · rintro chunk' ⟨⟩
          exact hne rfl

end Chunks

/-! ## Framing -/

/-- The messages that a client has written are passed on, all and nothing else, if and only if
each `read` has returned exactly one of them. -/
theorem framing_iff (qmiBuf : List UInt8) (reads : List LoopRead) (fd : ℤ)
    (msgs : List (List UInt8)) (hmsgs : ∀ m ∈ msgs, WellFormed m)
    (hchunks : ∀ c ∈ LoopRead.chunks fd reads, c ≠ [] ∧ c.length ≤ qmiBufSize)
    (hstream : (LoopRead.chunks fd reads).flatten = msgs.flatten) :
    (receive qmiBuf reads).messages fd = msgs ↔ LoopRead.chunks fd reads = msgs := by
  obtain ⟨passed, heq, hsub, hall⟩ := messages_foldl fd reads ⟨qmiBuf, []⟩
  have hpassed : (receive qmiBuf reads).messages fd = passed := heq
  rw [hpassed]
  constructor
  · rintro rfl
    refine (eq_of_sublist_of_flatten hsub (fun c hc ↦ (hchunks c hc).1) ?_).symm
    rw [hstream]
  · intro hsame
    rw [hall (hsame ▸ hmsgs), hsame]

/-- The first chunk of a client that sends two messages is read between two reads of others. -/
theorem framing_interleaved :
    (receive [] [.device [1, 5, 0], .client 5 [1, 5, 0, 0, 1, 7], .client 6 [1],
      .client 5 [1, 6, 0, 0, 1, 7, 9]]).messages 5 = [[1, 5, 0, 0, 1, 7], [1, 6, 0, 0, 1, 7, 9]] :=
  (framing_iff [] _ 5 _ (by decide) (by decide) (by decide)).mpr (by decide)

/-- Two messages that are read at once are both lost. -/
theorem merged_messages_lost :
    ¬ ∀ (qmiBuf : List UInt8) (reads : List LoopRead) (fd : ℤ) (msgs : List (List UInt8)),
      (∀ m ∈ msgs, WellFormed m) →
        (∀ c ∈ LoopRead.chunks fd reads, c ≠ [] ∧ c.length ≤ qmiBufSize) →
          (LoopRead.chunks fd reads).flatten = msgs.flatten →
            (receive qmiBuf reads).messages fd = msgs := by
  intro h
  have hmsgs := h [] [.client 5 [1, 5, 0, 0, 1, 7, 1, 5, 0, 0, 1, 8]] 5
    [[1, 5, 0, 0, 1, 7], [1, 5, 0, 0, 1, 8]] (by decide) (by decide) (by decide)
  exact absurd hmsgs (by decide)

end Wwan.QmiProxy
