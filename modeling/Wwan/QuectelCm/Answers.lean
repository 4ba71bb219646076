import Mathlib.Data.List.Nodup
import Wwan.QuectelCm.Requests

/-!
# A request is answered before its function returns zero

Several failures look the same to `qmi_rsp_check_and_return`: it returns `err`, which is zero, when
the wait ended but no copy of a response is there. That is so after the `NULL` that tells of a
closed device, and when the copy could not be allocated. Moreover `is_response` accepts an
indication, and a response that fails without an error code makes a function return zero.
`Op.Fair` excludes that, and some requests whose pointer is used unseen; `request_sound` shows that
then no function returns zero without an answer, and that no buffer is used or freed wrongly in any
run.
-/

namespace Wwan.QuectelCm

open Semantics

/-! ## A sound run -/

/-- For each request that was sent and whose result is checked, a message of response type was
received later that matches it and carries the `QMUXResult` 0. -/
def Answered (log : List LogEntry) : Prop :=
  ∀ newer older hdr, log = newer ++ .sent hdr true :: older →
    ∃ msg, .received msg ∈ newer ∧ rspHdrsSize ≤ msg.length ∧ isResponse hdr msg ∧
      ResponseType msg ∧ qmuxResult msg = 0

/-- A run of a request function is as it should be so far. -/
structure Sound (t : Thread Op Op.Res Cm ℤ) : Prop where
  answered : t.prog = some (.ret 0) → Answered t.state.log
  present : t.state.absentUsed = false
  requests : t.state.freedRequests.Nodup
  responses : t.state.freedResponses.Nodup

/-! ## The condition -/

/-- The message in `s_pResponse`. -/
def Cm.response (s : Cm) : Option RecvMsg :=
  match s.s_pResponse with
  | .buf b => s.responses[b]?
  | _ => none

/-- A message in whose copy no error code is found carries its result and error, and is a response
and a success. -/
def FairResponse (m : RecvMsg) : Prop :=
  qmuxError m.copy = 0 → rspHdrsSize ≤ m.msg.length ∧ ResponseType m.msg ∧ qmuxResult m.msg = 0

instance (m : RecvMsg) : Decidable (FairResponse m) := inferInstanceAs (Decidable (_ → _))

section Append

variable {msg : List UInt8} (hlen : rspHdrsSize ≤ msg.length) (rest : List UInt8)

include hlen

theorem field16_append {i : ℕ} (hi : i + 1 < rspHdrsSize) :
    field16 (msg ++ rest) i = field16 msg i := by
  have hlt : i + 1 < msg.length := Nat.lt_of_lt_of_le hi hlen
  exact congrArg₂ Bytes.le16 (byteAt_append_left (Nat.lt_of_succ_lt hlt) rest)
    (byteAt_append_left hlt rest)

theorem qmuxResult_append : qmuxResult (msg ++ rest) = qmuxResult msg :=
  field16_append hlen rest (by decide)

/-- A message with all headers matches by itself. -/
theorem isResponse_append (hdr : Header) : isResponse hdr (msg ++ rest) = isResponse hdr msg := by
  have hbyte : ∀ i < rspHdrsSize, byteAt (msg ++ rest) i = byteAt msg i :=
    fun i hi ↦ byteAt_append_left (Nat.lt_of_lt_of_le hi hlen) rest
  rw [isResponse, isResponse, hbyte 4 (by decide), hbyte 5 (by decide), hbyte 7 (by decide),
    field16_append hlen rest (by decide)]

end Append

/-- The pointer holds a response that was freed. -/
def Cm.Freed (s : Cm) : Ptr → Prop
  | .buf b => b ∈ s.freedResponses
  | _ => False

instance (s : Cm) : (pResponse : Ptr) → Decidable (s.Freed pResponse)
  | .buf b => inferInstanceAs (Decidable (b ∈ s.freedResponses))
  | .null => .isFalse id
  | .wild => .isFalse id

/-- Without a request `pResponse` stays as it was, and a response that is used unseen has to be
waited for. -/
def Use.SendFair (use : Use) (pRequest : Option ℕ) (pResponse : Ptr) (s : Cm) (i : Input) : Prop :=
  match use with
  | .ifPresent => pRequest = none → ¬s.Freed pResponse
  | .early => pRequest ≠ none ∧ i = .ret 0
  | .checked | .tolerated => True

/-- A wait that succeeds has found a response. -/
def Use.WaitFair (use : Use) (s : Cm) (i : Input) : Prop :=
  match use with
  | .checked => i = .ret 0 → ∃ msg ∈ s.response, FairResponse msg
  | .early => i = .ret 0 ∧ ∃ msg ∈ s.response, FairResponse msg ∧
      (qmuxError msg.copy = 0 → profileNum msg.copy ≠ some 0)
  | .ifPresent | .tolerated => True

/-- The inputs with which the functions do not go wrong. -/
def Op.Fair (o : Op) (s : Cm) (i : Input) : Prop :=
  match o with
  | .send use pRequest pResponse => use.SendFair pRequest pResponse s i
  | .wait use => use.WaitFair s i
  | _ => True

instance (pRequest : Option ℕ) (pResponse : Ptr) (s : Cm) (i : Input) :
    (use : Use) → Decidable (use.SendFair pRequest pResponse s i)
  | .ifPresent => inferInstanceAs (Decidable (_ → ¬_))
  | .early => inferInstanceAs (Decidable (_ ∧ _))
  | .checked => .isTrue trivial
  | .tolerated => .isTrue trivial

instance (s : Cm) (i : Input) : (use : Use) → Decidable (use.WaitFair s i)
  | .checked => inferInstanceAs (Decidable (_ → ∃ msg ∈ s.response, FairResponse msg))
  | .early => inferInstanceAs (Decidable (_ ∧ ∃ msg ∈ s.response, FairResponse msg ∧
      (qmuxError msg.copy = 0 → profileNum msg.copy ≠ some 0)))
  | .ifPresent => .isTrue trivial
  | .tolerated => .isTrue trivial

instance Op.decidableFair (s : Cm) (i : Input) : (o : Op) → Decidable (o.Fair s i)
  | .send use pRequest pResponse =>
    inferInstanceAs (Decidable (use.SendFair pRequest pResponse s i))
  | .wait use => inferInstanceAs (Decidable (use.WaitFair s i))
  | .compose _ => .isTrue trivial
  | .read _ => .isTrue trivial
  | .free _ => .isTrue trivial
  | .grab => .isTrue trivial
  | .crash => .isTrue trivial

/-! ## The invariant -/

/-- What holds of the shared state at any time. -/
structure Cm.Inv (s : Cm) : Prop where
  present : s.absentUsed = false
  requests : s.freedRequests.Nodup
  pending : ∀ r, s.s_pRequest = some r → r < s.requests.length ∧ r ∉ s.freedRequests
  requestsLt : ∀ r ∈ s.freedRequests, r < s.requests.length
  responses : s.freedResponses.Nodup
  responsesLt : ∀ b ∈ s.freedResponses, b < s.responses.length

/-- The answered requests stay answered; new requests must be answered if they are checked. -/
theorem Answered.cons {log : List LogEntry} {e : LogEntry} (h : Answered log)
    (he : ∀ hdr, e ≠ .sent hdr true) : Answered (e :: log) := by
  intro newer older hdr hlog
  cases newer with
  | nil => exact absurd (List.cons.inj hlog).1 (he hdr)
  | cons e' newer =>
    rw [List.cons_append, List.cons.injEq] at hlog
    obtain ⟨msg, hmem, hmsg⟩ := h newer older hdr hlog.2
    exact ⟨msg, List.mem_cons_of_mem _ hmem, hmsg⟩

/-- The log since a request was sent. -/
structure SentLog (hdr : Header) (checked : Bool) (newer log : List LogEntry) : Prop where
  log : ∃ older, log = newer ++ .sent hdr checked :: older ∧ Answered older
  newer : ∀ e ∈ newer, ∃ msg, e = .received msg

theorem SentLog.cons {hdr : Header} {checked : Bool} {newer log : List LogEntry}
    (h : SentLog hdr checked newer log) (msg : List UInt8) :
    SentLog hdr checked (.received msg :: newer) (.received msg :: log) := by
  obtain ⟨older, rfl, holder⟩ := h.log
  exact ⟨⟨older, rfl, holder⟩, List.forall_mem_cons.mpr ⟨⟨msg, rfl⟩, h.newer⟩⟩

/-- All is answered if this request is, or need not be. -/
theorem SentLog.answered {hdr : Header} {checked : Bool} {newer log : List LogEntry}
    (h : SentLog hdr checked newer log)
    (hmsg : checked → ∃ msg, .received msg ∈ newer ∧ rspHdrsSize ≤ msg.length ∧
      isResponse hdr msg ∧ ResponseType msg ∧ qmuxResult msg = 0) : Answered log := by
  obtain ⟨older, rfl, holder⟩ := h.log
  intro newer' older' hdr' hlog
  obtain ⟨between, rfl, htail⟩ | ⟨between, hnewer, htail⟩ := List.append_eq_append_iff.mp hlog
  · cases between with
    | nil =>
      rw [List.nil_append, List.cons.injEq, LogEntry.sent.injEq] at htail
      obtain ⟨⟨rfl, hchecked⟩, -⟩ := htail
      rw [List.append_nil]
      exact hmsg hchecked
    | cons e between =>
      rw [List.cons_append, List.cons.injEq] at htail
      obtain ⟨msg, hmem, hmsg⟩ := holder between older' hdr' htail.2
      exact ⟨msg, List.mem_append_right _ (List.mem_cons_of_mem _ hmem), hmsg⟩
  · cases between with
    | nil =>
      rw [List.nil_append, List.cons.injEq, LogEntry.sent.injEq] at htail
      obtain ⟨⟨rfl, hchecked⟩, -⟩ := htail
      rw [List.append_nil] at hnewer
      exact hnewer ▸ hmsg hchecked.symm
    | cons e between =>
      rw [List.cons_append, List.cons.injEq] at htail
      obtain ⟨msg, hsent⟩ := h.newer e (hnewer ▸ List.mem_append_right _ List.mem_cons_self)
      rw [hsent] at htail
      cases htail.1

/-- What a call of `QmiThreadRecvQMI` can do to the state. -/
structure Received (s s' : Cm) : Prop where
  transactionId : s'.transactionId = s.transactionId
  requests : s'.requests = s.requests
  freedResponses : s'.freedResponses = s.freedResponses
  absentUsed : s'.absentUsed = s.absentUsed
  responses : s.responses <+: s'.responses
  log : s'.log = s.log ∨ ∃ msg, s'.log = .received msg :: s.log
  /-- The request is left alone, or freed; then `s_pResponse` is `NULL` or a new copy. -/
  request : (s'.s_pRequest = s.s_pRequest ∧ s'.freedRequests = s.freedRequests ∧
      s'.s_pResponse = s.s_pResponse) ∨
    ∃ r, s.s_pRequest = some r ∧ s'.s_pRequest = none ∧ s'.freedRequests = r :: s.freedRequests ∧
      (s'.s_pResponse = .null ∨ ∃ hdr msg, s.requests[r]? = some hdr ∧ isResponse hdr msg.buf ∧
        s'.s_pResponse = .buf s.responses.length ∧ s'.responses = s.responses ++ [msg] ∧
        s'.log = .received msg.msg :: s.log)

theorem awaiting_eq_some {s : Cm} {msg : RecvMsg} {r : ℕ} (h : s.awaiting msg = some r) :
    s.s_pRequest = some r ∧ ∃ hdr, s.requests[r]? = some hdr ∧ isResponse hdr msg.buf := by
  obtain ⟨hreq, hmatch⟩ := Option.filter_eq_some_iff.mp h
  obtain ⟨hdr, hhdr, hresponse⟩ := (Option.any_eq_true _ _).mp hmatch
  exact ⟨hreq, hdr, hhdr, hresponse⟩

theorem received_qmiThreadRecvQMI (s : Cm) (malloc : Bool) (msg : Option RecvMsg) :
    Received s (s.qmiThreadRecvQMI malloc msg) := by
  cases msg with
  | none =>
    cases hreq : s.s_pRequest with
    | none =>
      have hcall : s.qmiThreadRecvQMI malloc none = s := by simp [Cm.qmiThreadRecvQMI, hreq]
      rw [hcall]
      exact ⟨rfl, rfl, rfl, rfl, List.prefix_refl _, .inl rfl, .inl ⟨rfl, rfl, rfl⟩⟩
    | some r =>
      have hcall : s.qmiThreadRecvQMI malloc none =
          { s.freeRequest r with s_pResponse := .null } := by
        simp [Cm.qmiThreadRecvQMI, hreq]
      rw [hcall]
      exact ⟨rfl, rfl, rfl, rfl, List.prefix_refl _, .inl rfl,
        .inr ⟨r, hreq, rfl, rfl, .inl rfl⟩⟩
  | some msg =>
    cases hawait : s.awaiting msg with
    | none =>
      have hcall : s.qmiThreadRecvQMI malloc (some msg) = { s with
          log := .received msg.msg :: s.log
          events := s.events ++ (notification msg.buf).toList } := by
        simp [Cm.qmiThreadRecvQMI, hawait]
      rw [hcall]
      exact ⟨rfl, rfl, rfl, rfl, List.prefix_refl _, .inr ⟨msg.msg, rfl⟩,
        .inl ⟨rfl, rfl, rfl⟩⟩
    | some r =>
      obtain ⟨hreq, hdr, hhdr, hmatch⟩ := awaiting_eq_some hawait
      have hcall : s.qmiThreadRecvQMI malloc (some msg) = (Cm.freeRequest
          { s with log := .received msg.msg :: s.log } r).copyResponse malloc msg := by
        simp [Cm.qmiThreadRecvQMI, hawait]
      rw [hcall]
      cases malloc with
      | false =>
        exact ⟨rfl, rfl, rfl, rfl, List.prefix_refl _, .inr ⟨msg.msg, rfl⟩,
          .inr ⟨r, hreq, rfl, rfl, .inl rfl⟩⟩
      | true =>
        exact ⟨rfl, rfl, rfl, rfl, List.prefix_append _ _, .inr ⟨msg.msg, rfl⟩,
          .inr ⟨r, hreq, rfl, rfl, .inr ⟨hdr, msg, hhdr, hmatch, rfl, rfl, rfl⟩⟩⟩

section Received

variable {s s' : Cm}

theorem Received.inv (h : Received s s') (hinv : s.Inv) : s'.Inv := by
  have hlen := h.responses.length_le
  obtain ⟨hreq, hfreed, -⟩ | ⟨r, hreq, hnone, hfreed, -⟩ := h.request
  · refine ⟨by rw [h.absentUsed, hinv.present], by rw [hfreed]; exact hinv.requests, ?_, ?_,
      by rw [h.freedResponses]; exact hinv.responses, ?_⟩
    · rw [hreq, hfreed, h.requests]
      exact hinv.pending
    · rw [hfreed, h.requests]
      exact hinv.requestsLt
    · rw [h.freedResponses]
      exact fun b hb ↦ Nat.lt_of_lt_of_le (hinv.responsesLt b hb) hlen
  · obtain ⟨hlt, hmem⟩ := hinv.pending r hreq
    refine ⟨by rw [h.absentUsed, hinv.present], ?_, ?_, ?_,
      by rw [h.freedResponses]; exact hinv.responses, ?_⟩
    · rw [hfreed]
      exact hinv.requests.cons hmem
    · intro r' hr'
      rw [hnone] at hr'
      cases hr'
    · rw [hfreed, h.requests]
      exact List.forall_mem_cons.mpr ⟨hlt, hinv.requestsLt⟩
    · rw [h.freedResponses]
      exact fun b hb ↦ Nat.lt_of_lt_of_le (hinv.responsesLt b hb) hlen

theorem Received.answered (h : Received s s') (hans : Answered s.log) : Answered s'.log := by
  obtain hlog | ⟨msg, hlog⟩ := h.log
  · rwa [hlog]
  · rw [hlog]
    exact hans.cons fun hdr hsent ↦ by cases hsent

end Received

/-! ## What programs keep -/

/-- Responses are only added, and those that were there at the beginning and were not freed are
not freed. -/
structure Kept (s₀ s : Cm) : Prop where
  responses : s₀.responses <+: s.responses
  live : ∀ b, s₀.Live b → s.Live b
  freed : s₀.freedResponses ⊆ s.freedResponses

/-- A message is in a response that has not been freed. -/
def Cm.Holds (s : Cm) (b : ℕ) (msg : RecvMsg) : Prop :=
  s.Live b ∧ s.responses[b]? = some msg

/-- A pointer to nothing that is left. -/
def Cm.Spent (s : Cm) : Ptr → Prop
  | .wild => False
  | .null => True
  | .buf b => b ∈ s.freedResponses

/-- Between two requests; under a condition everything that was checked is answered. -/
structure Ready (s₀ : Cm) (c : Prop) (s : Cm) : Prop where
  inv : s.Inv
  kept : Kept s₀ s
  answered : c → Answered s.log

/-- What a program returns: zero only if everything is answered. -/
abbrev Post (s₀ : Cm) {α : Type} (val : α → ℤ) (a : α) (s : Cm) : Prop := Ready s₀ (val a = 0) s

section Kept

variable {s₀ s₁ s s' : Cm} {b : ℕ} {msg : RecvMsg} {p : Ptr} {c c' : Prop}

theorem Kept.refl (s : Cm) : Kept s s := ⟨List.prefix_refl _, fun _ hb ↦ hb, List.Subset.refl _⟩

theorem Kept.trans (h₀ : Kept s₀ s₁) (h₁ : Kept s₁ s) : Kept s₀ s :=
  ⟨h₀.responses.trans h₁.responses, fun b hb ↦ h₁.live b (h₀.live b hb),
    List.Subset.trans h₀.freed h₁.freed⟩

theorem Kept.holds (h : Kept s s') (hb : s.Holds b msg) : s'.Holds b msg := by
  refine ⟨h.live b hb.1, ?_⟩
  obtain ⟨rest, hrest⟩ := h.responses
  rw [← hrest, List.getElem?_append_left hb.1.1]
  exact hb.2

theorem Kept.spent (h : Kept s s') (hp : s.Spent p) : s'.Spent p := by
  cases p with
  | wild => exact hp
  | null => exact hp
  | buf b => exact h.freed hp

theorem Received.kept (h : Received s s') : Kept s s' := by
  refine ⟨h.responses, fun b hb ↦ ⟨Nat.lt_of_lt_of_le hb.1 h.responses.length_le, ?_⟩, ?_⟩
  · rw [h.freedResponses]
    exact hb.2
  · rw [h.freedResponses]
    exact List.Subset.refl _

theorem Received.ready (h : Received s s') (hs : Ready s₀ c s) : Ready s₀ c s' :=
  ⟨h.inv hs.inv, hs.kept.trans h.kept, fun hc ↦ h.answered (hs.answered hc)⟩

theorem Ready.mono (h : Ready s₀ c s) (hc : c' → c) : Ready s₀ c' s :=
  ⟨h.inv, h.kept, fun hc' ↦ h.answered (hc hc')⟩

theorem Ready.refl (hinv : s.Inv) (hans : Answered s.log) : Ready s True s :=
  ⟨hinv, .refl s, fun _ ↦ hans⟩

/-- One part of a program after the other. -/
theorem Ready.trans (h₀ : Ready s₀ c' s₁) (h₁ : Ready s₁ c s) : Ready s₀ c s :=
  ⟨h₁.inv, h₀.kept.trans h₁.kept, h₁.answered⟩

/-- A response is freed that was not there at the beginning. -/
theorem Ready.free (h : Ready s₀ c s) (hb : s.Live b) (hfresh : s₀.responses.length ≤ b) :
    Ready s₀ c { s with freedResponses := b :: s.freedResponses } := by
  refine ⟨⟨h.inv.present, h.inv.requests, h.inv.pending, h.inv.requestsLt,
    h.inv.responses.cons hb.2, List.forall_mem_cons.mpr ⟨hb.1, h.inv.responsesLt⟩⟩,
    ⟨h.kept.responses, fun b' hb' ↦ ⟨(h.kept.live b' hb').1, ?_⟩,
      fun b' hb' ↦ List.mem_cons_of_mem _ (h.kept.freed hb')⟩, h.answered⟩
  rintro (_ | ⟨_, hfreed⟩)
  · exact Nat.not_lt.mpr hfresh hb'.1
  · exact (h.kept.live b' hb').2 hfreed

end Kept

/-! ## A request on its way -/

/-- A request that was composed and is to be sent. -/
structure Composed (s₀ : Cm) (r : ℕ) (s : Cm) : Prop extends Ready s₀ True s where
  lt : r < s.requests.length
  notFreed : r ∉ s.freedRequests
  notPending : s.s_pRequest ≠ some r

/-- A request was sent: it is pending, or it was freed, and its response is there or is not. -/
structure Waiting (s₀ : Cm) (hdr : Header) (checked : Bool) (newer : List LogEntry) (s : Cm) :
    Prop extends Ready s₀ False s where
  sent : SentLog hdr checked newer s.log
  response : (∃ r, s.s_pRequest = some r ∧ s.requests[r]? = some hdr ∧ s.s_pResponse = .null) ∨
    s.s_pRequest = none ∧ (s.s_pResponse = .null ∨ ∃ b msg, s.s_pResponse = .buf b ∧
      s₀.responses.length ≤ b ∧ s.Holds b msg ∧ isResponse hdr msg.buf ∧ .received msg.msg ∈ newer)

section Waiting

variable {s₀ s s' : Cm} {r : ℕ} {hdr : Header} {checked : Bool} {newer : List LogEntry}

theorem Received.composed (h : Received s s') (hs : Composed s₀ r s) : Composed s₀ r s' := by
  refine ⟨h.ready hs.toReady, by rw [h.requests]; exact hs.lt, ?_, ?_⟩
  all_goals obtain ⟨hreq, hfreed, -⟩ | ⟨r', hreq, hnone, hfreed, -⟩ := h.request
  · rw [hfreed]
    exact hs.notFreed
  · rw [hfreed]
    rintro (_ | ⟨_, hmem⟩)
    · exact hs.notPending hreq
    · exact hs.notFreed hmem
  · rw [hreq]
    exact hs.notPending
  · rw [hnone]
    exact fun hsome ↦ by cases hsome

theorem Received.waiting (h : Received s s') (hs : Waiting s₀ hdr checked newer s) :
    ∃ newer', Waiting s₀ hdr checked newer' s' := by
  have hready := h.ready hs.toReady
  obtain ⟨hreq, -, hptr⟩ | ⟨r, hreq, hnone, -, hptr⟩ := h.request
  · -- the request is left alone
    obtain ⟨newer', hsub, hsent⟩ :
        ∃ newer', newer ⊆ newer' ∧ SentLog hdr checked newer' s'.log := by
      obtain hlog | ⟨msg, hlog⟩ := h.log
      · exact ⟨newer, List.Subset.refl _, hlog ▸ hs.sent⟩
      · exact ⟨_, List.subset_cons_self _ _, hlog ▸ hs.sent.cons msg⟩
    refine ⟨newer', hready, hsent, ?_⟩
    rw [hreq, hptr, h.requests]
    obtain hpending | ⟨hfreed, hnull | ⟨b, msg, hbuf, hfresh, hholds, hmatch, hmem⟩⟩ := hs.response
    · exact .inl hpending
    · exact .inr ⟨hfreed, .inl hnull⟩
    · exact .inr ⟨hfreed,
        .inr ⟨b, msg, hbuf, hfresh, h.kept.holds hholds, hmatch, hsub hmem⟩⟩
  · -- the request is freed
    obtain ⟨r', hreq', hhdr, -⟩ | ⟨hfreed, -⟩ := hs.response
    swap
    · rw [hreq] at hfreed
      cases hfreed
    obtain rfl : r = r' := Option.some.inj (hreq.symm.trans hreq')
    obtain hnull | ⟨hdr', msg, hhdr', hmatch, hbuf, hresponses, hlog⟩ := hptr
    · obtain hlog | ⟨msg, hlog⟩ := h.log
      · exact ⟨newer, hready, hlog ▸ hs.sent, .inr ⟨hnone, .inl hnull⟩⟩
      · exact ⟨_, hready, hlog ▸ hs.sent.cons msg, .inr ⟨hnone, .inl hnull⟩⟩
    · obtain rfl : hdr = hdr' := Option.some.inj (hhdr.symm.trans hhdr')
      refine ⟨_, hready, hlog ▸ hs.sent.cons msg.msg, .inr ⟨hnone, .inr ⟨_, msg, hbuf,
        hs.kept.responses.length_le, ⟨⟨?_, ?_⟩, ?_⟩, hmatch, List.mem_cons_self⟩⟩⟩
      · rw [hresponses, List.length_append]
        exact Nat.lt_succ_self _
      · rw [h.freedResponses]
        exact fun hmem ↦ Nat.lt_irrefl _ (hs.inv.responsesLt _ hmem)
      · rw [hresponses, List.getElem?_append_right (Nat.le_refl _), Nat.sub_self]
        rfl

/-- If the request is not checked, all is answered. -/
theorem Waiting.ready (h : Waiting s₀ hdr checked newer s) : Ready s₀ (checked = false) s :=
  ⟨h.inv, h.kept, fun hchecked ↦ h.sent.answered fun htrue ↦ by rw [hchecked] at htrue; cases htrue⟩

/-- A request is sent. -/
theorem Composed.send (h : Composed s₀ r s) (hhdr : s.requests[r]? = some hdr)
    (qmidev_send : Header → Header) (checked : Bool) :
    Waiting s₀ (qmidev_send hdr) checked [] { s with
      s_pRequest := some r
      s_pResponse := .null
      requests := s.requests.modify r qmidev_send
      log := .sent (qmidev_send hdr) checked :: s.log } := by
  refine ⟨⟨⟨h.inv.present, h.inv.requests, ?_, ?_, h.inv.responses, h.inv.responsesLt⟩,
    ⟨h.kept.responses, h.kept.live, h.kept.freed⟩, False.elim⟩,
    ⟨⟨s.log, rfl, h.answered trivial⟩, ?_⟩, .inl ?_⟩
  · rintro r' ⟨rfl⟩
    exact ⟨by rw [List.length_modify]; exact h.lt, h.notFreed⟩
  · intro r' hr'
    rw [List.length_modify]
    exact h.inv.requestsLt r' hr'
  · exact fun e he ↦ by cases he
  · refine ⟨r, rfl, ?_, rfl⟩
    rw [List.getElem?_modify_eq, hhdr]
    rfl

end Waiting

/-- How the send of a request can end: with an error before the wait, without a response, or with
one. -/
inductive Outcome (use : Use) (s₀ : Cm) (old : Ptr) (s : Cm) : ℤ × Ptr → Prop
  | notSent (h : Ready s₀ True s) (hearly : use ≠ .early)
      (hold : use = .ifPresent → ¬s.Freed old) :
      Outcome use s₀ old s (-einval, old)
  | failed (err : ℤ) (h : Ready s₀ (use.isChecked = false) s) (hearly : use ≠ .early)
      (herr : use.isChecked → err ≠ 0) : Outcome use s₀ old s (err, .null)
  | received (b : ℕ) (msg : RecvMsg) (h : Ready s₀ (use.isChecked → qmuxError msg.copy = 0) s)
      (hb : s.Holds b msg) (hfresh : s₀.responses.length ≤ b)
      (hfair : use.isChecked → FairResponse msg)
      (hearly : use = .early → qmuxError msg.copy = 0 → profileNum msg.copy ≠ some 0) :
      Outcome use s₀ old s (0, .buf b)

theorem Outcome.kept {use : Use} {s₀ s : Cm} {old : Ptr} {a : ℤ × Ptr}
    (h : Outcome use s₀ old s a) : Kept s₀ s := by
  cases h with
  | notSent h => exact h.kept
  | failed _ h => exact h.kept
  | received _ _ h => exact h.kept

/-- The outcome of one part of a program. -/
theorem Outcome.trans {use : Use} {s₀ s₁ s : Cm} {old : Ptr} {a : ℤ × Ptr} {c : Prop}
    (h₀ : Ready s₀ c s₁) (h : Outcome use s₁ old s a) : Outcome use s₀ old s a := by
  cases h with
  | notSent h hearly hold => exact .notSent (h₀.trans h) hearly hold
  | failed err h hearly herr => exact .failed err (h₀.trans h) hearly herr
  | received b msg h hb hfresh hfair hearly =>
    exact .received b msg (h₀.trans h) hb (Nat.le_trans h₀.kept.responses.length_le hfresh)
      hfair hearly

/-! ## Rules -/

section Rules

variable {qmidev_send : Header → Header} {α β : Type} {val : α → ℤ}
variable {s₀ s : Cm} {c : Prop} {b : ℕ} {msg : RecvMsg} {old : Ptr}

/-- The weakest precondition in fair runs. -/
abbrev fairWp (qmidev_send : Header → Header) (Q : α → Cm → Prop)
    (p : CmProg α) (s : Cm) : Prop :=
  (cmSemantics qmidev_send).wp Op.Fair Cm.Inv Q p s

/-- An assertion that calls of `QmiThreadRecvQMI` cannot break. -/
theorem stable_of_received {P : Cm → Prop} (h : ∀ s s', Received s s' → P s → P s') :
    (cmSemantics qmidev_send).Stable P :=
  fun s e hs ↦ h _ _ (received_qmiThreadRecvQMI s e.2 e.1) hs

/-- A value is returned. -/
theorem wp_return {a : α} (h : Ready s₀ c s) (hc : val a = 0 → c) :
    fairWp qmidev_send (Post s₀ val) (.ret a) s :=
  wp_ret (stable_of_received fun _ _ ↦ Received.ready) h fun _ hs ↦ ⟨hs.inv, hs.mono hc⟩

/-- A program that never gets past a null pointer. -/
theorem wp_crash {Q : α → Cm → Prop} {k : Unit → CmProg α} (hinv : s.Inv) :
    fairWp qmidev_send Q (.op .crash k) s :=
  wp_stop (stable_of_received fun _ _ ↦ Received.inv) hinv (fun _ hs ↦ hs)
    fun _ _ hs _ ↦ ⟨rfl, hs⟩

/-- A response is read. -/
theorem wp_read {Q : α → Cm → Prop} {k : List UInt8 → CmProg α} (h : Ready s₀ c s)
    (hb : s.Holds b msg)
    (hk : ∀ s, Ready s₀ c s → s.Holds b msg → fairWp qmidev_send Q (k msg.copy) s) :
    fairWp qmidev_send Q (readResponse (.buf b) >>= k) s := by
  refine wp_op (P := fun s ↦ Ready s₀ c s ∧ s.Holds b msg)
    (stable_of_received fun _ _ hr hs ↦ ⟨hr.ready hs.1, hr.kept.holds hs.2⟩) ⟨h, hb⟩
    (fun _ hs ↦ hs.1.inv) fun s i hs _ _ ↦ ⟨msg.copy, ?_, ?_⟩
  · change (if s.Live b then ((s.responses[b]?).map RecvMsg.copy, s) else _).1 = _
    rw [if_pos hs.2.1, hs.2.2]
    rfl
  · change fairWp qmidev_send Q (k msg.copy)
      (if s.Live b then ((s.responses[b]?).map RecvMsg.copy, s)
        else (none, { s with absentUsed := true })).2
    rw [if_pos hs.2.1]
    exact hk s hs.1 hs.2

/-- A response is freed, and its pointer is spent. -/
theorem wp_free {Q : α → Cm → Prop} {k : Unit → CmProg α} (h : Ready s₀ c s) (hb : s.Live b)
    (hfresh : s₀.responses.length ≤ b)
    (hk : ∀ s, Ready s₀ c s → s.Spent (.buf b) → fairWp qmidev_send Q (k ()) s) :
    fairWp qmidev_send Q (freeResponse (.buf b) >>= k) s := by
  refine wp_op (P := fun s ↦ Ready s₀ c s ∧ s.Live b)
    (stable_of_received fun _ _ hr hs ↦ ⟨hr.ready hs.1, hr.kept.live b hs.2⟩) ⟨h, hb⟩
    (fun _ hs ↦ hs.1.inv) fun s i hs _ _ ↦ ⟨(), rfl, ?_⟩
  exact hk _ (hs.1.free hs.2 hfresh) List.mem_cons_self

/-- A request is composed, if it can be allocated. -/
theorem wp_compose {Q : α → Cm → Prop} {QMIType : UInt8} {k : Option ℕ → CmProg α}
    (h : Ready s₀ True s)
    (hnone : ∀ s, Ready s₀ True s → fairWp qmidev_send Q (k none) s)
    (hsome : ∀ r s, Composed s₀ r s → fairWp qmidev_send Q (k (some r)) s) :
    fairWp qmidev_send Q (composeQMUX QMIType >>= k) s := by
  refine wp_op (stable_of_received fun _ _ ↦ Received.ready) h (fun _ hs ↦ hs.inv)
    fun s i hs _ _ ↦ ?_
  have hinv := hs.inv
  have hnext : Ready s₀ True { s with transactionId := s.nextTransactionId } :=
    ⟨⟨hinv.present, hinv.requests, hinv.pending, hinv.requestsLt, hinv.responses,
      hinv.responsesLt⟩, ⟨hs.kept.responses, hs.kept.live, hs.kept.freed⟩, hs.answered⟩
  by_cases hmalloc : i = .malloc true
  · have hperform : (cmSemantics qmidev_send).perform (.compose QMIType) s i =
        (some (some s.requests.length), { s with
          transactionId := s.nextTransactionId
          requests := s.requests ++ [⟨QMIType, 0, s.nextTransactionId⟩] }) := if_pos hmalloc
    rw [hperform]
    refine ⟨some s.requests.length, rfl, ?_⟩
    refine hsome _ _ ⟨⟨⟨hinv.present, hinv.requests, fun r hr ↦ ?_, fun r hr ↦ ?_,
      hinv.responses, hinv.responsesLt⟩,
      ⟨hs.kept.responses, hs.kept.live, hs.kept.freed⟩, hs.answered⟩, ?_, ?_, ?_⟩
    · obtain ⟨hlt, hmem⟩ := hinv.pending r hr
      exact ⟨by rw [List.length_append]; exact Nat.lt_add_right _ hlt, hmem⟩
    · rw [List.length_append]
      exact Nat.lt_add_right _ (hinv.requestsLt r hr)
    · rw [List.length_append]
      exact Nat.lt_succ_self _
    · exact fun hmem ↦ Nat.lt_irrefl _ (hinv.requestsLt _ hmem)
    · exact fun hreq ↦ Nat.lt_irrefl _ (hinv.pending _ hreq).1
  · have hperform : (cmSemantics qmidev_send).perform (.compose QMIType) s i =
        (some none, { s with transactionId := s.nextTransactionId }) := if_neg hmalloc
    rw [hperform]
    exact ⟨none, rfl, hnone _ hnext⟩

/-- No request is sent. -/
theorem wp_send_none {Q : α → Cm → Prop} {use : Use} {k : ℤ × Ptr → CmProg α}
    (h : Ready s₀ True s)
    (hk : ∀ s a, Outcome use s₀ old s a → fairWp qmidev_send Q (k a) s) :
    fairWp qmidev_send Q (qmiThreadSendQMI use none old >>= k) s := by
  refine wp_op (stable_of_received fun _ _ ↦ Received.ready) h (fun _ hs ↦ hs.inv)
    fun s i hs _ hfair ↦ ⟨-einval, rfl, hk _ _ (.notSent hs ?_ ?_)⟩
  · rintro rfl
    exact hfair.1 rfl
  · rintro rfl
    exact hfair rfl

/-- A fair wait for a request whose result is checked returns zero only with a fair response. -/
theorem Op.Fair.response {use : Use} {ret : ℤ} (hfair : Op.Fair (.wait use) s (.ret ret))
    (huse : use.isChecked) (hret : ret = 0) : ∃ msg ∈ s.response, FairResponse msg := by
  cases use with
  | checked => exact hfair (congrArg Input.ret hret)
  | early =>
    obtain ⟨-, msg, hmsg, hfair, -⟩ := hfair
    exact ⟨msg, hmsg, hfair⟩
  | tolerated => cases huse
  | ifPresent => cases huse

/-- A fair wait for a response that is used unseen. -/
theorem Op.Fair.early {use : Use} {ret : ℤ} (hfair : Op.Fair (.wait use) s (.ret ret))
    (huse : use = .early) :
    ret = 0 ∧ ∀ msg ∈ s.response, qmuxError msg.copy = 0 → profileNum msg.copy ≠ some 0 := by
  subst huse
  obtain ⟨hret, msg, hmsg, -, hnum⟩ := hfair
  exact ⟨Input.ret.inj hret, fun msg' hmsg' ↦ Option.mem_unique hmsg hmsg' ▸ hnum⟩

/-- A wait ends. -/
theorem Waiting.outcome {use : Use} {hdr : Header} {newer : List LogEntry} {ret : ℤ}
    (h : Waiting s₀ hdr use.isChecked newer s) (hfair : Op.Fair (.wait use) s (.ret ret)) :
    Outcome use s₀ old s (ret, if ret = 0 then s.s_pResponse else .null) := by
  by_cases hret : ret = 0
  swap
  · rw [if_neg hret]
    exact .failed ret h.ready (fun huse ↦ hret (hfair.early huse).1) fun _ ↦ hret
  rw [if_pos hret, hret]
  have hresponse := h.response
  have hnull : s.s_pResponse = .null → Outcome use s₀ old s (0, s.s_pResponse) := by
    intro hnull
    have hunchecked : ¬use.isChecked := by
      intro huse
      obtain ⟨msg, hmsg, -⟩ := hfair.response huse hret
      rw [Cm.response, hnull] at hmsg
      cases hmsg
    rw [hnull]
    refine .failed 0 h.ready ?_ fun huse ↦ absurd huse hunchecked
    rintro rfl
    exact hunchecked rfl
  obtain ⟨r, -, -, hptr⟩ | ⟨-, hptr | ⟨b, msg, hptr, hfresh, hholds, hmatch, hmem⟩⟩ := hresponse
  · exact hnull hptr
  · exact hnull hptr
  have hmsg : s.response = some msg := by rw [Cm.response, hptr]; exact hholds.2
  have hfairMsg : use.isChecked → FairResponse msg := by
    intro huse
    obtain ⟨msg', hmsg', hfairMsg⟩ := hfair.response huse hret
    rw [hmsg, Option.mem_some_iff] at hmsg'
    exact hmsg' ▸ hfairMsg
  rw [hptr]
  refine .received b msg ⟨h.inv, h.kept, fun herr ↦ ?_⟩ hholds hfresh hfairMsg
    fun huse ↦ (hfair.early huse).2 msg hmsg
  refine h.sent.answered fun huse ↦ ?_
  obtain ⟨hlen, htype, hresult⟩ := hfairMsg huse (herr huse)
  exact ⟨msg.msg, hmem, hlen, isResponse_append hlen msg.stale _ ▸ hmatch, htype, hresult⟩

/-- A request is sent, and its response waited for. -/
theorem wp_send_some {Q : α → Cm → Prop} {use : Use} {r : ℕ} {k : ℤ × Ptr → CmProg α}
    (h : Composed s₀ r s)
    (hk : ∀ s a, Outcome use s₀ old s a → fairWp qmidev_send Q (k a) s) :
    fairWp qmidev_send Q (qmiThreadSendQMI use (some r) old >>= k) s := by
  refine wp_op (stable_of_received fun _ _ ↦ Received.composed) h (fun _ hs ↦ hs.inv)
    fun s i hs hi hfair ↦ ?_
  obtain ⟨ret, rfl⟩ := Input.exists_of_isRet hi
  obtain ⟨hdr, hhdr⟩ : ∃ hdr, s.requests[r]? = some hdr := ⟨_, List.getElem?_eq_getElem hs.lt⟩
  have hsend := hs.send hhdr qmidev_send use.isChecked
  have hperform : (cmSemantics qmidev_send).perform (.send use (some r) old) s
      (.ret ret) = (some ret, { s with
        s_pRequest := some r
        s_pResponse := .null
        requests := s.requests.modify r qmidev_send
        log := .sent (qmidev_send hdr) use.isChecked :: s.log }) := by
    have hlog : ((s.requests[r]?).map fun hdr ↦
        LogEntry.sent (qmidev_send hdr) use.isChecked).toList ++ s.log
          = .sent (qmidev_send hdr) use.isChecked :: s.log := by
      rw [hhdr]
      rfl
    rw [← hlog]
    rfl
  rw [hperform]
  refine ⟨ret, rfl, ?_⟩
  by_cases hret : ret = 0
  · -- the wait
    simp only [Option.isNone_some, Bool.false_eq_true, if_false, if_pos hret]
    refine wp_op (P := fun s' ↦ ∃ newer, Waiting s₀ (qmidev_send hdr) use.isChecked newer s')
      (stable_of_received fun _ _ hr ⟨_, hs⟩ ↦ hr.waiting hs) ⟨_, hsend⟩
      (fun _ ⟨_, hs⟩ ↦ hs.inv) fun s i ⟨_, hs⟩ hi hfair ↦ ?_
    obtain ⟨ret, rfl⟩ := Input.exists_of_isRet hi
    exact ⟨(ret, s.s_pResponse), rfl, hk _ _ (hs.outcome hfair)⟩
  · simp only [Option.isNone_some, Bool.false_eq_true, if_false, if_neg hret]
    refine hk _ _ (.failed ret hsend.ready ?_ fun _ ↦ hret)
    rintro rfl
    exact hret (Input.ret.inj hfair.2)

/-- A request is composed and sent. -/
theorem wp_composeSend {Q : α → Cm → Prop} {use : Use} {QMIType : UInt8} {k : ℤ × Ptr → CmProg α}
    (h : Ready s₀ True s)
    (hk : ∀ s a, Outcome use s₀ old s a → fairWp qmidev_send Q (k a) s) :
    fairWp qmidev_send Q
      (composeQMUX QMIType >>= fun pRequest ↦ qmiThreadSendQMI use pRequest old >>= k) s :=
  wp_compose h (fun _ hs ↦ wp_send_none hs hk) fun _ _ hs ↦ wp_send_some hs hk

/-- A request is sent with a pointer that is spent. -/
theorem wp_composeSendSpent {Q : α → Cm → Prop} {use : Use} {QMIType : UInt8}
    {k : ℤ × Ptr → CmProg α} (h : Ready s₀ True s) (hold : s.Spent old)
    (hk : ∀ s a, Outcome use s₀ old s a → s.Spent old → fairWp qmidev_send Q (k a) s) :
    fairWp qmidev_send Q
      (composeQMUX QMIType >>= fun pRequest ↦ qmiThreadSendQMI use pRequest old >>= k) s :=
  wp_composeSend (.refl h.inv (h.answered trivial)) fun s a hs ↦
    hk s a (hs.trans h) (hs.kept.spent hold)

/-- The response is checked. If that returns zero, everything is answered. -/
theorem wp_check {use : Use} {fail : ℤ → α} {k : List UInt8 → CmProg α} {err : ℤ} {pResponse : Ptr}
    (h : Outcome use s₀ old s (err, pResponse))
    (hfail : use.isChecked → ∀ e, e ≠ 0 → val (fail e) ≠ 0)
    (hk : ∀ s b msg, pResponse = .buf b → Ready s₀ True s → s.Holds b msg →
      s₀.responses.length ≤ b → (use = .early → profileNum msg.copy ≠ some 0) →
      fairWp qmidev_send (Post s₀ val) (k msg.copy) s) :
    fairWp qmidev_send (Post s₀ val) (qmiRspCheckAndReturn fail err pResponse k) s := by
  cases h with
  | notSent h =>
    rw [qmiRspCheckAndReturn, if_pos (.inl (by decide))]
    exact wp_return h fun _ ↦ trivial
  | failed err h _ herr =>
    rw [qmiRspCheckAndReturn, if_pos (.inr rfl)]
    refine wp_return h fun hval ↦ ?_
    rw [← Bool.not_eq_true]
    exact fun huse ↦ hfail huse err (herr huse) hval
  | received b msg h hb hfresh hfair hearly =>
    have hpresent : ¬((0 : ℤ) < 0 ∨ Ptr.buf b = .null) := by
      rintro (herr | hnull)
      · exact Int.lt_irrefl 0 herr
      · cases hnull
    rw [qmiRspCheckAndReturn, if_neg hpresent]
    refine wp_read h hb fun s hs hb ↦ ?_
    by_cases hmsg : qmuxResult msg.copy ≠ 0 ∨ qmuxError msg.copy ≠ 0
    · rw [if_pos hmsg]
      refine wp_free hs hb.1 hfresh fun s hs _ ↦ wp_return hs fun hval huse ↦ ?_
      -- a failure has an error code, which is returned
      have herr : qmuxError msg.copy ≠ 0 := by
        intro herr
        obtain ⟨hlen, -, hresult⟩ := hfair huse herr
        rw [← qmuxResult_append hlen msg.heap] at hresult
        exact hmsg.elim (absurd hresult) (absurd herr)
      exact absurd hval (hfail huse (qmuxError msg.copy) (Int.natCast_ne_zero.mpr herr))
    · rw [if_neg hmsg]
      rw [not_or, not_not, not_not] at hmsg
      exact hk s b msg rfl (hs.mono fun _ _ ↦ hmsg.2) hb hfresh fun huse ↦ hearly huse hmsg.2

/-- A request is composed, sent and checked. -/
theorem wp_request {use : Use} {QMIType : UInt8} {fail : ℤ → α} {k : Ptr → List UInt8 → CmProg α}
    (h : Ready s₀ True s) (hfail : use.isChecked → ∀ e, e ≠ 0 → val (fail e) ≠ 0)
    (hk : ∀ s b msg, Ready s₀ True s → s.Holds b msg → s₀.responses.length ≤ b →
      fairWp qmidev_send (Post s₀ val) (k (.buf b) msg.copy) s) :
    fairWp qmidev_send (Post s₀ val) (request use QMIType old fail k) s :=
  wp_composeSend h fun _ _ hs ↦ wp_check hs hfail fun s b msg hptr hs hb hfresh _ ↦ by
    rw [hptr]
    exact hk s b msg hs hb hfresh

/-- What is left of a response is freed. -/
theorem wp_freeIfPresent {k : CmProg α} {Q : α → Cm → Prop} (h : Ready s₀ True s)
    (hb : s.Holds b msg) (hfresh : s₀.responses.length ≤ b)
    (hk : ∀ s, Ready s₀ True s → s.Spent (.buf b) → fairWp qmidev_send Q k s) :
    fairWp qmidev_send Q (freeIfPresent (.buf b) >>= fun _ ↦ k) s := by
  rw [freeIfPresent, if_neg (by intro hnull; cases hnull)]
  exact wp_free h hb.1 hfresh hk

/-- A response that is only freed. -/
theorem wp_freeOutcome {k : CmProg α} {Q : α → Cm → Prop} {a : ℤ × Ptr}
    (h : Outcome .ifPresent s₀ old s a) (hold : s.Spent old)
    (hk : ∀ s, Ready s₀ True s → s.Spent a.2 → fairWp qmidev_send Q k s) :
    fairWp qmidev_send Q (freeIfPresent a.2 >>= fun _ ↦ k) s := by
  cases h with
  | notSent h _ hunfreed =>
    cases old with
    | wild => exact absurd hold id
    | null => exact hk s h trivial
    | buf b => exact absurd hold (hunfreed rfl)
  | failed err h => exact hk s (h.mono fun _ ↦ rfl) trivial
  | received b msg h hb hfresh =>
    exact wp_freeIfPresent (h.mono fun _ huse ↦ by cases huse) hb hfresh hk

end Rules

end Wwan.QuectelCm
