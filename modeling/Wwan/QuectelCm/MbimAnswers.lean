import Mathlib.Data.List.Nodup
import Wwan.QuectelCm.MbimRequests

/-!
# MBIM requests succeed on their own completion

`mbim_recv_command` looks at the `TransactionId` only, and `mbim_status_code` takes all messages but
completions and function errors for a success. No length is looked at: a completion can be too
short for its `Status`. A second message with the same id takes the place of the first, which nobody
frees then. Nor is a copy freed that comes when the wait has timed out, nor the one that
`mbim_ip_config` uses. `MbimOp.Fair` excludes that.
-/

namespace Wwan.QuectelCm

open Bytes Exchange MbimProxy Semantics

/-! ## A sound run -/

/-- The `Status` of the message was received, and is copied. -/
structure HasStatus (msg : List UInt8) : Prop where
  received : doneStatusEnd (mbimMessage msg).messageType ≤ msg.length
  copied : doneStatusEnd (mbimMessage msg).messageType ≤ (mbimMessage msg).messageLength.toNat

instance (msg : List UInt8) : Decidable (HasStatus msg) :=
  decidable_of_iff (_ ∧ _) ⟨fun h ↦ ⟨h.1, h.2⟩, fun h ↦ ⟨h.received, h.copied⟩⟩

/-- The message is a completion of the request, and a success. -/
structure Completes (req : MbimMessage) (msg : List UInt8) : Prop where
  type : (mbimMessage msg).messageType = doneType req.messageType
  transactionId : (mbimMessage msg).transactionId = req.transactionId
  hasStatus : HasStatus msg
  status : doneStatus (mbimMessage msg) = 0

/-- A run of a request function is as it should be so far: zero is returned after a completion,
no copy is used that is not there, and each is freed once when the function has returned. -/
structure MbimSound (t : Thread MbimOp MbimOp.Res MbimCm ℤ) : Prop where
  answered : t.prog = some (.ret 0) → Answered Completes t.state.log
  present : t.state.absentUsed = false
  once : t.state.freed.Nodup
  all : ∀ ret, t.prog = some (.ret ret) → ∀ b < t.state.stored.length, b ∈ t.state.freed

/-! ## The condition -/

/-- The copy that `mbim_pResponse` points to. -/
def MbimCm.response (s : MbimCm) : Option RecvMsg := s.mbim_pResponse.bind (s.stored[·]?)

/-- A message that is taken for a success is a completion of the request with its `Status`, and is
freed. -/
def FairMessage (checked kept : Bool) (req : Option MbimMessage) (msg : RecvMsg) : Prop :=
  mbimStatusCode msg.pCmdDone = 0 → kept = false ∧ (checked → HasStatus msg.msg ∧
    ∀ q ∈ req, (mbimMessage msg.msg).messageType = doneType q.messageType)

/-- The inputs with which the functions do not go wrong. -/
def MbimOp.Fair (o : MbimOp) (s : MbimCm) (i : Input) : Prop :=
  match o with
  | .wait checked kept => s.overwritten = false ∧ if i = .ret 0 then
      ∀ msg ∈ s.response, FairMessage checked kept s.mbim_pRequest msg
    else s.mbim_pResponse = none
  | _ => True

instance (checked kept : Bool) (req : Option MbimMessage) (msg : RecvMsg) :
    Decidable (FairMessage checked kept req msg) :=
  inferInstanceAs (Decidable (_ → _ ∧ (_ → _ ∧ ∀ q ∈ req, _)))

instance MbimOp.decidableFair (s : MbimCm) (i : Input) : (o : MbimOp) → Decidable (o.Fair s i)
  | .wait checked kept => inferInstanceAs (Decidable (s.overwritten = false ∧ if i = .ret 0 then
      ∀ msg ∈ s.response, FairMessage checked kept s.mbim_pRequest msg
    else s.mbim_pResponse = none))
  | .compose _ => .isTrue trivial
  | .send _ _ => .isTrue trivial
  | .read _ => .isTrue trivial
  | .free _ => .isTrue trivial
  | .update _ => .isTrue trivial
  | .write => .isTrue trivial
  | .alloc => .isTrue trivial

/-! ## The invariant -/

/-- What holds of the shared state at any time. -/
structure MbimCm.Inv (s : MbimCm) : Prop where
  present : s.absentUsed = false
  once : s.freed.Nodup
  freedLt : ∀ b ∈ s.freed, b < s.stored.length

/-- Nobody waits. -/
structure Idle (s : MbimCm) : Prop extends s.Inv where
  noRequest : s.mbim_pRequest = none
  noResponse : s.mbim_pResponse = none

/-- Between two requests all copies are freed; under a condition everything is answered. -/
structure MbimReady (c : Prop) (s : MbimCm) : Prop extends Idle s where
  all : ∀ b < s.stored.length, b ∈ s.freed
  answered : c → Answered Completes s.log

/-- A copy was received and is not freed yet. -/
structure Holding (c : Prop) (b : ℕ) (msg : MbimMessage) (s : MbimCm) : Prop extends Idle s where
  stored : (s.stored[b]?).map RecvMsg.pCmdDone = some msg
  notFreed : b ∉ s.freed
  all : ∀ b' < s.stored.length, b' ≠ b → b' ∈ s.freed
  answered : c → Answered Completes s.log

/-- What the `compose` functions make. -/
def IsRequest (msg : MbimMessage) : Prop :=
  msg.messageType = mbimOpenMsg ∨ msg.messageType = mbimCloseMsg ∨
    msg.messageType = mbimCommandMsg

/-- A request was written. -/
structure MbimWaiting (req : MbimMessage) (checked : Bool)
    (newer : List (Exchange MbimMessage (List UInt8))) (s : MbimCm) : Prop extends s.Inv where
  request : s.mbim_pRequest = some req
  kind : IsRequest req
  sent : Since Completes req checked newer s.log
  response : ∀ b ∈ s.mbim_pResponse, b ∉ s.freed ∧ ∃ msg, s.stored[b]? = some msg ∧
    msg.pResponse.transactionId = req.transactionId ∧ .received msg.msg ∈ newer
  all : s.overwritten = false → ∀ b < s.stored.length, b ∈ s.freed ∨ s.mbim_pResponse = some b

/-- What the reader thread can do while nobody waits. -/
structure Reacted (s s' : MbimCm) : Prop where
  request : s'.mbim_pRequest = s.mbim_pRequest
  response : s'.mbim_pResponse = s.mbim_pResponse
  stored : s'.stored = s.stored
  freed : s'.freed = s.freed
  absentUsed : s'.absentUsed = s.absentUsed
  log : s'.log = s.log ∨ ∃ msg, s'.log = .received msg :: s.log

section Reacted

variable {s s' : MbimCm} {c c' : Prop} {b : ℕ} {msg : MbimMessage}

theorem reacted_react (hidle : s.mbim_pRequest = none) (e : MbimEvent) :
    Reacted s (s.react e) := by
  cases e with
  | device fd => exact ⟨rfl, rfl, rfl, rfl, rfl, .inl rfl⟩
  | reader started => exact ⟨rfl, rfl, rfl, rfl, rfl, .inl rfl⟩
  | recv malloc msg =>
    cases msg with
    | none => exact ⟨rfl, rfl, rfl, rfl, rfl, .inl rfl⟩
    | some msg =>
      have hmatch : ¬s.Matches msg := by
        rintro ⟨req, hreq, -⟩
        rw [hidle] at hreq
        cases hreq
      have hcall : s.react (.recv malloc (some msg)) = { s with
          log := .received msg.msg :: s.log
          events := s.events ++ (s.globals.notification msg.pResponse).toList } := if_neg hmatch
      rw [hcall]
      exact ⟨rfl, rfl, rfl, rfl, rfl, .inr ⟨msg.msg, rfl⟩⟩

theorem Reacted.idle (h : Reacted s s') (hs : Idle s) : Idle s' :=
  ⟨⟨by rw [h.absentUsed, hs.present], by rw [h.freed]; exact hs.once,
    by rw [h.freed, h.stored]; exact hs.freedLt⟩, h.request.trans hs.noRequest,
    h.response.trans hs.noResponse⟩

theorem Reacted.answered (h : Reacted s s') (hs : Answered Completes s.log) :
    Answered Completes s'.log := by
  rcases h.log with hlog | ⟨msg, hlog⟩
  · rwa [hlog]
  · rw [hlog]
    exact hs.received msg

theorem Reacted.ready (h : Reacted s s') (hs : MbimReady c s) : MbimReady c s' :=
  ⟨h.idle hs.toIdle, by rw [h.stored, h.freed]; exact hs.all, fun hc ↦ h.answered (hs.answered hc)⟩

theorem Reacted.holding (h : Reacted s s') (hs : Holding c b msg s) : Holding c b msg s' :=
  ⟨h.idle hs.toIdle, by rw [h.stored]; exact hs.stored, by rw [h.freed]; exact hs.notFreed,
    by rw [h.stored, h.freed]; exact hs.all, fun hc ↦ h.answered (hs.answered hc)⟩

theorem MbimReady.mono (h : MbimReady c s) (hc : c' → c) : MbimReady c' s :=
  ⟨h.toIdle, h.all, fun hc' ↦ h.answered (hc hc')⟩

theorem Holding.mono (h : Holding c b msg s) (hc : c' → c) : Holding c' b msg s :=
  ⟨h.toIdle, h.stored, h.notFreed, h.all, fun hc' ↦ h.answered (hc hc')⟩

theorem Holding.live (h : Holding c b msg s) : s.Live b :=
  have ⟨_, hmsg, _⟩ := Option.map_eq_some_iff.mp h.stored
  ⟨(List.getElem?_eq_some_iff.mp hmsg).1, h.notFreed⟩

/-- The copy is freed. -/
theorem Holding.free (h : Holding c b msg s) : MbimReady c { s with freed := b :: s.freed } := by
  refine ⟨⟨⟨h.present, h.once.cons h.notFreed, List.forall_mem_cons.mpr ⟨h.live.1, h.freedLt⟩⟩,
    h.noRequest, h.noResponse⟩, fun b' hb' ↦ ?_, h.answered⟩
  by_cases heq : b' = b
  · exact heq ▸ List.mem_cons_self
  · exact List.mem_cons_of_mem _ (h.all b' hb' heq)

end Reacted

/-! ## The wait -/

section Waiting

variable {s : MbimCm} {req : MbimMessage} {msg : RecvMsg} {checked : Bool}
variable {newer : List (Exchange MbimMessage (List UInt8))}

variable (h : MbimWaiting req checked newer s)

include h

/-- A copy is stored while the request waits. -/
theorem MbimWaiting.store
    (hmatch : msg.pResponse.transactionId = req.transactionId) (malloc : Bool) :
    MbimWaiting req checked (.received msg.msg :: newer)
      (MbimCm.store { s with log := .received msg.msg :: s.log } malloc msg) := by
  have hfresh : s.stored.length ∉ s.freed := fun hmem ↦ Nat.lt_irrefl _ (h.freedLt _ hmem)
  have hall : (s.overwritten || s.mbim_pResponse.isSome) = false →
      ∀ b < s.stored.length, b ∈ s.freed := by
    intro hkept b hb
    rw [Bool.or_eq_false_iff] at hkept
    rcases h.all hkept.1 b hb with hfreed | hptr
    · exact hfreed
    · rw [hptr] at hkept
      cases hkept.2
  cases malloc with
  | false =>
    exact ⟨⟨h.present, h.once, h.freedLt⟩, h.request, h.kind, h.sent.received msg.msg,
      fun b hb ↦ (by cases hb), fun hkept b hb ↦ .inl (hall hkept b hb)⟩
  | true =>
    refine ⟨⟨h.present, h.once, fun b hb ↦ ?_⟩, h.request, h.kind, h.sent.received msg.msg,
      fun b hb ↦ ?_, fun hkept b hb ↦ ?_⟩
    · change b < (s.stored ++ [msg]).length
      rw [List.length_append]
      exact Nat.lt_add_right _ (h.freedLt b hb)
    · obtain rfl : s.stored.length = b := Option.mem_some_iff.mp hb
      refine ⟨hfresh, msg, ?_, hmatch, List.mem_cons_self⟩
      exact List.getElem?_concat_length
    · change b < (s.stored ++ [msg]).length at hb
      rw [List.length_append] at hb
      rcases Nat.lt_succ_iff_lt_or_eq.mp hb with hlt | rfl
      · exact .inl (hall hkept b hlt)
      · exact .inr rfl

theorem MbimWaiting.log (events : List MainEvent) :
    MbimWaiting req checked (.received msg.msg :: newer)
      { s with log := .received msg.msg :: s.log, events := events } := by
  refine ⟨⟨h.present, h.once, h.freedLt⟩, h.request, h.kind, h.sent.received msg.msg,
    fun b hb ↦ ?_, h.all⟩
  obtain ⟨hlive, msg', hmsg', hid, hmem⟩ := h.response b hb
  exact ⟨hlive, msg', hmsg', hid, List.mem_cons_of_mem _ hmem⟩

theorem MbimWaiting.react (e : MbimEvent) : ∃ newer, MbimWaiting req checked newer (s.react e) := by
  cases e with
  | device fd =>
    exact ⟨newer, ⟨h.present, h.once, h.freedLt⟩, h.request, h.kind, h.sent, h.response, h.all⟩
  | reader started =>
    exact ⟨newer, ⟨h.present, h.once, h.freedLt⟩, h.request, h.kind, h.sent, h.response, h.all⟩
  | recv malloc msg =>
    cases msg with
    | none => exact ⟨newer, h⟩
    | some msg =>
      by_cases hmatch : s.Matches msg
      · have hcall : s.react (.recv malloc (some msg)) =
            MbimCm.store { s with log := .received msg.msg :: s.log } malloc msg := if_pos hmatch
        obtain ⟨req', hreq', hid⟩ := hmatch
        obtain rfl : req' = req := Option.mem_unique hreq' h.request
        rw [hcall]
        exact ⟨_, h.store hid.symm malloc⟩
      · have hcall : s.react (.recv malloc (some msg)) = { s with
            log := .received msg.msg :: s.log
            events := s.events ++ (s.globals.notification msg.pResponse).toList } :=
          if_neg hmatch
        rw [hcall]
        exact ⟨_, h.log _⟩

end Waiting

/-- How `mbim_send_command` can end: without a completion, or with a copy. -/
inductive MbimOutcome (checked kept : Bool) (s : MbimCm) : ℤ × Option ℕ → Prop
  | failed (err : ℤ) (h : MbimReady (checked = false) s) : MbimOutcome checked kept s (err, none)
  | received (b : ℕ) (msg : MbimMessage)
      (h : Holding (checked → mbimStatusCode msg = 0) b msg s)
      (hkept : mbimStatusCode msg = 0 → kept = false) : MbimOutcome checked kept s (0, some b)

theorem int32_eq_zero {n : ℕ} (hlt : n < 2 ^ 32) (h : Bytes.int32 n = 0) : n = 0 := by
  rw [Bytes.int32, Int.bmod_def] at h
  split at h <;> omega

/-- A completion is a success if it is taken for one. -/
theorem doneStatus_eq_zero {req msg : MbimMessage} (hreq : IsRequest req)
    (htype : msg.messageType = doneType req.messageType) (hstatus : mbimStatusCode msg = 0) :
    doneStatus msg = 0 := by
  have hdone : msg.messageType = mbimOpenDone ∨ msg.messageType = mbimCloseDone ∨
      msg.messageType = mbimCommandDone := by
    rw [htype]
    rcases hreq with hreq | hreq | hreq
    · rw [hreq]
      exact .inl rfl
    · rw [hreq]
      exact .inr (.inl rfl)
    · rw [hreq]
      exact .inr (.inr rfl)
  rw [mbimStatusCode, if_pos hdone] at hstatus
  refine int32_eq_zero ?_ hstatus
  unfold doneStatus
  split
  · exact field32_lt _ _
  · exact field32_lt _ _

section Congr

variable {l l' : List UInt8} {n : ℕ} (h : l.take n = l'.take n)

include h

theorem mbimMessage_congr (hn : 12 ≤ n) :
    (mbimMessage l).messageType = (mbimMessage l').messageType ∧
      (mbimMessage l).messageLength = (mbimMessage l').messageLength ∧
      (mbimMessage l).transactionId = (mbimMessage l').transactionId :=
  ⟨congrArg UInt32.ofNat (field32_congr h (Nat.lt_of_lt_of_le (by decide) hn)),
    congrArg UInt32.ofNat (field32_congr h (Nat.lt_of_lt_of_le (by decide) hn)),
    congrArg UInt32.ofNat (field32_congr h (Nat.lt_of_lt_of_le (by decide) hn))⟩

theorem doneStatus_congr (hn : doneStatusEnd (mbimMessage l).messageType ≤ n) :
    doneStatus (mbimMessage l) = doneStatus (mbimMessage l') := by
  have hpayload : ∀ offset, 12 + offset + 3 < n →
      field32 (mbimMessage l).payload offset = field32 (mbimMessage l').payload offset := by
    intro offset hlt
    refine (field32_drop l 12 offset).trans (Eq.trans ?_ (field32_drop l' 12 offset).symm)
    exact field32_congr h hlt
  unfold doneStatusEnd at hn
  unfold doneStatus
  split at hn
  next htype =>
    rw [← (mbimMessage_congr h (Nat.le_trans (by decide) hn)).1, if_pos htype, if_pos htype]
    exact hpayload 28 hn
  next htype =>
    rw [← (mbimMessage_congr h (Nat.le_trans (by decide) hn)).1, if_neg htype, if_neg htype]
    exact hpayload 0 hn

end Congr

theorem twelve_le_doneStatusEnd (messageType : UInt32) : 12 ≤ doneStatusEnd messageType := by
  unfold doneStatusEnd
  split
  · decide
  · decide

section HasStatus

variable {m : RecvMsg} (h : HasStatus m.msg)

include h

theorem HasStatus.take_buf : m.msg.take (doneStatusEnd (mbimMessage m.msg).messageType) =
    m.buf.take (doneStatusEnd (mbimMessage m.msg).messageType) :=
  (List.take_append_of_le_length h.received).symm

/-- A message that has its `Status` is matched by its own `TransactionId`. -/
theorem HasStatus.pResponse : (mbimMessage m.msg).transactionId = m.pResponse.transactionId :=
  (mbimMessage_congr h.take_buf (twelve_le_doneStatusEnd _)).2.2

/-- The copy of a message that has its `Status` is a completion as the message is. -/
theorem HasStatus.pCmdDone : (mbimMessage m.msg).messageType = m.pCmdDone.messageType ∧
    doneStatus (mbimMessage m.msg) = doneStatus m.pCmdDone := by
  have hlength := (mbimMessage_congr h.take_buf (twelve_le_doneStatusEnd _)).2.1
  have hcopied : doneStatusEnd (mbimMessage m.msg).messageType ≤
      (m.buf.take m.pResponse.messageLength.toNat).length := by
    rw [List.length_take]
    refine Nat.le_min.mpr ⟨hlength ▸ h.copied, Nat.le_trans h.received ?_⟩
    rw [RecvMsg.buf, List.length_append]
    exact Nat.le_add_right ..
  have htake : m.msg.take (doneStatusEnd (mbimMessage m.msg).messageType) =
      (m.buf.take m.pResponse.messageLength.toNat ++ m.heap).take
        (doneStatusEnd (mbimMessage m.msg).messageType) := by
    rw [List.take_append_of_le_length hcopied, List.take_take,
      Nat.min_eq_left (hlength ▸ h.copied)]
    exact h.take_buf
  exact ⟨(mbimMessage_congr htake (twelve_le_doneStatusEnd _)).1,
    doneStatus_congr htake (Nat.le_refl _)⟩

end HasStatus

section Outcome

variable {s : MbimCm} {req : MbimMessage} {checked kept : Bool}
variable {newer : List (Exchange MbimMessage (List UInt8))}

/-- A wait ends. -/
theorem MbimWaiting.outcome (h : MbimWaiting req checked newer s) {ret : ℤ}
    (hfair : MbimOp.Fair (.wait checked kept) s (.ret ret)) :
    MbimOutcome checked kept s.clear (ret, if ret = 0 then s.mbim_pResponse else none) := by
  obtain ⟨hkept, hmsg⟩ := hfair
  have hall := h.all hkept
  have hnone : s.mbim_pResponse = none → MbimOutcome checked kept s.clear (ret, none) := by
    intro hnone
    refine .failed ret ⟨⟨⟨h.present, h.once, h.freedLt⟩, rfl, rfl⟩, fun b hb ↦ ?_,
      fun hchecked ↦ ?_⟩
    · rcases hall b hb with hfreed | hptr
      · exact hfreed
      · rw [hnone] at hptr
        cases hptr
    · refine h.sent.answered fun htrue ↦ ?_
      rw [hchecked] at htrue
      cases htrue
  by_cases hret : ret = 0
  swap
  · rw [if_neg hret]
    rw [if_neg fun heq ↦ hret (Input.ret.inj heq)] at hmsg
    exact hnone hmsg
  rw [if_pos hret]
  rw [if_pos (congrArg Input.ret hret)] at hmsg
  cases hptr : s.mbim_pResponse with
  | none => exact hnone hptr
  | some b =>
    obtain ⟨hlive, msg, hstored, hid, hmem⟩ := h.response b hptr
    have hresponse : s.response = some msg := by
      rw [MbimCm.response, hptr]
      exact hstored
    have hfairMsg := hmsg msg hresponse
    rw [hret]
    have hcopy : (s.stored[b]?).map RecvMsg.pCmdDone = some msg.pCmdDone :=
      congrArg (Option.map RecvMsg.pCmdDone) hstored
    refine .received b msg.pCmdDone ⟨⟨⟨h.present, h.once, h.freedLt⟩, rfl, rfl⟩, hcopy, hlive,
      fun b' hb' hne ↦ ?_, fun hstatus ↦ ?_⟩ fun hstatus ↦ (hfairMsg hstatus).1
    · rcases hall b' hb' with hfreed | hptr'
      · exact hfreed
      · rw [hptr] at hptr'
        exact absurd (Option.some.inj hptr').symm hne
    · refine h.sent.answered fun hchecked ↦ ⟨msg.msg, hmem, ?_⟩
      have hzero := hstatus hchecked
      obtain ⟨hhas, htype⟩ := (hfairMsg hzero).2 hchecked
      have hreq := htype req h.request
      refine ⟨hreq, hhas.pResponse.trans hid, hhas, hhas.pCmdDone.2.trans ?_⟩
      exact doneStatus_eq_zero h.kind (hhas.pCmdDone.1 ▸ hreq) hzero

end Outcome

/-! ## Rules -/

section Rules

variable {order : ByteOrder} {α : Type} {P : α → Prop} {s : MbimCm} {c : Prop} {b : ℕ}
variable {msg : MbimMessage} {checked kept : Bool}

/-- The weakest precondition in fair runs. -/
abbrev mbimWp (order : ByteOrder) (Q : α → MbimCm → Prop) (p : MbimProg α) (s : MbimCm) : Prop :=
  (mbimSemantics order).wp MbimOp.Fair MbimCm.Inv Q p s

/-- What a program returns: if it tells of a success, everything is answered. -/
abbrev MbimPost (P : α → Prop) (a : α) (s : MbimCm) : Prop := MbimReady (P a) s

theorem stable_ready : (mbimSemantics order).Stable (MbimReady c) :=
  fun _ e hs ↦ (reacted_react hs.noRequest e).ready hs

theorem stable_holding : (mbimSemantics order).Stable (Holding c b msg) :=
  fun _ e hs ↦ (reacted_react hs.noRequest e).holding hs

/-- A value is returned. -/
theorem mbimWp_return {a : α} (h : MbimReady c s) (hc : P a → c) :
    mbimWp order (MbimPost P) (.ret a) s :=
  wp_ret stable_ready h fun _ hs ↦ ⟨hs.toInv, hs.mono hc⟩

/-- A copy is read. -/
theorem mbimWp_read {Q : α → MbimCm → Prop} {k : MbimMessage → MbimProg α} (h : Holding c b msg s)
    (hk : ∀ s, Holding c b msg s → mbimWp order Q (k msg) s) :
    mbimWp order Q (readMessage b >>= k) s := by
  refine wp_op stable_holding h (fun _ hs ↦ hs.toInv) fun s i hs _ _ ↦ ⟨msg, ?_, ?_⟩
  · change (if s.Live b then ((s.stored[b]?).map RecvMsg.pCmdDone, s)
      else (none, { s with absentUsed := true })).1 = _
    rw [if_pos hs.live]
    exact hs.stored
  · change mbimWp order Q (k msg) (if s.Live b then
      ((s.stored[b]?).map RecvMsg.pCmdDone, s) else (none, { s with absentUsed := true })).2
    rw [if_pos hs.live]
    exact hk s hs

/-- A copy is freed. -/
theorem mbimWp_free {Q : α → MbimCm → Prop} {k : Unit → MbimProg α} (h : Holding c b msg s)
    (hk : ∀ s, MbimReady c s → mbimWp order Q (k ()) s) :
    mbimWp order Q (freeMessage b >>= k) s :=
  wp_op stable_holding h (fun _ hs ↦ hs.toInv) fun _ _ hs _ _ ↦ ⟨(), rfl, hk _ hs.free⟩

/-- Globals are set while a copy is there. -/
theorem mbimWp_update {Q : α → MbimCm → Prop} {f : MbimGlobals → MbimGlobals}
    {k : Unit → MbimProg α} (h : Holding c b msg s)
    (hk : ∀ s, Holding c b msg s → mbimWp order Q (k ()) s) :
    mbimWp order Q (updateGlobals f >>= k) s :=
  wp_op stable_holding h (fun _ hs ↦ hs.toInv) fun _ _ hs _ _ ↦ ⟨(), rfl, hk _
    ⟨⟨⟨hs.present, hs.once, hs.freedLt⟩, hs.noRequest, hs.noResponse⟩, hs.stored, hs.notFreed,
      hs.all, hs.answered⟩⟩

theorem Command.isRequest_compose (tid : UInt32) (cmd : Command) : IsRequest (cmd.compose tid) := by
  cases cmd with
  | openMsg maxControlTransfer => exact .inl rfl
  | closeMsg => exact .inr (.inl rfl)
  | commandMsg uuid cid commandType informationBuffer => exact .inr (.inr rfl)
  | nullMsg uuid cid commandType informationBuffer => exact .inr (.inr rfl)

/-- A request is composed. -/
theorem mbimWp_compose {Q : α → MbimCm → Prop} {cmd : Command} {k : Option MbimMessage → MbimProg α}
    (h : MbimReady c s)
    (hk : ∀ s req, MbimReady c s → (∀ q ∈ req, IsRequest q) → mbimWp order Q (k req) s) :
    mbimWp order Q (composeMessage cmd >>= k) s := by
  refine wp_op stable_ready h (fun _ hs ↦ hs.toInv) fun s i hs hi _ ↦ ?_
  cases i with
  | ret r => cases hi
  | go => cases hi
  | malloc ok =>
    cases ok with
    | false => exact ⟨none, rfl, hk s none hs fun q hq ↦ (by cases hq)⟩
    | true =>
      refine ⟨some (cmd.compose s.transactionId), rfl, hk _ _ ?_ ?_⟩
      · exact ⟨⟨⟨hs.present, hs.once, hs.freedLt⟩, hs.noRequest, hs.noResponse⟩, hs.all,
          hs.answered⟩
      · intro q hq
        rw [← Option.mem_some_iff.mp hq]
        exact cmd.isRequest_compose _

variable (h : MbimReady True s)

include h

/-- A request is about to be written. -/
theorem MbimReady.post (order : ByteOrder) (checked : Bool)
    (hreq : IsRequest msg) : ∃ q, MbimWaiting q checked [] (s.post order checked msg) := by
  refine ⟨_, ⟨h.present, h.once, h.freedLt⟩, rfl, ?_, (h.answered trivial).sent _ _,
    fun b hb ↦ (by cases hb), fun _ b hb ↦ .inl (h.all b hb)⟩
  unfold wrapTransactionId
  split
  · exact hreq
  · exact hreq

theorem MbimReady.clear (order : ByteOrder) (checked : Bool)
    (msg : MbimMessage) : MbimReady (checked = false) (s.post order checked msg).clear := by
  refine ⟨⟨⟨h.present, h.once, h.freedLt⟩, rfl, rfl⟩, h.all, fun hchecked ↦ ?_⟩
  refine ((h.answered trivial).sent _ checked).answered fun htrue ↦ ?_
  rw [hchecked] at htrue
  cases htrue

/-- In front of the wait: an error is returned, or the request was written. -/
theorem MbimReady.send {req : Option MbimMessage}
    (hreq : ∀ q ∈ req, IsRequest q) (order : ByteOrder) (checked : Bool) (written : ℤ) :
    let r := s.mbimSendCommand order checked req written
    r.1.2 = false ∧ MbimReady (checked = false) r.2 ∨
      r.1.2 = true ∧ ∃ q, MbimWaiting q checked [] r.2 := by
  unfold MbimCm.mbimSendCommand
  dsimp only
  split
  · exact .inl ⟨rfl, h.mono fun _ ↦ trivial⟩
  · split
    · exact .inl ⟨rfl, h.mono fun _ ↦ trivial⟩
    · cases req with
      | none => exact .inl ⟨rfl, h.mono fun _ ↦ trivial⟩
      | some q =>
        dsimp only
        split
        · exact .inr ⟨rfl, h.post order checked (hreq q rfl)⟩
        · exact .inl ⟨rfl, h.clear order checked q⟩

/-- A request is sent, and its completion waited for. -/
theorem mbimWp_send {Q : α → MbimCm → Prop} {req : Option MbimMessage}
    {k : ℤ × Option ℕ → MbimProg α} (hreq : ∀ q ∈ req, IsRequest q)
    (hk : ∀ s a, MbimOutcome checked kept s a → mbimWp order Q (k a) s) :
    mbimWp order Q (mbimSendCommand checked kept req >>= k) s := by
  refine wp_op stable_ready h (fun _ hs ↦ hs.toInv) fun s i hs hi _ ↦ ?_
  obtain ⟨written, rfl⟩ := Input.exists_of_isRet hi
  refine ⟨(s.mbimSendCommand order checked req written).1, rfl, ?_⟩
  change mbimWp order Q _ (s.mbimSendCommand order checked req written).2
  dsimp only
  obtain ⟨hfalse, hready⟩ | ⟨htrue, q, hwait⟩ := hs.send hreq order checked written
  · rw [if_neg (by rw [hfalse]; exact Bool.false_ne_true)]
    exact hk _ _ (.failed _ hready)
  · rw [if_pos htrue]
    refine wp_op (P := fun s' ↦ ∃ newer, MbimWaiting q checked newer s')
      (fun _ e ⟨_, hs⟩ ↦ hs.react e) ⟨_, hwait⟩ (fun _ ⟨_, hs⟩ ↦ hs.toInv)
      fun s i ⟨_, hs⟩ hi hfair ↦ ?_
    obtain ⟨ret, rfl⟩ := Input.exists_of_isRet hi
    exact ⟨_, rfl, hk _ _ (hs.outcome hfair)⟩

/-- A request is composed, sent and checked. -/
theorem mbimWp_request {P : ℤ → Prop} {cmd : Command} {k : ℕ → MbimMessage → MbimProg ℤ}
    (hfail : ∀ e ≠ 0, P e → checked = false)
    (hk : kept = false → ∀ s b msg, Holding True b msg s → mbimStatusCode msg = 0 →
      mbimWp order (MbimPost P) (k b msg) s) :
    mbimWp order (MbimPost P) (mbimRequest checked kept cmd k) s := by
  refine mbimWp_compose h fun s req hs hreq ↦ mbimWp_send hs hreq fun s a hs ↦ ?_
  cases hs with
  | failed err hs =>
    refine mbimWp_return hs fun hP ↦ hfail _ ?_ hP
    split
    · assumption
    · decide
  | received b msg hs hkept =>
    refine mbimWp_read hs fun s hs ↦ ?_
    by_cases hstatus : mbimStatusCode msg = 0
    · rw [if_neg fun hor ↦ hor.elim (absurd rfl) (absurd hstatus)]
      exact hk (hkept hstatus) s b msg (hs.mono fun _ _ ↦ hstatus) hstatus
    · rw [if_pos (.inr hstatus)]
      refine mbimWp_free hs fun s hs ↦ mbimWp_return hs fun hP hchecked ↦ ?_
      have hunchecked := hfail _ hstatus hP
      rw [hchecked] at hunchecked
      cases hunchecked

end Rules

/-! ## The functions -/

section Functions

variable {order : ByteOrder} {s : MbimCm}

/-- A request function keeps what holds between two calls, and returns zero only if its request was
completed. -/
abbrev MbimKeeps (order : ByteOrder) (P : ℤ → Prop) (p : MbimProg ℤ) : Prop :=
  ∀ s, MbimReady True s → mbimWp order (MbimPost P) p s

theorem takeInfo_keeps {P : ℤ → Prop} {f : MbimMessage → MbimGlobals → MbimGlobals} {b : ℕ}
    {msg : MbimMessage} (h : Holding True b msg s) :
    mbimWp order (MbimPost P) (takeInfo f b msg) s := by
  unfold takeInfo
  split
  · exact mbimWp_update h fun s hs ↦ mbimWp_free hs fun s hs ↦ mbimWp_return hs fun _ ↦ trivial
  · exact mbimWp_free h fun s hs ↦ mbimWp_return hs fun _ ↦ trivial

theorem returnStatus_keeps {P : ℤ → Prop} {b : ℕ} {msg : MbimMessage} (h : Holding True b msg s) :
    mbimWp order (MbimPost P) (returnStatus b msg) s :=
  mbimWp_free h fun _ hs ↦ mbimWp_return hs fun _ ↦ trivial

/-- Zero is returned. -/
abbrev Success (ret : ℤ) : Prop := ret = 0

theorem mbimRequest_keeps {kept : Bool} {cmd : Command} {k : ℕ → MbimMessage → MbimProg ℤ}
    (hk : kept = false → ∀ s b msg, Holding True b msg s →
      mbimWp order (MbimPost Success) (k b msg) s) :
    MbimKeeps order Success (mbimRequest true kept cmd k) :=
  fun _ hs ↦ mbimWp_request hs (fun _ hne hzero ↦ absurd hzero hne)
    fun hkept s b msg hs _ ↦ hk hkept s b msg hs

theorem takeRequest_keeps {cmd : Command} {f : MbimMessage → MbimGlobals → MbimGlobals} :
    MbimKeeps order Success (mbimRequest true false cmd (takeInfo f)) :=
  mbimRequest_keeps fun _ _ _ _ ↦ takeInfo_keeps

theorem mbimMsVersionQuery_keeps :
    MbimKeeps order (fun _ ↦ True) (mbimMsVersionQuery false) :=
  fun _ hs ↦ mbimWp_request hs (fun _ _ _ ↦ rfl) fun _ _ _ _ hs _ ↦ takeInfo_keeps hs

theorem mbimDeviceServicesQuery_keeps : MbimKeeps order Success mbimDeviceServicesQuery := by
  refine mbimRequest_keeps fun _ s b msg hs ↦ ?_
  have hrest : ∀ s, MbimReady True s → mbimWp order (MbimPost Success) (if
      informationBufferLength msg ≠ 0 ∧ mbimV2Support msg then do
        let _ ← mbimMsVersionQuery false
        return 0
      else return 0) s := by
    intro s hs
    split
    · refine wp_bind (wp_mono (fun _ _ hs ↦ ?_) (mbimMsVersionQuery_keeps s hs))
      exact mbimWp_return hs fun _ ↦ trivial
    · exact mbimWp_return hs fun _ ↦ trivial
  dsimp only
  split
  · exact mbimWp_update hs fun s hs ↦ mbimWp_free hs hrest
  · exact mbimWp_free hs hrest

theorem mbimSetConnect_keeps (set_connect : List UInt8) :
    MbimKeeps order Success (mbimSetConnect set_connect) := by
  intro s hs
  refine wp_op stable_ready hs (fun _ hs ↦ hs.toInv) fun s i hs _ _ ↦ ⟨i = .malloc true, rfl, ?_⟩
  by_cases hmemory : i = .malloc true
  · rw [decide_eq_true hmemory, if_pos rfl]
    exact takeRequest_keeps s hs
  · rw [decide_eq_false hmemory, if_neg Bool.false_ne_true]
    exact mbimWp_return hs fun _ ↦ trivial

theorem qmiOverMbimQmidevSend_keeps (qmi_over_mbim_nas : UInt8) (pQMI : List UInt8) :
    MbimKeeps order Success (qmiOverMbimQmidevSend qmi_over_mbim_nas pQMI) := by
  intro s hs
  unfold qmiOverMbimQmidevSend
  dsimp only
  split
  · exact mbimWp_return hs fun _ ↦ trivial
  · refine mbimRequest_keeps (fun _ s b msg hs ↦ ?_) s hs
    split
    · refine wp_op stable_holding hs (fun _ hs ↦ hs.toInv) fun s i hs hi _ ↦ ?_
      obtain ⟨ret, rfl⟩ := Input.exists_of_isRet hi
      exact ⟨ret, rfl, mbimWp_free hs fun s hs ↦ mbimWp_return hs fun _ ↦ trivial⟩
    · exact mbimWp_free hs fun s hs ↦ mbimWp_return hs fun _ ↦ trivial

theorem MbimRequestOp.keeps (op : MbimRequestOp) : MbimKeeps order Success op.prog := by
  cases op with
  | openDevice maxControlTransfer => exact mbimRequest_keeps fun _ _ _ _ ↦ returnStatus_keeps
  | closeDevice => exact mbimRequest_keeps fun _ _ _ _ ↦ returnStatus_keeps
  | queryConnect sessionID rest => exact takeRequest_keeps
  | msVersionQuery => exact takeRequest_keeps
  | deviceServicesQuery => exact mbimDeviceServicesQuery_keeps
  | deviceCapsQuery => exact takeRequest_keeps
  | setRadioState radioState => exact takeRequest_keeps
  | subscriberStatusQuery => exact takeRequest_keeps
  | registerStateQuery => exact takeRequest_keeps
  | packetServiceQuery => exact takeRequest_keeps
  | packetServiceSet action => exact takeRequest_keeps
  | setConnect set_connect => exact mbimSetConnect_keeps set_connect
  | ipConfig ip_info =>
    refine mbimRequest_keeps fun hkept ↦ ?_
    cases hkept
  | proxyConfigure cfg =>
    exact mbimRequest_keeps fun _ _ _ _ hs ↦ mbimWp_free hs fun _ hs ↦
      mbimWp_return hs fun _ ↦ trivial
  | qmiOverMbim qmi_over_mbim_nas pQMI => exact qmiOverMbimQmidevSend_keeps qmi_over_mbim_nas pQMI

end Functions

/-! ## All calls of the main thread -/

section Calls

/-- The state at the beginning. -/
def MbimCm.init : MbimCm where
  transactionId := 1
  mbim_fd := -1
  reader := false
  mbim_pRequest := none
  mbim_pResponse := none
  stored := []
  freed := []
  overwritten := false
  absentUsed := false
  globals := ⟨⟨0, 0, 0, 0⟩, ⟨0, 0, 0, 0⟩, 0, 1, false⟩
  events := []
  log := []

variable (order : ByteOrder)

/-- The runs of a request function. -/
def mbimCallSystem (op : MbimRequestOp) (s : MbimCm) := (mbimSemantics order).system op.prog s

instance mbimCallSystem.decidableEnabled (op : MbimRequestOp) (s : MbimCm) :
    (t : Thread MbimOp MbimOp.Res MbimCm ℤ) → (e : Input ⊕ MbimEvent) →
      Decidable ((mbimCallSystem order op s).enabled t e) :=
  Semantics.decidableEnabled _ _

/-- The states between two calls, after fair runs of all calls before. The log begins with each
call, and the globals can be changed in between. -/
inductive MbimBetweenCalls : MbimCm → Prop
  | init : MbimBetweenCalls .init
  | react {s : MbimCm} (e : MbimEvent) (h : MbimBetweenCalls s) : MbimBetweenCalls (s.react e)
  | set {s : MbimCm} (globals : MbimGlobals) (h : MbimBetweenCalls s) :
      MbimBetweenCalls { s with globals := globals, log := [] }
  | call {s s' : MbimCm} (op : MbimRequestOp) {ret : ℤ} (h : MbimBetweenCalls s)
      (ht : (mbimCallSystem order op { s with log := [] }).Reach (guard MbimOp.Fair)
        ⟨some (.ret ret), s'⟩) : MbimBetweenCalls s'

variable {order} {s : MbimCm}

theorem MbimReady.fresh {c : Prop} (h : MbimReady c s) : MbimReady True { s with log := [] } :=
  ⟨⟨⟨h.present, h.once, h.freedLt⟩, h.noRequest, h.noResponse⟩, h.all, fun _ ↦ answered_nil⟩

theorem MbimBetweenCalls.ready (h : MbimBetweenCalls order s) : MbimReady False s := by
  induction h with
  | init =>
    exact ⟨⟨⟨rfl, .nil, fun b hb ↦ (by cases hb)⟩, rfl, rfl⟩, fun b hb ↦ (by cases hb),
      False.elim⟩
  | react e _ ih => exact (reacted_react ih.noRequest e).ready ih
  | set globals _ ih =>
    exact ⟨⟨⟨ih.present, ih.once, ih.freedLt⟩, ih.noRequest, ih.noResponse⟩, ih.all, False.elim⟩
  | call op _ ht ih => exact (reach_ret (op.keeps _ ih.fresh) ht).mono False.elim

/-- In fair runs a request function returns zero only after the completion of its request was
received, no copy of a message is used that is not there, and each copy is freed once. -/
theorem mbim_request_sound (op : MbimRequestOp) (h : MbimBetweenCalls order s)
    {t : Thread MbimOp MbimOp.Res MbimCm ℤ}
    (ht : (mbimCallSystem order op { s with log := [] }).Reach (guard MbimOp.Fair) t) :
    MbimSound t := by
  have hwp : mbimWp order (MbimPost Success) op.prog { s with log := [] } :=
    op.keeps _ h.ready.fresh
  have hinv := reach_inv hwp ht
  have hret : ∀ ret, t.prog = some (.ret ret) → MbimReady (ret = 0) t.state := by
    intro ret hret
    obtain ⟨prog, s'⟩ := t
    obtain rfl : prog = some (.ret ret) := hret
    have hpost : MbimPost Success ret s' := reach_ret hwp ht
    exact hpost
  exact ⟨fun hzero ↦ (hret 0 hzero).answered rfl, hinv.present, hinv.once,
    fun ret hreturn ↦ (hret ret hreturn).all⟩

end Calls

/-! ## Runs -/

/-- The device is open, and the reader thread runs. -/
def openMbim : MbimCm := (MbimCm.init.react (.device 3)).react (.reader true)

/-- A run of a request function. -/
abbrev mbimRun (op : MbimRequestOp) (es : List (Input ⊕ MbimEvent)) :
    Thread MbimOp MbimOp.Res MbimCm ℤ :=
  (mbimCallSystem .littleEndian op openMbim).exec (mbimCallSystem .littleEndian op openMbim).init es

/-- The run of a query: a message comes while it waits. -/
def queryRun (msg : List UInt8) : List (Input ⊕ MbimEvent) :=
  [.inl (.malloc true), .inl (.ret 48), .inr (.recv true (some ⟨msg, [], []⟩)), .inl (.ret 0),
    .inl .go, .inl .go]

/-- A message with nothing but zeros behind its header. -/
def zeroMessage (messageType tid : UInt32) (payload : ℕ) : List UInt8 :=
  toLe32 messageType.toNat ++ toLe32 (12 + payload) ++ toLe32 tid.toNat ++ List.replicate payload 0

/-- A successful completion without information. -/
def emptyDone (tid : UInt32) : List UInt8 := zeroMessage mbimCommandDone tid 36

/-- An indication. -/
def indication (tid : UInt32) : List UInt8 := zeroMessage mbimIndicateStatusMsg tid 32

theorem mbim_request_sound_done :
    (mbimRun .deviceCapsQuery (queryRun (emptyDone 1))).prog = some (.ret 0) ∧
      MbimSound (mbimRun .deviceCapsQuery (queryRun (emptyDone 1))) :=
  have hopen : MbimBetweenCalls .littleEndian openMbim :=
    (MbimBetweenCalls.init.react (.device 3)).react (.reader true)
  ⟨rfl, mbim_request_sound .deviceCapsQuery hopen (.exec .init (by decide))⟩

/-- A query returns zero when an indication with its `TransactionId` comes. -/
theorem mbim_requests_not_sound : ¬∀ (op : MbimRequestOp) (t : Thread MbimOp MbimOp.Res MbimCm ℤ),
    (mbimCallSystem .littleEndian op openMbim).Reach (fun _ _ ↦ True) t → MbimSound t := by
  intro hclaim
  have hsound := hclaim .deviceCapsQuery (mbimRun .deviceCapsQuery (queryRun (indication 1)))
    (.exec .init (by decide))
  obtain ⟨msg, hmem, hdone⟩ := hsound.answered rfl [.received (indication 1)] []
    (Command.compose 1 (query mbimCidDeviceCaps [])) rfl
  rcases List.mem_singleton.mp hmem with ⟨⟩
  exact absurd hdone.type (by decide)

/-- A second completion takes the place of the first. -/
example : (mbimRun .deviceCapsQuery ([.inl (.malloc true), .inl (.ret 48),
    .inr (.recv true (some ⟨emptyDone 1, [], []⟩))] ++
      (queryRun (emptyDone 1)).drop 2)).state.freed = [1] := by
  decide

/-- A completion comes when the wait has timed out. -/
example : (mbimRun .deviceCapsQuery [.inl (.malloc true), .inl (.ret 48),
    .inr (.recv true (some ⟨emptyDone 1, [], []⟩)), .inl (.ret 110)]).state.freed = [] := by
  decide

/-- `mbim_ip_config` does not free its completion. -/
example : (mbimRun (.ipConfig []) ((queryRun (emptyDone 1)).dropLast)).prog = some (.ret 0) ∧
    (mbimRun (.ipConfig []) ((queryRun (emptyDone 1)).dropLast)).state.freed = [] :=
  ⟨rfl, by decide⟩

end Wwan.QuectelCm
