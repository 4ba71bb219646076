import Mathlib.Logic.Function.Basic
import Wwan.MbimProxy.Routing
import Wwan.QuectelCm.MbimMessages

/-!
# Transaction ids of `quectel-cm`

A message gets its `TransactionId` when it is composed, from a counter. `mbim_send_command` sets
the counter back, when it is about to write the first message with an id that is too large for
`quectel-mbim-proxy`. The proxy keeps the number of the client in the top byte of the ids.

The ids are right in every run in which no message is composed between that message and its
`write`. If `mbim_send_command` returns before it comes to the test, the counter runs on.
-/

namespace Wwan.QuectelCm

open Bytes MbimProxy

/-! ## The threads -/

/-- The globals, the messages that threads have composed and not passed to `mbim_send_command`
yet, and those that were written. -/
structure MbimSender (τ : Type*) where
  transactionId : UInt32
  mbim_fd : ℤ
  /-- `s_tid_reader` is not zero. -/
  reader : Bool
  composed : τ → Option MbimMessage
  written : List MbimMessage

inductive SendStep (τ : Type*)
  | /-- `mbim_read_thread` opens or closes the device. -/
    device (fd : ℤ)
  | /-- `mbim_read_thread` begins or ends. -/
    reader (started : Bool)
  | /-- A thread composes a message, if there is memory for it. -/
    compose (i : τ) (cmd : Command) (memory : Bool)
  | /-- A thread calls `mbim_send_command`; the `write` can fail. -/
    send (i : τ) (ok : Bool)

namespace MbimSender

variable {τ : Type*} [DecidableEq τ] (order : ByteOrder) (s : MbimSender τ)

def mbimSendCommand (i : τ) (ok : Bool) : MbimSender τ :=
  let t := { s with composed := Function.update s.composed i none }
  if s.mbim_fd ≤ 0 ∨ ¬s.reader then t
  else match s.composed i with
  | none => t
  | some msg =>
    let r := wrapTransactionId order s.transactionId msg
    { t with
      transactionId := r.2
      written := if ok then s.written ++ [r.1] else s.written }

/-- `TransactionId++` -/
def compose (i : τ) (cmd : Command) (memory : Bool) : MbimSender τ :=
  if memory then
    { s with
      composed := Function.update s.composed i (some (cmd.compose s.transactionId))
      transactionId := s.transactionId + 1 }
  else s

end MbimSender

section System

variable {τ : Type*} [DecidableEq τ] (order : ByteOrder)

def SendStep.act (s : MbimSender τ) : SendStep τ → MbimSender τ
  | device fd => { s with mbim_fd := fd }
  | reader started => { s with reader := started }
  | compose i cmd memory => s.compose i cmd memory
  | send i ok => s.mbimSendCommand order i ok

/-- A thread composes a message when it has sent the one before. -/
def SendStep.enabled (s : MbimSender τ) : SendStep τ → Prop
  | compose i _ _ => s.composed i = none
  | _ => True

/-- The runs of `quectel-cm`. -/
def senderSystem : System (MbimSender τ) (SendStep τ) where
  init := ⟨1, -1, false, fun _ ↦ none, []⟩
  enabled := SendStep.enabled
  next s e := e.act order s

/-! ## Ids that the proxy restores -/

/-- The proxy can forward the id. -/
def InRange (tid : UInt32) : Prop := 1 ≤ tid.toNat ∧ tid.toNat ≤ 0xFFFFFF

/-- A client of the proxy gets the responses to a request with the id that it wrote, and they are
not taken for messages to all clients. -/
def Restored (msg : MbimMessage) : Prop :=
  ∀ p : ProxyRun, proxySystem.Reach (fun _ _ ↦ True) p → ∀ i, p.Live i → ∀ fwd,
    handleClientRequest p.clients (p.clients i).clientFd msg = some (.device fwd) →
      fwd.transactionId ≠ 0 ∧ ∀ rsp : MbimMessage, rsp.transactionId = fwd.transactionId →
        handleDeviceResponse p.clients rsp =
          [(i, { rsp with transactionId := msg.transactionId })]

/-! ## The condition -/

/-- The largest id that is composed before the counter is set back. On a host that is not
little-endian the test never finds it. -/
def ByteOrder.last : ByteOrder → ℕ
  | littleEndian => 0x1000000
  | bigEndian => 0xFFFFFF

/-- When a message is composed, the counter has been set back if need be. -/
def Settled (s : MbimSender τ) : SendStep τ → Prop
  | .compose .. => s.transactionId.toNat ≤ order.last
  | _ => True

end System

/-! ## The proxy -/

theorem routeInv_of_reach {p : ProxyRun} (hp : proxySystem.Reach (fun _ _ ↦ True) p) :
    RouteInv p := by
  refine hp.invariant .init fun p e h he _ ↦ ?_
  cases e with
  | connect fd =>
    obtain ⟨hpos, hnew⟩ := of_decide_eq_true he
    exact h.connect hpos hnew
  | disconnect i => exact h.disconnect (of_decide_eq_true he)
  | request i req => exact h.request (of_decide_eq_true he) req
  | respond r rsp =>
    exact ⟨h.idx, h.fds, h.holders, h.inj, h.nodup, h.old, h.ids, h.senders⟩
  | indicate msg =>
    exact ⟨h.idx, h.fds, h.holders, h.inj, h.nodup, h.old, h.ids, h.senders⟩

/-- An id in range is restored. -/
theorem InRange.restored {msg : MbimMessage} (h : InRange msg.transactionId) : Restored msg := by
  intro p hp i hi fwd hfwd
  have hinv := routeInv_of_reach hp
  have htid : msg.transactionId.toNat < 2 ^ 24 := Nat.lt_of_le_of_lt h.2 (by decide)
  rw [handleClientRequest, hinv.findSlot_fd hi, Option.map_some] at hfwd
  split at hfwd
  · cases Option.some.inj hfwd
  · have hslot : fwd.transactionId = slotTid msg.transactionId i := by
      rw [← Write.device.inj (Option.some.inj hfwd), slotTid, hinv.idx i hi]
    have hne := slotTid_ne_zero msg.transactionId i
    rw [hslot]
    refine ⟨hne, fun rsp hrsp ↦ ?_⟩
    rw [handleDeviceResponse, if_neg (hrsp ▸ hne), hrsp, hinv.findSlot_tid hi htid,
      (slotTid_mask_iff _ _).mpr htid]
    rfl

/-! ## The invariant -/

section Invariant

variable {τ : Type*} [DecidableEq τ] {order : ByteOrder} {s : MbimSender τ}

/-- What holds in settled runs. -/
structure SendInv (order : ByteOrder) (s : MbimSender τ) : Prop where
  counter : 1 ≤ s.transactionId.toNat ∧ s.transactionId.toNat ≤ order.last + 1
  composed : ∀ i, ∀ msg ∈ s.composed i,
    1 ≤ msg.transactionId.toNat ∧ msg.transactionId.toNat ≤ order.last
  written : ∀ msg ∈ s.written, InRange msg.transactionId

theorem ByteOrder.last_lt (order : ByteOrder) : 1 < order.last ∧ order.last + 2 < 2 ^ 32 := by
  cases order <;> decide

/-- When the counter is set back. -/
theorem htole32_eq_iff (tid : UInt32) :
    order.htole32 tid = 0xFFFFFF + 1 ↔ tid.toNat = match order with
      | .littleEndian => 0x1000000
      | .bigEndian => 1 := by
  have hlt := tid.toNat_lt
  rw [← UInt32.toNat_inj]
  cases order with
  | littleEndian => exact Iff.rfl
  | bigEndian =>
    have hswap : (ByteOrder.bigEndian.htole32 tid).toNat = bswap32 tid.toNat % 2 ^ 32 :=
      UInt32.toNat_ofNat'
    have hlast : ((0xFFFFFF + 1 : UInt32)).toNat = 2 ^ 24 := rfl
    rw [hswap, hlast]
    unfold bswap32
    dsimp only
    omega

omit [DecidableEq τ] in
/-- The id that is written, and the counter after that. -/
theorem wrap_spec (h : SendInv order s) {msg : MbimMessage} (hpos : 1 ≤ msg.transactionId.toNat)
    (hlast : msg.transactionId.toNat ≤ order.last) :
    let r := wrapTransactionId order s.transactionId msg
    InRange r.1.transactionId ∧ 1 ≤ r.2.toNat ∧ r.2.toNat ≤ order.last + 1 := by
  unfold wrapTransactionId
  by_cases hwrap : order.htole32 msg.transactionId = 0xFFFFFF + 1
  · rw [if_pos hwrap]
    exact ⟨⟨Nat.le_refl 1, show 1 ≤ 0xFFFFFF by decide⟩, show 1 ≤ 2 by decide,
      Nat.succ_le_succ order.last_lt.1.le⟩
  · rw [if_neg hwrap]
    refine ⟨⟨hpos, ?_⟩, h.counter⟩
    rw [htole32_eq_iff] at hwrap
    dsimp only
    cases order with
    | littleEndian =>
      change msg.transactionId.toNat ≤ 0x1000000 at hlast
      dsimp only at hwrap
      omega
    | bigEndian => exact hlast

theorem SendInv.compose (h : SendInv order s) (i : τ) (cmd : Command) (memory : Bool)
    (hsettled : s.transactionId.toNat ≤ order.last) : SendInv order (s.compose i cmd memory) := by
  cases memory with
  | false => exact h
  | true =>
    refine ⟨?_, fun j msg hmsg ↦ ?_, h.written⟩
    · have hlast := order.last_lt.2
      change 1 ≤ (s.transactionId + 1).toNat ∧ (s.transactionId + 1).toNat ≤ _
      rw [UInt32.toNat_add, UInt32.toNat_one, Nat.mod_eq_of_lt (by omega)]
      exact ⟨Nat.le_add_left _ _, Nat.succ_le_succ hsettled⟩
    · change msg ∈ Function.update s.composed i (some (cmd.compose s.transactionId)) j at hmsg
      by_cases hj : j = i
      · subst hj
        rw [Function.update_self, Option.mem_some_iff] at hmsg
        rw [← hmsg, Command.compose_transactionId]
        exact ⟨h.counter.1, hsettled⟩
      · rw [Function.update_of_ne hj] at hmsg
        exact h.composed j msg hmsg

theorem SendInv.send (h : SendInv order s) (i : τ) (ok : Bool) :
    SendInv order (s.mbimSendCommand order i ok) := by
  have hcomposed : ∀ j, ∀ msg ∈ Function.update s.composed i none j,
      1 ≤ msg.transactionId.toNat ∧ msg.transactionId.toNat ≤ order.last := by
    intro j msg hmsg
    by_cases hj : j = i
    · subst hj
      rw [Function.update_self] at hmsg
      cases hmsg
    · rw [Function.update_of_ne hj] at hmsg
      exact h.composed j msg hmsg
  unfold MbimSender.mbimSendCommand
  dsimp only
  split
  · exact ⟨h.counter, hcomposed, h.written⟩
  · split
    · exact ⟨h.counter, hcomposed, h.written⟩
    · rename_i msg hmsg
      obtain ⟨hpos, hlast⟩ := h.composed i msg hmsg
      obtain ⟨hrange, hcounter⟩ := wrap_spec h hpos hlast
      refine ⟨hcounter, hcomposed, fun m hm ↦ ?_⟩
      cases ok with
      | false => exact h.written m hm
      | true =>
        rcases List.mem_append.mp hm with hm | hm
        · exact h.written m hm
        · rw [List.mem_singleton.mp hm]
          exact hrange

theorem SendInv.of_reach (hs : (senderSystem order).Reach (Settled order) s) :
    SendInv order s := by
  refine hs.invariant ⟨⟨Nat.le_refl 1, ?_⟩, fun i msg hmsg ↦ ?_, fun msg hmsg ↦ ?_⟩
    fun s e h _ hsettled ↦ ?_
  · exact Nat.le_succ_of_le order.last_lt.1.le
  · cases hmsg
  · cases hmsg
  · cases e with
    | device fd => exact ⟨h.counter, h.composed, h.written⟩
    | reader started => exact ⟨h.counter, h.composed, h.written⟩
    | compose i cmd memory => exact h.compose i cmd memory hsettled
    | send i ok => exact h.send i ok

/-- A message that was composed is written while the device is there. -/
theorem mbimSendCommand_open {i : τ} {msg : MbimMessage} (hmsg : s.composed i = some msg)
    (hfd : 0 < s.mbim_fd) (hreader : s.reader) (ok : Bool) :
    s.mbimSendCommand order i ok =
      let r := wrapTransactionId order s.transactionId msg
      { s with
        transactionId := r.2
        composed := Function.update s.composed i none
        written := if ok then s.written ++ [r.1] else s.written } := by
  have hopen : ¬(s.mbim_fd ≤ 0 ∨ ¬s.reader) := by
    rintro (hclosed | hnone)
    · exact absurd hfd (Int.not_lt.mpr hclosed)
    · exact hnone hreader
  rw [MbimSender.mbimSendCommand, if_neg hopen, hmsg]

/-- A message that is composed and sent is written. -/
theorem composeSend_eq (order : ByteOrder) (i : τ) (cmd : Command) (hfd : 0 < s.mbim_fd)
    (hreader : s.reader) :
    (senderSystem order).exec s [.compose i cmd true, .send i true] =
      let r := wrapTransactionId order (s.transactionId + 1) (cmd.compose s.transactionId)
      { s with
        transactionId := r.2
        composed := Function.update s.composed i none
        written := s.written ++ [r.1] } := by
  have hmsg : (s.compose i cmd true).composed i = some (cmd.compose s.transactionId) :=
    Function.update_self ..
  change (s.compose i cmd true).mbimSendCommand order i true = _
  rw [mbimSendCommand_open hmsg hfd hreader]
  exact congrArg (fun composed ↦ MbimSender.mk _ _ _ composed _) (Function.update_idem ..)

/-- The id of a message that is composed too late is too large. -/
theorem composeSend_of_not_settled (h : SendInv order s) {i : τ} {cmd : Command}
    (hfd : 0 < s.mbim_fd) (hreader : s.reader) (hlate : ¬Settled order s (.compose i cmd true)) :
    ∃ msg ∈ ((senderSystem order).exec s [.compose i cmd true, .send i true]).written,
      ¬InRange msg.transactionId := by
  have hcounter : s.transactionId.toNat = order.last + 1 :=
    Nat.le_antisymm h.counter.2 (Nat.lt_of_not_le hlate)
  have hkeep : ¬order.htole32 (cmd.compose s.transactionId).transactionId = 0xFFFFFF + 1 := by
    rw [Command.compose_transactionId, htole32_eq_iff, hcounter]
    cases order <;> decide
  rw [composeSend_eq order i cmd hfd hreader]
  refine ⟨_, List.mem_append_right _ (List.mem_singleton.mpr rfl), fun hrange ↦ ?_⟩
  rw [wrapTransactionId, if_neg hkeep, Command.compose_transactionId] at hrange
  have hle := hrange.2
  rw [hcounter] at hle
  revert hle
  cases order <;> decide

/-- In every run in which the counter has been set back when a message is composed, the ids that
are written can be forwarded. The next message after such a run has a wrong id otherwise. -/
theorem sent_ids (hs : (senderSystem order).Reach (Settled order) s) :
    (∀ msg ∈ s.written, InRange msg.transactionId ∧ Restored msg) ∧
      ∀ i cmd, s.composed i = none → 0 < s.mbim_fd → s.reader →
        ¬Settled order s (.compose i cmd true) →
        ∃ msg ∈ ((senderSystem order).exec s [.compose i cmd true, .send i true]).written,
          ¬InRange msg.transactionId := by
  have h := SendInv.of_reach hs
  refine ⟨fun msg hmsg ↦ ⟨h.written msg hmsg, (h.written msg hmsg).restored⟩, ?_⟩
  exact fun i cmd _ hfd hreader hlate ↦ composeSend_of_not_settled h hfd hreader hlate

end Invariant

/-! ## Runs -/

/-- The device is opened, and two threads write messages in another order than they compose them. -/
def interleaved : List (SendStep Bool) :=
  [.device 3, .reader true, .compose false (.openMsg 4096) true, .send false true,
    .compose true .closeMsg true, .compose false .closeMsg true, .send false true, .send true true]

theorem sent_interleaved :
    let s := (senderSystem .littleEndian).exec (senderSystem .littleEndian).init interleaved
    s.written.map (·.transactionId) = [1, 3, 2] ∧
      ∀ msg ∈ s.written, InRange msg.transactionId ∧ Restored msg := by
  have hsettled : (senderSystem .littleEndian).Along (Settled .littleEndian)
      (senderSystem .littleEndian).init interleaved :=
    ⟨trivial, trivial, trivial, trivial, rfl, show 1 ≤ 0x1000000 by decide, trivial, trivial, rfl,
      show 2 ≤ 0x1000000 by decide, rfl, show 3 ≤ 0x1000000 by decide, trivial, trivial, trivial,
      trivial, trivial⟩
  exact ⟨rfl, (sent_ids (System.Reach.init.exec hsettled)).1⟩

/-- A state of `quectel-cm` after some messages were composed. -/
structure AfterRounds (n : ℕ) (s : MbimSender Unit) : Prop where
  reach : (senderSystem .littleEndian).Reach (fun _ _ ↦ True) s
  counter : s.transactionId.toNat = n + 1
  idle : s.composed () = none
  fd : 0 < s.mbim_fd
  started : s.reader = true

/-- The device is opened. -/
theorem AfterRounds.start : ∃ s, AfterRounds 0 s := by
  have halong : (senderSystem .littleEndian).Along (fun _ _ ↦ True)
      (senderSystem .littleEndian : System (MbimSender Unit) _).init [.device 3, .reader true] :=
    ⟨trivial, trivial, trivial, trivial, trivial⟩
  exact ⟨_, System.Reach.init.exec halong, rfl, rfl, show (0 : ℤ) < 3 by decide, rfl⟩

/-- What is written next. -/
theorem AfterRounds.written {n : ℕ} {s : MbimSender Unit} (h : AfterRounds n s)
    (hn : n ≠ 0xFFFFFF) :
    (senderSystem .littleEndian).exec s [.compose () .closeMsg true, .send () true] =
      { s with
        transactionId := s.transactionId + 1
        composed := Function.update s.composed () none
        written := s.written ++ [Command.closeMsg.compose s.transactionId] } := by
  have hkeep : ¬ByteOrder.littleEndian.htole32
      (Command.closeMsg.compose s.transactionId).transactionId = 0xFFFFFF + 1 := by
    rw [Command.compose_transactionId, htole32_eq_iff, h.counter]
    dsimp only
    omega
  rw [composeSend_eq .littleEndian () .closeMsg h.fd h.started, wrapTransactionId, if_neg hkeep]

theorem toNat_succ {s : MbimSender Unit} {n : ℕ} (h : AfterRounds n s) (hn : n < 2 ^ 31) :
    (s.transactionId + 1).toNat = n + 1 + 1 := by
  rw [UInt32.toNat_add, h.counter, UInt32.toNat_one]
  exact Nat.mod_eq_of_lt (by omega)

theorem idle_update (composed : Unit → Option MbimMessage) :
    Function.update composed () none () = none :=
  Function.update_self ..

/-- A message is written. -/
theorem AfterRounds.round {n : ℕ} {s : MbimSender Unit} (h : AfterRounds n s) (hn : n < 0xFFFFFF) :
    ∃ t, AfterRounds (n + 1) t := by
  have halong : (senderSystem .littleEndian).Along (fun _ _ ↦ True) s
      [.compose () .closeMsg true, .send () true] := ⟨h.idle, trivial, trivial, trivial, trivial⟩
  have hreach := h.reach.exec halong
  rw [h.written (Nat.ne_of_lt hn)] at hreach
  exact ⟨_, hreach, toNat_succ h (by omega), idle_update s.composed, h.fd, h.started⟩

/-- The device is gone when `mbim_send_command` is called, and comes back. -/
theorem AfterRounds.drop {n : ℕ} {s : MbimSender Unit} (h : AfterRounds n s) (hn : n < 2 ^ 31) :
    ∃ t, AfterRounds (n + 1) t := by
  have halong : (senderSystem .littleEndian).Along (fun _ _ ↦ True) s
      [.compose () .closeMsg true, .device (-1), .send () true, .device 3] :=
    ⟨h.idle, trivial, trivial, trivial, trivial, trivial, trivial, trivial, trivial⟩
  exact ⟨_, h.reach.exec halong, toNat_succ h hn,
    idle_update (s.compose () .closeMsg true).composed, show (0 : ℤ) < 3 by decide, h.started⟩

/-- There is a run in which the message with the id `0x1000000` is dropped and the next one is
written. -/
theorem dropped_not_inRange :
    ¬∀ s : MbimSender Unit, (senderSystem .littleEndian).Reach (fun _ _ ↦ True) s →
      ∀ msg ∈ s.written, InRange msg.transactionId := by
  intro hclaim
  have hrounds : ∀ n ≤ 0xFFFFFF, ∃ s, AfterRounds n s := by
    intro n
    induction n with
    | zero => exact fun _ ↦ AfterRounds.start
    | succ n ih =>
      intro hn
      obtain ⟨s, hs⟩ := ih (Nat.le_of_succ_le hn)
      exact hs.round hn
  obtain ⟨s, hs⟩ := hrounds 0xFFFFFF (Nat.le_refl _)
  obtain ⟨t, ht⟩ := hs.drop (by decide)
  have halong : (senderSystem .littleEndian).Along (fun _ _ ↦ True) t
      [.compose () .closeMsg true, .send () true] := ⟨ht.idle, trivial, trivial, trivial, trivial⟩
  have hreach := ht.reach.exec halong
  rw [ht.written (by decide)] at hreach
  have hrange := hclaim _ hreach (Command.closeMsg.compose t.transactionId)
    (List.mem_append_right _ (List.mem_singleton.mpr rfl))
  rw [Command.compose_transactionId, InRange, ht.counter] at hrange
  exact absurd hrange.2 (by decide)

end Wwan.QuectelCm
