import Mathlib.Data.List.Nodup
import Wwan.AtcProxy.Proxy

/-!
# Who gets the lines

A line that comes while a command is pending is for the client that sent it, and any other line is
for all clients. The reader goes by `current_client_fd`, which is not the same: it may name another
client or none, it is set earlier and reset later than the command is pending, and stays when the
client is gone.
-/

namespace Wwan.AtcProxy

namespace Proxy

variable (p : Proxy)

/-- The clients that are connected. -/
def connected : List AtcProxyConnection :=
  p.atc_proxy_connection.filter fun atc_con ↦ 0 < atc_con.ClientFd

/-- The client whose command was written and has no final response yet. -/
def pendingSender : Option ℕ :=
  match p.loop with
  | .waiting sender =>
    if p.chan.sp_response.all (·.finalResponse.isNone) then some sender else none
  | _ => none

/-- Who is to get a line that comes now. -/
def recipients : List AtcProxyConnection :=
  match p.pendingSender with
  | some sender => p.connected.filter fun atc_con ↦ atc_con.qnode = sender
  | none => p.connected

/-- What is to be sent for a line of the modem, and a second one if that is announced. -/
def lineData (line line2 : Line) : Line :=
  onUnsolicitedBuf line (if isSMSUnsolicited line then some line2 else none)

/-- A line goes to its recipients, once to each of them. -/
def Delivers : AtcEvent → Prop
  | .line line line2 fails =>
    (p.connected.map (·.qnode)).Nodup ∧ ∃ p', p.readerLoop line line2 fails =
      some (p', p.recipients.map fun atc_con ↦
        ⟨atc_con.qnode, atc_con.ClientFd, lineData line line2⟩)
  | _ => True

/-- The descriptor behind the polled ones is that of the sender of a command, or that of no
connection, and then no other client is connected. -/
def LookupOk : AtcEvent → Prop
  | .command clientfd pollfdsNevents =>
    pollfdsNevents = clientfd ∨
      p.connection pollfdsNevents = none ∧ ∀ atc_con ∈ p.connected, atc_con.ClientFd = clientfd
  | _ => True

/-- A line fits into the buffer, and if `current_client_fd` is set, that client still is connected,
and is the only one unless its command is pending. -/
def Timely : AtcEvent → Prop
  | .line line line2 _ =>
    (lineData line line2).length < bufSize ∧ ∀ con, p.current_client_fd = some con →
      con ∈ p.connected.map (·.qnode) ∧
        (p.pendingSender = none → p.connected.map (·.qnode) = [con])
  | _ => True

end Proxy

/-! ## Invariant -/

/-- The connection whose command is handled. -/
def LoopState.sender : LoopState → Option ℕ
  | .poll => none
  | .calling sender | .waiting sender | .returned sender => some sender

/-- What the proxy sends are commands without intermediate responses. -/
structure AtChannel.NoResult (chan : AtChannel) : Prop where
  s_atc_proxy : chan.s_atc_proxy = true
  s_raw_data : chan.s_raw_data = none
  s_smsPDU : chan.s_smsPDU = none
  s_type : chan.sp_response.isSome → chan.s_type = .noResult

/-- Connections are told apart, and while a command is handled `current_client_fd` is its sender or,
if that is alone, NULL. -/
structure Proxy.Inv (p : Proxy) : Prop where
  nodup : (p.atc_proxy_connection.map (·.qnode)).Nodup
  fresh : ∀ atc_con ∈ p.atc_proxy_connection, atc_con.qnode < p.fresh
  fds : (p.connected.map (·.ClientFd)).Nodup
  chan : p.chan.NoResult
  idle : p.loop = .poll → p.current_client_fd = none
  current : ∀ con, p.loop.sender = some con → p.current_client_fd = some con ∨
    p.current_client_fd = none ∧ ∀ atc_con ∈ p.connected, atc_con.qnode = con

namespace AtChannel.NoResult

variable {chan : AtChannel}

variable (h : chan.NoResult)

include h

/-- Every line goes to the handler. -/
theorem processLine (line : Line) :
    (chan.processLine line).2 = .unsolicited ∧ (chan.processLine line).1.NoResult := by
  unfold AtChannel.processLine
  cases hrsp : chan.sp_response with
  | none => exact ⟨rfl, h⟩
  | some rsp =>
    have htype := h.s_type (by rw [hrsp]; rfl)
    dsimp only
    rw [if_neg (by rw [h.s_raw_data]; exact fun hraw ↦ Bool.false_ne_true hraw.1),
      h.s_atc_proxy, if_pos rfl]
    have hfinal : ∀ success, (chan.handleFinalResponse rsp success line).NoResult :=
      fun _ ↦ ⟨h.s_atc_proxy, h.s_raw_data, h.s_smsPDU, fun _ ↦ htype⟩
    split
    · exact ⟨rfl, hfinal true⟩
    · split
      · exact ⟨rfl, hfinal false⟩
      · rw [if_neg (by rw [h.s_smsPDU]; exact fun hsms ↦ Bool.false_ne_true hsms.1),
          AtChannel.intermediate, htype]
        exact ⟨rfl, h⟩

theorem clearPendingCommand : chan.clearPendingCommand.NoResult :=
  ⟨h.s_atc_proxy, h.s_raw_data, rfl, fun hrsp ↦ absurd hrsp Bool.false_ne_true⟩

theorem startCommand (written : Bool) :
    (chan.startCommand .noResult none none written).1.NoResult := by
  unfold AtChannel.startCommand
  split
  · exact h.clearPendingCommand
  · exact ⟨h.s_atc_proxy, h.s_raw_data, rfl, fun _ ↦ rfl⟩

theorem wakeCommand (timedOut readerClosed : Bool) :
    (chan.wakeCommand timedOut readerClosed).1.NoResult := by
  unfold AtChannel.wakeCommand
  split
  · exact h
  · exact h.clearPendingCommand

end AtChannel.NoResult

/-! ## Lines -/

namespace Proxy

variable {p : Proxy}

/-- All connections with a descriptor get the line. -/
theorem broadcast_sent (buf : Line) (fails : ℕ → Bool) (cons : List AtcProxyConnection) :
    (broadcast buf fails cons).2 = (cons.filter fun atc_con ↦ 0 < atc_con.ClientFd).map
      fun atc_con ↦ ⟨atc_con.qnode, atc_con.ClientFd, buf⟩ := by
  induction cons with
  | nil => rfl
  | cons atc_con cons ih =>
    rw [broadcast]
    by_cases hfd : 0 < atc_con.ClientFd
    · have hfilter := List.filter_cons_of_pos (l := cons)
        (p := fun atc_con ↦ decide (0 < atc_con.ClientFd)) (decide_eq_true hfd)
      rw [if_pos hfd, hfilter, List.map_cons, ← ih]
    · have hfilter := List.filter_cons_of_neg (l := cons)
        (p := fun atc_con ↦ decide (0 < atc_con.ClientFd)) (by simpa using hfd)
      rw [if_neg hfd, hfilter, ← ih]

theorem broadcast_sublist (buf : Line) (fails : ℕ → Bool) (cons : List AtcProxyConnection) :
    (broadcast buf fails cons).1.Sublist cons := by
  induction cons with
  | nil => exact List.Sublist.refl _
  | cons atc_con cons ih =>
    rw [broadcast]
    split
    · split
      · exact ih.cons _
      · exact ih.cons_cons _
    · exact ih.cons_cons _

theorem onUnsolicited_null {s : Line} {sms_pdu : Option Line} (fails : ℕ → Bool)
    (hfits : (onUnsolicitedBuf s sms_pdu).length < bufSize) (hnull : p.current_client_fd = none) :
    ∃ p', p.onUnsolicited s sms_pdu fails = some (p', p.connected.map fun atc_con ↦
      ⟨atc_con.qnode, atc_con.ClientFd, onUnsolicitedBuf s sms_pdu⟩) := by
  unfold onUnsolicited
  dsimp only
  rw [if_neg (Nat.not_le.mpr hfits), hnull]
  exact ⟨_, congrArg some (Prod.ext rfl (broadcast_sent ..))⟩

theorem onUnsolicited_current {s : Line} {sms_pdu : Option Line} (fails : ℕ → Bool)
    (hfits : (onUnsolicitedBuf s sms_pdu).length < bufSize) {con : ℕ}
    (hcurrent : p.current_client_fd = some con) {atc_con : AtcProxyConnection}
    (hfind : (p.atc_proxy_connection.find? fun atc_con ↦ atc_con.qnode = con) = some atc_con) :
    ∃ p', p.onUnsolicited s sms_pdu fails = some (p',
      [⟨atc_con.qnode, atc_con.ClientFd, onUnsolicitedBuf s sms_pdu⟩]) := by
  unfold onUnsolicited
  dsimp only
  rw [if_neg (Nat.not_le.mpr hfits), hcurrent]
  dsimp only
  rw [hfind]
  exact ⟨_, rfl⟩

/-- What the handler needs, and what it has done. -/
theorem onUnsolicited_some {s : Line} {sms_pdu : Option Line} {fails : ℕ → Bool} {p' : Proxy}
    {sent : List Sent} (h : p.onUnsolicited s sms_pdu fails = some (p', sent)) :
    (onUnsolicitedBuf s sms_pdu).length < bufSize ∧
      (∀ con, p.current_client_fd = some con → sent.map (·.con) = [con]) ∧
      ∃ cons, cons.Sublist p.atc_proxy_connection ∧
        p' = { p with atc_proxy_connection := cons } := by
  unfold onUnsolicited at h
  dsimp only at h
  by_cases hfits : bufSize ≤ (onUnsolicitedBuf s sms_pdu).length
  · rw [if_pos hfits] at h
    cases h
  rw [if_neg hfits] at h
  refine ⟨Nat.lt_of_not_le hfits, ?_⟩
  split at h
  · rename_i con hcurrent
    obtain ⟨atc_con, hfind, heq⟩ := Option.map_eq_some_iff.mp h
    have hqnode : atc_con.qnode = con := by simpa using List.find?_some hfind
    cases heq
    refine ⟨fun con' hcon' ↦ ?_, ?_⟩
    · obtain rfl := Option.some.inj (hcurrent.symm.trans hcon')
      exact congrArg (fun q ↦ [q]) hqnode
    · split
      · exact ⟨_, List.eraseP_sublist, rfl⟩
      · exact ⟨p.atc_proxy_connection, List.Sublist.refl _, rfl⟩
  · rename_i hcurrent
    cases h
    refine ⟨fun con hcon ↦ ?_, _, broadcast_sublist .., rfl⟩
    rw [hcurrent] at hcon
    cases hcon

/-- A round of the reader is a call of the handler. -/
theorem readerLoop_eq (h : p.chan.NoResult) (line line2 : Line) (fails : ℕ → Bool) :
    ∃ chan, chan.NoResult ∧ p.readerLoop line line2 fails = { p with chan }.onUnsolicited line
      (if isSMSUnsolicited line then some line2 else none) fails := by
  unfold readerLoop
  split
  · exact ⟨p.chan, h, rfl⟩
  · obtain ⟨haction, hchan⟩ := h.processLine line
    refine ⟨_, hchan, ?_⟩
    dsimp only
    rw [haction]

/-- Only one connection has an address. -/
theorem filter_qnode {cons : List AtcProxyConnection} (hnodup : (cons.map (·.qnode)).Nodup)
    {atc_con : AtcProxyConnection} (hmem : atc_con ∈ cons) :
    (cons.filter fun b ↦ b.qnode = atc_con.qnode) = [atc_con] := by
  induction cons with
  | nil => cases hmem
  | cons a cons ih =>
    obtain ⟨hnotMem, hnodup⟩ := List.nodup_cons.mp hnodup
    rcases List.mem_cons.mp hmem with rfl | hmem
    · have hrest : (cons.filter fun b ↦ b.qnode = atc_con.qnode) = [] := by
        refine List.filter_eq_nil_iff.mpr fun b hb hqnode ↦ hnotMem ?_
        exact List.mem_map.mpr ⟨b, hb, of_decide_eq_true hqnode⟩
      have hself : decide (atc_con.qnode = atc_con.qnode) = true := decide_eq_true rfl
      rw [List.filter_cons, if_pos hself, hrest]
    · have hne : ¬decide (a.qnode = atc_con.qnode) = true := fun hqnode ↦ hnotMem
        (List.mem_map.mpr ⟨atc_con, hmem, (of_decide_eq_true hqnode).symm⟩)
      rw [List.filter_cons, if_neg hne, ih hnodup hmem]

namespace Inv

variable (h : p.Inv)

include h

/-- Connections are their addresses. -/
theorem eq_of_qnode {a b : AtcProxyConnection} (ha : a ∈ p.atc_proxy_connection)
    (hb : b ∈ p.atc_proxy_connection) (hqnode : a.qnode = b.qnode) : a = b :=
  List.inj_on_of_nodup_map h.nodup ha hb hqnode

theorem find?_qnode {atc_con : AtcProxyConnection} (hmem : atc_con ∈ p.atc_proxy_connection) :
    (p.atc_proxy_connection.find? fun b ↦ b.qnode = atc_con.qnode) = some atc_con := by
  cases hfind : p.atc_proxy_connection.find? fun b ↦ b.qnode = atc_con.qnode with
  | none => exact absurd (decide_eq_true rfl) (List.find?_eq_none.mp hfind atc_con hmem)
  | some b =>
    have hqnode : b.qnode = atc_con.qnode := by simpa using List.find?_some hfind
    rw [h.eq_of_qnode (List.mem_of_find?_eq_some hfind) hmem hqnode]

theorem connected_nodup : (p.connected.map (·.qnode)).Nodup :=
  h.nodup.sublist (List.filter_sublist.map _)

/-- The client whose command is pending is the loop's sender. -/
theorem current_of_pendingSender {sender : ℕ} (hpending : p.pendingSender = some sender) :
    p.current_client_fd = some sender ∨
      p.current_client_fd = none ∧ ∀ atc_con ∈ p.connected, atc_con.qnode = sender := by
  refine h.current sender ?_
  unfold pendingSender at hpending
  split at hpending
  · rename_i waiting hloop
    split at hpending
    · rw [hloop, ← hpending]
      rfl
    · cases hpending
  · cases hpending

/-- If `current_client_fd` is NULL, the recipients are the connected clients. -/
theorem recipients_null (hnull : p.current_client_fd = none) : p.recipients = p.connected := by
  unfold recipients
  split
  · rename_i sender hpending
    have hcurrent := h.current_of_pendingSender hpending
    rw [hnull] at hcurrent
    obtain hsome | ⟨-, halone⟩ := hcurrent
    · cases hsome
    · exact List.filter_eq_self.mpr fun atc_con hmem ↦ decide_eq_true (halone atc_con hmem)
  · rfl

/-- The connected client that `current_client_fd` points to is the recipient if its command is
pending or it is alone. -/
theorem recipients_current {atc_con : AtcProxyConnection} (hmem : atc_con ∈ p.connected)
    (hcurrent : p.current_client_fd = some atc_con.qnode)
    (halone : p.pendingSender = none → p.connected.map (·.qnode) = [atc_con.qnode]) :
    p.recipients = [atc_con] := by
  have heq : ∀ b ∈ p.connected, b.qnode = atc_con.qnode → b = atc_con := fun b hb hqnode ↦
    h.eq_of_qnode (List.mem_of_mem_filter hb) (List.mem_of_mem_filter hmem) hqnode
  unfold recipients
  split
  · rename_i sender hpending
    obtain hsome | ⟨hnull, -⟩ := h.current_of_pendingSender hpending
    · obtain rfl := Option.some.inj (hcurrent.symm.trans hsome)
      exact filter_qnode h.connected_nodup hmem
    · rw [hcurrent] at hnull
      cases hnull
  · rename_i hpending
    have hmap := halone hpending
    obtain ⟨b, hb, hqnode⟩ := List.map_eq_singleton_iff.mp hmap
    rw [hb]
    exact congrArg (fun q ↦ [q]) (heq b (by rw [hb]; exact List.mem_cons_self) hqnode)

/-- A line is delivered exactly if it is timely. -/
theorem delivers_line_iff (line line2 : Line) (fails : ℕ → Bool) :
    p.Delivers (.line line line2 fails) ↔ p.Timely (.line line line2 fails) := by
  obtain ⟨chan, -, hreader⟩ := readerLoop_eq h.chan line line2 fails
  constructor
  · rintro ⟨-, p', hsent⟩
    rw [hreader] at hsent
    obtain ⟨hfits, hone, -⟩ := onUnsolicited_some hsent
    refine ⟨hfits, fun con hcurrent ↦ ?_⟩
    have hcons : p.recipients.map (·.qnode) = [con] := by
      rw [← hone con hcurrent, List.map_map]
      rfl
    have hmem : con ∈ p.recipients.map (·.qnode) := by
      rw [hcons]
      exact List.mem_cons_self
    unfold recipients at hcons hmem
    split at hmem
    · rename_i sender hpending
      obtain ⟨atc_con, hfilter, hqnode⟩ := List.mem_map.mp hmem
      refine ⟨List.mem_map.mpr ⟨atc_con, List.mem_of_mem_filter hfilter, hqnode⟩, fun hnone ↦ ?_⟩
      rw [hnone] at hpending
      cases hpending
    · rename_i hpending
      rw [hpending] at hcons
      exact ⟨hmem, fun _ ↦ hcons⟩
  · rintro ⟨hfits, htimely⟩
    refine ⟨h.connected_nodup, ?_⟩
    rw [hreader]
    obtain hnull | ⟨con, hcurrent⟩ := Option.eq_none_or_eq_some p.current_client_fd
    · rw [h.recipients_null hnull]
      exact onUnsolicited_null (p := { p with chan }) fails hfits hnull
    · obtain ⟨hmem, halone⟩ := htimely con hcurrent
      obtain ⟨atc_con, hconnected, rfl⟩ := List.mem_map.mp hmem
      rw [h.recipients_current hconnected hcurrent halone]
      exact onUnsolicited_current (p := { p with chan }) fails hfits hcurrent
        (h.find?_qnode (List.mem_of_mem_filter hconnected))

/-! ## Steps -/

/-- Connections may go. -/
theorem of_sublist {cons : List AtcProxyConnection} (hsub : cons.Sublist p.atc_proxy_connection)
    {chan : AtChannel} (hchan : chan.NoResult) :
    Inv { p with atc_proxy_connection := cons, chan } where
  nodup := h.nodup.sublist (hsub.map _)
  fresh atc_con hmem := h.fresh atc_con (hsub.subset hmem)
  fds := h.fds.sublist ((hsub.filter _).map _)
  chan := hchan
  idle := h.idle
  current con hcon := (h.current con hcon).imp_right fun ⟨hnull, halone⟩ ↦
    ⟨hnull, fun atc_con hmem ↦ halone atc_con ((hsub.filter _).subset hmem)⟩

/-- The loop goes on with the same command. -/
theorem of_sender {chan : AtChannel} (hchan : chan.NoResult) {loop : LoopState} {sender : ℕ}
    (hsender : p.loop.sender = some sender) (hloop : loop.sender = some sender) :
    Inv { p with chan, loop } where
  nodup := h.nodup
  fresh := h.fresh
  fds := h.fds
  chan := hchan
  idle hpoll := by
    obtain rfl : loop = .poll := hpoll
    cases hloop
  current con hcon := h.current con (by
    rw [hsender, ← hloop]
    exact hcon)

theorem clear : Inv { p with current_client_fd := none, loop := .poll } where
  nodup := h.nodup
  fresh := h.fresh
  fds := h.fds
  chan := h.chan
  idle _ := rfl
  current con hcon := by cases hcon

theorem readerLoop {line line2 : Line} {fails : ℕ → Bool} {p' : Proxy} {sent : List Sent}
    (hsent : p.readerLoop line line2 fails = some (p', sent)) : p'.Inv := by
  obtain ⟨chan, hchan, hreader⟩ := readerLoop_eq h.chan line line2 fails
  rw [hreader] at hsent
  obtain ⟨-, -, cons, hsub, rfl⟩ := onUnsolicited_some hsent
  exact h.of_sublist hsub hchan

theorem acceptAtcConnection {clientfd : ℤ} (hpoll : p.loop = .poll)
    (hfd : clientfd = -1 ∨ 0 < clientfd ∧
      ∀ atc_con ∈ p.atc_proxy_connection, atc_con.ClientFd ≠ clientfd) (malloc : Bool) :
    (p.acceptAtcConnection clientfd malloc).Inv := by
  unfold Proxy.acceptAtcConnection
  split
  · refine ⟨?_, ?_, ?_, h.chan, h.idle, fun con hcon ↦ ?_⟩
    · rw [List.map_append]
      refine List.nodup_append.mpr ⟨h.nodup, List.nodup_singleton _, ?_⟩
      intro a ha b hb
      obtain ⟨atc_con, hmem, rfl⟩ := List.mem_map.mp ha
      obtain rfl := List.mem_singleton.mp hb
      exact Nat.ne_of_lt (h.fresh atc_con hmem)
    · intro atc_con hmem
      rcases List.mem_append.mp hmem with hmem | hmem
      · exact Nat.lt_succ_of_lt (h.fresh atc_con hmem)
      · obtain rfl := List.mem_singleton.mp hmem
        exact Nat.lt_succ_self _
    · unfold connected
      rw [List.filter_append, List.map_append]
      refine List.nodup_append.mpr ⟨h.fds, ?_, ?_⟩
      · exact (List.nodup_singleton _).sublist (List.filter_sublist.map _)
      · intro a ha b hb
        obtain ⟨atc_con, hmem, rfl⟩ := List.mem_map.mp ha
        obtain ⟨new, hnew, rfl⟩ := List.mem_map.mp hb
        obtain ⟨hnew, hpos⟩ := List.mem_filter.mp hnew
        obtain rfl := List.mem_singleton.mp hnew
        obtain rfl | ⟨-, hfresh⟩ := hfd
        · exact absurd hpos (show ¬decide ((0 : ℤ) < -1) = true by decide)
        · exact hfresh atc_con (List.mem_of_mem_filter hmem)
    · change p.loop.sender = some con at hcon
      rw [hpoll] at hcon
      cases hcon
  · exact h

theorem cleanupAtcConnection (hpoll : p.loop = .poll) (clientfd : ℤ) :
    (p.cleanupAtcConnection clientfd).Inv := by
  unfold Proxy.cleanupAtcConnection
  split
  · exact h
  · rename_i atc_con hfind
    have hcurrent : (if p.current_client_fd = some atc_con.qnode then none
        else p.current_client_fd) = p.current_client_fd := by
      rw [h.idle hpoll]
      exact if_neg fun hnone ↦ by cases hnone
    rw [hcurrent]
    exact h.of_sublist List.eraseP_sublist h.chan

/-- The lookup finds the sender, or nobody. -/
theorem readCommand {clientfd pollfdsNevents : ℤ} {sender : AtcProxyConnection}
    (hpoll : p.loop = .poll) (hpos : 0 < clientfd) (hsender : p.connection clientfd = some sender)
    (hlookup : p.LookupOk (.command clientfd pollfdsNevents)) :
    (p.readCommand sender pollfdsNevents).Inv where
  nodup := h.nodup
  fresh := h.fresh
  fds := h.fds
  chan := h.chan
  idle hcalling := by cases hcalling
  current con hcon := by
    obtain rfl : sender.qnode = con := Option.some.inj hcon
    have hfd : sender.ClientFd = clientfd := by simpa using List.find?_some hsender
    change ((p.connection pollfdsNevents).map (·.qnode)).or p.current_client_fd = some sender.qnode ∨
      ((p.connection pollfdsNevents).map (·.qnode)).or p.current_client_fd = none ∧
        ∀ atc_con ∈ p.connected, atc_con.qnode = sender.qnode
    rw [h.idle hpoll]
    obtain rfl | ⟨hnone, halone⟩ := hlookup
    · rw [hsender]
      exact .inl rfl
    · rw [hnone]
      refine .inr ⟨rfl, fun atc_con hmem ↦ ?_⟩
      have hmem' : sender ∈ p.connected := List.mem_filter.mpr
        ⟨List.mem_of_find?_eq_some hsender, decide_eq_true (by rw [hfd]; exact hpos)⟩
      have heq := List.inj_on_of_nodup_map h.fds hmem hmem' ((halone atc_con hmem).trans hfd.symm)
      rw [heq]

/-- Each step keeps the invariant if the lookup is right. -/
theorem step {e : AtcEvent} (henabled : p.Enabled e) (hlookup : p.LookupOk e) {p' : Proxy}
    {sent : List Sent} (hstep : p.step e = some (p', sent)) : p'.Inv := by
  cases e with
  | accept clientfd malloc =>
    cases hstep
    exact h.acceptAtcConnection henabled.1 henabled.2 malloc
  | cleanup clientfd =>
    cases hstep
    exact h.cleanupAtcConnection henabled.1 clientfd
  | command clientfd pollfdsNevents =>
    obtain ⟨sender, hsender, heq⟩ := Option.map_eq_some_iff.mp hstep
    cases heq
    exact h.readCommand henabled.1 henabled.2.1 hsender hlookup
  | write written =>
    obtain ⟨sender, hcalling⟩ := henabled
    rw [Proxy.step, hcalling] at hstep
    cases hstep
    have hsender : p.loop.sender = some sender := by
      rw [hcalling]
      rfl
    refine h.of_sender (h.chan.startCommand written) hsender ?_
    split <;> rfl
  | wake timedOut readerClosed =>
    obtain ⟨sender, hwaiting⟩ := henabled
    rw [Proxy.step, hwaiting] at hstep
    cases hstep
    have hsender : p.loop.sender = some sender := by
      rw [hwaiting]
      rfl
    refine h.of_sender (h.chan.wakeCommand timedOut readerClosed) hsender ?_
    split <;> rfl
  | clear =>
    cases hstep
    exact h.clear
  | line line line2 fails => exact h.readerLoop hstep

theorem next {e : AtcEvent} (henabled : p.Enabled e) (hlookup : p.LookupOk e) :
    (atcSystem.next p e).Inv := by
  change (((p.step e).map Prod.fst).getD p).Inv
  cases hstep : p.step e with
  | none => exact h
  | some r => exact h.step henabled hlookup hstep

theorem delivers_iff (e : AtcEvent) : p.Delivers e ↔ p.Timely e := by
  cases e with
  | line line line2 fails => exact h.delivers_line_iff line line2 fails
  | accept _ _ | cleanup _ | command _ _ | write _ | wake _ _ | clear => exact Iff.rfl

end Inv

theorem init_inv : atcSystem.init.Inv where
  nodup := List.nodup_nil
  fresh _ hmem := by cases hmem
  fds := List.nodup_nil
  chan := ⟨rfl, rfl, rfl, fun hrsp ↦ absurd hrsp Bool.false_ne_true⟩
  idle _ := rfl
  current _ hcon := by cases hcon

end Proxy

/-- In the runs in which the lookups are right, the lines go where they are to go exactly if they
come in time. -/
theorem delivers_iff_timely {es : List AtcEvent}
    (hlookup : atcSystem.Along Proxy.LookupOk atcSystem.init es) :
    atcSystem.Along Proxy.Delivers atcSystem.init es ↔
      atcSystem.Along Proxy.Timely atcSystem.init es := by
  have hand : atcSystem.Along (fun p e ↦ p.LookupOk e ∧ p.Delivers e) atcSystem.init es ↔
      atcSystem.Along (fun p e ↦ p.LookupOk e ∧ p.Timely e) atcSystem.init es :=
    System.along_iff_of_invariant (I := Proxy.Inv)
      (fun p e h _ ↦ and_congr_right fun _ ↦ h.delivers_iff e)
      (fun p e h henabled hguard ↦ h.next henabled hguard.1) Proxy.init_inv es
  rw [System.along_and, System.along_and] at hand
  exact and_congr_right_iff.mp hand hlookup

/-- One of two clients sends a command, and it is answered. -/
def answered (pollfdsNevents : ℤ) : List AtcEvent :=
  [.accept 5 true, .accept 6 true, .command 5 pollfdsNevents, .write true,
    .line "OK".toList [] fun _ ↦ false]

theorem answered_along (pollfdsNevents : ℤ) {guard : Proxy → AtcEvent → Prop}
    (hother : ∀ p e, (∀ clientfd nevents, e ≠ .command clientfd nevents) →
      (∀ line line2 fails, e ≠ .line line line2 fails) → guard p e)
    (hcommand : guard (atcSystem.exec atcSystem.init [.accept 5 true, .accept 6 true])
      (.command 5 pollfdsNevents))
    (hline : guard (atcSystem.exec atcSystem.init ((answered pollfdsNevents).take 4))
      (.line "OK".toList [] fun _ ↦ false)) :
    atcSystem.Along guard atcSystem.init (answered pollfdsNevents) := by
  refine ⟨⟨rfl, .inr ⟨by decide, fun _ hmem ↦ by cases hmem⟩⟩, ?_, ⟨rfl, .inr ⟨by decide, ?_⟩⟩, ?_,
    ⟨rfl, by decide, rfl⟩, hcommand, ⟨0, rfl⟩, ?_, trivial, hline, trivial⟩
  case refine_2 =>
    intro atc_con hmem
    cases List.mem_singleton.mp hmem
    decide
  all_goals exact hother _ _ (fun _ _ ↦ AtcEvent.noConfusion) fun _ _ _ ↦ AtcEvent.noConfusion

theorem answered_lookupOk : atcSystem.Along Proxy.LookupOk atcSystem.init (answered 5) := by
  refine answered_along 5 (fun p e hcommand _ ↦ ?_) (.inl rfl) trivial
  cases e with
  | command clientfd nevents => exact absurd rfl (hcommand clientfd nevents)
  | accept _ _ | cleanup _ | write _ | wake _ _ | clear | line _ _ _ => trivial

/-- The answer goes to the sender if the descriptor behind the others happens to be its own. -/
theorem answered_delivers : atcSystem.Along Proxy.Delivers atcSystem.init (answered 5) := by
  refine (delivers_iff_timely answered_lookupOk).mpr ?_
  refine answered_along 5 (fun p e _ hline ↦ ?_) trivial ⟨by decide, ?_⟩
  · cases e with
    | line line line2 fails => exact absurd rfl (hline line line2 fails)
    | accept _ _ | cleanup _ | command _ _ | write _ | wake _ _ | clear => trivial
  · rintro con ⟨⟩
    exact ⟨by decide, fun hnone ↦ by cases hnone⟩

/-- If it is zero, both clients get the answer. -/
theorem answered_not_delivers :
    ¬∀ es, atcSystem.Along (fun _ _ ↦ True) atcSystem.init es →
      atcSystem.Along Proxy.Delivers atcSystem.init es := by
  intro h
  have halong := h (answered 0) (answered_along 0 (fun _ _ _ _ ↦ trivial) trivial trivial)
  obtain ⟨-, -, -, -, -, -, -, -, -, ⟨-, p', hsent⟩, -⟩ := halong
  have hlength := congrArg (Option.map fun r ↦ r.2.length) hsent
  exact absurd hlength (show ¬some 2 = some 1 by decide)

end Wwan.AtcProxy
