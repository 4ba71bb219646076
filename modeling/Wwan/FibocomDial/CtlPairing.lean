import Wwan.FibocomDial.QmimsgServer
import Wwan.Lib.StopAndWait

/-!
# CTL requests and their answers

A CTL response goes to the client of the request at the head of the queue, which is the one it
answers only if nothing but the head is with the device. A disconnect that withdraws a request in
flight, a request that is issued before an answer to a withdrawn one, and an indication that has the
head written again break this for good: every answer after it is taken for that to a later request.
A client that the loop does not poll, or for whose connection there was no memory, is never read.

In the runs without such a step the queue is that of stop and wait: `Serial`, and `Sole` while
something waits. Then a request of a client that stays connected is written once, at the latest
after as many answers as there were requests when it came, and its answer goes to that client
(`ctl_served`).
-/

namespace Wwan.FibocomDial.QmimsgServer

open QmiProxy StopAndWait

/-! ## What is to hold -/

/-- The client that issued the request is connected. -/
def Connected (s : ServerSys) (msg : QmiProxyMsg) : Prop :=
  ∃ con ∈ s.server.connections, msg.issuer = some con.qnode

/-- From `s` to `s'`, messages are sent and client ids are changed only on the connection that
issued the request. -/
structure Routed (s s' : ServerSys) (msg : QmiProxyMsg) : Prop where
  sent : ∃ new, s'.server.sent = s.server.sent ++ new ∧ ∀ x ∈ new, msg.issuer = some x.1
  clients : ∀ con ∈ s'.server.connections,
    con ∈ s.server.connections ∨ msg.issuer = some con.qnode

/-- Every connected client can be read; no request is written twice, those of connected clients have
been written or wait for an answer, and answers go to the client that asked. -/
structure Served (s : ServerSys) : Prop where
  heard : ∀ con ∈ s.server.connections, ∀ qmi writable,
    ServerStep.Enabled s ⟨.client con.fd qmi, writable⟩
  once : s.server.wdmCtl.Nodup
  waits : ∀ msg ∈ s.issued, Connected s msg →
    msg ∈ s.server.wdmCtl ∨ msg ∈ s.server.ctlMsg ∧ s.unanswered ≠ []
  routed : ∀ qmi writable msg, msg ∈ s.unanswered.head? → Answers qmi msg →
    Routed s (ServerStep.next s ⟨.response qmi, writable⟩) msg

def ServerStep.isResponse (step : ServerStep) : Bool :=
  match step.event with
  | .response _ => true
  | _ => false

/-- The number of answers among the events. -/
def responses (steps : List ServerStep) : ℕ := steps.countP ServerStep.isResponse

/-- The steps that keep the order. The device takes what is written to it, a client that connects is
recorded and polled, descriptors fit in a byte, and a read returns one request. A request does not
come while only a withdrawn one is with the device; a client that disconnects has one request in the
queue at most, and if it is the head it is the only one; and there is no indication while a request
waits. -/
def Orderly (s : ServerSys) (step : ServerStep) : Prop :=
  step.writable = true ∧
    match step.event with
    | .accept fd malloc =>
      fd < 256 ∧ malloc = true ∧ s.server.connections.length < Server.maxPolled
    | .client _ qmi => hdrQmiType qmi = qmuxTypeCtl →
      qmi.length = hdrLength qmi + 1 ∧ (s.server.ctlMsg = [] → s.unanswered = [])
    | .disconnect fd =>
      (s.server.ctlMsg.filter fun msg ↦ msg.clientFd = fd).length ≤ 1 ∧
        ∀ head ∈ s.server.ctlMsg.head?, head.clientFd = fd → s.server.ctlMsg.tail = []
    | .response _ => True
    | .unsolicited qmi => hdrQmiType qmi = qmuxTypeCtl → s.server.ctlMsg = []

instance (s : ServerSys) (msg : QmiProxyMsg) : Decidable (Connected s msg) :=
  inferInstanceAs (Decidable (∃ con ∈ s.server.connections, _))

instance (s : ServerSys) : (step : ServerStep) → Decidable (Orderly s step)
  | ⟨.accept _ _, _⟩ => inferInstanceAs (Decidable (_ ∧ _ ∧ _ ∧ _))
  | ⟨.client _ _, _⟩ => inferInstanceAs (Decidable (_ ∧ (_ → _ ∧ (_ → _))))
  | ⟨.disconnect _, _⟩ => inferInstanceAs (Decidable (_ ∧ _ ∧ ∀ head ∈ s.server.ctlMsg.head?, _))
  | ⟨.response _, _⟩ => inferInstanceAs (Decidable (_ ∧ True))
  | ⟨.unsolicited _, _⟩ => inferInstanceAs (Decidable (_ ∧ (_ → _)))

/-! ## Lists with one element of a kind -/

section List

variable {α : Type*} {p : α → Bool} {l : List α}

theorem eraseP_eq_filter (h : (l.filter p).length ≤ 1) : l.eraseP p = l.filter fun x ↦ !p x := by
  induction l with
  | nil => rfl
  | cons x l ih =>
    cases hx : p x with
    | false =>
      rw [List.filter_cons_of_neg (by simp [hx])] at h
      rw [List.eraseP_cons_of_neg (by simp [hx]), List.filter_cons_of_pos (by simp [hx]), ih h]
    | true =>
      rw [List.filter_cons_of_pos hx, List.length_cons] at h
      have hnone : l.filter p = [] := List.length_eq_zero_iff.mp (by omega)
      rw [List.eraseP_cons_of_pos hx, List.filter_cons_of_neg (by simp [hx])]
      refine (List.filter_eq_self.mpr fun y hy ↦ ?_).symm
      simpa using List.filter_eq_nil_iff.mp hnone y hy

/-- Elements are known by a key. -/
theorem filter_key {κ : Type*} [DecidableEq κ] {f : α → κ} (h : (l.map f).Nodup) {x : α}
    (hx : x ∈ l) : (l.filter fun y ↦ f y = f x) = [x] := by
  have hnodup : (l.filter fun y ↦ f y = f x).Nodup := h.of_map.filter _
  have hsingle := List.nodup_singleton x
  refine List.perm_singleton.mp ((List.perm_ext_iff_of_nodup hnodup hsingle).mpr fun y ↦ ?_)
  rw [List.mem_filter, List.mem_singleton, decide_eq_true_iff]
  constructor
  · rintro ⟨hy, heq⟩
    exact List.inj_on_of_nodup_map h hy hx heq
  · rintro rfl
    exact ⟨hx, rfl⟩

theorem head_or_tail {x : α} (hx : x ∈ l) : l.head? = some x ∨ x ∈ l.tail := by
  cases l with
  | nil => cases hx
  | cons y l =>
    rcases List.mem_cons.mp hx with rfl | hx
    · exact .inl rfl
    · exact .inr hx

end List

/-! ## The invariant -/

/-- The CTL queue with what the device has seen of it. -/
def ServerSys.window (s : ServerSys) : StopAndWait QmiProxyMsg :=
  ⟨s.server.ctlMsg, s.server.wdmCtl, (s.server.wdmCtl.take s.answers).reverse⟩

/-- All connections are polled, and a queued request carries the descriptor of the one that issued
it. -/
structure Wf (p : Server) : Prop where
  few : p.connections.length ≤ Server.maxPolled
  small : ∀ con ∈ p.connections, con.fd < 256
  fds : (p.connections.map QmiProxyConnection.clientFd).Nodup
  qnodes : (p.connections.map QmiProxyConnection.qnode).Nodup
  lt : ∀ con ∈ p.connections, con.qnode < p.fresh
  msgs : ∀ msg ∈ p.ctlMsg, ∃ con ∈ p.connections,
    msg.issuer = some con.qnode ∧ msg.clientFd = con.clientFd
  queued_lt : ∀ msg ∈ p.ctlMsg, msg.qnode < p.fresh
  written_lt : ∀ msg ∈ p.wdmCtl, msg.qnode < p.fresh

structure Inv (s : ServerSys) : Prop where
  wf : Wf s.server
  serial : s.window.Serial
  sole : s.window.Sole
  answers : s.answers ≤ s.server.wdmCtl.length
  issued_lt : ∀ msg ∈ s.issued, ∀ n ∈ msg.issuer, n < s.server.fresh
  issued : ∀ msg ∈ s.issued, Connected s msg → msg ∈ s.server.ctlMsg ∨ msg ∈ s.server.wdmCtl

namespace Wf

variable {p : Server} {con con' : QmiProxyConnection}

section Server

variable (h : Wf p)

include h

theorem clientFd_eq (hcon : con ∈ p.connections) : con.clientFd = con.fd :=
  Nat.mod_eq_of_lt (h.small con hcon)

theorem filter_clientFd (hcon : con ∈ p.connections) :
    (p.connections.filter fun c ↦ c.clientFd = con.clientFd) = [con] := filter_key h.fds hcon

theorem eq_of_clientFd (hcon : con ∈ p.connections) (hcon' : con' ∈ p.connections)
    (heq : con.clientFd = con'.clientFd) : con = con' :=
  List.inj_on_of_nodup_map h.fds hcon hcon' heq

theorem eq_of_qnode (hcon : con ∈ p.connections) (hcon' : con' ∈ p.connections)
    (heq : con.qnode = con'.qnode) : con = con' :=
  List.inj_on_of_nodup_map h.qnodes hcon hcon' heq

/-- The connections that get the answer to a queued request are the one that issued it. -/
theorem issuer_of_clientFd {msg : QmiProxyMsg} (hmsg : msg ∈ p.ctlMsg)
    (hcon : con ∈ p.connections) (hfd : con.clientFd = msg.clientFd) :
    msg.issuer = some con.qnode := by
  obtain ⟨c, hc, hissuer, hcfd⟩ := h.msgs msg hmsg
  rw [h.eq_of_clientFd hcon hc (hfd.trans hcfd)]
  exact hissuer

/-- A request of a connected client carries the client's descriptor. -/
theorem clientFd_of_issuer {msg : QmiProxyMsg} (hmsg : msg ∈ p.ctlMsg)
    (hcon : con ∈ p.connections) (hissuer : msg.issuer = some con.qnode) :
    msg.clientFd = con.clientFd := by
  obtain ⟨c, hc, hissuer', hcfd⟩ := h.msgs msg hmsg
  have heq : c.qnode = con.qnode := Option.some.inj (hissuer'.symm.trans hissuer)
  rw [hcfd, h.eq_of_qnode hc hcon heq]

/-- The head of the queue is written once. -/
theorem sendHead_eq {queue : List QmiProxyMsg} (hq : p.ctlMsg = queue) :
    p.sendHead true = { p with wdmCtl := p.wdmCtl ++ firstWrite true [] queue } := by
  unfold Server.sendHead
  split
  · rename_i hnil
    obtain rfl : queue = [] := hq.symm.trans hnil
    simp
  · rename_i msg rest hcons
    obtain rfl : queue = msg :: rest := hq.symm.trans hcons
    obtain ⟨con, hcon, -, hfd⟩ := h.msgs msg (by simp [hcons])
    simp [hfd, h.filter_clientFd hcon]

theorem accept {fd : ℕ} (hsmall : fd < 256)
    (hroom : p.connections.length < Server.maxPolled) (hnew : ∀ con ∈ p.connections, con.fd ≠ fd) :
    Wf (p.acceptQmiConnection fd true) where
  few := by
    show (p.connections ++ [_]).length ≤ Server.maxPolled
    rw [List.length_append]
    exact hroom
  small con hcon := by
    rcases List.mem_append.mp hcon with hold | hcon
    · exact h.small con hold
    · rw [List.mem_singleton.mp hcon]
      exact hsmall
  fds := by
    show ((p.connections ++ [_]).map QmiProxyConnection.clientFd).Nodup
    rw [List.map_append]
    refine h.fds.append (List.nodup_singleton _) fun x hx hx' ↦ ?_
    obtain ⟨con, hcon, rfl⟩ := List.mem_map.mp hx
    have heq : con.clientFd = fd % 256 := List.mem_singleton.mp hx'
    rw [h.clientFd_eq hcon, Nat.mod_eq_of_lt hsmall] at heq
    exact hnew con hcon heq
  qnodes := by
    show ((p.connections ++ [_]).map QmiProxyConnection.qnode).Nodup
    rw [List.map_append]
    refine h.qnodes.append (List.nodup_singleton _) fun x hx hx' ↦ ?_
    obtain ⟨con, hcon, rfl⟩ := List.mem_map.mp hx
    exact Nat.ne_of_lt (h.lt con hcon) (List.mem_singleton.mp hx')
  lt con hcon := by
    rcases List.mem_append.mp hcon with hold | hcon
    · exact Nat.lt_succ_of_lt (h.lt con hold)
    · rw [List.mem_singleton.mp hcon]
      exact Nat.lt_succ_self _
  msgs msg hmsg := by
    obtain ⟨con, hcon, hmsg⟩ := h.msgs msg hmsg
    exact ⟨con, List.mem_append_left _ hcon, hmsg⟩
  queued_lt msg hmsg := Nat.lt_succ_of_lt (h.queued_lt msg hmsg)
  written_lt msg hmsg := Nat.lt_succ_of_lt (h.written_lt msg hmsg)

/-- A disconnect removes the connection and the requests that it has. -/
theorem cleanup_eq (hcon : con ∈ p.connections)
    (hone : (p.ctlMsg.filter fun msg ↦ msg.clientFd = con.clientFd).length ≤ 1) :
    p.cleanupQmiConnection con.clientFd =
      { p with
        ctlMsg := p.ctlMsg.filter fun msg ↦ !decide (msg.clientFd = con.clientFd)
        connections := p.connections.filter fun c ↦ !decide (c.clientFd = con.clientFd) } := by
  have hfind : (p.connections.find? fun c ↦ c.clientFd = con.clientFd).isSome :=
    List.find?_isSome.mpr ⟨con, hcon, by simp⟩
  obtain ⟨c, hc⟩ := Option.isSome_iff_exists.mp hfind
  have hcons : (p.connections.filter fun c ↦ c.clientFd = con.clientFd).length ≤ 1 := by
    rw [h.filter_clientFd hcon]
    exact Nat.le_refl 1
  rw [Server.cleanupQmiConnection, hc]
  simp only [eraseP_eq_filter hone, eraseP_eq_filter hcons]

theorem cleanup (hcon : con ∈ p.connections)
    (hone : (p.ctlMsg.filter fun msg ↦ msg.clientFd = con.clientFd).length ≤ 1) :
    Wf (p.cleanupQmiConnection con.clientFd) := by
  rw [h.cleanup_eq hcon hone]
  have hsub : (p.connections.filter fun c ↦ !decide (c.clientFd = con.clientFd)).Sublist
      p.connections := List.filter_sublist
  refine {
    few := Nat.le_trans hsub.length_le h.few
    small := fun c hc ↦ h.small c (hsub.subset hc)
    fds := h.fds.sublist (hsub.map _)
    qnodes := h.qnodes.sublist (hsub.map _)
    lt := fun c hc ↦ h.lt c (hsub.subset hc)
    msgs := fun msg hmsg ↦ ?_
    queued_lt := fun msg hmsg ↦ h.queued_lt msg (List.mem_of_mem_filter hmsg)
    written_lt := h.written_lt }
  obtain ⟨hmem, hfd⟩ := List.mem_filter.mp hmsg
  obtain ⟨c, hc, hissuer, hcfd⟩ := h.msgs msg hmem
  rw [hcfd] at hfd
  exact ⟨c, List.mem_filter.mpr ⟨hc, hfd⟩, hissuer, hcfd⟩

end Server

/-- What is read from a connection comes from it. -/
theorem issuer_eq (hcon : con ∈ p.connections) :
    ∃ c ∈ p.connections, p.issuer con.fd = some c.qnode ∧ con.fd % 256 = c.clientFd := by
  have hfind : (p.connections.find? fun c ↦ c.fd = con.fd).isSome :=
    List.find?_isSome.mpr ⟨con, hcon, by simp⟩
  obtain ⟨c, hc⟩ := Option.isSome_iff_exists.mp hfind
  have hfd : c.fd = con.fd := by simpa using List.find?_some hc
  refine ⟨c, List.mem_of_find?_eq_some hc, ?_, ?_⟩
  · rw [Server.issuer, hc]
    rfl
  · rw [← hfd]
    rfl

/-- Connections may change apart from their identity and descriptor. -/
theorem map_connections (h : Wf p) {f : QmiProxyConnection → QmiProxyConnection}
    (hqnode : ∀ c, (f c).qnode = c.qnode) (hfd : ∀ c, (f c).fd = c.fd) :
    Wf { p with connections := p.connections.map f } := by
  have hclientFd : ∀ c, (f c).clientFd = c.clientFd := fun c ↦ by
    rw [QmiProxyConnection.clientFd, hfd, QmiProxyConnection.clientFd]
  refine {
    few := Nat.le_trans (Nat.le_of_eq (List.length_map f)) h.few
    small := List.forall_mem_map.mpr fun c hc ↦ (hfd c).symm ▸ h.small c hc
    fds := ?_
    qnodes := ?_
    lt := List.forall_mem_map.mpr fun c hc ↦ (hqnode c).symm ▸ h.lt c hc
    msgs := fun msg hmsg ↦ ?_
    queued_lt := h.queued_lt
    written_lt := h.written_lt }
  · have hcomp : QmiProxyConnection.clientFd ∘ f = QmiProxyConnection.clientFd := funext hclientFd
    rw [List.map_map, hcomp]
    exact h.fds
  · have hcomp : QmiProxyConnection.qnode ∘ f = QmiProxyConnection.qnode := funext hqnode
    rw [List.map_map, hcomp]
    exact h.qnodes
  · obtain ⟨c, hc, hissuer, hcfd⟩ := h.msgs msg hmsg
    exact ⟨f c, List.mem_map_of_mem hc, by rw [hqnode, hissuer], by rw [hclientFd, hcfd]⟩

end Wf

/-! ## One event -/

/-- What a step does to the queue, and the number of answers in it. -/
inductive WindowStep (s t : ServerSys) : ℕ → Prop
  | keep (h : t.window = s.window) : WindowStep s t 0
  | push (msgs : List QmiProxyMsg) (h : t.window = s.window.push true msgs) : WindowStep s t 0
  | withdraw (fd : ℕ) (h : t.window = s.window.withdraw fun msg ↦ msg.clientFd = fd)
    (hgone : ∀ con ∈ t.server.connections, con ∈ s.server.connections ∧ con.clientFd ≠ fd) :
    WindowStep s t 0
  | answer (msg : QmiProxyMsg) (h : t.window = s.window.answer true msg) : WindowStep s t 1

section Step

variable {s : ServerSys}

theorem Inv.accept (h : Inv s) {fd : ℕ} (hsmall : fd < 256)
    (hroom : s.server.connections.length < Server.maxPolled)
    (hnew : ∀ con ∈ s.server.connections, con.fd ≠ fd) :
    Inv { s with server := s.server.acceptQmiConnection fd true } ∧
      WindowStep s { s with server := s.server.acceptQmiConnection fd true } 0 := by
  refine ⟨⟨h.wf.accept hsmall hroom hnew, h.serial, h.sole, h.answers, fun msg hmsg n hn ↦
    Nat.lt_succ_of_lt (h.issued_lt msg hmsg n hn), fun msg hmsg hissuer ↦ ?_⟩, .keep rfl⟩
  obtain ⟨con, hcon, hissuer⟩ := hissuer
  rcases List.mem_append.mp hcon with hold | hcon
  · exact h.issued msg hmsg ⟨con, hold, hissuer⟩
  · rw [List.mem_singleton.mp hcon] at hissuer
    exact absurd (h.issued_lt msg hmsg _ hissuer) (Nat.lt_irrefl _)

theorem Inv.disconnect (h : Inv s) {fd : ℕ} {writable : Bool}
    (henabled : ServerStep.Enabled s ⟨.disconnect fd, writable⟩)
    (hguard : Orderly s ⟨.disconnect fd, writable⟩) :
    Inv { s with server := s.server.cleanupQmiConnection fd } ∧
      WindowStep s { s with server := s.server.cleanupQmiConnection fd } 0 := by
  obtain ⟨con, hpolled, rfl⟩ := henabled
  have hcon := List.mem_of_mem_take hpolled
  obtain ⟨-, hone, hhead⟩ := hguard
  have heq := h.wf.cleanup_eq hcon hone
  have hwindow : ServerSys.window { s with server := s.server.cleanupQmiConnection con.clientFd } =
      s.window.withdraw fun msg ↦ msg.clientFd = con.clientFd := by
    rw [heq]
    simp only [ServerSys.window, withdraw, eraseP_eq_filter hone]
  have hp : ∀ y, s.window.queue.head? = some y →
      decide (y.clientFd = con.clientFd) = false ∨ s.window.queue.tail = [] := by
    intro y hy
    by_cases hfd : y.clientFd = con.clientFd
    · exact .inr (hhead y hy hfd)
    · exact .inl (decide_eq_false hfd)
  refine ⟨⟨h.wf.cleanup hcon hone, ?_, ?_, ?_, ?_, ?_⟩, .withdraw con.clientFd hwindow ?_⟩
  · rw [hwindow]
    exact h.serial.withdraw hp
  · rw [hwindow]
    exact h.sole.withdraw hp
  · rw [heq]
    exact h.answers
  · rw [heq]
    exact h.issued_lt
  · intro msg hmsg hissuer
    rw [heq] at hissuer ⊢
    obtain ⟨c, hc, hissuer⟩ := hissuer
    obtain ⟨hc, hcfd⟩ := List.mem_filter.mp hc
    rcases h.issued msg hmsg ⟨c, hc, hissuer⟩ with hqueued | hwritten
    · refine .inl (List.mem_filter.mpr ⟨hqueued, ?_⟩)
      rw [h.wf.clientFd_of_issuer hqueued hc hissuer]
      exact hcfd
    · exact .inr hwritten
  · rw [heq]
    intro c hc
    obtain ⟨hc, hcfd⟩ := List.mem_filter.mp hc
    exact ⟨hc, by simpa using hcfd⟩

/-- What is written later is not among the first. -/
theorem window_append (hs : s.answers ≤ s.server.wdmCtl.length) (xs : List QmiProxyMsg) :
    (s.server.wdmCtl ++ xs).take s.answers = s.server.wdmCtl.take s.answers :=
  List.take_append_of_le_length hs

theorem onClient_ctl (p : Server) (fd : ℕ) {qmi : List UInt8}
    (hlength : qmi.length = hdrLength qmi + 1) (hctl : hdrQmiType qmi = qmuxTypeCtl) :
    p.onClient true fd qmi =
      { p with
        ctlMsg := p.ctlMsg ++ [p.clientMsg fd qmi]
        wdmCtl := p.wdmCtl ++ firstWrite true p.ctlMsg [p.clientMsg fd qmi]
        fresh := p.fresh + 1 } := by
  rw [Server.onClient, if_neg (not_not.mpr hlength), Server.sendQmi, if_pos hctl]
  cases hq : p.ctlMsg <;> simp [firstWrite]

/-- A request of a connection joins the queue. -/
theorem Wf.push (h : Wf s.server) {m : QmiProxyMsg} {c : QmiProxyConnection}
    (hc : c ∈ s.server.connections) (hissuer : m.issuer = some c.qnode)
    (hcfd : m.clientFd = c.clientFd) (hqnode : m.qnode = s.server.fresh) :
    Wf { s.server with
      ctlMsg := s.server.ctlMsg ++ [m]
      wdmCtl := s.server.wdmCtl ++ firstWrite true s.server.ctlMsg [m]
      fresh := s.server.fresh + 1 } where
  few := h.few
  small := h.small
  fds := h.fds
  qnodes := h.qnodes
  lt c hc := Nat.lt_succ_of_lt (h.lt c hc)
  msgs msg hmsg := by
    rcases List.mem_append.mp hmsg with hold | hnew
    · exact h.msgs msg hold
    · rw [List.mem_singleton.mp hnew]
      exact ⟨c, hc, hissuer, hcfd⟩
  queued_lt msg hmsg := by
    rcases List.mem_append.mp hmsg with hold | hnew
    · exact Nat.lt_succ_of_lt (h.queued_lt msg hold)
    · rw [List.mem_singleton.mp hnew, hqnode]
      exact Nat.lt_succ_self _
  written_lt msg hmsg := by
    rcases List.mem_append.mp hmsg with hold | hnew
    · exact Nat.lt_succ_of_lt (h.written_lt msg hold)
    · have heq : m = msg := Option.some.inj (mem_of_mem_firstWrite hnew).2
      rw [← heq, hqnode]
      exact Nat.lt_succ_self _

theorem Inv.request (h : Inv s) {fd : ℕ} {qmi : List UInt8}
    (henabled : ServerStep.Enabled s ⟨.client fd qmi, true⟩)
    (hguard : Orderly s ⟨.client fd qmi, true⟩) (hctl : hdrQmiType qmi = qmuxTypeCtl) :
    Inv (ServerStep.next s ⟨.client fd qmi, true⟩) ∧
      WindowStep s (ServerStep.next s ⟨.client fd qmi, true⟩) 0 := by
  obtain ⟨-, con, hcon, rfl⟩ := henabled
  obtain ⟨hlength, hidle⟩ := hguard.2 hctl
  obtain ⟨c, hc, hissuer, hcfd⟩ := Wf.issuer_eq hcon
  have hqnode : (s.server.clientMsg con.fd qmi).qnode = s.server.fresh := rfl
  change (s.server.clientMsg con.fd qmi).issuer = _ at hissuer
  change (s.server.clientMsg con.fd qmi).clientFd = _ at hcfd
  have hnext : ServerStep.next s ⟨.client con.fd qmi, true⟩ =
      { s with
        server := s.server.onClient true con.fd qmi
        issued := s.issued ++ [s.server.clientMsg con.fd qmi] } := by
    rw [ServerStep.next]
    simp only [if_pos hctl]
  rw [hnext, onClient_ctl _ _ hlength hctl]
  generalize s.server.clientMsg con.fd qmi = m at hqnode hissuer hcfd
  have hwindow : ServerSys.window { s with
      server :=
        { s.server with
          ctlMsg := s.server.ctlMsg ++ [m]
          wdmCtl := s.server.wdmCtl ++ firstWrite true s.server.ctlMsg [m]
          fresh := s.server.fresh + 1 }
      issued := s.issued ++ [m] } = s.window.push true [m] := by
    simp only [ServerSys.window, push, window_append h.answers]
  have hold : m ∉ s.server.ctlMsg ∧ m ∉ s.server.wdmCtl :=
    ⟨fun hm ↦ Nat.ne_of_lt (h.wf.queued_lt m hm) hqnode,
      fun hm ↦ Nat.ne_of_lt (h.wf.written_lt m hm) hqnode⟩
  refine ⟨⟨h.wf.push hc hissuer hcfd hqnode, ?_, ?_, ?_, ?_, ?_⟩, .push [m] hwindow⟩
  · rw [hwindow]
    refine h.serial.push (List.nodup_singleton m) ?_ ?_
    · exact List.forall_mem_singleton.mpr hold.1
    · exact List.forall_mem_singleton.mpr hold.2
  · rw [hwindow]
    refine h.sole.push fun hq x hx ↦ hx.2 ?_
    have hall : s.server.wdmCtl.length ≤ s.answers := List.drop_eq_nil_iff.mp (hidle hq)
    show x ∈ (s.server.wdmCtl.take s.answers).reverse
    rw [List.take_of_length_le hall, List.mem_reverse]
    exact hx.1
  · exact Nat.le_trans h.answers (by simp)
  · intro msg hmsg n hn
    rcases List.mem_append.mp hmsg with hmsg | hmsg
    · exact Nat.lt_succ_of_lt (h.issued_lt msg hmsg n hn)
    · rw [List.mem_singleton.mp hmsg, hissuer] at hn
      cases hn
      exact Nat.lt_succ_of_lt (h.wf.lt c hc)
  · intro msg hmsg hconnected
    rcases List.mem_append.mp hmsg with hmsg | hmsg
    · rcases h.issued msg hmsg hconnected with hq | hw
      · exact .inl (List.mem_append_left _ hq)
      · exact .inr (List.mem_append_left _ hw)
    · exact .inl (List.mem_append_right _ hmsg)

/-- A message that is not for the CTL service leaves the queue as it is. -/
theorem Inv.data (h : Inv s) {fd : ℕ} {qmi : List UInt8} (hctl : hdrQmiType qmi ≠ qmuxTypeCtl) :
    Inv (ServerStep.next s ⟨.client fd qmi, true⟩) ∧
      WindowStep s (ServerStep.next s ⟨.client fd qmi, true⟩) 0 := by
  have hnext : ∃ wdmData, ServerStep.next s ⟨.client fd qmi, true⟩ =
      { s with server := { s.server with wdmData := wdmData, fresh := s.server.fresh + 1 } } := by
    simp only [ServerStep.next, Server.onClient, Server.sendQmi, if_neg hctl, if_true]
    split
    · exact ⟨_, rfl⟩
    · exact ⟨_, rfl⟩
  obtain ⟨wdmData, hnext⟩ := hnext
  rw [hnext]
  refine ⟨⟨?_, h.serial, h.sole, h.answers, fun msg hmsg n hn ↦
    Nat.lt_succ_of_lt (h.issued_lt msg hmsg n hn), h.issued⟩, .keep rfl⟩
  exact {
    few := h.wf.few
    small := h.wf.small
    fds := h.wf.fds
    qnodes := h.wf.qnodes
    lt := fun c hc ↦ Nat.lt_succ_of_lt (h.wf.lt c hc)
    msgs := h.wf.msgs
    queued_lt := fun msg hmsg ↦ Nat.lt_succ_of_lt (h.wf.queued_lt msg hmsg)
    written_lt := fun msg hmsg ↦ Nat.lt_succ_of_lt (h.wf.written_lt msg hmsg) }

theorem Inv.unsolicited (h : Inv s) {qmi : List UInt8}
    (henabled : ServerStep.Enabled s ⟨.unsolicited qmi, true⟩)
    (hguard : Orderly s ⟨.unsolicited qmi, true⟩) :
    Inv (ServerStep.next s ⟨.unsolicited qmi, true⟩) ∧
      WindowStep s (ServerStep.next s ⟨.unsolicited qmi, true⟩) 0 := by
  have hnext : ∃ sent, ServerStep.next s ⟨.unsolicited qmi, true⟩ =
      { s with server := { s.server with sent := sent } } := by
    simp only [ServerStep.next, Server.onDev]
    split
    · exact ⟨_, rfl⟩
    by_cases hctl : hdrQmiType qmi = qmuxTypeCtl
    · have hrsp : ctlFlags qmi ≠ qmiCtlFlagRsp := fun hrsp ↦ henabled ⟨hctl, hrsp⟩
      refine ⟨s.server.sent, ?_⟩
      rw [Server.recvQmi, if_pos hctl, if_neg hrsp, h.wf.sendHead_eq (hguard.2 hctl)]
      simp
    · rw [Server.recvQmi, if_neg hctl]
      exact ⟨_, rfl⟩
  obtain ⟨sent, hnext⟩ := hnext
  rw [hnext]
  exact ⟨⟨⟨h.wf.few, h.wf.small, h.wf.fds, h.wf.qnodes, h.wf.lt, h.wf.msgs, h.wf.queued_lt,
    h.wf.written_lt⟩, h.serial, h.sole, h.answers, h.issued_lt, h.issued⟩, .keep rfl⟩

theorem registerResp_id (resp : List UInt8) (con : QmiProxyConnection) :
    (Server.registerResp resp con).qnode = con.qnode ∧
      (Server.registerResp resp con).fd = con.fd := by
  unfold Server.registerResp Server.getClientId Server.releaseClientId
  split
  · split <;> exact ⟨rfl, rfl⟩
  · split
    · split <;> exact ⟨rfl, rfl⟩
    · exact ⟨rfl, rfl⟩

/-- A response is taken for the answer to the head, which leaves the queue. -/
theorem Wf.takeResp {p : Server} (h : Wf p) (resp : List UInt8) :
    Wf (p.takeResp resp) ∧ (p.takeResp resp).ctlMsg = p.ctlMsg.tail ∧
      (p.takeResp resp).wdmCtl = p.wdmCtl ∧ (p.takeResp resp).fresh = p.fresh ∧
      (p.takeResp resp).connections.map QmiProxyConnection.qnode =
        p.connections.map QmiProxyConnection.qnode := by
  unfold Server.takeResp
  split
  · rename_i hq
    exact ⟨h, by rw [hq]; rfl, rfl, rfl, rfl⟩
  · rename_i msg rest hq
    have hid : ∀ c,
        (if c.clientFd = msg.clientFd then Server.registerResp resp c else c).qnode = c.qnode ∧
          (if c.clientFd = msg.clientFd then Server.registerResp resp c else c).fd = c.fd := by
      intro c
      split
      · exact registerResp_id resp c
      · exact ⟨rfl, rfl⟩
    have hmap := h.map_connections (fun c ↦ (hid c).1) fun c ↦ (hid c).2
    refine ⟨?_, by rw [hq]; rfl, rfl, rfl, ?_⟩
    · exact {
        few := hmap.few
        small := hmap.small
        fds := hmap.fds
        qnodes := hmap.qnodes
        lt := hmap.lt
        msgs := fun m hm ↦ hmap.msgs m (hq ▸ List.mem_cons_of_mem _ hm)
        queued_lt := fun m hm ↦ hmap.queued_lt m (hq ▸ List.mem_cons_of_mem _ hm)
        written_lt := hmap.written_lt }
    · show (p.connections.map _).map _ = _
      rw [List.map_map]
      exact List.map_congr_left fun c _ ↦ (hid c).1

theorem onDev_response (p : Server) (writable : Bool) {qmi : List UInt8} {msg : QmiProxyMsg}
    (hqmi : Answers qmi msg) : p.onDev writable qmi = (p.takeResp qmi).sendHead writable := by
  rw [Server.onDev, if_neg (not_not.mpr hqmi.length), Server.recvQmi, if_pos hqmi.ctl,
    if_pos hqmi.rsp]

/-- The oldest request that has no answer. -/
theorem Inv.inFlight (h : Inv s) {msg : QmiProxyMsg} (hmsg : msg ∈ s.unanswered.head?) :
    s.window.InFlight msg ∧
      s.server.wdmCtl.take (s.answers + 1) = s.server.wdmCtl.take s.answers ++ [msg] := by
  have hget : s.server.wdmCtl[s.answers]? = some msg := by
    rw [← List.head?_drop]
    exact hmsg
  refine ⟨⟨List.mem_of_getElem? hget, fun hmem ↦ ?_⟩, ?_⟩
  · exact List.disjoint_take_drop h.serial.written_nodup (Nat.le_refl _) (List.mem_reverse.mp hmem)
      (List.mem_of_mem_head? hmsg)
  · rw [List.take_add_one, hget]
    rfl

theorem Inv.response (h : Inv s) {qmi : List UInt8} {msg : QmiProxyMsg}
    (hmsg : msg ∈ s.unanswered.head?) (hqmi : Answers qmi msg) :
    Inv (ServerStep.next s ⟨.response qmi, true⟩) ∧
      WindowStep s (ServerStep.next s ⟨.response qmi, true⟩) 1 := by
  obtain ⟨hflight, htake⟩ := h.inFlight hmsg
  obtain ⟨hwf, hqueue, hwdmCtl, hfresh, hqnodes⟩ := h.wf.takeResp qmi
  have hlt : s.answers < s.server.wdmCtl.length := by
    have hne : s.unanswered ≠ [] := List.ne_nil_of_mem (List.mem_of_mem_head? hmsg)
    exact Nat.lt_of_not_le fun hle ↦ hne (List.drop_eq_nil_of_le hle)
  have hnext : ServerStep.next s ⟨.response qmi, true⟩ =
      { s with
        server :=
          { s.server.takeResp qmi with
            wdmCtl := s.server.wdmCtl ++ firstWrite true [] s.server.ctlMsg.tail }
        answers := s.answers + 1 } := by
    simp only [ServerStep.next, onDev_response _ _ hqmi, hwf.sendHead_eq hqueue, hwdmCtl]
  generalize ht : ServerStep.next s ⟨.response qmi, true⟩ = t at hnext
  have hwindow : t.window = s.window.answer true msg := by
    rw [hnext]
    simp only [ServerSys.window, StopAndWait.answer, hqueue]
    rw [List.take_append_of_le_length hlt, htake, List.reverse_append]
    rfl
  have hserial : t.window.Serial := by
    rw [hwindow]
    exact h.serial.answer hflight.1
  have hsole : t.window.Sole := by
    rw [hwindow]
    exact h.sole.answer hflight
  refine ⟨⟨?_, hserial, hsole, ?_, ?_, ?_⟩, .answer msg hwindow⟩
  · rw [hnext]
    refine { hwf with written_lt := fun m hm ↦ ?_ }
    show m.qnode < (s.server.takeResp qmi).fresh
    rw [hfresh]
    rcases List.mem_append.mp hm with hold | hnew
    · exact h.wf.written_lt m hold
    · have htail : m ∈ s.server.ctlMsg.tail := List.mem_of_mem_head? (mem_of_mem_firstWrite hnew).2
      exact h.wf.queued_lt m (List.mem_of_mem_tail htail)
  · rw [hnext]
    show s.answers + 1 ≤ (s.server.wdmCtl ++ _).length
    rw [List.length_append]
    exact Nat.le_add_right_of_le hlt
  · rw [hnext]
    show ∀ m ∈ s.issued, ∀ n ∈ m.issuer, n < (s.server.takeResp qmi).fresh
    rw [hfresh]
    exact h.issued_lt
  · rw [hnext]
    rintro m hm ⟨con, hcon, hissuer⟩
    have hqnode : con.qnode ∈ s.server.connections.map QmiProxyConnection.qnode :=
      hqnodes ▸ List.mem_map_of_mem hcon
    obtain ⟨c, hc, hcq⟩ := List.mem_map.mp hqnode
    have hwritten : m ∈ s.server.wdmCtl →
        m ∈ s.server.wdmCtl ++ firstWrite true [] s.server.ctlMsg.tail := List.mem_append_left _
    rcases h.issued m hm ⟨c, hc, hcq ▸ hissuer⟩ with hq | hw
    · -- The head has been written, and the others remain.
      rcases head_or_tail hq with hhead | htail
      · exact .inr (hwritten (h.serial.head m hhead).1)
      · refine .inl ?_
        show m ∈ (s.server.takeResp qmi).ctlMsg
        rw [hqueue]
        exact htail
    · exact .inr (hwritten hw)

/-- An orderly step keeps the invariant. -/
theorem Inv.next (h : Inv s) {step : ServerStep} (henabled : step.Enabled s)
    (hguard : Orderly s step) :
    Inv (step.next s) ∧ WindowStep s (step.next s) (responses [step]) := by
  obtain ⟨e, writable⟩ := step
  obtain rfl : writable = true := hguard.1
  cases e with
  | accept fd malloc =>
    obtain ⟨-, hsmall, rfl, hroom⟩ := hguard
    exact h.accept hsmall hroom henabled
  | client fd qmi =>
    by_cases hctl : hdrQmiType qmi = qmuxTypeCtl
    · exact h.request henabled hguard hctl
    · exact h.data hctl
  | disconnect fd => exact h.disconnect henabled hguard
  | response qmi =>
    obtain ⟨msg, hmsg, hqmi⟩ := henabled
    exact h.response hmsg hqmi
  | unsolicited qmi => exact h.unsolicited henabled hguard

/-! ## Requests are written -/

/-- While its client is connected a request waits, for one answer less after each, until it is
written. -/
theorem Inv.ahead (h : Inv s) {t : ServerSys} {k : ℕ} (hstep : WindowStep s t k) {msg : QmiProxyMsg}
    {n : ℕ} (hmsg : msg ∈ s.server.wdmCtl ∨ s.window.Ahead msg n) (hconnected : Connected t msg) :
    msg ∈ t.server.wdmCtl ∨ t.window.Ahead msg (n - k) := by
  have hwritten : msg ∈ s.window.written → msg ∈ t.window.written := by
    intro hmsg
    cases hstep with
    | keep h => rwa [h]
    | push msgs h =>
      rw [h]
      exact List.mem_append_left _ hmsg
    | withdraw fd h hgone => rwa [h]
    | answer msg h =>
      rw [h]
      exact List.mem_append_left _ hmsg
  rcases hmsg with hmsg | hmsg
  · exact .inl (hwritten hmsg)
  cases hstep with
  | keep hw => exact .inr (hw ▸ hmsg)
  | push msgs hw => exact .inr (hw ▸ hmsg.push)
  | withdraw fd hw hgone =>
    obtain ⟨con, hcon, hissuer⟩ := hconnected
    obtain ⟨hcon, hcfd⟩ := hgone con hcon
    have hfd : msg.clientFd = con.clientFd := h.wf.clientFd_of_issuer hmsg.mem hcon hissuer
    refine .inr (hw ▸ hmsg.withdraw ?_)
    rw [hfd]
    exact decide_eq_false hcfd
  | answer x hw =>
    rcases hmsg.answer with hhead | ⟨-, hahead⟩
    · exact .inl (hwritten (h.serial.head msg hhead).1)
    · exact .inr (hw ▸ hahead)

end Step

/-- The steps of a run during which the client of a request stays connected. -/
def Staying (msg : QmiProxyMsg) (s : ServerSys) (step : ServerStep) : Prop :=
  Orderly s step ∧ Connected (step.next s) msg

instance (msg : QmiProxyMsg) (s : ServerSys) (step : ServerStep) : Decidable (Staying msg s step) :=
  inferInstanceAs (Decidable (_ ∧ _))

/-- A request has been written after as many answers as there are requests ahead of it. -/
theorem Inv.written {s : ServerSys} (h : Inv s) {msg : QmiProxyMsg} {n : ℕ}
    (hmsg : msg ∈ s.server.wdmCtl ∨ s.window.Ahead msg n) {steps : List ServerStep}
    (hsteps : serverSystem.Along (Staying msg) s steps) (hn : n ≤ responses steps) :
    msg ∈ (serverSystem.exec s steps).server.wdmCtl := by
  induction steps generalizing s n with
  | nil =>
    rcases hmsg with hmsg | ⟨l₁, l₂, hqueue, hl₁⟩
    · exact hmsg
    · obtain rfl : l₁ = [] := List.length_eq_zero_iff.mp (Nat.le_zero.mp (Nat.le_trans hl₁ hn))
      exact (h.serial.head msg (by rw [hqueue]; rfl)).1
  | cons step steps ih =>
    obtain ⟨henabled, ⟨hguard, hconnected⟩, hrest⟩ := hsteps
    obtain ⟨hnext, hstep⟩ := h.next henabled hguard
    refine ih hnext (h.ahead hstep hmsg hconnected) hrest ?_
    have hsum : responses ([step] ++ steps) = responses [step] + responses steps :=
      List.countP_append
    rw [List.singleton_append] at hsum
    omega

/-! ## Every run -/

theorem inv_init : Inv serverSystem.init where
  wf := {
    few := Nat.zero_le _
    small := List.forall_mem_nil _
    fds := List.nodup_nil
    qnodes := List.nodup_nil
    lt := List.forall_mem_nil _
    msgs := List.forall_mem_nil _
    queued_lt := List.forall_mem_nil _
    written_lt := List.forall_mem_nil _ }
  serial := {
    head := by rintro x ⟨⟩
    tail := List.forall_mem_nil _
    queue_nodup := List.nodup_nil
    written_nodup := List.nodup_nil
    answered_subset := List.nil_subset _ }
  sole := by rintro x y ⟨⟩
  answers := Nat.le_refl 0
  issued_lt := List.forall_mem_nil _
  issued := List.forall_mem_nil _

theorem inv_of_reach {s : ServerSys} (hs : serverSystem.Reach Orderly s) : Inv s :=
  hs.invariant inv_init fun _ _ h henabled hguard ↦ (h.next henabled hguard).1

section Served

variable {s : ServerSys}

/-- Every connection is polled by its own descriptor. -/
theorem Inv.heard (h : Inv s) {con : QmiProxyConnection} (hcon : con ∈ s.server.connections)
    (qmi : List UInt8) (writable : Bool) :
    ServerStep.Enabled s ⟨.client con.fd qmi, writable⟩ := by
  have hall : s.server.polled = s.server.connections := List.take_of_length_le h.wf.few
  exact ⟨⟨con, hall ▸ hcon, h.wf.clientFd_eq hcon⟩, con, hcon, rfl⟩

/-- A request waits only while another is with the device. -/
theorem Inv.unanswered_ne_nil (h : Inv s) {msg : QmiProxyMsg} (hmsg : msg ∈ s.server.ctlMsg) :
    s.unanswered ≠ [] := by
  obtain ⟨head, hhead⟩ := Option.isSome_iff_exists.mp
    (List.isSome_head?.mpr (List.ne_nil_of_mem hmsg))
  obtain ⟨hwritten, hanswered⟩ := h.serial.head head hhead
  have hmem : head ∈ s.server.wdmCtl.take s.answers ++ s.server.wdmCtl.drop s.answers := by
    rw [List.take_append_drop]
    exact hwritten
  rcases List.mem_append.mp hmem with htake | hdrop
  · exact absurd (List.mem_reverse.mpr htake) hanswered
  · exact List.ne_nil_of_mem hdrop

/-- The answer to the oldest request goes to the client that asked. -/
theorem Inv.routed (h : Inv s) {qmi : List UInt8} {msg : QmiProxyMsg} (writable : Bool)
    (hmsg : msg ∈ s.unanswered.head?) (hqmi : Answers qmi msg) :
    Routed s (ServerStep.next s ⟨.response qmi, writable⟩) msg := by
  have hnext : ∃ wdmCtl, ServerStep.next s ⟨.response qmi, writable⟩ =
      { s with
        server := { s.server.takeResp qmi with wdmCtl := wdmCtl }
        answers := s.answers + 1 } := by
    simp only [ServerStep.next, onDev_response _ _ hqmi, Server.sendHead]
    split
    · exact ⟨_, rfl⟩
    · split
      · exact ⟨_, rfl⟩
      · exact ⟨_, rfl⟩
  obtain ⟨wdmCtl, hnext⟩ := hnext
  rw [hnext]
  cases hq : s.server.ctlMsg with
  | nil =>
    have htake : s.server.takeResp qmi = s.server := by rw [Server.takeResp, hq]
    rw [htake]
    exact ⟨⟨[], (List.append_nil _).symm, by simp⟩, fun con hcon ↦ .inl hcon⟩
  | cons head rest =>
    -- The request that is answered is in flight, so it is the head.
    have hhead : s.window.queue.head? = some head := by
      rw [ServerSys.window, hq]
      rfl
    obtain rfl : msg = head := h.sole msg head hhead (h.inFlight hmsg).1
    have hissuer : ∀ con ∈ s.server.connections, con.clientFd = msg.clientFd →
        msg.issuer = some con.qnode := fun con hcon hfd ↦
      h.wf.issuer_of_clientFd (hq ▸ List.mem_cons_self) hcon hfd
    have htake : s.server.takeResp qmi =
        { s.server.forwardResp msg.clientFd qmi with ctlMsg := rest } := by
      rw [Server.takeResp, hq]
    rw [htake]
    refine ⟨⟨_, rfl, ?_⟩, ?_⟩
    · intro x hx
      obtain ⟨con, hcon, rfl⟩ := List.mem_map.mp hx
      obtain ⟨hcon, hfd⟩ := List.mem_filter.mp hcon
      exact hissuer con hcon (of_decide_eq_true hfd)
    · intro con hcon
      obtain ⟨c, hc, rfl⟩ := List.mem_map.mp hcon
      split
      · rename_i hfd
        right
        rw [(registerResp_id qmi c).1]
        exact hissuer c hc hfd
      · exact .inl hc

end Served

/-- Two clients connect, and each asks for a client id. -/
def twoRequests : List ServerStep :=
  [⟨.accept 5 true, true⟩, ⟨.accept 6 true, true⟩, ⟨.client 5 (getReq 1 1), true⟩,
    ⟨.client 6 (getReq 1 1), true⟩]

/-- The second of the requests. -/
def secondRequest : QmiProxyMsg :=
  { qnode := 3, issuer := some 1, clientFd := 6, qmi := getReq 1 1 }

/-- The state after both requests. -/
def waitingSys : ServerSys := serverSystem.exec serverSystem.init twoRequests

-- An indication while a request waits has the head written again.
example : (serverSystem.exec waitingSys
    [⟨.unsolicited [0x01, 11, 0, 0x80, 0, 0, 0x02, 0, 0x27, 0x00, 0, 0], true⟩]).server.wdmCtl.map
      QmiProxyMsg.qnode = [2, 2] := by decide

end Wwan.FibocomDial.QmimsgServer
