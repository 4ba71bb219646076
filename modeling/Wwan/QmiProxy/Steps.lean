import Wwan.Lib.StopAndWait
import Wwan.QmiProxy.Proxy

/-!
# The steps of the proxy

What each event does to the queue and to the connections, said once. On the queue
the proxy is an instance of stop and wait (`ProxySys.window`): a client's request
is a push, a response an answer, and a disconnect a push of releases followed by the
withdrawal of one request of the client.

`Wf` collects what holds in every run whatsoever: identities are not given twice,
open descriptors are different, and a queued request carries the descriptor of the
connection that issued it for as long as that is open.
-/

namespace Wwan.QmiProxy

open StopAndWait

/-- The CTL queue with what the device has seen of it. -/
def ProxySys.window (s : ProxySys) : StopAndWait QmiProxyMsg :=
  ⟨s.proxy.ctlMsg, s.proxy.wdmCtl, s.answered⟩

/-! ## Connections and descriptors -/

/-- Identity and descriptor of a connection. -/
def QmiProxyConnection.id (con : QmiProxyConnection) : ℕ × ℤ := (con.qnode, con.clientFd)

/-- The connections have different descriptors, unless `accept` failed. -/
def Distinct (ids : List (ℕ × ℤ)) : Prop := ids.Pairwise fun a b ↦ 0 ≤ a.2 → a.2 ≠ b.2

/-- An open descriptor leads to one connection. -/
theorem Distinct.split {cons : List QmiProxyConnection} {con : QmiProxyConnection}
    (h : Distinct (cons.map QmiProxyConnection.id)) (hcon : con ∈ cons) (hfd : 0 ≤ con.clientFd) :
    ∃ l₁ l₂, cons = l₁ ++ con :: l₂ ∧ ∀ c ∈ l₁ ++ l₂, c.clientFd ≠ con.clientFd := by
  obtain ⟨l₁, l₂, rfl⟩ := List.append_of_mem hcon
  refine ⟨l₁, l₂, rfl, ?_⟩
  simp only [Distinct, List.pairwise_map, List.pairwise_append, List.pairwise_cons] at h
  obtain ⟨-, ⟨hafter, -⟩, hbefore⟩ := h
  intro c hc
  rcases List.mem_append.mp hc with hc | hc
  · intro heq
    have h0 : 0 ≤ c.clientFd := heq ▸ hfd
    exact hbefore c hc con List.mem_cons_self h0 heq
  · exact (hafter c hc hfd).symm

section Split

variable {l₁ l₂ : List QmiProxyConnection} {con : QmiProxyConnection}
  (h : ∀ c ∈ l₁ ++ l₂, c.clientFd ≠ con.clientFd)

include h

theorem find?_split :
    ((l₁ ++ con :: l₂).find? fun c ↦ c.clientFd = con.clientFd) = some con := by
  rw [List.find?_append, List.find?_eq_none.mpr]
  · simp
  · intro c hc
    simpa using h c (List.mem_append_left _ hc)

theorem eraseP_split :
    ((l₁ ++ con :: l₂).eraseP fun c ↦ c.clientFd = con.clientFd) = l₁ ++ l₂ := by
  rw [List.eraseP_append_right]
  · simp
  · intro c hc
    simpa using h c (List.mem_append_left _ hc)

theorem map_split (f : QmiProxyConnection → QmiProxyConnection) :
    ((l₁ ++ con :: l₂).map fun c ↦ if c.clientFd = con.clientFd then f c else c) =
      l₁ ++ f con :: l₂ := by
  have hsame : ∀ l : List QmiProxyConnection, (∀ c ∈ l, c.clientFd ≠ con.clientFd) →
      (l.map fun c ↦ if c.clientFd = con.clientFd then f c else c) = l := by
    intro l hl
    conv_rhs => rw [← List.map_id l]
    exact List.map_congr_left fun c hc ↦ if_neg (hl c hc)
  rw [List.map_append, List.map_cons, if_pos rfl,
    hsame l₁ fun c hc ↦ h c (List.mem_append_left _ hc),
    hsame l₂ fun c hc ↦ h c (List.mem_append_right _ hc)]

end Split

/-! ## The functions, in one piece -/

namespace Proxy

variable {p : Proxy} {writable : Bool}

/-- The requests that release the ids of a closed connection. -/
def releaseMsgs (serverFd : ℤ) : ℕ → List QmiProxyClient → List QmiProxyMsg
  | _, [] => []
  | n, client :: clients =>
    { qnode := n, issuer := none, clientFd := serverFd, qmi := releaseReq client } ::
      releaseMsgs serverFd (n + 1) clients

theorem addCtlMsg_eq (p : Proxy) (writable : Bool) (msg : QmiProxyMsg) :
    p.addCtlMsg writable msg =
      { p with
        ctlMsg := p.ctlMsg ++ [msg]
        fresh := p.fresh + 1
        wdmCtl := p.wdmCtl ++ firstWrite writable p.ctlMsg [msg] } := by
  unfold addCtlMsg sendCtlToCdcWdm
  cases hq : p.ctlMsg with
  | nil => cases writable <;> simp [firstWrite]
  | cons m ms => simp [firstWrite]

/-- The releases of a closed connection join the queue. -/
theorem foldl_releaseOnDisconnect (p : Proxy) (writable : Bool) (clients : List QmiProxyClient) :
    clients.foldl (releaseOnDisconnect writable) p =
      { p with
        ctlMsg := p.ctlMsg ++ releaseMsgs p.serverFd p.fresh clients
        fresh := p.fresh + clients.length
        wdmCtl := p.wdmCtl ++
          firstWrite writable p.ctlMsg (releaseMsgs p.serverFd p.fresh clients) } := by
  induction clients generalizing p with
  | nil => simp [releaseMsgs]
  | cons client clients ih =>
    rw [List.foldl_cons, ih, releaseOnDisconnect, addCtlMsg_eq]
    simp only [releaseMsgs, List.length_cons, List.append_assoc, List.singleton_append,
      Proxy.mk.injEq, true_and, and_true]
    refine ⟨by omega, ?_⟩
    simp [firstWrite]

/-- A disconnect: the releases join the queue and one request of the client leaves it,
together with the connection. -/
theorem cleanupQmiConnection_eq {p : Proxy} {l₁ l₂ : List QmiProxyConnection}
    {con : QmiProxyConnection} (hcons : p.connections = l₁ ++ con :: l₂)
    (h : ∀ c ∈ l₁ ++ l₂, c.clientFd ≠ con.clientFd) (writable : Bool) :
    p.cleanupQmiConnection writable con.clientFd true =
      { p with
        connections := l₁ ++ l₂
        ctlMsg := (p.ctlMsg ++ releaseMsgs p.serverFd p.fresh con.clients).eraseP
          fun msg ↦ msg.clientFd = con.clientFd
        fresh := p.fresh + con.clients.length
        wdmCtl := p.wdmCtl ++
          firstWrite writable p.ctlMsg (releaseMsgs p.serverFd p.fresh con.clients) } := by
  rw [cleanupQmiConnection, hcons, find?_split h]
  simp only [if_true, foldl_releaseOnDisconnect, hcons, eraseP_split h]

/-- A message from a client is passed through or dropped, or it is a request that
joins the queue. -/
theorem onClient_cases {p : Proxy} {l₁ l₂ : List QmiProxyConnection} {con : QmiProxyConnection}
    (hcons : p.connections = l₁ ++ con :: l₂) (h : ∀ c ∈ l₁ ++ l₂, c.clientFd ≠ con.clientFd)
    (writable : Bool) (qmi : List UInt8) :
    (∃ data, p.onClient writable con.clientFd qmi = { p with wdmData := data }) ∨
      (hdrQmiType qmi = qmuxTypeCtl ∧
        p.onClient writable con.clientFd qmi = p.addCtlMsg writable (p.clientMsg con qmi)) := by
  have hfind : (p.connections.find? fun c ↦ c.clientFd = con.clientFd) = some con := by
    rw [hcons, find?_split h]
  unfold onClient
  split
  · exact .inl ⟨p.wdmData, rfl⟩
  rw [hfind]
  dsimp only [recvQmiFromClient]
  split
  · exact .inl ⟨p.wdmData, rfl⟩
  split
  · rename_i hctl
    split
    · exact .inl ⟨p.wdmData, rfl⟩
    · exact .inr ⟨hctl, rfl⟩
  · cases writable with
    | true => exact .inl ⟨_, rfl⟩
    | false => exact .inl ⟨p.wdmData, rfl⟩

/-- What the device sends on its own only leads to messages to clients. -/
theorem onDev_unsolicited {p : Proxy} (hreset : p.modemResetFlag = false)
    (hserver : p.serverFd ≠ -1) (writable : Bool) {qmi : List UInt8}
    (hqmi : ¬ (hdrQmiType qmi = qmuxTypeCtl ∧ ctlFlags qmi = qmiCtlFlagRsp)) :
    ∃ sent, p.onDev writable qmi = { p with sent := sent } := by
  unfold onDev
  split
  · exact ⟨p.sent, rfl⟩
  by_cases hctl : hdrQmiType qmi = qmuxTypeCtl
  · have hrsp : ctlFlags qmi ≠ qmiCtlFlagRsp := fun hrsp ↦ hqmi ⟨hctl, hrsp⟩
    -- A CTL message has type 0, so it is never taken for an indication.
    have hind : hdrQmiType qmi ≠ qmiCtlFlagInd := by
      rw [hctl]
      decide
    have heq : p.recvQmiFromDev writable qmi = p := by
      simp [recvQmiFromDev, hserver, hctl, hrsp, hctl ▸ hind]
    exact ⟨p.sent, (if_neg (by simp [heq, hreset])).trans heq⟩
  · refine ⟨(p.forwardData qmi).sent, ?_⟩
    simp [recvQmiFromDev, hserver, hctl, forwardData, hreset]

/-- A response for an empty queue is ignored. -/
theorem onDev_response_nil {p : Proxy} (hreset : p.modemResetFlag = false)
    (hserver : p.serverFd ≠ -1) (writable : Bool) {qmi : List UInt8} {msg : QmiProxyMsg}
    (hqmi : Answers qmi msg) (hqueue : p.ctlMsg = []) : p.onDev writable qmi = p := by
  have heq : p.recvQmiFromDev writable qmi = p := by
    simp [recvQmiFromDev, hserver, hqmi.ctl, hqmi.rsp, hqueue]
  simp [onDev, ← hqmi.length, heq, hreset]

/-- A response to another request than the head's may be forwarded as well. -/
theorem matchResp_cases (p : Proxy) (msg : QmiProxyMsg) (qmi : List UInt8) :
    p.matchResp msg qmi = p ∨
      (msg.clientFd ≠ p.serverFd ∧ p.matchResp msg qmi = p.forwardResp msg.clientFd qmi) := by
  unfold matchResp
  split
  · exact .inl rfl
  · split
    · exact .inl rfl
    · exact .inr ⟨‹_›, rfl⟩

/-- A response to the request of a client is forwarded. -/
theorem matchResp_of_answers {p : Proxy} {msg : QmiProxyMsg} {qmi : List UInt8}
    (hqmi : Answers qmi msg) (hfd : msg.clientFd ≠ p.serverFd) :
    p.matchResp msg qmi = p.forwardResp msg.clientFd qmi := by
  simp [matchResp, hqmi.transactionId, hqmi.qmiCtlType, hfd]

/-- A response removes the head of the queue, and the next request is sent. -/
theorem onDev_response_cons {p : Proxy} (hreset : p.modemResetFlag = false)
    (hserver : p.serverFd ≠ -1) (writable : Bool) {qmi : List UInt8} {msg : QmiProxyMsg}
    (hqmi : Answers qmi msg) {head : QmiProxyMsg} {rest : List QmiProxyMsg}
    (hqueue : p.ctlMsg = head :: rest) :
    p.onDev writable qmi =
      { p.matchResp head qmi with
        ctlMsg := rest
        wdmCtl := p.wdmCtl ++ firstWrite writable [] rest } := by
  have hsame : (p.matchResp head qmi).modemResetFlag = false ∧
      (p.matchResp head qmi).wdmCtl = p.wdmCtl := by
    rcases matchResp_cases p head qmi with heq | ⟨-, heq⟩ <;> simp [heq, hreset, forwardResp]
  have heq : p.recvQmiFromDev writable qmi =
      { p.matchResp head qmi with
        ctlMsg := rest
        wdmCtl := p.wdmCtl ++ firstWrite writable [] rest } := by
    simp only [recvQmiFromDev, hserver, hqmi.ctl, hqmi.rsp, hqueue, if_true, if_false, ← hsame.2]
    cases rest with
    | nil => simp [sendHead]
    | cons next rest => cases writable <;> simp [sendHead, sendCtlToCdcWdm, firstWrite]
  rw [onDev, if_neg (not_not.mpr hqmi.length), heq]
  simp [hsame.1]

end Proxy

/-! ## What holds in every run -/

/-- The identities and descriptors of the connections. -/
def Proxy.ids (p : Proxy) : List (ℕ × ℤ) := p.connections.map QmiProxyConnection.id

/-- A queued request carries the descriptor of the proxy or of the connection that
issued it. -/
structure MsgWf (p : Proxy) (msg : QmiProxyMsg) : Prop where
  qnode_lt : msg.qnode < p.fresh
  own : msg.issuer = none → msg.clientFd = p.serverFd
  issued : ∀ n, msg.issuer = some n → 0 ≤ msg.clientFd ∧ msg.clientFd ≠ p.serverFd ∧ n < p.fresh
  issuer_fd : ∀ n fd, msg.issuer = some n → (n, fd) ∈ p.ids → fd = msg.clientFd

/-- What holds of the proxy in every run. -/
structure Wf (p : Proxy) : Prop where
  serverFd_nonneg : 0 ≤ p.serverFd
  no_reset : p.modemResetFlag = false
  ids_lt : ∀ c ∈ p.ids, c.1 < p.fresh
  ids_nodup : (p.ids.map Prod.fst).Nodup
  ids_ne_server : ∀ c ∈ p.ids, c.2 ≠ p.serverFd
  distinct : Distinct p.ids
  msgs : ∀ msg ∈ p.ctlMsg, MsgWf p msg
  written_lt : ∀ msg ∈ p.wdmCtl, msg.qnode < p.fresh

/-- A connection is known by its identity. -/
theorem Wf.con_unique {p : Proxy} (h : Wf p) {c c' : QmiProxyConnection}
    (hc : c ∈ p.connections) (hc' : c' ∈ p.connections) (heq : c.qnode = c'.qnode) : c = c' := by
  have hnodup : (p.connections.map QmiProxyConnection.qnode).Nodup := by
    simpa [Proxy.ids, QmiProxyConnection.id, Function.comp_def] using h.ids_nodup
  exact List.inj_on_of_nodup_map hnodup hc hc' heq

/-- A connection has one descriptor. -/
theorem Wf.fd_unique {p : Proxy} (h : Wf p) {n : ℕ} {a b : ℤ} (ha : (n, a) ∈ p.ids)
    (hb : (n, b) ∈ p.ids) : a = b :=
  (Prod.mk.inj (List.inj_on_of_nodup_map h.ids_nodup ha hb rfl)).2

theorem Wf.server_ne {p : Proxy} (h : Wf p) : p.serverFd ≠ -1 := by
  have := h.serverFd_nonneg
  omega

/-- The ways a step can go, with the state it leads to. -/
inductive StepCase (s : ProxySys) (writable : Bool) : ProxyEvent → ProxySys → Prop
  | /-- A connection is accepted. -/
    accept {fd : ℤ} (hserver : fd ≠ s.proxy.serverFd)
      (hfd : 0 ≤ fd → ∀ con ∈ s.proxy.connections, con.clientFd ≠ fd) :
      StepCase s writable (.accept fd true)
        { s with
          proxy :=
            { s.proxy with
              connections := s.proxy.connections ++ [⟨s.proxy.fresh, fd, []⟩]
              fresh := s.proxy.fresh + 1 } }
  | /-- There is no memory for a connection. -/
    refuse {fd : ℤ} : StepCase s writable (.accept fd false) s
  | /-- A client's CTL request joins the queue. -/
    request {l₁ l₂ : List QmiProxyConnection} {con : QmiProxyConnection} {qmi : List UInt8}
      (hctl : hdrQmiType qmi = qmuxTypeCtl) (hcons : s.proxy.connections = l₁ ++ con :: l₂)
      (hsplit : ∀ c ∈ l₁ ++ l₂, c.clientFd ≠ con.clientFd) (hfd : 0 ≤ con.clientFd) :
      StepCase s writable (.client con.clientFd qmi)
        { s with proxy := s.proxy.addCtlMsg writable (s.proxy.clientMsg con qmi) }
  | /-- Another message from a client. -/
    data {fd : ℤ} {qmi : List UInt8} {wdmData : List (List UInt8)} :
      StepCase s writable (.client fd qmi) { s with proxy := { s.proxy with wdmData := wdmData } }
  | /-- A client disconnects. -/
    disconnect {l₁ l₂ : List QmiProxyConnection} {con : QmiProxyConnection}
      (hcons : s.proxy.connections = l₁ ++ con :: l₂)
      (hsplit : ∀ c ∈ l₁ ++ l₂, c.clientFd ≠ con.clientFd) (hfd : 0 ≤ con.clientFd) :
      StepCase s writable (.disconnect con.clientFd)
        { s with
          proxy :=
            { s.proxy with
              connections := l₁ ++ l₂
              ctlMsg := (s.proxy.ctlMsg ++
                Proxy.releaseMsgs s.proxy.serverFd s.proxy.fresh con.clients).eraseP
                  fun msg ↦ msg.clientFd = con.clientFd
              fresh := s.proxy.fresh + con.clients.length
              wdmCtl := s.proxy.wdmCtl ++ firstWrite writable s.proxy.ctlMsg
                (Proxy.releaseMsgs s.proxy.serverFd s.proxy.fresh con.clients) } }
  | /-- A response is compared with the head of the queue. -/
    response {msg head : QmiProxyMsg} {rest : List QmiProxyMsg} {qmi : List UInt8}
      (hflight : InFlight s msg) (hanswers : Answers qmi msg)
      (hget : qmiCtlType qmi = qmiCtlGetClientId → respOk qmi → respClient qmi ∉ s.allocated)
      (hqueue : s.proxy.ctlMsg = head :: rest) :
      StepCase s writable (.response msg qmi)
        { proxy :=
            { s.proxy.matchResp head qmi with
              ctlMsg := rest
              wdmCtl := s.proxy.wdmCtl ++ firstWrite writable [] rest }
          answered := msg :: s.answered
          allocated := allocate s.allocated msg qmi }
  | /-- A response comes when nothing is queued. -/
    stray {msg : QmiProxyMsg} {qmi : List UInt8} (hflight : InFlight s msg)
      (hqueue : s.proxy.ctlMsg = []) :
      StepCase s writable (.response msg qmi)
        { s with
          answered := msg :: s.answered
          allocated := allocate s.allocated msg qmi }
  | /-- Anything else from the device. -/
    unsolicited {qmi : List UInt8} {sent : List Delivery} :
      StepCase s writable (.unsolicited qmi) { s with proxy := { s.proxy with sent := sent } }
  | /-- The device takes an id back; the proxy does not notice. -/
    revoke {client : QmiProxyClient} {qmi : List UInt8} {sent : List Delivery} :
      StepCase s writable (.revoke client qmi)
        { s with
          proxy := { s.proxy with sent := sent }
          allocated := s.allocated.erase client }

/-- An enabled step goes one of the ways of `StepCase`. -/
theorem proxyNext_case {s : ProxySys} (hwf : Wf s.proxy) {e : ProxyEvent} (he : proxyEnabled s e)
    (writable : Bool) : StepCase s writable e (proxyNext s ⟨e, writable⟩) := by
  cases e with
  | accept fd malloc =>
    cases malloc with
    | false => exact .refuse
    | true =>
      have := hwf.serverFd_nonneg
      apply StepCase.accept
      · rcases he with rfl | ⟨-, hne, -⟩
        · omega
        · exact hne
      · intro h0
        rcases he with rfl | ⟨-, -, hlive⟩
        · omega
        · exact hlive
  | client fd qmi =>
    obtain ⟨h0, con, hcon, rfl⟩ := he
    obtain ⟨l₁, l₂, hcons, hsplit⟩ := hwf.distinct.split hcon h0
    rcases Proxy.onClient_cases hcons hsplit writable qmi with ⟨data, heq⟩ | ⟨hctl, heq⟩
    · simp only [proxyNext, heq]
      exact .data
    · simp only [proxyNext, heq]
      exact .request hctl hcons hsplit h0
  | disconnect fd =>
    obtain ⟨h0, con, hcon, rfl⟩ := he
    obtain ⟨l₁, l₂, hcons, hsplit⟩ := hwf.distinct.split hcon h0
    simp only [proxyNext, Proxy.cleanupQmiConnection_eq hcons hsplit]
    exact .disconnect hcons hsplit h0
  | response msg qmi =>
    obtain ⟨hflight, hanswers, hget⟩ := he
    cases hqueue : s.proxy.ctlMsg with
    | nil =>
      simp only [proxyNext,
        Proxy.onDev_response_nil hwf.no_reset hwf.server_ne writable hanswers hqueue]
      exact .stray hflight hqueue
    | cons head rest =>
      simp only [proxyNext,
        Proxy.onDev_response_cons hwf.no_reset hwf.server_ne writable hanswers hqueue]
      exact .response hflight hanswers hget hqueue
  | unsolicited qmi =>
    obtain ⟨sent, heq⟩ := Proxy.onDev_unsolicited hwf.no_reset hwf.server_ne writable he
    simp only [proxyNext, heq]
    exact .unsolicited
  | revoke client qmi =>
    have hind : ¬ (hdrQmiType qmi = qmuxTypeCtl ∧ ctlFlags qmi = qmiCtlFlagRsp) := by
      rw [he.2.1]
      exact fun h ↦ absurd h.2 (by decide)
    obtain ⟨sent, heq⟩ := Proxy.onDev_unsolicited hwf.no_reset hwf.server_ne writable hind
    simp only [proxyNext, heq]
    exact .revoke

/-- On the queue, any response is an answer. -/
theorem StepCase.window_response {s s' : ProxySys} {writable : Bool} {msg : QmiProxyMsg}
    {qmi : List UInt8} (h : StepCase s writable (.response msg qmi) s') :
    InFlight s msg ∧ s'.window = s.window.answer writable msg := by
  cases h with
  | response hflight _ _ hqueue => exact ⟨hflight, by simp [answer, ProxySys.window, hqueue]⟩
  | stray hflight hqueue => exact ⟨hflight, by simp [answer, ProxySys.window, hqueue]⟩

/-! ## Every step preserves it -/

/-- A request stays well formed as connections are closed and new ones made. -/
theorem MsgWf.mono {p p' : Proxy} {msg : QmiProxyMsg} (h : MsgWf p msg)
    (hserver : p'.serverFd = p.serverFd) (hfresh : p.fresh ≤ p'.fresh)
    (hids : ∀ c ∈ p'.ids, c ∈ p.ids ∨ p.fresh ≤ c.1) : MsgWf p' msg := by
  refine ⟨Nat.lt_of_lt_of_le h.qnode_lt hfresh, fun hn ↦ hserver ▸ h.own hn, ?_, ?_⟩
  · intro n hn
    obtain ⟨h0, hne, hlt⟩ := h.issued n hn
    exact ⟨h0, hserver ▸ hne, Nat.lt_of_lt_of_le hlt hfresh⟩
  · intro n fd hn hmem
    rcases hids _ hmem with hold | hnew
    · exact h.issuer_fd n fd hn hold
    · exact absurd (h.issued n hn).2.2 (Nat.not_lt.mpr hnew)

/-- The releases of a closed connection are new requests of the proxy. -/
theorem Proxy.mem_releaseMsgs {serverFd : ℤ} {n : ℕ} {clients : List QmiProxyClient}
    {msg : QmiProxyMsg} (h : msg ∈ releaseMsgs serverFd n clients) :
    n ≤ msg.qnode ∧ msg.qnode < n + clients.length ∧ msg.issuer = none ∧
      msg.clientFd = serverFd := by
  induction clients generalizing n with
  | nil => cases h
  | cons client clients ih =>
    rcases List.mem_cons.mp h with rfl | h
    · exact ⟨Nat.le_refl n, by simp, rfl, rfl⟩
    · obtain ⟨hle, hlt, hrest⟩ := ih h
      exact ⟨by omega, by rw [List.length_cons]; omega, hrest⟩

/-- The releases of a closed connection are different requests. -/
theorem Proxy.nodup_releaseMsgs (serverFd : ℤ) (n : ℕ) (clients : List QmiProxyClient) :
    (releaseMsgs serverFd n clients).Nodup := by
  induction clients generalizing n with
  | nil => exact List.nodup_nil
  | cons client clients ih =>
    refine List.nodup_cons.mpr ⟨fun hmem ↦ ?_, ih (n + 1)⟩
    have hle : n + 1 ≤ n := (mem_releaseMsgs hmem).1
    omega

/-- A response leaves the identity of a connection alone. -/
theorem Proxy.registerResp_id (qmi : List UInt8) (con : QmiProxyConnection) :
    (registerResp qmi con).id = con.id := by
  unfold registerResp getClientId releaseClientId
  repeat' split
  all_goals rfl

/-- A response changes client ids and nothing else that matters here. -/
theorem Proxy.matchResp_frame (p : Proxy) (msg : QmiProxyMsg) (qmi : List UInt8) :
    (p.matchResp msg qmi).serverFd = p.serverFd ∧
      (p.matchResp msg qmi).modemResetFlag = p.modemResetFlag ∧
      (p.matchResp msg qmi).fresh = p.fresh ∧ (p.matchResp msg qmi).ids = p.ids := by
  rcases matchResp_cases p msg qmi with heq | ⟨-, heq⟩
  · simp [heq]
  · refine ⟨by rw [heq]; rfl, by rw [heq]; rfl, by rw [heq]; rfl, ?_⟩
    rw [heq, ids, ids, forwardResp, List.map_map]
    refine List.map_congr_left fun con _ ↦ ?_
    rw [Function.comp_apply]
    split
    · exact registerResp_id qmi con
    · rfl

/-- The releases of a connection do not bring one of its own requests to the head of the
queue. -/
theorem Wf.head?_of_releases {p : Proxy} (h : Wf p) {con : QmiProxyConnection}
    (hcon : con ∈ p.connections) {head : QmiProxyMsg}
    (hhead : (p.ctlMsg ++ Proxy.releaseMsgs p.serverFd p.fresh con.clients).head? = some head)
    (hfd : head.clientFd = con.clientFd) : p.ctlMsg.head? = some head := by
  cases hqueue : p.ctlMsg with
  | cons old rest => simpa [hqueue] using hhead
  | nil =>
    have hmem : head ∈ Proxy.releaseMsgs p.serverFd p.fresh con.clients :=
      List.mem_of_mem_head? (by simpa [hqueue] using hhead)
    have hserver := (Proxy.mem_releaseMsgs hmem).2.2.2
    exact absurd (hfd.symm.trans hserver) (h.ids_ne_server _ (List.mem_map_of_mem hcon))

/-- The state that a step of the queue leaves is well formed if the requests that are
new are. -/
theorem Wf.of_queue {p p' : Proxy} (h : Wf p) (hserver : p'.serverFd = p.serverFd)
    (hreset : p'.modemResetFlag = p.modemResetFlag) (hfresh : p.fresh ≤ p'.fresh)
    (hids : p'.ids.Sublist p.ids) (hmsgs : ∀ msg ∈ p'.ctlMsg, msg ∈ p.ctlMsg ∨ MsgWf p' msg)
    (hwritten : ∀ msg ∈ p'.wdmCtl, msg ∈ p.wdmCtl ∨ msg.qnode < p'.fresh) : Wf p' where
  serverFd_nonneg := hserver ▸ h.serverFd_nonneg
  no_reset := hreset.trans h.no_reset
  ids_lt c hc := Nat.lt_of_lt_of_le (h.ids_lt c (hids.subset hc)) hfresh
  ids_nodup := h.ids_nodup.sublist (hids.map _)
  ids_ne_server c hc := hserver ▸ h.ids_ne_server c (hids.subset hc)
  distinct := List.Pairwise.sublist hids h.distinct
  msgs msg hmsg := (hmsgs msg hmsg).elim
    (fun hold ↦ (h.msgs msg hold).mono hserver hfresh fun _ hc ↦ .inl (hids.subset hc)) id
  written_lt msg hmsg := (hwritten msg hmsg).elim
    (fun hold ↦ Nat.lt_of_lt_of_le (h.written_lt msg hold) hfresh) id

/-- A new connection has a new identity and a descriptor that is not in use. -/
theorem Wf.accept {p : Proxy} (h : Wf p) {fd : ℤ} (hserver : fd ≠ p.serverFd)
    (hfd : 0 ≤ fd → ∀ con ∈ p.connections, con.clientFd ≠ fd) :
    Wf { p with
      connections := p.connections ++ [⟨p.fresh, fd, []⟩]
      fresh := p.fresh + 1 } := by
  have hids : Proxy.ids { p with
      connections := p.connections ++ [⟨p.fresh, fd, []⟩]
      fresh := p.fresh + 1 } = p.ids ++ [(p.fresh, fd)] := by
    simp [Proxy.ids, QmiProxyConnection.id]
  refine ⟨h.serverFd_nonneg, h.no_reset, ?_, ?_, ?_, ?_, ?_, ?_⟩
  · intro c hc
    rw [hids, List.mem_append, List.mem_singleton] at hc
    rcases hc with hc | rfl
    · exact Nat.lt_succ_of_lt (h.ids_lt c hc)
    · exact Nat.lt_succ_self _
  · rw [hids, List.map_append]
    refine h.ids_nodup.append (by simp) ?_
    intro n hn hnew
    obtain ⟨c, hc, rfl⟩ := List.mem_map.mp hn
    have hlt := h.ids_lt c hc
    simp only [List.map_cons, List.map_nil, List.mem_singleton] at hnew
    omega
  · intro c hc
    rw [hids, List.mem_append, List.mem_singleton] at hc
    rcases hc with hc | rfl
    · exact h.ids_ne_server c hc
    · exact hserver
  · rw [hids, Distinct, List.pairwise_append]
    refine ⟨h.distinct, by simp, ?_⟩
    intro c hc b hb h0
    obtain ⟨con, hcon, rfl⟩ := List.mem_map.mp hc
    obtain rfl := List.mem_singleton.mp hb
    intro heq
    have h0' : 0 ≤ con.clientFd := h0
    rw [show con.clientFd = fd from heq] at h0'
    exact hfd h0' con hcon heq
  · intro msg hmsg
    refine (h.msgs msg hmsg).mono rfl (Nat.le_succ _) fun c hc ↦ ?_
    rw [hids, List.mem_append, List.mem_singleton] at hc
    rcases hc with hc | rfl
    · exact .inl hc
    · exact .inr (Nat.le_refl _)
  · exact fun msg hmsg ↦ Nat.lt_succ_of_lt (h.written_lt msg hmsg)

/-- The step lemma of `Wf`. -/
theorem Wf.step {s s' : ProxySys} {e : ProxyEvent} {writable : Bool} (h : Wf s.proxy)
    (hstep : StepCase s writable e s') : Wf s'.proxy := by
  cases hstep with
  | accept hserver hfd => exact h.accept hserver hfd
  | refuse => exact h
  | @request l₁ l₂ con qmi _ hcons hsplit hfd =>
    have hid : con.id ∈ s.proxy.ids := List.mem_map_of_mem (by simp [hcons])
    rw [Proxy.addCtlMsg_eq]
    refine h.of_queue rfl rfl (Nat.le_succ _) (List.Sublist.refl _) ?_ ?_
    · intro msg hmsg
      rcases List.mem_append.mp hmsg with hold | hnew
      · exact .inl hold
      · obtain rfl := List.mem_singleton.mp hnew
        refine .inr ⟨Nat.lt_succ_self _, nofun, ?_, ?_⟩
        · rintro _ ⟨⟩
          exact ⟨hfd, h.ids_ne_server _ hid, Nat.lt_succ_of_lt (h.ids_lt _ hid)⟩
        · rintro _ fd ⟨⟩ hmem
          exact h.fd_unique hmem hid
    · intro msg hmsg
      rcases List.mem_append.mp hmsg with hold | hnew
      · exact .inl hold
      · have hhead := (mem_of_mem_firstWrite hnew).2
        obtain rfl : s.proxy.clientMsg con qmi = msg := by simpa using hhead
        exact .inr (Nat.lt_succ_self _)
  | data =>
    exact h.of_queue rfl rfl (Nat.le_refl _) (List.Sublist.refl _) (fun _ ↦ .inl) fun _ ↦ .inl
  | @disconnect l₁ l₂ con hcons hsplit hfd =>
    have hids : ((l₁ ++ l₂).map QmiProxyConnection.id).Sublist s.proxy.ids := by
      rw [Proxy.ids, hcons]
      exact ((List.sublist_cons_self con l₂).append_left l₁).map _
    refine h.of_queue rfl rfl (Nat.le_add_right _ _) hids ?_ ?_
    · intro msg hmsg
      rcases List.mem_append.mp (List.mem_of_mem_eraseP hmsg) with hold | hnew
      · exact .inl hold
      · obtain ⟨-, hlt, hnone, hserver⟩ := Proxy.mem_releaseMsgs hnew
        exact .inr ⟨hlt, fun _ ↦ hserver, by simp [hnone], by simp [hnone]⟩
    · intro msg hmsg
      rcases List.mem_append.mp hmsg with hold | hnew
      · exact .inl hold
      · have hhead := List.mem_of_mem_head? (mem_of_mem_firstWrite hnew).2
        exact .inr (Proxy.mem_releaseMsgs hhead).2.1
  | @response msg head rest qmi hflight hanswers hget hqueue =>
    obtain ⟨hserver, hreset, hfresh, hids⟩ := Proxy.matchResp_frame s.proxy head qmi
    have hrest : ∀ msg ∈ rest, msg ∈ s.proxy.ctlMsg := fun msg hmsg ↦ by simp [hqueue, hmsg]
    refine h.of_queue hserver hreset (Nat.le_of_eq hfresh.symm) ?_
      (fun msg hmsg ↦ .inl (hrest msg hmsg)) ?_
    · change List.Sublist (s.proxy.matchResp head qmi).ids s.proxy.ids
      rw [hids]
    · intro msg hmsg
      rcases List.mem_append.mp hmsg with hold | hnew
      · exact .inl hold
      · have hhead := List.mem_of_mem_head? (mem_of_mem_firstWrite hnew).2
        exact .inr (hfresh ▸ (h.msgs msg (hrest msg hhead)).qnode_lt)
  | stray => exact h
  | unsolicited =>
    exact h.of_queue rfl rfl (Nat.le_refl _) (List.Sublist.refl _) (fun _ ↦ .inl) fun _ ↦ .inl
  | revoke =>
    exact h.of_queue rfl rfl (Nat.le_refl _) (List.Sublist.refl _) (fun _ ↦ .inl) fun _ ↦ .inl

/-- The run lemma of `Wf`. -/
theorem wf_of_reach {serverFd : ℕ} {guard : ProxySys → ProxyStep → Prop} {s : ProxySys}
    (h : (proxySystem serverFd).Reach guard s) : Wf s.proxy := by
  refine h.invariant (I := fun s ↦ Wf s.proxy) ?_ ?_
  · exact ⟨Int.natCast_nonneg _, rfl, by simp [proxySystem, Proxy.ids],
      by simp [proxySystem, Proxy.ids], by simp [proxySystem, Proxy.ids],
      by simp [proxySystem, Proxy.ids, Distinct], by simp [proxySystem], by simp [proxySystem]⟩
  · intro s step hwf he _
    exact hwf.step (proxyNext_case hwf he step.writable)

/-- An answer to `qmi_proxy_init` that finds the queue empty is no step of the proxy. -/
theorem sync_eq {p : Proxy} (hwf : Wf p) (writable : Bool) {tid : UInt8} {qmi : List UInt8}
    (hanswers : Answers qmi (syncReq tid)) (hqueue : p.ctlMsg = []) : p.onDev writable qmi = p :=
  Proxy.onDev_response_nil hwf.no_reset hwf.server_ne writable hanswers hqueue

/-- A run in which the answers to `qmi_proxy_init` come while the queue is empty is one without
them. -/
theorem proxyReach_of_synced {serverFd : ℕ} {owed : List UInt8}
    {guard : ProxySys → ProxyStep → Prop} {s : SyncedSys}
    (h : (syncedSystem serverFd owed).Reach (SyncGuard guard) s) :
    (proxySystem serverFd).Reach guard s.sys := by
  induction h with
  | init => exact .init
  | @step s step _ he hg ih =>
    cases step with
    | proxy step => exact ih.step step he hg
    | sync tid qmi writable =>
      have heq := sync_eq (wf_of_reach ih) writable he.2 hg
      dsimp only [syncedSystem]
      rw [heq]
      exact ih

end Wwan.QmiProxy
