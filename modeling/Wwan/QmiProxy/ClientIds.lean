import Mathlib.Data.List.Pairwise
import Mathlib.Data.List.Perm.Basic
import Wwan.QmiProxy.Routing

/-!
# The client ids of the device

Every client id the device has given out through the proxy is meant to be in the
list of one connection, or about to be released, and every id in a list to be
allocated. The accounts are kept along the way of the responses, so they go wrong
when a response finds nobody: the response to a GET request whose client has
disconnected leaves an id that nobody will release. They also go wrong when ids
disappear behind the proxy's back: a client may release an id of another, and a
`REVOKE_CLIENT_ID_IND` is never recognised, since it is the message type and not the
flags that `recv_qmi_from_dev` compares with `QMICTL_CTL_FLAG_IND`.

Where the environment does none of this, the ids in the lists together with those in
the proxy's own release requests are a rearrangement of the allocated ones
(`Accounts.perm`). This is what the steps preserve; that no id occurs twice follows.
-/

namespace Wwan.QmiProxy

open StopAndWait

/-! ## What is kept account of -/

/-- The ids in the lists of the connections. -/
def listedIds (cons : List QmiProxyConnection) : List QmiProxyClient :=
  cons.flatMap QmiProxyConnection.clients

/-- The ids in the release requests of the proxy. -/
def ownReleases (queue : List QmiProxyMsg) : List QmiProxyClient :=
  queue.filterMap fun msg ↦ if msg.issuer = none then some (reqClient msg.qmi) else none

/-- The ids in the release requests of clients. -/
def clientReleases (queue : List QmiProxyMsg) : List QmiProxyClient :=
  queue.filterMap fun msg ↦
    if msg.issuer ≠ none ∧ qmiCtlType msg.qmi = qmiCtlReleaseClientId then
      some (reqClient msg.qmi) else none

/-- The accounts are right: each allocated id is in one place, requests belong to
connections, and clients release what is theirs. -/
structure Accounts (s : ProxySys) : Prop where
  perm : (listedIds s.proxy.connections ++ ownReleases s.proxy.ctlMsg).Perm s.allocated
  nodup : s.allocated.Nodup
  connected : ∀ msg ∈ s.proxy.ctlMsg, ∀ n, msg.issuer = some n → (n, msg.clientFd) ∈ s.proxy.ids
  own : ∀ msg ∈ s.proxy.ctlMsg, msg.issuer = none → ∃ client, msg.qmi = releaseReq client
  listed : ∀ msg ∈ s.proxy.ctlMsg, qmiCtlType msg.qmi = qmiCtlReleaseClientId →
    ∀ con ∈ s.proxy.connections, msg.issuer = some con.qnode → reqClient msg.qmi ∈ con.clients
  releases : (clientReleases s.proxy.ctlMsg).Nodup

/-- The environment does nothing the accounts are not prepared for: a client releases
only ids of its own, and each once; a client that disconnects has at most one request in
the queue, and not at its head; the device grants the release of an allocated id; and it
takes none back unasked. -/
def IdGuard (s : ProxySys) (step : ProxyStep) : Prop :=
  match step.event with
  | .accept _ _ | .unsolicited _ => True
  | .client fd qmi =>
    hdrQmiType qmi = qmuxTypeCtl → qmiCtlType qmi = qmiCtlReleaseClientId →
      (∃ con ∈ s.proxy.connections, con.clientFd = fd ∧ reqClient qmi ∈ con.clients) ∧
        reqClient qmi ∉ clientReleases s.proxy.ctlMsg
  | .disconnect fd =>
    (∀ head ∈ s.proxy.ctlMsg.head?, head.clientFd ≠ fd) ∧
      s.proxy.ctlMsg.countP (fun msg ↦ msg.clientFd = fd) ≤ 1
  | .response msg qmi =>
    qmiCtlType msg.qmi = qmiCtlReleaseClientId → reqClient msg.qmi ∈ s.allocated →
      respOk qmi ∧ respClient qmi = reqClient msg.qmi
  | .revoke _ _ => False

instance (s : ProxySys) : (step : ProxyStep) → Decidable (IdGuard s step)
  | ⟨.accept _ _, _⟩ | ⟨.unsolicited _, _⟩ => .isTrue trivial
  | ⟨.client _ _, _⟩ => inferInstanceAs (Decidable (_ → _ → _))
  | ⟨.disconnect _, _⟩ => inferInstanceAs (Decidable (_ ∧ _))
  | ⟨.response _ _, _⟩ => inferInstanceAs (Decidable (_ → _ → _))
  | ⟨.revoke _ _, _⟩ => .isFalse id

/-! ## Releases on disconnect -/

theorem ownReleases_releaseMsgs (serverFd : ℤ) (n : ℕ) (clients : List QmiProxyClient) :
    ownReleases (Proxy.releaseMsgs serverFd n clients) = clients := by
  induction clients generalizing n with
  | nil => rfl
  | cons client clients ih =>
    rw [Proxy.releaseMsgs, ownReleases, List.filterMap_cons_some (b := client) (by simp)]
    exact congrArg (List.cons client) (ih (n + 1))

theorem clientReleases_releaseMsgs (serverFd : ℤ) (n : ℕ) (clients : List QmiProxyClient) :
    clientReleases (Proxy.releaseMsgs serverFd n clients) = [] := by
  rw [clientReleases, List.filterMap_eq_nil_iff]
  intro msg hmsg
  simp [(Proxy.mem_releaseMsgs hmsg).2.2.1]

theorem exists_of_mem_releaseMsgs {serverFd : ℤ} {n : ℕ} {clients : List QmiProxyClient}
    {msg : QmiProxyMsg} (h : msg ∈ Proxy.releaseMsgs serverFd n clients) :
    ∃ client, msg.qmi = releaseReq client := by
  induction clients generalizing n with
  | nil => cases h
  | cons client clients ih =>
    rcases List.mem_cons.mp h with rfl | h
    · exact ⟨client, rfl⟩
    · exact ih h

/-- Withdrawing a client's request does not touch the proxy's own. -/
theorem ownReleases_eraseP {queue : List QmiProxyMsg} {p : QmiProxyMsg → Bool}
    (h : ∀ msg ∈ queue, p msg → msg.issuer ≠ none) :
    ownReleases (queue.eraseP p) = ownReleases queue := by
  induction queue with
  | nil => rfl
  | cons msg queue ih =>
    cases hp : p msg with
    | true => simp [ownReleases, hp, h msg List.mem_cons_self hp]
    | false =>
      have := ih fun m hm ↦ h m (List.mem_cons_of_mem _ hm)
      simp only [ownReleases] at this
      simp [ownReleases, hp, List.filterMap_cons, this]

/-- If at most one request has the property, withdrawing one leaves none. -/
theorem not_of_mem_eraseP {queue : List QmiProxyMsg} {p : QmiProxyMsg → Bool}
    (h : queue.countP p ≤ 1) {msg : QmiProxyMsg} (hmsg : msg ∈ queue.eraseP p) : p msg = false := by
  induction queue with
  | nil => cases hmsg
  | cons m queue ih =>
    cases hp : p m with
    | true =>
      rw [List.countP_cons_of_pos hp] at h
      have hzero : queue.countP p = 0 := by omega
      have hmem : msg ∈ queue := by simpa [hp] using hmsg
      simpa using List.countP_eq_zero.mp hzero msg hmem
    | false =>
      rw [List.countP_cons_of_neg (by simp [hp])] at h
      rcases List.mem_cons.mp (by simpa [hp] using hmsg) with rfl | hmem
      · exact hp
      · exact ih h hmem

/-- The queue when a client has gone: its ids are to be released, and its first request is
withdrawn. -/
def Proxy.withdrawn (p : Proxy) (con : QmiProxyConnection) : List QmiProxyMsg :=
  (p.ctlMsg ++ Proxy.releaseMsgs p.serverFd p.fresh con.clients).eraseP
    fun msg ↦ msg.clientFd = con.clientFd

section Withdrawn

variable {p : Proxy} {con : QmiProxyConnection} {msg : QmiProxyMsg}

/-- The requests of clients are those that were there. -/
theorem mem_of_mem_withdrawn (hmsg : msg ∈ p.withdrawn con) (hissuer : msg.issuer ≠ none) :
    msg ∈ p.ctlMsg := by
  rcases List.mem_append.mp (List.mem_of_mem_eraseP hmsg) with hold | hnew
  · exact hold
  · exact absurd (Proxy.mem_releaseMsgs hnew).2.2.1 hissuer

theorem clientFd_releaseMsgs (hne : con.clientFd ≠ p.serverFd)
    (hmsg : msg ∈ Proxy.releaseMsgs p.serverFd p.fresh con.clients) :
    msg.clientFd ≠ con.clientFd :=
  (Proxy.mem_releaseMsgs hmsg).2.2.2 ▸ Ne.symm hne

/-- The client has no request left if it had at most one. -/
theorem clientFd_withdrawn (hne : con.clientFd ≠ p.serverFd)
    (hcount : p.ctlMsg.countP (fun msg ↦ msg.clientFd = con.clientFd) ≤ 1)
    (hmsg : msg ∈ p.withdrawn con) : msg.clientFd ≠ con.clientFd := by
  have hzero : (Proxy.releaseMsgs p.serverFd p.fresh con.clients).countP
      (fun msg ↦ msg.clientFd = con.clientFd) = 0 :=
    List.countP_eq_zero.mpr fun msg hmsg ↦ by simpa using clientFd_releaseMsgs hne hmsg
  refine of_decide_eq_false (not_of_mem_eraseP ?_ hmsg)
  rw [List.countP_append, hzero]
  exact hcount

theorem ownReleases_withdrawn (hwf : Wf p) (hne : con.clientFd ≠ p.serverFd) :
    ownReleases (p.withdrawn con) = ownReleases p.ctlMsg ++ con.clients := by
  have hclient : ∀ msg ∈ p.ctlMsg ++ Proxy.releaseMsgs p.serverFd p.fresh con.clients,
      decide (msg.clientFd = con.clientFd) = true → msg.issuer ≠ none := by
    intro msg hmsg hfd hnone
    rcases List.mem_append.mp hmsg with hold | hnew
    · exact hne ((of_decide_eq_true hfd).symm.trans ((hwf.msgs msg hold).own hnone))
    · exact clientFd_releaseMsgs hne hnew (of_decide_eq_true hfd)
  rw [Proxy.withdrawn, ownReleases_eraseP hclient, ownReleases, List.filterMap_append]
  exact congrArg (ownReleases p.ctlMsg ++ ·) (ownReleases_releaseMsgs _ _ _)

theorem clientReleases_withdrawn :
    (clientReleases (p.withdrawn con)).Sublist (clientReleases p.ctlMsg) := by
  have hsame : clientReleases (p.ctlMsg ++ Proxy.releaseMsgs p.serverFd p.fresh con.clients) =
      clientReleases p.ctlMsg := by
    have hnil := clientReleases_releaseMsgs p.serverFd p.fresh con.clients
    rw [clientReleases, List.filterMap_append]
    change clientReleases p.ctlMsg ++ clientReleases _ = clientReleases p.ctlMsg
    rw [hnil, List.append_nil]
  rw [← hsame]
  exact List.eraseP_sublist.filterMap _

end Withdrawn

/-! ## The steps -/

section Steps

variable {s : ProxySys}

theorem Accounts.accept (h : Accounts s) (hwf : Wf s.proxy) (fd : ℤ) :
    Accounts { s with
      proxy :=
        { s.proxy with
          connections := s.proxy.connections ++ [⟨s.proxy.fresh, fd, []⟩]
          fresh := s.proxy.fresh + 1 } } where
  perm := by simpa [listedIds] using h.perm
  nodup := h.nodup
  connected msg hmsg n hn := by
    rw [Proxy.ids, List.map_append]
    exact List.mem_append_left _ (h.connected msg hmsg n hn)
  own := h.own
  listed msg hmsg hrel con hcon hissuer := by
    rcases List.mem_append.mp hcon with hold | hnew
    · exact h.listed msg hmsg hrel con hold hissuer
    · -- The identity of the new connection is not that of an issuer.
      obtain rfl := List.mem_singleton.mp hnew
      exact absurd ((hwf.msgs msg hmsg).issued _ hissuer).2.2 (Nat.lt_irrefl _)
  releases := h.releases

theorem Accounts.request (h : Accounts s) (hwf : Wf s.proxy) {con : QmiProxyConnection}
    {qmi : List UInt8} {writable : Bool} (hcon : con ∈ s.proxy.connections)
    (hrelease : qmiCtlType qmi = qmiCtlReleaseClientId →
      reqClient qmi ∈ con.clients ∧ reqClient qmi ∉ clientReleases s.proxy.ctlMsg) :
    Accounts { s with proxy := s.proxy.addCtlMsg writable (s.proxy.clientMsg con qmi) } := by
  rw [Proxy.addCtlMsg_eq]
  have hown : ownReleases (s.proxy.ctlMsg ++ [s.proxy.clientMsg con qmi]) =
      ownReleases s.proxy.ctlMsg := by
    simp [ownReleases, Proxy.clientMsg]
  refine ⟨hown ▸ h.perm, h.nodup, ?_, ?_, ?_, ?_⟩
  · intro msg hmsg n hn
    rcases List.mem_append.mp hmsg with hold | hnew
    · exact h.connected msg hold n hn
    · obtain rfl := List.mem_singleton.mp hnew
      obtain rfl : con.qnode = n := Option.some.inj hn
      exact List.mem_map_of_mem hcon
  · intro msg hmsg hn
    rcases List.mem_append.mp hmsg with hold | hnew
    · exact h.own msg hold hn
    · obtain rfl := List.mem_singleton.mp hnew
      cases hn
  · intro msg hmsg hrel c hc hissuer
    rcases List.mem_append.mp hmsg with hold | hnew
    · exact h.listed msg hold hrel c hc hissuer
    · obtain rfl := List.mem_singleton.mp hnew
      obtain rfl := hwf.con_unique hcon hc (Option.some.inj hissuer)
      exact (hrelease hrel).1
  · by_cases hrel : qmiCtlType qmi = qmiCtlReleaseClientId
    · have hnew : clientReleases (s.proxy.ctlMsg ++ [s.proxy.clientMsg con qmi]) =
          clientReleases s.proxy.ctlMsg ++ [reqClient qmi] := by
        simp [clientReleases, Proxy.clientMsg, hrel]
      change (clientReleases (s.proxy.ctlMsg ++ [s.proxy.clientMsg con qmi])).Nodup
      rw [hnew]
      exact h.releases.append (List.nodup_singleton _) (by simpa using (hrelease hrel).2)
    · have hsame : clientReleases (s.proxy.ctlMsg ++ [s.proxy.clientMsg con qmi]) =
          clientReleases s.proxy.ctlMsg := by
        simp [clientReleases, Proxy.clientMsg, hrel]
      exact hsame ▸ h.releases

theorem Accounts.disconnect (h : Accounts s) (hwf : Wf s.proxy) {con : QmiProxyConnection}
    {l₁ l₂ : List QmiProxyConnection} {wdmCtl : List QmiProxyMsg}
    (hcons : s.proxy.connections = l₁ ++ con :: l₂)
    (hcount : s.proxy.ctlMsg.countP (fun msg ↦ msg.clientFd = con.clientFd) ≤ 1) :
    Accounts { s with
      proxy :=
        { s.proxy with
          connections := l₁ ++ l₂
          ctlMsg := s.proxy.withdrawn con
          fresh := s.proxy.fresh + con.clients.length
          wdmCtl := wdmCtl } } := by
  have hcon : con ∈ s.proxy.connections := by simp [hcons]
  have hne : con.clientFd ≠ s.proxy.serverFd :=
    hwf.ids_ne_server _ (List.mem_map_of_mem hcon)
  have hsub : ∀ c ∈ l₁ ++ l₂, c ∈ s.proxy.connections := by
    intro c hc
    rw [hcons]
    exact ((List.sublist_cons_self con l₂).append_left l₁).subset hc
  refine ⟨?_, h.nodup, ?_, ?_, ?_, h.releases.sublist clientReleases_withdrawn⟩
  · have hperm := h.perm
    rw [ownReleases_withdrawn hwf hne]
    refine List.Perm.trans ?_ hperm
    rw [hcons, List.perm_iff_count]
    intro client
    simp only [listedIds, List.flatMap_append, List.flatMap_cons, List.count_append]
    omega
  · intro msg hmsg n hn
    have hid := h.connected msg (mem_of_mem_withdrawn hmsg (by simp [hn])) n hn
    rw [Proxy.ids, hcons] at hid
    rw [Proxy.ids]
    simp only [List.map_append, List.map_cons, List.mem_append, List.mem_cons] at hid ⊢
    rcases hid with hid | hid | hid
    · exact .inl hid
    · exact absurd (Prod.mk.inj hid).2 (clientFd_withdrawn hne hcount hmsg)
    · exact .inr hid
  · intro msg hmsg hnone
    rcases List.mem_append.mp (List.mem_of_mem_eraseP hmsg) with hq | hnew
    · exact h.own msg hq hnone
    · exact exists_of_mem_releaseMsgs hnew
  · intro msg hmsg hrel c hc hissuer
    exact h.listed msg (mem_of_mem_withdrawn hmsg (by simp [hissuer])) hrel c (hsub c hc) hissuer

/-- What a response to a client's request does to its ids and to the allocated ones. -/
theorem registerResp_cases (allocated : List QmiProxyClient) {msg : QmiProxyMsg} {qmi : List UInt8}
    (con : QmiProxyConnection) (hanswers : Answers qmi msg)
    (hgrant : qmiCtlType msg.qmi = qmiCtlReleaseClientId →
      respOk qmi ∧ respClient qmi = reqClient msg.qmi) :
    (Proxy.registerResp qmi con = con ∧ allocate allocated msg qmi = allocated) ∨
      (qmiCtlType qmi = qmiCtlGetClientId ∧ respOk qmi ∧
        Proxy.registerResp qmi con = { con with clients := con.clients ++ [respClient qmi] } ∧
        allocate allocated msg qmi = allocated ++ [respClient qmi]) ∨
      (qmiCtlType msg.qmi = qmiCtlReleaseClientId ∧
        Proxy.registerResp qmi con = { con with clients := con.clients.erase (reqClient msg.qmi) } ∧
        allocate allocated msg qmi = allocated.erase (reqClient msg.qmi)) := by
  by_cases hok : respOk qmi
  · by_cases hget : qmiCtlType qmi = qmiCtlGetClientId
    · refine .inr (.inl ⟨hget, hok, ?_, ?_⟩)
      · simp [Proxy.registerResp, hget, Proxy.getClientId, hok]
      · simp [allocate, hok, hget]
    · by_cases hrel : qmiCtlType qmi = qmiCtlReleaseClientId
      · have htype : qmiCtlType msg.qmi = qmiCtlReleaseClientId :=
          hanswers.qmiCtlType.symm.trans hrel
        have hne : qmiCtlReleaseClientId ≠ qmiCtlGetClientId := by decide
        refine .inr (.inr ⟨htype, ?_, ?_⟩)
        · simp [Proxy.registerResp, hrel, hne, Proxy.releaseClientId, hok, (hgrant htype).2]
        · simp [allocate, hok, hrel, hne]
      · refine .inl ⟨?_, ?_⟩
        · simp [Proxy.registerResp, hget, hrel]
        · simp [allocate, hok, hget, hrel]
  · refine .inl ⟨?_, ?_⟩
    · simp [Proxy.registerResp, Proxy.getClientId, Proxy.releaseClientId, hok]
    · simp [allocate, hok]

/-- What is erased from two lists that have it counts in neither. -/
theorem count_erase_both {l m : List QmiProxyClient} {client : QmiProxyClient} (hl : client ∈ l)
    (hm : client ∈ m) (c : QmiProxyClient) :
    (l.erase client).count c + m.count c = l.count c + (m.erase client).count c := by
  by_cases heq : c = client
  · have hpos := List.count_pos_iff.mpr hl
    have hpos' := List.count_pos_iff.mpr hm
    rw [heq, List.count_erase_self, List.count_erase_self]
    omega
  · rw [List.count_erase_of_ne heq, List.count_erase_of_ne heq]

variable {msg : QmiProxyMsg} {rest answered : List QmiProxyMsg} {con con' : QmiProxyConnection}
variable {l₁ l₂ : List QmiProxyConnection} {allocated : List QmiProxyClient}
variable (h : Accounts s) (hqueue : s.proxy.ctlMsg = msg :: rest)

include h hqueue

/-- When the head has left the queue, it remains to look at the ids. -/
theorem Accounts.pop {s' : ProxySys} (hrest : s'.proxy.ctlMsg = rest)
    (hids : s'.proxy.ids = s.proxy.ids)
    (hperm : (listedIds s'.proxy.connections ++ ownReleases rest).Perm s'.allocated)
    (hnodup : s'.allocated.Nodup)
    (hlisted : ∀ m ∈ rest, qmiCtlType m.qmi = qmiCtlReleaseClientId →
      ∀ con ∈ s'.proxy.connections, m.issuer = some con.qnode → reqClient m.qmi ∈ con.clients) :
    Accounts s' := by
  have hmem : ∀ m ∈ rest, m ∈ s.proxy.ctlMsg := fun m hm ↦ by simp [hqueue, hm]
  refine ⟨hrest ▸ hperm, hnodup, ?_, ?_, ?_, ?_⟩
  · intro m hm n hn
    rw [hids]
    exact h.connected m (hmem m (hrest ▸ hm)) n hn
  · exact fun m hm hn ↦ h.own m (hmem m (hrest ▸ hm)) hn
  · exact fun m hm ↦ hlisted m (hrest ▸ hm)
  · refine h.releases.sublist ?_
    rw [hrest, hqueue]
    exact (List.sublist_cons_self msg rest).filterMap _

/-- The ids of a connection that has got an answer, in the accounts. -/
theorem Accounts.perm_register (hissuer : msg.issuer ≠ none)
    (hcons : s.proxy.connections = l₁ ++ con :: l₂)
    (hcount : ∀ client, con'.clients.count client + s.allocated.count client =
      con.clients.count client + allocated.count client) :
    (listedIds (l₁ ++ con' :: l₂) ++ ownReleases rest).Perm allocated := by
  have hown : ownReleases s.proxy.ctlMsg = ownReleases rest := by
    rw [hqueue, ownReleases, List.filterMap_cons_none (by simp [hissuer])]
    rfl
  have hperm := h.perm
  rw [hcons, hown, List.perm_iff_count] at hperm
  rw [List.perm_iff_count]
  intro client
  have hold := hperm client
  have hnew := hcount client
  simp only [listedIds, List.flatMap_append, List.flatMap_cons, List.count_append] at hold ⊢
  omega

/-- No other queued request of a client releases the same id. -/
theorem Accounts.reqClient_ne {m : QmiProxyMsg} {n k : ℕ} (hissuer : msg.issuer = some n)
    (htype : qmiCtlType msg.qmi = qmiCtlReleaseClientId) (hm : m ∈ rest)
    (hrel : qmiCtlType m.qmi = qmiCtlReleaseClientId) (hmc : m.issuer = some k) :
    reqClient m.qmi ≠ reqClient msg.qmi := by
  have hreleases : clientReleases s.proxy.ctlMsg =
      reqClient msg.qmi :: clientReleases rest := by
    rw [hqueue, clientReleases,
      List.filterMap_cons_some (b := reqClient msg.qmi) (by simp [hissuer, htype])]
    rfl
  have hnodup := h.releases
  rw [hreleases, List.nodup_cons] at hnodup
  have hmem : reqClient m.qmi ∈ clientReleases rest :=
    List.mem_filterMap.mpr ⟨m, hm, by simp [hmc, hrel]⟩
  exact fun heq ↦ hnodup.1 (heq ▸ hmem)

/-- A connection has got the answer to the first request: it remains to look at the counts, and
at the ids that the connection still means to release. -/
theorem Accounts.registered {p : Proxy} (hissuer : msg.issuer ≠ none)
    (hcons : s.proxy.connections = l₁ ++ con :: l₂) (hctl : p.ctlMsg = rest)
    (hids : p.ids = s.proxy.ids) (hconnections : p.connections = l₁ ++ con' :: l₂)
    (hqnode : con'.qnode = con.qnode) (hnodup : allocated.Nodup)
    (hcount : ∀ client, con'.clients.count client + s.allocated.count client =
      con.clients.count client + allocated.count client)
    (hkeep : ∀ m ∈ rest, qmiCtlType m.qmi = qmiCtlReleaseClientId →
      m.issuer = some con.qnode → reqClient m.qmi ∈ con'.clients) :
    Accounts { proxy := p, answered := answered, allocated := allocated } := by
  have hothers : ∀ m ∈ rest, qmiCtlType m.qmi = qmiCtlReleaseClientId →
      ∀ c ∈ l₁ ++ l₂, m.issuer = some c.qnode → reqClient m.qmi ∈ c.clients := by
    intro m hm hrel c hc
    refine h.listed m (by simp [hqueue, hm]) hrel c ?_
    rw [hcons]
    exact ((List.sublist_cons_self con l₂).append_left l₁).subset hc
  refine h.pop hqueue hctl hids ?_ hnodup ?_
  · dsimp only
    rw [hconnections]
    exact h.perm_register hqueue hissuer hcons hcount
  · intro m hm hrel c hc hmc
    dsimp only at hc
    rw [hconnections] at hc
    rcases List.mem_append.mp hc with hc | hc
    · exact hothers m hm hrel c (List.mem_append_left _ hc) hmc
    · rcases List.mem_cons.mp hc with rfl | hc
      · exact hkeep m hm hrel (hmc.trans (congrArg some hqnode))
      · exact hothers m hm hrel c (List.mem_append_right _ hc) hmc

variable {qmi : List UInt8} {wdmCtl : List QmiProxyMsg} (hwf : Wf s.proxy)
variable (hanswers : Answers qmi msg)
variable (hgrant : qmiCtlType msg.qmi = qmiCtlReleaseClientId → reqClient msg.qmi ∈ s.allocated →
  respOk qmi ∧ respClient qmi = reqClient msg.qmi)

include hwf hanswers hgrant

/-- The device has answered a request of the proxy. -/
theorem Accounts.ownResponse (hissuer : msg.issuer = none) :
    Accounts
      { proxy := { s.proxy.matchResp msg qmi with ctlMsg := rest, wdmCtl := wdmCtl }
        answered := answered
        allocated := allocate s.allocated msg qmi } := by
  have hmsg : msg ∈ s.proxy.ctlMsg := by simp [hqueue]
  have hsame : s.proxy.matchResp msg qmi = s.proxy := by
    simp [Proxy.matchResp, (hwf.msgs msg hmsg).own hissuer]
  obtain ⟨client, hclient⟩ := h.own msg hmsg hissuer
  have hperm :
      (client :: (listedIds s.proxy.connections ++ ownReleases rest)).Perm s.allocated := by
    refine List.perm_middle.symm.trans ?_
    have hcons : ownReleases s.proxy.ctlMsg = client :: ownReleases rest := by
      rw [hqueue, ownReleases, List.filterMap_cons_some (b := client) (by simp [hissuer, hclient])]
      rfl
    exact hcons ▸ h.perm
  obtain ⟨hmem, herase⟩ := List.cons_perm_iff_perm_erase.mp hperm
  obtain ⟨hok, -⟩ := hgrant (by simp [hclient]) (by simpa [hclient] using hmem)
  have halloc : allocate s.allocated msg qmi = s.allocated.erase client := by
    have htype : qmiCtlType qmi = qmiCtlReleaseClientId := by simp [hanswers.qmiCtlType, hclient]
    have hget : qmiCtlReleaseClientId ≠ qmiCtlGetClientId := by decide
    simp [allocate, hok, htype, hget, hclient]
  rw [hsame, halloc]
  refine h.pop hqueue rfl rfl herase (h.nodup.erase client) ?_
  exact fun m hm ↦ h.listed m (by simp [hqueue, hm])

/-- The device has answered a request of a client. -/
theorem Accounts.clientResponse {n : ℕ} (hissuer : msg.issuer = some n)
    (hget : qmiCtlType qmi = qmiCtlGetClientId → respOk qmi → respClient qmi ∉ s.allocated) :
    Accounts
      { proxy := { s.proxy.matchResp msg qmi with ctlMsg := rest, wdmCtl := wdmCtl }
        answered := answered
        allocated := allocate s.allocated msg qmi } := by
  have hmsg : msg ∈ s.proxy.ctlMsg := by simp [hqueue]
  obtain ⟨h0, hserver, -⟩ := (hwf.msgs msg hmsg).issued n hissuer
  obtain ⟨con, hcon, hid⟩ := List.mem_map.mp (h.connected msg hmsg n hissuer)
  obtain ⟨hn, hfd⟩ := Prod.mk.inj hid
  obtain ⟨l₁, l₂, hcons, hsplit⟩ := hwf.distinct.split hcon (hfd ▸ h0)
  have hids := (Proxy.matchResp_frame s.proxy msg qmi).2.2.2
  have hmatch : (s.proxy.matchResp msg qmi).connections =
      l₁ ++ Proxy.registerResp qmi con :: l₂ := by
    rw [Proxy.matchResp_of_answers hanswers hserver, Proxy.forwardResp, ← hfd, hcons]
    exact map_split hsplit _
  have hmine : qmiCtlType msg.qmi = qmiCtlReleaseClientId → reqClient msg.qmi ∈ con.clients :=
    fun hrel ↦ h.listed msg hmsg hrel con hcon (hissuer.trans (congrArg some hn.symm))
  have halloc : ∀ client ∈ con.clients, client ∈ s.allocated := by
    intro client hclient
    refine h.perm.subset (List.mem_append_left _ ?_)
    exact List.mem_flatMap.mpr ⟨con, hcon, hclient⟩
  have hown : ∀ m ∈ rest, qmiCtlType m.qmi = qmiCtlReleaseClientId →
      m.issuer = some con.qnode → reqClient m.qmi ∈ con.clients :=
    fun m hm hrel ↦ h.listed m (by simp [hqueue, hm]) hrel con hcon
  have hsome : msg.issuer ≠ none := by simp [hissuer]
  have hqnode := (Prod.mk.inj (Proxy.registerResp_id qmi con)).1
  have hcases := registerResp_cases s.allocated con hanswers
    fun hrel ↦ hgrant hrel (halloc _ (hmine hrel))
  rcases hcases with ⟨hreg, hsame⟩ | ⟨htype, hok, hreg, hnew⟩ | ⟨htype, hreg, herase⟩
  · refine h.registered hqueue hsome hcons rfl hids hmatch hqnode ?_ ?_ ?_
    · rw [hsame]
      exact h.nodup
    · intro client
      rw [hreg, hsame]
    · rw [hreg]
      exact hown
  · refine h.registered hqueue hsome hcons rfl hids hmatch hqnode ?_ ?_ ?_
    · rw [hnew]
      exact h.nodup.append (List.nodup_singleton _) (by simpa using hget htype hok)
    · intro client
      rw [hreg, hnew]
      simp only [List.count_append]
      omega
    · intro m hm hrel hmc
      rw [hreg]
      exact List.mem_append_left _ (hown m hm hrel hmc)
  · refine h.registered hqueue hsome hcons rfl hids hmatch hqnode ?_ ?_ ?_
    · rw [herase]
      exact h.nodup.erase _
    · rw [hreg, herase]
      exact count_erase_both (hmine htype) (halloc _ (hmine htype))
    · intro m hm hrel hmc
      rw [hreg]
      have hne := h.reqClient_ne hqueue hissuer htype hm hrel hmc
      exact (List.mem_erase_of_ne hne).mpr (hown m hm hrel hmc)

end Steps

/-- The step lemma of the accounts. -/
theorem accounts_step {s s' : ProxySys} {e : ProxyEvent} {writable : Bool} (hwf : Wf s.proxy)
    (hsingle : s.window.Single) (hguard : IdGuard s ⟨e, writable⟩) (h : Accounts s)
    (hstep : StepCase s writable e s') : Accounts s' := by
  cases hstep with
  | accept => exact h.accept hwf _
  | @request l₁ l₂ con qmi hctl hcons hsplit hfd =>
    have hcon : con ∈ s.proxy.connections := by simp [hcons]
    refine h.request hwf hcon fun hrel ↦ ?_
    obtain ⟨⟨c, hc, hcfd, hclient⟩, hnew⟩ := hguard hctl hrel
    have hsame : c = con := by
      by_contra hne
      exact hsplit c (by simpa [hcons, hne] using hc) hcfd
    exact ⟨hsame ▸ hclient, hnew⟩
  | disconnect hcons _ _ => exact h.disconnect hwf hcons hguard.2
  | @response msg head rest qmi hflight hanswers hget hqueue =>
    obtain rfl : head = msg := by simpa [ProxySys.window, hqueue] using hsingle msg hflight
    cases hissuer : head.issuer with
    | none => exact h.ownResponse hqueue hwf hanswers hguard hissuer
    | some n => exact h.clientResponse hqueue hwf hanswers hguard hissuer hget
  | @stray msg qmi hflight hqueue =>
    have hhead := hsingle msg hflight
    simp [ProxySys.window, hqueue] at hhead
  | revoke => exact hguard.elim
  | refuse => exact h
  | data | unsolicited => exact ⟨h.perm, h.nodup, h.connected, h.own, h.listed, h.releases⟩

/-- The run lemma of the accounts. -/
theorem accounts_of_reach {serverFd : ℕ} {s : ProxySys}
    (h : (proxySystem serverFd).Reach IdGuard s) : s.window.Single ∧ Accounts s := by
  induction h with
  | init => exact ⟨nofun, .refl _, List.nodup_nil, nofun, nofun, nofun, List.nodup_nil⟩
  | @step s step hs he hg ih =>
    obtain ⟨e, writable⟩ := step
    have hwf := wf_of_reach hs
    have hstep := proxyNext_case hwf he writable
    refine ⟨single_step hwf ?_ ih.1 hstep, accounts_step hwf ih.1 hg ih.2 hstep⟩
    rintro head hhead rfl
    exact hg.1 head hhead rfl

/-! ## No id is lost -/

/-- The id is in the list of exactly one connection. -/
def ListedOnce (s : ProxySys) (client : QmiProxyClient) : Prop :=
  ∃ con ∈ s.proxy.connections, client ∈ con.clients ∧
    ∀ con' ∈ s.proxy.connections, client ∈ con'.clients → con' = con

/-- A request to release the id is queued or in flight. -/
def BeingReleased (s : ProxySys) (client : QmiProxyClient) : Prop :=
  ∃ msg, (msg ∈ s.proxy.ctlMsg ∨ InFlight s msg) ∧
    qmiCtlType msg.qmi = qmiCtlReleaseClientId ∧ reqClient msg.qmi = client

/-- Allocated ids are listed or being released, and listed ids are allocated. -/
structure IdsAccounted (s : ProxySys) : Prop where
  no_leak : ∀ client ∈ s.allocated, ListedOnce s client ∨ BeingReleased s client
  no_stale : ∀ con ∈ s.proxy.connections, ∀ client ∈ con.clients, client ∈ s.allocated

/-- An id that is in the lists is there once. -/
theorem Accounts.listedOnce {s : ProxySys} (h : Accounts s) {client : QmiProxyClient}
    (hclient : client ∈ listedIds s.proxy.connections) : ListedOnce s client := by
  obtain ⟨con, hcon, hmem⟩ := List.mem_flatMap.mp hclient
  refine ⟨con, hcon, hmem, fun con' hcon' hmem' ↦ ?_⟩
  have hnodup : (listedIds s.proxy.connections).Nodup :=
    (List.nodup_append.mp (h.perm.nodup_iff.mpr h.nodup)).1
  have : Std.Symm (Function.onFun List.Disjoint QmiProxyConnection.clients) :=
    ⟨fun _ _ hdisjoint _ ha hb ↦ hdisjoint hb ha⟩
  by_contra hne
  have hdisjoint := (List.nodup_flatMap.mp hnodup).2.forall hcon' hcon hne
  exact hdisjoint hmem' hmem

/-- The accounts account for the ids. -/
theorem Accounts.accounted {s : ProxySys} (haccounts : Accounts s) : IdsAccounted s := by
  constructor
  · intro client hclient
    rcases List.mem_append.mp (haccounts.perm.symm.subset hclient) with hlisted | hown
    · exact .inl (haccounts.listedOnce hlisted)
    · obtain ⟨msg, hmsg, heq⟩ := List.mem_filterMap.mp hown
      obtain ⟨hissuer, hreq⟩ : msg.issuer = none ∧ reqClient msg.qmi = client := by
        simpa using heq
      obtain ⟨c, hc⟩ := haccounts.own msg hmsg hissuer
      exact .inr ⟨msg, .inl hmsg, by simp [hc], hreq⟩
  · intro con hcon client hclient
    refine haccounts.perm.subset (List.mem_append_left _ ?_)
    exact List.mem_flatMap.mpr ⟨con, hcon, hclient⟩

/-- In every run in which clients release only their own ids, no client disconnects with
a request in flight or with several requests queued, the device grants releases and
takes no id back unasked, and `qmi_proxy_init` gets no answer while a request is in the queue, each
allocated id is in the list of exactly one connection or is being released, and each listed id is
allocated. -/
theorem ids_accounted {serverFd : ℕ} {owed : List UInt8} {s : SyncedSys}
    (h : (syncedSystem serverFd owed).Reach (SyncGuard IdGuard) s) : IdsAccounted s.sys := by
  have haccounts := (accounts_of_reach (proxyReach_of_synced h)).2
  exact haccounts.accounted

/-- A client gets an id and disconnects, before the second `QMICTL_SYNC_REQ` is answered. -/
def getAndLeave : List SyncedStep :=
  let asked : QmiProxyMsg := { qnode := 1, issuer := some 0, clientFd := 5, qmi := getReq 1 1 }
  [.proxy ⟨.accept 5 true, true⟩, .proxy ⟨.client 5 (getReq 1 1), true⟩,
    .proxy ⟨.response asked (getResp 1 ⟨1, 7⟩), true⟩, .sync 2 (syncResp 2) true,
    .proxy ⟨.disconnect 5, true⟩]

/-- The state after `getAndLeave`. -/
def releasingSys : SyncedSys := (syncedSystem 4 [2]).exec (syncedSystem 4 [2]).init getAndLeave

theorem releasingSys_accounted :
    releasingSys.sys.allocated = [⟨1, 7⟩] ∧ releasingSys.sys.proxy.connections = [] ∧
      IdsAccounted releasingSys.sys := by
  have hreach : (syncedSystem 4 [2]).Reach (SyncGuard IdGuard) releasingSys :=
    System.Reach.init.exec (by decide)
  exact ⟨by decide, by decide, ids_accounted hreach⟩

/-- A client asks for an id and disconnects before it gets it. -/
def leaveBeforeGet : List ProxyStep :=
  let asked : QmiProxyMsg := { qnode := 1, issuer := some 0, clientFd := 5, qmi := getReq 1 1 }
  [⟨.accept 5 true, true⟩, ⟨.client 5 (getReq 1 1), true⟩, ⟨.disconnect 5, true⟩,
    ⟨.response asked (getResp 1 ⟨1, 7⟩), true⟩]

/-- The state after `leaveBeforeGet`. -/
def leakedSys : SyncedSys :=
  (syncedSystem 4 []).exec (syncedSystem 4 []).init (leaveBeforeGet.map .proxy)

/-- The id given to a client that has disconnected is known to nobody. -/
theorem id_leaked :
    ¬ ∀ s, (syncedSystem 4 []).Reach (SyncGuard fun _ step ↦ step.writable = true) s →
      IdsAccounted s.sys := by
  intro h
  have hreach : (syncedSystem 4 []).Reach (SyncGuard fun _ step ↦ step.writable = true)
      leakedSys := System.Reach.init.exec (by decide)
  have hcons : ∀ con, con ∉ leakedSys.sys.proxy.connections :=
    List.eq_nil_iff_forall_not_mem.mp (by decide)
  have hqueue : ∀ msg, msg ∉ leakedSys.sys.proxy.ctlMsg :=
    List.eq_nil_iff_forall_not_mem.mp (by decide)
  have hwritten : ∀ msg ∈ leakedSys.sys.proxy.wdmCtl,
      qmiCtlType msg.qmi ≠ qmiCtlReleaseClientId := by
    decide
  rcases (h _ hreach).no_leak ⟨1, 7⟩ (by decide) with ⟨con, hcon, -⟩ | ⟨msg, hmsg, hrel, -⟩
  · exact hcons con hcon
  · rcases hmsg with hmsg | hmsg
    · exact hqueue msg hmsg
    · exact hwritten msg hmsg.1 hrel

end Wwan.QmiProxy
