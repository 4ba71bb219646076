import Wwan.QmiProxy.Steps

/-!
# Where CTL responses go

A response is compared with the head of the queue by transaction id and type, both
of which clients may share, and then goes to the connections with the descriptor of
that request. It reaches the client that asked if the head is the request it
answers, and if the descriptor still stands for the connection that issued it.

Two kinds of step destroy this. The disconnect of the client whose request is in
flight moves another request to the head before the response has come. And since a
disconnect removes one request of the client only, others may stay behind with a
descriptor that `accept` gives to somebody else. Under a guard against both, only
the head is in flight (`StopAndWait.Single`) and a descriptor in the queue leads to
the issuer (`Owned`).
-/

namespace Wwan.QmiProxy

open StopAndWait

/-- The step does not close the connection whose request is in flight, nor open one
with the descriptor of a queued request. -/
def RoutingGuard (s : ProxySys) (step : ProxyStep) : Prop :=
  (∀ head ∈ s.proxy.ctlMsg.head?, step.event ≠ .disconnect head.clientFd) ∧
    ∀ msg ∈ s.proxy.ctlMsg, step.event ≠ .accept msg.clientFd true

instance (s : ProxySys) (step : ProxyStep) : Decidable (RoutingGuard s step) :=
  inferInstanceAs (Decidable (_ ∧ _))

/-! ## The head is the request that is answered -/

/-- Unless the client at the head disconnects, only the head is in flight. -/
theorem single_step {s s' : ProxySys} {e : ProxyEvent} {writable : Bool} (hwf : Wf s.proxy)
    (hguard : ∀ head ∈ s.proxy.ctlMsg.head?, e ≠ .disconnect head.clientFd)
    (h : s.window.Single) (hstep : StepCase s writable e s') : s'.window.Single := by
  have hresponse : ∀ msg qmi, e = .response msg qmi → s'.window.Single := by
    rintro msg qmi rfl
    obtain ⟨hflight, hwindow⟩ := hstep.window_response
    rw [hwindow]
    exact h.answer hflight
  cases hstep with
  | @request l₁ l₂ con qmi _ _ _ _ =>
    rw [Proxy.addCtlMsg_eq]
    change (s.window.push writable [s.proxy.clientMsg con qmi]).Single
    exact h.push
  | @disconnect l₁ l₂ con hcons hsplit hfd =>
    have hcon : con ∈ s.proxy.connections := by simp [hcons]
    refine Single.withdraw h.push fun head hhead ↦ ?_
    have hother : head.clientFd ≠ con.clientFd := fun hown ↦
      hguard head (hwf.head?_of_releases hcon hhead hown) (by rw [hown])
    simpa using hother
  | response | stray => exact hresponse _ _ rfl
  | accept | refuse | data | unsolicited | revoke => exact h

/-! ## The descriptor of a request leads to its issuer -/

/-- A connection with the descriptor of a queued request is the one that issued it. -/
def Owned (p : Proxy) : Prop :=
  ∀ msg ∈ p.ctlMsg, ∀ n, (n, msg.clientFd) ∈ p.ids → msg.issuer = some n

theorem owned_step {s s' : ProxySys} {e : ProxyEvent} {writable : Bool} (hwf : Wf s.proxy)
    (hguard : ∀ msg ∈ s.proxy.ctlMsg, e ≠ .accept msg.clientFd true) (h : Owned s.proxy)
    (hstep : StepCase s writable e s') : Owned s'.proxy := by
  cases hstep with
  | @accept fd hserver hfd =>
    intro msg hmsg n hn
    rw [Proxy.ids, List.map_append, List.mem_append] at hn
    rcases hn with hold | hnew
    · exact h msg hmsg n hold
    · have heq : (n, msg.clientFd) = (s.proxy.fresh, fd) := List.mem_singleton.mp hnew
      exact absurd (by rw [(Prod.mk.inj heq).2]) (hguard msg hmsg)
  | @request l₁ l₂ con qmi _ hcons hsplit hfd =>
    rw [Proxy.addCtlMsg_eq]
    intro msg hmsg n hn
    rcases List.mem_append.mp hmsg with hold | hnew
    · exact h msg hold n hn
    · obtain rfl := List.mem_singleton.mp hnew
      obtain ⟨c, hc, hid⟩ := List.mem_map.mp hn
      obtain ⟨rfl, hcfd⟩ := Prod.mk.inj hid
      have hmem : c ∈ l₁ ++ con :: l₂ := hcons ▸ hc
      have hsame : c = con := by
        by_contra hne
        refine hsplit c ?_ hcfd
        simpa [hne] using hmem
      rw [hsame]
      rfl
  | @disconnect l₁ l₂ con hcons hsplit hfd =>
    have hsub : ∀ c ∈ (l₁ ++ l₂).map QmiProxyConnection.id, c ∈ s.proxy.ids := by
      rw [Proxy.ids, hcons]
      exact (((List.sublist_cons_self con l₂).append_left l₁).map _).subset
    intro msg hmsg n hn
    rcases List.mem_append.mp (List.mem_of_mem_eraseP hmsg) with hold | hnew
    · exact h msg hold n (hsub _ hn)
    · have hserver := (Proxy.mem_releaseMsgs hnew).2.2.2
      exact absurd hserver (hwf.ids_ne_server _ (hsub _ hn))
  | @response msg head rest qmi hflight hanswers hget hqueue =>
    obtain ⟨-, -, -, hids⟩ := Proxy.matchResp_frame s.proxy head qmi
    intro msg hmsg n hn
    have hold : (n, msg.clientFd) ∈ s.proxy.ids := hids ▸ hn
    exact h msg (by simpa [hqueue] using .inr hmsg) n hold
  | refuse | data | stray | unsolicited | revoke => exact h

/-! ## Responses reach the client that asked -/

/-- The run lemma of the two invariants. -/
theorem routing_of_reach {serverFd : ℕ} {s : ProxySys}
    (h : (proxySystem serverFd).Reach RoutingGuard s) : s.window.Single ∧ Owned s.proxy := by
  induction h with
  | init => exact ⟨nofun, nofun⟩
  | @step s step hs he hg ih =>
    have hwf := wf_of_reach hs
    have hstep := proxyNext_case hwf he step.writable
    exact ⟨single_step hwf hg.1 ih.1 hstep, owned_step hwf hg.2 ih.2 hstep⟩

/-- In the step from `s` to `s'`, messages are sent and client ids are changed only on
the connection that issued the request. -/
structure Routed (s s' : ProxySys) (msg : QmiProxyMsg) : Prop where
  sent : ∃ new, s'.proxy.sent = s.proxy.sent ++ new ∧ ∀ sent ∈ new, msg.issuer = some sent.con
  clients : ∀ con ∈ s'.proxy.connections,
    con ∈ s.proxy.connections ∨ msg.issuer = some con.qnode

/-- A response to a request of the queue is forwarded to the connection that issued it. -/
theorem routed_of_reach {serverFd : ℕ} {s : ProxySys}
    (h : (proxySystem serverFd).Reach RoutingGuard s) (msg : QmiProxyMsg) (qmi : List UInt8)
    (writable : Bool) (he : proxyEnabled s (.response msg qmi)) :
    Routed s (proxyNext s ⟨.response msg qmi, writable⟩) msg := by
  have hwf := wf_of_reach h
  obtain ⟨hsingle, howned⟩ := routing_of_reach h
  have hstep := proxyNext_case hwf he writable
  generalize proxyNext s ⟨.response msg qmi, writable⟩ = s' at hstep
  cases hstep with
  | stray => exact ⟨⟨[], by simp, by simp⟩, fun con hcon ↦ .inl hcon⟩
  | @response _ head rest _ hflight _ _ hqueue =>
    -- The request that is answered is in flight, so it is the head.
    obtain rfl : head = msg := by simpa [ProxySys.window, hqueue] using hsingle msg hflight
    have hissuer : ∀ con ∈ s.proxy.connections, con.clientFd = head.clientFd →
        head.issuer = some con.qnode := fun con hcon hfd ↦
      howned head (by simp [hqueue]) con.qnode (hfd ▸ List.mem_map_of_mem hcon)
    rcases Proxy.matchResp_cases s.proxy head qmi with heq | ⟨-, heq⟩
    · simp only [heq]
      exact ⟨⟨[], by simp, by simp⟩, fun con hcon ↦ .inl hcon⟩
    · refine ⟨⟨_, by rw [heq]; rfl, ?_⟩, ?_⟩
      · intro sent hsent
        obtain ⟨con, hcon, rfl⟩ := List.mem_map.mp hsent
        obtain ⟨hmem, hfd⟩ := List.mem_filter.mp hcon
        exact hissuer con hmem (by simpa using hfd)
      · intro con hcon
        simp only [heq, Proxy.forwardResp] at hcon
        obtain ⟨c, hc, rfl⟩ := List.mem_map.mp hcon
        split
        · rename_i hfd
          have hid := congrArg Prod.fst (Proxy.registerResp_id qmi c)
          exact .inr ((hissuer c hc hfd).trans (congrArg some hid.symm))
        · exact .inl hc

/-- In every run in which no client disconnects while its request is in flight, `accept` returns no
descriptor that a queued request carries, and `qmi_proxy_init` gets no answer while a request is in
the queue, a response is forwarded to the connection that issued the request it answers, and a
client id is registered there and nowhere else. -/
theorem response_routed {serverFd : ℕ} {owed : List UInt8} {s : SyncedSys}
    (h : (syncedSystem serverFd owed).Reach (SyncGuard RoutingGuard) s) (step : SyncedStep)
    (he : (syncedSystem serverFd owed).enabled s step) (hg : SyncGuard RoutingGuard s step)
    (msg : QmiProxyMsg) (hmsg : step.answered = some msg) :
    Routed s.sys ((syncedSystem serverFd owed).next s step).sys msg := by
  have hreach := proxyReach_of_synced h
  cases step with
  | proxy step =>
    obtain ⟨e, writable⟩ := step
    cases e with
    | response msg' qmi =>
      obtain rfl := Option.some.inj hmsg
      exact routed_of_reach hreach msg' qmi writable he
    | accept | client | disconnect | unsolicited | revoke => cases hmsg
  | sync tid qmi writable =>
    have heq := sync_eq (wf_of_reach hreach) writable he.2 hg
    dsimp only [syncedSystem]
    rw [heq]
    exact ⟨⟨[], (List.append_nil _).symm, fun _ h ↦ nomatch h⟩, fun con hcon ↦ .inl hcon⟩

/-- The second `QMICTL_SYNC_REQ` is answered, and then a client connects and asks for an id. -/
def oneRequest : List SyncedStep :=
  [.sync 2 (syncResp 2) true, .proxy ⟨.accept 5 true, true⟩,
    .proxy ⟨.client 5 (getReq 1 1), true⟩]

/-- The state after `oneRequest`. -/
def askedSys : SyncedSys := (syncedSystem 4 [2]).exec (syncedSystem 4 [2]).init oneRequest

/-- The request in it. -/
def askedMsg : QmiProxyMsg := { qnode := 1, issuer := some 0, clientFd := 5, qmi := getReq 1 1 }

/-- The answer to it. -/
def askedStep : SyncedStep := .proxy ⟨.response askedMsg (getResp 1 ⟨1, 7⟩), true⟩

theorem askedSys_routed :
    ((syncedSystem 4 [2]).next askedSys askedStep).sys.proxy.connections =
        [⟨0, 5, [⟨1, 7⟩]⟩] ∧
      Routed askedSys.sys ((syncedSystem 4 [2]).next askedSys askedStep).sys askedMsg := by
  have hreach : (syncedSystem 4 [2]).Reach (SyncGuard RoutingGuard) askedSys :=
    System.Reach.init.exec (by decide)
  exact ⟨by decide, response_routed hreach askedStep (by decide) (by decide) askedMsg rfl⟩

/-- Two clients use the same transaction id; the first disconnects while its request is
in flight. -/
def abandonedRequest : List ProxyStep :=
  [⟨.accept 5 true, true⟩, ⟨.accept 6 true, true⟩, ⟨.client 5 (getReq 1 1), true⟩,
    ⟨.client 6 (getReq 1 1), true⟩, ⟨.disconnect 5, true⟩]

/-- The state after `abandonedRequest`. -/
def abandonedSys : SyncedSys :=
  (syncedSystem 4 []).exec (syncedSystem 4 []).init (abandonedRequest.map .proxy)

/-- The response to the first client's request goes to the second. -/
theorem response_misrouted :
    ¬ ∀ s, (syncedSystem 4 []).Reach (SyncGuard fun _ step ↦ step.writable = true) s →
      ∀ step msg, (syncedSystem 4 []).enabled s step → step.answered = some msg →
        Routed s.sys ((syncedSystem 4 []).next s step).sys msg := by
  intro h
  have hreach : (syncedSystem 4 []).Reach (SyncGuard fun _ step ↦ step.writable = true)
      abandonedSys := System.Reach.init.exec (by decide)
  have hclients := (h _ hreach
    (.proxy ⟨.response { qnode := 2, issuer := some 0, clientFd := 5, qmi := getReq 1 1 }
      (getResp 1 ⟨1, 7⟩), true⟩) _ (by decide) rfl).clients ⟨1, 6, [⟨1, 7⟩]⟩ (by decide)
  exact absurd hclients (by decide)

end Wwan.QmiProxy
