import Wwan.QmiProxy.Steps

/-!
# One CTL request at a time

The head of `qmi_proxy_ctl_msg`, and only the head, is meant to be with the device, and
every request is meant to be written exactly once. `cleanup_qmi_connection` breaks
this: it removes a request of the client from the queue even if it is the one in
flight, and then nobody writes the request that takes its place.

The guard excludes exactly this disconnect, and writes that fail. Under it the
queue is `Serial`: each event is an operation of stop and wait that keeps this.
-/

namespace Wwan.QmiProxy

open StopAndWait

/-- The step is harmless to the queue: what it writes arrives, and it is no disconnect of
the client whose request is in flight, unless nothing is left in the queue then. -/
def SerialGuard (s : ProxySys) (step : ProxyStep) : Prop :=
  step.writable = true ∧
    ∀ con ∈ s.proxy.connections, step.event = .disconnect con.clientFd →
      ∀ head ∈ s.proxy.ctlMsg.head?, head.clientFd = con.clientFd →
        s.proxy.ctlMsg.tail = [] ∧ con.clients = []

instance (s : ProxySys) (step : ProxyStep) : Decidable (SerialGuard s step) :=
  inferInstanceAs (Decidable (_ ∧ _))

/-- A step of the proxy under the guard is a step of stop and wait. -/
theorem serial_step {s s' : ProxySys} {e : ProxyEvent} (hwf : Wf s.proxy)
    (hguard : SerialGuard s ⟨e, true⟩) (h : s.window.Serial) (hstep : StepCase s true e s') :
    s'.window.Serial := by
  have hold : ∀ msg : QmiProxyMsg, s.proxy.fresh ≤ msg.qnode →
      msg ∉ s.proxy.ctlMsg ∧ msg ∉ s.proxy.wdmCtl := fun msg hle ↦
    ⟨fun hmem ↦ absurd (hwf.msgs msg hmem).qnode_lt (Nat.not_lt.mpr hle),
      fun hmem ↦ absurd (hwf.written_lt msg hmem) (Nat.not_lt.mpr hle)⟩
  have hresponse : ∀ msg qmi, e = .response msg qmi → s'.window.Serial := by
    rintro msg qmi rfl
    obtain ⟨hflight, hwindow⟩ := hstep.window_response
    rw [hwindow]
    exact h.answer hflight.1
  cases hstep with
  | request =>
    rw [Proxy.addCtlMsg_eq]
    refine h.push (List.nodup_singleton _) ?_ ?_
    · intro msg hmsg
      obtain rfl := List.mem_singleton.mp hmsg
      exact (hold _ (Nat.le_refl _)).1
    · intro msg hmsg
      obtain rfl := List.mem_singleton.mp hmsg
      exact (hold _ (Nat.le_refl _)).2
  | @disconnect l₁ l₂ con hcons hsplit hfd =>
    have hcon : con ∈ s.proxy.connections := by simp [hcons]
    have hpush := h.push (Proxy.nodup_releaseMsgs s.proxy.serverFd s.proxy.fresh con.clients)
      (fun msg hmsg ↦ (hold msg (Proxy.mem_releaseMsgs hmsg).1).1)
      fun msg hmsg ↦ (hold msg (Proxy.mem_releaseMsgs hmsg).1).2
    refine hpush.withdraw fun head hhead ↦ ?_
    by_cases hown : head.clientFd = con.clientFd
    · -- The request in flight is withdrawn; the guard says that nothing else is queued.
      have hold := hwf.head?_of_releases hcon hhead hown
      obtain ⟨htail, hclients⟩ := hguard.2 con hcon rfl head hold hown
      exact .inr (by simpa [push, ProxySys.window, hclients, Proxy.releaseMsgs] using htail)
    · exact .inl (by simpa using hown)
  | response | stray => exact hresponse _ _ rfl
  | accept | refuse | data | unsolicited | revoke => exact h

/-- The run lemma of the queue. -/
theorem serial_of_reach {serverFd : ℕ} {s : ProxySys}
    (h : (proxySystem serverFd).Reach SerialGuard s) : s.window.Serial := by
  induction h with
  | init => exact ⟨nofun, nofun, List.nodup_nil, List.nodup_nil, nofun⟩
  | @step s step hs he hg ih =>
    obtain ⟨e, writable⟩ := step
    have hwf := wf_of_reach hs
    obtain rfl : writable = true := hg.1
    exact serial_step hwf hg ih (proxyNext_case hwf he true)

/-- The head of the queue, and nothing else of it, has been written to the device and is
waiting for its response, and nothing was written twice. -/
structure CtlSerialised (s : ProxySys) : Prop where
  head : ∀ head rest, s.proxy.ctlMsg = head :: rest →
    InFlight s head ∧ ∀ msg ∈ rest, msg ∉ s.proxy.wdmCtl
  once : s.proxy.wdmCtl.Nodup

/-- A request that leaves the queue in this step has been written exactly once, unless
it is a client's that is no longer connected. -/
def LeavesWritten (s : ProxySys) (step : ProxyStep) : Prop :=
  ∀ msg ∈ s.proxy.ctlMsg, msg ∉ (proxyNext s step).proxy.ctlMsg →
    (∀ n, msg.issuer = some n →
      ∃ con ∈ (proxyNext s step).proxy.connections, con.qnode = n) →
    s.proxy.wdmCtl.count msg = 1

/-- What a disconnect takes out of the queue is a request of the client that
disconnects. -/
theorem not_connected_of_withdrawn {s : ProxySys} (hwf : Wf s.proxy)
    {l₁ l₂ : List QmiProxyConnection} {con : QmiProxyConnection}
    (hcons : s.proxy.connections = l₁ ++ con :: l₂)
    (hsplit : ∀ c ∈ l₁ ++ l₂, c.clientFd ≠ con.clientFd) {msg : QmiProxyMsg}
    (hmsg : msg ∈ s.proxy.ctlMsg) (hfd : msg.clientFd = con.clientFd) :
    ∃ n, msg.issuer = some n ∧ ∀ c ∈ l₁ ++ l₂, c.qnode ≠ n := by
  have hne : con.clientFd ≠ s.proxy.serverFd :=
    hwf.ids_ne_server _ (List.mem_map_of_mem (by simp [hcons]))
  cases hissuer : msg.issuer with
  | none => exact absurd ((hwf.msgs msg hmsg).own hissuer) (hfd ▸ hne)
  | some n =>
    refine ⟨n, rfl, fun c hc hn ↦ hsplit c hc ?_⟩
    have hmem : c ∈ s.proxy.connections := by
      rw [hcons]
      rcases List.mem_append.mp hc with hc | hc <;> simp [hc]
    have hid : (n, c.clientFd) ∈ s.proxy.ids := hn ▸ List.mem_map_of_mem hmem
    rw [← hfd]
    exact (hwf.msgs msg hmsg).issuer_fd n _ hissuer hid

/-- In every run in which writes to the device succeed and no client disconnects while
its request is in flight and others wait, the head of the queue and nothing else is
with the device, and a request leaves the queue only after it was written exactly
once. -/
theorem ctl_serialised {serverFd : ℕ} {s : ProxySys}
    (h : (proxySystem serverFd).Reach SerialGuard s) :
    CtlSerialised s ∧ ∀ step, proxyEnabled s step.event → SerialGuard s step →
      LeavesWritten s step := by
  have hwf := wf_of_reach h
  have hserial := serial_of_reach h
  refine ⟨⟨fun head rest hqueue ↦ ⟨?_, ?_⟩, hserial.written_nodup⟩, ?_⟩
  · exact hserial.head head (by simp [ProxySys.window, hqueue])
  · exact fun msg hmsg ↦ hserial.tail msg (by simp [ProxySys.window, hqueue, hmsg])
  · rintro ⟨e, writable⟩ he - msg hmsg hgone hissuer
    have hstep := proxyNext_case hwf he writable
    generalize proxyNext s ⟨e, writable⟩ = s' at hstep hgone hissuer
    cases hstep with
    | request =>
      rw [Proxy.addCtlMsg_eq] at hgone
      exact absurd (List.mem_append_left _ hmsg) hgone
    | @disconnect l₁ l₂ con hcons hsplit hfd =>
      -- Only requests of the client that is gone are withdrawn.
      have hown : msg.clientFd = con.clientFd := by
        by_contra hne
        refine hgone ((List.mem_eraseP_of_neg (by simpa using hne)).mpr ?_)
        exact List.mem_append_left _ hmsg
      obtain ⟨n, hn, hnone⟩ := not_connected_of_withdrawn hwf hcons hsplit hmsg hown
      obtain ⟨c, hc, hcn⟩ := hissuer n hn
      exact absurd hcn (hnone c hc)
    | @response msg' head rest qmi hflight hanswers hget hqueue =>
      have hhead : msg = head := by
        rcases List.mem_cons.mp (hqueue ▸ hmsg) with heq | hrest
        · exact heq
        · exact absurd hrest hgone
      have hin := hserial.head head (by simp [ProxySys.window, hqueue])
      exact hhead ▸ List.count_eq_one_of_mem hserial.written_nodup hin.1
    | accept | refuse | data | stray | unsolicited | revoke => exact absurd hmsg hgone

/-- Two clients connect and each asks for an id. -/
def twoRequests : List ProxyStep :=
  [⟨.accept 5 true, true⟩, ⟨.accept 6 true, true⟩, ⟨.client 5 (getReq 1 1), true⟩,
    ⟨.client 6 (getReq 2 1), true⟩]

/-- The state after `twoRequests`. -/
def waitingSys : ProxySys := (proxySystem 4).exec (proxySystem 4).init twoRequests

theorem waitingSys_serialised :
    waitingSys.proxy.ctlMsg.length = 2 ∧ CtlSerialised waitingSys := by
  have hreach : (proxySystem 4).Reach SerialGuard waitingSys :=
    System.Reach.init.exec (by decide)
  exact ⟨by decide, (ctl_serialised hreach).1⟩

/-- The state after the first client has left as well. -/
def orphanedSys : ProxySys :=
  (proxySystem 4).exec (proxySystem 4).init (twoRequests ++ [⟨.disconnect 5, true⟩])

/-- When the first of two clients with a request disconnects, the request of the second
comes to the head of the queue without being written. -/
theorem ctl_not_serialised :
    ¬ ∀ s, (proxySystem 4).Reach (fun _ step ↦ step.writable = true) s → CtlSerialised s := by
  intro h
  have hreach : (proxySystem 4).Reach (fun _ step ↦ step.writable = true) orphanedSys :=
    System.Reach.init.exec (by decide)
  obtain ⟨hflight, -⟩ := (h _ hreach).head
    { qnode := 3, issuer := some 1, clientFd := 6, qmi := getReq 2 1 } [] (by decide)
  exact absurd hflight (by decide)

end Wwan.QmiProxy
