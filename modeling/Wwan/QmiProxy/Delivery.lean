import Wwan.QmiProxy.ClientIds

/-!
# Service messages go to the connections that own a client

A service message of the device is for one client id of its service, or for all of them. The
loop of `recv_qmi_from_dev` goes over the client ids of every connection and sends the message for
each one that fits, so a connection gets the message as often as it has ids that fit.
-/

namespace Wwan.QmiProxy

open Proxy

/-! ## What is sent on a connection -/

/-- The message is for the client id. -/
def QmiProxyClient.Fits (client : QmiProxyClient) (qmi : List UInt8) : Prop :=
  hdrQmiType qmi = client.qmiType ∧ (hdrClientId qmi = 0 ∨ hdrClientId qmi = client.clientId)

instance (client : QmiProxyClient) (qmi : List UInt8) : Decidable (client.Fits qmi) :=
  inferInstanceAs (Decidable (_ ∧ (_ ∨ _)))

/-- The connection owns a client id that the message is for. -/
def QmiProxyConnection.Owns (con : QmiProxyConnection) (qmi : List UInt8) : Prop :=
  ∃ client ∈ con.clients, client.Fits qmi

instance (con : QmiProxyConnection) (qmi : List UInt8) : Decidable (con.Owns qmi) :=
  inferInstanceAs (Decidable (∃ client ∈ con.clients, client.Fits qmi))

/-- The message was sent once on each connection that owns a client id it is for, on the descriptor
of the connection, and nothing else was sent. -/
def DeliveredOnce (p p' : Proxy) (qmi : List UInt8) : Prop :=
  ∃ sent, p'.sent = p.sent ++ sent ∧
    (∀ d ∈ sent, ∃ con ∈ p.connections, d = ⟨con.qnode, con.clientFd, qmi⟩) ∧
      ∀ con ∈ p.connections,
        (sent.countP fun d ↦ d.con = con.qnode) = if con.Owns qmi then 1 else 0

/-- No connection has two client ids that the message is for. -/
def OneFits (p : Proxy) (qmi : List UInt8) : Prop :=
  ∀ con ∈ p.connections,
    con.clients.Pairwise fun client client' ↦ ¬ (client.Fits qmi ∧ client'.Fits qmi)

instance (p : Proxy) (qmi : List UInt8) : Decidable (OneFits p qmi) :=
  inferInstanceAs (Decidable (∀ con ∈ p.connections,
    con.clients.Pairwise fun client client' ↦ ¬ (client.Fits qmi ∧ client'.Fits qmi)))

/-- What the inner loop sends. -/
def QmiProxyConnection.deliveries (con : QmiProxyConnection) (qmi : List UInt8) : List Delivery :=
  (con.clients.filter fun client ↦ client.Fits qmi).map fun _ ↦ ⟨con.qnode, con.clientFd, qmi⟩

section Count

variable {con : QmiProxyConnection} {qmi : List UInt8}

theorem mem_deliveries {d : Delivery} (hd : d ∈ con.deliveries qmi) :
    d = ⟨con.qnode, con.clientFd, qmi⟩ := by
  obtain ⟨_, _, rfl⟩ := List.mem_map.mp hd
  rfl

theorem countP_deliveries_self :
    ((con.deliveries qmi).countP fun d ↦ d.con = con.qnode) =
      con.clients.countP fun client ↦ client.Fits qmi := by
  rw [List.countP_eq_length.mpr, QmiProxyConnection.deliveries, List.length_map,
    List.countP_eq_length_filter]
  intro d hd
  rw [mem_deliveries hd]
  exact decide_eq_true rfl

theorem countP_deliveries_of_ne {n : ℕ} (hne : con.qnode ≠ n) :
    ((con.deliveries qmi).countP fun d ↦ d.con = n) = 0 := by
  rw [List.countP_eq_zero]
  intro d hd
  rw [mem_deliveries hd]
  exact fun h ↦ hne (of_decide_eq_true h)

/-- A connection gets the message as often as it has client ids that fit. -/
theorem countP_flatMap_deliveries {cons : List QmiProxyConnection}
    (hnodup : (cons.map QmiProxyConnection.qnode).Nodup) (hcon : con ∈ cons) :
    ((cons.flatMap fun con ↦ con.deliveries qmi).countP fun d ↦ d.con = con.qnode) =
      con.clients.countP fun client ↦ client.Fits qmi := by
  induction cons with
  | nil => cases hcon
  | cons con' cons ih =>
    rw [List.map_cons, List.nodup_cons] at hnodup
    rw [List.flatMap_cons, List.countP_append]
    rcases List.mem_cons.mp hcon with rfl | hmem
    · rw [countP_deliveries_self, Nat.add_eq_left, List.countP_eq_zero]
      intro d hd
      obtain ⟨c, hc, hd⟩ := List.mem_flatMap.mp hd
      rw [mem_deliveries hd]
      intro heq
      exact hnodup.1 (of_decide_eq_true heq ▸ List.mem_map_of_mem hc)
    · have hne : con'.qnode ≠ con.qnode := by
        intro heq
        exact hnodup.1 (heq ▸ List.mem_map_of_mem hmem)
      rw [countP_deliveries_of_ne hne, ih hnodup.2 hmem, Nat.zero_add]

end Count

/-- There is one that fits if there is any, if and only if no two do. -/
theorem countP_eq_ite_iff {α : Type*} {p : α → Prop} [DecidablePred p] {l : List α} :
    (l.countP fun a ↦ p a) = (if ∃ a ∈ l, p a then 1 else 0) ↔
      l.Pairwise fun a b ↦ ¬ (p a ∧ p b) := by
  induction l with
  | nil => simp
  | cons a l ih =>
    rw [List.countP_cons, List.pairwise_cons]
    by_cases ha : p a
    · have hexists : ∃ b ∈ a :: l, p b := ⟨a, List.mem_cons_self, ha⟩
      rw [if_pos hexists, if_pos (decide_eq_true ha), Nat.add_eq_right, List.countP_eq_zero]
      constructor
      · intro hnone
        refine ⟨fun b hb hboth ↦ hnone b hb (decide_eq_true hboth.2), ?_⟩
        refine List.Pairwise.imp_of_mem (R := fun _ _ ↦ True) ?_ (List.pairwise_of_forall ?_)
        · exact fun hb _ _ hboth ↦ hnone _ hb (decide_eq_true hboth.1)
        · exact fun _ _ ↦ trivial
      · intro hpair b hb hpb
        exact hpair.1 b hb ⟨ha, of_decide_eq_true hpb⟩
    · have hiff : (∃ b ∈ a :: l, p b) ↔ ∃ b ∈ l, p b := by simp [ha]
      rw [if_neg (fun h ↦ ha (of_decide_eq_true h)), Nat.add_zero]
      simp only [hiff]
      rw [ih]
      exact ⟨fun h ↦ ⟨fun _ _ hboth ↦ ha hboth.1, h⟩, fun h ↦ h.2⟩

/-! ## Delivery -/

section Delivery

variable {p : Proxy} {qmi : List UInt8}

/-- What `recv_qmi_from_dev` sends of a service message. -/
theorem sent_recvQmiFromDev (writable : Bool) (hserver : p.serverFd ≠ -1)
    (hdata : hdrQmiType qmi ≠ qmuxTypeCtl) :
    (p.recvQmiFromDev writable qmi).sent =
      p.sent ++ p.connections.flatMap fun con ↦ con.deliveries qmi := by
  unfold recvQmiFromDev
  rw [if_neg hserver, if_neg hdata]
  rfl

theorem OneFits.delivered (hone : OneFits p qmi) (writable : Bool) (hserver : p.serverFd ≠ -1)
    (hnodes : (p.connections.map QmiProxyConnection.qnode).Nodup)
    (hdata : hdrQmiType qmi ≠ qmuxTypeCtl) :
    DeliveredOnce p (p.recvQmiFromDev writable qmi) qmi := by
  refine ⟨_, sent_recvQmiFromDev writable hserver hdata, ?_, ?_⟩
  · intro d hd
    obtain ⟨con, hcon, hd⟩ := List.mem_flatMap.mp hd
    exact ⟨con, hcon, mem_deliveries hd⟩
  · intro con hcon
    rw [countP_flatMap_deliveries hnodes hcon]
    exact countP_eq_ite_iff.mpr (hone con hcon)

/-- A service message is sent once on each connection that owns a client id it is for, and on no
other, if and only if no connection owns two such client ids. -/
theorem delivered_once_iff (writable : Bool) (hserver : p.serverFd ≠ -1)
    (hnodes : (p.connections.map QmiProxyConnection.qnode).Nodup)
    (hdata : hdrQmiType qmi ≠ qmuxTypeCtl) :
    DeliveredOnce p (p.recvQmiFromDev writable qmi) qmi ↔ OneFits p qmi := by
  constructor
  · rintro ⟨sent, heq, -, hcount⟩ con hcon
    have hsame : sent = p.connections.flatMap fun con ↦ con.deliveries qmi :=
      List.append_cancel_left (heq.symm.trans (sent_recvQmiFromDev writable hserver hdata))
    have honce := hcount con hcon
    rw [hsame, countP_flatMap_deliveries hnodes hcon] at honce
    exact countP_eq_ite_iff.mp honce
  · exact fun hone ↦ hone.delivered writable hserver hnodes hdata

/-- Two connections with a client id of service 1 each. -/
def twoOwners : Proxy :=
  { serverFd := 4
    connections := [⟨0, 5, [⟨1, 7⟩, ⟨2, 7⟩]⟩, ⟨1, 6, [⟨1, 8⟩]⟩]
    ctlMsg := [], qmiSyncDone := true, modemResetFlag := false, fresh := 2
    wdmCtl := [], wdmData := [], sent := [] }

/-- A message to all client ids of service 1 is sent once on both connections. -/
theorem twoOwners_delivered :
    DeliveredOnce twoOwners (twoOwners.recvQmiFromDev true [1, 5, 0, 0x80, 1, 0])
      [1, 5, 0, 0x80, 1, 0] :=
  (delivered_once_iff true (by decide) (by decide) (by decide)).mpr (by decide)

/-- A connection with two client ids of the service gets the message twice. -/
theorem broadcast_delivered_twice :
    ¬ ∀ (p : Proxy) (qmi : List UInt8), p.serverFd ≠ -1 →
      (p.connections.map QmiProxyConnection.qnode).Nodup → hdrQmiType qmi ≠ qmuxTypeCtl →
        DeliveredOnce p (p.recvQmiFromDev true qmi) qmi := by
  intro h
  obtain ⟨sent, hsent, -, hcount⟩ :=
    h { twoOwners with connections := [⟨0, 5, [⟨1, 7⟩, ⟨1, 8⟩]⟩] } [1, 5, 0, 0x80, 1, 0]
      (by decide) (by decide) (by decide)
  rw [twoOwners, List.nil_append] at hsent
  subst hsent
  exact absurd (hcount ⟨0, 5, [⟨1, 7⟩, ⟨1, 8⟩]⟩ (by decide)) (by decide)

end Delivery

end Wwan.QmiProxy
