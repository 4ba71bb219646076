import Wwan.QrtrProxy.Proxy

/-!
# The ids of `quectel-qrtr-proxy`

Client ids and ports are taken from two arrays of different sizes. While a client id is free, a
port is free too, and both arrays say what is in use. When none is free the request fails, but the
entry with client id zero stays and has a port, which the client cannot tell from a success's.
-/

namespace Wwan.QrtrProxy

open Wwan.Bytes
open Wwan.QmiProxy (qmiByte qmiShort hdrLength hdrQmiType hdrClientId transactionId qmiCtlType
  qmuxTypeCtl qmiCtlFlagRsp qmiCtlGetClientId qmiCtlReleaseClientId qmiCtlSyncReq respOk)

namespace Proxy

/-- The live `QRTR_PROXY_CLINET` entries. -/
def clients (p : Proxy) : List QrtrProxyClient := p.qrtr_proxy_connection.flatMap (·.client_qnode)

/-- Ids and ports are unique, and the arrays say which are in use. -/
structure Consistent (p : Proxy) : Prop where
  ports : (p.clients.map (·.port_id)).Nodup
  clientIds : (p.clients.map (·.ClientId)).Nodup
  nonzero : ∀ client ∈ p.clients, client.ClientId ≠ 0
  client_bitmap : ∀ id,
    IdCells.Marked p.client_bitmap id ↔ ∃ client ∈ p.clients, client.ClientId.toNat = id
  port_bitmap : ∀ id,
    IdCells.Marked p.port_bitmap id ↔ ∃ client ∈ p.clients, client.port_id.toNat = id

/-- What is to hold of a step. -/
structure StepConsistent (p : Proxy) (e : ProxyEvent) : Prop where
  consistent : (p.step e).1.Consistent
  /-- A failure leaves no entry behind. -/
  failure : ∀ fd rsp, .toClient fd rsp ∈ (p.step e).2 → qmiCtlType rsp = qmiCtlGetClientId →
    ¬respOk rsp → (p.step e).1.clients = p.clients
  /-- Without connections nothing is in use. -/
  disconnected : (p.step e).1.qrtr_proxy_connection = [] → ∀ id,
    ¬IdCells.Marked (p.step e).1.client_bitmap id ∧ ¬IdCells.Marked (p.step e).1.port_bitmap id

/-- A connected client asks for an id of a known service, and there is memory for the response. -/
def Allocates (p : Proxy) : ProxyEvent → Prop
  | .client clientfd nreads rx_buf malloc =>
    nreads = hdrLength rx_buf + 1 ∧ (p.connection clientfd).isSome ∧
      hdrQmiType rx_buf = qmuxTypeCtl ∧ qmiCtlType rx_buf = qmiCtlGetClientId ∧ malloc = true ∧
      (p.findQrtrService (reqQmiType rx_buf)).isSome
  | _ => False

/-- Not all client ids are in use if one is asked for. -/
def Room (p : Proxy) (e : ProxyEvent) : Prop := p.Allocates e → p.clients.length < 239

/-- The arrays say that the ids of these entries are in use. -/
structure Tracked (p : Proxy) (clients : List QrtrProxyClient) : Prop where
  clientIds : IdCells.Tracks p.client_bitmap (clients.map (·.ClientId.toNat))
  ports : IdCells.Tracks p.port_bitmap (clients.map (·.port_id.toNat))
  length_client : p.client_bitmap.length = 0xf0
  length_port : p.port_bitmap.length = 0xff0

end Proxy

/-! ## Entries -/

/-- The item that is found is the one that is erased. -/
theorem exists_split_of_find? {α : Type*} {q : α → Bool} {l : List α} {a : α}
    (h : l.find? q = some a) :
    q a ∧ ∃ before after, l = before ++ a :: after ∧ l.eraseP q = before ++ after ∧
      ∀ b ∈ before, ¬q b := by
  obtain ⟨ha, before, after, rfl, hbefore⟩ := List.find?_eq_some_iff_append.mp h
  have hnot : ∀ b ∈ before, ¬q b := fun b hb ↦ by simpa using hbefore b hb
  refine ⟨ha, before, after, rfl, ?_, hnot⟩
  rw [List.eraseP_append_right _ hnot, List.eraseP_cons_of_pos ha]

namespace Proxy.Tracked

variable {p : Proxy} {clients : List QrtrProxyClient}

theorem perm (h : p.Tracked clients) {clients' : List QrtrProxyClient}
    (hperm : clients.Perm clients') : p.Tracked clients' where
  clientIds := h.clientIds.perm (hperm.map _)
  ports := h.ports.perm (hperm.map _)
  length_client := h.length_client
  length_port := h.length_port

/-- The ids of an entry are freed. -/
theorem free {client : QrtrProxyClient} (h : p.Tracked (client :: clients)) :
    ((p.freeClientId client.ClientId.toNat).freePortId client.port_id.toNat).Tracked clients where
  clientIds := by
    have htracks := h.clientIds.free (List.mem_cons_self)
    rwa [List.map_cons, List.erase_cons_head] at htracks
  ports := by
    have htracks := h.ports.free (List.mem_cons_self)
    rwa [List.map_cons, List.erase_cons_head] at htracks
  length_client := (IdCells.length_free _ _).trans h.length_client
  length_port := (IdCells.length_free _ _).trans h.length_port

/-- The entries have different ids. -/
theorem consistent (h : p.Tracked p.clients) : p.Consistent where
  ports := by
    refine List.Nodup.of_map UInt32.toNat ?_
    rw [List.map_map]
    exact h.ports.nodup
  clientIds := by
    refine List.Nodup.of_map UInt8.toNat ?_
    rw [List.map_map]
    exact h.clientIds.nodup
  nonzero client hclient hzero := by
    have hpos := (h.clientIds.inRange _ (List.mem_map_of_mem hclient)).1
    rw [hzero] at hpos
    exact absurd hpos (by decide)
  client_bitmap id := by
    rw [h.clientIds.marked_iff, List.mem_map]
  port_bitmap id := by
    rw [h.ports.marked_iff, List.mem_map]

/-- The new entry has ids of its own if there is room. -/
theorem alloc (h : p.Tracked clients) (hroom : clients.length < 239) (own : List QrtrProxyClient)
    (QMIType : UInt8) :
    ∃ client p', p.allocQrtrClientId own QMIType = (client.ClientId, p', own ++ [client]) ∧
      client.ClientId ≠ 0 ∧ p'.Tracked (client :: clients) ∧
      p'.qrtr_proxy_connection = p.qrtr_proxy_connection ∧
      p'.qrtr_server_list = p.qrtr_server_list := by
  have hclient := h.length_client
  have hport := h.length_port
  obtain ⟨id, hid, hids⟩ := h.clientIds.alloc (by rw [List.length_map]; omega)
    (by rw [List.length_map]; omega)
  obtain ⟨port, hport, hports⟩ := h.ports.alloc (by rw [List.length_map]; omega)
    (by rw [List.length_map]; omega)
  have hidlt := (hids.inRange id List.mem_cons_self)
  have hportlt := (hports.inRange port List.mem_cons_self)
  have hidtoNat : (UInt8.ofNat id).toNat = id := UInt8.toNat_ofNat_of_lt' hidlt.2.2
  have hporttoNat : (UInt32.ofNat port).toNat = port :=
    UInt32.toNat_ofNat_of_lt' (Nat.lt_trans hportlt.2.2 (by decide))
  refine ⟨⟨QMIType, UInt8.ofNat id, 1, UInt32.ofNat port⟩,
    { p with
      client_bitmap := p.client_bitmap.set id (UInt8.ofNat id)
      port_bitmap := p.port_bitmap.set port (UInt8.ofNat port) },
    ?_, IdCells.ofNat_ne_zero hidlt.1 hidlt.2.2, ⟨?_, ?_, ?_, ?_⟩, ?_, ?_⟩
  · simp only [allocQrtrClientId, allocClientId, allocPortId, hid, hport]
  · simpa only [List.map_cons, hidtoNat] using hids
  · simpa only [List.map_cons, hporttoNat] using hports
  · exact List.length_set.trans h.length_client
  · exact List.length_set.trans h.length_port
  · rfl
  · rfl

/-- If an entry of a connection is released, its ids are freed and it is gone. -/
theorem release {own others : List QrtrProxyClient} (h : p.Tracked (own ++ others))
    (QMIType ClientId : UInt8) :
    ((p.releaseQrtrClientId own QMIType ClientId).1.Tracked
      ((p.releaseQrtrClientId own QMIType ClientId).2.1 ++ others)) := by
  unfold releaseQrtrClientId
  cases hfind : own.find? fun client ↦ Matches QMIType ClientId client with
  | none => exact h
  | some client =>
    obtain ⟨-, before, after, rfl, herase, -⟩ := exists_split_of_find? hfind
    dsimp only
    rw [herase]
    refine (h.perm ?_).free
    rw [List.append_assoc, List.append_assoc]
    exact List.perm_middle

end Proxy.Tracked

namespace Proxy

variable {p : Proxy}

theorem releaseQrtrClientId_connection (p : Proxy) (own : List QrtrProxyClient)
    (QMIType ClientId : UInt8) :
    (p.releaseQrtrClientId own QMIType ClientId).1.qrtr_proxy_connection =
      p.qrtr_proxy_connection := by
  unfold releaseQrtrClientId
  split <;> rfl

/-- The head of the list is what is released. -/
theorem releaseQrtrClientId_head (p : Proxy) (client : QrtrProxyClient)
    (rest : List QrtrProxyClient) :
    (p.releaseQrtrClientId (client :: rest) client.QMIType client.ClientId).2.1 = rest := by
  have hfind : ((client :: rest).find? fun client' ↦
      Matches client.QMIType client.ClientId client') = some client := by
    simp [Matches]
  rw [releaseQrtrClientId, hfind]
  simp [Matches]

theorem releaseClients_connection (p : Proxy) (own : List QrtrProxyClient) :
    (p.releaseClients own).1.qrtr_proxy_connection = p.qrtr_proxy_connection := by
  induction own generalizing p with
  | nil => rfl
  | cons client rest ih => exact (ih _).trans (releaseQrtrClientId_connection ..)

/-- All entries of the connection are released. -/
theorem Tracked.releaseClients {own others : List QrtrProxyClient} (h : p.Tracked (own ++ others)) :
    (p.releaseClients own).1.Tracked others := by
  induction own generalizing p with
  | nil => exact h
  | cons client rest ih =>
    refine ih ?_
    have hrelease := h.release client.QMIType client.ClientId
    rwa [releaseQrtrClientId_head] at hrelease

/-! ## Connections -/

theorem connection_split {clientfd : ℤ} {con : QrtrProxyConnection}
    (h : p.connection clientfd = some con) :
    con.ClientFd = clientfd ∧ ∃ before after, p.qrtr_proxy_connection = before ++ con :: after ∧
      (p.qrtr_proxy_connection.eraseP fun con ↦ con.ClientFd = clientfd) = before ++ after ∧
      ∀ con' ∈ before, con'.ClientFd ≠ clientfd := by
  obtain ⟨hfd, before, after, heq, herase, hbefore⟩ := exists_split_of_find? h
  refine ⟨of_decide_eq_true hfd, before, after, heq, herase, fun con' hcon' ↦ ?_⟩
  simpa using hbefore con' hcon'

theorem setClients_append {clientfd : ℤ} {clients : List QrtrProxyClient}
    {before after : List QrtrProxyConnection} {con : QrtrProxyConnection}
    (hfd : con.ClientFd = clientfd) (hbefore : ∀ con' ∈ before, con'.ClientFd ≠ clientfd) :
    setClients clientfd clients (before ++ con :: after) =
      before ++ { con with client_qnode := clients } :: after := by
  induction before with
  | nil => exact if_pos hfd
  | cons con' before ih =>
    rw [List.cons_append, setClients, if_neg (hbefore con' List.mem_cons_self),
      ih fun con'' hcon'' ↦ hbefore con'' (List.mem_cons_of_mem _ hcon'')]
    rfl

theorem map_setClients (clientfd : ℤ) (clients : List QrtrProxyClient)
    (cons : List QrtrProxyConnection) :
    (setClients clientfd clients cons).map (·.ClientFd) = cons.map (·.ClientFd) := by
  induction cons with
  | nil => rfl
  | cons con cons ih =>
    rw [setClients]
    split
    · rfl
    · rw [List.map_cons, ih, List.map_cons]

/-- The entries of a connection and the others. -/
theorem exists_others {clientfd : ℤ} {con : QrtrProxyConnection}
    (h : p.connection clientfd = some con) :
    ∃ others, p.clients.Perm (con.client_qnode ++ others) ∧
      (∀ clients, ((setClients con.ClientFd clients p.qrtr_proxy_connection).flatMap
        (·.client_qnode)).Perm (clients ++ others)) ∧
      ((p.qrtr_proxy_connection.eraseP fun con ↦ con.ClientFd = clientfd).flatMap
        (·.client_qnode)) = others := by
  obtain ⟨rfl, before, after, heq, herase, hbefore⟩ := connection_split h
  refine ⟨before.flatMap (·.client_qnode) ++ after.flatMap (·.client_qnode), ?_, fun clients ↦ ?_,
    ?_⟩
  · rw [clients, heq, List.flatMap_append, List.flatMap_cons]
    exact List.perm_append_comm_assoc ..
  · rw [heq, setClients_append rfl hbefore, List.flatMap_append, List.flatMap_cons]
    exact List.perm_append_comm_assoc ..
  · rw [herase, List.flatMap_append]

/-! ## Steps -/

/-- A connection that is cleaned up leaves the entries of the others. -/
theorem Tracked.cleanupQrtrConnection (h : p.Tracked p.clients) (clientfd : ℤ) :
    (p.cleanupQrtrConnection clientfd).1.Tracked (p.cleanupQrtrConnection clientfd).1.clients := by
  unfold Proxy.cleanupQrtrConnection
  cases hcon : p.connection clientfd with
  | none => exact h
  | some con =>
    obtain ⟨others, hperm, -, herase⟩ := exists_others hcon
    have hothers := (h.perm hperm).releaseClients
    dsimp only
    rw [clients, releaseClients_connection, herase]
    exact ⟨hothers.clientIds, hothers.ports, hothers.length_client, hothers.length_port⟩

/-- What cleaning up keeps holds at the end of the loop. -/
theorem loopExit_induction {P : Proxy → List Output → Prop} (hp : P p [])
    (hcleanup : ∀ p out clientfd, P p out →
      P (p.cleanupQrtrConnection clientfd).1 (out ++ (p.cleanupQrtrConnection clientfd).2)) :
    P p.loopExit.1 p.loopExit.2 := by
  suffices hfold : ∀ (cons : List QrtrProxyConnection) (r : Proxy × List Output), P r.1 r.2 →
      P (cons.foldl cleanupNext r).1 (cons.foldl cleanupNext r).2 from hfold _ (p, []) hp
  intro cons
  induction cons with
  | nil => exact fun r hr ↦ hr
  | cons con cons ih => exact fun r hr ↦ ih _ (hcleanup _ _ con.ClientFd hr)

theorem Tracked.loopExit (h : p.Tracked p.clients) : p.loopExit.1.Tracked p.loopExit.1.clients :=
  loopExit_induction (P := fun p _ ↦ p.Tracked p.clients) h fun _ _ clientfd hp ↦
    hp.cleanupQrtrConnection clientfd

/-- Packets do not change connections and ids. -/
theorem recvQrtrFromDev_spec (p : Proxy) (hdr : QrtrPacket) (malloc : Bool) :
    ∃ services, (p.recvQrtrFromDev hdr malloc).1 = { p with qrtr_server_list := services } := by
  unfold recvQrtrFromDev
  split
  · exact ⟨_, rfl⟩
  · split
    · unfold handleServerChange
      repeat' split
      all_goals exact ⟨_, rfl⟩
    · split <;> exact ⟨_, rfl⟩

section Connection

variable (h : p.Tracked p.clients) {clientfd : ℤ} {con : QrtrProxyConnection}
variable (hcon : p.connection clientfd = some con) {pQMI : List UInt8}

include h hcon

theorem Tracked.releaseClientId (pQMI : List UInt8) (malloc : Bool) :
    (p.releaseClientId con pQMI malloc).1.Tracked
      (p.releaseClientId con pQMI malloc).1.clients := by
  obtain ⟨others, hperm, hset, -⟩ := exists_others hcon
  have hrelease := (h.perm hperm).release (reqQmiType pQMI) (reqClientId pQMI)
  unfold Proxy.releaseClientId
  dsimp only
  rw [clients, releaseQrtrClientId_connection]
  have htracked := hrelease.perm (hset _).symm
  exact ⟨htracked.clientIds, htracked.ports, htracked.length_client, htracked.length_port⟩

/-- If there is room, an id is given out. -/
theorem Tracked.getClientId_some
    (hfind : (p.findQrtrService (reqQmiType pQMI)).isSome) (hroom : p.clients.length < 239) :
    ∃ client p', p.getClientId con pQMI =
        (p', [.toClient con.ClientFd (getClientIdRsp pQMI client.ClientId)]) ∧
      client.ClientId ≠ 0 ∧ p'.Tracked p'.clients ∧ (client :: p.clients).Perm p'.clients ∧
      p'.qrtr_proxy_connection.map (·.ClientFd) = p.qrtr_proxy_connection.map (·.ClientFd) ∧
      p'.qrtr_server_list = p.qrtr_server_list := by
  obtain ⟨srv, hsrv⟩ := Option.isSome_iff_exists.mp hfind
  obtain ⟨others, hperm, hset, -⟩ := exists_others hcon
  obtain ⟨client, p', halloc, hne, htracked, hconnection, hservers⟩ :=
    h.alloc hroom con.client_qnode (reqQmiType pQMI)
  rw [Proxy.getClientId, hsrv]
  dsimp only
  rw [halloc]
  have hclients : (client :: p.clients).Perm
      ((setClients con.ClientFd (con.client_qnode ++ [client]) p'.qrtr_proxy_connection).flatMap
        (·.client_qnode)) := by
    rw [hconnection]
    refine List.Perm.trans ?_ (hset _).symm
    refine (hperm.cons client).trans ?_
    rw [List.append_assoc]
    exact List.perm_middle.symm
  obtain ⟨hids, hports, hlength, hlength'⟩ := htracked.perm hclients
  refine ⟨client, _, rfl, hne, ⟨hids, hports, hlength, hlength'⟩, hclients, ?_, hservers⟩
  rw [map_setClients, hconnection]

/-- The answer is a success then; without the service nothing changes. -/
theorem Tracked.getClientId
    (hroom : (p.findQrtrService (reqQmiType pQMI)).isSome → p.clients.length < 239) :
    (p.getClientId con pQMI).1.Tracked (p.getClientId con pQMI).1.clients ∧
      (p.getClientId con pQMI = (p, [.toClient con.ClientFd (getClientIdRsp pQMI 0)]) ∨
        ∃ p' ClientId, ClientId ≠ 0 ∧
          p.getClientId con pQMI =
            (p', [.toClient con.ClientFd (getClientIdRsp pQMI ClientId)])) := by
  cases hfind : p.findQrtrService (reqQmiType pQMI) with
  | none =>
    rw [Proxy.getClientId, hfind]
    exact ⟨h, .inl rfl⟩
  | some srv =>
    have hsome : (p.findQrtrService (reqQmiType pQMI)).isSome := by
      rw [hfind]
      rfl
    obtain ⟨client, p', heq, hne, htracked, -⟩ := h.getClientId_some hcon hsome (hroom hsome)
    rw [heq]
    exact ⟨htracked, .inr ⟨p', client.ClientId, hne, rfl⟩⟩

end Connection

/-! ## Responses -/

/-- The bytes of a response up to the second TLV. -/
theorem ctlRsp_eq (pQMI : List UInt8) (QMUXResult QMUXError : ℕ) (TLV2 : List UInt8) :
    ∃ lo hi lo' hi' : UInt8, ctlRsp pQMI QMUXResult QMUXError TLV2 =
      0x01 :: lo :: hi :: 0x00 :: qmuxTypeCtl :: 0x00 :: qmiCtlFlagRsp :: transactionId pQMI ::
        qmiByte pQMI 8 :: qmiByte pQMI 9 :: lo' :: hi' :: 0x02 :: 4 :: 0 :: byteOf QMUXResult 0 ::
        byteOf QMUXResult 1 :: byteOf QMUXError 0 :: byteOf QMUXError 1 :: TLV2 :=
  ⟨_, _, _, _, rfl⟩

theorem qmiCtlType_ctlRsp (pQMI : List UInt8) (QMUXResult QMUXError : ℕ) (TLV2 : List UInt8) :
    qmiCtlType (ctlRsp pQMI QMUXResult QMUXError TLV2) = qmiCtlType pQMI := by
  obtain ⟨lo, hi, lo', hi', heq⟩ := ctlRsp_eq pQMI QMUXResult QMUXError TLV2
  rw [heq]
  rfl

theorem respOk_ctlRsp (pQMI TLV2 : List UInt8) : respOk (ctlRsp pQMI 0 0 TLV2) := by
  obtain ⟨lo, hi, lo', hi', heq⟩ := ctlRsp_eq pQMI 0 0 TLV2
  rw [heq]
  exact ⟨show le16 0 0 = 0 by decide, show le16 0 0 = 0 by decide⟩

theorem respOk_getClientIdRsp {pQMI : List UInt8} {ClientId : UInt8} (h : ClientId ≠ 0) :
    respOk (getClientIdRsp pQMI ClientId) := by
  rw [getClientIdRsp, if_pos h, if_pos h]
  exact respOk_ctlRsp ..

/-- Service messages are for the device. -/
theorem not_toClient_forwardQmi {con : QrtrProxyConnection} {pQMI : List UInt8} {fd : ℤ}
    {rsp : List UInt8} : .toClient fd rsp ∉ p.forwardQmi con pQMI := by
  unfold forwardQmi
  split
  · exact List.not_mem_nil
  · split
    · exact List.not_mem_nil
    · split
      · intro h
        cases List.mem_singleton.mp h
      · exact List.not_mem_nil

/-- What a message of a client does: it asks for an id, gives one back, or changes nothing. -/
theorem step_client_cases (p : Proxy) (clientfd : ℤ) (nreads : ℕ) (rx_buf : List UInt8)
    (malloc : Bool) :
    ((p.step (.client clientfd nreads rx_buf malloc)).1 = p ∧
      ∀ fd rsp, .toClient fd rsp ∈ (p.step (.client clientfd nreads rx_buf malloc)).2 →
        qmiCtlType rsp ≠ qmiCtlGetClientId) ∨
    (∃ con, p.connection clientfd = some con ∧
      ((p.findQrtrService (reqQmiType rx_buf)).isSome →
        p.Allocates (.client clientfd nreads rx_buf malloc)) ∧
      p.step (.client clientfd nreads rx_buf malloc) = p.getClientId con rx_buf) ∨
    ∃ con, p.connection clientfd = some con ∧ qmiCtlType rx_buf = qmiCtlReleaseClientId ∧
      p.step (.client clientfd nreads rx_buf malloc) = p.releaseClientId con rx_buf malloc := by
  have hnone : ∀ fd rsp, (.toClient fd rsp : Output) ∈ [] → qmiCtlType rsp ≠ qmiCtlGetClientId :=
    fun _ _ h ↦ absurd h List.not_mem_nil
  rw [step_client]
  by_cases hnreads : nreads = hdrLength rx_buf + 1
  · rw [if_pos hnreads, recvQmiFromClient]
    cases hcon : p.connection clientfd with
    | none => exact .inl ⟨rfl, hnone⟩
    | some con =>
      dsimp only
      by_cases hctl : hdrQmiType rx_buf = qmuxTypeCtl
      · rw [if_pos hctl]
        by_cases hsync : qmiCtlType rx_buf = qmiCtlSyncReq
        · rw [if_pos hsync]
          exact .inl ⟨rfl, hnone⟩
        rw [if_neg hsync]
        by_cases hget : qmiCtlType rx_buf = qmiCtlGetClientId
        · rw [if_pos hget]
          cases malloc with
          | false => exact .inl ⟨rfl, hnone⟩
          | true =>
            refine .inr (.inl ⟨con, rfl, fun hfind ↦ ?_, rfl⟩)
            exact ⟨hnreads, by rw [hcon]; rfl, hctl, hget, rfl, hfind⟩
        rw [if_neg hget]
        by_cases hrelease : qmiCtlType rx_buf = qmiCtlReleaseClientId
        · rw [if_pos hrelease]
          exact .inr (.inr ⟨con, rfl, hrelease, rfl⟩)
        rw [if_neg hrelease]
        by_cases hversion : qmiCtlType rx_buf = qmiCtlGetVersionReq
        · rw [if_pos hversion]
          refine .inl ⟨rfl, fun fd rsp hmem ↦ ?_⟩
          cases malloc with
          | false => exact absurd hmem List.not_mem_nil
          | true =>
            cases List.mem_singleton.mp hmem
            rw [getVersionRsp, qmiCtlType_ctlRsp, hversion]
            decide
        · rw [if_neg hversion]
          exact .inl ⟨rfl, hnone⟩
      · rw [if_neg hctl]
        exact .inl ⟨rfl, fun fd rsp hmem ↦ absurd hmem not_toClient_forwardQmi⟩
  · rw [if_neg hnreads]
    exact .inl ⟨rfl, hnone⟩

/-- A step takes the ids of new entries out of the arrays and puts those of old ones back. -/
theorem Tracked.step (h : p.Tracked p.clients) {e : ProxyEvent} (hroom : p.Room e) :
    (p.step e).1.Tracked (p.step e).1.clients := by
  cases e with
  | accept clientfd malloc =>
    change (p.acceptQrtrConnection clientfd malloc).Tracked
      (p.acceptQrtrConnection clientfd malloc).clients
    unfold acceptQrtrConnection
    split
    · have hclients : ({ p with
          qrtr_proxy_connection := p.qrtr_proxy_connection ++ [⟨clientfd, []⟩] } : Proxy).clients =
          p.clients := by
        simp only [clients, List.flatMap_append, List.flatMap_singleton, List.append_nil]
      rw [hclients]
      exact ⟨h.clientIds, h.ports, h.length_client, h.length_port⟩
    · exact h
  | client clientfd nreads rx_buf malloc =>
    obtain ⟨hstep, -⟩ | ⟨con, hcon, hallocates, hstep⟩ | ⟨con, hcon, -, hstep⟩ :=
      step_client_cases p clientfd nreads rx_buf malloc
    · rw [hstep]
      exact h
    · rw [hstep]
      exact (h.getClientId hcon fun hfind ↦ hroom (hallocates hfind)).1
    · rw [hstep]
      exact h.releaseClientId hcon rx_buf malloc
  | cleanup clientfd => exact h.cleanupQrtrConnection clientfd
  | dev hdr malloc =>
    obtain ⟨services, hdev⟩ := recvQrtrFromDev_spec p hdr malloc
    change (p.recvQrtrFromDev hdr malloc).1.Tracked (p.recvQrtrFromDev hdr malloc).1.clients
    rw [hdev]
    exact ⟨h.clientIds, h.ports, h.length_client, h.length_port⟩
  | exit => exact h.loopExit

/-! ## Failures -/

theorem not_toClient_releaseQrtrClientId {own : List QrtrProxyClient} {QMIType ClientId : UInt8}
    {fd : ℤ} {rsp : List UInt8} :
    .toClient fd rsp ∉ (p.releaseQrtrClientId own QMIType ClientId).2.2 := by
  unfold releaseQrtrClientId
  split
  · exact List.not_mem_nil
  · intro h
    cases List.mem_singleton.mp h

theorem not_toClient_releaseClients {own : List QrtrProxyClient} {fd : ℤ} {rsp : List UInt8} :
    .toClient fd rsp ∉ (p.releaseClients own).2 := by
  induction own generalizing p with
  | nil => exact List.not_mem_nil
  | cons client rest ih =>
    intro h
    rcases List.mem_append.mp h with h | h
    · exact not_toClient_releaseQrtrClientId h
    · exact ih h

theorem not_toClient_cleanupQrtrConnection {clientfd fd : ℤ} {rsp : List UInt8} :
    .toClient fd rsp ∉ (p.cleanupQrtrConnection clientfd).2 := by
  unfold Proxy.cleanupQrtrConnection
  split
  · exact List.not_mem_nil
  · exact not_toClient_releaseClients

theorem not_toClient_loopExit {fd : ℤ} {rsp : List UInt8} : .toClient fd rsp ∉ p.loopExit.2 := by
  refine loopExit_induction (P := fun _ out ↦ .toClient fd rsp ∉ out) List.not_mem_nil ?_
  intro p out clientfd hout h
  rcases List.mem_append.mp h with h | h
  · exact hout h
  · exact not_toClient_cleanupQrtrConnection h

/-- If there is room, a request for an id fails before anything is allocated. -/
theorem Tracked.failure (h : p.Tracked p.clients) {e : ProxyEvent} (hroom : p.Room e) {fd : ℤ}
    {rsp : List UInt8} (hmem : .toClient fd rsp ∈ (p.step e).2)
    (htype : qmiCtlType rsp = qmiCtlGetClientId) (hfail : ¬respOk rsp) :
    (p.step e).1.clients = p.clients := by
  cases e with
  | accept clientfd malloc => exact absurd hmem List.not_mem_nil
  | client clientfd nreads rx_buf malloc =>
    obtain ⟨hstep, -⟩ | ⟨con, hcon, hallocates, hstep⟩ | ⟨con, hcon, -, hstep⟩ :=
      step_client_cases p clientfd nreads rx_buf malloc
    · rw [hstep]
    · rw [hstep] at hmem ⊢
      obtain hget | ⟨p', ClientId, hne, hget⟩ :=
        (h.getClientId hcon fun hfind ↦ hroom (hallocates hfind)).2
      · rw [hget]
      · rw [hget] at hmem
        cases List.mem_singleton.mp hmem
        exact absurd (respOk_getClientIdRsp hne) hfail
    · rw [hstep] at hmem
      rcases List.mem_append.mp hmem with hmem | hmem
      · exact absurd hmem not_toClient_releaseQrtrClientId
      · cases malloc with
        | false => exact absurd hmem List.not_mem_nil
        | true =>
          cases List.mem_singleton.mp hmem
          exact absurd (respOk_ctlRsp ..) hfail
  | cleanup clientfd => exact absurd hmem not_toClient_cleanupQrtrConnection
  | dev hdr malloc =>
    obtain ⟨services, hdev⟩ := recvQrtrFromDev_spec p hdr malloc
    change (p.recvQrtrFromDev hdr malloc).1.clients = p.clients
    rw [hdev]
    rfl
  | exit => exact absurd hmem not_toClient_loopExit

/-! ## Exhaustion -/

/-- When all client ids are in use, the next entry has client id zero. -/
theorem Tracked.getClientId_full (h : p.Tracked p.clients) {clientfd : ℤ}
    {con : QrtrProxyConnection} (hcon : p.connection clientfd = some con) {pQMI : List UInt8}
    (hfind : (p.findQrtrService (reqQmiType pQMI)).isSome) (hfull : 239 ≤ p.clients.length) :
    ∃ client ∈ (p.getClientId con pQMI).1.clients, client.ClientId = 0 := by
  obtain ⟨srv, hsrv⟩ := Option.isSome_iff_exists.mp hfind
  obtain ⟨others, -, hset, -⟩ := exists_others hcon
  have hnone := h.clientIds.alloc_full (by
    rw [List.length_map, h.length_client]
    exact hfull)
  rw [Proxy.getClientId, hsrv]
  refine ⟨⟨reqQmiType pQMI, UInt8.ofNat p.allocClientId.1, 1,
    UInt32.ofNat p.allocClientId.2.allocPortId.1⟩, (hset _).mem_iff.mpr ?_, ?_⟩
  · exact List.mem_append_left _ (List.mem_append_right _ List.mem_cons_self)
  · simp only [allocClientId, hnone]
    rfl

/-- An id is allocated for the connection that asks. -/
theorem Allocates.step_eq {clientfd : ℤ} {nreads : ℕ} {rx_buf : List UInt8} {malloc : Bool}
    (h : p.Allocates (.client clientfd nreads rx_buf malloc)) :
    ∃ con, p.connection clientfd = some con ∧
      p.step (.client clientfd nreads rx_buf malloc) = p.getClientId con rx_buf := by
  obtain ⟨hnreads, hcon, hctl, hget, rfl, -⟩ := h
  obtain ⟨con, hcon⟩ := Option.isSome_iff_exists.mp hcon
  have hsync : qmiCtlType rx_buf ≠ qmiCtlSyncReq := by
    rw [hget]
    decide
  refine ⟨con, hcon, ?_⟩
  rw [step_client, if_pos hnreads, recvQmiFromClient, hcon]
  dsimp only
  rw [if_pos hctl, if_neg hsync, if_pos hget, if_pos rfl]

/-- The conditions hold after a step exactly if there was room. -/
theorem Tracked.stepConsistent_iff (h : p.Tracked p.clients) (e : ProxyEvent) :
    p.StepConsistent e ↔ p.Room e := by
  constructor
  · intro hstep hallocates
    by_contra hfull
    cases e with
    | client clientfd nreads rx_buf malloc =>
      obtain ⟨con, hcon, heq⟩ := hallocates.step_eq
      obtain ⟨-, -, -, -, -, hfind⟩ := hallocates
      obtain ⟨client, hmem, hzero⟩ := h.getClientId_full hcon hfind (Nat.le_of_not_lt hfull)
      exact hstep.consistent.nonzero client (by rwa [heq]) hzero
    | accept _ _ | cleanup _ | dev _ _ | exit => exact hallocates
  · intro hroom
    have htracked := h.step hroom
    refine ⟨htracked.consistent, fun fd rsp hmem htype hfail ↦ h.failure hroom hmem htype hfail,
      fun hnone id ↦ ?_⟩
    have hclients : (p.step e).1.clients = [] := by
      rw [clients, hnone]
      rfl
    rw [htracked.clientIds.marked_iff, htracked.ports.marked_iff, hclients]
    exact ⟨List.not_mem_nil, List.not_mem_nil⟩

theorem init_tracked : Proxy.init.Tracked Proxy.init.clients where
  clientIds := .replicate 0xf0
  ports := .replicate 0xff0
  length_client := List.length_replicate
  length_port := List.length_replicate

theorem along_stepConsistent_iff (h : p.Tracked p.clients) (es : List ProxyEvent) :
    proxySystem.Along StepConsistent p es ↔ proxySystem.Along Room p es :=
  System.along_iff_of_invariant (I := fun p ↦ p.Tracked p.clients)
    (fun _ e h _ ↦ h.stepConsistent_iff e) (fun _ _ h _ hroom ↦ h.step hroom) h es

/-- Ids and ports are unique and do not leak in exactly the runs in which no id is asked for while
all are in use. -/
theorem ids_consistent_iff (es : List ProxyEvent) :
    proxySystem.Along StepConsistent .init es ↔ proxySystem.Along Room .init es :=
  along_stepConsistent_iff init_tracked es

/-! ## A client that asks for too much -/

theorem connection_isSome_iff {clientfd : ℤ} :
    (p.connection clientfd).isSome ↔ clientfd ∈ p.qrtr_proxy_connection.map (·.ClientFd) := by
  rw [connection, List.find?_isSome, List.mem_map]
  simp only [decide_eq_true_eq]

/-- With a new entry there is one more, and another can be asked for. -/
theorem Tracked.step_allocates (h : p.Tracked p.clients) {e : ProxyEvent} (he : p.Allocates e)
    (hroom : p.clients.length < 239) :
    (p.step e).1.clients.length = p.clients.length + 1 ∧ (p.step e).1.Allocates e := by
  cases e with
  | client clientfd nreads rx_buf malloc =>
    obtain ⟨con, hcon, heq⟩ := he.step_eq
    obtain ⟨hnreads, hisSome, hctl, hget, hmalloc, hfind⟩ := he
    obtain ⟨client, p', hp', -, -, hperm, hmap, hservers⟩ := h.getClientId_some hcon hfind hroom
    rw [heq, hp']
    refine ⟨hperm.length_eq.symm, hnreads, ?_, hctl, hget, hmalloc, ?_⟩
    · rw [connection_isSome_iff, hmap, ← connection_isSome_iff]
      exact hisSome
    · rw [findQrtrService, hservers]
      exact hfind
  | accept _ _ | cleanup _ | dev _ _ | exit => exact he.elim

theorem Tracked.not_along_room (h : p.Tracked p.clients) {e : ProxyEvent} (he : p.Allocates e)
    {n : ℕ} (hn : p.clients.length + n = 239) :
    ¬proxySystem.Along Room p (List.replicate (n + 1) e) := by
  induction n generalizing p with
  | zero =>
    rintro ⟨-, hroom, -⟩
    have hlt := hroom he
    omega
  | succ n ih =>
    rintro ⟨-, hroom, halong⟩
    obtain ⟨hlength, hallocates⟩ := h.step_allocates he (hroom he)
    exact ih (h.step hroom) hallocates (by omega) halong

/-- `QMUX_TYPE_WDS` is announced by the modem. -/
def newWds : QrtrPacket where
  type := qrtrTypeNewServer
  src := ⟨3, 1⟩
  dst := ⟨1, qrtrPortCtrl⟩
  confirm_rx := false
  size := 20
  payload := qrtrCtrlPkt qrtrTypeNewServer [1, 1, 3, 16384]

/-- The run of a client that asks for 240 ids of it. -/
def asksForAll : List ProxyEvent :=
  .accept 5 true :: .dev newWds true ::
    List.replicate 240 (.client 5 16 (QmiProxy.getReq 1 1) true)

theorem asksForAll_not_consistent : ¬proxySystem.Along StepConsistent .init asksForAll := by
  rw [along_stepConsistent_iff init_tracked]
  rintro ⟨-, haccept, -, hdev, halong⟩
  refine ((init_tracked.step haccept).step hdev).not_along_room ?_ (n := 239) rfl halong
  exact ⟨by decide, rfl, rfl, by decide, rfl, by decide⟩

end Proxy

end Wwan.QrtrProxy
