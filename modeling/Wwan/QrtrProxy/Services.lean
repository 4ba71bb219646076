import Wwan.QrtrProxy.ClientIds

/-!
# The services of `quectel-qrtr-proxy`

The modem announces its servers and takes them back. The proxy records what was announced, and
finds the first record of a service. Nothing is ever removed from the records.
-/

namespace Wwan.QrtrProxy

open Wwan.QmiProxy (hdrLength hdrQmiType qmiCtlType qmuxTypeCtl qmiCtlGetClientId
  qmiCtlReleaseClientId respOk)

/-! ## Servers -/

/-- A server of the modem. -/
structure Server where
  service : UInt32
  node : UInt32
  port : UInt32
  deriving DecidableEq

/-- The server that a packet is about. -/
def server (hdr : QrtrPacket) : Server :=
  ⟨ctrlField hdr.payload 4, ctrlField hdr.payload 12, ctrlField hdr.payload 16⟩

/-- What a packet says about the servers of the modem. A server is taken back by node and port. -/
def announce (up : List Server) (hdr : QrtrPacket) : List Server :=
  if (server hdr).node ≠ nodeModem then up
  else if hdr.type = qrtrTypeNewServer then up ++ [server hdr]
  else if hdr.type = qrtrTypeDelServer then
    up.filter fun s ↦ ¬(s.node = (server hdr).node ∧ s.port = (server hdr).port)
  else up

/-- The proxy, and the servers that were announced and not taken back since. -/
structure Network where
  proxy : Proxy
  up : List Server
  deriving DecidableEq

namespace Network

/-- A server of the service is up. -/
def Up (s : Network) (QMIType : UInt8) : Prop := ∃ srv ∈ s.up, srv.service.toNat = QMIType.toNat

/-- Something is found if a server of the service is up, and then a server that is up. -/
structure Agrees (found : Option QrtrService) (up : List Server) (QMIType : UInt8) : Prop where
  isSome_iff : found.isSome ↔ ∃ server ∈ up, server.service.toNat = QMIType.toNat
  isUp : ∀ srv, found = some srv → ∃ server ∈ up, server.service.toNat = QMIType.toNat ∧
    server.node = srv.node ∧ server.port = srv.port

/-- `find_qrtr_service` finds the services that are up. -/
def FindAgrees (s : Network) : Prop :=
  ∀ QMIType, Agrees (s.proxy.findQrtrService QMIType) s.up QMIType

def next (s : Network) (e : ProxyEvent) : Network where
  proxy := (s.proxy.step e).1
  up :=
    match e with
    | .dev hdr _ => announce s.up hdr
    | _ => s.up

/-- What is to hold of a step. -/
structure StepRoutes (s : Network) (e : ProxyEvent) : Prop where
  agrees : (s.next e).FindAgrees
  /-- A request for a client id is granted while the service is up only. -/
  granted : ∀ clientfd nreads rx_buf malloc fd rsp, e = .client clientfd nreads rx_buf malloc →
    .toClient fd rsp ∈ (s.proxy.step e).2 → qmiCtlType rsp = qmiCtlGetClientId → respOk rsp →
      s.Up (reqQmiType rx_buf)
  /-- A service message goes to a server of the service that is up. -/
  forwarded : ∀ clientfd nreads rx_buf malloc hdr, e = .client clientfd nreads rx_buf malloc →
    hdrQmiType rx_buf ≠ qmuxTypeCtl → .toDev hdr ∈ (s.proxy.step e).2 →
      ∃ server ∈ s.up, server.service.toNat = (hdrQmiType rx_buf).toNat ∧
        hdr.dst = ⟨server.node, server.port⟩

/-- A server that is announced is recorded unless its service is found anyway, and no server that
is found is taken back. -/
def Undisturbed (s : Network) : ProxyEvent → Prop
  | .dev hdr malloc =>
    (server hdr).node = nodeModem →
      (hdr.type = qrtrTypeNewServer → malloc = true ∨
        ∀ QMIType : UInt8, (server hdr).service.toNat = QMIType.toNat →
          (s.proxy.findQrtrService QMIType).isSome) ∧
      (hdr.type = qrtrTypeDelServer → ∀ QMIType srv,
        s.proxy.findQrtrService QMIType = some srv →
          ¬(srv.node = (server hdr).node ∧ srv.port = (server hdr).port))
  | _ => True

end Network

/-- The proxy and its modem. -/
def networkSystem : System Network ProxyEvent where
  init := ⟨.init, []⟩
  enabled _ _ := True
  next := Network.next

/-! ## Records -/

namespace Proxy

variable {p : Proxy}

theorem releaseQrtrClientId_services (p : Proxy) (own : List QrtrProxyClient)
    (QMIType ClientId : UInt8) :
    (p.releaseQrtrClientId own QMIType ClientId).1.qrtr_server_list = p.qrtr_server_list := by
  unfold releaseQrtrClientId
  split <;> rfl

theorem releaseClients_services (p : Proxy) (own : List QrtrProxyClient) :
    (p.releaseClients own).1.qrtr_server_list = p.qrtr_server_list := by
  induction own generalizing p with
  | nil => rfl
  | cons client rest ih => exact (ih _).trans (releaseQrtrClientId_services ..)

theorem cleanupQrtrConnection_services (p : Proxy) (clientfd : ℤ) :
    (p.cleanupQrtrConnection clientfd).1.qrtr_server_list = p.qrtr_server_list := by
  unfold cleanupQrtrConnection
  split
  · rfl
  · exact releaseClients_services ..

theorem getClientId_services (p : Proxy) (con : QrtrProxyConnection) (pQMI : List UInt8) :
    (p.getClientId con pQMI).1.qrtr_server_list = p.qrtr_server_list := by
  unfold getClientId
  split <;> rfl

/-- The records change with a packet only. -/
theorem step_services (p : Proxy) {e : ProxyEvent} (he : ∀ hdr malloc, e ≠ .dev hdr malloc) :
    (p.step e).1.qrtr_server_list = p.qrtr_server_list := by
  cases e with
  | accept clientfd malloc =>
    change (p.acceptQrtrConnection clientfd malloc).qrtr_server_list = _
    unfold acceptQrtrConnection
    split <;> rfl
  | client clientfd nreads rx_buf malloc =>
    obtain ⟨hstep, -⟩ | ⟨con, -, -, hstep⟩ | ⟨con, -, -, hstep⟩ :=
      step_client_cases p clientfd nreads rx_buf malloc
    · rw [hstep]
    · rw [hstep]
      exact getClientId_services ..
    · rw [hstep]
      exact releaseQrtrClientId_services ..
  | cleanup clientfd => exact cleanupQrtrConnection_services ..
  | dev hdr malloc => exact absurd rfl (he hdr malloc)
  | exit =>
    exact loopExit_induction (P := fun p' _ ↦ p'.qrtr_server_list = p.qrtr_server_list) rfl
      fun p' _ clientfd hp' ↦ (cleanupQrtrConnection_services p' clientfd).trans hp'

/-- A packet adds a record if it announces a server of the modem and there is memory. -/
theorem step_dev_services (p : Proxy) (hdr : QrtrPacket) (malloc : Bool) :
    (p.step (.dev hdr malloc)).1.qrtr_server_list =
      if (server hdr).node = nodeModem ∧ hdr.type = qrtrTypeNewServer ∧ malloc = true then
        p.qrtr_server_list ++ [newService hdr]
      else p.qrtr_server_list := by
  change (p.recvQrtrFromDev hdr malloc).1.qrtr_server_list = _
  have hnode : (server hdr).node = ctrlField hdr.payload 12 := rfl
  unfold recvQrtrFromDev
  by_cases hnew : hdr.type = qrtrTypeNewServer
  · have hhello : ¬hdr.type = qrtrTypeHello := by
      rw [hnew]
      decide
    rw [if_neg hhello, if_pos (.inl hnew), hnode]
    unfold handleServerChange
    by_cases hmodem : ctrlField hdr.payload 12 = nodeModem
    · cases malloc with
      | false =>
        rw [if_neg (not_not.mpr hmodem), if_pos Bool.false_ne_true,
          if_neg fun h ↦ Bool.false_ne_true h.2.2]
      | true =>
        rw [if_neg (not_not.mpr hmodem), if_neg (not_not.mpr rfl), if_pos hnew,
          if_pos ⟨hmodem, hnew, rfl⟩]
    · rw [if_pos hmodem, if_neg fun h ↦ hmodem h.1]
  · have hnot : ¬((server hdr).node = nodeModem ∧ hdr.type = qrtrTypeNewServer ∧ malloc = true) :=
      fun h ↦ hnew h.2.1
    rw [if_neg hnot]
    split
    · rfl
    · split
      · unfold handleServerChange
        rw [if_neg hnew]
        repeat' split
        all_goals rfl
      · split <;> rfl

end Proxy

namespace Network

variable {s : Network}

/-- More servers of other services, or of the service if it is found. -/
theorem Agrees.append {found : Option QrtrService} {up : List Server} {QMIType : UInt8}
    (h : Agrees found up QMIType) {srv : Server}
    (hsrv : srv.service.toNat = QMIType.toNat → found.isSome) :
    Agrees found (up ++ [srv]) QMIType where
  isSome_iff := by
    constructor
    · intro hfound
      obtain ⟨server, hmem, hservice⟩ := h.isSome_iff.mp hfound
      exact ⟨server, List.mem_append_left _ hmem, hservice⟩
    · rintro ⟨server, hmem, hservice⟩
      rcases List.mem_append.mp hmem with hmem | hmem
      · exact h.isSome_iff.mpr ⟨server, hmem, hservice⟩
      · obtain rfl := List.mem_singleton.mp hmem
        exact hsrv hservice
  isUp srv hfound := by
    obtain ⟨server, hmem, hserver⟩ := h.isUp srv hfound
    exact ⟨server, List.mem_append_left _ hmem, hserver⟩

/-- The first server of a service is found once it is recorded. -/
theorem Agrees.record {found : Option QrtrService} {up : List Server} {QMIType : UInt8}
    (h : Agrees found up QMIType) (hdr : QrtrPacket) :
    Agrees (found.or ([Proxy.newService hdr].find? fun srv ↦ srv.service.toNat = QMIType.toNat))
      (up ++ [server hdr]) QMIType := by
  cases found with
  | some srv => exact h.append fun _ ↦ rfl
  | none =>
    rw [Option.none_or]
    by_cases hservice : (server hdr).service.toNat = QMIType.toNat
    · have hfind : ([Proxy.newService hdr].find? fun srv ↦ srv.service.toNat = QMIType.toNat) =
          some (Proxy.newService hdr) :=
        List.find?_cons_of_pos (decide_eq_true hservice)
      rw [hfind]
      have hmem : server hdr ∈ up ++ [server hdr] :=
        List.mem_append_right _ List.mem_cons_self
      refine ⟨⟨fun _ ↦ ⟨server hdr, hmem, hservice⟩, fun _ ↦ rfl⟩, ?_⟩
      intro srv hsrv
      obtain rfl := Option.some.inj hsrv
      exact ⟨server hdr, hmem, hservice, rfl, rfl⟩
    · have hfind : ([Proxy.newService hdr].find? fun srv ↦ srv.service.toNat = QMIType.toNat) =
          none := by
        refine List.find?_eq_none.mpr fun srv hmem hsrv ↦ hservice ?_
        obtain rfl := List.mem_singleton.mp hmem
        exact of_decide_eq_true hsrv
      rw [hfind]
      exact h.append fun hservice' ↦ absurd hservice' hservice

/-- Servers can be taken back except for the one that is found. -/
theorem Agrees.filter_iff {found : Option QrtrService} {up : List Server} {QMIType : UInt8}
    (h : Agrees found up QMIType) (node port : UInt32) :
    Agrees found (up.filter fun s ↦ ¬(s.node = node ∧ s.port = port)) QMIType ↔
      ∀ srv, found = some srv → ¬(srv.node = node ∧ srv.port = port) := by
  constructor
  · rintro h' srv hfound ⟨rfl, rfl⟩
    obtain ⟨server, hmem, -, hnode, hport⟩ := h'.isUp srv hfound
    have hne := of_decide_eq_true (List.mem_filter.mp hmem).2
    exact hne ⟨hnode, hport⟩
  · intro hkept
    have hisUp : ∀ srv, found = some srv →
        ∃ server ∈ up.filter fun s ↦ ¬(s.node = node ∧ s.port = port),
          server.service.toNat = QMIType.toNat ∧ server.node = srv.node ∧
            server.port = srv.port := by
      intro srv hfound
      obtain ⟨server, hmem, hservice, hnode, hport⟩ := h.isUp srv hfound
      refine ⟨server, List.mem_filter.mpr ⟨hmem, decide_eq_true ?_⟩, hservice, hnode, hport⟩
      rw [hnode, hport]
      exact hkept srv hfound
    refine ⟨⟨fun hfound ↦ ?_, ?_⟩, hisUp⟩
    · obtain ⟨srv, hsrv⟩ := Option.isSome_iff_exists.mp hfound
      obtain ⟨server, hmem, hservice, -⟩ := hisUp srv hsrv
      exact ⟨server, hmem, hservice⟩
    · rintro ⟨server, hmem, hservice⟩
      exact h.isSome_iff.mpr ⟨server, List.mem_of_mem_filter hmem, hservice⟩

/-! ## Steps -/

theorem findQrtrService_congr {p p' : Proxy} (h : p'.qrtr_server_list = p.qrtr_server_list)
    (QMIType : UInt8) : p'.findQrtrService QMIType = p.findQrtrService QMIType := by
  rw [Proxy.findQrtrService, h, Proxy.findQrtrService]

theorem FindAgrees.next_new_iff (h : s.FindAgrees) {hdr : QrtrPacket} (malloc : Bool)
    (hnode : (server hdr).node = nodeModem) (hnew : hdr.type = qrtrTypeNewServer) :
    (s.next (.dev hdr malloc)).FindAgrees ↔ s.Undisturbed (.dev hdr malloc) := by
  have hservices := s.proxy.step_dev_services hdr malloc
  have hup : (s.next (.dev hdr malloc)).up = s.up ++ [server hdr] := by
    change announce s.up hdr = _
    rw [announce, if_neg (not_not.mpr hnode), if_pos hnew]
  have hdel : ¬hdr.type = qrtrTypeDelServer := by
    rw [hnew]
    decide
  cases malloc with
  | true =>
    rw [if_pos ⟨hnode, hnew, rfl⟩] at hservices
    refine ⟨fun _ _ ↦ ⟨fun _ ↦ .inl rfl, fun hdel' ↦ absurd hdel' hdel⟩, fun _ QMIType ↦ ?_⟩
    have hfind : (s.next (.dev hdr true)).proxy.findQrtrService QMIType =
        (s.proxy.findQrtrService QMIType).or
          ([Proxy.newService hdr].find? fun srv ↦ srv.service.toNat = QMIType.toNat) := by
      rw [Proxy.findQrtrService, next, hservices, List.find?_append, Proxy.findQrtrService]
    rw [hfind, hup]
    exact (h QMIType).record hdr
  | false =>
    rw [if_neg fun h ↦ Bool.false_ne_true h.2.2] at hservices
    have hfind := findQrtrService_congr hservices
    constructor
    · intro h' _
      refine ⟨fun _ ↦ .inr fun QMIType hservice ↦ ?_, fun hdel' ↦ absurd hdel' hdel⟩
      rw [← hfind]
      refine (h' QMIType).isSome_iff.mpr ⟨server hdr, ?_, hservice⟩
      rw [hup]
      exact List.mem_append_right _ List.mem_cons_self
    · intro hund QMIType
      have hknown := ((hund hnode).1 hnew).resolve_left Bool.false_ne_true
      rw [next, hfind QMIType]
      rw [next] at hup
      rw [hup]
      exact (h QMIType).append (hknown QMIType)

theorem FindAgrees.next_del_iff (h : s.FindAgrees) {hdr : QrtrPacket} (malloc : Bool)
    (hnode : (server hdr).node = nodeModem) (hdel : hdr.type = qrtrTypeDelServer) :
    (s.next (.dev hdr malloc)).FindAgrees ↔ s.Undisturbed (.dev hdr malloc) := by
  have hnew : ¬hdr.type = qrtrTypeNewServer := by
    rw [hdel]
    decide
  have hservices := s.proxy.step_dev_services hdr malloc
  rw [if_neg fun h ↦ hnew h.2.1] at hservices
  have hagrees : ∀ QMIType, Agrees ((s.next (.dev hdr malloc)).proxy.findQrtrService QMIType)
      (s.next (.dev hdr malloc)).up QMIType ↔ ∀ srv, s.proxy.findQrtrService QMIType = some srv →
        ¬(srv.node = (server hdr).node ∧ srv.port = (server hdr).port) := by
    intro QMIType
    have hup : (s.next (.dev hdr malloc)).up =
        s.up.filter fun s ↦ ¬(s.node = (server hdr).node ∧ s.port = (server hdr).port) := by
      change announce s.up hdr = _
      rw [announce, if_neg (not_not.mpr hnode), if_neg hnew, if_pos hdel]
    rw [hup, ← (h QMIType).filter_iff]
    exact iff_of_eq (congrArg (Agrees · _ QMIType) (findQrtrService_congr hservices QMIType))
  constructor
  · intro h' _
    exact ⟨fun hnew' ↦ absurd hnew' hnew, fun _ QMIType ↦ (hagrees QMIType).mp (h' QMIType)⟩
  · intro hund QMIType
    exact (hagrees QMIType).mpr ((hund hnode).2 hdel QMIType)

/-- What the modem says keeps the records right if nothing is disturbed. -/
theorem FindAgrees.next_dev_iff (h : s.FindAgrees) (hdr : QrtrPacket) (malloc : Bool) :
    (s.next (.dev hdr malloc)).FindAgrees ↔ s.Undisturbed (.dev hdr malloc) := by
  by_cases hnode : (server hdr).node = nodeModem
  · by_cases hnew : hdr.type = qrtrTypeNewServer
    · exact h.next_new_iff malloc hnode hnew
    · by_cases hdel : hdr.type = qrtrTypeDelServer
      · exact h.next_del_iff malloc hnode hdel
      · refine ⟨fun _ _ ↦ ⟨fun h ↦ absurd h hnew, fun h ↦ absurd h hdel⟩, fun _ QMIType ↦ ?_⟩
        have hup : (s.next (.dev hdr malloc)).up = s.up := by
          change announce s.up hdr = _
          rw [announce, if_neg (not_not.mpr hnode), if_neg hnew, if_neg hdel]
        have hservices := s.proxy.step_dev_services hdr malloc
        rw [if_neg fun h ↦ hnew h.2.1] at hservices
        rw [hup, next, findQrtrService_congr hservices]
        exact h QMIType
  · refine ⟨fun _ hnode' ↦ absurd hnode' hnode, fun _ QMIType ↦ ?_⟩
    have hup : (s.next (.dev hdr malloc)).up = s.up := if_pos hnode
    have hservices := s.proxy.step_dev_services hdr malloc
    rw [if_neg fun h ↦ hnode h.1] at hservices
    rw [hup, next, findQrtrService_congr hservices]
    exact h QMIType

/-- Other events leave the records and the servers. -/
theorem FindAgrees.next_other (h : s.FindAgrees) {e : ProxyEvent}
    (he : ∀ hdr malloc, e ≠ .dev hdr malloc) : (s.next e).FindAgrees := by
  intro QMIType
  have hup : (s.next e).up = s.up := by
    cases e with
    | dev hdr malloc => exact absurd rfl (he hdr malloc)
    | accept _ _ | client _ _ _ _ | cleanup _ | exit => rfl
  change Agrees ((s.proxy.step e).1.findQrtrService QMIType) (s.next e).up QMIType
  rw [hup, findQrtrService_congr (s.proxy.step_services he)]
  exact h QMIType

theorem FindAgrees.next_iff (h : s.FindAgrees) (e : ProxyEvent) :
    (s.next e).FindAgrees ↔ s.Undisturbed e := by
  cases e with
  | dev hdr malloc => exact h.next_dev_iff hdr malloc
  | accept _ _ | client _ _ _ _ | cleanup _ | exit =>
    exact iff_of_true (h.next_other fun _ _ ↦ ProxyEvent.noConfusion) trivial

/-- The answer without an id is a failure. -/
theorem not_respOk_getClientIdRsp (pQMI : List UInt8) : ¬respOk (getClientIdRsp pQMI 0) := by
  obtain ⟨lo, hi, lo', hi', heq⟩ := Proxy.ctlRsp_eq pQMI 1 3 [0x01, 2, 0, reqQmiType pQMI, 0]
  rintro ⟨hresult, -⟩
  rw [getClientIdRsp, if_neg (not_not.mpr rfl), if_neg (not_not.mpr rfl), heq] at hresult
  exact absurd hresult (show ¬Bytes.le16 1 0 = 0 by decide)

/-- An id is granted if the service was found. -/
theorem FindAgrees.granted (h : s.FindAgrees) {clientfd : ℤ} {nreads : ℕ} {rx_buf : List UInt8}
    {malloc : Bool} {fd : ℤ} {rsp : List UInt8}
    (hmem : .toClient fd rsp ∈ (s.proxy.step (.client clientfd nreads rx_buf malloc)).2)
    (htype : qmiCtlType rsp = qmiCtlGetClientId) (hok : respOk rsp) : s.Up (reqQmiType rx_buf) := by
  obtain ⟨-, hother⟩ | ⟨con, -, -, hstep⟩ | ⟨con, -, hrelease, hstep⟩ :=
    s.proxy.step_client_cases clientfd nreads rx_buf malloc
  · exact absurd htype (hother fd rsp hmem)
  · rw [hstep, Proxy.getClientId] at hmem
    cases hfind : s.proxy.findQrtrService (reqQmiType rx_buf) with
    | none =>
      rw [hfind] at hmem
      cases List.mem_singleton.mp hmem
      exact absurd hok (not_respOk_getClientIdRsp rx_buf)
    | some srv =>
      refine (h (reqQmiType rx_buf)).isSome_iff.mp ?_
      rw [hfind]
      rfl
  · rw [hstep] at hmem
    rcases List.mem_append.mp hmem with hmem | hmem
    · exact absurd hmem Proxy.not_toClient_releaseQrtrClientId
    · cases malloc with
      | false => exact absurd hmem List.not_mem_nil
      | true =>
        cases List.mem_singleton.mp hmem
        rw [releaseClientIdRsp, Proxy.qmiCtlType_ctlRsp, hrelease] at htype
        exact absurd htype (by decide)

/-- A service message goes to the server that is found. -/
theorem mem_forwardQmi {p : Proxy} {con : QrtrProxyConnection} {pQMI : List UInt8}
    {hdr : QrtrPacket} (hmem : .toDev hdr ∈ p.forwardQmi con pQMI) :
    ∃ srv, p.findQrtrService (hdrQmiType pQMI) = some srv ∧ hdr.dst = ⟨srv.node, srv.port⟩ := by
  unfold Proxy.forwardQmi at hmem
  split at hmem
  · cases hmem
  · split at hmem
    · cases hmem
    · rename_i srv hfind
      split at hmem
      · cases List.mem_singleton.mp hmem
        exact ⟨srv, hfind, rfl⟩
      · cases hmem

theorem FindAgrees.forwarded (h : s.FindAgrees) {clientfd : ℤ} {nreads : ℕ} {rx_buf : List UInt8}
    {malloc : Bool} {hdr : QrtrPacket} (hctl : hdrQmiType rx_buf ≠ qmuxTypeCtl)
    (hmem : .toDev hdr ∈ (s.proxy.step (.client clientfd nreads rx_buf malloc)).2) :
    ∃ server ∈ s.up, server.service.toNat = (hdrQmiType rx_buf).toNat ∧
      hdr.dst = ⟨server.node, server.port⟩ := by
  rw [Proxy.step_client] at hmem
  split at hmem
  · unfold Proxy.recvQmiFromClient at hmem
    split at hmem
    · cases hmem
    · rw [if_neg hctl] at hmem
      obtain ⟨srv, hfind, hdst⟩ := mem_forwardQmi hmem
      obtain ⟨server, hup, hservice, hnode, hport⟩ := (h _).isUp srv hfind
      exact ⟨server, hup, hservice, by rw [hdst, hnode, hport]⟩
  · cases hmem

theorem FindAgrees.stepRoutes_iff (h : s.FindAgrees) (e : ProxyEvent) :
    s.StepRoutes e ↔ s.Undisturbed e := by
  constructor
  · intro hstep
    exact (h.next_iff e).mp hstep.agrees
  · intro hund
    refine ⟨(h.next_iff e).mpr hund, ?_, ?_⟩
    · rintro clientfd nreads rx_buf malloc fd rsp rfl hmem htype hok
      exact h.granted hmem htype hok
    · rintro clientfd nreads rx_buf malloc hdr rfl hctl hmem
      exact h.forwarded hctl hmem

end Network

theorem init_findAgrees : networkSystem.init.FindAgrees := by
  intro QMIType
  refine ⟨⟨fun h ↦ (by cases h), ?_⟩, fun srv h ↦ (by cases h)⟩
  rintro ⟨server, hmem, -⟩
  cases hmem

theorem along_stepRoutes_iff {s : Network} (h : s.FindAgrees) (es : List ProxyEvent) :
    networkSystem.Along Network.StepRoutes s es ↔ networkSystem.Along Network.Undisturbed s es :=
  System.along_iff_of_invariant (I := Network.FindAgrees) (fun _ e h _ ↦ h.stepRoutes_iff e)
    (fun _ e h _ hund ↦ (h.next_iff e).mpr hund) h es

/-- The proxy routes to services that are up in exactly the runs in which what it has found stays
up. -/
theorem routes_iff (es : List ProxyEvent) :
    networkSystem.Along Network.StepRoutes networkSystem.init es ↔
      networkSystem.Along Network.Undisturbed networkSystem.init es :=
  along_stepRoutes_iff init_findAgrees es

/-- The modem takes back its only server of `QMUX_TYPE_WDS`. -/
def delWds : QrtrPacket := { Proxy.newWds with type := qrtrTypeDelServer }

theorem delWds_not_routes :
    ¬networkSystem.Along Network.StepRoutes networkSystem.init
      [.dev Proxy.newWds true, .dev delWds true] := by
  rw [along_stepRoutes_iff init_findAgrees]
  rintro ⟨-, -, -, hdel, -⟩
  exact (hdel rfl).2 rfl 1 (Proxy.newService Proxy.newWds) rfl ⟨rfl, rfl⟩

end Wwan.QrtrProxy
