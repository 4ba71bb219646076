import Mathlib.Data.List.FinRange
import Mathlib.Data.List.Nodup
import Mathlib.Logic.Function.Basic
import Wwan.Lib.Transition

/-!
# The QMI client ids of `fibocom-dial`

`QmiWwanInit` asks the modem for a client id of each service it uses and keeps them in
`qmiclientId`, indexed by the service; `QmiWwanDeInit` releases what is in the table. The second
WDS client, for IPv6, has an entry of its own, `QMUX_TYPE_WDS_IPV6`, which is no service of QMI: it
is asked for as a WDS client, and `QmiWwanSendQMI` puts WDS in the header of its requests.

In a request for the release the service is not in the header but in the payload, where nothing
translates it. So the ids are given back (`gives_back`) where the entry for IPv6 is empty, and the
modem keeps the id where it is not (`deInit_iff`).
-/

namespace Wwan.FibocomDial.QmiWwan

/-! ## Services -/

def QMUX_TYPE_CTL : ℕ := 0x00
def QMUX_TYPE_WDS : ℕ := 0x01
def QMUX_TYPE_DMS : ℕ := 0x02
def QMUX_TYPE_NAS : ℕ := 0x03
def QMUX_TYPE_UIM : ℕ := 0x0B
def QMUX_TYPE_WDS_IPV6 : ℕ := 0x11
def QMUX_TYPE_WDS_ADMIN : ℕ := 0x1A

/-- An index of `qmiclientId`. -/
abbrev Entry := Fin (QMUX_TYPE_WDS_ADMIN + 1)

/-- The entry of a service. -/
def entry (QMIType : ℕ) (h : QMIType < QMUX_TYPE_WDS_ADMIN + 1 := by decide) : Entry := ⟨QMIType, h⟩

/-- What of the profile matters here. -/
structure Profile where
  ipv4Flag : Bool
  ipv6Flag : Bool
  qmapMode : ℕ
  deriving DecidableEq

/-- A client id of a service. -/
abbrev Client := ℕ × UInt8

/-! ## Requests -/

/-- The answer to a `QMICTL_GET_CLIENT_ID_REQ`. -/
structure GetClientIdRsp where
  QMUXResult : UInt16
  QMUXError : UInt16
  QMIType : ℕ
  ClientId : UInt8
  deriving DecidableEq

/-- What the modem does with a `QMICTL_GET_CLIENT_ID_REQ`. -/
inductive Outcome
  | success (ClientId : UInt8)
  | failure (QMUXError : UInt16)
  | noResponse
  deriving DecidableEq

/-- The response the program gets. -/
def Outcome.rsp (QMIType : ℕ) : Outcome → Option GetClientIdRsp
  | .success ClientId => some ⟨0, 0, QMIType, ClientId⟩
  | .failure QMUXError => some ⟨1, QMUXError, QMIType, 0⟩
  | .noResponse => none

/-- The id the modem allocates. -/
def Outcome.allocated (QMIType : ℕ) : Outcome → List Client
  | .success ClientId => [(QMIType, ClientId)]
  | _ => []

/-- `QmiWwanGetClientID`. -/
def qmiWwanGetClientID (QMIType : ℕ) (pResponse : Option GetClientIdRsp) : UInt8 :=
  match pResponse with
  | some rsp =>
    if rsp.QMUXResult = 0 ∧ rsp.QMUXError = 0 ∧ QMIType = rsp.QMIType then rsp.ClientId else 0
  | none => 0

/-- A `QMICTL_RELEASE_CLIENT_ID_REQ`: the service of its header, and the id it names. -/
structure ReleaseReq where
  hdrType : ℕ
  client : Client
  deriving DecidableEq

/-- The service that `QmiWwanSendQMI` puts in the header of a request. -/
def sendType (QMIType : ℕ) : ℕ := if QMIType = QMUX_TYPE_WDS_IPV6 then QMUX_TYPE_WDS else QMIType

/-- `QmiWwanSendQMI`. -/
def qmiWwanSendQMI (req : ReleaseReq) : ReleaseReq := { req with hdrType := sendType req.hdrType }

/-- `QmiWwanReleaseClientID`. -/
def qmiWwanReleaseClientID (QMIType : ℕ) (ClientId : UInt8) : ReleaseReq :=
  qmiWwanSendQMI ⟨QMUX_TYPE_CTL, (QMIType, ClientId)⟩

/-! ## The table -/

/-- The table, and the ids the modem has allocated that were not released. -/
structure Cm where
  qmiclientId : Entry → UInt8
  held : List Client

/-- The entries that `QmiWwanInit` fills, with the service each is asked for. -/
def asked (p : Profile) : List (Entry × ℕ) :=
  (if p.ipv4Flag then [(entry QMUX_TYPE_WDS, QMUX_TYPE_WDS)] else []) ++
  (if p.ipv6Flag then [(entry QMUX_TYPE_WDS_IPV6, QMUX_TYPE_WDS)] else []) ++
  [(entry QMUX_TYPE_DMS, QMUX_TYPE_DMS), (entry QMUX_TYPE_NAS, QMUX_TYPE_NAS),
    (entry QMUX_TYPE_UIM, QMUX_TYPE_UIM)] ++
  if p.qmapMode = 0 ∨ p.qmapMode = 1 then [(entry QMUX_TYPE_WDS_ADMIN, QMUX_TYPE_WDS_ADMIN)] else []

/-- The initialisation goes on to ask for ids. -/
def synced (p : Profile) (sync : Bool) : Bool := sync || (p.qmapMode != 0 && p.qmapMode != 1)

namespace Cm

/-- `qmiclientId[i] = QmiWwanGetClientID(QMIType)`. -/
def getClientID (s : Cm) (i : Entry) (QMIType : ℕ) (o : Outcome) : Cm where
  qmiclientId := Function.update s.qmiclientId i (qmiWwanGetClientID QMIType (o.rsp QMIType))
  held := s.held ++ o.allocated QMIType

/-- `QmiWwanInit`: `sync` says that one of the ten `QMICTL_SYNC_REQ` was answered, and `outcomes`
what comes of the request for each entry. -/
def qmiWwanInit (s : Cm) (p : Profile) (sync : Bool) (outcomes : Entry → Outcome) : Cm :=
  if synced p sync then
    (asked p).foldl (fun s q ↦ s.getClientID q.1 q.2 (outcomes q.1)) s
  else s

/-- The requests that `QmiWwanDeInit` sends. -/
def releases (s : Cm) : List ReleaseReq :=
  (List.finRange (QMUX_TYPE_WDS_ADMIN + 1)).filterMap fun i ↦
    if s.qmiclientId i ≠ 0 then some (qmiWwanReleaseClientID i (s.qmiclientId i)) else none

/-- `QmiWwanDeInit`. -/
def qmiWwanDeInit (s : Cm) : Cm where
  qmiclientId i := if s.qmiclientId i ≠ 0 then 0 else s.qmiclientId i
  held := s.held.diff (s.releases.map ReleaseReq.client)

end Cm

/-- A call of the operations of the device. -/
inductive Event
  | init (p : Profile) (sync : Bool) (outcomes : Entry → Outcome)
  | deInit

def Cm.next (s : Cm) : Event → Cm
  | .init p sync outcomes => s.qmiWwanInit p sync outcomes
  | .deInit => s.qmiWwanDeInit

/-- The modem allocates no client id 0. -/
def Cm.enabled (_ : Cm) : Event → Prop
  | .init _ _ outcomes => ∀ i, outcomes i ≠ .success 0
  | .deInit => True

/-- The runs of the program. -/
def system : System Cm Event := ⟨⟨fun _ ↦ 0, []⟩, Cm.enabled, Cm.next⟩

/-- No id in the table is overwritten, and the release names each id that the modem holds for the
program once, and no other, and clears the table. -/
def Law (s : Cm) : Event → Prop
  | .init p sync outcomes =>
    ∀ i, s.qmiclientId i ≠ 0 → (s.qmiWwanInit p sync outcomes).qmiclientId i = s.qmiclientId i
  | .deInit => (s.releases.map ReleaseReq.client).Perm s.held ∧
    ∀ i, s.qmiWwanDeInit.qmiclientId i = 0

/-- Ids are asked for when their entries are empty, and released when there is none for IPv6. -/
def Orderly (s : Cm) : Event → Prop
  | .init p sync _ => synced p sync = true → ∀ q ∈ asked p, s.qmiclientId q.1 = 0
  | .deInit => s.qmiclientId (entry QMUX_TYPE_WDS_IPV6) = 0

/-! ## What the table says of the modem -/

/-- The values found in a table change with an entry that was empty. -/
theorem filterMap_update_perm {ι α : Type*} [DecidableEq ι] {l : List ι} (hl : l.Nodup) {i : ι}
    (hi : i ∈ l) {f : ι → Option α} (hf : f i = none) (x : α) :
    (l.filterMap (Function.update f i (some x))).Perm (x :: l.filterMap f) := by
  induction l with
  | nil => cases hi
  | cons j l ih =>
    obtain ⟨hj, hl⟩ := List.nodup_cons.mp hl
    rcases List.mem_cons.mp hi with rfl | hi
    · have hrest : l.filterMap (Function.update f i (some x)) = l.filterMap f :=
        List.filterMap_congr fun k hk ↦ Function.update_of_ne (ne_of_mem_of_not_mem hk hj) _ _
      rw [List.filterMap_cons_some (Function.update_self i (some x) f), hrest,
        List.filterMap_cons_none hf]
    · have hne : j ≠ i := fun h ↦ hj (h ▸ hi)
      have hat : Function.update f i (some x) j = f j := Function.update_of_ne hne _ _
      cases hfj : f j with
      | none =>
        rw [List.filterMap_cons_none (hat.trans hfj), List.filterMap_cons_none hfj]
        exact ih hl hi
      | some y =>
        rw [List.filterMap_cons_some (hat.trans hfj), List.filterMap_cons_some hfj]
        exact ((ih hl hi).cons y).trans (.swap x y _)

/-- The client that an entry of the table stands for. -/
def Cm.client (s : Cm) (i : Entry) : Option Client :=
  if s.qmiclientId i ≠ 0 then some (sendType i, s.qmiclientId i) else none

/-- The clients in the table. -/
def Cm.clients (s : Cm) : List Client :=
  (List.finRange (QMUX_TYPE_WDS_ADMIN + 1)).filterMap s.client

/-- The table holds what the modem holds for the program. -/
def Cm.Held (s : Cm) : Prop := s.held.Perm s.clients

theorem diff_self {α : Type*} [BEq α] [LawfulBEq α] (l : List α) : l.diff l = [] := by
  induction l with
  | nil => rfl
  | cons a l ih => rw [List.diff_cons, List.erase_cons_head, ih]

theorem qmiWwanGetClientID_success (QMIType : ℕ) (ClientId : UInt8) :
    qmiWwanGetClientID QMIType ((Outcome.success ClientId).rsp QMIType) = ClientId :=
  if_pos ⟨rfl, rfl, rfl⟩

theorem qmiWwanGetClientID_failure (QMIType : ℕ) (QMUXError : UInt16) :
    qmiWwanGetClientID QMIType ((Outcome.failure QMUXError).rsp QMIType) = 0 := by
  unfold qmiWwanGetClientID Outcome.rsp
  refine if_neg ?_
  rintro ⟨hresult, -⟩
  cases hresult

theorem asked_sendType (p : Profile) : ∀ q ∈ asked p, q.2 = sendType q.1 := by
  obtain ⟨ipv4Flag, ipv6Flag, qmapMode⟩ := p
  unfold asked
  split_ifs <;> decide

theorem asked_nodup (p : Profile) : ((asked p).map Prod.fst).Nodup := by
  obtain ⟨ipv4Flag, ipv6Flag, qmapMode⟩ := p
  unfold asked
  split_ifs <;> decide

namespace Cm

variable {s : Cm}

theorem getClientID_self (s : Cm) (i : Entry) (QMIType : ℕ) (o : Outcome) :
    (s.getClientID i QMIType o).qmiclientId i = qmiWwanGetClientID QMIType (o.rsp QMIType) :=
  Function.update_self i _ _

theorem getClientID_of_ne {i j : Entry} (hj : j ≠ i) (QMIType : ℕ) (o : Outcome) :
    (s.getClientID i QMIType o).qmiclientId j = s.qmiclientId j := Function.update_of_ne hj _ _

/-- A request without an id leaves an empty entry empty. -/
theorem clients_getClientID_of_zero {i : Entry} (hempty : s.qmiclientId i = 0) {QMIType : ℕ}
    {o : Outcome} (hzero : qmiWwanGetClientID QMIType (o.rsp QMIType) = 0) :
    (s.getClientID i QMIType o).clients = s.clients := by
  have htable : (s.getClientID i QMIType o).qmiclientId = s.qmiclientId := by
    funext j
    by_cases hj : j = i
    · rw [hj, getClientID_self, hzero, hempty]
    · exact getClientID_of_ne hj QMIType o
  unfold clients client
  rw [htable]

/-- An id for an empty entry. -/
theorem clients_getClientID_success {i : Entry} (hempty : s.qmiclientId i = 0) {ClientId : UInt8}
    (hne : ClientId ≠ 0) :
    (s.getClientID i (sendType i) (.success ClientId)).clients.Perm
      ((sendType i, ClientId) :: s.clients) := by
  have hclient : (s.getClientID i (sendType i) (.success ClientId)).client =
      Function.update s.client i (some (sendType i, ClientId)) := by
    funext j
    by_cases hj : j = i
    · rw [hj, Function.update_self, client, getClientID_self, qmiWwanGetClientID_success,
        if_pos hne]
    · rw [Function.update_of_ne hj, client, getClientID_of_ne hj, client]
  unfold clients
  rw [hclient]
  exact filterMap_update_perm (List.nodup_finRange _) (List.mem_finRange i)
    (if_neg (not_not.mpr hempty)) _

namespace Held

/-- A request for an entry that was empty. -/
theorem getClientID (h : s.Held) {i : Entry} (hempty : s.qmiclientId i = 0) {o : Outcome}
    (ho : o ≠ .success 0) : (s.getClientID i (sendType i) o).Held := by
  unfold Held
  cases o with
  | success ClientId =>
    have hne : ClientId ≠ 0 := by
      rintro rfl
      exact ho rfl
    have hadd := (clients_getClientID_success hempty hne).symm
    exact (List.perm_append_singleton _ _).trans ((h.cons _).trans hadd)
  | failure QMUXError =>
    rw [clients_getClientID_of_zero hempty (qmiWwanGetClientID_failure _ _)]
    exact (List.Perm.of_eq (List.append_nil _)).trans h
  | noResponse =>
    rw [clients_getClientID_of_zero hempty rfl]
    exact (List.Perm.of_eq (List.append_nil _)).trans h

/-- The requests for several entries that were empty. -/
theorem getClientIDs {l : List (Entry × ℕ)} (h : s.Held) (hnodup : (l.map Prod.fst).Nodup)
    (htype : ∀ q ∈ l, q.2 = sendType q.1) (hempty : ∀ q ∈ l, s.qmiclientId q.1 = 0)
    {outcomes : Entry → Outcome} (ho : ∀ i, outcomes i ≠ .success 0) :
    (l.foldl (fun s q ↦ s.getClientID q.1 q.2 (outcomes q.1)) s).Held ∧
      ∀ i, s.qmiclientId i ≠ 0 →
        (l.foldl (fun s q ↦ s.getClientID q.1 q.2 (outcomes q.1)) s).qmiclientId i =
          s.qmiclientId i := by
  induction l generalizing s with
  | nil => exact ⟨h, fun _ _ ↦ rfl⟩
  | cons q l ih =>
    obtain ⟨hq, hnodup⟩ := List.nodup_cons.mp hnodup
    obtain ⟨htypeq, htype⟩ := List.forall_mem_cons.mp htype
    obtain ⟨hemptyq, hempty⟩ := List.forall_mem_cons.mp hempty
    have hheld : (s.getClientID q.1 q.2 (outcomes q.1)).Held := by
      rw [htypeq]
      exact h.getClientID hemptyq (ho q.1)
    have hrest : ∀ r ∈ l, (s.getClientID q.1 q.2 (outcomes q.1)).qmiclientId r.1 = 0 := by
      intro r hr
      have hne : r.1 ≠ q.1 := fun heq ↦ hq (heq ▸ List.mem_map_of_mem hr)
      rw [getClientID_of_ne hne]
      exact hempty r hr
    obtain ⟨hfinal, hkept⟩ := ih hheld hnodup htype hrest
    refine ⟨hfinal, fun i hi ↦ ?_⟩
    have hne : i ≠ q.1 := by
      rintro rfl
      exact hi hemptyq
    have hstep := getClientID_of_ne (s := s) hne q.2 (outcomes q.1)
    exact (hkept i (hstep ▸ hi)).trans hstep

end Held

/-- Every entry but that for IPv6 is a service of QMI. -/
theorem sendType_of_ne {i : Entry} (hi : i ≠ entry QMUX_TYPE_WDS_IPV6) : sendType i = i :=
  if_neg fun h ↦ hi (Fin.ext h)

/-- With the entry for IPv6 empty, the requests name the clients in the table. -/
theorem releases_clients (hempty : s.qmiclientId (entry QMUX_TYPE_WDS_IPV6) = 0) :
    s.releases.map ReleaseReq.client = s.clients := by
  rw [releases, clients, List.map_filterMap]
  refine List.filterMap_congr fun i _ ↦ ?_
  unfold client
  split
  next hi =>
    have hne : i ≠ entry QMUX_TYPE_WDS_IPV6 := fun heq ↦ hi (heq ▸ hempty)
    rw [sendType_of_ne hne]
    rfl
  next hi => rfl

theorem qmiWwanDeInit_empty (s : Cm) (i : Entry) : s.qmiWwanDeInit.qmiclientId i = 0 := by
  show (if s.qmiclientId i ≠ 0 then 0 else s.qmiclientId i) = 0
  split_ifs with hi
  · rfl
  · exact not_not.mp hi

/-- After a lawful release, the modem holds nothing and the table is empty. -/
theorem Held.qmiWwanDeInit (h : (s.releases.map ReleaseReq.client).Perm s.held) :
    s.qmiWwanDeInit.Held := by
  have hheld : s.qmiWwanDeInit.held = [] := (h.diff_left s.held).trans (diff_self s.held)
  have hclients : s.qmiWwanDeInit.clients = [] :=
    List.filterMap_eq_nil_iff.mpr fun i _ ↦ if_neg (not_not.mpr (s.qmiWwanDeInit_empty i))
  unfold Held
  rw [hheld, hclients]

/-- A step as it should be does what it should do. -/
theorem Held.law (h : s.Held) {e : Event} (henabled : s.enabled e) (horderly : Orderly s e) :
    Law s e ∧ (s.next e).Held := by
  cases e with
  | init p sync outcomes =>
    show (∀ i, s.qmiclientId i ≠ 0 → (s.qmiWwanInit p sync outcomes).qmiclientId i =
      s.qmiclientId i) ∧ (s.qmiWwanInit p sync outcomes).Held
    unfold qmiWwanInit
    split
    next hsynced =>
      exact (h.getClientIDs (asked_nodup p) (asked_sendType p) (horderly hsynced) henabled).symm
    next => exact ⟨fun _ _ ↦ rfl, h⟩
  | deInit =>
    have hreleases : (s.releases.map ReleaseReq.client).Perm s.held := by
      rw [releases_clients horderly]
      exact h.symm
    exact ⟨⟨hreleases, s.qmiWwanDeInit_empty⟩, .qmiWwanDeInit hreleases⟩

end Cm

/-- The table holds what the modem holds in every orderly run. -/
theorem held {s : Cm} (hs : system.Reach Orderly s) : s.Held :=
  hs.invariant (List.Perm.refl _) fun _ _ h henabled horderly ↦ (h.law henabled horderly).2

/-- The client ids are given back in every orderly run. -/
theorem gives_back {s : Cm} (hs : system.Reach Orderly s) {e : Event} (henabled : s.enabled e)
    (horderly : Orderly s e) : Law s e :=
  ((held hs).law henabled horderly).1

/-- The ids held after an orderly run are given back just if there is none for IPv6. -/
theorem deInit_iff {s : Cm} (hs : system.Reach Orderly s) : Law s .deInit ↔ Orderly s .deInit := by
  constructor
  · rintro ⟨hreleases, -⟩
    by_contra hipv6
    have hsent : (QMUX_TYPE_WDS_IPV6, s.qmiclientId (entry QMUX_TYPE_WDS_IPV6)) ∈
        s.releases.map ReleaseReq.client :=
      List.mem_map.mpr ⟨_, List.mem_filterMap.mpr ⟨_, List.mem_finRange _, if_pos hipv6⟩, rfl⟩
    -- The modem has no service of this number.
    have hclient := ((hreleases.trans (held hs)).mem_iff).mp hsent
    obtain ⟨i, -, hi⟩ := List.mem_filterMap.mp hclient
    unfold Cm.client at hi
    split at hi
    next =>
      have htype : sendType i = QMUX_TYPE_WDS_IPV6 := congrArg Prod.fst (Option.some.inj hi)
      unfold sendType at htype
      split at htype
      next => cases htype
      next hne => exact hne htype
    next => cases hi
  · intro horderly
    exact gives_back hs trivial horderly

/-- Both families are initialised; the modem has no id for the second WDS client. -/
theorem gives_back_ipv4 :
    let outcomes : Entry → Outcome := fun i ↦
      if i = entry QMUX_TYPE_WDS_IPV6 then .failure 0x0005 else .success 7
    let s := system.exec system.init [.init ⟨true, true, 0⟩ true outcomes]
    system.Reach Orderly s ∧ Law s .deInit ∧
      s.releases.map ReleaseReq.client = [(1, 7), (2, 7), (3, 7), (11, 7), (26, 7)] := by
  intro outcomes s
  have hs : system.Reach Orderly s := by
    refine System.Reach.init.exec ⟨fun i ↦ ?_, fun _ _ _ ↦ rfl, trivial⟩
    show outcomes i ≠ .success 0
    revert i
    decide
  have hempty : s.qmiclientId (entry QMUX_TYPE_WDS_IPV6) = 0 := by decide
  exact ⟨hs, gives_back hs trivial hempty, by decide⟩

/-- A second WDS client is not given back: an id of the service 0x11 is released in its place. -/
theorem wdsIpv6_kept :
    ¬ ∀ s, system.Reach (fun _ _ ↦ True) s → ∀ e, s.enabled e → Law s e := by
  intro h
  let outcomes : Entry → Outcome := fun i ↦
    if i = entry QMUX_TYPE_WDS_IPV6 then .success 9 else .noResponse
  have hs : system.Along (fun _ _ ↦ True) system.init [.init ⟨false, true, 0⟩ true outcomes] := by
    refine ⟨fun i ↦ ?_, trivial, trivial⟩
    show outcomes i ≠ .success 0
    revert i
    decide
  obtain ⟨hreleases, -⟩ := h _ (System.Reach.init.exec hs) .deInit trivial
  revert hreleases
  decide

end Wwan.FibocomDial.QmiWwan
