import Wwan.QrtrProxy.Proxy

/-!
# What the proxy reads and copies of a packet

`rx_buf` keeps what earlier reads left behind the bytes of a packet. The length tests of
`qrtr_proxy_loop` read a size out of the packet before they know that it is there, and wrap around
with it. Here the functions are followed access by access: which fields they read, and how much
they copy to where.
-/

namespace Wwan.QrtrProxy

open Wwan.Bytes
open Wwan.QmiProxy (qmiByte qmiShort hdrLength hdrQmiType hdrClientId qmiCtlType qmuxTypeCtl
  qmiCtlGetClientId qmiCtlReleaseClientId qmiCtlSyncReq)

/-! ## Accesses -/

/-- `sizeof(struct qrtr_hdr_v1)`. -/
def qrtrHdrSize : ℕ := 32

/-- `sizeof(QCQMI_HDR)`. -/
def qcqmiHdrSize : ℕ := 6

/-- `sizeof(struct qrtr_ctrl_pkt)`. -/
def qrtrCtrlPktSize : ℕ := 20

/-- `align_4`, of a `size_t`. -/
def align4 (w : LongWidth) (size : ℕ) : ℕ := (size + 3) % 2 ^ w.bits / 4 * 4

/-- What `memcpy` copies from: an offset in `rx_buf`, or a variable of this size. -/
inductive CopySource
  | rxBuf (offset : ℕ)
  | own (size : ℕ)
  deriving DecidableEq

inductive Access
  | /-- A field of a QRTR, QMI or CTL header in `rx_buf` is read. -/
    header (offset len : ℕ)
  | /-- Another field in `rx_buf` is read. -/
    body (offset len : ℕ)
  | /-- `memcpy` to an offset in an allocation of this size. -/
    memcpy (source : CopySource) (len dst size : ℕ)
  | /-- A message of `built` bytes is sent to a client: its `Length`, and the count of `write`. -/
    send (Length count built : ℕ)
  deriving DecidableEq

namespace Access

/-- The access keeps to the bytes that were read and to the allocation. Nothing is asked of fields
outside of the headers. -/
def Inside (nreads : ℕ) : Access → Prop
  | header offset len => offset + len ≤ nreads
  | body _ _ => True
  | memcpy (.rxBuf offset) len dst size => offset + len ≤ nreads ∧ dst + len ≤ size
  | memcpy (.own m) len dst size => len ≤ m ∧ dst + len ≤ size
  | send Length count built => Length = count - 1 ∧ count = built

end Access

/-- `qrtr_node_enqueue` -/
def enqueueAccesses (w : LongWidth) (malloc : Bool) (source : CopySource) (len : ℕ) :
    List Access :=
  if malloc then
    [.memcpy source len qrtrHdrSize (align4 w ((qrtrHdrSize + len) % 2 ^ w.bits))]
  else []

/-- `send_qmi_to_client` -/
def sendAccess (Length built : ℕ) : Access := .send Length (Length + 1) built

/-- `dump_qrtr` prints every field of the header. -/
def dumpAccesses : List Access := (List.range 8).map fun i ↦ .header (4 * i) 4

/-! ## A packet -/

/-- `rx_buf` after a read that has returned `nreads`. -/
structure Rx where
  rx_buf : List UInt8
  size : rx_buf.length = 8192
  nreads : ℕ
  pos : 0 < nreads
  le_size : nreads ≤ 8192

/-- Where it was read from. -/
inductive RxOrigin
  | dev
  | client (clientfd : ℤ)

namespace Rx

variable (rx : Rx) (w : LongWidth) (p : Proxy) (malloc : ℕ → Bool)

/-- `hdr` -/
def hdr : QrtrPacket where
  type := ctrlField rx.rx_buf 4
  src := ⟨ctrlField rx.rx_buf 8, ctrlField rx.rx_buf 12⟩
  dst := ⟨ctrlField rx.rx_buf 24, ctrlField rx.rx_buf 28⟩
  confirm_rx := ctrlField rx.rx_buf 16 ≠ 0
  size := (ctrlField rx.rx_buf 20).toNat
  payload := rx.rx_buf.drop qrtrHdrSize

/-- The length tests of `qrtr_proxy_loop`. -/
def Passes : RxOrigin → Prop
  | .dev => (rx.nreads : ℤ) = int32 (align4 w ((rx.hdr.size + qrtrHdrSize) % 2 ^ w.bits) : ℕ)
  | .client _ => rx.nreads = hdrLength rx.rx_buf + 1

instance : (o : RxOrigin) → Decidable (rx.Passes w o)
  | .dev => inferInstanceAs (Decidable (_ = _))
  | .client _ => inferInstanceAs (Decidable (_ = _))

/-- The clients that a packet is for. -/
def receivers : List QrtrProxyClient :=
  p.qrtr_proxy_connection.flatMap fun con ↦ con.client_qnode.filter fun client ↦
    client.node_id = rx.hdr.dst.node ∧ client.port_id = rx.hdr.dst.port

/-- What a client is compared to. -/
def compareAccesses (client : QrtrProxyClient) : List Access :=
  .header 24 4 :: if client.node_id = rx.hdr.dst.node then [.header 28 4] else []

/-- The message for a client, if `malloc` has memory for it. -/
def messageAccesses (malloc : Bool) : List Access :=
  .header 20 4 ::
    if malloc then
      [.header 20 4,
        .memcpy (.rxBuf qrtrHdrSize) rx.hdr.size qcqmiHdrSize
          ((rx.hdr.size + qcqmiHdrSize) % 2 ^ w.bits),
        sendAccess ((rx.hdr.size + qcqmiHdrSize - 1) % 65536) (rx.hdr.size + qcqmiHdrSize)]
    else []

/-- `QRTR_TYPE_DATA` -/
def dataAccesses : List Access :=
  (p.qrtr_proxy_connection.flatMap (·.client_qnode)).flatMap rx.compareAccesses ++
    (List.range (rx.receivers p).length).flatMap (fun k ↦ rx.messageAccesses w (malloc k)) ++
    .header 16 4 ::
      if rx.hdr.confirm_rx then
        [.header 24 4, .header 28 4, .header 8 4, .header 12 4] ++
          enqueueAccesses w (malloc (rx.receivers p).length) (.own qrtrCtrlPktSize) qrtrCtrlPktSize
      else []

/-- `recv_qrtr_from_dev`; `malloc` says which allocations succeed, in their order. -/
def recvQrtrFromDevAccesses : List Access :=
  .header 4 4 ::
    if rx.hdr.type = qrtrTypeHello then
      [.header 8 4, .header 12 4] ++
        enqueueAccesses w (malloc 0) (.own qrtrCtrlPktSize) qrtrCtrlPktSize
    else if rx.hdr.type = qrtrTypeNewServer ∨ rx.hdr.type = qrtrTypeDelServer then
      -- `handle_server_change`
      [.header 4 4, .body 44 4, .body 48 4, .header 8 4, .header 12 4, .body 36 4, .body 40 4]
    else if rx.hdr.type = qrtrTypeData then rx.dataAccesses w p malloc
    else []

/-- The search for the client id: the type is compared first, and the first client that matches
ends it. -/
def matchAccesses : List QrtrProxyClient → List Access
  | [] => []
  | client :: clients =>
    .header 4 1 ::
      if hdrQmiType rx.rx_buf = client.QMIType then
        .header 5 1 ::
          if hdrClientId rx.rx_buf = client.ClientId then [.header 4 1] else matchAccesses clients
      else matchAccesses clients

/-- A service message: it is copied if there is a client id and a service for it. -/
def forwardAccesses (con : QrtrProxyConnection) : List Access :=
  rx.matchAccesses con.client_qnode ++
    if p.forwardQmi con rx.rx_buf = [] then []
    else
      -- `le16toh(pQMI->QMIHdr.Length) + 1 - sizeof(QCQMI_HDR)`
      .header 1 2 :: enqueueAccesses w (malloc 0) (.rxBuf qcqmiHdrSize)
        ((hdrLength rx.rx_buf + 1 + 2 ^ w.bits - qcqmiHdrSize) % 2 ^ w.bits)

/-- The messages to clients among what is sent. -/
def sentAccesses : List Output → List Access
  | [] => []
  | .toClient _ pRsp :: out => sendAccess (hdrLength pRsp) pRsp.length :: sentAccesses out
  | .toDev _ :: out => sentAccesses out

/-- A CTL request. -/
def ctlAccesses (con : QrtrProxyConnection) : List Access :=
  .header 8 2 ::
    if qmiCtlType rx.rx_buf = qmiCtlSyncReq then []
    else if qmiCtlType rx.rx_buf = qmiCtlGetClientId then
      .body 15 1 ::
        if malloc 0 then
          [.header 7 1, .header 8 2] ++ sentAccesses (p.getClientId con rx.rx_buf).2
        else []
    else if qmiCtlType rx.rx_buf = qmiCtlReleaseClientId then
      [.body 15 1, .body 16 1] ++
        -- `ctrl_cmd_del_client`, if the id is found
        (if (con.client_qnode.any fun client ↦
            Proxy.Matches (reqQmiType rx.rx_buf) (reqClientId rx.rx_buf) client) then
          enqueueAccesses w (malloc 1) (.own qrtrCtrlPktSize) qrtrCtrlPktSize
        else []) ++
        if malloc 0 then
          [.header 7 1, .header 8 2, .body 15 1, .body 16 1] ++
            sentAccesses (p.releaseClientId con rx.rx_buf true).2
        else []
    else if qmiCtlType rx.rx_buf = qmiCtlGetVersionReq then
      if malloc 0 then
        [.header 7 1, .header 8 2, sendAccess (hdrLength (getVersionRsp rx.rx_buf))
          (getVersionRsp rx.rx_buf).length]
      else []
    else []

/-- `recv_qmi_from_client` -/
def recvQmiFromClientAccesses (clientfd : ℤ) : List Access :=
  match p.connection clientfd with
  | none => []
  | some con =>
    .header 4 1 ::
      if hdrQmiType rx.rx_buf = qmuxTypeCtl then rx.ctlAccesses w p malloc con
      else rx.forwardAccesses w p malloc con

/-- What the loop does with a packet that passes the test, and the test itself. -/
def accesses : RxOrigin → List Access
  | .dev => .header 20 4 :: dumpAccesses ++ rx.recvQrtrFromDevAccesses w p malloc
  | .client clientfd => .header 1 2 :: rx.recvQmiFromClientAccesses w p malloc clientfd

/-- The headers were read, as far as they are used, and the size of a payload that is copied does not
wrap around. -/
def Whole : RxOrigin → Prop
  | .dev =>
    qrtrHdrSize ≤ rx.nreads ∧
      (rx.hdr.type = qrtrTypeData → (∃ k < (rx.receivers p).length, malloc k) →
        rx.hdr.size < 2 ^ 32 - 3)
  | .client clientfd =>
    3 ≤ rx.nreads ∧ ∀ con, p.connection clientfd = some con →
      5 ≤ rx.nreads ∧
        (if hdrQmiType rx.rx_buf = qmuxTypeCtl then 10 ≤ rx.nreads
        else (∃ client ∈ con.client_qnode, hdrQmiType rx.rx_buf = client.QMIType) →
          qcqmiHdrSize ≤ rx.nreads)

end Rx

/-! ## Allocations -/

section Allocations

variable {w : LongWidth} {n len : ℕ}

theorem two_pow_le (w : LongWidth) : 2 ^ 32 ≤ 2 ^ w.bits := Nat.pow_le_pow_right (by decide) w.le_bits

/-- There is room for the header and the data. -/
theorem le_align4 (h : len + 35 < 2 ^ 32) :
    qrtrHdrSize + len ≤ align4 w ((qrtrHdrSize + len) % 2 ^ w.bits) := by
  have hw := two_pow_le w
  have hsize : (qrtrHdrSize + len) % 2 ^ w.bits = qrtrHdrSize + len :=
    Nat.mod_eq_of_lt (by rw [qrtrHdrSize]; omega)
  rw [hsize, align4, Nat.mod_eq_of_lt (by rw [qrtrHdrSize]; omega)]
  omega

/-- A control packet is copied as a whole. -/
theorem enqueue_own (m : Bool) :
    ∀ a ∈ enqueueAccesses w m (.own qrtrCtrlPktSize) qrtrCtrlPktSize, a.Inside n := by
  intro a ha
  unfold enqueueAccesses at ha
  split at ha
  · rw [List.mem_singleton.mp ha]
    exact ⟨Nat.le_refl _, le_align4 (by decide)⟩
  · exact absurd ha List.not_mem_nil

/-- The sizes that pass the test, but do not fit: the packet is a header alone. -/
theorem Rx.size_of_passes {rx : Rx} (h : rx.Passes w .dev) (hhdr : qrtrHdrSize ≤ rx.nreads) :
    qrtrHdrSize + rx.hdr.size ≤ rx.nreads ∨ rx.nreads = qrtrHdrSize ∧ 2 ^ 32 - 3 ≤ rx.hdr.size := by
  have hsize : rx.hdr.size < 2 ^ 32 := UInt32.toNat_lt _
  have hle := rx.le_size
  obtain ⟨-, -, k, hk⟩ :=
    int32_spec (align4 w ((rx.hdr.size + qrtrHdrSize) % 2 ^ w.bits) : ℕ)
  rw [← show (rx.nreads : ℤ) = _ from h, align4] at hk
  rw [qrtrHdrSize] at *
  rcases Nat.eq_or_lt_of_le w.le_bits with hbits | hbits
  · -- the sum itself may wrap around
    rw [← hbits] at hk
    omega
  · -- the conversion to `int` cuts it
    have hw : 2 ^ 33 ≤ 2 ^ w.bits := Nat.pow_le_pow_right (by decide) hbits
    have hsum : (rx.hdr.size + 32) % 2 ^ w.bits = rx.hdr.size + 32 := Nat.mod_eq_of_lt (by omega)
    rw [hsum, Nat.mod_eq_of_lt (by omega)] at hk
    omega

end Allocations

/-! ## Responses -/

/-- The length of a response is that of its bytes. -/
theorem hdrLength_ctlRsp (pQMI TLV2 : List UInt8) (r e : ℕ) (h : TLV2.length < 1000) :
    hdrLength (ctlRsp pQMI r e TLV2) + 1 = (ctlRsp pQMI r e TLV2).length := by
  have hlength : hdrLength (ctlRsp pQMI r e TLV2) = 13 + TLV2.length + 6 - 1 :=
    le16_byteOf (by omega)
  rw [hlength]
  simp [ctlRsp, toLe16]
  omega

theorem sentAccesses_inside {n : ℕ} {out : List Output}
    (h : ∀ fd pRsp, Output.toClient fd pRsp ∈ out → hdrLength pRsp + 1 = pRsp.length) :
    ∀ a ∈ Rx.sentAccesses out, a.Inside n := by
  induction out with
  | nil => exact fun a ha ↦ absurd ha List.not_mem_nil
  | cons o out ih =>
    have hrest := ih fun fd pRsp hmem ↦ h fd pRsp (List.mem_cons_of_mem o hmem)
    cases o with
    | toClient fd pRsp =>
      intro a ha
      rcases List.mem_cons.mp ha with rfl | ha
      · exact ⟨rfl, h fd pRsp List.mem_cons_self⟩
      · exact hrest a ha
    | toDev hdr => exact hrest

namespace Rx

variable {rx : Rx} {w : LongWidth} {p : Proxy} {malloc : ℕ → Bool}

theorem getClientId_inside (con : QrtrProxyConnection) (n : ℕ) :
    ∀ a ∈ sentAccesses (p.getClientId con rx.rx_buf).2, a.Inside n := by
  apply sentAccesses_inside
  intro fd pRsp hmem
  have hrsp : ∃ id, pRsp = getClientIdRsp rx.rx_buf id := by
    unfold Proxy.getClientId at hmem
    split at hmem
    next => exact ⟨0, (Output.toClient.inj (List.mem_singleton.mp hmem)).2⟩
    next => exact ⟨_, (Output.toClient.inj (List.mem_singleton.mp hmem)).2⟩
  obtain ⟨id, rfl⟩ := hrsp
  exact hdrLength_ctlRsp _ _ _ _ (show 5 < 1000 by decide)

theorem releaseClientId_inside (con : QrtrProxyConnection) (n : ℕ) :
    ∀ a ∈ sentAccesses (p.releaseClientId con rx.rx_buf true).2, a.Inside n := by
  apply sentAccesses_inside
  intro fd pRsp hmem
  have hrsp : pRsp = releaseClientIdRsp rx.rx_buf := by
    simp only [Proxy.releaseClientId, Proxy.releaseQrtrClientId, if_true] at hmem
    rcases List.mem_append.mp hmem with hmem | hmem
    · split at hmem
      next => exact absurd hmem List.not_mem_nil
      next => exact absurd (List.mem_singleton.mp hmem) (by simp [Proxy.ctrlCmdDelClient, qrtrNodeEnqueue])
    · exact (Output.toClient.inj (List.mem_singleton.mp hmem)).2
  rw [hrsp]
  exact hdrLength_ctlRsp _ _ _ _ (show 5 < 1000 by decide)

/-! ## Packets of clients -/

/-- A CTL request needs its header. -/
theorem ctlAccesses_inside_iff (con : QrtrProxyConnection) :
    (∀ a ∈ rx.ctlAccesses w p malloc con, a.Inside rx.nreads) ↔ 10 ≤ rx.nreads := by
  constructor
  · intro h
    exact h (.header 8 2) List.mem_cons_self
  · intro hn
    have hhdr : ∀ offset len, offset + len ≤ 10 → (Access.header offset len).Inside rx.nreads :=
      fun _ _ h ↦ Nat.le_trans h hn
    have hids : ∀ a ∈ [Access.header 7 1, .header 8 2], a.Inside rx.nreads :=
      List.forall_mem_cons.mpr ⟨hhdr 7 1 (by decide),
        List.forall_mem_singleton.mpr (hhdr 8 2 (by decide))⟩
    refine List.forall_mem_cons.mpr ⟨hhdr 8 2 (by decide), ?_⟩
    split
    · exact List.forall_mem_nil _
    split
    · refine List.forall_mem_cons.mpr ⟨trivial, ?_⟩
      split
      · exact List.forall_mem_append.mpr ⟨hids, getClientId_inside con _⟩
      · exact List.forall_mem_nil _
    split
    · refine List.forall_mem_append.mpr ⟨List.forall_mem_append.mpr ⟨?_, ?_⟩, ?_⟩
      · exact List.forall_mem_cons.mpr ⟨trivial, List.forall_mem_singleton.mpr trivial⟩
      · split
        · exact enqueue_own _
        · exact List.forall_mem_nil _
      · split
        · refine List.forall_mem_append.mpr ⟨?_, releaseClientId_inside con _⟩
          refine List.forall_mem_cons.mpr ⟨hhdr 7 1 (by decide), ?_⟩
          refine List.forall_mem_cons.mpr ⟨hhdr 8 2 (by decide), ?_⟩
          exact List.forall_mem_cons.mpr ⟨trivial, List.forall_mem_singleton.mpr trivial⟩
        · exact List.forall_mem_nil _
    split
    · split
      · refine List.forall_mem_cons.mpr ⟨hhdr 7 1 (by decide), ?_⟩
        refine List.forall_mem_cons.mpr ⟨hhdr 8 2 (by decide), List.forall_mem_singleton.mpr ?_⟩
        exact ⟨rfl, hdrLength_ctlRsp _ _ _ _ (show 4 < 1000 by decide)⟩
      · exact List.forall_mem_nil _
    · exact List.forall_mem_nil _

/-- The client id is read for the first client of the type. -/
theorem matchAccesses_inside_iff (hn : 5 ≤ rx.nreads) (clients : List QrtrProxyClient) :
    (∀ a ∈ rx.matchAccesses clients, a.Inside rx.nreads) ↔
      ((∃ client ∈ clients, hdrQmiType rx.rx_buf = client.QMIType) → qcqmiHdrSize ≤ rx.nreads) := by
  induction clients with
  | nil =>
    refine iff_of_true (List.forall_mem_nil _) ?_
    rintro ⟨client, hmem, -⟩
    exact absurd hmem List.not_mem_nil
  | cons client clients ih =>
    rw [matchAccesses, List.forall_mem_cons]
    constructor
    · rintro ⟨-, h⟩ ⟨other, hmem, htype⟩
      split at h
      next => exact h (.header 5 1) List.mem_cons_self
      next hne =>
        rcases List.mem_cons.mp hmem with rfl | hmem
        · exact absurd htype hne
        · exact ih.mp h ⟨other, hmem, htype⟩
    · intro h
      refine ⟨hn, ?_⟩
      split
      next htype =>
        have hlong := h ⟨client, List.mem_cons_self, htype⟩
        refine List.forall_mem_cons.mpr ⟨hlong, ?_⟩
        split
        · exact List.forall_mem_singleton.mpr hn
        · exact ih.mpr fun _ ↦ hlong
      next =>
        refine ih.mpr ?_
        rintro ⟨other, hmem, htype⟩
        exact h ⟨other, List.mem_cons_of_mem client hmem, htype⟩

/-- A message is forwarded for a client of its type. -/
theorem exists_of_forwardQmi {con : QrtrProxyConnection} (h : p.forwardQmi con rx.rx_buf ≠ []) :
    ∃ client ∈ con.client_qnode, hdrQmiType rx.rx_buf = client.QMIType := by
  unfold Proxy.forwardQmi at h
  split at h
  next => exact absurd rfl h
  next client hfind =>
    have hmatch := List.find?_some hfind
    exact ⟨client, List.mem_of_find?_eq_some hfind, (of_decide_eq_true hmatch).1⟩

theorem forwardAccesses_inside_iff {fd : ℤ} (h : rx.Passes w (.client fd)) (hn : 5 ≤ rx.nreads)
    (con : QrtrProxyConnection) :
    (∀ a ∈ rx.forwardAccesses w p malloc con, a.Inside rx.nreads) ↔
      ((∃ client ∈ con.client_qnode, hdrQmiType rx.rx_buf = client.QMIType) →
        qcqmiHdrSize ≤ rx.nreads) := by
  rw [forwardAccesses, List.forall_mem_append, matchAccesses_inside_iff hn]
  constructor
  · exact fun hall ↦ hall.1
  · intro hmatch
    refine ⟨hmatch, ?_⟩
    split
    · exact List.forall_mem_nil _
    next hforward =>
      have hlong := hmatch (exists_of_forwardQmi hforward)
      have hw := two_pow_le w
      have hle := rx.le_size
      -- the difference does not wrap around
      have hlen : (hdrLength rx.rx_buf + 1 + 2 ^ w.bits - qcqmiHdrSize) % 2 ^ w.bits =
          rx.nreads - qcqmiHdrSize := by
        rw [← show rx.nreads = _ from h, Nat.sub_add_comm hlong, Nat.add_mod_right]
        exact Nat.mod_eq_of_lt (by omega)
      refine List.forall_mem_cons.mpr ⟨Nat.le_trans (by decide) hn, ?_⟩
      rw [hlen, enqueueAccesses]
      split
      · refine List.forall_mem_singleton.mpr ⟨?_, le_align4 ?_⟩
        · exact Nat.le_of_eq (Nat.add_sub_cancel' hlong)
        · omega
      · exact List.forall_mem_nil _

theorem client_inside_iff {fd : ℤ} (h : rx.Passes w (.client fd)) :
    (∀ a ∈ rx.accesses w p malloc (.client fd), a.Inside rx.nreads) ↔
      rx.Whole p malloc (.client fd) := by
  rw [accesses, List.forall_mem_cons, Whole, recvQmiFromClientAccesses]
  refine and_congr_right fun _ ↦ ?_
  cases hcon : p.connection fd with
  | none =>
    refine iff_of_true (List.forall_mem_nil _) ?_
    rintro con ⟨⟩
  | some con =>
    simp only [Option.some.injEq, forall_eq']
    rw [List.forall_mem_cons]
    refine and_congr_right fun hn ↦ ?_
    split
    · exact ctlAccesses_inside_iff con
    · exact forwardAccesses_inside_iff h hn con

/-! ## Packets of the device -/

theorem messageAccesses_inside (hhdr : qrtrHdrSize ≤ rx.nreads) (m : Bool)
    (hfits : m → qrtrHdrSize + rx.hdr.size ≤ rx.nreads) :
    ∀ a ∈ rx.messageAccesses w m, a.Inside rx.nreads := by
  have hsize : (Access.header 20 4).Inside rx.nreads := Nat.le_trans (by decide) hhdr
  refine List.forall_mem_cons.mpr ⟨hsize, ?_⟩
  split
  next hm =>
    have hw := two_pow_le w
    have hle := rx.le_size
    have hpayload := hfits hm
    rw [qrtrHdrSize] at hpayload
    refine List.forall_mem_cons.mpr ⟨hsize, List.forall_mem_cons.mpr ⟨⟨hfits hm, ?_⟩, ?_⟩⟩
    · rw [Nat.mod_eq_of_lt (by rw [qcqmiHdrSize]; omega)]
      exact Nat.le_of_eq (Nat.add_comm _ _)
    · refine List.forall_mem_singleton.mpr ⟨(Nat.add_sub_cancel_right ..).symm, ?_⟩
      rw [qcqmiHdrSize]
      omega
  next => exact List.forall_mem_nil _

theorem hdr_fields (hhdr : qrtrHdrSize ≤ rx.nreads) (i : ℕ) (hi : i < 8) :
    (Access.header (4 * i) 4).Inside rx.nreads :=
  Nat.le_trans (show 4 * i + 4 ≤ 32 by omega) hhdr

theorem dataAccesses_inside_iff (h : rx.Passes w .dev) (hhdr : qrtrHdrSize ≤ rx.nreads) :
    (∀ a ∈ rx.dataAccesses w p malloc, a.Inside rx.nreads) ↔
      ((∃ k < (rx.receivers p).length, malloc k) → rx.hdr.size < 2 ^ 32 - 3) := by
  have hfield := hdr_fields hhdr
  constructor
  · rintro hall ⟨k, hk, hm⟩
    have hcopy := hall (.memcpy (.rxBuf qrtrHdrSize) rx.hdr.size qcqmiHdrSize
      ((rx.hdr.size + qcqmiHdrSize) % 2 ^ w.bits)) (by
        refine List.mem_append_left _ (List.mem_append_right _ ?_)
        refine List.mem_flatMap.mpr ⟨k, List.mem_range.mpr hk, ?_⟩
        rw [messageAccesses, if_pos hm]
        exact List.mem_cons_of_mem _ (List.mem_cons_of_mem _ List.mem_cons_self))
    have hle := rx.le_size
    have hinside : qrtrHdrSize + rx.hdr.size ≤ rx.nreads := hcopy.1
    omega
  · intro hsize
    refine List.forall_mem_append.mpr ⟨List.forall_mem_append.mpr ⟨?_, ?_⟩, ?_⟩
    · intro a ha
      obtain ⟨client, -, ha⟩ := List.mem_flatMap.mp ha
      rcases List.mem_cons.mp ha with rfl | ha
      · exact hfield 6 (by decide)
      · split at ha
        · rw [List.mem_singleton.mp ha]
          exact hfield 7 (by decide)
        · exact absurd ha List.not_mem_nil
    · intro a ha
      obtain ⟨k, hk, ha⟩ := List.mem_flatMap.mp ha
      refine messageAccesses_inside hhdr (malloc k) (fun hm ↦ ?_) a ha
      have hlt := hsize ⟨k, List.mem_range.mp hk, hm⟩
      rcases size_of_passes h hhdr with hfits | ⟨-, hbig⟩
      · exact hfits
      · omega
    · refine List.forall_mem_cons.mpr ⟨hfield 4 (by decide), ?_⟩
      split
      · refine List.forall_mem_append.mpr ⟨?_, enqueue_own _⟩
        refine List.forall_mem_cons.mpr ⟨hfield 6 (by decide), ?_⟩
        refine List.forall_mem_cons.mpr ⟨hfield 7 (by decide), ?_⟩
        exact List.forall_mem_cons.mpr ⟨hfield 2 (by decide),
          List.forall_mem_singleton.mpr (hfield 3 (by decide))⟩
      · exact List.forall_mem_nil _

theorem recvQrtrFromDev_inside_iff (h : rx.Passes w .dev) (hhdr : qrtrHdrSize ≤ rx.nreads) :
    (∀ a ∈ rx.recvQrtrFromDevAccesses w p malloc, a.Inside rx.nreads) ↔
      (rx.hdr.type = qrtrTypeData → (∃ k < (rx.receivers p).length, malloc k) →
        rx.hdr.size < 2 ^ 32 - 3) := by
  have hfield := hdr_fields hhdr
  rw [recvQrtrFromDevAccesses, List.forall_mem_cons, and_iff_right (hfield 1 (by decide))]
  split
  next htype =>
    refine iff_of_true ?_ fun hdata ↦ absurd (htype.symm.trans hdata) (by decide)
    refine List.forall_mem_append.mpr ⟨?_, enqueue_own _⟩
    exact List.forall_mem_cons.mpr ⟨hfield 2 (by decide),
      List.forall_mem_singleton.mpr (hfield 3 (by decide))⟩
  split
  next htype =>
    refine iff_of_true ?_ fun hdata ↦ ?_
    · refine List.forall_mem_cons.mpr ⟨hfield 1 (by decide), ?_⟩
      refine List.forall_mem_cons.mpr ⟨trivial, List.forall_mem_cons.mpr ⟨trivial, ?_⟩⟩
      refine List.forall_mem_cons.mpr ⟨hfield 2 (by decide), ?_⟩
      refine List.forall_mem_cons.mpr ⟨hfield 3 (by decide), ?_⟩
      exact List.forall_mem_cons.mpr ⟨trivial, List.forall_mem_singleton.mpr trivial⟩
    · rw [hdata] at htype
      exact absurd htype (by decide)
  split
  next htype =>
    rw [dataAccesses_inside_iff h hhdr]
    exact ⟨fun hsize _ ↦ hsize, fun hsize ↦ hsize htype⟩
  next htype => exact iff_of_true (List.forall_mem_nil _) fun hdata ↦ absurd hdata htype

theorem dev_inside_iff (h : rx.Passes w .dev) :
    (∀ a ∈ rx.accesses w p malloc .dev, a.Inside rx.nreads) ↔ rx.Whole p malloc .dev := by
  rw [accesses, List.forall_mem_append, List.forall_mem_cons, Whole]
  constructor
  · rintro ⟨⟨-, hdump⟩, hrecv⟩
    -- the last field that is printed
    have hhdr : qrtrHdrSize ≤ rx.nreads := hdump (.header 28 4) (by decide)
    exact ⟨hhdr, (recvQrtrFromDev_inside_iff h hhdr).mp hrecv⟩
  · rintro ⟨hhdr, hsize⟩
    refine ⟨⟨hdr_fields hhdr 5 (by decide), fun a ha ↦ ?_⟩, ?_⟩
    · obtain ⟨i, hi, rfl⟩ := List.mem_map.mp ha
      exact hdr_fields hhdr i (List.mem_range.mp hi)
    · exact (recvQrtrFromDev_inside_iff h hhdr).mpr hsize

/-- A packet that passes the length test is handled within the bytes that were read, and within
what was allocated, if and only if it is as long as the headers that are used, and its payload, if
it is copied, has no size close to `2 ^ 32`. -/
theorem accesses_inside_iff (rx : Rx) (w : LongWidth) (p : Proxy) (malloc : ℕ → Bool)
    (o : RxOrigin) (h : rx.Passes w o) :
    (∀ a ∈ rx.accesses w p malloc o, a.Inside rx.nreads) ↔ rx.Whole p malloc o := by
  cases o with
  | dev => exact dev_inside_iff h
  | client fd => exact client_inside_iff h

/-- A proxy with one client, whose id is 1, of a service that the modem has. -/
def oneClient : Proxy :=
  { Proxy.init with
    qrtr_proxy_connection := [⟨5, [⟨1, 1, 1, 1⟩]⟩]
    qrtr_server_list := [⟨1, 1, 0, 3, 7, ⟨3, 7⟩⟩] }

/-- Four bytes for the client, to be confirmed, in front of what an earlier read has left. -/
def answer : Rx where
  rx_buf := [1, 0, 0, 0, 1, 0, 0, 0, 3, 0, 0, 0, 7, 0, 0, 0, 1, 0, 0, 0, 4, 0, 0, 0, 1, 0, 0, 0,
    1, 0, 0, 0, 2, 5, 0, 32] ++ List.replicate 8156 255
  size := by
    rw [List.length_append, List.length_replicate]
    rfl
  nreads := 36
  pos := by decide
  le_size := by decide

/-- Seven bytes of the client for the service, in front of the same. -/
def request : Rx where
  rx_buf := [1, 12, 0, 0, 1, 1, 0, 5, 0, 32, 0, 0, 0] ++ List.replicate 8179 255
  size := by
    rw [List.length_append, List.length_replicate]
    rfl
  nreads := 13
  pos := by decide
  le_size := by decide

/-- Both are passed on, with what was read and no more. -/
theorem packets_inside :
    (answer.Passes ⟨64, by decide⟩ .dev ∧
      .memcpy (.rxBuf 32) 4 6 10 ∈
        answer.accesses ⟨64, by decide⟩ oneClient (fun _ ↦ true) .dev ∧
      ∀ a ∈ answer.accesses ⟨64, by decide⟩ oneClient (fun _ ↦ true) .dev,
        a.Inside answer.nreads) ∧
    request.Passes ⟨64, by decide⟩ (.client 5) ∧
      .memcpy (.rxBuf 6) 7 32 40 ∈
        request.accesses ⟨64, by decide⟩ oneClient (fun _ ↦ true) (.client 5) ∧
      ∀ a ∈ request.accesses ⟨64, by decide⟩ oneClient (fun _ ↦ true) (.client 5),
        a.Inside request.nreads := by
  refine ⟨⟨by decide, by decide, ?_⟩, by decide, by decide, ?_⟩
  · exact (accesses_inside_iff answer _ oneClient _ .dev (by decide)).mpr
      ⟨by decide, fun _ _ ↦ by decide⟩
  · refine (accesses_inside_iff request _ oneClient _ (.client 5) (by decide)).mpr ⟨by decide, ?_⟩
    rintro con hcon
    refine ⟨by decide, ?_⟩
    rw [if_neg (by decide)]
    exact fun _ ↦ by decide

/-- A header that states a payload of `2 ^ 32 - 1` bytes. -/
def wrapped : Rx where
  rx_buf := [1, 0, 0, 0, 1, 0, 0, 0, 3, 0, 0, 0, 7, 0, 0, 0, 0, 0, 0, 0, 255, 255, 255, 255,
    1, 0, 0, 0, 1, 0, 0, 0] ++ List.replicate 8160 0
  size := by
    rw [List.length_append, List.length_replicate]
    rfl
  nreads := 32
  pos := by decide
  le_size := by decide

/-- The header passes the test, and what it states is copied. -/
theorem wrapped_not_inside :
    ¬ ∀ (rx : Rx) (w : LongWidth) (p : Proxy) (malloc : ℕ → Bool) (o : RxOrigin), rx.Passes w o →
      ∀ a ∈ rx.accesses w p malloc o, a.Inside rx.nreads := by
  intro hall
  have hpass : wrapped.Passes ⟨64, by decide⟩ .dev := by decide
  have hinside := hall wrapped ⟨64, by decide⟩ oneClient (fun _ ↦ true) .dev hpass
  have hsize := ((dev_inside_iff hpass).mp hinside).2 (by decide) ⟨0, by decide, rfl⟩
  exact absurd hsize (by decide)

end Rx

end Wwan.QrtrProxy
