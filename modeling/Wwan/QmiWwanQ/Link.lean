import Wwan.QmiWwanQ.RoundTrip
import Wwan.QmiWwanQ.TxBounds

/-!
# Both ends of a QMAP link

Each rmnet device collects its packets in buffers, which `rmnet_usb_tx_fixup` passes on as they are.
The buffers of all devices go over one bus. At the other end `rmnet_usb_rx_handler` takes each
transfer apart, and passes the packets to the devices.
-/

namespace Wwan.QmiWwanQ

open Wwan.Kernel

/-- `rmnet_usb_rx_handler`: the packets of a transfer, each with its device. A pass of the decoder
takes a byte, if it returns. -/
def rmnetUsbRxHandler (d : SQmiWwanQmap) (transfer : List UInt8) : List (ℕ × List UInt8) :=
  let skb : SkBuff :=
    { head := [], data := transfer, after := fun _ ↦ 0, tailroom := 0, protocol := 0 }
  ((qmapPacketDecode d (fun _ ↦ true) (transfer.length + 1) skb).getD []).map
    fun pkt ↦ (pkt.dev, pkt.payload)

/-- What the packets are at the other end. -/
def received (d : SQmiWwanQmap) (pkts : List TxPacket) : List (ℕ × List UInt8) :=
  pkts.map fun p ↦ (p.dev, p.payload d)

/-- The packets that an event gives to a device. -/
def VndEvent.packets {type : ArpHrd} (i : ℕ) : VndEvent type → List TxPacket
  | .startXmit p => [⟨i, p.skb⟩]
  | _ => []

variable (d : SQmiWwanQmap) (V : Fin quectelWwanQmap → VndPort)

/-- The devices frame packets as the other end expects them. -/
structure Agrees : Prop where
  version : ∀ i, (V i).qmapVersion = d.qmapVersion
  muxId : ∀ i, (V i).muxId = muxIdOf i
  type : ∀ (i : Fin quectelWwanQmap) net, d.qmapNet i = some net → net.type = (V i).type

/-- A packet can be received, and there is memory and room for it where it is sent. -/
def Carried (i : Fin quectelWwanQmap) (v : VndState) : VndEvent (V i).type → Prop
  | .startXmit p =>
    (∃ net, TxPacket.Accepted d ⟨i, p.skb⟩ net) ∧
      ∀ c, p.call (V i) = some c →
        AllocOk (V i).alloc v.tx (.call c) ∧ StartsFit (V i).alloc (V i).params v.tx (.call c)
  | _ => True

/-- The uplink of a device is a batch of the frames of the packets that it was given. -/
structure VndInv (i : Fin quectelWwanQmap) (v : VndState) (given : List TxPacket) : Prop where
  refines : ∃ b, Refines (V i).alloc v.tx.dev b ∧ b.items = v.tx.queued
  queued : v.tx.queued = given.map (TxPacket.frame d)
  accepted : ∀ p ∈ given, p.dev = i ∧ ∃ net, p.Accepted d net

/-- The packets are those whose frames are in the pending buffer of a device. -/
structure Waiting (dev : TxDev) (pending : List TxPacket) : Prop where
  bytes : dev.pendingBytes = (pending.map (TxPacket.frame d)).flatten
  count : pending.length = dev.aggCount
  none : dev.aggSkb = none → pending = []

variable {d V} {i : Fin quectelWwanQmap} {v : VndState} {given : List TxPacket}

/-! ## The end that sends -/

/-- `rmnet_usb_tx_agg` is called with the frame of the packet. -/
theorem Agrees.call (hV : Agrees d V) (hv : d.qmapVersion = 5 ∨ d.qmapVersion = 9)
    {p : VndPacket (V i).type} {net : NetDevice} (hp : TxPacket.Accepted d ⟨i, p.skb⟩ net) :
    ∃ c, p.call (V i) = some c ∧ c.frame = TxPacket.frame d ⟨i, p.skb⟩ := by
  have hframing : qmapFraming (V i).qmapVersion (V i).type (V i).muxId p.skb =
      qmapFraming d.qmapVersion net.type (muxIdOf i) p.skb := by
    rw [hV.version, hV.muxId, hV.type i net hp.registered]
  obtain ⟨skb, hdr, pad, hsome, -, -⟩ :=
    qmapFraming_wireFrame hv net.type (muxIdOf i) p.skb hp.offset_le
  unfold VndPacket.call
  split
  · rename_i hnone
    cases (hframing.symm.trans hnone).symm.trans hsome
  · rename_i r hr
    refine ⟨_, rfl, ?_⟩
    simp only [TxPacket.frame, hp.registered, hframing.symm.trans hr]
    rfl

/-- A step of the uplink adds the frames of the packets that it is given. -/
theorem VndInv.tx (h : VndInv d V i v given) {e : TxEvent} (hok : AllocOk (V i).alloc v.tx e)
    (hfits : StartsFit (V i).alloc (V i).params v.tx e) {pkts : List TxPacket} (mtu : ℕ)
    (hqueued : ((txSystem (V i).alloc (V i).params (V i).start).next v.tx e).queued =
      v.tx.queued ++ pkts.map (TxPacket.frame d))
    (haccepted : ∀ p ∈ pkts, p.dev = i ∧ ∃ net, p.Accepted d net) :
    VndInv d V i ⟨(txSystem (V i).alloc (V i).params (V i).start).next v.tx e, mtu⟩
      (given ++ pkts) := by
  obtain ⟨b, hb, hitems⟩ := h.refines
  refine ⟨(txSystem_step (V i).params (V i).start hb hitems hok).1 hfits, ?_, ?_⟩
  · rw [hqueued, h.queued, List.map_append]
  · exact List.forall_mem_append.mpr ⟨h.accepted, haccepted⟩

theorem VndInv.next (h : VndInv d V i v given) (hV : Agrees d V)
    (hv : d.qmapVersion = 5 ∨ d.qmapVersion = 9) {e : VndEvent (V i).type}
    (he : Carried d V i v e) :
    VndInv d V i ((vndSystem (V i)).next v e) (given ++ e.packets i) := by
  cases e with
  | startXmit p =>
    obtain ⟨⟨net, hp⟩, hcall⟩ := he
    obtain ⟨c, hc, hframe⟩ := hV.call hv hp
    obtain ⟨hok, hfits⟩ := hcall c hc
    have hnext : (vndSystem (V i)).next v (.startXmit p) =
        ⟨(txSystem (V i).alloc (V i).params (V i).start).next v.tx (.call c), v.mtu⟩ := by
      simp only [vndSystem, hc]
    rw [hnext]
    refine h.tx hok hfits _ ?_ (List.forall_mem_singleton.mpr ⟨rfl, net, hp⟩)
    dsimp only [txSystem]
    split <;> rw [hframe] <;> rfl
  | work now =>
    exact h.tx (e := .work now) trivial trivial _ (List.append_nil _).symm
      (List.forall_mem_nil _)
  | setting q size =>
    exact h.tx (e := .setting q size) trivial trivial _ (List.append_nil _).symm
      (List.forall_mem_nil _)
  | changeMtu newMtu =>
    refine (List.append_nil given).symm ▸ ?_
    exact ⟨h.refines, h.queued, h.accepted⟩

theorem VndInv.exec (h : VndInv d V i v given) (hV : Agrees d V)
    (hv : d.qmapVersion = 5 ∨ d.qmapVersion = 9) {es : List (VndEvent (V i).type)}
    (hes : (vndSystem (V i)).Along (Carried d V i) v es) :
    VndInv d V i ((vndSystem (V i)).exec v es) (given ++ es.flatMap (VndEvent.packets i)) := by
  induction es generalizing v given with
  | nil => rwa [List.flatMap_nil, List.append_nil]
  | cons e es ih =>
    rw [List.flatMap_cons, ← List.append_assoc]
    exact ih (h.next hV hv hes.2.1) hes.2.2

/-! ## The end that receives -/

/-- If some items are grouped by what becomes of them, the items are grouped. -/
theorem exists_groups {α β : Type} {f : α → β} {gs : List (List β)} {pending : List β}
    {l : List α} (h : gs.flatten ++ pending = l.map f) :
    ∃ (ls : List (List α)) (l' : List α),
      gs = ls.map (List.map f) ∧ pending = l'.map f ∧ ls.flatten ++ l' = l := by
  induction gs generalizing l with
  | nil => exact ⟨[], l, rfl, h, rfl⟩
  | cons g gs ih =>
    rw [List.flatten_cons, List.append_assoc] at h
    obtain ⟨l₁, l₂, rfl, rfl, hrest⟩ := List.map_eq_append_iff.mp h.symm
    obtain ⟨ls, l', rfl, hpending, rfl⟩ := ih hrest.symm
    exact ⟨l₁ :: ls, l', rfl, hpending, List.append_assoc _ _ _⟩

theorem rmnetUsbRxHandler_frames (hv : d.qmapVersion = 5 ∨ d.qmapVersion = 9)
    (hdl : d.txCtx.dlMinimumPadding = 0) {pkts : List TxPacket}
    (hpkts : ∀ p ∈ pkts, ∃ net, p.Accepted d net) :
    rmnetUsbRxHandler d (pkts.map (TxPacket.frame d)).flatten = received d pkts := by
  obtain ⟨chain, hrun, hmap⟩ := run_frames (fun _ ↦ true) (fun _ ↦ rfl) hv hdl pkts hpkts
    (decodeStart { head := [], data := _, after := fun _ ↦ 0, tailroom := 0, protocol := 0 }) rfl
    (Nat.lt_succ_self _)
  exact (congrArg (fun r ↦ (Option.getD r []).map _) hrun).trans hmap

/-- The transfers of a device bring the packets that it was given, but for those that wait. -/
theorem VndInv.received (h : VndInv d V i v given) (hv : d.qmapVersion = 5 ∨ d.qmapVersion = 9)
    (hdl : d.txCtx.dlMinimumPadding = 0) :
    ∃ pending, v.tx.dev.xmit.flatMap (fun buf ↦ rmnetUsbRxHandler d buf.2) ++
        received d pending = received d given ∧ Waiting d v.tx.dev pending := by
  obtain ⟨b, hb, hitems⟩ := h.refines
  rw [h.queued, Batch.items] at hitems
  obtain ⟨groups, pending, hgroups, hpending, rfl⟩ := exists_groups hitems
  have hgroup : ∀ g ∈ groups, rmnetUsbRxHandler d (g.map (TxPacket.frame d)).flatten =
      QmiWwanQ.received d g := fun g hg ↦
    rmnetUsbRxHandler_frames hv hdl fun p hp ↦
      (h.accepted p (List.mem_append_left _ (List.mem_flatten_of_mem hg hp))).2
  have hxmit : v.tx.dev.xmit.flatMap (fun buf ↦ rmnetUsbRxHandler d buf.2) =
      (b.closed.map Prod.snd).flatMap fun g ↦ rmnetUsbRxHandler d g.flatten := by
    rw [hb.xmit, List.flatMap_map, List.flatMap_map]
  refine ⟨pending, ?_, ?_, ?_, fun hskb ↦ ?_⟩
  · rw [hxmit, hgroups, List.flatMap_map, List.flatMap_congr hgroup]
    simp only [QmiWwanQ.received, List.map_append, List.map_flatten, List.flatMap_def]
    rfl
  · rw [hb.pendingBytes_eq, hpending]
  · rw [hb.aggCount, hpending, List.length_map]
  · rw [hb.pending_eq_nil hskb] at hpending
    exact List.map_eq_nil_iff.mp hpending.symm

/-- What comes from one source of a merged list. -/
theorem filter_flatMap_key {n : ℕ} {α β : Type} {f : α → List (ℕ × β)} {l : List (Fin n × α)}
    (h : ∀ a ∈ l, ∀ b ∈ f a.2, b.1 = a.1.val) (k : Fin n) :
    (l.flatMap fun a ↦ f a.2).filter (fun b ↦ b.1 = k.val) =
      ((l.filter fun a ↦ a.1 = k).map Prod.snd).flatMap f := by
  induction l with
  | nil => rfl
  | cons a l ih =>
    have hkey : (f a.2).filter (fun b ↦ b.1 = k.val) = if a.1 = k then f a.2 else [] := by
      rw [List.filter_congr fun b hb ↦ congrArg (decide <| · = _) (h a List.mem_cons_self b hb)]
      split <;> simp [*, Fin.val_inj]
    rw [List.flatMap_cons, List.filter_append, hkey, ih fun a ha ↦ h a (.tail _ ha),
      List.filter_cons]
    split <;> simp [*]

/-- The devices of `twoDevs`, with the default parameters of the module. -/
def linkPort (i : Fin quectelWwanQmap) : VndPort :=
  ⟨cacheLines, defaultParams, 9, ((twoDevs.qmapNet i).map NetDevice.type).getD .ether, muxIdOf i,
    ⟨0, 0⟩⟩

/-- A packet with its Ethernet header. -/
def etherPacket : VndPacket .ether where
  skb := ⟨[], List.replicate 14 0 ++ [0x60, 7], fun _ ↦ 0, 0, ethPIpv6⟩
  xmitMore := true
  now := vndPacket.now
  allocAgg := true
  allocSkb := true
  ipOffset_le := by decide
  len_lt := by decide

/-- Three packets for the raw-IP device, whose limit is raised to two, and one for the other. -/
def linkEvents : (i : Fin quectelWwanQmap) → List (VndEvent (linkPort i).type)
  | ⟨0, _⟩ => .setting ⟨32, 2, 704, 0⟩ 32 :: [1, 2, 3].map fun id ↦ .startXmit
      ⟨⟨[], [0x45, id], fun _ ↦ 0, 0, ethPIp⟩, true, vndPacket.now, true, true, Nat.zero_le _,
        vndPacket.len_lt⟩
  | ⟨1, _⟩ => [.startXmit etherPacket]
  | ⟨_ + 2, _⟩ => []

/-- The buffers, in the order in which the bus takes them. -/
def linkTransfers : List (Fin quectelWwanQmap × ℕ × List UInt8) :=
  [(⟨1, by decide⟩, 1, [0x40, 0x82, 0, 2, 4, 0, 0, 0, 0x60, 7]),
    (⟨0, by decide⟩, 2, [0x40, 0x81, 0, 2, 4, 0, 0, 0, 0x45, 1,
      0x40, 0x81, 0, 2, 4, 0, 0, 0, 0x45, 2])]

/-- What a device is left with. -/
def linkDev (i : Fin quectelWwanQmap) : TxDev :=
  ((vndSystem (linkPort i)).exec (vndSystem (linkPort i)).init (linkEvents i)).tx.dev

end Wwan.QmiWwanQ
