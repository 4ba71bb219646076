import Wwan.MhiNetdevQuectel.MbimRx
import Wwan.QmiWwanQ.DecodeSafety

/-!
# The QMAP downlink decoder of `mhi_netdev_quectel`

`rmnet_qmi_rx_handler` decodes the same frames as `qmap_packet_decode` of
`qmi_wwan_q`, from the buffers of the PCIe transport. The two are separate copies:
this one takes the absolute value of the mux id before it indexes the device
table, hands command frames to `rmnet_data_map_command`, pulls the Ethernet header
it has pushed, and gives the packets to `netif_receive_skb` itself.

The layout of `struct rmnet_map_header` is common to both. The handler is compared
with the USB decoder pass by pass (`rmnetQmiBody_lockstep`), on any bytes.
-/

namespace Wwan.MhiNetdevQuectel

open Wwan.Kernel Wwan.Bytes

open Wwan.QmiWwanQ (RmnetMapHeader quectelQmapMuxId)

/-- `struct mhi_netdev`, as far as the QMAP receive path uses it. -/
structure QmapNetdev extends MhiNetdev where
  /-- `qmap_version`: 5 is QMAPv1, 9 is QMAPv5. -/
  qmapVersion : ℕ
  /-- `dl_minimum_padding`. -/
  dlMinimumPadding : UInt32

/-- The local `dl_minimum_padding` of the handler. -/
def QmapNetdev.padding (d : QmapNetdev) : ℕ :=
  if d.qmapVersion = 9 then d.dlMinimumPadding.toNat else 0

/-- A packet given to `netif_receive_skb`. -/
structure RxSkb where
  /-- The index of `qmap_skb->dev` in `mpQmapNetDev`. -/
  dev : ℕ
  /-- `qmap_skb->protocol`. -/
  protocol : ℕ
  /-- What lies between the MAC header and `qmap_skb->data`. -/
  macHdr : List UInt8
  /-- The packet from `qmap_skb->data` on. -/
  data : List UInt8
  deriving DecidableEq

/-- How a pass over a frame ends. -/
inductive QmiEnd
  | /-- `goto error_pkt`. -/
    error
  | /-- `goto skip_pkt` for a NULL device. -/
    skip
  | /-- `goto skip_pkt` after `rmnet_data_map_command`. -/
    command
  | /-- The packet is queued before `skip_pkt`. -/
    queued (pkt : RxSkb)
  deriving DecidableEq

/-- The `int mux_id`. -/
def muxIdOf (h : RmnetMapHeader) : ℤ := (h.muxId.toNat : ℤ) - quectelQmapMuxId

/-- The pass over the frame at `skb_in->data`. `alloc` is whether
`netdev_alloc_skb` succeeds, if the pass comes to it. -/
def rmnetQmiFrame (d : QmapNetdev) (alloc : Bool) (skbIn : SkBuff) : QmiEnd :=
  let h := RmnetMapHeader.read skbIn
  let skbLen := u32 ((h.pktLen : ℤ) - h.padLen - d.padding)
  -- `qmap_mode` is unsigned, so `mux_id` is compared as an unsigned number
  if d.qmapMode ≤ u32 (muxIdOf h) then .error
  else match d.qmapNet (muxIdOf h).natAbs with
  | none => .skip
  | some net =>
    if net.mtu < skbLen then .error
    else if skbIn.len < h.pktLen + h.hdrSize then .error
    else if h.cdBit then .command
    else match ipProtocol (skbIn.byte h.hdrSize) with
    | none => .error
    | some protocol =>
      if alloc then .queued
        { dev := (muxIdOf h).natAbs
          protocol := protocol
          -- pushed in front of the packet and pulled again
          macHdr := rxEthHdr net protocol
          data := skbIn.bytes h.hdrSize skbLen }
      else .error

/-- The variables of the `while` loop. -/
structure QmiRxState where
  /-- `skb_in`. -/
  skbIn : SkBuff
  /-- `skb_chain`. -/
  skbChain : List RxSkb
  /-- `skb_in` at each call of `rmnet_data_map_command`. -/
  commands : List SkBuff

/-- One evaluation of the loop condition and, if it holds, one pass. On the way out
of the loop the packets of `skb_chain` go to `netif_receive_skb` in order. -/
def rmnetQmiBody (d : QmapNetdev) (alloc : ℕ → Bool) (st : QmiRxState) :
    List RxSkb ⊕ QmiRxState :=
  if st.skbIn.len ≤ 4 then .inl st.skbChain
  else
    let h := RmnetMapHeader.read st.skbIn
    let rest := st.skbIn.pull (h.pktLen + h.hdrSize)
    match rmnetQmiFrame d (alloc st.skbChain.length) st.skbIn with
    | .error => .inl st.skbChain
    | .skip => .inr { st with skbIn := rest }
    | .command => .inr { st with skbIn := rest, commands := st.commands ++ [st.skbIn] }
    | .queued pkt => .inr { st with skbIn := rest, skbChain := st.skbChain ++ [pkt] }

/-- The state in which `rmnet_qmi_rx_handler` enters its loop. -/
def qmiRxStart (skbIn : SkBuff) : QmiRxState := ⟨skbIn, [], []⟩

/-- `rmnet_qmi_rx_handler`, stopped after `fuel` evaluations of the loop condition. -/
def rmnetQmiRxHandler (d : QmapNetdev) (alloc : ℕ → Bool) (fuel : ℕ) (skbIn : SkBuff) :
    Option (List RxSkb) :=
  Loop.run (rmnetQmiBody d alloc) fuel (qmiRxStart skbIn)

/-! ## Agreement with the USB decoder -/

/-- The two drivers are configured alike: mode, version and padding, and for each
index the same device registered with the same MTU. -/
structure SameConfig (u : QmiWwanQ.SQmiWwanQmap) (d : QmapNetdev) : Prop where
  qmapMode : u.qmapMode = d.qmapMode
  qmapVersion : u.qmapVersion = d.qmapVersion
  dlMinimumPadding : u.txCtx.dlMinimumPadding = d.dlMinimumPadding
  mtu : ∀ i < QmiWwanQ.quectelWwanQmap,
    (u.qmapNet i).map NetDevice.mtu = (d.qmapNet i).map NetDevice.mtu

/-- Device, protocol and payload of a packet of the USB driver. -/
def usbPacket (pkt : QmiWwanQ.QmapSkb) : ℕ × ℕ × List UInt8 := (pkt.dev, pkt.protocol, pkt.payload)

/-- Device, protocol and payload of a packet of the PCIe driver. -/
def pciePacket (pkt : RxSkb) : ℕ × ℕ × List UInt8 := (pkt.dev, pkt.protocol, pkt.data)

variable {u : QmiWwanQ.SQmiWwanQmap} {d : QmapNetdev}

theorem SameConfig.padding_eq (h : SameConfig u d) : u.dlMinimumPadding = d.padding := by
  rw [QmiWwanQ.SQmiWwanQmap.dlMinimumPadding, QmapNetdev.padding, h.qmapVersion,
    h.dlMinimumPadding]

/-- A mux id that passes the unsigned check is not negative, and `abs` leaves it. -/
theorem natAbs_muxIdOf {h : RmnetMapHeader} (hlt : u32 (muxIdOf h) < 4) :
    (muxIdOf h).natAbs = u32 (muxIdOf h) := by
  have hbyte : h.muxId.toNat < 256 := h.muxId.toNat_lt
  unfold muxIdOf u32 quectelQmapMuxId at *
  omega

/-- What the end of a USB pass and of a PCIe pass over the same frame have in common. -/
inductive SameEnd : QmiWwanQ.Verdict → QmiEnd → Prop
  | error : SameEnd .error .error
  | skip : SameEnd .skip .skip
  | command : SameEnd .skip .command
  | queued {p : QmiWwanQ.QmapSkb} {q : RxSkb} (h : usbPacket p = pciePacket q) :
      SameEnd (.deliver p) (.queued q)

/-- The passes of the two decoders over the same frame end alike. -/
theorem rmnetQmiFrame_sameEnd (hcfg : SameConfig u d) (alloc : Bool) (skbIn : SkBuff) :
    SameEnd (QmiWwanQ.qmapFrame u alloc skbIn).2 (rmnetQmiFrame d alloc skbIn) := by
  have hlen : (RmnetMapHeader.read skbIn).skbLen u.dlMinimumPadding =
      u32 (((RmnetMapHeader.read skbIn).pktLen : ℤ) - (RmnetMapHeader.read skbIn).padLen -
        d.padding) := by
    rw [RmnetMapHeader.skbLen, hcfg.padding_eq]
  have hmux : (RmnetMapHeader.read skbIn).muxIndex = u32 (muxIdOf (RmnetMapHeader.read skbIn)) :=
    rfl
  simp only [QmiWwanQ.qmapFrame, rmnetQmiFrame, hcfg.qmapMode, hmux, hlen]
  by_cases hmode : d.qmapMode ≤ u32 (muxIdOf (RmnetMapHeader.read skbIn))
  · rw [if_pos hmode, if_pos hmode]
    exact .error
  rw [if_neg hmode, if_neg hmode]
  have hlt : u32 (muxIdOf (RmnetMapHeader.read skbIn)) < 4 :=
    Nat.lt_of_lt_of_le (Nat.not_le.mp hmode) (hcfg.qmapMode ▸ u.qmapMode_le)
  rw [natAbs_muxIdOf hlt]
  have hmtu := hcfg.mtu _ hlt
  -- the devices at this index: both NULL, or both there with one MTU
  cases hu : u.qmapNet (u32 (muxIdOf (RmnetMapHeader.read skbIn))) with
  | none =>
    cases hd : d.qmapNet (u32 (muxIdOf (RmnetMapHeader.read skbIn))) with
    | none => exact .skip
    | some net' => simp [hu, hd] at hmtu
  | some net =>
    cases hd : d.qmapNet (u32 (muxIdOf (RmnetMapHeader.read skbIn))) with
    | none => simp [hu, hd] at hmtu
    | some net' =>
      have hnet : net.mtu = net'.mtu := by simpa [hu, hd] using hmtu
      dsimp only
      rw [hnet, RmnetMapHeader.frameLen]
      split
      · exact .error
      split
      · exact .error
      split
      · exact .command
      cases ipProtocol (skbIn.byte (RmnetMapHeader.read skbIn).hdrSize) with
      | none => exact .error
      | some protocol =>
        cases alloc with
        | false => exact .error
        | true => exact .queued rfl

/-- The decoders are at the same frame, with the same packets queued. -/
structure SameState (st : QmiWwanQ.DecodeState) (st' : QmiRxState) : Prop where
  skbIn : st.skbIn = st'.skbIn
  skbChain : st.skbChain.map usbPacket = st'.skbChain.map pciePacket

/-- One pass of the two decoders. -/
theorem rmnetQmiBody_lockstep (hcfg : SameConfig u d) (alloc : ℕ → Bool)
    (st : QmiWwanQ.DecodeState) (st' : QmiRxState) (h : SameState st st') :
    Sum.LiftRel (fun out out' ↦ out.map usbPacket = out'.map pciePacket) SameState
      (QmiWwanQ.qmapBody u alloc st) (rmnetQmiBody d alloc st') := by
  obtain ⟨skbIn, chain⟩ := st
  obtain ⟨_, chain', commands⟩ := st'
  obtain ⟨rfl, hchain⟩ := h
  have hcount : chain.length = chain'.length := by
    simpa using congrArg List.length hchain
  unfold QmiWwanQ.qmapBody rmnetQmiBody
  by_cases hlen : skbIn.len ≤ 4
  · rw [if_pos hlen, if_pos hlen]
    exact .inl hchain
  rw [if_neg hlen, if_neg hlen]
  have hsame := rmnetQmiFrame_sameEnd hcfg (alloc chain'.length) skbIn
  simp only [hcount]
  generalize (QmiWwanQ.qmapFrame u (alloc chain'.length) skbIn).2 = v at hsame
  generalize rmnetQmiFrame d (alloc chain'.length) skbIn = v' at hsame
  cases hsame with
  | error => exact .inl hchain
  | skip => exact .inr ⟨rfl, hchain⟩
  | command => exact .inr ⟨rfl, hchain⟩
  | queued hpkt => exact .inr ⟨rfl, by simp [hchain, hpkt]⟩

/-- The USB and the PCIe decoder, configured alike and with the same allocations
succeeding, either both run for ever on a received buffer or give the same packets
to the same devices in the same order. -/
theorem rmnetQmiRxHandler_agrees (hcfg : SameConfig u d) (alloc : ℕ → Bool) (skbIn : SkBuff) :
    (¬ Loop.Halts (QmiWwanQ.qmapBody u alloc) (QmiWwanQ.decodeStart skbIn) ∧
        ¬ Loop.Halts (rmnetQmiBody d alloc) (qmiRxStart skbIn)) ∨
      ∃ out out', Loop.Returns (QmiWwanQ.qmapBody u alloc) (QmiWwanQ.decodeStart skbIn) out ∧
        Loop.Returns (rmnetQmiBody d alloc) (qmiRxStart skbIn) out' ∧
        out.map usbPacket = out'.map pciePacket :=
  Loop.lockstep_dichotomy (rmnetQmiBody_lockstep hcfg alloc) ⟨rfl, rfl⟩

/-- A PCIe driver configured like `QmiWwanQ.rawipDev`, with an Ethernet device. -/
def etherNetdev : QmapNetdev :=
  { mpQmapNetDev := fun i ↦ if i.val = 0 then some (NetDevice.start .ether []) else none
    stray := fun _ ↦ none
    qmapMode := 1
    mbimMuxId := 0
    rxMax := 0
    maxMtu := 0
    qmapVersion := 9
    dlMinimumPadding := 0 }

/-- Two frames with an IPv4 and an IPv6 packet, and one for an unknown mux id. -/
def mixedBuf : SkBuff :=
  { head := [], data := [0x00, 0x81, 0x00, 0x02, 0x45, 0x01, 0x01, 0x81, 0x00, 0x02, 0x60, 0x00,
      0x00, 0x90, 0x00, 0x01, 0x45], after := fun _ ↦ 0, tailroom := 0, protocol := 0 }

/-- Both decoders deliver the two packets of `mixedBuf` and stop at the third frame. -/
theorem mixedBuf_agrees :
    SameConfig QmiWwanQ.rawipDev etherNetdev ∧
      ∃ out out',
        Loop.Returns (QmiWwanQ.qmapBody QmiWwanQ.rawipDev fun _ ↦ true)
          (QmiWwanQ.decodeStart mixedBuf) out ∧
        Loop.Returns (rmnetQmiBody etherNetdev fun _ ↦ true) (qmiRxStart mixedBuf) out' ∧
        out.map usbPacket = out'.map pciePacket ∧ out.length = 2 := by
  have hcfg : SameConfig QmiWwanQ.rawipDev etherNetdev := ⟨rfl, rfl, rfl, by decide⟩
  have hrun : QmiWwanQ.qmapPacketDecode QmiWwanQ.rawipDev (fun _ ↦ true) 3 mixedBuf =
      some [⟨0, ethPIp, [], [0x45, 0x01]⟩, ⟨0, ethPIpv6, [], [0x60]⟩] := by decide
  refine ⟨hcfg, ?_⟩
  rcases rmnetQmiRxHandler_agrees hcfg (fun _ ↦ true) mixedBuf with
    ⟨hspin, -⟩ | ⟨out, out', hout, hout', heq⟩
  · exact absurd ⟨_, 3, hrun⟩ hspin
  · obtain rfl := Loop.Returns.unique hout ⟨3, hrun⟩
    exact ⟨_, out', hout, hout', heq, rfl⟩

end Wwan.MhiNetdevQuectel
