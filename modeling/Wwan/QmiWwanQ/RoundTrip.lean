import Wwan.QmiWwanQ.Encode

/-!
# Round trip of the QMAP framing

What the encoders put together, `qmap_packet_decode` takes apart: a buffer that
is the concatenation of frames for registered devices is decoded to the packets
of the frames, in order. The pads need not be the same from frame to frame, and
their bytes are arbitrary.

The induction is over the list of packets, with the rest of the buffer and the
packets queued so far general. Its step is `qmapBody_wireFrame`, one pass over
one frame in front of an arbitrary rest.
-/

namespace Wwan.QmiWwanQ

open Wwan.Kernel Wwan.Bytes

/-! ## Reading a frame back -/

section Frame

variable {rx : SkBuff} {v5 : Bool} {muxId : UInt8} {payload pad rest : List UInt8}

/-- The header of a frame at the start of a buffer. -/
theorem read_wireFrame (hrx : rx.data = wireFrame v5 muxId payload pad ++ rest)
    (hpad : pad.length < 4) (hlen : payload.length + pad.length < 65536) :
    RmnetMapHeader.read rx =
      { padLen := pad.length, nextHdr := v5, cdBit := false, muxId := muxId
        pktLen := payload.length + pad.length } := by
  have h₀ : rx.byte 0 = byteOf (pad.length + if v5 then 64 else 0) 0 := by
    simp [SkBuff.byte, hrx, wireFrame]
  have h₁ : rx.byte 1 = muxId := by simp [SkBuff.byte, hrx, wireFrame]
  have h₂ : rx.byte 2 = byteOf (payload.length + pad.length) 1 := by
    simp [SkBuff.byte, hrx, wireFrame, toBe16]
  have h₃ : rx.byte 3 = byteOf (payload.length + pad.length) 0 := by
    simp [SkBuff.byte, hrx, wireFrame, toBe16]
  have hbits : (rx.byte 0).toNat = pad.length + if v5 then 64 else 0 := by
    rw [h₀, toNat_byteOf]
    split <;> omega
  simp only [RmnetMapHeader.read, h₁, h₂, h₃, be16_byteOf hlen, hbits, RmnetMapHeader.mk.injEq,
    and_true]
  cases v5 <;> simp <;> omega

/-- The bytes of a frame. -/
theorem length_wireFrame :
    (wireFrame v5 muxId payload pad).length =
      payload.length + pad.length + if v5 then 8 else 4 := by
  cases v5 <;> simp [wireFrame, toBe16, ulHeader]

/-- Behind the headers of a frame comes its packet. -/
theorem drop_wireFrame :
    (wireFrame v5 muxId payload pad ++ rest).drop (if v5 then 8 else 4) =
      payload ++ (pad ++ rest) := by
  cases v5 <;> simp [wireFrame, toBe16, ulHeader]

end Frame

/-- The mux id of a device leads back to its index. -/
theorem muxIndex_muxIdOf {i : ℕ} (hi : i < quectelWwanQmap) (h : RmnetMapHeader)
    (hmux : h.muxId = muxIdOf i) : h.muxIndex = i := by
  have hi' : i < 4 := hi
  have hnat : (muxIdOf i).toNat = 129 + i := by
    simp only [muxIdOf, quectelQmapMuxId, UInt8.toNat_ofNat']
    omega
  simp only [RmnetMapHeader.muxIndex, u32, hmux, hnat, quectelQmapMuxId]
  omega

/-! ## Packets handed to the rmnet devices -/

/-- A packet handed to `rmnet_vnd_start_xmit` of the device at index `dev`. -/
structure TxPacket where
  dev : ℕ
  skb : SkBuff

variable (d : SQmiWwanQmap)

/-- An IP packet that a registered device accepts: behind the Ethernet header, if
the device has one, come between one and MTU bytes that start with the nibble 4
or 6. -/
structure TxPacket.Accepted (p : TxPacket) (net : NetDevice) : Prop where
  dev_lt : p.dev < d.qmapMode
  registered : d.qmapNet p.dev = some net
  mtu_le : net.mtu ≤ 65532
  offset_le : ipOffset net.type ≤ p.skb.len
  pos : 0 < (p.skb.data.drop (ipOffset net.type)).length
  le_mtu : (p.skb.data.drop (ipOffset net.type)).length ≤ net.mtu
  isIp : ((p.skb.data.drop (ipOffset net.type)).head?.bind ipProtocol).isSome

/-- The IP packet inside what is handed to the device. -/
def TxPacket.payload (p : TxPacket) : List UInt8 :=
  match d.qmapNet p.dev with
  | none => []
  | some net => p.skb.data.drop (ipOffset net.type)

/-- The frame `rmnet_vnd_start_xmit` makes of the packet. -/
def TxPacket.frame (p : TxPacket) : List UInt8 :=
  match d.qmapNet p.dev with
  | none => []
  | some net =>
    match qmapFraming d.qmapVersion net.type (muxIdOf p.dev) p.skb with
    | none => []
    | some (skb, hdr, off) => txFrame skb hdr off

variable {d}

/-- The frame of an accepted packet has the wire format. -/
theorem TxPacket.Accepted.frame_eq (hv : d.qmapVersion = 5 ∨ d.qmapVersion = 9) {p : TxPacket}
    {net : NetDevice} (hp : p.Accepted d net) :
    ∃ pad, pad.length < 4 ∧
      p.frame d = wireFrame (d.qmapVersion = 9) (muxIdOf p.dev) (p.payload d) pad := by
  obtain ⟨skb', hdr, pad, hfr, hpad, htx⟩ :=
    qmapFraming_wireFrame hv net.type (muxIdOf p.dev) p.skb hp.offset_le
  refine ⟨pad, hpad, ?_⟩
  simp only [TxPacket.frame, TxPacket.payload, hp.registered, hfr, htx]

/-- The frame of an accepted packet passes the checks of the decoder, which finds
the packet behind its headers. -/
theorem TxPacket.Accepted.fits {p : TxPacket} {net : NetDevice} (hp : p.Accepted d net)
    (hdl : d.txCtx.dlMinimumPadding = 0) {rx : SkBuff} {v5 : Bool} {pad rest : List UInt8}
    (hpad : pad.length < 4)
    (hrx : rx.data = wireFrame v5 (muxIdOf p.dev) (p.payload d) pad ++ rest) :
    Fits d rx net ∧ (RmnetMapHeader.read rx).cdBit = false ∧
      (∃ protocol, ipProtocol (rx.byte (RmnetMapHeader.read rx).hdrSize) = some protocol) ∧
      (RmnetMapHeader.read rx).muxIndex = p.dev ∧
      rx.bytes (RmnetMapHeader.read rx).hdrSize
        ((RmnetMapHeader.read rx).skbLen d.dlMinimumPadding) = p.payload d ∧
      (RmnetMapHeader.read rx).frameLen =
        (wireFrame v5 (muxIdOf p.dev) (p.payload d) pad).length := by
  have hpay : p.payload d = p.skb.data.drop (ipOffset net.type) := by
    simp [TxPacket.payload, hp.registered]
  have hpos := hp.pos
  have hmtu := hp.le_mtu
  have hmax := hp.mtu_le
  rw [← hpay] at hpos hmtu
  have hread := read_wireFrame hrx hpad (by omega)
  have hmux : (RmnetMapHeader.read rx).muxIndex = p.dev :=
    muxIndex_muxIdOf (hp.dev_lt.trans_le d.qmapMode_le) _ (by rw [hread])
  have hsize : (RmnetMapHeader.read rx).hdrSize = if v5 then 8 else 4 := by
    simp only [hread, RmnetMapHeader.hdrSize]
  have hskb : (RmnetMapHeader.read rx).skbLen d.dlMinimumPadding = (p.payload d).length := by
    have hzero : d.dlMinimumPadding = 0 := by simp [SQmiWwanQmap.dlMinimumPadding, hdl]
    simp only [hread, RmnetMapHeader.skbLen, u32, hzero]
    omega
  have hframe : (RmnetMapHeader.read rx).frameLen =
      (wireFrame v5 (muxIdOf p.dev) (p.payload d) pad).length := by
    rw [RmnetMapHeader.frameLen, hsize, length_wireFrame, hread]
  have hlen : rx.len = (wireFrame v5 (muxIdOf p.dev) (p.payload d) pad).length + rest.length := by
    simp [SkBuff.len, hrx]
  have hdrop : rx.data.drop (RmnetMapHeader.read rx).hdrSize = p.payload d ++ (pad ++ rest) := by
    rw [hrx, hsize, drop_wireFrame]
  have hbytes := rx.bytes_eq_slice (i := (RmnetMapHeader.read rx).hdrSize)
    (n := (p.payload d).length) (by rw [hlen, length_wireFrame, hsize]; omega)
  refine ⟨⟨hmux ▸ hp.dev_lt, hmux ▸ hp.registered, hskb ▸ hmtu, by omega⟩, by rw [hread], ?_,
    hmux, ?_, hframe⟩
  · -- the version nibble is the first byte of the packet
    obtain ⟨protocol, hsome⟩ := Option.isSome_iff_exists.mp hp.isIp
    obtain ⟨b, hb, hip⟩ := Option.bind_eq_some_iff.mp hsome
    rw [← hpay] at hb
    have hbyte : some (rx.byte (RmnetMapHeader.read rx).hdrSize) = some b := by
      rw [rx.byte_of_lt (by rw [hlen, length_wireFrame, hsize]; omega)]
      have hhead := congrArg List.head? hdrop
      rwa [List.head?_drop, List.head?_append, hb, Option.some_or] at hhead
    exact ⟨protocol, Option.some.inj hbyte ▸ hip⟩
  · rw [hskb, hbytes, hdrop, List.take_left']
    rfl

/-- One pass over the frame of an accepted packet queues that packet and pulls the
frame. -/
theorem qmapBody_frame {alloc : ℕ → Bool} (halloc : ∀ n, alloc n = true)
    (hv : d.qmapVersion = 5 ∨ d.qmapVersion = 9) (hdl : d.txCtx.dlMinimumPadding = 0)
    {p : TxPacket} {net : NetDevice} (hp : p.Accepted d net) {st : DecodeState}
    {rest : List UInt8} (hrx : st.skbIn.data = p.frame d ++ rest) :
    ∃ st' pkt, qmapBody d alloc st = .inr st' ∧ st'.skbIn.data = rest ∧
      st'.skbChain = st.skbChain ++ [pkt] ∧ pkt.dev = p.dev ∧ pkt.payload = p.payload d := by
  obtain ⟨pad, hpad, hframe⟩ := hp.frame_eq hv
  rw [hframe] at hrx
  obtain ⟨hfits, hcd, ⟨protocol, hip⟩, hmux, hbytes, hflen⟩ := hp.fits hdl hpad hrx
  have hpos : 0 < (p.payload d).length := by
    simpa [TxPacket.payload, hp.registered] using hp.pos
  have hlen : 4 < st.skbIn.len := by
    rw [SkBuff.len, hrx, List.length_append, length_wireFrame]
    split <;> omega
  refine ⟨⟨st.skbIn.pull (RmnetMapHeader.read st.skbIn).frameLen,
    st.skbChain ++ [rxPacket d st.skbIn net protocol]⟩, rxPacket d st.skbIn net protocol,
    ?_, ?_, rfl, hmux, hbytes⟩
  · rw [qmapBody, if_neg (Nat.not_le.mpr hlen), halloc, qmapFrame_of_fits hfits hcd hip]
  · rw [SkBuff.data_pull_of_le _ hfits.frame_le, hflen, hrx, List.drop_left']
    rfl

/-- The round trip with packets already queued. Each pass takes a byte at least. -/
theorem run_frames (alloc : ℕ → Bool) (halloc : ∀ n, alloc n = true)
    (hv : d.qmapVersion = 5 ∨ d.qmapVersion = 9) (hdl : d.txCtx.dlMinimumPadding = 0)
    (pkts : List TxPacket) (hpkts : ∀ p ∈ pkts, ∃ net, p.Accepted d net) (st : DecodeState)
    (hrx : st.skbIn.data = (pkts.map (TxPacket.frame d)).flatten) {fuel : ℕ}
    (hfuel : st.skbIn.len < fuel) :
    ∃ chain, Loop.run (qmapBody d alloc) fuel st = some (st.skbChain ++ chain) ∧
      chain.map (fun q ↦ (q.dev, q.payload)) = pkts.map fun p ↦ (p.dev, p.payload d) := by
  induction pkts generalizing st fuel with
  | nil =>
    obtain ⟨fuel, rfl⟩ := Nat.exists_eq_succ_of_ne_zero (Nat.ne_zero_of_lt hfuel)
    refine ⟨[], ?_, rfl⟩
    have hlen : st.skbIn.len = 0 := by simp [SkBuff.len, hrx]
    rw [Loop.run, qmapBody, if_pos (by omega), List.append_nil]
  | cons p pkts ih =>
    obtain ⟨fuel, rfl⟩ := Nat.exists_eq_succ_of_ne_zero (Nat.ne_zero_of_lt hfuel)
    obtain ⟨net, hp⟩ := hpkts p List.mem_cons_self
    rw [List.map_cons, List.flatten_cons] at hrx
    obtain ⟨st', pkt, hb, hrest, hchain, hdev, hpay⟩ := qmapBody_frame halloc hv hdl hp hrx
    have hshort : st'.skbIn.len < st.skbIn.len := by
      obtain ⟨pad, -, hframe⟩ := hp.frame_eq hv
      rw [SkBuff.len, SkBuff.len, hrx, hrest, List.length_append, hframe, length_wireFrame]
      split <;> omega
    obtain ⟨chain, hrun, hmap⟩ := ih (fun q hq ↦ hpkts q (List.mem_cons_of_mem p hq)) st' hrest
      (hshort.trans_le (Nat.le_of_lt_succ hfuel))
    refine ⟨pkt :: chain, ?_, ?_⟩
    · rw [hchain, List.append_assoc] at hrun
      rw [Loop.run, hb]
      exact hrun
    · rw [List.map_cons, List.map_cons, hmap, hdev, hpay]

theorem decode_frames (alloc : ℕ → Bool) (halloc : ∀ n, alloc n = true)
    (hv : d.qmapVersion = 5 ∨ d.qmapVersion = 9) (hdl : d.txCtx.dlMinimumPadding = 0)
    (pkts : List TxPacket) (hpkts : ∀ p ∈ pkts, ∃ net, p.Accepted d net) (st : DecodeState)
    (hrx : st.skbIn.data = (pkts.map (TxPacket.frame d)).flatten) :
    ∃ chain, Loop.Returns (qmapBody d alloc) st (st.skbChain ++ chain) ∧
      chain.map (fun q ↦ (q.dev, q.payload)) = pkts.map fun p ↦ (p.dev, p.payload d) := by
  obtain ⟨chain, hrun, hmap⟩ :=
    run_frames alloc halloc hv hdl pkts hpkts st hrx (Nat.lt_succ_self _)
  exact ⟨chain, ⟨_, hrun⟩, hmap⟩

/-- **Round trip.** Packets accepted by registered devices, framed by `add_qhdr`
or `add_qhdr_v5` and concatenated, are decoded by `qmap_packet_decode` to the same
packets in the same order on the same devices. -/
theorem qmapPacketDecode_frames (hv : d.qmapVersion = 5 ∨ d.qmapVersion = 9)
    (hdl : d.txCtx.dlMinimumPadding = 0) (pkts : List TxPacket)
    (hpkts : ∀ p ∈ pkts, ∃ net, p.Accepted d net) (rx : SkBuff)
    (hrx : rx.data = (pkts.map (TxPacket.frame d)).flatten) :
    ∃ fuel chain, qmapPacketDecode d (fun _ ↦ true) fuel rx = some chain ∧
      chain.map (fun q ↦ (q.dev, q.payload)) = pkts.map fun p ↦ (p.dev, p.payload d) := by
  obtain ⟨chain, ⟨fuel, hfuel⟩, hmap⟩ :=
    decode_frames (fun _ ↦ true) (fun _ ↦ rfl) hv hdl pkts hpkts (decodeStart rx) hrx
  exact ⟨fuel, chain, hfuel, hmap⟩

/-- A driver with a raw-IP and an Ethernet device. -/
def twoDevs : SQmiWwanQmap :=
  { mpQmapNetDev := fun i ↦
      if i.val = 0 then some (NetDevice.start .rawip [])
      else if i.val = 1 then some (NetDevice.start .ether [2, 80, 244, 0, 0, 1])
      else none
    qmapMode := 2
    qmapVersion := 9
    txCtx := ⟨1, 1500, 0⟩
    qmapMode_le := by decide }

/-- An IPv4 packet with room for its pad and an IPv6 packet without. -/
def twoPackets : List TxPacket :=
  [⟨0, { head := [], data := [0x45, 1, 2, 3, 4], after := fun _ ↦ 0xaa, tailroom := 8,
          protocol := ethPIp }⟩,
    ⟨1, { head := [], data := List.replicate 14 0 ++ [0x60, 7], after := fun _ ↦ 0xbb,
          tailroom := 0, protocol := ethPIpv6 }⟩]

theorem twoPackets_round_trip :
    ∃ fuel chain, qmapPacketDecode twoDevs (fun _ ↦ true) fuel
        { head := [], data := (twoPackets.map (TxPacket.frame twoDevs)).flatten,
          after := fun _ ↦ 0, tailroom := 0, protocol := 0 } = some chain ∧
      chain.map (fun q ↦ (q.dev, q.payload)) = [(0, [0x45, 1, 2, 3, 4]), (1, [0x60, 7])] := by
  refine qmapPacketDecode_frames (d := twoDevs) (.inr rfl) rfl twoPackets ?_ _ rfl
  intro p hp
  simp only [twoPackets, List.mem_cons, List.not_mem_nil, or_false] at hp
  rcases hp with rfl | rfl
  · exact ⟨NetDevice.start .rawip [], by decide, rfl, by decide, by decide, by decide,
      by decide, by decide⟩
  · exact ⟨NetDevice.start .ether [2, 80, 244, 0, 0, 1], by decide, rfl, by decide, by decide,
      by decide, by decide, by decide⟩

end Wwan.QmiWwanQ
