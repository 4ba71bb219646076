import Wwan.Kernel.SkBuff
import Wwan.Lib.Loop

/-!
# The QMAP downlink decoder of `qmi_wwan_q`

`qmap_packet_decode` walks the frames of one received USB buffer. A frame is a
4-byte `rmnet_map_header`, a second 4-byte checksum header when `next_hdr` is
set, and `pkt_len` bytes of payload and padding.

One pass of the `while` loop is `qmapFrame`. Besides the decision of the pass
it reports every access to the received buffer, in the order the code makes
them, because the length checks come in the middle of the pass. Arithmetic on
`int` and `uint` operands follows the C conversions: `mux_id` and `skb_len` are
compared as unsigned 32-bit numbers, so both are kept as their bit patterns.
-/

namespace Wwan.QmiWwanQ

open Wwan.Kernel Wwan.Bytes

/-- `QUECTEL_WWAN_QMAP`, the number of rmnet devices. -/
def quectelWwanQmap : ℕ := 4

/-- `QUECTEL_QMAP_MUX_ID`, the mux id of the first device. -/
def quectelQmapMuxId : ℕ := 0x81

/-- `struct tx_agg_ctx`. -/
structure TxAggCtx where
  /-- `ul_data_aggregation_max_datagrams`. -/
  ulDataAggregationMaxDatagrams : UInt32
  /-- `ul_data_aggregation_max_size`. -/
  ulDataAggregationMaxSize : UInt32
  /-- `dl_minimum_padding`. -/
  dlMinimumPadding : UInt32
  deriving DecidableEq

/-- `sQmiWwanQmap`, as far as the decoder reads it. `qmap_mode` is clamped to the
size of the device table when the module is loaded. -/
structure SQmiWwanQmap where
  /-- `mpQmapNetDev`; an entry is NULL while its device is not registered. -/
  mpQmapNetDev : Fin quectelWwanQmap → Option NetDevice
  /-- `qmap_mode`. -/
  qmapMode : ℕ
  /-- `qmap_version`: 5 is QMAPv1, 9 is QMAPv5. -/
  qmapVersion : ℕ
  /-- `tx_ctx`. -/
  txCtx : TxAggCtx
  /-- The clamp of `qmap_mode`. -/
  qmapMode_le : qmapMode ≤ quectelWwanQmap

/-- `pQmapDev->mpQmapNetDev[mux_id]`. -/
def SQmiWwanQmap.qmapNet (d : SQmiWwanQmap) (mux : ℕ) : Option NetDevice :=
  if h : mux < quectelWwanQmap then d.mpQmapNetDev ⟨mux, h⟩ else none

/-- The local `dl_minimum_padding` of the decoder. -/
def SQmiWwanQmap.dlMinimumPadding (d : SQmiWwanQmap) : ℕ :=
  if d.qmapVersion = 9 then d.txCtx.dlMinimumPadding.toNat else 0

/-! ## The map header -/

/-- `struct rmnet_map_header`. -/
structure RmnetMapHeader where
  /-- `pad_len`, six bits. -/
  padLen : ℕ
  /-- `next_hdr`. -/
  nextHdr : Bool
  /-- `cd_bit`. -/
  cdBit : Bool
  /-- `mux_id`. -/
  muxId : UInt8
  /-- `ntohs(pkt_len)`. -/
  pktLen : ℕ
  deriving DecidableEq

namespace RmnetMapHeader

/-- The header at `skb_in->data`. -/
def read (skb : SkBuff) : RmnetMapHeader :=
  { padLen := (skb.byte 0).toNat % 64
    nextHdr := (skb.byte 0).toNat / 64 % 2 = 1
    cdBit := (skb.byte 0).toNat / 128 % 2 = 1
    muxId := skb.byte 1
    pktLen := be16 (skb.byte 2) (skb.byte 3) }

variable (h : RmnetMapHeader)

/-- `hdr_size`: the map header, and the v5 header when `next_hdr` is set. -/
def hdrSize : ℕ := if h.nextHdr then 8 else 4

/-- The `int mux_id`, as the unsigned number it is compared as. -/
def muxIndex : ℕ := u32 ((h.muxId.toNat : ℤ) - quectelQmapMuxId)

/-- The `int skb_len`, as the unsigned number it is compared and used as. -/
def skbLen (dlMinimumPadding : ℕ) : ℕ := u32 ((h.pktLen : ℤ) - h.padLen - dlMinimumPadding)

/-- The bytes the frame claims to take up. -/
def frameLen : ℕ := h.pktLen + h.hdrSize

theorem hdrSize_pos : 0 < h.hdrSize := by
  unfold hdrSize
  split <;> decide

theorem frameLen_pos : 0 < h.frameLen := Nat.lt_of_lt_of_le h.hdrSize_pos (Nat.le_add_left _ _)

end RmnetMapHeader

/-! ## One frame -/

/-- An access to `len` bytes at `skb_in->data + off`. -/
structure Access where
  off : ℕ
  len : ℕ
  deriving DecidableEq

/-- A packet on `skb_chain`. -/
structure QmapSkb where
  /-- The index of `qmap_skb->dev` in `mpQmapNetDev`. -/
  dev : ℕ
  /-- `qmap_skb->protocol`. -/
  protocol : ℕ
  /-- The Ethernet header pushed in front, if the device has one. -/
  ethHdr : List UInt8
  /-- The packet from its network header on. -/
  payload : List UInt8
  deriving DecidableEq

/-- How a pass over a frame ends. -/
inductive Verdict
  | /-- `goto error_pkt`. -/
    error
  | /-- `goto skip_pkt` without a packet. -/
    skip
  | /-- The packet is queued before `skip_pkt`. -/
    deliver (pkt : QmapSkb)
  deriving DecidableEq

/-- The pass over the frame at `skb_in->data`: the accesses it makes and how it
ends. `alloc` is whether `netdev_alloc_skb` succeeds, if the pass comes to it. -/
def qmapFrame (d : SQmiWwanQmap) (alloc : Bool) (skbIn : SkBuff) : List Access × Verdict :=
  let h := RmnetMapHeader.read skbIn
  let skbLen := h.skbLen d.dlMinimumPadding
  if d.qmapMode ≤ h.muxIndex then ([⟨0, 4⟩], .error)
  else match d.qmapNet h.muxIndex with
  | none => ([⟨0, 4⟩], .skip)
  | some net =>
    if net.mtu < skbLen then ([⟨0, 4⟩], .error)
    else if skbIn.len < h.frameLen then ([⟨0, 4⟩], .error)
    else if h.cdBit then ([⟨0, 4⟩], .skip)
    else match ipProtocol (skbIn.byte h.hdrSize) with
    | none => ([⟨0, 4⟩, ⟨h.hdrSize, 1⟩], .error)
    | some protocol =>
      if alloc then
        -- the v5 header is looked at last, after the packet has been copied
        ([⟨0, 4⟩, ⟨h.hdrSize, 1⟩, ⟨h.hdrSize, skbLen⟩] ++ (if h.nextHdr then [⟨4, 4⟩] else []),
          .deliver
            { dev := h.muxIndex
              protocol := protocol
              ethHdr := rxEthHdr net protocol
              payload := skbIn.bytes h.hdrSize skbLen })
      else ([⟨0, 4⟩, ⟨h.hdrSize, 1⟩], .error)

/-! ## The loop -/

/-- The variables of the `while` loop. -/
structure DecodeState where
  /-- `skb_in`. -/
  skbIn : SkBuff
  /-- `skb_chain`. -/
  skbChain : List QmapSkb

/-- One evaluation of the loop condition and, if it holds, one pass. The packets
queued so far count the allocations that succeeded, so `alloc n` is the outcome
of the `n`-th one. -/
def qmapBody (d : SQmiWwanQmap) (alloc : ℕ → Bool) (st : DecodeState) :
    List QmapSkb ⊕ DecodeState :=
  if st.skbIn.len ≤ 4 then .inl st.skbChain
  else
    let rest := st.skbIn.pull (RmnetMapHeader.read st.skbIn).frameLen
    match (qmapFrame d (alloc st.skbChain.length) st.skbIn).2 with
    | .error => .inl st.skbChain
    | .skip => .inr ⟨rest, st.skbChain⟩
    | .deliver pkt => .inr ⟨rest, st.skbChain ++ [pkt]⟩

/-- The state in which `qmap_packet_decode` enters its loop. -/
def decodeStart (skbIn : SkBuff) : DecodeState := ⟨skbIn, []⟩

/-- `qmap_packet_decode`, stopped after `fuel` evaluations of the loop condition. -/
def qmapPacketDecode (d : SQmiWwanQmap) (alloc : ℕ → Bool) (fuel : ℕ) (skbIn : SkBuff) :
    Option (List QmapSkb) :=
  Loop.run (qmapBody d alloc) fuel (decodeStart skbIn)

/-! ## What a pass can do -/

/-- The frame at `skb_in->data` is for a mux id in use whose device is NULL. -/
structure Unregistered (d : SQmiWwanQmap) (skbIn : SkBuff) : Prop where
  mux_lt : (RmnetMapHeader.read skbIn).muxIndex < d.qmapMode
  unregistered : d.qmapNet (RmnetMapHeader.read skbIn).muxIndex = none

/-- The frame at `skb_in->data` passes the checks on its mux id, its device, the
MTU and the length of the buffer. -/
structure Fits (d : SQmiWwanQmap) (skbIn : SkBuff) (net : NetDevice) : Prop where
  mux_lt : (RmnetMapHeader.read skbIn).muxIndex < d.qmapMode
  registered : d.qmapNet (RmnetMapHeader.read skbIn).muxIndex = some net
  le_mtu : (RmnetMapHeader.read skbIn).skbLen d.dlMinimumPadding ≤ net.mtu
  frame_le : (RmnetMapHeader.read skbIn).frameLen ≤ skbIn.len

/-- The packet a data frame for `net` gives rise to. -/
def rxPacket (d : SQmiWwanQmap) (skbIn : SkBuff) (net : NetDevice) (protocol : ℕ) : QmapSkb :=
  { dev := (RmnetMapHeader.read skbIn).muxIndex
    protocol := protocol
    ethHdr := rxEthHdr net protocol
    payload := skbIn.bytes (RmnetMapHeader.read skbIn).hdrSize
      ((RmnetMapHeader.read skbIn).skbLen d.dlMinimumPadding) }

/-- The accesses made by a pass that queues a packet. -/
def rxReads (d : SQmiWwanQmap) (h : RmnetMapHeader) : List Access :=
  [⟨0, 4⟩, ⟨h.hdrSize, 1⟩, ⟨h.hdrSize, h.skbLen d.dlMinimumPadding⟩] ++
    (if h.nextHdr then [⟨4, 4⟩] else [])

/-- The ways a pass can go, with what has been checked in each. -/
inductive FrameCase (d : SQmiWwanQmap) (alloc : Bool) (skbIn : SkBuff) :
    List Access × Verdict → Prop
  | /-- A check on the header or the lengths failed. -/
    rejected (h : ∀ net, ¬ Fits d skbIn net) : FrameCase d alloc skbIn ([⟨0, 4⟩], .error)
  | /-- The device is NULL; the frame is skipped before its length is looked at. -/
    unregistered (h : Unregistered d skbIn) : FrameCase d alloc skbIn ([⟨0, 4⟩], .skip)
  | /-- A command frame. -/
    command {net : NetDevice} (h : Fits d skbIn net)
      (hcd : (RmnetMapHeader.read skbIn).cdBit = true) :
      FrameCase d alloc skbIn ([⟨0, 4⟩], .skip)
  | /-- A data frame that is no IP packet, or for which there is no memory. -/
    dropped {net : NetDevice} (h : Fits d skbIn net)
      (hcd : (RmnetMapHeader.read skbIn).cdBit = false)
      (hip : ipProtocol (skbIn.byte (RmnetMapHeader.read skbIn).hdrSize) = none ∨
        alloc = false) :
      FrameCase d alloc skbIn ([⟨0, 4⟩, ⟨(RmnetMapHeader.read skbIn).hdrSize, 1⟩], .error)
  | /-- A data frame whose packet is queued. -/
    delivered {net : NetDevice} {protocol : ℕ} (h : Fits d skbIn net)
      (hcd : (RmnetMapHeader.read skbIn).cdBit = false)
      (hip : ipProtocol (skbIn.byte (RmnetMapHeader.read skbIn).hdrSize) = some protocol)
      (halloc : alloc = true) :
      FrameCase d alloc skbIn
        (rxReads d (RmnetMapHeader.read skbIn), .deliver (rxPacket d skbIn net protocol))

/-- A pass goes one of the ways of `FrameCase`. -/
theorem qmapFrame_case (d : SQmiWwanQmap) (alloc : Bool) (skbIn : SkBuff) :
    FrameCase d alloc skbIn (qmapFrame d alloc skbIn) := by
  by_cases hmux : d.qmapMode ≤ (RmnetMapHeader.read skbIn).muxIndex
  · rw [qmapFrame, if_pos hmux]
    exact .rejected fun net h ↦ absurd h.mux_lt (Nat.not_lt.mpr hmux)
  rw [Nat.not_le] at hmux
  rw [qmapFrame, if_neg (Nat.not_le.mpr hmux)]
  cases hnet : d.qmapNet (RmnetMapHeader.read skbIn).muxIndex with
  | none => exact .unregistered ⟨hmux, hnet⟩
  | some net =>
    have hsame : ∀ net', Fits d skbIn net' → net' = net := fun net' h ↦
      Option.some.inj (h.registered.symm.trans hnet)
    dsimp only
    by_cases hmtu : net.mtu < (RmnetMapHeader.read skbIn).skbLen d.dlMinimumPadding
    · rw [if_pos hmtu]
      refine .rejected fun net' h ↦ ?_
      rw [hsame net' h] at h
      exact absurd h.le_mtu (Nat.not_le.mpr hmtu)
    by_cases hlen : skbIn.len < (RmnetMapHeader.read skbIn).frameLen
    · rw [if_neg hmtu, if_pos hlen]
      exact .rejected fun net' h ↦ absurd h.frame_le (Nat.not_le.mpr hlen)
    have hfits : Fits d skbIn net := ⟨hmux, hnet, Nat.not_lt.mp hmtu, Nat.not_lt.mp hlen⟩
    rw [if_neg hmtu, if_neg hlen]
    cases hcd : (RmnetMapHeader.read skbIn).cdBit with
    | true => exact .command hfits hcd
    | false =>
      cases hip : ipProtocol (skbIn.byte (RmnetMapHeader.read skbIn).hdrSize) with
      | none => exact .dropped hfits hcd (.inl hip)
      | some protocol =>
        cases alloc with
        | false => exact .dropped hfits hcd (.inr rfl)
        | true => exact .delivered hfits hcd hip rfl

/-- The pass over a data frame for a registered device queues its packet. -/
theorem qmapFrame_of_fits {d : SQmiWwanQmap} {skbIn : SkBuff} {net : NetDevice} {protocol : ℕ}
    (h : Fits d skbIn net) (hcd : (RmnetMapHeader.read skbIn).cdBit = false)
    (hip : ipProtocol (skbIn.byte (RmnetMapHeader.read skbIn).hdrSize) = some protocol) :
    qmapFrame d true skbIn =
      (rxReads d (RmnetMapHeader.read skbIn), .deliver (rxPacket d skbIn net protocol)) := by
  have hcase := qmapFrame_case d true skbIn
  generalize qmapFrame d true skbIn = r at hcase
  cases hcase with
  | rejected hrej => exact absurd h (hrej net)
  | unregistered hun => exact nomatch hun.unregistered.symm.trans h.registered
  | command _ hcd' => simp [hcd] at hcd'
  | dropped _ _ hip' => simp [hip] at hip'
  | delivered h' _ hip' _ =>
    obtain rfl := Option.some.inj (h'.registered.symm.trans h.registered)
    obtain rfl := Option.some.inj (hip'.symm.trans hip)
    rfl

end Wwan.QmiWwanQ
