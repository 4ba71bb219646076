import Wwan.Kernel.RxUse
import Wwan.QmiWwanQ.Decode

/-!
# The downlink decoder of GobiNet

`_rmnet_usb_rx_handler` copies the payload of each frame of a received buffer into a packet and
hands the packets on in every exit. Its frames have the map header of `qmi_wwan_q`, with a second
header when `next_hdr` is set.

Here `qmap_mode` is an `int`, so that a mux id below the first one passes the check against it and
is used as a negative index; `skb_len` is compared as an `int` too, so that a negative length passes
its check; and a frame that consists of two headers has no byte to read the IP version from when it
is the last one.
-/

namespace Wwan.GobiNet

open Wwan.Kernel Wwan.Bytes
open Wwan.QmiWwanQ (RmnetMapHeader)

/-- `QUECTEL_WWAN_QMAP`, the number of rmnet devices. -/
def quectelWwanQmap : ℕ := 4

/-- `QUECTEL_QMAP_MUX_ID`, the mux id of the first device. -/
def quectelQmapMuxId : ℕ := 0x81

/-- `sGobiUSBNet`, as far as the decoder reads it. -/
structure SGobiUSBNet where
  /-- `mpQmapNetDev`, and what lies around it in memory as far as an index leads there. -/
  mpQmapNetDev : ℤ → Option NetDevice
  /-- `qmap_mode`. -/
  qmapMode : ℕ
  /-- `qmap_version`: 5 is QMAPv1, 9 is QMAPv5. -/
  qmapVersion : ℕ
  /-- `agg_ctx.dl_minimum_padding`. -/
  dlMinimumPadding : UInt32
  /-- No more devices than the table has elements. -/
  qmapMode_le : qmapMode ≤ quectelWwanQmap

/-- The local `dl_minimum_padding` of the decoder. -/
def SGobiUSBNet.dlPadding (d : SGobiUSBNet) : ℕ :=
  if d.qmapVersion = 9 then d.dlMinimumPadding.toNat else 0

/-- The `int mux_id`. -/
def mux (h : RmnetMapHeader) : ℤ := h.muxId.toNat - quectelQmapMuxId

/-- The `int skb_len`; the minimum padding is unsigned. -/
def skbLen (d : SGobiUSBNet) (h : RmnetMapHeader) : ℤ := int32 (h.pktLen - h.padLen - d.dlPadding)

/-- A packet on `skb_chain`. -/
structure QmapSkb where
  dev : ℤ
  protocol : ℕ
  /-- The Ethernet header pushed in front, if the device has one. -/
  ethHdr : List UInt8
  payload : List UInt8
  deriving DecidableEq

/-- How a pass over a frame ends. -/
inductive Verdict
  | /-- `goto error_pkt`. -/
    error
  | /-- `goto skip_pkt` without a packet. -/
    skip
  | /-- `skb_put` and `memcpy` of a negative length. -/
    overrun
  | /-- The packet is queued. -/
    queue (skb : QmapSkb)
  deriving DecidableEq

/-- A data frame for the device `net` is copied. -/
def copyFrame (d : SGobiUSBNet) (alloc : Bool) (skbIn : SkBuff) (net : NetDevice)
    (protocol : ℕ) : List RxUse × Verdict :=
  let h := RmnetMapHeader.read skbIn
  let n := skbLen d h
  if alloc then
    ([.size n, .read h.hdrSize n] ++ (if h.nextHdr then [.read 4 4] else []),
      if n < 0 then .overrun
      else
        .queue
          { dev := mux h
            protocol := protocol
            ethHdr := rxEthHdr net protocol
            payload := skbIn.bytes h.hdrSize n.toNat })
  else ([.size n], .error)

/-- The pass over the frame at `skb_in->data`: what it uses the numbers of the frame for, and how it
ends. `alloc` is whether `netdev_alloc_skb` succeeds, if the pass comes to it. -/
def rmnetFrame (d : SGobiUSBNet) (alloc : Bool) (skbIn : SkBuff) : List RxUse × Verdict :=
  let h := RmnetMapHeader.read skbIn
  if 1500 < skbLen d h then ([.read 0 4], .error)
  else if skbIn.len < h.frameLen then ([.read 0 4], .error)
  else if h.cdBit then ([.read 0 4], .skip)
  else
    match ipProtocol (skbIn.byte h.hdrSize) with
    | none => ([.read 0 4, .read h.hdrSize 1], .error)
    | some protocol =>
      if (d.qmapMode : ℤ) ≤ mux h then ([.read 0 4, .read h.hdrSize 1], .error)
      else
        match d.mpQmapNetDev (mux h) with
        | none => ([.read 0 4, .read h.hdrSize 1, .index (mux h)], .skip)
        | some net =>
          let r := copyFrame d alloc skbIn net protocol
          ([.read 0 4, .read h.hdrSize 1, .index (mux h)] ++ r.1, r.2)

/-! ## What a pass can do -/

/-- The frame at `skb_in->data` passes the checks on its lengths. -/
structure Fits (d : SGobiUSBNet) (skbIn : SkBuff) : Prop where
  skbLen_le : skbLen d (RmnetMapHeader.read skbIn) ≤ 1500
  frame_le : (RmnetMapHeader.read skbIn).frameLen ≤ skbIn.len

/-- It is a data frame, and not a command. -/
structure IsData (d : SGobiUSBNet) (skbIn : SkBuff) : Prop extends Fits d skbIn where
  data : (RmnetMapHeader.read skbIn).cdBit = false

/-- The ways a pass can go, with what has been checked in each. -/
inductive FrameCase (d : SGobiUSBNet) (alloc : Bool) (skbIn : SkBuff) :
    List RxUse × Verdict → Prop
  | /-- A length is wrong. -/
    rejected (h : ¬ Fits d skbIn) : FrameCase d alloc skbIn ([.read 0 4], .error)
  | /-- A command frame. -/
    command (h : Fits d skbIn) (hcd : (RmnetMapHeader.read skbIn).cdBit = true) :
      FrameCase d alloc skbIn ([.read 0 4], .skip)
  | /-- A data frame that is no IP packet, or whose mux id is too large. -/
    unknown (h : IsData d skbIn)
      (hunk : ipProtocol (skbIn.byte (RmnetMapHeader.read skbIn).hdrSize) = none ∨
        (d.qmapMode : ℤ) ≤ mux (RmnetMapHeader.read skbIn)) :
      FrameCase d alloc skbIn
        ([.read 0 4, .read (RmnetMapHeader.read skbIn).hdrSize 1], .error)
  | /-- A data frame whose index leads to NULL. -/
    unregistered {protocol : ℕ} (h : IsData d skbIn)
      (hip : ipProtocol (skbIn.byte (RmnetMapHeader.read skbIn).hdrSize) = some protocol)
      (hmux : mux (RmnetMapHeader.read skbIn) < d.qmapMode)
      (hnet : d.mpQmapNetDev (mux (RmnetMapHeader.read skbIn)) = none) :
      FrameCase d alloc skbIn
        ([.read 0 4, .read (RmnetMapHeader.read skbIn).hdrSize 1,
          .index (mux (RmnetMapHeader.read skbIn))], .skip)
  | /-- A data frame whose index leads to a device. -/
    copy {net : NetDevice} {protocol : ℕ} (h : IsData d skbIn)
      (hip : ipProtocol (skbIn.byte (RmnetMapHeader.read skbIn).hdrSize) = some protocol)
      (hmux : mux (RmnetMapHeader.read skbIn) < d.qmapMode)
      (hnet : d.mpQmapNetDev (mux (RmnetMapHeader.read skbIn)) = some net) :
      FrameCase d alloc skbIn
        ([.read 0 4, .read (RmnetMapHeader.read skbIn).hdrSize 1,
            .index (mux (RmnetMapHeader.read skbIn))] ++ (copyFrame d alloc skbIn net protocol).1,
          (copyFrame d alloc skbIn net protocol).2)

/-- A pass goes one of the ways of `FrameCase`. -/
theorem rmnetFrame_case (d : SGobiUSBNet) (alloc : Bool) (skbIn : SkBuff) :
    FrameCase d alloc skbIn (rmnetFrame d alloc skbIn) := by
  by_cases hskb : 1500 < skbLen d (RmnetMapHeader.read skbIn)
  · rw [rmnetFrame, if_pos hskb]
    exact .rejected fun h ↦ absurd h.skbLen_le (Int.not_le.mpr hskb)
  by_cases hlen : skbIn.len < (RmnetMapHeader.read skbIn).frameLen
  · rw [rmnetFrame, if_neg hskb, if_pos hlen]
    exact .rejected fun h ↦ absurd h.frame_le (Nat.not_le.mpr hlen)
  have hfits : Fits d skbIn := ⟨Int.not_lt.mp hskb, Nat.not_lt.mp hlen⟩
  rw [rmnetFrame, if_neg hskb, if_neg hlen]
  cases hcd : (RmnetMapHeader.read skbIn).cdBit with
  | true => exact .command hfits hcd
  | false =>
    have hdata : IsData d skbIn := ⟨hfits, hcd⟩
    cases hip : ipProtocol (skbIn.byte (RmnetMapHeader.read skbIn).hdrSize) with
    | none => exact .unknown hdata (.inl hip)
    | some protocol =>
      by_cases hmux : (d.qmapMode : ℤ) ≤ mux (RmnetMapHeader.read skbIn)
      · simp only [Bool.false_eq_true, if_false, if_pos hmux]
        exact .unknown hdata (.inr hmux)
      · simp only [Bool.false_eq_true, if_false, if_neg hmux]
        rw [Int.not_le] at hmux
        cases hnet : d.mpQmapNetDev (mux (RmnetMapHeader.read skbIn)) with
        | none => exact .unregistered hdata hip hmux hnet
        | some net => exact .copy hdata hip hmux hnet

/-! ## The loop -/

/-- The variables of the loop. -/
structure RxState where
  skbIn : SkBuff
  /-- `skb_chain`. -/
  chain : List QmapSkb

/-- One evaluation of the loop condition and, if it holds, one pass. The packets queued so far
count the allocations that succeeded. The loop at `error_pkt` hands on the packets in both exits;
`none` is a call that does not come to it. -/
def rxBody (d : SGobiUSBNet) (alloc : ℕ → Bool) (st : RxState) :
    Option (List QmapSkb) ⊕ RxState :=
  if st.skbIn.len ≤ 4 then .inl (some st.chain)
  else
    let rest := st.skbIn.pull (RmnetMapHeader.read st.skbIn).frameLen
    match (rmnetFrame d (alloc st.chain.length) st.skbIn).2 with
    | .error => .inl (some st.chain)
    | .overrun => .inl none
    | .skip => .inr ⟨rest, st.chain⟩
    | .queue skb => .inr ⟨rest, st.chain ++ [skb]⟩

/-- The state in which `_rmnet_usb_rx_handler` enters its loop. -/
def rxStart (skbIn : SkBuff) : RxState := ⟨skbIn, []⟩

end Wwan.GobiNet
