import Mathlib.Data.Vector.Basic
import Wwan.Kernel.RxUse
import Wwan.Kernel.SkBuff
import Wwan.Lib.Loop
import Wwan.Lib.Memory

/-!
# The downlink decoder of `qmi_wwan_f`

`qmap_qmi_wwan_rx_fixup` turns the frames of one received buffer into packets. A packet is a clone
of the buffer where there is room for an Ethernet header in front of the payload, so that the clone
shows the bytes of the buffer itself and the header is written into them; else it is a copy. The
packets are collected on `skb_chain`, which belongs to the device, and are handed on after the last
frame. The exits for a bad frame and for a failed allocation leave them there.

One pass of the loop is `qmapFrame`, which also reports what it uses the numbers of the frame for.
-/

namespace Wwan.QmiWwanF

open Wwan.Kernel Wwan.Bytes Wwan.Memory

/-- `FIBOCOM_WWAN_QMAP`, the number of devices. -/
def fibocomWwanQmap : ℕ := 4

/-- `FIBOCOM_QMAP_MUX_ID`, the mux id of the first device. -/
def fibocomQmapMuxId : ℕ := 0x81

/-! ## Devices and packets -/

/-- A `struct net_device` that packets are handed to. -/
structure QmapNet where
  /-- Which device it is; a device that is registered later is another one. -/
  id : ℕ
  /-- `dev_addr`. -/
  devAddr : List.Vector UInt8 6
  /-- `bridge_mode`. -/
  bridgeMode : Bool
  /-- `bridge_mac`. -/
  bridgeMac : List.Vector UInt8 6
  deriving DecidableEq

/-- The destination that `bridge_mode_rx_fixup` leaves in the header. -/
def QmapNet.hDest (net : QmapNet) : List.Vector UInt8 6 :=
  if net.bridgeMode then net.bridgeMac else net.devAddr

/-- The Ethernet header of a packet for the device. -/
def QmapNet.ethHdr (net : QmapNet) (protocol : ℕ) : List UInt8 :=
  net.hDest.toList ++ defaultModemAddr ++ toBe16 protocol

@[simp] theorem QmapNet.length_ethHdr (net : QmapNet) (protocol : ℕ) :
    (net.ethHdr protocol).length = ethHlen := by
  simp [ethHdr, defaultModemAddr, toBe16, ethHlen]

/-- `sQmiWwanQmap`, as far as the decoder reads it. -/
structure SQmiWwanQmap where
  /-- `mpQmapNetDev`; an entry is NULL while its device is not registered. -/
  mpQmapNetDev : Fin fibocomWwanQmap → Option QmapNet
  /-- `qmap_mode`. -/
  qmapMode : ℕ
  /-- The clamp of `qmap_mode` when the module is loaded. -/
  qmapMode_le : qmapMode ≤ fibocomWwanQmap
  /-- Each element has a device of its own. -/
  distinct : ∀ i j net net', mpQmapNetDev i = some net → mpQmapNetDev j = some net' →
    net.id = net'.id → i = j

/-- `pQmapDev->mpQmapNetDev[mux_id]`. -/
def SQmiWwanQmap.qmapNet (d : SQmiWwanQmap) (mux : ℕ) : Option QmapNet :=
  if h : mux < fibocomWwanQmap then d.mpQmapNetDev ⟨mux, h⟩ else none

/-- Where the bytes of a packet are. -/
inductive Body
  | /-- In the received buffer, which a clone shares. -/
    shared (start len : ℕ)
  | /-- In memory of its own. -/
    own (bytes : List UInt8)
  deriving DecidableEq

/-- A packet on `skb_chain`. -/
structure RxSkb where
  /-- `qmap_skb->dev`. -/
  dev : QmapNet
  body : Body
  deriving DecidableEq

/-- A packet by its bytes. -/
structure Packet where
  dev : QmapNet
  bytes : List UInt8
  deriving DecidableEq

/-- The bytes of a packet when the received buffer is `mem`. -/
def RxSkb.resolve (mem : ℕ → UInt8) (skb : RxSkb) : Packet :=
  ⟨skb.dev, match skb.body with
    | .shared start len => peek mem start len
    | .own bytes => bytes⟩

/-- A packet that was on the chain before the buffer came. -/
def Packet.toSkb (pkt : Packet) : RxSkb := ⟨pkt.dev, .own pkt.bytes⟩

/-! ## One frame -/

/-- `struct qmap_hdr`. -/
structure QmapHdr where
  /-- `cd_rsvd_pad`. -/
  cdRsvdPad : UInt8
  /-- `mux_id`. -/
  muxId : UInt8
  /-- `be16_to_cpu(pkt_len)`. -/
  pktLen : ℕ
  deriving DecidableEq

namespace QmapHdr

/-- The header at `skb_in->data`. -/
def read (mem : ℕ → UInt8) (a : ℕ) : QmapHdr :=
  ⟨mem a, mem (a + 1), be16 (mem (a + 2)) (mem (a + 3))⟩

variable (h : QmapHdr)

/-- `cd_rsvd_pad & 0x3F`. -/
def pad : ℕ := h.cdRsvdPad.toNat % 64

/-- `cd_rsvd_pad & 0x80`. -/
def cdBit : Bool := h.cdRsvdPad.toNat / 128 % 2 = 1

/-- The `int skb_len`. -/
def skbLen : ℤ := h.pktLen - h.pad

/-- The `int mux_id`. -/
def mux : ℤ := h.muxId.toNat - fibocomQmapMuxId

/-- `mux_id` as the unsigned number it is compared as. -/
def muxIndex : ℕ := u32 h.mux

end QmapHdr

/-- The variables of the loop. -/
structure RxState where
  /-- The memory of `skb_in`. -/
  mem : ℕ → UInt8
  /-- Where `skb_in->data` is in it. -/
  data : ℕ
  /-- `skb_in->len`. -/
  len : ℕ
  headroom : ℕ
  /-- `skb_chain`. -/
  chain : List RxSkb

/-- How a pass over a frame ends. -/
inductive Verdict
  | /-- `goto error_pkt`, or the return after a failed allocation. -/
    error
  | /-- `goto skip_pkt` without a packet. -/
    skip
  | /-- `skb_put` and `memcpy` of a negative length. -/
    overrun
  | /-- The packet is queued; `mem` and `headroom` are those after it. -/
    queue (skb : RxSkb) (mem : ℕ → UInt8) (headroom : ℕ)

/-- The length that `skb_trim` leaves of a clone: a length that is no smaller, as a negative one
is when it is taken as unsigned, is left alone. -/
def trimLen (len : ℕ) (skbLen : ℤ) : ℕ := min len (u32 skbLen)

/-- The packet is a clone. -/
def cloneFrame (alloc : Bool) (st : RxState) (net : QmapNet) (protocol : ℕ) :
    List RxUse × Verdict :=
  let h := QmapHdr.read st.mem st.data
  if alloc then
    let start := st.data + 4 - ethHlen
    ([.size h.skbLen],
      .queue ⟨net, .shared start (ethHlen + trimLen (st.len - 4) h.skbLen)⟩
        (poke st.mem start (net.ethHdr protocol)) h.pad)
  else ([], .error)

/-- The packet is a copy. -/
def copyFrame (alloc : Bool) (st : RxState) (net : QmapNet) (protocol : ℕ) :
    List RxUse × Verdict :=
  let h := QmapHdr.read st.mem st.data
  if alloc then
    ([.size h.skbLen, .read 4 h.skbLen],
      if h.skbLen < 0 then .overrun
      else
        .queue ⟨net, .own (net.ethHdr protocol ++ peek st.mem (st.data + 4) h.skbLen.toNat)⟩
          st.mem h.pktLen)
  else ([.size h.skbLen], .error)

/-- The pass over the frame at `skb_in->data`: what it uses the numbers of the frame for, and how it
ends. `alloc` is whether the clone or the allocation succeeds, if the pass comes to it. -/
def qmapFrame (d : SQmiWwanQmap) (alloc : Bool) (st : RxState) : List RxUse × Verdict :=
  let h := QmapHdr.read st.mem st.data
  if 1500 < h.skbLen then ([.read 0 4], .error)
  else if st.len < h.pktLen + 4 then ([.read 0 4], .error)
  else if h.cdBit then ([.read 0 4], .skip)
  else
    match ipProtocol (st.mem (st.data + 4)) with
    | none => ([.read 0 4, .read 4 1], .error)
    | some protocol =>
      if d.qmapMode ≤ h.muxIndex then ([.read 0 4, .read 4 1], .error)
      else
        match d.qmapNet h.muxIndex with
        | none => ([.read 0 4, .read 4 1, .index h.mux], .skip)
        | some net =>
          let r :=
            if ethHlen ≤ st.headroom then cloneFrame alloc st net protocol
            else copyFrame alloc st net protocol
          ([.read 0 4, .read 4 1, .index h.mux] ++ r.1, r.2)

/-! ## What a pass can do -/

/-- The frame at `skb_in->data` passes the checks on its lengths. -/
structure Fits (st : RxState) : Prop where
  skbLen_le : (QmapHdr.read st.mem st.data).skbLen ≤ 1500
  frame_le : (QmapHdr.read st.mem st.data).pktLen + 4 ≤ st.len

/-- The frame at `skb_in->data` is a data frame for the registered device `net`. -/
structure DataFor (d : SQmiWwanQmap) (st : RxState) (net : QmapNet) (protocol : ℕ) : Prop where
  fits : Fits st
  data : (QmapHdr.read st.mem st.data).cdBit = false
  ip : ipProtocol (st.mem (st.data + 4)) = some protocol
  mux_lt : (QmapHdr.read st.mem st.data).muxIndex < d.qmapMode
  registered : d.qmapNet (QmapHdr.read st.mem st.data).muxIndex = some net

/-- The ways a pass can go, with what has been checked in each. -/
inductive FrameCase (d : SQmiWwanQmap) (alloc : Bool) (st : RxState) :
    List RxUse × Verdict → Prop
  | /-- A length is wrong. -/
    rejected (h : ¬ Fits st) : FrameCase d alloc st ([.read 0 4], .error)
  | /-- A command frame. -/
    command (h : Fits st) (hcd : (QmapHdr.read st.mem st.data).cdBit = true) :
      FrameCase d alloc st ([.read 0 4], .skip)
  | /-- A data frame that is no IP packet, or whose mux id is not in use. -/
    unknown (h : Fits st) (hcd : (QmapHdr.read st.mem st.data).cdBit = false)
      (hunk : ipProtocol (st.mem (st.data + 4)) = none ∨
        d.qmapMode ≤ (QmapHdr.read st.mem st.data).muxIndex) :
      FrameCase d alloc st ([.read 0 4, .read 4 1], .error)
  | /-- A data frame for a device that is NULL. -/
    unregistered (h : Fits st) (hcd : (QmapHdr.read st.mem st.data).cdBit = false)
      (hip : (ipProtocol (st.mem (st.data + 4))).isSome)
      (hmux : (QmapHdr.read st.mem st.data).muxIndex < d.qmapMode)
      (hnet : d.qmapNet (QmapHdr.read st.mem st.data).muxIndex = none) :
      FrameCase d alloc st
        ([.read 0 4, .read 4 1, .index (QmapHdr.read st.mem st.data).mux], .skip)
  | /-- A clone. -/
    clone {net : QmapNet} {protocol : ℕ} (h : DataFor d st net protocol)
      (hroom : ethHlen ≤ st.headroom) :
      FrameCase d alloc st
        ([.read 0 4, .read 4 1, .index (QmapHdr.read st.mem st.data).mux] ++
            (cloneFrame alloc st net protocol).1,
          (cloneFrame alloc st net protocol).2)
  | /-- A copy. -/
    copy {net : QmapNet} {protocol : ℕ} (h : DataFor d st net protocol)
      (hroom : st.headroom < ethHlen) :
      FrameCase d alloc st
        ([.read 0 4, .read 4 1, .index (QmapHdr.read st.mem st.data).mux] ++
            (copyFrame alloc st net protocol).1,
          (copyFrame alloc st net protocol).2)

/-- A pass goes one of the ways of `FrameCase`. -/
theorem qmapFrame_case (d : SQmiWwanQmap) (alloc : Bool) (st : RxState) :
    FrameCase d alloc st (qmapFrame d alloc st) := by
  by_cases hskb : 1500 < (QmapHdr.read st.mem st.data).skbLen
  · rw [qmapFrame, if_pos hskb]
    exact .rejected fun h ↦ absurd h.skbLen_le (Int.not_le.mpr hskb)
  by_cases hlen : st.len < (QmapHdr.read st.mem st.data).pktLen + 4
  · rw [qmapFrame, if_neg hskb, if_pos hlen]
    exact .rejected fun h ↦ absurd h.frame_le (Nat.not_le.mpr hlen)
  have hfits : Fits st := ⟨Int.not_lt.mp hskb, Nat.not_lt.mp hlen⟩
  rw [qmapFrame, if_neg hskb, if_neg hlen]
  cases hcd : (QmapHdr.read st.mem st.data).cdBit with
  | true => exact .command hfits hcd
  | false =>
    cases hip : ipProtocol (st.mem (st.data + 4)) with
    | none => exact .unknown hfits hcd (.inl hip)
    | some protocol =>
      by_cases hmux : d.qmapMode ≤ (QmapHdr.read st.mem st.data).muxIndex
      · simp only [Bool.false_eq_true, if_false, if_pos hmux]
        exact .unknown hfits hcd (.inr hmux)
      · simp only [Bool.false_eq_true, if_false, if_neg hmux]
        rw [Nat.not_le] at hmux
        cases hnet : d.qmapNet (QmapHdr.read st.mem st.data).muxIndex with
        | none => exact .unregistered hfits hcd (by simp [hip]) hmux hnet
        | some net =>
          have hdata : DataFor d st net protocol := ⟨hfits, hcd, hip, hmux, hnet⟩
          by_cases hroom : ethHlen ≤ st.headroom
          · simp only [if_pos hroom]
            exact .clone hdata hroom
          · simp only [if_neg hroom]
            exact .copy hdata (Nat.not_le.mp hroom)

/-- A pass that skips or queues stays inside the buffer. -/
theorem fits_of_qmapFrame {d : SQmiWwanQmap} {alloc : Bool} {st : RxState}
    (h : (qmapFrame d alloc st).2 ≠ .error) : Fits st := by
  have hcase := qmapFrame_case d alloc st
  generalize qmapFrame d alloc st = r at hcase h
  cases hcase with
  | rejected => exact absurd rfl h
  | command hfits _ => exact hfits
  | unknown => exact absurd rfl h
  | unregistered hfits _ _ _ _ => exact hfits
  | clone hdata _ => exact hdata.fits
  | copy hdata _ => exact hdata.fits

/-! ## The loop -/

/-- `skb_pull` of a frame. -/
def RxState.pull (st : RxState) (n : ℕ) : RxState :=
  { st with data := st.data + n, len := st.len - n }

/-- How the function is left. -/
inductive RxExit
  | /-- Through the loop that empties `skb_chain`. -/
    dequeue
  | /-- At `error_pkt`, or after a failed allocation. -/
    error
  | /-- It is not: a negative length was copied. -/
    overrun
  deriving DecidableEq

/-- One evaluation of the loop condition and, if it holds, one pass. `alloc` says for each offset
whether the allocation for the frame there succeeds. -/
def rxBody (d : SQmiWwanQmap) (alloc : ℕ → Bool) (st : RxState) : RxExit × RxState ⊕ RxState :=
  if st.len ≤ 4 then .inl (.dequeue, st)
  else
    let frameLen := (QmapHdr.read st.mem st.data).pktLen + 4
    match (qmapFrame d (alloc st.data) st).2 with
    | .error => .inl (.error, st)
    | .overrun => .inl (.overrun, st)
    | .skip => .inr (st.pull frameLen)
    | .queue skb mem headroom =>
      .inr ({ st with mem, headroom, chain := st.chain ++ [skb] }.pull frameLen)

section

variable {d : SQmiWwanQmap} {alloc : ℕ → Bool} {st : RxState}

theorem rxBody_of_short (hlen : st.len ≤ 4) : rxBody d alloc st = .inl (.dequeue, st) :=
  if_pos hlen

theorem rxBody_of_error (hlen : 4 < st.len) (h : (qmapFrame d (alloc st.data) st).2 = .error) :
    rxBody d alloc st = .inl (.error, st) := by
  rw [rxBody, if_neg (Nat.not_le.mpr hlen), h]

theorem rxBody_of_skip (hlen : 4 < st.len) (h : (qmapFrame d (alloc st.data) st).2 = .skip) :
    rxBody d alloc st = .inr (st.pull ((QmapHdr.read st.mem st.data).pktLen + 4)) := by
  rw [rxBody, if_neg (Nat.not_le.mpr hlen), h]

theorem rxBody_of_queue {skb : RxSkb} {mem : ℕ → UInt8} {headroom : ℕ} (hlen : 4 < st.len)
    (h : (qmapFrame d (alloc st.data) st).2 = .queue skb mem headroom) :
    rxBody d alloc st =
      .inr ({ st with mem, headroom, chain := st.chain ++ [skb] }.pull
        ((QmapHdr.read st.mem st.data).pktLen + 4)) := by
  rw [rxBody, if_neg (Nat.not_le.mpr hlen), h]

end

/-- What a call does: how it is left, the packets handed on, and those that stay on the chain. -/
structure RxResult where
  exit : RxExit
  delivered : List Packet
  chain : List Packet
  deriving DecidableEq

/-- What follows the loop. -/
def finish : RxExit × RxState → RxResult
  | (.dequeue, st) => ⟨.dequeue, st.chain.map (RxSkb.resolve st.mem), []⟩
  | (exit, st) => ⟨exit, [], st.chain.map (RxSkb.resolve st.mem)⟩

/-- A received buffer: the bytes from `data` to `data + len`. -/
structure RxBuf where
  mem : ℕ → UInt8
  data : ℕ
  len : ℕ

/-- The state in which the loop is entered, with the packets that are on the chain already. -/
def rxStart (buf : RxBuf) (chain : List Packet) : RxState :=
  ⟨buf.mem, buf.data, buf.len, buf.data, chain.map Packet.toSkb⟩

/-- `qmap_qmi_wwan_rx_fixup` with `qmap_mode` set returns this. -/
def RxFixup (d : SQmiWwanQmap) (alloc : ℕ → Bool) (buf : RxBuf) (chain : List Packet)
    (r : RxResult) : Prop :=
  ∃ q, Loop.Returns (rxBody d alloc) (rxStart buf chain) q ∧ finish q = r

/-- A pass that stays in the loop takes a header off the buffer. -/
theorem len_of_rxBody {d : SQmiWwanQmap} {alloc : ℕ → Bool} {st st' : RxState}
    (h : rxBody d alloc st = .inr st') : st'.len < st.len := by
  unfold rxBody at h
  split at h
  next => cases h
  next hlen =>
    have hframe : (qmapFrame d (alloc st.data) st).2 ≠ .error := by
      intro herr
      rw [herr] at h
      cases h
    have hle := (fits_of_qmapFrame hframe).frame_le
    generalize (qmapFrame d (alloc st.data) st).2 = v at h
    cases v with
    | error => cases h
    | overrun => cases h
    | skip =>
      cases h
      simp only [RxState.pull]
      omega
    | queue skb mem headroom =>
      cases h
      simp only [RxState.pull]
      omega

theorem exists_run (d : SQmiWwanQmap) (alloc : ℕ → Bool) {n : ℕ} {st : RxState}
    (h : st.len < n) : ∃ q, Loop.run (rxBody d alloc) n st = some q := by
  induction n generalizing st with
  | zero => exact absurd h (Nat.not_lt_zero _)
  | succ n ih =>
    cases hb : rxBody d alloc st with
    | inl q => exact ⟨q, by simp [Loop.run, hb]⟩
    | inr st' =>
      obtain ⟨q, hq⟩ := ih (Nat.lt_of_lt_of_le (len_of_rxBody hb) (Nat.le_of_lt_succ h))
      exact ⟨q, by simpa [Loop.run, hb] using hq⟩

/-- What a call returns: there are no more passes than bytes. -/
def rxFixup (d : SQmiWwanQmap) (alloc : ℕ → Bool) (buf : RxBuf) (chain : List Packet) :
    RxResult :=
  match Loop.run (rxBody d alloc) (buf.len + 1) (rxStart buf chain) with
  | some q => finish q
  | none => ⟨.overrun, [], chain⟩

/-- The call always comes to an end. -/
theorem rxFixup_returns (d : SQmiWwanQmap) (alloc : ℕ → Bool) (buf : RxBuf)
    (chain : List Packet) : ∃ q, Loop.Returns (rxBody d alloc) (rxStart buf chain) q ∧
      rxFixup d alloc buf chain = finish q := by
  have hlen : (rxStart buf chain).len < buf.len + 1 := Nat.lt_succ_self buf.len
  obtain ⟨q, hq⟩ := exists_run d alloc hlen
  exact ⟨q, ⟨_, hq⟩, by rw [rxFixup, hq]⟩

end Wwan.QmiWwanF
