import Wwan.QmiWwanQ.Decode

/-!
# QMAP framing of uplink packets in `qmi_wwan_q`

`add_qhdr` and `add_qhdr_v5` pad a packet to a multiple of four bytes, if there
is tailroom for it, and write the header either in front of the packet or into
`hdr_data`. On the rmnet devices the header goes to `hdr_data` and the Ethernet
header, if there is one, stays in front of the packet; `rmnet_usb_tx_agg` then
copies the header and the packet from `ip_offset` on.

`wireFrame` states the format on its own terms, and the two encoders are shown
to produce it whatever the tailroom holds.
-/

namespace Wwan.QmiWwanQ

open Wwan.Kernel Wwan.Bytes

/-- The pad of a packet whose length counts as `n`: up to the next multiple of
four, or nothing when the tailroom is too small. -/
def qhdrPad (n tailroom : ℕ) : ℕ :=
  if n % 4 = 0 then 0
  else if tailroom < 4 - n % 4 then 0
  else 4 - n % 4

/-- `add_qhdr`. The header is returned apart from the packet when it is written
to `hdr_data`. -/
def addQhdr (skb : SkBuff) (muxId : UInt8) (hdrData : Bool) (ipOffset : ℕ) :
    SkBuff × List UInt8 :=
  let pad := qhdrPad skb.len skb.tailroom
  let skb := skb.put pad
  if hdrData then
    (skb, [byteOf pad 0, muxId] ++ toBe16 (skb.len - ipOffset))
  else
    let skb := skb.push 4
    (skb.fill ([byteOf pad 0, muxId] ++ toBe16 (skb.len - 4)), [])

/-- `RMNET_MAP_HEADER_TYPE_CSUM_OFFLOAD` in the `rmnet_map_v5_csum_header` of an
uplink frame; all its other bits are zero. -/
def ulHeader : List UInt8 := [0x02 * 2, 0x00, 0x00, 0x00]

/-- `add_qhdr_v5`. Unlike `add_qhdr` it leaves the first `ip_offset` bytes out of
the alignment. -/
def addQhdrV5 (skb : SkBuff) (muxId : UInt8) (hdrData : Bool) (ipOffset : ℕ) :
    SkBuff × List UInt8 :=
  let pad := qhdrPad (skb.len - ipOffset) skb.tailroom
  let skb := skb.put pad
  if hdrData then
    (skb, [byteOf (pad + 64) 0, muxId] ++ toBe16 (skb.len - ipOffset) ++ ulHeader)
  else
    let skb := skb.push 8
    (skb.fill ([byteOf (pad + 64) 0, muxId] ++ toBe16 (skb.len - 8) ++ ulHeader), [])

/-- The local `ip_offset` of `rmnet_vnd_start_xmit`. -/
def ipOffset : ArpHrd → ℕ
  | .ether => ethHlen
  | .rawip => 0

/-- The framing done by `rmnet_vnd_start_xmit` before it calls `rmnet_usb_tx_agg`:
the packet, `hdr_data` and `ip_offset`. Packets of other versions are freed. -/
def qmapFraming (qmapVersion : ℕ) (type : ArpHrd) (muxId : UInt8) (skb : SkBuff) :
    Option (SkBuff × List UInt8 × ℕ) :=
  if qmapVersion = 5 then
    let (skb, hdr) := addQhdr skb muxId true (ipOffset type)
    some (skb, hdr, ipOffset type)
  else if qmapVersion = 9 then
    let (skb, hdr) := addQhdrV5 skb muxId true (ipOffset type)
    some (skb, hdr, ipOffset type)
  else none

/-- What `rmnet_usb_tx_agg` copies of a packet: `hdr_data`, then the packet from
`ip_offset` on. -/
def txFrame (skb : SkBuff) (hdrData : List UInt8) (ipOffset : ℕ) : List UInt8 :=
  hdrData ++ skb.data.drop ipOffset

/-- `priv->mux_id` of the device at index `i`. -/
def muxIdOf (i : ℕ) : UInt8 := UInt8.ofNat (quectelQmapMuxId + i)

/-! ## The wire format -/

/-- A QMAP data frame: header, optional v5 header, packet, pad. -/
def wireFrame (v5 : Bool) (muxId : UInt8) (payload pad : List UInt8) : List UInt8 :=
  [byteOf (pad.length + if v5 then 64 else 0) 0, muxId] ++
    toBe16 (payload.length + pad.length) ++ (if v5 then ulHeader else []) ++ (payload ++ pad)

theorem qhdrPad_lt (n tailroom : ℕ) : qhdrPad n tailroom < 4 := by
  unfold qhdrPad
  split
  · decide
  · split <;> omega

/-- The pad is the only thing the encoders add to the packet itself. -/
theorem data_put_drop (skb : SkBuff) (n : ℕ) {k : ℕ} (hk : k ≤ skb.len) :
    (skb.put n).data.drop k = skb.data.drop k ++ (List.range n).map skb.after := by
  rw [SkBuff.put, List.drop_append_of_le_length hk]

/-- Both encoders put the wire format together, with a pad below four bytes. -/
theorem qmapFraming_wireFrame {version : ℕ} (hv : version = 5 ∨ version = 9) (type : ArpHrd)
    (muxId : UInt8) (skb : SkBuff) (hoff : ipOffset type ≤ skb.len) :
    ∃ skb' hdr pad, qmapFraming version type muxId skb = some (skb', hdr, ipOffset type) ∧
      pad.length < 4 ∧
      txFrame skb' hdr (ipOffset type) =
        wireFrame (version = 9) muxId (skb.data.drop (ipOffset type)) pad := by
  have hlen : ∀ pad, (skb.put pad).len - ipOffset type =
      (skb.data.drop (ipOffset type)).length + pad := by
    intro pad
    have hdata : skb.len = skb.data.length := rfl
    rw [SkBuff.len_put, List.length_drop]
    omega
  rcases hv with rfl | rfl
  · refine ⟨_, _, (List.range (qhdrPad skb.len skb.tailroom)).map skb.after, rfl, ?_, ?_⟩
    · simpa using qhdrPad_lt _ _
    · simp only [txFrame, data_put_drop skb _ hoff, hlen, wireFrame]
      simp
  · refine ⟨_, _, (List.range (qhdrPad (skb.len - ipOffset type) skb.tailroom)).map skb.after,
      rfl, ?_, ?_⟩
    · simpa using qhdrPad_lt _ _
    · simp only [txFrame, data_put_drop skb _ hoff, hlen, wireFrame]
      simp

end Wwan.QmiWwanQ
