import Wwan.MhiNetdevQuectel.MbimRx

/-!
# Round trip of the MBIM framing

`add_mbim_hdr` puts an NTB around one packet: an `NTH16`, an `NDP16` with the
session id in its signature, one entry for the datagram and one that ends the
table. The session of device `i` is `mbim_mux_id` if there is only one, and
`mbim_mux_id + i + 1` otherwise; `rmnet_mbim_rx_handler` has a rule for each of the
two that leads back to `i`.

The lengths fit because `mhi_netdev_probe` derives `max_mtu` from the same bound
`rx_max` the handler checks against. The handler makes one pass over the NDP and
finds the end of the chain.
-/

namespace Wwan.MhiNetdevQuectel

open Wwan.Kernel Wwan.Bytes

/-! ## Setting the driver up -/

/-- The ids of the PCIe device that `mhi_netdev_probe` looks at. -/
structure MhiDevice where
  vendor : ℕ
  devId : ℕ

/-- `MBIM_MUX_ID_SDX7X`. -/
def mbimMuxIdSdx7x : ℕ := 112

/-- `ncmNTBParams.dwNtbInMaxSize`. -/
def dwNtbInMaxSize : ℕ := 1024 * 32

/-- `sizeof(struct mhi_mbim_hdr)`. -/
def mhiMbimHdrSize : ℕ := 28

/-- The `mux_id` of device `i`, an `u8`. -/
def deviceMuxId (mbimMuxId i : ℕ) : UInt8 := UInt8.ofNat (mbimMuxId + i)

/-- `mhi_netdev_probe` for an MBIM device. `register i mux_id` is what
`rmnet_vnd_register_device` returns; entries from `qmap_mode` on stay NULL. -/
def mhiNetdevProbe (qmapMode : ℕ) (mhiDev : MhiDevice) (register : ℕ → UInt8 → Option NetDevice)
    (stray : ℕ → Option NetDevice) : MhiNetdev :=
  let mru := dwNtbInMaxSize
  let mbimMuxId :=
    if mhiDev.vendor = 0x17cb ∧ mhiDev.devId = 0x0309 then mbimMuxIdSdx7x else 0
  { mpQmapNetDev := fun i ↦
      if i.val < qmapMode then register i (deviceMuxId mbimMuxId i) else none
    stray := stray
    qmapMode := qmapMode
    mbimMuxId := mbimMuxId
    rxMax := mru
    maxMtu := mru - mhiMbimHdrSize }

/-! ## Framing -/

/-- The session id `add_mbim_hdr` uses for a device. -/
def txTci (qmapMode : ℕ) (muxId : UInt8) : ℕ :=
  if 1 < qmapMode then muxId.toNat + 1 else muxId.toNat

/-- The fields `add_mbim_hdr` fills in, with `wSequence` as it was found. -/
def mhiMbimHdr (tci skbLen : ℕ) (seq₀ seq₁ : UInt8) : List UInt8 :=
  toLe32 nth16Sign ++ toLe16 12 ++ [seq₀, seq₁] ++ toLe16 (skbLen + mhiMbimHdrSize) ++ toLe16 12 ++
    (toLe32 ndp16IpsSign).set 3 (UInt8.ofNat tci) ++ toLe16 16 ++ toLe16 0 ++
    toLe16 mhiMbimHdrSize ++ toLe16 skbLen ++ toLe16 0 ++ toLe16 0

/-- `add_mbim_hdr`. -/
def addMbimHdr (qmapMode : ℕ) (skb : SkBuff) (muxId : UInt8) : Option SkBuff :=
  if skb.head.length < mhiMbimHdrSize then none
  else
    let mhdr := skb.push mhiMbimHdrSize
    some (mhdr.fill (mhiMbimHdr (txTci qmapMode muxId) skb.len (mhdr.byte 6) (mhdr.byte 7)))

/-- The NTB is the header followed by the packet. -/
theorem addMbimHdr_data (qmapMode : ℕ) {skb : SkBuff} (muxId : UInt8)
    (hroom : mhiMbimHdrSize ≤ skb.head.length) :
    ∃ ntb seq₀ seq₁, addMbimHdr qmapMode skb muxId = some ntb ∧
      ntb.data = mhiMbimHdr (txTci qmapMode muxId) skb.len seq₀ seq₁ ++ skb.data := by
  refine ⟨_, (skb.push mhiMbimHdrSize).byte 6, (skb.push mhiMbimHdrSize).byte 7,
    if_neg (Nat.not_lt.mpr hroom), ?_⟩
  have hdrop : (skb.head.drop (skb.head.length - mhiMbimHdrSize)).length = mhiMbimHdrSize := by
    rw [List.length_drop]
    omega
  rw [SkBuff.fill, SkBuff.push]
  dsimp only
  congr 1
  exact List.drop_left' hdrop

/-! ## Reading the NTB back -/

section Ntb

variable {rx : SkBuff} {tci skbLen : ℕ} {seq₀ seq₁ : UInt8} {payload : List UInt8}

/-- The fields of an NTB around one packet, as the handler reads them. -/
structure NtbFields (rx : SkBuff) (tci skbLen : ℕ) : Prop where
  dwSignature : le32At rx 0 = nth16Sign
  wBlockLength : le16At rx 8 = skbLen + mhiMbimHdrSize
  wNdpIndex : le16At rx 10 = 12
  ndpSignature : le32At rx 12 % 2 ^ 24 = ndp16IpsSign
  session : rx.byte 15 = UInt8.ofNat tci
  wLength : le16At rx 16 = 16
  wNextNdpIndex : le16At rx 18 = 0
  index₀ : datagramIndex rx 12 0 = mhiMbimHdrSize
  length₀ : datagramLength rx 12 0 = skbLen
  index₁ : datagramIndex rx 12 1 = 0

/-- The header at the start of a buffer is read back. -/
theorem ntbFields_of_data (hrx : rx.data = mhiMbimHdr tci skbLen seq₀ seq₁ ++ payload)
    (hlen : skbLen + mhiMbimHdrSize < 65536) : NtbFields rx tci skbLen := by
  have hlen' : skbLen < 65536 := by omega
  constructor
  all_goals
    simp only [le32At, le32, le16At, datagramIndex, datagramLength, dpe16, SkBuff.byte, hrx,
      mhiMbimHdr, toLe32, toLe16, List.cons_append, List.nil_append, List.set_cons_succ,
      List.set_cons_zero, List.getD_cons_succ, List.getD_cons_zero, Nat.reduceAdd, Nat.reduceMul]
  case wBlockLength => exact le16_byteOf hlen
  case length₀ => exact le16_byteOf hlen'
  case ndpSignature =>
    have h₀ : (byteOf ndp16IpsSign 0).toNat = 0x49 := by decide
    have h₁ : (byteOf ndp16IpsSign 1).toNat = 0x50 := by decide
    have h₂ : (byteOf ndp16IpsSign 2).toNat = 0x53 := by decide
    simp only [le16, h₀, h₁, h₂]
    unfold ndp16IpsSign
    omega
  all_goals decide

variable (h : NtbFields rx tci skbLen)

include h

/-- The checks on the header succeed. -/
theorem NtbFields.ntbStart_eq {d : MhiNetdev}
    (hlen : rx.len = skbLen + mhiMbimHdrSize) (hmax : skbLen + mhiMbimHdrSize ≤ d.rxMax) :
    ntbStart d rx = some 12 := by
  have hlong : ¬ rx.len < 12 + 8 := by
    rw [hlen, mhiMbimHdrSize]
    omega
  rw [ntbStart, if_neg hlong, if_neg (not_not.mpr h.dwSignature), h.wBlockLength,
    if_neg (Nat.not_lt.mpr hmax), h.wNdpIndex]

/-- The checks on the NDP succeed and lead to the device of its session. -/
theorem NtbFields.ndpHeader_eq {d : MhiNetdev} {idx : ℕ}
    (hlen : rx.len = skbLen + mhiMbimHdrSize) (htci : tci < 256)
    (hidx : sessionIndex d tci = some idx) : ndpHeader d rx 12 = some (2, idx) := by
  have hsession : ndpTci rx 12 = some tci := by
    rw [ndpTci, if_pos h.ndpSignature, h.session]
    simp [Nat.mod_eq_of_lt htci]
  have hlong : ¬ rx.len < 8 + 2 * 4 := by
    rw [hlen, mhiMbimHdrSize]
    omega
  simp [ndpHeader, h.wLength, hlong, hsession, hidx]

/-- The pass over the NDP queues the datagram and ends the chain. -/
theorem NtbFields.ndpPass_eq {d : MhiNetdev} {alloc : ℕ → Bool} {idx : ℕ}
    (hlen : rx.len = skbLen + mhiMbimHdrSize)
    (hhdr : ndpHeader d rx 12 = some (2, idx)) (hgood : EntryGood d rx 12 idx 0)
    (halloc : alloc 0 = true) :
    ∃ pkt, (ndpPass d alloc rx 12 0).pkts = [pkt] ∧ (ndpPass d alloc rx 12 0).ending = .next 0 ∧
      pkt.dev = idx ∧ pkt.payload = rx.bytes mhiMbimHdrSize skbLen := by
  obtain ⟨pkt, hpkt, hdev, hpayload⟩ := rxEntry_of_good hgood
  rw [h.index₀, h.length₀] at hpayload
  have hnull : EntryNull rx 12 1 := .inl h.index₁
  have hlong : ¬ rx.len < 12 + 8 := by
    rw [hlen, mhiMbimHdrSize]
    omega
  refine ⟨pkt, ?_, ?_, hdev, hpayload⟩
  · simp [ndpPass, hlong, hhdr, rxEntries, halloc, hpkt, rxEntry_of_null hnull]
  · simp [ndpPass, hlong, hhdr, rxEntries, halloc, hpkt, rxEntry_of_null hnull, h.wNextNdpIndex]

end Ntb

/-! ## The round trip -/

/-- The session id of a device leads back to its index. -/
theorem sessionIndex_txTci {d : MhiNetdev} {i : ℕ} (hi : i < d.qmapMode)
    (hlt : d.mbimMuxId + i + 1 < 256) :
    txTci d.qmapMode (deviceMuxId d.mbimMuxId i) < 256 ∧
      sessionIndex d (txTci d.qmapMode (deviceMuxId d.mbimMuxId i)) = some i := by
  have hmux : (deviceMuxId d.mbimMuxId i).toNat = d.mbimMuxId + i := by
    simp only [deviceMuxId, UInt8.toNat_ofNat']
    omega
  by_cases hmode : 1 < d.qmapMode
  · have htci : txTci d.qmapMode (deviceMuxId d.mbimMuxId i) = d.mbimMuxId + i + 1 := by
      rw [txTci, if_pos hmode, hmux]
    have hdiff : u32 (((d.mbimMuxId + i + 1 : ℕ) : ℤ) - d.mbimMuxId) = i + 1 := by
      unfold u32
      omega
    have hindex : u32 (((d.mbimMuxId + i + 1 : ℕ) : ℤ) - 1 - d.mbimMuxId) = i := by
      unfold u32
      omega
    refine ⟨by omega, ?_⟩
    rw [htci, sessionIndex, hdiff, hindex, if_neg (by omega), if_neg (by omega)]
  · have hone : d.qmapMode = 1 := by omega
    have htci : txTci d.qmapMode (deviceMuxId d.mbimMuxId i) = d.mbimMuxId := by
      rw [txTci, if_neg hmode, hmux]
      omega
    refine ⟨by omega, ?_⟩
    rw [htci, sessionIndex, if_neg (by omega), if_pos hone]
    exact congrArg some (by omega)

/-- An NTB around one IP packet, with the session of a registered device, is received
as that packet on that device. -/
theorem rmnetMbimRxHandler_ntb {d : MhiNetdev} {alloc : ℕ → Bool} {rx : SkBuff} {tci i : ℕ}
    {seq₀ seq₁ : UInt8} {payload : List UInt8} (halloc : alloc 0 = true)
    (hrx : rx.data = mhiMbimHdr tci payload.length seq₀ seq₁ ++ payload)
    (hip : (payload.head?.bind ipProtocol).isSome)
    (hlen : payload.length + mhiMbimHdrSize < 65536)
    (hmax : payload.length + mhiMbimHdrSize ≤ d.rxMax)
    (htci : tci < 256) (hidx : sessionIndex d tci = some i) (hnet : (d.qmapNet i).isSome) :
    ∃ fuel pkt, rmnetMbimRxHandler d alloc fuel rx = some (.delivered [pkt]) ∧
      pkt.dev = i ∧ pkt.payload = payload := by
  have hfields := ntbFields_of_data hrx hlen
  have hhdr : (mhiMbimHdr tci payload.length seq₀ seq₁).length = mhiMbimHdrSize := rfl
  have hrxlen : rx.len = payload.length + mhiMbimHdrSize := by
    rw [SkBuff.len, hrx, List.length_append, hhdr]
    omega
  obtain ⟨b, rest, rfl⟩ : ∃ b rest, payload = b :: rest := by
    cases payload with
    | nil => simp at hip
    | cons b rest => exact ⟨b, rest, rfl⟩
  have hbyte : rx.byte mhiMbimHdrSize = b := by
    simp [SkBuff.byte, hrx, mhiMbimHdr, toLe32, toLe16, mhiMbimHdrSize]
  have hgood : EntryGood d rx 12 i 0 := by
    refine ⟨⟨?_, ?_, ?_⟩, ?_, hnet⟩
    · simp [EntryNull, hfields.index₀, hfields.length₀, mhiMbimHdrSize]
    · rw [hfields.index₀, hfields.length₀, hrxlen]
      omega
    · rw [hfields.length₀]
      omega
    · rw [hfields.index₀, hbyte]
      simpa using hip
  obtain ⟨pkt, hpkts, hend, hdev, hpayload⟩ :=
    hfields.ndpPass_eq hrxlen (hfields.ndpHeader_eq hrxlen htci hidx) hgood halloc
  refine ⟨2, pkt, ?_, hdev, ?_⟩
  · simp [rmnetMbimRxHandler, hfields.ntbStart_eq hrxlen hmax, Loop.run, rxBody, hpkts, hend]
  · rw [hpayload, SkBuff.bytes_eq_slice _ (by omega), hrx, ← hhdr, List.drop_left, List.take_length]

/-- What `rmnet_vnd_start_xmit` passes on to `add_mbim_hdr`: an IP packet no longer
than the device may send, with room in front. -/
structure Sendable (d : MhiNetdev) (skb : SkBuff) : Prop where
  isIp : (skb.data.head?.bind ipProtocol).isSome
  le_maxMtu : skb.len ≤ d.maxMtu
  headroom : mhiMbimHdrSize ≤ skb.head.length

/-- Two sessions on an SDX7x. -/
def sdx7xDev : MhiNetdev :=
  mhiNetdevProbe 2 ⟨0x17cb, 0x0309⟩
    (fun _ _ ↦ some (NetDevice.start .rawip [])) fun _ ↦ none

/-- Two bytes of an IPv4 packet. -/
def ipv4Skb : SkBuff :=
  { head := List.replicate 28 0xff
    data := [0x45, 0x01]
    after := fun _ ↦ 0
    tailroom := 0
    protocol := ethPIp }

end Wwan.MhiNetdevQuectel
