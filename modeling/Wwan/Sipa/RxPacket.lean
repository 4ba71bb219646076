import Wwan.Kernel.SkBuff
import Wwan.Lib.Memory
import Wwan.Sipa.SkbRecv

/-!
# The packets that `sipa_dummy_rx` hands to the stack

A buffer is made 1600 bytes long before the hardware gets it, and the length and the offset of the
descriptor that comes back are not looked at. `sipa_dummy_prepare_skb` and
`sipa_dummy_direct_mode_prepare_skb` cut it to the length that its IP header states, or leave it as
it is. The packet depends on what the modem sent alone if and only if that reaches as far as the
cut.
-/

namespace Wwan.Sipa

open Wwan Bytes Memory Kernel

/-! ## The functions -/

/-- `ETH_P_802_3_MIN`. -/
def ethP8023Min : ℕ := 0x0600

/-- `sizeof(struct ipv6hdr)`. -/
def ipv6HdrSize : ℕ := 40

/-- `arp_hdr_len`; `s_setup` gives the devices an `addr_len` of `ETH_ALEN`. -/
def arpHdrLen : ℕ := 8 + (6 + 4) * 2

/-- What the stack gets. -/
structure RxPacket where
  protocol : ℕ
  /-- The header at `skb->mac_header`, where it was set. -/
  mac : List UInt8
  data : List UInt8
  deriving DecidableEq

/-- `eth_type_trans`, with the protocol it returns. -/
def ethTypeTrans (skb : Kernel.SkBuff) : Kernel.SkBuff × ℕ :=
  let hProto := be16 (skb.byte 12) (skb.byte 13)
  let skb := skb.pull ethHlen
  if ethP8023Min ≤ hProto then (skb, hProto)
  -- `ETH_P_802_3` for the packets of Novell, and `ETH_P_802_2`
  else if 2 ≤ skb.len ∧ skb.byte 0 = 0xff ∧ skb.byte 1 = 0xff then (skb, 0x0001)
  else (skb, 0x0004)

/-- `sipa_dummy_prepare_skb`. -/
def sipaDummyPrepareSkb (skb : Kernel.SkBuff) : RxPacket :=
  let mac := skb.bytes 0 ethHlen
  let (skb, protocol) := ethTypeTrans skb
  if protocol = ethPIp then
    ⟨protocol, mac, (skb.trim (be16 (skb.byte 2) (skb.byte 3))).data⟩
  else if protocol = ethPIpv6 then
    ⟨protocol, mac, (skb.trim (be16 (skb.byte 4) (skb.byte 5) + ipv6HdrSize)).data⟩
  else if protocol = ethPArp then ⟨protocol, mac, (skb.trim arpHdrLen).data⟩
  else ⟨protocol, mac, skb.data⟩

/-- `sipa_dummy_direct_mode_prepare_skb`. -/
def sipaDummyDirectModePrepareSkb (skb : Kernel.SkBuff) : RxPacket :=
  let skb := skb.pull ethHlen
  if (skb.byte 0).toNat / 16 = 4 then
    ⟨ethPIp, [], (skb.trim (be16 (skb.byte 2) (skb.byte 3))).data⟩
  else if (skb.byte 0).toNat / 16 = 6 then
    ⟨ethPIpv6, [], (skb.trim (be16 (skb.byte 4) (skb.byte 5) + ipv6HdrSize)).data⟩
  else ⟨skb.protocol, [], skb.data⟩

namespace SkBuff

/-- A buffer of `recv_array` as `sipa_recv_skb` returns it, with what `skb->head` points at. -/
def contents (skb : SkBuff) (mem : ℕ → UInt8) : Kernel.SkBuff where
  head := peek mem 0 skb.headroom
  data := peek mem skb.headroom skb.len
  after := fun i ↦ mem (skb.headroom + skb.len + i)
  tailroom := 0
  protocol := 0

/-- The packet that `sipa_dummy_rx` makes of a buffer, for a device with this `term_type`. -/
def rxPacket (skb : SkBuff) (termType : ℕ) (mem : ℕ → UInt8) : RxPacket :=
  if termType = 0x6 then sipaDummyDirectModePrepareSkb (skb.contents mem)
  else sipaDummyPrepareSkb (skb.contents mem)

/-- The buffers that are put into `recv_array` have the length `SIPA_RECV_BUF_LEN`. -/
theorem len_putAll_reserve {skb : SkBuff} (hlen : skb.len = 0)
    (hroom : skb.headroom ≤ sipaRecvRsvdLen + sipaRecvBufLen) :
    (skb.reserve sipaRecvRsvdLen).putAll.len = sipaRecvBufLen := by
  rw [reserve]
  split
  · rw [putAll, if_neg (lt_irrefl _)]
    dsimp only
    rw [hlen, Nat.zero_add]
  · rw [putAll]
    split
    next hgt =>
      have hsub : ((sipaRecvBufLen : ℤ) - (skb.headroom - sipaRecvRsvdLen : ℕ)) =
          ((sipaRecvBufLen - (skb.headroom - sipaRecvRsvdLen) : ℕ) : ℤ) := by omega
      dsimp only
      rw [hsub, u32_natCast (by unfold sipaRecvBufLen; omega), hlen]
      omega
    next => rw [hlen, Nat.zero_add]

end SkBuff

/-! ## The packet in terms of the memory -/

namespace SkBuff

variable (skb : SkBuff) (termType : ℕ) (mem : ℕ → UInt8)

/-- `skb->protocol` of the packet. -/
def rxProtocol : ℕ :=
  if termType = 0x6 then
    if (mem (skb.headroom + 14)).toNat / 16 = 4 then ethPIp
    else if (mem (skb.headroom + 14)).toNat / 16 = 6 then ethPIpv6
    else 0
  else if ethP8023Min ≤ be16 (mem (skb.headroom + 12)) (mem (skb.headroom + 13)) then
    be16 (mem (skb.headroom + 12)) (mem (skb.headroom + 13))
  else if mem (skb.headroom + 14) = 0xff ∧ mem (skb.headroom + 15) = 0xff then 0x0001
  else 0x0004

/-- How many bytes are left of the `SIPA_RECV_BUF_LEN`, without the Ethernet header. -/
def rxLen : ℕ :=
  let left := sipaRecvBufLen - ethHlen
  if skb.rxProtocol termType mem = ethPIp then
    min (be16 (mem (skb.headroom + 16)) (mem (skb.headroom + 17))) left
  else if skb.rxProtocol termType mem = ethPIpv6 then
    min (be16 (mem (skb.headroom + 18)) (mem (skb.headroom + 19)) + ipv6HdrSize) left
  else if skb.rxProtocol termType mem = ethPArp then min arpHdrLen left
  else left

/-- How many bytes are looked at or left: `tot_len` is looked at in any case. -/
def rxReach : ℕ :=
  if skb.rxProtocol termType mem = ethPIp then max 4 (skb.rxLen termType mem)
  else skb.rxLen termType mem

/-- The first byte that is looked at or left. -/
def rxStart : ℕ := if termType = 0x6 then skb.headroom + ethHlen else skb.headroom

variable {skb} (hlen : skb.len = sipaRecvBufLen)

include hlen

theorem byte_contents {i : ℕ} (hi : i < sipaRecvBufLen) :
    (skb.contents mem).byte i = mem (skb.headroom + i) := by
  have hi' : i < (peek mem skb.headroom skb.len).length := by
    rw [length_peek, hlen]
    exact hi
  have hget : (skb.contents mem).byte i = (peek mem skb.headroom skb.len)[i] :=
    List.getD_eq_getElem _ _ hi'
  rw [hget]
  simp [peek]

theorem pull_le : ethHlen ≤ (skb.contents mem).len := by
  have heq : (skb.contents mem).len = skb.len := length_peek
  rw [heq, hlen]
  decide

theorem data_pull : ((skb.contents mem).pull ethHlen).data =
    peek mem (skb.headroom + ethHlen) (sipaRecvBufLen - ethHlen) := by
  rw [Kernel.SkBuff.data_pull_of_le _ (pull_le mem hlen)]
  have hsplit : (skb.contents mem).data = peek mem skb.headroom ethHlen ++
      peek mem (skb.headroom + ethHlen) (sipaRecvBufLen - ethHlen) := by
    rw [← peek_add]
    exact congrArg (peek mem skb.headroom) hlen
  rw [hsplit]
  exact List.drop_left' length_peek

theorem len_pull : ((skb.contents mem).pull ethHlen).len = sipaRecvBufLen - ethHlen := by
  rw [Kernel.SkBuff.len, data_pull mem hlen, length_peek]

theorem byte_pull {i : ℕ} (hi : i < sipaRecvBufLen - ethHlen) :
    ((skb.contents mem).pull ethHlen).byte i = mem (skb.headroom + ethHlen + i) := by
  have hi' : i < ((skb.contents mem).pull ethHlen).data.length := by
    rw [data_pull mem hlen, length_peek]
    exact hi
  have hget : ((skb.contents mem).pull ethHlen).byte i =
      ((skb.contents mem).pull ethHlen).data[i] := List.getD_eq_getElem _ _ hi'
  rw [hget]
  simp only [data_pull mem hlen]
  simp [peek]

theorem take_pull (n : ℕ) : (((skb.contents mem).pull ethHlen).trim n).data =
    peek mem (skb.headroom + ethHlen) (min n (sipaRecvBufLen - ethHlen)) := by
  rw [Kernel.SkBuff.data_trim, data_pull mem hlen, take_peek]

theorem bytes_mac : (skb.contents mem).bytes 0 ethHlen = peek mem skb.headroom ethHlen := by
  apply List.map_congr_left
  intro i hi
  rw [Nat.zero_add]
  exact byte_contents mem hlen (Nat.lt_trans (List.mem_range.mp hi) (by decide))

/-- The protocol that `eth_type_trans` returns, and the packet without its header. -/
theorem ethTypeTrans_contents (hmode : termType ≠ 0x6) : ethTypeTrans (skb.contents mem) =
    ((skb.contents mem).pull ethHlen, skb.rxProtocol termType mem) := by
  have h12 := byte_contents mem hlen (i := 12) (by decide)
  have h13 := byte_contents mem hlen (i := 13) (by decide)
  have h14 := byte_pull mem hlen (i := 0) (by decide)
  have h15 := byte_pull mem hlen (i := 1) (by decide)
  have htwo : 2 ≤ ((skb.contents mem).pull ethHlen).len := by
    rw [len_pull mem hlen]
    decide
  rw [ethTypeTrans, rxProtocol, if_neg hmode, h12, h13, h14, h15]
  split
  · rfl
  · simp only [and_iff_right htwo]
    exact (apply_ite (Prod.mk _) _ _ _).symm

theorem rxPacket_eq : skb.rxPacket termType mem =
    ⟨skb.rxProtocol termType mem,
      if termType = 0x6 then [] else peek mem skb.headroom ethHlen,
      peek mem (skb.headroom + ethHlen) (skb.rxLen termType mem)⟩ := by
  have h0 := byte_pull mem hlen (i := 0) (by decide)
  have h2 := byte_pull mem hlen (i := 2) (by decide)
  have h3 := byte_pull mem hlen (i := 3) (by decide)
  have h4 := byte_pull mem hlen (i := 4) (by decide)
  have h5 := byte_pull mem hlen (i := 5) (by decide)
  rw [rxPacket]
  by_cases hmode : termType = 0x6
  · rw [if_pos hmode, if_pos hmode, sipaDummyDirectModePrepareSkb, take_pull mem hlen,
      take_pull mem hlen, data_pull mem hlen, h0, h2, h3, h4, h5, rxLen]
    change (if (mem (skb.headroom + 14)).toNat / 16 = 4 then _ else
      if (mem (skb.headroom + 14)).toNat / 16 = 6 then _ else _) = _
    by_cases hv4 : (mem (skb.headroom + 14)).toNat / 16 = 4
    · have hproto : skb.rxProtocol termType mem = ethPIp := by
        rw [rxProtocol, if_pos hmode, if_pos hv4]
      rw [if_pos hv4, hproto]
      rfl
    · by_cases hv6 : (mem (skb.headroom + 14)).toNat / 16 = 6
      · have hproto : skb.rxProtocol termType mem = ethPIpv6 := by
          rw [rxProtocol, if_pos hmode, if_neg hv4, if_pos hv6]
        rw [if_neg hv4, if_pos hv6, hproto]
        rfl
      · have hproto : skb.rxProtocol termType mem = 0 := by
          rw [rxProtocol, if_pos hmode, if_neg hv4, if_neg hv6]
        rw [if_neg hv4, if_neg hv6, hproto, Kernel.SkBuff.pull, if_pos (pull_le mem hlen)]
        rfl
  · rw [if_neg hmode, if_neg hmode, sipaDummyPrepareSkb,
      ethTypeTrans_contents termType mem hlen hmode]
    dsimp only
    rw [take_pull mem hlen, take_pull mem hlen, take_pull mem hlen, data_pull mem hlen,
      bytes_mac mem hlen, h2, h3, h4, h5, rxLen]
    split
    · rfl
    · split
      · rfl
      · split
        · rfl
        · rfl

end SkBuff

/-! ## What the packet depends on -/

/-- The modem has written the byte at this distance from `skb->head`. -/
def NodeDescriptionTag.Sent (node : NodeDescriptionTag) (i : ℕ) : Prop :=
  node.offset ≤ i ∧ i < node.offset + node.length

namespace SkBuff

variable (skb : SkBuff) (termType : ℕ) (node : NodeDescriptionTag) (mem : ℕ → UInt8)

/-- Whatever else is in the buffer, the packet is the same. -/
def OnlySent : Prop :=
  ∀ mem', (∀ i, node.Sent i → mem' i = mem i) →
    skb.rxPacket termType mem' = skb.rxPacket termType mem

/-- The modem has written from the first byte that is looked at or left to the last one. -/
def Reached : Prop :=
  node.offset ≤ skb.rxStart termType ∧
    skb.headroom + ethHlen + skb.rxReach termType mem ≤ node.offset + node.length

instance : Decidable (skb.Reached termType node mem) := inferInstanceAs (Decidable (_ ∧ _))

variable {skb termType node mem} {mem' : ℕ → UInt8}

/-- Only a packet of IPv4 may have less than 20 bytes left. -/
theorem le_rxLen (hproto : skb.rxProtocol termType mem ≠ ethPIp) : 20 ≤ skb.rxLen termType mem := by
  rw [rxLen, if_neg hproto]
  split
  · apply le_min
    · exact Nat.le_add_left_of_le (by decide)
    · decide
  · split
    · decide
    · decide

variable (skb termType mem) in
theorem rxLen_le_rxReach : skb.rxLen termType mem ≤ skb.rxReach termType mem := by
  rw [rxReach]
  split
  · exact le_max_right _ _
  · exact le_rfl

variable (skb termType mem) in
theorem four_le_rxReach : 4 ≤ skb.rxReach termType mem := by
  rw [rxReach]
  split
  · exact le_max_left _ _
  next hproto => exact Nat.le_trans (by decide) (le_rxLen hproto)

theorem rxProtocol_congr
    (h : ∀ i, 12 ≤ i → i < 16 → mem' (skb.headroom + i) = mem (skb.headroom + i)) :
    skb.rxProtocol termType mem' = skb.rxProtocol termType mem := by
  rw [rxProtocol, rxProtocol, h 12 (by decide) (by decide), h 13 (by decide) (by decide),
    h 14 (by decide) (by decide), h 15 (by decide) (by decide)]

theorem rxLen_congr (hproto : skb.rxProtocol termType mem' = skb.rxProtocol termType mem)
    (hip : skb.rxProtocol termType mem = ethPIp →
      ∀ i, 16 ≤ i → i < 18 → mem' (skb.headroom + i) = mem (skb.headroom + i))
    (hipv6 : skb.rxProtocol termType mem = ethPIpv6 →
      ∀ i, 18 ≤ i → i < 20 → mem' (skb.headroom + i) = mem (skb.headroom + i)) :
    skb.rxLen termType mem' = skb.rxLen termType mem := by
  rw [rxLen, rxLen, hproto]
  split
  next h =>
    rw [hip h 16 (by decide) (by decide), hip h 17 (by decide) (by decide)]
  next =>
    split
    next h => rw [hipv6 h 18 (by decide) (by decide), hipv6 h 19 (by decide) (by decide)]
    next => rfl

section Sent

variable (hlen : skb.len = sipaRecvBufLen)

include hlen

/-- Buffers that agree from the first byte to the last one give the same packet. -/
theorem rxPacket_congr
    (h : ∀ i, skb.rxStart termType ≤ i → i < skb.headroom + ethHlen + skb.rxReach termType mem →
      mem' i = mem i) :
    skb.rxPacket termType mem' = skb.rxPacket termType mem := by
  have hfour := four_le_rxReach skb termType mem
  have hstart : skb.rxStart termType ≤ skb.headroom + ethHlen := by
    rw [rxStart]
    split
    · exact le_rfl
    · exact Nat.le_add_right _ _
  have hdata : ∀ i, 14 ≤ i → i < 14 + skb.rxReach termType mem →
      mem' (skb.headroom + i) = mem (skb.headroom + i) := by
    intro i hlow hhigh
    unfold ethHlen at h hstart
    exact h _ (by omega) (by omega)
  have hproto : skb.rxProtocol termType mem' = skb.rxProtocol termType mem := by
    by_cases hmode : termType = 0x6
    · rw [rxProtocol, rxProtocol, if_pos hmode, if_pos hmode, hdata 14 le_rfl (by omega)]
    · apply rxProtocol_congr
      intro i hlow hhigh
      rw [rxStart, if_neg hmode] at h
      exact h _ (by omega) (by unfold ethHlen; omega)
  have hrxLen : skb.rxLen termType mem' = skb.rxLen termType mem := by
    apply rxLen_congr hproto
    · intro _ i hlow hhigh
      exact hdata i (by omega) (by omega)
    · intro hipv6 i hlow hhigh
      have hne : skb.rxProtocol termType mem ≠ ethPIp := by
        rw [hipv6]
        decide
      have hlong := Nat.le_trans (le_rxLen hne) (rxLen_le_rxReach skb termType mem)
      exact hdata i (by omega) (by omega)
  have hleft : peek mem' (skb.headroom + ethHlen) (skb.rxLen termType mem) =
      peek mem (skb.headroom + ethHlen) (skb.rxLen termType mem) := by
    apply peek_congr
    intro i hlow hhigh
    have hle := rxLen_le_rxReach skb termType mem
    exact h i (hstart.trans hlow) (by omega)
  rw [rxPacket_eq termType mem' hlen, rxPacket_eq termType mem hlen, hproto, hrxLen, hleft]
  by_cases hmode : termType = 0x6
  · rw [if_pos hmode, if_pos hmode]
  · rw [if_neg hmode, if_neg hmode]
    have hmac : peek mem' skb.headroom ethHlen = peek mem skb.headroom ethHlen := by
      apply peek_congr
      intro i hlow hhigh
      rw [rxStart, if_neg hmode] at h
      exact h i hlow (by omega)
    rw [hmac]

/-- In direct mode, another version in the IP header makes another packet. -/
theorem exists_ne_version (hmode : termType = 0x6) :
    ∃ b, skb.rxPacket termType (Function.update mem (skb.headroom + ethHlen) b) ≠
      skb.rxPacket termType mem := by
  have hproto : ∀ mem, (skb.rxPacket termType mem).protocol =
      if (mem (skb.headroom + ethHlen)).toNat / 16 = 4 then ethPIp
      else if (mem (skb.headroom + ethHlen)).toNat / 16 = 6 then ethPIpv6 else 0 := by
    intro mem
    rw [rxPacket_eq termType mem hlen]
    dsimp only
    rw [rxProtocol, if_pos hmode]
    rfl
  by_cases hv4 : (mem (skb.headroom + ethHlen)).toNat / 16 = 4
  · use 0x60
    intro heq
    have hne := congrArg RxPacket.protocol heq
    rw [hproto, hproto, if_pos hv4, Function.update_self] at hne
    exact absurd hne (by decide)
  · use 0x40
    intro heq
    have hne := congrArg RxPacket.protocol heq
    rw [hproto, hproto, if_neg hv4, Function.update_self] at hne
    change ethPIp = _ at hne
    split at hne
    · exact absurd hne (by decide)
    · exact absurd hne (by decide)

/-- Otherwise, another address does. -/
theorem exists_ne_mac (hmode : termType ≠ 0x6) :
    ∃ b, skb.rxPacket termType (Function.update mem skb.headroom b) ≠
      skb.rxPacket termType mem := by
  have hmac : ∀ mem, (skb.rxPacket termType mem).mac = peek mem skb.headroom ethHlen := by
    intro mem
    rw [rxPacket_eq termType mem hlen]
    exact if_neg hmode
  have : Nontrivial UInt8 := ⟨0, 1, by decide⟩
  obtain ⟨b, hb⟩ := exists_ne (mem skb.headroom)
  use b
  intro heq
  have hne := congrArg RxPacket.mac heq
  rw [hmac, hmac, peek_eq_peek_iff] at hne
  have hself := hne skb.headroom le_rfl (Nat.lt_add_of_pos_right (by decide))
  rw [Function.update_self] at hself
  exact hb hself

/-- Another first byte makes another packet. -/
theorem exists_ne_at_start :
    ∃ b, skb.rxPacket termType (Function.update mem (skb.rxStart termType) b) ≠
      skb.rxPacket termType mem := by
  rw [rxStart]
  split
  next hmode => exact exists_ne_version hlen hmode
  next hmode => exact exists_ne_mac hlen hmode

omit hlen in
/-- The protocol is in front of the lengths. -/
theorem rxProtocol_update {i : ℕ} (hi : skb.headroom + 16 ≤ i) (b : UInt8) :
    skb.rxProtocol termType (Function.update mem i b) = skb.rxProtocol termType mem := by
  apply rxProtocol_congr
  intro j hlow hhigh
  exact Function.update_of_ne (by omega) _ _

omit hlen in
/-- A packet that is not of IPv4 reaches behind its lengths. -/
theorem le_rxReach (hproto : skb.rxProtocol termType mem ≠ ethPIp) :
    20 ≤ skb.rxReach termType mem :=
  Nat.le_trans (le_rxLen hproto) (rxLen_le_rxReach skb termType mem)

/-- Where nothing behind `tot_len` is left, another low byte of it makes another packet. -/
theorem exists_ne_totLen (hreach : skb.rxReach termType mem = 4) :
    ∃ b, skb.rxPacket termType (Function.update mem (skb.headroom + 17) b) ≠
      skb.rxPacket termType mem := by
  have hip : skb.rxProtocol termType mem = ethPIp := by
    by_contra hne
    have hlong := le_rxReach hne
    omega
  have hlenOf : ∀ mem, skb.rxProtocol termType mem = ethPIp → skb.rxLen termType mem =
      min (be16 (mem (skb.headroom + 16)) (mem (skb.headroom + 17)))
        (sipaRecvBufLen - ethHlen) := fun mem h ↦ if_pos h
  have hshort : be16 (mem (skb.headroom + 16)) (mem (skb.headroom + 17)) ≤ 4 := by
    have hle := rxLen_le_rxReach skb termType mem
    rw [hlenOf mem hip, hreach] at hle
    rcases min_le_iff.mp hle with h | h
    · exact h
    · exact absurd h (by decide)
  have hproto : skb.rxProtocol termType (Function.update mem (skb.headroom + 17) 8) =
      skb.rxProtocol termType mem :=
    rxProtocol_update (Nat.add_le_add_left (by decide) skb.headroom) 8
  have hhigh : Function.update mem (skb.headroom + 17) 8 (skb.headroom + 16) =
      mem (skb.headroom + 16) := Function.update_of_ne (by omega) _ _
  use 8
  intro heq
  have hdata := congrArg (fun p ↦ p.data.length) heq
  rw [rxPacket_eq termType _ hlen, rxPacket_eq termType mem hlen] at hdata
  dsimp only at hdata
  rw [length_peek, length_peek, hlenOf mem hip, hlenOf _ (hproto.trans hip), hhigh,
    Function.update_self] at hdata
  unfold be16 sipaRecvBufLen ethHlen at hdata
  unfold be16 at hshort
  have height : (8 : UInt8).toNat = 8 := rfl
  omega

/-- Otherwise, another last byte of what is left does. -/
theorem exists_ne_last (hreach : skb.rxReach termType mem ≠ 4) :
    ∃ b, skb.rxPacket termType (Function.update mem
        (skb.headroom + 13 + skb.rxReach termType mem) b) ≠ skb.rxPacket termType mem := by
  have hfour := four_le_rxReach skb termType mem
  have hmax : skb.rxReach termType mem = skb.rxLen termType mem := by
    rw [rxReach] at hreach hfour ⊢
    split at hreach
    next h =>
      rw [if_pos h]
      omega
    next h => rw [if_neg h]
  have : Nontrivial UInt8 := ⟨0, 1, by decide⟩
  obtain ⟨b, hb⟩ := exists_ne (mem (skb.headroom + 13 + skb.rxReach termType mem))
  use b
  intro heq
  have hrxLen : skb.rxLen termType (Function.update mem
      (skb.headroom + 13 + skb.rxReach termType mem) b) = skb.rxLen termType mem := by
    apply rxLen_congr (rxProtocol_update (by omega) b)
    · intro _ i hlow hhigh
      exact Function.update_of_ne (by omega) _ _
    · intro hipv6 i hlow hhigh
      have hlong : 20 ≤ skb.rxReach termType mem := by
        apply le_rxReach
        rw [hipv6]
        decide
      exact Function.update_of_ne (by omega) _ _
  have hdata := congrArg RxPacket.data heq
  rw [rxPacket_eq termType _ hlen, rxPacket_eq termType mem hlen] at hdata
  dsimp only at hdata
  rw [hrxLen, peek_eq_peek_iff, ← hmax] at hdata
  have hself := hdata (skb.headroom + 13 + skb.rxReach termType mem)
    (by unfold ethHlen; omega) (by unfold ethHlen; omega)
  rw [Function.update_self] at hself
  exact hb hself

/-- Another last byte makes another packet. -/
theorem exists_ne_at_end :
    ∃ b, skb.rxPacket termType (Function.update mem
        (skb.headroom + ethHlen + skb.rxReach termType mem - 1) b) ≠
      skb.rxPacket termType mem := by
  have hlast : skb.headroom + ethHlen + skb.rxReach termType mem - 1 =
      skb.headroom + 13 + skb.rxReach termType mem := by
    unfold ethHlen
    omega
  rw [hlast]
  by_cases hreach : skb.rxReach termType mem = 4
  · rw [hreach]
    exact exists_ne_totLen hlen hreach
  · exact exists_ne_last hlen hreach

theorem Reached.onlySent (h : skb.Reached termType node mem) : skb.OnlySent termType node mem := by
  intro mem' hsent
  apply rxPacket_congr hlen
  intro i hlow hhigh
  exact hsent i ⟨h.1.trans hlow, hhigh.trans_le h.2⟩

omit hlen in
/-- A byte that makes a difference has been written. -/
theorem OnlySent.sent (h : skb.OnlySent termType node mem) {i : ℕ}
    (hne : ∃ b, skb.rxPacket termType (Function.update mem i b) ≠ skb.rxPacket termType mem) :
    node.Sent i := by
  obtain ⟨b, hb⟩ := hne
  by_contra hnot
  apply hb
  apply h
  intro j hj
  have hji : j ≠ i := by
    rintro rfl
    exact hnot hj
  exact Function.update_of_ne hji _ _

theorem OnlySent.reached (h : skb.OnlySent termType node mem) :
    skb.Reached termType node mem := by
  have hfour := four_le_rxReach skb termType mem
  constructor
  · exact (h.sent (exists_ne_at_start hlen)).1
  · have hlast := (h.sent (exists_ne_at_end hlen)).2
    omega

/-- The packet depends on what the modem has written alone if and only if that reaches from the
first byte that is looked at to the last one that is left by the cut. -/
theorem onlySent_iff : skb.OnlySent termType node mem ↔ skb.Reached termType node mem :=
  ⟨fun h ↦ h.reached hlen, fun h ↦ h.onlySent hlen⟩

end Sent

/-! ## Packets -/

/-- A buffer as it is put into `recv_array`. -/
def prepared : SkBuff := ((⟨0, 0, 64⟩ : SkBuff).reserve sipaRecvRsvdLen).putAll

/-- An IPv4 header without data, in direct mode. -/
theorem onlySent_header : prepared.OnlySent 0x6
    { NodeDescriptionTag.zero with offset := 128, length := 34 }
    (poke (fun _ ↦ 0xaa) 142 [0x45, 0, 0, 20]) :=
  (onlySent_iff (len_putAll_reserve rfl (by decide))).mpr (by decide)

/-- A frame of 60 bytes whose type is none of the three. -/
theorem not_onlySent_frame : ¬ prepared.OnlySent 0
    { NodeDescriptionTag.zero with offset := 128, length := 60 }
    (poke (fun _ ↦ 0xaa) 128 (List.replicate 60 0)) := by
  intro h
  exact absurd (h.reached rfl) (by decide)

end SkBuff

end Wwan.Sipa
