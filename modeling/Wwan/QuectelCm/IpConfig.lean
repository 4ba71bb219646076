import Wwan.QuectelCm.MbimMessages
import Wwan.QuectelCm.ProxyRead
import Wwan.QuectelCm.Requests

/-!
# The IPv4 configuration over MBIM and over QMI

`mbim_ip_config` and `requestGetIPAddress` both fill `profile->ipv4`. MBIM has addresses in network
byte order and a prefix length, QMI has little-endian numbers and a mask.
-/

namespace Wwan.QuectelCm

open Bytes

/-- `IPV4_T` -/
structure Ipv4T where
  Address : UInt32
  Gateway : UInt32
  SubnetMask : UInt32
  DnsPrimary : UInt32
  DnsSecondary : UInt32
  Mtu : UInt32
  deriving DecidableEq

/-- `memset(pIpv4, 0x00, sizeof(IPV4_T))` -/
def Ipv4T.zero : Ipv4T := ⟨0, 0, 0, 0, 0, 0⟩

/-- A 32-bit field of a message on a little-endian host. -/
def loadU32 (bytes : List UInt8) (offset : ℕ) : UInt32 := UInt32.ofNat (field32 bytes offset)

/-! ## MBIM -/

def mbim2qmiIpv4addr (addr : UInt32) : UInt32 :=
  addr >>> 24 ||| (addr >>> 8 &&& (0xff00 : UInt32)) ||| (addr <<< 8 &&& (0xff0000 : UInt32)) |||
    addr <<< 24

/-- `0xFFFFFFFF>>(32-prefix)<<(32-prefix)`, if that is defined. -/
def prefixMask (prefixLength : UInt8) : Option UInt32 :=
  if 0 < prefixLength ∧ prefixLength ≤ 32 then
    let n := UInt32.ofNat (32 - prefixLength.toNat)
    some (0xFFFFFFFF >>> n <<< n)
  else none

/-- `MBIM_IP_CONFIGURATION_INFO_T`; offsets are relative to its beginning. -/
def ipv4ConfigurationAvailable (info : List UInt8) : ℕ := field32 info 4
def ipv4AddressOffset (info : List UInt8) : ℕ := field32 info 16
def ipv4GatewayOffset (info : List UInt8) : ℕ := field32 info 28
def ipv4DnsServerCount (info : List UInt8) : ℕ := field32 info 36
def ipv4DnsServerOffset (info : List UInt8) : ℕ := field32 info 40
def ipv4Mtu (info : List UInt8) : ℕ := field32 info 52

/-- What `mbim_ip_config` does to `profile->ipv4` with the `InformationBuffer` of the response. -/
def mbimIpConfigIpv4 (ipv4 : Ipv4T) (info : List UInt8) : Option Ipv4T :=
  let available := ipv4ConfigurationAvailable info
  if info.length = 0 ∨ ¬available.testBit 0 then some ipv4
  else do
    let pAddress := ipv4AddressOffset info
    let mask ← prefixMask (UInt8.ofNat (field32 info pAddress))
    let dns1 := ipv4DnsServerOffset info
    let mtu := if available.testBit 3 then UInt32.ofNat (ipv4Mtu info) else 1500
    return {
      Address := mbim2qmiIpv4addr (loadU32 info (pAddress + 4))
      Gateway :=
        if available.testBit 1 then mbim2qmiIpv4addr (loadU32 info (ipv4GatewayOffset info))
        else ipv4.Gateway
      SubnetMask := mbim2qmiIpv4addr mask
      DnsPrimary :=
        if available.testBit 2 then mbim2qmiIpv4addr (loadU32 info dns1) else ipv4.DnsPrimary
      DnsSecondary :=
        if available.testBit 2 ∧ ipv4DnsServerCount info = 2 then
          mbim2qmiIpv4addr (loadU32 info (dns1 + 4))
        else ipv4.DnsSecondary
      Mtu := mbim2qmiIpv4addr mtu }

/-! ## QMI -/

/-- The number in a TLV of the response. -/
def runtimeSetting (msg : List UInt8) (TLVType : ℕ) : Option UInt32 :=
  (tlvBytes msg TLVType).map (loadU32 · 3)

/-- What `requestGetIPAddress` does to `profile->ipv4`; a request that failed has no response. -/
def getIPAddressIpv4 (handle : ℕ) (curIpFamily : IpFamily) (ipv4 : Ipv4T)
    (pResponse : Option (List UInt8)) : Ipv4T :=
  let pIpv4 := if curIpFamily = .v4 then .zero else ipv4
  if handle = 0 then pIpv4
  else match pResponse with
  | none => pIpv4
  | some msg =>
    { DnsPrimary := (runtimeSetting msg 0x15).getD pIpv4.DnsPrimary
      DnsSecondary := (runtimeSetting msg 0x16).getD pIpv4.DnsSecondary
      Gateway := (runtimeSetting msg 0x20).getD pIpv4.Gateway
      SubnetMask := (runtimeSetting msg 0x21).getD pIpv4.SubnetMask
      Address := (runtimeSetting msg 0x1E).getD pIpv4.Address
      Mtu :=
        if curIpFamily = .v4 then (runtimeSetting msg 0x29).getD pIpv4.Mtu else pIpv4.Mtu }

/-! ## Configurations -/

/-- An IPv4 configuration. Addresses are numbers whose top byte comes first in the text. -/
structure Ipv4Config where
  address : UInt32
  prefixLength : Fin 33
  gateway : Option UInt32
  dnsPrimary : Option UInt32
  dnsSecondary : Option UInt32
  mtu : UInt32
  /-- There is no second server without a first. -/
  dns : dnsPrimary = none → dnsSecondary = none
  deriving DecidableEq

/-- The mask for a prefix length. -/
def netmask (prefixLength : Fin 33) : UInt32 :=
  UInt32.ofNat (2 ^ 32 - 2 ^ (32 - prefixLength.val))

namespace Ipv4Config

variable (c : Ipv4Config)

/-- The number of servers. -/
def dnsCount : ℕ := c.dnsPrimary.toList.length + c.dnsSecondary.toList.length

/-- Four bytes of the `InformationBuffer` are an address in network byte order. -/
def HasAddress (info : List UInt8) (offset : ℕ) (address : UInt32) : Prop :=
  offset + 4 ≤ info.length ∧ bswap32 (field32 info offset) = address.toNat

/-- An MBIM response carries the configuration. -/
structure MbimCarries (info : List UInt8) : Prop where
  header : 60 ≤ info.length
  addressAvailable : (ipv4ConfigurationAvailable info).testBit 0
  gatewayAvailable : (ipv4ConfigurationAvailable info).testBit 1 = c.gateway.isSome
  dnsAvailable : (ipv4ConfigurationAvailable info).testBit 2 = c.dnsPrimary.isSome
  mtuAvailable : (ipv4ConfigurationAvailable info).testBit 3
  prefixLength : field32 info (ipv4AddressOffset info) = c.prefixLength
  address : HasAddress info (ipv4AddressOffset info + 4) c.address
  gateway : ∀ gw ∈ c.gateway, HasAddress info (ipv4GatewayOffset info) gw
  dnsCount : ipv4DnsServerCount info = c.dnsCount
  dnsPrimary : ∀ dns ∈ c.dnsPrimary, HasAddress info (ipv4DnsServerOffset info) dns
  dnsSecondary : ∀ dns ∈ c.dnsSecondary, HasAddress info (ipv4DnsServerOffset info + 4) dns
  mtu : ipv4Mtu info = c.mtu.toNat

/-- The TLVs for the configuration. -/
def settings : List (ℕ × Option UInt32) :=
  [(0x15, c.dnsPrimary), (0x16, c.dnsSecondary), (0x1E, some c.address), (0x20, c.gateway),
    (0x21, some (netmask c.prefixLength)), (0x29, some c.mtu)]

/-- A QMI response carries the configuration, with any other TLVs in any order. -/
structure QmiCarries (msg : List UInt8) : Prop where
  tlvs : ∃ ts rest, msg.drop hdrsSize = Tlv.encodeAll ts ++ rest ∧ Tlv.sizeAll ts < 2 ^ 16 ∧
    qmuxMsgHdrLength msg = Tlv.sizeAll ts ∧
    ∀ s ∈ c.settings, Tlv.lookup s.1 ts = s.2.map fun value ↦ toLe32 value.toNat

/-- The fields that the configuration does not have are zero. -/
structure AbsentZero (ipv4 : Ipv4T) : Prop where
  gateway : c.gateway = none → ipv4.Gateway = 0
  dnsPrimary : c.dnsPrimary = none → ipv4.DnsPrimary = 0
  dnsSecondary : c.dnsSecondary = none → ipv4.DnsSecondary = 0

/-- Both transports leave the same. -/
def Agrees (handle : ℕ) (ipv4 : Ipv4T) (info msg : List UInt8) : Prop :=
  ∃ r, mbimIpConfigIpv4 ipv4 info = some r ∧ getIPAddressIpv4 handle .v4 ipv4 (some msg) = r ∧
    c.AbsentZero r

end Ipv4Config

/-! ## Fields -/

theorem toNat_mbim2qmiIpv4addr (addr : UInt32) :
    (mbim2qmiIpv4addr addr).toNat = bswap32 addr.toNat := by
  rw [← shifts_eq_bswap32 addr.toNat_lt]
  rfl

theorem field32_toLe32 {value : ℕ} (hlt : value < 2 ^ 32) (rest : List UInt8) :
    field32 (toLe32 value ++ rest) 0 = value := by
  change le16 (byteOf value 0) (byteOf value 1) + le16 (byteOf value 2) (byteOf value 3) * 65536 = _
  simp only [le16, toNat_byteOf]
  omega

/-- The fields of a structure whose members all are 32-bit numbers. -/
theorem field32_flatMap {values : List ℕ} (hlt : ∀ value ∈ values, value < 2 ^ 32)
    (rest : List UInt8) {i value : ℕ} (hvalue : values[i]? = some value) :
    field32 (values.flatMap toLe32 ++ rest) (4 * i) = value := by
  induction values generalizing i with
  | nil => cases hvalue
  | cons first values ih =>
    rw [List.flatMap_cons, List.append_assoc]
    cases i with
    | zero =>
      obtain rfl := Option.some.inj hvalue
      exact field32_toLe32 (hlt _ List.mem_cons_self) _
    | succ i => exact ih (fun value hmem ↦ hlt value (List.mem_cons_of_mem _ hmem)) hvalue

theorem loadU32_toLe32 (value : UInt32) (rest : List UInt8) :
    loadU32 (toLe32 value.toNat ++ rest) 0 = value := by
  rw [loadU32, field32_toLe32 value.toNat_lt, UInt32.ofNat_toNat]

theorem toNat_loadU32 (bytes : List UInt8) (offset : ℕ) :
    (loadU32 bytes offset).toNat = field32 bytes offset :=
  UInt32.toNat_ofNat_of_lt (field32_lt bytes offset)

/-- `requestGetIPAddress` takes the same number for the address. -/
theorem runtimeIpv4Address_eq (msg : List UInt8) :
    runtimeIpv4Address msg = (runtimeSetting msg 0x1E).map UInt32.toNat := by
  rw [runtimeSetting, Option.map_map, runtimeIpv4Address]
  refine congrArg (fun f ↦ (tlvBytes msg 0x1E).map f) (funext fun bytes ↦ ?_)
  rw [Function.comp_apply, toNat_loadU32, field32, field16, field16, le32]
  rfl

/-- The mask is swapped unless there is nothing to swap. -/
theorem prefixMask_eq_netmask (prefixLength : Fin 33) :
    (prefixMask (UInt8.ofNat prefixLength)).map mbim2qmiIpv4addr = some (netmask prefixLength) ↔
      prefixLength = 32 := by
  revert prefixLength
  decide

/-- A pointer to nothing. -/
theorem TlvPtr.eq_null {p : TlvPtr} (h : p.value = some none) : p = .null := by
  unfold TlvPtr.value at h
  split at h
  · rfl
  · split at h
    · cases h
    · cases h
  · cases h

/-- A pointer to a value that is all there. -/
theorem TlvPtr.eq_tlv {p : TlvPtr} {value : List UInt8} (h : p.value = some (some value)) :
    ∃ type lo hi rest, p = .tlv (type :: lo :: hi :: (value ++ rest)) := by
  unfold TlvPtr.value at h
  split at h
  · cases h
  · rename_i type lo hi bytes
    split at h
    · obtain rfl := Option.some.inj (Option.some.inj h)
      exact ⟨type, lo, hi, bytes.drop (le16 lo hi), by rw [List.take_append_drop]⟩
    · cases h
  · cases h

namespace Ipv4Config

variable {c : Ipv4Config} {info msg : List UInt8}

/-- An address in network byte order. -/
theorem HasAddress.load {offset : ℕ} {address : UInt32} (h : HasAddress info offset address) :
    mbim2qmiIpv4addr (loadU32 info offset) = address := by
  refine UInt32.toNat_inj.mp ?_
  rw [toNat_mbim2qmiIpv4addr, toNat_loadU32, h.2]

/-- The TLVs of a response are found. -/
theorem QmiCarries.runtimeSetting_eq (h : c.QmiCarries msg) {TLVType : ℕ} {value : Option UInt32}
    (hmem : (TLVType, value) ∈ c.settings) (htype : TLVType ≤ 0x1000) :
    runtimeSetting msg TLVType = value := by
  obtain ⟨ts, rest, hbody, hsize, hlength, hlookup⟩ := h.tlvs
  have hlen : Tlv.sizeAll ts < msg.length + 1 := by
    have hdrop := congrArg List.length hbody
    rw [List.length_drop, List.length_append, Tlv.length_encodeAll] at hdrop
    omega
  have hvalue : (getTLV msg TLVType).value =
      some (value.map fun value ↦ toLe32 value.toNat) := by
    rw [getTLV, hbody, hlength, getTLVLoop_encodeAll htype rest ts hsize _ _ hlen]
    exact congrArg some (hlookup _ hmem)
  cases value with
  | none =>
    rw [runtimeSetting, tlvBytes, TlvPtr.eq_null hvalue]
    rfl
  | some value =>
    obtain ⟨type, lo, hi, rest, hptr⟩ := TlvPtr.eq_tlv hvalue
    rw [runtimeSetting, tlvBytes, hptr]
    exact congrArg some (loadU32_toLe32 value rest)

/-! ## What is left -/

/-- What the configuration is to leave. -/
def expected (c : Ipv4Config) (ipv4 : Ipv4T) (subnetMask mtu : UInt32) : Ipv4T where
  Address := c.address
  Gateway := c.gateway.getD ipv4.Gateway
  SubnetMask := subnetMask
  DnsPrimary := c.dnsPrimary.getD ipv4.DnsPrimary
  DnsSecondary := c.dnsSecondary.getD ipv4.DnsSecondary
  Mtu := mtu

theorem QmiCarries.getIPAddressIpv4_eq (h : c.QmiCarries msg) {handle : ℕ} (hhandle : handle ≠ 0)
    (ipv4 : Ipv4T) :
    getIPAddressIpv4 handle .v4 ipv4 (some msg) =
      c.expected .zero (netmask c.prefixLength) c.mtu := by
  have hdns1 := h.runtimeSetting_eq (show (0x15, c.dnsPrimary) ∈ _ by simp [settings]) (by decide)
  have hdns2 := h.runtimeSetting_eq (show (0x16, c.dnsSecondary) ∈ _ by simp [settings]) (by decide)
  have haddress := h.runtimeSetting_eq (show (0x1E, some c.address) ∈ _ by simp [settings])
    (by decide)
  have hgateway := h.runtimeSetting_eq (show (0x20, c.gateway) ∈ _ by simp [settings]) (by decide)
  have hmask := h.runtimeSetting_eq (show (0x21, some (netmask c.prefixLength)) ∈ _ by
    simp [settings]) (by decide)
  have hmtu := h.runtimeSetting_eq (show (0x29, some c.mtu) ∈ _ by simp [settings]) (by decide)
  unfold getIPAddressIpv4
  dsimp only
  rw [if_neg hhandle, if_pos rfl, if_pos rfl, hdns1, hdns2, haddress, hgateway, hmask, hmtu]
  rfl

namespace MbimCarries

variable (h : c.MbimCarries info)

include h

theorem gateway_eq (old : UInt32) :
    (if (ipv4ConfigurationAvailable info).testBit 1 then
      mbim2qmiIpv4addr (loadU32 info (ipv4GatewayOffset info)) else old) = c.gateway.getD old := by
  have havailable := h.gatewayAvailable
  have hload := h.gateway
  cases hc : c.gateway with
  | none =>
    rw [hc] at havailable
    rw [havailable]
    rfl
  | some gw =>
    rw [hc] at havailable hload
    rw [havailable]
    exact (hload gw rfl).load

theorem dnsPrimary_eq (old : UInt32) :
    (if (ipv4ConfigurationAvailable info).testBit 2 then
      mbim2qmiIpv4addr (loadU32 info (ipv4DnsServerOffset info)) else old) =
        c.dnsPrimary.getD old := by
  have havailable := h.dnsAvailable
  have hload := h.dnsPrimary
  cases hc : c.dnsPrimary with
  | none =>
    rw [hc] at havailable
    rw [havailable]
    rfl
  | some dns =>
    rw [hc] at havailable hload
    rw [havailable]
    exact (hload dns rfl).load

theorem dnsSecondary_eq (old : UInt32) :
    (if (ipv4ConfigurationAvailable info).testBit 2 ∧ ipv4DnsServerCount info = 2 then
      mbim2qmiIpv4addr (loadU32 info (ipv4DnsServerOffset info + 4)) else old) =
        c.dnsSecondary.getD old := by
  have havailable := h.dnsAvailable
  have hcount := h.dnsCount
  have hload := h.dnsSecondary
  have hdns := c.dns
  rw [Ipv4Config.dnsCount] at hcount
  cases hc : c.dnsSecondary with
  | none =>
    rw [hc] at hcount
    rw [if_neg]
    · rfl
    · rintro ⟨-, htwo⟩
      cases hc₁ : c.dnsPrimary with
      | none =>
        rw [hc₁, htwo] at hcount
        exact absurd hcount (by decide)
      | some dns =>
        rw [hc₁, htwo] at hcount
        exact absurd hcount (show ¬2 = 1 by decide)
  | some dns =>
    rw [hc] at hcount hload
    cases hc₁ : c.dnsPrimary with
    | none =>
      rw [hdns hc₁] at hc
      cases hc
    | some dns₁ =>
      rw [hc₁] at havailable hcount
      rw [if_pos ⟨havailable, hcount⟩]
      exact (hload dns rfl).load

theorem mbimIpConfigIpv4_eq (ipv4 : Ipv4T) :
    mbimIpConfigIpv4 ipv4 info = (prefixMask (UInt8.ofNat c.prefixLength)).map fun mask ↦
      c.expected ipv4 (mbim2qmiIpv4addr mask) (mbim2qmiIpv4addr c.mtu) := by
  have hheader := h.header
  have hskip : ¬(info.length = 0 ∨ ¬(ipv4ConfigurationAvailable info).testBit 0) := by
    rintro (hempty | hnone)
    · omega
    · exact hnone h.addressAvailable
  unfold mbimIpConfigIpv4
  dsimp only
  rw [if_neg hskip, h.prefixLength, h.gateway_eq, h.dnsPrimary_eq, h.dnsSecondary_eq,
    h.address.load, if_pos h.mtuAvailable, h.mtu, UInt32.ofNat_toNat]
  cases prefixMask (UInt8.ofNat c.prefixLength) with
  | none => rfl
  | some mask => rfl

end MbimCarries

/-- The two configurations are the same if nothing old is left. -/
theorem expected_eq_iff (ipv4 : Ipv4T) (mask mask' mtu mtu' : UInt32) :
    c.expected .zero mask mtu = c.expected ipv4 mask' mtu' ↔
      mask' = mask ∧ mtu' = mtu ∧ c.AbsentZero ipv4 := by
  constructor
  · intro h
    injection h with _ hgateway hmask hdns₁ hdns₂ hmtu
    refine ⟨hmask.symm, hmtu.symm, fun hc ↦ ?_, fun hc ↦ ?_, fun hc ↦ ?_⟩
    · rw [hc] at hgateway
      exact hgateway.symm
    · rw [hc] at hdns₁
      exact hdns₁.symm
    · rw [hc] at hdns₂
      exact hdns₂.symm
  · rintro ⟨rfl, rfl, habsent⟩
    have hgetD : ∀ (value : Option UInt32) (old : UInt32), (value = none → old = 0) →
        value.getD 0 = value.getD old := by
      intro value old h
      cases value with
      | none => exact (h rfl).symm
      | some value => rfl
    rw [expected, expected, ← hgetD _ _ habsent.gateway, ← hgetD _ _ habsent.dnsPrimary,
      ← hgetD _ _ habsent.dnsSecondary]
    rfl

/-- Over QMI the old values are gone. -/
theorem absentZero_expected (c : Ipv4Config) (mask mtu : UInt32) :
    c.AbsentZero (c.expected .zero mask mtu) where
  gateway hc := by
    rw [expected, hc]
    rfl
  dnsPrimary hc := by
    rw [expected, hc]
    rfl
  dnsSecondary hc := by
    rw [expected, hc]
    rfl

/-- If both leave the same, the mask and the MTU did not change when they were swapped. -/
theorem Agrees.only {handle : ℕ} {ipv4 : Ipv4T} (h : c.Agrees handle ipv4 info msg)
    (hmbim : c.MbimCarries info) (hqmi : c.QmiCarries msg) (hhandle : handle ≠ 0) :
    c.prefixLength = 32 ∧ mbim2qmiIpv4addr c.mtu = c.mtu ∧ c.AbsentZero ipv4 := by
  obtain ⟨r, hr, heq, -⟩ := h
  rw [hmbim.mbimIpConfigIpv4_eq] at hr
  rw [hqmi.getIPAddressIpv4_eq hhandle] at heq
  obtain ⟨mask, hmask, rfl⟩ := Option.map_eq_some_iff.mp hr
  obtain ⟨hnetmask, hmtu, habsent⟩ := (expected_eq_iff ..).mp heq
  refine ⟨(prefixMask_eq_netmask c.prefixLength).mp ?_, hmtu, habsent⟩
  rw [hmask, Option.map_some, hnetmask]

def fullConfig (prefixLength : Fin 33) (mtu : UInt32) : Ipv4Config where
  address := 0x0A000001
  prefixLength := prefixLength
  gateway := some 0x0A0000FE
  dnsPrimary := some 0x08080404
  dnsSecondary := some 0x08080808
  mtu := mtu
  dns h := absurd h (Option.some_ne_none _)

/-- The structure, the address element, the gateway and the servers. -/
def fullFields (prefixLength mtu : ℕ) : List ℕ :=
  [0, 15, 0, 1, 60, 0, 0, 68, 0, 2, 72, 0, 0, mtu, 0, prefixLength, 0x0100000A, 0xFE00000A,
    0x04040808, 0x08080808]

def fullInfo (prefixLength mtu : ℕ) : List UInt8 :=
  (fullFields prefixLength mtu).flatMap toLe32 ++ []

def fullTlvs (mask mtu : ℕ) : List Tlv :=
  [⟨0x15, toLe32 0x08080404⟩, ⟨0x16, toLe32 0x08080808⟩, ⟨0x1E, toLe32 0x0A000001⟩,
    ⟨0x20, toLe32 0x0A0000FE⟩, ⟨0x21, toLe32 mask⟩, ⟨0x29, toLe32 mtu⟩]

def fullMsg (mask mtu : ℕ) : List UInt8 :=
  List.replicate 11 0 ++ toLe16 42 ++ Tlv.encodeAll (fullTlvs mask mtu)

theorem full_field {prefixLength : Fin 33} {mtu : UInt32} {i value : ℕ}
    (hvalue : (fullFields prefixLength mtu.toNat)[i]? = some value) :
    field32 (fullInfo prefixLength mtu.toNat) (4 * i) = value := by
  refine field32_flatMap (fun field hfield ↦ ?_) [] hvalue
  have hplen := prefixLength.isLt
  have hmtu := mtu.toNat_lt
  simp only [fullFields, List.mem_cons, List.not_mem_nil, or_false] at hfield
  omega

theorem full_mbimCarries (prefixLength : Fin 33) (mtu : UInt32) :
    (fullConfig prefixLength mtu).MbimCarries (fullInfo prefixLength mtu.toNat) := by
  have havailable : ipv4ConfigurationAvailable (fullInfo prefixLength mtu.toNat) = 15 :=
    full_field (i := 1) rfl
  have hoffset : ipv4AddressOffset (fullInfo prefixLength mtu.toNat) = 60 := full_field (i := 4) rfl
  have hgateway : ipv4GatewayOffset (fullInfo prefixLength mtu.toNat) = 68 :=
    full_field (i := 7) rfl
  have hdns : ipv4DnsServerOffset (fullInfo prefixLength mtu.toNat) = 72 :=
    full_field (i := 10) rfl
  have hlength : (fullInfo prefixLength mtu.toNat).length = 80 := rfl
  have hasAddress {i value : ℕ} {address : UInt32} (hi : 4 * i + 4 ≤ 80)
      (hvalue : (fullFields prefixLength mtu.toNat)[i]? = some value)
      (haddress : bswap32 value = address.toNat) :
      HasAddress (fullInfo prefixLength mtu.toNat) (4 * i) address :=
    ⟨by omega, by rw [full_field hvalue, haddress]⟩
  exact {
    header := by omega
    addressAvailable := by
      rw [havailable]
      rfl
    gatewayAvailable := by
      rw [havailable]
      rfl
    dnsAvailable := by
      rw [havailable]
      rfl
    mtuAvailable := by
      rw [havailable]
      rfl
    prefixLength := by
      rw [hoffset]
      exact full_field (i := 15) rfl
    address := by
      rw [hoffset]
      exact hasAddress (i := 16) (by decide) rfl rfl
    gateway := by
      rintro _ ⟨⟩
      rw [hgateway]
      exact hasAddress (i := 17) (by decide) rfl rfl
    dnsCount := full_field (i := 9) rfl
    dnsPrimary := by
      rintro _ ⟨⟩
      rw [hdns]
      exact hasAddress (i := 18) (by decide) rfl rfl
    dnsSecondary := by
      rintro _ ⟨⟩
      rw [hdns]
      exact hasAddress (i := 19) (by decide) rfl rfl
    mtu := full_field (i := 13) rfl }

theorem full_qmiCarries (prefixLength : Fin 33) (mtu : UInt32) :
    (fullConfig prefixLength mtu).QmiCarries
      (fullMsg (netmask prefixLength).toNat mtu.toNat) where
  tlvs := by
    have hsize : Tlv.sizeAll (fullTlvs (netmask prefixLength).toNat mtu.toNat) = 42 := rfl
    have hlength : qmuxMsgHdrLength (fullMsg (netmask prefixLength).toNat mtu.toNat) = 42 :=
      show le16 (byteOf 42 0) (byteOf 42 1) = 42 by decide
    refine ⟨fullTlvs (netmask prefixLength).toNat mtu.toNat, [], ?_, by omega, by omega, ?_⟩
    · rw [List.append_nil]
      exact List.drop_left' rfl
    intro s hs
    simp only [settings, List.mem_cons, List.not_mem_nil, or_false] at hs
    rcases hs with rfl | rfl | rfl | rfl | rfl | rfl
    all_goals rfl

end Ipv4Config

end Wwan.QuectelCm
