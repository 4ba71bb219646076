import Wwan.Lib.Fault
import Wwan.Lib.Memory
import Wwan.QuectelCm.IpConfig
import Wwan.QuectelCm.MbimRequests

/-!
# Where the parsers of `mbim-cm.c` read

A completion carries an information buffer whose fields are offsets, sizes and counts. The parsers
take them as they are. They are modelled as programs that fault when they read outside of the
buffer, or write outside of an array of their own; a parser does not fault if and only if the
numbers that it comes to stay inside.
-/

namespace Wwan.QuectelCm

open Bytes Memory

/-! ## Accesses -/

/-- The information buffer of a completion. -/
structure InfoBuffer where
  /-- What `InformationBuffer` points at, beyond its end as well. -/
  mem : ℕ → UInt8
  /-- `InformationBufferLength`. -/
  len : ℕ
  /-- `MessageLength` counts the 48 bytes of `MBIM_COMMAND_DONE_T`, too. -/
  len_lt : len + 48 < 2 ^ 32

/-- The arrays that the parsers write to. -/
structure ParserLocals where
  /-- `tmp` of `mbim_device_caps_query` and `mbim_subscriber_status_query`. -/
  tmp : Buffer UInt8 32
  /-- `buff` of `mbim_get_segment`. -/
  buff : Buffer UInt8 256

/-- What a parser does. -/
abbrev ParserM (α : Type) := StateT ParserLocals Option α

namespace InfoBuffer

variable (b : InfoBuffer)

/-- A 32-bit field, wherever it lies. -/
def field (off : ℕ) : ℕ := field32 (peek b.mem off 4) 0

/-- The `n` bytes at `off` are read. -/
def read (off n : ℕ) : ParserM (List UInt8) := fun s ↦
  if off + n ≤ b.len then some (peek b.mem off n, s) else none

/-- A field is read. -/
def readField (off : ℕ) : ParserM ℕ := do
  let bytes ← b.read off 4
  return field32 bytes 0

/-- A byte is read. -/
def readByte (off : ℕ) : ParserM UInt8 := do
  let bytes ← b.read off 1
  return bytes.getD 0 0

end InfoBuffer

/-- `tmp[i] = c`. -/
def setTmp (i : ℕ) (c : UInt8) : ParserM PUnit := fun s ↦
  (s.tmp.store i [c]).map fun tmp ↦ (⟨⟩, { s with tmp })

/-- `buff[i] = c`. -/
def setBuff (i : ℕ) (c : UInt8) : ParserM PUnit := fun s ↦
  (s.buff.store i [c]).map fun buff ↦ (⟨⟩, { s with buff })

/-! ## The parsers -/

namespace InfoBuffer

variable (b : InfoBuffer)

/-- `wchar2char` with `tmp`. -/
def wchar2char (off size : ℕ) : ParserM PUnit := do
  forRange (min (32 - 1) (size / 2)) fun i ↦ do
    let c ← b.readByte (off + i * 2)
    setTmp i c
  setTmp (min (32 - 1) (size / 2)) 0

/-- `mbim_get_segment`; the index is computed with 32 bits. -/
def mbimGetSegment (offset len : ℕ) : ParserM PUnit := do
  forRange (len / 2) fun idx ↦ do
    let c ← b.readByte ((offset + idx * 2) % 2 ^ 32)
    setBuff idx c
  setBuff (len / 2) 0

/-- The segment whose offset is at `off`, and its length behind that. -/
def segment (off : ℕ) : ParserM PUnit := do
  let offset ← b.readField off
  let len ← b.readField (off + 4)
  b.mbimGetSegment offset len

/-- `mbim_dump_subscriber_status`, which calls `mbim_get_segment`; it reads the same place for each
telephone number. -/
def mbimDumpSubscriberStatus : ParserM PUnit :=
  when (b.len ≠ 0) do
    let _readyState ← b.readField 0
    b.segment 12
    b.segment 4
    let elementCount ← b.readField 24
    forRange elementCount fun _ ↦ b.segment 28

/-- `mbim_subscriber_status_query` behind `mbim_check_err`. -/
def mbimSubscriberStatusQuery : ParserM PUnit :=
  when (b.len ≠ 0) do
    let subscriberIdOffset ← b.readField 4
    let subscriberIdSize ← b.readField 8
    b.wchar2char subscriberIdOffset subscriberIdSize
    let simIccIdOffset ← b.readField 12
    let simIccIdSize ← b.readField 16
    b.wchar2char simIccIdOffset simIccIdSize
    let _readyState ← b.readField 0

/-- A text of `mbim_device_caps_query`: the size is not read if the offset is zero. -/
def capsText (off : ℕ) : ParserM PUnit := do
  let offset ← b.readField off
  when (offset ≠ 0) do
    let size ← b.readField (off + 4)
    when (size ≠ 0) (b.wchar2char offset size)

/-- `mbim_device_caps_query` behind `mbim_check_err`. -/
def mbimDeviceCapsQuery : ParserM PUnit :=
  when (b.len ≠ 0) do
    b.capsText 40
    b.capsText 48
    b.capsText 56

/-- A pass of the loop of `mbim_device_services_query`. `CidCount` is read before each pass over
`CidList`, and once more. -/
def deviceService (i : ℕ) : ParserM PUnit := do
  let offset ← b.readField (8 + 8 * i)
  let uuid ← b.read offset 16
  when (uuid = uuidBasicConnectExt) do
    let cidCount ← b.readField (offset + 24)
    forRange cidCount fun cid ↦ do
      let _cid ← b.readField (offset + 28 + 4 * cid)

/-- `mbim_device_services_query` behind `mbim_check_err`. -/
def mbimDeviceServicesQuery : ParserM PUnit :=
  when (b.len ≠ 0) do
    let deviceServicesCount ← b.readField 0
    forRange deviceServicesCount b.deviceService

end InfoBuffer

/-- Where `MBIM_IP_CONFIGURATION_INFO_T` has the fields of a family, and the size of its addresses. -/
structure IpFields where
  available : ℕ
  address : ℕ
  gateway : ℕ
  dnsServerCount : ℕ
  dnsServer : ℕ
  mtu : ℕ
  size : ℕ

/-- The fields of IPv4. -/
def IpFields.ipv4 : IpFields := ⟨4, 16, 28, 36, 40, 52, 4⟩

/-- The fields of IPv6. -/
def IpFields.ipv6 : IpFields := ⟨8, 24, 32, 44, 48, 56, 16⟩

namespace InfoBuffer

variable (b : InfoBuffer)

/-- `OnLinkPrefixLength` and the address behind it. `DataBuffer[offset - 60]` is `offset` bytes
behind the beginning of the structure, in whatever width that is computed. -/
def readAddress (f : IpFields) : ParserM (List UInt8) := do
  let offset ← b.readField f.address
  let _prefix ← b.readField offset
  b.read (offset + 4) f.size

/-- The gateway. -/
def readGateway (f : IpFields) : ParserM PUnit := do
  let offset ← b.readField f.gateway
  let _gw ← b.read offset f.size

/-- The first server, and the second one if there are two. -/
def readDns (f : IpFields) : ParserM PUnit := do
  let offset ← b.readField f.dnsServer
  let count ← b.readField f.dnsServerCount
  let _dns1 ← b.read offset f.size
  when (count = 2) do
    let _dns2 ← b.read (offset + f.size) f.size

/-- A family in `mbim_dump_ipconfig`, which looks for servers with the bits of the address and of
the gateway. -/
def dumpFamily (f : IpFields) : ParserM PUnit := do
  let available ← b.readField f.available
  when (available.testBit 0) do
    let _address ← b.readAddress f
  when (available.testBit 1) (b.readGateway f)
  when (available % 4 ≠ 0) (b.readDns f)
  let _mtu ← b.readField f.mtu

/-- `mbim_dump_ipconfig`. -/
def mbimDumpIpconfig : ParserM PUnit := do
  -- the seven fields that are printed first
  let _fields ← b.read 0 28
  b.dumpFamily .ipv4
  b.dumpFamily .ipv6

/-- A family in `mbim_ip_config`; `dump` is what is done once the address is known. -/
def ipConfigFamily (f : IpFields) (dump : List UInt8 → ParserM PUnit) : ParserM PUnit := do
  let available ← b.readField f.available
  when (available.testBit 0) do
    let address ← b.readAddress f
    when (available.testBit 3) do
      let _mtu ← b.readField f.mtu
    dump address
    when (available.testBit 1) (b.readGateway f)
    when (available.testBit 2) (b.readDns f)

/-- What is dumped for an address of IPv4: all, unless it is the one the profile has. -/
def dumpNew (verbose : Bool) (old : UInt32) (address : List UInt8) : ParserM PUnit :=
  when (old ≠ mbim2qmiIpv4addr (UInt32.ofNat (field32 address 0)) ∨ verbose = true)
    b.mbimDumpIpconfig

/-- `mbim_ip_config` behind `mbim_check_err`, with `mbim_verbose` and the address of the profile. -/
def mbimIpConfig (verbose : Bool) (old : UInt32) : ParserM PUnit :=
  when (b.len ≠ 0) do
    b.ipConfigFamily .ipv4 (b.dumpNew verbose old)
    b.ipConfigFamily .ipv6 fun _ ↦ pure ⟨⟩

end InfoBuffer

/-- The parsers. -/
inductive MbimParser
  | ipConfig (verbose : Bool) (old : UInt32)
  | deviceServicesQuery
  | deviceCapsQuery
  | subscriberStatusQuery
  | dumpSubscriberStatus
  deriving DecidableEq

/-- The program of a parser. -/
def MbimParser.run (b : InfoBuffer) : MbimParser → ParserM PUnit
  | ipConfig verbose old => b.mbimIpConfig verbose old
  | deviceServicesQuery => b.mbimDeviceServicesQuery
  | deviceCapsQuery => b.mbimDeviceCapsQuery
  | subscriberStatusQuery => b.mbimSubscriberStatusQuery
  | dumpSubscriberStatus => b.mbimDumpSubscriberStatus

/-! ## What fits -/

namespace InfoBuffer

variable (b : InfoBuffer)

/-- The text with this offset and size, of which `tmp` takes 31 characters. -/
def TextFits (off size : ℕ) : Prop :=
  min 31 (size / 2) = 0 ∨ off + 2 * min 31 (size / 2) ≤ b.len + 1

/-- The text whose offset is at `off` and that `mbim_get_segment` takes as a whole. -/
def SegmentFits (off : ℕ) : Prop :=
  b.field (off + 4) / 2 ≤ 255 ∧
    (b.field (off + 4) / 2 = 0 ∨ b.field off + 2 * (b.field (off + 4) / 2) ≤ b.len + 1)

/-- The text of the capabilities whose offset is at `off`. -/
def CapsTextFits (off : ℕ) : Prop :=
  off + 4 ≤ b.len ∧ (b.field off ≠ 0 →
    off + 8 ≤ b.len ∧ b.TextFits (b.field off) (b.field (off + 4)))

/-- The `i`-th service. -/
def ServiceFits (i : ℕ) : Prop :=
  b.field (8 + 8 * i) + 16 ≤ b.len ∧
    (peek b.mem (b.field (8 + 8 * i)) 16 = uuidBasicConnectExt →
      b.field (8 + 8 * i) + 28 + 4 * b.field (b.field (8 + 8 * i) + 24) ≤ b.len)

/-- The address of a family. -/
def AddressFits (f : IpFields) : Prop :=
  f.address + 4 ≤ b.len ∧ b.field f.address + 4 + f.size ≤ b.len

/-- The gateway of a family. -/
def GatewayFits (f : IpFields) : Prop :=
  f.gateway + 4 ≤ b.len ∧ b.field f.gateway + f.size ≤ b.len

/-- The servers of a family. -/
def DnsFits (f : IpFields) : Prop :=
  f.dnsServer + 4 ≤ b.len ∧ f.dnsServerCount + 4 ≤ b.len ∧
    b.field f.dnsServer + (if b.field f.dnsServerCount = 2 then 2 else 1) * f.size ≤ b.len

/-- What is dumped of a family. -/
def DumpFits (f : IpFields) : Prop :=
  ((b.field f.available).testBit 0 = true → b.AddressFits f) ∧
    ((b.field f.available).testBit 1 = true → b.GatewayFits f) ∧
    (b.field f.available % 4 ≠ 0 → b.DnsFits f)

/-- What is taken of a family. -/
def FamilyFits (f : IpFields) (dump : Prop) : Prop :=
  (b.field f.available).testBit 0 = true →
    b.AddressFits f ∧ ((b.field f.available).testBit 3 = true → f.mtu + 4 ≤ b.len) ∧ dump ∧
      ((b.field f.available).testBit 1 = true → b.GatewayFits f) ∧
      ((b.field f.available).testBit 2 = true → b.DnsFits f)

/-- All that is dumped, if it is. -/
def DumpNewFits (verbose : Bool) (old : UInt32) : Prop :=
  old ≠ mbim2qmiIpv4addr (UInt32.ofNat (b.field (b.field 16 + 4))) ∨ verbose = true →
    60 ≤ b.len ∧ b.DumpFits .ipv4 ∧ b.DumpFits .ipv6

end InfoBuffer

/-- The numbers that a parser comes to stay inside of the buffer. -/
def MbimParser.Fits (b : InfoBuffer) (p : MbimParser) : Prop :=
  b.len ≠ 0 →
    match p with
    | ipConfig verbose old =>
      12 ≤ b.len ∧ b.FamilyFits .ipv4 (b.DumpNewFits verbose old) ∧ b.FamilyFits .ipv6 True
    | deviceServicesQuery =>
      4 ≤ b.len ∧ (b.field 0 ≠ 0 → 8 * b.field 0 + 4 ≤ b.len) ∧ ∀ i < b.field 0, b.ServiceFits i
    | deviceCapsQuery => b.CapsTextFits 40 ∧ b.CapsTextFits 48 ∧ b.CapsTextFits 56
    | subscriberStatusQuery =>
      20 ≤ b.len ∧ b.TextFits (b.field 4) (b.field 8) ∧ b.TextFits (b.field 12) (b.field 16)
    | dumpSubscriberStatus =>
      28 ≤ b.len ∧ b.SegmentFits 12 ∧ b.SegmentFits 4 ∧
        (b.field 24 ≠ 0 → 36 ≤ b.len ∧ b.SegmentFits 28)

/-! ## Accesses one by one -/

section Access

variable {α : Type} {P : Prop}

theorem needs_setTmp (i : ℕ) (c : UInt8) : Needs (setTmp i c) (i < 32) := by
  intro s
  constructor
  · rintro ⟨a, s', hrun, -⟩
    by_contra hge
    have hnone : s.tmp.store i [c] = none :=
      Buffer.store_eq_none (Nat.lt_succ_of_le (Nat.not_lt.mp hge))
    rw [setTmp, hnone] at hrun
    exact absurd hrun (by simp)
  · intro hlt
    obtain ⟨tmp, htmp, -⟩ := Buffer.exists_store s.tmp i [c] hlt
    refine ⟨⟨⟩, { s with tmp }, ?_, trivial⟩
    rw [setTmp, htmp]
    rfl

theorem needs_setBuff (i : ℕ) (c : UInt8) : Needs (setBuff i c) (i < 256) := by
  intro s
  constructor
  · rintro ⟨a, s', hrun, -⟩
    by_contra hge
    have hnone : s.buff.store i [c] = none :=
      Buffer.store_eq_none (Nat.lt_succ_of_le (Nat.not_lt.mp hge))
    rw [setBuff, hnone] at hrun
    exact absurd hrun (by simp)
  · intro hlt
    obtain ⟨buff, hbuff, -⟩ := Buffer.exists_store s.buff i [c] hlt
    refine ⟨⟨⟩, { s with buff }, ?_, trivial⟩
    rw [setBuff, hbuff]
    rfl

namespace InfoBuffer

variable {b : InfoBuffer}

theorem needs_read_bind {off n : ℕ} {f : List UInt8 → ParserM α}
    (h : Needs (f (peek b.mem off n)) P) : Needs (b.read off n >>= f) (off + n ≤ b.len ∧ P) := by
  intro s
  rw [Completes.bind_iff]
  by_cases hle : off + n ≤ b.len
  · have hrun : b.read off n s = some (peek b.mem off n, s) := if_pos hle
    rw [Completes.step_iff hrun, and_iff_right hle]
    exact h s
  · rw [iff_false_right fun hboth ↦ hle hboth.1]
    rintro ⟨a, s', hrun, -⟩
    rw [read, if_neg hle] at hrun
    exact absurd hrun (by simp)

theorem needs_readField_bind {off : ℕ} {f : ℕ → ParserM α} (h : Needs (f (b.field off)) P) :
    Needs (b.readField off >>= f) (off + 4 ≤ b.len ∧ P) := by
  rw [readField, bind_assoc]
  apply needs_read_bind
  rw [pure_bind]
  exact h

theorem needs_readByte_bind {off : ℕ} {f : UInt8 → ParserM α} (h : ∀ c, Needs (f c) P) :
    Needs (b.readByte off >>= f) (off < b.len ∧ P) := by
  rw [readByte, bind_assoc]
  apply needs_read_bind
  rw [pure_bind]
  exact h _

end InfoBuffer

end Access

/-! ## The parsers one by one -/

namespace InfoBuffer

variable {b : InfoBuffer}

/-- All characters of a text are inside if the last one is. -/
theorem forall_char_iff (off n len : ℕ) :
    (∀ i < n, off + i * 2 < len) ↔ n = 0 ∨ off + 2 * n ≤ len + 1 := by
  constructor
  · intro h
    rcases Nat.eq_zero_or_pos n with hzero | hpos
    · exact .inl hzero
    · have hlast := h (n - 1) (by omega)
      omega
  · rintro (rfl | hle) i hi
    · exact absurd hi (Nat.not_lt_zero i)
    · omega

theorem needs_wchar2char (off size : ℕ) : Needs (b.wchar2char off size) (b.TextFits off size) := by
  have hchar : ∀ i, Needs (b.readByte (off + i * 2) >>= setTmp i) (off + i * 2 < b.len ∧ i < 32) :=
    fun i ↦ needs_readByte_bind fun c ↦ needs_setTmp i c
  rw [wchar2char]
  apply ((Needs.forRange _ hchar).bind fun _ ↦ needs_setTmp _ 0).congr
  rw [TextFits, ← forall_char_iff]
  constructor
  · rintro ⟨hall, -⟩ i hi
    exact (hall i hi).1
  · intro hall
    refine ⟨fun i hi ↦ ⟨hall i hi, ?_⟩, ?_⟩
    · exact Nat.lt_trans (Nat.lt_of_lt_of_le hi (Nat.min_le_left _ _)) (by decide)
    · exact Nat.lt_of_le_of_lt (Nat.min_le_left _ _) (by decide)

/-- An index that wraps has been outside before. -/
theorem forall_segment_iff {offset n len : ℕ} (hoffset : offset < 2 ^ 32) (hlen : len + 48 < 2 ^ 32) :
    (∀ i < n, (offset + i * 2) % 2 ^ 32 < len) ↔ n = 0 ∨ offset + 2 * n ≤ len + 1 := by
  rw [← forall_char_iff]
  constructor
  · intro h i hi
    by_contra hge
    rcases Nat.lt_or_ge (offset + i * 2) (2 ^ 32) with hlt | hwrap
    · have hin := h i hi
      rw [Nat.mod_eq_of_lt hlt] at hin
      exact hge hin
    · -- the last index that does not wrap
      have hj : (2 ^ 32 - 1 - offset) / 2 < n := by omega
      have hin := h _ hj
      have hlt : offset + (2 ^ 32 - 1 - offset) / 2 * 2 < 2 ^ 32 := by omega
      rw [Nat.mod_eq_of_lt hlt] at hin
      omega
  · intro h i hi
    exact Nat.lt_of_le_of_lt (Nat.mod_le _ _) (h i hi)

theorem needs_segment (off : ℕ) : Needs (b.segment off) (off + 8 ≤ b.len ∧ b.SegmentFits off) := by
  have hchar : ∀ i, Needs (b.readByte ((b.field off + i * 2) % 2 ^ 32) >>= setBuff i)
      ((b.field off + i * 2) % 2 ^ 32 < b.len ∧ i < 256) :=
    fun i ↦ needs_readByte_bind fun c ↦ needs_setBuff i c
  have hget : Needs (b.mbimGetSegment (b.field off) (b.field (off + 4))) _ :=
    (Needs.forRange _ hchar).bind fun _ ↦ needs_setBuff _ 0
  apply (needs_readField_bind (needs_readField_bind hget)).congr
  have hoffset : b.field off < 2 ^ 32 := field32_lt _ _
  rw [SegmentFits, ← forall_segment_iff hoffset b.len_lt]
  constructor
  · rintro ⟨-, hfield, hall, hlast⟩
    exact ⟨hfield, Nat.le_of_lt_succ hlast, fun i hi ↦ (hall i hi).1⟩
  · rintro ⟨hfield, hlast, hall⟩
    refine ⟨by omega, hfield, fun i hi ↦ ⟨hall i hi, ?_⟩, Nat.lt_succ_of_le hlast⟩
    exact Nat.lt_of_lt_of_le hi (Nat.le_succ_of_le hlast)

/-- A field whose value is not used. -/
theorem needs_readField (off : ℕ) :
    Needs (b.readField off >>= fun _ ↦ pure PUnit.unit) (off + 4 ≤ b.len) :=
  Needs.congr (needs_readField_bind Needs.pure) (and_iff_left trivial)

/-- Bytes that are not used. -/
theorem needs_read (off n : ℕ) :
    Needs (b.read off n >>= fun _ ↦ pure PUnit.unit) (off + n ≤ b.len) :=
  Needs.congr (needs_read_bind Needs.pure) (and_iff_left trivial)

theorem needs_mbimDumpSubscriberStatus : Needs b.mbimDumpSubscriberStatus
    (MbimParser.dumpSubscriberStatus.Fits b) := by
  refine Needs.when (Needs.congr (needs_readField_bind ((needs_segment 12).bind fun _ ↦
    (needs_segment 4).bind fun _ ↦ needs_readField_bind
      (Needs.forRange _ fun _ ↦ needs_segment 28))) ?_)
  constructor
  · rintro ⟨-, ⟨-, h12⟩, ⟨-, h4⟩, hlen, hall⟩
    exact ⟨hlen, h12, h4, fun hne ↦ hall 0 (Nat.pos_of_ne_zero hne)⟩
  · rintro ⟨hlen, h12, h4, hall⟩
    refine ⟨by omega, ⟨by omega, h12⟩, ⟨by omega, h4⟩, hlen, fun i hi ↦ ?_⟩
    exact hall (Nat.ne_of_gt (Nat.zero_lt_of_lt hi))

theorem needs_mbimSubscriberStatusQuery : Needs b.mbimSubscriberStatusQuery
    (MbimParser.subscriberStatusQuery.Fits b) := by
  refine Needs.when (Needs.congr (needs_readField_bind (needs_readField_bind
    ((needs_wchar2char _ _).bind fun _ ↦ needs_readField_bind (needs_readField_bind
      ((needs_wchar2char _ _).bind fun _ ↦ needs_readField 0))))) ?_)
  constructor
  · rintro ⟨-, -, h4, -, hlen, h12, -⟩
    exact ⟨hlen, h4, h12⟩
  · rintro ⟨hlen, h4, h12⟩
    exact ⟨by omega, by omega, h4, by omega, hlen, h12, by omega⟩

theorem needs_capsText (off : ℕ) : Needs (b.capsText off) (b.CapsTextFits off) := by
  refine Needs.congr (needs_readField_bind (Needs.when (needs_readField_bind
    (Needs.when (needs_wchar2char _ _))))) ?_
  constructor
  · rintro ⟨hlen, hrest⟩
    refine ⟨hlen, fun hne ↦ ⟨(hrest hne).1, ?_⟩⟩
    by_cases hzero : b.field (off + 4) = 0
    · rw [hzero]
      exact .inl rfl
    · exact (hrest hne).2 hzero
  · rintro ⟨hlen, hrest⟩
    exact ⟨hlen, fun hne ↦ ⟨(hrest hne).1, fun _ ↦ (hrest hne).2⟩⟩

theorem needs_mbimDeviceCapsQuery : Needs b.mbimDeviceCapsQuery
    (MbimParser.deviceCapsQuery.Fits b) :=
  Needs.when ((needs_capsText 40).bind fun _ ↦ (needs_capsText 48).bind fun _ ↦ needs_capsText 56)

theorem needs_deviceService (i : ℕ) :
    Needs (b.deviceService i) (8 * i + 12 ≤ b.len ∧ b.ServiceFits i) := by
  refine Needs.congr (needs_readField_bind (needs_read_bind (Needs.when (needs_readField_bind
    (Needs.forRange _ fun cid ↦ needs_readField _))))) ?_
  rw [ServiceFits]
  constructor
  · rintro ⟨href, huuid, hcids⟩
    refine ⟨by omega, huuid, fun hext ↦ ?_⟩
    obtain ⟨hcount, hall⟩ := hcids hext
    rcases Nat.eq_zero_or_pos (b.field (b.field (8 + 8 * i) + 24)) with hzero | hpos
    · omega
    · have hlast := hall _ (Nat.sub_one_lt_of_lt hpos)
      omega
  · rintro ⟨href, huuid, hcids⟩
    refine ⟨by omega, huuid, fun hext ↦ ?_⟩
    have hend := hcids hext
    exact ⟨by omega, fun cid hcid ↦ by omega⟩

theorem needs_mbimDeviceServicesQuery : Needs b.mbimDeviceServicesQuery
    (MbimParser.deviceServicesQuery.Fits b) := by
  refine Needs.when (Needs.congr (needs_readField_bind
    (Needs.forRange _ fun i ↦ needs_deviceService i)) ?_)
  constructor
  · rintro ⟨hlen, hall⟩
    refine ⟨hlen, fun hne ↦ ?_, fun i hi ↦ (hall i hi).2⟩
    have hlast := (hall _ (Nat.sub_one_lt hne)).1
    omega
  · rintro ⟨hlen, hcount, hall⟩
    refine ⟨hlen, fun i hi ↦ ⟨?_, hall i hi⟩⟩
    have hend := hcount (Nat.ne_of_gt (Nat.zero_lt_of_lt hi))
    omega

/-! ## The configuration -/

/-- The bytes of the address are read, whatever is done with them. -/
theorem needs_readAddress_bind {f : IpFields} {P : Prop} {k : List UInt8 → ParserM PUnit}
    (h : Needs (k (peek b.mem (b.field f.address + 4) f.size)) P) :
    Needs (b.readAddress f >>= k) (b.AddressFits f ∧ P) := by
  rw [readAddress]
  simp only [bind_assoc]
  refine Needs.congr (needs_readField_bind (needs_readField_bind (needs_read_bind h))) ?_
  rw [AddressFits]
  constructor
  · rintro ⟨hfield, -, hbytes, hP⟩
    exact ⟨⟨hfield, hbytes⟩, hP⟩
  · rintro ⟨⟨hfield, hbytes⟩, hP⟩
    exact ⟨hfield, by omega, hbytes, hP⟩

theorem needs_readGateway (f : IpFields) : Needs (b.readGateway f) (b.GatewayFits f) :=
  needs_readField_bind (needs_read _ _)

theorem needs_readDns (f : IpFields) : Needs (b.readDns f) (b.DnsFits f) := by
  refine Needs.congr (needs_readField_bind (needs_readField_bind (needs_read_bind
    (Needs.when (needs_read _ _))))) ?_
  rw [DnsFits]
  constructor
  · rintro ⟨hdns, hcount, hfirst, hsecond⟩
    refine ⟨hdns, hcount, ?_⟩
    split
    next htwo =>
      have hboth := hsecond htwo
      omega
    next => omega
  · rintro ⟨hdns, hcount, hall⟩
    split at hall
    · exact ⟨hdns, hcount, by omega, fun _ ↦ by omega⟩
    next hne => exact ⟨hdns, hcount, by omega, fun htwo ↦ absurd htwo hne⟩

theorem needs_dumpFamily (f : IpFields) :
    Needs (b.dumpFamily f) (f.available + 4 ≤ b.len ∧ b.DumpFits f ∧ f.mtu + 4 ≤ b.len) := by
  refine Needs.congr (needs_readField_bind (Needs.bind (Needs.when (needs_readAddress_bind
    Needs.pure)) fun _ ↦ Needs.bind (Needs.when (needs_readGateway f)) fun _ ↦
      Needs.bind (Needs.when (needs_readDns f)) fun _ ↦ needs_readField _)) ?_
  rw [DumpFits]
  simp only [and_true, and_assoc]

theorem needs_mbimDumpIpconfig : Needs b.mbimDumpIpconfig
    (60 ≤ b.len ∧ b.DumpFits .ipv4 ∧ b.DumpFits .ipv6) := by
  refine Needs.congr (needs_read_bind ((needs_dumpFamily .ipv4).bind fun _ ↦
    needs_dumpFamily .ipv6)) ?_
  constructor
  · rintro ⟨-, ⟨-, h4, -⟩, -, h6, hlen⟩
    exact ⟨hlen, h4, h6⟩
  · rintro ⟨hlen, h4, h6⟩
    exact ⟨by omega, ⟨Nat.le_trans (by decide) hlen, h4, Nat.le_trans (by decide) hlen⟩,
      Nat.le_trans (by decide) hlen, h6, hlen⟩

theorem needs_ipConfigFamily (f : IpFields) {P : Prop} {dump : List UInt8 → ParserM PUnit}
    (h : Needs (dump (peek b.mem (b.field f.address + 4) f.size)) P) :
    Needs (b.ipConfigFamily f dump) (f.available + 4 ≤ b.len ∧ b.FamilyFits f P) :=
  needs_readField_bind (Needs.when (needs_readAddress_bind
    (Needs.bind (Needs.when (needs_readField _)) fun _ ↦ h.bind fun _ ↦
      Needs.bind (Needs.when (needs_readGateway f)) fun _ ↦ Needs.when (needs_readDns f))))

theorem needs_mbimIpConfig (verbose : Bool) (old : UInt32) : Needs (b.mbimIpConfig verbose old)
    ((MbimParser.ipConfig verbose old).Fits b) := by
  refine Needs.when (Needs.congr ((needs_ipConfigFamily .ipv4
    (Needs.when needs_mbimDumpIpconfig)).bind fun _ ↦ needs_ipConfigFamily .ipv6 Needs.pure) ?_)
  constructor
  · rintro ⟨⟨-, h4⟩, hlen, h6⟩
    exact ⟨hlen, h4, h6⟩
  · rintro ⟨hlen, h4, h6⟩
    exact ⟨⟨Nat.le_trans (by decide) hlen, h4⟩, hlen, h6⟩

end InfoBuffer

/-- A parser stays inside of the buffer and of its arrays, to the end of its loops, if and only if
the numbers it comes to do. -/
theorem parser_inside_iff (p : MbimParser) (b : InfoBuffer) (s : ParserLocals) :
    Wwan.Completes (p.run b) s (fun _ _ ↦ True) ↔ p.Fits b := by
  cases p with
  | ipConfig verbose old => exact InfoBuffer.needs_mbimIpConfig verbose old s
  | deviceServicesQuery => exact InfoBuffer.needs_mbimDeviceServicesQuery s
  | deviceCapsQuery => exact InfoBuffer.needs_mbimDeviceCapsQuery s
  | subscriberStatusQuery => exact InfoBuffer.needs_mbimSubscriberStatusQuery s
  | dumpSubscriberStatus => exact InfoBuffer.needs_mbimDumpSubscriberStatus s

/-- A list that should have 100 services, in 8 bytes. -/
def shortServices : InfoBuffer where
  mem := poke (fun _ ↦ 0) 0 (toLe32 100)
  len := 8
  len_lt := by decide

/-- The parser of the list reads behind its end. -/
theorem shortServices_outside : ¬ ∀ s, Wwan.Completes (MbimParser.deviceServicesQuery.run
    shortServices) s (fun _ _ ↦ True) := by
  intro h
  have hfits := (InfoBuffer.needs_mbimDeviceServicesQuery _).mp
    (h ⟨List.Vector.replicate 32 0, List.Vector.replicate 256 0⟩)
  obtain ⟨-, hcount, -⟩ := hfits (by decide)
  exact absurd (hcount (by decide)) (by decide)

end Wwan.QuectelCm
