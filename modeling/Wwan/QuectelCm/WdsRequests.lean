import Mathlib.Data.List.ReduceOption
import Wwan.QuectelCm.Qmux

/-!
# The requests that carry the profile

`WdsStartNwInterfaceReq` and `WdsModifyProfileSettingsReq` pack the strings and numbers of the
profile into TLVs, one behind the other. A string is copied with its terminator, which the next
TLV overwrites. Nothing bounds the strings, which come from the command line, while the message
is put together in a buffer of `WDM_DEFAULT_BUFSIZE` bytes.
-/

namespace Wwan.QuectelCm

open Bytes

/-! ## The profile -/

/-- A string of C, without its terminator. -/
structure CString where
  chars : List UInt8
  nonzero : ∀ c ∈ chars, c ≠ 0
  deriving DecidableEq

/-- The string of ASCII characters. -/
def CString.ofChars (s : List Char) (h : ∀ c ∈ s.map fun c ↦ UInt8.ofNat c.toNat, c ≠ 0) :
    CString :=
  ⟨s.map fun c ↦ UInt8.ofNat c.toNat, h⟩

/-- `PROFILE_T`, as far as these requests read it. `NULL` strings are none. -/
structure Profile where
  apn : Option CString
  user : Option CString
  password : Option CString
  auth : ℤ
  iptype : ℤ
  profile_index : ℤ
  curIpFamily : ℤ
  deriving DecidableEq

/-! ## Writing TLVs -/

/-- An `UCHAR` that an `int` is assigned to. -/
def uchar (x : ℤ) : UInt8 := UInt8.ofNat (x % 256).toNat

/-- What is put in a TLV: the numbers, or the characters of a string. -/
structure TlvArg where
  type : UInt8
  value : List ℤ
  /-- `qstrcpy` copies the terminator too. -/
  string : Bool
  deriving DecidableEq

namespace TlvArg

def ofByte (type : UInt8) (x : ℤ) : TlvArg := ⟨type, [x], false⟩

def ofString (type : UInt8) (s : CString) : TlvArg := ⟨type, s.chars.map fun c ↦ c.toNat, true⟩

/-- The TLV. -/
def tlv (a : TlvArg) : Tlv := ⟨a.type, a.value.map uchar⟩

/-- What is copied behind it. -/
def tail (a : TlvArg) : List UInt8 := if a.string then [0] else []

/-- All numbers fit in bytes. -/
def InRange (a : TlvArg) : Prop := ∀ x ∈ a.value, 0 ≤ x ∧ x < 256

end TlvArg

/-- Writes a TLV at `pTLV + TLVLength` and adds its size to the `USHORT` `TLVLength`. -/
def setTlv (pTLV : ℕ) (s : List UInt8 × ℕ) (a : TlvArg) : Option (List UInt8 × ℕ) := do
  let buf ← Tlv.write s.1 (pTLV + s.2) a.tlv a.tail
  return (buf, (s.2 + (a.value.length % 2 ^ 16 + Tlv.hdrSize)) % 2 ^ 16)

/-- Writes those of the optional TLVs that there are. -/
def setTlvs (pTLV : ℕ) (s : List UInt8 × ℕ) (args : List (Option TlvArg)) :
    Option (List UInt8 × ℕ) :=
  args.reduceOption.foldlM (setTlv pTLV) s

/-! ## `WdsStartNwInterfaceReq` -/

section StartNwInterface

variable (s_is_cdma : Bool) (s_hdr_personality : ℤ) (profile : Profile)

def emptyString : Option CString → Bool
  | some s => s.chars.isEmpty
  | none => true

/-- `profile_user`, `profile_password` and `profile_auth`. -/
def credentials : Option CString × Option CString × ℤ :=
  if s_is_cdma ∧ emptyString profile.user ∧ emptyString profile.password then
    (some (.ofChars ['c', 't', 'n', 'e', 't', '@', 'm', 'y', 'c', 'd', 'm', 'a', '.', 'c', 'n']
        (by decide +kernel)),
      some (.ofChars ['v', 'n', 'e', 't', '.', 'm', 'o', 'b', 'i'] (by decide +kernel)), 2)
  else (profile.user, profile.password, profile.auth)

/-- The TLVs of a start request, in order. -/
def startNwInterfaceTlvs : List (Option TlvArg) :=
  let (profile_user, profile_password, profile_auth) := credentials s_is_cdma profile
  [ some (.ofByte 0x30 (if s_is_cdma then 0x02 else 0x01)),
    if s_is_cdma then none else profile.apn.map (.ofString 0x14), -- cdma no apn
    profile_user.map (.ofString 0x17),
    profile_password.map (.ofString 0x18),
    if profile_user.isSome ∧ profile_password.isSome then some (.ofByte 0x16 profile_auth)
      else none,
    some (.ofByte 0x19 profile.curIpFamily),
    if profile.profile_index ≠ 0 ∧ ¬s_is_cdma then
      if s_is_cdma ∧ s_hdr_personality = 0x02 then some (.ofByte 0x32 101)
      else some (.ofByte 0x31 profile.profile_index)
    else none ]

/-- `WdsStartNwInterfaceReq` -/
def wdsStartNwInterfaceReq : CustomQmux := fun buf ↦ do
  let buf ← store buf 11 [0, 0] -- `StartNwInterfaceReq.Length`
  let (buf, TLVLength) ← setTlvs hdrsSize (buf, 0)
    (startNwInterfaceTlvs s_is_cdma s_hdr_personality profile)
  return (buf, (4 + TLVLength) % 2 ^ 16)

end StartNwInterface

/-! ## `WdsModifyProfileSettingsReq` -/

/-- The optional TLVs of a modify request, in order. -/
def modifyProfileSettingsTlvs (profile : Profile) : List (Option TlvArg) :=
  [ some (.ofByte 0x11 profile.iptype),
    profile.apn.map (.ofString 0x14),
    profile.user.map (.ofString 0x1B),
    profile.password.map (.ofString 0x1C),
    if profile.user.isSome ∧ profile.password.isSome then some (.ofByte 0x1D profile.auth)
    else none ]

/-- `WdsModifyProfileSettingsReq` -/
def wdsModifyProfileSettingsReq (profile : Profile) : CustomQmux := fun buf ↦ do
  let buf ← store buf 11 (toLe16 (9 - 4)) -- `ModifyProfileSettingsReq.Length`
  -- `ProfileType` and `ProfileIndex`
  let buf ← Tlv.write buf hdrsSize ⟨0x01, [0x00, uchar profile.profile_index]⟩ []
  let (buf, TLVLength) ← setTlvs (hdrsSize + 5) (buf, 0) (modifyProfileSettingsTlvs profile)
  return (buf, (9 + TLVLength) % 2 ^ 16)

/-! ## What the TLVs need -/

/-- The room taken by TLVs: after the last one stands its tail. -/
def need : List TlvArg → ℕ
  | [] => 0
  | [a] => a.tlv.size + a.tail.length
  | a :: b :: args => a.tlv.size + need (b :: args)

section Need

variable {pTLV : ℕ} {s : List UInt8 × ℕ} {record : List UInt8} {a : TlvArg} {args : List TlvArg}

theorem length_tail_le (a : TlvArg) : a.tail.length ≤ 1 := by
  unfold TlvArg.tail
  split
  · exact Nat.le_refl _
  · exact Nat.zero_le _

theorem size_le_need (a : TlvArg) (args : List TlvArg) :
    a.tlv.size + a.tail.length ≤ need (a :: args) := by
  cases args with
  | nil => exact Nat.le_refl _
  | cons b args =>
    have htail : a.tail.length ≤ need (b :: args) := by
      refine Nat.le_trans (length_tail_le a) ?_
      cases args with
      | nil =>
        change 1 ≤ 3 + _ + _
        omega
      | cons c args =>
        change 1 ≤ 3 + _ + _
        omega
    exact Nat.add_le_add_left htail _

theorem need_cons_le (a : TlvArg) (args : List TlvArg) :
    a.tlv.size + need args ≤ need (a :: args) := by
  cases args with
  | nil => exact Nat.le_add_right _ _
  | cons b args => exact Nat.le_refl _

/-- What does not fit with the first TLV and its tail does not fit behind it. -/
theorem need_cons (a : TlvArg) (args : List TlvArg) :
    need (a :: args) = a.tlv.size + a.tail.length ∨ need (a :: args) = a.tlv.size + need args := by
  cases args with
  | nil => exact .inl rfl
  | cons b args => exact .inr rfl

theorem sizeAll_le_need (args : List TlvArg) : Tlv.sizeAll (args.map TlvArg.tlv) ≤ need args := by
  induction args with
  | nil => exact Nat.le_refl _
  | cons a args ih => exact Nat.le_trans (Nat.add_le_add_left ih _) (need_cons_le a args)

theorem setTlv_eq_none (hoff : pTLV + s.2 = record.length)
    (h : s.1.length < record.length + a.tlv.size + a.tail.length) : setTlv pTLV s a = none := by
  unfold setTlv
  rw [Tlv.write_eq_none (by rwa [hoff])]
  rfl

/-- A TLV that fits extends the record, and `TLVLength` follows. -/
theorem setTlv_prefix (hrecord : record <+: s.1) (hoff : pTLV + s.2 = record.length)
    (hfit : record.length + a.tlv.size + a.tail.length ≤ s.1.length)
    (hsmall : s.1.length < 2 ^ 16) :
    ∃ buf, setTlv pTLV s a = some (buf, s.2 + a.tlv.size) ∧ buf.length = s.1.length ∧
      record ++ a.tlv.encode <+: buf := by
  obtain ⟨buf, hwrite, hpre⟩ := Tlv.write_prefix a.tlv a.tail hrecord hoff (by rwa [hoff])
  have hvalue : a.tlv.value.length = a.value.length := List.length_map _
  have hsize : (s.2 + (a.value.length % 2 ^ 16 + Tlv.hdrSize)) % 2 ^ 16 = s.2 + a.tlv.size := by
    simp only [Tlv.size, Tlv.hdrSize, hvalue] at hfit ⊢
    omega
  refine ⟨buf, ?_, Tlv.length_of_write hwrite, hpre⟩
  rw [setTlv, hwrite, ← hsize]
  rfl

/-- TLVs that fit are written one behind the other. -/
theorem foldlM_setTlv (hsmall : s.1.length < 2 ^ 16) (hrecord : record <+: s.1)
    (hoff : pTLV + s.2 = record.length) (hfit : record.length + need args ≤ s.1.length) :
    ∃ buf, args.foldlM (setTlv pTLV) s = some (buf, s.2 + Tlv.sizeAll (args.map TlvArg.tlv)) ∧
      record ++ Tlv.encodeAll (args.map TlvArg.tlv) <+: buf := by
  induction args generalizing s record with
  | nil => exact ⟨s.1, rfl, by simpa [Tlv.encodeAll] using hrecord⟩
  | cons a args ih =>
    have hhead := size_le_need a args
    have htail := need_cons_le a args
    obtain ⟨buf, hset, hlen, hpre⟩ := setTlv_prefix (a := a) hrecord hoff (by omega) hsmall
    have hnext : (record ++ a.tlv.encode).length = record.length + a.tlv.size := by
      rw [List.length_append, Tlv.length_encode]
    obtain ⟨buf', hsets, hpre'⟩ := ih (s := (buf, s.2 + a.tlv.size)) (by rwa [hlen]) hpre
      (by rw [hnext, ← hoff]; exact (Nat.add_assoc _ _ _).symm)
      (by rw [hnext, hlen]; omega)
    refine ⟨buf', ?_, ?_⟩
    · rw [List.foldlM_cons, hset]
      change args.foldlM (setTlv pTLV) _ = _
      rw [hsets, Nat.add_assoc]
      rfl
    · simpa [Tlv.encodeAll] using hpre'

/-- TLVs that do not fit leave the buffer. -/
theorem foldlM_setTlv_eq_none (hsmall : s.1.length < 2 ^ 16) (hrecord : record <+: s.1)
    (hoff : pTLV + s.2 = record.length) (h : s.1.length < record.length + need args) :
    args.foldlM (setTlv pTLV) s = none := by
  induction args generalizing s record with
  | nil => exact absurd h (Nat.not_lt.mpr hrecord.length_le)
  | cons a args ih =>
    rw [List.foldlM_cons]
    by_cases hfit : record.length + a.tlv.size + a.tail.length ≤ s.1.length
    · obtain ⟨buf, hset, hlen, hpre⟩ := setTlv_prefix hrecord hoff hfit hsmall
      have hnext : (record ++ a.tlv.encode).length = record.length + a.tlv.size := by
        rw [List.length_append, Tlv.length_encode]
      rw [hset]
      change args.foldlM (setTlv pTLV) _ = _
      apply ih (s := (buf, s.2 + a.tlv.size)) (by rwa [hlen]) hpre
      · rw [hnext, ← hoff]
        exact (Nat.add_assoc _ _ _).symm
      · rw [hnext, hlen]
        obtain hneed | hneed := need_cons a args
        · omega
        · omega
    · rw [setTlv_eq_none hoff (Nat.not_le.mp hfit)]
      rfl

end Need

/-! ## What the requests pack -/

/-- A callback that writes the TLVs behind the headers if there is room for them, and that leaves
the buffer otherwise. -/
def Packs (f : CustomQmux) (args : List TlvArg) : Prop :=
  ∀ hdrs buf : List UInt8, hdrs.length = 11 → hdrs <+: buf → buf.length = wdmDefaultBufsize →
    if hdrsSize + need args ≤ wdmDefaultBufsize then
      ∃ buf' lengths, f buf = some (buf', 4 + Tlv.sizeAll (args.map TlvArg.tlv)) ∧
        lengths.length = 2 ∧ hdrs ++ lengths ++ Tlv.encodeAll (args.map TlvArg.tlv) <+: buf'
    else f buf = none

/-- The TLVs of a start request. -/
def startNwInterfaceArgs (s_is_cdma : Bool) (s_hdr_personality : ℤ) (profile : Profile) :
    List TlvArg :=
  (startNwInterfaceTlvs s_is_cdma s_hdr_personality profile).reduceOption

/-- The TLVs of a modify request: the fixed part of the message is one TLV. -/
def modifyProfileSettingsArgs (profile : Profile) : List TlvArg :=
  ⟨0x01, [0, profile.profile_index], false⟩ :: (modifyProfileSettingsTlvs profile).reduceOption

/-- How both callbacks end: the TLVs are written behind what is there, and their size is added. -/
theorem setTlvs_return {pTLV : ℕ} {record buf : List UInt8} (fixed : ℕ)
    (opts : List (Option TlvArg)) (hrecord : record <+: buf) (hoff : pTLV = record.length)
    (hbuf : buf.length = wdmDefaultBufsize)
    (hfixed : fixed ≤ pTLV) :
    if record.length + need opts.reduceOption ≤ wdmDefaultBufsize then
      ∃ buf', ((setTlvs pTLV (buf, 0) opts).bind fun s ↦ some (s.1, (fixed + s.2) % 2 ^ 16)) =
          some (buf', fixed + Tlv.sizeAll (opts.reduceOption.map TlvArg.tlv)) ∧
        record ++ Tlv.encodeAll (opts.reduceOption.map TlvArg.tlv) <+: buf'
    else
      ((setTlvs pTLV (buf, 0) opts).bind fun s ↦ some (s.1, (fixed + s.2) % 2 ^ 16)) = none := by
  have hsmall : buf.length < 2 ^ 16 := by
    rw [hbuf]
    decide
  split
  case isTrue hroom =>
    obtain ⟨buf', hsets, hpre⟩ := foldlM_setTlv (s := (buf, 0)) hsmall hrecord hoff
      (by rw [hbuf]; exact hroom)
    refine ⟨buf', ?_, hpre⟩
    have hsize := sizeAll_le_need opts.reduceOption
    have hmod : (fixed + (0 + Tlv.sizeAll (opts.reduceOption.map TlvArg.tlv))) % 2 ^ 16 =
        fixed + Tlv.sizeAll (opts.reduceOption.map TlvArg.tlv) := by
      simp only [wdmDefaultBufsize] at hroom
      omega
    rw [setTlvs, hsets, Option.bind_some, hmod]
  case isFalse hroom =>
    rw [setTlvs, foldlM_setTlv_eq_none (s := (buf, 0)) hsmall hrecord hoff
      (by rw [hbuf]; exact Nat.not_le.mp hroom), Option.bind_none]

theorem wdsStartNwInterfaceReq_packs (s_is_cdma : Bool) (s_hdr_personality : ℤ)
    (profile : Profile) : Packs (wdsStartNwInterfaceReq s_is_cdma s_hdr_personality profile)
      (startNwInterfaceArgs s_is_cdma s_hdr_personality profile) := by
  intro hdrs buf hhdrs hpre hbuf
  obtain ⟨buf₁, hstore, hpre₁⟩ := store_prefix [0, 0] hpre hhdrs.symm
    (by rw [hbuf]; decide)
  have hlen : (hdrs ++ [0, 0]).length = hdrsSize := by
    rw [List.length_append, hhdrs]
    rfl
  have hend := setTlvs_return 4 (startNwInterfaceTlvs s_is_cdma s_hdr_personality profile) hpre₁
    hlen.symm
    (by rw [length_of_store hstore, hbuf]) (by decide)
  have hreq : wdsStartNwInterfaceReq s_is_cdma s_hdr_personality profile buf =
      (setTlvs hdrsSize (buf₁, 0) (startNwInterfaceTlvs s_is_cdma s_hdr_personality profile)).bind
        fun s ↦ some (s.1, (4 + s.2) % 2 ^ 16) := by
    rw [wdsStartNwInterfaceReq, hstore]
    rfl
  rw [hreq, startNwInterfaceArgs]
  rw [hlen] at hend
  split
  case isTrue hroom =>
    rw [if_pos hroom] at hend
    obtain ⟨buf', hsets, hpre'⟩ := hend
    exact ⟨buf', [0, 0], hsets, rfl, hpre'⟩
  case isFalse hroom => rwa [if_neg hroom] at hend

theorem need_modifyProfileSettingsArgs (profile : Profile) :
    need (modifyProfileSettingsArgs profile) =
      5 + need (modifyProfileSettingsTlvs profile).reduceOption := by
  rw [modifyProfileSettingsArgs, modifyProfileSettingsTlvs]
  rfl

theorem wdsModifyProfileSettingsReq_packs (profile : Profile) :
    Packs (wdsModifyProfileSettingsReq profile) (modifyProfileSettingsArgs profile) := by
  intro hdrs buf hhdrs hpre hbuf
  obtain ⟨buf₁, hstore, hpre₁⟩ := store_prefix (toLe16 (9 - 4)) hpre hhdrs.symm
    (by rw [hbuf]; decide)
  have hlen₁ : (hdrs ++ toLe16 (9 - 4)).length = hdrsSize := by
    rw [List.length_append, hhdrs]
    rfl
  obtain ⟨buf₂, hwrite, hpre₂⟩ := Tlv.write_prefix
    ⟨0x01, [0x00, uchar profile.profile_index]⟩ [] hpre₁ hlen₁.symm
    (by
      rw [length_of_store hstore, hbuf]
      change 13 + 5 + 0 ≤ 256
      omega)
  have hlen₂ : (hdrs ++ toLe16 (9 - 4) ++
      Tlv.encode ⟨0x01, [0x00, uchar profile.profile_index]⟩).length = hdrsSize + 5 := by
    rw [List.length_append, hlen₁, Tlv.length_encode]
    rfl
  have hend := setTlvs_return 9 (modifyProfileSettingsTlvs profile) hpre₂
    hlen₂.symm (by rw [Tlv.length_of_write hwrite, length_of_store hstore, hbuf]) (by decide)
  have hreq : wdsModifyProfileSettingsReq profile buf =
      (setTlvs (hdrsSize + 5) (buf₂, 0) (modifyProfileSettingsTlvs profile)).bind
        fun s ↦ some (s.1, (9 + s.2) % 2 ^ 16) := by
    rw [wdsModifyProfileSettingsReq, hstore]
    change (Tlv.write buf₁ hdrsSize _ [] >>= _) = _
    rw [hwrite]
    rfl
  rw [hlen₂] at hend
  rw [hreq, need_modifyProfileSettingsArgs, ← Nat.add_assoc]
  split
  case isTrue hroom =>
    rw [if_pos hroom] at hend
    obtain ⟨buf', hsets, hpre'⟩ := hend
    refine ⟨buf', toLe16 (9 - 4), ?_, rfl, ?_⟩
    · rw [hsets]
      have hsize : Tlv.sizeAll ((modifyProfileSettingsArgs profile).map TlvArg.tlv) =
          5 + Tlv.sizeAll ((modifyProfileSettingsTlvs profile).reduceOption.map TlvArg.tlv) := rfl
      rw [hsize, ← Nat.add_assoc]
    · have hbody : Tlv.encodeAll ((modifyProfileSettingsArgs profile).map TlvArg.tlv) =
          Tlv.encode ⟨0x01, [0x00, uchar profile.profile_index]⟩ ++
            Tlv.encodeAll ((modifyProfileSettingsTlvs profile).reduceOption.map TlvArg.tlv) := rfl
      rwa [hbody, ← List.append_assoc]
  case isFalse hroom => rwa [if_neg hroom] at hend

/-! ## The composed requests -/

/-- The message is composed if there is room for it, and the buffer is left otherwise. -/
theorem composeQMUXMsg_packs {f : CustomQmux} {args : List TlvArg} (hf : Packs f args)
    (TransactionId type : ℕ) (malloc : Bool) (QMIType : UInt8) :
    composeQMUXMsg TransactionId malloc QMIType type (some f) =
      if hdrsSize + need args ≤ wdmDefaultBufsize then
        some (if malloc then some (composedMsg QMIType TransactionId type
          (Tlv.encodeAll (args.map TlvArg.tlv))) else none)
      else none := by
  have hbuf := hf (composedHdrs QMIType TransactionId type)
    (composedHdrs QMIType TransactionId type ++
      List.replicate (wdmDefaultBufsize - 11) 0) rfl (List.prefix_append _ _)
    (by rw [List.length_append, List.length_replicate]; rfl)
  rw [composeQMUXMsg, composeHdrs_eq]
  change (CustomQmux.call (some f) _ >>= fun r ↦ composeLengths malloc r.1 r.2) = _
  split
  case isTrue hroom =>
    rw [if_pos hroom] at hbuf
    obtain ⟨buf', lengths, hret, hlengths, hpre⟩ := hbuf
    have hsize := sizeAll_le_need args
    simp only [hdrsSize, wdmDefaultBufsize] at hroom
    have hLength : (4 + Tlv.sizeAll (args.map TlvArg.tlv) + 2 ^ 16 - 4) % 2 ^ 16 =
        (Tlv.encodeAll (args.map TlvArg.tlv)).length := by
      rw [Tlv.length_encodeAll]
      omega
    rw [CustomQmux.call, hret]
    change composeLengths malloc buf' ((4 + _ + 2 ^ 16 - 4) % 2 ^ 16) = _
    rw [hLength]
    exact composeLengths_eq _ _ _ hpre hlengths (by rw [Tlv.length_encodeAll]; omega)
  case isFalse hroom =>
    rw [if_neg hroom] at hbuf
    rw [CustomQmux.call, hbuf]
    rfl

/-- The value that was put in for a type, if any. -/
def putIn (args : List TlvArg) (TLVType : ℕ) : Option (List ℤ) :=
  (args.find? fun a ↦ a.type.toNat = TLVType).map TlvArg.value

/-- The numbers in the TLV that `GetTLV` finds in a message. -/
def readBack (msg : List UInt8) (TLVType : ℕ) : Option (Option (List ℤ)) :=
  (getTLV msg TLVType).value.map fun v ↦ v.map fun bytes ↦ bytes.map fun b ↦ (b.toNat : ℤ)

/-- What is expected of a composed request: the buffer is not left, and in the message, if there is
one, both lengths agree with the bytes and every type gives what was put in. -/
def RoundTrip (request : Option (Option (List UInt8))) (args : List TlvArg) : Prop :=
  ∃ pRequest, request = some pRequest ∧ ∀ msg, pRequest = some msg →
    qmiHdrLength msg + 1 = msg.length ∧ hdrsSize + qmuxMsgHdrLength msg = msg.length ∧
      ∀ TLVType ≤ 0x1000, readBack msg TLVType = some (putIn args TLVType)

section RoundTrip

variable {args : List TlvArg}

theorem toNat_uchar (x : ℤ) : ((uchar x).toNat : ℤ) = x % 256 := by
  have hmod : (uchar x).toNat = (x % 256).toNat := by
    rw [uchar, UInt8.toNat_ofNat']
    omega
  omega

/-- Of what is put in, the message has the remainders. -/
theorem lookup_args (args : List TlvArg) (TLVType : ℕ) :
    (Tlv.lookup TLVType (args.map TlvArg.tlv)).map (fun bytes ↦ bytes.map fun b ↦ (b.toNat : ℤ)) =
      (putIn args TLVType).map fun value ↦ value.map (· % 256) := by
  induction args with
  | nil => rfl
  | cons a args ih =>
    rw [List.map_cons, Tlv.lookup, putIn, List.find?_cons]
    by_cases htype : a.type.toNat = TLVType
    · have htlv : a.tlv.type.toNat = TLVType := htype
      rw [if_pos htlv, decide_eq_true htype]
      simp [TlvArg.tlv, toNat_uchar]
    · have htlv : a.tlv.type.toNat ≠ TLVType := htype
      rw [if_neg htlv, decide_eq_false htype]
      exact ih

theorem putIn_eq_some {TLVType : ℕ} {value : List ℤ} (h : putIn args TLVType = some value) :
    ∃ a ∈ args, a.value = value := by
  obtain ⟨a, ha, rfl⟩ := Option.map_eq_some_iff.mp h
  exact ⟨a, List.mem_of_find?_eq_some ha, rfl⟩

/-- When no type comes twice, every TLV is found by its type. -/
theorem putIn_of_mem (hnodup : (args.map TlvArg.type).Nodup) {a : TlvArg} (ha : a ∈ args) :
    putIn args a.type.toNat = some a.value := by
  induction args with
  | nil => cases ha
  | cons b args ih =>
    rw [List.map_cons, List.nodup_cons] at hnodup
    rw [putIn, List.find?_cons]
    by_cases htype : b.type.toNat = a.type.toNat
    · rw [decide_eq_true htype]
      cases ha with
      | head => rfl
      | tail _ ha =>
        exfalso
        apply hnodup.1
        rw [UInt8.toNat_inj.mp htype]
        exact List.mem_map_of_mem ha
    · rw [decide_eq_false htype]
      cases ha with
      | head => exact absurd rfl htype
      | tail _ ha => exact ih hnodup.2 ha

theorem map_emod_eq {value : List ℤ} :
    value.map (· % 256) = value ↔ ∀ x ∈ value, 0 ≤ x ∧ x < 256 := by
  induction value with
  | nil => simp
  | cons x value ih =>
    rw [List.map_cons, List.cons.injEq, List.forall_mem_cons, ih]
    have hx : x % 256 = x ↔ 0 ≤ x ∧ x < 256 := by omega
    rw [hx]

/-- Everything is read back as it was put in, exactly if it fits in bytes. -/
theorem putIn_emod_iff (hnodup : (args.map TlvArg.type).Nodup) :
    (∀ TLVType ≤ 0x1000, (putIn args TLVType).map (fun value ↦ value.map (· % 256)) =
        putIn args TLVType) ↔ ∀ a ∈ args, a.InRange := by
  constructor
  · intro h a ha
    have hread := h a.type.toNat (Nat.le_trans (Nat.le_of_lt a.type.toNat_lt) (by decide))
    rw [putIn_of_mem hnodup ha] at hread
    exact map_emod_eq.mp (Option.some.inj hread)
  · intro h TLVType _
    cases hvalue : putIn args TLVType with
    | none => rfl
    | some value =>
      obtain ⟨a, ha, rfl⟩ := putIn_eq_some hvalue
      exact congrArg some (map_emod_eq.mpr (h a ha))

/-- A composed request is read back exactly if there is room for it and its numbers are bytes. -/
theorem roundTrip_iff {f : CustomQmux} (hf : Packs f args) (hnodup : (args.map TlvArg.type).Nodup)
    (TransactionId type : ℕ) (malloc : Bool) (QMIType : UInt8) :
    RoundTrip (composeQMUXMsg TransactionId malloc QMIType type (some f)) args ↔
      hdrsSize + need args ≤ wdmDefaultBufsize ∧ (malloc → ∀ a ∈ args, a.InRange) := by
  rw [composeQMUXMsg_packs hf]
  split
  case isFalse hroom =>
    constructor
    · rintro ⟨pRequest, hnone, -⟩
      cases hnone
    · rintro ⟨hfits, -⟩
      exact absurd hfits hroom
  case isTrue hroom =>
    have hsize := sizeAll_le_need args
    have hsmall : Tlv.sizeAll (args.map TlvArg.tlv) + 12 < 2 ^ 16 := by
      simp only [hdrsSize, wdmDefaultBufsize] at hroom
      omega
    have hbody : (Tlv.encodeAll (args.map TlvArg.tlv)).length + 12 < 2 ^ 16 := by
      rwa [Tlv.length_encodeAll]
    have hread : ∀ TLVType ≤ 0x1000, readBack (composedMsg QMIType TransactionId type
        (Tlv.encodeAll (args.map TlvArg.tlv))) TLVType =
          some ((putIn args TLVType).map fun value ↦ value.map (· % 256)) := by
      intro TLVType htype
      rw [readBack, getTLV_composedMsg htype _ hsmall, Option.map_some, lookup_args]
    rw [← putIn_emod_iff hnodup]
    constructor
    · rintro ⟨pRequest, hrequest, hmsg⟩
      refine ⟨hroom, fun hmalloc TLVType htype ↦ ?_⟩
      rw [if_pos hmalloc] at hrequest
      have hback := (hmsg _ (Option.some.inj hrequest).symm).2.2 TLVType htype
      rw [hread TLVType htype] at hback
      exact Option.some.inj hback
    · rintro ⟨-, hvalues⟩
      refine ⟨_, rfl, fun msg hmsg ↦ ?_⟩
      split at hmsg
      case isFalse => cases hmsg
      case isTrue hmalloc =>
        obtain rfl := Option.some.inj hmsg
        refine ⟨?_, ?_, fun TLVType htype ↦ ?_⟩
        · rw [qmiHdrLength_composedMsg hbody, length_composedMsg, hdrsSize]
          omega
        · rw [qmuxMsgHdrLength_composedMsg hbody, length_composedMsg]
        · rw [hread TLVType htype, hvalues hmalloc TLVType htype]

end RoundTrip

/-- Optional TLVs of different types. -/
theorem nodup_reduceOption {opts : List (Option TlvArg)} {types : List UInt8}
    (h : List.Forall₂ (fun o t ↦ ∀ a ∈ o, a.type = t) opts types) (hnodup : types.Nodup) :
    (opts.reduceOption.map TlvArg.type).Nodup := by
  refine List.Nodup.sublist ?_ hnodup
  clear hnodup
  induction h with
  | nil => exact List.Sublist.slnil
  | @cons o t opts types ho _ ih =>
    cases o with
    | none => exact ih.cons t
    | some a =>
      rw [List.reduceOption_cons_of_some, List.map_cons, ho a rfl]
      exact ih.cons_cons t

theorem type_ofByte {c : Prop} [Decidable c] {type : UInt8} {x : ℤ} :
    ∀ a ∈ if c then some (TlvArg.ofByte type x) else none, a.type = type := by
  intro a ha
  split at ha
  · rw [← Option.some.inj ha]
    rfl
  · cases ha

theorem type_ofString {type : UInt8} {s : Option CString} :
    ∀ a ∈ s.map (TlvArg.ofString type), a.type = type := by
  rintro a ha
  obtain ⟨s, -, rfl⟩ := Option.map_eq_some_iff.mp ha
  rfl

theorem startNwInterfaceArgs_nodup (s_is_cdma : Bool) (s_hdr_personality : ℤ) (profile : Profile) :
    ((startNwInterfaceArgs s_is_cdma s_hdr_personality profile).map TlvArg.type).Nodup := by
  have htypes : List.Forall₂ (fun o t ↦ ∀ a ∈ o, a.type = t)
      (startNwInterfaceTlvs s_is_cdma s_hdr_personality profile)
      [0x30, 0x14, 0x17, 0x18, 0x16, 0x19, 0x31] := by
    rw [startNwInterfaceTlvs]
    obtain ⟨profile_user, profile_password, profile_auth⟩ := credentials s_is_cdma profile
    refine .cons ?_ (.cons ?_ (.cons type_ofString (.cons type_ofString (.cons type_ofByte
      (.cons ?_ (.cons ?_ .nil))))))
    · rintro a ⟨⟩
      rfl
    · intro a ha
      split at ha
      · cases ha
      · exact type_ofString a ha
    · rintro a ⟨⟩
      rfl
    · intro a ha
      split at ha
      case isTrue hindex =>
        rw [if_neg fun h ↦ hindex.2 h.1] at ha
        rw [← Option.some.inj ha]
        rfl
      case isFalse => cases ha
  exact nodup_reduceOption htypes (by decide)

theorem modifyProfileSettingsArgs_nodup (profile : Profile) :
    ((modifyProfileSettingsArgs profile).map TlvArg.type).Nodup := by
  have htypes : List.Forall₂ (fun o t ↦ ∀ a ∈ o, a.type = t)
      (some ⟨0x01, [0, profile.profile_index], false⟩ :: modifyProfileSettingsTlvs profile)
      [0x01, 0x11, 0x14, 0x1B, 0x1C, 0x1D] := by
    refine .cons ?_ (.cons ?_ (.cons type_ofString (.cons type_ofString (.cons type_ofString
      (.cons type_ofByte .nil)))))
    · rintro a ⟨⟩
      rfl
    · rintro a ⟨⟩
      rfl
  exact nodup_reduceOption htypes (by decide)

/-- When a request can be composed: the TLVs fit in the buffer together with the tail of the last
one, and (if there is a message) the numbers fit in bytes. -/
def Composable (malloc : Bool) (args : List TlvArg) : Prop :=
  hdrsSize + need args ≤ wdmDefaultBufsize ∧ (malloc → ∀ a ∈ args, a.InRange)

/-- `QMIWDS_START_NETWORK_INTERFACE_REQ` -/
def qmiwdsStartNetworkInterfaceReq : ℕ := 0x0020

/-- `QMIWDS_MODIFY_PROFILE_SETTINGS_REQ` -/
def qmiwdsModifyProfileSettingsReq : ℕ := 0x0028

/-- Both requests are read back as they were put in exactly if they can be composed. -/
theorem wdsRequests_roundTrip_iff (s_is_cdma : Bool) (s_hdr_personality : ℤ) (profile : Profile)
    (TransactionId : ℕ) (malloc : Bool) (QMIType : UInt8) :
    (RoundTrip (composeQMUXMsg TransactionId malloc QMIType
          qmiwdsStartNetworkInterfaceReq
          (some (wdsStartNwInterfaceReq s_is_cdma s_hdr_personality profile)))
        (startNwInterfaceArgs s_is_cdma s_hdr_personality profile) ↔
      Composable malloc (startNwInterfaceArgs s_is_cdma s_hdr_personality profile)) ∧
    (RoundTrip (composeQMUXMsg TransactionId malloc QMIType
          qmiwdsModifyProfileSettingsReq (some (wdsModifyProfileSettingsReq profile)))
        (modifyProfileSettingsArgs profile) ↔
      Composable malloc (modifyProfileSettingsArgs profile)) := by
  constructor
  · exact roundTrip_iff (wdsStartNwInterfaceReq_packs _ _ _) (startNwInterfaceArgs_nodup _ _ _)
      TransactionId _ malloc QMIType
  · exact roundTrip_iff (wdsModifyProfileSettingsReq_packs _) (modifyProfileSettingsArgs_nodup _)
      TransactionId _ malloc QMIType

/-- `-s` with an APN of 219 characters. -/
def longApn : Profile where
  apn := some ⟨List.replicate 219 0x61, fun c hc ↦ by rw [List.eq_of_mem_replicate hc]; decide⟩
  user := some ⟨[], fun c hc ↦ by cases hc⟩
  password := some ⟨[], fun c hc ↦ by cases hc⟩
  auth := 0
  iptype := 0
  profile_index := 1
  curIpFamily := 0x04

theorem longApn_not_roundTrip :
    ¬RoundTrip (composeQMUXMsg 1 true 0x01 qmiwdsStartNetworkInterfaceReq
        (some (wdsStartNwInterfaceReq false 0 longApn)))
      (startNwInterfaceArgs false 0 longApn) := by
  rw [roundTrip_iff (wdsStartNwInterfaceReq_packs _ _ _) (startNwInterfaceArgs_nodup _ _ _)]
  rintro ⟨hroom, -⟩
  simp [-List.reduceReplicate, startNwInterfaceArgs, startNwInterfaceTlvs, credentials, longApn,
    need, TlvArg.ofByte, TlvArg.ofString, TlvArg.tlv, TlvArg.tail, Tlv.size, Tlv.hdrSize,
    hdrsSize, wdmDefaultBufsize] at hroom

end Wwan.QuectelCm
