import Wwan.GobiNet.GetTlv
import Wwan.Lib.Program

/-!
# Responses

The parsers of responses leave out the headers, check the message and copy the values of TLVs to
the caller. All of them look for TLVs with `GetTLV`, which trusts the lengths in the message: a
value may be copied from behind the end, and the position, an `u16`, may come back to where it was.
A parser is a program here that asks for lookups, so that what is proved of a lookup holds for
every parser.
-/

namespace Wwan.GobiNet

open Bytes Relation

/-- `-EFAULT` -/
def efault : ℤ := -14

/-- `-ENODATA` -/
def enodata : ℤ := -61

/-! ## Parsers -/

/-- The arguments of a call of `GetTLV`. -/
structure Lookup where
  type : UInt8
  bufferLen : ℕ
  deriving DecidableEq

/-- What a parser does with a message. -/
abbrev LookupProg := Prog Lookup fun _ ↦ TlvCopy

/-- A call of `GetTLV`. -/
def lookup (type : UInt8) (bufferLen : ℕ) : LookupProg TlvCopy := .op ⟨type, bufferLen⟩ .ret

/-- What is in a variable after a copy to it. -/
def overwrite (old copied : List UInt8) : List UInt8 := copied ++ old.drop copied.length

/-- A value is copied to a variable. -/
def lookupTo (type : UInt8) (bufferLen : ℕ) (old : List UInt8) : LookupProg (List UInt8) := do
  let r ← lookup type bufferLen
  return overwrite old r.copied

/-- `GetQMIMessageID` -/
def getQMIMessageID (pQMIMessage : List UInt8) : ℤ :=
  if pQMIMessage.length < 2 then enodata
  else le16 (pQMIMessage.getD 0 0) (pQMIMessage.getD 1 0)

/-- `ValidQMIMessage` -/
def validQMIMessage : LookupProg ℤ := do
  let r ← lookup 2 4
  if r.ret = 4 then
    if le16 (r.copied.getD 0 0) (r.copied.getD 1 0) ≠ 0 then
      return le16 (r.copied.getD 2 0) (r.copied.getD 3 0)
    else return 0
  else return enomsg

/-- A parser: the size of the QMUX header and the SDU, what it gives for a buffer without these,
and what it does with the message behind them. -/
structure Parser (α : Type) where
  offset : ℕ
  short : α
  parse : List UInt8 → LookupProg α

/-- `sizeof( sQMUX )` -/
def sQMUXSize : ℕ := 6

/-- `QMICTLGetClientIDResp`: what it returns, and what it has copied to `pClientID`. -/
def qmiCtlGetClientIDResp : Parser (ℤ × List UInt8) where
  offset := sQMUXSize + 2
  short := (enomem, [])
  parse pBuffer := do
    if getQMIMessageID pBuffer ≠ 0x22 then return (efault, [])
    let result ← validQMIMessage
    if result ≠ 0 then return (efault, [])
    let r ← lookup 0x01 2
    if r.ret ≠ 2 then return (efault, r.copied)
    return (0, r.copied)

/-- The variables of `QMIWDSEventResp`, the counters byte by byte. -/
structure WdsEvent where
  pTXOk : List UInt8
  pRXOk : List UInt8
  pTXErr : List UInt8
  pRXErr : List UInt8
  pTXOfl : List UInt8
  pRXOfl : List UInt8
  pTXBytesOk : List UInt8
  pRXBytesOk : List UInt8
  pbLinkState : Bool
  pbReconfigure : Bool

/-- `QMIWDSEventResp` -/
def qmiWdsEventResp (e : WdsEvent) : Parser (ℤ × WdsEvent) where
  offset := sQMUXSize + 3
  short := (enomem, e)
  parse pBuffer := do
    let result := getQMIMessageID pBuffer
    if result = 0x01 then
      let pTXOk ← lookupTo 0x10 4 e.pTXOk
      let pRXOk ← lookupTo 0x11 4 e.pRXOk
      let pTXErr ← lookupTo 0x12 4 e.pTXErr
      let pRXErr ← lookupTo 0x13 4 e.pRXErr
      let pTXOfl ← lookupTo 0x14 4 e.pTXOfl
      let pRXOfl ← lookupTo 0x15 4 e.pRXOfl
      let pTXBytesOk ← lookupTo 0x19 8 e.pTXBytesOk
      let pRXBytesOk ← lookupTo 0x1A 8 e.pRXBytesOk
      return (0, ⟨pTXOk, pRXOk, pTXErr, pRXErr, pTXOfl, pRXOfl, pTXBytesOk, pRXBytesOk,
        e.pbLinkState, e.pbReconfigure⟩)
    else if result = 0x22 then
      let r ← lookup 0x01 2
      let pbLinkState := if 1 ≤ r.ret then r.copied.getD 0 0 = 0x02 else e.pbLinkState
      let pbReconfigure := if r.ret = 2 then r.copied.getD 1 0 = 0x01 else e.pbReconfigure
      let e := { e with pbLinkState := pbLinkState, pbReconfigure := pbReconfigure }
      if r.ret < 0 then return (r.ret, e)
      return (0, e)
    else return (efault, e)

/-- `QMIDMSGetMEIDResp`: what it returns, and what it has copied to `pMEID`. -/
def qmiDmsGetMEIDResp (meidSize : ℤ) : Parser (ℤ × List UInt8) where
  offset := sQMUXSize + 3
  short := (enomem, [])
  parse pBuffer := do
    if meidSize < 14 then return (enomem, [])
    if getQMIMessageID pBuffer ≠ 0x25 then return (efault, [])
    let result ← validQMIMessage
    if result ≠ 0 then return (efault, [])
    let r ← lookup 0x12 14
    if r.ret ≠ 14 then return (efault, r.copied)
    return (0, r.copied)

/-- `QMAP_SETTING`, byte by byte. -/
structure QmapSetting where
  ul_data_aggregation_max_datagrams : List UInt8
  ul_data_aggregation_max_size : List UInt8
  dl_data_aggregation_max_datagrams : List UInt8
  dl_data_aggregation_max_size : List UInt8
  dl_minimum_padding : List UInt8

/-- The variables of `QMIWDASetDataFormatResp`, byte by byte. -/
structure DataFormat where
  qmap_version : List UInt8
  rx_size : List UInt8
  tx_size : List UInt8
  set : Option QmapSetting

/-- The part of `QMIWDASetDataFormatResp` for `set`. -/
def lookupSetting (set : QmapSetting) : LookupProg QmapSetting := do
  let dl_datagrams ← lookupTo 0x15 4 set.dl_data_aggregation_max_datagrams
  let dl_size ← lookupTo 0x16 4 set.dl_data_aggregation_max_size
  let ul_datagrams ← lookupTo 0x17 4 set.ul_data_aggregation_max_datagrams
  let ul_size ← lookupTo 0x18 4 set.ul_data_aggregation_max_size
  let padding ← lookupTo 0x1a 4 set.dl_minimum_padding
  return ⟨ul_datagrams, ul_size, dl_datagrams, dl_size, padding⟩

/-- `QMIWDASetDataFormatResp` -/
def qmiWdaSetDataFormatResp (bRawIPMode : Bool) (f : DataFormat) : Parser (ℤ × DataFormat) where
  offset := sQMUXSize + 3
  short := (enomem, f)
  parse pBuffer := do
    if getQMIMessageID pBuffer ≠ 0x20 then return (efault, f)
    let result ← validQMIMessage
    if result ≠ 0 then return (0, f)
    let r ← lookup 0x11 4
    if r.ret ≠ 4 then return (0, f)
    let pktLinkProtocol := r.copied.getD 0 0
    if pktLinkProtocol ≠ (if bRawIPMode then 2 else 1) then return (pktLinkProtocol.toNat, f)
    let qmap_version ← lookupTo 0x12 4 f.qmap_version
    let qmap_version ←
      if qmap_version.any (· ≠ 0) then lookupTo 0x13 4 qmap_version else pure qmap_version
    let rx_size ← lookupTo 0x16 4 f.rx_size
    let tx_size ← lookupTo 0x18 4 f.tx_size
    let set ← match f.set with
      | some set => some <$> lookupSetting set
      | none => pure none
    return (pktLinkProtocol.toNat, ⟨qmap_version, rx_size, tx_size, set⟩)

section Run

variable {α : Type} (p : Parser α) (pBuffer : List UInt8)

/-- The lookups of a message. -/
def lookupIn (pQMIMessage : List UInt8) (l : Lookup) : Option TlvCopy :=
  getTLV pQMIMessage l.type l.bufferLen

/-- A parser on a buffer. There is no result if a lookup has none. -/
def Parser.run : Option α :=
  if pBuffer.length < p.offset then some p.short
  else (p.parse (pBuffer.drop p.offset)).eval (lookupIn (pBuffer.drop p.offset))

end Run

/-! ## Lookups -/

section Lookups

variable (pQMIMessage : List UInt8) (type : UInt8) (bufferLen : ℕ)

/-- What is asked of `GetTLV` on a message. -/
structure LookupLaw : Prop where
  /-- The loop ends. -/
  ends : Loop.Halts (getTLVPass pQMIMessage type bufferLen) 4
  /-- No byte behind the message is read. -/
  inside : ∀ r, Loop.Returns (getTLVPass pQMIMessage type bufferLen) 4 r → r.isSome

/-- A TLV of another type, and the position that its length leads to. -/
def TlvLink (pos pos' : ℕ) : Prop :=
  pos + 3 < pQMIMessage.length ∧ pQMIMessage.getD pos 0 ≠ type ∧
    pos' = (pos + tlvSize pQMIMessage pos + 3) % 2 ^ 16

/-- From the first TLV on, no TLV leads back to itself, and the first of the type ends in the
message or is too long for the caller. -/
structure LookupOk : Prop where
  acyclic : ∀ pos, ReflTransGen (TlvLink pQMIMessage type) 4 pos →
    ¬ TransGen (TlvLink pQMIMessage type) pos pos
  fits : ∀ pos, ReflTransGen (TlvLink pQMIMessage type) 4 pos → pos + 3 < pQMIMessage.length →
    pQMIMessage.getD pos 0 = type → tlvSize pQMIMessage pos ≤ bufferLen →
      pos + 3 + tlvSize pQMIMessage pos ≤ pQMIMessage.length

variable {pQMIMessage type bufferLen} {pos pos' : ℕ}

theorem getTLVPass_eq_inr_iff :
    getTLVPass pQMIMessage type bufferLen pos = .inr pos' ↔ TlvLink pQMIMessage type pos pos' := by
  unfold getTLVPass TlvLink
  by_cases hhead : pos + 3 < pQMIMessage.length
  · rw [if_pos hhead]
    by_cases htype : pQMIMessage.getD pos 0 = type
    · dsimp only
      rw [if_pos htype]
      refine iff_of_false ?_ fun h ↦ h.2.1 htype
      split
      · exact Sum.inl_ne_inr
      · split <;> exact Sum.inl_ne_inr
    · dsimp only
      rw [if_neg htype, Sum.inr.injEq]
      exact ⟨fun h ↦ ⟨hhead, htype, h.symm⟩, fun h ↦ h.2.2.symm⟩
  · rw [if_neg hhead]
    exact iff_of_false Sum.inl_ne_inr fun h ↦ hhead h.1

theorem getTLVPass_eq_none_iff :
    getTLVPass pQMIMessage type bufferLen pos = .inl none ↔
      pos + 3 < pQMIMessage.length ∧ pQMIMessage.getD pos 0 = type ∧
        tlvSize pQMIMessage pos ≤ bufferLen ∧
          ¬ pos + 3 + tlvSize pQMIMessage pos ≤ pQMIMessage.length := by
  unfold getTLVPass
  by_cases hhead : pos + 3 < pQMIMessage.length
  · rw [if_pos hhead]
    dsimp only
    by_cases htype : pQMIMessage.getD pos 0 = type
    · rw [if_pos htype]
      by_cases hbuf : bufferLen < tlvSize pQMIMessage pos
      · rw [if_pos hbuf]
        refine iff_of_false (by rintro ⟨⟩) ?_
        rintro ⟨-, -, hle, -⟩
        exact absurd hbuf (Nat.not_lt.mpr hle)
      · rw [if_neg hbuf]
        by_cases hfits : pos + 3 + tlvSize pQMIMessage pos ≤ pQMIMessage.length
        · rw [if_pos hfits]
          exact iff_of_false (by rintro ⟨⟩) fun h ↦ h.2.2.2 hfits
        · rw [if_neg hfits]
          exact iff_of_true rfl ⟨hhead, htype, Nat.not_lt.mp hbuf, hfits⟩
    · rw [if_neg htype]
      exact iff_of_false (by rintro ⟨⟩) fun h ↦ htype h.2.1
  · rw [if_neg hhead]
    exact iff_of_false (by rintro ⟨⟩) fun h ↦ hhead h.1

/-- The positions that the loop comes to are those that the lengths lead to. -/
theorem reaches_iff :
    Loop.Reaches (getTLVPass pQMIMessage type bufferLen) 4 pos ↔
      ReflTransGen (TlvLink pQMIMessage type) 4 pos := by
  constructor
  · exact fun h ↦ h.linked id fun _ _ hb ↦ getTLVPass_eq_inr_iff.mp hb
  · intro h
    have hkey : ∀ t k, TlvLink pQMIMessage type (id t) k →
        ∃ u, getTLVPass pQMIMessage type bufferLen t = .inr u ∧ id u = k :=
      fun t k hlink ↦ ⟨k, getTLVPass_eq_inr_iff.mpr hlink, rfl⟩
    obtain ⟨t, ht, rfl⟩ := Loop.exists_reaches_of_linked id hkey h
    exact ht

theorem lookupLaw_iff : LookupLaw pQMIMessage type bufferLen ↔
    LookupOk pQMIMessage type bufferLen := by
  constructor
  · rintro ⟨hends, hinside⟩
    refine ⟨fun pos hpos hcyc ↦ ?_, fun pos hpos hhead htype hbuf ↦ ?_⟩
    · exact Loop.not_halts_of_cycle id
        (fun t k hlink ↦ ⟨k, getTLVPass_eq_inr_iff.mpr hlink, rfl⟩) hpos hcyc hends
    · by_contra hfits
      have hpass : getTLVPass pQMIMessage type bufferLen pos = .inl none :=
        getTLVPass_eq_none_iff.mpr ⟨hhead, htype, hbuf, hfits⟩
      have hnone := hinside none
        ((reaches_iff.mpr hpos).returns_iff.mpr (Loop.returns_of_inl hpass))
      cases hnone
  · rintro ⟨hacyclic, hfits⟩
    constructor
    · have hfinite : {pos | ReflTransGen (TlvLink pQMIMessage type) 4 pos}.Finite := by
        refine (Set.finite_lt_nat (2 ^ 16)).subset fun pos hpos ↦ ?_
        have hreach : Loop.Reaches (getTLVPass pQMIMessage type bufferLen) 4 pos :=
          reaches_iff.mpr hpos
        exact reaches_lt hreach
      exact Loop.halts_of_acyclic id (fun _ _ hb ↦ getTLVPass_eq_inr_iff.mp hb) hfinite hacyclic
    · intro r hr
      obtain ⟨pos, hpos, hpass⟩ := hr.exists_last
      cases r with
      | some c => rfl
      | none =>
        obtain ⟨hhead, htype, hbuf, hnot⟩ := getTLVPass_eq_none_iff.mp hpass
        exact absurd (hfits pos (reaches_iff.mp hpos) hhead htype hbuf) hnot

theorem isSome_getTLV_iff :
    (getTLV pQMIMessage type bufferLen).isSome ↔ LookupLaw pQMIMessage type bufferLen := by
  constructor
  · intro h
    obtain ⟨c, hc⟩ := Option.isSome_iff_exists.mp h
    have hreturns := getTLV_eq_some_iff.mp hc
    refine ⟨⟨_, hreturns⟩, fun r hr ↦ ?_⟩
    rw [hr.unique hreturns]
    rfl
  · rintro ⟨⟨r, hr⟩, hinside⟩
    rw [getTLV_eq_of_returns hr]
    exact hinside r hr

end Lookups

/-! ## Buffers -/

section Buffers

variable {α : Type} (p : Parser α) (pBuffer : List UInt8)

/-- The lookups that a parser comes to in a buffer are right. -/
def Parser.AsksOk : Prop :=
  p.offset ≤ pBuffer.length →
    ∀ l, Prog.Asks (lookupIn (pBuffer.drop p.offset)) (p.parse (pBuffer.drop p.offset)) l →
      LookupOk (pBuffer.drop p.offset) l.type l.bufferLen

/-- A parser ends and stays in its buffer if and only if each of its lookups is right. -/
theorem Parser.isSome_run_iff : (p.run pBuffer).isSome ↔ p.AsksOk pBuffer := by
  unfold Parser.run Parser.AsksOk
  by_cases hlen : pBuffer.length < p.offset
  · rw [if_pos hlen]
    exact iff_of_true rfl fun h ↦ absurd hlen (Nat.not_lt.mpr h)
  · rw [if_neg hlen, Prog.isSome_eval]
    constructor
    · exact fun h _ l hl ↦ lookupLaw_iff.mp (isSome_getTLV_iff.mp (h l hl))
    · exact fun h l hl ↦ isSome_getTLV_iff.mpr (lookupLaw_iff.mpr (h (Nat.not_lt.mp hlen) l hl))

/-- `GetTLV` ends and stays in the message if and only if no length leads back and the TLV that is
copied ends in the message; the parsers do if and only if this is so of the lookups they make. -/
theorem getTLV_inside_iff (pBuffer : List UInt8) :
    (∀ type bufferLen, LookupLaw pBuffer type bufferLen ↔ LookupOk pBuffer type bufferLen) ∧
      ((qmiCtlGetClientIDResp.run pBuffer).isSome ↔ qmiCtlGetClientIDResp.AsksOk pBuffer) ∧
      (∀ e, ((qmiWdsEventResp e).run pBuffer).isSome ↔ (qmiWdsEventResp e).AsksOk pBuffer) ∧
      (∀ meidSize, ((qmiDmsGetMEIDResp meidSize).run pBuffer).isSome ↔
        (qmiDmsGetMEIDResp meidSize).AsksOk pBuffer) ∧
      (∀ bRawIPMode f, ((qmiWdaSetDataFormatResp bRawIPMode f).run pBuffer).isSome ↔
        (qmiWdaSetDataFormatResp bRawIPMode f).AsksOk pBuffer) :=
  ⟨fun _ _ ↦ lookupLaw_iff, Parser.isSome_run_iff _ _, fun _ ↦ Parser.isSome_run_iff _ _,
    fun _ ↦ Parser.isSome_run_iff _ _, fun _ _ ↦ Parser.isSome_run_iff _ _⟩

end Buffers

/-- The length of the first TLV leads back to it. -/
def backTlv : List UInt8 := [0x01, 0x00, 0x04, 0x00, 0x10, 0xfd, 0xff, 0x00]

/-- A response with a client id of two bytes, of which one is missing. -/
def shortClientId : List UInt8 :=
  [0x01, 0x19, 0x00, 0x80, 0x00, 0x00, 0x01, 0x01] ++ [0x22, 0x00, 0x0b, 0x00] ++
    [0x02, 0x04, 0x00, 0x00, 0x00, 0x00, 0x00] ++ [0x01, 0x02, 0x00, 0x03]

/-- The search for another TLV does not end, and the client id is made of the last byte of the
response and one from behind it. -/
theorem getTLV_not_inside :
    ¬ Loop.Halts (getTLVPass backTlv 0x01 2) 4 ∧ ¬ LookupLaw backTlv 0x01 2 ∧
      qmiCtlGetClientIDResp.run shortClientId = none := by
  have hloop : ¬ Loop.Halts (getTLVPass backTlv 0x01 2) 4 :=
    Loop.not_halts_of_fixed .refl (by decide)
  refine ⟨hloop, fun h ↦ hloop h.ends, ?_⟩
  decide +kernel

end Wwan.GobiNet
