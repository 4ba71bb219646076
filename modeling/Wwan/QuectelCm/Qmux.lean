import Wwan.Lib.Tlv

/-!
# QMI messages of `quectel-cm`

A QMI message (`QCQMIMSG`) begins with the header of the interface (6 bytes), the header of the
service (3 bytes) and the header of the message (4 bytes), all packed. The rest are the TLVs.
`ComposeQMUXMsg` puts a request together in a buffer on the stack, and `GetTLV` looks for a TLV in
a message that was received.
-/

namespace Wwan.QuectelCm

open Bytes

/-- `WDM_DEFAULT_BUFSIZE` -/
def wdmDefaultBufsize : ℕ := 256

/-! ## Headers -/

/-- A 16-bit field of a message. -/
def field16 (msg : List UInt8) (offset : ℕ) : ℕ :=
  le16 (msg.getD offset 0) (msg.getD (offset + 1) 0)

/-- `QMIHdr.Length` -/
def qmiHdrLength (msg : List UInt8) : ℕ := field16 msg 1

/-- `MUXMsg.QMUXMsgHdr.Length` -/
def qmuxMsgHdrLength (msg : List UInt8) : ℕ := field16 msg 11

/-- `sizeof(QCQMI_HDR) + sizeof(QCQMUX_HDR) + sizeof(QCQMUX_MSG_HDR)` -/
def hdrsSize : ℕ := 6 + 3 + 4

/-! ## `GetTLV` -/

/-- The pointer returned by `GetTLV`, with the bytes from there to the end of the message. -/
inductive TlvPtr
  | null
  | tlv (bytes : List UInt8)
  | /-- The search has left the message. -/
    outside
  deriving DecidableEq

/-- The loop of `GetTLV`. All bytes of the message that are left bound the number of turns. -/
def getTLVLoop (TLVType : ℕ) : ℕ → List UInt8 → ℕ → ℕ → TlvPtr
  | 0, _, _, _ => .outside
  | fuel + 1, pTLVHdr, Length, TLVFind =>
    if Length < Tlv.hdrSize then .null
    else
      match pTLVHdr with
      | type :: lo :: hi :: value =>
        let TLVFind := TLVFind + 1
        if 0x1000 < TLVType ∧ TLVFind + 0x1000 = TLVType then .tlv pTLVHdr
        else if TLVType ≤ 0x1000 ∧ type.toNat = TLVType then .tlv pTLVHdr
        else
          -- an `USHORT`, which wraps around when the TLV is longer than what is left
          getTLVLoop TLVType fuel (value.drop (le16 lo hi))
            ((Length + 2 ^ 17 - (le16 lo hi + Tlv.hdrSize)) % 2 ^ 16) TLVFind
      | _ => .outside

/-- `GetTLV` on a message. -/
def getTLV (msg : List UInt8) (TLVType : ℕ) : TlvPtr :=
  getTLVLoop TLVType (msg.length + 1) (msg.drop hdrsSize) (qmuxMsgHdrLength msg) 0

/-- The value of the TLV that a pointer points to. -/
def TlvPtr.value : TlvPtr → Option (Option (List UInt8))
  | .null => some none
  | .tlv (_ :: lo :: hi :: value) =>
    if le16 lo hi ≤ value.length then some (some (value.take (le16 lo hi))) else none
  | _ => none

/-- `GetTLV` finds the value of the first TLV of a type in a body that was encoded. -/
theorem getTLVLoop_encodeAll {type : ℕ} (htype : type ≤ 0x1000) (rest : List UInt8) (ts : List Tlv)
    (hsize : Tlv.sizeAll ts < 2 ^ 16) : ∀ fuel find, Tlv.sizeAll ts < fuel →
    (getTLVLoop type fuel (Tlv.encodeAll ts ++ rest) (Tlv.sizeAll ts) find).value =
      some (Tlv.lookup type ts) := by
  induction ts with
  | nil =>
    intro fuel find hfuel
    cases fuel with
    | zero => exact absurd hfuel (Nat.not_lt_zero _)
    | succ fuel => rfl
  | cons t ts ih =>
    intro fuel find hfuel
    have hsizes : Tlv.sizeAll (t :: ts) = t.value.length + 3 + Tlv.sizeAll ts :=
      congrArg (· + Tlv.sizeAll ts) (Nat.add_comm 3 _)
    rw [hsizes] at hsize hfuel ⊢
    have hbytes : Tlv.encodeAll (t :: ts) ++ rest = t.type :: byteOf t.value.length 0 ::
        byteOf t.value.length 1 :: (t.value ++ (Tlv.encodeAll ts ++ rest)) := by
      simp [Tlv.encodeAll, Tlv.encode, toLe16]
    have hlen : le16 (byteOf t.value.length 0) (byteOf t.value.length 1) = t.value.length :=
      le16_byteOf (by omega)
    cases fuel with
    | zero => exact absurd hfuel (Nat.not_lt_zero _)
    | succ fuel =>
      rw [hbytes, getTLVLoop, if_neg (by rw [Tlv.hdrSize]; omega), if_neg (by omega)]
      by_cases hfound : t.type.toNat = type
      · rw [if_pos ⟨htype, hfound⟩, Tlv.lookup, if_pos hfound]
        simp [TlvPtr.value, hlen]
      · rw [if_neg (fun h ↦ hfound h.2), Tlv.lookup, if_neg hfound, hlen, List.drop_left]
        have hrest : (t.value.length + 3 + Tlv.sizeAll ts + 2 ^ 17 -
            (t.value.length + Tlv.hdrSize)) % 2 ^ 16 = Tlv.sizeAll ts := by
          rw [Tlv.hdrSize]
          omega
        rw [hrest]
        exact ih (by omega) fuel _ (by omega)

/-! ## `ComposeQMUXMsg` -/

/-- What the callback does to the buffer, and what it returns; none when it writes outside. -/
abbrev CustomQmux := List UInt8 → Option (List UInt8 × ℕ)

/-- The callback is optional; without it the length of the TLVs is zero. -/
def CustomQmux.call : Option CustomQmux → List UInt8 → Option (List UInt8 × ℕ)
  | some customQmuxMsgFunction, buf =>
    (customQmuxMsgFunction buf).map fun r ↦ (r.1, (r.2 + 2 ^ 16 - 4) % 2 ^ 16)
  | none, buf => some (buf, 0)

/-- The fields of the headers, but for the lengths and the client id, which `qmidev_send` puts in. -/
def composeHdrs (QMIType : UInt8) (TransactionId type : ℕ) (buf : List UInt8) :
    Option (List UInt8) := do
  let buf ← store buf 0 [0x01] -- `USB_CTL_MSG_TYPE_QMI`
  let buf ← store buf 3 [0x00]
  let buf ← store buf 4 [QMIType]
  let buf ← store buf 6 [0x00] -- `QMUX_CTL_FLAG_SINGLE_MSG | QMUX_CTL_FLAG_TYPE_CMD`
  let buf ← store buf 7 (toLe16 TransactionId)
  store buf 9 (toLe16 type)

/-- The lengths, and the copy of the message. -/
def composeLengths (malloc : Bool) (buf : List UInt8) (Length : ℕ) :
    Option (Option (List UInt8)) := do
  let buf ← store buf 11 (toLe16 Length)
  let buf ← store buf 1 (toLe16 (qmuxMsgHdrLength buf + 4 + 3 + 6 - 1))
  let Length := qmiHdrLength buf + 1
  if malloc then
    if Length ≤ buf.length then some (some (buf.take Length)) else none
  else some none

/-- `ComposeQMUXMsg`. There is no result when `QMIBuf` is left, by a store or by the copy of the
message; otherwise the result is the pointer, which is `NULL` if `malloc` fails. -/
def composeQMUXMsg (TransactionId : ℕ) (malloc : Bool) (QMIType : UInt8) (type : ℕ)
    (customQmuxMsgFunction : Option CustomQmux) : Option (Option (List UInt8)) := do
  let buf ← composeHdrs QMIType TransactionId type (List.replicate wdmDefaultBufsize 0)
  let (buf, Length) ← CustomQmux.call customQmuxMsgFunction buf
  composeLengths malloc buf Length

/-! ## The composed message -/

section Composed

variable (QMIType : UInt8) (TransactionId type Length : ℕ)

/-- The headers, but for the lengths. -/
def composedHdrs : List UInt8 :=
  [0x01, 0x00, 0x00, 0x00, QMIType, 0x00, 0x00] ++ toLe16 TransactionId ++ toLe16 type

/-- A message with the lengths in its headers, the one of the message being `Length`. -/
def composedMsg (body : List UInt8) : List UInt8 :=
  0x01 :: toLe16 (body.length + 12) ++ (composedHdrs QMIType TransactionId type).drop 3 ++
    toLe16 body.length ++ body

theorem composeHdrs_eq :
    composeHdrs QMIType TransactionId type (List.replicate wdmDefaultBufsize 0) =
      some (composedHdrs QMIType TransactionId type ++
        List.replicate (wdmDefaultBufsize - 11) 0) := by
  have hsplit : List.replicate wdmDefaultBufsize (0 : UInt8) =
      List.replicate 11 0 ++ List.replicate (wdmDefaultBufsize - 11) 0 := by
    rw [List.replicate_append_replicate]
    rfl
  rw [hsplit]
  generalize List.replicate (wdmDefaultBufsize - 11) (0 : UInt8) = rest
  simp [composeHdrs, store, composedHdrs, toLe16]

/-- When the body stands behind the headers in the buffer, the message is composed. -/
theorem composeLengths_eq {malloc : Bool} {buf body lengths : List UInt8}
    (hpre : composedHdrs QMIType TransactionId type ++ lengths ++ body <+: buf)
    (hlengths : lengths.length = 2) (hbody : body.length + 12 < 2 ^ 16) :
    composeLengths malloc buf body.length =
      some (if malloc then some (composedMsg QMIType TransactionId type body)
        else none) := by
  obtain ⟨rest, rfl⟩ := hpre
  obtain ⟨a, b, rfl⟩ := List.length_eq_two.mp hlengths
  have hmux : le16 (byteOf body.length 0) (byteOf body.length 1) = body.length :=
    le16_byteOf (by omega)
  have hqmi : le16 (byteOf (body.length + 12) 0) (byteOf (body.length + 12) 1) = body.length + 12 :=
    le16_byteOf hbody
  cases malloc with
  | false =>
    simp [composeLengths, store, composedHdrs, toLe16]
  | true =>
    simp [composeLengths, store, composedHdrs, toLe16, qmuxMsgHdrLength, qmiHdrLength, field16,
      hmux, hqmi, composedMsg]

/-! ### Reading a composed message -/

variable {QMIType TransactionId type} {body : List UInt8}

theorem length_composedMsg :
    (composedMsg QMIType TransactionId type body).length = hdrsSize + body.length := by
  simp [composedMsg, composedHdrs, toLe16, hdrsSize]
  omega

theorem qmiHdrLength_composedMsg (h : body.length + 12 < 2 ^ 16) :
    qmiHdrLength (composedMsg QMIType TransactionId type body) = body.length + 12 :=
  le16_byteOf h

theorem qmuxMsgHdrLength_composedMsg (h : body.length + 12 < 2 ^ 16) :
    qmuxMsgHdrLength (composedMsg QMIType TransactionId type body) = body.length :=
  le16_byteOf (Nat.lt_of_le_of_lt (Nat.le_add_right _ _) h)

/-- `GetTLV` finds in a composed message what was encoded. -/
theorem getTLV_composedMsg {TLVType : ℕ} (htype : TLVType ≤ 0x1000) (ts : List Tlv)
    (h : Tlv.sizeAll ts + 12 < 2 ^ 16) :
    (getTLV (composedMsg QMIType TransactionId type (Tlv.encodeAll ts)) TLVType).value =
      some (Tlv.lookup TLVType ts) := by
  have hlen : (Tlv.encodeAll ts).length + 12 < 2 ^ 16 := by rwa [Tlv.length_encodeAll]
  have hbody : (composedMsg QMIType TransactionId type (Tlv.encodeAll ts)).drop
      hdrsSize = Tlv.encodeAll ts ++ [] := by
    rw [List.append_nil]
    rfl
  rw [getTLV, qmuxMsgHdrLength_composedMsg hlen, Tlv.length_encodeAll, hbody]
  apply getTLVLoop_encodeAll htype [] ts (Nat.lt_of_le_of_lt (Nat.le_add_right _ _) h)
  rw [length_composedMsg, Tlv.length_encodeAll]
  omega

end Composed

end Wwan.QuectelCm
