import Wwan.Lib.Buffer
import Wwan.Lib.Bytes
import Wwan.Lib.Reassembly

/-!
# Merging QMI messages

Some devices give at most 64 bytes of a QMI message at a time. With `QUECTEL_QMI_MERGE` such a
packet begins with a header, and its reader puts the messages together again. There are three
copies of this: `merge_qmi_rsp_packet` in `quectel-qmi-proxy`, `QmiWwanMergeQmiRsp` in `quectel-cm`
and `MergeRecQmiMsg` in GobiNet. They read the packet from the buffer it was received in and leave
a message in the same place.
-/

namespace Wwan.QmiMerge

open Bytes

/-- `MERGE_PACKET_IDENTITY` -/
def mergePacketIdentity : ℕ := 0x2c7c

/-- `MERGE_PACKET_VERSION` -/
def mergePacketVersion : ℕ := 0x0001

/-- `MERGE_PACKET_MAX_PAYLOAD_SIZE` -/
def mergePacketMaxPayloadSize : ℕ := 56

/-- `sizeof(QMI_MSG_HEADER)` -/
def headerSize : ℕ := 8

/-- The size of all buffers: `qmi_buf`, `cm_recv_buf`, `mpReadBuffer` and those of the packets. -/
def bufSize : ℕ := 4096

/-! ## The header -/

section Header

variable (bytes : List UInt8)

/-- A 16-bit field of the header. -/
def headerField (i : ℕ) : ℕ := le16 (bytes.getD (2 * i) 0) (bytes.getD (2 * i + 1) 0)

def idenity : ℕ := headerField bytes 0

def version : ℕ := headerField bytes 1

/-- `cur_len` -/
def curLen : ℕ := headerField bytes 2

/-- `total_len` -/
def totalLen : ℕ := headerField bytes 3

/-- The packet has the header of a fragment. -/
def IsFragment : Prop :=
  idenity bytes = mergePacketIdentity ∧ version bytes = mergePacketVersion ∧
    curLen bytes ≤ totalLen bytes

instance : Decidable (IsFragment bytes) := inferInstanceAs (Decidable (_ ∧ _ ∧ _))

end Header

/-! ## The copies -/

/-- `QMI_MSG_PACKET`, where fragments are collected. -/
structure QmiMsgPacket where
  len : ℕ
  buf : Buffer UInt8 bufSize

/-- What a copy leaves: the value that is returned, the collected fragments, the buffer, and the
size of what is in it. -/
structure Merged where
  ret : ℤ
  packet : QmiMsgPacket
  buf : Buffer UInt8 bufSize
  size : ℕ

/-- The message that is returned. -/
def Merged.message (m : Merged) : Option (List UInt8) :=
  if m.ret = 0 then some (m.buf.toList.take m.size) else none

/-- The arguments of a copy: the collected fragments, the buffer, and the size of what was read into
it. There is no result if an array is left. -/
abbrev Merge := QmiMsgPacket → Buffer UInt8 bufSize → ℕ → Option Merged

/-- The body that `merge_qmi_rsp_packet` and `QmiWwanMergeQmiRsp` share. -/
def mergeQmiRsp : Merge := fun s_QMIPacket buf src_size ↦
  let header := buf.toList
  if src_size % 2 ^ 16 < headerSize then some ⟨-1, s_QMIPacket, buf, src_size⟩
  else if ¬IsFragment header then some ⟨-1, s_QMIPacket, buf, src_size⟩
  else if curLen header = totalLen header then do
    let bytes ← buf.load headerSize (totalLen header)
    let buf ← buf.store 0 bytes
    return ⟨0, { s_QMIPacket with len := 0 }, buf, totalLen header⟩
  else do
    let bytes ← buf.load headerSize (curLen header)
    let packetBuf ← s_QMIPacket.buf.store s_QMIPacket.len bytes
    let len := (s_QMIPacket.len + curLen header) % 2 ^ 16
    if curLen header < mergePacketMaxPayloadSize ∨ totalLen header ≤ len then
      let bytes ← packetBuf.load 0 len
      let buf ← buf.store 0 bytes
      return ⟨0, ⟨0, packetBuf⟩, buf, len⟩
    else return ⟨-1, ⟨len, packetBuf⟩, buf, src_size⟩

/-- `merge_qmi_rsp_packet` -/
def mergeQmiRspPacket : Merge := mergeQmiRsp

/-- `QmiWwanMergeQmiRsp` -/
def qmiWwanMergeQmiRsp : Merge := mergeQmiRsp

/-- `MergeRecQmiMsg` -/
def mergeRecQmiMsg : Merge := fun mPacket transfer_buffer actual_length ↦
  let mHeader := transfer_buffer.toList
  if actual_length < headerSize then some ⟨-1, mPacket, transfer_buffer, actual_length⟩
  else if ¬IsFragment mHeader then some ⟨-1, mPacket, transfer_buffer, actual_length⟩
  else if curLen mHeader = totalLen mHeader then do
    let mPacket := { mPacket with len := totalLen mHeader }
    let bytes ← transfer_buffer.load headerSize mPacket.len
    let transfer_buffer ← transfer_buffer.store 0 bytes
    return ⟨0, { mPacket with len := 0 }, transfer_buffer, mPacket.len⟩
  else do
    let bytes ← transfer_buffer.load headerSize (curLen mHeader)
    let packetBuf ← mPacket.buf.store mPacket.len bytes
    let len := (mPacket.len + curLen mHeader) % 2 ^ 16
    if curLen mHeader < mergePacketMaxPayloadSize ∨ totalLen mHeader ≤ len then
      let bytes ← packetBuf.load 0 len
      let transfer_buffer ← transfer_buffer.store 0 bytes
      return ⟨0, ⟨0, packetBuf⟩, transfer_buffer, len⟩
    else return ⟨-1, ⟨len, packetBuf⟩, transfer_buffer, actual_length⟩

/-! ## Runs -/

/-- A packet of at most 4096 bytes. -/
abbrev Packet := { packet : List UInt8 // packet.length ≤ bufSize }

/-- A packet in the buffer that it was read into. Behind the packet is what was there before. -/
structure Received where
  buf : Buffer UInt8 bufSize
  size : ℕ
  size_le : size ≤ bufSize

/-- The bytes that were read. -/
def Received.packet (r : Received) : Packet :=
  ⟨r.buf.toList.take r.size, by
    rw [List.length_take, List.Vector.toList_length]
    exact Nat.min_le_right _ _⟩

/-- The messages that are returned, packet by packet. -/
def mergeAll (merge : Merge) : QmiMsgPacket → List Received → Option (List (Option (List UInt8)))
  | _, [] => some []
  | s, r :: rs => do
    let m ← merge s r.buf r.size
    let messages ← mergeAll merge m.packet rs
    return m.message :: messages

end Wwan.QmiMerge
