import Wwan.Lib.Buffer
import Wwan.Lib.Transition
import Wwan.QuectelCm.Qmux

/-!
# Reading from a proxy

With a proxy, `quectel-cm` gets its messages over a `SOCK_STREAM` socket that does not block.
`qmi_proxy_read` and `mbim_proxy_read` read the header of a message and then the rest of it, each
with one `read`, into `cm_recv_buf`. Each `read` may return fewer bytes, and nothing is kept from
one call to the next.
-/

namespace Wwan.QuectelCm

open Bytes

/-- `sizeof(cm_recv_buf)` -/
def cmRecvBufSize : ℕ := 4096

/-! ## The socket -/

/-- What `read` returns: a number of bytes, or -1 (`EAGAIN`). -/
abbrev ReadResult := Option ℕ

/-- `read` can return that for so many bytes. -/
def ReadResult.Possible (count : ℕ) (stream : List UInt8) : ReadResult → Prop
  | none => True
  | some k => k ≤ count ∧ k ≤ stream.length ∧ (k = 0 → count = 0 ∨ stream = [])

instance ReadResult.decidablePossible (count : ℕ) (stream : List UInt8) :
    (r : ReadResult) → Decidable (r.Possible count stream)
  | none => .isTrue trivial
  | some k => inferInstanceAs (Decidable (k ≤ count ∧ k ≤ stream.length ∧ (k = 0 → _ ∨ _)))

/-- A call of one of the readers. -/
structure ReadCall where
  first : ReadResult
  second : ReadResult
  /-- `mbim_pRequest->TransactionId`, if there is a request. -/
  request : Option ℕ
  /-- There is memory for a copy. -/
  memory : Bool
  deriving DecidableEq

/-- `cm_recv_buf`, what was written and not read yet, and the messages that were passed on. -/
structure ProxyReader where
  buf : Buffer UInt8 cmRecvBufSize
  stream : List UInt8
  passed : List (List UInt8)

namespace ProxyReader

variable (s : ProxyReader)

/-- `read` stores bytes at an offset of `cm_recv_buf`. -/
def receive (offset k : ℕ) : ProxyReader :=
  { s with
    buf := (s.buf.store offset (s.stream.take k)).getD s.buf
    stream := s.stream.drop k }

/-- A message of so many bytes is passed on. -/
def pass (nreads : ℤ) : ProxyReader :=
  { s with passed := s.passed ++ [s.buf.toList.take nreads.toNat] }

end ProxyReader

/-! ## The readers -/

/-- How a message begins, and how it is read. -/
structure MessageHeader where
  /-- `sizeof` -/
  size : ℕ
  /-- The length of the whole message. -/
  total : List UInt8 → ℕ
  /-- The rest of the message is read. -/
  fits : List UInt8 → Bool
  /-- What was read is passed on. -/
  accepts : ℤ → List UInt8 → Bool
  size_pos : 0 < size
  size_le : size ≤ cmRecvBufSize
  total_congr : ∀ l l' : List UInt8, l.take size = l'.take size → total l = total l'
  total_lt : ∀ l, total l < 2 ^ 32
  fits_iff : ∀ l, fits l ↔ total l ≤ cmRecvBufSize
  accepts_total : ∀ l, accepts (total l) l

namespace MessageHeader

variable (h : MessageHeader)

/-- The bytes that the second `read` is asked for, a `size_t`. -/
def restCount (bytes : List UInt8) : ℕ := (h.total bytes + 2 ^ 64 - h.size) % 2 ^ 64

/-- The value of the reader and what it leaves. -/
def proxyRead (s : ProxyReader) : ReadResult → ReadResult → ℤ × ProxyReader
  | none, _ => (-1, s)
  | some k, second =>
    let s := s.receive 0 k
    if k = h.size ∧ h.fits s.buf.toList then
      match second with
      | none => (k - 1, s)
      | some k₂ => (k + k₂, s.receive h.size k₂)
    else (k, s)

/-- What the loop does that calls the reader. -/
def turn (s : ProxyReader) (c : ReadCall) : ProxyReader :=
  let r := h.proxyRead s c.first c.second
  if 0 < r.1 ∧ h.accepts r.1 r.2.buf.toList then r.2.pass r.1 else r.2

/-- The results of a call are possible. -/
def Possible (s : ProxyReader) (c : ReadCall) : Prop :=
  c.first.Possible h.size s.stream ∧
    match c.first with
    | none => True
    | some k => k = h.size → h.fits (s.receive 0 k).buf.toList →
        c.second.Possible (h.restCount (s.receive 0 k).buf.toList) (s.stream.drop k)

instance decidablePossible (s : ProxyReader) : (c : ReadCall) → Decidable (h.Possible s c)
  | ⟨none, _, _, _⟩ => inferInstanceAs (Decidable (_ ∧ True))
  | ⟨some _, _, _, _⟩ => inferInstanceAs (Decidable (_ ∧ (_ → _ = true → _)))

/-- The calls for a stream. -/
def readSystem (init : ProxyReader) : System ProxyReader ReadCall where
  init := init
  enabled := h.Possible
  next := h.turn

end MessageHeader

/-! ## `qmi_proxy_read` and `QmiWwanThread` -/

theorem field16_congr {l l' : List UInt8} {n offset : ℕ} (h : l.take n = l'.take n)
    (hn : offset + 1 < n) : field16 l offset = field16 l' offset := by
  have hbyte : ∀ i < n, l.getD i 0 = l'.getD i 0 := by
    intro i hi
    rw [List.getD_eq_getElem?_getD, List.getD_eq_getElem?_getD, ← List.getElem?_take_of_lt hi, h,
      List.getElem?_take_of_lt hi]
  unfold field16
  rw [hbyte offset (by omega), hbyte (offset + 1) hn]

/-- `QCQMI_HDR`; `QmiWwanThread` drops what is not as long as its header says. -/
def qmiHeader : MessageHeader where
  size := 6
  total msg := qmiHdrLength msg + 1
  fits msg := qmiHdrLength msg < cmRecvBufSize
  accepts nreads msg := nreads = (qmiHdrLength msg + 1 : ℕ)
  size_pos := by decide
  size_le := by decide
  total_congr l l' h := congrArg (· + 1) (field16_congr h (by decide))
  total_lt l := by
    have hlt : qmiHdrLength l < 65536 := le16_lt _ _
    omega
  fits_iff l := decide_eq_true_iff
  accepts_total l := decide_eq_true rfl

def qmiProxyRead : ProxyReader → ReadResult → ReadResult → ℤ × ProxyReader := qmiHeader.proxyRead

def qmiWwanThread : ProxyReader → ReadCall → ProxyReader := qmiHeader.turn

/-! ## `mbim_proxy_read` and `mbim_read_thread` -/

/-- A 32-bit field of an MBIM message. -/
def field32 (msg : List UInt8) (offset : ℕ) : ℕ :=
  field16 msg offset + field16 msg (offset + 2) * 65536

theorem field32_lt (l : List UInt8) (offset : ℕ) : field32 l offset < 2 ^ 32 := by
  have hlo : field16 l offset < 65536 := le16_lt _ _
  have hhi : field16 l (offset + 2) < 65536 := le16_lt _ _
  unfold field32
  omega

theorem field32_drop (l : List UInt8) (n offset : ℕ) :
    field32 (l.drop n) offset = field32 l (n + offset) := by
  simp [field32, field16, List.getD_eq_getElem?_getD, Nat.add_assoc]

theorem field32_congr {l l' : List UInt8} {n offset : ℕ} (h : l.take n = l'.take n)
    (hn : offset + 3 < n) : field32 l offset = field32 l' offset := by
  have hlo := field16_congr h (Nat.lt_of_le_of_lt (Nat.add_le_add_left (by decide) offset) hn)
  exact congrArg₂ (· + · * 65536) hlo (field16_congr h hn)

/-- `MessageLength` -/
def messageLength (msg : List UInt8) : ℕ := field32 msg 4

/-- `TransactionId` -/
def transactionId (msg : List UInt8) : ℕ := field32 msg 8

/-- `MBIM_MESSAGE_HEADER`; `mbim_read_thread` passes on whatever was read. -/
def mbimHeader : MessageHeader where
  size := 12
  total := messageLength
  fits msg := messageLength msg ≤ cmRecvBufSize
  accepts _ _ := true
  size_pos := by decide
  size_le := by decide
  total_congr l l' h := by
    unfold messageLength field32
    rw [field16_congr h (by decide), field16_congr h (by decide)]
  total_lt l := field32_lt l 4
  fits_iff l := decide_eq_true_iff
  accepts_total l := rfl

def mbimProxyRead : ProxyReader → ReadResult → ReadResult → ℤ × ProxyReader :=
  mbimHeader.proxyRead

def mbimReadThread : ProxyReader → ReadCall → ProxyReader := mbimHeader.turn

/-- The bytes that `mbim_recv_command` copies of a message. -/
def mbimRecvCommandCopies (msg : List UInt8) (request : Option ℕ) (memory : Bool) : ℕ :=
  if request = some (transactionId msg) ∧ memory then messageLength msg else 0

end Wwan.QuectelCm
