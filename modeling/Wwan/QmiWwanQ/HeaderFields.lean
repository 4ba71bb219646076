import Wwan.QmiWwanQ.Encode

/-!
# The fields of the uplink headers

`pkt_len` counts the IP packet and its pad, and the pad fills this up to a multiple of four. The
two encoders have the same body but for one place: `add_qhdr_v5` leaves the Ethernet header out of
the length it pads, `add_qhdr` does not. In place, both count the Ethernet header into `pkt_len`.
And `pkt_len` has sixteen bits, as many as the MTU, without the pad.

So the headers are right exactly for packets without an Ethernet header of up to 65532 bytes.
-/

namespace Wwan.QmiWwanQ

open Wwan.Kernel Wwan.Bytes

/-- Where the header has been written to. -/
def headerOf (hdrData : Bool) (r : SkBuff × List UInt8) : List UInt8 :=
  if hdrData then r.2 else r.1.data

/-- The field `pkt_len` of a header. -/
def storedPktLen (hdr : List UInt8) : ℕ := be16 (hdr.getD 2 0) (hdr.getD 3 0)

/-- The field for the pad: `pad_len`, or the lower bits of `cd_rsvd_pad`. -/
def storedPad (hdr : List UInt8) : ℕ := (hdr.getD 0 0).toNat % 64

/-- The number of bytes put behind the packet. -/
def padAdded (hdrData : Bool) (hdrSize : ℕ) (skb : SkBuff) (r : SkBuff × List UInt8) : ℕ :=
  r.1.len - (if hdrData then 0 else hdrSize) - skb.len

/-- The fields describe the IP packet, which starts `ip_offset` bytes into the packet, and its
pad. -/
structure HeaderRight (hdrData : Bool) (hdrSize ipOffset : ℕ) (skb : SkBuff)
    (r : SkBuff × List UInt8) : Prop where
  pktLen : storedPktLen (headerOf hdrData r) = skb.len - ipOffset + padAdded hdrData hdrSize skb r
  pad_lt : padAdded hdrData hdrSize skb r < 4
  pad : storedPad (headerOf hdrData r) = padAdded hdrData hdrSize skb r
  aligned : (skb.len - ipOffset + padAdded hdrData hdrSize skb r) % 4 = 0

/-! ## What the encoders store -/

/-- With room for it, the pad completes a multiple of four. -/
theorem qhdrPad_eq {n tailroom : ℕ} (h : 3 ≤ tailroom) : qhdrPad n tailroom = (4 - n % 4) % 4 := by
  unfold qhdrPad
  split
  next => omega
  next => rw [if_neg (by omega)]; omega

theorem storedPktLen_toBe16 (b₀ b₁ : UInt8) (n : ℕ) (rest : List UInt8) :
    storedPktLen ([b₀, b₁] ++ toBe16 n ++ rest) = n % 65536 := by
  simp only [storedPktLen, toBe16, List.cons_append, List.nil_append, List.getD_cons_zero,
    List.getD_cons_succ, be16, toNat_byteOf]
  omega

theorem storedPad_byteOf (n : ℕ) (rest : List UInt8) :
    storedPad (byteOf n 0 :: rest) = n % 64 := by
  simp only [storedPad, List.getD_cons_zero, toNat_byteOf]
  omega

/-- A header in the headroom, and a pad. -/
theorem len_put_push {skb : SkBuff} (pad : ℕ) {n : ℕ} (h : n ≤ skb.head.length) :
    ((skb.put pad).push n).len = skb.len + pad + n := by
  have hhead : (skb.put pad).head = skb.head := rfl
  rw [← SkBuff.len_put]
  simp only [SkBuff.push, SkBuff.len, List.length_append, List.length_drop, hhead]
  omega

theorem len_fill {skb : SkBuff} {hdr : List UInt8} (h : hdr.length ≤ skb.len) :
    (skb.fill hdr).len = skb.len := by
  simp only [SkBuff.fill, SkBuff.len, List.length_append, List.length_drop] at *
  omega

/-- The three numbers that the law is about. -/
structure Stored (hdrData : Bool) (hdrSize : ℕ) (skb : SkBuff) (r : SkBuff × List UInt8)
    (pktLen pad : ℕ) : Prop where
  pktLen : storedPktLen (headerOf hdrData r) = pktLen % 65536
  padField : storedPad (headerOf hdrData r) = pad
  padAdded : padAdded hdrData hdrSize skb r = pad

variable (skb : SkBuff) (muxId : UInt8) {ipOffset pad : ℕ}

/-- A header that begins with a pad field `b`, the mux id and a length `n`, without the packet. -/
theorem stored_of_hdrData (hdrSize : ℕ) {b : ℕ} (n : ℕ) (rest : List UInt8) (hb : b % 64 = pad) :
    Stored true hdrSize skb (skb.put pad, [byteOf b 0, muxId] ++ toBe16 n ++ rest) n pad where
  pktLen := storedPktLen_toBe16 _ _ _ _
  padField := (storedPad_byteOf b _).trans hb
  padAdded := by simp [padAdded]

/-- The same in the headroom. -/
theorem stored_of_inPlace {hdrSize b : ℕ} (n : ℕ) (rest : List UInt8) (hb : b % 64 = pad)
    (hhead : hdrSize ≤ skb.head.length) (hsize : 4 + rest.length = hdrSize) :
    Stored false hdrSize skb
      (((skb.put pad).push hdrSize).fill ([byteOf b 0, muxId] ++ toBe16 n ++ rest), []) n pad := by
  have hpush : ((skb.put pad).push hdrSize).len = skb.len + pad + hdrSize :=
    len_put_push pad hhead
  have hfill : (((skb.put pad).push hdrSize).fill ([byteOf b 0, muxId] ++ toBe16 n ++ rest)).len =
      skb.len + pad + hdrSize := by
    rw [len_fill, hpush]
    rw [hpush]
    simp only [toBe16, List.length_append, List.length_cons, List.length_nil]
    omega
  refine ⟨?_, ?_, ?_⟩
  · simp only [headerOf, Bool.false_eq_true, if_false, SkBuff.fill, List.append_assoc]
    exact (List.append_assoc .. ▸ storedPktLen_toBe16 (byteOf b 0) muxId n _)
  · exact (storedPad_byteOf b _).trans hb
  · simp only [padAdded, hfill, Bool.false_eq_true, if_false]
    omega

theorem addQhdr_stored (hdrData : Bool) (hhead : 8 ≤ skb.head.length) :
    Stored hdrData 4 skb (addQhdr skb muxId hdrData ipOffset)
      (skb.len + qhdrPad skb.len skb.tailroom - if hdrData then ipOffset else 0)
      (qhdrPad skb.len skb.tailroom) := by
  have hpad := qhdrPad_lt skb.len skb.tailroom
  have hmod : qhdrPad skb.len skb.tailroom % 64 = qhdrPad skb.len skb.tailroom :=
    Nat.mod_eq_of_lt (by omega)
  cases hdrData with
  | true => simpa [addQhdr] using stored_of_hdrData skb muxId 4 _ [] hmod
  | false =>
    have hhead4 : 4 ≤ skb.head.length := Nat.le_trans (by decide) hhead
    have hpush : ((skb.put (qhdrPad skb.len skb.tailroom)).push 4).len - 4 =
        skb.len + qhdrPad skb.len skb.tailroom := by
      rw [len_put_push _ hhead4, Nat.add_sub_cancel]
    have hsize : 4 + ([] : List UInt8).length = 4 := rfl
    have hstored := stored_of_inPlace skb muxId (skb.len + qhdrPad skb.len skb.tailroom) [] hmod
      hhead4 hsize
    simpa only [addQhdr, hpush, Bool.false_eq_true, if_false, List.append_nil, Nat.sub_zero]
      using hstored

theorem addQhdrV5_stored (hdrData : Bool) (hhead : 8 ≤ skb.head.length) :
    Stored hdrData 8 skb (addQhdrV5 skb muxId hdrData ipOffset)
      (skb.len + qhdrPad (skb.len - ipOffset) skb.tailroom - if hdrData then ipOffset else 0)
      (qhdrPad (skb.len - ipOffset) skb.tailroom) := by
  have hpad := qhdrPad_lt (skb.len - ipOffset) skb.tailroom
  have hmod : (qhdrPad (skb.len - ipOffset) skb.tailroom + 64) % 64 =
      qhdrPad (skb.len - ipOffset) skb.tailroom := by omega
  cases hdrData with
  | true => simpa [addQhdrV5] using stored_of_hdrData skb muxId 8 _ ulHeader hmod
  | false =>
    have hpush : ((skb.put (qhdrPad (skb.len - ipOffset) skb.tailroom)).push 8).len - 8 =
        skb.len + qhdrPad (skb.len - ipOffset) skb.tailroom := by
      rw [len_put_push _ hhead, Nat.add_sub_cancel]
    have hsize : 4 + ulHeader.length = 8 := rfl
    have hstored := stored_of_inPlace skb muxId
      (skb.len + qhdrPad (skb.len - ipOffset) skb.tailroom) ulHeader hmod hhead hsize
    simpa only [addQhdrV5, hpush, Bool.false_eq_true, if_false, Nat.sub_zero] using hstored

/-! ## The law -/

/-- The fields are right if and only if the length fits into sixteen bits and the pad completes a
multiple of four. -/
theorem Stored.headerRight_iff {hdrData : Bool} {hdrSize pktLen : ℕ} {r : SkBuff × List UInt8}
    (h : Stored hdrData hdrSize skb r pktLen pad) (hpad : pad < 4) :
    HeaderRight hdrData hdrSize ipOffset skb r ↔
      pktLen % 65536 = skb.len - ipOffset + pad ∧ (skb.len - ipOffset + pad) % 4 = 0 := by
  constructor
  · rintro ⟨hlen, -, -, haligned⟩
    rw [h.pktLen, h.padAdded] at hlen
    rw [h.padAdded] at haligned
    exact ⟨hlen, haligned⟩
  · rintro ⟨hlen, haligned⟩
    refine ⟨?_, ?_, ?_, ?_⟩
    · rw [h.pktLen, h.padAdded, hlen]
    · rwa [h.padAdded]
    · rw [h.padField, h.padAdded]
    · rwa [h.padAdded]

/-- With room for the pad, the headers of both encoders are right, and their pads the same, if and
only if there is no Ethernet header and the packet has no more than 65532 bytes. -/
theorem headers_right_iff (hdrData : Bool) (hoff : ipOffset = 0 ∨ ipOffset = ethHlen)
    (hlen : ipOffset ≤ skb.len) (hmtu : skb.len - ipOffset ≤ 65535) (htail : 3 ≤ skb.tailroom)
    (hhead : 8 ≤ skb.head.length) :
    (HeaderRight hdrData 4 ipOffset skb (addQhdr skb muxId hdrData ipOffset) ∧
        HeaderRight hdrData 8 ipOffset skb (addQhdrV5 skb muxId hdrData ipOffset) ∧
        padAdded hdrData 4 skb (addQhdr skb muxId hdrData ipOffset) =
          padAdded hdrData 8 skb (addQhdrV5 skb muxId hdrData ipOffset)) ↔
      ipOffset = 0 ∧ skb.len ≤ 65532 := by
  have hstored : Stored hdrData 4 skb (addQhdr skb muxId hdrData ipOffset) _ _ :=
    addQhdr_stored skb muxId hdrData hhead
  have hstored' : Stored hdrData 8 skb (addQhdrV5 skb muxId hdrData ipOffset) _ _ :=
    addQhdrV5_stored skb muxId hdrData hhead
  rw [hstored.headerRight_iff skb (qhdrPad_lt _ _), hstored'.headerRight_iff skb (qhdrPad_lt _ _),
    hstored.padAdded, hstored'.padAdded, qhdrPad_eq htail, qhdrPad_eq htail]
  rcases hoff with rfl | rfl
  · have hpad : (4 - skb.len % 4) % 4 < 4 := Nat.mod_lt _ (by decide)
    have haligned : (skb.len + (4 - skb.len % 4) % 4) % 4 = 0 := by omega
    have hzero : (if hdrData = true then 0 else 0) = 0 := ite_self 0
    simp only [hzero, Nat.sub_zero]
    generalize (4 - skb.len % 4) % 4 = pad at *
    constructor
    · rintro ⟨⟨hfits, -⟩, -⟩
      exact ⟨trivial, by omega⟩
    · rintro ⟨-, hle⟩
      have hfits : (skb.len + pad) % 65536 = skb.len + pad := Nat.mod_eq_of_lt (by omega)
      exact ⟨⟨hfits, haligned⟩, ⟨hfits, haligned⟩, trivial⟩
  · simp only [ethHlen]
    simp only [ethHlen] at hlen
    omega

/-- A packet of `n` bytes with room for headers and pad. -/
def zeroSkb (n : ℕ) : SkBuff := ⟨List.replicate 8 0, List.replicate n 0, fun _ ↦ 0, 3, 0⟩

/-- The headers of a raw-IP packet of two bytes. -/
theorem headers_right_two :
    HeaderRight true 4 0 (zeroSkb 2) (addQhdr (zeroSkb 2) 0x81 true 0) :=
  ((headers_right_iff (zeroSkb 2) 0x81 true (.inl rfl) (by decide) (by decide) (by decide)
    (by decide)).mpr ⟨rfl, by decide⟩).1

/-- With an Ethernet header in front the pad of `add_qhdr` completes no multiple of four, and it is
not the one of `add_qhdr_v5`. -/
theorem headers_not_right :
    ¬ HeaderRight true 4 14 (zeroSkb 16) (addQhdr (zeroSkb 16) 0x81 true 14) ∧
      padAdded true 4 (zeroSkb 16) (addQhdr (zeroSkb 16) 0x81 true 14) ≠
        padAdded true 8 (zeroSkb 16) (addQhdrV5 (zeroSkb 16) 0x81 true 14) :=
  ⟨fun h ↦ absurd h.aligned (by decide), by decide⟩

end Wwan.QmiWwanQ
