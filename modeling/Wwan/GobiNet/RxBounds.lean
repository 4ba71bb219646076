import Wwan.GobiNet.RxHandler
import Wwan.QmiWwanF.RxBounds

/-!
# Where the downlink decoders look

Three kinds of data frames lead the decoder of GobiNet out of the buffer, the table of devices or
the frame (`Overreach`): one that ends with its headers at the end of the buffer, one with a mux id
below the first, and one whose `skb_len` is negative or larger than the frame, by its pad or by the
minimum padding. For Fibocom's decoder only a pad larger than the frame does.
-/

namespace Wwan.GobiNet

open Wwan.Kernel Wwan.Bytes
open Wwan.QmiWwanQ (RmnetMapHeader)

variable {d : SGobiUSBNet}

/-- What a pass uses the numbers of the frame for is right. -/
def UsesInside (d : SGobiUSBNet) (alloc : Bool) (skbIn : SkBuff) : Prop :=
  ∀ u ∈ (rmnetFrame d alloc skbIn).1, u.Inside skbIn.len d.qmapMode

/-- The packet that a pass queues is a slice of the received buffer `orig` inside its frame, which
starts `base` bytes into it. -/
def PayloadInside (d : SGobiUSBNet) (alloc : Bool) (orig skbIn : SkBuff) : Prop :=
  ∀ skb, (rmnetFrame d alloc skbIn).2 = .queue skb →
    ∃ base n, skbIn.data = orig.data.drop base ∧
      n ≤ (RmnetMapHeader.read skbIn).pktLen ∧
      base + (RmnetMapHeader.read skbIn).frameLen ≤ orig.len ∧
      skb.payload = (orig.data.drop (base + (RmnetMapHeader.read skbIn).hdrSize)).take n

/-- A data frame that leads the decoder astray: there is no byte behind its headers, its index is
negative, or `skb_len` bytes are asked for or copied though they are not in it. -/
structure Overreach (d : SGobiUSBNet) (alloc : Bool) (skbIn : SkBuff) : Prop where
  data : IsData d skbIn
  astray : skbIn.len = (RmnetMapHeader.read skbIn).hdrSize ∨
    (ipProtocol (skbIn.byte (RmnetMapHeader.read skbIn).hdrSize)).isSome ∧
      (mux (RmnetMapHeader.read skbIn) < 0 ∨
        mux (RmnetMapHeader.read skbIn) < d.qmapMode ∧
          (d.mpQmapNetDev (mux (RmnetMapHeader.read skbIn))).isSome ∧
            (skbLen d (RmnetMapHeader.read skbIn) < 0 ∨
              alloc = true ∧
                (RmnetMapHeader.read skbIn).pktLen < skbLen d (RmnetMapHeader.read skbIn)))

/-! ## One pass -/

variable {alloc : Bool} {orig skbIn : SkBuff}

theorem inside_header (mode : ℕ) (hlen : 4 < skbIn.len) :
    (RxUse.read 0 4).Inside skbIn.len mode :=
  ⟨by decide, by simp only [Nat.cast_zero]; omega⟩

/-- The byte behind the headers is in the buffer unless this ends there. -/
theorem inside_version_iff (mode : ℕ) (h : Fits d skbIn) :
    (RxUse.read (RmnetMapHeader.read skbIn).hdrSize 1).Inside skbIn.len mode ↔
      skbIn.len ≠ (RmnetMapHeader.read skbIn).hdrSize := by
  have hle := h.frame_le
  rw [RmnetMapHeader.frameLen] at hle
  simp only [RxUse.Inside]
  omega

/-- A payload that lies in the frame is a slice of the buffer. -/
theorem payload_slice (hsuf : ∃ base, skbIn.data = orig.data.drop base) (h : Fits d skbIn)
    (n : ℕ) (hn : n ≤ (RmnetMapHeader.read skbIn).pktLen) :
    ∃ base m, skbIn.data = orig.data.drop base ∧
      m ≤ (RmnetMapHeader.read skbIn).pktLen ∧
      base + (RmnetMapHeader.read skbIn).frameLen ≤ orig.len ∧
      skbIn.bytes (RmnetMapHeader.read skbIn).hdrSize n =
        (orig.data.drop (base + (RmnetMapHeader.read skbIn).hdrSize)).take m := by
  obtain ⟨base, hbase⟩ := hsuf
  have hle := h.frame_le
  have hpos := (RmnetMapHeader.read skbIn).frameLen_pos
  have horig : skbIn.len = orig.len - base := by simp [SkBuff.len, hbase]
  refine ⟨base, n, hbase, hn, by omega, ?_⟩
  rw [RmnetMapHeader.frameLen] at hle
  rw [SkBuff.bytes_eq_slice _ (by omega), hbase, List.drop_drop]

/-- What a packet that is copied has is in its frame. -/
theorem copyFrame_inside {net : NetDevice} {protocol : ℕ} (hfits : Fits d skbIn)
    (hsuf : ∃ base, skbIn.data = orig.data.drop base)
    (hsize : 0 ≤ skbLen d (RmnetMapHeader.read skbIn))
    (hle : alloc = true →
      skbLen d (RmnetMapHeader.read skbIn) ≤ (RmnetMapHeader.read skbIn).pktLen) :
    (∀ u ∈ (copyFrame d alloc skbIn net protocol).1, u.Inside skbIn.len d.qmapMode) ∧
      ∀ skb, (copyFrame d alloc skbIn net protocol).2 = .queue skb →
        ∃ base n, skbIn.data = orig.data.drop base ∧
          n ≤ (RmnetMapHeader.read skbIn).pktLen ∧
          base + (RmnetMapHeader.read skbIn).frameLen ≤ orig.len ∧
          skb.payload = (orig.data.drop (base + (RmnetMapHeader.read skbIn).hdrSize)).take n := by
  have hframe := hfits.frame_le
  rw [RmnetMapHeader.frameLen] at hframe
  cases alloc with
  | false =>
    have hinside : (RxUse.size (skbLen d (RmnetMapHeader.read skbIn))).Inside skbIn.len
        d.qmapMode := hsize
    exact ⟨by simpa [copyFrame] using hinside, by rintro _ ⟨⟩⟩
  | true =>
    have hle := hle rfl
    constructor
    · intro u hu
      simp only [copyFrame, if_true, List.mem_append, List.mem_cons, List.not_mem_nil,
        or_false] at hu
      rcases hu with (rfl | rfl) | hu
      · exact hsize
      · exact ⟨hsize, by omega⟩
      · -- the extended header, which is four bytes long as well
        cases hnext : (RmnetMapHeader.read skbIn).nextHdr with
        | false => simp [hnext] at hu
        | true =>
          have hhdr : (RmnetMapHeader.read skbIn).hdrSize = 8 := by
            simp [RmnetMapHeader.hdrSize, hnext]
          simp only [hnext, if_true, List.mem_singleton] at hu
          subst hu
          exact ⟨by decide, by simp only [Nat.cast_ofNat]; omega⟩
    · intro skb hskb
      simp only [copyFrame, if_true, if_neg (Int.not_lt.mpr hsize)] at hskb
      cases hskb
      exact payload_slice hsuf hfits _ (by omega)

/-- A packet that is queued has no more bytes than its frame. -/
theorem skbLen_le_of_payload {net : NetDevice} {protocol : ℕ} (hnext : ∀ skb,
      (copyFrame d true skbIn net protocol).2 = .queue skb →
        ∃ base n, skbIn.data = orig.data.drop base ∧
          n ≤ (RmnetMapHeader.read skbIn).pktLen ∧
          base + (RmnetMapHeader.read skbIn).frameLen ≤ orig.len ∧
          skb.payload = (orig.data.drop (base + (RmnetMapHeader.read skbIn).hdrSize)).take n)
    (hsize : 0 ≤ skbLen d (RmnetMapHeader.read skbIn)) :
    skbLen d (RmnetMapHeader.read skbIn) ≤ (RmnetMapHeader.read skbIn).pktLen := by
  obtain ⟨base, n, -, hn, -, hslice⟩ :=
    hnext _ (by simp [copyFrame, Int.not_lt.mpr hsize]; rfl)
  have hcount := congrArg List.length hslice
  simp only [SkBuff.bytes, List.length_map, List.length_range, List.length_take] at hcount
  omega

/-- A pass stays in its frame if and only if the frame does not overreach. -/
theorem inside_iff (hlen : 4 < skbIn.len) (hsuf : ∃ base, skbIn.data = orig.data.drop base) :
    UsesInside d alloc skbIn ∧ PayloadInside d alloc orig skbIn ↔ ¬ Overreach d alloc skbIn := by
  have hheader := inside_header d.qmapMode hlen
  have hcase := rmnetFrame_case d alloc skbIn
  unfold UsesInside PayloadInside
  generalize rmnetFrame d alloc skbIn = r at hcase
  cases hcase with
  | rejected hnot =>
    refine iff_of_true ⟨by simpa using hheader, by rintro _ ⟨⟩⟩ ?_
    exact fun h ↦ hnot h.data.toFits
  | command hfits hcd =>
    refine iff_of_true ⟨by simpa using hheader, by rintro _ ⟨⟩⟩ ?_
    intro h
    cases hcd.symm.trans h.data.data
  | unknown hdata hunk =>
    have hversion := inside_version_iff d.qmapMode hdata.toFits
    constructor
    · rintro ⟨huses, -⟩ ⟨-, hend | ⟨hip, hmux⟩⟩
      · exact hversion.mp (huses _ (by simp)) hend
      · rcases hunk with hunk | hunk
        · simp [hunk] at hip
        · omega
    · intro hno
      have hend := hversion.mpr fun h ↦ hno ⟨hdata, .inl h⟩
      exact ⟨by simpa using ⟨hheader, hend⟩, by rintro _ ⟨⟩⟩
  | unregistered hdata hip hmux hnet =>
    have hversion := inside_version_iff d.qmapMode hdata.toFits
    constructor
    · rintro ⟨huses, -⟩ ⟨-, hend | ⟨-, hneg | ⟨-, hsome, -⟩⟩⟩
      · exact hversion.mp (huses _ (by simp)) hend
      · have hindex : (RxUse.index (mux (RmnetMapHeader.read skbIn))).Inside skbIn.len
            d.qmapMode := huses _ (by simp)
        exact absurd hindex.1 (Int.not_le.mpr hneg)
      · simp [hnet] at hsome
    · intro hno
      have hend := hversion.mpr fun h ↦ hno ⟨hdata, .inl h⟩
      have hindex : (RxUse.index (mux (RmnetMapHeader.read skbIn))).Inside skbIn.len
          d.qmapMode :=
        ⟨Int.not_lt.mp fun h ↦ hno ⟨hdata, .inr ⟨by simp [hip], .inl h⟩⟩, hmux⟩
      exact ⟨by simpa using ⟨hheader, hend, hindex⟩, by rintro _ ⟨⟩⟩
  | @copy net protocol hdata hip hmux hnet =>
    have hversion := inside_version_iff d.qmapMode hdata.toFits
    constructor
    · rintro ⟨huses, hpay⟩ ⟨-, hend | ⟨-, hneg | ⟨-, -, hneg | ⟨rfl, hgt⟩⟩⟩⟩
      · exact hversion.mp (huses _ (by simp)) hend
      · have hindex : (RxUse.index (mux (RmnetMapHeader.read skbIn))).Inside skbIn.len
            d.qmapMode := huses _ (by simp)
        exact absurd hindex.1 (Int.not_le.mpr hneg)
      · have hsize : (RxUse.size (skbLen d (RmnetMapHeader.read skbIn))).Inside skbIn.len
            d.qmapMode := huses _ (by cases alloc <;> simp [copyFrame])
        exact absurd hsize (Int.not_le.mpr hneg)
      · exact absurd (skbLen_le_of_payload hpay (by omega)) (Int.not_le.mpr hgt)
    · intro hno
      have hend := hversion.mpr fun h ↦ hno ⟨hdata, .inl h⟩
      have hsome : (ipProtocol (skbIn.byte (RmnetMapHeader.read skbIn).hdrSize)).isSome := by
        simp [hip]
      have hindex : (RxUse.index (mux (RmnetMapHeader.read skbIn))).Inside skbIn.len
          d.qmapMode :=
        ⟨Int.not_lt.mp fun h ↦ hno ⟨hdata, .inr ⟨hsome, .inl h⟩⟩, hmux⟩
      have hsize : 0 ≤ skbLen d (RmnetMapHeader.read skbIn) :=
        Int.not_lt.mp fun h ↦
          hno ⟨hdata, .inr ⟨hsome, .inr ⟨hmux, by simp [hnet], .inl h⟩⟩⟩
      obtain ⟨hcopy, hpay⟩ := @copyFrame_inside d alloc orig skbIn net protocol hdata.toFits
        hsuf hsize fun htrue ↦ Int.not_lt.mp fun h ↦
          hno ⟨hdata, .inr ⟨hsome, .inr ⟨hmux, by simp [hnet], .inr ⟨htrue, h⟩⟩⟩⟩
      refine ⟨fun u hu ↦ ?_, hpay⟩
      rcases List.mem_append.mp hu with hu | hu
      · simp only [List.mem_cons, List.not_mem_nil, or_false] at hu
        rcases hu with rfl | rfl | rfl
        · exact hheader
        · exact hend
        · exact hindex
      · exact hcopy u hu

/-! ## Every buffer -/

/-- At every loop head `skb_in` is a suffix of the received buffer. -/
theorem reaches_suffix {alloc : ℕ → Bool} {st : RxState}
    (h : Loop.Reaches (rxBody d alloc) (rxStart orig) st) :
    ∃ base, st.skbIn.data = orig.data.drop base := by
  induction h with
  | refl => exact ⟨0, rfl⟩
  | @tail t u _ hb ih =>
    obtain ⟨base, hbase⟩ := ih
    have hpull : u.skbIn = t.skbIn.pull (RmnetMapHeader.read t.skbIn).frameLen := by
      unfold rxBody at hb
      split at hb
      next => cases hb
      next => split at hb <;> cases hb <;> rfl
    rw [hpull, SkBuff.pull]
    split
    · exact ⟨_, by simp only [hbase, List.drop_drop]; rfl⟩
    · exact ⟨base, hbase⟩

/-- On any received buffer, the passes of each of the two decoders stay in the buffer, the table and
their frames if and only if no frame that it comes to overreaches. -/
theorem decoders_inside_iff (d : SGobiUSBNet) (d' : QmiWwanF.SQmiWwanQmap) (alloc : ℕ → Bool)
    (orig : SkBuff) (buf : QmiWwanF.RxBuf) (chain : List QmiWwanF.Packet) :
    ((∀ st, Loop.Reaches (rxBody d alloc) (rxStart orig) st → 4 < st.skbIn.len →
        UsesInside d (alloc st.chain.length) st.skbIn ∧
          PayloadInside d (alloc st.chain.length) orig st.skbIn) ↔
      ∀ st, Loop.Reaches (rxBody d alloc) (rxStart orig) st → 4 < st.skbIn.len →
        ¬ Overreach d (alloc st.chain.length) st.skbIn) ∧
    ((∀ st, Loop.Reaches (QmiWwanF.rxBody d' alloc) (QmiWwanF.rxStart buf chain) st →
        4 < st.len → QmiWwanF.UsesInside d' (alloc st.data) st ∧
          QmiWwanF.PayloadInside d' (alloc st.data) buf st) ↔
      ∀ st, Loop.Reaches (QmiWwanF.rxBody d' alloc) (QmiWwanF.rxStart buf chain) st →
        4 < st.len → ¬ QmiWwanF.Overreach d' (alloc st.data) st) := by
  refine ⟨⟨?_, ?_⟩, QmiWwanF.rxFixup_inside_iff d' alloc buf chain⟩
  · intro h st hst hlen
    exact (inside_iff hlen (reaches_suffix hst)).mp (h st hst hlen)
  · intro h st hst hlen
    exact (inside_iff hlen (reaches_suffix hst)).mpr (h st hst hlen)

/-- A driver with one registered device. -/
def oneDev : SGobiUSBNet where
  mpQmapNetDev i := if i = 0 then some (NetDevice.start .rawip []) else none
  qmapMode := 1
  qmapVersion := 9
  dlMinimumPadding := 0
  qmapMode_le := by decide

/-- A received buffer with memory behind it that looks like the start of an IP packet. -/
def skbOf (data : List UInt8) : SkBuff := ⟨[], data, fun _ ↦ 0x45, 0, 0⟩

/-- Two headers and no payload; a mux id below the first one; and a pad that is larger than the
frame, for both decoders. -/
theorem frames_astray :
    ¬ UsesInside oneDev true (skbOf [0x40, 0x81, 0, 0, 4, 0, 0, 0]) ∧
      ¬ UsesInside oneDev true (skbOf [0x00, 0x80, 0, 1, 0x45]) ∧
      ¬ UsesInside oneDev true (skbOf [0x3f, 0x81, 0, 1, 0x45]) ∧
      ¬ QmiWwanF.UsesInside QmiWwanF.QmapRun.twoDevs true
        (QmiWwanF.rxStart (QmiWwanF.QmapRun.bufOf [0x3f, 0x81, 0, 1, 0x45]) []) := by
  refine ⟨?_, ?_, ?_, ?_⟩
  · exact fun h ↦ absurd (h (.read 8 1) (by decide)) (by decide)
  · exact fun h ↦ absurd (h (.index (-1)) (by decide)) (by decide)
  · exact fun h ↦ absurd (h (.size (-62)) (by decide)) (by decide)
  · exact fun h ↦ absurd (h (.size (-62)) (by decide)) (by decide)

end Wwan.GobiNet
