import Wwan.QmiWwanQ.Decode

/-!
# Termination and memory safety of the QMAP decoder

Two questions about `qmap_packet_decode` on an arbitrary received buffer.

* *Does every pass leave the loop or shorten the buffer?* The pull at
  `skip_pkt` shortens it only when the frame lies inside it, and one of the two
  jumps there comes before the length check: a frame for a device that is NULL.
  Such a frame that claims more bytes than there are left is met again and again
  (`Stuck`); apart from it the remaining length is a measure.

* *Does a pass stay inside the buffer, and a packet inside its frame?* The
  version nibble is read at `hdr_size` although a frame may consist of an 8-byte
  header and nothing else, and `skb_len` is computed modulo `2 ^ 32`, so that a
  huge `dl_minimum_padding` makes it exceed `pkt_len` (`Overreach`).
-/

namespace Wwan.QmiWwanQ

open Wwan.Kernel Wwan.Bytes

variable {d : SQmiWwanQmap} {alloc : ℕ → Bool}

/-! ## Passes that stay in the loop -/

/-- A pass that stays in the loop skips or queues one frame and pulls it. -/
theorem qmapBody_inr {st st' : DecodeState} (h : qmapBody d alloc st = .inr st') :
    4 < st.skbIn.len ∧
      st'.skbIn = st.skbIn.pull (RmnetMapHeader.read st.skbIn).frameLen ∧
      (Unregistered d st.skbIn ∨ ∃ net, Fits d st.skbIn net) := by
  unfold qmapBody at h
  split at h
  · cases h
  · rename_i hlen
    have hcase := qmapFrame_case d (alloc st.skbChain.length) st.skbIn
    generalize qmapFrame d (alloc st.skbChain.length) st.skbIn = r at h hcase
    refine ⟨Nat.not_le.mp hlen, ?_⟩
    cases hcase with
    | rejected _ => cases h
    | unregistered hun =>
      cases h
      exact ⟨rfl, .inl hun⟩
    | command hfits _ =>
      cases h
      exact ⟨rfl, .inr ⟨_, hfits⟩⟩
    | dropped _ _ _ => cases h
    | delivered hfits _ _ _ =>
      cases h
      exact ⟨rfl, .inr ⟨_, hfits⟩⟩

/-- A frame for a NULL device keeps the decoder in the loop and queues nothing. -/
theorem qmapBody_of_unregistered {st : DecodeState} (hlen : 4 < st.skbIn.len)
    (hun : Unregistered d st.skbIn) :
    qmapBody d alloc st =
      .inr ⟨st.skbIn.pull (RmnetMapHeader.read st.skbIn).frameLen, st.skbChain⟩ := by
  have hmux : ¬ d.qmapMode ≤ (RmnetMapHeader.read st.skbIn).muxIndex :=
    Nat.not_le.mpr hun.mux_lt
  have hframe : qmapFrame d (alloc st.skbChain.length) st.skbIn = ([⟨0, 4⟩], .skip) := by
    simp [qmapFrame, hmux, hun.unregistered]
  rw [qmapBody, if_neg (Nat.not_le.mpr hlen), hframe]

/-! ## Termination -/

/-- The pass at `st` leaves the loop or strictly shortens `skb_in`. -/
def Progress (d : SQmiWwanQmap) (alloc : ℕ → Bool) (st : DecodeState) : Prop :=
  ∀ st', qmapBody d alloc st = .inr st' → st'.skbIn.len < st.skbIn.len

/-- A frame for a NULL device that claims more bytes than the buffer has left. -/
structure Stuck (d : SQmiWwanQmap) (skbIn : SkBuff) : Prop where
  enters : 4 < skbIn.len
  unregistered : Unregistered d skbIn
  overlong : skbIn.len < (RmnetMapHeader.read skbIn).frameLen

/-- A pass over a stuck buffer changes nothing. -/
theorem Stuck.qmapBody_eq {st : DecodeState} (h : Stuck d st.skbIn) :
    qmapBody d alloc st = .inr st := by
  rw [qmapBody_of_unregistered h.enters h.unregistered, SkBuff.pull_of_gt _ h.overlong]

/-- Stuck buffers are the only ones on which a pass makes no progress. -/
theorem progress_iff {st : DecodeState} : Progress d alloc st ↔ ¬ Stuck d st.skbIn := by
  constructor
  · intro h hstuck
    exact Nat.lt_irrefl _ (h st hstuck.qmapBody_eq)
  · intro hnot st' hb
    obtain ⟨hlen, hpull, hcase⟩ := qmapBody_inr hb
    have hle : (RmnetMapHeader.read st.skbIn).frameLen ≤ st.skbIn.len := by
      rcases hcase with hun | ⟨net, hfits⟩
      · exact Nat.not_lt.mp fun hlt ↦ hnot ⟨hlen, hun, hlt⟩
      · exact hfits.frame_le
    have hpos := (RmnetMapHeader.read st.skbIn).frameLen_pos
    rw [hpull, SkBuff.len_pull_of_le _ hle]
    omega

/-- On any received buffer, `qmap_packet_decode` makes progress in each pass, and
so terminates, exactly when no frame it comes to is stuck. -/
theorem qmapPacketDecode_progress_iff (d : SQmiWwanQmap) (alloc : ℕ → Bool) (skbIn : SkBuff) :
    ((∀ st, Loop.Reaches (qmapBody d alloc) (decodeStart skbIn) st → Progress d alloc st) ∧
        Loop.Halts (qmapBody d alloc) (decodeStart skbIn)) ↔
      ∀ st, Loop.Reaches (qmapBody d alloc) (decodeStart skbIn) st → ¬ Stuck d st.skbIn := by
  constructor
  · rintro ⟨hprog, -⟩ st hst
    exact progress_iff.mp (hprog st hst)
  · intro hnot
    have hprog : ∀ st, Loop.Reaches (qmapBody d alloc) (decodeStart skbIn) st →
        Progress d alloc st := fun st hst ↦ progress_iff.mpr (hnot st hst)
    exact ⟨hprog, Loop.halts_of_measure (fun st ↦ st.skbIn.len)
      fun t u ht hb ↦ hprog t ht u hb⟩

/-- A driver with one QMAP device that is not registered. -/
def bareDev : SQmiWwanQmap :=
  { mpQmapNetDev := fun _ ↦ none
    qmapMode := 1
    qmapVersion := 5
    txCtx := ⟨1, 1500, 0⟩
    qmapMode_le := by decide }

/-- Five bytes, of which the first four announce a frame of 65535. -/
def overlongBuf : SkBuff :=
  { head := [], data := [0x00, 0x81, 0xff, 0xff, 0x45], after := fun _ ↦ 0, tailroom := 0,
    protocol := 0 }

/-- On `overlongBuf` the decoder spins: its first pass makes no progress and the
loop is never left. -/
theorem qmapPacketDecode_spins :
    ¬ Progress bareDev (fun _ ↦ true) (decodeStart overlongBuf) ∧
      ¬ Loop.Halts (qmapBody bareDev fun _ ↦ true) (decodeStart overlongBuf) := by
  have hstuck : Stuck bareDev overlongBuf := ⟨by decide, ⟨by decide, by decide⟩, by decide⟩
  exact ⟨fun h ↦ progress_iff.mp h hstuck, Loop.not_halts_of_fixed .refl hstuck.qmapBody_eq⟩

/-! ## Bounds -/

/-- The accesses of the pass at `skb_in` lie inside the buffer. -/
def ReadsInside (d : SQmiWwanQmap) (alloc : Bool) (skbIn : SkBuff) : Prop :=
  ∀ a ∈ (qmapFrame d alloc skbIn).1, a.off + a.len ≤ skbIn.len

/-- The packet queued by the pass at `skb_in`, if any, is a slice of the received
buffer `orig` inside the frame, which starts `base` bytes into it. -/
def PacketInside (d : SQmiWwanQmap) (alloc : Bool) (orig skbIn : SkBuff) : Prop :=
  ∀ pkt, (qmapFrame d alloc skbIn).2 = .deliver pkt →
    ∃ base n, skbIn.data = orig.data.drop base ∧
      n ≤ (RmnetMapHeader.read skbIn).pktLen ∧
      base + (RmnetMapHeader.read skbIn).frameLen ≤ orig.len ∧
      pkt.payload = (orig.data.drop (base + (RmnetMapHeader.read skbIn).hdrSize)).take n

/-- A data frame that makes the decoder read too far: its version nibble lies
behind the buffer, or more bytes than the frame holds are copied. -/
structure Overreach (d : SQmiWwanQmap) (alloc : Bool) (skbIn : SkBuff) (net : NetDevice) :
    Prop where
  fits : Fits d skbIn net
  data : (RmnetMapHeader.read skbIn).cdBit = false
  tooFar : skbIn.len = (RmnetMapHeader.read skbIn).hdrSize ∨
    ((ipProtocol (skbIn.byte (RmnetMapHeader.read skbIn).hdrSize)).isSome ∧ alloc = true ∧
      (RmnetMapHeader.read skbIn).pktLen <
        (RmnetMapHeader.read skbIn).skbLen d.dlMinimumPadding)

/-- At every loop head `skb_in` is a suffix of the received buffer. -/
theorem reaches_suffix {orig : SkBuff} {st : DecodeState}
    (h : Loop.Reaches (qmapBody d alloc) (decodeStart orig) st) :
    ∃ base, st.skbIn.data = orig.data.drop base := by
  induction h with
  | refl => exact ⟨0, rfl⟩
  | tail _ hb ih =>
    obtain ⟨base, hbase⟩ := ih
    obtain ⟨-, hpull, -⟩ := qmapBody_inr hb
    rw [hpull, SkBuff.pull]
    split
    · exact ⟨_, by simp only [hbase, List.drop_drop]; rfl⟩
    · exact ⟨base, hbase⟩

/-- A frame that passes the checks and does not overreach is read inside the
buffer, and its packet is a slice of the frame. -/
theorem Fits.inside {orig skbIn : SkBuff} {net : NetDevice} (hlen : 4 < skbIn.len)
    (hsuf : ∃ base, skbIn.data = orig.data.drop base) (hfits : Fits d skbIn net)
    (hnib : skbIn.len ≠ (RmnetMapHeader.read skbIn).hdrSize)
    (hcopy : (RmnetMapHeader.read skbIn).skbLen d.dlMinimumPadding ≤
      (RmnetMapHeader.read skbIn).pktLen) (protocol : ℕ) :
    (∀ a ∈ rxReads d (RmnetMapHeader.read skbIn), a.off + a.len ≤ skbIn.len) ∧
      ∃ base n, skbIn.data = orig.data.drop base ∧
        n ≤ (RmnetMapHeader.read skbIn).pktLen ∧
        base + (RmnetMapHeader.read skbIn).frameLen ≤ orig.len ∧
        (rxPacket d skbIn net protocol).payload =
          (orig.data.drop (base + (RmnetMapHeader.read skbIn).hdrSize)).take n := by
  have hframe := hfits.frame_le
  rw [RmnetMapHeader.frameLen] at hframe
  constructor
  · intro a ha
    rcases List.mem_append.mp ha with ha | ha
    · simp only [List.mem_cons, List.not_mem_nil, or_false] at ha
      rcases ha with rfl | rfl | rfl <;> dsimp only <;> omega
    · cases hnext : (RmnetMapHeader.read skbIn).nextHdr with
      | false => simp [hnext] at ha
      | true =>
        have hsize : (RmnetMapHeader.read skbIn).hdrSize = 8 := by
          simp [RmnetMapHeader.hdrSize, hnext]
        simp only [hnext, if_true, List.mem_singleton] at ha
        subst ha
        dsimp only
        omega
  · obtain ⟨base, hbase⟩ := hsuf
    have hpos := (RmnetMapHeader.read skbIn).hdrSize_pos
    have horig : skbIn.len = orig.len - base := by
      simp [SkBuff.len, hbase]
    refine ⟨base, _, hbase, hcopy, ?_, ?_⟩
    · rw [RmnetMapHeader.frameLen]
      omega
    · rw [rxPacket, SkBuff.bytes_eq_slice _ (by omega), hbase, List.drop_drop]

/-- A pass is inside the buffer, and its packet inside the frame, exactly when the
frame does not overreach. -/
theorem inside_iff {alloc : Bool} {orig skbIn : SkBuff} (hlen : 4 < skbIn.len)
    (hsuf : ∃ base, skbIn.data = orig.data.drop base) :
    (ReadsInside d alloc skbIn ∧ PacketInside d alloc orig skbIn) ↔
      ∀ net, ¬ Overreach d alloc skbIn net := by
  have hcase := qmapFrame_case d alloc skbIn
  unfold ReadsInside PacketInside
  generalize qmapFrame d alloc skbIn = r at hcase
  -- Only the header is read, and nothing is queued, in a pass that ends before the data.
  have hheader : (∀ a ∈ [(⟨0, 4⟩ : Access)], a.off + a.len ≤ skbIn.len) := by
    intro a ha
    rw [List.mem_singleton.mp ha]
    exact Nat.le_of_lt hlen
  cases hcase with
  | rejected hrej => exact ⟨fun _ net h ↦ hrej net h.fits, fun _ ↦ ⟨hheader, nofun⟩⟩
  | unregistered hun =>
    exact ⟨fun _ net h ↦ (nomatch hun.unregistered.symm.trans h.fits.registered),
      fun _ ↦ ⟨hheader, nofun⟩⟩
  | command _ hcd =>
    exact ⟨fun _ net h ↦ (nomatch hcd.symm.trans h.data), fun _ ↦ ⟨hheader, nofun⟩⟩
  | @dropped net hfits hcd hip =>
    constructor
    · rintro ⟨hreads, -⟩ net' ⟨-, -, hover⟩
      have hnib := hreads ⟨(RmnetMapHeader.read skbIn).hdrSize, 1⟩ (by simp)
      dsimp only at hnib
      rcases hover with hover | ⟨hsome, halloc, -⟩
      · omega
      · rcases hip with hip | hip
        · simp [hip] at hsome
        · simp [hip] at halloc
    · intro hno
      have hne : skbIn.len ≠ (RmnetMapHeader.read skbIn).hdrSize := fun h ↦
        hno net ⟨hfits, hcd, .inl h⟩
      have hframe := hfits.frame_le
      rw [RmnetMapHeader.frameLen] at hframe
      refine ⟨fun a ha ↦ ?_, nofun⟩
      rcases List.mem_cons.mp ha with rfl | ha
      · exact Nat.le_of_lt hlen
      · rw [List.mem_singleton.mp ha]
        dsimp only
        omega
  | @delivered net protocol hfits hcd hip halloc =>
    constructor
    · rintro ⟨hreads, hpkt⟩ net' ⟨-, -, hover⟩
      have hnib := hreads ⟨(RmnetMapHeader.read skbIn).hdrSize, 1⟩ (by simp [rxReads])
      obtain ⟨base, n, -, hn, -, hpay⟩ := hpkt _ rfl
      have hcount := congrArg List.length hpay
      simp only [rxPacket, SkBuff.bytes, List.length_map, List.length_range,
        List.length_take] at hcount
      dsimp only at hnib
      rcases hover with hover | ⟨-, -, hover⟩ <;> omega
    · intro hno
      have hne : skbIn.len ≠ (RmnetMapHeader.read skbIn).hdrSize := fun h ↦
        hno net ⟨hfits, hcd, .inl h⟩
      have hcopy := Nat.not_lt.mp fun h ↦
        hno net ⟨hfits, hcd, .inr ⟨by simp [hip], halloc, h⟩⟩
      obtain ⟨hreads, hpkt⟩ := hfits.inside hlen hsuf hne hcopy protocol
      refine ⟨hreads, fun pkt h ↦ ?_⟩
      obtain rfl := Verdict.deliver.inj h
      exact hpkt

/-- On any received buffer, every pass of `qmap_packet_decode` reads inside the
buffer and queues a slice of its own frame exactly when no frame it comes to
overreaches. -/
theorem qmapPacketDecode_inside_iff (d : SQmiWwanQmap) (alloc : ℕ → Bool) (orig : SkBuff) :
    (∀ st, Loop.Reaches (qmapBody d alloc) (decodeStart orig) st → 4 < st.skbIn.len →
        ReadsInside d (alloc st.skbChain.length) st.skbIn ∧
          PacketInside d (alloc st.skbChain.length) orig st.skbIn) ↔
      ∀ st, Loop.Reaches (qmapBody d alloc) (decodeStart orig) st → 4 < st.skbIn.len →
        ∀ net, ¬ Overreach d (alloc st.skbChain.length) st.skbIn net := by
  constructor
  · intro h st hst hlen
    exact (inside_iff hlen (reaches_suffix hst)).mp (h st hst hlen)
  · intro h st hst hlen
    exact (inside_iff hlen (reaches_suffix hst)).mpr (h st hst hlen)

/-- A driver with one registered raw-IP device. -/
def rawipDev : SQmiWwanQmap :=
  { mpQmapNetDev := fun i ↦ if i.val = 0 then some (NetDevice.start .rawip []) else none
    qmapMode := 1
    qmapVersion := 9
    txCtx := ⟨1, 1500, 0⟩
    qmapMode_le := by decide }

/-- A v5 header announcing no payload, and nothing behind it. -/
def bareHeaderBuf : SkBuff :=
  { head := [], data := [0x40, 0x81, 0x00, 0x00, 0x04, 0x00, 0x00, 0x00], after := fun _ ↦ 0x45,
    tailroom := 0, protocol := 0 }

/-- On `bareHeaderBuf` the version nibble is read from behind the buffer. -/
theorem qmapPacketDecode_overreads :
    4 < (decodeStart bareHeaderBuf).skbIn.len ∧ ¬ ReadsInside rawipDev true bareHeaderBuf := by
  refine ⟨by decide, fun h ↦ ?_⟩
  exact absurd (h ⟨8, 1⟩ (by decide)) (by decide)

end Wwan.QmiWwanQ
