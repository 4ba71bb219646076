import Wwan.QmiWwanF.RxChain

/-!
# Where the Fibocom decoder looks

The check on `skb_len` has an upper bound and no lower one, so a pad that is larger than the frame
makes it negative. A clone is then not trimmed at all and shows the rest of the buffer; a copy
allocates too little and copies a negative length. Nothing else leads out of the frame: `qmap_mode`
is unsigned, so that a mux id below the first one is taken for a large one.
-/

namespace Wwan.QmiWwanF

open Wwan.Kernel Wwan.Bytes Wwan.Memory

variable {d : SQmiWwanQmap} {alloc : ℕ → Bool} {st : RxState} {buf : RxBuf}

/-- What a pass uses the numbers of the frame for is right. -/
def UsesInside (d : SQmiWwanQmap) (alloc : Bool) (st : RxState) : Prop :=
  ∀ u ∈ (qmapFrame d alloc st).1, u.Inside st.len d.qmapMode

/-- The payload of the packet that a pass queues is a slice of its own frame in the buffer. -/
def PayloadInside (d : SQmiWwanQmap) (alloc : Bool) (buf : RxBuf) (st : RxState) : Prop :=
  ∀ skb mem headroom, (qmapFrame d alloc st).2 = .queue skb mem headroom →
    ∃ n ≤ (QmapHdr.read st.mem st.data).pktLen,
      st.data + 4 + (QmapHdr.read st.mem st.data).pktLen ≤ buf.data + buf.len ∧
        (skb.resolve mem).bytes.drop ethHlen = peek buf.mem (st.data + 4) n

/-- A data frame for a registered device with a pad larger than the frame, unless it is to be cloned
and there is no memory for the clone. -/
def Overreach (d : SQmiWwanQmap) (alloc : Bool) (st : RxState) : Prop :=
  (∃ net protocol, DataFor d st net protocol) ∧ (QmapHdr.read st.mem st.data).skbLen < 0 ∧
    (alloc = true ∨ st.headroom < ethHlen)

/-! ## The loop heads -/

/-- From `skb_in->data` on the buffer is as it was received. -/
structure Head (buf : RxBuf) (st : RxState) : Prop where
  roomy : Roomy st
  mem : ∀ i, st.data ≤ i → st.mem i = buf.mem i
  ends : st.data + st.len = buf.data + buf.len

/-- A packet that is queued is written in front of its payload. -/
theorem qmapFrame_queue {alloc : Bool} {skb : RxSkb} {mem : ℕ → UInt8} {headroom : ℕ}
    (hroomy : Roomy st) (h : (qmapFrame d alloc st).2 = .queue skb mem headroom) :
    (∀ i, st.data + 4 ≤ i → mem i = st.mem i) ∧
      Roomy ({ st with mem, headroom, chain := st.chain ++ [skb] }.pull
        ((QmapHdr.read st.mem st.data).pktLen + 4)) := by
  cases hkind : frameKind d alloc st.mem st.data st.len with
  | bad => cases (qmapFrame_of_bad hkind).symm.trans h
  | skip => cases (qmapFrame_of_skip hkind).symm.trans h
  | packet =>
    rcases qmapFrame_of_packet hroomy hkind with hover | ⟨skb', mem', headroom', hq, -, hmem, hr⟩
    · cases hover.symm.trans h
    · cases hq.symm.trans h
      exact ⟨hmem, hr⟩

theorem Head.start (chain : List Packet) : Head buf (rxStart buf chain) :=
  ⟨fun h ↦ Nat.le_trans h (Nat.le_add_right _ 4), fun _ _ ↦ rfl, rfl⟩

theorem Head.next (h : Head buf st) {st' : RxState} (hb : rxBody d alloc st = .inr st') :
    Head buf st' := by
  by_cases hlen : st.len ≤ 4
  · cases (rxBody_of_short hlen).symm.trans hb
  have hlt := Nat.not_le.mp hlen
  have hends := h.ends
  cases hv : (qmapFrame d (alloc st.data) st).2 with
  | error => cases (rxBody_of_error hlt hv).symm.trans hb
  | overrun =>
    rw [rxBody, if_neg hlen, hv] at hb
    cases hb
  | skip =>
    have hle := (fits_of_qmapFrame (by rw [hv]; rintro ⟨⟩)).frame_le
    cases (rxBody_of_skip hlt hv).symm.trans hb
    refine ⟨fun hroom ↦ ?_, fun i hi ↦ h.mem i (Nat.le_trans (Nat.le_add_right _ _) hi), ?_⟩
    · exact Nat.le_trans (h.roomy hroom) (by simp only [RxState.pull]; omega)
    · simp only [RxState.pull]
      omega
  | queue skb mem headroom =>
    have hle := (fits_of_qmapFrame (by rw [hv]; rintro ⟨⟩)).frame_le
    obtain ⟨hmem, hroomy⟩ := qmapFrame_queue h.roomy hv
    cases (rxBody_of_queue hlt hv).symm.trans hb
    refine ⟨hroomy, fun i hi ↦ ?_, ?_⟩
    · simp only [RxState.pull] at hi ⊢
      rw [hmem i (by omega)]
      exact h.mem i (by omega)
    · simp only [RxState.pull]
      omega

theorem Head.of_reaches {chain : List Packet}
    (h : Loop.Reaches (rxBody d alloc) (rxStart buf chain) st) : Head buf st := by
  induction h with
  | refl => exact .start chain
  | tail _ hb ih => exact ih.next hb

/-! ## One pass -/

/-- A mux id that is in use as an unsigned number is so as a signed one. -/
theorem mux_inside {h : QmapHdr} (hmux : h.muxIndex < d.qmapMode) :
    0 ≤ h.mux ∧ h.mux < d.qmapMode := by
  have hmode := d.qmapMode_le
  have hid := h.muxId.toNat_lt
  rw [fibocomWwanQmap] at hmode
  rw [QmapHdr.muxIndex, u32, QmapHdr.mux, fibocomQmapMuxId] at hmux
  rw [QmapHdr.mux, fibocomQmapMuxId]
  omega

theorem inside_header (mode : ℕ) (hlen : 4 < st.len) : (RxUse.read 0 4).Inside st.len mode :=
  ⟨by decide, by simp only [Nat.cast_zero]; omega⟩

theorem inside_version (mode : ℕ) (hlen : 4 < st.len) : (RxUse.read 4 1).Inside st.len mode :=
  ⟨by decide, by simp only [Nat.cast_ofNat]; omega⟩

/-- The payload of a clone that is trimmed. -/
theorem cloneFrame_payload (hhead : Head buf st) (hfits : Fits st)
    (hroom : ethHlen ≤ st.headroom) (hskb : 0 ≤ (QmapHdr.read st.mem st.data).skbLen)
    {net : QmapNet} {protocol : ℕ} {skb : RxSkb} {mem : ℕ → UInt8} {headroom : ℕ}
    (h : (cloneFrame true st net protocol).2 = .queue skb mem headroom) :
    (skb.resolve mem).bytes.drop ethHlen =
      peek buf.mem (st.data + 4) (QmapHdr.read st.mem st.data).skbLen.toNat := by
  cases h
  have hroomy := hhead.roomy hroom
  have hle := hfits.frame_le
  have hmax := hfits.skbLen_le
  obtain ⟨n, hn⟩ := Int.eq_ofNat_of_zero_le hskb
  have hpkt : n ≤ (QmapHdr.read st.mem st.data).pktLen := by
    rw [QmapHdr.skbLen] at hn
    omega
  have htrim : trimLen (st.len - 4) (n : ℤ) = n := by
    rw [trimLen, u32_natCast (by omega)]
    omega
  obtain ⟨start, hstart⟩ : ∃ start, start + ethHlen = st.data + 4 :=
    ⟨st.data + 4 - ethHlen, by omega⟩
  have hstart' : st.data + 4 - ethHlen = start := by omega
  simp only [RxSkb.resolve, hstart', hn, htrim, Int.toNat_natCast]
  rw [peek_add, List.drop_left' length_peek, hstart]
  refine peek_congr fun i hi _ ↦ ?_
  rw [poke_of_outside (.inr (by rw [QmapNet.length_ethHdr]; omega))]
  exact hhead.mem i (by omega)

/-- The payload of a copy. -/
theorem copyFrame_payload (hhead : Head buf st) {net : QmapNet} {protocol : ℕ} {skb : RxSkb}
    {mem : ℕ → UInt8} {headroom : ℕ}
    (h : (copyFrame true st net protocol).2 = .queue skb mem headroom) :
    (skb.resolve mem).bytes.drop ethHlen =
      peek buf.mem (st.data + 4) (QmapHdr.read st.mem st.data).skbLen.toNat := by
  by_cases hneg : (QmapHdr.read st.mem st.data).skbLen < 0
  · simp [copyFrame, hneg] at h
  · simp only [copyFrame, if_true, if_neg hneg] at h
    cases h
    simp only [RxSkb.resolve]
    rw [List.drop_left' (net.length_ethHdr protocol)]
    exact peek_congr fun i hi _ ↦ hhead.mem i (Nat.le_trans (Nat.le_add_right _ _) hi)

/-- A payload of `skb_len` bytes ends in the frame. -/
theorem payloadInside_of_eq (d : SQmiWwanQmap) (alloc : Bool) (hhead : Head buf st)
    (hfits : Fits st) (hskb : 0 ≤ (QmapHdr.read st.mem st.data).skbLen)
    (h : ∀ skb mem headroom, (qmapFrame d alloc st).2 = .queue skb mem headroom →
      (skb.resolve mem).bytes.drop ethHlen =
        peek buf.mem (st.data + 4) (QmapHdr.read st.mem st.data).skbLen.toNat) :
    PayloadInside d alloc buf st := by
  intro skb mem headroom hq
  have hends := hhead.ends
  have hle := hfits.frame_le
  refine ⟨_, ?_, by omega, h skb mem headroom hq⟩
  rw [QmapHdr.skbLen] at hskb ⊢
  omega

/-- A pass stays in its frame if and only if the frame does not overreach. -/
theorem inside_iff {alloc : Bool} (hhead : Head buf st) (hlen : 4 < st.len) :
    UsesInside d alloc st ∧ PayloadInside d alloc buf st ↔ ¬ Overreach d alloc st := by
  have hheader := inside_header d.qmapMode hlen
  have hversion := inside_version d.qmapMode hlen
  have hcase := qmapFrame_case d alloc st
  have hpayload := payloadInside_of_eq d alloc hhead
  unfold UsesInside PayloadInside Overreach at *
  generalize qmapFrame d alloc st = r at hcase hpayload
  cases hcase with
  | rejected hnot =>
    refine iff_of_true ⟨by simpa using hheader, by rintro _ _ _ ⟨⟩⟩ ?_
    rintro ⟨⟨net, protocol, hdata⟩, -⟩
    exact hnot hdata.fits
  | command hfits hcd =>
    refine iff_of_true ⟨by simpa using hheader, by rintro _ _ _ ⟨⟩⟩ ?_
    rintro ⟨⟨net, protocol, hdata⟩, -⟩
    cases hcd.symm.trans hdata.data
  | unknown hfits hcd hunk =>
    refine iff_of_true ⟨by simpa using ⟨hheader, hversion⟩, by rintro _ _ _ ⟨⟩⟩ ?_
    rintro ⟨⟨net, protocol, hdata⟩, -⟩
    rcases hunk with hunk | hunk
    · cases hunk.symm.trans hdata.ip
    · exact absurd hdata.mux_lt (Nat.not_lt.mpr hunk)
  | unregistered hfits hcd hip hmux hnet =>
    refine iff_of_true
      ⟨by simpa using ⟨hheader, hversion, mux_inside hmux⟩, by rintro _ _ _ ⟨⟩⟩ ?_
    rintro ⟨⟨net, protocol, hdata⟩, -⟩
    cases hnet.symm.trans hdata.registered
  | @clone net protocol hdata hroom =>
    have hmux := mux_inside hdata.mux_lt
    cases alloc with
    | false =>
      refine iff_of_true
        ⟨by simpa [cloneFrame] using ⟨hheader, hversion, hmux⟩, by rintro _ _ _ ⟨⟩⟩ ?_
      rintro ⟨-, -, htrue | hlt⟩
      · cases htrue
      · exact absurd hroom (Nat.not_le.mpr hlt)
    | true =>
      constructor
      · rintro ⟨huses, -⟩ ⟨-, hneg, -⟩
        have hsize : 0 ≤ (QmapHdr.read st.mem st.data).skbLen :=
          huses (.size (QmapHdr.read st.mem st.data).skbLen) (by simp [cloneFrame])
        exact absurd hsize (Int.not_le.mpr hneg)
      · intro hno
        have hskb : 0 ≤ (QmapHdr.read st.mem st.data).skbLen :=
          Int.not_lt.mp fun hneg ↦ hno ⟨⟨net, protocol, hdata⟩, hneg, .inl rfl⟩
        refine ⟨by simpa [cloneFrame] using ⟨hheader, hversion, hmux, hskb⟩, ?_⟩
        exact hpayload hdata.fits hskb fun skb mem headroom hq ↦
          cloneFrame_payload hhead hdata.fits hroom hskb hq
  | @copy net protocol hdata hroom =>
    have hmux := mux_inside hdata.mux_lt
    constructor
    · rintro ⟨huses, -⟩ ⟨-, hneg, -⟩
      have hsize : 0 ≤ (QmapHdr.read st.mem st.data).skbLen :=
        huses (.size (QmapHdr.read st.mem st.data).skbLen) (by cases alloc <;> simp [copyFrame])
      exact absurd hsize (Int.not_le.mpr hneg)
    · intro hno
      have hskb : 0 ≤ (QmapHdr.read st.mem st.data).skbLen :=
        Int.not_lt.mp fun hneg ↦ hno ⟨⟨net, protocol, hdata⟩, hneg, .inr hroom⟩
      have hread : (RxUse.read 4 (QmapHdr.read st.mem st.data).skbLen).Inside st.len
          d.qmapMode := by
        have hle := hdata.fits.frame_le
        refine ⟨hskb, ?_⟩
        rw [QmapHdr.skbLen]
        omega
      cases alloc with
      | false =>
        exact ⟨by simpa [copyFrame] using ⟨hheader, hversion, hmux, hskb⟩,
          by rintro _ _ _ ⟨⟩⟩
      | true =>
        refine ⟨by simpa [copyFrame] using ⟨hheader, hversion, hmux, hskb, hread⟩, ?_⟩
        exact hpayload hdata.fits hskb fun skb mem headroom hq ↦
          copyFrame_payload hhead hq

/-- On any received buffer, the passes of the decoder stay in their frames if and only if no frame
that it comes to overreaches. -/
theorem rxFixup_inside_iff (d : SQmiWwanQmap) (alloc : ℕ → Bool) (buf : RxBuf)
    (chain : List Packet) :
    (∀ st, Loop.Reaches (rxBody d alloc) (rxStart buf chain) st → 4 < st.len →
        UsesInside d (alloc st.data) st ∧ PayloadInside d (alloc st.data) buf st) ↔
      ∀ st, Loop.Reaches (rxBody d alloc) (rxStart buf chain) st → 4 < st.len →
        ¬ Overreach d (alloc st.data) st := by
  constructor
  · intro h st hst hlen
    exact (inside_iff (.of_reaches hst) hlen).mp (h st hst hlen)
  · intro h st hst hlen
    exact (inside_iff (.of_reaches hst) hlen).mpr (h st hst hlen)

end Wwan.QmiWwanF
