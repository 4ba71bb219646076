import Wwan.QmiMerge.Collect

/-!
# When the copies agree

A fragment that is longer than its packet takes in what is left in the buffer from before, which
differs from copy to copy, and a long one leaves an array. `merge_agree_iff` says for which packets
the copies return the same, and that messages which are cut as they should be come out whole.
-/

namespace Wwan.QmiMerge

open Reassembly

/-! ## Packets and messages -/

/-- An empty packet buffer. -/
abbrev EmptyPacket := { s : QmiMsgPacket // s.len = 0 }

/-- The copies return the same messages at the same packets. -/
def Agree (packets : List Packet) : Prop :=
  ∀ (s₁ s₂ s₃ : EmptyPacket) (rs₁ rs₂ rs₃ : List Received),
    rs₁.map Received.packet = packets → rs₂.map Received.packet = packets →
      rs₃.map Received.packet = packets →
        ∃ messages, mergeAll mergeQmiRspPacket s₁ rs₁ = some messages ∧
          mergeAll qmiWwanMergeQmiRsp s₂ rs₂ = some messages ∧
          mergeAll mergeRecQmiMsg s₃ rs₃ = some messages

/-- A message of 1 to 4096 bytes. -/
abbrev Message := { m : List UInt8 // m ≠ [] ∧ m.length ≤ bufSize }

/-- A fragment with its header. -/
def fragmentPacket (f : Fragment UInt8) : List UInt8 :=
  Bytes.toLe16 mergePacketIdentity ++ Bytes.toLe16 mergePacketVersion ++
    Bytes.toLe16 f.data.length ++ Bytes.toLe16 f.total ++ f.data

/-- The packets of a list of messages. -/
def messagePackets (messages : List Message) : List (List UInt8) :=
  messages.flatMap fun m ↦ (fragments mergePacketMaxPayloadSize m.1).map fragmentPacket

/-- A copy returns every message at its last fragment, unchanged. -/
def Returns (merge : Merge) (messages : List Message) : Prop :=
  ∀ (s : EmptyPacket) (rs : List Received),
    (rs.map fun r ↦ r.packet.1) = messagePackets messages →
      mergeAll merge s rs = some (messages.flatMap fun m ↦ atLast mergePacketMaxPayloadSize m.1)

/-! ## What is in the buffer behind a packet -/

section Stale

variable {r₁ r₂ : Received} {p pending₁ pending₂ : List UInt8} {len : ℕ} {stale : Bool}

/-- Of what fits, the same is returned whatever is in the buffers behind the packet. -/
theorem FitsNext.step_eq (h : FitsNext len stale p) (hp₁ : r₁.packet.1 = p)
    (hp₂ : r₂.packet.1 = p) (hlen₁ : pending₁.length = len) (hlen₂ : pending₂.length = len)
    (hpending : stale = false → pending₁ = pending₂) :
    (step mergePacketMaxPayloadSize pending₁ r₁.fragment).2 =
        (step mergePacketMaxPayloadSize pending₂ r₂.fragment).2 ∧
      (nextStale len stale p = false →
        (step mergePacketMaxPayloadSize pending₁ r₁.fragment).1 =
          (step mergePacketMaxPayloadSize pending₂ r₂.fragment).1) := by
  have hin₁ := h.inBounds hp₁
  have hin₂ := h.inBounds hp₂
  unfold nextStale
  by_cases hfragment : Fragmentary p
  swap
  · rw [step_drop hp₁ hfragment, step_drop hp₂ hfragment, if_neg hfragment]
    exact ⟨rfl, hpending⟩
  have hdata (hlong : headerSize + curLen p ≤ p.length) : r₁.data p = r₂.data p :=
    (data_packet hp₁ hlong).trans (data_packet hp₂ hlong).symm
  have hfits := h hfragment
  rw [if_pos hfragment]
  by_cases hwhole : curLen p = totalLen p
  · rw [if_pos hwhole] at hfits
    rw [step_whole hp₁ hfragment hin₁ hwhole, step_whole hp₂ hfragment hin₂ hwhole, hdata hfits]
    exact ⟨rfl, fun _ ↦ rfl⟩
  rw [if_neg hwhole] at hfits
  rw [step_part hp₁ hfragment hin₁ hlen₁ hwhole, step_part hp₂ hfragment hin₂ hlen₂ hwhole]
  by_cases hdone : Completes len p
  · obtain ⟨hfresh, hlong⟩ := hfits.2.2 hdone
    rw [if_pos hdone, if_pos hdone, hpending hfresh, hdata hlong]
    exact ⟨rfl, fun _ ↦ rfl⟩
  · rw [if_neg hdone, if_neg hdone, if_neg (not_or.mpr ⟨hwhole, hdone⟩)]
    refine ⟨rfl, fun hfresh ↦ ?_⟩
    rw [Bool.or_eq_false_iff, decide_eq_false_iff_not, Nat.not_lt] at hfresh
    dsimp only
    rw [hpending hfresh.1, hdata hfresh.2]

/-- Packets that fit make the same messages whatever is behind them. -/
theorem run_eq_of_fits {ps : List (List UInt8)} {rs₁ rs₂ : List Received}
    (hfits : Fits len stale ps) (hrs₁ : (rs₁.map fun r ↦ r.packet.1) = ps)
    (hrs₂ : (rs₂.map fun r ↦ r.packet.1) = ps) (hlen₁ : pending₁.length = len)
    (hlen₂ : pending₂.length = len) (hpending : stale = false → pending₁ = pending₂) :
    run mergePacketMaxPayloadSize pending₁ (rs₁.map Received.fragment) =
      run mergePacketMaxPayloadSize pending₂ (rs₂.map Received.fragment) := by
  induction ps generalizing len stale pending₁ pending₂ rs₁ rs₂ with
  | nil =>
    rw [List.map_eq_nil_iff] at hrs₁ hrs₂
    rw [hrs₁, hrs₂]
    rfl
  | cons p ps ih =>
    obtain ⟨r₁, rs₁, rfl, hp₁, hrs₁⟩ := List.map_eq_cons_iff.mp hrs₁
    obtain ⟨r₂, rs₂, rfl, hp₂, hrs₂⟩ := List.map_eq_cons_iff.mp hrs₂
    obtain ⟨hmessage, hnext⟩ := hfits.1.step_eq hp₁ hp₂ hlen₁ hlen₂ hpending
    rw [List.map_cons, List.map_cons, run, run, hmessage]
    rw [ih hfits.2 hrs₁ hrs₂ (length_step hp₁ (hfits.1.inBounds hp₁) hlen₁)
      (length_step hp₂ (hfits.1.inBounds hp₂) hlen₂) hnext]

/-- A packet in a buffer that is full of one byte. -/
def fill (c : UInt8) (p : Packet) : Received where
  buf := ⟨p.1 ++ List.replicate (bufSize - p.1.length) c, by
    rw [List.length_append, List.length_replicate, Nat.add_sub_cancel' p.2]⟩
  size := p.1.length
  size_le := p.2

theorem packet_fill (c : UInt8) (p : Packet) : (fill c p).packet = p :=
  Subtype.ext (List.take_left' rfl)

/-- A fragment that is longer than its packet ends with what was there before. -/
theorem data_fill {c : UInt8} {p : Packet} (hlong : p.1.length < headerSize + curLen p.1)
    (hin : headerSize + curLen p.1 ≤ bufSize) (hheader : headerSize ≤ p.1.length) :
    ((fill c p).data p.1)[curLen p.1 - 1]? = some c := by
  have hpos : 0 < curLen p.1 := by omega
  rw [Received.data, List.getElem?_take_of_lt (Nat.sub_lt hpos Nat.one_pos), List.getElem?_drop]
  change (p.1 ++ List.replicate (bufSize - p.1.length) c)[headerSize + (curLen p.1 - 1)]? = some c
  rw [List.getElem?_append_right (by omega), List.getElem?_replicate_of_lt (by omega)]

/-- What comes of a packet in two buffers that are full of different bytes: if the messages are the
same then it fits, and what is stale differs. -/
theorem fitsNext_of_step_eq {p : Packet} (hlen₁ : pending₁.length = len)
    (hlen₂ : pending₂.length = len) (hin : ((fill 0 p).InBounds len))
    (hstale : stale = true → pending₁ ≠ pending₂)
    (hmessage : (step mergePacketMaxPayloadSize pending₁ (fill 0 p).fragment).2 =
      (step mergePacketMaxPayloadSize pending₂ (fill 1 p).fragment).2) :
    FitsNext len stale p.1 ∧ (nextStale len stale p.1 = true →
      (step mergePacketMaxPayloadSize pending₁ (fill 0 p).fragment).1 ≠
        (step mergePacketMaxPayloadSize pending₂ (fill 1 p).fragment).1) := by
  have hp₁ : (fill 0 p).packet.1 = p.1 := congrArg Subtype.val (packet_fill 0 p)
  have hp₂ : (fill 1 p).packet.1 = p.1 := congrArg Subtype.val (packet_fill 1 p)
  have hbounds := (inBounds_packet hp₁).mp hin
  have hin₂ := (inBounds_packet hp₂).mpr hbounds
  unfold FitsNext nextStale
  by_cases hfragment : Fragmentary p.1
  swap
  · rw [step_drop hp₁ hfragment, step_drop hp₂ hfragment, if_neg hfragment]
    exact ⟨fun h ↦ absurd h hfragment, hstale⟩
  obtain ⟨hcur, hroom⟩ := hbounds hfragment
  have hdata (hlong : p.1.length < headerSize + curLen p.1) :
      (fill 0 p).data p.1 ≠ (fill 1 p).data p.1 := by
    intro heq
    have hlast := data_fill (c := 0) hlong hcur hfragment.1
    rw [heq, data_fill hlong hcur hfragment.1] at hlast
    cases hlast
  have happend (h : stale = true ∨ p.1.length < headerSize + curLen p.1) :
      pending₁ ++ (fill 0 p).data p.1 ≠ pending₂ ++ (fill 1 p).data p.1 := by
    intro heq
    obtain ⟨hpending, hsame⟩ := List.append_inj heq (hlen₁.trans hlen₂.symm)
    rcases h with h | h
    · exact hstale h hpending
    · exact hdata h hsame
  rw [if_pos hfragment]
  by_cases hwhole : curLen p.1 = totalLen p.1
  · rw [step_whole hp₁ hfragment hin hwhole, step_whole hp₂ hfragment hin₂ hwhole] at hmessage ⊢
    rw [if_pos hwhole, if_pos (.inl hwhole)]
    refine ⟨fun _ ↦ ?_, fun h ↦ by cases h⟩
    by_contra hlong
    exact hdata (Nat.not_le.mp hlong) (Option.some.inj hmessage)
  rw [step_part hp₁ hfragment hin hlen₁ hwhole, step_part hp₂ hfragment hin₂ hlen₂ hwhole]
    at hmessage ⊢
  rw [if_neg hwhole]
  by_cases hdone : Completes len p.1
  · rw [if_pos hdone, if_pos hdone] at hmessage ⊢
    rw [if_pos (.inr hdone)]
    refine ⟨fun _ ↦ ⟨hcur, hroom hwhole, fun _ ↦ ?_⟩, fun h ↦ by cases h⟩
    by_contra hbad
    refine happend ?_ (Option.some.inj hmessage)
    rw [not_and_or, Nat.not_le, Bool.not_eq_false] at hbad
    exact hbad
  · rw [if_neg hdone, if_neg hdone, if_neg (not_or.mpr ⟨hwhole, hdone⟩)]
    refine ⟨fun _ ↦ ⟨hcur, hroom hwhole, fun h ↦ absurd h hdone⟩, fun h ↦ ?_⟩
    rw [Bool.or_eq_true, decide_eq_true_eq] at h
    exact happend h

/-- The packets fit if two copies agree on them in such buffers. -/
theorem fits_of_mergeAll {merge₁ merge₂ : Merge} (h₁ : Follows merge₁) (h₂ : Follows merge₂)
    {ps : List Packet} {s₁ s₂ : QmiMsgPacket} {messages : List (Option (List UInt8))}
    (hs₁ : s₁.len ≤ bufSize) (hs₂ : s₂.len ≤ bufSize) (hlen₁ : s₁.len = len)
    (hlen₂ : s₂.len = len) (hstale : stale = true → s₁.pending ≠ s₂.pending)
    (hall₁ : mergeAll merge₁ s₁ (ps.map (fill 0)) = some messages)
    (hall₂ : mergeAll merge₂ s₂ (ps.map (fill 1)) = some messages) :
    Fits len stale (ps.map Subtype.val) := by
  induction ps generalizing len stale s₁ s₂ messages with
  | nil => exact trivial
  | cons p ps ih =>
    rw [List.map_cons] at hall₁ hall₂
    have hp₁ : (fill 0 p).packet.1 = p.1 := congrArg Subtype.val (packet_fill 0 p)
    have hp₂ : (fill 1 p).packet.1 = p.1 := congrArg Subtype.val (packet_fill 1 p)
    have hin₁ : (fill 0 p).InBounds s₁.len := by
      by_contra hout
      rw [h₁.mergeAll_outside hs₁ hout] at hall₁
      cases hall₁
    have hin₂ : (fill 1 p).InBounds s₂.len := by
      by_contra hout
      rw [h₂.mergeAll_outside hs₂ hout] at hall₂
      cases hall₂
    obtain ⟨s₁', hs₁', hpending₁, heq₁⟩ := h₁.mergeAll_inside hs₁ hin₁ (ps.map (fill 0))
    obtain ⟨s₂', hs₂', hpending₂, heq₂⟩ := h₂.mergeAll_inside hs₂ hin₂ (ps.map (fill 1))
    obtain ⟨messages₁, hrest₁, hcons₁⟩ := Option.map_eq_some_iff.mp (heq₁.symm.trans hall₁)
    obtain ⟨messages₂, hrest₂, hcons₂⟩ := Option.map_eq_some_iff.mp (heq₂.symm.trans hall₂)
    obtain ⟨hmessage, hmessages⟩ := List.cons.inj (hcons₁.trans hcons₂.symm)
    subst hmessages
    have hlength₁ := (length_pending hs₁).trans hlen₁
    have hlength₂ := (length_pending hs₂).trans hlen₂
    rw [hlen₁] at hin₁
    rw [hlen₂] at hin₂
    obtain ⟨hfits, hnext⟩ := fitsNext_of_step_eq hlength₁ hlength₂ hin₁ hstale hmessage
    refine ⟨hfits, ih hs₁' hs₂' ?_ ?_ ?_ hrest₁ hrest₂⟩
    · rw [← length_pending hs₁', hpending₁, length_step hp₁ hin₁ hlength₁]
    · rw [← length_pending hs₂', hpending₂, length_step hp₂ hin₂ hlength₂]
    · rw [hpending₁, hpending₂]
      exact hnext

end Stale

/-! ## Messages that are cut as they should be -/

section Messages

variable {f : Fragment UInt8} {r : Received}

/-- A fragment of a message that fits. -/
structure Proper (f : Fragment UInt8) : Prop where
  data_le : f.data.length ≤ mergePacketMaxPayloadSize
  le_total : f.data.length ≤ f.total
  total_le : f.total ≤ bufSize

theorem length_fragmentPacket (f : Fragment UInt8) :
    (fragmentPacket f).length = headerSize + f.data.length :=
  List.length_append

theorem Proper.curLen (h : Proper f) : curLen (fragmentPacket f) = f.data.length :=
  Bytes.le16_byteOf (Nat.lt_of_le_of_lt h.data_le (by decide))

theorem Proper.totalLen (h : Proper f) : totalLen (fragmentPacket f) = f.total :=
  Bytes.le16_byteOf (Nat.lt_of_le_of_lt h.total_le (by decide))

theorem Proper.fragmentary (h : Proper f) : Fragmentary (fragmentPacket f) := by
  refine ⟨?_, ?_, ?_, ?_⟩
  · rw [length_fragmentPacket]
    exact Nat.le_add_right _ _
  · exact Bytes.le16_byteOf (by decide)
  · exact Bytes.le16_byteOf (by decide)
  · rw [h.curLen, h.totalLen]
    exact h.le_total

theorem Proper.completes (h : Proper f) (len : ℕ) : Completes len (fragmentPacket f) ↔
    f.data.length < mergePacketMaxPayloadSize ∨ f.total ≤ len + f.data.length := by
  rw [Completes, h.curLen, h.totalLen]

theorem Proper.nextLen_eq (h : Proper f) (len : ℕ) : nextLen len (fragmentPacket f) =
    if f.data.length = f.total ∨ f.data.length < mergePacketMaxPayloadSize ∨
      f.total ≤ len + f.data.length then 0 else len + f.data.length := by
  unfold nextLen
  rw [if_pos h.fragmentary]
  simp only [h.completes, h.curLen, h.totalLen]

/-- The fragment is read as it was written. -/
theorem Proper.fragment_eq (h : Proper f) (hr : r.packet.1 = fragmentPacket f) :
    r.fragment = some f := by
  have hdata : r.data (fragmentPacket f) = f.data := by
    refine (data_packet hr ?_).trans ?_
    · rw [h.curLen, length_fragmentPacket]
    · have hdrop : (fragmentPacket f).drop headerSize = f.data := List.drop_left' rfl
      rw [h.curLen, hdrop, List.take_length]
  rw [fragment_some hr h.fragmentary, h.totalLen, hdata]

theorem map_fragment_eq {fs : List (Fragment UInt8)} (h : ∀ f ∈ fs, Proper f)
    {rs : List Received} (hrs : (rs.map fun r ↦ r.packet.1) = fs.map fragmentPacket) :
    rs.map Received.fragment = fs.map some := by
  induction fs generalizing rs with
  | nil =>
    rw [List.map_nil, List.map_eq_nil_iff] at hrs
    rw [hrs]
    rfl
  | cons f fs ih =>
    obtain ⟨r, rs, rfl, hr, hrs⟩ := List.map_eq_cons_iff.mp hrs
    rw [List.map_cons, List.map_cons, (h f List.mem_cons_self).fragment_eq hr,
      ih (fun f hf ↦ h f (List.mem_cons_of_mem _ hf)) hrs]

/-- The pieces of the rest of a message fit, and so does what comes after them. -/
theorem fits_pieces {total : ℕ} (htotal : total ≤ bufSize) (m : List UInt8)
    {rest : List (List UInt8)} (hrest : Fits 0 false rest) :
    ∀ len, total = len + m.length →
      Fits len false ((pieces mergePacketMaxPayloadSize m).map
        (fun p ↦ fragmentPacket ⟨total, p⟩) ++ rest) := by
  have hfits {len : ℕ} {p : List UInt8} (hp : Proper ⟨total, p⟩) (hlen : len + p.length ≤ total) :
      FitsNext len false (fragmentPacket ⟨total, p⟩) := by
    intro _
    rw [hp.curLen, hp.totalLen, length_fragmentPacket]
    split
    · exact Nat.le_refl _
    · refine ⟨?_, Nat.le_trans hlen htotal, fun _ ↦ ⟨rfl, Nat.le_refl _⟩⟩
      exact Nat.le_trans (Nat.add_le_add_left hp.data_le _) (by decide)
  have hstale {len : ℕ} {p : List UInt8} (hp : Proper ⟨total, p⟩) :
      nextStale len false (fragmentPacket ⟨total, p⟩) = false := by
    unfold nextStale
    rw [if_pos hp.fragmentary, hp.curLen, length_fragmentPacket]
    split <;> simp
  induction m using pieces.induct mergePacketMaxPayloadSize with
  | case1 m h =>
    intro len hlen
    have hp : Proper ⟨total, m⟩ := ⟨h.resolve_right (by decide), by dsimp only; omega, htotal⟩
    have hnext : nextLen len (fragmentPacket ⟨total, m⟩) = 0 := by
      rw [hp.nextLen_eq]
      exact if_pos (.inr (.inr (Nat.le_of_eq hlen)))
    rw [pieces, if_pos h]
    refine ⟨hfits hp (Nat.le_of_eq hlen.symm), ?_⟩
    rw [hnext, hstale hp]
    exact hrest
  | case2 m h ih =>
    intro len hlen
    rw [not_or, Nat.not_le] at h
    have htake : (m.take mergePacketMaxPayloadSize).length = mergePacketMaxPayloadSize :=
      List.length_take_of_le (Nat.le_of_lt h.1)
    have hp : Proper ⟨total, m.take mergePacketMaxPayloadSize⟩ :=
      ⟨Nat.le_of_eq htake, by dsimp only; omega, htotal⟩
    have hnext : nextLen len (fragmentPacket ⟨total, m.take mergePacketMaxPayloadSize⟩) =
        len + mergePacketMaxPayloadSize := by
      rw [hp.nextLen_eq]
      dsimp only
      rw [htake]
      exact if_neg (by omega)
    rw [pieces, if_neg (by omega)]
    refine ⟨hfits hp (by omega), ?_⟩
    rw [hnext, hstale hp]
    refine ih _ ?_
    rw [List.length_drop]
    omega

theorem fits_messagePackets (messages : List Message) :
    Fits 0 false (messagePackets messages) := by
  induction messages with
  | nil => exact trivial
  | cons m messages ih =>
    have hfits := fits_pieces m.2.2 m.1 ih 0 (Nat.zero_add _).symm
    unfold messagePackets fragments
    rw [List.flatMap_cons, List.map_map]
    exact hfits

theorem proper_fragments (m : Message) :
    ∀ f ∈ fragments mergePacketMaxPayloadSize m.1, Proper f := by
  intro f hf
  obtain ⟨p, hp, rfl⟩ := List.mem_map.mp hf
  obtain ⟨hle, hlen⟩ := mem_pieces_length (by decide) m.1 p hp
  exact ⟨hle, hlen, m.2.2⟩

/-- A copy puts messages together that are cut as they should be. -/
theorem Follows.returns {merge : Merge} (h : Follows merge) (messages : List Message) :
    Returns merge messages := by
  intro s rs hrs
  have hempty : s.1.pending = [] := by rw [QmiMsgPacket.pending, s.2, List.take_zero]
  have hpackets : messagePackets messages =
      (messages.flatMap fun m ↦ fragments mergePacketMaxPayloadSize m.1).map fragmentPacket :=
    List.map_flatMap.symm
  have hfragments := map_fragment_eq (fun f hf ↦ by
    obtain ⟨m, -, hf⟩ := List.mem_flatMap.mp hf
    exact proper_fragments m f hf) (hrs.trans hpackets)
  have hrun := run_fragments (show 0 < mergePacketMaxPayloadSize by decide)
    (messages.map Subtype.val) fun m hm ↦ by
      obtain ⟨m, -, rfl⟩ := List.mem_map.mp hm
      exact m.2.1
  rw [List.flatMap_map, List.flatMap_map] at hrun
  rw [h.mergeAll_of_fits (fits_messagePackets messages) (by rw [s.2]; exact Nat.zero_le _) s.2 hrs,
    hempty, hfragments, List.map_flatMap, hrun]

end Messages

/-- The copies return the same messages at the same packets exactly if all packets fit. -/
theorem agree_iff (packets : List Packet) :
    Agree packets ↔ Fits 0 false (packets.map Subtype.val) := by
  refine ⟨fun h ↦ ?_, fun h ↦ ?_⟩
  · let s : EmptyPacket := ⟨⟨0, List.Vector.replicate bufSize 0⟩, rfl⟩
    have hfill (c : UInt8) : (packets.map (fill c)).map Received.packet = packets := by
      rw [List.map_map]
      exact (List.map_congr_left fun p _ ↦ packet_fill c p).trans (List.map_id _)
    obtain ⟨messages, hall₁, hall₂, -⟩ := h s s s _ _ _ (hfill 0) (hfill 1) (hfill 1)
    exact fits_of_mergeAll follows_mergeQmiRsp follows_mergeQmiRsp (Nat.zero_le _) (Nat.zero_le _)
      rfl rfl (fun hstale ↦ by cases hstale) hall₁ hall₂
  · intro s₁ s₂ s₃ rs₁ rs₂ rs₃ hrs₁ hrs₂ hrs₃
    have hbytes {rs : List Received} (hrs : rs.map Received.packet = packets) :
        (rs.map fun r ↦ r.packet.1) = packets.map Subtype.val := by
      rw [← hrs, List.map_map]
      rfl
    have hempty (s : EmptyPacket) : s.1.pending = [] := by
      rw [QmiMsgPacket.pending, s.2, List.take_zero]
    have hall {merge : Merge} (hmerge : Follows merge) (s : EmptyPacket) {rs : List Received}
        (hrs : rs.map Received.packet = packets) : mergeAll merge s rs =
          some (run mergePacketMaxPayloadSize [] (rs₁.map Received.fragment)) := by
      rw [hmerge.mergeAll_of_fits h (by rw [s.2]; exact Nat.zero_le _) s.2 (hbytes hrs), hempty]
      exact congrArg some (run_eq_of_fits h (hbytes hrs) (hbytes hrs₁) rfl rfl fun _ ↦ rfl)
    exact ⟨_, hall follows_mergeQmiRsp s₁ hrs₁, hall follows_mergeQmiRsp s₂ hrs₂,
      hall follows_mergeRecQmiMsg s₃ hrs₃⟩

/-- The copies agree exactly on packets that fit, and all of them put messages together that are cut
as they should be. -/
theorem merge_agree_iff (packets : List Packet) (messages : List Message) :
    (Agree packets ↔ Fits 0 false (packets.map Subtype.val)) ∧
      Returns mergeQmiRspPacket messages ∧ Returns qmiWwanMergeQmiRsp messages ∧
      Returns mergeRecQmiMsg messages :=
  ⟨agree_iff packets, follows_mergeQmiRsp.returns messages, follows_mergeQmiRsp.returns messages,
    follows_mergeRecQmiMsg.returns messages⟩

/-- A fragment whose header says that it is a message of one byte, without that byte. -/
def headerOnly : Packet := ⟨[0x7c, 0x2c, 1, 0, 1, 0, 1, 0], by decide⟩

/-- The byte is taken from what was in the buffer before. -/
theorem headerOnly_not_agree : ¬ ∀ packets : List Packet, Agree packets := by
  intro h
  have hfits := (agree_iff [headerOnly]).mp (h [headerOnly])
  exact absurd (hfits.1 (by decide)) (by decide)

end Wwan.QmiMerge
