import Wwan.QmiMerge.Merge

/-!
# Collecting fragments

No copy compares `cur_len` with the size of the packet or with the space that is left. Inside its
arrays each copy collects fragments (`Follows`); `Fits` says when it stays there and returns only
bytes that were received.
-/

namespace Wwan.QmiMerge

open Reassembly

/-! ## The condition -/

/-- A message is complete with the packet, after so many bytes. -/
def Completes (len : ℕ) (p : List UInt8) : Prop :=
  curLen p < mergePacketMaxPayloadSize ∨ totalLen p ≤ len + curLen p

instance (len : ℕ) (p : List UInt8) : Decidable (Completes len p) :=
  inferInstanceAs (Decidable (_ ∨ _))

/-- The packet is a fragment. -/
def Fragmentary (p : List UInt8) : Prop := headerSize ≤ p.length ∧ IsFragment p

instance (p : List UInt8) : Decidable (Fragmentary p) := inferInstanceAs (Decidable (_ ∧ _))

/-- A fragment stays inside the arrays, and it completes no message with bytes that were not
received. Before, `len` bytes have been collected, and `stale` is whether one of them was not
received. -/
def FitsNext (len : ℕ) (stale : Bool) (p : List UInt8) : Prop :=
  Fragmentary p →
    if curLen p = totalLen p then headerSize + curLen p ≤ p.length
    else headerSize + curLen p ≤ bufSize ∧ len + curLen p ≤ bufSize ∧
      (Completes len p → stale = false ∧ headerSize + curLen p ≤ p.length)

/-- How many bytes have been collected after the packet. -/
def nextLen (len : ℕ) (p : List UInt8) : ℕ :=
  if Fragmentary p then
    if curLen p = totalLen p ∨ Completes len p then 0 else len + curLen p
  else len

/-- Whether one of them was not received. -/
def nextStale (len : ℕ) (stale : Bool) (p : List UInt8) : Bool :=
  if Fragmentary p then
    if curLen p = totalLen p ∨ Completes len p then false
    else stale || p.length < headerSize + curLen p
  else stale

/-- All packets fit. -/
def Fits : ℕ → Bool → List (List UInt8) → Prop
  | _, _, [] => True
  | len, stale, p :: ps =>
    FitsNext len stale p ∧ Fits (nextLen len p) (nextStale len stale p) ps

/-! ## What a copy does -/

/-- The bytes that have been collected. -/
def QmiMsgPacket.pending (s : QmiMsgPacket) : List UInt8 := s.buf.toList.take s.len

/-- The fragment in the buffer, if it is one. -/
def Received.fragment (r : Received) : Option (Fragment UInt8) :=
  if headerSize ≤ r.size ∧ IsFragment r.buf.toList then
    some ⟨totalLen r.buf.toList, (r.buf.toList.drop headerSize).take (curLen r.buf.toList)⟩
  else none

/-- The arrays have room for the fragment. -/
def Received.InBounds (len : ℕ) (r : Received) : Prop :=
  headerSize ≤ r.size ∧ IsFragment r.buf.toList →
    headerSize + curLen r.buf.toList ≤ bufSize ∧
      (curLen r.buf.toList ≠ totalLen r.buf.toList → len + curLen r.buf.toList ≤ bufSize)

/-- What the copies have in common: inside the arrays they collect fragments. -/
structure Follows (merge : Merge) : Prop where
  inside : ∀ (s : QmiMsgPacket) (r : Received), s.len ≤ bufSize → r.InBounds s.len →
    ∃ m, merge s r.buf r.size = some m ∧ m.packet.len ≤ bufSize ∧
      (m.packet.pending, m.message) =
        step mergePacketMaxPayloadSize s.pending r.fragment
  outside : ∀ (s : QmiMsgPacket) (r : Received), s.len ≤ bufSize → ¬r.InBounds s.len →
    merge s r.buf r.size = none

section Copies

variable {s : QmiMsgPacket} {r : Received}

theorem length_pending (h : s.len ≤ bufSize) : s.pending.length = s.len := by
  rw [QmiMsgPacket.pending, List.length_take, List.Vector.toList_length]
  exact Nat.min_eq_left h

theorem length_data (h : headerSize + curLen r.buf.toList ≤ bufSize) :
    ((r.buf.toList.drop headerSize).take (curLen r.buf.toList)).length =
      curLen r.buf.toList := by
  rw [List.length_take, List.length_drop, List.Vector.toList_length]
  omega

theorem Received.size_mod (r : Received) : r.size % 2 ^ 16 = r.size :=
  Nat.mod_eq_of_lt (Nat.lt_of_le_of_lt r.size_le (by decide))

/-- A packet that is no fragment is dropped. -/
theorem mergeQmiRsp_drop (s : QmiMsgPacket) (h : ¬(headerSize ≤ r.size ∧ IsFragment r.buf.toList)) :
    mergeQmiRsp s r.buf r.size = some ⟨-1, s, r.buf, r.size⟩ := by
  unfold mergeQmiRsp
  dsimp only
  rw [r.size_mod]
  by_cases hshort : r.size < headerSize
  · rw [if_pos hshort]
  · rw [if_neg hshort, if_pos fun hfragment ↦ h ⟨Nat.not_lt.mp hshort, hfragment⟩]

/-- A fragment that is a whole message. -/
theorem mergeQmiRsp_whole (s : QmiMsgPacket) (h : headerSize ≤ r.size ∧ IsFragment r.buf.toList)
    (hwhole : curLen r.buf.toList = totalLen r.buf.toList) :
    mergeQmiRsp s r.buf r.size = (r.buf.load headerSize (curLen r.buf.toList)).bind fun bytes ↦
      (r.buf.store 0 bytes).bind fun buf ↦
        some ⟨0, { s with len := 0 }, buf, curLen r.buf.toList⟩ := by
  unfold mergeQmiRsp
  dsimp only
  rw [r.size_mod, if_neg (Nat.not_lt.mpr h.1), if_neg (not_not.mpr h.2), if_pos hwhole, hwhole]
  rfl

/-- A fragment that is collected. -/
theorem mergeQmiRsp_collect (s : QmiMsgPacket) (h : headerSize ≤ r.size ∧ IsFragment r.buf.toList)
    (hpart : curLen r.buf.toList ≠ totalLen r.buf.toList) :
    mergeQmiRsp s r.buf r.size = (r.buf.load headerSize (curLen r.buf.toList)).bind fun bytes ↦
      (s.buf.store s.len bytes).bind fun packetBuf ↦
        if curLen r.buf.toList < mergePacketMaxPayloadSize ∨
            totalLen r.buf.toList ≤ (s.len + curLen r.buf.toList) % 2 ^ 16 then
          (packetBuf.load 0 ((s.len + curLen r.buf.toList) % 2 ^ 16)).bind fun bytes ↦
            (r.buf.store 0 bytes).bind fun buf ↦
              some ⟨0, ⟨0, packetBuf⟩, buf, (s.len + curLen r.buf.toList) % 2 ^ 16⟩
        else
          some ⟨-1, ⟨(s.len + curLen r.buf.toList) % 2 ^ 16, packetBuf⟩, r.buf, r.size⟩ := by
  unfold mergeQmiRsp
  dsimp only
  rw [r.size_mod, if_neg (Nat.not_lt.mpr h.1), if_neg (not_not.mpr h.2), if_neg hpart]
  rfl

/-- Something is copied to the beginning of a buffer and read there. -/
theorem exists_store_zero (buf : Buffer UInt8 bufSize) (bytes : List UInt8)
    (h : bytes.length ≤ bufSize) :
    ∃ buf' : Buffer UInt8 bufSize, buf.store 0 bytes = some buf' ∧
      buf'.toList.take bytes.length = bytes := by
  obtain ⟨buf', hstore, htake⟩ := buf.exists_store 0 bytes (by omega)
  rw [Nat.zero_add] at htake
  exact ⟨buf', hstore, htake⟩

theorem mergeQmiRsp_inside (hs : s.len ≤ bufSize) (hin : r.InBounds s.len) :
    ∃ m, mergeQmiRsp s r.buf r.size = some m ∧ m.packet.len ≤ bufSize ∧
      (m.packet.pending, m.message) = step mergePacketMaxPayloadSize s.pending r.fragment := by
  by_cases h : headerSize ≤ r.size ∧ IsFragment r.buf.toList
  swap
  · refine ⟨_, mergeQmiRsp_drop s h, hs, ?_⟩
    rw [Received.fragment, if_neg h]
    rfl
  obtain ⟨hcur, hroom⟩ := hin h
  have hdata := length_data hcur
  set data := (r.buf.toList.drop headerSize).take (curLen r.buf.toList) with hdef
  rw [Received.fragment, if_pos h, ← hdef, step, hdata]
  by_cases hwhole : curLen r.buf.toList = totalLen r.buf.toList
  · obtain ⟨buf, hstore, htake⟩ := exists_store_zero r.buf data (by omega)
    refine ⟨⟨0, { s with len := 0 }, buf, curLen r.buf.toList⟩, ?_, Nat.zero_le _, ?_⟩
    · rw [mergeQmiRsp_whole s h hwhole, Buffer.load_eq hcur, Option.bind_some, ← hdef, hstore]
      rfl
    · rw [if_pos hwhole, Merged.message, if_pos rfl, ← hdata, htake]
      rfl
  · have hlen : (s.len + curLen r.buf.toList) % 2 ^ 16 = s.len + curLen r.buf.toList := by
      refine Nat.mod_eq_of_lt (Nat.lt_of_le_of_lt (hroom hwhole) (by decide))
    obtain ⟨packetBuf, hcollect, hpending⟩ := s.buf.exists_store s.len data
      (by rw [hdata]; exact hroom hwhole)
    rw [hdata] at hpending
    have hlength : (s.pending ++ data).length = s.len + curLen r.buf.toList := by
      rw [List.length_append, length_pending hs, hdata]
    rw [mergeQmiRsp_collect s h hwhole, Buffer.load_eq hcur, Option.bind_some, ← hdef, hcollect,
      Option.bind_some, hlen, if_neg hwhole, hlength]
    split
    · have hload : packetBuf.load 0 (s.len + curLen r.buf.toList) = some (s.pending ++ data) := by
        rw [Buffer.load_eq (by rw [Nat.zero_add]; exact hroom hwhole), List.drop_zero, hpending]
        rfl
      obtain ⟨buf, hstore, htake⟩ := exists_store_zero r.buf (s.pending ++ data)
        (by rw [hlength]; exact hroom hwhole)
      rw [hlength] at htake
      rw [hload, Option.bind_some, hstore]
      refine ⟨_, rfl, Nat.zero_le _, ?_⟩
      rw [Merged.message, if_pos rfl, htake]
      rfl
    · refine ⟨_, rfl, hroom hwhole, ?_⟩
      rw [QmiMsgPacket.pending, hpending]
      rfl

theorem mergeQmiRsp_outside (hout : ¬r.InBounds s.len) :
    mergeQmiRsp s r.buf r.size = none := by
  obtain ⟨h, hout⟩ := Classical.not_imp.mp hout
  by_cases hcur : headerSize + curLen r.buf.toList ≤ bufSize
  swap
  · have hload : r.buf.load headerSize (curLen r.buf.toList) = none :=
      Buffer.load_eq_none (Nat.not_le.mp hcur)
    by_cases hwhole : curLen r.buf.toList = totalLen r.buf.toList
    · rw [mergeQmiRsp_whole s h hwhole, hload, Option.bind_none]
    · rw [mergeQmiRsp_collect s h hwhole, hload, Option.bind_none]
  obtain ⟨hpart, hroom⟩ := Classical.not_imp.mp fun hroom ↦ hout ⟨hcur, hroom⟩
  have hstore : s.buf.store s.len ((r.buf.toList.drop headerSize).take (curLen r.buf.toList)) =
      none :=
    Buffer.store_eq_none (by rw [length_data hcur]; exact Nat.not_le.mp hroom)
  rw [mergeQmiRsp_collect s h hpart, Buffer.load_eq hcur, Option.bind_some, hstore,
    Option.bind_none]

theorem follows_mergeQmiRsp : Follows mergeQmiRsp :=
  ⟨fun _ _ hs hin ↦ mergeQmiRsp_inside hs hin, fun _ _ _ hout ↦ mergeQmiRsp_outside hout⟩

/-- The driver's copy does the same with what fits in its buffer. -/
theorem mergeRecQmiMsg_eq (s : QmiMsgPacket) (r : Received) :
    mergeRecQmiMsg s r.buf r.size = mergeQmiRsp s r.buf r.size := by
  unfold mergeRecQmiMsg mergeQmiRsp
  dsimp only
  rw [r.size_mod]

theorem follows_mergeRecQmiMsg : Follows mergeRecQmiMsg := by
  constructor
  · intro s r hs hin
    rw [mergeRecQmiMsg_eq]
    exact mergeQmiRsp_inside hs hin
  · intro s r _ hout
    rw [mergeRecQmiMsg_eq]
    exact mergeQmiRsp_outside hout

end Copies

/-! ## Packets -/

section Packets

variable {r r' : Received} {p : List UInt8}

section Copied

variable (hp : r.packet.1 = p)

include hp

/-- The header comes with the packet. -/
theorem headerField_packet (h : headerSize ≤ r.size) {i : ℕ} (hi : i < 4) :
    headerField r.buf.toList i = headerField p i := by
  have hbyte : ∀ j < headerSize, r.buf.toList.getD j 0 = p.getD j 0 := by
    intro j hj
    rw [← hp, Received.packet, List.getD_eq_getElem?_getD, List.getD_eq_getElem?_getD,
      List.getElem?_take_of_lt (Nat.lt_of_lt_of_le hj h)]
  unfold headerField
  rw [hbyte (2 * i) (by unfold headerSize; omega), hbyte (2 * i + 1) (by unfold headerSize; omega)]

theorem length_packet : p.length = r.size := by
  rw [← hp, Received.packet, List.length_take, List.Vector.toList_length]
  exact Nat.min_eq_left r.size_le

theorem curLen_packet (h : headerSize ≤ r.size) :
    curLen r.buf.toList = curLen p := headerField_packet hp h (by decide)

theorem totalLen_packet (h : headerSize ≤ r.size) :
    totalLen r.buf.toList = totalLen p := headerField_packet hp h (by decide)

theorem isFragment_packet : headerSize ≤ r.size ∧ IsFragment r.buf.toList ↔ Fragmentary p := by
  rw [Fragmentary, length_packet hp]
  refine and_congr_right fun h ↦ ?_
  unfold IsFragment idenity version
  rw [curLen_packet hp h, totalLen_packet hp h, headerField_packet hp h (by decide),
    headerField_packet hp h (by decide)]

/-- The bytes of a fragment come with the packet, if it is long enough. -/
theorem data_packet (h : headerSize + curLen p ≤ p.length) :
    (r.buf.toList.drop headerSize).take (curLen p) = (p.drop headerSize).take (curLen p) := by
  have hdrop : p.drop headerSize = (r.buf.toList.drop headerSize).take (r.size - headerSize) := by
    rw [← hp, Received.packet, List.drop_take]
  rw [length_packet hp] at h
  rw [hdrop, List.take_take, Nat.min_eq_left (by omega)]

end Copied

/-- The bytes of a fragment in the buffer. -/
def Received.data (r : Received) (p : List UInt8) : List UInt8 :=
  (r.buf.toList.drop headerSize).take (curLen p)

theorem fragment_none (hp : r.packet.1 = p) (h : ¬Fragmentary p) : r.fragment = none :=
  if_neg ((isFragment_packet hp).not.mpr h)

theorem fragment_some (hp : r.packet.1 = p) (h : Fragmentary p) :
    r.fragment = some ⟨totalLen p, r.data p⟩ := by
  have hr := (isFragment_packet hp).mpr h
  rw [Received.fragment, if_pos hr, curLen_packet hp hr.1, totalLen_packet hp hr.1, Received.data]

theorem inBounds_packet (hp : r.packet.1 = p) {len : ℕ} :
    r.InBounds len ↔ (Fragmentary p → headerSize + curLen p ≤ bufSize ∧
      (curLen p ≠ totalLen p → len + curLen p ≤ bufSize)) := by
  unfold Received.InBounds
  rw [← isFragment_packet hp]
  refine forall_congr' fun h ↦ ?_
  rw [curLen_packet hp h.1, totalLen_packet hp h.1]

theorem length_packet_le (hp : r.packet.1 = p) : p.length ≤ bufSize := hp ▸ r.packet.2

/-- What fits is inside. -/
theorem FitsNext.inBounds {len : ℕ} {stale : Bool} (h : FitsNext len stale p)
    (hp : r.packet.1 = p) : r.InBounds len := by
  refine (inBounds_packet hp).mpr fun hfragment ↦ ?_
  have hfits := h hfragment
  split at hfits
  · rename_i hwhole
    exact ⟨Nat.le_trans hfits (length_packet_le hp), fun hpart ↦ absurd hwhole hpart⟩
  · exact ⟨hfits.1, fun _ ↦ hfits.2.1⟩

end Packets

/-! ## Steps -/

section Steps

variable {r : Received} {p pending : List UInt8} {len : ℕ}

theorem length_received_data (h : headerSize + curLen p ≤ bufSize) :
    (r.data p).length = curLen p := by
  rw [Received.data, List.length_take, List.length_drop, List.Vector.toList_length]
  omega

variable (hp : r.packet.1 = p)

include hp

theorem step_drop (h : ¬Fragmentary p) :
    step mergePacketMaxPayloadSize pending r.fragment = (pending, none) := by
  rw [fragment_none hp h, step]

theorem step_whole (h : Fragmentary p) (hin : r.InBounds len) (hwhole : curLen p = totalLen p) :
    step mergePacketMaxPayloadSize pending r.fragment = ([], some (r.data p)) := by
  have hdata := length_received_data (r := r) ((inBounds_packet hp).mp hin h).1
  rw [fragment_some hp h, step, if_pos (hdata.trans hwhole)]

theorem step_part (h : Fragmentary p) (hin : r.InBounds len)
    (hlen : pending.length = len) (hpart : curLen p ≠ totalLen p) :
    step mergePacketMaxPayloadSize pending r.fragment =
      if Completes len p then ([], some (pending ++ r.data p))
      else (pending ++ r.data p, none) := by
  have hdata := length_received_data (r := r) ((inBounds_packet hp).mp hin h).1
  rw [fragment_some hp h, step, if_neg (by rw [hdata]; exact hpart), List.length_append, hdata,
    hlen]
  rfl

/-- The number of bytes that have been collected. -/
theorem length_step (hin : r.InBounds len) (hlen : pending.length = len) :
    (step mergePacketMaxPayloadSize pending r.fragment).1.length = nextLen len p := by
  unfold nextLen
  by_cases h : Fragmentary p
  swap
  · rw [step_drop hp h, if_neg h, hlen]
  rw [if_pos h]
  by_cases hwhole : curLen p = totalLen p
  · rw [step_whole hp h hin hwhole, if_pos (.inl hwhole)]
    rfl
  rw [step_part hp h hin hlen hwhole]
  have hdata := length_received_data (r := r) ((inBounds_packet hp).mp hin h).1
  by_cases hdone : Completes len p
  · rw [if_pos hdone, if_pos (.inr hdone)]
    rfl
  · rw [if_neg hdone, if_neg (not_or.mpr ⟨hwhole, hdone⟩), List.length_append, hlen, hdata]

end Steps

/-! ## Runs -/

section Runs

variable {merge : Merge}

theorem Follows.mergeAll_inside (h : Follows merge) {s : QmiMsgPacket} {r : Received}
    (hs : s.len ≤ bufSize) (hin : r.InBounds s.len) (rs : List Received) :
    ∃ s' : QmiMsgPacket, s'.len ≤ bufSize ∧
      s'.pending = (step mergePacketMaxPayloadSize s.pending r.fragment).1 ∧
      mergeAll merge s (r :: rs) = (mergeAll merge s' rs).map
        ((step mergePacketMaxPayloadSize s.pending r.fragment).2 :: ·) := by
  obtain ⟨m, hm, hlen, hstep⟩ := h.inside s r hs hin
  refine ⟨m.packet, hlen, congrArg Prod.fst hstep, ?_⟩
  rw [← congrArg Prod.snd hstep, mergeAll, hm]
  change (mergeAll merge m.packet rs).bind (fun messages ↦ some (m.message :: messages)) = _
  cases mergeAll merge m.packet rs <;> rfl

theorem Follows.mergeAll_outside (h : Follows merge) {s : QmiMsgPacket} {r : Received}
    (hs : s.len ≤ bufSize) (hout : ¬r.InBounds s.len) (rs : List Received) :
    mergeAll merge s (r :: rs) = none := by
  rw [mergeAll, h.outside s r hs hout]
  rfl

/-- Packets that fit are collected. -/
theorem Follows.mergeAll_of_fits (h : Follows merge) {ps : List (List UInt8)} {len : ℕ}
    {stale : Bool} {s : QmiMsgPacket} {rs : List Received} (hfits : Fits len stale ps)
    (hs : s.len ≤ bufSize) (hlen : s.len = len) (hrs : (rs.map fun r ↦ r.packet.1) = ps) :
    mergeAll merge s rs =
      some (run mergePacketMaxPayloadSize s.pending (rs.map Received.fragment)) := by
  induction ps generalizing len stale s rs with
  | nil =>
    rw [List.map_eq_nil_iff] at hrs
    subst hrs
    rfl
  | cons p ps ih =>
    obtain ⟨r, rs, rfl, hp, hrs⟩ := List.map_eq_cons_iff.mp hrs
    have hin := hfits.1.inBounds hp
    rw [← hlen] at hin
    obtain ⟨s', hs', hpending, hall⟩ := h.mergeAll_inside hs hin rs
    have hnext : s'.len = nextLen len p := by
      rw [← length_pending hs', hpending,
        length_step hp hin (length_pending hs), hlen]
    rw [hall, ih hfits.2 hs' hnext hrs, hpending]
    rfl

end Runs

end Wwan.QmiMerge
