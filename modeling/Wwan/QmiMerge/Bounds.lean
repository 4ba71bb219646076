import Wwan.QmiMerge.Agree

/-!
# The copies of `merge_qmi_rsp_packet`

`cur_len` and `total_len` come from the device. A fragment that claims more than was read, or more
than is left in `s_QMIPacket.buf`, is copied all the same; packets that do not are copied inside
their arrays, however many of them are collected.
-/

namespace Wwan.QmiMerge

/-! ## The copies -/

/-- The arrays of the copies. -/
inductive Area
  | /-- `qmi_buf`, where the packet was read into. -/
    qmiBuf
  | /-- `s_QMIPacket.buf` -/
    packet
  deriving DecidableEq

/-- A `memcpy` of `n` bytes. -/
structure Memcpy where
  dst : Area
  dstPos : ℕ
  src : Area
  srcPos : ℕ
  n : ℕ
  deriving DecidableEq

/-- Where there is something to read, if a packet of `size` bytes was read. -/
def Area.readable (size : ℕ) : Area → ℕ
  | .qmiBuf => size
  | .packet => bufSize

/-- It reads what was read or collected, and it writes into the array. -/
def Memcpy.Inside (size : ℕ) (c : Memcpy) : Prop :=
  c.srcPos + c.n ≤ c.src.readable size ∧ c.dstPos + c.n ≤ bufSize

/-- The copies that `merge_qmi_rsp_packet` makes, in order, after `len` collected bytes. -/
def mergeCopies (len : ℕ) (r : Received) : List Memcpy :=
  let header := r.buf.toList
  if r.size % 2 ^ 16 < headerSize then []
  else if ¬IsFragment header then []
  else if curLen header = totalLen header then [⟨.qmiBuf, 0, .qmiBuf, headerSize, totalLen header⟩]
  else
    let len' := (len + curLen header) % 2 ^ 16
    ⟨.packet, len, .qmiBuf, headerSize, curLen header⟩ ::
      if curLen header < mergePacketMaxPayloadSize ∨ totalLen header ≤ len' then
        [⟨.qmiBuf, 0, .packet, 0, len'⟩]
      else []

/-- `merge_qmi_rsp_packet` on one packet after the other: every copy is inside, and what is
collected never exceeds its array. -/
def StaysInside : QmiMsgPacket → List Received → Prop
  | s, [] => s.len ≤ bufSize
  | s, r :: rs =>
    s.len ≤ bufSize ∧ (∀ c ∈ mergeCopies s.len r, c.Inside r.size) ∧
      ∃ m, mergeQmiRspPacket s r.buf r.size = some m ∧ StaysInside m.packet rs

/-! ## The condition -/

/-- A fragment is as long as it says, and there is space for it if it is collected. -/
def PacketFits (len : ℕ) (p : List UInt8) : Prop :=
  Fragmentary p →
    headerSize + curLen p ≤ p.length ∧ (curLen p ≠ totalLen p → len + curLen p ≤ bufSize)

instance (len : ℕ) (p : List UInt8) : Decidable (PacketFits len p) :=
  inferInstanceAs (Decidable (_ → _))

/-- All packets fit, after `len` collected bytes. -/
def PacketsFit : ℕ → List (List UInt8) → Prop
  | _, [] => True
  | len, p :: ps => PacketFits len p ∧ PacketsFit (nextLen len p) ps

variable {s : QmiMsgPacket} {r : Received} {len : ℕ}

theorem PacketFits.inBounds (h : PacketFits len r.packet.1) : r.InBounds len := by
  refine (inBounds_packet rfl).mpr fun hfragment ↦ ?_
  obtain ⟨hcur, hroom⟩ := h hfragment
  exact ⟨hcur.trans r.packet.2, hroom⟩

/-- The copies for a packet are inside if and only if it fits. -/
theorem mergeCopies_inside_iff (r : Received) :
    (∀ c ∈ mergeCopies len r, c.Inside r.size) ↔ PacketFits len r.packet.1 := by
  have hsize : r.size ≤ bufSize := r.size_le
  unfold PacketFits mergeCopies
  rw [← isFragment_packet rfl, length_packet rfl]
  dsimp only
  rw [r.size_mod]
  by_cases hshort : r.size < headerSize
  · rw [if_pos hshort]
    exact iff_of_true (List.forall_mem_nil _) fun h ↦
      absurd hshort (Nat.not_lt.mpr h.1)
  rw [if_neg hshort]
  by_cases hfragment : IsFragment r.buf.toList
  swap
  · rw [if_pos hfragment]
    exact iff_of_true (List.forall_mem_nil _) fun h ↦ absurd h.2 hfragment
  have hheader : headerSize ≤ r.size := Nat.not_lt.mp hshort
  rw [if_neg (not_not.mpr hfragment), forall_prop_of_true ⟨hheader, hfragment⟩,
    ← curLen_packet rfl hheader, ← totalLen_packet rfl hheader]
  by_cases hwhole : curLen r.buf.toList = totalLen r.buf.toList
  · rw [if_pos hwhole, ← hwhole, List.forall_mem_singleton, Memcpy.Inside, Area.readable]
    dsimp only
    constructor
    · exact fun h ↦ ⟨h.1, fun hne ↦ absurd rfl hne⟩
    · exact fun h ↦ ⟨h.1, by omega⟩
  rw [if_neg hwhole, List.forall_mem_cons]
  have hfirst : Memcpy.Inside r.size ⟨.packet, len, .qmiBuf, headerSize, curLen r.buf.toList⟩ ↔
      headerSize + curLen r.buf.toList ≤ r.size ∧
        (curLen r.buf.toList ≠ totalLen r.buf.toList → len + curLen r.buf.toList ≤ bufSize) :=
    and_congr_right fun _ ↦ ⟨fun h _ ↦ h, fun h ↦ h hwhole⟩
  rw [hfirst]
  refine and_iff_left_of_imp fun h ↦ ?_
  -- what has been collected is no longer than the buffer that it is copied back to
  have hroom := h.2 hwhole
  have hmod : (len + curLen r.buf.toList) % 2 ^ 16 = len + curLen r.buf.toList :=
    Nat.mod_eq_of_lt (Nat.lt_of_le_of_lt hroom (by decide))
  rw [hmod]
  split
  · rw [List.forall_mem_singleton, Memcpy.Inside, Area.readable]
    dsimp only
    omega
  · exact List.forall_mem_nil _

/-- A packet that fits is merged. -/
theorem PacketFits.exists_merged (h : PacketFits s.len r.packet.1) (hs : s.len ≤ bufSize) :
    ∃ m, mergeQmiRspPacket s r.buf r.size = some m ∧ m.packet.len ≤ bufSize ∧
      m.packet.len = nextLen s.len r.packet.1 := by
  obtain ⟨m, hm, hlen, hstep⟩ := mergeQmiRsp_inside hs h.inBounds
  refine ⟨m, hm, hlen, ?_⟩
  have hpending := congrArg Prod.fst hstep
  dsimp only at hpending
  rw [← length_pending hlen, hpending, length_step rfl h.inBounds (length_pending hs)]

/-- `merge_qmi_rsp_packet` stays inside its buffers if and only if every fragment is as long as it
says and there is space for those that are collected. -/
theorem staysInside_iff (s : QmiMsgPacket) (rs : List Received) :
    StaysInside s rs ↔ s.len ≤ bufSize ∧ PacketsFit s.len (rs.map fun r ↦ r.packet.1) := by
  induction rs generalizing s with
  | nil => exact (and_iff_left trivial).symm
  | cons r rs ih =>
    refine and_congr_right fun hs ↦ ?_
    rw [mergeCopies_inside_iff, List.map_cons, PacketsFit]
    refine and_congr_right fun hfits ↦ ?_
    obtain ⟨m, hm, hlen, hnext⟩ := hfits.exists_merged hs
    rw [hm, ← hnext]
    constructor
    · rintro ⟨_, ⟨⟩, hrest⟩
      exact ((ih _).mp hrest).2
    · exact fun hrest ↦ ⟨m, rfl, (ih _).mpr ⟨hlen, hrest⟩⟩

/-- A fragment of 56 bytes of a message of 65535. -/
def longMessage : Packet :=
  ⟨[0x7c, 0x2c, 1, 0, 56, 0, 0xff, 0xff] ++ List.replicate 56 0, by decide⟩

/-- A header without its byte is read past, and the 74th fragment of a message is written behind the
4088 bytes of those before. -/
theorem mergeQmiRsp_leaves :
    ¬ StaysInside ⟨0, List.Vector.replicate bufSize 0⟩ [fill 0 headerOnly] ∧
      ¬ StaysInside ⟨4088, List.Vector.replicate bufSize 0⟩ [fill 0 longMessage] := by
  constructor
  · intro h
    have hfits := (mergeCopies_inside_iff (fill 0 headerOnly)).mp h.2.1
    rw [packet_fill] at hfits
    exact absurd hfits (by decide)
  · intro h
    have hfits := (mergeCopies_inside_iff (fill 0 longMessage)).mp h.2.1
    rw [packet_fill] at hfits
    exact absurd hfits (by decide)

end Wwan.QmiMerge
