import Wwan.QmiWwanF.RxFixup

/-!
# Clones that share the received buffer

The header of a packet is written over the bytes in front of its payload, where the packets before
it may lie. `Clear` is what keeps them apart: the `headroom` bytes in front of the next frame
belong to no packet, be they the padding of a frame that was cloned, a frame that was copied, or
skipped. So the packets that are handed on are those a decoder makes that copies each payload.
-/

namespace Wwan.QmiWwanF

open Wwan.Kernel Wwan.Bytes Wwan.Memory

/-! ## Well-formed frames -/

/-- A data frame for a device below `mode`. -/
structure DataFrame (mode : ℕ) where
  mux : Fin mode
  /-- The reserved bit. -/
  rsvd : Bool
  payload : List UInt8
  padding : List UInt8
  payload_pos : 0 < payload.length
  payload_le : payload.length ≤ 1500
  padding_lt : padding.length < 64
  /-- The payload starts as an IP packet. -/
  ip : (ipProtocol payload[0]).isSome

/-- A command frame. -/
structure CommandFrame where
  /-- The pad and the reserved bit. -/
  flags : Fin 128
  mux : UInt8
  body : List UInt8
  body_le : body.length ≤ 1500 + flags.val % 64

/-- A frame that is decoded or skipped. -/
inductive Frame (mode : ℕ)
  | data (f : DataFrame mode)
  | command (f : CommandFrame)

namespace Frame

variable {mode : ℕ}

/-- What follows the header. -/
def body : Frame mode → List UInt8
  | .data f => f.payload ++ f.padding
  | .command f => f.body

def hdr : Frame mode → QmapHdr
  | .data f =>
    ⟨.ofNat (f.padding.length + if f.rsvd then 64 else 0), .ofNat (fibocomQmapMuxId + f.mux),
      f.payload.length + f.padding.length⟩
  | .command f => ⟨.ofNat (128 + f.flags.val), f.mux, f.body.length⟩

/-- The frame in the buffer. -/
def encode (f : Frame mode) : List UInt8 :=
  [f.hdr.cdRsvdPad, f.hdr.muxId] ++ toBe16 f.hdr.pktLen ++ f.body

theorem hdr_pktLen (f : Frame mode) : f.hdr.pktLen = f.body.length := by
  cases f with
  | data f => simp [hdr, body]
  | command f => rfl

theorem length_body_lt (f : Frame mode) : f.body.length < 65536 := by
  cases f with
  | data f =>
    have hpay := f.payload_le
    have hpad := f.padding_lt
    simp only [body, List.length_append]
    omega
  | command f =>
    have hbody := f.body_le
    have hflags := Nat.mod_lt f.flags.val (show 0 < 64 by decide)
    simp only [body]
    omega

theorem length_encode (f : Frame mode) : f.encode.length = f.hdr.pktLen + 4 := by
  simp [encode, toBe16, hdr_pktLen]

/-- A frame that is in the buffer is read as it is. -/
theorem read_of_holds {mem : ℕ → UInt8} {a : ℕ} (f : Frame mode) (h : Holds mem a f.encode) :
    QmapHdr.read mem a = f.hdr ∧ Holds mem (a + 4) f.body := by
  obtain ⟨hhdr, hbody⟩ := holds_append.mp h
  have hlen : ([f.hdr.cdRsvdPad, f.hdr.muxId] ++ toBe16 f.hdr.pktLen).length = 4 := rfl
  rw [hlen] at hbody
  refine ⟨?_, hbody⟩
  have h₀ := hhdr.getElem (k := 0) (by simp)
  have h₁ := hhdr.getElem (k := 1) (by simp)
  have h₂ := hhdr.getElem (k := 2) (by simp [toBe16])
  have h₃ := hhdr.getElem (k := 3) (by simp [toBe16])
  have hpkt : f.hdr.pktLen < 65536 := by
    rw [hdr_pktLen]
    exact f.length_body_lt
  simp only [toBe16, List.cons_append, List.nil_append, List.getElem_cons_zero,
    List.getElem_cons_succ, Nat.add_zero] at h₀ h₁ h₂ h₃
  rw [QmapHdr.read, h₀, h₁, h₂, h₃, be16_byteOf hpkt]

end Frame

/-- The packet of a decoder that copies: an Ethernet header and the payload. -/
def copied (d : SQmiWwanQmap) : Frame d.qmapMode → Option Packet
  | .data f =>
    match d.qmapNet f.mux, ipProtocol (f.payload.get ⟨0, f.payload_pos⟩) with
    | some net, some protocol => some ⟨net, net.ethHdr protocol ++ f.payload⟩
    | _, _ => none
  | .command _ => none

/-- A buffer with these bytes in front of the frames. -/
def received {mode : ℕ} (room : List UInt8) (frames : List (Frame mode)) (after : ℕ → UInt8) :
    RxBuf where
  mem := poke after 0 (room ++ frames.flatMap Frame.encode)
  data := room.length
  len := (frames.flatMap Frame.encode).length

/-! ## The pass over a well-formed frame -/

variable {d : SQmiWwanQmap} {st : RxState}

theorem CommandFrame.hdr_spec (mode : ℕ) (f : CommandFrame) :
    (Frame.command f : Frame mode).hdr.cdBit = true ∧
      (Frame.command f : Frame mode).hdr.skbLen ≤ 1500 := by
  have hflags := f.flags.isLt
  have hbyte : (UInt8.ofNat (128 + f.flags.val)).toNat = 128 + f.flags.val := by
    rw [UInt8.toNat_ofNat']
    omega
  have hbody := f.body_le
  constructor
  · simp only [Frame.hdr, QmapHdr.cdBit, hbyte]
    exact decide_eq_true (by omega)
  · simp only [Frame.hdr, QmapHdr.skbLen, QmapHdr.pad, hbyte]
    omega

theorem DataFrame.hdr_spec (f : DataFrame d.qmapMode) :
    (Frame.data f).hdr.cdBit = false ∧ (Frame.data f).hdr.pad = f.padding.length ∧
      (Frame.data f).hdr.skbLen = f.payload.length ∧ (Frame.data f).hdr.muxIndex = f.mux := by
  have hpad := f.padding_lt
  have hmux := f.mux.isLt
  have hmode := d.qmapMode_le
  rw [fibocomWwanQmap] at hmode
  have hbyte : (UInt8.ofNat (f.padding.length + if f.rsvd then 64 else 0)).toNat =
      f.padding.length + if f.rsvd then 64 else 0 := by
    rw [UInt8.toNat_ofNat']
    split <;> omega
  have hid : (UInt8.ofNat (fibocomQmapMuxId + f.mux)).toNat = fibocomQmapMuxId + f.mux := by
    rw [UInt8.toNat_ofNat', fibocomQmapMuxId]
    omega
  have hpad' : (Frame.data f).hdr.pad = f.padding.length := by
    simp only [Frame.hdr, QmapHdr.pad, hbyte]
    split <;> omega
  refine ⟨?_, hpad', ?_, ?_⟩
  · simp only [Frame.hdr, QmapHdr.cdBit, hbyte]
    exact decide_eq_false (by split <;> omega)
  · rw [QmapHdr.skbLen, hpad']
    simp [Frame.hdr]
  · simp only [Frame.hdr, QmapHdr.muxIndex, QmapHdr.mux, hid, u32]
    omega

theorem qmapFrame_command {f : CommandFrame} (alloc : Bool)
    (hread : QmapHdr.read st.mem st.data = (Frame.command f : Frame d.qmapMode).hdr)
    (hlen : (Frame.command f : Frame d.qmapMode).hdr.pktLen + 4 ≤ st.len) :
    (qmapFrame d alloc st).2 = .skip := by
  obtain ⟨hcd, hskb⟩ := f.hdr_spec d.qmapMode
  simp [qmapFrame, hread, hcd, Int.not_lt.mpr hskb, Nat.not_lt.mpr hlen]

/-- The checks that a data frame passes before its device is looked up. -/
theorem qmapFrame_data {f : DataFrame d.qmapMode} {protocol : ℕ} (alloc : Bool)
    (hread : QmapHdr.read st.mem st.data = (Frame.data f).hdr)
    (hlen : (Frame.data f).hdr.pktLen + 4 ≤ st.len)
    (hbody : st.mem (st.data + 4) = f.payload.get ⟨0, f.payload_pos⟩)
    (hip : ipProtocol (f.payload.get ⟨0, f.payload_pos⟩) = some protocol) :
    (qmapFrame d alloc st).2 =
      match d.qmapNet f.mux with
      | none => .skip
      | some net =>
        (if ethHlen ≤ st.headroom then cloneFrame alloc st net protocol
          else copyFrame alloc st net protocol).2 := by
  obtain ⟨hcd, -, hskb, hmux⟩ := f.hdr_spec
  have hle : ¬ (1500 : ℤ) < f.payload.length := by
    have := f.payload_le
    omega
  have hmode : ¬ d.qmapMode ≤ f.mux := Nat.not_le.mpr f.mux.isLt
  rw [List.get_eq_getElem] at hip
  cases hnet : d.qmapNet f.mux with
  | none =>
    simp [qmapFrame, hread, hcd, hskb, hmux, hle, Nat.not_lt.mpr hlen, hbody, hip, hmode, hnet]
  | some net =>
    simp [qmapFrame, hread, hcd, hskb, hmux, hle, Nat.not_lt.mpr hlen, hbody, hip, hmode, hnet]

/-! ## The clear headroom -/

/-- The bytes of the packet that lie in the received buffer come before `a`. -/
def RxSkb.EndsBefore (a : ℕ) (skb : RxSkb) : Prop :=
  match skb.body with
  | .shared start len => start + len ≤ a
  | .own _ => True

theorem RxSkb.EndsBefore.mono {a b : ℕ} {skb : RxSkb} (h : skb.EndsBefore a) (hab : a ≤ b) :
    skb.EndsBefore b := by
  rcases skb with ⟨dev, ⟨start, len⟩ | ⟨bytes⟩⟩
  · exact Nat.le_trans h hab
  · exact h

/-- A write behind a packet does not change it. -/
theorem RxSkb.EndsBefore.resolve_poke {a : ℕ} {skb : RxSkb} (h : skb.EndsBefore a)
    (mem : ℕ → UInt8) (xs : List UInt8) : skb.resolve (poke mem a xs) = skb.resolve mem := by
  rcases skb with ⟨dev, ⟨start, len⟩ | ⟨bytes⟩⟩
  · simp only [resolve, peek_poke_of_disjoint (.inl h)]
  · rfl

/-- At a loop head: the frames that are left are in the buffer, the chain has the packets of the
others, and the `headroom` bytes in front of `skb_in->data` are clear. -/
structure Clear (d : SQmiWwanQmap) (chain : List Packet) (done rest : List (Frame d.qmapMode))
    (st : RxState) : Prop where
  frames : Holds st.mem st.data (rest.flatMap Frame.encode)
  len : st.len = (rest.flatMap Frame.encode).length
  chain : st.chain.map (RxSkb.resolve st.mem) = chain ++ done.filterMap (copied d)
  room : st.headroom ≤ st.data
  clear : ∀ skb ∈ st.chain, skb.EndsBefore (st.data - st.headroom)

namespace Clear

variable {chain : List Packet} {done rest : List (Frame d.qmapMode)} {f : Frame d.qmapMode}

theorem start (chain : List Packet) (room : List UInt8) (frames : List (Frame d.qmapMode))
    (after : ℕ → UInt8) : Clear d chain [] frames (rxStart (received room frames after) chain) where
  frames := by
    have hall : Holds (poke after 0 (room ++ frames.flatMap Frame.encode)) 0
        (room ++ frames.flatMap Frame.encode) := holds_poke
    simpa [rxStart, received] using (holds_append.mp hall).2
  len := rfl
  chain := by
    have hid : RxSkb.resolve (received room frames after).mem ∘ Packet.toSkb = id := by
      funext pkt
      rfl
    simp [rxStart, hid]
  room := Nat.le_refl _
  clear := by
    intro skb hskb
    obtain ⟨pkt, -, rfl⟩ := List.mem_map.mp hskb
    trivial

section Pass

variable (h : Clear d chain done (f :: rest) st)

include h

theorem frame_le : f.hdr.pktLen + 4 ≤ st.len := by
  rw [h.len, List.flatMap_cons, List.length_append, f.length_encode]
  exact Nat.le_add_right _ _

theorem read : QmapHdr.read st.mem st.data = f.hdr ∧ Holds st.mem (st.data + 4) f.body := by
  have hframes := h.frames
  rw [List.flatMap_cons] at hframes
  exact f.read_of_holds (holds_append.mp hframes).1

/-- After a pass that left the bytes behind the header alone. -/
theorem pull (mem : ℕ → UInt8) (headroom : ℕ)
    (new : List RxSkb) (hmem : ∀ i, st.data + 4 ≤ i → mem i = st.mem i)
    (hchain : (st.chain ++ new).map (RxSkb.resolve mem) =
      chain ++ (done ++ [f]).filterMap (copied d))
    (hroom : headroom ≤ st.data + (f.hdr.pktLen + 4))
    (hclear : ∀ skb ∈ st.chain ++ new,
      skb.EndsBefore (st.data + (f.hdr.pktLen + 4) - headroom)) :
    Clear d chain (done ++ [f]) rest
      ({ st with mem, headroom, chain := st.chain ++ new }.pull (f.hdr.pktLen + 4)) where
  frames := by
    have hframes := h.frames
    rw [List.flatMap_cons] at hframes
    have hrest := (holds_append.mp hframes).2
    rw [f.length_encode] at hrest
    refine (peek_congr fun i hi _ ↦ hmem i ?_).trans hrest
    exact Nat.le_trans (Nat.add_le_add_left (Nat.le_add_left 4 _) _) hi
  len := by
    have hlen := h.len
    rw [List.flatMap_cons, List.length_append, f.length_encode] at hlen
    simp only [RxState.pull]
    omega
  chain := hchain
  room := hroom
  clear := hclear

/-- A frame that is skipped leaves more room. -/
theorem skip (hnone : copied d f = none) :
    Clear d chain (done ++ [f]) rest (st.pull (f.hdr.pktLen + 4)) := by
  have hclear : ∀ skb ∈ st.chain ++ [],
      skb.EndsBefore (st.data + (f.hdr.pktLen + 4) - st.headroom) := by
    intro skb hskb
    rw [List.append_nil] at hskb
    exact (h.clear skb hskb).mono (by omega)
  have hpull := h.pull st.mem st.headroom [] (fun _ _ ↦ rfl) (by simpa [hnone] using h.chain)
    (Nat.le_trans h.room (Nat.le_add_right _ _)) hclear
  simpa using hpull

end Pass

variable {g : DataFrame d.qmapMode} {net : QmapNet} {protocol : ℕ}

theorem copied_data (hnet : d.qmapNet g.mux = some net)
    (hip : ipProtocol (g.payload.get ⟨0, g.payload_pos⟩) = some protocol) :
    copied d (.data g) = some ⟨net, net.ethHdr protocol ++ g.payload⟩ := by
  rw [copied, hnet, hip]

/-- A copy shares nothing, and its frame is room for the next header. -/
theorem copy (h : Clear d chain done (.data g :: rest) st) (hnet : d.qmapNet g.mux = some net)
    (hip : ipProtocol (g.payload.get ⟨0, g.payload_pos⟩) = some protocol) :
    ∃ skb, (copyFrame true st net protocol).2 = .queue skb st.mem (Frame.data g).hdr.pktLen ∧
      Clear d chain (done ++ [.data g]) rest
        ({ st with headroom := (Frame.data g).hdr.pktLen, chain := st.chain ++ [skb] }.pull
          ((Frame.data g).hdr.pktLen + 4)) := by
  obtain ⟨hread, hbody⟩ := h.read
  obtain ⟨-, -, hskb, -⟩ := g.hdr_spec
  have hpay : peek st.mem (st.data + 4) g.payload.length = g.payload := (holds_append.mp hbody).1
  refine ⟨⟨net, .own (net.ethHdr protocol ++ g.payload)⟩, ?_, h.pull _ _ _ (fun _ _ ↦ rfl) ?_ ?_ ?_⟩
  · simp [copyFrame, hread, hskb, hpay]
  · simp [h.chain, copied_data hnet hip, RxSkb.resolve]
  · omega
  · intro skb hskb
    rcases List.mem_append.mp hskb with hskb | hskb
    · exact (h.clear skb hskb).mono (by omega)
    · rw [List.mem_singleton.mp hskb]
      trivial

/-- The header of a clone is written into the clear bytes, and its padding is room for the next
one. -/
theorem clone (h : Clear d chain done (.data g :: rest) st) (hnet : d.qmapNet g.mux = some net)
    (hip : ipProtocol (g.payload.get ⟨0, g.payload_pos⟩) = some protocol)
    (hroom : ethHlen ≤ st.headroom) :
    ∃ skb mem, (cloneFrame true st net protocol).2 = .queue skb mem (Frame.data g).hdr.pad ∧
      Clear d chain (done ++ [.data g]) rest
        ({ st with
          mem, headroom := (Frame.data g).hdr.pad, chain := st.chain ++ [skb] }.pull
          ((Frame.data g).hdr.pktLen + 4)) := by
  obtain ⟨hread, hbody⟩ := h.read
  obtain ⟨-, hpad, hskb, -⟩ := g.hdr_spec
  have hpay : peek st.mem (st.data + 4) g.payload.length = g.payload := (holds_append.mp hbody).1
  have hlen := h.frame_le
  have hpkt : (Frame.data g).hdr.pktLen = g.payload.length + g.padding.length := rfl
  have hle := g.payload_le
  have hdata := h.room
  have htrim : trimLen (st.len - 4) g.payload.length = g.payload.length := by
    rw [trimLen, u32_natCast (by omega)]
    omega
  rw [ethHlen] at hroom
  -- where the Ethernet header goes
  obtain ⟨start, hstart⟩ : ∃ start, start + ethHlen = st.data + 4 :=
    ⟨st.data + 4 - ethHlen, by rw [ethHlen]; omega⟩
  have hstart' : st.data + 4 - ethHlen = start := by omega
  have hhdr := net.length_ethHdr protocol
  have hresolve : peek (poke st.mem start (net.ethHdr protocol)) start
      (ethHlen + g.payload.length) = net.ethHdr protocol ++ g.payload := by
    have hwritten : Holds (poke st.mem start (net.ethHdr protocol)) start
      (net.ethHdr protocol) := holds_poke
    rw [Holds, hhdr] at hwritten
    have hafter : peek (poke st.mem start (net.ethHdr protocol)) (st.data + 4) g.payload.length =
        peek st.mem (st.data + 4) g.payload.length :=
      peek_poke_of_disjoint (.inr (by rw [hhdr]; omega))
    rw [peek_add, hwritten, hstart, hafter, hpay]
  refine ⟨⟨net, .shared start (ethHlen + g.payload.length)⟩,
    poke st.mem start (net.ethHdr protocol), ?_, h.pull _ _ _ ?_ ?_ ?_ ?_⟩
  · simp [cloneFrame, hread, hskb, htrim, hstart']
  · exact fun i hi ↦ poke_of_outside (.inr (by omega))
  · have hold : st.chain.map (RxSkb.resolve (poke st.mem start (net.ethHdr protocol))) =
        st.chain.map (RxSkb.resolve st.mem) := by
      refine List.map_congr_left fun skb hskb ↦ ?_
      refine RxSkb.EndsBefore.resolve_poke ((h.clear skb hskb).mono ?_) _ _
      rw [ethHlen] at hstart
      omega
    rw [List.map_append, hold, h.chain]
    simp [copied_data hnet hip, RxSkb.resolve, hresolve]
  · omega
  · intro skb hskb
    rcases List.mem_append.mp hskb with hskb | hskb
    · exact (h.clear skb hskb).mono (by omega)
    · rw [List.mem_singleton.mp hskb]
      simp only [RxSkb.EndsBefore]
      omega

/-- A pass over a frame goes on with the next one, unless an allocation fails. -/
theorem next (h : Clear d chain done (f :: rest) st) (alloc : ℕ → Bool) (hlen : 4 < st.len) :
    (∃ st', rxBody d alloc st = .inr st' ∧ Clear d chain (done ++ [f]) rest st') ∨
      alloc st.data = false ∧ rxBody d alloc st = .inl (.error, st) := by
  obtain ⟨hread, hbody⟩ := h.read
  cases f with
  | command f =>
    have hskip := rxBody_of_skip hlen (qmapFrame_command (alloc st.data) hread h.frame_le)
    rw [hread] at hskip
    exact .inl ⟨_, hskip, h.skip rfl⟩
  | data g =>
    obtain ⟨protocol, hip⟩ := Option.isSome_iff_exists.mp g.ip
    have hfirst : st.mem (st.data + 4) = g.payload.get ⟨0, g.payload_pos⟩ := by
      simpa using (holds_append.mp hbody).1.getElem g.payload_pos
    have hframe := qmapFrame_data (alloc st.data) hread h.frame_le hfirst hip
    cases hnet : d.qmapNet g.mux with
    | none =>
      rw [hnet] at hframe
      have hskip := rxBody_of_skip hlen hframe
      rw [hread] at hskip
      exact .inl ⟨_, hskip, h.skip (by simp [copied, hnet])⟩
    | some net =>
      rw [hnet] at hframe
      dsimp only at hframe
      cases halloc : alloc st.data with
      | false =>
        refine .inr ⟨rfl, rxBody_of_error hlen (hframe.trans ?_)⟩
        rw [halloc]
        by_cases hroom : ethHlen ≤ st.headroom <;> simp [hroom, cloneFrame, copyFrame]
      | true =>
        left
        by_cases hroom : ethHlen ≤ st.headroom
        · obtain ⟨skb, mem, hclone, hnext⟩ := h.clone hnet hip hroom
          rw [if_pos hroom, halloc, hclone, ← halloc] at hframe
          have hqueue := rxBody_of_queue hlen hframe
          rw [hread] at hqueue
          exact ⟨_, hqueue, hnext⟩
        · obtain ⟨skb, hcopy, hnext⟩ := h.copy hnet hip
          rw [if_neg hroom, halloc, hcopy, ← halloc] at hframe
          have hqueue := rxBody_of_queue hlen hframe
          rw [hread] at hqueue
          exact ⟨_, hqueue, hnext⟩

/-- Only an empty command frame is too short for the loop. -/
theorem done_of_short (h : Clear d chain done rest st) (hlen : st.len ≤ 4) :
    rest.filterMap (copied d) = [] := by
  cases rest with
  | nil => rfl
  | cons f rest =>
    have hle := h.frame_le
    have hrest : (rest.flatMap Frame.encode).length = 0 := by
      have hlen' := h.len
      rw [List.flatMap_cons, List.length_append, f.length_encode] at hlen'
      omega
    cases f with
    | data g =>
      have hpos := g.payload_pos
      have hpkt : (Frame.data g).hdr.pktLen = g.payload.length + g.padding.length := rfl
      omega
    | command f =>
      cases rest with
      | nil => rfl
      | cons f' rest =>
        rw [List.flatMap_cons, List.length_append, f'.length_encode] at hrest
        omega

/-- What the loop and what follows it hand on. -/
theorem returns (h : Clear d chain done rest st) {alloc : ℕ → Bool} {q : RxExit × RxState}
    (hret : Loop.Returns (rxBody d alloc) st q) :
    q.1 = .error ∧ ¬ (∀ n, alloc n = true) ∨
      q.1 = .dequeue ∧
        (finish q).delivered = chain ++ (done ++ rest).filterMap (copied d) := by
  induction rest generalizing st done with
  | nil =>
    have hlen : st.len = 0 := h.len
    have hq := hret.unique (Loop.returns_of_inl (rxBody_of_short (by omega)))
    rw [hq]
    exact .inr ⟨rfl, by simpa [finish] using h.chain⟩
  | cons f rest ih =>
    by_cases hlen : st.len ≤ 4
    · have hq := hret.unique (Loop.returns_of_inl (rxBody_of_short hlen))
      rw [hq]
      refine .inr ⟨rfl, ?_⟩
      rw [List.filterMap_append, h.done_of_short hlen, List.append_nil]
      exact h.chain
    · rcases h.next alloc (Nat.not_le.mp hlen) with
        ⟨st', hbody, hnext⟩ | ⟨halloc, hbody⟩
      · rw [Loop.returns_of_inr hbody] at hret
        simpa using ih hnext hret
      · rw [hret.unique (Loop.returns_of_inl hbody)]
        exact .inl ⟨rfl, fun hall ↦ by rw [hall] at halloc; cases halloc⟩

end Clear

/-- On every buffer of well-formed and skipped frames the decoder returns. If it comes to empty
`skb_chain`, as it does unless an allocation fails, it hands on what was on the chain and then the
packets of a decoder that copies, though clones share the buffer. -/
theorem rxFixup_eq_copied (d : SQmiWwanQmap) (alloc : ℕ → Bool) (room : List UInt8)
    (after : ℕ → UInt8) (frames : List (Frame d.qmapMode)) (chain : List Packet) :
    ∃ r, RxFixup d alloc (received room frames after) chain r ∧
      (r.exit = .dequeue → r.delivered = chain ++ frames.filterMap (copied d)) ∧
      ((∀ n, alloc n = true) → r.exit = .dequeue) := by
  have hclear := Clear.start chain room frames after
  obtain ⟨q, hq, -⟩ := rxFixup_returns d alloc (received room frames after) chain
  refine ⟨finish q, ⟨q, hq, rfl⟩, ?_⟩
  obtain ⟨exit, st⟩ := q
  rcases hclear.returns hq with ⟨hexit, halloc⟩ | ⟨hexit, hdelivered⟩
  · obtain rfl : exit = .error := hexit
    exact ⟨fun h ↦ (by cases h), fun hall ↦ absurd hall halloc⟩
  · obtain rfl : exit = .dequeue := hexit
    exact ⟨fun _ ↦ hdelivered, fun _ ↦ rfl⟩

end Wwan.QmiWwanF
