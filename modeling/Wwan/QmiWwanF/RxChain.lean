import Wwan.Lib.Transition
import Wwan.QmiWwanF.RxFixup

/-!
# Packets that stay on `skb_chain`

`skb_chain` is emptied at the end of a call, but not by the exits for a bad frame and for a failed
allocation: what the call has queued by then waits for a later one, which hands it to its device
whether or not that device is still there. GobiNet's decoder, which has the same loop, empties its
chain in every exit.

So the packets of a buffer are handed on in time exactly if no bad frame comes behind a packet.
-/

namespace Wwan.QmiWwanF

open Wwan.Kernel Wwan.Bytes Wwan.Memory

/-! ## The frames of a buffer -/

/-- What the decoder makes of a frame. -/
inductive FrameKind
  | /-- It stops here. -/
    bad
  | skip
  | packet
  deriving DecidableEq

/-- The kind of the frame at `a` in a buffer with `len` bytes left. -/
def frameKind (d : SQmiWwanQmap) (alloc : Bool) (mem : ℕ → UInt8) (a len : ℕ) : FrameKind :=
  let h := QmapHdr.read mem a
  if 1500 < h.skbLen ∨ len < h.pktLen + 4 then .bad
  else if h.cdBit then .skip
  else if (ipProtocol (mem (a + 4))).isNone ∨ d.qmapMode ≤ h.muxIndex then .bad
  else if (d.qmapNet h.muxIndex).isNone then .skip
  else if alloc then .packet else .bad

/-- The kinds of the frames up to the first bad one; `fuel` bounds their number. -/
def frameKinds (d : SQmiWwanQmap) (alloc : ℕ → Bool) (mem : ℕ → UInt8) :
    ℕ → ℕ → ℕ → List FrameKind
  | 0, _, _ => []
  | fuel + 1, a, len =>
    if len ≤ 4 then []
    else
      match frameKind d (alloc a) mem a len with
      | .bad => [.bad]
      | k =>
        let frameLen := (QmapHdr.read mem a).pktLen + 4
        k :: frameKinds d alloc mem fuel (a + frameLen) (len - frameLen)

/-- No bad frame comes behind a packet. -/
def Orderly (d : SQmiWwanQmap) (alloc : ℕ → Bool) (buf : RxBuf) : Prop :=
  let kinds := frameKinds d alloc buf.mem buf.len buf.data buf.len
  .bad ∈ kinds → .packet ∉ kinds

/-! ## The passes over them -/

variable {d : SQmiWwanQmap} {alloc : ℕ → Bool} {st : RxState}

/-- A header fits in front of the payload when the decoder takes it to. -/
def Roomy (st : RxState) : Prop := ethHlen ≤ st.headroom → ethHlen ≤ st.data + 4

theorem fits_iff : Fits st ↔ ¬ (1500 < (QmapHdr.read st.mem st.data).skbLen ∨
    st.len < (QmapHdr.read st.mem st.data).pktLen + 4) := by
  rw [not_or, Int.not_lt, Nat.not_lt]
  exact ⟨fun h ↦ ⟨h.skbLen_le, h.frame_le⟩, fun h ↦ ⟨h.1, h.2⟩⟩

theorem frameKind_rejected (alloc : Bool) (h : ¬ Fits st) :
    frameKind d alloc st.mem st.data st.len = .bad := by
  rw [fits_iff, not_not] at h
  exact if_pos h

theorem frameKind_command (alloc : Bool) (h : Fits st)
    (hcd : (QmapHdr.read st.mem st.data).cdBit = true) :
    frameKind d alloc st.mem st.data st.len = .skip := by
  simp [frameKind, fits_iff.mp h, hcd]

theorem frameKind_unknown (alloc : Bool) (h : Fits st)
    (hcd : (QmapHdr.read st.mem st.data).cdBit = false)
    (hunk : ipProtocol (st.mem (st.data + 4)) = none ∨
      d.qmapMode ≤ (QmapHdr.read st.mem st.data).muxIndex) :
    frameKind d alloc st.mem st.data st.len = .bad := by
  simp [frameKind, fits_iff.mp h, hcd, hunk]

theorem frameKind_unregistered (alloc : Bool) (h : Fits st)
    (hcd : (QmapHdr.read st.mem st.data).cdBit = false)
    (hip : (ipProtocol (st.mem (st.data + 4))).isSome)
    (hmux : (QmapHdr.read st.mem st.data).muxIndex < d.qmapMode)
    (hnet : d.qmapNet (QmapHdr.read st.mem st.data).muxIndex = none) :
    frameKind d alloc st.mem st.data st.len = .skip := by
  simp [frameKind, fits_iff.mp h, hcd, Option.isSome_iff_ne_none.mp hip, Nat.not_le.mpr hmux, hnet]

theorem DataFor.frameKind_eq {net : QmapNet} {protocol : ℕ} (h : DataFor d st net protocol)
    (alloc : Bool) :
    frameKind d alloc st.mem st.data st.len = if alloc then .packet else .bad := by
  simp [frameKind, fits_iff.mp h.fits, h.data, h.ip, Nat.not_le.mpr h.mux_lt, h.registered]

theorem DataFor.registered_at {net : QmapNet} {protocol : ℕ} (h : DataFor d st net protocol) :
    ∃ i, d.mpQmapNetDev i = some net := by
  have hnet := h.registered
  rw [SQmiWwanQmap.qmapNet] at hnet
  split at hnet
  next hlt => exact ⟨_, hnet⟩
  next => cases hnet

/-- The pass stops at a bad frame. -/
theorem qmapFrame_of_bad {alloc : Bool} (h : frameKind d alloc st.mem st.data st.len = .bad) :
    (qmapFrame d alloc st).2 = .error := by
  have hcase := qmapFrame_case d alloc st
  generalize qmapFrame d alloc st = r at hcase
  cases hcase with
  | rejected => rfl
  | command hfits hcd => cases (frameKind_command alloc hfits hcd).symm.trans h
  | unknown => rfl
  | unregistered hfits hcd hip hmux hnet =>
    cases (frameKind_unregistered alloc hfits hcd hip hmux hnet).symm.trans h
  | clone hdata _ =>
    rw [hdata.frameKind_eq] at h
    cases alloc with
    | false => rfl
    | true => cases h
  | copy hdata _ =>
    rw [hdata.frameKind_eq] at h
    cases alloc with
    | false => rfl
    | true => cases h

/-- The pass goes on behind a frame to skip. -/
theorem qmapFrame_of_skip {alloc : Bool} (h : frameKind d alloc st.mem st.data st.len = .skip) :
    (qmapFrame d alloc st).2 = .skip := by
  have hcase := qmapFrame_case d alloc st
  generalize qmapFrame d alloc st = r at hcase
  cases hcase with
  | rejected hnot => cases (frameKind_rejected alloc hnot).symm.trans h
  | command => rfl
  | unknown hfits hcd hunk => cases (frameKind_unknown alloc hfits hcd hunk).symm.trans h
  | unregistered => rfl
  | clone hdata _ =>
    rw [hdata.frameKind_eq] at h
    cases alloc <;> cases h
  | copy hdata _ =>
    rw [hdata.frameKind_eq] at h
    cases alloc <;> cases h

/-- A packet is queued, and only bytes up to its payload are written, unless its length is
negative. -/
theorem qmapFrame_of_packet {alloc : Bool} (hroomy : Roomy st)
    (h : frameKind d alloc st.mem st.data st.len = .packet) :
    (qmapFrame d alloc st).2 = .overrun ∨ ∃ skb mem headroom,
      (qmapFrame d alloc st).2 = .queue skb mem headroom ∧
        (∃ i, d.mpQmapNetDev i = some skb.dev) ∧
        (∀ i, st.data + 4 ≤ i → mem i = st.mem i) ∧
        Roomy ({ st with mem, headroom, chain := st.chain ++ [skb] }.pull
          ((QmapHdr.read st.mem st.data).pktLen + 4)) := by
  have hcase := qmapFrame_case d alloc st
  generalize qmapFrame d alloc st = r at hcase
  cases hcase with
  | rejected hnot => cases (frameKind_rejected alloc hnot).symm.trans h
  | command hfits hcd => cases (frameKind_command alloc hfits hcd).symm.trans h
  | unknown hfits hcd hunk => cases (frameKind_unknown alloc hfits hcd hunk).symm.trans h
  | unregistered hfits hcd hip hmux hnet =>
    cases (frameKind_unregistered alloc hfits hcd hip hmux hnet).symm.trans h
  | @clone net protocol hdata hroom =>
    rw [hdata.frameKind_eq] at h
    cases alloc with
    | false => cases h
    | true =>
      have hdata4 := hroomy hroom
      refine .inr ⟨_, _, _, rfl, hdata.registered_at, ?_, ?_⟩
      · intro i hi
        refine poke_of_outside (.inr ?_)
        rw [QmapNet.length_ethHdr]
        omega
      · intro _
        simp only [RxState.pull]
        omega
  | @copy net protocol hdata hroom =>
    rw [hdata.frameKind_eq] at h
    cases alloc with
    | false => cases h
    | true =>
      by_cases hneg : (QmapHdr.read st.mem st.data).skbLen < 0
      · exact .inl (by simp [copyFrame, hneg])
      · refine .inr ⟨_, st.mem, (QmapHdr.read st.mem st.data).pktLen,
          by simp only [copyFrame, if_true, if_neg hneg]; rfl, hdata.registered_at,
          fun _ _ ↦ rfl, ?_⟩
        intro hroom'
        simp only [RxState.pull] at hroom' ⊢
        omega

theorem frameKinds_congr {mem mem' : ℕ → UInt8} {n a len : ℕ}
    (h : ∀ i, a ≤ i → mem i = mem' i) :
    frameKinds d alloc mem n a len = frameKinds d alloc mem' n a len := by
  induction n generalizing a len with
  | zero => rfl
  | succ n ih =>
    have hread : QmapHdr.read mem a = QmapHdr.read mem' a := by
      simp only [QmapHdr.read, h a (Nat.le_refl a), h _ (Nat.le_add_right a _)]
    have hkind : frameKind d (alloc a) mem a len = frameKind d (alloc a) mem' a len := by
      simp only [frameKind, hread, h _ (Nat.le_add_right a _)]
    have hrest : frameKinds d alloc mem n (a + ((QmapHdr.read mem' a).pktLen + 4))
          (len - ((QmapHdr.read mem' a).pktLen + 4)) =
        frameKinds d alloc mem' n (a + ((QmapHdr.read mem' a).pktLen + 4))
          (len - ((QmapHdr.read mem' a).pktLen + 4)) :=
      ih fun i hi ↦ h i (Nat.le_trans (Nat.le_add_right a _) hi)
    simp only [frameKinds, hread, hkind, hrest]

/-- A call that returns comes to the end if there is no bad frame, and queues something if there is
a packet. -/
theorem returns_of_kinds {q : RxExit × RxState} {n : ℕ} (hn : st.len ≤ n) (hroomy : Roomy st)
    (hret : Loop.Returns (rxBody d alloc) st q) (hq : q.1 ≠ .overrun) :
    (q.1 = .dequeue ↔ .bad ∉ frameKinds d alloc st.mem n st.data st.len) ∧
      ∃ new, q.2.chain = st.chain ++ new ∧
        (new = [] ↔ .packet ∉ frameKinds d alloc st.mem n st.data st.len) ∧
        ∀ skb ∈ new, ∃ i, d.mpQmapNetDev i = some skb.dev := by
  induction n generalizing st with
  | zero =>
    rw [hret.unique (Loop.returns_of_inl (rxBody_of_short (by omega)))]
    exact ⟨by simp [frameKinds], [], by simp [frameKinds]⟩
  | succ n ih =>
    by_cases hlen : st.len ≤ 4
    · rw [hret.unique (Loop.returns_of_inl (rxBody_of_short hlen))]
      exact ⟨by simp [frameKinds, hlen], [], by simp [frameKinds, hlen]⟩
    have hlt := Nat.not_le.mp hlen
    have hshort : (st.pull ((QmapHdr.read st.mem st.data).pktLen + 4)).len ≤ n := by
      simp only [RxState.pull]
      omega
    cases hkind : frameKind d (alloc st.data) st.mem st.data st.len with
    | bad =>
      have hframe := qmapFrame_of_bad hkind
      rw [hret.unique (Loop.returns_of_inl (rxBody_of_error hlt hframe))]
      exact ⟨by simp [frameKinds, hlen, hkind], [], by simp [frameKinds, hlen, hkind]⟩
    | skip =>
      have hframe := qmapFrame_of_skip hkind
      rw [Loop.returns_of_inr (rxBody_of_skip hlt hframe)] at hret
      have hroomy' : Roomy (st.pull ((QmapHdr.read st.mem st.data).pktLen + 4)) := by
        intro hroom
        exact Nat.le_trans (hroomy hroom) (by simp only [RxState.pull]; omega)
      have hrest := ih hshort hroomy' hret
      simpa [frameKinds, hlen, hkind, RxState.pull] using hrest
    | packet =>
      rcases qmapFrame_of_packet hroomy hkind with
        hframe | ⟨skb, mem, headroom, hframe, hreg, hmem, hroomy'⟩
      · have hover : rxBody d alloc st = .inl (.overrun, st) := by
          rw [rxBody, if_neg hlen, hframe]
        rw [hret.unique (Loop.returns_of_inl hover)] at hq
        exact absurd rfl hq
      · rw [Loop.returns_of_inr (rxBody_of_queue hlt hframe)] at hret
        have hshort' : ({ st with mem, headroom, chain := st.chain ++ [skb] }.pull
            ((QmapHdr.read st.mem st.data).pktLen + 4)).len ≤ n := hshort
        obtain ⟨hexit, new, hchain, -, hnew⟩ := ih hshort' hroomy' hret
        have hsame : frameKinds d alloc mem n
              (st.data + ((QmapHdr.read st.mem st.data).pktLen + 4))
              (st.len - ((QmapHdr.read st.mem st.data).pktLen + 4)) =
            frameKinds d alloc st.mem n
              (st.data + ((QmapHdr.read st.mem st.data).pktLen + 4))
              (st.len - ((QmapHdr.read st.mem st.data).pktLen + 4)) :=
          frameKinds_congr fun i hi ↦ hmem i (by omega)
        refine ⟨?_, skb :: new, ?_, ?_, ?_⟩
        · simpa [frameKinds, hlen, hkind, RxState.pull, hsame] using hexit
        · simpa [RxState.pull] using hchain
        · simp [frameKinds, hlen, hkind]
        · intro skb' hskb'
          rcases List.mem_cons.mp hskb' with rfl | hskb'
          · exact hreg
          · exact hnew skb' hskb'

/-! ## Calls and devices that go away -/

/-- `qmap_unregister_device` clears the element. -/
def SQmiWwanQmap.unregister (d : SQmiWwanQmap) (i : Fin fibocomWwanQmap) : SQmiWwanQmap :=
  { d with
    mpQmapNetDev := Function.update d.mpQmapNetDev i none
    distinct := by
      intro j k net net' hj hk hid
      have hj' : j ≠ i := by
        rintro rfl
        simp at hj
      have hk' : k ≠ i := by
        rintro rfl
        simp at hk
      rw [Function.update_of_ne hj'] at hj
      rw [Function.update_of_ne hk'] at hk
      exact d.distinct j k net net' hj hk hid }

/-- The driver between two calls. -/
structure QmapRun where
  dev : SQmiWwanQmap
  /-- The device `mpNetDev->net`, which is not unregistered here. -/
  main : ℕ
  /-- `skb_chain`. -/
  chain : List Packet
  /-- The devices that were unregistered. -/
  gone : List ℕ

/-- What happens to the driver. -/
inductive RxEvent
  | /-- A buffer is received. -/
    rx (alloc : ℕ → Bool) (buf : RxBuf)
  | /-- `qmap_unregister_device`. -/
    unregister (i : Fin fibocomWwanQmap)

namespace QmapRun

variable (s : QmapRun)

/-- What the call for a buffer does; without `qmap_mode` it leaves the chain alone. -/
def call (alloc : ℕ → Bool) (buf : RxBuf) : RxResult :=
  if s.dev.qmapMode = 0 then ⟨.dequeue, [], s.chain⟩ else rxFixup s.dev alloc buf s.chain

/-- The packets of the frames before the first bad one: those of a call that finds the chain
empty, whether they are handed on or not. -/
def decoded (alloc : ℕ → Bool) (buf : RxBuf) : List Packet :=
  let r := { s with chain := [] }.call alloc buf
  r.delivered ++ r.chain

/-- The driver after an event. -/
def next : RxEvent → QmapRun
  | .rx alloc buf => { s with chain := (s.call alloc buf).chain }
  | .unregister i =>
    match s.dev.mpQmapNetDev i with
    | some net =>
      if net.id = s.main then s
      else { s with dev := s.dev.unregister i, gone := net.id :: s.gone }
    | none => s

/-- A call returns unless it copies a negative length. -/
def Returns : RxEvent → Prop
  | .rx alloc buf => (s.call alloc buf).exit ≠ .overrun
  | .unregister _ => True

/-- A call leaves nothing on the chain, hands on the packets it decodes, and hands on no packet to a
device that is gone. -/
def Right : RxEvent → Prop
  | .rx alloc buf =>
    (s.call alloc buf).chain = [] ∧ s.decoded alloc buf <:+ (s.call alloc buf).delivered ∧
      ∀ pkt ∈ (s.call alloc buf).delivered, pkt.dev.id ∉ s.gone
  | .unregister _ => True

/-- The buffer has no bad frame behind a packet. -/
def OrderlyEvent : RxEvent → Prop
  | .rx alloc buf => Orderly s.dev alloc buf
  | .unregister _ => True

/-- The driver with these devices and an empty chain. -/
def system (dev : SQmiWwanQmap) (main : ℕ) : System QmapRun RxEvent where
  init := ⟨dev, main, [], []⟩
  enabled := Returns
  next := next

/-- Between orderly calls the chain is empty, and the devices in the table are there. -/
structure Inv : Prop where
  chain : s.chain = []
  present : ∀ i net, s.dev.mpQmapNetDev i = some net → net.id ∉ s.gone

variable {s}

/-- Without `qmap_mode` no frame is for a device. -/
theorem orderly_of_mode_zero {d : SQmiWwanQmap} (hmode : d.qmapMode = 0) (alloc : ℕ → Bool)
    (buf : RxBuf) : Orderly d alloc buf := by
  have hkind : ∀ a mem i len, frameKind d a mem i len ≠ .packet := by
    intro a mem i len
    simp only [frameKind, hmode, Nat.zero_le, or_true, if_true]
    split
    · rintro ⟨⟩
    · split <;> rintro ⟨⟩
  have hkinds : ∀ n a len, FrameKind.packet ∉ frameKinds d alloc buf.mem n a len := by
    intro n
    induction n with
    | zero => simp [frameKinds]
    | succ n ih =>
      intro a len
      rw [frameKinds]
      split
      · simp
      · cases hk : frameKind d (alloc a) buf.mem a len with
        | bad => simp
        | skip => simpa using ih _ _
        | packet => exact absurd hk (hkind _ _ _ _)
  exact fun _ ↦ hkinds _ _ _

/-- A call that finds the chain empty does what it should if and only if its buffer is orderly. -/
theorem Inv.right_iff (hs : s.Inv) (alloc : ℕ → Bool) (buf : RxBuf)
    (hret : s.Returns (.rx alloc buf)) :
    s.Right (.rx alloc buf) ↔ s.OrderlyEvent (.rx alloc buf) := by
  have hdecoded : s.decoded alloc buf =
      (s.call alloc buf).delivered ++ (s.call alloc buf).chain := by
    rw [decoded, ← hs.chain]
  rw [Right, hdecoded, OrderlyEvent]
  by_cases hmode : s.dev.qmapMode = 0
  · have hcall : s.call alloc buf = ⟨.dequeue, [], []⟩ := by rw [call, if_pos hmode, hs.chain]
    simp [hcall, orderly_of_mode_zero hmode alloc buf]
  have hcall : s.call alloc buf = rxFixup s.dev alloc buf [] := by
    rw [call, if_neg hmode, hs.chain]
  obtain ⟨⟨exit, st⟩, hloop, hq⟩ := rxFixup_returns s.dev alloc buf []
  rw [Returns, hcall, hq] at hret
  rw [hcall, hq]
  have hexit : exit ≠ .overrun := by
    rintro rfl
    exact hret rfl
  have hroomy : Roomy (rxStart buf []) := fun h ↦ Nat.le_trans h (Nat.le_add_right _ 4)
  obtain ⟨hend, new, hchain, hnew, hreg⟩ :=
    returns_of_kinds (Nat.le_refl buf.len) hroomy hloop hexit
  obtain rfl : st.chain = new := hchain
  cases exit with
  | overrun => exact absurd rfl hexit
  | dequeue =>
    have hbad := hend.mp rfl
    refine iff_of_true ⟨rfl, by simp [finish], ?_⟩ fun h ↦ absurd h hbad
    intro pkt hpkt
    obtain ⟨skb, hskb, rfl⟩ := List.mem_map.mp hpkt
    obtain ⟨i, hi⟩ := hreg skb hskb
    exact hs.present i skb.dev hi
  | error =>
    have hbad : FrameKind.bad ∈
        frameKinds s.dev alloc buf.mem buf.len buf.data buf.len := by
      by_contra hno
      cases hend.mpr hno
    constructor
    · rintro ⟨hnone, -⟩ -
      exact hnew.mp (List.map_eq_nil_iff.mp hnone)
    · intro hord
      have hnil := hnew.mpr (hord hbad)
      simp [finish, hnil]

theorem Inv.next (hs : s.Inv) (e : RxEvent) (hret : s.Returns e) (hord : s.OrderlyEvent e) :
    (s.next e).Inv := by
  cases e with
  | rx alloc buf => exact ⟨((hs.right_iff alloc buf hret).mpr hord).1, hs.present⟩
  | unregister i =>
    rw [QmapRun.next]
    cases hi : s.dev.mpQmapNetDev i with
    | none => exact hs
    | some net =>
      dsimp only
      split
      · exact hs
      · refine ⟨hs.chain, ?_⟩
        intro j net' hj hmem
        have hne : j ≠ i := by
          rintro rfl
          simp [SQmiWwanQmap.unregister] at hj
        have hj' : s.dev.mpQmapNetDev j = some net' := by
          simpa [SQmiWwanQmap.unregister, hne] using hj
        rcases List.mem_cons.mp hmem with hid | hmem
        · exact hne (s.dev.distinct j i net' net hj' hi hid)
        · exact hs.present j net' hj' hmem

/-- In every run each call does what it should, if and only if each buffer is orderly. -/
theorem right_iff_orderly (dev : SQmiWwanQmap) (main : ℕ) (es : List RxEvent) :
    (system dev main).Along Right (system dev main).init es ↔
      (system dev main).Along OrderlyEvent (system dev main).init es := by
  refine System.along_iff_of_invariant (I := Inv) ?_ ?_ ?_ es
  · intro s e hs hret
    cases e with
    | rx alloc buf => exact hs.right_iff alloc buf hret
    | unregister i => exact Iff.rfl
  · intro s e hs hret hord
    exact hs.next e hret hord
  · exact ⟨rfl, fun _ _ _ h ↦ by cases h⟩

/-! ## A stranded packet -/

/-- Two registered devices, neither of which is the one of the USB interface. -/
def twoDevs : SQmiWwanQmap where
  mpQmapNetDev i :=
    if i.val < 2 then
      some ⟨i, ⟨[2, 0, 0, 0, 0, i.val.toUInt8], rfl⟩, false, ⟨[0, 0, 0, 0, 0, 0], rfl⟩⟩
    else none
  qmapMode := 2
  qmapMode_le := by decide
  distinct := by
    intro i j net net' hi hj hid
    split at hi <;> cases hi
    split at hj <;> cases hj
    exact Fin.ext hid

/-- A buffer without headroom. -/
def bufOf (bytes : List UInt8) : RxBuf := ⟨poke (fun _ ↦ 0) 0 bytes, 0, bytes.length⟩

/-- A packet for the second device, and a frame that is no IP packet behind it. -/
def disorderly : RxBuf := bufOf [0, 0x82, 0, 1, 0x45, 0, 0x82, 0, 1, 0x15]

/-- A packet for the first device. -/
def orderly : RxBuf := bufOf [0, 0x81, 0, 1, 0x45]

/-- The packet is not handed on with its buffer; it is with the next one, when its device is
gone. -/
theorem disorderly_not_right :
    ¬ (system twoDevs 7).init.Right (.rx (fun _ ↦ true) disorderly) ∧
      ¬ ((system twoDevs 7).exec (system twoDevs 7).init
        [.rx (fun _ ↦ true) disorderly, .unregister ⟨1, by decide⟩]).Right
          (.rx (fun _ ↦ true) orderly) := by
  constructor
  · rintro ⟨hchain, -⟩
    exact absurd hchain (by decide)
  · rintro ⟨-, -, hgone⟩
    exact absurd hgone (by decide)

end QmapRun

end Wwan.QmiWwanF
