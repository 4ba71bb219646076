import Wwan.QmiWwanQ.TxConserve

/-!
# The size of the aggregation buffer in `qmi_wwan_q`

A packet comes to `rmnet_usb_tx_agg` through `rmnet_vnd_start_xmit`, which frames it; it is no
longer than the MTU, which `rmnet_vnd_change_mtu` sets to any non-negative number. The frame is
compared with `ul_data_aggregation_max_size`, together with what is pending, when it joins a buffer.
It is compared with nothing when it starts one.

So a frame is put beyond the size of its buffer if and only if it starts a buffer and is longer than
`ul_data_aggregation_max_size` (`startXmit_inside_iff`).
-/

namespace Wwan.QmiWwanQ

open Wwan.Kernel Wwan.Bytes

/-! ## Packets of a device -/

/-- What does not change while a device is registered. -/
structure VndPort where
  alloc : AllocSkb
  params : AggParams
  /-- `priv->qmap_version`. -/
  qmapVersion : ℕ
  /-- `pNet->type`. -/
  type : ArpHrd
  /-- `priv->mux_id`. -/
  muxId : UInt8
  /-- When the device is registered. -/
  start : Timespec64

/-- A packet given to `rmnet_vnd_start_xmit`, with what the kernel answers during the call. -/
structure VndPacket (type : ArpHrd) where
  skb : SkBuff
  /-- `netdev_xmit_more()`. -/
  xmitMore : Bool
  now : ℕ → Timespec64
  allocAgg : Bool
  allocSkb : Bool
  /-- A packet of an Ethernet device has its Ethernet header. -/
  ipOffset_le : ipOffset type ≤ skb.len
  /-- A packet with header and pad is shorter than 2 GiB, as every buffer is. -/
  len_lt : skb.len + 11 < 2 ^ 31

/-- Framing puts a pad behind the packet and the header apart from it. -/
theorem qmapFraming_bounds {version : ℕ} {type : ArpHrd} {muxId : UInt8} {skb : SkBuff}
    {r : SkBuff × List UInt8 × ℕ} (h : qmapFraming version type muxId skb = some r) :
    skb.len ≤ r.1.len ∧ r.1.len + r.2.1.length ≤ skb.len + 11 ∧ r.2.2 = ipOffset type ∧
      0 < r.2.1.length := by
  unfold qmapFraming at h
  split at h
  next =>
    obtain rfl := Option.some.inj h
    have hpad := qhdrPad_lt skb.len skb.tailroom
    simp only [SkBuff.len_put, toBe16, List.length_append, List.length_cons,
      List.length_nil, true_and]
    omega
  next =>
    split at h
    next =>
      obtain rfl := Option.some.inj h
      have hpad := qhdrPad_lt (skb.len - ipOffset type) skb.tailroom
      simp only [SkBuff.len_put, toBe16, ulHeader, List.length_append,
        List.length_cons, List.length_nil, true_and]
      omega
    next => cases h

/-- The call of `rmnet_usb_tx_agg` that `rmnet_vnd_start_xmit` makes, if the packet is not freed. -/
def VndPacket.call (V : VndPort) (p : VndPacket V.type) : Option TxCall :=
  match h : qmapFraming V.qmapVersion V.type V.muxId p.skb with
  | none => none
  | some r => some
    { skb := r.1
      hdrData := r.2.1
      ipOffset := r.2.2
      xmitMore := p.xmitMore
      now := p.now
      allocAgg := p.allocAgg
      allocSkb := p.allocSkb
      ipOffset_le := (qmapFraming_bounds h).2.2.1 ▸ p.ipOffset_le.trans (qmapFraming_bounds h).1
      len_lt := Nat.lt_of_le_of_lt (qmapFraming_bounds h).2.1 p.len_lt }

/-- A device with its MTU. -/
structure VndState where
  tx : TxState
  /-- `dev->mtu`. -/
  mtu : ℕ

/-- What can happen to it. -/
inductive VndEvent (type : ArpHrd)
  | startXmit (p : VndPacket type)
  | work (now : Timespec64)
  | setting (s : QmapSetting) (size : ℕ)
  | changeMtu (newMtu : ℤ)

/-- `rmnet_vnd_change_mtu`; above 1500 there is a warning. -/
def rmnetVndChangeMtu (mtu : ℕ) (newMtu : ℤ) : ℕ := if newMtu < 0 then mtu else newMtu.toNat

/-- The uplink of a device from its registration on, for packets up to the MTU. -/
def vndSystem (V : VndPort) : System VndState (VndEvent V.type) where
  init := ⟨(txSystem V.alloc V.params V.start).init, ethDataLen⟩
  enabled s
    | .startXmit p => s.tx.panicked = false ∧ p.skb.len - ipOffset V.type ≤ s.mtu
    | _ => s.tx.panicked = false
  next s
    | .startXmit p => match p.call V with
      | none => s
      | some c => { s with tx := (txSystem V.alloc V.params V.start).next s.tx (.call c) }
    | .work now => { s with tx := (txSystem V.alloc V.params V.start).next s.tx (.work now) }
    | .setting q size =>
      { s with tx := (txSystem V.alloc V.params V.start).next s.tx (.setting q size) }
    | .changeMtu newMtu => { s with mtu := rmnetVndChangeMtu s.mtu newMtu }

/-! ## Where a pass puts its frame -/

/-- The aggregation buffer that a pass puts the frame into, if it does. -/
def putTarget (A : AllocSkb) (P : AggParams) (c : TxCall) (st : TxDev × ℕ) : Option TxBuf :=
  match st.1.aggSkb with
  | some buf =>
    if u32 (buf.data.length + c.skb.len + c.hdrData.length) < st.1.maxSize then some buf else none
  | none => if c.bypass P st then none else A.alloc c.allocAgg st.1.maxSize

/-- A call puts its frame within `ul_data_aggregation_max_size`, the size that the buffer was
allocated with. -/
def PutsInside (A : AllocSkb) (P : AggParams) (dev : TxDev) (c : TxCall) : Prop :=
  dev.limit ≠ 1 → ∀ st, Loop.Reaches (newPacket A P c) (dev, 0) st →
    ∀ buf, putTarget A P c st = some buf → buf.data.length + c.frame.length ≤ st.1.maxSize

/-- A frame that starts a buffer is no longer than `ul_data_aggregation_max_size`. -/
def FirstFits (A : AllocSkb) (P : AggParams) (dev : TxDev) (c : TxCall) : Prop :=
  dev.limit ≠ 1 → ∀ st, Loop.Reaches (newPacket A P c) (dev, 0) st →
    st.1.aggSkb = none → c.bypass P st = false → (A.alloc c.allocAgg st.1.maxSize).isSome →
      c.frame.length ≤ st.1.maxSize

/-- The pending buffer has the size in force, and is filled within it. -/
structure BufInside (A : AllocSkb) (dev : TxDev) : Prop where
  data_le : ∀ buf, dev.aggSkb = some buf → buf.data.length ≤ dev.maxSize
  room : ∀ buf, dev.aggSkb = some buf →
    buf.data.length + buf.tailroom = A.room dev.maxSize ∧ dev.maxSize ≤ A.max
  one : dev.limit = 1 → dev.aggSkb = none

namespace BufInside

variable {A : AllocSkb} {dev : TxDev}

theorem of_none (h : dev.aggSkb = none) : BufInside A dev where
  data_le buf hbuf := by cases h.symm.trans hbuf
  room buf hbuf := by cases h.symm.trans hbuf
  one _ := h

/-- The sum that a frame is compared with does not wrap. -/
theorem check_eq {buf : TxBuf} (h : BufInside A dev) (hskb : dev.aggSkb = some buf) (c : TxCall) :
    u32 (buf.data.length + c.skb.len + c.hdrData.length) =
      buf.data.length + c.skb.len + c.hdrData.length := by
  have hdata := h.data_le buf hskb
  have hmax := (h.room buf hskb).2
  have hlt := A.max_lt
  have hlen := c.len_lt
  have hfits : buf.data.length + c.skb.len + c.hdrData.length < 2 ^ 32 := by omega
  exact_mod_cast u32_natCast hfits

/-- A frame is put into a buffer with room for it. -/
theorem put {P : AggParams} {st : TxDev × ℕ} {c : TxCall} {buf : TxBuf} (h : BufInside A st.1)
    (hlim : st.1.limit ≠ 1) (htarget : putTarget A P c st = some buf)
    (hle : buf.data.length + c.frame.length ≤ st.1.maxSize) :
    ∃ buf', c.putFrame buf = some buf' ∧
      BufInside A { st.1 with aggSkb := some buf', aggCount := st.1.aggCount + 1 } := by
  have hroom : buf.data.length + buf.tailroom = A.room st.1.maxSize ∧ st.1.maxSize ≤ A.max := by
    unfold putTarget at htarget
    split at htarget
    next buf' hskb =>
      split at htarget
      next => exact Option.some.inj htarget ▸ h.room buf' hskb
      next => cases htarget
    next =>
      split at htarget
      next => cases htarget
      next =>
        have hsome : (A.alloc c.allocAgg st.1.maxSize).isSome := by rw [htarget]; rfl
        obtain rfl := Option.some.inj (htarget.symm.trans (AllocSkb.alloc_of_isSome hsome))
        exact ⟨Nat.zero_add _, (AllocSkb.isSome_alloc.mp hsome).2⟩
  have hfits : c.frame.length ≤ buf.tailroom := by
    have hsize := A.le_room st.1.maxSize
    omega
  refine ⟨_, by rw [c.putFrame_eq, if_pos hfits], ?_, ?_, fun hone ↦ absurd hone hlim⟩
  · rintro _ ⟨⟩
    rw [List.length_append]
    exact hle
  · rintro _ ⟨⟩
    refine ⟨?_, hroom.2⟩
    have hsum : (buf.data ++ c.frame).length + (buf.tailroom - c.frame.length) =
        A.room st.1.maxSize := by
      rw [List.length_append]
      omega
    exact hsum

end BufInside

/-! ## Passes and calls -/

/-- The ways a pass can go that puts no frame beyond its buffer. -/
inductive PutCase (A : AllocSkb) (c : TxCall) (st : TxDev × ℕ) :
    Option TxDev ⊕ (TxDev × ℕ) → Prop
  | /-- The packet is consumed. -/
    consumed {dev' : TxDev} (h : BufInside A dev') : PutCase A c st (.inl (some dev'))
  | /-- The pending buffer is handed on. -/
    retried {buf : TxBuf} (hskb : st.1.aggSkb = some buf) :
      PutCase A c st (.inr (st.1.detach buf.data (c.now st.2), st.2 + 1))

/-- A packet in its own buffer does not panic. -/
theorem exists_alone (A : AllocSkb) (c : TxCall) : ∃ buf, c.alone A = some buf := by
  by_cases halloc : (A.alloc c.allocSkb c.allocLen).isSome
  · obtain ⟨tailroom, hone⟩ := c.alone_eq halloc
    exact ⟨_, hone⟩
  · rw [Bool.not_eq_true, Option.isSome_eq_false_iff, Option.isNone_iff_eq_none] at halloc
    exact ⟨none, by rw [TxCall.alone, halloc]⟩

theorem xmitAlone_aggSkb (dev : TxDev) (buf : Option TxBuf) :
    (dev.xmitAlone buf).aggSkb = dev.aggSkb := by
  cases buf <;> rfl

theorem newPacket_putCase {A : AllocSkb} {P : AggParams} {c : TxCall} {st : TxDev × ℕ}
    (h : BufInside A st.1) (hlim : st.1.limit ≠ 1)
    (hputs : ∀ buf, putTarget A P c st = some buf →
      buf.data.length + c.frame.length ≤ st.1.maxSize) :
    PutCase A c st (newPacket A P c st) := by
  have hput := fun buf htarget ↦ h.put hlim htarget (hputs buf htarget)
  unfold putTarget at hput
  unfold newPacket
  dsimp only
  split
  next buf hskb =>
    rw [hskb] at hput
    dsimp only at hput
    split
    next hcheck =>
      rw [if_pos hcheck] at hput
      obtain ⟨buf', hbuf', hinside⟩ := hput buf rfl
      rw [hbuf', Option.map_some]
      split
      next => exact .consumed (.of_none rfl)
      next => exact .consumed hinside
    next => exact .retried hskb
  next hskb =>
    rw [hskb] at hput
    dsimp only at hput
    split
    next buf htarget =>
      obtain ⟨buf', hbuf', hinside⟩ := hput buf htarget
      rw [hbuf', Option.map_some]
      exact .consumed hinside
    next =>
      obtain ⟨buf, hbuf⟩ := exists_alone A c
      rw [hbuf, Option.map_some]
      exact .consumed (.of_none ((xmitAlone_aggSkb st.1 buf).trans hskb))

/-- At every pass the pending buffer is filled within its size. -/
theorem reaches_inside {A : AllocSkb} {P : AggParams} {c : TxCall} {dev : TxDev}
    {st : TxDev × ℕ} (h : BufInside A dev)
    (hst : Loop.Reaches (newPacket A P c) (dev, 0) st) : BufInside A st.1 := by
  induction hst with
  | refl => exact h
  | @tail t u _ hb ih =>
    unfold newPacket at hb
    dsimp only at hb
    split at hb
    next buf hskb =>
      split at hb
      next => cases hb
      next =>
        cases hb
        exact .of_none rfl
    next => split at hb <;> cases hb

/-- Only the first frame of a buffer is put beyond the size of the buffer. -/
theorem putsInside_iff {A : AllocSkb} {P : AggParams} {dev : TxDev} (h : BufInside A dev)
    (c : TxCall) : PutsInside A P dev c ↔ FirstFits A P dev c := by
  refine forall_congr' fun hlim ↦ forall_congr' fun st ↦ forall_congr' fun hst ↦ ?_
  have hinside := reaches_inside h hst
  unfold putTarget
  constructor
  · intro hputs hskb hwaits halloc
    rw [hskb] at hputs
    dsimp only at hputs
    rw [hwaits] at hputs
    have hle := hputs _ (AllocSkb.alloc_of_isSome halloc)
    rwa [List.length_nil, Nat.zero_add] at hle
  · intro hfirst buf htarget
    split at htarget
    next buf' hskb =>
      split at htarget
      next hcheck =>
        obtain rfl := Option.some.inj htarget
        rw [hinside.check_eq hskb] at hcheck
        have hframe := c.length_frame_le
        rw [TxCall.allocLen] at hframe
        omega
      next => cases htarget
    next hskb =>
      split at htarget
      next => cases htarget
      next hwaits =>
        have halloc : (A.alloc c.allocAgg st.1.maxSize).isSome := by rw [htarget]; rfl
        obtain rfl := Option.some.inj (htarget.symm.trans (AllocSkb.alloc_of_isSome halloc))
        simpa using hfirst hskb (Bool.eq_false_iff.mpr hwaits) halloc

/-- A call that puts its frame within its buffer keeps the buffer inside, and does not panic. -/
theorem rmnetUsbTxAgg_inside {A : AllocSkb} {P : AggParams} {dev : TxDev} {c : TxCall}
    (h : BufInside A dev) (hputs : PutsInside A P dev c) :
    ∃ dev', rmnetUsbTxAgg A P dev c = some dev' ∧ BufInside A dev' := by
  unfold rmnetUsbTxAgg
  split
  next hone =>
    obtain ⟨buf, hbuf⟩ := exists_alone A c
    refine ⟨_, by rw [hbuf, Option.map_some], .of_none ?_⟩
    rw [xmitAlone_aggSkb]
    exact h.one hone
  next hlim =>
    have hcase := newPacket_putCase h hlim (hputs hlim (dev, 0) .refl)
    generalize hrun : newPacket A P c (dev, 0) = r at hcase
    cases hcase with
    | consumed h' => exact ⟨_, by simp only [Loop.run, hrun]; rfl, h'⟩
    | @retried buf hskb =>
      -- the second pass finds no pending buffer
      have hreach := Loop.Reaches.refl.tail hrun
      have hcase' := newPacket_putCase (reaches_inside h hreach) hlim (hputs hlim _ hreach)
      generalize hrun' : newPacket A P c _ = r' at hcase'
      cases hcase' with
      | consumed h' => exact ⟨_, by simp only [Loop.run, hrun, hrun']; rfl, h'⟩
      | retried hskb' => cases hskb'

/-! ## Every run -/

/-- The packet is put within the size of its buffer. -/
def StartInside (V : VndPort) (s : VndState) : VndEvent V.type → Prop
  | .startXmit p => ∀ c, p.call V = some c → PutsInside V.alloc V.params s.tx.dev c
  | _ => True

/-- The packet, if it starts a buffer, is no longer than the buffer. -/
def StartFits (V : VndPort) (s : VndState) : VndEvent V.type → Prop
  | .startXmit p => ∀ c, p.call V = some c → FirstFits V.alloc V.params s.tx.dev c
  | _ => True

/-- Frames up to `ul_data_aggregation_max_size` fit. -/
theorem firstFits_of_le {A : AllocSkb} {P : AggParams} {dev : TxDev} {c : TxCall}
    (h : c.frame.length ≤ dev.maxSize) : FirstFits A P dev c := by
  intro _ st hst _ _ _
  rwa [TxDev.maxSize, reaches_txCtx hst]

theorem startInside_iff {V : VndPort} {s : VndState} (h : BufInside V.alloc s.tx.dev)
    (e : VndEvent V.type) : StartInside V s e ↔ StartFits V s e := by
  cases e with
  | startXmit p => exact forall_congr' fun c ↦ forall_congr' fun _ ↦ putsInside_iff h c
  | _ => exact Iff.rfl

/-- The buffer may be resized only while none is pending. -/
theorem qmaSettingStore_inside {A : AllocSkb} {dev : TxDev} (h : BufInside A dev) (q : QmapSetting)
    (size : ℕ) : BufInside A (qmaSettingStore dev q size) := by
  unfold qmaSettingStore
  split
  next => exact h
  next =>
    split
    next hraise =>
      have hone : dev.limit = 1 := by rw [TxDev.limit, hraise.1]; rfl
      exact .of_none (h.one hone)
    next => exact h

theorem rmnetUsbTxAggWork_inside {A : AllocSkb} {dev : TxDev} (h : BufInside A dev)
    (now : Timespec64) : BufInside A (rmnetUsbTxAggWork dev now) := by
  unfold rmnetUsbTxAggWork
  split
  next => exact h
  next => exact .of_none rfl

theorem vndSystem_step {V : VndPort} {s : VndState} {e : VndEvent V.type}
    (h : BufInside V.alloc s.tx.dev ∧ s.tx.panicked = false) (hputs : StartInside V s e) :
    BufInside V.alloc ((vndSystem V).next s e).tx.dev ∧
      ((vndSystem V).next s e).tx.panicked = false := by
  cases e with
  | startXmit p =>
    simp only [vndSystem]
    split
    next => exact h
    next c hc =>
      obtain ⟨dev', hdev', hinside⟩ := rmnetUsbTxAgg_inside h.1 (hputs c hc)
      simp only [txSystem, hdev']
      exact ⟨hinside, h.2⟩
  | work now => exact ⟨rmnetUsbTxAggWork_inside h.1 now, h.2⟩
  | setting q size => exact ⟨qmaSettingStore_inside h.1 q size, h.2⟩
  | changeMtu newMtu => exact h

/-- In every run in which the frames that start a buffer are no longer than the buffer, every frame
is put within its buffer; and the next one is if and only if this holds of it too. -/
theorem startXmit_inside_iff (V : VndPort) {s : VndState}
    (hs : (vndSystem V).Reach (StartFits V) s) :
    s.tx.panicked = false ∧ ∀ e, StartInside V s e ↔ StartFits V s e := by
  have hinv : BufInside V.alloc s.tx.dev ∧ s.tx.panicked = false := by
    refine hs.invariant (I := fun s ↦ BufInside V.alloc s.tx.dev ∧ s.tx.panicked = false)
      ⟨.of_none rfl, rfl⟩ ?_
    intro s e h _ hfits
    exact vndSystem_step h ((startInside_iff h.1 e).mpr hfits)
  exact ⟨hinv.2, startInside_iff hinv.1⟩

/-- A raw-IP device for mux id 0x81 with QMAPv1. -/
def rawipPort : VndPort := ⟨cacheLines, defaultParams, 5, .rawip, 0x81, ⟨0, 0⟩⟩

/-- A raw-IP packet of two bytes, with more to come. -/
def vndPacket : VndPacket .rawip where
  skb := ⟨[], [0x45, 7], fun _ ↦ 0, 0, ethPIp⟩
  xmitMore := true
  now _ := ⟨0, 500⟩
  allocAgg := true
  allocSkb := true
  ipOffset_le := by decide
  len_lt := by decide

/-- The device after the limit has been raised to two datagrams in buffers of `size` bytes. -/
def raisedVnd (size : UInt32) : VndState :=
  (vndSystem rawipPort).next (vndSystem rawipPort).init (.setting ⟨32, 2, size, 0⟩ 32)

theorem startXmit_inside_raised : StartInside rawipPort (raisedVnd 6) (.startXmit vndPacket) := by
  have hs : (vndSystem rawipPort).Reach (StartFits rawipPort) (raisedVnd 6) :=
    .step (VndEvent.setting ⟨32, 2, 6, 0⟩ 32) .init rfl trivial
  refine ((startXmit_inside_iff rawipPort hs).2 _).mpr ?_
  rintro c ⟨⟩
  exact firstFits_of_le (by decide)

/-- A frame of six bytes is put into a new buffer of five. -/
theorem startXmit_overruns :
    ¬ ∀ s, (vndSystem rawipPort).Reach (fun _ _ ↦ True) s →
      ∀ e, (vndSystem rawipPort).enabled s e → StartInside rawipPort s e := by
  intro hall
  have hputs := hall (raisedVnd 5) (.step _ .init rfl trivial) (.startXmit vndPacket)
    ⟨rfl, by decide⟩ _ rfl
  exact absurd (hputs (by decide) _ .refl _ rfl) (by decide)

end Wwan.QmiWwanQ
