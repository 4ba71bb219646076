import Wwan.QmiWwanQ.TxBounds

/-!
# Packets that should not wait

`rmnet_usb_tx_agg_skip` looks at a packet for what should not wait in a buffer, at an offset into
`skb->data`. The offset it is given skips the map headers; but `rmnet_vnd_start_xmit` writes these
to `qmap_hdr`, and `skb->data` begins with the IP header, or with an Ethernet header. At the offset
of the IP header the test would say of every such packet that it should not wait
(`Sensitive.skip_ipOffset`).

Whether a packet goes out in its call depends on the bytes found at the wrong offset, then, and on
the reasons that have nothing to do with the packet (`Prompt`).
-/

namespace Wwan.QmiWwanQ

open Wwan.Kernel Wwan.Bytes

/-- `th->psh` of the TCP header at `off`. -/
def pshAt (skb : SkBuff) (off : ℕ) : Prop := (skb.byte (off + 13)).toNat / 8 % 2 = 1

/-- A packet whose IP header, at `off`, says that it is ICMP or TCP with PSH set. -/
inductive Sensitive (skb : SkBuff) (off : ℕ) : Prop
  | icmp (hproto : skb.protocol = ethPIp) (hicmp : skb.byte (off + 9) = 1)
  | /-- The IP header has no options. -/
    tcp (hproto : skb.protocol = ethPIp) (hihl : skb.byte off = 0x45)
      (htcp : skb.byte (off + 9) = 6) (hpsh : pshAt skb (off + 20))
  | tcp6 (hproto : skb.protocol = ethPIpv6) (htcp : skb.byte (off + 6) = 6)
      (hpsh : pshAt skb (off + 40))

/-- The test recognises them at the offset of the IP header. -/
theorem Sensitive.skip_ipOffset {skb : SkBuff} {off : ℕ} (h : Sensitive skb off) :
    rmnetUsbTxAggSkip skb off = true := by
  unfold rmnetUsbTxAggSkip
  cases h with
  | icmp hproto hicmp =>
    rw [if_pos hproto, hicmp]
    rfl
  | tcp hproto hihl htcp hpsh =>
    rw [if_pos hproto, htcp]
    simpa [pshAt] using hpsh
  | tcp6 hproto htcp hpsh =>
    have hne : ¬ skb.protocol = ethPIp := by rw [hproto]; decide
    rw [if_neg hne, if_pos hproto, htcp]
    simpa [pshAt] using hpsh

/-- When the call returns, it has handed on what was pending and then the frame, and nothing is
pending. -/
def HandedOn (dev : TxDev) (frame : List UInt8) (r : Option TxDev) : Prop :=
  ∃ dev' sent, r = some dev' ∧ dev'.aggSkb = none ∧ dev'.xmit = dev.xmit ++ sent ∧
    (sent.map Prod.snd).flatten = dev.pendingBytes ++ frame

/-- A pass that finds no pending buffer hands the packet on: it is to go out at once, or there is no
memory to collect it in, and there is memory for its own buffer. -/
def GoesAlone (A : AllocSkb) (P : AggParams) (c : TxCall) (st : TxDev × ℕ) : Prop :=
  (c.bypass P st = true ∨ A.alloc c.allocAgg st.1.maxSize = none) ∧
    (A.alloc c.allocSkb c.allocLen).isSome

/-- A pass that adds the frame to a pending buffer finds the buffer ready. -/
def TxCall.ready (P : AggParams) (c : TxCall) (dev : TxDev) : Bool :=
  ((c.now 0).sub dev.aggTime).exceeds P.aggTimeLimit || dev.aggCount + 1 = dev.limit || c.skip

/-- The packet goes out in its call. Under a limit of one nothing is ever pending. -/
def Prompt (A : AllocSkb) (P : AggParams) (dev : TxDev) (c : TxCall) : Prop :=
  if dev.limit = 1 then dev.aggSkb = none ∧ (A.alloc c.allocSkb c.allocLen).isSome = true
  else match dev.aggSkb with
    | none => GoesAlone A P c (dev, 0)
    | some buf =>
      if u32 (buf.data.length + c.skb.len + c.hdrData.length) < dev.maxSize then
        c.frame.length ≤ buf.tailroom ∧ c.ready P dev = true
      else GoesAlone A P c (dev.detach buf.data (c.now 0), 1)

/-! ## What a call hands on -/

variable {A : AllocSkb} {P : AggParams} {c : TxCall}

/-- A packet in its own buffer, behind what the call has handed on already. -/
theorem handedOn_alone_iff {dev dev₀ : TxDev} (sent : List (ℕ × List UInt8))
    (f : Option TxBuf → TxDev) (hf : ∀ buf, (f buf).xmit = (dev.xmitAlone buf).xmit)
    (hnone : ∀ buf, (f buf).aggSkb = none) (hxmit : dev.xmit = dev₀.xmit ++ sent)
    (hsent : (sent.map Prod.snd).flatten = dev₀.pendingBytes) (hframe : c.frame ≠ []) :
    HandedOn dev₀ c.frame ((c.alone A).map f) ↔ (A.alloc c.allocSkb c.allocLen).isSome := by
  constructor
  · rintro ⟨dev', sent', hdev', -, hxmit', hbytes⟩
    by_contra halloc
    rw [Bool.not_eq_true, Option.isSome_eq_false_iff, Option.isNone_iff_eq_none] at halloc
    rw [TxCall.alone, halloc] at hdev'
    obtain rfl := Option.some.inj hdev'
    -- only what was pending has been handed on
    have hsame : sent' = sent := List.append_cancel_left ((hxmit'.symm.trans (hf none)).trans hxmit)
    rw [hsame, hsent] at hbytes
    exact hframe (List.self_eq_append_right.mp hbytes)
  · intro halloc
    obtain ⟨tailroom, hone⟩ := c.alone_eq halloc
    rw [hone]
    refine ⟨_, sent ++ [(dev.limit, c.frame)], rfl, hnone _, ?_, ?_⟩
    · simp [hf, TxDev.xmitAlone, TxDev.devQueueXmit, hxmit]
    · simp [hsent]

/-- A pass that finds no pending buffer hands the packet on or keeps it. -/
theorem handedOn_none_iff {dev₀ : TxDev} (st : TxDev × ℕ) (sent : List (ℕ × List UInt8)) (n : ℕ)
    (hskb : st.1.aggSkb = none) (hxmit : st.1.xmit = dev₀.xmit ++ sent)
    (hsent : (sent.map Prod.snd).flatten = dev₀.pendingBytes) (hframe : c.frame ≠ []) :
    HandedOn dev₀ c.frame (Loop.run (newPacket A P c) (n + 1) st).join ↔ GoesAlone A P c st := by
  have halone := handedOn_alone_iff (A := A) sent
    (fun buf ↦ { st.1.xmitAlone buf with aggTime := c.now st.2 }) (fun _ ↦ rfl)
    (fun buf ↦ (xmitAlone_aggSkb st.1 buf).trans hskb) hxmit hsent hframe
  unfold GoesAlone
  simp only [Loop.run, newPacket, hskb]
  cases hwaits : c.bypass P st with
  | true => simpa using halone
  | false =>
    cases halloc : A.alloc c.allocAgg st.1.maxSize with
    | none => simpa using halone
    | some buf =>
      -- the packet waits in a new buffer
      refine iff_of_false ?_ (by simp)
      rintro ⟨dev', sent', hdev', hnone, -⟩
      obtain ⟨buf', -, rfl⟩ := Option.map_eq_some_iff.mp hdev'
      cases hnone

/-- A pass that adds the frame to a pending buffer hands the buffer on if it is ready. -/
theorem handedOn_joined_iff {dev : TxDev} {buf : TxBuf} (hskb : dev.aggSkb = some buf) :
    HandedOn dev c.frame ((c.putFrame buf).map fun buf ↦
      if c.ready P dev then dev.detach buf.data (c.now 0)
      else { dev with aggSkb := some buf, aggCount := dev.aggCount + 1 }) ↔
      c.frame.length ≤ buf.tailroom ∧ c.ready P dev = true := by
  have hpending : dev.pendingBytes = buf.data := by rw [TxDev.pendingBytes, hskb]; rfl
  rw [c.putFrame_eq]
  constructor
  · rintro ⟨dev', sent, hdev', hnone, -⟩
    by_cases hroom : c.frame.length ≤ buf.tailroom
    · refine ⟨hroom, ?_⟩
      by_contra hready
      rw [if_pos hroom, Option.map_some, if_neg hready] at hdev'
      obtain rfl := Option.some.inj hdev'
      cases hnone
    · rw [if_neg hroom, Option.map_none] at hdev'
      cases hdev'
  · rintro ⟨hroom, hready⟩
    rw [if_pos hroom, Option.map_some, if_pos hready]
    exact ⟨_, [(dev.limit, buf.data ++ c.frame)], rfl, rfl, rfl, by simp [hpending]⟩

/-- A call hands its packet on if and only if the packet is to go out. -/
theorem handedOn_iff_prompt (dev : TxDev) (hframe : c.frame ≠ []) :
    HandedOn dev c.frame (rmnetUsbTxAgg A P dev c) ↔ Prompt A P dev c := by
  have hpending : ∀ buf, dev.aggSkb = buf → dev.pendingBytes = (buf.map TxBuf.data).getD [] := by
    rintro buf rfl
    rfl
  unfold rmnetUsbTxAgg Prompt
  split
  next hlim =>
    cases hskb : dev.aggSkb with
    | none =>
      have hsame := handedOn_alone_iff (A := A) [] dev.xmitAlone (fun _ ↦ rfl)
        (fun buf ↦ (xmitAlone_aggSkb dev buf).trans hskb) (by simp) (hpending none hskb).symm
        hframe
      rw [hsame, eq_self, true_and]
    | some buf =>
      refine iff_of_false ?_ (by rintro ⟨⟨⟩, -⟩)
      rintro ⟨dev', sent, hdev', hnone, -⟩
      obtain ⟨own, -, rfl⟩ := Option.map_eq_some_iff.mp hdev'
      cases hskb.symm.trans ((xmitAlone_aggSkb dev own).symm.trans hnone)
  next hlim =>
    split
    next hskb =>
      exact handedOn_none_iff (dev, 0) [] 1 hskb (by simp) (hpending none hskb).symm hframe
    next buf hskb =>
      split
      next hcheck =>
        rw [← handedOn_joined_iff hskb]
        simp only [Loop.run, newPacket, hskb, hcheck, if_true]
        exact Iff.rfl
      next hcheck =>
        have hsent : ([(dev.limit, buf.data)].map Prod.snd).flatten = dev.pendingBytes := by
          simp [hpending _ hskb]
        rw [← handedOn_none_iff (dev.detach buf.data (c.now 0), 1) _ 0 rfl rfl hsent hframe]
        simp only [Loop.run, newPacket, hskb, hcheck, if_false]

/-! ## The law -/

/-- When no more packets are announced, a packet that should not wait goes out in its call. -/
def PromptLaw (V : VndPort) (dev : TxDev) (p : VndPacket V.type) : Prop :=
  Sensitive p.skb (ipOffset V.type) → p.xmitMore = false →
    ∀ c, p.call V = some c → HandedOn dev c.frame (rmnetUsbTxAgg V.alloc V.params dev c)

/-- A frame has its header. -/
theorem VndPacket.frame_ne_nil {V : VndPort} {p : VndPacket V.type} {c : TxCall}
    (h : p.call V = some c) : c.frame ≠ [] := by
  unfold VndPacket.call at h
  split at h
  next => cases h
  next r hr =>
    obtain rfl := Option.some.inj h
    have hpos := (qmapFraming_bounds hr).2.2.2
    intro hnil
    have hhdr : r.2.1 = [] := (List.append_eq_nil_iff.mp hnil).1
    rw [hhdr] at hpos
    cases hpos

/-- The law holds of a packet if and only if the packet is one to go out, in the aggregation state
that the device is in. -/
theorem promptLaw_iff (V : VndPort) (dev : TxDev) (p : VndPacket V.type) :
    PromptLaw V dev p ↔ (Sensitive p.skb (ipOffset V.type) → p.xmitMore = false →
      ∀ c, p.call V = some c → Prompt V.alloc V.params dev c) := by
  refine forall_congr' fun _ ↦ forall_congr' fun _ ↦ forall_congr' fun c ↦ forall_congr' fun hc ↦ ?_
  exact handedOn_iff_prompt dev (VndPacket.frame_ne_nil hc)

/-- An ICMP packet with nothing behind it. -/
def echoPacket : VndPacket .rawip where
  skb := ⟨[], [0x45, 0, 0, 20, 0, 0, 0, 0, 64, 1, 0, 0, 10, 0, 0, 2, 10, 0, 0, 1], fun _ ↦ 0, 0,
    ethPIp⟩
  xmitMore := false
  now _ := ⟨0, 500⟩
  allocAgg := true
  allocSkb := true
  ipOffset_le := by decide
  len_lt := by decide

/-- The packet waits in a buffer. -/
theorem echoPacket_waits : ¬ PromptLaw rawipPort (raisedVnd 4096).tx.dev echoPacket := by
  intro h
  have hlaw := h (.icmp rfl rfl) rfl _ rfl
  rw [handedOn_iff_prompt _ (by decide)] at hlaw
  rcases hlaw.1 with hbypass | halloc
  · exact absurd hbypass (by decide)
  · exact absurd halloc (by decide)

end Wwan.QmiWwanQ
