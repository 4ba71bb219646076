import Wwan.Kernel.SkBuff
import Wwan.Lib.Memory
import Wwan.Sipa.SkbSend

/-!
# Transmission through the SIPA network device

`sipa_eth_start_xmit` puts an Ethernet header in front of a packet of a raw IP device and then asks
`sipa_nic_tx` to take it. When that says -EAGAIN the packet goes back to the stack, which gives it
to the device again: it has to be as it was. What the function does then is to push 14 more bytes
if `mac_h` is not set, although the comment is about not pulling them twice.
-/

namespace Wwan.Sipa

open Wwan Bytes Memory Kernel

/-- `ETH_ALEN`. -/
def ethAlen : ℕ := 6

/-- `dhcp_dst_addr`. -/
def dhcpDstAddr : List UInt8 := List.replicate ethAlen 0xff

/-! ## Packets -/

/-- A `struct sk_buff` on its way to the device. Addresses are distances from `skb->head`. -/
structure TxSkb where
  /-- What `skb->head` points at. -/
  mem : ℕ → UInt8
  /-- `skb->data`. -/
  data : ℕ
  len : ℕ
  /-- `skb->network_header`. -/
  networkHeader : ℕ
  protocol : ℕ

namespace TxSkb

variable (skb : TxSkb)

/-- The bytes from `skb->data` to `skb->tail`. -/
def packet : List UInt8 := peek skb.mem skb.data skb.len

/-- `skb_push`, which does not come back from `skb_under_panic` where there is no room. -/
def push (n : ℕ) : Option TxSkb :=
  if n ≤ skb.data then some { skb with data := skb.data - n, len := skb.len + n } else none

/-- `memcpy` to the beginning of the packet. -/
def fill (hdr : List UInt8) : TxSkb := { skb with mem := poke skb.mem skb.data hdr }

/-- `arp_hdr(skb)->ar_hrd = htons(ARPHRD_ETHER)`. -/
def setArHrd : TxSkb := { skb with mem := poke skb.mem skb.networkHeader (toBe16 1) }

/-- An IPv4 packet that is a DHCP request. -/
def isDhcp : Bool :=
  skb.mem (skb.data + 9) = 17 ∧ peek skb.mem (skb.data + 12) 4 = [0, 0, 0, 0] ∧
    peek skb.mem (skb.data + 16) 4 = [0xff, 0xff, 0xff, 0xff]

/-- The switch over `skb->data[0] & 0xf0`, with what it makes of `dhcp`. -/
def classify : Option (TxSkb × Bool) :=
  if (skb.mem skb.data).toNat / 16 = 4 then some ({ skb with protocol := ethPIp }, skb.isDhcp)
  else if (skb.mem skb.data).toNat / 16 = 6 then some ({ skb with protocol := ethPIpv6 }, false)
  else if skb.protocol ≠ ethPArp then none
  else some (skb.setArHrd, false)

variable {skb} {skb' : TxSkb}

theorem push_of_le {n : ℕ} (h : n ≤ skb.data) :
    skb.push n = some { skb with data := skb.data - n, len := skb.len + n } := if_pos h

theorem push_of_gt {n : ℕ} (h : skb.data < n) : skb.push n = none := if_neg (Nat.not_le.mpr h)

/-- A header that is pushed and filled in comes before the packet. -/
theorem packet_fill_push {hdr : List UInt8} (h : hdr.length ≤ skb.data)
    (hpush : skb.push hdr.length = some skb') : (skb'.fill hdr).packet = hdr ++ skb.packet := by
  rw [push_of_le h, Option.some.injEq] at hpush
  subst hpush
  have hsplit : skb.len + hdr.length = hdr.length + skb.len := Nat.add_comm _ _
  have hback : skb.data - hdr.length + hdr.length = skb.data := Nat.sub_add_cancel h
  rw [packet, fill]
  dsimp only
  rw [hsplit, peek_add, peek_poke_of_disjoint (.inr le_rfl), hback]
  exact congrArg (· ++ skb.packet) holds_poke

/-- Only ARP is changed. -/
theorem classify_spec {dhcp : Bool} (h : skb.classify = some (skb', dhcp)) :
    skb'.data = skb.data ∧ skb'.len = skb.len ∧
      (skb'.packet = skb.packet ↔ ((skb.mem skb.data).toNat / 16 ≠ 4 →
        (skb.mem skb.data).toNat / 16 ≠ 6 → skb.setArHrd.packet = skb.packet)) := by
  rw [classify] at h
  split at h
  next hv4 =>
    rw [Option.some.injEq, Prod.mk.injEq] at h
    rcases h with ⟨rfl, -⟩
    exact ⟨rfl, rfl, iff_of_true rfl fun hne ↦ absurd hv4 hne⟩
  next hv4 =>
    split at h
    next hv6 =>
      rw [Option.some.injEq, Prod.mk.injEq] at h
      rcases h with ⟨rfl, -⟩
      exact ⟨rfl, rfl, iff_of_true rfl fun _ hne ↦ absurd hv6 hne⟩
    next hv6 =>
      split at h
      · exact absurd h (by simp)
      · rw [Option.some.injEq, Prod.mk.injEq] at h
        rcases h with ⟨rfl, -⟩
        refine ⟨rfl, rfl, ?_⟩
        constructor
        · intro hsame _ _
          exact hsame
        · intro hsame
          exact hsame hv4 hv6

end TxSkb

/-! ## The device -/

/-- `struct SIPA_ETH`, its `pdata` and its network device. -/
structure SipaEth where
  /-- `state` is `DEV_ON`. -/
  devOn : Bool
  type : ArpHrd
  devAddr : List UInt8
  modemMac : List UInt8
  macH : Bool
  length_devAddr : devAddr.length = ethAlen
  length_modemMac : modemMac.length = ethAlen

/-- What becomes of a packet. -/
inductive XmitResult
  | /-- `NETDEV_TX_BUSY`: the stack has it again. -/
    busy (skb : TxSkb)
  | /-- The sender has taken it. -/
    sent (frame : List UInt8)
  | /-- It was freed. -/
    dropped
  | /-- `skb_under_panic`. -/
    panic

namespace SipaEth

variable (dev : SipaEth)

/-- The Ethernet header that is filled in. -/
def ethHdr (dhcp : Bool) (protocol : ℕ) : List UInt8 :=
  (if dhcp then dhcpDstAddr else dev.modemMac) ++ dev.devAddr ++ toBe16 protocol

/-- `sipa_eth_start_xmit` from the call of `sipa_nic_tx` on, which returns `ret`. -/
def nicTx (skb : TxSkb) (ret : ℤ) : XmitResult :=
  if ret ≠ 0 then
    if ret = eagain then
      if dev.macH = false then
        match skb.push ethHlen with
        | none => .panic
        | some skb => .busy skb
      else .busy skb
    else .dropped
  else .sent skb.packet

/-- `sipa_eth_start_xmit`, if `sipa_nic_tx` returns `ret`. -/
def startXmit (skb : TxSkb) (ret : ℤ) : XmitResult :=
  if dev.devOn = false then .dropped
  else
    match dev.type with
    | .ether => dev.nicTx skb ret
    | .rawip =>
      match skb.classify with
      | none => .dropped
      | some (skb, dhcp) =>
        match skb.push ethHlen with
        | none => .panic
        | some pushed => dev.nicTx (pushed.fill (dev.ethHdr dhcp skb.protocol)) ret

/-- The calls for a packet that the sender refuses `n` times. -/
def xmitRun : ℕ → TxSkb → List XmitResult
  | 0, skb => [dev.startXmit skb 0]
  | n + 1, skb =>
    match dev.startXmit skb eagain with
    | .busy skb' => .busy skb' :: xmitRun n skb'
    | res => [res]

/-! ## The law -/

/-- An Ethernet header of the device. -/
def IsEthHdr (hdr : List UInt8) : Prop :=
  ∃ dest protocol, dest.length = ethAlen ∧ hdr = dest ++ dev.devAddr ++ toBe16 protocol

/-- What the sender has to get for a packet. -/
def RightFrame (skb : TxSkb) (frame : List UInt8) : Prop :=
  match dev.type with
  | .ether => frame = skb.packet
  | .rawip => ∃ hdr, dev.IsEthHdr hdr ∧ frame = hdr ++ skb.packet

/-- What is asked of a call. -/
def RightResult (skb : TxSkb) : XmitResult → Prop
  | .busy skb' => skb'.data = skb.data ∧ skb'.len = skb.len
  | .sent frame => dev.RightFrame skb frame
  | .dropped => True
  | .panic => False

/-- What is asked of a packet that is refused `n` times. -/
def XmitLaw (n : ℕ) (skb : TxSkb) : Prop := ∀ res ∈ dev.xmitRun n skb, dev.RightResult skb res

/-- The packet is freed, or it needs no change and is handed back without one, or it is taken at
once; then there must be room for its header, and the type in an ARP packet right already. -/
def Undisturbed (n : ℕ) (skb : TxSkb) : Prop :=
  dev.devOn = false ∨
    match dev.type with
    | .ether => n = 0 ∨ dev.macH = true
    | .rawip => skb.classify = none ∨
        n = 0 ∧ ethHlen ≤ skb.data ∧
          ((skb.mem skb.data).toNat / 16 ≠ 4 → (skb.mem skb.data).toNat / 16 ≠ 6 →
            skb.setArHrd.packet = skb.packet)

variable {dev} {skb : TxSkb} {n : ℕ}

theorem length_ethHdr (dhcp : Bool) (protocol : ℕ) : (dev.ethHdr dhcp protocol).length = ethHlen := by
  rw [ethHdr, List.length_append, List.length_append, dev.length_devAddr]
  cases dhcp with
  | false => rw [if_neg Bool.false_ne_true, dev.length_modemMac]; rfl
  | true => rfl

theorem isEthHdr_ethHdr (dhcp : Bool) (protocol : ℕ) : dev.IsEthHdr (dev.ethHdr dhcp protocol) := by
  refine ⟨if dhcp then dhcpDstAddr else dev.modemMac, protocol, ?_, rfl⟩
  split
  · rfl
  · exact dev.length_modemMac

theorem IsEthHdr.length {hdr : List UInt8} (h : dev.IsEthHdr hdr) : hdr.length = ethHlen := by
  rcases h with ⟨dest, protocol, hdest, rfl⟩
  rw [List.length_append, List.length_append, hdest, dev.length_devAddr]
  rfl

/-! ## Packets that the stack gets back -/

/-- A packet that was pushed is not what it was. -/
theorem not_rightResult_push {skb' : TxSkb} (hlen : skb.len < skb'.len) :
    ¬ dev.RightResult skb (.busy skb') := fun h ↦ Nat.ne_of_gt hlen h.2

theorem nicTx_eagain (hmac : dev.macH = true) : dev.nicTx skb eagain = .busy skb := by
  rw [nicTx, if_pos (by decide), if_pos rfl, if_neg (ne_true_of_eq_false · hmac)]

/-- Without `mac_h` a refusal is never right. -/
theorem not_right_nicTx (hmac : dev.macH = false) {skb' : TxSkb} (hlen : skb.len ≤ skb'.len) :
    ¬ dev.RightResult skb (dev.nicTx skb' eagain) := by
  rw [nicTx, if_pos (by decide), if_pos rfl, if_pos hmac]
  rcases Nat.lt_or_ge skb'.data ethHlen with hgt | hle
  · rw [TxSkb.push_of_gt hgt]
    exact not_false
  · rw [TxSkb.push_of_le hle]
    exact not_rightResult_push (Nat.lt_of_le_of_lt hlen (Nat.lt_add_of_pos_right (by decide)))

/-- The first call decides if it is not right. -/
theorem not_xmitLaw {ret : ℤ} (hret : ret = if n = 0 then 0 else eagain)
    (h : ¬ dev.RightResult skb (dev.startXmit skb ret)) : ¬ dev.XmitLaw n skb := by
  intro hlaw
  apply h
  apply hlaw
  cases n with
  | zero =>
    rw [hret]
    exact List.mem_singleton_self _
  | succ n =>
    rw [hret, if_neg (Nat.succ_ne_zero n), xmitRun]
    split
    next skb' hbusy => rw [hbusy]; exact List.mem_cons_self
    next => exact List.mem_singleton_self _

/-- A packet that is freed is not given to the device again. -/
theorem xmitLaw_of_dropped (h : ∀ ret, dev.startXmit skb ret = .dropped) : dev.XmitLaw n skb := by
  have hrun : dev.xmitRun n skb = [.dropped] := by
    cases n with
    | zero => rw [xmitRun, h]
    | succ n => rw [xmitRun, h]
  intro res hres
  rw [hrun, List.mem_singleton] at hres
  rw [hres]
  exact trivial

theorem xmitLaw_zero_iff : dev.XmitLaw 0 skb ↔ dev.RightResult skb (dev.startXmit skb 0) := by
  rw [XmitLaw, xmitRun]
  exact List.forall_mem_singleton

section Ether

variable (hon : dev.devOn = true) (htype : dev.type = .ether)

include hon htype

theorem startXmit_ether (ret : ℤ) : dev.startXmit skb ret = dev.nicTx skb ret := by
  rw [startXmit, if_neg (ne_true_of_eq_false · hon), htype]

theorem xmitLaw_ether_iff : dev.XmitLaw n skb ↔ n = 0 ∨ dev.macH = true := by
  have hzero : dev.XmitLaw 0 skb := by
    rw [xmitLaw_zero_iff, startXmit_ether hon htype]
    change dev.RightFrame skb skb.packet
    rw [RightFrame, htype]
  constructor
  · intro hlaw
    by_contra hnot
    rcases not_or.mp hnot with ⟨hn, hmac⟩
    refine not_xmitLaw (if_neg hn).symm ?_ hlaw
    rw [startXmit_ether hon htype]
    exact not_right_nicTx (Bool.eq_false_of_not_eq_true hmac) le_rfl
  · rintro (rfl | hmac)
    · exact hzero
    · -- the stack gets the same buffer each time
      induction n with
      | zero => exact hzero
      | succ n ih =>
        intro res hres
        rw [xmitRun, startXmit_ether hon htype, nicTx_eagain hmac] at hres
        rcases List.mem_cons.mp hres with rfl | hrest
        · exact ⟨rfl, rfl⟩
        · exact ih res hrest

end Ether

section RawIp

variable (hon : dev.devOn = true) (htype : dev.type = .rawip)

include hon htype

theorem startXmit_none (hnone : skb.classify = none) (ret : ℤ) :
    dev.startXmit skb ret = .dropped := by
  rw [startXmit, if_neg (ne_true_of_eq_false · hon), htype]
  dsimp only
  rw [hnone]

variable {skb' : TxSkb} {dhcp : Bool} (hsome : skb.classify = some (skb', dhcp))

include hsome

theorem startXmit_panic (hroom : skb.data < ethHlen) (ret : ℤ) :
    dev.startXmit skb ret = .panic := by
  obtain ⟨hdata, -, -⟩ := TxSkb.classify_spec hsome
  rw [startXmit, if_neg (ne_true_of_eq_false · hon), htype]
  dsimp only
  rw [hsome]
  dsimp only
  rw [TxSkb.push_of_gt (hdata ▸ hroom)]

/-- The header is pushed and filled in before the sender is asked. -/
theorem startXmit_pushed (hroom : ethHlen ≤ skb.data) (ret : ℤ) :
    ∃ pushed, dev.startXmit skb ret = dev.nicTx pushed ret ∧ pushed.len = skb.len + ethHlen ∧
      pushed.packet = dev.ethHdr dhcp skb'.protocol ++ skb'.packet := by
  obtain ⟨hdata, hlen, -⟩ := TxSkb.classify_spec hsome
  have hroom' : (dev.ethHdr dhcp skb'.protocol).length ≤ skb'.data := by
    rw [length_ethHdr, hdata]
    exact hroom
  have hpush := TxSkb.push_of_le hroom'
  refine ⟨_, ?_, ?_, TxSkb.packet_fill_push hroom' hpush⟩
  · rw [startXmit, if_neg (ne_true_of_eq_false · hon), htype]
    dsimp only
    rw [hsome]
    dsimp only
    rw [length_ethHdr] at hpush
    rw [hpush, length_ethHdr]
  · change skb'.len + _ = _
    rw [length_ethHdr, hlen]

theorem xmitLaw_rawip_iff : dev.XmitLaw n skb ↔
    n = 0 ∧ ethHlen ≤ skb.data ∧ skb'.packet = skb.packet := by
  rcases Nat.lt_or_ge skb.data ethHlen with hgt | hroom
  · refine iff_of_false ?_ fun h ↦ Nat.not_le.mpr hgt h.2.1
    apply not_xmitLaw rfl
    rw [startXmit_panic hon htype hsome hgt]
    exact not_false
  · cases n with
    | zero =>
      obtain ⟨pushed, hcall, -, hpacket⟩ := startXmit_pushed hon htype hsome hroom 0
      rw [xmitLaw_zero_iff, hcall]
      change dev.RightFrame skb pushed.packet ↔ _
      rw [RightFrame, htype, hpacket]
      constructor
      · rintro ⟨hdr, hhdr, heq⟩
        exact ⟨rfl, hroom, (List.append_inj heq (by rw [length_ethHdr, hhdr.length])).2⟩
      · rintro ⟨-, -, hsame⟩
        rw [hsame]
        exact ⟨_, isEthHdr_ethHdr dhcp skb'.protocol, rfl⟩
    | succ n =>
      -- a refused packet has the header, and perhaps 14 bytes more
      obtain ⟨pushed, hcall, hlen, -⟩ := startXmit_pushed hon htype hsome hroom eagain
      refine iff_of_false ?_ fun h ↦ absurd h.1 (Nat.succ_ne_zero n)
      apply not_xmitLaw rfl
      rw [if_neg (Nat.succ_ne_zero n), hcall]
      have hlong : skb.len < pushed.len := by
        rw [hlen]
        exact Nat.lt_add_of_pos_right (by decide)
      cases hmac : dev.macH with
      | false => exact not_right_nicTx hmac hlong.le
      | true =>
        rw [nicTx_eagain hmac]
        exact not_rightResult_push hlong

end RawIp

/-- A packet that is refused any number of times is handed back as it was and sent as it should be,
if and only if it is freed, or it is Ethernet and `mac_h` is set, or it is taken at once. -/
theorem xmitLaw_iff : dev.XmitLaw n skb ↔ dev.Undisturbed n skb := by
  rw [Undisturbed]
  cases hon : dev.devOn with
  | false =>
    refine iff_of_true (xmitLaw_of_dropped fun ret ↦ ?_) (.inl rfl)
    rw [startXmit, if_pos hon]
  | true =>
    rw [or_iff_right Bool.noConfusion]
    cases htype : dev.type with
    | ether => exact xmitLaw_ether_iff hon htype
    | rawip =>
      cases hclass : skb.classify with
      | none =>
        exact iff_of_true (xmitLaw_of_dropped (startXmit_none hon htype hclass)) (.inl rfl)
      | some found =>
        obtain ⟨skb', dhcp⟩ := found
        obtain ⟨-, -, hsame⟩ := TxSkb.classify_spec hclass
        dsimp only
        rw [xmitLaw_rawip_iff hon htype hclass, hsame, or_iff_right (Option.some_ne_none _)]

/-! ## A refused packet -/

/-- A raw IP device as `s_setup` makes it. -/
def rawIpDev (macH : Bool) : SipaEth where
  devOn := true
  type := .rawip
  devAddr := [2, 0, 0, 0, 0, 1]
  modemMac := [2, 0, 0, 0, 0, 2]
  macH := macH
  length_devAddr := rfl
  length_modemMac := rfl

/-- An IPv4 header with 32 bytes of headroom. -/
def ipSkb : TxSkb where
  mem := poke (fun _ ↦ 0) 32 [0x45]
  data := 32
  len := 20
  networkHeader := 32
  protocol := ethPIp

/-- One refusal is enough. -/
theorem refused_not_xmitLaw : ¬ (rawIpDev true).XmitLaw 1 ipSkb := by
  apply not_xmitLaw rfl
  rintro ⟨hdata, -⟩
  exact absurd hdata (by decide)

end SipaEth

end Wwan.Sipa
