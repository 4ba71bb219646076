import Wwan.Kernel.SkBuff
import Wwan.Lib.Loop

/-!
# The MBIM downlink decoder of `mhi_netdev_quectel`

`rmnet_mbim_rx_handler` takes an NTB apart: an `NTH16` header points to the first
`NDP16`, each NDP carries a table of datagram pointer entries and the offset of
the next NDP, and a next offset of zero ends the chain.

A pass of the `while` loop over one NDP is `ndpPass`. It reports, in order, what
the handler does that may go wrong: the reads of the received buffer, the copies
out of it, and the allocations, each with the index of the device in
`mpQmapNetDev` the packet is allocated for. That index is computed from the
session id of the NDP in 32-bit arithmetic and need not lie in the table;
`stray` is what the memory around the table would give.
-/

namespace Wwan.MhiNetdevQuectel

open Wwan.Kernel Wwan.Bytes

/-- The number of entries of `mpQmapNetDev`. -/
def numQmapNetDev : ℕ := 8

/-- `USB_CDC_NCM_NTH16_SIGN`. -/
def nth16Sign : ℕ := 0x484D434E

/-- `USB_CDC_MBIM_NDP16_IPS_SIGN`. -/
def ndp16IpsSign : ℕ := 0x00535049

/-- `USB_CDC_MBIM_NDP16_DSS_SIGN`. -/
def ndp16DssSign : ℕ := 0x00535344

/-- `struct mhi_netdev` and the module parameter `qmap_mode`, as far as the MBIM paths
use them. -/
structure MhiNetdev where
  /-- `mpQmapNetDev`; an entry is NULL while its device is not registered. -/
  mpQmapNetDev : Fin numQmapNetDev → Option NetDevice
  /-- What a load beyond `mpQmapNetDev` gives, by index. -/
  stray : ℕ → Option NetDevice
  /-- `qmap_mode`. -/
  qmapMode : ℕ
  /-- `mbim_mux_id`. -/
  mbimMuxId : ℕ
  /-- `mbim_ctx.rx_max`. -/
  rxMax : ℕ
  /-- `max_mtu`. -/
  maxMtu : ℕ

/-- `pQmapDev->mpQmapNetDev[idx]`. -/
def MhiNetdev.qmapNet (d : MhiNetdev) (idx : ℕ) : Option NetDevice :=
  if h : idx < numQmapNetDev then d.mpQmapNetDev ⟨idx, h⟩ else d.stray idx

/-- The little-endian 16-bit field at `skb_in->data + i`. -/
def le16At (skb : SkBuff) (i : ℕ) : ℕ := le16 (skb.byte i) (skb.byte (i + 1))

theorem le16At_lt (skb : SkBuff) (i : ℕ) : le16At skb i < 65536 := le16_lt _ _

/-- The little-endian 32-bit field at `skb_in->data + i`. -/
def le32At (skb : SkBuff) (i : ℕ) : ℕ :=
  le32 (skb.byte i) (skb.byte (i + 1)) (skb.byte (i + 2)) (skb.byte (i + 3))

/-! ## The NTB header -/

/-- The checks on the `NTH16` header; `ndpoffset` if they succeed. The sequence
number is only logged and remembered. -/
def ntbStart (d : MhiNetdev) (skbIn : SkBuff) : Option ℕ :=
  if skbIn.len < 12 + 8 then none
  else if le32At skbIn 0 ≠ nth16Sign then none
  else if d.rxMax < le16At skbIn 8 then none
  else some (le16At skbIn 10)

/-! ## One NDP -/

/-- What the handler does with memory that is not its own. -/
inductive RxAction
  | /-- A read of `len` bytes at `skb_in->data + off`. -/
    read (off len : ℕ)
  | /-- `netdev_alloc_skb` for the device at index `idx`. -/
    alloc (idx : ℕ)
  | /-- `memcpy` of `len` bytes from `skb_in->data + off`. -/
    copy (off len : ℕ)
  deriving DecidableEq

/-- A packet on `skb_chain`, with the NDP and the entry it stems from. -/
structure MbimSkb where
  /-- The offset of the NDP. -/
  ndp : ℕ
  /-- The index of the entry in the table of the NDP. -/
  entry : ℕ
  /-- The index of `qmap_skb->dev` in `mpQmapNetDev`. -/
  dev : ℕ
  /-- `qmap_skb->protocol`. -/
  protocol : ℕ
  /-- The Ethernet header in front of the packet, if the device wants one. -/
  ethHdr : List UInt8
  /-- The bytes handed to `netif_receive_skb`. -/
  payload : List UInt8
  deriving DecidableEq

/-- The `tci` of the NDP at `ndp`, if its signature is an IP or a device stream. -/
def ndpTci (skbIn : SkBuff) (ndp : ℕ) : Option ℕ :=
  if le32At skbIn ndp % 2 ^ 24 = ndp16IpsSign then some (skbIn.byte (ndp + 3)).toNat
  else if le32At skbIn ndp % 2 ^ 24 = ndp16DssSign then some ((skbIn.byte (ndp + 3)).toNat + 256)
  else none

/-- The checks on the session id and the index computed from it. `tci` is an
`u16`, `mbim_mux_id` and `qmap_mode` are unsigned, so the difference is too. -/
def sessionIndex (d : MhiNetdev) (tci : ℕ) : Option ℕ :=
  if (d.qmapMode = 1 ∧ tci ≠ d.mbimMuxId) ∨
      (1 < d.qmapMode ∧ d.qmapMode < u32 ((tci : ℤ) - d.mbimMuxId)) then none
  else if d.qmapMode = 1 then some 0
  else some (u32 ((tci : ℤ) - 1 - d.mbimMuxId))

/-- The checks on the NDP at `ndp`; the number of its entries and the index of its
device if they succeed. The table is compared with the length of the buffer
without regard to where it begins. -/
def ndpHeader (d : MhiNetdev) (skbIn : SkBuff) (ndp : ℕ) : Option (ℕ × ℕ) :=
  let wLength := le16At skbIn (ndp + 4)
  let nframes := (wLength - 8) / 4
  if wLength < 0x10 then none
  else if skbIn.len < 8 + nframes * 4 then none
  else ((ndpTci skbIn ndp).bind (sessionIndex d)).map fun idx ↦ (nframes, idx)

/-- How the handling of one entry ends. -/
inductive EntryEnd
  | /-- The entry that ends the table. -/
    brk
  | /-- `goto error`. -/
    error
  | /-- A NULL `qmap_skb->dev` is dereferenced. -/
    oops
  | /-- A packet is queued. -/
    queued (pkt : MbimSkb)
  deriving DecidableEq

/-- The offset of entry `x` of the NDP at `ndp`. -/
def dpe16 (ndp x : ℕ) : ℕ := ndp + 8 + 4 * x

/-- `wDatagramIndex` of entry `x`. -/
def datagramIndex (skbIn : SkBuff) (ndp x : ℕ) : ℕ := le16At skbIn (dpe16 ndp x)

/-- `wDatagramLength` of entry `x`. -/
def datagramLength (skbIn : SkBuff) (ndp x : ℕ) : ℕ := le16At skbIn (dpe16 ndp x + 2)

/-- The body of the `for` loop for entry `x`. `alloc` is whether
`netdev_alloc_skb` succeeds, if it is called. -/
def rxEntry (d : MhiNetdev) (alloc : Bool) (skbIn : SkBuff) (ndp idx x : ℕ) :
    List RxAction × EntryEnd :=
  let entry := RxAction.read (dpe16 ndp x) 4
  let offset := datagramIndex skbIn ndp x
  let skbLen := datagramLength skbIn ndp x
  if offset = 0 ∨ skbLen = 0 then ([entry], .brk)
  else if skbIn.len < offset + skbLen ∨ d.rxMax < skbLen then ([entry], .error)
  else if !alloc then ([entry, .alloc idx], .error)
  else match ipProtocol (skbIn.byte offset) with
  | none => ([entry, .alloc idx, .read offset 1], .error)
  | some protocol =>
    ([entry, .alloc idx, .read offset 1, .copy offset skbLen],
      match d.qmapNet idx with
      | none => .oops
      | some net => .queued
        { ndp := ndp
          entry := x
          dev := idx
          protocol := protocol
          ethHdr := rxEthHdr net protocol
          payload := skbIn.bytes offset skbLen })

/-- How the `for` loop ends. -/
inductive TableEnd
  | done
  | error
  | oops
  deriving DecidableEq

/-- What a pass does: its actions, the packets it queues and how it ends. -/
structure Pass (ε : Type) where
  actions : List RxAction
  pkts : List MbimSkb
  ending : ε

/-- The `for` loop over the `n` entries from `x` on, after `k` allocations. -/
def rxEntries (d : MhiNetdev) (alloc : ℕ → Bool) (skbIn : SkBuff) (ndp idx : ℕ) :
    ℕ → ℕ → ℕ → Pass TableEnd
  | 0, _, _ => ⟨[], [], .done⟩
  | n + 1, x, k =>
    let e := rxEntry d (alloc k) skbIn ndp idx x
    match e.2 with
    | .brk => ⟨e.1, [], .done⟩
    | .error => ⟨e.1, [], .error⟩
    | .oops => ⟨e.1, [], .oops⟩
    | .queued pkt =>
      let rest := rxEntries d alloc skbIn ndp idx n (x + 1) (k + 1)
      ⟨e.1 ++ rest.actions, pkt :: rest.pkts, rest.ending⟩

/-- How a pass over an NDP ends. -/
inductive NdpEnd
  | error
  | oops
  | /-- The offset read from `wNextNdpIndex`. -/
    next (ndpoffset : ℕ)
  deriving DecidableEq

/-- The pass of the `while` loop over the NDP at `ndp`, after `k` allocations. -/
def ndpPass (d : MhiNetdev) (alloc : ℕ → Bool) (skbIn : SkBuff) (ndp k : ℕ) : Pass NdpEnd :=
  if skbIn.len < ndp + 8 then ⟨[], [], .error⟩
  else match ndpHeader d skbIn ndp with
  | none => ⟨[.read ndp 8], [], .error⟩
  | some (nframes, idx) =>
    let table := rxEntries d alloc skbIn ndp idx nframes 0 k
    { actions := .read ndp 8 :: table.actions
      pkts := table.pkts
      ending := match table.ending with
        | .done => .next (le16At skbIn (ndp + 6))
        | .error => .error
        | .oops => .oops }

/-! ## The loop -/

/-- The variables of the `while` loop. -/
structure RxState where
  ndpoffset : ℕ
  skbChain : List MbimSkb

/-- How the handler ends: the packets of `skb_chain` are passed on, also after an
error, unless the handler crashed. -/
inductive RxResult
  | delivered (pkts : List MbimSkb)
  | oops
  deriving DecidableEq

/-- One evaluation of the loop condition and, if it holds, one pass. `alloc n` is
the outcome of the `n`-th allocation. -/
def rxBody (d : MhiNetdev) (alloc : ℕ → Bool) (skbIn : SkBuff) (st : RxState) :
    RxResult ⊕ RxState :=
  if st.ndpoffset = 0 then .inl (.delivered st.skbChain)
  else
    let pass := ndpPass d alloc skbIn st.ndpoffset st.skbChain.length
    match pass.ending with
    | .error => .inl (.delivered (st.skbChain ++ pass.pkts))
    | .oops => .inl .oops
    | .next o => .inr ⟨o, st.skbChain ++ pass.pkts⟩

/-- `rmnet_mbim_rx_handler`, stopped after `fuel` evaluations of the loop
condition. -/
def rmnetMbimRxHandler (d : MhiNetdev) (alloc : ℕ → Bool) (fuel : ℕ) (skbIn : SkBuff) :
    Option RxResult :=
  match ntbStart d skbIn with
  | none => some (.delivered [])
  | some o => Loop.run (rxBody d alloc skbIn) fuel ⟨o, []⟩

/-! ## What an entry can do -/

/-- Entry `x` ends the table. -/
def EntryNull (skbIn : SkBuff) (ndp x : ℕ) : Prop :=
  datagramIndex skbIn ndp x = 0 ∨ datagramLength skbIn ndp x = 0

instance (skbIn : SkBuff) (ndp x : ℕ) : Decidable (EntryNull skbIn ndp x) :=
  inferInstanceAs (Decidable (_ ∨ _))

/-- Entry `x` passes the sanity check, so that a packet is allocated for it. -/
structure EntrySane (d : MhiNetdev) (skbIn : SkBuff) (ndp x : ℕ) : Prop where
  not_null : ¬ EntryNull skbIn ndp x
  inside : datagramIndex skbIn ndp x + datagramLength skbIn ndp x ≤ skbIn.len
  le_rxMax : datagramLength skbIn ndp x ≤ d.rxMax

/-- Entry `x` is sane and for an IP packet, and there is a device to pass it to. -/
structure EntryGood (d : MhiNetdev) (skbIn : SkBuff) (ndp idx x : ℕ) : Prop
    extends EntrySane d skbIn ndp x where
  isIp : (ipProtocol (skbIn.byte (datagramIndex skbIn ndp x))).isSome
  registered : (d.qmapNet idx).isSome

/-- The ways the handling of an entry can go. -/
inductive EntryCase (d : MhiNetdev) (alloc : Bool) (skbIn : SkBuff) (ndp idx x : ℕ) :
    List RxAction × EntryEnd → Prop
  | /-- The entry ends the table. -/
    null (h : EntryNull skbIn ndp x) :
      EntryCase d alloc skbIn ndp idx x ([.read (dpe16 ndp x) 4], .brk)
  | /-- The entry fails the sanity check. -/
    invalid (hnull : ¬ EntryNull skbIn ndp x) (h : ¬ EntrySane d skbIn ndp x) :
      EntryCase d alloc skbIn ndp idx x ([.read (dpe16 ndp x) 4], .error)
  | /-- There is no memory for the packet. -/
    noMem (h : EntrySane d skbIn ndp x) (halloc : alloc = false) :
      EntryCase d alloc skbIn ndp idx x ([.read (dpe16 ndp x) 4, .alloc idx], .error)
  | /-- The datagram is no IP packet. -/
    unknown (h : EntrySane d skbIn ndp x) (halloc : alloc = true)
      (hip : ipProtocol (skbIn.byte (datagramIndex skbIn ndp x)) = none) :
      EntryCase d alloc skbIn ndp idx x
        ([.read (dpe16 ndp x) 4, .alloc idx, .read (datagramIndex skbIn ndp x) 1], .error)
  | /-- There is no device to pass the packet to. -/
    oops (h : EntrySane d skbIn ndp x) (halloc : alloc = true)
      (hnet : d.qmapNet idx = none) :
      EntryCase d alloc skbIn ndp idx x
        ([.read (dpe16 ndp x) 4, .alloc idx, .read (datagramIndex skbIn ndp x) 1,
          .copy (datagramIndex skbIn ndp x) (datagramLength skbIn ndp x)], .oops)
  | /-- The packet is queued. -/
    queued (h : EntryGood d skbIn ndp idx x) (halloc : alloc = true) {pkt : MbimSkb}
      (hndp : pkt.ndp = ndp) (hentry : pkt.entry = x) (hdev : pkt.dev = idx)
      (hpayload : pkt.payload =
        skbIn.bytes (datagramIndex skbIn ndp x) (datagramLength skbIn ndp x)) :
      EntryCase d alloc skbIn ndp idx x
        ([.read (dpe16 ndp x) 4, .alloc idx, .read (datagramIndex skbIn ndp x) 1,
          .copy (datagramIndex skbIn ndp x) (datagramLength skbIn ndp x)], .queued pkt)

/-- An entry is handled in one of the ways of `EntryCase`. -/
theorem rxEntry_case (d : MhiNetdev) (alloc : Bool) (skbIn : SkBuff) (ndp idx x : ℕ) :
    EntryCase d alloc skbIn ndp idx x (rxEntry d alloc skbIn ndp idx x) := by
  by_cases hnull : datagramIndex skbIn ndp x = 0 ∨ datagramLength skbIn ndp x = 0
  · rw [rxEntry, if_pos hnull]
    exact .null hnull
  rw [rxEntry, if_neg hnull]
  by_cases hbad : skbIn.len < datagramIndex skbIn ndp x + datagramLength skbIn ndp x ∨
      d.rxMax < datagramLength skbIn ndp x
  · rw [if_pos hbad]
    refine .invalid hnull fun h ↦ ?_
    rcases hbad with hbad | hbad
    · exact absurd h.inside (Nat.not_le.mpr hbad)
    · exact absurd h.le_rxMax (Nat.not_le.mpr hbad)
  rw [if_neg hbad]
  rw [not_or, Nat.not_lt, Nat.not_lt] at hbad
  have hsane : EntrySane d skbIn ndp x := ⟨hnull, hbad.1, hbad.2⟩
  cases alloc with
  | false => exact .noMem hsane rfl
  | true =>
    cases hip : ipProtocol (skbIn.byte (datagramIndex skbIn ndp x)) with
    | none => exact .unknown hsane rfl hip
    | some protocol =>
      cases hnet : d.qmapNet idx with
      | none => exact .oops hsane rfl hnet
      | some net => exact .queued ⟨hsane, by simp [hip], by simp [hnet]⟩ rfl rfl rfl rfl rfl

/-- The `for` loop breaks at an entry that ends the table. -/
theorem rxEntry_of_null {d : MhiNetdev} {alloc : Bool} {skbIn : SkBuff} {ndp idx x : ℕ}
    (h : EntryNull skbIn ndp x) :
    rxEntry d alloc skbIn ndp idx x = ([.read (dpe16 ndp x) 4], .brk) := if_pos h

/-- The packet of a good entry is queued if there is memory for it. -/
theorem rxEntry_of_good {d : MhiNetdev} {skbIn : SkBuff} {ndp idx x : ℕ}
    (h : EntryGood d skbIn ndp idx x) :
    ∃ pkt, (rxEntry d true skbIn ndp idx x).2 = .queued pkt ∧ pkt.dev = idx ∧
      pkt.payload = skbIn.bytes (datagramIndex skbIn ndp x) (datagramLength skbIn ndp x) := by
  have hcase := rxEntry_case d true skbIn ndp idx x
  generalize rxEntry d true skbIn ndp idx x = e at hcase
  cases hcase with
  | null hnull => exact absurd hnull h.not_null
  | invalid _ hsane => exact absurd h.toEntrySane hsane
  | noMem _ halloc => cases halloc
  | unknown _ _ hip => exact absurd h.isIp (by simp [hip])
  | oops _ _ hnet => exact absurd h.registered (by simp [hnet])
  | queued _ _ _ _ hdev hpayload => exact ⟨_, rfl, hdev, hpayload⟩

end Wwan.MhiNetdevQuectel
