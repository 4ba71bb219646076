import Wwan.Lib.Bytes

/-!
# Socket buffers and network devices

The part of the kernel's `sk_buff` interface the drivers use. A buffer is a
window of bytes with headroom in front of it. What lies behind the window is
kept as well: `__skb_put` makes the bytes of the tailroom part of the packet
without initialising them, and a decoder that trusts a length field may read
there.

The kernel's own conventions are followed: `skb_pull` leaves the buffer as it is
when asked for more than its length, and `skb_tailroom` is only a number to the
caller.
-/

namespace Wwan.Kernel

open Wwan.Bytes

/-- `struct sk_buff`, as far as the drivers look at it. -/
structure SkBuff where
  /-- The headroom, in address order. -/
  head : List UInt8
  /-- The packet: `skb->data` up to `skb->tail`. -/
  data : List UInt8
  /-- The memory behind `skb->tail`, by distance from it. -/
  after : ℕ → UInt8
  /-- `skb_tailroom(skb)`. -/
  tailroom : ℕ
  /-- `skb->protocol`, in host byte order. -/
  protocol : ℕ

namespace SkBuff

variable (skb : SkBuff)

/-- `skb->len`. -/
def len : ℕ := skb.data.length

/-- The byte at `skb->data[i]`, wherever it lies. -/
def byte (i : ℕ) : UInt8 := skb.data.getD i (skb.after (i - skb.len))

/-- The `n` bytes at `skb->data + i`, as `memcpy` copies them. -/
def bytes (i n : ℕ) : List UInt8 := (List.range n).map fun k ↦ skb.byte (i + k)

/-- `skb_pull`: a request beyond `skb->len` returns NULL and changes nothing. -/
def pull (n : ℕ) : SkBuff :=
  if n ≤ skb.len then { skb with head := skb.head ++ skb.data.take n, data := skb.data.drop n }
  else skb

/-- `skb_push`: the last `n` bytes of the headroom become part of the packet. -/
def push (n : ℕ) : SkBuff :=
  { skb with
    head := skb.head.take (skb.head.length - n)
    data := skb.head.drop (skb.head.length - n) ++ skb.data }

/-- `__skb_put`: the first `n` bytes of the tailroom become part of the packet. -/
def put (n : ℕ) : SkBuff :=
  { skb with
    data := skb.data ++ (List.range n).map skb.after
    after := fun i ↦ skb.after (i + n)
    tailroom := skb.tailroom - n }

/-- `skb_trim`: the packet is cut, if it is longer. -/
def trim (n : ℕ) : SkBuff :=
  if n < skb.len then
    { skb with
      data := skb.data.take n
      after := fun i ↦ skb.byte (n + i)
      tailroom := skb.tailroom + (skb.len - n) }
  else skb

/-- Overwrite the first bytes of the packet, as a header is filled in. -/
def fill (hdr : List UInt8) : SkBuff := { skb with data := hdr ++ skb.data.drop hdr.length }

@[simp] theorem len_put (n : ℕ) : (skb.put n).len = skb.len + n := by simp [put, len]

@[simp] theorem len_pull_of_le {n : ℕ} (h : n ≤ skb.len) : (skb.pull n).len = skb.len - n := by
  rw [pull, if_pos h]
  simp [len]

theorem pull_of_gt {n : ℕ} (h : skb.len < n) : skb.pull n = skb := by
  simp [pull, Nat.not_le.mpr h]

@[simp] theorem data_pull_of_le {n : ℕ} (h : n ≤ skb.len) :
    (skb.pull n).data = skb.data.drop n := by simp [pull, h]

@[simp] theorem data_trim (n : ℕ) : (skb.trim n).data = skb.data.take n := by
  rw [trim]
  split
  · rfl
  next hle => exact (List.take_of_length_le (Nat.not_lt.mp hle)).symm

theorem byte_of_lt {i : ℕ} (h : i < skb.len) : some (skb.byte i) = skb.data[i]? := by
  have hi : i < skb.data.length := h
  simp [byte, hi]

/-- Bytes that lie inside the packet are a slice of it. -/
theorem bytes_eq_slice {i n : ℕ} (h : i + n ≤ skb.len) :
    skb.bytes i n = (skb.data.drop i).take n := by
  have h' : i + n ≤ skb.data.length := h
  apply List.ext_getElem?
  intro k
  by_cases hk : k < n
  · have hik : i + k < skb.data.length := by omega
    simp [bytes, byte, hk, hik]
  · have hleft : (skb.bytes i n).length ≤ k := by
      rw [bytes, List.length_map, List.length_range]
      omega
    have hright : ((skb.data.drop i).take n).length ≤ k := by
      rw [List.length_take]
      omega
    rw [List.getElem?_eq_none hleft, List.getElem?_eq_none hright]

end SkBuff

/-- `dev->type`. -/
inductive ArpHrd
  | ether
  | rawip
  deriving DecidableEq

/-- `struct net_device`, as far as the receive paths look at it. An MTU comes
from `ndo_change_mtu`, whose argument is a non-negative `int`. -/
structure NetDevice where
  /-- `dev->type`. -/
  type : ArpHrd
  /-- `dev->mtu`. -/
  mtu : ℕ
  /-- `dev->dev_addr`. -/
  devAddr : List UInt8
  /-- MTUs are non-negative `int`s. -/
  mtu_lt : mtu < 2 ^ 31

/-- `ETH_DATA_LEN`, the MTU a device starts with. -/
def ethDataLen : ℕ := 1500

theorem ethDataLen_lt : ethDataLen < 2 ^ 31 := by decide

/-- A device with the MTU it starts with. -/
def NetDevice.start (type : ArpHrd) (devAddr : List UInt8) : NetDevice :=
  { type, mtu := ethDataLen, devAddr, mtu_lt := ethDataLen_lt }

/-- `ETH_HLEN`. -/
def ethHlen : ℕ := 14

/-- `ETH_P_IP`. -/
def ethPIp : ℕ := 0x0800

/-- `ETH_P_IPV6`. -/
def ethPIpv6 : ℕ := 0x86DD

/-- `ETH_P_ARP`. -/
def ethPArp : ℕ := 0x0806

/-- The protocol of a packet by the version nibble of its first byte. -/
def ipProtocol (b : UInt8) : Option ℕ :=
  if b.toNat / 16 = 4 then some ethPIp
  else if b.toNat / 16 = 6 then some ethPIpv6
  else none

/-- `default_modem_addr`, the same in the drivers. -/
def defaultModemAddr : List UInt8 := [0x02, 0x50, 0xf3, 0x00, 0x00, 0x00]

/-- The Ethernet header a receive path pushes in front of a packet for `net`. -/
def rxEthHdr (net : NetDevice) (protocol : ℕ) : List UInt8 :=
  match net.type with
  | .ether => net.devAddr ++ defaultModemAddr ++ toBe16 protocol
  | .rawip => []

end Wwan.Kernel
