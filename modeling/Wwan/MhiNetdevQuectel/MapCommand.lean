import Wwan.MhiNetdevQuectel.QmapRx

/-!
# QMAP commands in `mhi_netdev_quectel`

`rmnet_qmi_rx_handler` passes the header of a command frame to `rmnet_data_map_command`, which takes
the command to be behind it, whatever `next_hdr` says, and to have the size of
`struct rmnet_map_control_command`, whatever `pkt_len` says. A flow control command is acknowledged
with a copy of the header and the command.

The handler has checked that the frame is in the buffer, but not that the command is in the frame
(`mapCommands_inside_iff`).
-/

namespace Wwan.MhiNetdevQuectel

open Wwan.Kernel Wwan.Bytes

open Wwan.QmiWwanQ (RmnetMapHeader Access quectelQmapMuxId)

/-- `RMNET_MAP_COMMAND_FLOW_DISABLE`. -/
def rmnetMapCommandFlowDisable : UInt8 := 1

/-- `RMNET_MAP_COMMAND_FLOW_ENABLE`. -/
def rmnetMapCommandFlowEnable : UInt8 := 2

/-- What a command makes the driver do. -/
structure CommandOut where
  /-- The bytes at `map_header` that are read. -/
  reads : List Access
  /-- `pQmapDev->flow_control`. -/
  flowControl : BitVec 32
  /-- The acknowledgement given to `dev_queue_xmit`. -/
  ack : Option (List UInt8)

/-- `cmd->command_name`. -/
def commandName (skb : SkBuff) : UInt8 := skb.byte 4

/-- The `uint8_t mux_id` of `rmnet_map_do_flow_control`. -/
def flowMux (skb : SkBuff) : UInt8 := (RmnetMapHeader.read skb).muxId - 0x81

/-- `rmnet_map_do_flow_control` finds the device. -/
def flowDevice (d : QmapNetdev) (skb : SkBuff) : Bool :=
  (flowMux skb).toNat < d.qmapMode && (d.qmapNet (flowMux skb).toNat).isSome

/-- `rmnet_map_send_ack`: the header and the command, with `cmd_type` set. -/
def rmnetMapSendAck (type : ℕ) (skb : SkBuff) : List UInt8 :=
  (skb.bytes 0 20).set 5 (UInt8.ofNat ((skb.byte 5).toNat / 4 * 4 + type % 4))

/-- `rmnet_data_map_command`. `alloc` is whether there is memory for an acknowledgement. -/
def rmnetDataMapCommand (d : QmapNetdev) (alloc : Bool) (flowControl : BitVec 32) (skb : SkBuff) :
    CommandOut :=
  let name := commandName skb
  if (name = rmnetMapCommandFlowEnable ∨ name = rmnetMapCommandFlowDisable) ∧
      flowDevice d skb = true then
    let bit := 1#32 <<< (flowMux skb).toNat
    { reads := [⟨4, 1⟩, ⟨13, 1⟩, ⟨14, 2⟩, ⟨16, 4⟩] ++ if alloc then [⟨0, 20⟩] else []
      flowControl :=
        if name = rmnetMapCommandFlowEnable then flowControl ||| bit else flowControl &&& ~~~bit
      ack := if alloc then some (rmnetMapSendAck 1 skb) else none }
  else { reads := [⟨4, 1⟩], flowControl := flowControl, ack := none }

/-- What the command reads is in its frame, and so is what the acknowledgement consists of, but for
the command type. -/
structure CommandInside (skb : SkBuff) (out : CommandOut) : Prop where
  reads : ∀ a ∈ out.reads, a.off + a.len ≤ (RmnetMapHeader.read skb).frameLen
  ack : ∀ bytes, out.ack = some bytes →
    ∃ b, bytes = ((skb.data.take (RmnetMapHeader.read skb).frameLen).take 20).set 5 b

/-- The frame has the first byte of a command, and a whole flow control command for a device. -/
structure CommandFits (d : QmapNetdev) (skb : SkBuff) : Prop where
  name : 5 ≤ (RmnetMapHeader.read skb).frameLen
  flow : (commandName skb = rmnetMapCommandFlowEnable ∨
    commandName skb = rmnetMapCommandFlowDisable) → flowDevice d skb = true →
      20 ≤ (RmnetMapHeader.read skb).frameLen

/-- A command stays in its frame, which is in the buffer, if and only if it fits. -/
theorem rmnetDataMapCommand_inside_iff {d : QmapNetdev} {skb : SkBuff}
    (hlen : (RmnetMapHeader.read skb).frameLen ≤ skb.len) (alloc : Bool) (flowControl : BitVec 32) :
    CommandInside skb (rmnetDataMapCommand d alloc flowControl skb) ↔ CommandFits d skb := by
  unfold rmnetDataMapCommand
  dsimp only
  split
  next hflow =>
    constructor
    · rintro ⟨hreads, -⟩
      have hqos : 16 + 4 ≤ (RmnetMapHeader.read skb).frameLen := hreads ⟨16, 4⟩ (by simp)
      exact ⟨by omega, fun _ _ ↦ hqos⟩
    · rintro ⟨-, hfits⟩
      have hall := hfits hflow.1 hflow.2
      refine ⟨?_, ?_⟩
      · intro a ha
        have hle : a.off + a.len ≤ 20 := by
          cases alloc <;> simp at ha <;> rcases ha with rfl | rfl | rfl | rfl | rfl <;> decide
        exact hle.trans hall
      · intro bytes hbytes
        cases alloc with
        | false => cases hbytes
        | true =>
          obtain rfl := Option.some.inj hbytes
          refine ⟨UInt8.ofNat ((skb.byte 5).toNat / 4 * 4 + 1 % 4), ?_⟩
          rw [rmnetMapSendAck, SkBuff.bytes_eq_slice _ (by omega), List.drop_zero,
            List.take_take, Nat.min_eq_left hall]
  next hflow =>
    constructor
    · rintro ⟨hreads, -⟩
      exact ⟨hreads ⟨4, 1⟩ (by simp), fun hname hdev ↦ absurd ⟨hname, hdev⟩ hflow⟩
    · rintro ⟨hname, -⟩
      refine ⟨?_, by rintro _ ⟨⟩⟩
      intro a ha
      rw [List.mem_singleton.mp ha]
      exact hname

/-! ## Every buffer -/

/-- The handler has found the frame of a command to be in the buffer. -/
theorem frameLen_le_of_command {d : QmapNetdev} {alloc : Bool} {skb : SkBuff}
    (h : rmnetQmiFrame d alloc skb = .command) : (RmnetMapHeader.read skb).frameLen ≤ skb.len := by
  unfold rmnetQmiFrame at h
  dsimp only at h
  split at h
  next => cases h
  next =>
    split at h
    next => cases h
    next =>
      split at h
      next => cases h
      next =>
        split at h
        next => cases h
        next hlen => exact Nat.not_lt.mp hlen

/-- The commands of a received buffer are frames in it. -/
theorem commands_frameLen_le {d : QmapNetdev} {alloc : ℕ → Bool} {skbIn : SkBuff} {st : QmiRxState}
    (hst : Loop.Reaches (rmnetQmiBody d alloc) (qmiRxStart skbIn) st) :
    ∀ cmd ∈ st.commands, (RmnetMapHeader.read cmd).frameLen ≤ cmd.len := by
  induction hst with
  | refl =>
    intro cmd hcmd
    cases hcmd
  | @tail t u _ hb ih =>
    unfold rmnetQmiBody at hb
    split at hb
    next => cases hb
    next =>
      dsimp only at hb
      split at hb
      next => cases hb
      next =>
        cases hb
        exact ih
      next hcommand =>
        cases hb
        intro cmd hcmd
        rcases List.mem_append.mp hcmd with hcmd | hcmd
        · exact ih cmd hcmd
        · rw [List.mem_singleton.mp hcmd]
          exact frameLen_le_of_command hcommand
      next =>
        cases hb
        exact ih

/-- On any received buffer, the commands stay in their frames if and only if each of them fits into
its frame. -/
theorem mapCommands_inside_iff (d : QmapNetdev) (alloc : ℕ → Bool) (skbIn : SkBuff)
    (ackAlloc : Bool) (flowControl : BitVec 32) :
    (∀ st, Loop.Reaches (rmnetQmiBody d alloc) (qmiRxStart skbIn) st → ∀ cmd ∈ st.commands,
        CommandInside cmd (rmnetDataMapCommand d ackAlloc flowControl cmd)) ↔
      ∀ st, Loop.Reaches (rmnetQmiBody d alloc) (qmiRxStart skbIn) st → ∀ cmd ∈ st.commands,
        CommandFits d cmd := by
  refine forall_congr' fun st ↦ forall_congr' fun hst ↦ ?_
  refine forall_congr' fun cmd ↦ forall_congr' fun hcmd ↦ ?_
  exact rmnetDataMapCommand_inside_iff (commands_frameLen_le hst cmd hcmd) ackAlloc flowControl

/-- A command frame of one byte, which asks for flow control, and a data frame behind it. -/
def shortCommandBuf : SkBuff :=
  { head := [], data := [0x80, 0x81, 0x00, 0x01, 0x01, 0x00, 0x81, 0x00, 0x02, 0x45, 0x01],
    after := fun _ ↦ 0, tailroom := 0, protocol := 0 }

/-- The acknowledgement has the bytes of the data frame and more. -/
theorem shortCommand_outside :
    ¬ ∀ st, Loop.Reaches (rmnetQmiBody etherNetdev fun _ ↦ true) (qmiRxStart shortCommandBuf) st →
      ∀ cmd ∈ st.commands, CommandInside cmd (rmnetDataMapCommand etherNetdev true 0 cmd) := by
  intro hall
  have hinside := hall _ (.tail .refl rfl) shortCommandBuf (List.mem_singleton.mpr rfl)
  exact absurd (hinside.reads ⟨0, 20⟩ (by decide)) (by decide)

end Wwan.MhiNetdevQuectel
