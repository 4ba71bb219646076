import Wwan.Lib.Bytes

/-!
# Short messages

Both sides of SIPC talk in messages of eight bytes, each on one of 255 channels. Only the
channels of `sipc_cfg` are in use, and the arrays of `struct smsg_ipc` have one entry for
each of those: `channel2index` says which.

An access out of an array has no result.
-/

namespace Wwan.Sipc

open Wwan Bytes

/-! ## Errors -/

/-- `-EIO`. -/
def eio : ℤ := -5

/-- `-EAGAIN`. -/
def eagain : ℤ := -11

/-- `-EBUSY`. -/
def ebusy : ℤ := -16

/-- `-ENODEV`. -/
def enodev : ℤ := -19

/-- `-ENODATA`. -/
def enodata : ℤ := -61

/-- `-ETIME`. -/
def etime : ℤ := -62

/-! ## Channels -/

/-- `struct smsg`. -/
structure Smsg where
  /-- The channel. -/
  channel : UInt8
  /-- `type`. -/
  type : UInt8
  /-- `flag`. -/
  flag : UInt16
  /-- `value`. -/
  value : UInt32
  deriving DecidableEq

/-- `SMSG_TYPE_OPEN`. -/
def smsgTypeOpen : UInt8 := 1

/-- `SMSG_TYPE_EVENT`. -/
def smsgTypeEvent : UInt8 := 4

/-- `SMSG_TYPE_DIE`. -/
def smsgTypeDie : UInt8 := 12

/-- `SMSG_TYPE_NR`. -/
def smsgTypeNr : UInt8 := 17

/-- `SMSG_OPEN_MAGIC`. -/
def smsgOpenMagic : UInt16 := 0xBEEE

/-- The channels of `sipc_cfg`. -/
def sipcCfg : List UInt8 :=
  [0, 1, 22, 100, 23, 4, 5, 21, 6, 7, 8, 9, 18, 19, 20, 24, 25, 26, 27, 28, 29, 30, 31, 10, 11,
    12, 13, 130, 14, 15, 16, 17, 131, 2, 3, 151, 41, 120, 40]

/-- `SMSG_VALID_CH_NR`. -/
def smsgValidChNr : ℕ := sipcCfg.length

/-- `INVALID_CHANEL_INDEX`. -/
def invalidChanelIndex : ℕ := 255

/-- `channel2index`, as `smsg_init_channel2index` fills it. -/
def channel2index (channel : UInt8) : ℕ :=
  let j := sipcCfg.idxOf channel
  if j = smsgValidChNr then invalidChanelIndex else j

/-- Only the channels of `sipc_cfg` have an index into the arrays. -/
theorem channel2index_lt_iff {channel : UInt8} :
    channel2index channel < smsgValidChNr ↔ channel ∈ sipcCfg := by
  unfold channel2index
  dsimp only
  split
  · rename_i hj
    refine ⟨fun h ↦ absurd h (by decide), fun h ↦ ?_⟩
    exact absurd hj (Nat.ne_of_lt (List.idxOf_lt_length_of_mem h))
  · rename_i hj
    exact List.idxOf_lt_length_iff

/-! ## Receiving -/

/-- `SMSG_CACHE_NR`. -/
def smsgCacheNr : ℕ := 256

/-- What matters of `struct smsg_channel`. -/
structure SmsgChannel where
  /-- `wrptr`. -/
  wrptr : ℕ
  /-- `rdptr`. -/
  rdptr : ℕ
  /-- `caches`. -/
  caches : ℕ → Smsg

/-- The values of `states`. -/
inductive ChanState
  | /-- `CHAN_STATE_UNUSED`. -/
    unused
  | /-- `CHAN_STATE_CLIENT_OPENED`. -/
    clientOpened
  | /-- `CHAN_STATE_HOST_OPENED`. -/
    hostOpened
  | /-- `CHAN_STATE_OPENED`. -/
    opened
  | /-- `CHAN_STATE_FREE`. -/
    free
  deriving DecidableEq

/-- What matters of `struct smsg_ipc`. -/
structure SmsgIpc where
  /-- `channels`. -/
  channels : Fin smsgValidChNr → Option SmsgChannel
  /-- `busy`. -/
  busy : Fin smsgValidChNr → ℤ
  /-- `states`. -/
  states : Fin smsgValidChNr → ChanState

/-- What can go wrong. -/
inductive SipcFault
  | /-- An array is accessed out of its bounds. -/
    wild
  | /-- The kernel stops on purpose. -/
    panic
  deriving DecidableEq

/-- An entry of an array of `n`. -/
def arrayAt (n : ℕ) (i : ℤ) : Except SipcFault (Fin n) :=
  if h : 0 ≤ i ∧ i.toNat < n then .ok ⟨i.toNat, h.2⟩ else .error .wild

/-- `smsg_die_process`. -/
def smsgDieProcess (debugEnable : Bool) (msg : Smsg) : Except SipcFault Unit :=
  if msg.type = smsgTypeDie ∧ debugEnable = true then .error .panic else .ok ()

namespace SmsgIpc

variable (ipc : SmsgIpc) (i : Fin smsgValidChNr)

/-- `atomic_inc` and `atomic_dec` of an entry of `busy`. -/
def addBusy (n : ℤ) : SmsgIpc :=
  { ipc with busy := Function.update ipc.busy i (ipc.busy i + n) }

/-- A message comes for a channel. -/
def receive (msg : Smsg) : SmsgIpc :=
  if smsgTypeNr ≤ msg.type then ipc
  else
    match ipc.channels i with
    | none =>
      if ipc.states i = .unused ∧ msg.type = smsgTypeOpen ∧ msg.flag = smsgOpenMagic then
        { ipc with states := Function.update ipc.states i .clientOpened }
      else ipc
    | some ch =>
      if (smsgCacheNr : ℤ) ≤ int32 (ch.wrptr - ch.rdptr) then ipc
      else
        { ipc with
          channels := Function.update ipc.channels i (some
            { ch with
              wrptr := u32 (ch.wrptr + 1)
              caches := Function.update ch.caches (ch.wrptr % smsgCacheNr) msg }) }

end SmsgIpc

/-- `smsg_msg_process`. -/
def smsgMsgProcess (debugEnable : Bool) (ipc : SmsgIpc) (msg : Smsg) :
    Except SipcFault SmsgIpc := do
  smsgDieProcess debugEnable msg
  let i ← arrayAt smsgValidChNr (channel2index msg.channel)
  return (((ipc.addBusy i 1).receive i msg).addBusy i (-1))

theorem arrayAt_ne_wild_iff {n : ℕ} {i : ℤ} :
    arrayAt n i ≠ .error .wild ↔ 0 ≤ i ∧ i < n := by
  unfold arrayAt
  split
  · rename_i h
    simp only [ne_eq, reduceCtorEq, not_false_eq_true, true_iff]
    omega
  · rename_i h
    simp only [ne_eq, not_true_eq_false, false_iff]
    omega

/-- A message stays in the arrays if and only if its channel is one of `sipc_cfg`, or the
kernel has been stopped before. -/
theorem smsgMsgProcess_ne_wild_iff (debugEnable : Bool) (ipc : SmsgIpc) (msg : Smsg) :
    smsgMsgProcess debugEnable ipc msg ≠ .error .wild ↔
      msg.channel ∈ sipcCfg ∨ msg.type = smsgTypeDie ∧ debugEnable = true := by
  unfold smsgMsgProcess smsgDieProcess
  split
  · rename_i hdie
    exact ⟨fun _ ↦ .inr hdie, fun _ h ↦ absurd h (by simp [bind, Except.bind])⟩
  · rename_i hdie
    rw [or_iff_left hdie, ← channel2index_lt_iff]
    have hidx : arrayAt smsgValidChNr (channel2index msg.channel) ≠ .error .wild ↔
        channel2index msg.channel < smsgValidChNr := by
      rw [arrayAt_ne_wild_iff]
      omega
    rw [← hidx]
    cases harr : arrayAt smsgValidChNr (channel2index msg.channel) with
    | ok i => simp [bind, Except.bind, pure, Except.pure]
    | error e => simp [bind, Except.bind]

end Wwan.Sipc
