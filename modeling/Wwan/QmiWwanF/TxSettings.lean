import Wwan.QmiWwanF.TxLaw
import Wwan.QmiWwanQ.TxConserve

/-!
# The aggregation settings of `qmi_wwan_f`

`tx_ctx` belongs to the USB device, and all rmnet devices read it. `qma_setting_store` holds the
transmit lock of the USB device, which a call for an rmnet device does not take: the call may read
the new datagram limit with the old size, and start a buffer of the old size that is compared with
the new one later.
-/

namespace Wwan.QmiWwanF

open Wwan.Kernel Wwan.Bytes
open Wwan.QmiWwanQ (TxAggCtx QmapSetting cacheLines defaultParams)

/-- What `rmnet_usb_tx_agg` reads of the driver. -/
structure QmaSettings where
  /-- `pQmapDev->tx_ctx`. -/
  txCtx : TxAggCtx
  /-- What `qma_setting_store` has still to write. -/
  storing : Option TxAggCtx
  /-- `dev->mtu`. -/
  mtu : ℕ

inductive QmaEvent
  | /-- `qma_setting_store` up to its first write. -/
    store (s : QmapSetting) (size : ℕ)
  | /-- The rest of it. -/
    storeRest
  | /-- `rmnet_vnd_change_mtu`. -/
    changeMtu (newMtu : ℤ)

/-- `qma_setting_store` up to its first write: the limit can be raised from one, once. -/
def qmaSettingStore (k : QmaSettings) (s : QmapSetting) (size : ℕ) : QmaSettings :=
  if s.size ≠ size then k
  else if k.txCtx.ulDataAggregationMaxDatagrams = 1 ∧ 1 < s.ulDataAggregationMaxDatagrams then
    { k with
      txCtx := { k.txCtx with ulDataAggregationMaxDatagrams := s.ulDataAggregationMaxDatagrams }
      storing := some
        ⟨s.ulDataAggregationMaxDatagrams, s.ulDataAggregationMaxSize, s.dlMinimumPadding⟩ }
  else k

/-- The rest of `qma_setting_store`. -/
def qmaSettingStoreRest (k : QmaSettings) : QmaSettings :=
  match k.storing with
  | none => k
  | some ctx =>
    { k with
      txCtx := { ctx with ulDataAggregationMaxDatagrams := k.txCtx.ulDataAggregationMaxDatagrams }
      storing := none }

/-- `rmnet_vnd_change_mtu`. -/
def rmnetVndChangeMtu (k : QmaSettings) (newMtu : ℤ) : QmaSettings :=
  if newMtu < 0 ∨ 1500 < newMtu then k else { k with mtu := newMtu.toNat }

def QmaSettings.next (k : QmaSettings) : QmaEvent → QmaSettings
  | .store s size => qmaSettingStore k s size
  | .storeRest => qmaSettingStoreRest k
  | .changeMtu newMtu => rmnetVndChangeMtu k newMtu

/-- The ioctls come one after the other. -/
def QmaSettings.enabled (k : QmaSettings) : QmaEvent → Prop
  | .store _ _ => k.storing = none
  | .storeRest => k.storing.isSome = true
  | .changeMtu _ => True

theorem QmaSettings.limit_le (k : QmaSettings) (e : QmaEvent) :
    (limitsOf k.txCtx).maxDatagrams ≤ (limitsOf (k.next e).txCtx).maxDatagrams := by
  cases e with
  | store s size =>
    simp only [QmaSettings.next, qmaSettingStore]
    split
    next => exact le_rfl
    next =>
      split
      next hraise =>
        have hnew : 1 < s.ulDataAggregationMaxDatagrams.toNat := hraise.2
        simp only [limitsOf, hraise.1]
        exact Nat.le_of_lt hnew
      next => exact le_rfl
  | storeRest =>
    simp only [QmaSettings.next, qmaSettingStoreRest]
    split <;> exact le_rfl
  | changeMtu newMtu =>
    simp only [QmaSettings.next, rmnetVndChangeMtu]
    split <;> exact le_rfl

/-- The settings of `qmi_wwan_f`, from `qmi_wwan_bind` on. -/
def qmiWwanF : TxDriver QmaSettings QmaEvent where
  start := ⟨⟨1, 1500, 0⟩, none, ethDataLen⟩
  limits k := limitsOf k.txCtx
  mtu k := k.mtu
  enabled := QmaSettings.enabled
  next := QmaSettings.next
  one_le_start := le_rfl
  limit_le := QmaSettings.limit_le

/-! ## Frames that fit -/

/-- A frame up to the size in force may start a buffer. -/
theorem not_overruns_first {A : QmiWwanQ.AllocSkb} {P : QmiWwanQ.AggParams} {L : AggLimits}
    {up : Uplink} {c : TxCall} {n : ℕ} (hskb : up.aggSkb = none)
    (hle : c.frame.length ≤ L.maxSize) : ¬ Overruns A P L up c n := by
  rintro (⟨-, -, -, hlong⟩ | ⟨buf, hbuf⟩)
  · exact absurd hlong (Nat.not_lt.mpr hle)
  · cases hskb.symm.trans hbuf

/-- A device for mux id 0x81 with QMAPv1 and the default parameters of the module. -/
def port : TxPort := ⟨cacheLines, defaultParams, 5, 0x81, ⟨0, 0⟩⟩

/-- A raw-IP packet, which is followed by more or not, at time `now`. -/
def packetOf (data : List UInt8) (more : Bool) (now : QmiWwanQ.Timespec64) : TxPacket where
  skb := ⟨List.replicate 16 0, data, fun _ ↦ 0, 0, ethPIp⟩
  xmitMore := more
  now _ := now
  allocAgg := true
  headroom := by simp

/-- The limit is raised to two datagrams in buffers of `size` bytes, and a packet is sent. -/
def raisedEvents (size : UInt32) (p : TxPacket) : List (TxEvent QmaEvent) :=
  [.setting (.store ⟨32, 2, size, 0⟩ 32), .setting .storeRest, .startXmit p, .step, .step]

end Wwan.QmiWwanF
