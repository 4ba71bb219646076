import Wwan.QmiWwanF.TxSettings

/-!
# The aggregation settings of GobiNet

Each rmnet device has its own limits, which `qmap_open` copies from `agg_ctx` as long as the
datagram limit is one. `agg_ctx` has what the modem has answered to the request for a data format.
-/

namespace Wwan.GobiNet

open Wwan.Kernel Wwan.Bytes
open Wwan.QmiWwanQ (TxAggCtx)
open Wwan.QmiWwanF

/-- What `rmnet_usb_tx_agg` reads of the driver. -/
structure AggSettings where
  /-- `pGobiDev->agg_ctx`. -/
  aggCtx : TxAggCtx
  /-- The limits in `struct qmap_priv`. -/
  priv : TxAggCtx
  /-- `dev->mtu`. -/
  mtu : ℕ

inductive AggEvent
  | /-- `QMIWDASetDataFormat` has an answer with a QMAP version. -/
    setDataFormat (qmapSettings : TxAggCtx)
  | /-- `qmap_open`, with the device up or not and `mbQMIReady`. -/
    openDev (up ready : Bool)
  | changeMtu (newMtu : ℕ)

/-- What `QMIWDASetDataFormat` makes of `qmap_settings`. -/
def qmiWdaSetDataFormat (ctx qmapSettings : TxAggCtx) : TxAggCtx :=
  let ctx := if 1 < qmapSettings.ulDataAggregationMaxDatagrams then qmapSettings else ctx
  if 11 < ctx.ulDataAggregationMaxDatagrams then { ctx with ulDataAggregationMaxDatagrams := 11 }
  else ctx

/-- `qmap_open`. -/
def qmapOpen (k : AggSettings) (up ready : Bool) : AggSettings :=
  if up && ready then
    if k.priv.ulDataAggregationMaxDatagrams = 1 ∧ 1 < k.aggCtx.ulDataAggregationMaxDatagrams then
      { k with priv := k.aggCtx }
    else k
  else k

def AggSettings.next (k : AggSettings) : AggEvent → AggSettings
  | .setDataFormat q => { k with aggCtx := qmiWdaSetDataFormat k.aggCtx q }
  | .openDev up ready => qmapOpen k up ready
  | .changeMtu newMtu => { k with mtu := newMtu }

/-- The driver leaves it to the kernel which MTU a device can have. -/
def AggSettings.enabled (mtuOk : ℕ → Bool) (_ : AggSettings) : AggEvent → Prop
  | .changeMtu newMtu => mtuOk newMtu = true
  | _ => True

theorem AggSettings.limit_le (k : AggSettings) (e : AggEvent) :
    (limitsOf k.priv).maxDatagrams ≤ (limitsOf (k.next e).priv).maxDatagrams := by
  cases e with
  | openDev up ready =>
    simp only [AggSettings.next, qmapOpen]
    split
    next =>
      split
      next hraise =>
        have hnew : 1 < k.aggCtx.ulDataAggregationMaxDatagrams.toNat := hraise.2
        simp only [limitsOf, hraise.1]
        exact Nat.le_of_lt hnew
      next => exact le_rfl
    next => exact le_rfl
  | _ => exact le_rfl

/-- The settings of GobiNet, from `qmap_register_device` on. -/
def gobiNet (mtuOk : ℕ → Bool) : TxDriver AggSettings AggEvent where
  start := ⟨⟨1, 2048, 0⟩, ⟨1, 2048, 0⟩, ethDataLen⟩
  limits k := limitsOf k.priv
  mtu k := k.mtu
  enabled := AggSettings.enabled mtuOk
  next := AggSettings.next
  one_le_start := Nat.le_refl 1
  limit_le := AggSettings.limit_le

/-- The uplinks of both drivers lose nothing in the runs without an overrun and without a call that
overtakes the work. -/
theorem uplinks_lawful (V : TxPort) (mtuOk : ℕ → Bool) :
    (∀ s, (txSystem V qmiWwanF).Reach (TxOrderly V qmiWwanF) s → s.Lawful) ∧
      ∀ s, (txSystem V (gobiNet mtuOk)).Reach (TxOrderly V (gobiNet mtuOk)) s → s.Lawful :=
  ⟨fun _ hs ↦ txSystem_lawful V qmiWwanF hs, fun _ hs ↦ txSystem_lawful V (gobiNet mtuOk) hs⟩

/-- The datagram limit is raised to two, a packet is taken into a buffer, and the work takes that
buffer while a packet without company is handed on. -/
def overtakeEvents : List (TxEvent AggEvent) :=
  [.setting (.setDataFormat ⟨2, 4096, 0⟩), .setting (.openDev true true),
    .startXmit (packetOf [0x45, 7] true ⟨0, 500⟩), .step, .step, .work ⟨0, 600⟩,
    .startXmit (packetOf [0x45, 8] true ⟨1, 0⟩), .step, .step, .step, .workXmit]

/-- The uplinks of a device of each driver. -/
def qmiTx : System (TxState QmaSettings) (TxEvent QmaEvent) := txSystem port qmiWwanF

@[inherit_doc qmiTx]
def gobiTx : System (TxState AggSettings) (TxEvent AggEvent) := txSystem port (gobiNet fun _ ↦ true)

/-- A second packet fills a buffer that the call hands on, and the work takes a third one. -/
def aggregatedEvents : List (TxEvent AggEvent) :=
  [.setting (.setDataFormat ⟨2, 4096, 0⟩), .setting (.openDev true true),
    .startXmit (packetOf [0x45, 7] true ⟨0, 500⟩), .step, .step,
    .startXmit (packetOf [0x45, 8] true ⟨0, 600⟩), .step, .step, .step, .step,
    .startXmit (packetOf [0x45, 9] true ⟨0, 700⟩), .step, .step, .work ⟨0, 800⟩, .workXmit]

/-- What is handed on holds two frames and one. -/
theorem uplinks_lawful_aggregated :
    (gobiTx.exec gobiTx.init aggregatedEvents).Lawful ∧
      (gobiTx.exec gobiTx.init aggregatedEvents).xmit.map (·.data.length) = [12, 6] := by
  refine ⟨(uplinks_lawful port fun _ ↦ true).2 _ (System.Reach.init.exec ?_), by decide +kernel⟩
  refine ⟨⟨rfl, trivial⟩, trivial, ⟨rfl, trivial⟩, trivial, ⟨rfl, rfl, by decide⟩, trivial,
    ⟨rfl, rfl⟩, trivial, ⟨rfl, rfl⟩, not_overruns_first rfl (by decide), ⟨rfl, rfl, by decide⟩,
    trivial, ⟨rfl, rfl⟩, trivial, ⟨rfl, rfl⟩, ?next, ⟨rfl, rfl⟩, trivial, ⟨rfl, rfl⟩, rfl,
    ⟨rfl, rfl, by decide⟩, trivial, ⟨rfl, rfl⟩, trivial, ⟨rfl, rfl⟩,
    not_overruns_first rfl (by decide), ⟨rfl, rfl, rfl⟩, trivial, ⟨rfl, rfl⟩, trivial, trivial⟩
  rintro (⟨hskb, -⟩ | ⟨buf, hbuf, -, hlong⟩)
  · cases hskb
  · obtain rfl := Option.some.inj hbuf
    exact absurd hlong (by decide)

/-- A packet of 64 bytes brings the kernel down when the buffers have the same size, in
`qmi_wwan_f`, and a packet overtakes one that the work has taken, in GobiNet. -/
theorem uplinks_not_lawful :
    (¬ ∀ s, qmiTx.Reach (fun _ _ ↦ True) s → s.Lawful) ∧
      ¬ ∀ s, gobiTx.Reach (fun _ _ ↦ True) s → s.Lawful := by
  constructor
  · intro hall
    have hreach : qmiTx.Reach (fun _ _ ↦ True) (qmiTx.exec qmiTx.init
        (raisedEvents 64 (packetOf (List.replicate 64 0x45) true ⟨0, 500⟩))) :=
      System.Reach.init.exec ⟨⟨rfl, rfl⟩, trivial, ⟨rfl, rfl⟩, trivial,
        ⟨rfl, rfl, by decide +kernel⟩, trivial, ⟨rfl, rfl⟩, trivial, ⟨rfl, rfl⟩, trivial, trivial⟩
    exact absurd (hall _ hreach).panicked (by decide +kernel)
  · intro hall
    have hreach : gobiTx.Reach (fun _ _ ↦ True) (gobiTx.exec gobiTx.init overtakeEvents) :=
      System.Reach.init.exec ⟨⟨rfl, trivial⟩, trivial, ⟨rfl, trivial⟩, trivial,
        ⟨rfl, rfl, by decide⟩, trivial, ⟨rfl, rfl⟩, trivial, ⟨rfl, rfl⟩, trivial,
        ⟨rfl, rfl, rfl⟩, trivial, ⟨rfl, rfl, by decide⟩, trivial, ⟨rfl, rfl⟩, trivial,
        ⟨rfl, rfl⟩, trivial, ⟨rfl, rfl⟩, trivial, ⟨rfl, rfl⟩, trivial, trivial⟩
    exact absurd ((hall _ hreach).conserves ⟨rfl, rfl⟩).bytes (by decide +kernel)

end Wwan.GobiNet
