import Mathlib.Algebra.Group.Nat.Defs
import Mathlib.Data.Fin.Basic
import Mathlib.Data.List.FinRange
import Mathlib.Logic.Function.Basic

/-!
# Mapping the memory of the endpoint

`sprd_pcie_ep_device.c` reaches the memory of the endpoint through the windows of four BARs. A
BAR is taken by setting its bit in `bar_res`; an inbound region of the endpoint's iATU then makes
the window show a range of endpoint memory. `sprd_ep_map_memory` also remaps the window for the
CPU and hands out a pointer, `sprd_ep_ipa_map` hands out the bus address for the IPA hardware.

A pointer is a number here, with 0 for `NULL`. There is one endpoint, `PCIE_EP_MODEM`, and the
build is the one without `CONFIG_SPRD_IPA_PCIE_WORKROUND`, where `BAR_MIN` is `BAR_0`.
-/

namespace Wwan.Pcie

/-! ## The device -/

/-- `BAR_MAX`: the bars 4 and 5 are never handed out. -/
abbrev barMax : Nat := 4

abbrev Bar := Fin barMax

/-- The `struct resource` of a memory BAR: a range of bus addresses that was assigned to it. -/
structure Window where
  start : Nat
  /-- `end`, the last address of the window. -/
  last : Nat
  assigned : 0 < start
  ordered : start ≤ last

/-- `resource_size`. -/
def Window.size (res : Window) : Nat := res.last - res.start + 1

/-- The elements that the arrays `bar_vir`, `cpu_vir`, `src_addr`, `target_addr` and `map_size`
have for one BAR. -/
structure BarEntry where
  barVir : Nat
  cpuVir : Nat
  srcAddr : Nat
  targetAddr : Nat
  mapSize : Nat
  deriving DecidableEq

/-- The entry of zeroed memory, and the one `sprd_ep_dev_unmap_bar` leaves. -/
def BarEntry.empty : BarEntry := ⟨0, 0, 0, 0, 0⟩

/-- `struct sprd_pci_ep_dev`. -/
structure EpDev where
  /-- The memory BARs of the device. -/
  bar : Bar → Option Window
  /-- The bits of `bar_res`. -/
  barRes : Bar → Bool
  entry : Bar → BarEntry
  needBackup : Bool
  legacyAddr : Nat

/-- A zeroed device once its BARs are found. -/
def EpDev.zeroed (bars : Bar → Option Window) : EpDev :=
  ⟨bars, fun _ ↦ false, fun _ ↦ .empty, false, 0⟩

/-- The device, and what the driver changes outside of it. -/
structure EpState where
  dev : EpDev
  /-- The addresses that `ioremap` returned and that are not unmapped yet. -/
  areas : List Nat
  /-- The inbound regions: the endpoint address at which a region was last enabled. -/
  iatu : Bar → Option Nat

/-- What a mapping gets from outside of the driver. -/
structure MapEnv where
  /-- The result of `ioremap`. -/
  ioremap : Nat
  /-- Whether a read of the region's control register has `PCIE_ATU_ENABLE` set, at each try. -/
  enabled : Nat → Bool

/-- `-EINVAL`. -/
def einval : Int := -22

namespace EpState

variable (s : EpState)

def setBit (bar : Bar) : EpState :=
  { s with dev := { s.dev with barRes := Function.update s.dev.barRes bar true } }

def setEntry (bar : Bar) (e : BarEntry) : EpState :=
  { s with dev := { s.dev with entry := Function.update s.dev.entry bar e } }

/-- `ioremap` with a result that is not `NULL`. -/
def ioremap (va : Nat) : EpState := { s with areas := va :: s.areas }

/-- `iounmap`, which does nothing for `NULL`. -/
def iounmap (va : Nat) : EpState := if va = 0 then s else { s with areas := s.areas.erase va }

/-! ## Taking a BAR -/

/-- The BAR that the loop of `sprd_ep_dev_get_bar` stops at. -/
def freeBar : Option Bar :=
  (List.finRange barMax).find? fun bar ↦ (s.dev.bar bar).isSome && !s.dev.barRes bar

/-- `sprd_ep_dev_get_bar`; `none` is `-EBUSY`. -/
def getBar : Option Bar × EpState :=
  match s.freeBar with
  | some bar => (some bar, s.setBit bar)
  | none => (none, s)

/-- `sprd_ep_dev_put_bar`; no caller looks at its result. -/
def putBar (bar : Bar) : EpState :=
  { s with dev := { s.dev with barRes := Function.update s.dev.barRes bar false } }

end EpState

/-! ## The translation -/

/-- `PAGE_ALIGN` on 64 bits. -/
def pageAlign (x : Nat) : Nat := (x + 4095) % 2 ^ 64 / 4096 * 4096

/-- What `sprd_ep_dev_adjust_region` stores through its pointers. -/
structure Region where
  cpuAddr : Nat
  size : Nat
  offset : Nat
  deriving DecidableEq

/-- `sprd_ep_dev_adjust_region`; `none` is `-EINVAL`. -/
def adjustRegion (res : Window) (cpuAddr size : Nat) : Option Region :=
  let base := cpuAddr / res.size * res.size
  let offset := cpuAddr - base
  let size := (pageAlign size + pageAlign offset) % 2 ^ 64
  if size > res.size then none else some ⟨base, size, offset⟩

/-- `LINK_WAIT_MAX_IATU_RETRIES`. -/
def linkWaitMaxIatuRetries : Nat := 5

/-- Whether one of the reads finds the region enabled. -/
def pollIatu (enabled : Nat → Bool) : Bool := (List.range linkWaitMaxIatuRetries).any enabled

namespace EpState

variable (s : EpState)

/-- `sprd_ep_dev_just_map_bar`, and `sprd_ep_dev_unr_set_bar` where the registers are unrolled:
the region is written whether or not it is then seen to be enabled. -/
def justMapBar (bar : Bar) (cpuAddr : Nat) (enabled : Nat → Bool) : Int × EpState :=
  (if pollIatu enabled then 0 else einval,
    { s with iatu := Function.update s.iatu bar (some cpuAddr) })

/-- `sprd_ep_dev_just_unmap_bar`, which always returns 0. -/
def justUnmapBar (bar : Bar) : EpState := { s with iatu := Function.update s.iatu bar none }

/-! ## The memory mappings -/

/-- `sprd_ep_dev_map_bar`. -/
def mapBar (bar : Bar) (cpuAddr size : Nat) (env : MapEnv) : Nat × EpState :=
  if (s.dev.entry bar).barVir ≠ 0 then (0, s)
  else
    match s.dev.bar bar with
    -- `sprd_ep_dev_get_bar` hands out memory BARs only
    | none => (0, s)
    | some res =>
      match adjustRegion res cpuAddr size with
      | none => (0, s)
      | some r =>
        if env.ioremap = 0 then (0, s)
        else
          let s := s.ioremap env.ioremap
          let ret := s.justMapBar bar r.cpuAddr env.enabled
          -- the address that is unmapped is the one of the entry, not the new one
          if ret.1 ≠ 0 then (0, ret.2.iounmap (s.dev.entry bar).barVir)
          else
            (env.ioremap + r.offset,
              ret.2.setEntry bar
                ⟨env.ioremap, env.ioremap + r.offset, res.start + r.offset, r.cpuAddr, r.size⟩)

/-- `sprd_ep_map_memory`. -/
def mapMemory (cpuAddr size : Nat) (env : MapEnv) : Nat × EpState :=
  match s.getBar with
  | (none, s) => (0, s)
  | (some bar, s) =>
    let ret := s.mapBar bar cpuAddr size env
    if ret.1 = 0 then (0, ret.2.putBar bar) else ret

/-- `sprd_ep_dev_unmap_bar`. -/
def unmapBar (bar : Bar) : EpState :=
  if (s.dev.entry bar).barVir = 0 then s
  else ((s.justUnmapBar bar).iounmap (s.dev.entry bar).barVir).setEntry bar .empty

/-- The BAR that the loop of `sprd_ep_unmap_memory` stops at. -/
def cpuVirBar (addr : Nat) : Option Bar :=
  (List.finRange barMax).find? fun bar ↦ addr == (s.dev.entry bar).cpuVir

/-- `sprd_ep_unmap_memory`. -/
def unmapMemory (addr : Nat) : EpState :=
  match s.cpuVirBar addr with
  | none => s
  | some bar => (s.unmapBar bar).putBar bar

/-! ## The mappings for the IPA -/

/-- `sprd_ep_ipa_map`; its failing exits keep the BAR. -/
def ipaMap (targetAddr size : Nat) (env : MapEnv) : Nat × EpState :=
  match s.getBar with
  | (none, s) => (0, s)
  | (some bar, s) =>
    match s.dev.bar bar with
    | none => (0, s)
    | some res =>
      match adjustRegion res targetAddr size with
      | none => (0, s)
      | some r =>
        let ret := s.justMapBar bar r.cpuAddr env.enabled
        if ret.1 ≠ 0 then (0, ret.2)
        else
          (res.start + r.offset,
            ret.2.setEntry bar
              { s.dev.entry bar with
                srcAddr := res.start + r.offset, targetAddr := r.cpuAddr, mapSize := r.size })

/-- The BAR that the loop of `sprd_ep_ipa_unmap` stops at. -/
def srcAddrBar (addr : Nat) : Option Bar :=
  (List.finRange barMax).find? fun bar ↦ addr == (s.dev.entry bar).srcAddr

/-- `sprd_ep_ipa_unmap`: `target_addr` is cleared twice and `src_addr` is not, and the BAR is not
put. -/
def ipaUnmap (addr : Nat) : Int × EpState :=
  match s.srcAddrBar addr with
  | none => (einval, s)
  | some bar =>
    (0, (s.setEntry bar { s.dev.entry bar with targetAddr := 0, mapSize := 0 }).justUnmapBar bar)

end EpState

end Wwan.Pcie
