import Wwan.Pcie.BarAccount

/-!
# Backup and restore of the BARs

The endpoint goes away and comes back when its firmware restarts. `sprd_pci_ep_dev_backup` copies
the BARs of the device into an area that outlives it, `sprd_pci_ep_dev_restore` copies them into the
next device and programs their regions again. Both skip a BAR whose `src_addr` is 0.

An entry that was saved is thus never cleared: what is unmapped between two backups comes back.
And a BAR that the IPA gave back keeps its `src_addr`, so that it is programmed again.
-/

namespace Wwan.Pcie

open Wwan

/-- The BARs in `struct sprd_pci_ep_dev_save`. -/
structure EpSave where
  barRes : Bar → Bool
  entry : Bar → BarEntry

/-- `g_ep_save` before the first backup. -/
def EpSave.zeroed : EpSave := ⟨fun _ ↦ false, fun _ ↦ .empty⟩

/-- `sprd_pci_ep_dev_backup`. -/
def EpSave.backup (save : EpSave) (dev : EpDev) : EpSave where
  barRes := dev.barRes
  entry i := if (dev.entry i).srcAddr = 0 then save.entry i else dev.entry i

namespace EpState

/-- One pass of the loop of `sprd_pci_ep_dev_restore`; that the region is not enabled is only
logged. -/
def restoreBar (save : EpSave) (enabled : Bar → Nat → Bool) (s : EpState) (i : Bar) : EpState :=
  if (save.entry i).srcAddr = 0 then s
  else
    let s := s.setEntry i (save.entry i)
    (s.justMapBar i (s.dev.entry i).targetAddr (enabled i)).2

/-- `sprd_pci_ep_dev_restore`. -/
def restore (save : EpSave) (enabled : Bar → Nat → Bool) (s : EpState) : EpState :=
  (List.finRange barMax).foldl (restoreBar save enabled)
    { s with dev := { s.dev with barRes := save.barRes } }

/-- The BARs with a mapping after a call: a map that does not fail adds the BAR it took, an unmap
takes its BAR away. -/
def mappedAfter (s : EpState) (mapped : Bar → Bool) : Call → Bar → Bool
  | .mapMemory a n env =>
    match s.target a n with
    | some (bar, _, _) =>
      if (s.mapMemory a n env).1 = 0 then mapped else Function.update mapped bar true
    | none => mapped
  | .unmapMemory addr =>
    match s.cpuVirBar addr with
    | some bar =>
      if (s.dev.entry bar).barVir = 0 then mapped else Function.update mapped bar false
    | none => mapped
  | .ipaMap a n env =>
    match s.target a n with
    | some (bar, _, _) =>
      if (s.ipaMap a n env).1 = 0 then mapped else Function.update mapped bar true
    | none => mapped
  | .ipaUnmap addr =>
    match s.srcAddrBar addr with
    | some bar => Function.update mapped bar false
    | none => mapped

/-- The driver after a call. -/
def exec (s : EpState) : Call → EpState
  | .mapMemory a n env => (s.mapMemory a n env).2
  | .unmapMemory addr => s.unmapMemory addr
  | .ipaMap a n env => (s.ipaMap a n env).2
  | .ipaUnmap addr => (s.ipaUnmap addr).2

end EpState

/-! ## The life of the endpoint -/

/-- What there was at a backup. -/
structure Snapshot where
  barRes : Bar → Bool
  entry : Bar → BarEntry
  /-- The BARs that had a mapping. -/
  mapped : Bar → Bool
  /-- The saved area that the backup found. -/
  save : EpSave

/-- The driver over the devices that come and go. -/
structure Endpoint where
  /-- `g_ep_dev`. -/
  dev : Option EpDev
  /-- `g_ep_save`. -/
  save : EpSave
  areas : List Nat
  iatu : Bar → Option Nat
  /-- The BARs of the device that have a mapping. -/
  mapped : Bar → Bool
  /-- The last backup. -/
  last : Option Snapshot

/-- What happens to the endpoint. -/
inductive EpStep
  | /-- One of the calls that map and unmap. -/
    call (c : Call)
  | /-- `sprd_ep_dev_set_backup`. -/
    setBackup
  | /-- `sprd_ep_dev_clear_backup`. -/
    clearBackup
  | /-- `sprd_pci_ep_dev_probe` of a device with these BARs: `enabled` is what the restore polls,
    `legacy` what the mapping of the legacy register gets where there are too few MSIs. -/
    probe (bars : Bar → Option Window) (enabled : Bar → Nat → Bool) (legacy : Option MapEnv)
  | /-- `sprd_pci_ep_dev_remove`. -/
    remove

namespace Endpoint

variable (p : Endpoint)

/-- The device with what the driver changes outside of it. -/
def state (dev : EpDev) : EpState := ⟨dev, p.areas, p.iatu⟩

/-- The driver when the device is `s.dev`. -/
def withState (s : EpState) : Endpoint :=
  { p with dev := some s.dev, areas := s.areas, iatu := s.iatu }

/-- A backup of the device. -/
def backup (dev : EpDev) : Endpoint :=
  { p with
    save := p.save.backup dev
    last := some ⟨dev.barRes, dev.entry, p.mapped, p.save⟩ }

/-- A call, which does nothing while there is no device. -/
def call (c : Call) : Endpoint :=
  match p.dev with
  | none => p
  | some dev =>
    { p.withState ((p.state dev).exec c) with mapped := (p.state dev).mappedAfter p.mapped c }

/-- `sprd_ep_dev_set_backup`. -/
def setBackup : Endpoint :=
  match p.dev with
  | none => p
  | some dev =>
    let dev := { dev with needBackup := true }
    { p with dev := some dev }.backup dev

/-- `sprd_ep_dev_clear_backup`. -/
def clearBackup : Endpoint :=
  match p.dev with
  | none => p
  | some dev => { p with dev := some { dev with needBackup := false } }

/-- The device that `sprd_pci_ep_dev_restore` leaves in a probe. -/
def restored (bars : Bar → Option Window) (enabled : Bar → Nat → Bool) : EpState :=
  (p.state (.zeroed bars)).restore p.save enabled

/-- `PCIE_LEGACY_CLEAR_BASE`. -/
def pcieLegacyClearBase : Nat := 0x29000000

/-- `legacy_addr` is mapped after the restore where there are too few MSIs. -/
def mapLegacy (legacy : Option MapEnv) : Endpoint :=
  match p.dev, legacy with
  | some dev, some env =>
    let p' := p.call (.mapMemory pcieLegacyClearBase 0x4000 env)
    let ret := (p.state dev).mapMemory pcieLegacyClearBase 0x4000 env
    { p' with dev := p'.dev.map fun dev ↦ { dev with legacyAddr := ret.1 } }
  | _, _ => p

/-- `sprd_pci_ep_dev_probe`; without the bars 1 and 3 nothing is restored. -/
def probe (bars : Bar → Option Window) (enabled : Bar → Nat → Bool) (legacy : Option MapEnv) :
    Endpoint :=
  if (bars 1).isSome ∧ (bars 3).isSome then
    { p.withState (p.restored bars enabled) with
      mapped := fun bar ↦ (p.save.entry bar).srcAddr ≠ 0 }.mapLegacy legacy
  else
    { p.withState (p.state (.zeroed bars)) with mapped := fun _ ↦ false }.mapLegacy legacy

/-- `sprd_pci_ep_dev_remove`. -/
def remove : Endpoint :=
  match p.dev with
  | none => p
  | some dev =>
    let p := if dev.needBackup then p.backup dev else p
    let p := if dev.legacyAddr ≠ 0 then p.call (.unmapMemory dev.legacyAddr) else p
    { p with dev := none, mapped := fun _ ↦ false }

/-- The driver after a step. -/
def next : EpStep → Endpoint
  | .call c => p.call c
  | .setBackup => p.setBackup
  | .clearBackup => p.clearBackup
  | .probe bars enabled legacy => p.probe bars enabled legacy
  | .remove => p.remove

/-- A device is probed when there is none. -/
def Enabled : EpStep → Prop
  | .probe _ _ _ => p.dev.isNone
  | _ => True

instance decidableEnabled : ∀ e, Decidable (p.Enabled e)
  | .call _ => .isTrue trivial
  | .setBackup => .isTrue trivial
  | .clearBackup => .isTrue trivial
  | .probe _ _ _ => inferInstanceAs (Decidable (p.dev.isNone = true))
  | .remove => .isTrue trivial

/-- The driver from its start. -/
def system : System Endpoint EpStep where
  init := ⟨none, .zeroed, [], fun _ ↦ none, fun _ ↦ false, none⟩
  enabled := Enabled
  next := next

/-- The restore of the next device gives back the BARs of the snapshot, and it programs the regions
of those that had a mapping and no others, whatever the regions held. -/
def Reproduces (snap : Snapshot) : Prop :=
  ∀ bars enabled iatu, let s := { p with iatu := iatu }.restored bars enabled
    s.dev.barRes = snap.barRes ∧ s.dev.entry = snap.entry ∧
      ∀ bar, s.iatu bar =
        if snap.mapped bar then some (snap.entry bar).targetAddr else iatu bar

end Endpoint

/-- At the backup no BAR without a bus address had one in the saved area, and each BAR with one had
a mapping. -/
def Snapshot.Current (snap : Snapshot) : Prop :=
  ∀ bar, if (snap.entry bar).srcAddr = 0 then (snap.save.entry bar).srcAddr = 0
    else snap.mapped bar = true

instance (snap : Snapshot) : Decidable snap.Current :=
  inferInstanceAs (Decidable (∀ bar,
    if (snap.entry bar).srcAddr = 0 then (snap.save.entry bar).srcAddr = 0
    else snap.mapped bar = true))

/-! ## What a step keeps -/

namespace EpState

variable {s : EpState} {bar : Bar} {a n addr : Nat} {env : MapEnv}

theorem mapBar_cases (s : EpState) (bar : Bar) (a n : Nat) (env : MapEnv) :
    (s.mapBar bar a n env).1 = 0 ∧ (s.mapBar bar a n env).2.dev = s.dev ∨
      ∃ res r, s.dev.bar bar = some res ∧ adjustRegion res a n = some r ∧
        (s.dev.entry bar).barVir = 0 ∧ env.ioremap ≠ 0 ∧ pollIatu env.enabled := by
  by_cases hvir : (s.dev.entry bar).barVir = 0
  · cases hres : s.dev.bar bar with
    | none => exact .inl (by simp [mapBar, hvir, hres])
    | some res =>
      cases hr : adjustRegion res a n with
      | none => exact .inl (by simp [mapBar, hvir, hres, hr])
      | some r =>
        by_cases hio : env.ioremap = 0
        · exact .inl (by simp [mapBar, hvir, hres, hr, hio])
        · by_cases hpoll : pollIatu env.enabled
          · exact .inr ⟨res, r, rfl, hr, hvir, hio, hpoll⟩
          · left
            simp [mapBar, hvir, hres, hr, hio, justMapBar, hpoll, einval, iounmap, ioremap]
  · exact .inl (by simp [mapBar, hvir])

/-- A memory map that fails leaves the device as it was, though it may keep a remapping. -/
theorem mapMemory_cases (s : EpState) (a n : Nat) (env : MapEnv) :
    (s.mapMemory a n env).1 = 0 ∧ (s.mapMemory a n env).2.dev = s.dev ∨
      ∃ bar res r, s.target a n = some (bar, res, r) ∧ (s.dev.entry bar).barVir = 0 ∧
        env.ioremap ≠ 0 ∧ pollIatu env.enabled := by
  cases hfree : s.freeBar with
  | none =>
    rw [mapMemory_of_none hfree]
    exact .inl ⟨rfl, rfl⟩
  | some bar =>
    rcases mapBar_cases (s.setBit bar) bar a n env with
      ⟨hzero, hdev⟩ | ⟨res, r, hres, hr, hvir, hio, hpoll⟩
    · have hput := congrArg EpState.dev (putBar_setBit (freeBar_spec hfree).2)
      left
      simpa [mapMemory, getBar, hfree, hzero, putBar, hdev] using hput
    · exact .inr ⟨bar, res, r, target_eq_some.mpr ⟨hfree, hres, hr⟩, hvir, hio, hpoll⟩

/-- A map for the IPA that fails may keep its BAR, but writes no entry. -/
theorem ipaMap_cases (s : EpState) (a n : Nat) (env : MapEnv) :
    (s.ipaMap a n env).1 = 0 ∧ (s.ipaMap a n env).2.dev.entry = s.dev.entry ∨
      ∃ bar res r, s.target a n = some (bar, res, r) ∧ pollIatu env.enabled := by
  cases hfree : s.freeBar with
  | none =>
    rw [ipaMap_of_none a n env hfree]
    exact .inl ⟨rfl, rfl⟩
  | some bar =>
    obtain ⟨⟨res, hres⟩, -⟩ := freeBar_spec hfree
    cases hr : adjustRegion res a n with
    | none => exact .inl (by simp [ipaMap, getBar, hfree, setBit, hres, hr])
    | some r =>
      by_cases hpoll : pollIatu env.enabled
      · exact .inr ⟨bar, res, r, target_eq_some.mpr ⟨hfree, hres, hr⟩, hpoll⟩
      · left
        simp [ipaMap, getBar, hfree, setBit, hres, hr, justMapBar, hpoll, einval]

/-- A BAR without a bus address has an empty entry and no mapping. -/
def Tidy (entry : Bar → BarEntry) (mapped : Bar → Bool) : Prop :=
  ∀ bar, (entry bar).srcAddr = 0 → entry bar = .empty ∧ mapped bar = false

theorem Tidy.update {entry : Bar → BarEntry} {mapped : Bar → Bool} (h : Tidy entry mapped)
    {e : BarEntry} {x : Bool} (he : e.srcAddr = 0 → e = .empty ∧ x = false) :
    Tidy (Function.update entry bar e) (Function.update mapped bar x) := by
  intro bar'
  obtain rfl | hne := eq_or_ne bar' bar
  · simpa using he
  · simpa [hne] using h bar'

variable {mapped : Bar → Bool}

section Tidy

variable (h : Tidy s.dev.entry mapped)

include h

theorem Tidy.mapMemory :
    Tidy (s.mapMemory a n env).2.dev.entry (s.mappedAfter mapped (.mapMemory a n env)) := by
  rcases mapMemory_cases s a n env with ⟨hzero, hdev⟩ | ⟨bar, res, r, htarget, hvir, hio, hpoll⟩
  · have hmapped : s.mappedAfter mapped (.mapMemory a n env) = mapped := by
      rw [mappedAfter]
      split <;> simp [hzero]
    rw [hmapped, hdev]
    exact h
  · have hmap := mapMemory_succeeds htarget hvir hio hpoll
    have hassigned := res.assigned
    have hmapped :
        s.mappedAfter mapped (.mapMemory a n env) = Function.update mapped bar true := by
      simp only [mappedAfter, htarget, hmap]
      exact if_neg (by omega)
    rw [hmapped, hmap]
    exact h.update (by intro hsrc; simp only at hsrc; omega)

theorem Tidy.ipaMap :
    Tidy (s.ipaMap a n env).2.dev.entry (s.mappedAfter mapped (.ipaMap a n env)) := by
  rcases ipaMap_cases s a n env with ⟨hzero, hentry⟩ | ⟨bar, res, r, htarget, hpoll⟩
  · have hmapped : s.mappedAfter mapped (.ipaMap a n env) = mapped := by
      rw [mappedAfter]
      split <;> simp [hzero]
    rw [hmapped, hentry]
    exact h
  · have hmap := ipaMap_succeeds htarget hpoll
    have hassigned := res.assigned
    have hmapped : s.mappedAfter mapped (.ipaMap a n env) = Function.update mapped bar true := by
      simp only [mappedAfter, htarget, hmap]
      exact if_neg (by omega)
    rw [hmapped, hmap]
    exact h.update (by intro hsrc; simp only at hsrc; omega)

theorem Tidy.unmapMemory :
    Tidy (s.unmapMemory addr).dev.entry (s.mappedAfter mapped (.unmapMemory addr)) := by
  cases hfound : s.cpuVirBar addr with
  | none => simpa [EpState.unmapMemory, mappedAfter, hfound] using h
  | some bar =>
    by_cases hvir : (s.dev.entry bar).barVir = 0
    · simp only [unmapMemory_of_null hfound hvir, mappedAfter, hfound, if_pos hvir]
      exact h
    · simp only [unmapMemory_of_found hfound hvir, mappedAfter, hfound, if_neg hvir]
      exact h.update fun _ ↦ ⟨rfl, rfl⟩

theorem Tidy.ipaUnmap :
    Tidy (s.ipaUnmap addr).2.dev.entry (s.mappedAfter mapped (.ipaUnmap addr)) := by
  cases hfound : s.srcAddrBar addr with
  | none => simpa [EpState.ipaUnmap, mappedAfter, hfound] using h
  | some bar =>
    simp only [EpState.ipaUnmap, mappedAfter, hfound]
    refine h.update fun hsrc ↦ ⟨?_, rfl⟩
    rw [(h bar hsrc).1]
    rfl

theorem Tidy.exec (c : Call) : Tidy (s.exec c).dev.entry (s.mappedAfter mapped c) := by
  cases c with
  | mapMemory a n env => exact h.mapMemory
  | unmapMemory addr => exact h.unmapMemory
  | ipaMap a n env => exact h.ipaMap
  | ipaUnmap addr => exact h.ipaUnmap

end Tidy

/-! ## The restore -/

variable {save : EpSave} {enabled : Bar → Nat → Bool}

/-- The restore of one BAR leaves the others alone. -/
theorem restoreBar_spec (s : EpState) (i bar : Bar) :
    (s.restoreBar save enabled i).dev.barRes = s.dev.barRes ∧
      (s.restoreBar save enabled i).dev.entry bar =
        (if bar = i ∧ (save.entry bar).srcAddr ≠ 0 then save.entry bar else s.dev.entry bar) ∧
      (s.restoreBar save enabled i).iatu bar =
        if bar = i ∧ (save.entry bar).srcAddr ≠ 0 then some (save.entry bar).targetAddr
        else s.iatu bar := by
  by_cases hsrc : (save.entry i).srcAddr = 0
  · have hnot : ¬ (bar = i ∧ (save.entry bar).srcAddr ≠ 0) := by
      rintro ⟨rfl, hne⟩
      exact hne hsrc
    simp [restoreBar, hsrc, hnot]
  · obtain rfl | hne := eq_or_ne bar i
    · simp [restoreBar, hsrc, setEntry, justMapBar]
    · simp [restoreBar, hsrc, setEntry, justMapBar, hne]

theorem foldl_restoreBar (s : EpState) (is : List Bar) (bar : Bar) :
    (is.foldl (restoreBar save enabled) s).dev.barRes = s.dev.barRes ∧
      (is.foldl (restoreBar save enabled) s).dev.entry bar =
        (if bar ∈ is ∧ (save.entry bar).srcAddr ≠ 0 then save.entry bar else s.dev.entry bar) ∧
      (is.foldl (restoreBar save enabled) s).iatu bar =
        if bar ∈ is ∧ (save.entry bar).srcAddr ≠ 0 then some (save.entry bar).targetAddr
        else s.iatu bar := by
  induction is generalizing s with
  | nil => simp
  | cons i is ih =>
    obtain ⟨hres, hentry, hiatu⟩ := ih (s.restoreBar save enabled i)
    obtain ⟨hres', hentry', hiatu'⟩ := restoreBar_spec s i bar
    rw [hentry'] at hentry
    rw [hiatu'] at hiatu
    refine ⟨hres.trans hres', hentry.trans ?_, hiatu.trans ?_⟩
    · by_cases hsrc : (save.entry bar).srcAddr = 0
      · simp only [hsrc, ne_eq, not_true_eq_false, and_false, if_false]
      · simp only [ne_eq, hsrc, not_false_eq_true, and_true, List.mem_cons,
          or_comm (a := bar = i), ite_or]
    · by_cases hsrc : (save.entry bar).srcAddr = 0
      · simp only [hsrc, ne_eq, not_true_eq_false, and_false, if_false]
      · simp only [ne_eq, hsrc, not_false_eq_true, and_true, List.mem_cons,
          or_comm (a := bar = i), ite_or]

/-- What a restore leaves: the bits of the saved area, and of its entries those that have a bus
address, with their regions programmed. -/
theorem restore_spec (s : EpState) (save : EpSave) (enabled : Bar → Nat → Bool) (bar : Bar) :
    (s.restore save enabled).dev.barRes = save.barRes ∧
      (s.restore save enabled).dev.entry bar =
        (if (save.entry bar).srcAddr = 0 then s.dev.entry bar else save.entry bar) ∧
      (s.restore save enabled).iatu bar =
        if (save.entry bar).srcAddr = 0 then s.iatu bar
        else some (save.entry bar).targetAddr := by
  obtain ⟨hres, hentry, hiatu⟩ := @foldl_restoreBar save enabled
    { s with dev := { s.dev with barRes := save.barRes } } (List.finRange barMax) bar
  refine ⟨hres, hentry.trans ?_, hiatu.trans ?_⟩ <;>
    by_cases hsrc : (save.entry bar).srcAddr = 0 <;> simp [hsrc]

end EpState

/-! ## Every run -/

namespace Endpoint

open EpState (Tidy)

variable {p : Endpoint}

/-- The device is tidy, and the saved area is what the last backup made of the one it found. -/
structure Inv (p : Endpoint) : Prop where
  device : ∀ dev ∈ p.dev, Tidy dev.entry p.mapped
  snapshot : ∀ snap ∈ p.last, Tidy snap.entry snap.mapped ∧ p.save.barRes = snap.barRes ∧
    ∀ bar, p.save.entry bar =
      if (snap.entry bar).srcAddr = 0 then snap.save.entry bar else snap.entry bar

theorem Inv.call (hp : p.Inv) (c : Call) : (p.call c).Inv := by
  rw [Endpoint.call]
  cases hdev : p.dev with
  | none => exact hp
  | some dev =>
    refine ⟨?_, hp.snapshot⟩
    rintro dev' ⟨⟩
    exact Tidy.exec (s := p.state dev) (hp.device dev hdev) c

theorem Inv.backup {dev : EpDev} (hp : p.Inv) (hdev : Tidy dev.entry p.mapped) :
    (p.backup dev).Inv := by
  refine ⟨hp.device, ?_⟩
  rintro snap ⟨⟩
  exact ⟨hdev, rfl, fun bar ↦ rfl⟩

/-- The flag and the legacy address say nothing about the BARs. -/
theorem Inv.withDev (dev : EpDev) (hp : p.Inv) (hdev : Tidy dev.entry p.mapped) :
    { p with dev := some dev }.Inv := by
  refine ⟨?_, hp.snapshot⟩
  rintro dev' ⟨⟩
  exact hdev

theorem Inv.setBackup (hp : p.Inv) : p.setBackup.Inv := by
  rw [Endpoint.setBackup]
  cases hdev : p.dev with
  | none => exact hp
  | some dev =>
    have htidy := hp.device dev hdev
    exact (hp.withDev { dev with needBackup := true } htidy).backup htidy

theorem Inv.clearBackup (hp : p.Inv) : p.clearBackup.Inv := by
  rw [Endpoint.clearBackup]
  cases hdev : p.dev with
  | none => exact hp
  | some dev => exact hp.withDev _ (hp.device dev hdev)

theorem Inv.mapLegacy (hp : p.Inv) (legacy : Option MapEnv) : (p.mapLegacy legacy).Inv := by
  unfold Endpoint.mapLegacy
  split
  next dev env hdev =>
    have hcall := hp.call (.mapMemory pcieLegacyClearBase 0x4000 env)
    refine ⟨?_, hcall.snapshot⟩
    intro dev' hdev'
    obtain ⟨dev'', hdev'', rfl⟩ := Option.map_eq_some_iff.mp hdev'
    exact hcall.device dev'' hdev''
  next => exact hp

theorem tidy_restored (bars : Bar → Option Window) (enabled : Bar → Nat → Bool) :
    Tidy (p.restored bars enabled).dev.entry fun bar ↦ (p.save.entry bar).srcAddr ≠ 0 := by
  intro bar hsrc
  have hentry := (EpState.restore_spec (p.state (.zeroed bars)) p.save enabled bar).2.1
  rw [restored, hentry] at hsrc ⊢
  by_cases hsave : (p.save.entry bar).srcAddr = 0
  · simp [hsave, state, EpDev.zeroed]
  · rw [if_neg hsave] at hsrc
    exact absurd hsrc hsave

theorem Inv.probe (hp : p.Inv) (bars : Bar → Option Window) (enabled : Bar → Nat → Bool)
    (legacy : Option MapEnv) : (p.probe bars enabled legacy).Inv := by
  rw [Endpoint.probe]
  split
  next =>
    apply Inv.mapLegacy
    refine ⟨?_, hp.snapshot⟩
    rintro dev ⟨⟩
    exact tidy_restored bars enabled
  next =>
    apply Inv.mapLegacy
    refine ⟨?_, hp.snapshot⟩
    rintro dev ⟨⟩
    exact fun bar _ ↦ ⟨rfl, rfl⟩

theorem Inv.remove (hp : p.Inv) : p.remove.Inv := by
  rw [Endpoint.remove]
  cases hdev : p.dev with
  | none => exact hp
  | some dev =>
    have hbackup : (if dev.needBackup then p.backup dev else p).Inv := by
      split
      · exact hp.backup (hp.device dev hdev)
      · exact hp
    have hlegacy := hbackup.call (.unmapMemory dev.legacyAddr)
    constructor
    · rintro dev' ⟨⟩
    · by_cases haddr : dev.legacyAddr = 0
      · simpa [haddr] using hbackup.snapshot
      · simpa [haddr] using hlegacy.snapshot

theorem Inv.next (hp : p.Inv) (e : EpStep) : (p.next e).Inv := by
  cases e with
  | call c => exact hp.call c
  | setBackup => exact hp.setBackup
  | clearBackup => exact hp.clearBackup
  | probe bars enabled legacy => exact hp.probe bars enabled legacy
  | remove => exact hp.remove

theorem inv_of_reach {guard : Endpoint → EpStep → Prop} (h : system.Reach guard p) : p.Inv :=
  h.invariant ⟨by rintro dev ⟨⟩, by rintro snap ⟨⟩⟩ fun _ e hp _ _ ↦ hp.next e

instance (p : Endpoint) (e : EpStep) : Decidable (system.enabled p e) := decidableEnabled p e

/-- A device whose memory is mapped, and backed up when it goes away. -/
def restarting : List EpStep :=
  [.probe Bars.fourBars (fun _ _ ↦ true) none,
    .call (.mapMemory 0x87801200 0x2000 ⟨0xffff0000, fun _ ↦ true⟩),
    .setBackup,
    .call (.ipaMap 0x2e000000 0x2000 ⟨0, fun _ ↦ true⟩),
    .remove]

/-- A device whose memory is given back after it was backed up once. -/
def unmapping : List EpStep :=
  [.probe Bars.fourBars (fun _ _ ↦ true) none,
    .call (.mapMemory 0x87801200 0x2000 ⟨0xffff0000, fun _ ↦ true⟩),
    .setBackup,
    .call (.unmapMemory 0x1007f1200),
    .remove]

/-- A device whose mapping for the IPA is given back before it is backed up. -/
def leaving : List EpStep :=
  [.probe Bars.fourBars (fun _ _ ↦ true) none,
    .call (.ipaMap 0x2e000000 0x2000 ⟨0, fun _ ↦ true⟩),
    .call (.ipaUnmap 0xc0000000),
    .setBackup,
    .remove]

end Endpoint

end Wwan.Pcie
