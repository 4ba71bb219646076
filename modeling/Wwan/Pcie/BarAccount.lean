import Wwan.Lib.Transition
import Wwan.Pcie.EpDevice

/-!
# The account of the BARs

A BAR should be taken exactly while a caller holds an address in its window. `Bars` keeps next to
the driver what the callers hold: a mapping is handed out by a map that does not fail and is given
back by an unmap of its address.

Four steps break the account: `sprd_ep_ipa_unmap` of a recorded address, which keeps the BAR; a
map for the IPA that fails after it took a BAR, which keeps it too; a memory map whose region is
never enabled, which leaks what it remapped; and an unmap of `NULL` where the first BAR without a
pointer is one that the IPA uses, which gives this BAR away.
-/

namespace Wwan.Pcie

open Wwan

variable {s : EpState} {bar : Bar} {res : Window} {r : Region} {a n addr : Nat} {env : MapEnv}

/-! ## What the calls do -/

namespace EpState

/-- The BAR a map takes, its window, and where the range lies in it. -/
def target (s : EpState) (cpuAddr size : Nat) : Option (Bar × Window × Region) := do
  let bar ← s.freeBar
  let res ← s.dev.bar bar
  let r ← adjustRegion res cpuAddr size
  return (bar, res, r)

theorem freeBar_spec (h : s.freeBar = some bar) :
    (∃ res, s.dev.bar bar = some res) ∧ s.dev.barRes bar = false := by
  have hfound := List.find?_some h
  simp only [Bool.and_eq_true, Bool.not_eq_true', Option.isSome_iff_exists] at hfound
  exact hfound

/-- A BAR is found as long as one is free. -/
theorem freeBar_isSome (hbar : (s.dev.bar bar).isSome) (hfree : s.dev.barRes bar = false) :
    s.freeBar.isSome := by
  rw [freeBar, List.find?_isSome]
  exact ⟨bar, List.mem_finRange bar, by simp [hbar, hfree]⟩

theorem target_eq_some :
    s.target a n = some (bar, res, r) ↔
      s.freeBar = some bar ∧ s.dev.bar bar = some res ∧ adjustRegion res a n = some r := by
  simp only [target, Option.bind_eq_bind, Option.pure_def, Option.bind_eq_some_iff,
    Option.some.injEq, Prod.mk.injEq]
  constructor
  · rintro ⟨bar', hfree, res', hres, r', hr, rfl, rfl, rfl⟩
    exact ⟨hfree, hres, hr⟩
  · rintro ⟨hfree, hres, hr⟩
    exact ⟨bar, hfree, res, hres, r, hr, rfl, rfl, rfl⟩

/-- A BAR that is put after it was taken leaves no trace. -/
theorem putBar_setBit (hfree : s.dev.barRes bar = false) : (s.setBit bar).putBar bar = s := by
  have hres : Function.update s.dev.barRes bar false = s.dev.barRes := by
    rw [← hfree, Function.update_eq_self]
  simp [putBar, setBit, hres]

theorem mapMemory_of_none (h : s.freeBar = none) : s.mapMemory a n env = (0, s) := by
  simp [mapMemory, getBar, h]

/-- A memory map that gets no region or no CPU address changes nothing. -/
theorem mapMemory_fails (hvir : ∀ bar, s.freeBar = some bar → (s.dev.entry bar).barVir = 0)
    (h : s.target a n = none ∨ env.ioremap = 0) : s.mapMemory a n env = (0, s) := by
  cases hfree : s.freeBar with
  | none => exact mapMemory_of_none hfree
  | some bar =>
    obtain ⟨⟨res, hres⟩, hbit⟩ := freeBar_spec hfree
    have hmap : (s.setBit bar).mapBar bar a n env = (0, s.setBit bar) := by
      cases hr : adjustRegion res a n with
      | none => simp [mapBar, setBit, hvir bar hfree, hres, hr]
      | some r =>
        have htarget : s.target a n = some (bar, res, r) := target_eq_some.mpr ⟨hfree, hres, hr⟩
        have hio : env.ioremap = 0 := by simpa [htarget] using h
        simp [mapBar, setBit, hvir bar hfree, hres, hr, hio]
    simp [mapMemory, getBar, hfree, hmap, putBar_setBit hbit]

/-- A memory map that succeeds. -/
theorem mapMemory_succeeds (htarget : s.target a n = some (bar, res, r))
    (hvir : (s.dev.entry bar).barVir = 0) (hio : env.ioremap ≠ 0) (hpoll : pollIatu env.enabled) :
    s.mapMemory a n env =
      (env.ioremap + r.offset,
        { dev := { s.dev with
            barRes := Function.update s.dev.barRes bar true
            entry := Function.update s.dev.entry bar
              ⟨env.ioremap, env.ioremap + r.offset, res.start + r.offset, r.cpuAddr, r.size⟩ }
          areas := env.ioremap :: s.areas
          iatu := Function.update s.iatu bar (some r.cpuAddr) }) := by
  obtain ⟨hfree, hres, hr⟩ := target_eq_some.mp htarget
  simp [mapMemory, getBar, hfree, mapBar, setBit, hvir, hres, hr, hio, ioremap, justMapBar, hpoll,
    setEntry]

/-- A map for the IPA that succeeds. -/
theorem ipaMap_succeeds (htarget : s.target a n = some (bar, res, r))
    (hpoll : pollIatu env.enabled) :
    s.ipaMap a n env =
      (res.start + r.offset,
        { dev := { s.dev with
            barRes := Function.update s.dev.barRes bar true
            entry := Function.update s.dev.entry bar
              { s.dev.entry bar with
                srcAddr := res.start + r.offset, targetAddr := r.cpuAddr, mapSize := r.size } }
          areas := s.areas
          iatu := Function.update s.iatu bar (some r.cpuAddr) }) := by
  obtain ⟨hfree, hres, hr⟩ := target_eq_some.mp htarget
  simp [ipaMap, getBar, hfree, setBit, hres, hr, justMapBar, hpoll, setEntry]

theorem ipaMap_of_none (a n : Nat) (env : MapEnv) (h : s.freeBar = none) :
    s.ipaMap a n env = (0, s) := by
  simp [ipaMap, getBar, h]

/-- An unmap of a pointer that is recorded. -/
theorem unmapMemory_of_found (hfound : s.cpuVirBar addr = some bar)
    (hvir : (s.dev.entry bar).barVir ≠ 0) :
    s.unmapMemory addr =
      { dev := { s.dev with
          barRes := Function.update s.dev.barRes bar false
          entry := Function.update s.dev.entry bar .empty }
        areas := s.areas.erase (s.dev.entry bar).barVir
        iatu := Function.update s.iatu bar none } := by
  simp [unmapMemory, hfound, unmapBar, hvir, justUnmapBar, iounmap, setEntry, putBar]

/-- An unmap that stops at a BAR with nothing to unmap only puts the BAR. -/
theorem unmapMemory_of_null (hfound : s.cpuVirBar addr = some bar)
    (hvir : (s.dev.entry bar).barVir = 0) : s.unmapMemory addr = s.putBar bar := by
  simp [unmapMemory, hfound, unmapBar, hvir]

end EpState

/-! ## What the callers hold -/

/-- Who a mapping was made for. -/
inductive Kind
  | /-- The CPU, by `sprd_ep_map_memory`. -/
    memory
  | /-- The IPA, by `sprd_ep_ipa_map`. -/
    ipa
  deriving DecidableEq

/-- A mapping that was handed out. -/
structure Mapping where
  kind : Kind
  /-- The address the caller got. -/
  addr : Nat
  srcAddr : Nat
  targetAddr : Nat
  mapSize : Nat
  deriving DecidableEq

/-- The entry records the addresses and the size of the mapping. -/
def Mapping.Recorded (m : Mapping) (e : BarEntry) : Prop :=
  e.srcAddr = m.srcAddr ∧ e.targetAddr = m.targetAddr ∧ e.mapSize = m.mapSize

/-- The calls on the endpoint. -/
inductive Call
  | /-- `sprd_ep_map_memory`. -/
    mapMemory (cpuAddr size : Nat) (env : MapEnv)
  | /-- `sprd_ep_unmap_memory`. -/
    unmapMemory (addr : Nat)
  | /-- `sprd_ep_ipa_map`. -/
    ipaMap (targetAddr size : Nat) (env : MapEnv)
  | /-- `sprd_ep_ipa_unmap`. -/
    ipaUnmap (addr : Nat)

/-- The driver, and the mappings each BAR carries for the callers. -/
structure Bars where
  ep : EpState
  live : Bar → List Mapping

namespace Bars

variable (b : Bars)

/-- What is held after a map returned `addr`, which is 0 if it failed. -/
def handOut (kind : Kind) (cpuAddr size addr : Nat) : Bar → List Mapping :=
  match b.ep.target cpuAddr size with
  | some (bar, res, r) =>
    if addr = 0 then b.live
    else
      Function.update b.live bar
        (⟨kind, addr, res.start + r.offset, r.cpuAddr, r.size⟩ :: b.live bar)
  | none => b.live

/-- Whether a BAR carries a mapping of this kind and address. -/
def holds (kind : Kind) (addr : Nat) (bar : Bar) : Bool :=
  (b.live bar).any fun m ↦ m.kind = kind && m.addr = addr

/-- The BAR that carries the mapping of this kind and address. -/
def holder (kind : Kind) (addr : Nat) : Option Bar :=
  (List.finRange barMax).find? (b.holds kind addr)

/-- What is held after the address is given back. -/
def giveBack (kind : Kind) (addr : Nat) : Bar → List Mapping :=
  match b.holder kind addr with
  | some bar =>
    Function.update b.live bar
      ((b.live bar).eraseP fun m ↦ m.kind = kind && m.addr = addr)
  | none => b.live

/-- The driver and what is held after a call. -/
def next : Call → Bars
  | .mapMemory a n env =>
    ⟨(b.ep.mapMemory a n env).2, b.handOut .memory a n (b.ep.mapMemory a n env).1⟩
  | .unmapMemory addr => ⟨b.ep.unmapMemory addr, b.giveBack .memory addr⟩
  | .ipaMap a n env => ⟨(b.ep.ipaMap a n env).2, b.handOut .ipa a n (b.ep.ipaMap a n env).1⟩
  | .ipaUnmap addr => ⟨(b.ep.ipaUnmap addr).2, b.giveBack .ipa addr⟩

/-! ## The account -/

/-- A bit of `bar_res` is set exactly when the BAR carries one mapping, and this one is recorded. -/
def Accounted : Prop :=
  ∀ bar, (b.ep.dev.barRes bar = true ∧ ∃ m, b.live bar = [m] ∧ m.Recorded (b.ep.dev.entry bar)) ∨
    (b.ep.dev.barRes bar = false ∧ b.live bar = [])

/-- The BAR can be mapped again. -/
def Available (bar : Bar) : Prop :=
  b.ep.dev.barRes bar = false ∧ b.ep.dev.entry bar = .empty ∧ b.live bar = []

/-- As long as a memory BAR carries no mapping, a map takes a BAR that can be mapped. -/
def Serves : Prop :=
  ∀ bar, (b.ep.dev.bar bar).isSome → b.live bar = [] →
    ∃ bar', b.ep.freeBar = some bar' ∧ b.Available bar'

/-- A map that failed left `bar_res`, the entries and the live remappings as they were. -/
def Undone (s : EpState) (ret : Nat × EpState) : Prop :=
  ret.1 = 0 → ret.2.dev.barRes = s.dev.barRes ∧ ret.2.dev.entry = s.dev.entry ∧
    ret.2.areas = s.areas

/-- What is expected of a call: a failing map undoes what it did, an unmap of a live address makes
the BAR available. -/
def CallOk : Call → Prop
  | .mapMemory a n env => Undone b.ep (b.ep.mapMemory a n env)
  | .unmapMemory addr => ∀ bar, b.holder .memory addr = some bar →
      (b.next (.unmapMemory addr)).Available bar
  | .ipaMap a n env => Undone b.ep (b.ep.ipaMap a n env)
  | .ipaUnmap addr => ∀ bar, b.holder .ipa addr = some bar →
      (b.next (.ipaUnmap addr)).Available bar

/-- The calls that keep the account. -/
def Sound : Call → Prop
  | .mapMemory a n env =>
    (b.ep.target a n).isSome → env.ioremap ≠ 0 → pollIatu env.enabled
  | .unmapMemory addr => addr = 0 → ∀ bar ∈ b.ep.cpuVirBar 0, b.ep.dev.barRes bar = false
  | .ipaMap a n env =>
    b.ep.freeBar.isSome → (b.ep.target a n).isSome ∧ pollIatu env.enabled
  | .ipaUnmap addr => addr ≠ 0 → b.ep.srcAddrBar addr = none

instance decidableSound : ∀ c, Decidable (b.Sound c)
  | .mapMemory a n env =>
    inferInstanceAs (Decidable ((b.ep.target a n).isSome → env.ioremap ≠ 0 → pollIatu env.enabled))
  | .unmapMemory addr =>
    inferInstanceAs
      (Decidable (addr = 0 → ∀ bar ∈ b.ep.cpuVirBar 0, b.ep.dev.barRes bar = false))
  | .ipaMap a n env =>
    inferInstanceAs
      (Decidable (b.ep.freeBar.isSome → (b.ep.target a n).isSome ∧ pollIatu env.enabled))
  | .ipaUnmap addr => inferInstanceAs (Decidable (addr ≠ 0 → b.ep.srcAddrBar addr = none))

/-- Calls on a device that was just found. -/
def system (bars : Bar → Option Window) : System Bars Call where
  init := ⟨⟨.zeroed bars, [], fun _ ↦ none⟩, fun _ ↦ []⟩
  enabled := fun _ _ ↦ True
  next := next

instance decidableEnabled (bars : Bar → Option Window) (b : Bars) (c : Call) :
    Decidable ((system bars).enabled b c) := .isTrue trivial

/-- What the bit, the entry and the mappings of one BAR have to do with each other. -/
inductive Slot : Bool → BarEntry → List Mapping → Prop
  | free : Slot false .empty []
  | memory {va : Nat} {m : Mapping} (hkind : m.kind = .memory) (hva : va ≠ 0) (haddr : m.addr ≠ 0)
      (hsrc : m.srcAddr ≠ 0) : Slot true ⟨va, m.addr, m.srcAddr, m.targetAddr, m.mapSize⟩ [m]
  | ipa {m : Mapping} (hkind : m.kind = .ipa) (haddr : m.addr = m.srcAddr) (hsrc : m.srcAddr ≠ 0) :
      Slot true ⟨0, 0, m.srcAddr, m.targetAddr, m.mapSize⟩ [m]

/-- The invariant of the calls that keep the account. -/
def Inv : Prop := ∀ bar, Slot (b.ep.dev.barRes bar) (b.ep.dev.entry bar) (b.live bar)

variable {b}

namespace Slot

variable {x : Bool} {e : BarEntry} {l : List Mapping}

theorem eq_empty (h : Slot false e l) : e = .empty ∧ l = [] := by
  cases h with
  | free => exact ⟨rfl, rfl⟩

theorem eq_false (h : Slot x e []) : x = false := by
  cases h with
  | free => rfl

variable (h : Slot x e l)

include h

/-- Only a free BAR has no bus address. -/
theorem free_of_srcAddr (hsrc : e.srcAddr = 0) : x = false := by
  cases h with
  | free => rfl
  | memory _ _ _ hne => exact absurd hsrc hne
  | ipa _ _ hne => exact absurd hsrc hne

/-- The pointer of an entry is the one that the memory mapping of the BAR handed out. -/
theorem any_memory (haddr : addr ≠ 0) :
    (l.any fun m ↦ m.kind = .memory && m.addr = addr) = (addr == e.cpuVir) := by
  cases h with
  | free => simpa [BarEntry.empty] using haddr
  | memory hkind => simp [hkind, eq_comm, Bool.beq_eq_decide_eq]
  | ipa hkind => simp [hkind, haddr]

/-- Nobody holds a null pointer. -/
theorem any_memory_zero : (l.any fun m ↦ m.kind = .memory && m.addr = 0) = false := by
  cases h with
  | free => rfl
  | memory _ _ haddr => simp [haddr]
  | ipa hkind => simp [hkind]

/-- The address of a mapping for the IPA is recorded, and it is not 0. -/
theorem any_ipa (hsrc : addr ≠ 0 → addr ≠ e.srcAddr) :
    (l.any fun m ↦ m.kind = .ipa && m.addr = addr) = false := by
  cases h with
  | free => rfl
  | memory hkind => simp [hkind]
  | @ipa m hkind haddr hne =>
    by_cases h0 : addr = 0
    · simp [haddr, h0, hne]
    · simp [haddr, (hsrc h0).symm]

/-- A pointer that is recorded belongs to a memory mapping. -/
theorem memory_of_cpuVir (hcpu : e.cpuVir ≠ 0) :
    e.barVir ≠ 0 ∧ ∃ m, l = [m] ∧ m.kind = .memory ∧ m.addr = e.cpuVir := by
  cases h with
  | free => exact absurd rfl hcpu
  | @memory va m hkind hva haddr hsrc => exact ⟨hva, m, rfl, hkind, rfl⟩
  | ipa => exact absurd rfl hcpu

end Slot

/-- A call that changes one BAR keeps the invariant if it does at this BAR. -/
theorem Inv.update (hb : b.Inv) {b' : Bars} {x : Bool} {e : BarEntry} {l : List Mapping}
    (hres : b'.ep.dev.barRes = Function.update b.ep.dev.barRes bar x)
    (hentry : b'.ep.dev.entry = Function.update b.ep.dev.entry bar e)
    (hlive : b'.live = Function.update b.live bar l) (hslot : Slot x e l) : b'.Inv := by
  intro bar'
  rw [hres, hentry, hlive]
  obtain rfl | hne := eq_or_ne bar' bar
  · simpa using hslot
  · simpa [hne] using hb bar'

theorem Inv.entry_of_freeBar (hb : b.Inv) (hfree : b.ep.freeBar = some bar) :
    b.ep.dev.entry bar = .empty ∧ b.live bar = [] := by
  have hslot := hb bar
  rw [(EpState.freeBar_spec hfree).2] at hslot
  exact hslot.eq_empty

theorem Inv.accounted (hb : b.Inv) : b.Accounted := by
  intro bar
  have hslot := hb bar
  generalize b.ep.dev.barRes bar = x, b.ep.dev.entry bar = e, b.live bar = l at hslot
  cases hslot with
  | free => exact .inr ⟨rfl, rfl⟩
  | @memory va m => exact .inl ⟨rfl, m, rfl, rfl, rfl, rfl⟩
  | @ipa m => exact .inl ⟨rfl, m, rfl, rfl, rfl, rfl⟩

theorem Inv.serves (hb : b.Inv) : b.Serves := by
  intro bar hbar hlive
  have hslot := hb bar
  rw [hlive] at hslot
  obtain ⟨bar', hfree⟩ :=
    Option.isSome_iff_exists.mp (EpState.freeBar_isSome hbar hslot.eq_false)
  obtain ⟨hentry, hlive'⟩ := hb.entry_of_freeBar hfree
  exact ⟨bar', hfree, (EpState.freeBar_spec hfree).2, hentry, hlive'⟩

/-- A pointer is held where it is recorded. -/
theorem Inv.holder_memory (hb : b.Inv) (haddr : addr ≠ 0) :
    b.holder .memory addr = b.ep.cpuVirBar addr := by
  have hholds : b.holds .memory addr = fun bar ↦ addr == (b.ep.dev.entry bar).cpuVir := by
    funext bar
    exact (hb bar).any_memory haddr
  rw [holder, hholds, EpState.cpuVirBar]

theorem Inv.holder_null (hb : b.Inv) : b.holder .memory 0 = none := by
  rw [holder, List.find?_eq_none]
  intro bar _
  rw [Bool.not_eq_true]
  exact (hb bar).any_memory_zero

/-- A bus address that is not recorded is not held. -/
theorem Inv.holder_ipa (hb : b.Inv) (h : addr ≠ 0 → b.ep.srcAddrBar addr = none) :
    b.holder .ipa addr = none := by
  rw [holder, List.find?_eq_none]
  intro bar _
  have hne : addr ≠ 0 → addr ≠ (b.ep.dev.entry bar).srcAddr := by
    intro haddr
    simpa using List.find?_eq_none.mp (h haddr) bar (List.mem_finRange bar)
  simpa [holds] using (hb bar).any_ipa hne

theorem giveBack_of_none {kind : Kind} (h : b.holder kind addr = none) :
    b.giveBack kind addr = b.live := by
  rw [giveBack, h]

theorem handOut_of_failed {kind : Kind} : b.handOut kind a n 0 = b.live := by
  rw [handOut]
  split <;> rfl

theorem handOut_of_target (kind : Kind) (htarget : b.ep.target a n = some (bar, res, r))
    (haddr : addr ≠ 0) (hlive : b.live bar = []) :
    b.handOut kind a n addr =
      Function.update b.live bar [⟨kind, addr, res.start + r.offset, r.cpuAddr, r.size⟩] := by
  simp [handOut, htarget, haddr, hlive]

theorem undone_of_ne {ret : Nat × EpState} (h : ret.1 ≠ 0) : Undone s ret :=
  fun h0 ↦ absurd h0 h

/-! ## One call -/

theorem Inv.mapMemory (hb : b.Inv) (hsound : b.Sound (.mapMemory a n env)) :
    (b.next (.mapMemory a n env)).Inv ∧ b.CallOk (.mapMemory a n env) := by
  have hvir : ∀ bar, b.ep.freeBar = some bar → (b.ep.dev.entry bar).barVir = 0 := by
    intro bar hfree
    rw [(hb.entry_of_freeBar hfree).1]
    rfl
  by_cases hfails : b.ep.target a n = none ∨ env.ioremap = 0
  · have hmap := EpState.mapMemory_fails hvir hfails
    constructor
    · simpa [next, hmap, handOut_of_failed] using hb
    · simp [CallOk, Undone, hmap]
  · rw [not_or] at hfails
    obtain ⟨⟨bar, res, r⟩, htarget⟩ := Option.ne_none_iff_exists'.mp hfails.1
    have hfree := (EpState.target_eq_some.mp htarget).1
    have hpoll : pollIatu env.enabled := hsound (by simp [htarget]) hfails.2
    have hmap := EpState.mapMemory_succeeds htarget (hvir bar hfree) hfails.2 hpoll
    have haddr : env.ioremap + r.offset ≠ 0 := by omega
    constructor
    · have hlive := handOut_of_target .memory htarget haddr (hb.entry_of_freeBar hfree).2
      have hslot := Slot.memory
        (m := ⟨.memory, env.ioremap + r.offset, res.start + r.offset, r.cpuAddr, r.size⟩)
        rfl hfails.2 haddr (Nat.ne_of_gt (Nat.add_pos_left res.assigned _))
      exact hb.update (by rw [next, hmap]) (by rw [next, hmap]) (by rw [next, hmap, hlive]) hslot
    · exact undone_of_ne (by rw [hmap]; exact haddr)

theorem Inv.unmapMemory (hb : b.Inv) (hsound : b.Sound (.unmapMemory addr)) :
    (b.next (.unmapMemory addr)).Inv ∧ b.CallOk (.unmapMemory addr) := by
  by_cases haddr : addr = 0
  · -- nobody holds `NULL`, and what it frees is free already
    subst haddr
    have hstate : b.ep.unmapMemory 0 = b.ep := by
      cases hfound : b.ep.cpuVirBar 0 with
      | none => simp [EpState.unmapMemory, hfound]
      | some bar =>
        have hbit := hsound rfl bar hfound
        have hslot := hb bar
        rw [hbit] at hslot
        have hentry := hslot.eq_empty.1
        rw [EpState.unmapMemory_of_null hfound (by rw [hentry]; rfl)]
        have hres : Function.update b.ep.dev.barRes bar false = b.ep.dev.barRes := by
          rw [← hbit, Function.update_eq_self]
        simp [EpState.putBar, hres]
    constructor
    · simpa [next, hstate, giveBack_of_none hb.holder_null] using hb
    · simp [CallOk, hb.holder_null]
  · have hholder := hb.holder_memory haddr
    cases hfound : b.ep.cpuVirBar addr with
    | none =>
      rw [hfound] at hholder
      constructor
      · simpa [next, EpState.unmapMemory, hfound, giveBack_of_none hholder] using hb
      · simp [CallOk, hholder]
    | some bar =>
      rw [hfound] at hholder
      have hcpu : addr = (b.ep.dev.entry bar).cpuVir := by simpa using List.find?_some hfound
      obtain ⟨hvir, m, hlive, hkind, hm⟩ := (hb bar).memory_of_cpuVir (hcpu ▸ haddr)
      have hunmap := EpState.unmapMemory_of_found hfound hvir
      have hgive : b.giveBack .memory addr = Function.update b.live bar [] := by
        simp [giveBack, hholder, hlive, hkind, hm, ← hcpu]
      constructor
      · exact hb.update (by rw [next, hunmap]) (by rw [next, hunmap]) (by rw [next, hgive]) .free
      · intro bar' hbar'
        obtain rfl : bar = bar' := by simpa [hholder] using hbar'
        simp [Available, next, hunmap, hgive]

theorem Inv.ipaMap (hb : b.Inv) (hsound : b.Sound (.ipaMap a n env)) :
    (b.next (.ipaMap a n env)).Inv ∧ b.CallOk (.ipaMap a n env) := by
  cases hfree : b.ep.freeBar with
  | none =>
    have hmap := EpState.ipaMap_of_none a n env hfree
    constructor
    · simpa [next, hmap, handOut_of_failed] using hb
    · simp [CallOk, Undone, hmap]
  | some bar =>
    obtain ⟨hsome, hpoll⟩ := hsound (by simp [hfree])
    obtain ⟨⟨bar', res, r⟩, htarget⟩ := Option.isSome_iff_exists.mp hsome
    obtain rfl : bar = bar' := by
      simpa [hfree] using (EpState.target_eq_some.mp htarget).1
    have hmap := EpState.ipaMap_succeeds htarget hpoll
    obtain ⟨hentry, hlive⟩ := hb.entry_of_freeBar hfree
    have haddr : res.start + r.offset ≠ 0 := Nat.ne_of_gt (Nat.add_pos_left res.assigned _)
    constructor
    · have hlive := handOut_of_target .ipa htarget haddr hlive
      have hslot := Slot.ipa
        (m := ⟨.ipa, res.start + r.offset, res.start + r.offset, r.cpuAddr, r.size⟩)
        rfl rfl haddr
      rw [hentry] at hmap
      exact hb.update (by rw [next, hmap]) (by rw [next, hmap]; rfl) (by rw [next, hmap, hlive])
        hslot
    · exact undone_of_ne (by rw [hmap]; exact haddr)

theorem Inv.ipaUnmap (hb : b.Inv) (hsound : b.Sound (.ipaUnmap addr)) :
    (b.next (.ipaUnmap addr)).Inv ∧ b.CallOk (.ipaUnmap addr) := by
  have hholder := hb.holder_ipa hsound
  have hdev : (b.ep.ipaUnmap addr).2.dev = b.ep.dev := by
    cases hfound : b.ep.srcAddrBar addr with
    | none => simp [EpState.ipaUnmap, hfound]
    | some bar =>
      have haddr : addr = 0 := by
        by_contra hne
        rw [hsound hne] at hfound
        cases hfound
      have hsrc : addr = (b.ep.dev.entry bar).srcAddr := by simpa using List.find?_some hfound
      have hslot := hb bar
      rw [hslot.free_of_srcAddr (hsrc.symm.trans haddr)] at hslot
      have hentry := hslot.eq_empty.1
      have hsame : Function.update b.ep.dev.entry bar .empty = b.ep.dev.entry := by
        rw [← hentry, Function.update_eq_self]
      simp [EpState.ipaUnmap, hfound, EpState.setEntry, EpState.justUnmapBar, hentry]
      simpa [BarEntry.empty] using congrArg (fun e ↦ { b.ep.dev with entry := e }) hsame
  constructor
  · intro bar
    simpa [next, hdev, giveBack_of_none hholder] using hb bar
  · simp [CallOk, hholder]

theorem Inv.next (hb : b.Inv) (c : Call) (hsound : b.Sound c) :
    (b.next c).Inv ∧ b.CallOk c := by
  cases c with
  | mapMemory a n env => exact hb.mapMemory hsound
  | unmapMemory addr => exact hb.unmapMemory hsound
  | ipaMap a n env => exact hb.ipaMap hsound
  | ipaUnmap addr => exact hb.ipaUnmap hsound

/-! ## Every run -/

theorem inv_of_reach {bars : Bar → Option Window} (h : (system bars).Reach Sound b) : b.Inv := by
  refine h.invariant (fun _ ↦ .free) ?_
  intro b c hb _ hsound
  exact (hb.next c hsound).1

/-- As long as no call is one of the four that break it, the BARs are accounted for, a BAR that
carries no mapping can be mapped, and each further such call does what it should. -/
theorem accounted_of_sound {bars : Bar → Option Window} (h : (system bars).Reach Sound b) :
    b.Accounted ∧ b.Serves ∧ ∀ c, b.Sound c → b.CallOk c := by
  have hb := inv_of_reach h
  exact ⟨hb.accounted, hb.serves, fun c hsound ↦ (hb.next c hsound).2⟩

/-- Four windows of 16 MiB. -/
def fourBars (bar : Bar) : Option Window :=
  some ⟨0xc0000000 + bar * 0x1000000, 0xc0ffffff + bar * 0x1000000, by omega, by omega⟩

/-- The driver maps some memory and a register bank for the IPA, gives the memory back and maps
another range. -/
def remapping : List Call :=
  [.mapMemory 0x87801200 0x2000 ⟨0xffff0000, fun _ ↦ true⟩,
    .ipaMap 0x2e000000 0x2000 ⟨0, fun retry ↦ retry == 2⟩,
    .unmapMemory 0x1007f1200,
    .mapMemory 0x29000000 0x4000 ⟨0xfffe0000, fun _ ↦ true⟩]

theorem accounted_of_sound_remapping :
    ((system fourBars).exec (system fourBars).init remapping).Accounted :=
  (accounted_of_sound (System.Reach.init.exec (by decide))).1

/-- A mapping that the IPA gave back still takes its BAR, and one that it holds loses its BAR by an
unmap of `NULL`; a memory map that fails at the region keeps what it remapped, one for the IPA that
does not fit keeps the BAR. -/
theorem ipaUnmap_not_accounted :
    ¬ ((system fourBars).exec (system fourBars).init
        [.ipaMap 0x2e000000 0x2000 ⟨0, fun _ ↦ true⟩, .ipaUnmap 0xc0000000]).Accounted ∧
      ¬ ((system fourBars).exec (system fourBars).init
        [.ipaMap 0x2e000000 0x2000 ⟨0, fun _ ↦ true⟩, .unmapMemory 0]).Accounted ∧
      ¬ (system fourBars).init.CallOk (.mapMemory 0x87801200 0x2000 ⟨0xffff0000, fun _ ↦ false⟩) ∧
      ¬ (system fourBars).init.CallOk (.ipaMap 0x2e000000 0x2000000 ⟨0, fun _ ↦ true⟩) := by
  refine ⟨?_, ?_, ?_, ?_⟩
  · intro h
    rcases h 0 with ⟨-, m, hm, -⟩ | ⟨hres, -⟩
    · cases hm
    · cases hres
  · intro h
    rcases h 0 with ⟨hres, -⟩ | ⟨-, hlive⟩
    · cases hres
    · cases hlive
  · intro h
    cases (h rfl).2.2
  · intro h
    cases congrFun (h rfl).1 0

end Bars

end Wwan.Pcie
