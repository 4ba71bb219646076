import Wwan.MhiNetdevQuectel.MbimRx

/-!
# Termination and memory safety of the MBIM decoder

Both questions about `rmnet_mbim_rx_handler` come down to the graph of the NDPs
of a received buffer. There is a link from offset `o` to offset `o'` if the
checks accept the NDP at `o`, its whole table can be passed on, and its
`wNextNdpIndex` is `o'` (`NdpLink`). The handler walks along these links and
nothing else.

* *Termination.* Nothing keeps `wNextNdpIndex` from pointing back, so the walk
  ends exactly when it cannot come to a cycle of links. Offsets are 16 bits
  wide; this makes the graph finite, and without cycles an NDP is not met again,
  so that none of its entries is delivered twice.

* *Bounds.* The table of an NDP is compared with the length of the buffer as if
  it began at offset 0, and the index of the device is taken from the session id
  without a lower bound or a test for NULL. An NDP is harmless (`NdpSafe`) if its
  table ends inside the buffer or the walk over it stops there, and if its index
  is that of a registered device or no entry is allocated for.
-/

namespace Wwan.MhiNetdevQuectel

open Relation Wwan.Kernel

variable {d : MhiNetdev} {alloc : ℕ → Bool} {skbIn : SkBuff} {ndp idx : ℕ}

/-! ## The table of an NDP -/

/-- The NDP and the entry a packet stems from. -/
def MbimSkb.key (pkt : MbimSkb) : ℕ × ℕ := (pkt.ndp, pkt.entry)

/-- The entries of the table that come before one that ends it can all be passed
on. -/
def TableAccepted (d : MhiNetdev) (skbIn : SkBuff) (ndp idx nframes : ℕ) : Prop :=
  ∀ x < nframes, (∀ y ≤ x, ¬ EntryNull skbIn ndp y) → EntryGood d skbIn ndp idx x

/-- The packets of a table stem from its first entries, in order. -/
theorem rxEntries_keys (n x k : ℕ) :
    ∃ m, (rxEntries d alloc skbIn ndp idx n x k).pkts.map MbimSkb.key =
      (List.range' x m).map (Prod.mk ndp) := by
  induction n generalizing x k with
  | zero => exact ⟨0, rfl⟩
  | succ n ih =>
    have hcase := rxEntry_case d (alloc k) skbIn ndp idx x
    rw [rxEntries]
    generalize rxEntry d (alloc k) skbIn ndp idx x = e at hcase
    cases hcase with
    | queued _ _ hndp hentry _ _ =>
      obtain ⟨m, hm⟩ := ih (x + 1) (k + 1)
      exact ⟨m + 1, by simp [hm, List.range'_succ, MbimSkb.key, hndp, hentry]⟩
    | _ => exact ⟨0, rfl⟩

/-- The packets of a pass stem from the first entries of its NDP, in order. -/
theorem ndpPass_keys (d : MhiNetdev) (alloc : ℕ → Bool) (skbIn : SkBuff) (ndp k : ℕ) :
    ∃ m, (ndpPass d alloc skbIn ndp k).pkts.map MbimSkb.key =
      (List.range' 0 m).map (Prod.mk ndp) := by
  unfold ndpPass
  split
  · exact ⟨0, rfl⟩
  · split
    · exact ⟨0, rfl⟩
    · exact rxEntries_keys _ 0 k

/-- A `for` loop that runs to its end has met entries it could pass on, up to one
that ends the table. -/
theorem good_of_rxEntries_done {n x k : ℕ}
    (h : (rxEntries d alloc skbIn ndp idx n x k).ending = .done) {y : ℕ} (hxy : x ≤ y)
    (hy : y < x + n) (hnull : ∀ z, x ≤ z → z ≤ y → ¬ EntryNull skbIn ndp z) :
    EntryGood d skbIn ndp idx y := by
  induction n generalizing x k with
  | zero => omega
  | succ n ih =>
    have hcase := rxEntry_case d (alloc k) skbIn ndp idx x
    rw [rxEntries] at h
    generalize rxEntry d (alloc k) skbIn ndp idx x = e at h hcase
    cases hcase with
    | null hx => exact absurd hx (hnull x le_rfl hxy)
    | queued hgood _ _ _ _ _ =>
      rcases Nat.eq_or_lt_of_le hxy with rfl | hlt
      · exact hgood
      · exact ih h hlt (by omega) fun z hz ↦ hnull z (by omega)
    | _ => cases h

/-- If every allocation succeeds, the `for` loop runs to the end of a table that can
be passed on. -/
theorem rxEntries_done {n x k : ℕ}
    (h : ∀ y, x ≤ y → y < x + n → (∀ z, x ≤ z → z ≤ y → ¬ EntryNull skbIn ndp z) →
      EntryGood d skbIn ndp idx y) :
    (rxEntries d (fun _ ↦ true) skbIn ndp idx n x k).ending = .done := by
  induction n generalizing x k with
  | zero => rfl
  | succ n ih =>
    by_cases hnull : EntryNull skbIn ndp x
    · simp [rxEntries, rxEntry_of_null hnull]
    · have hgood := h x le_rfl (by omega) fun z hxz hzx ↦ Nat.le_antisymm hxz hzx ▸ hnull
      obtain ⟨pkt, hpkt, -, -⟩ := rxEntry_of_good hgood
      simp only [rxEntries, hpkt]
      refine ih fun y hxy hy hrest ↦ h y (by omega) (by omega) fun z hxz hzy ↦ ?_
      rcases Nat.eq_or_lt_of_le hxz with rfl | hlt
      · exact hnull
      · exact hrest z hlt hzy

/-! ## The graph of the NDPs -/

/-- The checks accept the NDP at `o`, its table can be passed on and its
`wNextNdpIndex` is `o'`. -/
structure NdpLink (d : MhiNetdev) (skbIn : SkBuff) (o o' : ℕ) : Prop where
  pos : 0 < o
  inside : o + 8 ≤ skbIn.len
  accepted : ∃ nframes idx, ndpHeader d skbIn o = some (nframes, idx) ∧
    TableAccepted d skbIn o idx nframes
  next : le16At skbIn (o + 6) = o'

/-- A pass that ends with a next offset follows a link. -/
theorem link_of_ndpPass {k o : ℕ} (hpos : ndp ≠ 0)
    (h : (ndpPass d alloc skbIn ndp k).ending = .next o) : NdpLink d skbIn ndp o := by
  unfold ndpPass at h
  split at h
  · cases h
  rename_i hlen
  cases hhdr : ndpHeader d skbIn ndp with
  | none => simp [hhdr] at h
  | some hdr =>
    obtain ⟨nframes, idx⟩ := hdr
    simp only [hhdr] at h
    cases hend : (rxEntries d alloc skbIn ndp idx nframes 0 k).ending with
    | error => simp [hend] at h
    | oops => simp [hend] at h
    | done =>
      have hacc : TableAccepted d skbIn ndp idx nframes := fun x hx hnull ↦
        good_of_rxEntries_done hend (Nat.zero_le x) (by omega) fun z _ hz ↦ hnull z hz
      simp only [hend, NdpEnd.next.injEq] at h
      exact ⟨Nat.pos_of_ne_zero hpos, Nat.not_lt.mp hlen, ⟨nframes, idx, hhdr, hacc⟩, h⟩

/-- The packets queued so far and those of the pass at `st`. -/
def RxState.queued (d : MhiNetdev) (alloc : ℕ → Bool) (skbIn : SkBuff) (st : RxState) :
    List MbimSkb :=
  st.skbChain ++ (ndpPass d alloc skbIn st.ndpoffset st.skbChain.length).pkts

/-- A pass that stays in the loop follows a link and keeps what it has queued. -/
theorem rxBody_inr {st st' : RxState} (h : rxBody d alloc skbIn st = .inr st') :
    NdpLink d skbIn st.ndpoffset st'.ndpoffset ∧ st'.skbChain = st.queued d alloc skbIn := by
  unfold rxBody at h
  split at h
  · cases h
  rename_i hpos
  cases hend : (ndpPass d alloc skbIn st.ndpoffset st.skbChain.length).ending with
  | error => simp [hend] at h
  | oops => simp [hend] at h
  | next o =>
    simp only [hend, Sum.inr.injEq] at h
    subst h
    exact ⟨link_of_ndpPass hpos hend, rfl⟩

/-- What is passed on in the end is what was queued, with or without the packets of
a last pass. -/
theorem rxBody_delivered {st : RxState} {pkts : List MbimSkb}
    (h : rxBody d alloc skbIn st = .inl (.delivered pkts)) :
    pkts = st.skbChain ∨ pkts = st.queued d alloc skbIn := by
  unfold rxBody at h
  split at h
  · cases h
    exact .inl rfl
  cases hend : (ndpPass d alloc skbIn st.ndpoffset st.skbChain.length).ending with
  | error =>
    simp only [hend, Sum.inl.injEq, RxResult.delivered.injEq] at h
    exact .inr h.symm
  | oops => simp [hend] at h
  | next o => simp [hend] at h

/-- If every allocation succeeds, a pass follows each link from its NDP. -/
theorem rxBody_of_link {st : RxState} {o : ℕ} (h : NdpLink d skbIn st.ndpoffset o) :
    ∃ st', rxBody d (fun _ ↦ true) skbIn st = .inr st' ∧ st'.ndpoffset = o := by
  obtain ⟨nframes, idx, hhdr, hacc⟩ := h.accepted
  have hend : (rxEntries d (fun _ ↦ true) skbIn st.ndpoffset idx nframes 0
      st.skbChain.length).ending = .done :=
    rxEntries_done fun y _ hy hnull ↦ hacc y (by omega) fun z hz ↦ hnull z (Nat.zero_le z) hz
  have hpos := h.pos.ne'
  have hlen := Nat.not_lt.mpr h.inside
  exact ⟨_, by simp [rxBody, ndpPass, hpos, hlen, hhdr, hend]; rfl, h.next⟩

/-- The offsets of linked NDPs are 16 bits wide, so there are finitely many. -/
theorem finite_linked {start : ℕ} (hstart : ntbStart d skbIn = some start) :
    {o | ReflTransGen (NdpLink d skbIn) start o}.Finite := by
  refine (Set.finite_lt_nat 65536).subset fun o ho ↦ ?_
  cases ho with
  | refl =>
    unfold ntbStart at hstart
    split_ifs at hstart
    exact Option.some.inj hstart ▸ le16At_lt _ _
  | tail _ hlink => exact hlink.next ▸ le16At_lt _ _

/-! ## Termination -/

/-- `rmnet_mbim_rx_handler` terminates and passes on at most one packet for each
entry of each NDP. -/
def EndsOnce (d : MhiNetdev) (alloc : ℕ → Bool) (skbIn : SkBuff) : Prop :=
  ∃ fuel r, rmnetMbimRxHandler d alloc fuel skbIn = some r ∧
    ∀ pkts, r = .delivered pkts → (pkts.map MbimSkb.key).Nodup

/-- From the first NDP no cycle of links can be reached. -/
def Acyclic (d : MhiNetdev) (skbIn : SkBuff) : Prop :=
  ∀ start o, ntbStart d skbIn = some start → ReflTransGen (NdpLink d skbIn) start o →
    ¬ TransGen (NdpLink d skbIn) o o

/-- What has been queued at a loop head stems from different entries of NDPs the walk
has left behind. -/
structure LeftBehind (d : MhiNetdev) (skbIn : SkBuff) (st : RxState) : Prop where
  before : ∀ pkt ∈ st.skbChain, TransGen (NdpLink d skbIn) pkt.ndp st.ndpoffset
  nodup : (st.skbChain.map MbimSkb.key).Nodup

/-- The packets of a pass at an NDP that is not on a cycle are new. -/
theorem LeftBehind.queued_nodup {st : RxState} (h : LeftBehind d skbIn st)
    (hac : ¬ TransGen (NdpLink d skbIn) st.ndpoffset st.ndpoffset) :
    ((st.queued d alloc skbIn).map MbimSkb.key).Nodup := by
  obtain ⟨m, hm⟩ := ndpPass_keys d alloc skbIn st.ndpoffset st.skbChain.length
  rw [RxState.queued, List.map_append, hm]
  refine h.nodup.append (List.Nodup.map (Prod.mk_right_injective _) List.nodup_range') ?_
  rintro key hold hnew
  obtain ⟨pkt, hpkt, rfl⟩ := List.mem_map.mp hold
  obtain ⟨x, -, hx⟩ := List.mem_map.mp hnew
  exact hac ((Prod.mk.inj hx).1 ▸ h.before pkt hpkt)

/-- The step lemma of the walk. -/
theorem LeftBehind.step {st st' : RxState} (h : LeftBehind d skbIn st)
    (hac : ¬ TransGen (NdpLink d skbIn) st.ndpoffset st.ndpoffset)
    (hb : rxBody d alloc skbIn st = .inr st') : LeftBehind d skbIn st' := by
  obtain ⟨hlink, hchain⟩ := rxBody_inr hb
  refine ⟨fun pkt hpkt ↦ ?_, hchain ▸ h.queued_nodup hac⟩
  rw [hchain, RxState.queued, List.mem_append] at hpkt
  rcases hpkt with hold | hnew
  · exact (h.before pkt hold).tail hlink
  · obtain ⟨m, hm⟩ := ndpPass_keys d alloc skbIn st.ndpoffset st.skbChain.length
    have hkey : pkt.key ∈ (List.range' 0 m).map (Prod.mk st.ndpoffset) :=
      hm ▸ List.mem_map_of_mem hnew
    obtain ⟨x, -, hx⟩ := List.mem_map.mp hkey
    exact (Prod.mk.inj hx).1 ▸ .single hlink

/-- The run lemma of the walk. -/
theorem leftBehind_of_reaches {start : ℕ} {st : RxState}
    (hac : ∀ o, ReflTransGen (NdpLink d skbIn) start o → ¬ TransGen (NdpLink d skbIn) o o)
    (h : Loop.Reaches (rxBody d alloc skbIn) ⟨start, []⟩ st) : LeftBehind d skbIn st := by
  induction h with
  | refl => exact ⟨by simp, by simp⟩
  | tail ht hb ih =>
    exact ih.step (hac _ (ht.linked RxState.ndpoffset fun _ _ hb ↦ (rxBody_inr hb).1)) hb

/-- Whatever allocations fail, `rmnet_mbim_rx_handler` terminates and delivers no
entry twice exactly when the NDPs of the buffer have no cycle it can come to. -/
theorem rmnetMbimRxHandler_endsOnce_iff (d : MhiNetdev) (skbIn : SkBuff) :
    (∀ alloc, EndsOnce d alloc skbIn) ↔ Acyclic d skbIn := by
  constructor
  · intro h start o hstart ho hcyc
    obtain ⟨fuel, r, hr, -⟩ := h fun _ ↦ true
    simp only [rmnetMbimRxHandler, hstart] at hr
    exact Loop.not_halts_of_cycle RxState.ndpoffset (fun _ _ ↦ rxBody_of_link) ho hcyc
      ⟨r, fuel, hr⟩
  · intro hac alloc
    cases hstart : ntbStart d skbIn with
    | none => exact ⟨0, .delivered [], by simp [rmnetMbimRxHandler, hstart], by simp⟩
    | some start =>
      have hac := fun o ↦ hac start o hstart
      obtain ⟨r, fuel, hr⟩ : Loop.Halts (rxBody d alloc skbIn) ⟨start, []⟩ :=
        Loop.halts_of_acyclic RxState.ndpoffset (fun _ _ hb ↦ (rxBody_inr hb).1)
          (finite_linked hstart) hac
      refine ⟨fuel, r, by simp [rmnetMbimRxHandler, hstart, hr], ?_⟩
      rintro pkts rfl
      obtain ⟨st, hst, hb⟩ := Loop.Returns.exists_last ⟨fuel, hr⟩
      have hleft := leftBehind_of_reaches hac hst
      rcases rxBody_delivered hb with rfl | rfl
      · exact hleft.nodup
      · have hlink := hst.linked RxState.ndpoffset fun _ _ hb ↦ (rxBody_inr hb).1
        exact hleft.queued_nodup (hac _ hlink)

/-- A raw-IP device. -/
def rmnetNet : NetDevice := NetDevice.start .rawip []

/-- A driver with its first device registered. -/
def mbimDev (qmapMode : ℕ) : MhiNetdev :=
  { mpQmapNetDev := fun i ↦ if i.val = 0 then some rmnetNet else none
    stray := fun _ ↦ none
    qmapMode := qmapMode
    mbimMuxId := 0
    rxMax := 32768
    maxMtu := 32740 }

/-- An NTB with one NDP for session 0, whose only datagram is the byte `0x45` and
whose `wNextNdpIndex` is `next`. -/
def oneNdp (next : UInt8) : SkBuff :=
  { head := []
    data := [0x4e, 0x43, 0x4d, 0x48, 0x0c, 0x00, 0x00, 0x00, 0x1d, 0x00, 0x0c, 0x00,
      0x49, 0x50, 0x53, 0x00, 0x10, 0x00, next, 0x00, 0x1c, 0x00, 0x01, 0x00,
      0x00, 0x00, 0x00, 0x00, 0x45]
    after := fun _ ↦ 0
    tailroom := 0
    protocol := 0 }

/-- An NDP at offset 12 whose `wNextNdpIndex` is 12 keeps the handler busy for
ever. -/
theorem rmnetMbimRxHandler_cycles : ¬ EndsOnce (mbimDev 1) (fun _ ↦ true) (oneNdp 12) := by
  rintro ⟨fuel, r, hr, -⟩
  have hstart : ntbStart (mbimDev 1) (oneNdp 12) = some 12 := by decide
  have hpass : (ndpPass (mbimDev 1) (fun _ ↦ true) (oneNdp 12) 12 0).ending = .next 12 := by
    decide
  have hlink := link_of_ndpPass (by decide) hpass
  simp only [rmnetMbimRxHandler, hstart] at hr
  exact Loop.not_halts_of_cycle RxState.ndpoffset (fun _ _ ↦ rxBody_of_link) .refl
    (.single hlink) ⟨r, fuel, hr⟩

/-! ## Bounds -/

/-- The entry of `mpQmapNetDev` at `idx` exists and is not NULL. -/
def Registered (d : MhiNetdev) (idx : ℕ) : Prop :=
  ∃ h : idx < numQmapNetDev, (d.mpQmapNetDev ⟨idx, h⟩).isSome

/-- An action stays inside the received buffer and the table of devices. -/
def RxAction.Safe (d : MhiNetdev) (skbIn : SkBuff) : RxAction → Prop
  | .read off len | .copy off len => off + len ≤ skbIn.len
  | .alloc idx => Registered d idx

/-- The actions on an entry are safe if it lies inside the buffer and its packet, if
any, is for a registered device. -/
theorem rxEntry_safe {b : Bool} {x : ℕ} {a : RxAction}
    (hinside : dpe16 ndp x + 4 ≤ skbIn.len) (hdev : EntrySane d skbIn ndp x → Registered d idx)
    (ha : a ∈ (rxEntry d b skbIn ndp idx x).1) : a.Safe d skbIn := by
  have hfirst : EntrySane d skbIn ndp x → datagramIndex skbIn ndp x + 1 ≤ skbIn.len := by
    intro h
    have hnull : datagramLength skbIn ndp x ≠ 0 := fun h0 ↦ h.not_null (.inr h0)
    have := h.inside
    omega
  have hcase := rxEntry_case d b skbIn ndp idx x
  generalize rxEntry d b skbIn ndp idx x = e at ha hcase
  cases hcase with
  | null =>
    obtain rfl := List.mem_singleton.mp ha
    exact hinside
  | invalid =>
    obtain rfl := List.mem_singleton.mp ha
    exact hinside
  | noMem h =>
    simp only [List.mem_cons, List.not_mem_nil, or_false] at ha
    rcases ha with rfl | rfl
    · exact hinside
    · exact hdev h
  | unknown h =>
    simp only [List.mem_cons, List.not_mem_nil, or_false] at ha
    rcases ha with rfl | rfl | rfl
    · exact hinside
    · exact hdev h
    · exact hfirst h
  | oops h =>
    simp only [List.mem_cons, List.not_mem_nil, or_false] at ha
    rcases ha with rfl | rfl | rfl | rfl
    · exact hinside
    · exact hdev h
    · exact hfirst h
    · exact h.inside
  | queued h =>
    simp only [List.mem_cons, List.not_mem_nil, or_false] at ha
    rcases ha with rfl | rfl | rfl | rfl
    · exact hinside
    · exact hdev h.toEntrySane
    · exact hfirst h.toEntrySane
    · exact h.inside

/-- The first action on an entry is to read it. -/
theorem read_mem_rxEntry (b : Bool) (x : ℕ) :
    RxAction.read (dpe16 ndp x) 4 ∈ (rxEntry d b skbIn ndp idx x).1 := by
  have hcase := rxEntry_case d b skbIn ndp idx x
  generalize rxEntry d b skbIn ndp idx x = e at hcase
  cases hcase <;> exact List.mem_cons_self

/-- A packet is allocated for a sane entry. -/
theorem alloc_mem_rxEntry {b : Bool} {x : ℕ} (h : EntrySane d skbIn ndp x) :
    RxAction.alloc idx ∈ (rxEntry d b skbIn ndp idx x).1 := by
  have hcase := rxEntry_case d b skbIn ndp idx x
  generalize rxEntry d b skbIn ndp idx x = e at hcase
  cases hcase with
  | null hnull => exact absurd hnull h.not_null
  | invalid _ hsane => exact absurd h hsane
  | _ => exact List.mem_cons_of_mem _ List.mem_cons_self

/-- The actions of the `for` loop are those on entries after good ones. -/
theorem mem_rxEntries_actions {n x k : ℕ} {a : RxAction}
    (ha : a ∈ (rxEntries d alloc skbIn ndp idx n x k).actions) :
    ∃ y b, y < x + n ∧ (∀ z, x ≤ z → z < y → EntryGood d skbIn ndp idx z) ∧
      a ∈ (rxEntry d b skbIn ndp idx y).1 := by
  induction n generalizing x k with
  | zero => exact absurd ha List.not_mem_nil
  | succ n ih =>
    have hhere : a ∈ (rxEntry d (alloc k) skbIn ndp idx x).1 →
        ∃ y b, y < x + (n + 1) ∧ (∀ z, x ≤ z → z < y → EntryGood d skbIn ndp idx z) ∧
          a ∈ (rxEntry d b skbIn ndp idx y).1 := fun ha ↦
      ⟨x, alloc k, by omega, fun z hxz hzx ↦ absurd hzx (Nat.not_lt.mpr hxz), ha⟩
    have hcase := rxEntry_case d (alloc k) skbIn ndp idx x
    rw [rxEntries] at ha
    generalize rxEntry d (alloc k) skbIn ndp idx x = e at ha hcase hhere
    cases hcase with
    | queued hgood _ _ _ _ _ =>
      rcases List.mem_append.mp ha with ha | ha
      · exact hhere ha
      · obtain ⟨y, b, hy, hbefore, hay⟩ := ih ha
        refine ⟨y, b, by omega, fun z hxz hzy ↦ ?_, hay⟩
        rcases Nat.eq_or_lt_of_le hxz with rfl | hlt
        · exact hgood
        · exact hbefore z hlt hzy
    | _ => exact hhere ha

/-- If every allocation succeeds, the `for` loop comes to each entry after good
ones. -/
theorem rxEntries_actions_mem {n x k y : ℕ} {a : RxAction} (hxy : x ≤ y) (hy : y < x + n)
    (hbefore : ∀ z, x ≤ z → z < y → EntryGood d skbIn ndp idx z)
    (ha : a ∈ (rxEntry d true skbIn ndp idx y).1) :
    a ∈ (rxEntries d (fun _ ↦ true) skbIn ndp idx n x k).actions := by
  induction n generalizing x k with
  | zero => omega
  | succ n ih =>
    rcases Nat.eq_or_lt_of_le hxy with rfl | hlt
    · rw [rxEntries]
      generalize rxEntry d true skbIn ndp idx x = e at ha
      obtain ⟨actions, ending⟩ := e
      cases ending with
      | queued pkt => exact List.mem_append_left _ ha
      | _ => exact ha
    · obtain ⟨pkt, hpkt, -, -⟩ := rxEntry_of_good (hbefore x le_rfl hlt)
      simp only [rxEntries, hpkt]
      exact List.mem_append_right _
        (ih hlt (by omega) fun z hxz hzy ↦ hbefore z (by omega) hzy)

/-- The NDP at `o` with `nframes` entries for the device at `idx` is harmless: the
walk over its table stays inside the buffer, and a packet is allocated only for a
registered device. -/
structure NdpSafe (d : MhiNetdev) (skbIn : SkBuff) (o nframes idx : ℕ) : Prop where
  table : o + 8 + 4 * nframes ≤ skbIn.len ∨
    ∃ x < nframes, dpe16 o x + 4 ≤ skbIn.len ∧ ¬ EntryGood d skbIn o idx x
  device : EntrySane d skbIn o 0 → Registered d idx

/-- The two conditions on the NDP, said of each entry the walk comes to. -/
theorem ndpSafe_iff {o nframes : ℕ} (hpos : 0 < nframes) :
    NdpSafe d skbIn o nframes idx ↔
      ∀ x < nframes, (∀ y < x, EntryGood d skbIn o idx y) →
        dpe16 o x + 4 ≤ skbIn.len ∧ (EntrySane d skbIn o x → Registered d idx) := by
  constructor
  · intro h x hx hbefore
    constructor
    · rcases h.table with hall | ⟨y, hy, hyin, hybad⟩
      · unfold dpe16
        omega
      · have hxy : x ≤ y := Nat.not_lt.mp fun hlt ↦ hybad (hbefore y hlt)
        unfold dpe16 at hyin ⊢
        omega
    · intro hsane
      rcases Nat.eq_zero_or_pos x with rfl | hxpos
      · exact h.device hsane
      · exact h.device (hbefore 0 hxpos).toEntrySane
  · intro h
    refine ⟨?_, (h 0 hpos (by simp)).2⟩
    by_cases hall : ∀ x < nframes, EntryGood d skbIn o idx x
    · have hlast := (h (nframes - 1) (by omega) fun y hy ↦ hall y (by omega)).1
      unfold dpe16 at hlast
      exact .inl (by omega)
    · -- The walk stops at the first entry that is not good, which is inside.
      classical
      push Not at hall
      refine .inr ⟨Nat.find hall, (Nat.find_spec hall).1, ?_, (Nat.find_spec hall).2⟩
      refine (h _ (Nat.find_spec hall).1 fun y hy ↦ ?_).1
      by_contra hbad
      exact Nat.find_min hall hy ⟨by have := (Nat.find_spec hall).1; omega, hbad⟩

/-- An accepted NDP has at least two entries. -/
theorem ndpHeader_pos {nframes : ℕ} (h : ndpHeader d skbIn ndp = some (nframes, idx)) :
    0 < nframes := by
  unfold ndpHeader at h
  dsimp only at h
  split_ifs at h with hlen
  obtain ⟨i, -, hi⟩ := Option.map_eq_some_iff.mp h
  have hn := (Prod.mk.inj hi).1
  omega

/-- The actions of a pass over an accepted NDP. -/
theorem ndpPass_actions {nframes : ℕ} (k : ℕ) (hlen : ndp + 8 ≤ skbIn.len)
    (hhdr : ndpHeader d skbIn ndp = some (nframes, idx)) :
    (ndpPass d alloc skbIn ndp k).actions =
      .read ndp 8 :: (rxEntries d alloc skbIn ndp idx nframes 0 k).actions := by
  simp [ndpPass, Nat.not_lt.mpr hlen, hhdr]

/-- A pass over a harmless NDP is safe. -/
theorem NdpSafe.ndpPass_safe {nframes k : ℕ} {a : RxAction}
    (h : NdpSafe d skbIn ndp nframes idx) (hlen : ndp + 8 ≤ skbIn.len)
    (hhdr : ndpHeader d skbIn ndp = some (nframes, idx))
    (ha : a ∈ (ndpPass d alloc skbIn ndp k).actions) : a.Safe d skbIn := by
  rw [ndpPass_actions k hlen hhdr] at ha
  rcases List.mem_cons.mp ha with rfl | ha
  · exact hlen
  · obtain ⟨x, b, hx, hbefore, hax⟩ := mem_rxEntries_actions ha
    obtain ⟨hinside, hdev⟩ := (ndpSafe_iff (ndpHeader_pos hhdr)).mp h x (by omega)
      fun y hy ↦ hbefore y (Nat.zero_le y) hy
    exact rxEntry_safe hinside hdev hax

/-- An NDP is harmless if the pass over it is safe when every allocation succeeds. -/
theorem ndpSafe_of_ndpPass {nframes k : ℕ} (hlen : ndp + 8 ≤ skbIn.len)
    (hhdr : ndpHeader d skbIn ndp = some (nframes, idx))
    (h : ∀ a ∈ (ndpPass d (fun _ ↦ true) skbIn ndp k).actions, a.Safe d skbIn) :
    NdpSafe d skbIn ndp nframes idx := by
  rw [ndpPass_actions k hlen hhdr] at h
  refine (ndpSafe_iff (ndpHeader_pos hhdr)).mpr fun x hx hbefore ↦ ?_
  have hsafe : ∀ a ∈ (rxEntry d true skbIn ndp idx x).1, a.Safe d skbIn := fun a ha ↦
    h a (List.mem_cons_of_mem _
      (rxEntries_actions_mem (Nat.zero_le x) (by omega) (fun z _ hz ↦ hbefore z hz) ha))
  exact ⟨hsafe _ (read_mem_rxEntry true x), fun hsane ↦ hsafe _ (alloc_mem_rxEntry hsane)⟩

/-- Whatever allocations fail, each pass of `rmnet_mbim_rx_handler` reads and copies
inside the buffer and allocates for existing devices only. -/
def InBounds (d : MhiNetdev) (skbIn : SkBuff) : Prop :=
  ∀ alloc start st, ntbStart d skbIn = some start →
    Loop.Reaches (rxBody d alloc skbIn) ⟨start, []⟩ st → st.ndpoffset ≠ 0 →
    ∀ a ∈ (ndpPass d alloc skbIn st.ndpoffset st.skbChain.length).actions, a.Safe d skbIn

/-- `rmnet_mbim_rx_handler` stays in bounds exactly when each NDP that is linked to
the first and that the checks accept is harmless. -/
theorem rmnetMbimRxHandler_inBounds_iff (d : MhiNetdev) (skbIn : SkBuff) :
    InBounds d skbIn ↔
      ∀ start o nframes idx, ntbStart d skbIn = some start →
        ReflTransGen (NdpLink d skbIn) start o → 0 < o → o + 8 ≤ skbIn.len →
        ndpHeader d skbIn o = some (nframes, idx) → NdpSafe d skbIn o nframes idx := by
  constructor
  · intro h start o nframes idx hstart ho hpos hlen hhdr
    obtain ⟨st, hst, rfl⟩ := Loop.exists_reaches_of_linked (s := ⟨start, []⟩) RxState.ndpoffset
      (fun _ _ ↦ rxBody_of_link) ho
    exact ndpSafe_of_ndpPass hlen hhdr (h _ start st hstart hst hpos.ne')
  · intro h alloc start st hstart hst hpos a ha
    have ho := hst.linked RxState.ndpoffset fun _ _ hb ↦ (rxBody_inr hb).1
    by_cases hlen : st.ndpoffset + 8 ≤ skbIn.len
    · cases hhdr : ndpHeader d skbIn st.ndpoffset with
      | none =>
        -- Only the fields of the NDP are read.
        simp only [ndpPass, Nat.not_lt.mpr hlen, if_false, hhdr, List.mem_singleton] at ha
        exact ha ▸ hlen
      | some hdr =>
        obtain ⟨nframes, idx⟩ := hdr
        exact (h start _ nframes idx hstart ho (Nat.pos_of_ne_zero hpos) hlen hhdr).ndpPass_safe
          hlen hhdr ha
    · simp [ndpPass, Nat.not_le.mp hlen] at ha

/-- With several sessions, the index for session 0 is -1 and the handler allocates for
what lies in front of the table. -/
theorem rmnetMbimRxHandler_underflows : ¬ InBounds (mbimDev 2) (oneNdp 0) := by
  intro h
  have hstart : ntbStart (mbimDev 2) (oneNdp 0) = some 12 := by decide
  have halloc : RxAction.alloc (2 ^ 32 - 1) ∈
      (ndpPass (mbimDev 2) (fun _ ↦ true) (oneNdp 0) 12 0).actions := by decide
  obtain ⟨hidx, -⟩ := h (fun _ ↦ true) 12 ⟨12, []⟩ hstart .refl (by decide) _ halloc
  exact absurd hidx (by decide)

end Wwan.MhiNetdevQuectel
