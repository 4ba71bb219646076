import Wwan.MbimProxy.Proxy

/-!
# Responses go to the client that asked

The id that the device gets is the client's id with the slot in its top eight bits. The slot is
found again, and the client's id restored, if that id was below `2 ^ 24`; otherwise its own top
bits are mixed with the slot, and are cut off when the response is passed on. A response that
comes when the client has gone is delivered to whoever has the slot by then.
-/

namespace Wwan.MbimProxy

open Wwan

/-! ## Transaction ids -/

/-- The id that the device gets from a slot. -/
def slotTid (tid : UInt32) (i : Fin cmMaxClient) : UInt32 :=
  tid ||| UInt32.ofNat (i + 1) <<< tidShift

section Tids

variable (tid : UInt32) (i : Fin cmMaxClient)

theorem toNat_shift : (UInt32.ofNat (i + 1) <<< tidShift).toNat = (i + 1) * 2 ^ 24 := by
  have hi : (i : ℕ) < 32 := i.isLt
  have hshift : tidShift.toNat = 24 := rfl
  have hmod : (24 : ℕ) % 32 = 24 := rfl
  rw [UInt32.toNat_shiftLeft, hshift, hmod, UInt32.toNat_ofNat', Nat.shiftLeft_eq,
    Nat.mod_eq_of_lt (a := (i : ℕ) + 1) (by omega), Nat.mod_eq_of_lt (by omega)]

theorem toNat_slotTid : (slotTid tid i).toNat = tid.toNat ||| (i + 1) * 2 ^ 24 := by
  unfold slotTid
  rw [UInt32.toNat_or, toNat_shift]

theorem slotTid_ne_zero : slotTid tid i ≠ 0 := by
  intro hzero
  have hor := (toNat_slotTid tid i).symm.trans (congrArg UInt32.toNat hzero)
  have hslot := (Nat.or_eq_zero_iff.mp hor).2
  omega

/-- The top bits are the slot, mixed with those of the client's id. -/
theorem slotTid_shift (htid : tid.toNat < 2 ^ 24) :
    (slotTid tid i >>> tidShift).toNat = i + 1 := by
  have hshift : tidShift.toNat = 24 := rfl
  have hmod : (24 : ℕ) % 32 = 24 := rfl
  rw [UInt32.toNat_shiftRight, toNat_slotTid, hshift, hmod, Nat.shiftRight_eq_div_pow,
    Nat.or_div_two_pow, Nat.div_eq_of_lt htid, Nat.mul_div_cancel _ (Nat.two_pow_pos 24),
    Nat.zero_or]

/-- What is restored. -/
theorem toNat_slotTid_mask : (slotTid tid i &&& tidMask).toNat = tid.toNat % 2 ^ 24 := by
  have hmask : tidMask.toNat = 2 ^ 24 - 1 := rfl
  rw [UInt32.toNat_and, hmask, Nat.and_two_pow_sub_one_eq_mod, toNat_slotTid,
    Nat.or_mod_two_pow, Nat.mul_mod_left, Nat.or_zero]

/-- The client's id is restored if it is small enough. -/
theorem slotTid_mask_iff : slotTid tid i &&& tidMask = tid ↔ tid.toNat < 2 ^ 24 := by
  constructor
  · intro heq
    have hmod := toNat_slotTid_mask tid i
    rw [heq] at hmod
    rw [hmod]
    exact Nat.mod_lt _ (Nat.two_pow_pos 24)
  · intro hlt
    refine UInt32.toNat_inj.mp ?_
    rw [toNat_slotTid_mask, Nat.mod_eq_of_lt hlt]

end Tids

/-! ## Slots -/

section Slots

variable {clients : Fin cmMaxClient → CmClient} {p : CmClient → Bool} {i : Fin cmMaxClient}

theorem findSlot_eq_none_iff : findSlot clients p = none ↔ ∀ j, p (clients j) = false := by
  unfold findSlot
  rw [List.find?_eq_none]
  constructor
  · intro h j
    exact Bool.eq_false_iff.mpr (h j (List.mem_finRange j))
  · intro h j _
    exact Bool.eq_false_iff.mp (h j)

theorem of_findSlot (h : findSlot clients p = some i) : p (clients i) = true := by
  unfold findSlot at h
  exact List.find?_some (p := fun j ↦ p (clients j)) h

/-- The slot is found if there is no other. -/
theorem findSlot_of_unique (h : p (clients i) = true)
    (hunique : ∀ j, p (clients j) = true → j = i) : findSlot clients p = some i := by
  cases hfind : findSlot clients p with
  | none =>
    rw [findSlot_eq_none_iff.mp hfind i] at h
    cases h
  | some j => rw [hunique j (of_findSlot hfind)]

end Slots

/-! ## The invariant -/

/-- A client is connected in the slot. -/
def ProxyRun.Live (s : ProxyRun) (i : Fin cmMaxClient) : Prop := 0 < (s.clients i).clientFd

instance (s : ProxyRun) (i : Fin cmMaxClient) : Decidable (s.Live i) :=
  inferInstanceAs (Decidable (0 < _))

/-- What holds of the slots and of the requests that were forwarded. -/
structure RouteInv (s : ProxyRun) : Prop where
  idx : ∀ i, s.Live i → (s.clients i).clientIdx = i + 1
  fds : ∀ i j, s.Live i → (s.clients j).clientFd = (s.clients i).clientFd → j = i
  holders : ∀ c, c ∈ s.connected ↔ ∃ i, s.Live i ∧ s.who i = c
  inj : ∀ i j, s.Live i → s.Live j → s.who i = s.who j → i = j
  nodup : s.connected.Nodup
  old : ∀ c ∈ s.connected, c < s.next
  ids : ∀ r ∈ s.forwarded, r.id = slotTid r.tid r.slot
  senders : ∀ r ∈ s.forwarded, r.client < s.next ∧
    (r.client ∈ s.connected → s.Live r.slot ∧ s.who r.slot = r.client)

section Steps

variable {s : ProxyRun} {i : Fin cmMaxClient}

/-- A loop over the descriptors stops at the slot that the descriptor is in. -/
theorem RouteInv.findSlot_fd (h : RouteInv s) (hi : s.Live i) :
    findSlot s.clients (·.clientFd = (s.clients i).clientFd) = some i :=
  findSlot_of_unique (decide_eq_true rfl) fun j hj ↦ h.fds i j hi (of_decide_eq_true hj)

/-- A new client gets a free slot and a new number. -/
structure Seated (s t : ProxyRun) (i : Fin cmMaxClient) (fd : ℤ) : Prop where
  free : ¬ s.Live i
  pos : 0 < fd
  new : ∀ j, (s.clients j).clientFd ≠ fd
  self : t.clients i = ⟨fd, i + 1⟩
  who : t.who i = s.next
  others : ∀ j, j ≠ i → t.clients j = s.clients j ∧ t.who j = s.who j
  next : t.next = s.next + 1
  connected : t.connected = s.connected ++ [s.next]
  forwarded : t.forwarded = s.forwarded

section Seated

variable {t : ProxyRun} {fd : ℤ}

theorem Seated.live (ht : Seated s t i fd) : t.Live i := by
  unfold ProxyRun.Live
  rw [ht.self]
  exact ht.pos

theorem Seated.live_iff (ht : Seated s t i fd) {j : Fin cmMaxClient} (hj : j ≠ i) :
    t.Live j ↔ s.Live j := by
  unfold ProxyRun.Live
  rw [(ht.others j hj).1]

variable (h : RouteInv s)

include h

/-- The number is new. -/
theorem RouteInv.who_lt {j : Fin cmMaxClient} (hj : s.Live j) : s.who j < s.next :=
  h.old _ ((h.holders _).mpr ⟨j, hj, rfl⟩)

variable (ht : Seated s t i fd)

include ht

theorem RouteInv.fds_seat (j k : Fin cmMaxClient)
    (hj : t.Live j) (hfd : (t.clients k).clientFd = (t.clients j).clientFd) : k = j := by
  by_cases hji : j = i
  · by_contra hkj
    rw [hji] at hkj hfd
    rw [ht.self, (ht.others k hkj).1] at hfd
    exact ht.new k hfd
  · by_cases hki : k = i
    · rw [hki, ht.self, (ht.others j hji).1] at hfd
      exact absurd hfd.symm (ht.new j)
    · rw [(ht.others j hji).1, (ht.others k hki).1] at hfd
      exact h.fds j k ((ht.live_iff hji).mp hj) hfd

theorem RouteInv.holders_seat (c : ℕ) : c ∈ t.connected ↔ ∃ j, t.Live j ∧ t.who j = c := by
  rw [ht.connected, List.mem_append, List.mem_singleton, h.holders]
  constructor
  · rintro (⟨j, hj, hwho⟩ | rfl)
    · have hji : j ≠ i := fun heq ↦ ht.free (heq ▸ hj)
      exact ⟨j, (ht.live_iff hji).mpr hj, (ht.others j hji).2.trans hwho⟩
    · exact ⟨i, ht.live, ht.who⟩
  · rintro ⟨j, hj, hwho⟩
    by_cases hji : j = i
    · rw [hji, ht.who] at hwho
      exact .inr hwho.symm
    · exact .inl ⟨j, (ht.live_iff hji).mp hj, (ht.others j hji).2.symm.trans hwho⟩

theorem RouteInv.inj_seat (j k : Fin cmMaxClient)
    (hj : t.Live j) (hk : t.Live k) (hwho : t.who j = t.who k) : j = k := by
  by_cases hji : j = i
  · by_contra hjk
    have hki : k ≠ i := fun heq ↦ hjk (hji.trans heq.symm)
    rw [hji, ht.who, (ht.others k hki).2] at hwho
    exact absurd hwho.symm (h.who_lt ((ht.live_iff hki).mp hk)).ne
  · by_cases hki : k = i
    · rw [hki, ht.who, (ht.others j hji).2] at hwho
      exact absurd hwho (h.who_lt ((ht.live_iff hji).mp hj)).ne
    · rw [(ht.others j hji).2, (ht.others k hki).2] at hwho
      exact h.inj j k ((ht.live_iff hji).mp hj) ((ht.live_iff hki).mp hk) hwho

theorem RouteInv.seat : RouteInv t := by
  refine ⟨fun j hj ↦ ?_, h.fds_seat ht, h.holders_seat ht, h.inj_seat ht, ?_, fun c hc ↦ ?_, ?_,
    fun r hr ↦ ?_⟩
  · by_cases hji : j = i
    · rw [hji, ht.self]
    · rw [(ht.others j hji).1]
      exact h.idx j ((ht.live_iff hji).mp hj)
  · rw [ht.connected, ← List.concat_eq_append]
    exact h.nodup.concat fun hmem ↦ lt_irrefl _ (h.old _ hmem)
  · rw [ht.connected, List.mem_append, List.mem_singleton] at hc
    rw [ht.next]
    rcases hc with hc | rfl
    · exact Nat.lt_succ_of_lt (h.old c hc)
    · exact Nat.lt_succ_self _
  · rw [ht.forwarded]
    exact h.ids
  · rw [ht.forwarded] at hr
    obtain ⟨hclient, hslot⟩ := h.senders r hr
    rw [ht.next, ht.connected, List.mem_append, List.mem_singleton]
    refine ⟨Nat.lt_succ_of_lt hclient, fun hmem ↦ ?_⟩
    obtain ⟨hl, hw⟩ := hslot (hmem.resolve_right hclient.ne)
    have hri : r.slot ≠ i := fun heq ↦ ht.free (heq ▸ hl)
    exact ⟨(ht.live_iff hri).mpr hl, (ht.others _ hri).2.trans hw⟩

end Seated

theorem RouteInv.connect (h : RouteInv s) {fd : ℤ} (hpos : 0 < fd)
    (hnew : ∀ i, (s.clients i).clientFd ≠ fd) : RouteInv (s.connect fd) := by
  unfold ProxyRun.connect handleClientConnect
  cases hfind : findSlot s.clients (·.clientFd ≤ 0) with
  | none =>
    refine ⟨h.idx, h.fds, h.holders, h.inj, h.nodup, fun c hc ↦ ?_, h.ids, fun r hr ↦ ?_⟩
    · exact Nat.lt_succ_of_lt (h.old c hc)
    · exact ⟨Nat.lt_succ_of_lt (h.senders r hr).1, (h.senders r hr).2⟩
  | some i =>
    have hfree : ¬ s.Live i := not_lt.mpr (of_decide_eq_true (of_findSlot hfind))
    refine h.seat ⟨hfree, hpos, hnew, ?_, ?_, fun j hj ↦ ⟨?_, ?_⟩, rfl, rfl, rfl⟩
    · exact Function.update_self i _ _
    · exact Function.update_self i _ _
    · exact Function.update_of_ne hj _ _
    · exact Function.update_of_ne hj _ _

/-- The client that hangs up leaves its slot. -/
theorem RouteInv.disconnect (h : RouteInv s) (hi : s.Live i) : RouteInv (s.disconnect i) := by
  have hclients : (s.disconnect i).clients =
      Function.update s.clients i { s.clients i with clientFd := -1 } := by
    dsimp only [ProxyRun.disconnect]
    unfold handleClientDisconnect
    rw [h.findSlot_fd hi]
    exact if_pos hi
  have hself : ¬ (s.disconnect i).Live i := by
    unfold ProxyRun.Live
    rw [hclients, Function.update_self]
    exact (by decide : ¬ (0 : ℤ) < -1)
  have hothers (j : Fin cmMaxClient) (hj : j ≠ i) : (s.disconnect i).clients j = s.clients j := by
    rw [hclients, Function.update_of_ne hj]
  have hlive (j : Fin cmMaxClient) : (s.disconnect i).Live j ↔ j ≠ i ∧ s.Live j := by
    by_cases hji : j = i
    · rw [hji]
      exact iff_of_false hself fun hand ↦ hand.1 rfl
    · unfold ProxyRun.Live
      rw [hothers j hji]
      exact ⟨fun hj ↦ ⟨hji, hj⟩, fun hand ↦ hand.2⟩
  have hmem (c : ℕ) : c ∈ (s.disconnect i).connected ↔ c ≠ s.who i ∧ c ∈ s.connected :=
    h.nodup.mem_erase_iff
  refine ⟨fun j hj ↦ ?_, fun j k hj hfd ↦ ?_, fun c ↦ ?_, fun j k hj hk ↦ ?_, h.nodup.erase _,
    fun c hc ↦ h.old c ((hmem c).mp hc).2, h.ids, fun r hr ↦ ⟨(h.senders r hr).1, fun hc ↦ ?_⟩⟩
  · obtain ⟨hji, hj⟩ := (hlive j).mp hj
    rw [hothers j hji]
    exact h.idx j hj
  · obtain ⟨hji, hj⟩ := (hlive j).mp hj
    rw [hothers j hji] at hfd
    by_cases hki : k = i
    · rw [hki, hclients, Function.update_self] at hfd
      have hneg : (0 : ℤ) < -1 := lt_of_lt_of_eq hj hfd.symm
      exact absurd hneg (by decide)
    · rw [hothers k hki] at hfd
      exact h.fds j k hj hfd
  · rw [hmem, h.holders]
    constructor
    · rintro ⟨hne, j, hj, rfl⟩
      exact ⟨j, (hlive j).mpr ⟨fun heq ↦ hne (heq ▸ rfl), hj⟩, rfl⟩
    · rintro ⟨j, hj, rfl⟩
      obtain ⟨hji, hj⟩ := (hlive j).mp hj
      exact ⟨fun heq ↦ hji (h.inj j i hj hi heq), j, hj, rfl⟩
  · exact h.inj j k ((hlive j).mp hj).2 ((hlive k).mp hk).2
  · obtain ⟨hne, hc⟩ := (hmem _).mp hc
    obtain ⟨hl, hw⟩ := (h.senders r hr).2 hc
    exact ⟨(hlive _).mpr ⟨fun heq ↦ hne (heq ▸ hw.symm), hl⟩, hw⟩

/-- What is forwarded carries the slot. -/
theorem RouteInv.request (h : RouteInv s) (hi : s.Live i) (req : MbimMessage) :
    RouteInv (s.request i req) := by
  unfold ProxyRun.request handleClientRequest
  rw [h.findSlot_fd hi, Option.map_some, h.idx i hi]
  split
  · rename_i msg hmsg
    have hid : msg.transactionId = slotTid req.transactionId i := by
      split at hmsg
      · cases hmsg
      · cases hmsg
        rfl
    have hwho := (h.holders (s.who i)).mpr ⟨i, hi, rfl⟩
    refine ⟨h.idx, h.fds, h.holders, h.inj, h.nodup, h.old, fun r hr ↦ ?_, fun r hr ↦ ?_⟩
    · rcases List.mem_append.mp hr with hr | hr
      · exact h.ids r hr
      · rw [List.mem_singleton.mp hr]
        exact hid
    · rcases List.mem_append.mp hr with hr | hr
      · exact h.senders r hr
      · rw [List.mem_singleton.mp hr]
        exact ⟨h.old _ hwho, fun _ ↦ ⟨hi, rfl⟩⟩
  · exact h

end Steps

/-! ## Deliveries -/

/-- A response goes to the connection that asked, with the id it used, and to no other; if that
connection is gone, it goes nowhere. Any other message goes once to every connection. -/
def Delivery.Right (d : Delivery) : Prop :=
  match d.req with
  | some r =>
    d.written =
      if r.client ∈ d.connected then [(r.client, { d.msg with transactionId := r.tid })] else []
  | none => (d.written.map Prod.fst).Perm d.connected ∧ d.connected.Nodup ∧
    ∀ w ∈ d.written, w.2 = d.msg

instance : ∀ d : Delivery, Decidable d.Right
  | ⟨some r, msg, connected, written⟩ =>
    inferInstanceAs (Decidable (written =
      if r.client ∈ connected then [(r.client, { msg with transactionId := r.tid })] else []))
  | ⟨none, msg, connected, written⟩ =>
    inferInstanceAs (Decidable ((written.map Prod.fst).Perm connected ∧ connected.Nodup ∧
      ∀ w ∈ written, w.2 = msg))

/-- Whether a response comes at the right time: if the client is still there, it must have used
an id below `2 ^ 24`, and if it is gone, nobody may have the slot that the id names. -/
def ProxyRun.clear (s : ProxyRun) (r : Forwarded) : Bool :=
  if r.client ∈ s.connected then r.tid.toNat < 2 ^ 24
  else ∀ i, (s.clients i).hasIdx (r.id >>> tidShift).toNat = false

/-- The condition on an event. -/
def ProxyStep.clear (s : ProxyRun) : ProxyStep → Bool
  | respond r _ => s.clear r
  | _ => true

section Deliveries

variable {s : ProxyRun} {r : Forwarded} {rsp : MbimMessage}

theorem writes_response (h : rsp.transactionId ≠ 0) :
    s.writes rsp =
      (findSlot s.clients (·.hasIdx (rsp.transactionId >>> tidShift).toNat)).elim [] fun i ↦
        [(s.who i, { rsp with transactionId := rsp.transactionId &&& tidMask })] := by
  unfold ProxyRun.writes handleDeviceResponse
  rw [if_neg h]
  cases findSlot s.clients _ with
  | none => rfl
  | some i => rfl

/-- The slot of a small id is the client's. -/
theorem RouteInv.findSlot_tid (h : RouteInv s) {i : Fin cmMaxClient} (hi : s.Live i)
    {tid : UInt32} (htid : tid.toNat < 2 ^ 24) :
    findSlot s.clients (·.hasIdx (slotTid tid i >>> tidShift).toNat) = some i := by
  rw [slotTid_shift tid i htid]
  refine findSlot_of_unique (decide_eq_true ⟨h.idx i hi, hi⟩) fun j hj ↦ ?_
  obtain ⟨hidx, hj⟩ := of_decide_eq_true hj
  exact Fin.ext (Nat.succ.inj ((h.idx j hj).symm.trans hidx))

/-- A response is delivered rightly if and only if it comes at the right time. -/
theorem RouteInv.right_iff (h : RouteInv s) (hr : r ∈ s.forwarded)
    (hid : rsp.transactionId = r.id) :
    Delivery.Right ⟨some r, rsp, s.connected, s.writes rsp⟩ ↔ s.clear r = true := by
  have hslot := h.ids r hr
  have hne : rsp.transactionId ≠ 0 := by
    rw [hid, hslot]
    exact slotTid_ne_zero r.tid r.slot
  unfold Delivery.Right ProxyRun.clear
  dsimp only
  rw [writes_response hne, hid]
  by_cases hmem : r.client ∈ s.connected
  · rw [if_pos hmem, if_pos hmem, decide_eq_true_iff]
    constructor
    · intro heq
      -- The id that is written has 24 bits.
      cases hfind : findSlot s.clients _ with
      | none =>
        rw [hfind] at heq
        cases heq
      | some i =>
        rw [hfind] at heq
        have hmsg := congrArg MbimMessage.transactionId (Prod.mk.inj (List.cons.inj heq).1).2
        dsimp only at hmsg
        rw [hslot] at hmsg
        exact (slotTid_mask_iff r.tid r.slot).mp hmsg
    · intro htid
      obtain ⟨hlive, hwho⟩ := (h.senders r hr).2 hmem
      rw [hslot, h.findSlot_tid hlive htid, (slotTid_mask_iff r.tid r.slot).mpr htid]
      dsimp only [Option.elim_some]
      rw [hwho]
  · rw [if_neg hmem, if_neg hmem, decide_eq_true_iff]
    rw [← findSlot_eq_none_iff (p := (·.hasIdx (r.id >>> tidShift).toNat))]
    cases findSlot s.clients (·.hasIdx (r.id >>> tidShift).toNat) with
    | none => exact iff_of_true rfl rfl
    | some i => exact iff_of_false (List.cons_ne_nil _ _) (Option.some_ne_none i)

/-- A message with the id 0 goes to every connection. -/
theorem RouteInv.right_indicate (h : RouteInv s) (hzero : rsp.transactionId = 0) :
    Delivery.Right ⟨none, rsp, s.connected, s.writes rsp⟩ := by
  have hwrites : s.writes rsp =
      (((List.finRange cmMaxClient).filter fun i ↦ 0 < (s.clients i).clientFd).map s.who).map
        fun c ↦ (c, rsp) := by
    unfold ProxyRun.writes handleDeviceResponse
    rw [if_pos hzero, List.map_map, List.map_map]
    rfl
  have hmem (i : Fin cmMaxClient) :
      i ∈ ((List.finRange cmMaxClient).filter fun i ↦ 0 < (s.clients i).clientFd) ↔ s.Live i := by
    rw [List.mem_filter, decide_eq_true_iff]
    exact ⟨fun hi ↦ hi.2, fun hi ↦ ⟨List.mem_finRange i, hi⟩⟩
  refine ⟨?_, h.nodup, fun w hw ↦ ?_⟩
  · have hfst (l : List ℕ) : (l.map fun c ↦ (c, rsp)).map Prod.fst = l := by
      rw [List.map_map]
      exact List.map_id l
    dsimp only
    rw [hwrites, hfst]
    refine (List.perm_ext_iff_of_nodup ?_ h.nodup).mpr fun c ↦ ?_
    · refine List.Nodup.map_on (fun i hi j hj heq ↦ ?_) ((List.nodup_finRange _).filter _)
      exact h.inj i j ((hmem i).mp hi) ((hmem j).mp hj) heq
    · rw [h.holders, List.mem_map]
      exact exists_congr fun i ↦ and_congr_left' (hmem i)
  · dsimp only at hw
    rw [hwrites] at hw
    obtain ⟨c, -, hc⟩ := List.mem_map.mp hw
    rw [← hc]

/-- The log has only right deliveries. -/
structure LogInv (s : ProxyRun) : Prop where
  route : RouteInv s
  right : ∀ d ∈ s.log, d.Right

theorem LogInv.deliver (h : LogInv s) {req : Option Forwarded} {msg : MbimMessage}
    (hright : Delivery.Right ⟨req, msg, s.connected, s.writes msg⟩) :
    LogInv (s.deliver req msg) := by
  refine ⟨⟨h.route.idx, h.route.fds, h.route.holders, h.route.inj, h.route.nodup, h.route.old,
    h.route.ids, h.route.senders⟩, fun d hd ↦ ?_⟩
  rcases List.mem_append.mp hd with hd | hd
  · exact h.right d hd
  · rw [List.mem_singleton.mp hd]
    exact hright

theorem LogInv.act {e : ProxyStep} (h : LogInv s) (he : e.enabled s = true)
    (hclear : e.clear s = true) : LogInv (e.act s) := by
  cases e with
  | connect fd =>
    obtain ⟨hpos, hnew⟩ := of_decide_eq_true he
    have hlog : (s.connect fd).log = s.log := by
      unfold ProxyRun.connect
      split <;> rfl
    exact ⟨h.route.connect hpos hnew, hlog ▸ h.right⟩
  | disconnect i => exact ⟨h.route.disconnect (of_decide_eq_true he), h.right⟩
  | request i req =>
    have hlog : (s.request i req).log = s.log := by
      unfold ProxyRun.request
      split <;> rfl
    exact ⟨h.route.request (of_decide_eq_true he) req, hlog ▸ h.right⟩
  | respond r rsp =>
    obtain ⟨hr, hid⟩ := of_decide_eq_true he
    exact h.deliver ((h.route.right_iff hr hid).mpr hclear)
  | indicate msg => exact h.deliver (h.route.right_indicate (of_decide_eq_true he))

end Deliveries

theorem RouteInv.init : RouteInv proxySystem.init := by
  have hfree (i : Fin cmMaxClient) : ¬ proxySystem.init.Live i := lt_irrefl 0
  refine ⟨fun i hi ↦ absurd hi (hfree i), fun i _ hi ↦ absurd hi (hfree i), fun c ↦ ?_,
    fun i _ hi ↦ absurd hi (hfree i), List.nodup_nil, fun c hc ↦ ?_, fun r hr ↦ ?_,
    fun r hr ↦ ?_⟩
  · refine iff_of_false List.not_mem_nil ?_
    rintro ⟨i, hi, -⟩
    exact hfree i hi
  · cases hc
  · cases hr
  · cases hr

/-- The state after some events. -/
def mbimAfter (es : List ProxyStep) : ProxyRun := proxySystem.exec proxySystem.init es

/-- The first slot. -/
def slot0 : Fin cmMaxClient := ⟨0, by decide⟩

/-- The second slot. -/
def slot1 : Fin cmMaxClient := ⟨1, by decide⟩

/-- A command with a transaction id. -/
def command (tid : UInt32) : MbimMessage := ⟨3, 12, tid, []⟩

/-- Its response. -/
def commandDone (tid : UInt32) : MbimMessage := ⟨0x80000003, 12, tid, []⟩

/-- Two clients ask with the same id; the first one is answered, the other one hangs up and is
answered too late. -/
def sharedRun : List ProxyStep :=
  [.connect 5, .connect 6, .request slot0 (command 7), .request slot1 (command 7),
    .indicate (commandDone 0), .respond ⟨0, slot0, 7, 0x01000007⟩ (commandDone 0x01000007),
    .disconnect slot1, .respond ⟨1, slot1, 7, 0x02000007⟩ (commandDone 0x02000007)]

/-- A client asks and hangs up, and another one gets its slot before the response comes. -/
def reuseRun : List ProxyStep :=
  [.connect 5, .request slot0 (command 7), .disconnect slot0, .connect 5,
    .respond ⟨0, slot0, 7, 0x01000007⟩ (commandDone 0x01000007)]

/-- Three clients are connected, and the first one uses an id with more than 24 bits. -/
def wideRun : List ProxyStep :=
  [.connect 5, .connect 6, .connect 7, .request slot0 (command 0x02000007),
    .respond ⟨0, slot0, 0x02000007, 0x03000007⟩ (commandDone 0x03000007)]

end Wwan.MbimProxy
