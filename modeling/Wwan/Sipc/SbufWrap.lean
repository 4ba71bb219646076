import Mathlib.Data.Nat.Prime.Basic
import Wwan.Sipc.SbufFifo

/-!
# Where the pointers of a ring wrap

A position in a ring is a pointer modulo the size. The pointers run in 32 bits, so that
after `2 ^ 32 - 1` comes `0`, and the position jumps unless the size divides `2 ^ 32`.
The jump shows in two writes and one read around it, for every other size.
-/

namespace Wwan.Sipc

open Wwan Bytes

/-! ## Sizes -/

/-- After the byte at the position of pointer `w` comes the one at the next position. -/
def ContinuousAt (n w : ℕ) : Prop := u32 (w + 1) % n = (w % n + 1) % n

/-- The directions of rings of size `n` are queues of bytes, wherever the pointers are. -/
def AlwaysFifo (n : ℕ) : Prop :=
  ∀ (force : Bool) (start : Dir → ℕ) (mem : Dir → ℕ → UInt8), (∀ d, start d < 2 ^ 32) →
    ∀ p, (sbufSystem force (emptyRings (fun _ ↦ n) start mem)).Reach ShortCalls p → ∀ d, Fifo (p d)

theorem continuousAt_iff (n : ℕ) : (∀ w < 2 ^ 32, ContinuousAt n w) ↔ n ∣ 2 ^ 32 := by
  rw [← Ring.succ_mod_mod_iff (by decide : 0 < 2 ^ 32)]
  refine forall₂_congr fun w _ ↦ ?_
  have hsucc : u32 ((w : ℤ) + 1) = (w + 1) % 2 ^ 32 := u32_add w 1
  rw [ContinuousAt, hsucc]

theorem alwaysFifo_of_dvd {n : ℕ} (hn : n < 2 ^ 31) (hdvd : n ∣ 2 ^ 32) : AlwaysFifo n :=
  fun _ _ _ hstart _ hs d ↦
    (PipeInv.of_reach (fun _ ↦ hn) (fun _ ↦ hdvd) hstart hs d).fifo hn hdvd

/-! ## Single calls -/

section Calls

variable {force : Bool} {init p : Dir → Pipe} {q : Pipe} {i : ℕ}

/-- A step, as the direction it is about sees it. -/
theorem reach_act (hs : (sbufSystem force init).Reach ShortCalls p) {e : Side × SbufStep}
    (he : SbufStep.enabled p e) (hg : ShortCalls p e) :
    ∃ p', (sbufSystem force init).Reach ShortCalls p' ∧
      p' (SbufStep.dir e) = e.2.act force (p (SbufStep.dir e)) :=
  ⟨_, hs.step e he hg, Function.update_self _ _ _⟩

theorem passWrite_eq {call call' : WriteCall} {m : ℕ} {o : CopyOutcome} {ring : SbufRing}
    {b : Bool} (hi : q.writers i = some (call, m))
    (hpass : writePass q.ring force call o = some (ring, call', b)) :
    q.passWrite i force o =
      let n := (call.left - call'.left).toNat
      { q with
        ring := ring
        writers := Function.update q.writers i (some (call', m + n))
        accepted := q.accepted ++ call.buf.take n } := by
  unfold Pipe.passWrite
  rw [hi]
  dsimp only
  rw [hpass]

theorem passRead_eq {call call' : ReadCall} {m : ℕ} {ok : Bool} {ring : SbufRing}
    {l : List UInt8} {b : Bool} (hi : q.readers i = some (call, m))
    (hpass : readPass q.ring call ok = some (ring, call', l, b)) :
    q.passRead i ok =
      { q with
        ring := ring
        readers := Function.update q.readers i (some (call', m + l.length))
        returned := q.returned ++ l } := by
  unfold Pipe.passRead
  rw [hi]
  dsimp only
  rw [hpass]

/-- The host writes all of `data` in one pass. -/
theorem reach_write (hs : (sbufSystem force init).Reach ShortCalls p) (hq : p .tx = q)
    (hidle : q.writers i = none) (data : List UInt8) (hdata : data ≠ [])
    (hlen : data.length < 2 ^ 31) (hsize : q.ring.size < 2 ^ 31)
    (hfit : q.ring.used + data.length ≤ q.ring.size) :
    ∃ p' w, (sbufSystem force init).Reach ShortCalls p' ∧ p' .tx = { q with
      ring := { q.ring with
        mem := Ring.store q.ring.mem q.ring.size q.ring.wt data
        wt := (q.ring.wt + data.length) % 2 ^ 32 }
      accepted := q.accepted ++ data
      writers := Function.update q.writers i w } := by
  subst hq
  have hpos : 0 < data.length := List.length_pos_iff.mpr hdata
  have hleft := WriteCall.enter_left hlen
  have hbuf : (WriteCall.enter data).buf = data := rfl
  have hrval : (WriteCall.enter data).rval = 0 := rfl
  obtain ⟨p₁, hs₁, h₁⟩ := reach_act hs (e := (.host, .enterWrite i data)) ⟨hidle, by omega⟩ hlen
  have h₁' : p₁ .tx = { p .tx with
      writers := Function.update (p .tx).writers i (some (WriteCall.enter data, 0)) } := h₁
  generalize WriteCall.enter data = call at hleft hbuf hrval h₁'
  obtain ⟨b, hpass⟩ := writePass_done (r := (p .tx).ring) hsize (by omega) force hleft rfl
  have hk : min ((p .tx).ring.size - (p .tx).ring.used) call.buf.length = data.length := by
    rw [hbuf]
    omega
  rw [hk, hbuf, List.take_length] at hpass
  have hring : (p₁ .tx).ring = (p .tx).ring := by rw [h₁']
  have hcall : (p₁ .tx).writers i = some (call, 0) := by
    rw [h₁']
    dsimp only
    rw [Function.update_self]
  have hmore : call.more (p₁ .tx).ring := by
    rw [hring]
    exact ⟨hrval, by rw [hleft, hbuf]; omega, by omega⟩
  obtain ⟨p₂, hs₂, h₂⟩ := reach_act hs₁ (e := (.host, .writePass i .done)) ⟨_, hcall, hmore⟩
    trivial
  have h₂' : p₂ .tx = (p₁ .tx).passWrite i force .done := h₂
  have hmoved : (call.left - (call.left - (data.length : ℤ))).toNat = data.length := by omega
  refine ⟨p₂, some ({ call with left := call.left - data.length, buf := data.drop data.length },
    0 + data.length), hs₂, ?_⟩
  rw [h₂', passWrite_eq hcall (by rw [hring]; exact hpass), h₁']
  dsimp only
  rw [hmoved, hbuf, List.take_length, Function.update_idem]

/-- The client reads `len` bytes in one pass. -/
theorem reach_read (hs : (sbufSystem force init).Reach ShortCalls p) (hq : p .tx = q)
    (hidle : q.readers i = none) (len : ℕ) (hlen : len < 2 ^ 31) (hpos : 0 < len)
    (hsize : q.ring.size < 2 ^ 31) (hne : q.ring.wt ≠ q.ring.rd)
    (hused : q.ring.used ≤ q.ring.size) (hfit : len ≤ q.ring.used) :
    ∃ p', (sbufSystem force init).Reach ShortCalls p' ∧
      (p' .tx).accepted = q.accepted ∧
      (p' .tx).returned = q.returned ++
        Ring.load q.ring.mem q.ring.size q.ring.rd len := by
  subst hq
  have hleft := ReadCall.enter_left hlen
  have hroom : (ReadCall.enter len).room = len := rfl
  have hrval : (ReadCall.enter len).rval = 0 := rfl
  obtain ⟨p₁, hs₁, h₁⟩ := reach_act hs (e := (.client, .enterRead i len)) ⟨hidle, by omega⟩ hlen
  have h₁' : p₁ .tx = { p .tx with
      readers := Function.update (p .tx).readers i (some (ReadCall.enter len, 0)) } := h₁
  generalize ReadCall.enter len = call at hleft hroom hrval h₁'
  obtain ⟨b, hpass⟩ := readPass_eq (r := (p .tx).ring) hsize (by omega) hused hleft rfl true
  have hk : min (p .tx).ring.used call.room = len := by rw [hroom]; omega
  rw [hk, if_pos rfl] at hpass
  have hring : (p₁ .tx).ring = (p .tx).ring := by rw [h₁']
  have hcall : (p₁ .tx).readers i = some (call, 0) := by
    rw [h₁']
    dsimp only
    rw [Function.update_self]
  have hmore : call.more (p₁ .tx).ring := by
    rw [hring]
    exact ⟨hrval, by rw [hleft, hroom]; omega, hne⟩
  obtain ⟨p₂, hs₂, h₂⟩ := reach_act hs₁ (e := (.client, .readPass i true)) ⟨_, hcall, hmore⟩
    trivial
  have h₂' : p₂ .tx = (p₁ .tx).passRead i true := h₂
  refine ⟨p₂, hs₂, ?_, ?_⟩
  · rw [h₂', passRead_eq hcall (by rw [hring]; exact hpass), h₁']
  · rw [h₂', passRead_eq hcall (by rw [hring]; exact hpass), h₁']

end Calls

/-! ## Sizes that do not divide `2 ^ 32` -/

/-- A byte that is written where there is room is in its slot only. -/
theorem store_singleton (f : ℕ → UInt8) {n s i : ℕ} (x : UInt8) (hs : s % n < n)
    (hi : i ≠ s % n) : Ring.store f n s [x] i = f i := by
  have hlen : [x].length = 1 := rfl
  unfold Ring.store
  rw [if_neg (by omega)]
  rcases Nat.lt_or_ge i (s % n) with h | h
  · exact Ring.blit_of_lt f [x] h
  · exact Ring.blit_of_ge f [x] (by omega)

/-- Two bytes are written one by one where the pointer wraps, and read together. The
second one is not found. -/
theorem not_alwaysFifo_of_not_dvd {n : ℕ} (hn : n < 2 ^ 31) (hpos : 0 < n) (hdvd : ¬ n ∣ 2 ^ 32) :
    ¬ AlwaysFifo n := by
  intro hfifo
  have hq : (2 ^ 32 - 1) % n + 1 < n := by
    have hlt := Nat.mod_lt (2 ^ 32 - 1) hpos
    refine Nat.lt_of_le_of_ne hlt fun heq ↦ hdvd (Nat.dvd_of_mod_eq_zero ?_)
    rw [show 2 ^ 32 = 2 ^ 32 - 1 + 1 by decide, Ring.succ_mod hpos, if_pos heq.ge]
  have hzero : ∀ a : ℕ, u32 ((a : ℤ) - a) = 0 := fun a ↦ by rw [Int.sub_self]; rfl
  obtain ⟨p₁, w₁, hs₁, h₁⟩ := reach_write (i := 0)
    (.init (S := sbufSystem false (emptyRings (fun _ ↦ n) (fun _ ↦ 2 ^ 32 - 1) fun _ _ ↦ 0)))
    (q := .empty n (2 ^ 32 - 1) fun _ ↦ 0) rfl rfl [0] (by decide) (by decide) hn (by
      show u32 _ + 1 ≤ n
      dsimp only [Pipe.empty]
      rw [hzero]
      omega)
  dsimp only [Pipe.empty, List.length_singleton, List.nil_append] at h₁
  have hwrap : (2 ^ 32 - 1 + 1) % 2 ^ 32 = 0 := by decide
  rw [hwrap] at h₁
  have hused₁ : u32 (((0 : ℕ) : ℤ) - ((2 ^ 32 - 1 : ℕ) : ℤ)) = 1 := by decide
  obtain ⟨p₂, w₂, hs₂, h₂⟩ := reach_write (i := 1) hs₁ h₁ rfl [1] (by decide) (by decide) hn (by
    show u32 (((0 : ℕ) : ℤ) - ((2 ^ 32 - 1 : ℕ) : ℤ)) + 1 ≤ n
    rw [hused₁]
    omega)
  dsimp only [List.length_singleton] at h₂
  rw [show (0 + 1) % 2 ^ 32 = 1 by decide] at h₂
  have hused₂ : u32 (((1 : ℕ) : ℤ) - ((2 ^ 32 - 1 : ℕ) : ℤ)) = 2 := by decide
  obtain ⟨p₃, hs₃, hacc, hret⟩ := reach_read (i := 0) hs₂ h₂ rfl 2 (by decide) (by decide) hn
    (show 1 ≠ 2 ^ 32 - 1 by decide) (by
      show u32 (((1 : ℕ) : ℤ) - ((2 ^ 32 - 1 : ℕ) : ℤ)) ≤ n
      rw [hused₂]
      omega) (by
      show 2 ≤ u32 (((1 : ℕ) : ℤ) - ((2 ^ 32 - 1 : ℕ) : ℤ))
      rw [hused₂])
  have hstream := (hfifo _ _ _ (fun _ ↦ by decide) p₃ hs₃ .tx).stream
  rw [hacc, hret] at hstream
  unfold Ring.load at hstream
  rw [if_neg (by dsimp only; omega)] at hstream
  dsimp only [Ring.segment, List.range', List.map_cons, List.map_nil, List.nil_append,
    List.cons_append, List.singleton_append] at hstream
  have hsecond := (List.cons.inj (List.cons.inj hstream).2).1
  have hmod : 0 % n < n := Nat.mod_lt 0 hpos
  rw [store_singleton _ 1 hmod (by rw [Nat.zero_mod]; omega),
    store_singleton _ 0 (by omega) (by omega)] at hsecond
  exact absurd hsecond (by decide)

/-- In a ring of `2 ^ 31` bytes or more `txsize` is negative while the ring is empty. -/
theorem writePass_huge {r : SbufRing} (hlt : r.size < 2 ^ 32) (hle : 2 ^ 31 ≤ r.size)
    (hused : r.used = 0) (hwt : r.wt = 0) (force : Bool) {call : WriteCall} (hleft : 0 ≤ call.left) :
    writePass r force call .done = none := by
  have hn : txsize r call.left = r.size - 2 ^ 32 := by
    have hint : int32 ((r.size : ℤ) - ((0 : ℕ) : ℤ)) = r.size - 2 ^ 32 := by
      unfold int32
      rw [Int.bmod_def]
      split <;> omega
    unfold txsize
    rw [hused, hint]
    omega
  have htail : tailOf r.size 0 (r.size - 2 ^ 32) = 0 := by
    unfold tailOf
    rw [show ((0 : ℕ) : ℤ) + (r.size - 2 ^ 32) - r.size = -2 ^ 32 by omega]
    decide
  unfold writePass copyIn
  dsimp only
  rw [hwt, Nat.zero_mod, hn, htail, if_neg (lt_irrefl 0)]
  unfold memcpyTo
  rw [if_neg (by omega)]
  rfl

theorem not_alwaysFifo_of_le {n : ℕ} (hn : n < 2 ^ 32) (hle : 2 ^ 31 ≤ n) : ¬ AlwaysFifo n := by
  intro hfifo
  have hused : u32 (((0 : ℕ) : ℤ) - ((0 : ℕ) : ℤ)) = 0 := by decide
  have hs : (sbufSystem false (emptyRings (fun _ ↦ n) (fun _ ↦ 0) fun _ _ ↦ 0)).Reach ShortCalls
      (emptyRings (fun _ ↦ n) (fun _ ↦ 0) fun _ _ ↦ 0) := .init
  obtain ⟨p₁, hs₁, h₁⟩ := reach_act hs (e := (.host, .enterWrite 0 [7])) ⟨rfl, by decide⟩
    (show [(7 : UInt8)].length < 2 ^ 31 by decide)
  have h₁' : p₁ .tx = (Pipe.empty n 0 fun _ ↦ 0).enterWrite 0 [7] := h₁
  have hring : (p₁ .tx).ring = ⟨n, fun _ ↦ 0, 0, 0⟩ := by rw [h₁']; rfl
  have hcall : (p₁ .tx).writers 0 = some (.enter [7], 0) := by rw [h₁']; rfl
  have hmore : (WriteCall.enter [7]).more (p₁ .tx).ring := by
    rw [hring]
    refine ⟨rfl, by decide, ?_⟩
    show u32 (((0 : ℕ) : ℤ) - ((0 : ℕ) : ℤ)) < n
    rw [hused]
    omega
  obtain ⟨p₂, hs₂, h₂⟩ := reach_act hs₁ (e := (.host, .writePass 0 .done)) ⟨_, hcall, hmore⟩ trivial
  have h₂' : p₂ .tx = (p₁ .tx).passWrite 0 false .done := h₂
  have hpass : writePass (p₁ .tx).ring false (.enter [7]) .done = none := by
    rw [hring]
    exact writePass_huge (r := ⟨n, fun _ ↦ 0, 0, 0⟩) hn hle hused rfl false (by decide)
  have hwild : (p₂ .tx).wild = true := by
    rw [h₂']
    unfold Pipe.passWrite
    rw [hcall]
    dsimp only
    rw [hpass]
  have htame := (hfifo _ _ _ (fun _ ↦ by decide) p₂ hs₂ .tx).tame
  exact Bool.false_ne_true (htame.symm.trans hwild)

/-- The positions in a ring are continuous where its pointers wrap exactly if the size
divides `2 ^ 32`, and the ring is a queue of bytes wherever its pointers are exactly if
also the size is below `2 ^ 31`. -/
theorem ring_continuous_iff {n : ℕ} (hpos : 0 < n) (hn : n < 2 ^ 32) :
    ((∀ w < 2 ^ 32, ContinuousAt n w) ↔ n ∣ 2 ^ 32) ∧
      (AlwaysFifo n ↔ n ∣ 2 ^ 32 ∧ n < 2 ^ 31) := by
  refine ⟨continuousAt_iff n, fun hfifo ↦ ?_, fun h ↦ alwaysFifo_of_dvd h.2 h.1⟩
  have hlt : n < 2 ^ 31 := by
    by_contra hge
    exact not_alwaysFifo_of_le hn (by omega) hfifo
  refine ⟨?_, hlt⟩
  by_contra hdvd
  exact not_alwaysFifo_of_not_dvd hlt hpos hdvd hfifo

/-- The `snv_nr` ring of the host and the `stty_nr` rings. -/
theorem ring_continuous_spipe :
    ((∀ w < 2 ^ 32, ContinuousAt 0x0800 w) ∧ AlwaysFifo 0x0800) ∧
      ¬ (∀ w < 2 ^ 32, ContinuousAt 0x40400 w) ∧ ¬ AlwaysFifo 0x40400 := by
  have hstty := ring_continuous_iff (n := 0x0800) (by decide) (by decide)
  have hsnv := ring_continuous_iff (n := 0x40400) (by decide) (by decide)
  exact ⟨⟨hstty.1.mpr (by decide), hstty.2.mpr (by decide)⟩,
    fun h ↦ absurd (hsnv.1.mp h) (by decide), fun h ↦ absurd (hsnv.2.mp h) (by decide)⟩

/-- Two bytes are written to the `snv_nr` ring one by one, and read together. -/
def snvRun : List (Side × SbufStep) :=
  [(.host, .enterWrite 0 [1]), (.host, .writePass 0 .done), (.host, .enterWrite 1 [2]),
    (.host, .writePass 1 .done), (.client, .enterRead 0 2), (.client, .readPass 0 true)]

/-- The rings `snvRun` begins with. -/
def snvRings : Dir → Pipe := emptyRings (fun _ ↦ 0x40400) (fun _ ↦ 2 ^ 32 - 1) fun _ _ ↦ 0

/-- The second byte goes to position `0` instead of the next one, and is not read back. -/
theorem snv_not_continuous :
    ¬ ContinuousAt 0x40400 (2 ^ 32 - 1) ∧
      (sbufSystem false snvRings).Along ShortCalls snvRings snvRun ∧
      ((sbufSystem false snvRings).exec snvRings snvRun .tx).accepted = [1, 2] ∧
      ((sbufSystem false snvRings).exec snvRings snvRun .tx).returned = [1, 0] := by
  refine ⟨?_, by decide, by decide, by decide⟩
  unfold ContinuousAt
  decide

end Wwan.Sipc
