import Wwan.Lib.Loop
import Wwan.Lib.Tlv

/-!
# `GetTLV` of GobiNet

`GetTLV` looks for a TLV behind the four bytes of the message header and copies its value to the
caller. It goes on as long as there are more than three bytes from the position on, where a TLV
without a value has three. So such a TLV is not seen at the end of a message.
-/

namespace Wwan.GobiNet

open Bytes

/-- `-ENOMEM` -/
def enomem : ℤ := -12

/-- `-ENOMSG` -/
def enomsg : ℤ := -42

/-- What `GetTLV` returns, and what it has copied to `pOutDataBuf`. -/
structure TlvCopy where
  ret : ℤ
  copied : List UInt8
  deriving DecidableEq

section Pass

variable (pQMIMessage : List UInt8) (type : UInt8) (bufferLen pos : ℕ)

/-- The length of a TLV. -/
def tlvSize : ℕ := le16 (pQMIMessage.getD (pos + 1) 0) (pQMIMessage.getD (pos + 2) 0)

/-- A pass of the loop of `GetTLV`. It has no result if it reads behind the message. -/
def getTLVPass : Option TlvCopy ⊕ ℕ :=
  if pos + 3 < pQMIMessage.length then
    let tlvSize := tlvSize pQMIMessage pos
    if pQMIMessage.getD pos 0 = type then
      if bufferLen < tlvSize then .inl (some ⟨enomem, []⟩)
      else if pos + 3 + tlvSize ≤ pQMIMessage.length then
        .inl (some ⟨tlvSize, (pQMIMessage.drop (pos + 3)).take tlvSize⟩)
      else .inl none
    else .inr ((pos + tlvSize + 3) % 2 ^ 16)
  else .inl (some ⟨enomsg, []⟩)

end Pass

section GetTLV

variable (pQMIMessage : List UInt8) (type : UInt8) (bufferLen : ℕ)

/-- `GetTLV` on a message of `messageLen` bytes. There is no result if it reads behind the message
or does not end; there are as many passes as positions, at most. -/
def getTLV : Option TlvCopy :=
  (Loop.run (getTLVPass pQMIMessage type bufferLen) (2 ^ 16) 4).join

variable {pQMIMessage type bufferLen} {pos : ℕ} {r : Option TlvCopy}

theorem getTLVPass_inr_lt {pos' : ℕ}
    (h : getTLVPass pQMIMessage type bufferLen pos = .inr pos') : pos' < 2 ^ 16 := by
  unfold getTLVPass at h
  split at h
  · dsimp only at h
    split at h
    · split at h
      · cases h
      · split at h <;> cases h
    · cases h
      exact Nat.mod_lt _ (by decide)
  · cases h

theorem reaches_lt (h : Loop.Reaches (getTLVPass pQMIMessage type bufferLen) 4 pos) :
    pos < 2 ^ 16 := by
  cases h with
  | refl => decide
  | tail _ hb => exact getTLVPass_inr_lt hb

/-- The fuel is enough. -/
theorem getTLV_eq_of_returns
    (h : Loop.Returns (getTLVPass pQMIMessage type bufferLen) 4 r) :
    getTLV pQMIMessage type bufferLen = r := by
  have hS : ∀ t, Loop.Reaches (getTLVPass pQMIMessage type bufferLen) 4 t →
      t ∈ Finset.range (2 ^ 16) := fun t ht ↦ Finset.mem_range.mpr (reaches_lt ht)
  obtain ⟨r', hr'⟩ := Loop.Halts.exists_run_card ⟨r, h⟩ hS
  rw [Finset.card_range] at hr'
  cases h.unique ⟨_, hr'⟩
  rw [getTLV, hr']
  rfl

theorem getTLV_eq_some_iff {c : TlvCopy} :
    getTLV pQMIMessage type bufferLen = some c ↔
      Loop.Returns (getTLVPass pQMIMessage type bufferLen) 4 (some c) := by
  constructor
  · intro h
    exact ⟨_, Option.join_eq_some_iff.mp h⟩
  · exact getTLV_eq_of_returns

end GetTLV

/-! ## Lists of TLVs -/

section Lists

variable {type : UInt8} {bufferLen : ℕ}

/-- What `GetTLV` is to return and to copy for a list of TLVs. -/
def tlvAnswer (ts : List Tlv) (type : UInt8) (bufferLen : ℕ) : TlvCopy :=
  match ts.find? (·.type = type) with
  | some t => if bufferLen < t.value.length then ⟨enomem, []⟩ else ⟨t.value.length, t.value⟩
  | none => ⟨enomsg, []⟩

/-- The first TLV of a type is the last of the list, and has no value. -/
def LastEmpty (ts : List Tlv) (type : UInt8) : Prop :=
  ∃ front, ts = front ++ [⟨type, []⟩] ∧ ∀ t ∈ front, t.type ≠ type

/-- A pass at a TLV with something behind its header. -/
theorem getTLVPass_encode {pre : List UInt8} {t : Tlv} {rest : List UInt8}
    (hlen : t.value.length < 65536) (hmore : 0 < t.value.length + rest.length) :
    getTLVPass (pre ++ (t.encode ++ rest)) type bufferLen pre.length =
      if t.type = type then
        .inl (some (if bufferLen < t.value.length then ⟨enomem, []⟩
          else ⟨t.value.length, t.value⟩))
      else .inr ((pre.length + t.size) % 2 ^ 16) := by
  have hsize : tlvSize (pre ++ (t.encode ++ rest)) pre.length = t.value.length := by
    rw [tlvSize, Tlv.encode_eq]
    simp [List.getD_eq_getElem?_getD, le16_byteOf hlen]
  have htype : (pre ++ (t.encode ++ rest)).getD pre.length 0 = t.type := by
    rw [Tlv.encode_eq]
    simp [List.getD_eq_getElem?_getD]
  have hlength : (pre ++ (t.encode ++ rest)).length =
      pre.length + 3 + t.value.length + rest.length := by
    rw [List.length_append, List.length_append, Tlv.length_encode, Tlv.size, Tlv.hdrSize]
    omega
  have hvalue : ((pre ++ (t.encode ++ rest)).drop (pre.length + 3)).take t.value.length =
      t.value := by
    rw [Tlv.encode_eq, List.drop_append, List.drop_eq_nil_of_le (Nat.le_add_right _ 3)]
    simp
  unfold getTLVPass
  rw [if_pos (by omega), hsize, htype]
  by_cases h : t.type = type
  · rw [if_pos h, if_pos h, hvalue]
    split
    · rfl
    · rw [if_pos (by omega)]
  · rw [if_neg h, if_neg h, Tlv.size, Tlv.hdrSize]
    congr 2
    omega

/-- The TLVs that the loop comes to. -/
def visible : List Tlv → List Tlv
  | [] => []
  | t :: ts => if t.value = [] ∧ ts = [] then [] else t :: visible ts

theorem visible_cons {t : Tlv} {ts : List Tlv} (hmore : 0 < t.value.length + Tlv.sizeAll ts) :
    visible (t :: ts) = t :: visible ts := by
  rw [visible, if_neg]
  rintro ⟨hvalue, rfl⟩
  rw [hvalue] at hmore
  exact absurd hmore (Nat.lt_irrefl 0)

/-- The loop from the first of some TLVs on. -/
theorem returns_encodeAll (pre : List UInt8) {ts : List Tlv}
    (hsize : pre.length + Tlv.sizeAll ts < 2 ^ 16) :
    Loop.Returns (getTLVPass (pre ++ Tlv.encodeAll ts) type bufferLen) pre.length
      (some (tlvAnswer (visible ts) type bufferLen)) := by
  induction ts generalizing pre with
  | nil =>
    apply Loop.returns_of_inl
    rw [getTLVPass, if_neg]
    · rfl
    · rw [List.length_append, Tlv.length_encodeAll]
      exact Nat.not_lt.mpr (Nat.le_add_right _ 3)
  | cons t ts ih =>
    rw [Tlv.sizeAll_cons, Tlv.size, Tlv.hdrSize] at hsize
    rw [Tlv.encodeAll_cons]
    by_cases hmore : 0 < t.value.length + Tlv.sizeAll ts
    · have hpass : getTLVPass (pre ++ (t.encode ++ Tlv.encodeAll ts)) type bufferLen
          pre.length = _ :=
        getTLVPass_encode (by omega) (by rwa [Tlv.length_encodeAll])
      rw [visible_cons hmore, tlvAnswer, List.find?_cons]
      by_cases htype : t.type = type
      · rw [if_pos htype] at hpass
        rw [decide_eq_true htype]
        exact Loop.returns_of_inl hpass
      · have hnext : (pre.length + t.size) % 2 ^ 16 = (pre ++ t.encode).length := by
          rw [List.length_append, Tlv.length_encode, Tlv.size, Tlv.hdrSize]
          omega
        rw [if_neg htype, hnext] at hpass
        rw [decide_eq_false htype, Loop.returns_of_inr hpass, ← List.append_assoc]
        apply ih
        rw [List.length_append, Tlv.length_encode, Tlv.size, Tlv.hdrSize]
        omega
    · -- an empty TLV at the end is not looked at
      have hcount := Tlv.length_le_sizeAll ts
      have hvalue : t.value = [] := List.eq_nil_of_length_eq_zero (by omega)
      have hts : ts = [] := List.eq_nil_of_length_eq_zero (by omega)
      rw [visible, if_pos ⟨hvalue, hts⟩]
      apply Loop.returns_of_inl
      rw [getTLVPass, if_neg]
      · rfl
      · rw [List.length_append, List.length_append, Tlv.length_encode, Tlv.length_encodeAll,
          Tlv.size, Tlv.hdrSize]
        omega

/-- An empty TLV of the type at the end is not found. -/
theorem tlvAnswer_visible_iff (ts : List Tlv) (type : UInt8) (bufferLen : ℕ) :
    tlvAnswer (visible ts) type bufferLen = tlvAnswer ts type bufferLen ↔ ¬ LastEmpty ts type := by
  induction ts with
  | nil =>
    refine iff_of_true rfl ?_
    rintro ⟨front, heq, -⟩
    exact List.append_ne_nil_of_right_ne_nil front (List.cons_ne_nil _ _) heq.symm
  | cons t ts ih =>
    by_cases htype : t.type = type
    · have hfind : tlvAnswer (t :: ts) type bufferLen =
          if bufferLen < t.value.length then ⟨enomem, []⟩ else ⟨t.value.length, t.value⟩ := by
        rw [tlvAnswer, List.find?_cons, decide_eq_true htype]
      rw [visible, hfind]
      by_cases hend : t.value = [] ∧ ts = []
      · obtain ⟨hvalue, rfl⟩ := hend
        rw [if_pos ⟨hvalue, rfl⟩, hvalue]
        refine iff_of_false ?_ (not_not.mpr ⟨[], ?_, nofun⟩)
        · have hnot : ¬ bufferLen < ([] : List UInt8).length := Nat.not_lt_zero _
          rw [if_neg hnot]
          change ¬ (⟨enomsg, []⟩ : TlvCopy) = ⟨0, []⟩
          decide
        · rw [List.nil_append, ← htype, ← hvalue]
      · rw [if_neg hend, tlvAnswer, List.find?_cons, decide_eq_true htype]
        refine iff_of_true rfl ?_
        rintro ⟨_ | ⟨u, front⟩, heq, hfront⟩
        · cases heq
          exact hend ⟨rfl, rfl⟩
        · obtain ⟨rfl, -⟩ := List.cons.inj heq
          exact hfront _ List.mem_cons_self htype
    · have hskip : ∀ us, tlvAnswer (t :: us) type bufferLen = tlvAnswer us type bufferLen := by
        intro us
        rw [tlvAnswer, List.find?_cons, decide_eq_false htype, tlvAnswer]
      have hlast : LastEmpty (t :: ts) type ↔ LastEmpty ts type := by
        constructor
        · rintro ⟨_ | ⟨u, front⟩, heq, hfront⟩
          · cases heq
            exact absurd rfl htype
          · cases heq
            exact ⟨front, rfl, fun v hv ↦ hfront v (List.mem_cons_of_mem _ hv)⟩
        · rintro ⟨front, rfl, hfront⟩
          refine ⟨t :: front, rfl, fun u hu ↦ ?_⟩
          rcases List.mem_cons.mp hu with rfl | hu
          · exact htype
          · exact hfront u hu
      rw [hskip, hlast, ← ih, visible]
      by_cases hend : t.value = [] ∧ ts = []
      · rw [if_pos hend, hend.2]
        rfl
      · rw [if_neg hend, hskip]

/-- `GetTLV` is right about a list of TLVs if and only if the first of the wanted type is not an
empty one at the end of the message. -/
theorem getTLV_right_iff {header : List UInt8} (hheader : header.length = 4) {ts : List Tlv}
    (hsize : 4 + Tlv.sizeAll ts < 2 ^ 16) (type : UInt8) (bufferLen : ℕ) :
    getTLV (header ++ Tlv.encodeAll ts) type bufferLen = some (tlvAnswer ts type bufferLen) ↔
      ¬ LastEmpty ts type := by
  have hreturns : Loop.Returns (getTLVPass (header ++ Tlv.encodeAll ts) type bufferLen)
      header.length _ :=
    returns_encodeAll header (hheader.symm ▸ hsize)
  rw [hheader] at hreturns
  rw [getTLV_eq_of_returns hreturns, Option.some_inj]
  exact tlvAnswer_visible_iff ts type bufferLen

end Lists

/-- The value of the second of two TLVs. -/
theorem getTLV_right_second :
    4 + Tlv.sizeAll [⟨0x02, [0, 0, 0, 0]⟩, ⟨0x01, [0x03, 0x07]⟩] < 2 ^ 16 ∧
      getTLV ([0x22, 0x00, 0x0c, 0x00] ++
        Tlv.encodeAll [⟨0x02, [0, 0, 0, 0]⟩, ⟨0x01, [0x03, 0x07]⟩]) 0x01 2 =
          some ⟨2, [0x03, 0x07]⟩ :=
  ⟨by decide, (getTLV_right_iff rfl (by decide) 0x01 2).mpr fun ⟨front, heq, _⟩ ↦ by
    have hlast := congrArg List.getLast? heq
    rw [List.getLast?_concat] at hlast
    revert hlast
    decide⟩

/-- A TLV without a value at the end of a message is not found. -/
theorem getTLV_missed :
    getTLV ([0x01, 0x00, 0x03, 0x00] ++ Tlv.encodeAll [⟨0x10, []⟩]) 0x10 4 = some ⟨enomsg, []⟩ ∧
      getTLV ([0x01, 0x00, 0x03, 0x00] ++ Tlv.encodeAll [⟨0x10, []⟩]) 0x10 4 ≠
        some (tlvAnswer [⟨0x10, []⟩] 0x10 4) := by
  have hmissed : getTLV ([0x01, 0x00, 0x03, 0x00] ++ Tlv.encodeAll [⟨0x10, []⟩]) 0x10 4 =
      some ⟨enomsg, []⟩ := by
    rw [getTLV_eq_of_returns (r := some ⟨enomsg, []⟩) (Loop.returns_of_inl (by decide))]
  refine ⟨hmissed, ?_⟩
  rw [hmissed]
  decide

end Wwan.GobiNet
