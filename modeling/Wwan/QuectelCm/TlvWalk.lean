import Wwan.QuectelCm.Qmux

/-!
# The walk of `GetTLV`

`GetTLV` counts the bytes that are left in an `USHORT`. It takes the size of each TLV off before
the next is looked at, without a look at whether the TLV ends in the message. A TLV that does not
makes the counter wrap, and the walk goes on behind the message; the one that is looked for may be
returned although it does not end in the message.
-/

namespace Wwan.QuectelCm

open Bytes

/-! ## The TLV that is looked for -/

/-- The TLV with number `TLVFind` is the one that is looked for. -/
def Wanted (TLVType TLVFind : ℕ) (type : UInt8) : Prop :=
  if 0x1000 < TLVType then TLVFind + 0x1000 = TLVType else type.toNat = TLVType

instance (TLVType TLVFind : ℕ) (type : UInt8) : Decidable (Wanted TLVType TLVFind type) :=
  inferInstanceAs (Decidable
    (if 0x1000 < TLVType then TLVFind + 0x1000 = TLVType else type.toNat = TLVType))

/-- The first such TLV of a body. -/
def firstWanted (TLVType : ℕ) : ℕ → List Tlv → Option Tlv
  | _, [] => none
  | TLVFind, t :: ts =>
    if Wanted TLVType (TLVFind + 1) t.type then some t else firstWanted TLVType (TLVFind + 1) ts

/-- What is asked of `GetTLV` on a message. -/
structure TlvLaw (msg : List UInt8) (TLVType : ℕ) : Prop where
  /-- More turns do not change the result. -/
  ends : ∀ fuel > msg.length,
    getTLVLoop TLVType fuel (msg.drop hdrsSize) (qmuxMsgHdrLength msg) 0 = getTLV msg TLVType
  /-- No byte behind the message is read, and a TLV that is returned ends in it. -/
  inside : (getTLV msg TLVType).value.isSome
  /-- In a list of TLVs the first that is looked for is found. -/
  first : ∀ ts, msg.drop hdrsSize = Tlv.encodeAll ts →
    (getTLV msg TLVType).value = some ((firstWanted TLVType 0 ts).map Tlv.value)

/-- The TLV is found before one that does not end in the message, or there is none such, or the
counter is next to nothing when it has wrapped. -/
def WalkInside (msg : List UInt8) (TLVType : ℕ) : Prop :=
  let ts := (Tlv.decodeAll (msg.drop hdrsSize)).1
  let rest := (Tlv.decodeAll (msg.drop hdrsSize)).2
  (firstWanted TLVType 0 ts).isSome ∨ rest.length < Tlv.hdrSize ∨
    ¬ Wanted TLVType (ts.length + 1) (rest.getD 0 0) ∧
      rest.length + 65534 ≤ le16 (rest.getD 1 0) (rest.getD 2 0) + Tlv.hdrSize

/-! ## Turns -/

section Loop

variable {T : ℕ}

theorem getTLVLoop_short (fuel : ℕ) (bytes : List UInt8) {Length : ℕ} (hlen : Length < Tlv.hdrSize)
    (TLVFind : ℕ) : getTLVLoop T (fuel + 1) bytes Length TLVFind = .null := by
  unfold getTLVLoop
  exact if_pos hlen

/-- A turn with the header of a TLV in the message. -/
theorem getTLVLoop_cons (fuel : ℕ) (type lo hi : UInt8) (value : List UInt8) {Length : ℕ}
    (hlen : Tlv.hdrSize ≤ Length) (TLVFind : ℕ) :
    getTLVLoop T (fuel + 1) (type :: lo :: hi :: value) Length TLVFind =
      if Wanted T (TLVFind + 1) type then .tlv (type :: lo :: hi :: value)
      else getTLVLoop T fuel (value.drop (le16 lo hi))
        ((Length + 2 ^ 17 - (le16 lo hi + Tlv.hdrSize)) % 2 ^ 16) (TLVFind + 1) := by
  rw [getTLVLoop, if_neg (Nat.not_lt.mpr hlen)]
  unfold Wanted
  by_cases hindex : 0x1000 < T
  · simp only [hindex, true_and, if_true, Nat.not_le.mpr hindex, false_and, if_false]
  · simp only [hindex, false_and, if_false, Nat.not_lt.mp hindex, true_and]

/-- Every turn that goes on has passed a header. -/
theorem getTLVLoop_fuel {fuel fuel' : ℕ} {bytes : List UInt8} (h : bytes.length < fuel)
    (h' : bytes.length < fuel') (Length TLVFind : ℕ) :
    getTLVLoop T fuel bytes Length TLVFind = getTLVLoop T fuel' bytes Length TLVFind := by
  induction fuel generalizing fuel' bytes Length TLVFind with
  | zero => exact absurd h (Nat.not_lt_zero _)
  | succ fuel ih =>
    cases fuel' with
    | zero => exact absurd h' (Nat.not_lt_zero _)
    | succ fuel' =>
      by_cases hlen : Length < Tlv.hdrSize
      · rw [getTLVLoop_short _ _ hlen, getTLVLoop_short _ _ hlen]
      · match bytes with
        | type :: lo :: hi :: value =>
          have hdrop : (value.drop (le16 lo hi)).length ≤ value.length := by
            rw [List.length_drop]
            omega
          simp only [List.length_cons] at h h'
          rw [getTLVLoop_cons _ _ _ _ _ (Nat.not_lt.mp hlen),
            getTLVLoop_cons _ _ _ _ _ (Nat.not_lt.mp hlen),
            @ih fuel' (value.drop (le16 lo hi)) (by omega) (by omega)]
        | [] | [_] | [_, _] => simp [getTLVLoop, hlen]

/-- The TLVs that end in the message are passed one by one. -/
theorem getTLVLoop_append (rest : List UInt8) {ts : List Tlv} {fuel TLVFind n : ℕ}
    (hfuel : ts.length < fuel) (hsize : Tlv.sizeAll ts + n < 2 ^ 16) :
    (getTLVLoop T fuel (Tlv.encodeAll ts ++ rest) (Tlv.sizeAll ts + n) TLVFind).value =
      match firstWanted T TLVFind ts with
      | some t => some (some t.value)
      | none => (getTLVLoop T (fuel - ts.length) rest n (TLVFind + ts.length)).value := by
  induction ts generalizing fuel TLVFind with
  | nil =>
    have hzero : Tlv.sizeAll [] + n = n := Nat.zero_add _
    rw [hzero]
    rfl
  | cons t ts ih =>
    obtain ⟨fuel, rfl⟩ := Nat.exists_eq_add_of_lt hfuel
    have hsizes : Tlv.sizeAll (t :: ts) = t.value.length + 3 + Tlv.sizeAll ts :=
      congrArg (· + Tlv.sizeAll ts) (Nat.add_comm 3 _)
    rw [hsizes] at hsize ⊢
    have hlen : le16 (byteOf t.value.length 0) (byteOf t.value.length 1) = t.value.length :=
      le16_byteOf (by omega)
    rw [Tlv.encodeAll_cons, List.append_assoc, Tlv.encode_eq,
      getTLVLoop_cons _ _ _ _ _ (by rw [Tlv.hdrSize]; omega), firstWanted]
    by_cases hwanted : Wanted T (TLVFind + 1) t.type
    · rw [if_pos hwanted, if_pos hwanted]
      simp [TlvPtr.value, hlen]
    · have hrest : (t.value.length + 3 + Tlv.sizeAll ts + n + 2 ^ 17 -
          (t.value.length + Tlv.hdrSize)) % 2 ^ 16 = Tlv.sizeAll ts + n := by
        rw [Tlv.hdrSize]
        omega
      rw [if_neg hwanted, if_neg hwanted, hlen, List.drop_left, hrest,
        ih (by simp only [List.length_cons]; omega) (by omega)]
      have hturns : (t :: ts).length + fuel - ts.length = (t :: ts).length + fuel + 1 -
          (t :: ts).length := by
        simp only [List.length_cons]
        omega
      have hfind : TLVFind + 1 + ts.length = TLVFind + (t :: ts).length := by
        simp only [List.length_cons]
        omega
      rw [hturns, hfind]

/-- The turns that begin where no TLV ends in the message. -/
theorem getTLVLoop_stuck {rest : List UInt8} (hstuck : Tlv.Stuck rest)
    (hsize : rest.length < 2 ^ 16) {fuel : ℕ} (hfuel : rest.length < fuel) (TLVFind : ℕ) :
    (getTLVLoop T fuel rest rest.length TLVFind).value.isSome ↔
      rest.length < Tlv.hdrSize ∨ ¬ Wanted T (TLVFind + 1) (rest.getD 0 0) ∧
        rest.length + 65534 ≤ le16 (rest.getD 1 0) (rest.getD 2 0) + Tlv.hdrSize := by
  by_cases hshort : rest.length < Tlv.hdrSize
  · obtain ⟨fuel, rfl⟩ := Nat.exists_eq_add_of_le' (Nat.one_le_of_lt hfuel)
    rw [getTLVLoop_short _ _ hshort]
    exact iff_of_true rfl (.inl hshort)
  · have htwo : 2 ≤ fuel := by
      rw [Tlv.hdrSize] at hshort
      omega
    obtain ⟨fuel, rfl⟩ := Nat.exists_eq_add_of_le' htwo
    rw [or_iff_right hshort]
    obtain ⟨type, lo, hi, value, rfl⟩ := Tlv.exists_header (Nat.not_lt.mp hshort)
    have hlong := hstuck type lo hi value rfl
    have hlt := le16_lt lo hi
    have hlen : (type :: lo :: hi :: value).length = value.length + Tlv.hdrSize := rfl
    have hcounter : (value.length + Tlv.hdrSize + 2 ^ 17 - (le16 lo hi + Tlv.hdrSize)) %
        2 ^ 16 = value.length + 2 ^ 16 - le16 lo hi := by
      omega
    rw [getTLVLoop_cons _ _ _ _ _ (Nat.not_lt.mp hshort), hlen, hcounter,
      List.drop_eq_nil_of_le (Nat.le_of_lt hlong)]
    simp only [List.getD_cons_zero, List.getD_cons_succ]
    by_cases hwanted : Wanted T (TLVFind + 1) type
    · -- the TLV is returned, and does not end in the message
      rw [if_pos hwanted]
      simp [TlvPtr.value, Nat.not_le.mpr hlong, hwanted]
    · rw [if_neg hwanted]
      by_cases hnext : value.length + 2 ^ 16 - le16 lo hi < Tlv.hdrSize
      · rw [getTLVLoop_short _ _ hnext]
        rw [Tlv.hdrSize] at hnext ⊢
        exact iff_of_true rfl ⟨hwanted, by omega⟩
      · have houtside : getTLVLoop T (fuel + 1) [] (value.length + 2 ^ 16 - le16 lo hi)
            (TLVFind + 1) = .outside := by
          unfold getTLVLoop
          exact if_neg hnext
        rw [houtside]
        rw [Tlv.hdrSize] at hnext ⊢
        refine iff_of_false Bool.noConfusion ?_
        rintro ⟨-, hle⟩
        omega

end Loop

/-! ## Messages -/

section Message

variable {msg : List UInt8} {TLVType : ℕ}

/-- What `GetTLV` finds in a message that begins with TLVs. -/
theorem value_getTLV (hmsg : qmuxMsgHdrLength msg = (msg.drop hdrsSize).length) {ts : List Tlv}
    {rest : List UInt8} (hbody : msg.drop hdrsSize = Tlv.encodeAll ts ++ rest) :
    (getTLV msg TLVType).value =
      match firstWanted TLVType 0 ts with
      | some t => some (some t.value)
      | none =>
        (getTLVLoop TLVType (msg.length + 1 - ts.length) rest rest.length ts.length).value := by
  have hlt : qmuxMsgHdrLength msg < 2 ^ 16 := le16_lt _ _
  have hlen : (msg.drop hdrsSize).length = Tlv.sizeAll ts + rest.length := by
    rw [hbody, List.length_append, Tlv.length_encodeAll]
  have hcount := Tlv.length_le_sizeAll ts
  have hle := (List.drop_sublist hdrsSize msg).length_le
  rw [hmsg, hlen] at hlt
  rw [getTLV, hmsg, hlen, hbody, getTLVLoop_append rest (by omega) hlt, Nat.zero_add]

theorem getTLV_ends {fuel : ℕ} (hfuel : msg.length < fuel) :
    getTLVLoop TLVType fuel (msg.drop hdrsSize) (qmuxMsgHdrLength msg) 0 = getTLV msg TLVType := by
  have hle := (List.drop_sublist hdrsSize msg).length_le
  exact getTLVLoop_fuel (Nat.lt_of_le_of_lt hle hfuel) (Nat.lt_succ_of_le hle) _ _

/-- Behind a list of TLVs there is nothing to look at. -/
theorem value_getTLV_encodeAll (hmsg : qmuxMsgHdrLength msg = (msg.drop hdrsSize).length)
    {ts : List Tlv} (hbody : msg.drop hdrsSize = Tlv.encodeAll ts) :
    (getTLV msg TLVType).value = some ((firstWanted TLVType 0 ts).map Tlv.value) := by
  have hcount : ts.length ≤ msg.length := by
    calc ts.length ≤ Tlv.sizeAll ts := Tlv.length_le_sizeAll ts
      _ = (msg.drop hdrsSize).length := by rw [hbody, Tlv.length_encodeAll]
      _ ≤ msg.length := (List.drop_sublist _ _).length_le
  have hends : msg.drop hdrsSize = Tlv.encodeAll ts ++ [] := by rw [hbody, List.append_nil]
  rw [value_getTLV hmsg hends]
  cases firstWanted TLVType 0 ts with
  | some t => rfl
  | none =>
    obtain ⟨fuel, hfuel⟩ := Nat.exists_eq_add_of_le' (Nat.succ_le_of_lt (Nat.sub_pos_of_lt
      (Nat.lt_succ_of_le hcount)))
    rw [hfuel]
    rfl

theorem isSome_getTLV_iff (hmsg : qmuxMsgHdrLength msg = (msg.drop hdrsSize).length) :
    (getTLV msg TLVType).value.isSome ↔ WalkInside msg TLVType := by
  have hlt : qmuxMsgHdrLength msg < 2 ^ 16 := le16_lt _ _
  have hbody := (Tlv.encodeAll_decodeAll (msg.drop hdrsSize)).symm
  have hstuck := Tlv.stuck_decodeAll (msg.drop hdrsSize)
  rw [value_getTLV hmsg hbody]
  unfold WalkInside
  dsimp only
  cases firstWanted TLVType 0 (Tlv.decodeAll (msg.drop hdrsSize)).1 with
  | some t => exact iff_of_true rfl (.inl rfl)
  | none =>
    have hlen := congrArg List.length hbody
    have hcount := Tlv.length_le_sizeAll (Tlv.decodeAll (msg.drop hdrsSize)).1
    rw [List.length_append, Tlv.length_encodeAll, List.length_drop] at hlen
    simp only [Option.isSome_none, Bool.false_eq_true, false_or]
    rw [hmsg, List.length_drop] at hlt
    exact getTLVLoop_stuck hstuck (by omega) (by omega) _

/-- `GetTLV` ends in every message and finds the first TLV in a list of TLVs; it stays in the
message if and only if no TLV that does not end there is the one that is looked for or, but for the
longest, makes it go on. -/
theorem getTLV_law_iff (hmsg : qmuxMsgHdrLength msg = (msg.drop hdrsSize).length) (TLVType : ℕ) :
    TlvLaw msg TLVType ↔ WalkInside msg TLVType := by
  constructor
  · exact fun h ↦ (isSome_getTLV_iff hmsg).mp h.inside
  · intro h
    exact
      { ends := fun _ hfuel ↦ getTLV_ends hfuel
        inside := (isSome_getTLV_iff hmsg).mpr h
        first := fun _ hbody ↦ value_getTLV_encodeAll hmsg hbody }

end Message

/-- The TLV of type 1 says that it has 256 bytes, and has one. -/
def longTlv : List UInt8 :=
  [0x01, 0x10, 0x00, 0x00, 0x01, 0x01, 0x00, 0x01, 0x00, 0x2d, 0x00, 0x04, 0x00] ++
    [0x01, 0x00, 0x01, 0x00]

/-- `GetTLV` finds the last of two TLVs. -/
theorem getTLV_law_profile :
    TlvLaw ([0x01, 0x14, 0x00, 0x00, 0x01, 0x01, 0x00, 0x01, 0x00, 0x2d, 0x00, 0x08, 0x00] ++
      Tlv.encodeAll [⟨0x11, [0x00]⟩, ⟨0x25, [0x01]⟩]) 0x25 :=
  (getTLV_law_iff (by decide) 0x25).mpr (by
    unfold WalkInside
    rw [show List.drop hdrsSize _ = Tlv.encodeAll [⟨0x11, [0x00]⟩, ⟨0x25, [0x01]⟩] from rfl,
      Tlv.decodeAll_encodeAll (by decide)]
    decide)

/-- The search for a TLV of type `0x14` goes on behind the message. -/
theorem longTlv_outside :
    qmuxMsgHdrLength longTlv = (longTlv.drop hdrsSize).length ∧
      getTLV longTlv 0x14 = .outside ∧ ¬ TlvLaw longTlv 0x14 := by
  refine ⟨by decide, by decide, fun h ↦ ?_⟩
  have hinside := h.inside
  revert hinside
  decide

end Wwan.QuectelCm
