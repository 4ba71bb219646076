import Wwan.Lib.SwappedDigits
import Wwan.QuectelCm.TlvWalk

/-!
# What `fibocom-dial` reads of a SIM

`requestGetICCID` and `requestGetIMSI` write the digits of a file into a buffer of 32 bytes,
`requestGetSIMStatus` looks for the first USIM application in the records of a card. The lengths
and counts come from the card or the modem. `GetTLV` is the text of `quectel-cm`.

A pointer into a TLV is an index of its value. A byte outside of the value or of the buffer has no
result.
-/

namespace Wwan.FibocomDial

open Bytes SwappedDigits QuectelCm

/-! ## Responses -/

/-- A message of the UIM service whose TLVs lie inside of it, and what is behind its copy. -/
structure UimResponse where
  msg : List UInt8
  heap : List UInt8
  tlvs : List Tlv
  /-- Too little for another TLV. -/
  rest : List UInt8
  length_eq : qmuxMsgHdrLength (msg ++ heap) = (msg.drop hdrsSize).length
  body_eq : msg.drop hdrsSize = Tlv.encodeAll tlvs ++ rest
  rest_lt : rest.length < Tlv.hdrSize

/-- What `pResponse` points to. -/
def UimResponse.copy (response : UimResponse) : List UInt8 := response.msg ++ response.heap

/-- What `QmiThreadSendQMI` returns, with `*ppResponse`. -/
inductive UimReply
  | failed (err : ℤ)
  | answered (response : UimResponse)

/-- `QMUXResult`. -/
def qmuxResult (msg : List UInt8) : ℕ := field16 msg 16

/-- `QMUXError`. -/
def qmuxError (msg : List UInt8) : ℕ := field16 msg 18

/-- The result of a request, and whether the response was freed. -/
structure Returned where
  ret : ℤ
  freed : Bool
  deriving DecidableEq

/-- `qmi_rsp_check_and_return`, and what a request does with a response that passes it. -/
def rspCheck {α : Type} (reply : UimReply) (same : α)
    (decode : UimResponse → Option (Returned × α)) : Option (Returned × α) :=
  match reply with
  | .failed err => some (⟨err, false⟩, same)
  | .answered response =>
    if qmuxResult response.copy ≠ 0 ∨ qmuxError response.copy ≠ 0 then
      some (⟨qmuxError response.copy, true⟩, same)
    else decode response

/-! ## `requestGetICCID` and `requestGetIMSI` -/

/-- `charmaps`. -/
def charmaps : List UInt8 := "0123456789ABCDEF".toList.map fun c ↦ UInt8.ofNat c.toNat

/-- The loop of `requestGetICCID`, for the last `todo` bytes of the content. -/
def iccidLoop (content : List UInt8) : ℕ → ℕ → ℕ → List UInt8 → Option (List UInt8 × ℕ)
  | 0, _, j, deviceICCID => some (deviceICCID, j)
  | todo + 1, i, j, deviceICCID => do
    let b ← content[i]?
    let deviceICCID ← store deviceICCID j [charmaps.getD (b &&& 0x0F).toNat 0]
    let deviceICCID ← store deviceICCID (j + 1) [charmaps.getD ((b &&& 0xF0) >>> 4).toNat 0]
    iccidLoop content todo (i + 1) (j + 2) deviceICCID

/-- `DeviceICCID` after a content was decoded into it. -/
def decodeICCID (pUimContent deviceICCID : List UInt8) : Option (List UInt8) := do
  let lo ← pUimContent[0]?
  let hi ← pUimContent[1]?
  let (deviceICCID, j) ← iccidLoop (pUimContent.drop 2) (le16 lo hi) 0 0 deviceICCID
  store deviceICCID j [0]

/-- A request that looks for the content and frees the response. -/
def requestContent (decode : List UInt8 → List UInt8 → Option (List UInt8)) (reply : UimReply)
    (buf : List UInt8) : Option (Returned × List UInt8) :=
  rspCheck reply buf fun response ↦
    match (getTLV response.copy 0x11).value with
    | none => none
    | some none => some (⟨0, true⟩, buf)
    | some (some pUimContent) => (decode pUimContent buf).map fun buf ↦ (⟨0, true⟩, buf)

/-- `requestGetICCID` with `DeviceICCID`. -/
def requestGetICCID : UimReply → List UInt8 → Option (Returned × List UInt8) :=
  requestContent decodeICCID

/-- The loop of `requestGetIMSI`, for the last `todo` bytes that the first one announces. -/
def imsiLoop (content : List UInt8) : ℕ → ℕ → ℕ → List UInt8 → Option (List UInt8 × ℕ)
  | 0, _, j, deviceIMSI => some (deviceIMSI, j)
  | todo + 1, i, j, deviceIMSI => do
    let b ← content[i + 1]?
    let (deviceIMSI, j) ←
      if i ≠ 0 then (store deviceIMSI j [(b &&& 0x0F) + 48]).map fun buf ↦ (buf, j + 1)
      else some (deviceIMSI, j)
    let deviceIMSI ← store deviceIMSI j [((b &&& 0xF0) >>> 4) + 48]
    imsiLoop content todo (i + 1) (j + 1) deviceIMSI

/-- `DeviceIMSI` after a content was decoded into it. -/
def decodeIMSI (pUimContent deviceIMSI : List UInt8) : Option (List UInt8) := do
  let content := pUimContent.drop 2
  let length ← content[0]?
  let (deviceIMSI, j) ← imsiLoop content length.toNat 0 0 deviceIMSI
  store deviceIMSI j [0]

/-- `requestGetIMSI` with `DeviceIMSI`. -/
def requestGetIMSI : UimReply → List UInt8 → Option (Returned × List UInt8) :=
  requestContent decodeIMSI

/-! ## `requestGetSIMStatus` -/

/-- `SIM_Status`. -/
inductive SimStatus
  | absent
  | notReady
  | ready
  | pin
  | puk
  | networkPersonalization
  | bad
  deriving DecidableEq

/-- The value of a `SIM_Status`. -/
def SimStatus.toNat : SimStatus → ℕ
  | absent => 0
  | notReady => 1
  | ready => 2
  | pin => 3
  | puk => 4
  | networkPersonalization => 5
  | bad => 6

/-- `SIM_Status_String`. -/
def simStatusString : List String :=
  ["SIM_ABSENT", "SIM_NOT_READY", "SIM_READY", "SIM_PIN", "SIM_PUK", "SIM_NETWORK_PERSONALIZATION"]

/-- The value of the card status behind `sizeof(QMIUIM_CARD_STATUS)` bytes of the TLV. -/
def instanceStart : ℕ := 12 - Tlv.hdrSize

/-- `sizeof(Instance)`. -/
def instanceSize : ℕ := 6

/-- `sizeof(QMIUIM_APP_STATUS)`. -/
def appStatusSize : ℕ := 30

/-- A string that is printed is read up to its first zero. -/
def printed (value : List UInt8) (i : ℕ) : Option (List UInt8) :=
  if 0 ∈ value.drop i then some ((value.drop i).takeWhile (· ≠ 0)) else none

/-- `curr_ints` and `curr_app`. -/
def currInstance (value : List UInt8) (simSelect : ℤ) : Option (ℕ × ℕ) :=
  if simSelect = 0 then
    some (instanceStart, instanceStart + instanceSize)
  else do
    let numApp ← value[instanceStart + 5]?
    let currInts := instanceStart + instanceSize + appStatusSize * numApp.toNat
    some (currInts, currInts + instanceSize)

/-- The loop over the applications: the index of the first USIM application, or none. -/
def usimLoop (value : List UInt8) (currApp : ℕ) : ℕ → ℕ → Option (Option ℕ)
  | 0, _ => some none
  | todo + 1, i => do
    let appType ← value[currApp + appStatusSize * i]?
    if appType = 2 then some (some i) else usimLoop value currApp todo (i + 1)

/-- The status that follows from `CardState` and `PIN1State`. -/
def simStatus (cardState pin1State : UInt8) : SimStatus :=
  if cardState = 1 ∧ (pin1State = 2 ∨ pin1State = 3) then .ready
  else if cardState = 1 then
    let status := if pin1State = 1 then .pin else .absent
    if pin1State = 4 then .puk
    else if pin1State = 5 then .bad
    else if pin1State = 0 ∨ pin1State = 2 ∨ pin1State = 3 then .ready
    else status
  else .absent

/-- `PIN1State` of an application, or that of the universal PIN. -/
def pin1State (value : List UInt8) (currInts app : ℕ) : Option UInt8 := do
  let univPIN ← value[app + 23]?
  if univPIN = 1 then value[currInts + 1]? else value[app + 24]?

/-- `requestGetSIMStatus` behind the check of the response. -/
def decodeSIMStatus (simSelect : ℤ) (response : UimResponse) :
    Option (Returned × Option SimStatus) :=
  match (getTLV response.copy 0x10).value with
  | none => none
  | some none => none -- an offset of `NULL` is read
  | some (some value) => do
    let (currInts, currApp) ← currInstance value simSelect
    let _ ← printed value currInts
    let cardState ← value[currInts]?
    let numApp ← value[currInts + 5]?
    match ← usimLoop value currApp numApp.toNat 0 with
    | none => some (⟨-1, false⟩, some .absent)
    | some i =>
      let pin1State ← pin1State value currInts (currApp + appStatusSize * i)
      let status := simStatus cardState pin1State
      let _ ← simStatusString[status.toNat]?
      some (⟨0, true⟩, some status)

/-- `requestGetSIMStatus`, with `*pSIMStatus` if it is set. -/
def requestGetSIMStatus (reply : UimReply) (simSelect : ℤ) :
    Option (Returned × Option SimStatus) :=
  rspCheck reply none (decodeSIMStatus simSelect)

/-! ## The loops over the digits -/

section Digits

variable {content buf : List UInt8} {b : UInt8} {i j todo : ℕ}

theorem toNat_low (b : UInt8) : (b &&& 0x0F).toNat = b.toNat % 16 := by
  rw [UInt8.toNat_and]
  exact Nat.and_two_pow_sub_one_eq_mod b.toNat 4

theorem toNat_high (b : UInt8) : ((b &&& 0xF0) >>> 4).toNat = b.toNat / 16 := by
  have hlt : b.toNat / 16 < 2 ^ 4 := Nat.div_lt_of_lt_mul b.toNat_lt
  have hshift : ((b &&& 0xF0) >>> 4).toNat = (b.toNat &&& 0xF0) >>> 4 := by
    rw [UInt8.toNat_shiftRight, UInt8.toNat_and]
    rfl
  rw [hshift, Nat.shiftRight_and_distrib, Nat.shiftRight_eq_div_pow]
  calc b.toNat / 2 ^ 4 &&& 0xF0 >>> 4 = b.toNat / 16 % 2 ^ 4 :=
        Nat.and_two_pow_sub_one_eq_mod (b.toNat / 16) 4
    _ = b.toNat / 16 := Nat.mod_eq_of_lt hlt

/-- The characters that `requestGetICCID` writes for the halves of a byte. -/
def iccidChar (n : ℕ) : UInt8 := charmaps.getD n 0

/-- The characters that `requestGetIMSI` writes for the halves of a byte. -/
def imsiChar (n : ℕ) : UInt8 := UInt8.ofNat (n + 48)

theorem imsiChar_low (b : UInt8) : (b &&& 0x0F) + 48 = imsiChar (b.toNat % 16) := by
  rw [← toNat_low, imsiChar, UInt8.ofNat_add, UInt8.ofNat_toNat]
  rfl

theorem imsiChar_high (b : UInt8) : ((b &&& 0xF0) >>> 4) + 48 = imsiChar (b.toNat / 16) := by
  rw [← toNat_high, imsiChar, UInt8.ofNat_add, UInt8.ofNat_toNat]
  rfl

/-- The characters of some bytes of the content. -/
def chars (f : ℕ → UInt8) (content : List UInt8) (i todo : ℕ) : List UInt8 :=
  (((content.drop i).take todo).flatMap halves).map f

theorem chars_zero (f : ℕ → UInt8) : chars f content i 0 = [] := by
  rw [chars, List.take_zero]
  rfl

theorem chars_succ (f : ℕ → UInt8) (h : content[i]? = some b) (todo : ℕ) :
    chars f content i (todo + 1) =
      f (b.toNat % 16) :: f (b.toNat / 16) :: chars f content (i + 1) todo := by
  obtain ⟨hlt, rfl⟩ := List.getElem?_eq_some_iff.mp h
  rw [chars, List.drop_eq_getElem_cons hlt, List.take_succ_cons, List.flatMap_cons]
  rfl

theorem length_chars (f : ℕ → UInt8) (h : i + todo ≤ content.length) :
    (chars f content i todo).length = 2 * todo := by
  have hlen : ((content.drop i).take todo).length = todo := by
    rw [List.length_take, List.length_drop]
    omega
  have hconst : ((content.drop i).take todo).map (fun b ↦ (halves b).length) =
      List.replicate todo 2 := List.map_const'.trans (congrArg (List.replicate · 2) hlen)
  rw [chars, List.length_map, List.length_flatMap, hconst, List.sum_replicate_nat, Nat.mul_comm]

/-- Two stores of one character and then the rest. -/
theorem store_two (x y : UInt8) (xs : List UInt8) : store buf j (x :: y :: xs) =
    (store buf j [x]).bind fun buf ↦ (store buf (j + 1) [y]).bind fun buf ↦
      store buf (j + 2) xs := by
  have hx : x :: y :: xs = [x] ++ ([y] ++ xs) := rfl
  rw [hx, store_append]
  refine Option.bind_congr fun buf _ ↦ ?_
  rw [store_append]
  rfl

/-- Some bytes of the content are read and the characters of their halves are written. -/
def digitLoop (f : ℕ → UInt8) (content : List UInt8) :
    ℕ → ℕ → ℕ → List UInt8 → Option (List UInt8 × ℕ)
  | 0, _, j, buf => some (buf, j)
  | todo + 1, i, j, buf =>
    content[i]?.bind fun b ↦ (store buf j [f (b.toNat % 16)]).bind fun buf ↦
      (store buf (j + 1) [f (b.toNat / 16)]).bind fun buf ↦
        digitLoop f content todo (i + 1) (j + 2) buf

theorem digitLoop_eq (f : ℕ → UInt8) (h : i ≤ content.length) (hj : j ≤ buf.length) :
    digitLoop f content todo i j buf =
      if i + todo ≤ content.length then
        (store buf j (chars f content i todo)).map fun buf ↦ (buf, j + 2 * todo)
      else none := by
  induction todo generalizing i j buf with
  | zero =>
    rw [Nat.add_zero, if_pos h, chars_zero, store_nil hj]
    rfl
  | succ todo ih =>
    rw [digitLoop]
    cases hb : content[i]? with
    | none =>
      have hle := List.getElem?_eq_none_iff.mp hb
      rw [if_neg (by omega)]
      rfl
    | some b =>
      obtain ⟨hlt, -⟩ := List.getElem?_eq_some_iff.mp hb
      have hsum : i + (todo + 1) = i + 1 + todo := by omega
      have hend : j + 2 * (todo + 1) = j + 2 + 2 * todo := by omega
      rw [Option.bind_some, chars_succ f hb, store_two, hsum, hend]
      have hrest {buf₁ buf₂ : List UInt8}
          (h₂ : store buf₁ (j + 1) [f (b.toNat / 16)] = some buf₂) :
          digitLoop f content todo (i + 1) (j + 2) buf₂ = _ :=
        ih hlt (le_of_store h₂)
      split
      next hfit =>
        rw [Option.map_bind]
        refine Option.bind_congr fun buf₁ _ ↦ ?_
        rw [Function.comp, Option.map_bind]
        refine Option.bind_congr fun buf₂ h₂ ↦ ?_
        rw [hrest h₂, if_pos hfit]
        rfl
      next hfit =>
        refine Option.bind_eq_none_iff.mpr fun buf₁ _ ↦ Option.bind_eq_none_iff.mpr
          fun buf₂ h₂ ↦ ?_
        rw [hrest h₂, if_neg hfit]

theorem iccidLoop_eq_digitLoop (todo i j : ℕ) (buf : List UInt8) :
    iccidLoop content todo i j buf = digitLoop iccidChar content todo i j buf := by
  induction todo generalizing i j buf with
  | zero => rfl
  | succ todo ih =>
    rw [iccidLoop, digitLoop]
    simp only [toNat_low, toNat_high, ih]
    rfl

/-- Behind the first byte, of which only the high half is written. -/
theorem imsiLoop_eq_digitLoop (hi : i ≠ 0) (todo j : ℕ) (buf : List UInt8) :
    imsiLoop content todo i j buf = digitLoop imsiChar content todo (i + 1) j buf := by
  induction todo generalizing i j buf with
  | zero => rfl
  | succ todo ih =>
    rw [imsiLoop, digitLoop]
    simp only [if_pos hi, imsiChar_low, imsiChar_high, ih (Nat.succ_ne_zero i)]
    refine Option.bind_congr fun b _ ↦ ?_
    cases store buf j [imsiChar (b.toNat % 16)]
    all_goals rfl

end Digits

/-! ## Decoding a file -/

/-- The string in a buffer. -/
def cString (buf : List UInt8) : List UInt8 := buf.takeWhile (· ≠ 0)

/-- The characters of digits. -/
def text (ds : List ℕ) : List UInt8 := ds.map imsiChar

/-- A request leaves neither the TLV nor its buffer of 32 bytes, and leaves the digits there that
the content encodes. -/
def Decodes (request : List UInt8 → Option (Returned × List UInt8)) (encodes : List ℕ → Prop) :
    Prop :=
  ∀ buf, buf.length = 32 → ∃ r, request buf = some r ∧
    ∀ ds, (∀ d ∈ ds, d < 10) → encodes ds → cString r.2 = text ds

section Decoding

variable {value content buf out : List UInt8} {encodes : List ℕ → Prop} {ds : List ℕ} {t n : ℕ}
  {request : List UInt8 → Option (Returned × List UInt8)}

theorem cString_store (hzero : 0 ∉ out) {buf' : List UInt8}
    (h : store buf 0 (out ++ [0]) = some buf') : cString buf' = out := by
  have hfit := le_of_store h
  rw [length_of_store h] at hfit
  rw [store, if_pos hfit, Option.some.injEq, List.take_zero, List.nil_append,
    List.append_assoc] at h
  rw [cString, ← h, List.takeWhile_append_of_pos]
  · exact List.append_nil out
  · intro x hx
    rw [decide_eq_true_iff]
    exact fun hx' ↦ hzero (hx' ▸ hx)

/-- What a request does that reads the TLV if it is long enough, and then writes a string. -/
theorem decodes_iff {cond : Prop} [Decidable cond] (hzero : 0 ∉ out) (hrequest : ∀ buf,
    request buf = (if cond then store buf 0 (out ++ [0]) else none).map
      fun buf ↦ (⟨0, true⟩, buf)) :
    Decodes request encodes ↔
      cond ∧ out.length < 32 ∧ ∀ ds, (∀ d ∈ ds, d < 10) → encodes ds → out = text ds := by
  constructor
  · intro h
    obtain ⟨r, hr, htext⟩ := h (List.replicate 32 0) List.length_replicate
    rw [hrequest] at hr
    obtain ⟨buf', hstore, rfl⟩ := Option.map_eq_some_iff.mp hr
    split at hstore
    next hcond =>
      have hfit := le_of_store hstore
      rw [length_of_store hstore, List.length_append, List.length_replicate,
        List.length_singleton] at hfit
      refine ⟨hcond, by omega, fun ds hds hencodes ↦ ?_⟩
      rw [← htext ds hds hencodes]
      exact (cString_store hzero hstore).symm
    next => cases hstore
  · rintro ⟨hcond, hlen, htext⟩ buf hbuf
    have hfit : 0 + (out ++ [0]).length ≤ buf.length := by
      rw [List.length_append, List.length_singleton]
      omega
    have hstore : store buf 0 (out ++ [0]) = some _ := if_pos hfit
    refine ⟨_, by rw [hrequest, if_pos hcond, hstore, Option.map_some], fun ds hds hencodes ↦ ?_⟩
    rw [← htext ds hds hencodes]
    exact cString_store hzero hstore

theorem decodes_same (h : ∀ ds, ¬ encodes ds) {r : Returned}
    (hrequest : ∀ buf, request buf = some (r, buf)) : Decodes request encodes :=
  fun buf _ ↦ ⟨_, hrequest buf, fun ds _ hencodes ↦ absurd hencodes (h ds)⟩

theorem iccidChar_of_lt {d : ℕ} (h : d < 10) : iccidChar d = imsiChar d := by
  revert d
  decide

theorem iccidChar_ne_zero {d : ℕ} (h : d < 16) : iccidChar d ≠ 0 := by
  revert d
  decide

theorem imsiChar_ne_zero {d : ℕ} (h : d < 16) : imsiChar d ≠ 0 := by
  revert d
  decide

/-- No character is the terminator. -/
theorem zero_not_mem_chars {f : ℕ → UInt8} (hf : ∀ {d}, d < 16 → f d ≠ 0) (i todo : ℕ) :
    0 ∉ chars f content i todo := by
  intro hmem
  obtain ⟨d, hd, heq⟩ := List.mem_map.mp hmem
  obtain ⟨b, -, hb⟩ := List.mem_flatMap.mp hd
  refine hf ?_ heq
  have hlt := b.toNat_lt
  rcases List.mem_cons.mp hb with rfl | hb
  · exact Nat.mod_lt _ (by omega)
  · rw [List.mem_singleton.mp hb]
    omega

/-- The characters of an encoding are those of its digits unless it is filled up. -/
theorem map_filler_iff {f : ℕ → UInt8} (hf : ∀ d ∈ ds, f d = imsiChar d) (fill : List ℕ) :
    (ds ++ fill).map f = text ds ↔ fill = [] := by
  have hmap : ds.map f = text ds := List.map_congr_left hf
  rw [List.map_append, hmap]
  constructor
  · intro h
    have hlen := congrArg List.length h
    rw [List.length_append, List.length_map] at hlen
    exact List.eq_nil_of_length_eq_zero (by omega)
  · rintro rfl
    exact List.append_nil _

/-! ## ICCID -/

/-- `content_len`. -/
def contentLen (value : List UInt8) : ℕ := le16 (value.getD 0 0) (value.getD 1 0)

/-- The bytes that `content_len` announces. -/
def iccidContent (value : List UInt8) : List UInt8 := (value.drop 2).take (contentLen value)

/-- `DeviceICCID` is written if the TLV has the bytes that it announces. -/
theorem decodeICCID_eq (value buf : List UInt8) :
    decodeICCID value buf =
      if contentLen value + 2 ≤ value.length then
        store buf 0 (chars iccidChar (value.drop 2) 0 (contentLen value) ++ [0])
      else none := by
  match value with
  | [] | [_] =>
    rw [if_neg (by simp)]
    rfl
  | lo :: hi :: content =>
    have hlen : contentLen (lo :: hi :: content) = le16 lo hi := rfl
    have hdrop : (lo :: hi :: content).drop 2 = content := rfl
    have hdecode : decodeICCID (lo :: hi :: content) buf =
        (iccidLoop content (le16 lo hi) 0 0 buf).bind fun r ↦ store r.1 r.2 [0] := rfl
    rw [hlen, hdrop, hdecode, iccidLoop_eq_digitLoop,
      digitLoop_eq _ (Nat.zero_le _) (Nat.zero_le _), Nat.zero_add, Nat.zero_add,
      List.length_cons, List.length_cons]
    by_cases hfit : le16 lo hi ≤ content.length
    · have hchars : (chars iccidChar content 0 (le16 lo hi)).length = 2 * le16 lo hi :=
        length_chars iccidChar (by omega)
      rw [if_pos hfit, if_pos (by omega), store_append, Option.bind_map, hchars, Nat.zero_add]
      rfl
    · rw [if_neg hfit, if_neg (by omega)]
      rfl

/-! ## IMSI -/

/-- The length that the file begins with. -/
def imsiLength (value : List UInt8) : ℕ := (value.getD 2 0).toNat

/-- The bytes that this length announces. -/
def imsiContent (value : List UInt8) : List UInt8 := (value.drop 3).take (imsiLength value)

/-- The characters that are written, without the one of the type. -/
def imsiChars (value : List UInt8) : List UInt8 :=
  (chars imsiChar (value.drop 2) 1 (imsiLength value)).tail

/-- `DeviceIMSI` is written if the TLV has the bytes that the file announces. -/
theorem decodeIMSI_eq (value buf : List UInt8) :
    decodeIMSI value buf =
      if imsiLength value + 3 ≤ value.length then store buf 0 (imsiChars value ++ [0])
      else none := by
  match value with
  | [] | [_] | [_, _] =>
    rw [if_neg (by simp)]
    rfl
  | x :: y :: length :: content =>
    have hlen : imsiLength (x :: y :: length :: content) = length.toNat := rfl
    have hchars : imsiChars (x :: y :: length :: content) =
        (chars imsiChar (length :: content) 1 length.toNat).tail := rfl
    have hdecode : decodeIMSI (x :: y :: length :: content) buf =
        (imsiLoop (length :: content) length.toNat 0 0 buf).bind fun r ↦ store r.1 r.2 [0] := rfl
    rw [hlen, hchars, hdecode]
    cases length.toNat with
    | zero =>
      rw [if_pos (by simp), chars_zero]
      rfl
    | succ todo =>
      cases content with
      | nil =>
        rw [if_neg (by simp)]
        rfl
      | cons b content =>
        have hb : (length :: b :: content)[1]? = some b := rfl
        have hloop : imsiLoop (length :: b :: content) (todo + 1) 0 0 buf =
            (store buf 0 [imsiChar (b.toNat / 16)]).bind fun buf ↦
              imsiLoop (length :: b :: content) todo 1 1 buf := by
          rw [← imsiChar_high]
          rfl
        have hsplit (xs : List UInt8) : store buf 0 (imsiChar (b.toNat / 16) :: xs) =
            (store buf 0 [imsiChar (b.toNat / 16)]).bind fun buf ↦ store buf 1 xs :=
          store_append buf 0 [imsiChar (b.toNat / 16)] xs
        have hrest {buf₁ : List UInt8}
            (h₁ : store buf 0 [imsiChar (b.toNat / 16)] = some buf₁) :
            imsiLoop (length :: b :: content) todo 1 1 buf₁ = _ :=
          (imsiLoop_eq_digitLoop Nat.one_ne_zero todo 1 buf₁).trans
            (digitLoop_eq imsiChar (by simp) (le_of_store h₁))
        rw [hloop, chars_succ imsiChar hb, List.tail_cons, List.cons_append,
          hsplit (chars imsiChar _ _ todo ++ [0]), Option.bind_assoc]
        have hlength : (x :: y :: length :: b :: content).length =
            (length :: b :: content).length + 2 := rfl
        rw [hlength]
        split
        next hfit =>
          have hfit' : 1 + 1 + todo ≤ (length :: b :: content).length := by omega
          refine Option.bind_congr fun buf₁ h₁ ↦ ?_
          rw [hrest h₁, if_pos hfit', Option.bind_map, store_append,
            length_chars imsiChar hfit']
          rfl
        next hfit =>
          refine Option.bind_eq_none_iff.mpr fun buf₁ h₁ ↦ ?_
          rw [hrest h₁, if_neg (by omega)]
          rfl

end Decoding

/-! ## Replies -/

/-- The value of the TLV that is looked for. -/
def UimResponse.value (response : UimResponse) (TLVType : ℕ) : Option (List UInt8) :=
  (firstWanted TLVType 0 response.tlvs).map Tlv.value

/-- The response of a reply that passes the check. -/
def UimReply.accepted : UimReply → Option UimResponse
  | .failed _ => none
  | .answered response =>
    if qmuxResult response.copy ≠ 0 ∨ qmuxError response.copy ≠ 0 then none else some response

/-- The value of a TLV of a response that passes the check. -/
def UimReply.tlv (reply : UimReply) (TLVType : ℕ) : Option (List UInt8) :=
  reply.accepted.bind fun response ↦ response.value TLVType

/-- There is a response to free. -/
def UimReply.HasResponse : UimReply → Prop
  | .failed _ => False
  | .answered _ => True

section Replies

variable {reply : UimReply} {response : UimResponse} {α : Type} {same : α}
  {decode : UimResponse → Option (Returned × α)} {value : List UInt8}

theorem value_getTLV_response (response : UimResponse) (TLVType : ℕ) :
    (getTLV response.copy TLVType).value = some (response.value TLVType) := by
  have hlen := congrArg List.length response.body_eq
  rw [List.length_append, Tlv.length_encodeAll] at hlen
  have hlt : qmuxMsgHdrLength response.copy < 2 ^ 16 := le16_lt _ _
  have hlength : qmuxMsgHdrLength response.copy =
      Tlv.sizeAll response.tlvs + response.rest.length := response.length_eq.trans hlen
  have hcount := Tlv.length_le_sizeAll response.tlvs
  rw [List.length_drop] at hlen
  have hcopy : response.copy.length = response.msg.length + response.heap.length :=
    List.length_append
  obtain ⟨more, hbody⟩ : ∃ more, response.copy.drop hdrsSize =
      Tlv.encodeAll response.tlvs ++ more := by
    rw [UimResponse.copy, List.drop_append, response.body_eq, List.append_assoc]
    exact ⟨_, rfl⟩
  rw [hlength] at hlt
  rw [getTLV, hlength, hbody, getTLVLoop_append more (by omega) hlt, UimResponse.value]
  cases firstWanted TLVType 0 response.tlvs with
  | some t => rfl
  | none =>
    obtain ⟨fuel, hfuel⟩ : ∃ fuel, response.copy.length + 1 - response.tlvs.length = fuel + 1 :=
      Nat.exists_eq_add_of_le' (by omega)
    dsimp only
    rw [hfuel, getTLVLoop_short _ _ response.rest_lt]
    rfl

theorem accepted_answered (response : UimResponse) : (UimReply.answered response).accepted =
    if qmuxResult response.copy ≠ 0 ∨ qmuxError response.copy ≠ 0 then none else some response :=
  rfl

theorem rspCheck_of_accepted (h : reply.accepted = some response) :
    rspCheck reply same decode = decode response := by
  cases reply with
  | failed err => cases h
  | answered r =>
    rw [accepted_answered] at h
    split at h
    next => cases h
    next hok =>
      obtain rfl := Option.some.inj h
      exact if_neg hok

/-- Another reply is not decoded, and a response is freed. -/
theorem rspCheck_of_not_accepted (h : reply.accepted = none) :
    ∃ r : Returned, (∀ {β : Type} (same : β) decode, rspCheck reply same decode = some (r, same)) ∧
      (reply.HasResponse → r.freed = true) := by
  cases reply with
  | failed err => exact ⟨⟨err, false⟩, fun _ _ ↦ rfl, False.elim⟩
  | answered r =>
    rw [accepted_answered] at h
    split at h
    next herr => exact ⟨⟨qmuxError r.copy, true⟩, fun _ _ ↦ if_pos herr, fun _ ↦ rfl⟩
    next => cases h

theorem tlv_of_accepted (h : reply.accepted = some response) (TLVType : ℕ) :
    reply.tlv TLVType = response.value TLVType := by
  rw [UimReply.tlv, h, Option.bind_some]

/-- What a request for a file does with the content. -/
theorem requestContent_eq (decode : List UInt8 → List UInt8 → Option (List UInt8))
    (h : reply.tlv 0x11 = some value) (buf : List UInt8) :
    requestContent decode reply buf = (decode value buf).map fun buf ↦ (⟨0, true⟩, buf) := by
  obtain ⟨response, hresponse, hvalue⟩ := Option.bind_eq_some_iff.mp h
  rw [requestContent, rspCheck_of_accepted hresponse, value_getTLV_response, hvalue]

/-- Without a content the buffer stays. -/
theorem requestContent_same (decode : List UInt8 → List UInt8 → Option (List UInt8))
    (h : reply.tlv 0x11 = none) :
    ∃ r : Returned, ∀ buf, requestContent decode reply buf = some (r, buf) := by
  cases haccepted : reply.accepted with
  | none =>
    obtain ⟨r, hr, -⟩ := rspCheck_of_not_accepted haccepted
    exact ⟨r, fun buf ↦ hr buf _⟩
  | some response =>
    rw [tlv_of_accepted haccepted] at h
    refine ⟨⟨0, true⟩, fun buf ↦ ?_⟩
    rw [requestContent, rspCheck_of_accepted haccepted, value_getTLV_response, h]

/-- Without a content there is nothing to decode. -/
theorem decodes_of_none {decode : List UInt8 → List UInt8 → Option (List UInt8)}
    {encodes : List UInt8 → List ℕ → Prop} (h : reply.tlv 0x11 = none) :
    Decodes (requestContent decode reply) fun ds ↦
      ∃ value, reply.tlv 0x11 = some value ∧ encodes value ds := by
  obtain ⟨r, hr⟩ := requestContent_same decode h
  refine decodes_same (fun ds hx ↦ ?_) hr
  obtain ⟨value, hvalue, -⟩ := hx
  rw [h] at hvalue
  cases hvalue

/-- With a content the request writes the string `out` if the TLV is long enough. -/
theorem decodes_iff_of_some {decode : List UInt8 → List UInt8 → Option (List UInt8)}
    {encodes : List UInt8 → List ℕ → Prop} {cond : Prop} [Decidable cond] {out : List UInt8}
    (h : reply.tlv 0x11 = some value) (hzero : 0 ∉ out)
    (hdecode : ∀ buf, decode value buf = if cond then store buf 0 (out ++ [0]) else none) :
    (Decodes (requestContent decode reply) fun ds ↦
      ∃ value, reply.tlv 0x11 = some value ∧ encodes value ds) ↔
      cond ∧ out.length < 32 ∧ ∀ ds, (∀ d ∈ ds, d < 10) → encodes value ds → out = text ds := by
  have hencodes (ds : List ℕ) : (∃ value, reply.tlv 0x11 = some value ∧ encodes value ds) ↔
      encodes value ds := by
    constructor
    · rintro ⟨value', hvalue', hx⟩
      rw [h, Option.some.injEq] at hvalue'
      exact hvalue' ▸ hx
    · exact fun hx ↦ ⟨value, h, hx⟩
  have hiff : (Decodes (requestContent decode reply) fun ds ↦
      ∃ value, reply.tlv 0x11 = some value ∧ encodes value ds) ↔ _ :=
    decodes_iff hzero fun buf ↦ by rw [requestContent_eq decode h, hdecode]
  simp only [hencodes] at hiff
  simp only [hencodes, hiff]

end Replies

/-! ## What a request leaves in its buffer -/

section Files

variable {reply : UimReply} {value buf : List UInt8} {ds : List ℕ}

/-- The digits of an ICCID. -/
def EncodesICCID (value : List UInt8) (ds : List ℕ) : Prop := iccidContent value = encode ds

/-- The digits of an IMSI, behind the type. -/
def EncodesIMSI (value : List UInt8) (ds : List ℕ) : Prop :=
  ∃ t < 16, imsiContent value = encode (t :: ds)

theorem chars_eq (f : ℕ → UInt8) (content : List UInt8) (i todo : ℕ) (h : ∀ d ∈ ds, d < 16)
    (hcontent : (content.drop i).take todo = encode ds) :
    chars f content i todo = (ds ++ filler ds).map f := by
  rw [chars, hcontent, halves_encode ds h]

/-- The characters of the digits, unless there is an odd number of them. -/
theorem iccid_text_iff (hds : ∀ d ∈ ds, d < 10) (h : EncodesICCID value ds) :
    chars iccidChar (value.drop 2) 0 (contentLen value) = text ds ↔ Even ds.length := by
  have hlt (d : ℕ) (hd : d ∈ ds) : d < 16 := Nat.lt_trans (hds d hd) (by decide)
  have hcontent : ((value.drop 2).drop 0).take (contentLen value) = encode ds := h
  rw [chars_eq iccidChar _ _ _ hlt hcontent,
    map_filler_iff fun d hd ↦ iccidChar_of_lt (hds d hd)]
  exact filler_eq_nil_iff ds

theorem imsi_text_iff (hds : ∀ d ∈ ds, d < 10) (h : EncodesIMSI value ds) :
    imsiChars value = text ds ↔ ¬ Even ds.length := by
  obtain ⟨t, ht, hcontent⟩ := h
  have hlt : ∀ d ∈ t :: ds, d < 16 :=
    List.forall_mem_cons.mpr ⟨ht, fun d hd ↦ Nat.lt_trans (hds d hd) (by decide)⟩
  have hdrop : ((value.drop 2).drop 1).take (imsiLength value) = encode (t :: ds) := by
    rw [List.drop_drop]
    exact hcontent
  rw [imsiChars, chars_eq imsiChar _ _ _ hlt hdrop, List.cons_append, List.map_cons, List.tail_cons,
    map_filler_iff fun _ _ ↦ rfl, filler_eq_nil_iff, List.length_cons, Nat.even_add_one]

/-- When a content is decoded into an ICCID. -/
def ICCIDFits (value : List UInt8) : Prop :=
  contentLen value + 2 ≤ value.length ∧ contentLen value ≤ 15 ∧
    ∀ ds, (∀ d ∈ ds, d < 10) → EncodesICCID value ds → Even ds.length

/-- When a content is decoded into an IMSI. -/
def IMSIFits (value : List UInt8) : Prop :=
  imsiLength value + 3 ≤ value.length ∧ imsiLength value ≤ 16 ∧
    ∀ ds, (∀ d ∈ ds, d < 10) → EncodesIMSI value ds → ¬ Even ds.length

theorem zero_not_mem_imsiChars (value : List UInt8) : 0 ∉ imsiChars value :=
  fun h ↦ zero_not_mem_chars imsiChar_ne_zero _ _ (List.mem_of_mem_tail h)

theorem length_imsiChars (h : imsiLength value + 3 ≤ value.length) :
    (imsiChars value).length = 2 * imsiLength value - 1 := by
  rw [imsiChars, List.length_tail, length_chars]
  rw [List.length_drop]
  omega

theorem decodes_requestGetICCID (h : reply.tlv 0x11 = some value) :
    (Decodes (requestGetICCID reply) fun ds ↦
      ∃ value, reply.tlv 0x11 = some value ∧ EncodesICCID value ds) ↔ ICCIDFits value := by
  rw [requestGetICCID, decodes_iff_of_some h (zero_not_mem_chars iccidChar_ne_zero _ _)
    (decodeICCID_eq value), ICCIDFits]
  refine and_congr_right fun hlen ↦ and_congr ?_ ?_
  · rw [length_chars]
    · omega
    · rw [List.length_drop]
      omega
  · exact forall_congr' fun ds ↦ forall₂_congr fun hds h ↦ iccid_text_iff hds h

theorem decodes_requestGetIMSI (h : reply.tlv 0x11 = some value) :
    (Decodes (requestGetIMSI reply) fun ds ↦
      ∃ value, reply.tlv 0x11 = some value ∧ EncodesIMSI value ds) ↔ IMSIFits value := by
  rw [requestGetIMSI, decodes_iff_of_some h (zero_not_mem_imsiChars value) (decodeIMSI_eq value),
    IMSIFits]
  refine and_congr_right fun hlen ↦ and_congr ?_ ?_
  · rw [length_imsiChars hlen]
    omega
  · exact forall_congr' fun ds ↦ forall₂_congr fun hds h ↦ imsi_text_iff hds h

end Files

/-! ## The card status -/

section Card

variable {value : List UInt8} {currApp i k n : ℕ} {s : ℤ}

/-- The first application whose type is USIM. -/
structure FirstUSIM (value : List UInt8) (currApp n i : ℕ) : Prop where
  lt : i < n
  isUSIM : value[currApp + appStatusSize * i]? = some 2
  first : ∀ k < i, value[currApp + appStatusSize * k]? ≠ some 2

/-- The loop stays inside of the value up to the application that it finds. -/
theorem usimLoop_eq_some_iff :
    usimLoop value currApp n k = some (some i) ↔
      k ≤ i ∧ i < k + n ∧ value[currApp + appStatusSize * i]? = some 2 ∧
        ∀ l, k ≤ l → l < i → value[currApp + appStatusSize * l]? ≠ some 2 ∧
          value[currApp + appStatusSize * l]? ≠ none := by
  induction n generalizing k with
  | zero =>
    refine iff_of_false ?_ fun h ↦ by omega
    rw [usimLoop, Option.some.injEq]
    exact Option.some_ne_none i ∘ Eq.symm
  | succ n ih =>
    rw [usimLoop]
    cases happ : value[currApp + appStatusSize * k]? with
    | none =>
      refine iff_of_false (fun h ↦ nomatch h) ?_
      rintro ⟨hki, -, hi, hfirst⟩
      rcases Nat.eq_or_lt_of_le hki with rfl | hlt
      · rw [happ] at hi
        cases hi
      · exact (hfirst k le_rfl hlt).2 happ
    | some appType =>
      have hbind : (some appType >>= fun appType ↦
          if appType = 2 then some (some k) else usimLoop value currApp n (k + 1)) =
          if appType = 2 then some (some k) else usimLoop value currApp n (k + 1) := rfl
      rw [hbind]
      split
      next htype =>
        subst htype
        rw [Option.some.injEq, Option.some.injEq]
        constructor
        · rintro rfl
          exact ⟨le_rfl, by omega, happ, fun l hle hlt ↦ by omega⟩
        · rintro ⟨hki, -, -, hfirst⟩
          by_contra hne
          exact (hfirst k le_rfl (lt_of_le_of_ne hki hne)).1 happ
      next htype =>
        rw [ih]
        constructor
        · rintro ⟨hki, hlt, hi, hfirst⟩
          refine ⟨by omega, by omega, hi, fun l hle hlt ↦ ?_⟩
          rcases Nat.eq_or_lt_of_le hle with rfl | hkl
          · rw [happ]
            exact ⟨fun h ↦ htype (Option.some.inj h), Option.some_ne_none _⟩
          · exact hfirst l hkl hlt
        · rintro ⟨hki, hlt, hi, hfirst⟩
          have hne : k ≠ i := by
            rintro rfl
            rw [happ] at hi
            exact htype (Option.some.inj hi)
          exact ⟨by omega, by omega, hi, fun l hle hlt ↦ hfirst l (by omega) hlt⟩

/-- What is in front of an application that is inside of the value is inside of it too. -/
theorem usimLoop_iff_firstUSIM :
    usimLoop value currApp n 0 = some (some i) ↔ FirstUSIM value currApp n i := by
  rw [usimLoop_eq_some_iff, Nat.zero_add]
  constructor
  · rintro ⟨-, hlt, hi, hfirst⟩
    exact ⟨hlt, hi, fun k hk ↦ (hfirst k k.zero_le hk).1⟩
  · rintro ⟨hlt, hi, hfirst⟩
    refine ⟨i.zero_le, hlt, hi, fun l _ hl ↦ ⟨hfirst l hl, fun hnone ↦ ?_⟩⟩
    obtain ⟨hinside, -⟩ := List.getElem?_eq_some_iff.mp hi
    have houtside := List.getElem?_eq_none_iff.mp hnone
    have hle := Nat.mul_le_mul_left appStatusSize (Nat.le_of_lt hl)
    omega

/-- The first card, or the second one behind the applications of the first one. -/
def CardAt (value : List UInt8) (simSelect : ℤ) (card : ℕ) : Prop :=
  if simSelect = 0 then card = instanceStart
  else ∃ numApp, value[instanceStart + 5]? = some numApp ∧
    card = instanceStart + instanceSize + appStatusSize * numApp.toNat

/-- The state of the PIN of an application is inside of the value and has a text. -/
def PinReadable (value : List UInt8) (card app : ℕ) : Prop :=
  ∃ univPIN pin, value[app + 23]? = some univPIN ∧
    (if univPIN = 1 then value[card + 1]? else value[app + 24]?) = some pin ∧
    ¬ (value[card]? = some 1 ∧ pin = 5)

/-- A card has a zero at or behind its beginning, and the value has its first USIM application. -/
def CardReadable (value : List UInt8) (card : ℕ) : Prop :=
  0 ∈ value.drop card ∧ ∃ numApp i, value[card + 5]? = some numApp ∧
    FirstUSIM value (card + instanceSize) numApp.toNat i ∧
    PinReadable value card (card + instanceSize + appStatusSize * i)

theorem currInstance_eq_some_iff {currInts : ℕ} :
    currInstance value s = some (currInts, currApp) ↔
      CardAt value s currInts ∧ currApp = currInts + instanceSize := by
  rw [currInstance, CardAt]
  split
  next =>
    rw [Option.some.injEq, Prod.mk.injEq]
    constructor
    · rintro ⟨rfl, rfl⟩
      exact ⟨rfl, rfl⟩
    · rintro ⟨rfl, rfl⟩
      exact ⟨rfl, rfl⟩
  next =>
    constructor
    · intro h
      obtain ⟨numApp, hnumApp, hints⟩ := Option.bind_eq_some_iff.mp h
      rw [Option.some.injEq, Prod.mk.injEq] at hints
      obtain ⟨rfl, rfl⟩ := hints
      exact ⟨⟨numApp, hnumApp, rfl⟩, rfl⟩
    · rintro ⟨⟨numApp, hnumApp, rfl⟩, rfl⟩
      exact Option.bind_eq_some_iff.mpr ⟨numApp, hnumApp, rfl⟩

theorem simStatus_eq_bad_iff (cardState pin : UInt8) :
    simStatus cardState pin = .bad ↔ cardState = 1 ∧ pin = 5 := by
  constructor
  · intro h
    rw [simStatus] at h
    split at h
    next => cases h
    next =>
      split at h
      next hcard =>
        refine ⟨hcard, ?_⟩
        by_contra hpin
        dsimp only at h
        rw [if_neg hpin] at h
        split_ifs at h
      next => cases h
  · rintro ⟨rfl, rfl⟩
    rfl

/-- `SIM_BAD` has no text. -/
theorem simStatusString_ne_none_iff (status : SimStatus) :
    simStatusString[status.toNat]? ≠ none ↔ status ≠ .bad := by
  cases status
  all_goals decide

/-- Behind the applications: the texts of the status. -/
theorem pinReadable_iff {card app : ℕ} {cardState : UInt8} (hcard : value[card]? = some cardState) :
    (∃ pin, pin1State value card app = some pin ∧
      simStatusString[(simStatus cardState pin).toNat]? ≠ none) ↔ PinReadable value card app := by
  have hstate (pin : UInt8) : simStatusString[(simStatus cardState pin).toNat]? ≠ none ↔
      ¬ (value[card]? = some 1 ∧ pin = 5) := by
    rw [simStatusString_ne_none_iff, hcard, Option.some.injEq]
    exact not_congr (simStatus_eq_bad_iff cardState pin)
  constructor
  · rintro ⟨pin, hpin, htext⟩
    obtain ⟨univPIN, huniv, hpin⟩ := Option.bind_eq_some_iff.mp hpin
    exact ⟨univPIN, pin, huniv, hpin, (hstate pin).mp htext⟩
  · rintro ⟨univPIN, pin, huniv, hpin, htext⟩
    exact ⟨pin, Option.bind_eq_some_iff.mpr ⟨univPIN, huniv, hpin⟩, (hstate pin).mpr htext⟩

theorem printed_eq_some {card : ℕ} (h : 0 ∈ value.drop card) :
    printed value card = some ((value.drop card).takeWhile (· ≠ 0)) := if_pos h

theorem zero_mem_of_printed {card : ℕ} {out : List UInt8} (h : printed value card = some out) :
    0 ∈ value.drop card := by
  by_contra hzero
  rw [printed, if_neg hzero] at h
  cases h

end Card

section Status

variable {reply : UimReply} {response : UimResponse} {value : List UInt8} {s : ℤ}

theorem decodeSIMStatus_eq_none (h : response.value 0x10 = none) :
    decodeSIMStatus s response = none := by
  rw [decodeSIMStatus, value_getTLV_response, h]

/-- Only the return behind a USIM application frees the response. -/
theorem decodeSIMStatus_freed_iff (h : response.value 0x10 = some value) :
    (∃ r, decodeSIMStatus s response = some r ∧ r.1.freed = true) ↔
      ∃ card, CardAt value s card ∧ CardReadable value card := by
  rw [decodeSIMStatus, value_getTLV_response, h]
  constructor
  · rintro ⟨r, hr, hfreed⟩
    obtain ⟨⟨card, app⟩, hinst, hr⟩ := Option.bind_eq_some_iff.mp hr
    obtain ⟨hcard, rfl⟩ := currInstance_eq_some_iff.mp hinst
    obtain ⟨out, hout, hr⟩ := Option.bind_eq_some_iff.mp hr
    obtain ⟨cardState, hcardState, hr⟩ := Option.bind_eq_some_iff.mp hr
    obtain ⟨numApp, hnumApp, hr⟩ := Option.bind_eq_some_iff.mp hr
    obtain ⟨found, hfound, hr⟩ := Option.bind_eq_some_iff.mp hr
    cases found with
    | none =>
      obtain rfl := Option.some.inj hr
      cases hfreed
    | some i =>
      obtain ⟨pin, hpin, hr⟩ := Option.bind_eq_some_iff.mp hr
      obtain ⟨text, htext, -⟩ := Option.bind_eq_some_iff.mp hr
      exact ⟨card, hcard, zero_mem_of_printed hout, numApp, i, hnumApp,
        usimLoop_iff_firstUSIM.mp hfound, (pinReadable_iff hcardState).mp
          ⟨pin, hpin, fun hnone ↦ Option.some_ne_none text (htext.symm.trans hnone)⟩⟩
  · rintro ⟨card, hcard, hzero, numApp, i, hnumApp, hfirst, hpin⟩
    obtain ⟨hinside, -⟩ := List.getElem?_eq_some_iff.mp hnumApp
    have hcardState : value[card]? = some value[card] := List.getElem?_eq_getElem (by omega)
    obtain ⟨pin, hpin, htext⟩ := (pinReadable_iff hcardState).mpr hpin
    obtain ⟨text, htext⟩ := Option.ne_none_iff_exists'.mp htext
    refine ⟨(⟨0, true⟩, some (simStatus value[card] pin)), ?_, rfl⟩
    apply Option.bind_eq_some_iff.mpr ⟨_, currInstance_eq_some_iff.mpr ⟨hcard, rfl⟩, _⟩
    apply Option.bind_eq_some_iff.mpr ⟨_, printed_eq_some hzero, _⟩
    apply Option.bind_eq_some_iff.mpr ⟨_, hcardState, _⟩
    apply Option.bind_eq_some_iff.mpr ⟨_, hnumApp, _⟩
    apply Option.bind_eq_some_iff.mpr ⟨_, usimLoop_iff_firstUSIM.mpr hfirst, _⟩
    apply Option.bind_eq_some_iff.mpr ⟨_, hpin, _⟩
    exact Option.bind_eq_some_iff.mpr ⟨_, htext, rfl⟩

end Status

/-! ## All requests -/

/-- A request for an answer of the SIM. -/
inductive SimRequest
  | iccid
  | imsi
  | simStatus (simSelect : ℤ)

/-- The request reads only inside of the TLV and writes only inside of its buffer, a buffer has the
digits that the content encodes, and the response is freed. -/
def SimRequest.Law (reply : UimReply) : SimRequest → Prop
  | iccid => Decodes (requestGetICCID reply) fun ds ↦
      ∃ value, reply.tlv 0x11 = some value ∧ EncodesICCID value ds
  | imsi => Decodes (requestGetIMSI reply) fun ds ↦
      ∃ value, reply.tlv 0x11 = some value ∧ EncodesIMSI value ds
  | simStatus simSelect => ∃ r, requestGetSIMStatus reply simSelect = some r ∧
      (reply.HasResponse → r.1.freed = true)

/-- When it does: what a response holds that passes the check. -/
def SimRequest.Fits (reply : UimReply) : SimRequest → Prop
  | iccid => ∀ value, reply.tlv 0x11 = some value → ICCIDFits value
  | imsi => ∀ value, reply.tlv 0x11 = some value → IMSIFits value
  | simStatus simSelect => ∀ response, reply.accepted = some response →
      ∃ value, response.value 0x10 = some value ∧
        ∃ card, CardAt value simSelect card ∧ CardReadable value card

theorem hasResponse_of_accepted {reply : UimReply} {response : UimResponse}
    (h : reply.accepted = some response) : reply.HasResponse := by
  cases reply with
  | failed err => cases h
  | answered response => trivial

theorem forall_of_eq_some {α : Type} {o : Option α} {a : α} {p : α → Prop} (h : o = some a) :
    (∀ x, o = some x → p x) ↔ p a := by
  simp only [h, Option.some.injEq, forall_eq']

/-- What a request for a file needs of the content, if there is one. -/
theorem decodes_iff_forall {reply : UimReply}
    {decode : List UInt8 → List UInt8 → Option (List UInt8)}
    {encodes : List UInt8 → List ℕ → Prop} {fits : List UInt8 → Prop}
    (hfits : ∀ {value}, reply.tlv 0x11 = some value →
      ((Decodes (requestContent decode reply) fun ds ↦
        ∃ value, reply.tlv 0x11 = some value ∧ encodes value ds) ↔ fits value)) :
    (Decodes (requestContent decode reply) fun ds ↦
      ∃ value, reply.tlv 0x11 = some value ∧ encodes value ds) ↔
      ∀ value, reply.tlv 0x11 = some value → fits value := by
  cases h : reply.tlv 0x11 with
  | none =>
    refine iff_of_true ?_ fun value hvalue ↦ nomatch hvalue
    rw [← h]
    exact decodes_of_none h
  | some value =>
    rw [forall_of_eq_some rfl, ← hfits h, h]

/-- What a request for the card status needs of a response that passes the check. -/
theorem decodeSIMStatus_iff {response : UimResponse} {s : ℤ} :
    (∃ r, decodeSIMStatus s response = some r ∧ r.1.freed = true) ↔
      ∃ value, response.value 0x10 = some value ∧
        ∃ card, CardAt value s card ∧ CardReadable value card := by
  cases hvalue : response.value 0x10 with
  | none =>
    rw [decodeSIMStatus_eq_none hvalue]
    refine iff_of_false ?_ ?_
    · rintro ⟨r, hr, -⟩
      cases hr
    · rintro ⟨value, hvalue, -⟩
      cases hvalue
  | some value =>
    rw [decodeSIMStatus_freed_iff hvalue]
    constructor
    · exact fun h ↦ ⟨value, rfl, h⟩
    · rintro ⟨value', hvalue', h⟩
      exact Option.some.inj hvalue' ▸ h

/-- A SIM answer is decoded inside of its bounds, into its digits, and freed in these cases only. -/
theorem simRequest_law_iff (reply : UimReply) (request : SimRequest) :
    request.Law reply ↔ request.Fits reply := by
  cases request with
  | iccid => exact decodes_iff_forall decodes_requestGetICCID
  | imsi => exact decodes_iff_forall decodes_requestGetIMSI
  | simStatus simSelect =>
    cases haccepted : reply.accepted with
    | none =>
      obtain ⟨r, hr, hfreed⟩ := rspCheck_of_not_accepted haccepted
      refine iff_of_true ⟨(r, none), hr none _, hfreed⟩ fun response hresponse ↦ ?_
      rw [haccepted] at hresponse
      cases hresponse
    | some response =>
      have hresponse := hasResponse_of_accepted haccepted
      have hlaw : SimRequest.Law reply (.simStatus simSelect) ↔
          ∃ r, decodeSIMStatus simSelect response = some r ∧ r.1.freed = true := by
        refine exists_congr fun r ↦ and_congr ?_ (forall_prop_of_true hresponse)
        rw [requestGetSIMStatus, rspCheck_of_accepted haccepted]
      rw [hlaw, decodeSIMStatus_iff, SimRequest.Fits, forall_of_eq_some haccepted]

/-- The answer of a card that has one application, which is no USIM. -/
def simOnly : UimResponse where
  msg := [1, 79, 0, 0, 11, 0, 2, 0, 0, 47, 0, 55, 0, 2, 4, 0, 0, 0, 0, 0,
    16, 45, 0] ++ List.replicate 8 255 ++ [1, 1, 0, 3, 10, 0, 1, 1] ++ List.replicate 29 0
  heap := []
  tlvs := [⟨2, [0, 0, 0, 0]⟩,
    ⟨16, List.replicate 8 255 ++ [1, 1, 0, 3, 10, 0, 1, 1] ++ List.replicate 29 0⟩]
  rest := []
  length_eq := by decide
  body_eq := by decide
  rest_lt := by decide

/-- The response is not freed then. -/
theorem simRequest_law_simOnly : ¬ (SimRequest.simStatus 0).Law (.answered simOnly) := by
  rintro ⟨r, hr, hfreed⟩
  have hrun : requestGetSIMStatus (.answered simOnly) 0 = some (⟨-1, false⟩, some .absent) := by
    decide
  rw [hrun, Option.some.injEq] at hr
  subst hr
  exact Bool.false_ne_true (hfreed trivial)

end Wwan.FibocomDial
