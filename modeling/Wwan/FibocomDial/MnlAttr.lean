import Mathlib.Algebra.GroupWithZero.Nat
import Mathlib.Data.List.TakeDrop
import Wwan.Lib.AlignedRecords
import Wwan.Lib.Bytes
import Wwan.Lib.Store

/-!
# Attributes of `libmnl`

A message is put together in a buffer: attributes one behind the other, and attributes that hold
attributes, which are opened, filled, and closed or given up. A reader iterates over the attributes
of a message and over those of a nest.

A pointer to an attribute that is read is what the buffer holds from there to the end of the
message or nest.
-/

namespace Wwan.Libmnl

open Bytes

/-! ## Reading -/

def mnlAttrHdrlen : ℕ := 4

def nlaFNested : UInt16 := (1 : UInt16) <<< 15

/-- `NLA_TYPE_MASK` -/
def nlaTypeMask : UInt16 := 0x3fff

/-- The two bytes at an offset. -/
def u16At (bytes : List UInt8) (offset : ℕ) : ℕ :=
  le16 (bytes.getD offset 0) (bytes.getD (offset + 1) 0)

/-- `struct nlattr`, with `nla_len` first -/
def attrFormat : RecordFormat where
  hdrlen := mnlAttrHdrlen
  hdrlen_pos := Nat.succ_pos 3
  len attr := u16At attr 0

/-- An attribute: its type with the flags, and its payload. -/
structure Nlattr where
  nla_type : UInt16
  payload : List UInt8
  deriving DecidableEq

/-- What `mnl_attr_get_len`, `mnl_attr_get_payload` and `mnl_attr_get_payload_len` give. -/
def Nlattr.ofBytes (attr : List UInt8) : Nlattr where
  nla_type := .ofNat (u16At attr 2)
  payload := (attr.drop mnlAttrHdrlen).take (attrFormat.len attr - mnlAttrHdrlen)

/-- `mnl_attr_get_type` -/
def Nlattr.type (a : Nlattr) : UInt16 := a.nla_type &&& nlaTypeMask

/-- `mnl_attr_ok`, where the rest has a length of its own -/
def mnlAttrOk (attr : List UInt8) : Prop := attrFormat.Ok attr

instance (attr : List UInt8) : Decidable (mnlAttrOk attr) :=
  inferInstanceAs (Decidable (attrFormat.Ok attr))

def mnlAttrNext (attr : List UInt8) : List UInt8 := attrFormat.next attr

/-- `mnl_attr_parse_payload`, and so the other two: the callback may stop it. -/
def mnlAttrParsePayload {σ : Type} (cb : σ → Nlattr → σ × ℤ) (data : σ) (ret : ℤ)
    (attr : List UInt8) : σ × ℤ :=
  if mnlAttrOk attr then
    let (data, ret) := cb data (.ofBytes attr)
    if ret ≤ 0 then (data, ret) else mnlAttrParsePayload cb data ret (mnlAttrNext attr)
  else (data, ret)
termination_by attr.length
decreasing_by exact RecordFormat.length_next_lt ‹_›

/-- `mnl_attr_parse_nested`; `MNL_CB_OK` is 1. -/
def mnlAttrParseNested {σ : Type} (cb : σ → Nlattr → σ × ℤ) (data : σ) (nested : Nlattr) : σ × ℤ :=
  mnlAttrParsePayload cb data 1 nested.payload

/-! ## Writing -/

/-- A message and the buffer that it is in; `nlmsg_len` is kept apart from it. -/
structure Nlmsghdr where
  buf : List UInt8
  nlmsg_len : ℕ
  deriving DecidableEq

namespace Nlmsghdr

variable (nlh : Nlmsghdr)

/-- `mnl_nlmsg_get_payload_tail` -/
def payloadTail : ℕ := align4 nlh.nlmsg_len

/-- `MNL_NLMSG_HDRLEN` -/
def hdrlen : ℕ := 16

/-- `mnl_attr_parse`, behind an extra header of a size -/
def mnlAttrParse {σ : Type} (offset : ℕ) (cb : σ → Nlattr → σ × ℤ) (data : σ) : σ × ℤ :=
  mnlAttrParsePayload cb data 1
    ((nlh.buf.take nlh.payloadTail).drop (hdrlen + align4 offset))

/-- `mnl_attr_put`; `payload_len` has 16 bits. -/
def mnlAttrPut (type : UInt16) (data : List UInt8) : Option Nlmsghdr := do
  let attr := nlh.payloadTail
  let payload_len := (align4 mnlAttrHdrlen + data.length) % 2 ^ 16
  let pad := align4 data.length - data.length
  let buf ← store nlh.buf attr (toLe16 payload_len ++ toLe16 type.toNat)
  let buf ← store buf (attr + mnlAttrHdrlen) data
  let buf ← store buf (attr + mnlAttrHdrlen + data.length) (List.replicate pad 0)
  pure { buf, nlmsg_len := nlh.nlmsg_len + align4 payload_len }

/-- `mnl_attr_put_check` -/
def mnlAttrPutCheck (buflen : ℕ) (type : UInt16) (data : List UInt8) : Option Nlmsghdr :=
  if nlh.nlmsg_len + mnlAttrHdrlen + align4 data.length > buflen then some nlh
  else nlh.mnlAttrPut type data

/-- `mnl_attr_nest_start`; the length is set in `mnl_attr_nest_end`. -/
def mnlAttrNestStart (type : UInt16) : Option (Nlmsghdr × ℕ) := do
  let start := nlh.payloadTail
  let buf ← store nlh.buf (start + 2) (toLe16 (nlaFNested ||| type).toNat)
  pure ({ buf, nlmsg_len := nlh.nlmsg_len + align4 mnlAttrHdrlen }, start)

/-- `mnl_attr_nest_end` -/
def mnlAttrNestEnd (start : ℕ) : Option Nlmsghdr := do
  let buf ← store nlh.buf start (toLe16 (nlh.payloadTail - start))
  pure { nlh with buf }

/-- `mnl_attr_nest_cancel` -/
def mnlAttrNestCancel (start : ℕ) : Nlmsghdr :=
  { nlh with nlmsg_len := nlh.nlmsg_len - (nlh.payloadTail - start) }

end Nlmsghdr

/-- What is done to put a message together; the nest that is closed or given up is the last one that
was opened. -/
inductive AttrCall
  | put (type : UInt16) (data : List UInt8)
  | nestStart (type : UInt16)
  | nestEnd
  | nestCancel
  deriving DecidableEq

/-- A message and the nests that are open. -/
structure Building where
  nlh : Nlmsghdr
  starts : List ℕ
  deriving DecidableEq

/-- The checked functions; what does not fit is left out. -/
def Building.call (buflen : ℕ) (b : Building) : AttrCall → Option Building
  | .put type data => do
    let nlh ← b.nlh.mnlAttrPutCheck buflen type data
    pure { b with nlh }
  | .nestStart type =>
    if b.nlh.nlmsg_len + mnlAttrHdrlen > buflen then some b
    else do
      let (nlh, start) ← b.nlh.mnlAttrNestStart type
      pure ⟨nlh, start :: b.starts⟩
  | .nestEnd =>
    match b.starts with
    | [] => some b
    | start :: starts => do
      let nlh ← b.nlh.mnlAttrNestEnd start
      pure ⟨nlh, starts⟩
  | .nestCancel =>
    match b.starts with
    | [] => some b
    | start :: starts => some ⟨b.nlh.mnlAttrNestCancel start, starts⟩

def Building.run (buflen : ℕ) (b : Building) (calls : List AttrCall) : Option Building :=
  calls.foldlM (Building.call buflen) b

/-- `mnl_nlmsg_put_header` and `mnl_nlmsg_put_extra_header`, with what the caller fills in -/
def Building.start (buf head : List UInt8) : Option Building := do
  let buf ← store buf 0 head
  pure ⟨⟨buf, head.length⟩, []⟩

/-- A header and an extra header of a size. -/
def IsHead (offset : ℕ) (head : List UInt8) : Prop :=
  head.length = Nlmsghdr.hdrlen + align4 offset

/-! ## Trees of attributes -/

/-- What is to be in a message. -/
inductive AttrTree
  | leaf (type : UInt16) (data : List UInt8)
  | nest (type : UInt16) (attrs : List AttrTree)

/-- An attribute as it stands in a message, before it is filled up. -/
def Nlattr.toBytes (a : Nlattr) : List UInt8 :=
  toLe16 (mnlAttrHdrlen + a.payload.length) ++ toLe16 a.nla_type.toNat ++ a.payload

def Nlattr.encodeAll (as : List Nlattr) : List UInt8 :=
  (as.map Nlattr.toBytes).flatMap RecordFormat.pad

namespace AttrTree

mutual

def toAttr : AttrTree → Nlattr
  | leaf type data => ⟨type, data⟩
  | nest type attrs => ⟨nlaFNested ||| type, Nlattr.encodeAll (toAttrs attrs)⟩

def toAttrs : List AttrTree → List Nlattr
  | [] => []
  | t :: ts => t.toAttr :: toAttrs ts

end

def encodeAll (ts : List AttrTree) : List UInt8 := Nlattr.encodeAll (toAttrs ts)

mutual

/-- The lengths fit their fields, at every depth. -/
def Fits : AttrTree → Prop
  | leaf _ data => mnlAttrHdrlen + data.length < 2 ^ 16
  | nest _ attrs => mnlAttrHdrlen + (encodeAll attrs).length < 2 ^ 16 ∧ FitAll attrs

def FitAll : List AttrTree → Prop
  | [] => True
  | t :: ts => t.Fits ∧ FitAll ts

end

end AttrTree

/-- What is in a message, and the nests that are open, from the inside out. -/
structure Contents where
  attrs : List AttrTree
  nests : List (UInt16 × List AttrTree)

namespace Contents

variable (c : Contents)

/-- To the innermost nest. -/
def push (t : AttrTree) : Contents :=
  match c.nests with
  | [] => { c with attrs := c.attrs ++ [t] }
  | (type, attrs) :: nests => { c with nests := (type, attrs ++ [t]) :: nests }

/-- The bytes of the message behind the header. -/
def size : ℕ :=
  (AttrTree.encodeAll c.attrs).length +
    (c.nests.map fun nest ↦ mnlAttrHdrlen + (AttrTree.encodeAll nest.2).length).sum

/-- What a call is for, if there is room for so many bytes. -/
def call (room : ℕ) (c : Contents) : AttrCall → Contents
  | .put type data =>
    if c.size + mnlAttrHdrlen + align4 data.length > room then c else c.push (.leaf type data)
  | .nestStart type =>
    if c.size + mnlAttrHdrlen > room then c else { c with nests := (type, []) :: c.nests }
  | .nestEnd =>
    match c.nests with
    | [] => c
    | (type, attrs) :: nests => push { c with nests } (.nest type attrs)
  | .nestCancel => { c with nests := c.nests.tail }

def run (room : ℕ) (calls : List AttrCall) : Contents := calls.foldl (call room) ⟨[], []⟩

end Contents

/-- The callback gets the attributes in turn until it stops. -/
def callAll {σ α : Type} (cb : σ → α → σ × ℤ) (data : σ) (ret : ℤ) : List α → σ × ℤ
  | [] => (data, ret)
  | a :: as =>
    let (data, ret) := cb data a
    if ret ≤ 0 then (data, ret) else callAll cb data ret as

/-- The attribute is read as the tree says: a nest by iterating over it, at every depth. -/
inductive ReadsAs : Nlattr → AttrTree → Prop
  | leaf (type : UInt16) (data : List UInt8) : ReadsAs ⟨type, data⟩ (.leaf type data)
  | nest {type : UInt16} {payload : List UInt8} {as : List Nlattr} {attrs : List AttrTree} :
      (∀ {σ : Type} (cb : σ → Nlattr → σ × ℤ) (data : σ),
        mnlAttrParseNested cb data ⟨nlaFNested ||| type, payload⟩ = callAll cb data 1 as) →
      List.Forall₂ ReadsAs as attrs → ReadsAs ⟨nlaFNested ||| type, payload⟩ (.nest type attrs)

/-! ## Reading what was written -/

namespace Nlattr

variable {a : Nlattr}

theorem toBytes_eq (a : Nlattr) (rest : List UInt8) :
    a.toBytes ++ rest = byteOf (mnlAttrHdrlen + a.payload.length) 0 ::
      byteOf (mnlAttrHdrlen + a.payload.length) 1 :: byteOf a.nla_type.toNat 0 ::
      byteOf a.nla_type.toNat 1 :: (a.payload ++ rest) := by
  simp [toBytes, toLe16]

theorem length_toBytes (a : Nlattr) : a.toBytes.length = mnlAttrHdrlen + a.payload.length := by
  simp only [toBytes, toLe16, List.length_append, List.length_cons, List.length_nil,
    mnlAttrHdrlen]

theorem valid_toBytes (h : mnlAttrHdrlen + a.payload.length < 2 ^ 16) :
    attrFormat.Valid a.toBytes := by
  refine ⟨?_, fun rest ↦ ?_⟩
  · rw [length_toBytes]
    exact Nat.le_add_right _ _
  · rw [length_toBytes, toBytes_eq]
    exact le16_byteOf h

theorem ofBytes_toBytes (h : mnlAttrHdrlen + a.payload.length < 2 ^ 16) :
    ofBytes a.toBytes = a := by
  have hlen := (valid_toBytes h).len_append []
  rw [List.append_nil, length_toBytes] at hlen
  have hbytes := a.toBytes_eq []
  rw [List.append_nil, List.append_nil] at hbytes
  have htype : u16At a.toBytes 2 = a.nla_type.toNat := by
    rw [hbytes]
    exact le16_byteOf a.nla_type.toNat_lt
  have hpayload : a.toBytes.drop mnlAttrHdrlen = a.payload := by
    rw [hbytes]
    rfl
  rw [ofBytes, htype, hlen, hpayload, Nat.add_sub_cancel_left, List.take_length, UInt16.ofNat_toNat]

end Nlattr

theorem u16At_take {bytes : List UInt8} {offset n : ℕ} (h : offset + 2 ≤ n) :
    u16At (bytes.take n) offset = u16At bytes offset := by
  simp only [u16At, List.getD_eq_getElem?_getD]
  rw [List.getElem?_take_of_lt (by omega), List.getElem?_take_of_lt (by omega)]

/-- An attribute is read within its length. -/
theorem ofBytes_take {attr : List UInt8} (hok : attrFormat.Ok attr) :
    Nlattr.ofBytes (attr.take (attrFormat.len attr)) = Nlattr.ofBytes attr := by
  have hhdr : 4 ≤ attrFormat.len attr := hok.2.1
  have hlen : attrFormat.len (attr.take (attrFormat.len attr)) = attrFormat.len attr :=
    u16At_take (Nat.le_trans (by decide) hhdr)
  rw [Nlattr.ofBytes, u16At_take hhdr, hlen, List.drop_take, List.take_take, Nat.min_self]
  rfl

theorem mnlAttrParsePayload_eq {σ : Type} (cb : σ → Nlattr → σ × ℤ) (data : σ) (ret : ℤ)
    (attr : List UInt8) : mnlAttrParsePayload cb data ret attr =
      callAll cb data ret ((attrFormat.records attr).map Nlattr.ofBytes) := by
  induction attr using RecordFormat.records.induct attrFormat generalizing data ret with
  | case1 attr hok ih =>
    have hattrOk : mnlAttrOk attr := hok
    rw [mnlAttrParsePayload, if_pos hattrOk, RecordFormat.records_of_ok hok, List.map_cons,
      callAll, ofBytes_take hok]
    dsimp only
    split
    · rfl
    · exact ih _ _
  | case2 attr hnot =>
    have hattrNot : ¬mnlAttrOk attr := hnot
    rw [mnlAttrParsePayload, if_neg hattrNot, RecordFormat.records_of_not_ok hnot]
    rfl

theorem mnlAttrParsePayload_encodeAll {σ : Type} (cb : σ → Nlattr → σ × ℤ) (data : σ) (ret : ℤ)
    {as : List Nlattr} (h : ∀ a ∈ as, mnlAttrHdrlen + a.payload.length < 2 ^ 16) :
    mnlAttrParsePayload cb data ret (Nlattr.encodeAll as) = callAll cb data ret as := by
  have hrecords : attrFormat.records (Nlattr.encodeAll as) = as.map Nlattr.toBytes := by
    refine RecordFormat.records_flatMap fun record hrecord ↦ ?_
    obtain ⟨a, ha, rfl⟩ := List.mem_map.mp hrecord
    exact Nlattr.valid_toBytes (h a ha)
  have hback : (as.map Nlattr.toBytes).map Nlattr.ofBytes = as := by
    rw [List.map_map]
    exact (List.map_congr_left fun a ha ↦ Nlattr.ofBytes_toBytes (h a ha)).trans (List.map_id _)
  rw [mnlAttrParsePayload_eq, hrecords, hback]

namespace AttrTree

/-- What one tree needs, of the attribute that it is. -/
theorem Fits.payload {t : AttrTree} (h : t.Fits) :
    mnlAttrHdrlen + t.toAttr.payload.length < 2 ^ 16 := by
  cases t with
  | leaf type data => exact h
  | nest type attrs => exact h.1

/-- A nest is filled up by what it holds. -/
theorem pad_toBytes_nest (type : UInt16) (children : List AttrTree) :
    RecordFormat.pad (nest type children).toAttr.toBytes =
      toLe16 (2 + (toLe16 (nlaFNested ||| type).toNat ++ encodeAll children).length) ++
        (toLe16 (nlaFNested ||| type).toNat ++ encodeAll children) := by
  have hmod : (encodeAll children).length % 4 = 0 := RecordFormat.length_flatMap_pad_mod _
  have hlen : mnlAttrHdrlen + (encodeAll children).length =
      2 + (toLe16 (nlaFNested ||| type).toNat ++ encodeAll children).length := by
    simp only [toLe16, List.length_append, List.length_cons, List.length_nil, mnlAttrHdrlen]
    omega
  rw [RecordFormat.pad_of_mod, ← hlen, ← List.append_assoc]
  · rfl
  · rw [Nlattr.length_toBytes]
    change (4 + (encodeAll children).length) % 4 = 0
    omega

theorem FitAll.payload {ts : List AttrTree} (h : FitAll ts) :
    ∀ a ∈ toAttrs ts, mnlAttrHdrlen + a.payload.length < 2 ^ 16 := by
  induction ts with
  | nil =>
    intro a ha
    cases ha
  | cons t ts ih =>
    intro a ha
    rcases List.mem_cons.mp ha with rfl | ha
    · exact h.1.payload
    · exact ih h.2 a ha

mutual

/-- A tree reads back from its attribute. -/
theorem readsAs_toAttr : ∀ {t : AttrTree}, t.Fits → ReadsAs t.toAttr t
  | leaf type data, _ => .leaf type data
  | nest _ _, h =>
    .nest (fun cb data ↦ mnlAttrParsePayload_encodeAll cb data 1 (FitAll.payload h.2))
      (forall₂_toAttrs h.2)

theorem forall₂_toAttrs : ∀ {ts : List AttrTree}, FitAll ts →
    List.Forall₂ ReadsAs (toAttrs ts) ts
  | [], _ => .nil
  | _ :: _, h => .cons (readsAs_toAttr h.1) (forall₂_toAttrs h.2)

end

theorem toAttrs_append (ts ts' : List AttrTree) :
    toAttrs (ts ++ ts') = toAttrs ts ++ toAttrs ts' := by
  induction ts with
  | nil => rfl
  | cons t ts ih => exact congrArg (t.toAttr :: ·) ih

theorem fitAll_append {ts ts' : List AttrTree} : FitAll (ts ++ ts') ↔ FitAll ts ∧ FitAll ts' := by
  induction ts with
  | nil => exact (iff_of_eq (true_and _)).symm
  | cons t ts ih => exact (and_congr_right fun _ ↦ ih).trans and_assoc.symm

theorem encodeAll_concat (ts : List AttrTree) (t : AttrTree) :
    encodeAll (ts ++ [t]) = encodeAll ts ++ RecordFormat.pad t.toAttr.toBytes := by
  rw [encodeAll, toAttrs_append, Nlattr.encodeAll, List.map_append, List.flatMap_append]
  exact congrArg (encodeAll ts ++ ·) (List.append_nil _)

theorem length_encodeAll_mod (ts : List AttrTree) : (encodeAll ts).length % 4 = 0 :=
  RecordFormat.length_flatMap_pad_mod _

end AttrTree

/-! ## Writing into the buffer -/

/-- The buffer begins with the bytes, which are the message so far. -/
structure Nlmsghdr.Holds (nlh : Nlmsghdr) (buflen : ℕ) (bytes : List UInt8) : Prop where
  isPrefix : bytes <+: nlh.buf
  nlmsg_len : nlh.nlmsg_len = bytes.length
  aligned : bytes.length % 4 = 0
  buflen : nlh.buf.length = buflen

namespace Nlmsghdr.Holds

variable {nlh : Nlmsghdr} {buflen : ℕ} {bytes : List UInt8}

theorem payloadTail (h : nlh.Holds buflen bytes) : nlh.payloadTail = bytes.length := by
  rw [Nlmsghdr.payloadTail, h.nlmsg_len, align4_of_mod h.aligned]

/-- An attribute for which there is room goes behind the others. -/
theorem put (h : nlh.Holds buflen bytes) (type : UInt16) {data : List UInt8}
    (hroom : bytes.length + mnlAttrHdrlen + align4 data.length ≤ buflen) (hlen : buflen < 2 ^ 16) :
    ∃ nlh', nlh.mnlAttrPut type data = some nlh' ∧
      nlh'.Holds buflen (bytes ++ RecordFormat.pad (Nlattr.toBytes ⟨type, data⟩)) := by
  have hdata := le_align4 data.length
  have hbuf := h.buflen
  have hpayload : (align4 mnlAttrHdrlen + data.length) % 2 ^ 16 = mnlAttrHdrlen + data.length := by
    have hhdr : align4 mnlAttrHdrlen = mnlAttrHdrlen := rfl
    rw [hhdr, Nat.mod_eq_of_lt (by omega)]
  have hhead : (toLe16 (mnlAttrHdrlen + data.length) ++ toLe16 type.toNat).length =
      mnlAttrHdrlen := rfl
  obtain ⟨buf₁, h₁, hpre₁⟩ := store_prefix
    (toLe16 (mnlAttrHdrlen + data.length) ++ toLe16 type.toNat) h.isPrefix rfl
    (by rw [hhead, hbuf]; omega)
  have hoff₁ : bytes.length + mnlAttrHdrlen = (bytes ++
      (toLe16 (mnlAttrHdrlen + data.length) ++ toLe16 type.toNat)).length := by
    rw [List.length_append, hhead]
  obtain ⟨buf₂, h₂, hpre₂⟩ := store_prefix data hpre₁ hoff₁
    (by rw [length_of_store h₁, hbuf]; omega)
  have hoff₂ : bytes.length + mnlAttrHdrlen + data.length = (bytes ++
      (toLe16 (mnlAttrHdrlen + data.length) ++ toLe16 type.toNat) ++ data).length := by
    rw [List.length_append, ← hoff₁]
  obtain ⟨buf₃, h₃, hpre₃⟩ := store_prefix
    (List.replicate (align4 data.length - data.length) 0) hpre₂ hoff₂
    (by rw [length_of_store h₂, length_of_store h₁, hbuf, List.length_replicate]; omega)
  have hpad : align4 (mnlAttrHdrlen + data.length) = mnlAttrHdrlen + align4 data.length :=
    align4_add rfl _
  have hbytes : bytes ++ (toLe16 (mnlAttrHdrlen + data.length) ++ toLe16 type.toNat) ++ data ++
      List.replicate (align4 data.length - data.length) 0 =
        bytes ++ RecordFormat.pad (Nlattr.toBytes ⟨type, data⟩) := by
    rw [RecordFormat.pad, Nlattr.length_toBytes, hpad, Nat.add_sub_add_left]
    simp only [Nlattr.toBytes, List.append_assoc]
  have hsize : (RecordFormat.pad (Nlattr.toBytes ⟨type, data⟩)).length =
      align4 (mnlAttrHdrlen + data.length) := by
    rw [RecordFormat.length_pad, Nlattr.length_toBytes]
  refine ⟨⟨buf₃, nlh.nlmsg_len + align4 (mnlAttrHdrlen + data.length)⟩, ?_, ?_⟩
  · simp only [mnlAttrPut, h.payloadTail, hpayload, h₁, h₂, h₃, Option.bind_eq_bind,
      Option.bind_some, Option.pure_def]
  · refine ⟨hbytes ▸ hpre₃, ?_, ?_, ?_⟩
    · rw [List.length_append, hsize, h.nlmsg_len]
    · rw [List.length_append, hsize, Nat.add_mod, h.aligned, align4_mod]
    · rw [length_of_store h₃, length_of_store h₂, length_of_store h₁, hbuf]

/-- The length of a nest is left as it was in the buffer. -/
theorem nestStart (h : nlh.Holds buflen bytes) (type : UInt16)
    (hroom : bytes.length + mnlAttrHdrlen ≤ buflen) :
    ∃ nlh' lo hi, nlh.mnlAttrNestStart type = some (nlh', bytes.length) ∧
      nlh'.Holds buflen (bytes ++ (lo :: hi :: toLe16 (nlaFNested ||| type).toNat)) := by
  have hbuf := h.buflen
  change bytes.length + 4 ≤ buflen at hroom
  obtain ⟨rest, hrest⟩ := h.isPrefix
  have hlen : bytes.length + rest.length = buflen := by rw [← List.length_append, hrest, hbuf]
  obtain ⟨lo, hi, rest, rfl⟩ : ∃ lo hi rest', rest = lo :: hi :: rest' := by
    rcases rest with _ | ⟨lo, _ | ⟨hi, rest⟩⟩
    · rw [List.length_nil] at hlen
      omega
    · rw [List.length_singleton] at hlen
      omega
    · exact ⟨lo, hi, rest, rfl⟩
  have hprefix : bytes ++ [lo, hi] <+: nlh.buf := ⟨rest, by rw [← hrest, List.append_assoc]; rfl⟩
  have hoff : bytes.length + 2 = (bytes ++ [lo, hi]).length := by
    rw [List.length_append]
    rfl
  have hfour : (lo :: hi :: toLe16 (nlaFNested ||| type).toNat).length = 4 := rfl
  obtain ⟨buf', hstore, hpre⟩ := store_prefix (toLe16 (nlaFNested ||| type).toNat) hprefix hoff
    (by rw [hbuf]; exact hroom)
  refine ⟨⟨buf', nlh.nlmsg_len + align4 mnlAttrHdrlen⟩, lo, hi, ?_, ?_, ?_, ?_, ?_⟩
  · simp only [mnlAttrNestStart, h.payloadTail, hstore, Option.bind_eq_bind, Option.bind_some,
      Option.pure_def]
  · rwa [List.append_assoc] at hpre
  · rw [List.length_append, h.nlmsg_len]
    rfl
  · rw [List.length_append, Nat.add_mod, h.aligned, hfour]
  · rw [length_of_store hstore, hbuf]

/-- The length of a nest goes where its place is. -/
theorem nestEnd {lo hi : UInt8} {rest : List UInt8}
    (h : nlh.Holds buflen (bytes ++ lo :: hi :: rest)) :
    ∃ nlh', nlh.mnlAttrNestEnd bytes.length = some nlh' ∧
      nlh'.Holds buflen (bytes ++ (toLe16 (2 + rest.length) ++ rest)) := by
  have htail : nlh.payloadTail - bytes.length = 2 + rest.length := by
    rw [h.payloadTail, List.length_append, Nat.add_sub_cancel_left, List.length_cons,
      List.length_cons]
    omega
  obtain ⟨behind, hbehind⟩ := h.isPrefix
  have hbuf : nlh.buf = bytes ++ ([lo, hi] ++ (rest ++ behind)) := by
    rw [← hbehind, List.append_assoc]
    rfl
  have hstore : store nlh.buf bytes.length (toLe16 (2 + rest.length)) =
      some (bytes ++ (toLe16 (2 + rest.length) ++ (rest ++ behind))) := by
    have hfit : bytes.length + (toLe16 (2 + rest.length)).length ≤ nlh.buf.length := by
      rw [hbuf, List.length_append, List.length_append]
      exact Nat.add_le_add_left (Nat.le_add_right _ _) _
    have hdrop : (bytes ++ ([lo, hi] ++ (rest ++ behind))).drop
        (bytes.length + (toLe16 (2 + rest.length)).length) = rest ++ behind := by
      rw [← List.drop_drop, List.drop_left]
      rfl
    rw [store, if_pos hfit, hbuf, List.take_left, hdrop, List.append_assoc]
  have hlen : (bytes ++ (toLe16 (2 + rest.length) ++ rest)).length =
      (bytes ++ lo :: hi :: rest).length := by
    simp only [toLe16, List.length_append, List.length_cons, List.length_nil]
    omega
  refine ⟨⟨bytes ++ (toLe16 (2 + rest.length) ++ (rest ++ behind)), nlh.nlmsg_len⟩, ?_, ?_, ?_,
    ?_, ?_⟩
  · simp only [mnlAttrNestEnd, htail, hstore, Option.bind_eq_bind, Option.bind_some,
      Option.pure_def]
  · exact ⟨behind, by simp only [List.append_assoc]⟩
  · rw [hlen, h.nlmsg_len]
  · rw [hlen, h.aligned]
  · exact (length_of_store hstore).trans h.buflen

/-- A nest that is given up is behind the end of the message. -/
theorem nestCancel {rest : List UInt8} (h : nlh.Holds buflen (bytes ++ rest))
    (haligned : bytes.length % 4 = 0) :
    (nlh.mnlAttrNestCancel bytes.length).Holds buflen bytes := by
  refine ⟨(List.prefix_append _ _).trans h.isPrefix, ?_, haligned, h.buflen⟩
  rw [mnlAttrNestCancel, h.payloadTail, h.nlmsg_len, List.length_append, Nat.add_sub_cancel_left,
    Nat.add_sub_cancel_right]

end Nlmsghdr.Holds

/-! ## The message so far -/

/-- How the contents stand in a message, with the starts of the open nests: these have their lengths
missing. -/
inductive Laid (head : List UInt8) (attrs : List AttrTree) :
    List (UInt16 × List AttrTree) → List ℕ → List UInt8 → Prop
  | message : Laid head attrs [] [] (head ++ AttrTree.encodeAll attrs)
  | nest {nests : List (UInt16 × List AttrTree)} {starts : List ℕ} {bytes : List UInt8}
      (lo hi : UInt8) (type : UInt16) (children : List AttrTree) :
      Laid head attrs nests starts bytes →
      Laid head attrs ((type, children) :: nests) (bytes.length :: starts)
        (bytes ++ (lo :: hi :: (toLe16 (nlaFNested ||| type).toNat ++ AttrTree.encodeAll children)))

namespace Laid

variable {head bytes : List UInt8} {c : Contents} {starts : List ℕ}

theorem length_eq (h : Laid head c.attrs c.nests starts bytes) :
    bytes.length = head.length + c.size := by
  obtain ⟨attrs, nests⟩ := c
  dsimp only at h
  unfold Contents.size
  dsimp only
  induction h with
  | message => rw [List.length_append]; rfl
  | nest lo hi type children h ih =>
    simp only [List.length_append, List.length_cons, List.map_cons, List.sum_cons, ih, toLe16,
      List.length_nil, mnlAttrHdrlen]
    omega

theorem length_mod (hhead : head.length % 4 = 0) {attrs : List AttrTree}
    {nests : List (UInt16 × List AttrTree)} (h : Laid head attrs nests starts bytes) :
    bytes.length % 4 = 0 := by
  have hmod := AttrTree.length_encodeAll_mod
  induction h with
  | message =>
    have hattrs := hmod attrs
    rw [List.length_append]
    omega
  | nest lo hi type children h ih =>
    have hchildren := hmod children
    simp only [List.length_append, List.length_cons, toLe16, List.length_nil]
    omega

/-- What is pushed goes behind all that is there. -/
theorem push (h : Laid head c.attrs c.nests starts bytes) (t : AttrTree) :
    Laid head (c.push t).attrs (c.push t).nests starts
      (bytes ++ RecordFormat.pad t.toAttr.toBytes) := by
  obtain ⟨attrs, nests⟩ := c
  dsimp only at h
  cases h with
  | message =>
    rw [List.append_assoc, ← AttrTree.encodeAll_concat]
    exact .message
  | nest lo hi type children h =>
    have hnest := Laid.nest lo hi type (children ++ [t]) h
    rw [AttrTree.encodeAll_concat] at hnest
    change Laid head attrs ((type, children ++ [t]) :: _) _ _
    simpa only [List.append_assoc, List.cons_append] using hnest

end Laid

/-- The message holds the contents. -/
structure Building.Holds (head : List UInt8) (buflen : ℕ) (b : Building) (c : Contents) : Prop where
  exists_bytes : ∃ bytes, Laid head c.attrs c.nests b.starts bytes ∧ b.nlh.Holds buflen bytes
  attrs : AttrTree.FitAll c.attrs
  nests : ∀ nest ∈ c.nests, AttrTree.FitAll nest.2

namespace Contents

variable {c : Contents} {t : AttrTree}

theorem fits_push (hattrs : AttrTree.FitAll c.attrs)
    (hnests : ∀ nest ∈ c.nests, AttrTree.FitAll nest.2) (ht : t.Fits) :
    AttrTree.FitAll (c.push t).attrs ∧ ∀ nest ∈ (c.push t).nests, AttrTree.FitAll nest.2 := by
  obtain ⟨attrs, nests⟩ := c
  cases nests with
  | nil => exact ⟨AttrTree.fitAll_append.mpr ⟨hattrs, ht, trivial⟩, fun nest hnest ↦ by cases hnest⟩
  | cons nest nests =>
    refine ⟨hattrs, fun nest' hnest' ↦ ?_⟩
    rcases List.mem_cons.mp hnest' with rfl | hmem
    · exact AttrTree.fitAll_append.mpr ⟨hnests nest List.mem_cons_self, ht, trivial⟩
    · exact hnests nest' (List.mem_cons_of_mem _ hmem)

end Contents

namespace Building.Holds

variable {head : List UInt8} {buflen : ℕ} {b : Building} {c : Contents}

/-- Every call is within the buffer, and does what it is for. -/
theorem call (h : b.Holds head buflen c) (hhead : head.length % 4 = 0) (hlen : buflen < 2 ^ 16)
    (e : AttrCall) : ∃ b', b.call buflen e = some b' ∧
      b'.Holds head buflen (c.call (buflen - head.length) e) := by
  obtain ⟨bytes, hlaid, hholds⟩ := h.exists_bytes
  have hsize := hlaid.length_eq
  have hle : head.length ≤ buflen := by
    have hprefix := hholds.isPrefix.length_le
    rw [hholds.buflen] at hprefix
    omega
  cases e with
  | put type data =>
    have hroom : b.nlh.nlmsg_len + mnlAttrHdrlen + align4 data.length > buflen ↔
        c.size + mnlAttrHdrlen + align4 data.length > buflen - head.length := by
      rw [hholds.nlmsg_len, hsize]
      omega
    by_cases hfull : c.size + mnlAttrHdrlen + align4 data.length > buflen - head.length
    · refine ⟨b, ?_, ?_⟩
      · simp only [Building.call, Nlmsghdr.mnlAttrPutCheck, if_pos (hroom.mpr hfull)]
        rfl
      · simp only [Contents.call, if_pos hfull]
        exact h
    · have hfree : bytes.length + mnlAttrHdrlen + align4 data.length ≤ buflen := by
        rw [← hholds.nlmsg_len]
        exact Nat.le_of_not_lt (mt hroom.mp hfull)
      obtain ⟨nlh', hput, hholds'⟩ := hholds.put type hfree hlen
      have hfits : (AttrTree.leaf type data).Fits := by
        have hdata := le_align4 data.length
        change mnlAttrHdrlen + data.length < 2 ^ 16
        omega
      obtain ⟨hattrs, hnests⟩ := Contents.fits_push h.attrs h.nests hfits
      refine ⟨⟨nlh', b.starts⟩, ?_, ?_⟩
      · simp only [Building.call, Nlmsghdr.mnlAttrPutCheck, if_neg (mt hroom.mp hfull), hput]
        rfl
      · simp only [Contents.call, if_neg hfull]
        exact ⟨⟨_, hlaid.push _, hholds'⟩, hattrs, hnests⟩
  | nestStart type =>
    have hroom : b.nlh.nlmsg_len + mnlAttrHdrlen > buflen ↔
        c.size + mnlAttrHdrlen > buflen - head.length := by
      rw [hholds.nlmsg_len, hsize]
      omega
    by_cases hfull : c.size + mnlAttrHdrlen > buflen - head.length
    · refine ⟨b, ?_, ?_⟩
      · simp only [Building.call, if_pos (hroom.mpr hfull)]
      · simp only [Contents.call, if_pos hfull]
        exact h
    · have hfree : bytes.length + mnlAttrHdrlen ≤ buflen := by
        rw [← hholds.nlmsg_len]
        exact Nat.le_of_not_lt (mt hroom.mp hfull)
      obtain ⟨nlh', lo, hi, hstart, hholds'⟩ := hholds.nestStart type hfree
      have hnest := Laid.nest lo hi type [] hlaid
      have hnil : AttrTree.encodeAll [] = [] := rfl
      rw [hnil, List.append_nil] at hnest
      refine ⟨⟨nlh', bytes.length :: b.starts⟩, ?_, ?_⟩
      · simp only [Building.call, if_neg (mt hroom.mp hfull), hstart]
        rfl
      · simp only [Contents.call, if_neg hfull]
        refine ⟨⟨_, hnest, hholds'⟩, h.attrs, fun nest hmem ↦ ?_⟩
        rcases List.mem_cons.mp hmem with rfl | hmem
        · trivial
        · exact h.nests nest hmem
  | nestEnd =>
    obtain ⟨nlh, starts⟩ := b
    obtain ⟨attrs, nests⟩ := c
    dsimp only at hlaid hholds
    cases hlaid with
    | message => exact ⟨_, rfl, h⟩
    | @nest nests starts bytes lo hi type children hlaid =>
      have hfits : (AttrTree.nest type children).Fits := by
        have hprefix := hholds.isPrefix.length_le
        rw [hholds.buflen] at hprefix
        simp only [List.length_append, List.length_cons, toLe16, List.length_nil] at hprefix
        refine ⟨?_, h.nests _ List.mem_cons_self⟩
        change 4 + _ < _
        omega
      obtain ⟨nlh', hend, hholds'⟩ := hholds.nestEnd
      rw [← AttrTree.pad_toBytes_nest] at hholds'
      obtain ⟨hattrs, hnests⟩ := Contents.fits_push (c := ⟨attrs, nests⟩) h.attrs
        (fun nest hmem ↦ h.nests nest (List.mem_cons_of_mem _ hmem)) hfits
      refine ⟨⟨nlh', starts⟩, ?_, ⟨_, Laid.push (c := ⟨attrs, nests⟩) hlaid _, hholds'⟩, hattrs,
        hnests⟩
      simp only [Building.call, hend]
      rfl
  | nestCancel =>
    obtain ⟨nlh, starts⟩ := b
    obtain ⟨attrs, nests⟩ := c
    dsimp only at hlaid hholds
    cases hlaid with
    | message => exact ⟨_, rfl, h⟩
    | nest lo hi type children hlaid =>
      exact ⟨_, rfl, ⟨_, hlaid, hholds.nestCancel (hlaid.length_mod hhead)⟩, h.attrs,
        fun nest hmem ↦ h.nests nest (List.mem_cons_of_mem _ hmem)⟩

theorem run (h : b.Holds head buflen c) (hhead : head.length % 4 = 0) (hlen : buflen < 2 ^ 16)
    (calls : List AttrCall) : ∃ b', b.run buflen calls = some b' ∧
      b'.Holds head buflen (calls.foldl (Contents.call (buflen - head.length)) c) := by
  induction calls generalizing b c with
  | nil => exact ⟨b, rfl, h⟩
  | cons e calls ih =>
    obtain ⟨b₁, hcall, h₁⟩ := h.call hhead hlen e
    obtain ⟨b', hrun, h'⟩ := ih h₁
    refine ⟨b', ?_, h'⟩
    rw [Building.run, List.foldlM_cons, hcall]
    exact hrun

theorem start {buf : List UInt8} {offset : ℕ} (hhead : IsHead offset head)
    (hfit : head.length ≤ buf.length) : head.length % 4 = 0 ∧
      ∃ b, Building.start buf head = some b ∧ b.Holds head buf.length ⟨[], []⟩ := by
  have hmod : head.length % 4 = 0 := by
    rw [hhead, Nat.add_mod, align4_mod]
    rfl
  have hoff : 0 = ([] : List UInt8).length := rfl
  obtain ⟨buf', hstore, hpre⟩ := store_prefix head (List.nil_prefix (l := buf)) hoff
    (by rwa [Nat.zero_add])
  refine ⟨hmod, ⟨⟨buf', head.length⟩, []⟩, ?_, ⟨head ++ AttrTree.encodeAll [], .message, ?_⟩,
    trivial, fun nest hnest ↦ by cases hnest⟩
  · simp only [Building.start, hstore, Option.bind_eq_bind, Option.bind_some, Option.pure_def]
  · have hnil : AttrTree.encodeAll [] = [] := rfl
    rw [hnil, List.append_nil]
    exact ⟨hpre, rfl, hmod, length_of_store hstore⟩

end Building.Holds

section Run

variable {buf head : List UInt8} {offset : ℕ}

/-- Whatever is put, nested, closed or given up, nothing is written outside of the buffer, and the
message stays aligned and is as long as what it holds. -/
theorem run_within (hhead : IsHead offset head) (hfit : head.length ≤ buf.length)
    (hlen : buf.length < 2 ^ 16) (calls : List AttrCall) :
    ∃ b, (Building.start buf head).bind (·.run buf.length calls) = some b ∧
      b.nlh.nlmsg_len = head.length + (Contents.run (buf.length - head.length) calls).size ∧
      b.nlh.nlmsg_len ≤ buf.length ∧ b.nlh.nlmsg_len % 4 = 0 := by
  obtain ⟨hmod, b₀, hstart, hholds₀⟩ := Building.Holds.start hhead hfit
  obtain ⟨b, hrun, hholds⟩ := hholds₀.run hmod hlen calls
  obtain ⟨bytes, hlaid, hbytes⟩ := hholds.exists_bytes
  have hle := hbytes.isPrefix.length_le
  rw [hbytes.buflen] at hle
  refine ⟨b, by rw [hstart]; exact hrun, ?_, ?_, ?_⟩
  · rw [hbytes.nlmsg_len]
    exact hlaid.length_eq
  · rw [hbytes.nlmsg_len]
    exact hle
  · rw [hbytes.nlmsg_len]
    exact hbytes.aligned

/-- A name, a kind in a nest, and a nest that is given up. -/
def linkCalls : List AttrCall :=
  [.put 3 [119, 119, 97, 110, 48, 0], .nestStart 18, .put 1 [114, 109], .nestEnd, .nestStart 2,
    .put 1 [0], .nestCancel]

def linkBuf : List UInt8 := List.replicate 64 0xff

def linkHead : List UInt8 := List.replicate 32 0

theorem run_within_linkCalls :
    ∃ b, (Building.start linkBuf linkHead).bind (·.run linkBuf.length linkCalls) = some b ∧
      b.nlh.nlmsg_len = linkHead.length + (Contents.run 32 linkCalls).size ∧
      b.nlh.nlmsg_len ≤ linkBuf.length ∧ b.nlh.nlmsg_len % 4 = 0 := by
  have hhead : IsHead 16 linkHead := rfl
  exact run_within hhead (by decide) (by decide) linkCalls

/-- When all nests are closed, a reader of the message finds what was put into it, at every depth
and in order, and nothing of what was given up. -/
theorem parse_run (hhead : IsHead offset head) (hfit : head.length ≤ buf.length)
    (hlen : buf.length < 2 ^ 16) {calls : List AttrCall} {b : Building}
    (hrun : (Building.start buf head).bind (·.run buf.length calls) = some b)
    (hclosed : (Contents.run (buf.length - head.length) calls).nests = []) :
    ∃ as, List.Forall₂ ReadsAs as (Contents.run (buf.length - head.length) calls).attrs ∧
      ∀ {σ : Type} (cb : σ → Nlattr → σ × ℤ) (data : σ),
        b.nlh.mnlAttrParse offset cb data = callAll cb data 1 as := by
  obtain ⟨hmod, b₀, hstart, hholds₀⟩ := Building.Holds.start hhead hfit
  obtain ⟨b', hrun', hholds⟩ := hholds₀.run hmod hlen calls
  rw [hstart] at hrun
  obtain rfl : b' = b := Option.some.inj (hrun'.symm.trans hrun)
  unfold Contents.run at hclosed
  obtain ⟨bytes, hlaid, hbytes⟩ := hholds.exists_bytes
  refine ⟨AttrTree.toAttrs _, AttrTree.forall₂_toAttrs hholds.attrs, fun cb data ↦ ?_⟩
  rw [hclosed] at hlaid
  generalize b'.starts = starts at hlaid
  cases hlaid
  have htake : b'.nlh.buf.take b'.nlh.payloadTail =
      head ++ AttrTree.encodeAll
        (calls.foldl (Contents.call (buf.length - head.length)) ⟨[], []⟩).attrs := by
    rw [hbytes.payloadTail]
    exact (List.prefix_iff_eq_take.mp hbytes.isPrefix).symm
  have hoffset : Nlmsghdr.hdrlen + align4 offset = head.length := hhead.symm
  rw [Nlmsghdr.mnlAttrParse, htake, hoffset, List.drop_left]
  exact mnlAttrParsePayload_encodeAll cb data 1 (AttrTree.FitAll.payload hholds.attrs)

theorem parse_linkCalls :
    ∃ b as, (Building.start linkBuf linkHead).bind (·.run linkBuf.length linkCalls) = some b ∧
      List.Forall₂ ReadsAs as (Contents.run 32 linkCalls).attrs ∧
      ∀ {σ : Type} (cb : σ → Nlattr → σ × ℤ) (data : σ),
        b.nlh.mnlAttrParse 16 cb data = callAll cb data 1 as := by
  have hhead : IsHead 16 linkHead := rfl
  obtain ⟨hmod, b₀, hstart, hholds₀⟩ :=
    Building.Holds.start hhead (by decide : linkHead.length ≤ linkBuf.length)
  obtain ⟨b, hrun, -⟩ := hholds₀.run hmod (by decide) linkCalls
  have hb : (Building.start linkBuf linkHead).bind (·.run linkBuf.length linkCalls) = some b := by
    rw [hstart]
    exact hrun
  obtain ⟨as, has, hparse⟩ := parse_run hhead (by decide) (by decide) hb rfl
  exact ⟨b, as, hb, has, hparse⟩

end Run

end Wwan.Libmnl
