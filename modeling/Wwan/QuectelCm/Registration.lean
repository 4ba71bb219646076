import Mathlib.Data.List.Induction
import Wwan.QuectelCm.Replies

/-!
# Registration and the order of TLVs

`requestRegistrationState2` goes through the TLVs of a `QMINAS_GET_SYS_INFO_RESP` once. Whether the
modem is attached is or-ed together, and `s_is_cdma` is cleared by whatever sets `is_lte`, before or
after it. But `DataCapList`, from which the type of 5G is read, is assigned by the older
technologies, so that NR5G counts only if it comes last.
-/

namespace Wwan.QuectelCm

open Bytes

/-! ## Data classes -/

/-- `WWAN_DATA_CLASS_NONE` -/
def wwanDataClassNone : UInt32 := 0x00000000

/-- `WWAN_DATA_CLASS_GPRS` -/
def wwanDataClassGprs : UInt32 := 0x00000001

/-- `WWAN_DATA_CLASS_EDGE` -/
def wwanDataClassEdge : UInt32 := 0x00000002

/-- `WWAN_DATA_CLASS_UMTS` -/
def wwanDataClassUmts : UInt32 := 0x00000004

/-- `WWAN_DATA_CLASS_LTE` -/
def wwanDataClassLte : UInt32 := 0x00000020

/-- `WWAN_DATA_CLASS_5G_NSA` -/
def wwanDataClass5gNsa : UInt32 := 0x00000040

/-- `WWAN_DATA_CLASS_5G_SA` -/
def wwanDataClass5gSa : UInt32 := 0x00000080

/-- `WWAN_DATA_CLASS_1XRTT` -/
def wwanDataClass1xrtt : UInt32 := 0x00010000

/-- `WWAN_DATA_CLASS_1XEVDO` -/
def wwanDataClass1xevdo : UInt32 := 0x00020000

/-- `WWAN_DATA_CLASS_1XEVDO_REVA` -/
def wwanDataClass1xevdoReva : UInt32 := 0x00040000

/-- `WWAN_DATA_CLASS_1XEVDV` -/
def wwanDataClass1xevdv : UInt32 := 0x00080000

/-- `WWAN_DATA_CLASS_3XRTT` -/
def wwanDataClass3xrtt : UInt32 := 0x00100000

/-- `WWAN_DATA_CLASS_1XEVDO_REVB` -/
def wwanDataClass1xevdoRevb : UInt32 := 0x00200000

/-- `WWAN_DATA_CLASS_UMB` -/
def wwanDataClassUmb : UInt32 := 0x00400000

/-- `DEVICE_CLASS_UNKNOWN`, `DEVICE_CLASS_CDMA`, `DEVICE_CLASS_GSM` -/
inductive DeviceClass
  | unknown
  | cdma
  | gsm
  deriving DecidableEq

/-- What `requestRegistrationState2` collects about the data classes. -/
structure DataCap where
  deviceClass : DeviceClass
  dataCapList : UInt32
  /-- `endc_available`, if it is valid. -/
  endcAvailable : Option UInt8
  /-- `restrict_dcnr`, if it is valid. -/
  restrictDcnr : Option UInt8
  deriving DecidableEq

/-- At the beginning of the loop. -/
def DataCap.none : DataCap := ⟨.unknown, 0, .none, .none⟩

/-- `SrvStatus` -/
def srvStatus (pInfo : List UInt8) : UInt8 := byteAt pInfo 3

/-- A technology that is in service takes the place of those before. -/
def DataCap.assign (c : DataCap) (pInfo : List UInt8) (deviceClass : DeviceClass)
    (dataCapList : UInt32) : DataCap :=
  if srvStatus pInfo = 0x02 then { c with deviceClass := deviceClass, dataCapList := dataCapList }
  else c

/-- What a TLV of `QMINAS_GET_SYS_INFO_REQ` says about the data classes. -/
def dataCap (pInfo : List UInt8) (c : DataCap) : DataCap :=
  match byteAt pInfo 0 with
  | 0x10 => c.assign pInfo .cdma (wwanDataClass1xrtt ||| wwanDataClass1xevdo |||
      wwanDataClass1xevdoReva ||| wwanDataClass1xevdv ||| wwanDataClass1xevdoRevb)
  | 0x11 => c.assign pInfo .cdma (wwanDataClass3xrtt ||| wwanDataClassUmb)
  | 0x12 => c.assign pInfo .gsm (wwanDataClassGprs ||| wwanDataClassEdge)
  | 0x13 => c.assign pInfo .gsm wwanDataClassUmts
  | 0x14 => c.assign pInfo .gsm wwanDataClassLte
  | 0x4A => c.assign pInfo .gsm (c.dataCapList ||| wwanDataClass5gSa)
  | 0x4E => { c with endcAvailable := some (srvStatus pInfo) }
  | 0x4F => { c with restrictDcnr := some (srvStatus pInfo) }
  | _ => c

/-- Dual connectivity is available and not restricted. -/
def DataCap.EnDc (c : DataCap) : Prop :=
  c.endcAvailable.any (· ≠ 0) = true ∧ c.restrictDcnr.any (· = 0) = true

instance (c : DataCap) : Decidable c.EnDc := inferInstanceAs (Decidable (_ ∧ _))

/-- `DataCapList`, after the loop. -/
def DataCap.withNsa (c : DataCap) : UInt32 :=
  if c.dataCapList &&& wwanDataClassLte ≠ 0 ∧ c.EnDc then c.dataCapList ||| wwanDataClass5gNsa
  else c.dataCapList

/-- `s_5g_type`, after the loop. -/
def DataCap.type5g (c : DataCap) : UInt32 :=
  if c.deviceClass = .cdma then wwanDataClassNone
  else if c.withNsa &&& wwanDataClass5gSa ≠ 0 then wwanDataClass5gSa
  else if c.withNsa &&& wwanDataClass5gNsa ≠ 0 then wwanDataClass5gNsa
  else wwanDataClassNone

/-- The loop of `requestRegistrationState2`. -/
def sysInfos2 : ℕ → List UInt8 → ℤ → Registration × DataCap → Registration × DataCap
  | 0, _, _, s => s
  | fuel + 1, pInfo, remainingLen, s =>
    if remainingLen ≤ 0 then s
    else
      sysInfos2 fuel (pInfo.drop (field16 pInfo 1 + Tlv.hdrSize))
        (remainingLen - (field16 pInfo 1 + Tlv.hdrSize)) (sysInfo pInfo s.1, dataCap pInfo s.2)

/-- What `requestRegistrationState2` leaves. -/
structure Registered where
  ret : ℤ
  pSAttachedState : UInt8
  s_is_cdma : Bool
  s_hdr_personality : UInt8
  s_5g_type : UInt32
  deriving DecidableEq

/-- `requestRegistrationState2` -/
def registrationState2 (r : Reply) (g : Globals) (s_5g_type : UInt32) : Registered :=
  r.result (fun err ↦ ⟨err, 0, g.s_is_cdma, g.s_hdr_personality, s_5g_type⟩) fun msg ↦
    let s := sysInfos2 (msg.length + 1) (msg.drop hdrsSize) (qmuxMsgHdrLength msg)
      (⟨0, false, 0, false⟩, .none)
    ⟨0, s.1.pSAttachedState, s.1.s_is_cdma, s.1.s_hdr_personality, s.2.type5g⟩

theorem sysInfos2_fst {fuel : ℕ} {pInfo : List UInt8} {remainingLen : ℤ}
    {s : Registration × DataCap} :
    (sysInfos2 fuel pInfo remainingLen s).1 = sysInfos fuel pInfo remainingLen s.1 := by
  induction fuel generalizing pInfo remainingLen s with
  | zero => rfl
  | succ fuel ih =>
    rw [sysInfos2, sysInfos]
    split
    · rfl
    · exact ih

/-- It is the function whose other results the main loop depends on. -/
theorem registrationState2_eq (r : Reply) {g : Globals} (h : g.s_9x07 = true) (a : UInt8)
    (s_5g_type : UInt32) :
    registrationState r g a =
      let s := registrationState2 r g s_5g_type
      (s.ret, ⟨s.pSAttachedState, s.s_is_cdma, s.s_hdr_personality,
        (registrationState r g a).2.is_lte⟩) := by
  unfold registrationState registrationState2
  rw [if_pos h]
  cases r with
  | none err => rfl
  | response msg =>
    simp only [Reply.result]
    split
    · rfl
    · rw [sysInfos2_fst]

/-! ## TLVs that hold their fields -/

/-- How many bytes of the value of a TLV are read. -/
def fieldsRead (type : UInt8) : ℕ :=
  match type with
  | 0x10 | 0x11 | 0x12 | 0x13 | 0x14 | 0x4A | 0x4E | 0x4F => 1
  | 0x4B | 0x15 | 0x17 | 0x18 | 0x19 | 0x25 => 2
  | 0x16 => 12
  | _ => 0

/-- The fields that are read are inside the TLV. -/
def Whole (t : Tlv) : Prop := fieldsRead t.type ≤ t.value.length

instance (t : Tlv) : Decidable (Whole t) := inferInstanceAs (Decidable (_ ≤ _))

section Fields

variable {t : Tlv} {rest : List UInt8}

theorem byteAt_encode_append {i : ℕ} (hi : i < 3 + t.value.length) :
    byteAt (t.encode ++ rest) i = byteAt t.encode i := by
  refine byteAt_append_left ?_ rest
  rw [Tlv.length_encode, Tlv.size, Tlv.hdrSize]
  exact hi

/-- A whole TLV means the same whatever comes after it. -/
theorem sysInfo_append (h : Whole t) (r : Registration) :
    sysInfo (t.encode ++ rest) r = sysInfo t.encode r := by
  have hbyte {i : ℕ} (hi : i < 3 + fieldsRead t.type) :
      byteAt (t.encode ++ rest) i = byteAt t.encode i :=
    byteAt_encode_append (Nat.lt_of_lt_of_le hi (Nat.add_le_add_left h 3))
  have htype : byteAt t.encode 0 = t.type := rfl
  unfold sysInfo
  rw [hbyte (by omega), htype]
  generalize t.type = type at hbyte
  split <;> simp [fieldsRead] at hbyte <;> simp [psDomain, hbyte]

theorem DataCap.assign_congr {pInfo pInfo' : List UInt8} (h : srvStatus pInfo = srvStatus pInfo')
    (c : DataCap) (deviceClass : DeviceClass) (dataCapList : UInt32) :
    c.assign pInfo deviceClass dataCapList = c.assign pInfo' deviceClass dataCapList := by
  rw [assign, assign, h]

theorem dataCap_append (h : Whole t) (c : DataCap) :
    dataCap (t.encode ++ rest) c = dataCap t.encode c := by
  have hbyte {i : ℕ} (hi : i < 3 + fieldsRead t.type) :
      byteAt (t.encode ++ rest) i = byteAt t.encode i :=
    byteAt_encode_append (Nat.lt_of_lt_of_le hi (Nat.add_le_add_left h 3))
  have htype : byteAt t.encode 0 = t.type := rfl
  unfold dataCap
  rw [hbyte (by omega), htype]
  generalize t.type = type at hbyte
  have hstatus (h : 1 ≤ fieldsRead type) : srvStatus (t.encode ++ rest) = srvStatus t.encode :=
    hbyte (Nat.add_le_add_left h 3)
  split
  all_goals try exact DataCap.assign_congr (hstatus (by decide)) _ _ _
  · rw [hstatus (by decide)]
  · rw [hstatus (by decide)]
  · rfl

end Fields

/-! ## Responses -/

/-- A turn of the loop. -/
def sysInfoStep (s : Registration × DataCap) (t : Tlv) : Registration × DataCap :=
  (sysInfo t.encode s.1, dataCap t.encode s.2)

/-- The loop comes to one TLV after the other. -/
theorem sysInfos2_encodeAll (rest : List UInt8) {ts : List Tlv} (hsize : Tlv.sizeAll ts < 2 ^ 16)
    (hwhole : ∀ t ∈ ts, Whole t) {fuel : ℕ} (hfuel : ts.length ≤ fuel)
    (s : Registration × DataCap) :
    sysInfos2 fuel (Tlv.encodeAll ts ++ rest) (Tlv.sizeAll ts) s = ts.foldl sysInfoStep s := by
  induction ts generalizing fuel s with
  | nil =>
    cases fuel with
    | zero => rfl
    | succ fuel => rfl
  | cons t ts ih =>
    obtain ⟨fuel, rfl⟩ : ∃ n, fuel = n + 1 := ⟨fuel - 1, by rw [List.length_cons] at hfuel; omega⟩
    rw [Tlv.sizeAll_cons, Tlv.size, Tlv.hdrSize] at hsize
    have hlen : field16 (t.encode ++ (Tlv.encodeAll ts ++ rest)) 1 = t.value.length := by
      rw [Tlv.encode_eq]
      exact le16_byteOf (by omega)
    have hsizes : (Tlv.sizeAll (t :: ts) : ℤ) - (t.value.length + Tlv.hdrSize) =
        Tlv.sizeAll ts := by
      rw [Tlv.sizeAll_cons, Tlv.size]
      omega
    have hpos : ¬ (Tlv.sizeAll (t :: ts) : ℤ) ≤ 0 := by
      rw [Tlv.sizeAll_cons, Tlv.size, Tlv.hdrSize]
      omega
    have hdrop : (t.encode ++ (Tlv.encodeAll ts ++ rest)).drop (t.value.length + Tlv.hdrSize) =
        Tlv.encodeAll ts ++ rest := by
      rw [Nat.add_comm]
      exact List.drop_left' (Tlv.length_encode t)
    rw [Tlv.encodeAll_cons, List.append_assoc, sysInfos2, if_neg hpos, hlen, hsizes, hdrop,
      sysInfo_append (hwhole t List.mem_cons_self), dataCap_append (hwhole t List.mem_cons_self),
      ih (by omega) (fun t ht ↦ hwhole t (List.mem_cons_of_mem _ ht))
        (Nat.le_of_succ_le_succ hfuel)]
    rfl

/-- A response: what stands before the length, the value of the result TLV, the other TLVs, and what
is in the memory behind it. -/
def sysInfoResponse (head outcome : List UInt8) (ts : List Tlv) (behind : List UInt8) :
    List UInt8 :=
  head ++ toLe16 (7 + Tlv.sizeAll ts) ++ Tlv.encodeAll (⟨0x02, outcome⟩ :: ts) ++ behind

/-- The TLVs of a successful response decide on what is left. -/
theorem registrationState2_response {head outcome behind : List UInt8} (hhead : head.length = 11)
    (houtcome : outcome.length = 4) {ts : List Tlv} (hsize : 7 + Tlv.sizeAll ts < 2 ^ 16)
    (hwhole : ∀ t ∈ ts, Whole t) (g : Globals) (s_5g_type : UInt32) :
    registrationState2 (.response (sysInfoResponse head outcome ts behind)) g s_5g_type =
      if le16 (byteAt outcome 0) (byteAt outcome 1) ≠ 0 ∨
          le16 (byteAt outcome 2) (byteAt outcome 3) ≠ 0 then
        ⟨le16 (byteAt outcome 2) (byteAt outcome 3), 0, g.s_is_cdma, g.s_hdr_personality,
          s_5g_type⟩
      else
        let s := ts.foldl sysInfoStep (⟨0, false, 0, false⟩, .none)
        ⟨0, s.1.pSAttachedState, s.1.s_is_cdma, s.1.s_hdr_personality, s.2.type5g⟩ := by
  have hmsg : sysInfoResponse head outcome ts behind =
      head ++ (toLe16 (7 + Tlv.sizeAll ts) ++ Tlv.encodeAll (⟨0x02, outcome⟩ :: ts) ++ behind) := by
    simp [sysInfoResponse]
  have hfield (i : ℕ) : field16 (sysInfoResponse head outcome ts behind) (11 + i) = field16
      (toLe16 (7 + Tlv.sizeAll ts) ++ Tlv.encodeAll (⟨0x02, outcome⟩ :: ts) ++ behind) i := by
    rw [hmsg]
    exact congrArg₂ le16 (byteAt_append_right hhead _ i) (byteAt_append_right hhead _ (i + 1))
  have hlength : qmuxMsgHdrLength (sysInfoResponse head outcome ts behind) =
      7 + Tlv.sizeAll ts := (hfield 0).trans (le16_byteOf (by omega))
  have hsizes : 7 + Tlv.sizeAll ts = Tlv.sizeAll (⟨0x02, outcome⟩ :: ts) := by
    rw [Tlv.sizeAll_cons, Tlv.size, houtcome, Tlv.hdrSize]
  have hdrop : (sysInfoResponse head outcome ts behind).drop hdrsSize =
      Tlv.encodeAll (⟨0x02, outcome⟩ :: ts) ++ behind := by
    rw [sysInfoResponse, List.append_assoc]
    refine List.drop_left' ?_
    rw [List.length_append, hhead]
    rfl
  obtain ⟨a, b, c, d, rfl⟩ := List.length_eq_four.mp houtcome
  have hresult : qmuxResult (sysInfoResponse head [a, b, c, d] ts behind) = le16 a b := hfield 5
  have herror : qmuxError (sysInfoResponse head [a, b, c, d] ts behind) = le16 c d := hfield 7
  have hfuel : ((⟨0x02, [a, b, c, d]⟩ : Tlv) :: ts).length ≤
      (sysInfoResponse head [a, b, c, d] ts behind).length + 1 := by
    have hle := Tlv.length_le_sizeAll (⟨0x02, [a, b, c, d]⟩ :: ts)
    rw [hmsg]
    simp only [List.length_append, Tlv.length_encodeAll]
    omega
  have hall : ∀ t ∈ (⟨0x02, [a, b, c, d]⟩ : Tlv) :: ts, Whole t := by
    intro t ht
    rcases List.mem_cons.mp ht with rfl | ht
    · exact Nat.zero_le _
    · exact hwhole t ht
  rw [registrationState2, Reply.result, hresult, herror]
  refine if_congr Iff.rfl rfl ?_
  dsimp only
  rw [hlength, hdrop, hsizes, sysInfos2_encodeAll behind (hsizes ▸ hsize) hall hfuel]
  rfl

/-! ## Attachment and CDMA -/

section Marks

variable (pInfo : List UInt8)

/-- The TLV sets `*pPSAttachedState`. -/
def attaches : Bool :=
  match byteAt pInfo 0 with
  | 0x4B | 0x15 | 0x16 | 0x17 | 0x18 | 0x19 | 0x25 => psDomain pInfo
  | _ => false

/-- The TLV sets `is_lte`. -/
def marksLte : Bool :=
  match byteAt pInfo 0 with
  | 0x14 | 0x4A => srvStatus pInfo = 0x02
  | 0x19 => psDomain pInfo
  | _ => false

/-- The TLV sets `s_is_cdma`, unless `is_lte` is set. -/
def marksCdma : Bool :=
  match byteAt pInfo 0 with
  | 0x10 | 0x11 => srvStatus pInfo = 0x02
  | 0x15 | 0x16 => psDomain pInfo
  | _ => false

/-- What a TLV does to `*pPSAttachedState`, `is_lte` and `s_is_cdma`. -/
def markStep (z : UInt8 × Bool × Bool) : UInt8 × Bool × Bool :=
  (if attaches pInfo then 1 else z.1, marksLte pInfo || z.2.1,
    if marksLte pInfo then false else if marksCdma pInfo then !z.2.1 else z.2.2)

/-- `*pPSAttachedState`, `is_lte` and `s_is_cdma`. -/
def Registration.marks (r : Registration) : UInt8 × Bool × Bool :=
  (r.pSAttachedState, r.is_lte, r.s_is_cdma)

theorem marks_sysInfo (r : Registration) : (sysInfo pInfo r).marks = markStep pInfo r.marks := by
  unfold sysInfo markStep attaches marksLte marksCdma Registration.marks srvStatus
  generalize byteAt pInfo 0 = type
  split
  all_goals simp only [Bool.false_or, Bool.false_eq_true, if_false]
  case h_10 =>
    -- what is or is not kept about the personality of HDR makes no difference here
    cases psDomain pInfo <;> simp <;> split <;> simp
  all_goals split <;> simp_all

/-- The order of two TLVs does not matter. -/
theorem markStep_comm (p q : List UInt8) (z : UInt8 × Bool × Bool) :
    markStep q (markStep p z) = markStep p (markStep q z) := by
  refine Prod.ext ?_ (Prod.ext ?_ ?_)
  · cases hp : attaches p <;> cases hq : attaches q <;> simp [markStep, hp, hq]
  · exact Bool.or_left_comm _ _ _
  · -- a TLV that sets `is_lte` also clears `s_is_cdma`
    cases hp : marksLte p <;> cases hq : marksLte q <;> cases hcp : marksCdma p <;>
      cases hcq : marksCdma q <;> simp [markStep, hp, hq, hcp, hcq]

/-- Attachment and `s_is_cdma` do not depend on the order. -/
theorem marks_foldl_perm {ts us : List Tlv} (h : us.Perm ts) (s : Registration × DataCap) :
    (us.foldl sysInfoStep s).1.marks = (ts.foldl sysInfoStep s).1.marks := by
  have hfold (ts : List Tlv) : (ts.foldl sysInfoStep s).1.marks =
      ts.foldl (fun z t ↦ markStep t.encode z) s.1.marks :=
    (List.foldl_hom (fun s : Registration × DataCap ↦ s.1.marks)
      fun s t ↦ (marks_sysInfo t.encode s.1).symm).symm
  rw [hfold, hfold]
  exact h.foldl_eq' (fun t _ u _ z ↦ markStep_comm t.encode u.encode z) _

end Marks

/-! ## The type of 5G -/

/-- A TLV of a technology in service. -/
def InService (pInfo : List UInt8) : Prop :=
  byteAt pInfo 0 ∈ [0x10, 0x11, 0x12, 0x13, 0x14, 0x4A] ∧ srvStatus pInfo = 0x02

instance (pInfo : List UInt8) : Decidable (InService pInfo) :=
  inferInstanceAs (Decidable (_ ∧ _))

/-- The technology that comes last. -/
def lastStep (last : Option UInt8) (t : Tlv) : Option UInt8 :=
  if InService t.encode then some t.type else last

/-- What is collected if this technology comes last. -/
def Describes (c : DataCap) : Option UInt8 → Prop
  | none => c.deviceClass = .unknown ∧ c.dataCapList = 0
  | some 0x4A => c.deviceClass = .gsm ∧ c.dataCapList &&& wwanDataClass5gSa ≠ 0
  | some 0x14 => c.deviceClass = .gsm ∧ c.dataCapList = wwanDataClassLte
  | some _ => c.deviceClass = .cdma ∨ c.deviceClass = .gsm ∧
      c.dataCapList &&& (wwanDataClassLte ||| wwanDataClass5gNsa ||| wwanDataClass5gSa) = 0

/-- The type of 5G if this technology comes last. -/
def class5g (enDc : Prop) [Decidable enDc] : Option UInt8 → UInt32
  | some 0x4A => wwanDataClass5gSa
  | some 0x14 => if enDc then wwanDataClass5gNsa else wwanDataClassNone
  | _ => wwanDataClassNone

theorem and_or_self (x y : UInt32) : (x ||| y) &&& y = y := by
  apply UInt32.toBitVec_inj.mp
  ext i hi
  simpa using fun h ↦ .inr h

theorem and_or_of_and_eq_zero {x y z : UInt32} (h : y &&& z = 0) : (x ||| y) &&& z = x &&& z := by
  have hdistrib : (x ||| y) &&& z = x &&& z ||| y &&& z := by
    apply UInt32.toBitVec_inj.mp
    ext i hi
    simp [Bool.and_or_distrib_right]
  rw [hdistrib, h, UInt32.or_zero]

theorem dataCap_of_not_inService {pInfo : List UInt8} (h : ¬ InService pInfo) (c : DataCap) :
    (dataCap pInfo c).deviceClass = c.deviceClass ∧
      (dataCap pInfo c).dataCapList = c.dataCapList := by
  have hidle (hmem : byteAt pInfo 0 ∈ [0x10, 0x11, 0x12, 0x13, 0x14, 0x4A]) (d : DeviceClass)
      (l : UInt32) : c.assign pInfo d l = c := if_neg fun hs ↦ h ⟨hmem, hs⟩
  unfold dataCap
  split
  all_goals first | exact ⟨rfl, rfl⟩ | rename_i htype
  all_goals rw [hidle (by rw [htype]; decide)]; exact ⟨rfl, rfl⟩

theorem Describes.congr {c c' : DataCap} {last : Option UInt8}
    (hclass : c'.deviceClass = c.deviceClass) (hlist : c'.dataCapList = c.dataCapList)
    (h : Describes c last) : Describes c' last := by
  unfold Describes at h ⊢
  rw [hclass, hlist]
  exact h

theorem Describes.step {c : DataCap} {last : Option UInt8} (h : Describes c last) (t : Tlv) :
    Describes (dataCap t.encode c) (lastStep last t) := by
  unfold lastStep
  by_cases hservice : InService t.encode
  swap
  · obtain ⟨hclass, hlist⟩ := dataCap_of_not_inService hservice c
    rw [if_neg hservice]
    exact h.congr hclass hlist
  rw [if_pos hservice]
  obtain ⟨hmem, hstatus⟩ := hservice
  have hassign (d : DeviceClass) (l : UInt32) :
      c.assign t.encode d l = { c with deviceClass := d, dataCapList := l } := if_pos hstatus
  have hgsm : (wwanDataClassGprs ||| wwanDataClassEdge) &&&
      (wwanDataClassLte ||| wwanDataClass5gNsa ||| wwanDataClass5gSa) = 0 := by decide
  have humts : wwanDataClassUmts &&&
      (wwanDataClassLte ||| wwanDataClass5gNsa ||| wwanDataClass5gSa) = 0 := by decide
  have hlast {c' : DataCap} {type : UInt8} (htype : byteAt t.encode 0 = type)
      (hc : Describes c' (some type)) : Describes c' (some t.type) := by
    cases htype
    exact hc
  unfold dataCap
  split
  case h_1 htype => exact hlast htype (by rw [hassign]; exact .inl rfl)
  case h_2 htype => exact hlast htype (by rw [hassign]; exact .inl rfl)
  case h_3 htype => exact hlast htype (by rw [hassign]; exact .inr ⟨rfl, hgsm⟩)
  case h_4 htype => exact hlast htype (by rw [hassign]; exact .inr ⟨rfl, humts⟩)
  case h_5 htype => exact hlast htype (by rw [hassign]; exact ⟨rfl, rfl⟩)
  case h_6 htype =>
    refine hlast htype ?_
    rw [hassign]
    refine ⟨rfl, ?_⟩
    dsimp only
    rw [and_or_self]
    decide
  case h_7 htype =>
    rw [htype] at hmem
    exact absurd hmem (by decide)
  case h_8 htype =>
    rw [htype] at hmem
    exact absurd hmem (by decide)
  case h_9 => simp_all

theorem and_eq_zero_of_mask {x m y : UInt32} (h : x &&& m = 0) (hy : m &&& y = y) :
    x &&& y = 0 := by
  rw [← hy, ← UInt32.and_assoc, h, UInt32.zero_and]

theorem type5g_of_no_bits {c : DataCap} (hlte : c.dataCapList &&& wwanDataClassLte = 0)
    (hsa : c.dataCapList &&& wwanDataClass5gSa = 0)
    (hnsa : c.dataCapList &&& wwanDataClass5gNsa = 0) : c.type5g = wwanDataClassNone := by
  have hlist : c.withNsa = c.dataCapList := if_neg fun h ↦ h.1 hlte
  rw [DataCap.type5g, hlist, if_neg (not_not.mpr hsa), if_neg (not_not.mpr hnsa), ite_self]

theorem type5g_of_sa {c : DataCap} (hclass : c.deviceClass = .gsm)
    (hsa : c.dataCapList &&& wwanDataClass5gSa ≠ 0) : c.type5g = wwanDataClass5gSa := by
  have hlist : c.withNsa &&& wwanDataClass5gSa ≠ 0 := by
    unfold DataCap.withNsa
    split
    · rwa [and_or_of_and_eq_zero (by decide)]
    · exact hsa
  rw [DataCap.type5g, hclass, if_neg (by decide), if_pos hlist]

theorem type5g_of_lte {c : DataCap} (hclass : c.deviceClass = .gsm)
    (hlte : c.dataCapList = wwanDataClassLte) :
    c.type5g = if c.EnDc then wwanDataClass5gNsa else wwanDataClassNone := by
  by_cases hendc : c.EnDc
  · have hlist : c.withNsa = wwanDataClassLte ||| wwanDataClass5gNsa := by
      rw [DataCap.withNsa, hlte, if_pos ⟨by decide, hendc⟩]
    rw [DataCap.type5g, hclass, hlist, if_pos hendc]
    rfl
  · have hlist : c.withNsa = wwanDataClassLte := by
      rw [DataCap.withNsa, if_neg fun h ↦ hendc h.2, hlte]
    rw [DataCap.type5g, hclass, hlist, if_neg hendc]
    rfl

/-- The type of 5G is that of the technology that comes last. -/
theorem Describes.type5g_eq {c : DataCap} {last : Option UInt8} (h : Describes c last) :
    c.type5g = class5g c.EnDc last := by
  unfold class5g
  split
  · exact type5g_of_sa h.1 h.2
  · exact type5g_of_lte h.1 h.2
  · rename_i hsa hlte
    unfold Describes at h
    split at h
    · rw [type5g_of_no_bits] <;> rw [h.2] <;> decide
    · exact absurd rfl hsa
    · exact absurd rfl hlte
    · rcases h with hclass | ⟨-, hlist⟩
      · exact if_pos hclass
      · exact type5g_of_no_bits (and_eq_zero_of_mask hlist (by decide))
          (and_eq_zero_of_mask hlist (by decide)) (and_eq_zero_of_mask hlist (by decide))

/-! ## Order -/

/-- The TLVs say that dual connectivity is available and not restricted. -/
def EnDcTlvs (ts : List Tlv) : Prop :=
  (∃ t ∈ ts, t.type = 0x4E ∧ srvStatus t.encode ≠ 0) ∧
    ∃ t ∈ ts, t.type = 0x4F ∧ srvStatus t.encode = 0

instance (ts : List Tlv) : Decidable (EnDcTlvs ts) := inferInstanceAs (Decidable (_ ∧ _))

/-- NR5G, or LTE with dual connectivity, is in service. -/
def Is5g (ts : List Tlv) (t : Tlv) : Prop :=
  InService t.encode ∧ (t.type = 0x4A ∨ t.type = 0x14 ∧ EnDcTlvs ts)

instance (ts : List Tlv) (t : Tlv) : Decidable (Is5g ts t) := inferInstanceAs (Decidable (_ ∧ _))

/-- What is in service with 5G is 5G. -/
def Only5g (ts : List Tlv) : Prop :=
  ∀ t ∈ ts, Is5g ts t → ∀ u ∈ ts, InService u.encode → u.type = t.type

instance (ts : List Tlv) : Decidable (Only5g ts) := inferInstanceAs (Decidable (∀ _ ∈ _, _ → _))

/-- What is collected from a list of TLVs. -/
def collected (ts : List Tlv) : DataCap := (ts.foldl sysInfoStep (⟨0, false, 0, false⟩, .none)).2

theorem collected_concat (ts : List Tlv) (t : Tlv) :
    collected (ts ++ [t]) = dataCap t.encode (collected ts) := by
  rw [collected, List.foldl_append]
  rfl

theorem describes_collected (ts : List Tlv) :
    Describes (collected ts) (ts.foldl lastStep none) := by
  induction ts using List.reverseRecOn with
  | nil => exact ⟨rfl, rfl⟩
  | append_singleton ts t ih =>
    rw [collected_concat, List.foldl_append]
    exact ih.step t

/-- A field that one type of TLVs sets holds the status of the one of that type. -/
theorem any_field_collected {field : DataCap → Option UInt8} {type : UInt8} {q : UInt8 → Bool}
    (hnone : field .none = none)
    (hstep : ∀ pInfo c, field (dataCap pInfo c) =
      if byteAt pInfo 0 = type then some (srvStatus pInfo) else field c)
    {ts : List Tlv} (hnodup : (ts.map Tlv.type).Nodup) :
    (field (collected ts)).any q = true ↔
      ∃ t ∈ ts, t.type = type ∧ q (srvStatus t.encode) = true := by
  induction ts using List.reverseRecOn with
  | nil =>
    have hnil : collected [] = .none := rfl
    rw [hnil, hnone]
    simp
  | append_singleton ts t ih =>
    have htype : byteAt t.encode 0 = t.type := rfl
    rw [List.map_append, List.nodup_append] at hnodup
    obtain ⟨hts, -, hdisjoint⟩ := hnodup
    rw [collected_concat, hstep, htype]
    simp only [List.mem_append, List.mem_singleton]
    by_cases heq : t.type = type
    · rw [if_pos heq, Option.any_some]
      constructor
      · exact fun h ↦ ⟨t, .inr rfl, heq, h⟩
      · rintro ⟨u, hu | rfl, hutype, hq⟩
        · exact absurd (hutype.trans heq.symm)
            (hdisjoint _ (List.mem_map_of_mem hu) _ List.mem_cons_self)
        · exact hq
    · rw [if_neg heq, ih hts]
      constructor
      · exact fun ⟨u, hu, h⟩ ↦ ⟨u, .inl hu, h⟩
      · rintro ⟨u, hu | rfl, hutype, hq⟩
        · exact ⟨u, hu, hutype, hq⟩
        · exact absurd hutype heq

theorem endcAvailable_dataCap (pInfo : List UInt8) (c : DataCap) :
    (dataCap pInfo c).endcAvailable =
      if byteAt pInfo 0 = 0x4E then some (srvStatus pInfo) else c.endcAvailable := by
  unfold dataCap DataCap.assign
  generalize byteAt pInfo 0 = type
  split <;> first | rfl | (split <;> rfl) | simp_all

theorem restrictDcnr_dataCap (pInfo : List UInt8) (c : DataCap) :
    (dataCap pInfo c).restrictDcnr =
      if byteAt pInfo 0 = 0x4F then some (srvStatus pInfo) else c.restrictDcnr := by
  unfold dataCap DataCap.assign
  generalize byteAt pInfo 0 = type
  split <;> first | rfl | (split <;> rfl) | simp_all

theorem enDc_collected {ts : List Tlv} (hnodup : (ts.map Tlv.type).Nodup) :
    (collected ts).EnDc ↔ EnDcTlvs ts := by
  refine and_congr ?_ ?_
  · rw [any_field_collected rfl endcAvailable_dataCap hnodup]
    simp only [decide_eq_true_eq]
  · rw [any_field_collected rfl restrictDcnr_dataCap hnodup]
    simp only [decide_eq_true_eq]

/-- The technology that comes last is one in service, if there is one. -/
theorem foldl_lastStep_cases (ts : List Tlv) :
    (∃ t ∈ ts, InService t.encode ∧ ts.foldl lastStep none = some t.type) ∨
      ((∀ t ∈ ts, ¬ InService t.encode) ∧ ts.foldl lastStep none = none) := by
  induction ts using List.reverseRecOn with
  | nil => exact .inr ⟨List.forall_mem_nil _, rfl⟩
  | append_singleton ts t ih =>
    have hfold : (ts ++ [t]).foldl lastStep none = lastStep (ts.foldl lastStep none) t := by
      rw [List.foldl_append]
      rfl
    rw [hfold, lastStep]
    by_cases hservice : InService t.encode
    · rw [if_pos hservice]
      exact .inl ⟨t, List.mem_append_right _ List.mem_cons_self, hservice, rfl⟩
    · rw [if_neg hservice]
      rcases ih with ⟨u, hu, h⟩ | ⟨hnone, h⟩
      · exact .inl ⟨u, List.mem_append_left _ hu, h⟩
      · refine .inr ⟨fun u hu ↦ ?_, h⟩
        rcases List.mem_append.mp hu with hu | hu
        · exact hnone u hu
        · rw [List.mem_singleton.mp hu]
          exact hservice

/-- The type of 5G of a list of TLVs. -/
theorem type5g_collected {ts : List Tlv} (hnodup : (ts.map Tlv.type).Nodup) :
    (collected ts).type5g = class5g (EnDcTlvs ts) (ts.foldl lastStep none) := by
  rw [(describes_collected ts).type5g_eq]
  simp only [class5g, enDc_collected hnodup]

/-- A technology that can be the last one decides on the type of 5G. -/
theorem exists_perm_last {ts : List Tlv} {t : Tlv} (ht : t ∈ ts) (hservice : InService t.encode) :
    ∃ us : List Tlv, us.Perm ts ∧ us.foldl lastStep none = some t.type := by
  refine ⟨ts.erase t ++ [t], ?_, ?_⟩
  · exact List.perm_append_comm.trans (List.perm_cons_erase ht).symm
  · rw [List.foldl_append]
    exact if_pos hservice

theorem enDcTlvs_perm {ts us : List Tlv} (h : us.Perm ts) : EnDcTlvs us ↔ EnDcTlvs ts := by
  simp only [EnDcTlvs, h.mem_iff]

theorem class5g_some (enDc : Prop) [Decidable enDc] (type : UInt8) :
    class5g enDc (some type) =
      if type = 0x4A then wwanDataClass5gSa
      else if type = 0x14 ∧ enDc then wwanDataClass5gNsa else wwanDataClassNone := by
  unfold class5g
  split
  · rename_i heq
    rw [if_pos (Option.some.inj heq)]
  · rename_i heq
    have htype := Option.some.inj heq
    have hne : (0x14 : UInt8) ≠ 0x4A := by decide
    rw [htype, if_neg hne]
    simp only [true_and]
  · rename_i hsa hlte
    rw [if_neg fun h ↦ hsa (congrArg some h), if_neg fun h ↦ hlte (congrArg some h.1)]

theorem class5g_of_not_is5g {ts : List Tlv} {t : Tlv} (hservice : InService t.encode)
    (h : ¬ Is5g ts t) : class5g (EnDcTlvs ts) (some t.type) = wwanDataClassNone := by
  obtain ⟨hsa, hlte⟩ := not_or.mp fun htype ↦ h ⟨hservice, htype⟩
  rw [class5g_some, if_neg hsa, if_neg hlte]

/-- No other technology has the type of 5G of one that is 5G. -/
theorem eq_of_class5g_eq {ts : List Tlv} {t : Tlv} {type : UInt8} (h : Is5g ts t)
    (hclass : class5g (EnDcTlvs ts) (some t.type) = class5g (EnDcTlvs ts) (some type)) :
    type = t.type := by
  have hsa : wwanDataClass5gSa ≠ wwanDataClass5gNsa := by decide
  have hnone : wwanDataClass5gSa ≠ wwanDataClassNone := by decide
  have hnsa : wwanDataClass5gNsa ≠ wwanDataClassNone := by decide
  rw [class5g_some, class5g_some] at hclass
  rcases h.2 with ht | ⟨ht, hendc⟩
  · rw [ht, if_pos rfl] at hclass
    split at hclass
    · rw [ht]
      assumption
    · split at hclass
      · exact absurd hclass hsa
      · exact absurd hclass hnone
  · rw [ht, if_neg (by decide), if_pos ⟨rfl, hendc⟩] at hclass
    split at hclass
    · exact absurd hclass.symm hsa
    · split at hclass
      · rename_i htype
        rw [ht, htype.1]
      · exact absurd hclass hnsa

/-- In every order of the TLVs the type of 5G is the same if and only if what is in service with 5G
is 5G. -/
theorem type5g_perm_iff {ts : List Tlv} (hnodup : (ts.map Tlv.type).Nodup) :
    (∀ us : List Tlv, us.Perm ts → (collected us).type5g = (collected ts).type5g) ↔ Only5g ts := by
  have htype {us : List Tlv} (h : us.Perm ts) :
      (collected us).type5g = class5g (EnDcTlvs ts) (us.foldl lastStep none) := by
    rw [type5g_collected ((h.map Tlv.type).nodup_iff.mpr hnodup)]
    simp only [class5g, enDcTlvs_perm h]
  constructor
  · intro h t ht h5g u hu hservice
    obtain ⟨us, hus, htlast⟩ := exists_perm_last ht h5g.1
    obtain ⟨vs, hvs, hulast⟩ := exists_perm_last hu hservice
    have hsame := (h us hus).trans (h vs hvs).symm
    rw [htype hus, htype hvs, htlast, hulast] at hsame
    exact eq_of_class5g_eq h5g hsame
  · intro h us hus
    rw [htype hus, htype (.refl ts)]
    rcases foldl_lastStep_cases us with ⟨t, ht, htservice, htlast⟩ | ⟨hnone, hlast⟩
    · have htmem := hus.mem_iff.mp ht
      rcases foldl_lastStep_cases ts with ⟨u, hu, huservice, hulast⟩ | ⟨hnone, -⟩
      · rw [htlast, hulast]
        by_cases ht5g : Is5g ts t
        · rw [h t htmem ht5g u hu huservice]
        by_cases hu5g : Is5g ts u
        · rw [h u hu hu5g t htmem htservice]
        rw [class5g_of_not_is5g htservice ht5g, class5g_of_not_is5g huservice hu5g]
      · exact absurd htservice (hnone t htmem)
    · rcases foldl_lastStep_cases ts with ⟨u, hu, huservice, -⟩ | ⟨-, hlast'⟩
      · exact absurd huservice (hnone u (hus.mem_iff.mpr hu))
      · rw [hlast, hlast']

/-- `*pPSAttachedState`, `s_is_cdma` and `s_5g_type`. -/
def Registered.state (r : Registered) : UInt8 × Bool × UInt32 :=
  (r.pSAttachedState, r.s_is_cdma, r.s_5g_type)

/-- `requestRegistrationState2` leaves the same for each order of the TLVs if and only if the
response is no success, or what is in service with 5G is 5G. -/
theorem registration_perm_iff {head outcome : List UInt8} (behind : List UInt8)
    (hhead : head.length = 11) (houtcome : outcome.length = 4) {ts : List Tlv}
    (hsize : 7 + Tlv.sizeAll ts < 2 ^ 16) (hwhole : ∀ t ∈ ts, Whole t)
    (hnodup : (ts.map Tlv.type).Nodup) (g : Globals) (s_5g_type : UInt32) :
    (∀ us : List Tlv, us.Perm ts →
      (registrationState2 (.response (sysInfoResponse head outcome us behind)) g s_5g_type).state =
        (registrationState2 (.response (sysInfoResponse head outcome ts behind)) g s_5g_type).state) ↔
      ((le16 (byteAt outcome 0) (byteAt outcome 1) = 0 ∧
        le16 (byteAt outcome 2) (byteAt outcome 3) = 0) → Only5g ts) := by
  have hresponse {us : List Tlv} (hus : us.Perm ts) :
      registrationState2 (.response (sysInfoResponse head outcome us behind)) g s_5g_type = _ :=
    registrationState2_response hhead houtcome
      (by rw [Tlv.sizeAll, (hus.map Tlv.size).sum_nat]; exact hsize)
      (fun t ht ↦ hwhole t (hus.mem_iff.mp ht)) g s_5g_type
  by_cases hok : le16 (byteAt outcome 0) (byteAt outcome 1) = 0 ∧
      le16 (byteAt outcome 2) (byteAt outcome 3) = 0
  swap
  · have hfail := not_and_or.mp hok
    refine iff_of_true (fun us hus ↦ ?_) fun h ↦ absurd h hok
    rw [hresponse hus, hresponse (.refl ts), if_pos hfail, if_pos hfail]
  · have hnot : ¬ (le16 (byteAt outcome 0) (byteAt outcome 1) ≠ 0 ∨
        le16 (byteAt outcome 2) (byteAt outcome 3) ≠ 0) := by
      rintro (h | h)
      · exact h hok.1
      · exact h hok.2
    rw [forall_prop_of_true hok, ← type5g_perm_iff hnodup]
    refine forall₂_congr fun us hus ↦ ?_
    obtain ⟨hattached, -, hcdma⟩ : _ ∧ _ ∧ _ := by
      simpa only [Registration.marks, Prod.mk.injEq] using
        marks_foldl_perm hus (⟨0, false, 0, false⟩, .none)
    rw [hresponse hus, hresponse (.refl ts), if_neg hnot, if_neg hnot]
    dsimp only [Registered.state]
    rw [hattached, hcdma, Prod.mk.injEq, Prod.mk.injEq]
    exact ⟨fun h ↦ h.2.2, fun h ↦ ⟨rfl, rfl, h⟩⟩

/-- The globals at the beginning. -/
def initGlobals : Globals := ⟨true, false, 0, 0, 0⟩

/-- GSM in service and a PS domain, CDMA without service. -/
def gsmTlvs : List Tlv := [⟨0x10, [0, 0, 0]⟩, ⟨0x12, [2, 2, 1]⟩, ⟨0x17, [1, 3, 0, 0]⟩]

/-- A successful response with these TLVs. -/
def successfulSysInfo (ts : List Tlv) : Reply :=
  .response (sysInfoResponse (List.replicate 11 0) [0, 0, 0, 0] ts [])

theorem registration_perm_gsm :
    (registrationState2 (successfulSysInfo gsmTlvs.reverse) initGlobals 0).state =
      (registrationState2 (successfulSysInfo gsmTlvs) initGlobals 0).state :=
  (registration_perm_iff [] rfl rfl (by decide) (by decide) (by decide) _ 0).mpr
    (fun _ ↦ by decide) gsmTlvs.reverse gsmTlvs.reverse_perm

/-- LTE in service. -/
def lteTlv : Tlv := ⟨0x14, [2, 2, 1]⟩

/-- NR5G in service. -/
def nr5gTlv : Tlv := ⟨0x4A, [2, 2, 1]⟩

/-- NR5G is forgotten when LTE comes after it. -/
theorem registration_not_perm :
    (registrationState2 (successfulSysInfo [lteTlv, nr5gTlv]) initGlobals 0).state =
        (0, false, wwanDataClass5gSa) ∧
      (registrationState2 (successfulSysInfo [nr5gTlv, lteTlv]) initGlobals 0).state =
        (0, false, wwanDataClassNone) := by
  decide +kernel

end Wwan.QuectelCm
