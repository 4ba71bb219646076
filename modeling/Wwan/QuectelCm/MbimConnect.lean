import Wwan.Lib.Memory
import Wwan.QuectelCm.IpConfig
import Wwan.QuectelCm.MbimRequests

/-!
# The strings in MBIM requests

`mbim_populate_connect_data` first adds up what the access point, the user name and the password
need, each rounded up to four bytes, and then writes them one behind the other. The place of the
password is the length of the user name, not the end of it, so that the three only fit if one of
them is missing. `mbim_proxy_configure` has its request composed without a buffer, and the request
says that it carries none.
-/

namespace Wwan.QuectelCm

open Bytes Memory MbimProxy

/-! ## Strings of UTF-16 -/

/-- What `wchar2char` stores before the terminating zero. -/
def wchar2char (src : List UInt8) (srcSize dstLen : ℕ) : List UInt8 :=
  (List.range (min (dstLen - 1) (srcSize / 2))).map fun i ↦ src.getD (i * 2) 0

/-- The bytes that `char2wchar` stores; it returns their number. -/
def char2wchar (src : List UInt8) (dstLen : ℕ) : List UInt8 :=
  (src.take (dstLen / 2)).flatMap fun b ↦ [b, 0]

theorem length_wchar2char (src : List UInt8) (srcSize dstLen : ℕ) :
    (wchar2char src srcSize dstLen).length = min (dstLen - 1) (srcSize / 2) := by
  rw [wchar2char, List.length_map, List.length_range]

theorem getD_flatMap_pair (s rest : List UInt8) {i : ℕ} (hi : i < s.length) :
    ((s.flatMap fun b ↦ [b, 0]) ++ rest).getD (i * 2) 0 = s[i] := by
  induction s generalizing i with
  | nil => exact absurd hi (Nat.not_lt_zero i)
  | cons b s ih =>
    cases i with
    | zero => rfl
    | succ i =>
      have hi' : i < s.length := Nat.lt_of_succ_lt_succ hi
      rw [List.getElem_cons_succ, ← ih hi', Nat.succ_mul]
      rfl

/-- A string whose bytes are spread over two each. -/
def wide (s : List UInt8) : List UInt8 := s.flatMap fun b ↦ [b, 0]

@[simp] theorem length_wide (s : List UInt8) : (wide s).length = 2 * s.length := by
  rw [wide, List.length_flatMap]
  simp [Nat.mul_comm]

theorem char2wchar_eq {s : List UInt8} {dstLen : ℕ} (h : 2 * s.length ≤ dstLen) :
    char2wchar s dstLen = wide s := by
  rw [char2wchar, List.take_of_length_le, wide]
  omega

/-- The bytes of a string are read back. -/
theorem wchar2char_wide (s rest : List UInt8) :
    wchar2char (wide s ++ rest) (2 * s.length) (s.length + 1) = s := by
  apply List.ext_getElem
  · rw [length_wchar2char]
    omega
  · intro i hi hi'
    rw [← getD_flatMap_pair s rest hi']
    simp [wchar2char, wide]

/-! ## The connect request -/

/-- `_align_32` for an `int`; the remainder of a negative number is not positive. -/
def align32 (len : ℤ) : ℤ := int32 (len + if len.tmod 4 ≠ 0 then 4 - len.tmod 4 else 0)

/-- What a string adds to `buflen`. -/
def addString (buflen : ℤ) (s : List UInt8) : ℤ :=
  align32 (if s ≠ [] then int32 (buflen + 2 * s.length) else buflen)

/-- The offset and the size of a string in a request. -/
structure StringField where
  offset : ℕ
  size : ℕ
  deriving DecidableEq

/-- `DataBuffer` and the local variable. -/
structure Populate where
  dataBuffer : ℕ → UInt8
  offset : ℤ

/-- A string is put into `DataBuffer`. `buflen - offset` is not negative if `buflen` is not. For
the password `offset` is not rounded, and not used any more. -/
def Populate.put (buflen : ℤ) (s : List UInt8) (p : Populate) : Populate × StringField :=
  if s ≠ [] then
    let wide := char2wchar s (buflen - p.offset).toNat
    ({ dataBuffer := poke p.dataBuffer p.offset.toNat wide
       offset := align32 (int32 wide.length) },
      { offset := u32 (p.offset + 60), size := u32 (2 * s.length) })
  else (p, ⟨0, 0⟩)

/-- What `mbim_populate_connect_data` makes of `MBIM_SET_CONNECT_T`. -/
structure SetConnect where
  buflen : ℤ
  accessString : StringField
  userName : StringField
  password : StringField
  dataBuffer : ℕ → UInt8

/-- `mbim_populate_connect_data`, where an empty string is like none. -/
def mbimPopulateConnectData (mbim_apn mbim_user mbim_passwd : Option (List UInt8)) : SetConnect :=
  let apn := mbim_apn.getD []
  let user := mbim_user.getD []
  let passwd := mbim_passwd.getD []
  let buflen := addString (addString (addString 0 apn) user) passwd
  let (p, accessString) := Populate.put buflen apn ⟨fun _ ↦ 0, 0⟩
  let (p, userName) := p.put buflen user
  let (p, password) := p.put buflen passwd
  ⟨buflen, accessString, userName, password, p.dataBuffer⟩

/-- `UUID_MBIMContextTypeInternet` -/
def uuidContextTypeInternet : List UInt8 :=
  [0x7e, 0x5e, 0x2a, 0x7e, 0x4e, 0x6f, 0x72, 0x72, 0x73, 0x6b, 0x65, 0x6e, 0x7e, 0x5e, 0x2a, 0x7e]

/-- The other fields that `mbim_set_connect` fills in. -/
structure ConnectArgs where
  onoff : ℤ
  sessionID : UInt32
  mbim_auth : UInt32
  mbim_iptype : UInt32

/-- The 32-bit fields of `MBIM_SET_CONNECT_T`. -/
def SetConnect.fields (c : SetConnect) (a : ConnectArgs) : List ℕ :=
  [a.sessionID.toNat, if a.onoff = 0 then 0 else 1, c.accessString.offset, c.accessString.size,
    c.userName.offset, c.userName.size, c.password.offset, c.password.size, 0, a.mbim_auth.toNat,
    a.mbim_iptype.toNat]

/-- The structure as `mbim_set_connect` hands it on, of `sizeof(MBIM_SET_CONNECT_T)` (60) and
`buflen` bytes. -/
def SetConnect.info (c : SetConnect) (a : ConnectArgs) : List UInt8 :=
  (c.fields a).flatMap toLe32 ++ (uuidContextTypeInternet ++ peek c.dataBuffer 0 c.buflen.toNat)

/-- The message of `mbim_set_connect`, which returns `ENOMEM` for a negative `buflen`. -/
def setConnectMessage (tid : UInt32) (a : ConnectArgs)
    (mbim_apn mbim_user mbim_passwd : Option (List UInt8)) : Option MbimMessage :=
  let c := mbimPopulateConnectData mbim_apn mbim_user mbim_passwd
  if c.buflen < 0 then none else some ((set mbimCidConnect (c.info a)).compose tid)

/-! ## The configuration of the proxy -/

/-- A 32-bit number in the byte order of the host. -/
def ByteOrder.bytes32 (n : ℕ) : ByteOrder → List UInt8
  | .littleEndian => toLe32 n
  | .bigEndian => (toLe32 n).reverse

/-- `MBIM_LIBQMI_PROXY_CONFIG_T` of 12 bytes, and the path. -/
def proxyConfig (order : ByteOrder) (dev : List UInt8) : List UInt8 :=
  let path := char2wchar dev (dev.length * 2)
  order.bytes32 12 ++ order.bytes32 path.length ++ order.bytes32 15 ++ path

/-- The message of `mbim_proxy_configure`. -/
def proxyConfigureMessage (tid : UInt32) (order : ByteOrder) (dev : List UInt8) : MbimMessage :=
  (Command.nullMsg uuidLibmbimProxy mbimCidProxyControlConfiguration mbimCidCmdTypeSet
    (proxyConfig order dev)).compose tid

/-! ## What is asked of them -/

/-- The length of the message is that of its parts. -/
def RightLength (msg : MbimMessage) : Prop :=
  msg.messageLength.toNat = 48 + informationBufferLength msg

/-- The string whose offset is at `field`, and its size behind that. All of it is read. -/
structure Carries (msg : MbimMessage) (field : ℕ) (s : List UInt8) : Prop where
  inside : informationField msg field + informationField msg (field + 4) ≤
    informationBufferLength msg
  chars : wchar2char ((msg.payload.drop 36).drop (informationField msg field))
    (informationField msg (field + 4)) (informationField msg (field + 4) / 2 + 1) = s

/-- Two strings do not overlap. -/
def Apart (msg : MbimMessage) (field field' : ℕ) : Prop :=
  informationField msg field + informationField msg (field + 4) ≤ informationField msg field' ∨
    informationField msg field' + informationField msg (field' + 4) ≤ informationField msg field

/-- The strings that are not empty, with the places of their offsets. -/
def connectStrings (mbim_apn mbim_user mbim_passwd : Option (List UInt8)) :
    List (ℕ × List UInt8) :=
  [(8, mbim_apn.getD []), (16, mbim_user.getD []), (24, mbim_passwd.getD [])].filter (·.2 ≠ [])

/-- What is asked of a request with strings. -/
structure StringsLaw (strings : List (ℕ × List UInt8)) (msg : MbimMessage) : Prop where
  length : RightLength msg
  carries : ∀ s ∈ strings, Carries msg s.1 s.2
  apart : strings.Pairwise fun s t ↦ Apart msg s.1 t.1

/-- The path is the only string of the configuration. -/
def pathStrings (dev : List UInt8) : List (ℕ × List UInt8) := [(0, dev)].filter (·.2 ≠ [])

/-! ## Sizes -/

/-- What a string needs, in whole words. -/
def padded (s : List UInt8) : ℕ := (2 * s.length + 3) / 4 * 4

theorem two_mul_length_le_padded (s : List UInt8) : 2 * s.length ≤ padded s := by
  unfold padded
  omega

theorem four_dvd_padded (s : List UInt8) : 4 ∣ padded s := Dvd.intro_left _ rfl

/-- The remainder has the sign of the number. -/
theorem tmod_four (x : ℤ) : 0 ≤ x ∧ x.tmod 4 = x % 4 ∨ x < 0 ∧ x.tmod 4 = -(-x % 4) := by
  rcases lt_or_ge x 0 with hneg | hpos
  · refine .inr ⟨hneg, ?_⟩
    rw [← Int.tmod_eq_emod_of_nonneg (by omega), Int.neg_tmod, neg_neg]
  · exact .inl ⟨hpos, Int.tmod_eq_emod_of_nonneg hpos⟩

/-- What is added is what is needed, and four bytes more at times where a negative number is
rounded. -/
theorem addString_spec {buflen : ℤ} (hdvd : 4 ∣ buflen) (s : List UInt8) :
    ∃ k m : ℤ, 0 ≤ k ∧ k ≤ 1 ∧ addString buflen s = buflen + padded s + 4 * k - 2 ^ 32 * m ∧
      4 ∣ addString buflen s ∧ addString buflen s < 2 ^ 31 := by
  obtain ⟨m₁, hm₁⟩ : ∃ m : ℤ, (if s ≠ [] then int32 (buflen + 2 * s.length) else buflen) =
      buflen + 2 * s.length - 2 ^ 32 * m := by
    split
    · obtain ⟨-, -, m, hm⟩ := int32_spec (buflen + 2 * s.length)
      exact ⟨m, by omega⟩
    next hs =>
      have hzero : s.length = 0 := List.length_eq_zero_iff.mpr (not_not.mp hs)
      exact ⟨0, by omega⟩
  rw [addString, align32, hm₁, padded]
  set raw := buflen + 2 * s.length - 2 ^ 32 * m₁ with hraw
  set pad := if raw.tmod 4 ≠ 0 then 4 - raw.tmod 4 else 0 with hpad
  obtain ⟨-, hlt, m₂, hm₂⟩ := int32_spec (raw + pad)
  generalize int32 (raw + pad) = x at hlt hm₂ ⊢
  rcases tmod_four raw with ⟨hsign, hr⟩ | ⟨hsign, hr⟩
  · have hup : pad = (-raw) % 4 := by
      rw [hpad, hr]
      split <;> omega
    exact ⟨0, m₁ + m₂, by decide, by decide, by omega, by omega, hlt⟩
  · rcases Int.emod_two_eq_zero_or_one s.length with heven | hodd
    · have hup : pad = 0 := by
        rw [hpad, hr, if_neg]
        omega
      exact ⟨0, m₁ + m₂, by decide, by decide, by omega, by omega, hlt⟩
    · have hup : pad = 6 := by
        rw [hpad, hr, if_pos]
        · omega
        · omega
      exact ⟨1, m₁ + m₂, by decide, by decide, by omega, by omega, hlt⟩

/-- As long as nothing overflows the rounding is up to whole words. -/
theorem align32_eq {n : ℕ} (h : (n + 3) / 4 * 4 < 2 ^ 31) :
    align32 n = ((n + 3) / 4 * 4 : ℕ) := by
  have htmod : (n : ℤ).tmod 4 = (n : ℤ) % 4 := Int.tmod_eq_emod_of_nonneg (Int.natCast_nonneg n)
  rw [align32, htmod, int32_of_range]
  · split <;> omega
  · split <;> omega
  · split <;> omega

/-- Then what is added is what is needed. -/
theorem addString_eq {n : ℕ} (hdvd : 4 ∣ n) (s : List UInt8) (h : n + padded s < 2 ^ 31) :
    addString n s = (n + padded s : ℕ) := by
  have hle := two_mul_length_le_padded s
  have hraw : (if s ≠ [] then int32 ((n : ℤ) + 2 * s.length) else n) =
      (n + 2 * s.length : ℕ) := by
    split
    · rw [int32_of_range]
      · rfl
      · omega
      · omega
    next hs =>
      have hzero : s.length = 0 := List.length_eq_zero_iff.mpr (not_not.mp hs)
      rw [hzero]
      rfl
  have hsum : (n + 2 * s.length + 3) / 4 * 4 = n + padded s := by
    unfold padded
    omega
  rw [addString, hraw, align32_eq (hsum ▸ h), hsum]

/-! ## Fields of messages -/

section Set

variable (tid cid : UInt32) (info : List UInt8)

theorem payload_set : ((set cid info).compose tid).payload.drop 36 = info := rfl

theorem informationField_set (offset : ℕ) :
    informationField ((set cid info).compose tid) offset = field32 info offset := by
  rw [informationField, ← field32_drop, payload_set]

variable (hlt : info.length < 2 ^ 32 - 48)

include hlt

theorem informationBufferLength_set :
    informationBufferLength ((set cid info).compose tid) = info.length := by
  have hdrop : ((set cid info).compose tid).payload.drop 32 =
      toLe32 (UInt32.ofNat info.length).toNat ++ info := rfl
  have hfield : informationBufferLength ((set cid info).compose tid) =
      field32 (((set cid info).compose tid).payload.drop 32) 0 := (field32_drop _ 32 0).symm
  rw [hfield, hdrop, field32_toLe32 (UInt32.toNat_lt _), UInt32.toNat_ofNat_of_lt']
  exact Nat.lt_of_lt_of_le hlt (Nat.sub_le _ _)

theorem rightLength_set : RightLength ((set cid info).compose tid) := by
  have hlen : (UInt32.ofNat info.length).toNat = info.length :=
    UInt32.toNat_ofNat_of_lt' (Nat.lt_of_lt_of_le hlt (Nat.sub_le _ _))
  rw [RightLength, informationBufferLength_set tid cid info hlt]
  change (48 + UInt32.ofNat info.length).toNat = 48 + info.length
  rw [UInt32.toNat_add, hlen]
  apply Nat.mod_eq_of_lt
  change 48 + info.length < 2 ^ 32
  omega

end Set

/-! ## The fields of the connect request -/

/-- A string with a place that is not empty. -/
def stringField (s : List UInt8) (offset : ℕ) : StringField :=
  if s ≠ [] then ⟨offset + 60, 2 * s.length⟩ else ⟨0, 0⟩

/-- Where there is room the string is written, and the next place is behind its length alone. -/
theorem put_eq {n o : ℕ} {s : List UInt8} {data : ℕ → UInt8} (hroom : o + padded s ≤ n)
    (hn : n < 2 ^ 31) :
    Populate.put n s ⟨data, o⟩ =
      (⟨poke data o (wide s), (if s ≠ [] then padded s else o : ℕ)⟩, stringField s o) := by
  have hle := two_mul_length_le_padded s
  rw [Populate.put, stringField]
  by_cases hs : s ≠ []
  · have hsub : ((n : ℤ) - o).toNat = n - o := by omega
    have hpad : align32 (int32 ((wide s).length : ℤ)) = padded s := by
      rw [length_wide, int32_of_range (by omega) (by omega)]
      exact align32_eq (Nat.lt_of_le_of_lt (Nat.le_add_left _ _) (Nat.lt_of_le_of_lt hroom hn))
    have hoffset : u32 ((o : ℤ) + 60) = o + 60 := u32_natCast (n := o + 60) (by omega)
    have hsize : u32 (2 * (s.length : ℤ)) = 2 * s.length :=
      u32_natCast (n := 2 * s.length) (by omega)
    rw [if_pos hs, if_pos hs, if_pos hs]
    dsimp only
    rw [hsub, char2wchar_eq (by omega), hpad, hoffset, hsize, Int.toNat_natCast]
  · rw [if_neg hs, if_neg hs, if_neg hs, not_not.mp hs]
    change (_ : Populate × StringField) = (⟨poke data o [], _⟩, _)
    rw [poke_nil]

/-- The two fields of a string that starts at `o` in the buffer. -/
structure Placed (msg : MbimMessage) (field : ℕ) (s : List UInt8) (o : ℕ) : Prop where
  offset : informationField msg field = o + 60
  size : informationField msg (field + 4) = 2 * s.length

theorem Placed.apart_iff {msg : MbimMessage} {i j o p : ℕ} {s t : List UInt8}
    (hs : Placed msg i s o) (ht : Placed msg j t p) :
    Apart msg i j ↔ o + 2 * s.length ≤ p ∨ p + 2 * t.length ≤ o := by
  rw [Apart, hs.offset, hs.size, ht.offset, ht.size]
  omega

section Connect

variable {apn user passwd : Option (List UInt8)}

/-- What the three strings need. -/
def connectSize (apn user passwd : Option (List UInt8)) : ℕ :=
  padded (apn.getD []) + padded (user.getD []) + padded (passwd.getD [])

/-- The place of the password. -/
def passwordPlace (apn user : Option (List UInt8)) : ℕ :=
  if user.getD [] ≠ [] then padded (user.getD []) else padded (apn.getD [])

theorem padded_eq_zero_iff {s : List UInt8} : padded s = 0 ↔ s = [] := by
  rw [← List.length_eq_zero_iff]
  unfold padded
  omega

theorem ite_padded (s : List UInt8) : (if s ≠ [] then padded s else 0) = padded s := by
  split
  · rfl
  next hs => exact (padded_eq_zero_iff.mpr (not_not.mp hs)).symm

theorem passwordPlace_le :
    passwordPlace apn user ≤ padded (apn.getD []) + padded (user.getD []) := by
  rw [passwordPlace]
  split
  · exact Nat.le_add_left _ _
  · exact Nat.le_add_right _ _

/-- The request, if nothing overflows. -/
theorem mbimPopulateConnectData_eq (h : connectSize apn user passwd < 2 ^ 31) :
    mbimPopulateConnectData apn user passwd =
      { buflen := connectSize apn user passwd
        accessString := stringField (apn.getD []) 0
        userName := stringField (user.getD []) (padded (apn.getD []))
        password := stringField (passwd.getD []) (passwordPlace apn user)
        dataBuffer := poke (poke (poke (fun _ ↦ 0) 0 (wide (apn.getD [])))
          (padded (apn.getD [])) (wide (user.getD [])))
          (passwordPlace apn user) (wide (passwd.getD [])) } := by
  have hplace : passwordPlace apn user ≤ _ := passwordPlace_le
  rw [connectSize] at h ⊢
  have hapn : addString (0 : ℕ) (apn.getD []) = (0 + padded (apn.getD []) : ℕ) :=
    addString_eq (Nat.dvd_zero 4) _ (by omega)
  have huser := addString_eq (four_dvd_padded (apn.getD [])) (user.getD []) (by omega)
  have hpasswd := addString_eq (Nat.dvd_add (four_dvd_padded (apn.getD []))
    (four_dvd_padded (user.getD []))) (passwd.getD []) h
  rw [Nat.zero_add] at hapn
  rw [mbimPopulateConnectData]
  dsimp only
  rw [show (0 : ℤ) = (0 : ℕ) from rfl, hapn, huser, hpasswd, put_eq (by omega) h]
  dsimp only
  rw [ite_padded, put_eq (by omega) h]
  dsimp only
  rw [← passwordPlace, put_eq (by omega) h]

/-- The requirements on the strings one by one. -/
theorem stringsLaw_connect_iff {msg : MbimMessage} :
    StringsLaw (connectStrings apn user passwd) msg ↔
      RightLength msg ∧
        ((apn.getD [] ≠ [] → Carries msg 8 (apn.getD [])) ∧
          (user.getD [] ≠ [] → Carries msg 16 (user.getD [])) ∧
          (passwd.getD [] ≠ [] → Carries msg 24 (passwd.getD []))) ∧
        (apn.getD [] ≠ [] → user.getD [] ≠ [] → Apart msg 8 16) ∧
        (apn.getD [] ≠ [] → passwd.getD [] ≠ [] → Apart msg 8 24) ∧
        (user.getD [] ≠ [] → passwd.getD [] ≠ [] → Apart msg 16 24) := by
  have hcarries : (∀ s ∈ connectStrings apn user passwd, Carries msg s.1 s.2) ↔
      (apn.getD [] ≠ [] → Carries msg 8 (apn.getD [])) ∧
        (user.getD [] ≠ [] → Carries msg 16 (user.getD [])) ∧
        (passwd.getD [] ≠ [] → Carries msg 24 (passwd.getD [])) := by
    simp only [connectStrings, List.mem_filter, decide_eq_true_eq, and_imp]
    simp
  have hapart : (connectStrings apn user passwd).Pairwise
      (fun s t ↦ Apart msg s.1 t.1) ↔
      (apn.getD [] ≠ [] → user.getD [] ≠ [] → Apart msg 8 16) ∧
        (apn.getD [] ≠ [] → passwd.getD [] ≠ [] → Apart msg 8 24) ∧
        (user.getD [] ≠ [] → passwd.getD [] ≠ [] → Apart msg 16 24) := by
    simp only [connectStrings, List.pairwise_filter, decide_eq_true_eq]
    simp only [List.pairwise_cons, List.mem_cons, forall_eq_or_imp]
    simp
    tauto
  constructor
  · rintro ⟨hlength, hall, hpairs⟩
    exact ⟨hlength, hcarries.mp hall, hapart.mp hpairs⟩
  · rintro ⟨hlength, hall, hpairs⟩
    exact ⟨hlength, hcarries.mpr hall, hapart.mpr hpairs⟩

section Room

variable (h : connectSize apn user passwd < 2 ^ 31) (tid : UInt32) (a : ConnectArgs)

include h

/-- The message, if nothing overflows. -/
theorem setConnectMessage_eq : setConnectMessage tid a apn user passwd =
    some ((set mbimCidConnect
      ((mbimPopulateConnectData apn user passwd).info a)).compose tid) := by
  rw [setConnectMessage, mbimPopulateConnectData_eq h]
  exact if_neg (Int.not_lt.mpr (Int.natCast_nonneg _))

theorem length_info : ((mbimPopulateConnectData apn user passwd).info a).length =
    60 + connectSize apn user passwd := by
  rw [mbimPopulateConnectData_eq h, SetConnect.info, List.length_append, List.length_append,
    length_peek, Int.toNat_natCast, ← Nat.add_assoc]
  rfl

theorem stringField_lt {s : List UInt8} {o : ℕ}
    (hle : o + padded s ≤ connectSize apn user passwd) :
    (stringField s o).offset < 2 ^ 32 ∧ (stringField s o).size < 2 ^ 32 := by
  have hs := two_mul_length_le_padded s
  rw [stringField]
  split
  · constructor
    · change o + 60 < 2 ^ 32
      omega
    · change 2 * s.length < 2 ^ 32
      omega
  · exact ⟨Nat.two_pow_pos 32, Nat.two_pow_pos 32⟩

theorem fields_lt : ∀ value ∈ (mbimPopulateConnectData apn user passwd).fields a,
    value < 2 ^ 32 := by
  have hplace : passwordPlace apn user ≤ _ := passwordPlace_le
  have hA := stringField_lt h (s := apn.getD []) (o := 0) (by unfold connectSize; omega)
  have hU := stringField_lt h (s := user.getD []) (o := padded (apn.getD []))
    (by unfold connectSize; omega)
  have hP := stringField_lt h (s := passwd.getD []) (o := passwordPlace apn user)
    (by unfold connectSize; omega)
  have hact : (if a.onoff = 0 then 0 else 1) < 2 ^ 32 := by split <;> decide
  rw [mbimPopulateConnectData_eq h]
  simp only [SetConnect.fields, List.forall_mem_cons]
  exact ⟨a.sessionID.toNat_lt, hact, hA.1, hA.2, hU.1, hU.2, hP.1, hP.2, by decide,
    a.mbim_auth.toNat_lt, a.mbim_iptype.toNat_lt, List.forall_mem_nil _⟩

/-- A field of the message. -/
theorem informationField_eq {i value : ℕ}
    (hi : ((mbimPopulateConnectData apn user passwd).fields a)[i]? = some value) :
    informationField ((set mbimCidConnect
      ((mbimPopulateConnectData apn user passwd).info a)).compose tid) (4 * i) =
      value := by
  rw [informationField_set, SetConnect.info]
  exact field32_flatMap (fields_lt h a) _ hi

/-- The buffer behind the fields. -/
theorem drop_info {o : ℕ} (ho : o ≤ connectSize apn user passwd) :
    ((mbimPopulateConnectData apn user passwd).info a).drop (o + 60) =
      peek (mbimPopulateConnectData apn user passwd).dataBuffer o
        (connectSize apn user passwd - o) := by
  have hbuflen : (mbimPopulateConnectData apn user passwd).buflen.toNat =
      o + (connectSize apn user passwd - o) := by
    rw [mbimPopulateConnectData_eq h, Int.toNat_natCast]
    omega
  rw [SetConnect.info, ← List.append_assoc, hbuflen, peek_add, ← List.append_assoc, Nat.zero_add]
  apply List.drop_left'
  rw [List.length_append, length_peek, List.length_append, Nat.add_comm]
  rfl

/-- The fields say where a string is that is not empty. -/
theorem placed_of_fields {s : List UInt8} {i o : ℕ} (hs : s ≠ [])
    (hoffset : ((mbimPopulateConnectData apn user passwd).fields a)[i]? =
      some (stringField s o).offset)
    (hsize : ((mbimPopulateConnectData apn user passwd).fields a)[i + 1]? =
      some (stringField s o).size) :
    Placed ((set mbimCidConnect
      ((mbimPopulateConnectData apn user passwd).info a)).compose tid) (4 * i) s
      o := by
  rw [stringField, if_pos hs] at hoffset hsize
  have hsz := informationField_eq h tid a hsize
  rw [Nat.mul_succ] at hsz
  exact ⟨informationField_eq h tid a hoffset, hsz⟩

theorem placed_apn (hapn : apn.getD [] ≠ []) :
    Placed ((set mbimCidConnect
      ((mbimPopulateConnectData apn user passwd).info a)).compose tid) 8
      (apn.getD []) 0 := by
  have hfields := congrArg (SetConnect.fields · a) (mbimPopulateConnectData_eq h)
  exact placed_of_fields h tid a hapn (congrArg (·[2]?) hfields) (congrArg (·[3]?) hfields)

theorem placed_user (huser : user.getD [] ≠ []) :
    Placed ((set mbimCidConnect
      ((mbimPopulateConnectData apn user passwd).info a)).compose tid) 16
      (user.getD []) (padded (apn.getD [])) := by
  have hfields := congrArg (SetConnect.fields · a) (mbimPopulateConnectData_eq h)
  exact placed_of_fields h tid a huser (congrArg (·[4]?) hfields) (congrArg (·[5]?) hfields)

theorem placed_passwd (hpasswd : passwd.getD [] ≠ []) :
    Placed ((set mbimCidConnect
      ((mbimPopulateConnectData apn user passwd).info a)).compose tid) 24
      (passwd.getD []) (passwordPlace apn user) := by
  have hfields := congrArg (SetConnect.fields · a) (mbimPopulateConnectData_eq h)
  exact placed_of_fields h tid a hpasswd (congrArg (·[6]?) hfields) (congrArg (·[7]?) hfields)

/-- A string that is at its place is carried. -/
theorem carries_of_holds {s : List UInt8} {i o : ℕ}
    (hroom : o + padded s ≤ connectSize apn user passwd)
    (hplaced : Placed ((set mbimCidConnect
      ((mbimPopulateConnectData apn user passwd).info a)).compose tid) i s o)
    (hholds : Holds (mbimPopulateConnectData apn user passwd).dataBuffer o (wide s)) :
    Carries ((set mbimCidConnect
      ((mbimPopulateConnectData apn user passwd).info a)).compose tid) i s := by
  have hle := two_mul_length_le_padded s
  have hlen := length_info h a
  refine ⟨?_, ?_⟩
  · rw [hplaced.offset, hplaced.size, informationBufferLength_set _ _ _ (by omega), hlen]
    omega
  · obtain ⟨r, hr⟩ : ∃ r, connectSize apn user passwd - o = (wide s).length + r := by
      refine ⟨connectSize apn user passwd - o - 2 * s.length, ?_⟩
      rw [length_wide]
      omega
    rw [hplaced.offset, hplaced.size, payload_set, drop_info h a (by omega), hr, peek_add, hholds,
      Nat.mul_div_cancel_left _ Nat.two_pos]
    exact wchar2char_wide s _

/-- If one string is missing, the password comes behind the others. -/
theorem holds_strings
    (hone : apn.getD [] = [] ∨ user.getD [] = [] ∨ passwd.getD [] = []) :
    Holds (mbimPopulateConnectData apn user passwd).dataBuffer 0
        (wide (apn.getD [])) ∧
      Holds (mbimPopulateConnectData apn user passwd).dataBuffer
        (padded (apn.getD [])) (wide (user.getD [])) ∧
      Holds (mbimPopulateConnectData apn user passwd).dataBuffer
        (passwordPlace apn user) (wide (passwd.getD [])) := by
  have hA := two_mul_length_le_padded (apn.getD [])
  have hU := two_mul_length_le_padded (user.getD [])
  have hplace : passwd.getD [] = [] ∨ passwordPlace apn user =
      padded (apn.getD []) + padded (user.getD []) := by
    rw [passwordPlace]
    rcases hone with hapn | huser | hpasswd
    · rw [padded_eq_zero_iff.mpr hapn, Nat.zero_add, ite_padded]
      exact .inr rfl
    · rw [if_neg (not_not.mpr huser), padded_eq_zero_iff.mpr huser]
      exact .inr rfl
    · exact .inl hpasswd
  rw [mbimPopulateConnectData_eq h]
  dsimp only
  refine ⟨?_, ?_, holds_poke⟩
  · have huser : Holds (poke (poke (fun _ ↦ 0) 0 (wide (apn.getD [])))
        (padded (apn.getD [])) (wide (user.getD []))) 0 (wide (apn.getD [])) := by
      rw [Holds, peek_poke_of_disjoint]
      · exact holds_poke
      · rw [length_wide, Nat.zero_add]
        exact .inl hA
    rcases hplace with hnil | heq
    · rw [hnil]
      change Holds (poke _ _ []) _ _
      rw [poke_nil]
      exact huser
    · rw [Holds, peek_poke_of_disjoint]
      · exact huser
      · rw [length_wide, heq]
        omega
  · rcases hplace with hnil | heq
    · rw [hnil]
      change Holds (poke _ _ []) _ _
      rw [poke_nil]
      exact holds_poke
    · rw [Holds, peek_poke_of_disjoint]
      · exact holds_poke
      · rw [length_wide, heq]
        omega

/-- If none is missing, the password is where the user name would end if it came first. -/
theorem missing_of_stringsLaw
    (hlaw : StringsLaw (connectStrings apn user passwd) ((set mbimCidConnect
      ((mbimPopulateConnectData apn user passwd).info a)).compose tid)) :
    apn.getD [] = [] ∨ user.getD [] = [] ∨ passwd.getD [] = [] := by
  obtain ⟨-, -, -, hAP, hUP⟩ := stringsLaw_connect_iff.mp hlaw
  by_contra hnone
  obtain ⟨hapn, huser, hpasswd⟩ : apn.getD [] ≠ [] ∧ user.getD [] ≠ [] ∧
      passwd.getD [] ≠ [] := by
    rwa [not_or, not_or] at hnone
  have hplaced := placed_passwd h tid a hpasswd
  have hbehind := ((placed_apn h tid a hapn).apart_iff hplaced).mp (hAP hapn hpasswd)
  have hbehind' := ((placed_user h tid a huser).apart_iff hplaced).mp (hUP huser hpasswd)
  rw [passwordPlace, if_pos huser] at hbehind hbehind'
  have hlenA := List.length_pos_iff.mpr hapn
  have hlenP := List.length_pos_iff.mpr hpasswd
  unfold padded at hbehind hbehind'
  omega

/-- The request carries its strings if one is missing, and never if none is. -/
theorem stringsLaw_room_iff :
    StringsLaw (connectStrings apn user passwd) ((set mbimCidConnect
        ((mbimPopulateConnectData apn user passwd).info a)).compose tid) ↔
      apn.getD [] = [] ∨ user.getD [] = [] ∨ passwd.getD [] = [] := by
  refine ⟨missing_of_stringsLaw h tid a, fun hone ↦ stringsLaw_connect_iff.mpr ?_⟩
  have hA := two_mul_length_le_padded (apn.getD [])
  have hU := two_mul_length_le_padded (user.getD [])
  have hP := two_mul_length_le_padded (passwd.getD [])
  have hplace : passwordPlace apn user ≤ _ := passwordPlace_le
  obtain ⟨hholdsA, hholdsU, hholdsP⟩ := holds_strings h hone
  have hlen : ((mbimPopulateConnectData apn user passwd).info a).length <
      2 ^ 32 - 48 := by
    rw [length_info h a]
    omega
  refine ⟨rightLength_set tid _ _ hlen, ⟨?_, ?_, ?_⟩, ?_, ?_, ?_⟩
  · intro hapn
    exact carries_of_holds h tid a (by unfold connectSize; omega) (placed_apn h tid a hapn) hholdsA
  · intro huser
    exact carries_of_holds h tid a (by unfold connectSize; omega) (placed_user h tid a huser)
      hholdsU
  · intro hpasswd
    exact carries_of_holds h tid a (by unfold connectSize; omega) (placed_passwd h tid a hpasswd)
      hholdsP
  · intro hapn huser
    apply ((placed_apn h tid a hapn).apart_iff (placed_user h tid a huser)).mpr
    omega
  · intro hapn hpasswd
    apply ((placed_apn h tid a hapn).apart_iff (placed_passwd h tid a hpasswd)).mpr
    have huser := (hone.resolve_left hapn).resolve_right hpasswd
    rw [passwordPlace, if_neg (not_not.mpr huser)]
    omega
  · intro huser hpasswd
    apply ((placed_user h tid a huser).apart_iff (placed_passwd h tid a hpasswd)).mpr
    have hapn : apn.getD [] = [] := by
      rcases hone with hapn | hother
      · exact hapn
      · rcases hother with hnil | hnil
        · exact absurd hnil huser
        · exact absurd hnil hpasswd
    rw [passwordPlace, if_pos huser, padded_eq_zero_iff.mpr hapn]
    omega

end Room

/-- A string that is carried is as long as its field says. -/
theorem Carries.size_ge {msg : MbimMessage} {field : ℕ} {s : List UInt8} (h : Carries msg field s) :
    2 * s.length ≤ informationField msg (field + 4) := by
  have hlen := congrArg List.length h.chars
  rw [length_wchar2char] at hlen
  omega

/-- Strings that are carried have room. -/
theorem connectSize_lt {tid : UInt32} {a : ConnectArgs} {msg : MbimMessage}
    (hmsg : setConnectMessage tid a apn user passwd = some msg)
    (hlaw : StringsLaw (connectStrings apn user passwd) msg) :
    connectSize apn user passwd < 2 ^ 31 := by
  obtain ⟨k₁, m₁, hk₁, hk₁', hA, hdvdA, -⟩ := addString_spec (Int.dvd_zero 4) (apn.getD [])
  obtain ⟨k₂, m₂, hk₂, hk₂', hU, hdvdU, -⟩ := addString_spec hdvdA (user.getD [])
  obtain ⟨k₃, m₃, hk₃, hk₃', hP, -, hlt⟩ := addString_spec hdvdU (passwd.getD [])
  have hbuflen : (mbimPopulateConnectData apn user passwd).buflen = addString
      (addString (addString 0 (apn.getD [])) (user.getD [])) (passwd.getD []) := rfl
  rw [setConnectMessage] at hmsg
  split at hmsg
  · exact absurd hmsg (by simp)
  next hpos =>
    rw [Option.some.injEq] at hmsg
    subst hmsg
    have hlen : ((mbimPopulateConnectData apn user passwd).info a).length =
        60 + (mbimPopulateConnectData apn user passwd).buflen.toNat := by
      rw [SetConnect.info, List.length_append, List.length_append, length_peek, ← Nat.add_assoc]
      rfl
    have hibl := informationBufferLength_set tid mbimCidConnect
      ((mbimPopulateConnectData apn user passwd).info a) (by omega)
    rw [stringsLaw_connect_iff] at hlaw
    obtain ⟨-, ⟨hcA, hcU, hcP⟩, hAU, hAP, hUP⟩ := hlaw
    simp only [ne_eq, ← List.length_eq_zero_iff] at hcA hcU hcP hAU hAP hUP
    -- strings that do not overlap need no more room than there is
    have hsA := fun hne ↦ And.intro (hcA hne).inside (hcA hne).size_ge
    have hsU := fun hne ↦ And.intro (hcU hne).inside (hcU hne).size_ge
    have hsP := fun hne ↦ And.intro (hcP hne).inside (hcP hne).size_ge
    have hneed : 2 * (apn.getD []).length + 2 * (user.getD []).length +
        2 * (passwd.getD []).length ≤
        60 + (mbimPopulateConnectData apn user passwd).buflen.toNat := by
      rw [← hlen, ← hibl]
      unfold Apart at hAU hAP hUP
      omega
    rw [hbuflen] at hpos hneed
    unfold connectSize
    unfold padded at hA hU hP ⊢
    omega

/-- The connect request is built and carries its strings if and only if there is room for them in
an `int` and one of them is missing. -/
theorem setConnect_law_iff (tid : UInt32) (a : ConnectArgs) :
    (∃ msg, setConnectMessage tid a apn user passwd = some msg ∧
        StringsLaw (connectStrings apn user passwd) msg) ↔
      connectSize apn user passwd < 2 ^ 31 ∧
        (apn.getD [] = [] ∨ user.getD [] = [] ∨ passwd.getD [] = []) := by
  constructor
  · rintro ⟨msg, hmsg, hlaw⟩
    have hroom := connectSize_lt hmsg hlaw
    rw [setConnectMessage_eq hroom, Option.some.injEq] at hmsg
    subst hmsg
    exact ⟨hroom, (stringsLaw_room_iff hroom tid a).mp hlaw⟩
  · rintro ⟨hroom, hone⟩
    exact ⟨_, setConnectMessage_eq hroom tid a, (stringsLaw_room_iff hroom tid a).mpr hone⟩

end Connect

/-! ## The path of the proxy -/

section Proxy

variable (tid : UInt32) (order : ByteOrder) (dev : List UInt8)

theorem payload_proxy :
    (proxyConfigureMessage tid order dev).payload.drop 36 = proxyConfig order dev := rfl

/-- By its header the configuration carries nothing. -/
theorem informationBufferLength_proxy :
    informationBufferLength (proxyConfigureMessage tid order dev) = 0 := by
  have hdrop : (proxyConfigureMessage tid order dev).payload.drop 32 =
      toLe32 0 ++ proxyConfig order dev := rfl
  have hfield : informationBufferLength (proxyConfigureMessage tid order dev) =
      field32 ((proxyConfigureMessage tid order dev).payload.drop 32) 0 :=
    (field32_drop _ 32 0).symm
  rw [hfield, hdrop, field32_toLe32 (by decide)]

theorem length_proxyConfig : (proxyConfig order dev).length = 12 + 2 * dev.length := by
  have hpath : char2wchar dev (dev.length * 2) = wide dev := char2wchar_eq (Nat.mul_comm _ _).le
  have hbytes : ∀ n, (order.bytes32 n).length = 4 := by
    intro n
    cases order with
    | littleEndian => rfl
    | bigEndian => rfl
  rw [proxyConfig, hpath, List.length_append, List.length_append, List.length_append, hbytes, hbytes,
    hbytes, length_wide]

/-- `DevicePathOffset` is not swapped, and not zero. -/
theorem informationField_proxy : informationField (proxyConfigureMessage tid order dev) 0 ≠ 0 := by
  have hfirst : ∃ value, 0 < value ∧ value < 2 ^ 32 ∧ order.bytes32 12 = toLe32 value := by
    cases order with
    | littleEndian => exact ⟨12, by decide, by decide, rfl⟩
    | bigEndian => exact ⟨12 * 2 ^ 24, by decide, by decide, by decide⟩
  obtain ⟨value, hpos, hlt, hvalue⟩ := hfirst
  rw [informationField, ← field32_drop, payload_proxy, proxyConfig, hvalue, List.append_assoc,
    List.append_assoc, field32_toLe32 hlt]
  exact Nat.ne_of_gt hpos

/-- No path is carried: where the length of the message is right the path is outside. -/
theorem proxy_not_law : ¬ StringsLaw (pathStrings dev) (proxyConfigureMessage tid order dev) := by
  rintro ⟨hlength, hcarries, -⟩
  cases dev with
  | nil =>
    rw [RightLength, informationBufferLength_proxy] at hlength
    change (48 + UInt32.ofNat (proxyConfig order []).length).toNat = 48 at hlength
    rw [length_proxyConfig] at hlength
    exact absurd hlength (by decide)
  | cons b dev =>
    have hmem : (0, b :: dev) ∈ pathStrings (b :: dev) := List.mem_singleton_self _
    have hinside := (hcarries _ hmem).inside
    rw [informationBufferLength_proxy] at hinside
    apply informationField_proxy tid order (b :: dev)
    exact Nat.eq_zero_of_add_eq_zero_right (Nat.le_zero.mp hinside)

end Proxy

/-- When the requests carry their strings: the one for a connection if one of the three is missing
and an `int` has room for the others, the one for the proxy never. -/
theorem requests_carry_iff (tid : UInt32) (order : ByteOrder) (a : ConnectArgs)
    (mbim_apn mbim_user mbim_passwd : Option (List UInt8)) (dev : List UInt8) :
    ((∃ msg, setConnectMessage tid a mbim_apn mbim_user mbim_passwd = some msg ∧
        StringsLaw (connectStrings mbim_apn mbim_user mbim_passwd) msg) ↔
      connectSize mbim_apn mbim_user mbim_passwd < 2 ^ 31 ∧
        (mbim_apn.getD [] = [] ∨ mbim_user.getD [] = [] ∨ mbim_passwd.getD [] = [])) ∧
      ¬ StringsLaw (pathStrings dev) (proxyConfigureMessage tid order dev) :=
  ⟨setConnect_law_iff tid a, proxy_not_law tid order dev⟩

/-- A request with all three strings, of one character each. -/
theorem setConnect_overlaps : ¬ ∃ msg,
    setConnectMessage 1 ⟨1, 0, 1, 1⟩ (some [0x61]) (some [0x62]) (some [0x63]) = some msg ∧
      StringsLaw (connectStrings (some [0x61]) (some [0x62]) (some [0x63])) msg := by
  rw [setConnect_law_iff]
  decide

end Wwan.QuectelCm
