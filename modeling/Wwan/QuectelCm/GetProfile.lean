import Wwan.Lib.Loop
import Wwan.QuectelCm.Replies

/-!
# The profile of a PDP context

`requestGetProfile` asks for the list of profiles, then for the settings of one after the other
until one has the PDP context that is wanted. If none has, it creates one and begins again.

The entries of the list are of variable length and followed with an `uint8`, into an array of 42.
A list without entries leads past the loop to a response that has been freed; and a response that
is no success, but has no error, makes the function return 0.
-/

namespace Wwan.QuectelCm

open Bytes

/-! ## The list of profiles -/

/-- An entry of a profile list. -/
structure ProfileEntry where
  type : UInt8
  index : UInt8
  name : List UInt8
  /-- The length of the name is a byte. -/
  name_lt : name.length < 256
  deriving DecidableEq

/-- The bytes of an entry. -/
def ProfileEntry.bytes (e : ProfileEntry) : List UInt8 :=
  e.type :: e.index :: UInt8.ofNat e.name.length :: e.name

/-- The bytes of `ProfileList`. -/
def profileListBytes (es : List ProfileEntry) : List UInt8 :=
  UInt8.ofNat es.length :: es.flatMap ProfileEntry.bytes

/-- Where the indexes of entries stand, if that of the first stands at `k`. -/
def indexOffsets : List ProfileEntry → ℕ → List ℕ
  | [], _ => []
  | e :: es, k => k :: indexOffsets es (k + 3 + e.name.length)

/-- The values of `k` at which the loop over `ProfileList` takes an index. -/
def indexPositions (profileList : List UInt8) : ℕ → ℕ → List ℕ
  | 0, _ => []
  | n + 1, k =>
    let name := (byteAt profileList ((k + 1) % 256)).toNat
    k :: indexPositions profileList n ((k + 1 + (if name = 0 then 2 else 2 + name)) % 256)

/-- A response carries a list of profiles. -/
def CarriesList (msg : List UInt8) (es : List ProfileEntry) : Prop :=
  es.length < 256 ∧ ∃ hdr rest, hdr.length = Tlv.hdrSize ∧
    tlvBytes msg 0x01 = some (hdr ++ profileListBytes es ++ rest)

/-! ## The function -/

/-- What the modem answers from one `_re_check` to the next. -/
structure Round where
  list : Reply
  entries : List ProfileEntry
  carries : ∀ msg, list.success = some msg → CarriesList msg entries
  /-- The settings of an index. -/
  settings : ℕ → Reply
  create : Reply
  /-- What is in the memory of the list after it was freed. -/
  freed : List UInt8

/-- What the modem has is noted. -/
def ProfileT.noted (p : ProfileT) (msg : List UInt8) : ProfileT :=
  { p with
    old_apn := uchar2char p.old_apn (tlvBytes msg 0x14)
    old_user := uchar2char p.old_user (tlvBytes msg 0x1B)
    old_password := uchar2char p.old_password (tlvBytes msg 0x1C)
    old_auth := ((tlvBytes msg 0x1D).map fun b ↦ ((byteAt b 3).toNat : ℤ)).getD p.old_auth
    old_iptype := ((tlvBytes msg 0x11).map fun b ↦ ((byteAt b 3).toNat : ℤ)).getD p.old_iptype }

/-- The result of `requestGetProfile`, with the profile. There is none if it follows a pointer that
it has not got, or leaves `profile_indexs`. -/
abbrev ProfileResult := Option (ℤ × ProfileT)

/-- The loop over `profile_indexs`. Behind the last one a profile is created. Without any, the
response to the list is looked at, which has been freed. -/
def profileLoop (r : Round) : List ℕ → ProfileT → ProfileResult ⊕ ProfileT
  | [], p => .inl (some (0, p.noted r.freed))
  | index :: indexes, p =>
    let p := { p with profile_index := index }
    (r.settings index).result (fun err ↦ .inl (some (err, p))) fun msg ↦
      match tlvBytes msg 0x25 with
      | none => .inl none
      | some pPdpContext =>
        if (byteAt pPdpContext 3).toNat = p.pdp then .inl (some (0, p.noted msg))
        else if indexes.isEmpty then
          r.create.result (fun err ↦ .inl (some (err, p))) fun _ ↦ .inr p
        else profileLoop r indexes p

/-- `requestGetProfile` from one `_re_check` to the next. The response to the list is used for an
allocation before it is checked. -/
def profileRound (r : Round) (p : ProfileT) : ProfileResult ⊕ ProfileT :=
  match r.list with
  | .none _ => .inl none
  | .response msg =>
    if qmuxResult msg ≠ 0 ∨ qmuxError msg ≠ 0 then .inl (some (qmuxError msg, p))
    else
      match profileNum msg with
      | none => .inl none
      | some profile_num =>
        -- `profile_indexs` has 42 elements
        if 42 < profile_num then .inl none
        else
          let profileList := ((tlvBytes msg 0x01).getD []).drop Tlv.hdrSize
          profileLoop r (profileIndexes profileList profile_num 2) p

/-- `requestGetProfile` from `_re_check` on, with the rounds to come. -/
def profileRounds (rs : ℕ → Round) (s : ℕ × ProfileT) : ProfileResult ⊕ (ℕ × ProfileT) :=
  (profileRound (rs s.1) s.2).map id fun p ↦ (s.1 + 1, p)

/-- The profile at `_re_check`. -/
def ProfileT.cleared (p : ProfileT) : ProfileT :=
  { p with
    old_apn := []
    old_user := []
    old_password := []
    old_auth := 0
    old_iptype := 0
    iptype := if p.enable_ipv4 ∧ p.enable_ipv6 then 3 else if p.enable_ipv6 then 2 else 0 }

/-- `requestGetProfile` returns this. -/
def GetProfileReturns (rs : ℕ → Round) (p : ProfileT) (result : ProfileResult) : Prop :=
  if p.pdp = 0 then result = some (0, p.cleared)
  else Loop.Returns (profileRounds rs) (0, p.cleared) result

/-! ## The indexes -/

section Indexes

variable {profileList rest : List UInt8} {es : List ProfileEntry} {n k : ℕ}

theorem profileIndexes_eq : profileIndexes profileList n k =
    (indexPositions profileList n k).map fun k ↦ (byteAt profileList k).toNat := by
  induction n generalizing k with
  | zero => rfl
  | succ n ih => exact congrArg ((byteAt profileList k).toNat :: ·) ih

theorem indexPositions_lt (hk : k < 256) : ∀ o ∈ indexPositions profileList n k, o < 256 := by
  induction n generalizing k with
  | zero => exact List.forall_mem_nil _
  | succ n ih =>
    intro o ho
    rcases List.mem_cons.mp ho with rfl | ho
    · exact hk
    · exact ih (Nat.mod_lt _ (by decide)) o ho

/-- The entry in front of others: its bytes, and where the next one begins. -/
theorem entry_at {e : ProfileEntry}
    (h : profileList.drop k = (e :: es).flatMap ProfileEntry.bytes ++ rest) :
    byteAt profileList (k + 1) = e.index ∧
      (byteAt profileList (k + 2)).toNat = e.name.length ∧
      profileList.drop (k + (3 + e.name.length)) = es.flatMap ProfileEntry.bytes ++ rest := by
  have hbytes : profileList.drop k =
      e.type :: e.index :: UInt8.ofNat e.name.length ::
        (e.name ++ (es.flatMap ProfileEntry.bytes ++ rest)) := by
    rw [h, List.flatMap_cons, ProfileEntry.bytes]
    simp
  refine ⟨?_, ?_, ?_⟩
  · rw [← byteAt_drop, hbytes]
    rfl
  · rw [← byteAt_drop, hbytes]
    exact UInt8.toNat_ofNat_of_lt' e.name_lt
  · rw [← List.drop_drop, hbytes, Nat.add_comm]
    exact List.drop_left' rfl

/-- The bytes where the indexes stand. -/
theorem indexes_at_offsets (h : profileList.drop k = es.flatMap ProfileEntry.bytes ++ rest) :
    ((indexOffsets es (k + 1)).map fun k ↦ (byteAt profileList k).toNat) =
      es.map fun e ↦ e.index.toNat := by
  induction es generalizing k with
  | nil => rfl
  | cons e es ih =>
    obtain ⟨hindex, -, hnext⟩ := entry_at h
    rw [indexOffsets, List.map_cons, List.map_cons, hindex]
    have hk : k + 1 + 3 + e.name.length = k + (3 + e.name.length) + 1 := by omega
    rw [hk, ih hnext]

/-- The loop takes the indexes where they stand if and only if an `uint8` can count so far. -/
theorem indexPositions_eq_iff (hk : k + 1 < 256)
    (h : profileList.drop k = es.flatMap ProfileEntry.bytes ++ rest) :
    indexPositions profileList es.length (k + 1) = indexOffsets es (k + 1) ↔
      ∀ o ∈ indexOffsets es (k + 1), o < 256 := by
  constructor
  · intro heq
    rw [← heq]
    exact indexPositions_lt hk
  · intro hlt
    induction es generalizing k with
    | nil => rfl
    | cons e es ih =>
      obtain ⟨-, hname, hnext⟩ := entry_at h
      cases es with
      | nil => rfl
      | cons e' es =>
        have hnextk : k + 1 + 3 + e.name.length < 256 :=
          hlt _ (List.mem_cons_of_mem _ List.mem_cons_self)
        have hmod : (k + 1 + 1) % 256 = k + 2 := Nat.mod_eq_of_lt (by omega)
        have hnextpos :
            (k + 1 + 1 + (if e.name.length = 0 then 2 else 2 + e.name.length)) % 256 =
              k + (3 + e.name.length) + 1 := by
          split <;> omega
        have hoffset : k + 1 + 3 + e.name.length = k + (3 + e.name.length) + 1 := by omega
        rw [List.length_cons, indexPositions, hmod, hname, hnextpos, indexOffsets, hoffset]
        refine congrArg ((k + 1) :: ·) (ih (by omega) hnext fun o ho ↦ hlt o ?_)
        rw [indexOffsets, hoffset]
        exact List.mem_cons_of_mem _ ho

end Indexes

/-! ## The chosen entry -/

/-- The settings of the profile are those of an entry, for the wanted PDP context, and noted. -/
structure Chosen (r : Round) (e : ProfileEntry) (p : ProfileT) (msg : List UInt8) : Prop where
  index : p.profile_index = e.index.toNat
  settings : (r.settings e.index.toNat).success = some msg
  pdp : (tlvBytes msg 0x25).map (fun b ↦ ((byteAt b 3).toNat : ℤ)) = some p.pdp
  apn : p.old_apn = uchar2char [] (tlvBytes msg 0x14)
  user : p.old_user = uchar2char [] (tlvBytes msg 0x1B)
  password : p.old_password = uchar2char [] (tlvBytes msg 0x1C)
  auth : p.old_auth = ((tlvBytes msg 0x1D).map fun b ↦ ((byteAt b 3).toNat : ℤ)).getD 0

/-- What a round does with the list, and what it returns. -/
structure RoundLaw (r : Round) (p : ProfileT) : Prop where
  /-- The indexes are taken where they stand, and there is space for them. -/
  extracted : ∀ msg, r.list.success = some msg →
    indexPositions (((tlvBytes msg 0x01).getD []).drop Tlv.hdrSize) r.entries.length 2 =
        indexOffsets r.entries 2 ∧ r.entries.length ≤ 42
  selected : ∀ p', profileRound r p = .inl (some (0, p')) →
    r.list.success.isSome ∧ ∃ e ∈ r.entries, ∃ msg, Chosen r e p' msg

/-- The law of `requestGetProfile`: that of all rounds it comes to. -/
def GetProfileLaw (rs : ℕ → Round) (p : ProfileT) : Prop :=
  p.pdp ≠ 0 → ∀ n q, Loop.Reaches (profileRounds rs) (0, p.cleared) (n, q) → RoundLaw (rs n) q

/-! ## The condition -/

/-- A request that does not succeed, and makes the function return 0. -/
def ZeroFail (r : Reply) : Prop := r.success = none ∧ r.error = 0

/-- The settings are those of another PDP context. -/
def OtherPdp (r : Reply) (pdp : ℤ) : Prop :=
  ∃ msg b, r.success = some msg ∧ tlvBytes msg 0x25 = some b ∧ ((byteAt b 3).toNat : ℤ) ≠ pdp

/-- No request that is made for these entries fails without an error. -/
def EntriesOk (r : Round) (pdp : ℤ) : List ProfileEntry → Prop
  | [] => ¬ ZeroFail r.create
  | e :: es =>
    ¬ ZeroFail (r.settings e.index.toNat) ∧
      (OtherPdp (r.settings e.index.toNat) pdp → EntriesOk r pdp es)

/-- The list is there, not empty, and short; and no request fails without an error. -/
structure RoundOk (r : Round) (pdp : ℤ) : Prop where
  list : ∀ msg, r.list = .response msg → ¬ ZeroFail r.list
  nonempty : ∀ msg, r.list.success = some msg → r.entries ≠ []
  length : ∀ msg, r.list.success = some msg → r.entries.length ≤ 42
  offsets : ∀ msg, r.list.success = some msg → ∀ o ∈ indexOffsets r.entries 2, o < 256
  entries : ∀ msg, r.list.success = some msg → EntriesOk r pdp r.entries

/-- The condition of `requestGetProfile`: that of all rounds it comes to. -/
def GetProfileOk (rs : ℕ → Round) (p : ProfileT) : Prop :=
  p.pdp ≠ 0 → ∀ n q, Loop.Reaches (profileRounds rs) (0, p.cleared) (n, q) → RoundOk (rs n) p.pdp

section Rounds

variable {r : Round} {p : ProfileT} {es : List ProfileEntry}

/-- Nothing has been noted. -/
structure ProfileT.Clear (p : ProfileT) : Prop where
  apn : p.old_apn = []
  user : p.old_user = []
  password : p.old_password = []
  auth : p.old_auth = 0

/-- The indexes of entries. -/
def entryIndexes (es : List ProfileEntry) : List ℕ := es.map fun e ↦ e.index.toNat

/-- The profile with the index of an entry. -/
def ProfileT.withIndex (p : ProfileT) (e : ProfileEntry) : ProfileT :=
  { p with profile_index := (e.index.toNat : ℕ) }

variable {e : ProfileEntry} {msg b : List UInt8}

/-! One step of the loop over the entries. -/

theorem profileLoop_failure (h : (r.settings e.index.toNat).success = none) :
    profileLoop r (entryIndexes (e :: es)) p =
      .inl (some ((r.settings e.index.toNat).error, p.withIndex e)) := by
  rw [entryIndexes, List.map_cons, profileLoop]
  exact Reply.result_of_failure h _ _

theorem profileLoop_no_pdp (h : (r.settings e.index.toNat).success = some msg)
    (hmsg : tlvBytes msg 0x25 = none) :
    profileLoop r (entryIndexes (e :: es)) p = .inl none := by
  rw [entryIndexes, List.map_cons, profileLoop]
  refine (Reply.result_of_success h _ _).trans ?_
  rw [hmsg]

/-- An entry is not chosen without its settings. -/
theorem not_chosen_of_failure {e' : ProfileEntry} {msg' : List UInt8}
    (h : (r.settings e.index.toNat).success = none) : ¬ Chosen r e' (p.withIndex e) msg' := by
  intro hchosen
  have hindex : (e.index.toNat : ℤ) = e'.index.toNat := hchosen.index
  have hsettings := hchosen.settings
  rw [← Int.ofNat_inj.mp hindex, h] at hsettings
  cases hsettings

/-- The profile stays as it was, but for its index and what is noted at the end. -/
def ProfileKept (p : ProfileT) : ProfileResult ⊕ ProfileT → Prop
  | .inl none => True
  | .inl (some (_, q)) => q.pdp = p.pdp
  | .inr q => q.pdp = p.pdp ∧ (p.Clear → q.Clear)

theorem ProfileKept.of_index {i : ℤ} {x : ProfileResult ⊕ ProfileT}
    (h : ProfileKept { p with profile_index := i } x) : ProfileKept p x := by
  match x, h with
  | .inl none, _ => trivial
  | .inl (some (_, _)), hpdp => exact hpdp
  | .inr _, ⟨hpdp, hclear⟩ =>
    exact ⟨hpdp, fun hp ↦ hclear ⟨hp.apn, hp.user, hp.password, hp.auth⟩⟩

theorem kept_profileLoop (r : Round) (indexes : List ℕ) (p : ProfileT) :
    ProfileKept p (profileLoop r indexes p) := by
  induction indexes generalizing p with
  | nil => rfl
  | cons index indexes ih =>
    rw [profileLoop]
    refine Reply.result_cases (P := ProfileKept p) (fun _ ↦ rfl) fun msg ↦ ?_
    split
    · trivial
    split
    · rfl
    split
    · refine Reply.result_cases (P := ProfileKept p) (fun _ ↦ rfl) fun _ ↦ ?_
      exact ⟨rfl, fun hp ↦ ⟨hp.apn, hp.user, hp.password, hp.auth⟩⟩
    · exact (ih _).of_index

theorem profileLoop_pdp {indexes : List ℕ} {x : ℤ} {q : ProfileT}
    (h : profileLoop r indexes p = .inl (some (x, q))) : q.pdp = p.pdp := by
  have hkept := kept_profileLoop r indexes p
  rwa [h] at hkept

theorem profileLoop_inr {indexes : List ℕ} {q : ProfileT}
    (h : profileLoop r indexes p = .inr q) : q.pdp = p.pdp ∧ (p.Clear → q.Clear) := by
  have hkept := kept_profileLoop r indexes p
  rwa [h] at hkept

/-- A request that does not succeed returns 0, with a profile that is not right, if and only if it
fails without an error. -/
theorem failure_law {reply : Reply} {q : ProfileT} {P : ProfileT → Prop}
    (h : reply.success = none) (hq : ¬ P q) :
    (∀ p', (.inl (some (reply.error, q)) : ProfileResult ⊕ ProfileT) = .inl (some (0, p')) → P p') ↔
      ¬ ZeroFail reply := by
  constructor
  · rintro hret ⟨-, herror⟩
    exact hq (hret q (by rw [herror]))
  · intro hnot p' hret
    exact absurd ⟨h, (Prod.ext_iff.mp (Option.some.inj (Sum.inl.inj hret))).1⟩ hnot

theorem not_zeroFail {reply : Reply} (h : reply.success = some msg) : ¬ ZeroFail reply := by
  rintro ⟨hnone, -⟩
  rw [h] at hnone
  cases hnone

theorem not_otherPdp {reply : Reply} {pdp : ℤ} (h : reply.success = none) :
    ¬ OtherPdp reply pdp := by
  rintro ⟨msg, b, hsuccess, -⟩
  rw [h] at hsuccess
  cases hsuccess

theorem otherPdp_iff {reply : Reply} {pdp : ℤ} (h : reply.success = some msg) :
    OtherPdp reply pdp ↔ ∃ b, tlvBytes msg 0x25 = some b ∧ ((byteAt b 3).toNat : ℤ) ≠ pdp := by
  constructor
  · rintro ⟨msg', b, hsuccess, hb⟩
    rw [h] at hsuccess
    rw [Option.some.inj hsuccess]
    exact ⟨b, hb⟩
  · exact fun ⟨b, hb⟩ ↦ ⟨msg, b, h, hb⟩

section Settings

variable (h : (r.settings e.index.toNat).success = some msg) (hmsg : tlvBytes msg 0x25 = some b)

include h hmsg

theorem profileLoop_settings :
    profileLoop r (entryIndexes (e :: es)) p =
      if (byteAt b 3).toNat = p.pdp then .inl (some (0, (p.withIndex e).noted msg))
      else if es.isEmpty then
        r.create.result (fun err ↦ .inl (some (err, p.withIndex e))) fun _ ↦ .inr (p.withIndex e)
      else profileLoop r (entryIndexes es) (p.withIndex e) := by
  rw [entryIndexes, List.map_cons, profileLoop, List.isEmpty_map]
  refine (Reply.result_of_success h _ _).trans ?_
  rw [hmsg]
  rfl

theorem Chosen.noted (hp : p.Clear) (hpdp : ((byteAt b 3).toNat : ℤ) = p.pdp) :
    Chosen r e ((p.withIndex e).noted msg) msg where
  index := rfl
  settings := h
  pdp := by rw [hmsg, Option.map_some, hpdp]; rfl
  apn := by rw [← hp.apn]; rfl
  user := by rw [← hp.user]; rfl
  password := by rw [← hp.password]; rfl
  auth := by rw [← hp.auth]; rfl

/-- An entry of another PDP context is not chosen. -/
theorem not_chosen_of_other {e' : ProfileEntry} {q : ProfileT} {msg' : List UInt8}
    (hpdp : ((byteAt b 3).toNat : ℤ) ≠ q.pdp) (hindex : e'.index = e.index) :
    ¬ Chosen r e' q msg' := by
  intro hchosen
  have hsettings := hchosen.settings
  rw [hindex, h] at hsettings
  have hq := hchosen.pdp
  rw [← Option.some.inj hsettings, hmsg, Option.map_some] at hq
  exact hpdp (Option.some.inj hq)

/-- An entry that was passed is not the one that is chosen. -/
theorem exists_chosen_cons {q : ProfileT} (hpdp : ((byteAt b 3).toNat : ℤ) ≠ q.pdp) :
    (∃ e' ∈ e :: es, ∃ msg', Chosen r e' q msg') ↔ ∃ e' ∈ es, ∃ msg', Chosen r e' q msg' := by
  constructor
  · rintro ⟨e', he', msg', hchosen⟩
    rcases List.mem_cons.mp he' with rfl | he'
    · exact absurd hchosen (not_chosen_of_other h hmsg hpdp rfl)
    · exact ⟨e', he', msg', hchosen⟩
  · exact fun ⟨e', he', hchosen⟩ ↦ ⟨e', List.mem_cons_of_mem _ he', hchosen⟩

/-- Behind the last entry a profile is created. -/
theorem profileLoop_last_law (hpdp : ((byteAt b 3).toNat : ℤ) ≠ p.pdp) :
    (∀ p', profileLoop r (entryIndexes [e]) p = .inl (some (0, p')) →
      ∃ e' ∈ [e], ∃ msg', Chosen r e' p' msg') ↔ ¬ ZeroFail r.create := by
  rw [profileLoop_settings h hmsg, if_neg hpdp, if_pos List.isEmpty_nil]
  cases hcreate : r.create.success with
  | none =>
    rw [Reply.result_of_failure hcreate]
    refine failure_law hcreate fun hchosen ↦ ?_
    have hother : ((byteAt b 3).toNat : ℤ) ≠ (p.withIndex e).pdp := hpdp
    obtain ⟨_, hmem, -⟩ := (exists_chosen_cons h hmsg hother).mp hchosen
    cases hmem
  | some msg' =>
    rw [Reply.result_of_success hcreate]
    exact iff_of_true (fun _ h ↦ by cases h) (not_zeroFail hcreate)

end Settings

/-- The loop returns 0 only for the entry that is wanted if and only if no request fails without an
error. -/
theorem profileLoop_law (hp : p.Clear) (hes : es ≠ []) :
    (∀ p', profileLoop r (entryIndexes es) p = .inl (some (0, p')) →
      ∃ e ∈ es, ∃ msg, Chosen r e p' msg) ↔ EntriesOk r p.pdp es := by
  induction es generalizing p with
  | nil => exact absurd rfl hes
  | cons e es ih =>
    rw [EntriesOk]
    cases hsettings : (r.settings e.index.toNat).success with
    | none =>
      rw [profileLoop_failure hsettings, and_iff_left (absurd · (not_otherPdp hsettings))]
      exact failure_law hsettings
        fun ⟨_, _, _, hchosen⟩ ↦ not_chosen_of_failure hsettings hchosen
    | some msg =>
      rw [and_iff_right (not_zeroFail hsettings)]
      cases hmsg : tlvBytes msg 0x25 with
      | none =>
        have hother : ¬ OtherPdp (r.settings e.index.toNat) p.pdp := by
          rw [otherPdp_iff hsettings, hmsg]
          rintro ⟨_, ⟨⟩, -⟩
        rw [profileLoop_no_pdp hsettings hmsg]
        exact iff_of_true (fun _ h ↦ by cases h) (absurd · hother)
      | some b =>
        by_cases hpdp : ((byteAt b 3).toNat : ℤ) = p.pdp
        · have hother : ¬ OtherPdp (r.settings e.index.toNat) p.pdp := by
            rw [otherPdp_iff hsettings, hmsg]
            rintro ⟨_, ⟨⟩, hne⟩
            exact hne hpdp
          rw [profileLoop_settings hsettings hmsg, if_pos hpdp]
          refine iff_of_true (fun p' hret ↦ ?_) (absurd · hother)
          cases hret
          exact ⟨e, List.mem_cons_self, msg, .noted hsettings hmsg hp hpdp⟩
        rw [forall_prop_of_true ((otherPdp_iff hsettings).mpr ⟨b, hmsg, hpdp⟩)]
        cases es with
        | nil => exact profileLoop_last_law hsettings hmsg hpdp
        | cons e' es =>
          have hclear : (p.withIndex e).Clear := ⟨hp.apn, hp.user, hp.password, hp.auth⟩
          have hrest := ih hclear (List.cons_ne_nil _ _)
          rw [profileLoop_settings hsettings hmsg, if_neg hpdp, List.isEmpty_cons,
            if_neg Bool.false_ne_true]
          refine Iff.trans ?_ hrest
          refine forall₂_congr fun p' hret ↦ exists_chosen_cons hsettings hmsg ?_
          have hstay : p'.pdp = p.pdp := (profileLoop_pdp hret).trans rfl
          rw [hstay]
          exact hpdp

/-- What a list of profiles begins with, and where its entries are. -/
theorem CarriesList.profileNum_eq (h : CarriesList msg es) : profileNum msg = some es.length := by
  obtain ⟨hlt, hdr, rest, hhdr, hmsg⟩ := h
  have hcount : byteAt (hdr ++ profileListBytes es ++ rest) 3 = UInt8.ofNat es.length := by
    rw [List.append_assoc]
    exact (byteAt_append_right hhdr _ 0).trans rfl
  rw [profileNum, hmsg, Option.map_some, hcount, UInt8.toNat_ofNat_of_lt' hlt]

theorem CarriesList.exists_drop (h : CarriesList msg es) :
    ∃ rest, (((tlvBytes msg 0x01).getD []).drop Tlv.hdrSize).drop 1 =
      es.flatMap ProfileEntry.bytes ++ rest := by
  obtain ⟨-, hdr, rest, hhdr, hmsg⟩ := h
  refine ⟨rest, ?_⟩
  rw [hmsg, Option.getD_some, List.append_assoc, List.drop_left' hhdr]
  rfl

theorem profileRound_refused (hlist : r.list = .response msg) (h : r.list.success = none) :
    profileRound r p = .inl (some (r.list.error, p)) := by
  have hresult := Reply.result_of_failure h (fun err ↦ (.inl (some (err, p)) :
    ProfileResult ⊕ ProfileT)) fun _ ↦ profileRound r p
  rw [hlist, Reply.result] at hresult
  rw [profileRound, hlist]
  dsimp only
  split at hresult
  · rename_i hfail
    rw [if_pos hfail]
    exact hresult
  · rename_i hok
    rw [hlist, Reply.success, Reply.result, if_neg hok] at h
    cases h

theorem profileRound_list (h : r.list.success = some msg) (hlen : r.entries.length ≤ 42) :
    profileRound r p = profileLoop r (profileIndexes
      (((tlvBytes msg 0x01).getD []).drop Tlv.hdrSize) r.entries.length 2) p := by
  have hnum := (r.carries msg h).profileNum_eq
  unfold profileRound
  cases hlist : r.list with
  | none err =>
    rw [hlist] at h
    cases h
  | response msg' =>
    rw [hlist, Reply.success, Reply.result] at h
    split at h
    · cases h
    · rename_i hok
      obtain rfl := Option.some.inj h
      dsimp only
      rw [if_neg hok, hnum]
      exact if_neg (Nat.not_lt.mpr hlen)

/-- Without a list nothing is selected. -/
theorem roundLaw_iff_of_failure (hsuccess : r.list.success = none) :
    RoundLaw r p ↔ RoundOk r p.pdp := by
  have hnone {P : List UInt8 → Prop} : ∀ msg, r.list.success = some msg → P msg := by
    intro msg h
    rw [hsuccess] at h
    cases h
  cases hlist : r.list with
  | none err =>
    have hround : profileRound r p = .inl none := by
      rw [profileRound, hlist]
    refine iff_of_true ⟨hnone, fun p' h ↦ ?_⟩ ⟨fun msg h ↦ ?_, hnone, hnone, hnone, hnone⟩
    · rw [hround] at h
      cases h
    · rw [hlist] at h
      cases h
  | response msg =>
    have hselected := failure_law (q := p) (P := fun p' ↦ r.list.success.isSome = true ∧
      ∃ e ∈ r.entries, ∃ msg, Chosen r e p' msg) hsuccess (fun h ↦ by
        rw [hsuccess] at h
        cases h.1)
    rw [← profileRound_refused hlist hsuccess] at hselected
    constructor
    · exact fun h ↦ ⟨fun _ _ ↦ hselected.mp h.selected, hnone, hnone, hnone, hnone⟩
    · exact fun h ↦ ⟨hnone, hselected.mpr (h.list msg hlist)⟩

/-- With a list it depends on the indexes and on what is asked for them. -/
theorem roundLaw_iff_of_success (hp : p.Clear) (hsuccess : r.list.success = some msg) :
    RoundLaw r p ↔ RoundOk r p.pdp := by
  have hall {P : List UInt8 → Prop} : (∀ msg, r.list.success = some msg → P msg) ↔ P msg :=
    ⟨fun h ↦ h msg hsuccess, fun h msg' hmsg' ↦ by
      rw [hsuccess] at hmsg'
      exact Option.some.inj hmsg' ▸ h⟩
  obtain ⟨rest, hdrop⟩ := (r.carries msg hsuccess).exists_drop
  have hpositions := indexPositions_eq_iff (by decide) hdrop
  have hindexes (hpos : indexPositions (((tlvBytes msg 0x01).getD []).drop Tlv.hdrSize)
      r.entries.length 2 = indexOffsets r.entries 2) :
      profileIndexes (((tlvBytes msg 0x01).getD []).drop Tlv.hdrSize) r.entries.length 2 =
        entryIndexes r.entries := by
    rw [profileIndexes_eq, hpos]
    exact indexes_at_offsets hdrop
  constructor
  · intro h
    obtain ⟨hpos, hlen⟩ := h.extracted msg hsuccess
    have hround := profileRound_list (p := p) hsuccess hlen
    rw [hindexes hpos] at hround
    have hne : r.entries ≠ [] := by
      intro hnil
      rw [hnil] at hround
      obtain ⟨-, e, he, -⟩ := h.selected (p.noted r.freed) hround
      rw [hnil] at he
      cases he
    exact ⟨fun _ _ ↦ not_zeroFail hsuccess, hall.mpr hne, hall.mpr hlen,
      hall.mpr (hpositions.mp hpos), hall.mpr ((profileLoop_law hp hne).mp fun p' hret ↦
        (h.selected p' (hround.trans hret)).2)⟩
  · intro h
    have hlen := h.length msg hsuccess
    have hpos := hpositions.mpr (h.offsets msg hsuccess)
    have hround := profileRound_list (p := p) hsuccess hlen
    rw [hindexes hpos] at hround
    refine ⟨hall.mpr ⟨hpos, hlen⟩, fun p' hret ↦ ⟨by rw [hsuccess]; rfl, ?_⟩⟩
    rw [hround] at hret
    exact (profileLoop_law hp (h.nonempty msg hsuccess)).mpr (h.entries msg hsuccess) p' hret

/-- A round is right if and only if the list is not empty and not too long, and no request fails
without an error. -/
theorem roundLaw_iff (hp : p.Clear) : RoundLaw r p ↔ RoundOk r p.pdp := by
  cases hsuccess : r.list.success with
  | none => exact roundLaw_iff_of_failure hsuccess
  | some msg => exact roundLaw_iff_of_success hp hsuccess

theorem profileRound_inr {q : ProfileT} (h : profileRound r p = .inr q) :
    q.pdp = p.pdp ∧ (p.Clear → q.Clear) := by
  unfold profileRound at h
  split at h
  · cases h
  split at h
  · cases h
  split at h
  · cases h
  split at h
  · cases h
  · exact profileLoop_inr h

end Rounds

section Run

variable {rs : ℕ → Round} {p : ProfileT}

theorem clear_cleared (p : ProfileT) : p.cleared.Clear := ⟨rfl, rfl, rfl, rfl⟩

/-- At each `_re_check` nothing has been noted. -/
theorem clear_of_reaches {s : ℕ × ProfileT}
    (h : Loop.Reaches (profileRounds rs) (0, p.cleared) s) : s.2.pdp = p.pdp ∧ s.2.Clear := by
  induction h with
  | refl => exact ⟨rfl, clear_cleared p⟩
  | @tail t u _ hb ih =>
    rw [profileRounds] at hb
    cases hround : profileRound (rs t.1) t.2 with
    | inl result =>
      rw [hround] at hb
      cases hb
    | inr q =>
      rw [hround] at hb
      cases hb
      obtain ⟨hpdp, hclear⟩ := profileRound_inr hround
      exact ⟨hpdp.trans ih.1, hclear ih.2⟩

/-- The profile that is wanted is selected when 0 is returned. -/
theorem getProfile_selects (hok : GetProfileOk rs p) (hpdp : p.pdp ≠ 0) {q : ProfileT}
    (h : GetProfileReturns rs p (some (0, q))) :
    ∃ n, ∃ e ∈ (rs n).entries, ∃ msg, Chosen (rs n) e q msg := by
  rw [GetProfileReturns, if_neg hpdp] at h
  obtain ⟨⟨n, t⟩, hreach, hlast⟩ := h.exists_last
  obtain ⟨ht, hclear⟩ := clear_of_reaches hreach
  have hround : profileRound (rs n) t = .inl (some (0, q)) := by
    rw [profileRounds] at hlast
    cases hround : profileRound (rs n) t with
    | inl result =>
      rw [hround] at hlast
      exact congrArg Sum.inl (Sum.inl.inj hlast)
    | inr t' =>
      rw [hround] at hlast
      cases hlast
  have hlaw := (roundLaw_iff hclear).mpr (by rw [ht]; exact hok hpdp n t hreach)
  exact ⟨n, (hlaw.selected q hround).2⟩

/-- `requestGetProfile` extracts the indexes and selects the profile that is wanted if and only if
in every round the list is not empty and not too long, and no request fails without an error. -/
theorem getProfile_law_iff (rs : ℕ → Round) (p : ProfileT) :
    GetProfileLaw rs p ↔ GetProfileOk rs p := by
  refine forall₄_congr fun _ n q hreach ↦ ?_
  obtain ⟨hpdp, hclear⟩ := clear_of_reaches hreach
  rw [roundLaw_iff hclear, hpdp]

end Run

/-! ## Lists that go wrong -/

/-- A successful response with a list of profiles. -/
def listResponse (es : List ProfileEntry) : List UInt8 :=
  List.replicate 11 0 ++
    toLe16 (Tlv.sizeAll [⟨0x02, [0, 0, 0, 0]⟩, ⟨0x01, profileListBytes es⟩]) ++
    Tlv.encodeAll [⟨0x02, [0, 0, 0, 0]⟩, ⟨0x01, profileListBytes es⟩]

/-- A round with a list, and a modem that then refuses. -/
def listRound (es : List ProfileEntry) (h : CarriesList (listResponse es) es)
    (hsuccess : (Reply.response (listResponse es)).success = some (listResponse es)) : Round where
  list := .response (listResponse es)
  entries := es
  carries := fun msg hmsg ↦ by
    rw [hsuccess] at hmsg
    exact Option.some.inj hmsg ▸ h
  settings := fun _ ↦ .none (-1)
  create := .none (-1)
  freed := []

/-- A list without profiles. -/
def emptyRound : Round :=
  listRound [] ⟨by decide, [0x01, 1, 0], [], rfl, by decide +kernel⟩ (by decide +kernel)

/-- A list of 43 profiles. -/
def longRound : Round :=
  listRound (List.replicate 43 ⟨0, 1, [], by decide⟩)
    ⟨by decide, [0x01, 130, 0], [], rfl, by decide +kernel⟩ (by decide +kernel)

/-- A response that is no success and has no error. -/
def refusedRound : Round where
  list := .response (List.replicate 16 0 ++ [1, 0, 0, 0])
  entries := []
  carries := fun msg h ↦ by
    have hnone : (Reply.response (List.replicate 16 0 ++ [1, 0, 0, 0])).success = none := by decide
    rw [hnone] at h
    cases h
  settings := fun _ ↦ .none (-1)
  create := .none (-1)
  freed := []

/-- Without profiles, or if the list is refused without an error, 0 is returned for no profile; and
43 profiles do not fit into `profile_indexs`. -/
theorem getProfile_wrong :
    ¬ GetProfileLaw (fun _ ↦ emptyRound) ipv4Profile ∧
      ¬ GetProfileLaw (fun _ ↦ longRound) ipv4Profile ∧
      ¬ GetProfileLaw (fun _ ↦ refusedRound) ipv4Profile := by
  have hpdp : ipv4Profile.pdp ≠ 0 := by decide
  refine ⟨fun h ↦ ?_, fun h ↦ ?_, fun h ↦ ?_⟩
  · have hround : profileRound emptyRound ipv4Profile.cleared =
        .inl (some (0, ipv4Profile.cleared.noted [])) := by decide +kernel
    obtain ⟨-, e, he, -⟩ := (h hpdp 0 _ .refl).selected _ hround
    cases he
  · have hsuccess : longRound.list.success = some (listResponse longRound.entries) := by
      decide +kernel
    exact absurd ((h hpdp 0 _ .refl).extracted _ hsuccess).2 (by decide)
  · have hround : profileRound refusedRound ipv4Profile.cleared =
        .inl (some (0, ipv4Profile.cleared)) := by decide +kernel
    exact absurd ((h hpdp 0 _ .refl).selected _ hround).1 (by decide)

end Wwan.QuectelCm
