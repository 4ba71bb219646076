import Wwan.Lib.Buckets
import Wwan.Lib.Numeral
import Wwan.Lib.ScriptSort
import Mathlib.Data.Char
import Mathlib.Data.List.Lex

/-!
# The message list of `readsms.js`

The messages are sorted twice and put into an object under a key that is made of the sender, the
minute and a number. Each value of the object is a row of the table. A row is deleted by the
numbers in the name of its checkbox.
-/

namespace Wwan.SmsTool

open Buckets Numeral ScriptSort

/-! ## Messages -/

/-- A minute, as `%Y-%m-%d %H:%M` prints it. -/
structure Timestamp where
  text : List Char
  formatted : text.map (fun c ↦ if c.isDigit then '0' else c) = "0000-00-00 00:00".toList
  deriving DecidableEq

/-- A part of a message that came in several of them. -/
structure Segment where
  message : ℕ
  part : ℕ
  total : ℕ
  part_pos : 1 ≤ part
  part_le : part ≤ total
  deriving DecidableEq

structure Sms where
  index : ℕ
  sender : List Char
  timestamp : Timestamp
  content : List Char
  segment : Option Segment
  deriving DecidableEq

namespace Sms

def part (m : Sms) : Option ℕ := m.segment.map Segment.part

def total (m : Sms) : Option ℕ := m.segment.map Segment.total

/-- Parts of the same message. -/
def SameMessage (a b : Sms) : Prop :=
  ∃ s ∈ a.segment, ∃ t ∈ b.segment, s.message = t.message

end Sms

/-- What the language makes of a text: `NaN` is none. -/
structure Conversions (N : Type) where
  toNumber : List Char → Option N
  date : Timestamp → Option ℤ

inductive Direction
  | Start
  | End
  deriving DecidableEq

/-! ## Sorting -/

section Sorting

variable {N : Type} [LinearOrder N] (conv : Conversions N)

/-- `localeCompare` of two minutes. -/
def localeCompare (a b : Timestamp) : Ordering := cmp a.text b.text

/-- The first comparison function. -/
def byMessage (direct : Direction) (a b : Sms) : Ordering :=
  if a.timestamp = b.timestamp ∧ a.sender = b.sender then
    match direct with
    | .Start => difference a.part b.part
    | .End => difference b.part a.part
  else if a.timestamp = b.timestamp then
    difference (conv.toNumber a.sender) (conv.toNumber b.sender)
  else localeCompare a.timestamp b.timestamp

/-- The second comparison function. -/
def byDate (a b : Sms) : Ordering :=
  difference (conv.date b.timestamp) (conv.date a.timestamp)

/-- `SortedSMS`. -/
def sortedSMS (engine : Engine Sms) (direct : Direction) (json : List Sms) : List Sms :=
  engine.sort (byDate conv) (engine.sort (byMessage conv direct) json)

end Sorting

/-! ## Merging -/

/-- A value of `combinedjson`. -/
structure Row where
  sender : List Char
  timestamp : Timestamp
  total : Option ℕ
  content : List Char
  index : List Char
  deriving DecidableEq

/-- `{ sender, timestamp, total, content, index }` -/
def Row.ofSms (m : Sms) : Row :=
  ⟨m.sender, m.timestamp, m.total, m.content, Nat.toDigits 10 m.index⟩

/-- `content += content`, `index += '-' + index`. -/
def Row.add (row : Row) (m : Sms) : Row :=
  { row with
    content := row.content ++ m.content
    index := row.index ++ '-' :: Nat.toDigits 10 m.index }

/-- A key with the number at its end. -/
def keyText (m : Sms) (n : ℕ) : List Char :=
  m.sender ++ '-' :: (m.timestamp.text ++ '-' :: Nat.toDigits 10 n)

/-- A turn of the loop over `SortedSMS`. -/
def combine (combinedjson : List (List Char × Row)) (m : Sms) : List (List Char × Row) :=
  match m.total with
  | some total => upsert (keyText m total) (Row.ofSms m) (fun row ↦ row.add m) combinedjson
  | none => upsert (keyText m m.index) (Row.ofSms m) (fun _ ↦ Row.ofSms m) combinedjson

/-- `Object.values(combinedjson)`. -/
def rows {N : Type} [LinearOrder N] (conv : Conversions N) (engine : Engine Sms)
    (direct : Direction) (json : List Sms) : List Row :=
  ((sortedSMS conv engine direct json).foldl combine []).map Prod.snd

/-! ## Deleting -/

/-- The name of the checkbox of a row. -/
def Row.checkbox (row : Row) : List Char := row.index ++ [',']

/-- The number that a text begins with. -/
def leadingDigits (s : List Char) : Option ℤ :=
  let digits := s.takeWhile Char.isDigit
  if digits = [] then none else some (numeral 10 digits : ℤ)

/-- `parseInt(s, 10)`: `NaN` is none. -/
def parseInt (s : List Char) : Option ℤ :=
  match s.dropWhile Char.isWhitespace with
  | '-' :: s => (leadingDigits s).map (- ·)
  | '+' :: s => leadingDigits s
  | s => leadingDigits s

/-- The numbers in a text, after `,` and `-` became blanks. -/
def numbersOf (ax : List Char) : List ℤ :=
  let ax := ax.map fun c ↦ if c = ',' then ' ' else c
  let ax := ax.map fun c ↦ if c = '-' then ' ' else c
  (ax.splitOn ' ').filterMap parseInt

/-- What `sms_tool` is told to delete. -/
inductive Deletion
  | nothing
  | all
  | indexes (smsnr : List ℤ)
  deriving DecidableEq

/-- `handleDelete` with the checkboxes of the rows, and with the one that checks all of them; each
question is answered with yes. -/
def handleDelete (smsn : List (List Char × Bool)) (chAll : Bool) : Deletion :=
  let checked := (smsn.filter Prod.snd).map Prod.fst
  if checked.length = 0 then .nothing
  else if checked.length = smsn.length then .all
  else
    let array := (if chAll then ["ch-all".toList] else []) ++ checked
    .indexes (numbersOf ([','].intercalate array))

/-- The indexes that are gone then. -/
def Deletion.deleted (stored : List ℕ) : Deletion → List ℤ
  | nothing => []
  | all => stored.map (↑)
  | indexes smsnr => smsnr

/-! ## Rows and messages -/

/-- The index string of some messages. -/
def indexString (ms : List Sms) : List Char :=
  ['-'].intercalate (ms.map fun m ↦ Nat.toDigits 10 m.index)

/-- The contents of some messages. -/
def contents (ms : List Sms) : List Char := (ms.map Sms.content).flatten

/-- Parts are in their order. -/
def Direction.InOrder : Direction → Sms → Sms → Prop
  | Start, a, b => ∀ s ∈ a.segment, ∀ t ∈ b.segment, s.part ≤ t.part
  | End, a, b => ∀ s ∈ a.segment, ∀ t ∈ b.segment, t.part ≤ s.part

/-- A row shows one message. -/
structure Shows (direct : Direction) (row : Row) (ms : List Sms) : Prop where
  index : row.index = indexString ms
  same : ∀ a ∈ ms, ∀ b ∈ ms, a = b ∨ a.SameMessage b
  content : ∃ ps : List Sms, ps.Perm ms ∧ ps.Pairwise direct.InOrder ∧ row.content = contents ps

/-- The rows show all messages, each of them once, and deleting some rows deletes what they
show. -/
structure Grouped (direct : Direction) (json : List Sms) (table : List Row)
    (shown : List (List Sms)) : Prop where
  shows : List.Forall₂ (Shows direct) table shown
  perm : shown.flatten.Perm json
  deletes : ∀ (checked : List Bool) (chAll : Bool), checked.length = table.length →
    ((handleDelete ((table.map Row.checkbox).zip checked) chAll).deleted
      (json.map Sms.index)).Perm
      (((shown.zip checked).filter Prod.snd).flatMap fun p ↦ p.1.map fun m ↦ (m.index : ℤ))

/-- Whatever the engine is, the messages are neither lost nor mixed. -/
def MergeLaw {N : Type} [LinearOrder N] (conv : Conversions N) (direct : Direction)
    (json : List Sms) : Prop :=
  ∀ engine : Engine Sms, ∃ shown, Grouped direct json (rows conv engine direct json) shown

/-! ## When they are not -/

/-- The number at the end of the key. -/
def Sms.number (m : Sms) : ℕ := m.total.getD m.index

/-- Of one sender and minute, no single message has the total of another message as its index, and
no two messages have the same total. -/
def KeysApart (json : List Sms) : Prop :=
  ∀ a ∈ json, ∀ b ∈ json, a.sender = b.sender → a.timestamp = b.timestamp →
    a.number = b.number → a = b ∨ a.SameMessage b

/-- The parts of a message make one text, in whatever order. -/
def OrderFree (direct : Direction) (json : List Sms) : Prop :=
  ∀ m ∈ json, ∀ ps : List Sms, ps.Nodup → (∀ a, a ∈ ps ↔ a ∈ json ∧ m.SameMessage a) →
    ∃ qs : List Sms, qs.Perm ps ∧ qs.Pairwise direct.InOrder ∧ contents ps = contents qs

/-- A list of messages as the modem has it. -/
structure Inbox where
  messages : List Sms
  nodup : (messages.map Sms.index).Nodup
  /-- The parts of a message agree. -/
  agree : ∀ a ∈ messages, ∀ b ∈ messages, a.SameMessage b →
    a.sender = b.sender ∧ a.timestamp = b.timestamp ∧ a.total = b.total

/-! ## Numbers in a text -/

section Texts

variable {c : Char} {s t : List Char} {n : ℕ} {ms : List Sms}

theorem isDigit_of_mem (h : c ∈ Nat.toDigits 10 n) : c.isDigit :=
  Nat.isDigit_of_mem_toDigits (by decide) (by decide) h

theorem not_mem_toDigits (h : c.isDigit = false) (n : ℕ) : c ∉ Nat.toDigits 10 n := by
  intro hc
  rw [isDigit_of_mem hc] at h
  cases h

theorem numbersOf_nil : numbersOf [] = [] := rfl

/-- A blank, or what becomes one, separates. -/
theorem numbersOf_append_cons (hc : c = ' ' ∨ c = ',' ∨ c = '-') (s t : List Char) :
    numbersOf (s ++ c :: t) = numbersOf s ++ numbersOf t := by
  rw [numbersOf, List.map_append, List.map_append, List.map_cons, List.map_cons]
  have hblank : (if (if c = ',' then ' ' else c) = '-' then ' ' else if c = ',' then ' ' else c) =
      ' ' := by
    rcases hc with rfl | rfl | rfl
    all_goals rfl
  rw [hblank, List.splitOn_append_cons_self, List.filterMap_append]
  rfl

theorem numbersOf_intercalate (hc : c = ' ' ∨ c = ',' ∨ c = '-') (ids : List (List Char)) :
    numbersOf ([c].intercalate ids) = ids.flatMap numbersOf := by
  induction ids with
  | nil => rfl
  | cons id ids ih =>
    cases ids with
    | nil =>
      rw [List.intercalate_singleton]
      exact (List.append_nil _).symm
    | cons id' ids =>
      rw [List.intercalate_cons_cons, List.append_assoc, List.singleton_append,
        numbersOf_append_cons hc, ih]
      rfl

theorem isWhitespace_of_isDigit (h : c.isDigit) : c.isWhitespace = false := by
  by_contra hspace
  rw [Bool.not_eq_false, Char.isWhitespace] at hspace
  simp only [Bool.or_eq_true, decide_eq_true_eq] at hspace
  rcases hspace with ((rfl | rfl) | rfl) | rfl
  all_goals exact absurd h (by decide)

theorem leadingDigits_toDigits (n : ℕ) : leadingDigits (Nat.toDigits 10 n) = some (n : ℤ) := by
  have htake : (Nat.toDigits 10 n).takeWhile Char.isDigit = Nat.toDigits 10 n := by
    have h : (Nat.toDigits 10 n ++ []).takeWhile Char.isDigit = _ :=
      List.takeWhile_append_of_pos fun c hc ↦ isDigit_of_mem hc
    rwa [List.append_nil, List.takeWhile_nil, List.append_nil] at h
  rw [leadingDigits, htake, if_neg Nat.toDigits_ne_nil, numeral_toDigits (by decide) (by decide)]

theorem parseInt_toDigits (n : ℕ) : parseInt (Nat.toDigits 10 n) = some (n : ℤ) := by
  have hvalue := leadingDigits_toDigits n
  obtain ⟨d, ds, hds⟩ := List.exists_cons_of_ne_nil (Nat.toDigits_ne_nil (n := n) (b := 10))
  have hd : d.isDigit := isDigit_of_mem (hds ▸ List.mem_cons_self)
  rw [hds] at hvalue ⊢
  rw [parseInt, List.dropWhile_cons_of_neg (by rw [isWhitespace_of_isDigit hd]; decide)]
  split
  next heq =>
    obtain ⟨rfl, -⟩ := List.cons.inj heq
    exact absurd hd (by decide)
  next heq =>
    obtain ⟨rfl, -⟩ := List.cons.inj heq
    exact absurd hd (by decide)
  next => exact hvalue

theorem numbersOf_toDigits (n : ℕ) : numbersOf (Nat.toDigits 10 n) = [(n : ℤ)] := by
  have hmap (sep : Char) (hsep : sep.isDigit = false) :
      (Nat.toDigits 10 n).map (fun c ↦ if c = sep then ' ' else c) = Nat.toDigits 10 n := by
    refine (List.map_congr_left fun c hc ↦ if_neg ?_).trans (List.map_id _)
    rintro rfl
    exact not_mem_toDigits hsep n hc
  rw [numbersOf, hmap ',' (by decide), hmap '-' (by decide),
    List.splitOn_eq_singleton (not_mem_toDigits (by decide) n), List.filterMap_cons,
    parseInt_toDigits]
  rfl

/-- The numbers in an index string. -/
theorem numbersOf_indexString (ms : List Sms) :
    numbersOf (indexString ms) = ms.map fun m ↦ (m.index : ℤ) := by
  rw [indexString, numbersOf_intercalate (.inr (.inr rfl)), List.flatMap_map]
  induction ms with
  | nil => rfl
  | cons m ms ih =>
    rw [List.flatMap_cons, numbersOf_toDigits, ih]
    rfl

theorem numbersOf_checkbox {row : Row} (h : row.index = indexString ms) :
    numbersOf row.checkbox = ms.map fun m ↦ (m.index : ℤ) := by
  rw [Row.checkbox, numbersOf_append_cons (.inr (.inl rfl)), numbersOf_nil, List.append_nil, h,
    numbersOf_indexString]

theorem indexString_append_singleton (hne : ms ≠ []) (m : Sms) :
    indexString (ms ++ [m]) = indexString ms ++ '-' :: Nat.toDigits 10 m.index := by
  induction ms with
  | nil => exact absurd rfl hne
  | cons a ms ih =>
    cases ms with
    | nil =>
      exact (List.intercalate_cons_cons.trans (List.append_assoc _ _ _)).trans
        (congrArg₂ (· ++ '-' :: ·) List.intercalate_singleton.symm
          List.intercalate_singleton)
    | cons b ms =>
      have hcons (ms : List Sms) : indexString (a :: b :: ms) =
          Nat.toDigits 10 a.index ++ '-' :: indexString (b :: ms) :=
        List.intercalate_cons_cons.trans (List.append_assoc _ _ _)
      have hrest := ih (List.cons_ne_nil b ms)
      rw [List.cons_append] at hrest
      rw [List.cons_append, List.cons_append, hcons, hcons, hrest, List.append_assoc]
      rfl

end Texts

/-! ## Rows of messages -/

/-- The row that the loop makes of some messages. -/
def Row.ofList : List Sms → Option Row
  | [] => none
  | m :: ms => some (ms.foldl Row.add (Row.ofSms m))

/-- The key of a message. -/
def Sms.key (m : Sms) : List Char := keyText m m.number

/-- A part of several. -/
def Sms.joins (m : Sms) : Bool := m.segment.isSome

section Rows

variable {row : Row} {ms : List Sms} {a b m : Sms}

theorem Row.ofList_append_singleton (hne : ms ≠ []) (m : Sms) :
    Row.ofList (ms ++ [m]) = (Row.ofList ms).map fun row ↦ row.add m := by
  obtain ⟨a, ms, rfl⟩ := List.exists_cons_of_ne_nil hne
  rw [List.cons_append, Row.ofList, List.foldl_append]
  rfl

/-- Such a row has the indexes and the contents of the messages. -/
theorem Row.of_ofList (h : Row.ofList ms = some row) :
    row.index = indexString ms ∧ row.content = contents ms := by
  induction ms using List.reverseRecOn generalizing row with
  | nil => cases h
  | append_singleton ms m ih =>
    cases ms with
    | nil =>
      obtain rfl := Option.some.inj h
      exact ⟨List.intercalate_singleton.symm, (List.append_nil _).symm⟩
    | cons a ms =>
      rw [Row.ofList_append_singleton (List.cons_ne_nil a ms)] at h
      obtain ⟨row', hrow', rfl⟩ := Option.map_eq_some_iff.mp h
      obtain ⟨hindex, hcontent⟩ := ih hrow'
      constructor
      · rw [indexString_append_singleton (List.cons_ne_nil a ms), ← hindex]
        rfl
      · rw [contents, List.map_append, List.flatten_append, ← contents, ← hcontent]
        exact congrArg (row'.content ++ ·) (List.append_nil _).symm

/-- A turn of the loop, in terms of the key. -/
theorem combine_eq (combinedjson : List (List Char × Row)) (m : Sms) :
    combine combinedjson m = upsert m.key (Row.ofSms m)
      (fun row ↦ if m.joins then row.add m else Row.ofSms m) combinedjson := by
  obtain ⟨index, sender, timestamp, content, segment⟩ := m
  cases segment
  all_goals rfl

/-- The object has the rows of the buckets. -/
theorem foldl_combine (l : List Sms) :
    (l.foldl combine []).map (Prod.map id some) =
      (gathered Sms.key Sms.joins l).map (Prod.map id Row.ofList) := by
  induction l using List.reverseRecOn with
  | nil => rfl
  | append_singleton l m ih =>
    rw [List.foldl_append, gathered_append_singleton]
    have hleft : (upsert m.key (Row.ofSms m)
        (fun row ↦ if m.joins then row.add m else Row.ofSms m) (l.foldl combine [])).map
          (Prod.map id some) =
        upsert m.key (some (Row.ofSms m)) (fun row ↦ if m.joins then row.map fun row ↦ row.add m
          else some (Row.ofSms m)) ((l.foldl combine []).map (Prod.map id some)) := by
      refine map_upsert fun p _ _ ↦ ?_
      split
      all_goals rfl
    have hright : (gather Sms.key Sms.joins (gathered Sms.key Sms.joins l) m).map
          (Prod.map id Row.ofList) =
        upsert m.key (some (Row.ofSms m)) (fun row ↦ if m.joins then row.map fun row ↦ row.add m
          else some (Row.ofSms m)) ((gathered Sms.key Sms.joins l).map
            (Prod.map id Row.ofList)) := by
      refine map_upsert fun p hp _ ↦ ?_
      split
      · exact Row.ofList_append_singleton (of_mem_gathered hp).1 m
      · rfl
    rw [List.foldl_cons, List.foldl_nil, combine_eq, hleft, hright, ih]

theorem timestamp_eq_iff {s t : Timestamp} : s = t ↔ s.text = t.text := by
  constructor
  · exact congrArg Timestamp.text
  · intro h
    cases s
    cases t
    cases h
    rfl

/-- The keys are apart if a sender, a minute and a number are. -/
theorem key_eq_iff : a.key = b.key ↔
    a.sender = b.sender ∧ a.timestamp = b.timestamp ∧ a.number = b.number := by
  constructor
  · intro h
    have hlast (m : Sms) : (m.key.splitOn '-').getLast? = some (Nat.toDigits 10 m.number) := by
      have hkey : m.key =
          (m.sender ++ '-' :: m.timestamp.text) ++ '-' :: Nat.toDigits 10 m.number := by
        rw [List.append_assoc]
        rfl
      rw [hkey, List.splitOn_append_cons_self,
        List.splitOn_eq_singleton (not_mem_toDigits (by decide) _), List.getLast?_append]
      rfl
    have hlength (m : Sms) : m.timestamp.text.length = 16 := by
      have := congrArg List.length m.timestamp.formatted
      rwa [List.length_map] at this
    have hdigits : Nat.toDigits 10 a.number = Nat.toDigits 10 b.number := by
      apply Option.some.inj
      rw [← hlast a, h, hlast b]
    obtain ⟨hsender, hrest⟩ := List.append_inj' h (by
      rw [List.length_cons, List.length_cons, List.length_append, List.length_append, hlength,
        hlength, List.length_cons, List.length_cons, hdigits])
    obtain ⟨htext, -⟩ := List.append_inj' (List.cons.inj hrest).2 (by
      rw [List.length_cons, List.length_cons, hdigits])
    exact ⟨hsender, timestamp_eq_iff.mpr htext,
      toDigits_injective (by decide) (by decide) hdigits⟩
  · rintro ⟨hsender, htimestamp, hnumber⟩
    rw [Sms.key, Sms.key, keyText, keyText, hsender, htimestamp, hnumber]

end Rows

/-! ## The order of the parts -/

section Order

variable {N : Type} {conv : Conversions N} {engine : Engine Sms} {direct : Direction}
  {json ps : List Sms} {a b m : Sms}

instance (a b : Sms) : Decidable (a.SameMessage b) :=
  inferInstanceAs (Decidable (∃ s ∈ a.segment, ∃ t ∈ b.segment, s.message = t.message))

/-- Messages of one minute have one date. -/
theorem byDate_of_timestamp (h : a.timestamp = b.timestamp) : byDate conv a b = .eq := by
  rw [byDate, h, difference_self]

/-- The second sort keeps the order of messages of one minute. -/
theorem filter_sort_byDate {p : Sms → Bool} {l : List Sms} (hcons : Consistent (byDate conv) l)
    (hp : ∀ a ∈ l, ∀ b ∈ l, p a → p b → a.timestamp = b.timestamp) :
    (engine.sort (byDate conv) l).filter p = l.filter p := by
  have hsub : (l.filter p).Sublist (engine.sort (byDate conv) l) := by
    apply engine.stable hcons List.filter_sublist
    refine List.pairwise_of_forall_mem_list fun a ha b hb ↦ byDate_of_timestamp ?_
    obtain ⟨ha, hpa⟩ := List.mem_filter.mp ha
    obtain ⟨hb, hpb⟩ := List.mem_filter.mp hb
    exact hp a ha b hb hpa hpb
  have hfilter := hsub.filter p
  rw [List.filter_filter] at hfilter
  simp only [Bool.and_self] at hfilter
  exact (hfilter.eq_of_length ((engine.perm _ _).filter p).length_eq.symm).symm

variable [LinearOrder N]

theorem sortedSMS_perm (conv : Conversions N) (engine : Engine Sms) (direct : Direction)
    (json : List Sms) : (sortedSMS conv engine direct json).Perm json :=
  (engine.perm _ _).trans (engine.perm _ _)

theorem byMessage_of_eq (hsender : a.sender = b.sender) (htimestamp : a.timestamp = b.timestamp) :
    byMessage conv direct a b =
      match direct with
      | .Start => difference a.part b.part
      | .End => difference b.part a.part :=
  if_pos ⟨htimestamp, hsender⟩

/-- The first comparison function compares the parts of one sender and minute. -/
theorem isLE_byMessage {s t : Segment} (hsender : a.sender = b.sender)
    (htimestamp : a.timestamp = b.timestamp) (hs : a.segment = some s) (ht : b.segment = some t) :
    (byMessage conv direct a b).isLE ↔
      match direct with
      | .Start => s.part ≤ t.part
      | .End => t.part ≤ s.part := by
  rw [byMessage_of_eq hsender htimestamp, Sms.part, Sms.part, hs, ht]
  cases direct
  all_goals exact isLE_difference

theorem inOrder_of_byMessage (hsender : a.sender = b.sender)
    (htimestamp : a.timestamp = b.timestamp) (h : (byMessage conv direct a b).isLE) :
    direct.InOrder a b := by
  cases direct
  all_goals
    intro s hs t ht
    exact (isLE_byMessage hsender htimestamp hs ht).mp h

/-- With consistent comparison functions the parts are in their order. -/
theorem sortedSMS_inOrder (inbox : Inbox)
    (hmessage : Consistent (byMessage conv direct) inbox.messages)
    (hdate : Consistent (byDate conv) inbox.messages) :
    (sortedSMS conv engine direct inbox.messages).Pairwise fun a b ↦
      a.SameMessage b → direct.InOrder a b := by
  have hperm := engine.perm (byMessage conv direct) inbox.messages
  refine List.pairwise_iff_forall_sublist.mpr fun {a b} hab hsame ↦ ?_
  have hmem {m : Sms} (hm : m ∈ [a, b]) : m ∈ inbox.messages :=
    (sortedSMS_perm conv engine direct inbox.messages).subset (hab.subset hm)
  have ha : a ∈ inbox.messages := hmem List.mem_cons_self
  have hb : b ∈ inbox.messages := hmem (List.mem_cons_of_mem a List.mem_cons_self)
  obtain ⟨hsender, htimestamp, -⟩ := inbox.agree a ha b hb hsame
  refine inOrder_of_byMessage hsender htimestamp (?_ : (byMessage conv direct a b).isLE)
  let p (m : Sms) : Bool := m.timestamp = a.timestamp
  have hfilter : (sortedSMS conv engine direct inbox.messages).filter p = _ :=
    filter_sort_byDate ((consistent_perm_iff hperm).mpr hdate) fun m _ n _ hm hn ↦
      (of_decide_eq_true hm).trans (of_decide_eq_true hn).symm
  have hself : [a, b].filter p = [a, b] := by
    have hpa : p a := decide_eq_true rfl
    have hpb : p b := decide_eq_true htimestamp.symm
    rw [List.filter_cons_of_pos hpa, List.filter_cons_of_pos hpb]
    rfl
  have hfirst := hab.filter p
  rw [hself, hfilter] at hfirst
  exact List.pairwise_iff_forall_sublist.mp (engine.sorted hmessage)
    (hfirst.trans List.filter_sublist)

/-- Otherwise an engine may have the messages of a minute in any order. -/
theorem exists_engine (hcons : ¬ (Consistent (byMessage conv direct) json ∧
    Consistent (byDate conv) json)) {liked : List Sms} (hliked : liked.Perm json) {p : Sms → Bool}
    (hp : ∀ a ∈ json, ∀ b ∈ json, p a → p b → a.timestamp = b.timestamp) :
    ∃ engine : Engine Sms,
      (sortedSMS conv engine direct json).filter p = liked.filter p := by
  refine ⟨Engine.liking liked, ?_⟩
  have hperm := (Engine.liking liked).perm (byMessage conv direct) json
  by_cases hdate : Consistent (byDate conv) json
  · have hmessage : ¬ Consistent (byMessage conv direct) json := fun h ↦ hcons ⟨h, hdate⟩
    have hfilter : (sortedSMS conv (Engine.liking liked) direct json).filter p = _ :=
      filter_sort_byDate ((consistent_perm_iff hperm).mpr hdate) fun a ha b hb ↦
        hp a (hperm.subset ha) b (hperm.subset hb)
    rw [hfilter, Engine.sort_liking hmessage hliked]
  · rw [sortedSMS, Engine.sort_liking (fun h ↦ hdate ((consistent_perm_iff hperm).mp h))
      (hliked.trans hperm.symm)]

end Order

/-! ## Deleting rows -/

section Delete

variable {direct : Direction} {json : List Sms} {table : List Row} {shown : List (List Sms)}

/-- The numbers in the names of the checkboxes that are checked. -/
theorem numbersOf_checked
    (h : List.Forall₂ (fun row ms ↦ row.index = indexString ms) table shown)
    (checked : List Bool) :
    (((table.map Row.checkbox).zip checked).filter Prod.snd).flatMap (fun p ↦ numbersOf p.1) =
      ((shown.zip checked).filter Prod.snd).flatMap fun p ↦ p.1.map fun m ↦ (m.index : ℤ) := by
  induction h generalizing checked with
  | nil => rfl
  | cons hrow _ ih =>
    cases checked with
    | nil => rfl
    | cons c checked =>
      cases c with
      | false => exact ih checked
      | true => exact congrArg₂ (· ++ ·) (numbersOf_checkbox hrow) (ih checked)

/-- The numbers in the names of all checkboxes. -/
theorem numbersOf_table
    (h : List.Forall₂ (fun row ms ↦ row.index = indexString ms) table shown) :
    (table.map Row.checkbox).flatMap numbersOf =
      shown.flatten.map fun m ↦ (m.index : ℤ) := by
  induction h with
  | nil => rfl
  | cons hrow _ ih =>
    rw [List.map_cons, List.flatMap_cons, numbersOf_checkbox hrow, ih, List.flatten_cons,
      List.map_append]

theorem numbersOf_chAll (chAll : Bool) (ids : List (List Char)) :
    numbersOf ([','].intercalate ((if chAll then ["ch-all".toList] else []) ++ ids)) =
      ids.flatMap numbersOf := by
  rw [numbersOf_intercalate (.inr (.inl rfl)), List.flatMap_append]
  cases chAll
  all_goals rfl

theorem deletes_of_shows
    (h : List.Forall₂ (fun row ms ↦ row.index = indexString ms) table shown)
    (hperm : shown.flatten.Perm json) (checked : List Bool) (chAll : Bool)
    (hlen : checked.length = table.length) :
    ((handleDelete ((table.map Row.checkbox).zip checked) chAll).deleted
      (json.map Sms.index)).Perm
      (((shown.zip checked).filter Prod.snd).flatMap fun p ↦ p.1.map fun m ↦ (m.index : ℤ)) := by
  rw [← numbersOf_checked h checked, handleDelete]
  dsimp only
  split
  next hnone =>
    rw [List.length_map] at hnone
    rw [List.eq_nil_of_length_eq_zero hnone]
    exact List.Perm.refl _
  next =>
    split
    next hall =>
      rw [List.length_map, List.length_filter_eq_length_iff] at hall
      have hfst : ((table.map Row.checkbox).zip checked).map Prod.fst = table.map Row.checkbox := by
        apply List.map_fst_zip
        rw [List.length_map, hlen]
      have hmap : (((table.map Row.checkbox).zip checked).flatMap fun p ↦ numbersOf p.1) =
          shown.flatten.map fun m ↦ (m.index : ℤ) := by
        rw [← numbersOf_table h]
        conv_rhs => rw [← hfst, List.flatMap_map]
      rw [List.filter_eq_self.mpr hall, hmap, Deletion.deleted, List.map_map]
      exact (hperm.map _).symm
    next =>
      rw [Deletion.deleted, numbersOf_chAll, List.flatMap_map]

end Delete

/-! ## Rows and buckets -/

section Buckets

variable {N : Type} [LinearOrder N] {conv : Conversions N} {engine : Engine Sms}
  {direct : Direction} {inbox : Inbox} {shown : List (List Sms)} {ms ns : List Sms}
  {a b m : Sms}

/-- The messages of the rows. -/
def buckets (conv : Conversions N) (engine : Engine Sms) (direct : Direction)
    (json : List Sms) : List (List Char × List Sms) :=
  gathered Sms.key Sms.joins (sortedSMS conv engine direct json)

theorem forall₂_rows (conv : Conversions N) (engine : Engine Sms) (direct : Direction)
    (json : List Sms) :
    List.Forall₂ (fun row ms ↦ Row.ofList ms = some row) (rows conv engine direct json)
      ((buckets conv engine direct json).map Prod.snd) := by
  have h := foldl_combine (sortedSMS conv engine direct json)
  rw [rows, buckets, List.forall₂_map_left_iff, List.forall₂_map_right_iff]
  have heq := List.forall₂_eq_eq_eq.symm ▸ h
  rw [List.forall₂_map_left_iff, List.forall₂_map_right_iff] at heq
  exact heq.imp fun p q hpq ↦ (congrArg Prod.snd hpq).symm

theorem mem_of_buckets {p : List Char × List Sms}
    (hp : p ∈ buckets conv engine direct inbox.messages) (ha : a ∈ p.2) :
    a ∈ inbox.messages ∧ a.key = p.1 := by
  obtain ⟨hmem, hkey⟩ := (of_mem_gathered hp).2 a ha
  exact ⟨(sortedSMS_perm conv engine direct inbox.messages).subset hmem, hkey⟩

/-- Two messages with one index are the same. -/
theorem Inbox.eq_of_index (ha : a ∈ inbox.messages) (hb : b ∈ inbox.messages)
    (h : (a.index : ℤ) = b.index) : a = b :=
  List.inj_on_of_nodup_map inbox.nodup ha hb (Int.ofNat.inj h)

theorem Inbox.eq_of_map_index (hms : ∀ a ∈ ms, a ∈ inbox.messages)
    (hns : ∀ a ∈ ns, a ∈ inbox.messages)
    (h : (ms.map fun m ↦ (m.index : ℤ)) = ns.map fun m ↦ (m.index : ℤ)) : ms = ns := by
  induction ms generalizing ns with
  | nil => exact (List.map_eq_nil_iff.mp h.symm).symm
  | cons a ms ih =>
    cases ns with
    | nil => cases h
    | cons b ns =>
      obtain ⟨hab, hrest⟩ := List.cons.inj h
      obtain ⟨ha, hms⟩ := List.forall_mem_cons.mp hms
      obtain ⟨hb, hns⟩ := List.forall_mem_cons.mp hns
      rw [Inbox.eq_of_index ha hb hab, ih hms hns hrest]

/-- An index string says which messages there are. -/
theorem Inbox.eq_of_indexString (hms : ∀ a ∈ ms, a ∈ inbox.messages)
    (hns : ∀ a ∈ ns, a ∈ inbox.messages) (h : indexString ms = indexString ns) : ms = ns := by
  apply Inbox.eq_of_map_index hms hns
  rw [← numbersOf_indexString, h, numbersOf_indexString]

theorem Inbox.nodup_messages (inbox : Inbox) : inbox.messages.Nodup := inbox.nodup.of_map _

theorem exists_of_mem_right {α β : Type} {r s : α → β → Prop} {xs : List α} {ys : List β} {y : β}
    (h : List.Forall₂ r xs ys) (h' : List.Forall₂ s xs ys) (hy : y ∈ ys) :
    ∃ x ∈ xs, r x y ∧ s x y := by
  induction h with
  | nil => cases hy
  | cons hxy _ ih =>
    cases h' with
    | cons hxy' h' =>
      rcases List.mem_cons.mp hy with rfl | hy
      · exact ⟨_, List.mem_cons_self, hxy, hxy'⟩
      · obtain ⟨x, hx, hr⟩ := ih h' hy
        exact ⟨x, List.mem_cons_of_mem _ hx, hr⟩

/-- So do the index strings of a table. -/
theorem Inbox.eq_of_table {table : List Row} {xs ys : List (List Sms)}
    (hxs : List.Forall₂ (fun row ms ↦ row.index = indexString ms) table xs)
    (hys : List.Forall₂ (fun row ms ↦ row.index = indexString ms) table ys)
    (hmemx : ∀ ms ∈ xs, ∀ a ∈ ms, a ∈ inbox.messages)
    (hmemy : ∀ ms ∈ ys, ∀ a ∈ ms, a ∈ inbox.messages) : xs = ys := by
  induction hxs generalizing ys with
  | nil =>
    cases hys
    rfl
  | cons hrow _ ih =>
    cases hys with
    | cons hrow' hrest =>
      obtain ⟨hms, hmemx⟩ := List.forall_mem_cons.mp hmemx
      obtain ⟨hns, hmemy⟩ := List.forall_mem_cons.mp hmemy
      rw [Inbox.eq_of_indexString hms hns (hrow.symm.trans hrow'), ih hrest hmemx hmemy]

/-- The rows show what is in the buckets. -/
theorem shown_eq (h : Grouped direct inbox.messages (rows conv engine direct inbox.messages)
    shown) : shown = (buckets conv engine direct inbox.messages).map Prod.snd := by
  have hrows := forall₂_rows conv engine direct inbox.messages
  apply Inbox.eq_of_table (h.shows.imp fun _ _ hrow ↦ hrow.index)
    (hrows.imp fun _ _ hrow ↦ (Row.of_ofList hrow).1)
  · exact fun ms hms a ha ↦ h.perm.subset (List.mem_flatten.mpr ⟨ms, hms, ha⟩)
  · intro ms hms a ha
    obtain ⟨p, hp, rfl⟩ := List.mem_map.mp hms
    exact (mem_of_buckets hp ha).1

/-! ## The law -/

theorem KeysApart.same_of_key (h : KeysApart inbox.messages) (ha : a ∈ inbox.messages)
    (hb : b ∈ inbox.messages) (hkey : a.key = b.key) : a = b ∨ a.SameMessage b := by
  obtain ⟨hsender, htimestamp, hnumber⟩ := key_eq_iff.mp hkey
  exact h a ha b hb hsender htimestamp hnumber

theorem Inbox.key_of_same (ha : a ∈ inbox.messages) (hb : b ∈ inbox.messages)
    (h : a.SameMessage b) : a.key = b.key := by
  obtain ⟨hsender, htimestamp, htotal⟩ := inbox.agree a ha b hb h
  obtain ⟨s, hs, t, ht, -⟩ := h
  refine key_eq_iff.mpr ⟨hsender, htimestamp, ?_⟩
  have htotals : some s.total = some t.total := by
    rw [← Option.map_some, ← Option.map_some, ← hs, ← ht]
    exact htotal
  rw [Sms.number, Sms.number, Sms.total, Sms.total, hs, ht]
  exact Option.some.inj htotals

/-- A bucket that no other message got into. -/
theorem KeysApart.apart (h : KeysApart inbox.messages) :
    Apart Sms.key Sms.joins (sortedSMS conv engine direct inbox.messages) := by
  intro a ha b hb hkey
  have hsub := (sortedSMS_perm conv engine direct inbox.messages).subset
  rcases h.same_of_key (hsub ha) (hsub hb) hkey with hab | ⟨s, hs, -⟩
  · exact .inl hab
  · exact .inr (Option.isSome_iff_exists.mpr ⟨s, hs⟩)

theorem nodup_sortedSMS (conv : Conversions N) (engine : Engine Sms) (direct : Direction)
    (inbox : Inbox) : (sortedSMS conv engine direct inbox.messages).Nodup :=
  (sortedSMS_perm conv engine direct inbox.messages).nodup_iff.mpr inbox.nodup_messages

theorem keysApart_of_grouped (h : Grouped direct inbox.messages
    (rows conv engine direct inbox.messages) shown) : KeysApart inbox.messages := by
  intro a ha b hb hsender htimestamp hnumber
  have hkey : a.key = b.key := key_eq_iff.mpr ⟨hsender, htimestamp, hnumber⟩
  have hbucket {m : Sms} (hm : m ∈ inbox.messages) :
      ∃ p ∈ buckets conv engine direct inbox.messages, p.1 = m.key ∧ m ∈ p.2 := by
    obtain ⟨ms, hms, hmem⟩ := List.mem_flatten.mp (h.perm.mem_iff.mpr hm)
    rw [shown_eq h] at hms
    obtain ⟨p, hp, rfl⟩ := List.mem_map.mp hms
    exact ⟨p, hp, (mem_of_buckets hp hmem).2.symm, hmem⟩
  obtain ⟨p, hp, hpa, hap⟩ := hbucket ha
  obtain ⟨q, hq, hqb, hbq⟩ := hbucket hb
  obtain rfl : p = q := List.inj_on_of_nodup_map (nodup_keys_gathered _ _ _) hp hq
    (hpa.trans (hkey.trans hqb.symm))
  have hshown : p.2 ∈ shown := by
    rw [shown_eq h]
    exact List.mem_map_of_mem hp
  obtain ⟨row, -, hshows, -⟩ := exists_of_mem_right h.shows h.shows hshown
  exact hshows.same a hap b hbq

/-- A bucket is one message, in some order. -/
theorem KeysApart.bucket (h : KeysApart inbox.messages) {p : List Char × List Sms}
    (hp : p ∈ buckets conv engine direct inbox.messages) (hm : m ∈ p.2) :
    p.2.Nodup ∧ ∀ a, a ∈ p.2 ↔ a ∈ inbox.messages ∧ (m = a ∨ m.SameMessage a) := by
  have hfilter : p.2 = _ :=
    eq_filter_of_mem_gathered (nodup_sortedSMS conv engine direct inbox) h.apart hp
  obtain ⟨hmem, hkey⟩ := mem_of_buckets hp hm
  constructor
  · rw [hfilter]
    exact (nodup_sortedSMS conv engine direct inbox).filter _
  · intro a
    constructor
    · intro ha
      obtain ⟨ha, hkey'⟩ := mem_of_buckets hp ha
      exact ⟨ha, h.same_of_key hmem ha (hkey.trans hkey'.symm)⟩
    · rintro ⟨ha, heq | hsame⟩
      · exact heq ▸ hm
      · rw [hfilter]
        refine List.mem_filter.mpr ⟨(sortedSMS_perm _ _ _ _).mem_iff.mpr ha, decide_eq_true ?_⟩
        exact (Inbox.key_of_same hmem ha hsame).symm.trans hkey

/-- The parts of a bucket are in their order, or their order does not matter. -/
theorem KeysApart.exists_inOrder (h : KeysApart inbox.messages)
    (horder : Consistent (byMessage conv direct) inbox.messages ∧
      Consistent (byDate conv) inbox.messages ∨ OrderFree direct inbox.messages)
    {p : List Char × List Sms} (hp : p ∈ buckets conv engine direct inbox.messages) :
    ∃ ps : List Sms, ps.Perm p.2 ∧ ps.Pairwise direct.InOrder ∧ contents p.2 = contents ps := by
  obtain ⟨m, hm⟩ := List.exists_mem_of_ne_nil p.2 (of_mem_gathered hp).1
  obtain ⟨hnodup, hmem⟩ := h.bucket hp hm
  rcases horder with ⟨hmessage, hdate⟩ | hfree
  · refine ⟨p.2, List.Perm.refl _, ?_, rfl⟩
    have hfilter : p.2 = _ :=
      eq_filter_of_mem_gathered (nodup_sortedSMS conv engine direct inbox) h.apart hp
    have hpairs : p.2.Pairwise fun a b ↦ a.SameMessage b → direct.InOrder a b := by
      rw [hfilter]
      exact (sortedSMS_inOrder inbox hmessage hdate).sublist List.filter_sublist
    refine (hpairs.and hnodup).imp_of_mem fun {a b} ha hb hab ↦ hab.1 ?_
    obtain ⟨ha, hakey⟩ := mem_of_buckets hp ha
    obtain ⟨hb, hbkey⟩ := mem_of_buckets hp hb
    exact (h.same_of_key ha hb (hakey.trans hbkey.symm)).resolve_left hab.2
  · cases hsegment : m.segment with
    | some s =>
      have hself : m.SameMessage m := ⟨s, hsegment, s, hsegment, rfl⟩
      refine hfree m ((hmem m).mp hm).1 p.2 hnodup fun a ↦ (hmem a).trans ?_
      refine and_congr_right fun _ ↦ ⟨?_, .inr⟩
      rintro (rfl | hsame)
      · exact hself
      · exact hsame
    | none =>
      refine ⟨p.2, List.Perm.refl _, List.pairwise_of_forall_mem_list fun a ha b _ ↦ ?_, rfl⟩
      have ham : a.segment = none := by
        rcases ((hmem a).mp ha).2 with rfl | ⟨s, hs, -⟩
        · exact hsegment
        · rw [hsegment] at hs
          cases hs
      cases direct
      all_goals
        intro s hs
        rw [ham] at hs
        cases hs

/-- A bucket for each message. -/
theorem exists_bucket (hm : m ∈ inbox.messages) :
    ∃ ms, (m.key, ms) ∈ buckets conv engine direct inbox.messages := by
  have hmem := (sortedSMS_perm conv engine direct inbox.messages).mem_iff.mpr hm
  have hkey : m.key ∈ (buckets conv engine direct inbox.messages).map Prod.fst :=
    key_mem_gathered hmem
  obtain ⟨⟨k, ms⟩, hp, rfl⟩ := List.mem_map.mp hkey
  exact ⟨ms, hp⟩

/-- The parts of a message in any order can be a row. -/
theorem orderFree_of_law (hapart : KeysApart inbox.messages)
    (hcons : ¬ (Consistent (byMessage conv direct) inbox.messages ∧
      Consistent (byDate conv) inbox.messages)) (hlaw : MergeLaw conv direct inbox.messages) :
    OrderFree direct inbox.messages := by
  intro m hm ps hnodup hps
  cases hsegment : m.segment with
  | none =>
    have hnil : ps = [] := by
      refine List.eq_nil_iff_forall_not_mem.mpr fun a ha ↦ ?_
      obtain ⟨-, s, hs, -⟩ := (hps a).mp ha
      rw [hsegment] at hs
      cases hs
    subst hnil
    exact ⟨[], List.Perm.refl _, List.Pairwise.nil, rfl⟩
  | some s =>
    have hself : m.SameMessage m := ⟨s, hsegment, s, hsegment, rfl⟩
    let same (a : Sms) : Bool := m.SameMessage a
    let liked := ps ++ inbox.messages.filter fun a ↦ !same a
    have hperm : liked.Perm inbox.messages := by
      have hsame : ps.Perm (inbox.messages.filter same) := by
        refine (List.perm_ext_iff_of_nodup hnodup (inbox.nodup_messages.filter _)).mpr fun a ↦ ?_
        rw [hps, List.mem_filter]
        exact and_congr_right fun _ ↦ decide_eq_true_iff.symm
      exact (hsame.append_right _).trans (List.filter_append_perm same inbox.messages)
    have htimestamp {a : Sms} (ha : a ∈ inbox.messages) (hsame : same a) :
        m.timestamp = a.timestamp :=
      (inbox.agree m hm a ha (of_decide_eq_true hsame)).2.1
    obtain ⟨engine, hengine⟩ := exists_engine hcons hperm fun a ha b hb hsa hsb ↦
      (htimestamp ha hsa).symm.trans (htimestamp hb hsb)
    have hliked : liked.filter same = ps := by
      have hps' : ps.filter same = ps :=
        List.filter_eq_self.mpr fun a ha ↦ decide_eq_true ((hps a).mp ha).2
      have hrest : (inbox.messages.filter fun a ↦ !same a).filter same = [] := by
        refine List.filter_eq_nil_iff.mpr fun a ha hsame ↦ ?_
        have hnot := (List.mem_filter.mp ha).2
        rw [hsame] at hnot
        cases hnot
      rw [List.filter_append, hps', hrest, List.append_nil]
    obtain ⟨shown, hshown⟩ := hlaw engine
    obtain ⟨ms, hms⟩ : ∃ ms, (m.key, ms) ∈ buckets conv engine direct inbox.messages :=
      exists_bucket hm
    have hfilter : ms = _ :=
      eq_filter_of_mem_gathered (nodup_sortedSMS conv engine direct inbox) hapart.apart hms
    have heq : ms = ps := by
      rw [hfilter, ← hliked, ← hengine]
      refine List.filter_congr fun a ha ↦ decide_eq_decide.mpr ?_
      have ha := (sortedSMS_perm conv engine direct inbox.messages).subset ha
      constructor
      · intro hkey
        rcases hapart.same_of_key hm ha hkey.symm with rfl | hsame
        · exact hself
        · exact hsame
      · exact fun hsame ↦ (Inbox.key_of_same hm ha hsame).symm
    have hmem : ms ∈ shown := by
      rw [shown_eq hshown]
      exact List.mem_map_of_mem hms
    have hrows := forall₂_rows conv engine direct inbox.messages
    rw [← shown_eq hshown] at hrows
    obtain ⟨row, -, hshows, hrow⟩ := exists_of_mem_right hshown.shows hrows hmem
    obtain ⟨qs, hqs, horder, hcontent⟩ := hshows.content
    rw [heq] at hqs hrow
    exact ⟨qs, hqs, horder, (Row.of_ofList hrow).2.symm.trans hcontent⟩

/-- The messages are neither lost nor mixed exactly if the keys of different messages differ, and
the comparison functions are consistent or the order of the parts does not matter. -/
theorem mergeLaw_iff (conv : Conversions N) (direct : Direction) (inbox : Inbox) :
    MergeLaw conv direct inbox.messages ↔ KeysApart inbox.messages ∧
      (Consistent (byMessage conv direct) inbox.messages ∧
        Consistent (byDate conv) inbox.messages ∨ OrderFree direct inbox.messages) := by
  constructor
  · intro hlaw
    have hapart : KeysApart inbox.messages := by
      obtain ⟨shown, hshown⟩ := hlaw (Engine.liking [])
      exact keysApart_of_grouped hshown
    refine ⟨hapart, or_iff_not_imp_left.mpr fun hcons ↦ orderFree_of_law hapart hcons hlaw⟩
  · rintro ⟨hapart, horder⟩ engine
    have hrows := forall₂_rows conv engine direct inbox.messages
    have hperm : ((buckets conv engine direct inbox.messages).map Prod.snd).flatten.Perm
        inbox.messages :=
      (flatten_gathered_perm (nodup_sortedSMS conv engine direct inbox) hapart.apart).trans
        (sortedSMS_perm conv engine direct inbox.messages)
    refine ⟨_, ?_, hperm, deletes_of_shows (hrows.imp fun _ _ hrow ↦ (Row.of_ofList hrow).1) hperm⟩
    have hgood : ∀ ms ∈ (buckets conv engine direct inbox.messages).map Prod.snd,
        (∀ a ∈ ms, ∀ b ∈ ms, a = b ∨ a.SameMessage b) ∧ ∃ ps : List Sms,
          ps.Perm ms ∧ ps.Pairwise direct.InOrder ∧ contents ms = contents ps := by
      intro ms hms
      obtain ⟨p, hp, rfl⟩ := List.mem_map.mp hms
      refine ⟨fun a ha b hb ↦ ?_, hapart.exists_inOrder horder hp⟩
      exact (((hapart.bucket hp ha).2 b).mp hb).2
    refine ((List.forall₂_and_left _ _).mpr ⟨hgood, hrows.flip⟩).flip.imp fun row ms h ↦ ?_
    obtain ⟨⟨hsame, ps, hps, hinOrder, hcontents⟩, hrow⟩ := h
    obtain ⟨hindex, hcontent⟩ := Row.of_ofList hrow
    exact ⟨hindex, hsame, ps, hps, hinOrder, hcontent.trans hcontents⟩

/-- Two parts and a message of one sender and minute; the index of the message is their number. -/
def threeMessages : Inbox where
  messages :=
    let timestamp : Timestamp := ⟨"2024-05-01 10:00".toList, by decide⟩
    [⟨0, "Play".toList, timestamp, "a".toList, some ⟨7, 1, 2, Nat.one_pos, Nat.zero_lt_two⟩⟩,
      ⟨1, "Play".toList, timestamp, "b".toList, some ⟨7, 2, 2, Nat.zero_lt_two, Nat.one_lt_two⟩⟩,
      ⟨2, "Play".toList, timestamp, "c".toList, none⟩]
  nodup := by decide
  agree := by decide

/-- They get mixed, or one is lost. -/
theorem mergeLaw_threeMessages :
    ¬ MergeLaw (⟨fun _ ↦ none, fun _ ↦ some 1714557600000⟩ : Conversions ℤ) .Start
      threeMessages.messages := by
  intro hlaw
  obtain ⟨shown, hshown⟩ := hlaw (Engine.liking [])
  have hapart : KeysApart threeMessages.messages := keysApart_of_grouped hshown
  have hnot : ¬ KeysApart threeMessages.messages := by
    rw [KeysApart]
    decide
  exact hnot hapart

end Buckets

end Wwan.SmsTool
