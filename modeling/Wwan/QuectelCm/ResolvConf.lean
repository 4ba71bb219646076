import Mathlib.Data.List.Infix
import Wwan.Lib.Lines
import Wwan.Lib.Text

/-!
# `update_resolv_conf`

The name servers of a connection are written to the front of `/etc/resolv.conf`, each tagged with
the address family and the interface, and the lines that had the tag before are dropped. The others
are read back through a buffer of 256 bytes and kept in sixteen pointers, which is enough for short
files with short lines only; and the tag is looked for as a text, so that an interface whose name is
longer loses its lines too.
-/

namespace Wwan.QuectelCm

open Lines Text

/-! ## The function -/

inductive ResolvFamily
  | v4
  | v6
  deriving DecidableEq

/-- `iptype`, as a digit. -/
def ResolvFamily.digit : ResolvFamily → UInt8
  | v4 => 52
  | v6 => 54

/-- The name of a network interface. -/
structure IfName where
  chars : List UInt8
  short : chars.length < 16
  noSpace : ∀ b ∈ chars, isspace b = false
  noNul : 0 ∉ chars

/-- The text of an address. -/
structure DnsText where
  chars : List UInt8
  short : chars.length < 64
  noNewline : nl ∉ chars
  noNul : 0 ∉ chars

/-- The arguments. -/
structure ResolvArgs where
  iptype : ResolvFamily
  ifname : IfName
  dns1 : Option DnsText
  dns2 : Option DnsText

/-- `sizeof(dns_line) - 1` less one is how much `fgets` reads at most. -/
def dnsLineLen : ℕ := 254

/-- `MAX_DNS`. -/
def maxDns : ℕ := 16

/-- What is kept of what `fgets` has read. -/
def dnsLine (p : List UInt8) : List UInt8 :=
  let s := p.takeWhile (· ≠ 0)
  if 1 < s.length ∧ s.getLast? = some nl then s.dropLast else s

/-- The loop over what `fgets` reads, with room for so many pointers in `dns_info`: `dns_match`, and
what `dns_info` points to. -/
def scanDns (tag : List UInt8) : ℕ → List (List UInt8) → ℕ × List (List UInt8)
  | _, [] => (0, [])
  | 0, _ :: _ => (0, [])
  | room + 1, p :: ps =>
    if strstr (dnsLine p) tag then
      let (dns_match, dns_info) := scanDns tag (room + 1) ps
      (dns_match + 1, dns_info)
    else
      let (dns_match, dns_info) := scanDns tag room ps
      (dns_match, dnsLine p :: dns_info)

namespace ResolvArgs

variable (a : ResolvArgs)

/-- `dns_tag`, which is `# IPV%d %s`. -/
def tag : List UInt8 := ([35, 32, 73, 80, 86, a.iptype.digit, 32] ++ a.ifname.chars).take 63

/-- `nameserver %s %s` -/
def nameserver (dns : DnsText) : List UInt8 :=
  [110, 97, 109, 101, 115, 101, 114, 118, 101, 114, 32] ++ dns.chars ++ [32] ++ a.tag

/-- The lines for the servers that are given. -/
def newLines : List (List UInt8) := (a.dns1.toList ++ a.dns2.toList).map a.nameserver

/-- The first half of the function, for a file with these contents. -/
def scan (content : List UInt8) : ℕ × List (List UInt8) :=
  scanDns a.tag maxDns (pieces dnsLineLen dnsLineLen content)

/-- The file is written anew. -/
def Rewrites (content : List UInt8) : Prop := a.dns1.isSome ∨ 0 < (a.scan content).1

instance (content : List UInt8) : Decidable (a.Rewrites content) :=
  inferInstanceAs (Decidable (_ ∨ _))

/-- What `fprintf` writes. -/
def output (content : List UInt8) : List UInt8 :=
  (a.newLines ++ (a.scan content).2).flatMap (· ++ [nl])

/-- `update_resolv_conf`, with whether the file could be opened for reading (if there is one, as
none is no file) and for writing. Returned is whether there was no error, and the file. -/
def updateResolvConf (readable writable : Bool) (f : Option (List UInt8)) :
    Bool × Option (List UInt8) :=
  if f.isSome ∧ ¬ readable then (false, f)
  else if a.Rewrites (f.getD []) then
    if writable then (true, some (a.output (f.getD []))) else (false, f)
  else (true, f)

/-! ## The law -/

/-- The line has the tag, and the name does not go on behind it. -/
def carries (l : List UInt8) : Bool :=
  l.tails.any fun s ↦ decide (a.tag <+: s) && (s.drop a.tag.length).head?.all isspace

/-- The other lines of the file. -/
def otherLines (content : List UInt8) : List (List UInt8) :=
  (linesOf content).filter fun l ↦ !a.carries l

/-- The file consists of the new lines and of the others, and does not change any more. -/
structure Law (f f' : Option (List UInt8)) : Prop where
  lines : linesOf (f'.getD []) = a.newLines ++ a.otherLines (f.getD [])
  again : ∀ readable writable, (a.updateResolvConf readable writable f').1 = true →
    (a.updateResolvConf readable writable f').2 = f'

/-! ## When it holds -/

/-- A line that is read and written as it is. -/
structure Kept (t : List UInt8) : Prop where
  nonblank : lineOf t ≠ []
  noNul : 0 ∉ lineOf t
  noTag : ¬ a.tag <:+: lineOf t
  short : (lineOf t).length ≤ dnsLineLen

/-- Every piece of a line has the tag. -/
def Gone (t : List UInt8) : Prop := ∀ p ∈ pieces dnsLineLen dnsLineLen t, strstr (dnsLine p) a.tag

/-- A file is plain, as far as it is read, when so many strings can still be kept: there is room for
the lines that stay, and the newline of each but the last of them is read with it. -/
def Plain : ℕ → List (List UInt8) → Prop
  | _, [] => True
  | room, t :: ts =>
    if a.carries (lineOf t) then (0 < room → a.Gone t) ∧ Plain room ts
    else 0 < room ∧ a.Kept t ∧ (1 < room → t.length ≤ dnsLineLen) ∧ Plain (room - 1) ts

/-- If the file is written anew it is plain, and so are the lines that stay when they were written
behind a server; if it is not, nothing was to be written. -/
def Ok (content : List UInt8) : Prop :=
  if a.Rewrites content then
    a.Plain maxDns (texts content) ∧ (a.dns1.isSome ∨ a.dns2.isSome →
      a.Plain maxDns ((a.otherLines content).map (· ++ [nl])))
  else a.dns2 = none ∧ ∀ l ∈ linesOf content, a.carries l = false

/-- What is kept of a part of the file, were there no limit to it. -/
def entries (content : List UInt8) : List (List UInt8) :=
  ((pieces dnsLineLen dnsLineLen content).map dnsLine).filter fun s ↦ !strstr s a.tag

/-- A line that should stay comes when no more strings can be kept. -/
def Misses : ℕ → List (List UInt8) → Prop
  | _, [] => False
  | room, t :: ts =>
    room = 0 ∧ a.carries (lineOf t) = false ∨ Misses (room - (a.entries t).length) ts

/-- A line that should stay is not read before the file is written anew. -/
def Lost (content : List UInt8) : Prop := a.Rewrites content ∧ a.Misses maxDns (texts content)

instance (t : List UInt8) : Decidable (a.Kept t) :=
  decidable_of_iff (lineOf t ≠ [] ∧ 0 ∉ lineOf t ∧ ¬ a.tag <:+: lineOf t ∧
    (lineOf t).length ≤ dnsLineLen) ⟨fun h ↦ ⟨h.1, h.2.1, h.2.2.1, h.2.2.2⟩,
      fun h ↦ ⟨h.nonblank, h.noNul, h.noTag, h.short⟩⟩

instance (t : List UInt8) : Decidable (a.Gone t) :=
  inferInstanceAs (Decidable (∀ p ∈ pieces dnsLineLen dnsLineLen t, _))

instance decidablePlain : (room : ℕ) → (ts : List (List UInt8)) → Decidable (a.Plain room ts)
  | _, [] => .isTrue trivial
  | room, t :: ts =>
    have := decidablePlain room ts
    have := decidablePlain (room - 1) ts
    inferInstanceAs (Decidable (if a.carries (lineOf t) then (0 < room → a.Gone t) ∧ a.Plain room ts
      else 0 < room ∧ a.Kept t ∧ (1 < room → t.length ≤ dnsLineLen) ∧ a.Plain (room - 1) ts))

instance decidableMisses : (room : ℕ) → (ts : List (List UInt8)) → Decidable (a.Misses room ts)
  | _, [] => .isFalse id
  | room, t :: ts =>
    have := decidableMisses (room - (a.entries t).length) ts
    inferInstanceAs (Decidable (_ ∨ a.Misses (room - (a.entries t).length) ts))

instance (content : List UInt8) : Decidable (a.Ok content) :=
  inferInstanceAs (Decidable (if a.Rewrites content then _ ∧ (_ → _) else _ ∧ _))

instance (content : List UInt8) : Decidable (a.Lost content) :=
  inferInstanceAs (Decidable (_ ∧ _))

end ResolvArgs

/-! ## Pieces -/

section Pieces

variable {p l : List UInt8}

/-- A line is cut at its newline. -/
theorem dnsLine_append (hne : l ≠ []) (hnul : 0 ∉ l) : dnsLine (l ++ [nl]) = l := by
  have hself : (l ++ [nl]).takeWhile (fun b ↦ b ≠ 0) = l ++ [nl] := by
    apply List.takeWhile_eq_self_iff.mpr
    intro b hb
    rcases List.mem_append.mp hb with hb | hb
    · exact decide_eq_true (ne_of_mem_of_not_mem hb hnul)
    · rw [List.mem_singleton.mp hb]
      rfl
  have hlen : 1 < (l ++ [nl]).length := by
    rw [List.length_append, List.length_singleton]
    exact Nat.succ_lt_succ (List.length_pos_iff.mpr hne)
  rw [dnsLine]
  simp only [hself]
  rw [if_pos ⟨hlen, List.getLast?_concat⟩, List.dropLast_concat]

theorem dnsLine_self (hnl : nl ∉ l) (hnul : 0 ∉ l) : dnsLine l = l := by
  have hself : l.takeWhile (fun b ↦ b ≠ 0) = l := by
    apply List.takeWhile_eq_self_iff.mpr
    intro b hb
    exact decide_eq_true (ne_of_mem_of_not_mem hb hnul)
  rw [dnsLine]
  simp only [hself]
  exact if_neg fun h ↦ hnl (List.mem_of_getLast? h.2)

/-- The string of a blank line is not cut. -/
theorem dnsLine_nl : dnsLine [nl] = [nl] := by decide

theorem isPrefix_dnsLine (p : List UInt8) : dnsLine p <+: p := by
  have hpre : p.takeWhile (fun b ↦ b ≠ 0) <+: p := List.takeWhile_prefix _
  rw [dnsLine]
  split
  · exact (List.dropLast_prefix _).trans hpre
  · exact hpre

theorem noNul_dnsLine : 0 ∉ dnsLine p := by
  intro hmem
  have hmem' : (0 : UInt8) ∈ p.takeWhile (fun b ↦ b ≠ 0) := by
    rw [dnsLine] at hmem
    split at hmem
    · exact List.dropLast_subset _ hmem
    · exact hmem
  exact absurd (List.mem_takeWhile_imp hmem') (by decide)

/-- No other string has a newline. -/
theorem nl_notMem_dnsLine (h : nl ∉ p.dropLast) (hne : dnsLine p ≠ [nl]) : nl ∉ dnsLine p := by
  obtain ⟨r, hr⟩ := List.takeWhile_prefix (fun b : UInt8 ↦ b ≠ 0) (l := p)
  rw [dnsLine] at hne ⊢
  generalize p.takeWhile (fun b : UInt8 ↦ b ≠ 0) = s at hr hne ⊢
  have hdrop : nl ∉ s.dropLast := by
    intro hmem
    apply h
    rw [← hr]
    rcases List.eq_nil_or_concat r with rfl | ⟨r, b, rfl⟩
    · rwa [List.append_nil]
    · rw [List.concat_eq_append, ← List.append_assoc, List.dropLast_concat]
      exact List.mem_append_left r (List.dropLast_subset s hmem)
  split at hne
  next hcut => rwa [if_pos hcut]
  next hcut =>
    rw [if_neg hcut]
    intro hmem
    have hs : s ≠ [] := List.ne_nil_of_mem hmem
    have hconcat := List.dropLast_append_getLast hs
    rw [← hconcat, List.mem_append, List.mem_singleton] at hmem
    have hlast : nl = s.getLast hs := hmem.resolve_left hdrop
    have hshort : ¬ 1 < s.length := fun hlong ↦
      hcut ⟨hlong, by rw [List.getLast?_eq_some_getLast hs, ← hlast]⟩
    have hnil : s.dropLast = [] := by
      apply List.eq_nil_of_length_eq_zero
      rw [List.length_dropLast]
      omega
    rw [hnil, ← hlast] at hconcat
    exact hne hconcat.symm

/-- The string of a piece is no longer than the piece. -/
theorem length_dnsLine_le (p : List UInt8) : (dnsLine p).length ≤ p.length :=
  (isPrefix_dnsLine p).length_le

end Pieces

namespace ResolvArgs

variable {a : ResolvArgs} {content t l : List UInt8}

/-! ## The tag -/

theorem tag_eq : a.tag = [35, 32, 73, 80, 86, a.iptype.digit, 32] ++ a.ifname.chars := by
  apply List.take_of_length_le
  have := a.ifname.short
  simp only [List.length_append, List.length_cons, List.length_nil]
  omega

theorem length_tag : a.tag.length < 23 := by
  have := a.ifname.short
  simp only [tag_eq, List.length_append, List.length_cons, List.length_nil]
  omega

theorem mem_tag {b : UInt8} (h : b ∈ a.tag) : b ≠ nl ∧ b ≠ 0 := by
  rw [tag_eq, List.mem_append] at h
  rcases h with h | h
  · have hbytes : nl ∉ [35, 32, 73, 80, 86, a.iptype.digit, 32] ∧
        0 ∉ [35, 32, 73, 80, 86, a.iptype.digit, 32] := by
      cases a.iptype
      all_goals decide
    exact ⟨ne_of_mem_of_not_mem h hbytes.1, ne_of_mem_of_not_mem h hbytes.2⟩
  · refine ⟨?_, ne_of_mem_of_not_mem h a.ifname.noNul⟩
    rintro rfl
    exact absurd (a.ifname.noSpace nl h) (by decide)

theorem tag_ne_nil : a.tag ≠ [] := by
  rw [tag_eq]
  exact List.cons_ne_nil _ _

/-- Neither a blank line nor the newline of another one has the tag. -/
theorem not_tag_infix_nl : ¬ a.tag <:+: [nl] := by
  intro h
  obtain ⟨b, hb⟩ := List.exists_mem_of_ne_nil a.tag tag_ne_nil
  exact (mem_tag hb).1 (List.mem_singleton.mp (h.subset hb))

theorem tag_infix_of_carries (h : a.carries l = true) : a.tag <:+: l := by
  obtain ⟨s, hs, htag⟩ := List.any_eq_true.mp h
  have hprefix : a.tag <+: s := of_decide_eq_true (Bool.and_eq_true_iff.mp htag).1
  exact hprefix.isInfix.trans ((List.mem_tails s l).mp hs).isInfix

theorem carries_nameserver (dns : DnsText) : a.carries (a.nameserver dns) = true := by
  apply List.any_eq_true.mpr
  refine ⟨a.tag, (List.mem_tails _ _).mpr ⟨_, rfl⟩, ?_⟩
  rw [Bool.and_eq_true]
  constructor
  · exact decide_eq_true (List.prefix_refl a.tag)
  · rw [List.drop_length]
    rfl

theorem nameserver_spec (dns : DnsText) :
    nl ∉ a.nameserver dns ∧ 0 ∉ a.nameserver dns ∧ (a.nameserver dns).length < dnsLineLen := by
  have hlen := length_tag (a := a)
  have hdns := dns.short
  refine ⟨fun hmem ↦ ?_, fun hmem ↦ ?_, ?_⟩
  · simp only [nameserver, List.mem_append] at hmem
    rcases hmem with ((hmem | hmem) | hmem) | hmem
    · exact absurd hmem (by decide)
    · exact dns.noNewline hmem
    · exact absurd hmem (by decide)
    · exact (mem_tag hmem).1 rfl
  · simp only [nameserver, List.mem_append] at hmem
    rcases hmem with ((hmem | hmem) | hmem) | hmem
    · exact absurd hmem (by decide)
    · exact dns.noNul hmem
    · exact absurd hmem (by decide)
    · exact (mem_tag hmem).2 rfl
  · simp only [nameserver, List.length_append, List.length_cons, List.length_nil, dnsLineLen]
    omega

/-! ## What is read -/

/-- How many lines a string is when it is written. -/
def expand (s : List UInt8) : List (List UInt8) := if s = [nl] then [[], []] else [s]

theorem expand_of_ne {s : List UInt8} (h : s ≠ [nl]) : expand s = [s] := if_neg h

theorem mem_entries {s : List UInt8} (h : s ∈ a.entries content) :
    s.length ≤ dnsLineLen ∧ 0 ∉ s ∧ ¬ a.tag <:+: s ∧ (s = [nl] ∨ nl ∉ s) := by
  obtain ⟨hmem, htag⟩ := List.mem_filter.mp h
  obtain ⟨p, hp, rfl⟩ := List.mem_map.mp hmem
  obtain ⟨hlen, hnl⟩ := of_mem_pieces (by decide) hp
  refine ⟨(length_dnsLine_le p).trans hlen, noNul_dnsLine, ?_, ?_⟩
  · simpa [strstr] using htag
  · by_cases hne : dnsLine p = [nl]
    · exact .inl hne
    · exact .inr (nl_notMem_dnsLine hnl hne)

/-- The file is read line for line. -/
theorem entries_texts (content : List UInt8) :
    a.entries content = (texts content).flatMap a.entries := by
  unfold entries
  rw [pieces_texts, List.map_flatMap, List.filter_flatMap]

/-- Sixteen strings are kept. -/
theorem scan_snd (content : List UInt8) : (a.scan content).2 = (a.entries content).take maxDns := by
  unfold scan entries
  generalize maxDns = room
  induction pieces dnsLineLen dnsLineLen content generalizing room with
  | nil => simp [scanDns]
  | cons p ps ih =>
    cases room with
    | zero => rfl
    | succ room =>
      rw [scanDns, List.map_cons]
      by_cases htag : strstr (dnsLine p) a.tag = true
      · rw [if_pos htag, List.filter_cons_of_neg (by simp [htag])]
        exact ih (room + 1)
      · rw [if_neg htag, List.filter_cons_of_pos (by simp [htag]), List.take_succ_cons]
        exact congrArg (dnsLine p :: ·) (ih room)

theorem scan_fst_pos {p : List UInt8}
    (hpieces : ∃ ps, pieces dnsLineLen dnsLineLen content = p :: ps)
    (h : strstr (dnsLine p) a.tag = true) : 0 < (a.scan content).1 := by
  obtain ⟨ps, hpieces⟩ := hpieces
  rw [scan, hpieces, maxDns, scanDns, if_pos h]
  exact Nat.succ_pos _

theorem scan_fst_zero
    (h : ∀ p ∈ pieces dnsLineLen dnsLineLen content, strstr (dnsLine p) a.tag = false) :
    (a.scan content).1 = 0 := by
  unfold scan
  generalize maxDns = room
  generalize pieces dnsLineLen dnsLineLen content = ps at h
  induction ps generalizing room with
  | nil => simp [scanDns]
  | cons p ps ih =>
    cases room with
    | zero => rfl
    | succ room =>
      have hp : ¬ strstr (dnsLine p) a.tag = true := by
        rw [h p List.mem_cons_self]
        exact Bool.false_ne_true
      rw [scanDns, if_neg hp]
      exact ih room fun q hq ↦ h q (List.mem_cons_of_mem p hq)

/-- What is written, line by line. -/
theorem output_eq (content : List UInt8) :
    a.output content =
      (a.newLines ++ (a.scan content).2.flatMap expand).flatMap (· ++ [nl]) := by
  rw [output, List.flatMap_append, List.flatMap_append, List.flatMap_assoc]
  congr 1
  refine List.flatMap_congr fun s _ ↦ ?_
  unfold expand
  split
  next h => rw [h]; rfl
  next => rw [List.flatMap_singleton]

theorem nl_notMem_newLines (h : l ∈ a.newLines) : nl ∉ l := by
  obtain ⟨dns, -, rfl⟩ := List.mem_map.mp h
  exact (nameserver_spec dns).1

theorem linesOf_output (content : List UInt8) :
    linesOf (a.output content) = a.newLines ++ (a.scan content).2.flatMap expand := by
  rw [output_eq]
  apply linesOf_flatMap
  intro l hl
  rcases List.mem_append.mp hl with hl | hl
  · exact nl_notMem_newLines hl
  · obtain ⟨s, hs, hl⟩ := List.mem_flatMap.mp hl
    rw [scan_snd] at hs
    obtain ⟨-, -, -, hnl⟩ := mem_entries (List.mem_of_mem_take hs)
    unfold expand at hl
    split at hl
    next =>
      have hnil : l = [] := by simpa using hl
      rw [hnil]
      exact List.not_mem_nil
    next hne =>
      rw [List.mem_singleton.mp hl]
      exact hnl.resolve_left hne

/-! ## Single lines -/

/-- A text that fits is read as its line. -/
theorem dnsLine_text (ht : IsText t) (hne : lineOf t ≠ []) (hnul : 0 ∉ lineOf t) :
    dnsLine t = lineOf t := by
  obtain ⟨l, hl, rfl | ⟨rfl, -⟩⟩ := ht
  · rw [lineOf_append hl []] at hne hnul ⊢
    exact dnsLine_append hne hnul
  · rw [lineOf_self hl] at hnul ⊢
    exact dnsLine_self hl hnul

theorem entries_short (ht : IsText t) (hlen : t.length ≤ dnsLineLen) :
    a.entries t = [dnsLine t].filter fun s ↦ !strstr s a.tag := by
  rw [entries, pieces_isText ht hlen, List.map_singleton]

/-- A line that is kept. -/
theorem entries_line (ht : IsText t) (hlen : t.length ≤ dnsLineLen) (hne : lineOf t ≠ [])
    (hnul : 0 ∉ lineOf t) (htag : ¬ a.tag <:+: lineOf t) : a.entries t = [lineOf t] := by
  rw [entries_short ht hlen, dnsLine_text ht hne hnul]
  simp [strstr, htag]

/-- A line of 254 bytes with its newline comes in two pieces. -/
theorem pieces_254 (hnl : nl ∉ l) (hlen : l.length = dnsLineLen) :
    pieces dnsLineLen dnsLineLen (l ++ [nl]) = [l, [nl]] := by
  have hne : l ≠ [] := by
    rintro rfl
    exact absurd hlen (by decide)
  rw [pieces_full hnl hne hlen]
  rfl

theorem entries_254 (hnl : nl ∉ l) (hlen : l.length = dnsLineLen) (hnul : 0 ∉ l)
    (htag : ¬ a.tag <:+: l) : a.entries (l ++ [nl]) = [l, [nl]] := by
  rw [entries, pieces_254 hnl hlen, List.map_cons, List.map_cons, List.map_nil,
    dnsLine_self hnl hnul, dnsLine_nl]
  simp [strstr, htag, not_tag_infix_nl]

theorem entries_blank : a.entries [nl] = [[nl]] := by
  have hpieces : pieces dnsLineLen dnsLineLen [nl] = [[nl]] := rfl
  rw [entries, hpieces, List.map_singleton, dnsLine_nl]
  simp [strstr, not_tag_infix_nl]

theorem gone_iff : a.Gone t ↔ a.entries t = [] := by
  unfold Gone entries
  rw [List.filter_eq_nil_iff, List.forall_mem_map]
  simp

/-! ## Plain files -/

/-- The lines that should stay of one text. -/
def stays (a : ResolvArgs) (t : List UInt8) : List (List UInt8) :=
  if a.carries (lineOf t) then [] else [lineOf t]

theorem stays_of_carries (hc : a.carries (lineOf t) = true) : a.stays t = [] := if_pos hc

theorem stays_of_not_carries (hc : ¬ a.carries (lineOf t) = true) : a.stays t = [lineOf t] :=
  if_neg hc

theorem flatMap_stays (content : List UInt8) :
    (texts content).flatMap a.stays = a.otherLines content := by
  rw [otherLines, linesOf]
  induction texts content with
  | nil => rfl
  | cons t ts ih =>
    rw [List.flatMap_cons, List.map_cons, ih]
    by_cases hc : a.carries (lineOf t) = true
    · rw [stays_of_carries hc, List.nil_append, List.filter_cons_of_neg (by simp [hc])]
    · rw [stays_of_not_carries hc, List.singleton_append, List.filter_cons_of_pos (by simp [hc])]

/-- A line that is kept is the first string of its text, and the newline another one if the text
does not fit. -/
theorem entries_kept (ht : IsText t) (h : a.Kept t) :
    t.length ≤ dnsLineLen ∧ a.entries t = [lineOf t] ∨
      ¬ t.length ≤ dnsLineLen ∧ a.entries t = [lineOf t, [nl]] := by
  by_cases hfits : t.length ≤ dnsLineLen
  · exact .inl ⟨hfits, entries_line ht hfits h.nonblank h.noNul h.noTag⟩
  · refine .inr ⟨hfits, ?_⟩
    obtain ⟨hnonblank, hnul, htag, hlen⟩ := h
    obtain ⟨l, hl, rfl | ⟨rfl, -⟩⟩ := ht
    · rw [lineOf_append hl []] at hnul htag hlen ⊢
      rw [List.length_append, List.length_singleton] at hfits
      exact entries_254 hl (by omega) hnul htag
    · rw [lineOf_self hl] at hlen
      exact absurd hlen hfits

/-- The room that is left behind a line that stays. -/
theorem room_sub {room : ℕ} (hroom : 0 < room) (ht : IsText t) (h : a.Kept t)
    (hfits : 1 < room → t.length ≤ dnsLineLen) :
    (a.entries t).take room = [lineOf t] ∧ room - (a.entries t).length = room - 1 := by
  rcases entries_kept ht h with ⟨-, hentries⟩ | ⟨hlong, hentries⟩
  · rw [hentries]
    exact ⟨List.take_of_length_le hroom, rfl⟩
  · obtain rfl : room = 1 := Nat.le_antisymm (Nat.not_lt.mp fun hlt ↦ hlong (hfits hlt)) hroom
    rw [hentries]
    exact ⟨rfl, rfl⟩

/-- The room that is left behind a line that goes. -/
theorem room_of_gone {room : ℕ} (h : 0 < room → a.Gone t) :
    (a.entries t).take room = [] ∧ room - (a.entries t).length = room := by
  rcases Nat.eq_zero_or_pos room with rfl | hpos
  · exact ⟨List.take_zero, Nat.zero_sub _⟩
  · rw [gone_iff.mp (h hpos)]
    exact ⟨List.take_nil, Nat.sub_zero room⟩

/-- Plain texts are read as the lines that stay. -/
theorem Plain.take_entries {room : ℕ} {ts : List (List UInt8)} (hts : ∀ t ∈ ts, IsText t)
    (h : a.Plain room ts) : (ts.flatMap a.entries).take room = ts.flatMap a.stays := by
  induction ts generalizing room with
  | nil => exact List.take_nil
  | cons t ts ih =>
    have hrest := fun t' ht' ↦ hts t' (List.mem_cons_of_mem t ht')
    rw [List.flatMap_cons, List.flatMap_cons, List.take_append]
    rw [Plain] at h
    split at h
    next hc =>
      obtain ⟨htake, hroom⟩ := room_of_gone h.1
      rw [htake, hroom, ih hrest h.2, stays_of_carries hc]
    next hc =>
      obtain ⟨hpos, hkept, hfits, h⟩ := h
      obtain ⟨htake, hroom⟩ := room_sub hpos (hts t List.mem_cons_self) hkept hfits
      rw [htake, hroom, ih hrest h, stays_of_not_carries hc]

/-- Every line of plain texts that stays is read. -/
theorem Plain.not_misses {room : ℕ} {ts : List (List UInt8)} (hts : ∀ t ∈ ts, IsText t)
    (h : a.Plain room ts) : ¬ a.Misses room ts := by
  induction ts generalizing room with
  | nil => exact id
  | cons t ts ih =>
    have hrest := fun t' ht' ↦ hts t' (List.mem_cons_of_mem t ht')
    rw [Plain] at h
    rw [Misses]
    split at h
    next hc =>
      rw [(room_of_gone h.1).2]
      exact not_or.mpr ⟨fun hmiss ↦ absurd (hc.symm.trans hmiss.2) (by decide), ih hrest h.2⟩
    next hc =>
      obtain ⟨hpos, hkept, hfits, h⟩ := h
      rw [(room_sub hpos (hts t List.mem_cons_self) hkept hfits).2]
      exact not_or.mpr ⟨fun hmiss ↦ Nat.ne_of_gt hpos hmiss.1, ih hrest h⟩

theorem Plain.kept {room : ℕ} {ts : List (List UInt8)} (h : a.Plain room ts) :
    ∀ t ∈ ts, ¬ a.carries (lineOf t) = true → a.Kept t := by
  induction ts generalizing room with
  | nil => exact fun t ht ↦ absurd ht List.not_mem_nil
  | cons t ts ih =>
    rw [Plain] at h
    intro t' ht' hc'
    split at h
    next hc =>
      rcases List.mem_cons.mp ht' with rfl | ht'
      · exact absurd hc hc'
      · exact ih h.2 t' ht' hc'
    next hc =>
      rcases List.mem_cons.mp ht' with rfl | ht'
      · exact h.2.1
      · exact ih h.2.2.2 t' ht' hc'

theorem isText_texts (content : List UInt8) : ∀ t ∈ texts content, IsText t :=
  fun _ ht ↦ isText_of_mem ht

theorem scan_plain (h : a.Plain maxDns (texts content)) :
    (a.scan content).2 = a.otherLines content := by
  rw [scan_snd, entries_texts, h.take_entries (isText_texts content), flatMap_stays]

/-- The lines that stay are those of texts that are kept. -/
theorem exists_kept (h : a.Plain maxDns (texts content)) (hl : l ∈ a.otherLines content) :
    ∃ t ∈ texts content, lineOf t = l ∧ a.Kept t := by
  obtain ⟨hmem, hc⟩ := List.mem_filter.mp hl
  obtain ⟨t, ht, rfl⟩ := List.mem_map.mp hmem
  exact ⟨t, ht, rfl, h.kept t ht (by simpa using hc)⟩

theorem flatMap_expand {ls : List (List UInt8)} (h : ∀ l ∈ ls, nl ∉ l) :
    ls.flatMap expand = ls := by
  induction ls with
  | nil => rfl
  | cons l ls ih =>
    have hne : l ≠ [nl] := by
      rintro rfl
      exact h [nl] List.mem_cons_self List.mem_cons_self
    rw [List.flatMap_cons, expand_of_ne hne, List.singleton_append,
      ih fun l' hl' ↦ h l' (List.mem_cons_of_mem l hl')]

theorem nl_notMem_otherLines (hl : l ∈ a.otherLines content) : nl ∉ l := by
  obtain ⟨t, -, rfl⟩ := List.mem_map.mp (List.mem_of_mem_filter hl)
  exact nl_notMem_lineOf

/-- The texts of a file that was written with the lines that stay. -/
theorem texts_output (h : (a.scan content).2 = a.otherLines content) :
    texts (a.output content) = (a.newLines ++ a.otherLines content).map (· ++ [nl]) := by
  rw [output, h]
  apply texts_flatMap
  intro l hl
  rcases List.mem_append.mp hl with hl | hl
  · exact nl_notMem_newLines hl
  · exact nl_notMem_otherLines hl

/-- A new line is read as one piece, with the tag. -/
theorem newLine_spec (h : l ∈ a.newLines) :
    pieces dnsLineLen dnsLineLen (l ++ [nl]) = [l ++ [nl]] ∧
      strstr (dnsLine (l ++ [nl])) a.tag = true := by
  obtain ⟨dns, -, rfl⟩ := List.mem_map.mp h
  obtain ⟨hnl, hnul, hlen⟩ := nameserver_spec (a := a) dns
  have htag := tag_infix_of_carries (carries_nameserver (a := a) dns)
  have hne : a.nameserver dns ≠ [] := by
    intro hnil
    rw [hnil] at htag
    exact tag_ne_nil (List.infix_nil.mp htag)
  constructor
  · apply pieces_isText ⟨_, hnl, .inl rfl⟩
    rw [List.length_append, List.length_singleton]
    exact hlen
  · rw [dnsLine_append hne hnul]
    exact strstr_iff.mpr htag

/-- What was written is read without the new lines. -/
theorem entries_output (h : (a.scan content).2 = a.otherLines content) :
    a.entries (a.output content) =
      ((a.otherLines content).map (· ++ [nl])).flatMap a.entries := by
  have hnew : (a.newLines.map (· ++ [nl])).flatMap a.entries = [] := by
    apply List.flatMap_eq_nil_iff.mpr
    intro t ht
    obtain ⟨l, hl, rfl⟩ := List.mem_map.mp ht
    obtain ⟨hpieces, htag⟩ := newLine_spec hl
    refine gone_iff.mp fun p hp ↦ ?_
    rw [hpieces] at hp
    rw [List.mem_singleton.mp hp]
    exact htag
  rw [entries_texts, texts_output h, List.map_append, List.flatMap_append, hnew, List.nil_append]

/-- Lines that stay when they were written. -/
theorem isText_written (ls : List (List UInt8)) (h : ∀ l ∈ ls, nl ∉ l) :
    ∀ t ∈ ls.map (· ++ [nl]), IsText t := by
  intro t ht
  obtain ⟨l, hl, rfl⟩ := List.mem_map.mp ht
  exact ⟨l, h l hl, .inl rfl⟩

theorem flatMap_stays_written (content : List UInt8) :
    ((a.otherLines content).map (· ++ [nl])).flatMap a.stays = a.otherLines content := by
  rw [List.flatMap_map]
  refine (List.flatMap_congr fun l hl ↦ ?_).trans (List.flatMap_singleton' _)
  have hline : lineOf (l ++ [nl]) = l := lineOf_append (nl_notMem_otherLines hl) []
  have hc := (List.mem_filter.mp hl).2
  rw [stays_of_not_carries (by simpa [hline] using hc), hline]

/-! ## A second call -/

/-- A server to write makes a file that was written be written anew. -/
theorem rewrites_output (h : (a.scan content).2 = a.otherLines content)
    (hgiven : a.dns1.isSome ∨ a.dns2.isSome) : a.Rewrites (a.output content) := by
  cases hnew : a.newLines with
  | nil =>
    rw [newLines, List.map_eq_nil_iff, List.append_eq_nil_iff] at hnew
    rcases hgiven with hgiven | hgiven
    · obtain ⟨dns, hdns⟩ := Option.isSome_iff_exists.mp hgiven
      rw [hdns] at hnew
      exact absurd hnew.1 (List.cons_ne_nil _ _)
    · obtain ⟨dns, hdns⟩ := Option.isSome_iff_exists.mp hgiven
      rw [hdns] at hnew
      exact absurd hnew.2 (List.cons_ne_nil _ _)
  | cons l ls =>
    obtain ⟨hpieces, htag⟩ := newLine_spec (hnew ▸ List.mem_cons_self : l ∈ a.newLines)
    refine .inr (scan_fst_pos ⟨((ls ++ a.otherLines content).map (· ++ [nl])).flatMap
      (pieces dnsLineLen dnsLineLen), ?_⟩ htag)
    rw [pieces_texts, texts_output h, hnew, List.cons_append, List.map_cons, List.flatMap_cons,
      hpieces, List.singleton_append]

/-- A line that is kept is read without the tag when it was written. -/
theorem pieces_kept (h : a.Kept t) : ∀ p ∈ pieces dnsLineLen dnsLineLen (lineOf t ++ [nl]),
    strstr (dnsLine p) a.tag = false := by
  have htag : strstr (lineOf t) a.tag = false := by
    rw [← Bool.not_eq_true, strstr_iff]
    exact h.noTag
  have hnewline : strstr [nl] a.tag = false := by
    rw [← Bool.not_eq_true, strstr_iff]
    exact not_tag_infix_nl
  intro p hp
  rcases Nat.lt_or_eq_of_le h.short with hlt | heq
  · have hfits : (lineOf t ++ [nl]).length ≤ dnsLineLen := by
      rw [List.length_append, List.length_singleton]
      exact hlt
    rw [pieces_isText ⟨_, nl_notMem_lineOf, .inl rfl⟩ hfits] at hp
    rw [List.mem_singleton.mp hp, dnsLine_append h.nonblank h.noNul]
    exact htag
  · rw [pieces_254 nl_notMem_lineOf heq] at hp
    rcases List.mem_cons.mp hp with rfl | hp
    · rw [dnsLine_self nl_notMem_lineOf h.noNul]
      exact htag
    · rw [List.mem_singleton.mp hp, dnsLine_nl]
      exact hnewline

/-- Without a server to write, a file that was written stays. -/
theorem not_rewrites_output (h : a.Plain maxDns (texts content)) (h₁ : a.dns1 = none)
    (h₂ : a.dns2 = none) : ¬ a.Rewrites (a.output content) := by
  have hnew : a.newLines = [] := by rw [newLines, h₁, h₂]; rfl
  have hzero : (a.scan (a.output content)).1 = 0 := by
    apply scan_fst_zero
    rw [pieces_texts, texts_output (scan_plain h), hnew, List.nil_append]
    intro p hp
    obtain ⟨t, ht, hp⟩ := List.mem_flatMap.mp hp
    obtain ⟨l, hl, rfl⟩ := List.mem_map.mp ht
    obtain ⟨t, -, rfl, hk⟩ := exists_kept h hl
    exact pieces_kept hk p hp
  rintro (hsome | hpos)
  · rw [h₁] at hsome
    exact absurd hsome Bool.false_ne_true
  · exact absurd hpos (hzero ▸ Nat.lt_irrefl 0)

/-! ## The law -/

/-- What a call without an error leaves. -/
theorem updateResolvConf_snd {readable writable : Bool} {f : Option (List UInt8)}
    (h : (a.updateResolvConf readable writable f).1 = true) :
    (a.updateResolvConf readable writable f).2 =
      if a.Rewrites (f.getD []) then some (a.output (f.getD [])) else f := by
  unfold updateResolvConf at h ⊢
  split at h
  next => exact absurd h Bool.false_ne_true
  next hopen =>
    rw [if_neg hopen]
    split at h
    next hrewrites =>
      rw [if_pos hrewrites, if_pos hrewrites]
      split at h
      next hwrite => rw [if_pos hwrite]
      next => exact absurd h Bool.false_ne_true
    next hrewrites => rw [if_neg hrewrites, if_neg hrewrites]

theorem law_of_ok {f : Option (List UInt8)} (h : a.Ok (f.getD [])) :
    a.Law f (if a.Rewrites (f.getD []) then some (a.output (f.getD [])) else f) := by
  unfold Ok at h
  split at h
  next hrewrites =>
    obtain ⟨h, hwritten⟩ := h
    rw [if_pos hrewrites]
    constructor
    · rw [Option.getD_some, linesOf_output, scan_plain h,
        flatMap_expand fun l hl ↦ nl_notMem_otherLines hl]
    · intro readable writable hok
      rw [updateResolvConf_snd hok, Option.getD_some]
      by_cases hgiven : a.dns1.isSome ∨ a.dns2.isSome
      · have hread : (a.scan (a.output (f.getD []))).2 = a.otherLines (f.getD []) := by
          rw [scan_snd, entries_output (scan_plain h), (hwritten hgiven).take_entries
            (isText_written _ fun l hl ↦ nl_notMem_otherLines hl), flatMap_stays_written]
        rw [if_pos (rewrites_output (scan_plain h) hgiven), output, hread, output, scan_plain h]
      · obtain ⟨h₁, h₂⟩ := not_or.mp hgiven
        rw [Option.not_isSome_iff_eq_none] at h₁ h₂
        exact if_neg (not_rewrites_output h h₁ h₂)
  next hrewrites =>
    obtain ⟨h₂, hcarries⟩ := h
    have h₁ : a.dns1 = none := by
      rw [← Option.not_isSome_iff_eq_none]
      exact fun hsome ↦ hrewrites (.inl hsome)
    rw [if_neg hrewrites]
    constructor
    · rw [newLines, h₁, h₂, otherLines, List.filter_eq_self.mpr]
      · rfl
      · intro l hl
        rw [hcarries l hl]
        rfl
    · intro readable writable hok
      rw [updateResolvConf_snd hok, if_neg hrewrites]

/-! ## The converse -/

section Converse

variable {room : ℕ}

/-- How many lines come of a text, while so many strings can still be kept. -/
def written (a : ResolvArgs) (room : ℕ) (t : List UInt8) : ℕ :=
  (((a.entries t).take room).flatMap expand).length

/-- Nothing comes of a text that goes. -/
theorem gone_of_written (hpos : 0 < room) (h : a.written room t = 0) : a.Gone t := by
  apply gone_iff.mpr
  cases hentries : a.entries t with
  | nil => rfl
  | cons s ss =>
    obtain ⟨r, rfl⟩ := Nat.exists_eq_add_of_lt hpos
    rw [written, hentries, Nat.zero_add, List.take_succ_cons, List.flatMap_cons,
      List.length_append] at h
    have hsome : 0 < (expand s).length := by
      unfold expand
      split
      · exact Nat.succ_pos _
      · exact Nat.succ_pos _
    omega

/-- A line comes of a text that does not have the tag, and more if it is blank or its newline is
read by itself. -/
theorem kept_of_written (ht : IsText t) (hpos : 0 < room) (hnul : 0 ∉ lineOf t)
    (htag : ¬ a.tag <:+: lineOf t) (hlen : (lineOf t).length ≤ dnsLineLen) :
    1 ≤ a.written room t ∧
      (a.written room t = 1 → a.Kept t ∧ (1 < room → t.length ≤ dnsLineLen)) := by
  obtain ⟨r, rfl⟩ := Nat.exists_eq_add_of_lt hpos
  rw [Nat.zero_add]
  by_cases hblank : lineOf t = []
  · have htext : t = [nl] := by
      obtain ⟨l, hl, rfl | ⟨rfl, hne⟩⟩ := ht
      · rw [lineOf_append hl []] at hblank
        rw [hblank, List.nil_append]
      · rw [lineOf_self hl] at hblank
        exact absurd hblank hne
    have htwo : a.written (r + 1) t = 2 := by
      rw [written, htext, entries_blank, List.take_succ_cons, List.take_nil]
      rfl
    rw [htwo]
    exact ⟨by decide, fun h ↦ absurd h (by decide)⟩
  · have hkept : a.Kept t := ⟨hblank, hnul, htag, hlen⟩
    have hne : lineOf t ≠ [nl] := fun h ↦ nl_notMem_lineOf (h ▸ List.mem_cons_self)
    rcases entries_kept ht hkept with ⟨hfits, hentries⟩ | ⟨-, hentries⟩
    · rw [written, hentries, List.take_succ_cons, List.take_nil, List.flatMap_singleton,
        expand_of_ne hne]
      exact ⟨Nat.le_refl 1, fun _ ↦ ⟨hkept, fun _ ↦ hfits⟩⟩
    · cases r with
      | zero =>
        rw [written, hentries, List.take_succ_cons, List.take_zero, List.flatMap_singleton,
          expand_of_ne hne]
        exact ⟨Nat.le_refl 1, fun _ ↦ ⟨hkept, fun hlt ↦ absurd hlt (Nat.lt_irrefl 1)⟩⟩
      | succ r =>
        have hthree : a.written (r + 2) t = 3 := by
          rw [written, hentries, List.take_succ_cons, List.take_succ_cons, List.take_nil,
            List.flatMap_cons, expand_of_ne hne]
          rfl
        rw [hthree]
        exact ⟨by decide, fun h ↦ absurd h (by decide)⟩

/-- If no text is missed, at least as many lines come of the texts as should stay of them, and more
unless they are plain. -/
theorem plain_of_length {ts : List (List UInt8)} (hts : ∀ t ∈ ts, IsText t)
    (hmisses : ¬ a.Misses room ts)
    (hok : ∀ l ∈ ts.flatMap a.stays, 0 ∉ l ∧ ¬ a.tag <:+: l ∧ l.length ≤ dnsLineLen) :
    (ts.flatMap a.stays).length ≤ (((ts.flatMap a.entries).take room).flatMap expand).length ∧
      ((((ts.flatMap a.entries).take room).flatMap expand).length = (ts.flatMap a.stays).length →
        a.Plain room ts) := by
  induction ts generalizing room with
  | nil => exact ⟨Nat.zero_le _, fun _ ↦ trivial⟩
  | cons t ts ih =>
    rw [Misses, not_or] at hmisses
    rw [List.flatMap_cons] at hok
    have hlen : (((List.flatMap a.entries (t :: ts)).take room).flatMap expand).length =
        a.written room t +
          (((ts.flatMap a.entries).take (room - (a.entries t).length)).flatMap expand).length := by
      rw [List.flatMap_cons, List.take_append, List.flatMap_append, List.length_append, written]
    obtain ⟨hle, heq⟩ := ih (fun t' ht' ↦ hts t' (List.mem_cons_of_mem t ht')) hmisses.2
      fun l hl ↦ hok l (List.mem_append_right _ hl)
    rw [hlen, List.flatMap_cons, List.length_append, Plain]
    by_cases hc : a.carries (lineOf t) = true
    · rw [stays_of_carries hc, List.length_nil, Nat.zero_add, if_pos hc]
      refine ⟨Nat.le_add_left_of_le hle, fun h ↦ ?_⟩
      have hgone : 0 < room → a.Gone t := fun hpos ↦ gone_of_written hpos (by omega)
      rw [(room_of_gone hgone).2] at h hle heq
      exact ⟨hgone, heq (by omega)⟩
    · rw [stays_of_not_carries hc, List.length_singleton, if_neg hc]
      rw [stays_of_not_carries hc] at hok
      obtain ⟨hnul, htag, hline⟩ := hok (lineOf t) (List.mem_append_left _ List.mem_cons_self)
      have hpos : 0 < room := Nat.pos_of_ne_zero fun hzero ↦ hmisses.1 ⟨hzero, by simpa using hc⟩
      obtain ⟨hone, hkept⟩ := kept_of_written (hts t List.mem_cons_self) hpos hnul htag hline
      refine ⟨Nat.add_le_add hone hle, fun h ↦ ?_⟩
      obtain ⟨hkept, hfits⟩ := hkept (by omega)
      have hroom := (room_sub hpos (hts t List.mem_cons_self) hkept hfits).2
      rw [hroom] at h hle heq
      exact ⟨hpos, hkept, hfits, heq (by omega)⟩

/-- The lines of a file that was written anew. -/
theorem expand_of_lines (h : linesOf (a.output content) = a.newLines ++ ls) :
    ((a.entries content).take maxDns).flatMap expand = ls := by
  rw [linesOf_output, scan_snd] at h
  exact List.append_cancel_left h

/-- If the right lines are left of a file and none was missed, it is plain. -/
theorem plain_of_lines (hlines : linesOf (a.output content) = a.newLines ++ a.otherLines content)
    (hmisses : ¬ a.Misses maxDns (texts content)) : a.Plain maxDns (texts content) := by
  have hexpand := expand_of_lines hlines
  refine (plain_of_length (isText_texts content) hmisses fun l hl ↦ ?_).2 ?_
  · rw [flatMap_stays, ← hexpand] at hl
    obtain ⟨s, hs, hl⟩ := List.mem_flatMap.mp hl
    obtain ⟨hlen, hnul, htag, -⟩ := mem_entries (List.mem_of_mem_take hs)
    unfold expand at hl
    split at hl
    next =>
      have hnil : l = [] := by simpa using hl
      rw [hnil]
      exact ⟨List.not_mem_nil, fun h ↦ tag_ne_nil (List.infix_nil.mp h), Nat.zero_le _⟩
    next =>
      rw [List.mem_singleton.mp hl]
      exact ⟨hnul, htag, hlen⟩
  · rw [← entries_texts, flatMap_stays, hexpand]

/-- Lines that were written are plain if no newline is read by itself. -/
theorem plain_of_nl_notMem {ls : List (List UInt8)} (hroom : ls.length ≤ room)
    (hls : ∀ l ∈ ls, nl ∉ l ∧ a.carries l = false ∧ a.Kept (l ++ [nl]))
    (h : [nl] ∉ ((ls.map (· ++ [nl])).flatMap a.entries).take room) :
    a.Plain room (ls.map (· ++ [nl])) := by
  induction ls generalizing room with
  | nil => trivial
  | cons l ls ih =>
    obtain ⟨hnl, hc, hkept⟩ := hls l List.mem_cons_self
    have hline : lineOf (l ++ [nl]) = l := lineOf_append hnl []
    have hpos : 0 < room := Nat.lt_of_lt_of_le (Nat.succ_pos _) hroom
    rw [List.map_cons, List.flatMap_cons, List.take_append, List.mem_append, not_or] at h
    have hfits : 1 < room → (l ++ [nl]).length ≤ dnsLineLen := by
      intro hlt
      rcases entries_kept ⟨l, hnl, .inl rfl⟩ hkept with ⟨hfits, -⟩ | ⟨-, hentries⟩
      · exact hfits
      · rw [hentries, List.take_of_length_le hlt] at h
        exact absurd (List.mem_cons_of_mem _ List.mem_cons_self) h.1
    have hsub := (room_sub hpos ⟨l, hnl, .inl rfl⟩ hkept hfits).2
    rw [hsub] at h
    rw [List.map_cons, Plain, hline, if_neg (by simp [hc])]
    refine ⟨hpos, hkept, hfits, ih ?_ (fun l' hl' ↦ hls l' (List.mem_cons_of_mem l hl')) h.2⟩
    rw [List.length_cons] at hroom
    omega

/-- If the right lines are left after another call too, the lines that stay are plain when they were
written. -/
theorem plain_of_again (hplain : a.Plain maxDns (texts content))
    (hagain : linesOf (a.output (a.output content)) = a.newLines ++ a.otherLines content) :
    a.Plain maxDns ((a.otherLines content).map (· ++ [nl])) := by
  have hscan := scan_plain hplain
  have hexpand := expand_of_lines hagain
  rw [entries_output hscan] at hexpand
  have hls : ∀ l ∈ a.otherLines content,
      nl ∉ l ∧ a.carries l = false ∧ a.Kept (l ++ [nl]) := by
    intro l hl
    obtain ⟨t, -, rfl, hkept⟩ := exists_kept hplain hl
    have hline : lineOf (lineOf t ++ [nl]) = lineOf t := lineOf_append nl_notMem_lineOf []
    refine ⟨nl_notMem_lineOf, by simpa using (List.mem_filter.mp hl).2, ?_⟩
    obtain ⟨hnonblank, hnul, htag, hlen⟩ := hkept
    exact ⟨by rwa [hline], by rwa [hline], by rwa [hline], by rwa [hline]⟩
  apply plain_of_nl_notMem
  · rw [← hscan, scan_snd]
    exact List.length_take_le ..
  · exact hls
  · intro hmem
    -- then a blank line was written
    have hblank : [] ∈ a.otherLines content := by
      rw [← hexpand]
      exact List.mem_flatMap.mpr ⟨[nl], hmem, by simp [expand]⟩
    obtain ⟨hnl, -, hkept⟩ := hls [] hblank
    exact hkept.nonblank (lineOf_append hnl [])

end Converse

/-- A line for a server is found. -/
theorem scan_pos_of_nameserver {content : List UInt8} {dns : DnsText} {ls : List (List UInt8)}
    (h : linesOf content = a.nameserver dns :: ls) : 0 < (a.scan content).1 := by
  cases htexts : texts content with
  | nil =>
    rw [linesOf, htexts] at h
    exact absurd h (List.cons_ne_nil _ _).symm
  | cons t ts =>
    rw [linesOf, htexts, List.map_cons] at h
    have hline : lineOf t = a.nameserver dns := (List.cons.inj h).1
    obtain ⟨-, hnul, hlen⟩ := nameserver_spec (a := a) dns
    have htag := tag_infix_of_carries (carries_nameserver (a := a) dns)
    have hne : lineOf t ≠ [] := by
      intro hnil
      rw [← hline, hnil] at htag
      exact tag_ne_nil (List.infix_nil.mp htag)
    have ht : IsText t := isText_of_mem (htexts ▸ List.mem_cons_self)
    have hpieces : pieces dnsLineLen dnsLineLen t = [t] :=
      pieces_isText ht ((length_le_lineOf ht).trans (hline ▸ hlen))
    refine scan_fst_pos (p := t) ⟨ts.flatMap (pieces dnsLineLen dnsLineLen), ?_⟩ ?_
    · rw [pieces_texts, htexts, List.flatMap_cons, hpieces, List.singleton_append]
    · rw [dnsLine_text ht hne (hline ▸ hnul), hline]
      exact strstr_iff.mpr htag

/-- What is left is right and no line was missed only if the file was plain. -/
theorem ok_of_law {f : Option (List UInt8)} (hlost : ¬ a.Lost (f.getD []))
    (h : a.Law f (if a.Rewrites (f.getD []) then some (a.output (f.getD [])) else f)) :
    a.Ok (f.getD []) := by
  unfold Ok
  split
  next hrewrites =>
    rw [if_pos hrewrites] at h
    have hlines := h.lines
    rw [Option.getD_some] at hlines
    have hplain := plain_of_lines hlines fun hmisses ↦ hlost ⟨hrewrites, hmisses⟩
    refine ⟨hplain, fun hgiven ↦ plain_of_again hplain ?_⟩
    have hrewritten := rewrites_output (scan_plain hplain) hgiven
    have hok : (a.updateResolvConf true true (some (a.output (f.getD [])))).1 = true := by
      unfold updateResolvConf
      rw [if_neg (by simp), Option.getD_some, if_pos hrewritten, if_pos rfl]
    have hagain := h.again true true hok
    rw [updateResolvConf_snd hok, Option.getD_some, if_pos hrewritten, Option.some.injEq] at hagain
    rw [hagain, hlines]
  next hrewrites =>
    rw [if_neg hrewrites] at h
    obtain ⟨h₁, hzero⟩ := not_or.mp hrewrites
    rw [Option.not_isSome_iff_eq_none] at h₁
    have hlines := h.lines
    cases h₂ : a.dns2 with
    | none =>
      rw [newLines, h₁, h₂] at hlines
      refine ⟨rfl, fun l hl ↦ ?_⟩
      have hall := List.filter_eq_self.mp hlines.symm l hl
      simpa using hall
    | some dns =>
      -- its line is there, but then it would have been found
      rw [newLines, h₁, h₂] at hlines
      exact absurd (scan_pos_of_nameserver hlines) hzero

theorem not_lost_of_ok (h : a.Ok content) : ¬ a.Lost content := by
  rintro ⟨hrewrites, hmisses⟩
  rw [Ok, if_pos hrewrites] at h
  exact h.1.not_misses (isText_texts content) hmisses

/-- When `update_resolv_conf` succeeds, the file was plain before, or there was nothing to write, if
and only if it is as it should be and no line that should stay was left unread. -/
theorem updateResolvConf_law (a : ResolvArgs) (readable writable : Bool) (f : Option (List UInt8))
    (h : (a.updateResolvConf readable writable f).1 = true) :
    a.Ok (f.getD []) ↔
      a.Law f (a.updateResolvConf readable writable f).2 ∧ ¬ a.Lost (f.getD []) := by
  rw [updateResolvConf_snd h]
  exact ⟨fun hok ↦ ⟨law_of_ok hok, not_lost_of_ok hok⟩, fun hlaw ↦ ok_of_law hlaw.2 hlaw.1⟩

/-- The servers of `wwan0`. -/
def wwan0 : ResolvArgs where
  iptype := .v4
  ifname := ⟨[119, 119, 97, 110, 48], by decide,
    List.forall_mem_iff_forall_getElem.mpr (by decide), by decide⟩
  dns1 := some ⟨[49, 46, 49, 46, 49, 46, 49], by decide, by decide, by decide⟩
  dns2 := none

/-- The old server of `wwan0`, and one of `eth0`. -/
def twoServers : List UInt8 :=
  wwan0.nameserver ⟨[56, 46, 56, 46, 56, 46, 56], by decide, by decide, by decide⟩ ++
    [nl, 110, 97, 109, 101, 115, 101, 114, 118, 101, 114, 32, 57, 46, 57, 46, 57, 46, 57, nl]

/-- The old server is replaced, and the other one stays. -/
theorem wwan0_law :
    wwan0.Law (some twoServers) (wwan0.updateResolvConf true true (some twoServers)).2 ∧
      ¬ wwan0.Lost twoServers :=
  (updateResolvConf_law wwan0 true true (some twoServers) (by decide)).mp (by decide)

/-- `# IPV4 wwan0_1` -/
def wwan01Line : List UInt8 := [35, 32, 73, 80, 86, 52, 32, 119, 119, 97, 110, 48, 95, 49]

/-- The line of `wwan0_1` is lost when `wwan0` is updated. -/
theorem wwan01_lost :
    ¬ ∀ (a : ResolvArgs) (readable writable : Bool) (f : Option (List UInt8)),
      (a.updateResolvConf readable writable f).1 = true →
        a.Law f (a.updateResolvConf readable writable f).2 := by
  intro hall
  have hok : (wwan0.updateResolvConf true true (some (wwan01Line ++ [nl]))).1 = true := by decide
  have hlaw := hall wwan0 true true (some (wwan01Line ++ [nl])) hok
  rw [updateResolvConf_snd hok] at hlaw
  have hplain : wwan0.Ok (wwan01Line ++ [nl]) := ok_of_law (by decide) hlaw
  exact absurd hplain (by decide)

end ResolvArgs

end Wwan.QuectelCm
