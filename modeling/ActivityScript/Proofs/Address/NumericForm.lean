import ActivityScript.Address.Ip
import ActivityScript.Proofs.Basic
import ActivityScript.Proofs.Text.Digits
import ActivityScript.Proofs.Text.Lines
import Mathlib.Data.List.TakeWhile

/-!
# Numeric addresses that are written and read

Many texts write the same address: with capital letters, leading zeros, more or fewer groups of
zeros left out, or the last two groups as an address of the fourth version. `read?_text` says that
the one text that an address has is among them, so that an address comes back from it with its zone.

The text of groups is cut into the same parts as it was put together from, on both sides of the two
colons (`pieces_colonText`). The run of zeros that is left out need not be known to be the longest:
it is a run of zeros (`exists_longestZeros`), and the number of groups says how long it was.

What is read is in range (`valid_of_read?`), and an address in range is known by its version, its
value as one large number, and its zone (`eq_of_value_eq`).
-/

namespace ActivityScript.Address

open Text

variable {c : Char} {cs : List Char} {n : Nat}

/-! ## Octets -/

/-- An octet is read from its digits: there are at most three of them, and no zero in front
(`not_leadingZero_toDigits`). -/
theorem octet?_toDigits (h : n ≤ 255) : octet? (Nat.toDigits 10 n) = some n := by
  have hshort : (Nat.toDigits 10 n).length ≤ 3 :=
    (Nat.length_toDigits_le_iff (by decide) (by decide)).2 (by omega)
  have hlength : ¬(Nat.toDigits 10 n = [] ∨ 3 < (Nat.toDigits 10 n).length) :=
    not_or.2 ⟨Nat.toDigits_ne_nil, Nat.not_lt.2 hshort⟩
  rw [octet?, if_neg hlength, if_neg (not_leadingZero_toDigits n),
    readDigits_toDigits (by decide) asciiDigit?_digitChar]
  simp [h]

/-- What is read as an octet is in range, and it was written with digits of ASCII only. Digits of
other scripts do not count here. -/
theorem of_octet? (h : octet? cs = some n) :
    n ≤ 255 ∧ ∀ c ∈ cs, ∃ d, asciiDigit? c = some d := by
  unfold octet? at h
  split at h
  · cases h
  · split at h
    · cases h
    · obtain ⟨hread, hle⟩ := Option.filter_eq_some_iff.1 h
      exact ⟨of_decide_eq_true hle, fun c hc => exists_digit_of_readDigits hread hc⟩

/-- A text writes four octets if it has four parts between its points and each of them writes one.
Fewer or more parts are no address. -/
theorem octets?_eq_some_iff {a b c d : Nat} :
    octets? cs = some (a, b, c, d) ↔ (pieces '.' cs).mapM octet? = some [a, b, c, d] := by
  unfold octets?
  constructor
  · intro h
    split at h
    · next heq =>
      cases h
      exact heq
    · cases h
  · intro h
    rw [h]

/-- A text that writes octets has digits and points only. So the text of an address of the sixth
version, which has a colon, is not read as one of the fourth. -/
theorem octets?_eq_none (hmem : c ∈ cs) (hc : asciiDigit? c = none) (hpoint : c ≠ '.') :
    octets? cs = none := by
  rw [Option.eq_none_iff_forall_not_mem]
  rintro ⟨a, b, c', d⟩ hsome
  obtain ⟨piece, hpiece, hpart⟩ := exists_mem_pieces hmem hpoint
  obtain ⟨n, hn⟩ := (of_mapM_eq_some (octets?_eq_some_iff.1 hsome)).1 piece hpiece
  obtain ⟨value, hvalue⟩ := (of_octet? hn).2 _ hpart
  rw [hc] at hvalue
  cases hvalue

/-! ## Groups -/

section Groups

variable {part : List Char} {parts : List (List Char)} {groups before after : List Nat}

/-- A group is read from its hexadecimal digits. This is `readDigits_toDigits` with the letters of
which groups are written. -/
theorem readDigits_groupText (n : Nat) : readDigits 16 hexValue? 0 (groupText n) = some n :=
  readDigits_toDigits (by decide) hexValue?_digitChar n

/-- No other character than a hexadecimal digit is in the text of a group: neither a colon, nor a
point, nor what starts a zone. -/
theorem notMem_groupText (hc : hexValue? c = none) (n : Nat) : c ∉ groupText n := by
  intro hmem
  obtain ⟨d, hd⟩ := exists_digit_of_readDigits (readDigits_groupText n) hmem
  rw [hc] at hd
  cases hd

/-- A group in range is read from its text, since it has at most four digits. Unlike with octets,
zeros in front would be allowed. -/
theorem group?_groupText (h : n < 65536) : group? (groupText n) = some n := by
  have hshort : (groupText n).length ≤ 4 :=
    (Nat.length_toDigits_le_iff (by decide) (by decide)).2 h
  have hlength : ¬(groupText n = [] ∨ 4 < (groupText n).length) :=
    not_or.2 ⟨Nat.toDigits_ne_nil, Nat.not_lt.2 hshort⟩
  rw [group?, if_neg hlength, readDigits_groupText]

/-- What is read as a group is in range: four hexadecimal digits write no larger number
(`lt_of_readDigits`). -/
theorem lt_of_group? (h : group? cs = some n) : n < 65536 := by
  unfold group? at h
  split at h
  · cases h
  · next hlength =>
    have hle : cs.length ≤ 4 := Nat.not_lt.1 (not_or.1 hlength).2
    calc n < (0 + 1) * 16 ^ cs.length := lt_of_readDigits (fun c d => hexValue?_lt) h
      _ ≤ 16 ^ 4 := by
        rw [Nat.zero_add, Nat.one_mul]
        exact Nat.pow_le_pow_right (by decide) hle

/-- Groups in range, as many as an address has. -/
def ValidGroups (groups : List Nat) : Prop :=
  groups.length = groupCount ∧ ∀ group ∈ groups, group < 65536

/-- Groups that are read one by one are in range. This is `lt_of_group?` for each part of a text. -/
theorem forall_lt_of_mapM (h : parts.mapM group? = some groups) :
    ∀ group ∈ groups, group < 65536 := by
  intro group hgroup
  obtain ⟨part, hpart⟩ := (of_mapM_eq_some h).2 group hgroup
  exact lt_of_group? hpart

/-- The groups on one side of two colons are in range. There may be none, and then nothing is
written on this side. -/
theorem forall_lt_of_sideGroups (h : sideGroups parts = some groups) :
    ∀ group ∈ groups, group < 65536 := by
  unfold sideGroups at h
  split at h
  · cases h
    exact fun group hgroup => absurd hgroup List.not_mem_nil
  · exact forall_lt_of_mapM h

/-- Groups that are read from a text are as many as an address has, and in range. If some are left
out, zeros make up for them, and there is at least one. -/
theorem validGroups_of_groups? (h : groups? parts = some groups) : ValidGroups groups := by
  cases parts with
  | nil => cases h
  | cons first rest =>
    rw [groups?] at h
    split at h
    · obtain ⟨hall, hlength⟩ := Option.filter_eq_some_iff.1 h
      exact ⟨of_decide_eq_true hlength, forall_lt_of_mapM hall⟩
    · obtain ⟨high, hhigh, h⟩ := Option.bind_eq_some_iff.1 h
      obtain ⟨low, hlow, h⟩ := Option.bind_eq_some_iff.1 h
      dsimp only at h
      split at h
      · next hfew =>
        cases h
        constructor
        · simp only [List.length_append, List.length_replicate]
          omega
        · simp only [List.mem_append, List.mem_replicate]
          rintro group ((hgroup | ⟨-, rfl⟩) | hgroup)
          · exact forall_lt_of_sideGroups hhigh group hgroup
          · decide
          · exact forall_lt_of_sideGroups hlow group hgroup
      · cases h

/-! ### Zeros -/

/-- The zeros in front of groups are a run of zeros, as long as there are zeros. This is what makes
it possible to leave them out and put them back. -/
theorem takeWhile_zero_eq_replicate (groups : List Nat) :
    groups.takeWhile (· = 0) = List.replicate (groups.takeWhile (· = 0)).length 0 := by
  refine List.eq_replicate_iff.2 ⟨rfl, fun group hgroup => ?_⟩
  have hzero := List.mem_takeWhile_imp hgroup
  exact of_decide_eq_true hzero

/-- The run of zeros that is left out stands where it is said to stand. That it is the longest one
is not needed to read it back. -/
theorem exists_longestZeros (index : Nat) (groups : List Nat) :
    ∃ before after, (Ip.longestZeros index groups).1 = index + before.length ∧
      groups = before ++ List.replicate (Ip.longestZeros index groups).2 0 ++ after := by
  induction groups generalizing index with
  | nil => exact ⟨[], [], rfl, rfl⟩
  | cons group groups ih =>
    rw [Ip.longestZeros]
    split
    · obtain ⟨before, after, hstart, hgroups⟩ := ih (index + 1)
      refine ⟨group :: before, after, ?_, ?_⟩
      · rw [hstart, List.length_cons]
        omega
      · rw [List.cons_append, List.cons_append, ← hgroups]
    · refine ⟨[], (group :: groups).dropWhile (· = 0), rfl, ?_⟩
      rw [List.nil_append, ← takeWhile_zero_eq_replicate, List.takeWhile_append_dropWhile]

/-! ### Parts -/

/-- The parts of groups that stand on one side of two colons; no group is an empty part. -/
def sideParts (groups : List Nat) : List (List Char) :=
  if groups = [] then [[]] else groups.map groupText

/-- There is always a part on a side of two colons, an empty one if there is no group. Hence two
colons are seen as an empty part between two others. -/
theorem sideParts_ne_nil (groups : List Nat) : sideParts groups ≠ [] := by
  unfold sideParts
  split
  · exact List.cons_ne_nil _ _
  · next hne => exact fun heq => hne (List.map_eq_nil_iff.1 heq)

/-- The text of a group is never empty, so an empty part between colons is not a group but says that
groups are left out. -/
theorem ne_nil_of_mem_map_groupText (h : part ∈ groups.map groupText) : part ≠ [] := by
  obtain ⟨group, -, rfl⟩ := List.mem_map.1 h
  exact Nat.toDigits_ne_nil

/-- Only the first part of a side can be empty, namely if there is no group on this side. The search
for two colons passes by the first part. -/
theorem ne_nil_of_mem_tail_sideParts (h : part ∈ (sideParts groups).tail) : part ≠ [] := by
  unfold sideParts at h
  split at h
  · cases h
  · exact ne_nil_of_mem_map_groupText (List.mem_of_mem_tail h)

/-- Groups in range on one side of two colons are read from their parts. One empty part is read as
no group. -/
theorem sideGroups_sideParts (h : ∀ group ∈ groups, group < 65536) :
    sideGroups (sideParts groups) = some groups := by
  unfold sideParts
  split
  · next heq =>
    rw [heq]
    rfl
  · have hparts : groups.map groupText ≠ [[]] :=
      fun heq => ne_nil_of_mem_map_groupText (heq ▸ List.mem_singleton_self _) rfl
    rw [sideGroups, if_neg hparts]
    exact mapM_map_eq_some fun group hgroup => group?_groupText (h group hgroup)

/-- Groups with colons between them fall apart at the colons, since the text of a group has none
(`notMem_groupText`). -/
theorem pieces_colonText (groups : List Nat) :
    pieces ':' (Ip.colonText groups).toList = sideParts groups := by
  have hchars : (Ip.colonText groups).toList = [':'].intercalate (groups.map groupText) := by
    rw [Ip.colonText, String.toList_intercalate, List.map_map]
    congr 1
    exact List.map_congr_left fun group _ => String.toList_ofList
  rw [hchars]
  unfold sideParts
  split
  · next heq =>
    rw [heq]
    rfl
  · next hne =>
    refine pieces_intercalate ?_ fun heq => hne (List.map_eq_nil_iff.1 heq)
    intro part hpart
    obtain ⟨group, -, rfl⟩ := List.mem_map.1 hpart
    exact notMem_groupText (by decide) group

/-- Parts are divided at the first empty one that has parts after it. It is dropped, and stands for
the groups that are left out. -/
theorem splitGap_append {first second : List (List Char)} (h : ∀ part ∈ first, part ≠ [])
    (hsecond : second ≠ []) : splitGap (first ++ [] :: second) = some (first, second) := by
  induction first with
  | nil => rw [List.nil_append, splitGap, if_pos ⟨rfl, hsecond⟩]
  | cons part first ih =>
    have hpart : ¬(part = [] ∧ first ++ [] :: second ≠ []) :=
      fun hempty => h part List.mem_cons_self hempty.1
    rw [List.cons_append, splitGap, if_neg hpart,
      ih fun part hmem => h part (List.mem_cons_of_mem _ hmem)]
    rfl

/-- Parts none of which is empty are not divided. All groups are written then, and they must be as
many as an address has. -/
theorem splitGap_eq_none (h : ∀ part ∈ parts, part ≠ []) : splitGap parts = none := by
  induction parts with
  | nil => rfl
  | cons part parts ih =>
    have hpart : ¬(part = [] ∧ parts ≠ []) := fun hempty => h part List.mem_cons_self hempty.1
    rw [splitGap, if_neg hpart, ih fun part hmem => h part (List.mem_cons_of_mem _ hmem)]
    rfl

/-! ### Texts of groups -/

/-- The zeros between two colons are as many as are missing. How many there were is not written, but
the number of groups of an address is known. -/
theorem groups?_gap {count : Nat} (h : ValidGroups (before ++ List.replicate count 0 ++ after))
    (hcount : 0 < count) :
    groups? (sideParts before ++ [] :: sideParts after)
      = some (before ++ List.replicate count 0 ++ after) := by
  obtain ⟨hlength, hsmall⟩ := h
  have hbefore : ∀ group ∈ before, group < 65536 :=
    fun group hgroup => hsmall group (by simp [hgroup])
  have hafter : ∀ group ∈ after, group < 65536 :=
    fun group hgroup => hsmall group (by simp [hgroup])
  simp only [List.length_append, List.length_replicate] at hlength
  have hfew : before.length + after.length < groupCount := by omega
  have hmissing : groupCount - (before.length + after.length) = count := by omega
  obtain ⟨first, rest, hparts⟩ := List.exists_cons_of_ne_nil (sideParts_ne_nil before)
  have hne : ∀ part ∈ rest, part ≠ [] := by
    intro part hpart
    have htail : part ∈ (sideParts before).tail := by
      rw [hparts]
      exact hpart
    exact ne_nil_of_mem_tail_sideParts htail
  have hhigh := sideGroups_sideParts hbefore
  rw [hparts] at hhigh ⊢
  simp only [List.cons_append, groups?, splitGap_append hne (sideParts_ne_nil after), hhigh,
    sideGroups_sideParts hafter, bind, Option.bind_some, if_pos hfew, hmissing]

/-- Groups that are all written are read one by one. There is no empty part among them that would
say that some are left out. -/
theorem groups?_map_groupText (h : ValidGroups groups) :
    groups? (groups.map groupText) = some groups := by
  obtain ⟨hlength, hsmall⟩ := h
  have hread : (groups.map groupText).mapM group? = some groups :=
    mapM_map_eq_some fun group hgroup => group?_groupText (hsmall group hgroup)
  cases groups with
  | nil => cases hlength
  | cons first rest =>
    have hne : ∀ part ∈ rest.map groupText, part ≠ [] := fun _ => ne_nil_of_mem_map_groupText
    rw [List.map_cons] at hread ⊢
    simp only [groups?, splitGap_eq_none hne, hread, Option.filter_some, hlength, decide_true,
      if_true]

/-- Groups are read from their shortest form, whether a run of zeros is left out (`groups?_gap`) or
all groups are written (`groups?_map_groupText`). -/
theorem groups?_pieces_groupsText (h : ValidGroups groups) :
    groups? (pieces ':' (Ip.groupsText groups).toList) = some groups := by
  obtain ⟨before, after, hstart, hgroups⟩ := exists_longestZeros 0 groups
  unfold Ip.groupsText
  generalize Ip.longestZeros 0 groups = run at hstart hgroups ⊢
  obtain ⟨start, count⟩ := run
  dsimp only at hstart hgroups ⊢
  rw [Nat.zero_add] at hstart
  subst hstart
  split
  · have htake : groups.take before.length = before := by
      rw [hgroups, List.append_assoc, List.take_left]
    have hdrop : groups.drop (before.length + count) = after := by
      rw [hgroups]
      exact List.drop_left' (by simp)
    have hpieces : pieces ':' (Ip.colonText before ++ "::" ++ Ip.colonText after).toList
        = sideParts before ++ [] :: sideParts after := by
      have hcolons : "::".toList = [':', ':'] := rfl
      rw [String.toList_append, String.toList_append, hcolons, List.append_assoc,
        List.cons_append, List.singleton_append, pieces_append_cons, pieces, if_pos rfl,
        pieces_colonText, pieces_colonText]
    rw [htake, hdrop, hpieces, hgroups]
    exact groups?_gap (hgroups ▸ h) (by omega)
  · have hne : groups ≠ [] := by
      rintro rfl
      cases h.1
    rw [pieces_colonText, sideParts, if_neg hne]
    exact groups?_map_groupText h

/-- Groups with colons between them have no other characters than hexadecimal digits and colons:
every other character would be in one of the pieces. -/
theorem notMem_colonText (hc : hexValue? c = none) (hne : c ≠ ':') :
    c ∉ (Ip.colonText groups).toList := by
  intro hmem
  obtain ⟨piece, hpiece, hc'⟩ := exists_mem_pieces hmem hne
  rw [pieces_colonText] at hpiece
  unfold sideParts at hpiece
  split at hpiece
  · rw [List.mem_singleton.1 hpiece] at hc'
    cases hc'
  · obtain ⟨group, -, rfl⟩ := List.mem_map.1 hpiece
    exact notMem_groupText hc group hc'

/-- The text of groups has hexadecimal digits and colons only, also if groups are left out. So
neither a point nor a percent sign nor a slash is in it. -/
theorem notMem_groupsText (hc : hexValue? c = none) (hne : c ≠ ':') (groups : List Nat) :
    c ∉ (Ip.groupsText groups).toList := by
  unfold Ip.groupsText
  dsimp only
  split
  · simp only [String.toList_append, List.mem_append, not_or]
    refine ⟨⟨notMem_colonText hc hne, ?_⟩, notMem_colonText hc hne⟩
    simpa using hne
  · exact notMem_colonText hc hne

/-- A single part is too little for an address, so a text from which groups are read has a colon.
This tells the two versions apart. -/
theorem colon_mem_of_groups? (h : groups? (pieces ':' cs) = some groups) : ':' ∈ cs := by
  by_contra hnot
  rw [pieces_of_notMem hnot] at h
  obtain ⟨hread, hlength⟩ := Option.filter_eq_some_iff.1 h
  have hone : [cs].length = groups.length := (mapM_eq_some_iff.1 hread).length_eq
  have hcount : groups.length = groupCount := of_decide_eq_true hlength
  rw [hcount] at hone
  cases hone

/-- Parts without a point are left as they are. Only a last part with points would be an address of
the fourth version that stands for two groups. -/
theorem expandLast_eq_self (h : ∀ part ∈ parts, '.' ∉ part) : expandLast parts = some parts := by
  unfold expandLast
  split
  · rfl
  · next last hlast =>
    have hpoint : last.contains '.' = false := by
      simpa using h last (List.mem_of_getLast? hlast)
    rw [hpoint]
    rfl

end Groups

/-! ## Addresses -/

namespace Ip

variable {address : List Char} {zone? : Option String} {ip other : Ip}

/-- A zone that can be written after an address. -/
def ValidZone (zone : String) : Prop := zone ≠ "" ∧ '%' ∉ zone.toList ∧ '/' ∉ zone.toList

/-- An address whose numbers are in range. -/
def Valid : Ip → Prop
  | .v4 a b c d => a ≤ 255 ∧ b ≤ 255 ∧ c ≤ 255 ∧ d ≤ 255
  | .v6 groups zone? => ValidGroups groups ∧ ∀ zone ∈ zone?, ValidZone zone

/-! ### Zones -/

/-- An address with its zone as they stand in a text. -/
def zoned (address : List Char) : Option String → List Char
  | none => address
  | some zone => address ++ '%' :: zone.toList

/-- An address and its zone are told apart again: the zone starts after the first percent sign, and
the address has none. -/
theorem splitZone_zoned (haddress : '%' ∉ address) (hzone : ∀ zone ∈ zone?, ValidZone zone) :
    splitZone (zoned address zone?) = some (address, zone?) := by
  have hkeep : ∀ c ∈ address, decide (c ≠ '%') = true :=
    fun c hc => decide_eq_true fun heq => haddress (heq ▸ hc)
  cases zone? with
  | none =>
    have htake : address.takeWhile (· ≠ '%') = address := List.takeWhile_eq_self_iff.2 hkeep
    have hdrop : address.dropWhile (· ≠ '%') = [] := List.dropWhile_eq_nil_iff.2 hkeep
    simp only [splitZone, zoned, htake, hdrop]
  | some zone =>
    obtain ⟨hne, hpercent, -⟩ := hzone zone rfl
    have htake : (address ++ '%' :: zone.toList).takeWhile (· ≠ '%') = address := by
      rw [List.takeWhile_append_of_pos hkeep, List.takeWhile_cons_of_neg (by simp), List.append_nil]
    have hdrop : (address ++ '%' :: zone.toList).dropWhile (· ≠ '%') = '%' :: zone.toList := by
      rw [List.dropWhile_append_of_pos hkeep, List.dropWhile_cons_of_neg (by simp)]
    have hshape : ¬(zone.toList = [] ∨ zone.toList.contains '%' = true) := by
      simp [hne, hpercent]
    simp only [splitZone, zoned, htake, hdrop, if_neg hshape, String.ofList_toList]

/-- A zone is not empty, has no percent sign, and is a part of the text. So it has no slash if the
text has none. -/
theorem of_splitZone (h : splitZone cs = some (address, zone?)) :
    ∀ zone ∈ zone?, zone ≠ "" ∧ '%' ∉ zone.toList ∧ zone.toList ⊆ cs := by
  unfold splitZone at h
  dsimp only at h
  split at h
  · cases h
    exact fun zone hzone => absurd hzone (by simp)
  · next first rest hdrop =>
    split at h
    · cases h
    · next hshape =>
      cases h
      intro zone hzone
      cases hzone
      have hsub : first :: rest ⊆ cs := hdrop ▸ (List.dropWhile_sublist _).subset
      simp only [List.contains_eq_mem, decide_eq_true_eq, not_or] at hshape
      rw [String.toList_ofList]
      refine ⟨fun heq => hshape.1 ?_, hshape.2, fun c hc => hsub (List.mem_cons_of_mem _ hc)⟩
      simpa using heq

/-! ### Reading -/

/-- What is read as an address of the sixth version: a text without a slash that has groups before
its zone. The last two groups may be written as an address of the fourth version. -/
theorem v6?_eq_some_iff :
    v6? cs = some ip ↔ '/' ∉ cs ∧ ∃ address zone? parts groups,
      splitZone cs = some (address, zone?) ∧ expandLast (pieces ':' address) = some parts ∧
      groups? parts = some groups ∧ .v6 groups zone? = ip := by
  unfold v6?
  by_cases hslash : '/' ∈ cs
  · simp [hslash]
  · simp [hslash, Option.bind_eq_some_iff]

/-- What is read is in range, whichever version it is of: octets are below 256, groups have sixteen
bits each, and a zone can be written after them. -/
theorem valid_of_read? {text : String} (h : read? text = some ip) : ip.Valid := by
  unfold read? at h
  split at h
  · next a b c d hoctets =>
    cases h
    have hle : ∀ n ∈ [a, b, c, d], n ≤ 255 := by
      intro n hn
      obtain ⟨piece, hpiece⟩ := (of_mapM_eq_some (octets?_eq_some_iff.1 hoctets)).2 n hn
      exact (of_octet? hpiece).1
    exact ⟨hle a (by simp), hle b (by simp), hle c (by simp), hle d (by simp)⟩
  · obtain ⟨hslash, address, zone?, parts, groups, hzone, -, hgroups, rfl⟩ := v6?_eq_some_iff.1 h
    refine ⟨validGroups_of_groups? hgroups, fun zone hmem => ?_⟩
    obtain ⟨hne, hpercent, hsub⟩ := of_splitZone hzone zone hmem
    exact ⟨hne, hpercent, fun hmem => hslash (hsub hmem)⟩

/-- An address of the fourth version is read from its text: four numbers with points between them,
each of which is read as the octet it is. -/
theorem read?_text_v4 {a b c d : Nat} (h : (Ip.v4 a b c d).Valid) :
    read? (Ip.v4 a b c d).text = some (.v4 a b c d) := by
  obtain ⟨ha, hb, hc, hd⟩ := h
  have hall : ∀ n ∈ [a, b, c, d], octet? (Nat.toDigits 10 n) = some n := by
    simp only [List.forall_mem_cons]
    exact ⟨octet?_toDigits ha, octet?_toDigits hb, octet?_toDigits hc, octet?_toDigits hd, by simp⟩
  have hchars : (Ip.v4 a b c d).text.toList
      = ['.'].intercalate ([a, b, c, d].map (Nat.toDigits 10)) := by
    rw [text, String.toList_intercalate, List.map_map]
    congr 1
    exact List.map_congr_left fun n _ => by simp
  have hpieces : pieces '.' (Ip.v4 a b c d).text.toList = [a, b, c, d].map (Nat.toDigits 10) := by
    rw [hchars]
    refine pieces_intercalate (fun part hpart hmem => ?_) (by simp)
    obtain ⟨n, -, rfl⟩ := List.mem_map.1 hpart
    have hdigit := Nat.isDigit_of_mem_toDigits (by decide) (by decide) hmem
    exact absurd hdigit (by decide)
  have hoctets : octets? (Ip.v4 a b c d).text.toList = some (a, b, c, d) := by
    rw [octets?_eq_some_iff, hpieces]
    exact mapM_map_eq_some hall
  rw [read?, hoctets]

/-- The text of an address of the sixth version is that of its groups, with a percent sign and the
zone after it if there is one. -/
theorem toList_text_v6 (groups : List Nat) (zone? : Option String) :
    (Ip.v6 groups zone?).text.toList = zoned (groupsText groups).toList zone? := by
  cases zone? with
  | none => rfl
  | some zone =>
    have hpercent : "%".toList = ['%'] := rfl
    rw [text, String.toList_append, String.toList_append, hpercent, List.append_assoc]
    rfl

/-- There is a colon in the text of an address of the sixth version, since its groups can be read
from it (`colon_mem_of_groups?`). -/
theorem colon_mem_text_v6 {groups : List Nat} (h : ValidGroups groups) (zone? : Option String) :
    ':' ∈ (Ip.v6 groups zone?).text.toList := by
  have hmem := colon_mem_of_groups? (groups?_pieces_groupsText h)
  rw [toList_text_v6]
  cases zone? with
  | none => exact hmem
  | some zone => exact List.mem_append_left _ hmem

/-- An address of the sixth version is read from its text. It is not read as one of the fourth
version because it has a colon, and no point makes its last part anything but a group. -/
theorem read?_text_v6 {groups : List Nat} (h : (Ip.v6 groups zone?).Valid) :
    read? (Ip.v6 groups zone?).text = some (.v6 groups zone?) := by
  obtain ⟨hgroups, hzone⟩ := h
  have hpercent : '%' ∉ (groupsText groups).toList :=
    notMem_groupsText (by decide) (by decide) groups
  have hpoint : '.' ∉ (groupsText groups).toList :=
    notMem_groupsText (by decide) (by decide) groups
  have hslash : '/' ∉ zoned (groupsText groups).toList zone? := by
    have hnot : '/' ∉ (groupsText groups).toList :=
      notMem_groupsText (by decide) (by decide) groups
    cases zone? with
    | none => exact hnot
    | some zone => simp [zoned, hnot, (hzone zone rfl).2.2]
  have hparts : expandLast (pieces ':' (groupsText groups).toList)
      = some (pieces ':' (groupsText groups).toList) :=
    expandLast_eq_self fun part hpart hmem => hpoint (mem_of_mem_pieces hpart hmem)
  have hcolon := colon_mem_text_v6 hgroups zone?
  rw [read?, octets?_eq_none hcolon (by decide) (by decide), toList_text_v6]
  exact v6?_eq_some_iff.2 ⟨hslash, _, zone?, _, groups, splitZone_zoned hpercent hzone, hparts,
    groups?_pieces_groupsText hgroups, rfl⟩

/-- Every address is read from its text. So the text of an address is one of the texts that denote
it, and different addresses have different texts. -/
theorem read?_text (h : ip.Valid) : read? ip.text = some ip := by
  cases ip with
  | v4 a b c d => exact read?_text_v4 h
  | v6 groups zone? => exact read?_text_v6 h

/-! ### Values -/

/-- The version of an address. -/
def version : Ip → Nat
  | .v4 .. => 4
  | .v6 .. => 6

/-- An address as one number, of 32 or of 128 bits. -/
def value : Ip → Nat
  | .v4 a b c d => Nat.ofDigits 256 [d, c, b, a]
  | .v6 groups _ => Nat.ofDigits 65536 groups.reverse

/-- The zone of an address. -/
def zoneName? : Ip → Option String
  | .v4 .. => none
  | .v6 _ zone? => zone?

/-- An address is known by its version, its value and its zone: octets and groups are the digits of
the value to the base 256 and 65536. -/
theorem eq_of_value_eq (h : ip.Valid) (h' : other.Valid) (hversion : ip.version = other.version)
    (hvalue : ip.value = other.value) (hzone : ip.zoneName? = other.zoneName?) : ip = other := by
  cases ip with
  | v4 a b c d =>
    cases other with
    | v4 a' b' c' d' =>
      obtain ⟨ha, hb, hc, hd⟩ := h
      obtain ⟨ha', hb', hc', hd'⟩ := h'
      have hdigits : [d, c, b, a] = [d', c', b', a'] := by
        refine Nat.ofDigits_inj_of_len_eq (by decide) rfl ?_ ?_ hvalue
        · simp only [List.forall_mem_cons]
          exact ⟨by omega, by omega, by omega, by omega, by simp⟩
        · simp only [List.forall_mem_cons]
          exact ⟨by omega, by omega, by omega, by omega, by simp⟩
      cases hdigits
      rfl
    | v6 => cases hversion
  | v6 groups zone =>
    cases other with
    | v4 => cases hversion
    | v6 groups' zone' =>
      have hlength : groups.reverse.length = groups'.reverse.length := by
        rw [List.length_reverse, List.length_reverse, h.1.1, h'.1.1]
      have hdigits : groups.reverse = groups'.reverse :=
        Nat.ofDigits_inj_of_len_eq (by decide) hlength
          (fun group hgroup => h.1.2 group (List.mem_reverse.1 hgroup))
          (fun group hgroup => h'.1.2 group (List.mem_reverse.1 hgroup)) hvalue
      cases List.reverse_inj.1 hdigits
      cases hzone
      rfl

end Ip

end ActivityScript.Address
