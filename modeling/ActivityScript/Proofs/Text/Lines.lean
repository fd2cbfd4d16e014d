import ActivityScript.Text.Lines

/-!
# Laws of lines

How the two ways of cutting a sequence into lines hang together. A text at hand is cut in front of
each line feed (`separated`), a stream behind it (`terminated`), and both leave the same lines once
their terminators are gone (`streamedLines_eq_physicalLines`). `HasLines` says which lines a text
has without cutting it, and `hasLines_iff` that it is cut into these. Unifying the line ends of a
text changes none of its lines if every carriage return stands before a line feed
(`physicalLines_unifiedNewlines`).
-/

namespace ActivityScript.Text

variable {α : Type} [DecidableEq α] {nl a : α} {line rest text : List α}

/-! ## The end of a sequence -/

/-- Only the end of a sequence matters: what stands before a rest that is not empty is kept, and the
last element is dropped from the rest. -/
theorem dropFinal_append (h : rest ≠ []) :
    dropFinal a (line ++ rest) = line ++ dropFinal a rest := by
  induction line with
  | nil => rfl
  | cons b line ih =>
    rw [List.cons_append, List.cons_append, ← ih]
    cases line with
    | nil =>
      cases rest with
      | nil => exact absurd rfl h
      | cons c rest => rfl
    | cons c line => rfl

/-- A last element that is to be dropped is dropped, once: if another one stands before it, that one
is kept. -/
@[simp] theorem dropFinal_concat (line : List α) (a : α) : dropFinal a (line ++ [a]) = line := by
  rw [dropFinal_append (List.cons_ne_nil _ _)]
  simp [dropFinal]

/-- Any other last element stays. There may be no last element at all, and the hypothesis says
nothing then. -/
theorem dropFinal_eq_self (h : ∀ b ∈ line.getLast?, b ≠ a) : dropFinal a line = line := by
  rcases List.eq_nil_or_concat line with rfl | ⟨init, b, rfl⟩
  · rfl
  · have hb : b ≠ a := h b (by simp)
    rw [List.concat_eq_append, dropFinal_append (List.cons_ne_nil _ _)]
    simp [dropFinal, hb]

/-- A sequence without `a` has no `a` at its end, so it is kept as it is. This is how a line without
a carriage return is treated. -/
theorem dropFinal_of_notMem (h : a ∉ line) : dropFinal a line = line :=
  dropFinal_eq_self fun _ hb heq => h (heq ▸ List.mem_of_getLast? hb)

/-- A first element that is not to be dropped stays, whatever follows; also if nothing follows, so
that it is the last one. -/
theorem dropFinal_cons {b : α} (h : b ≠ a) : dropFinal a (b :: line) = b :: dropFinal a line := by
  cases line with
  | nil => simp [dropFinal, h]
  | cons c line => rfl

/-- What is left when a last element may be dropped is the beginning of the sequence. So a place in
the line is the same place in the line with its end. -/
theorem dropFinal_prefix (a : α) (line : List α) : dropFinal a line <+: line := by
  rcases List.eq_nil_or_concat line with rfl | ⟨init, b, rfl⟩
  · exact List.nil_prefix
  · rw [List.concat_eq_append, dropFinal_append (List.cons_ne_nil _ _)]
    refine List.prefix_append_right_inj init |>.2 ?_
    by_cases hb : b = a <;> simp [dropFinal, hb]

/-! ## Cutting -/

/-- A sequence up to its first terminator is its first line, and what follows the terminator is cut
by itself. All that is known of cutting comes from this and `separated_of_notMem`. -/
theorem separated_append (h : nl ∉ line) :
    separated nl (line ++ nl :: rest) = line :: separated nl rest := by
  induction line with
  | nil => simp [separated]
  | cons b line ih =>
    have hb : b ≠ nl := fun heq => h (heq ▸ List.mem_cons_self)
    rw [List.cons_append, separated, if_neg hb, ih fun hmem => h (List.mem_cons_of_mem _ hmem)]

/-- A sequence without terminator is one line, if there is anything in it. The empty sequence has no
line instead of an empty one. -/
theorem separated_of_notMem (h : nl ∉ line) (hne : line ≠ []) : separated nl line = [line] := by
  induction line with
  | nil => exact absurd rfl hne
  | cons b line ih =>
    have hb : b ≠ nl := fun heq => h (heq ▸ List.mem_cons_self)
    rw [separated, if_neg hb]
    cases line with
    | nil => rfl
    | cons c line => rw [ih (fun hmem => h (List.mem_cons_of_mem _ hmem)) (List.cons_ne_nil _ _)]

/-- What stands before the first terminator is known, and so is what stands after it: two such
sequences that are equal have the same first line. -/
theorem eq_of_append_cons_eq {line' rest' : List α} (h : nl ∉ line) (h' : nl ∉ line')
    (heq : line ++ nl :: rest = line' ++ nl :: rest') : line = line' ∧ rest = rest' := by
  have hlines := congrArg (separated nl) heq
  rw [separated_append h, separated_append h'] at hlines
  obtain rfl := (List.cons.inj hlines).1
  exact ⟨rfl, (List.cons.inj (List.append_cancel_left heq)).2⟩

/-- Lines that are put together fall apart again. They must not be empty, since an empty line at the
end would not be seen. -/
theorem separated_intercalate {lines : List (List α)} (h : ∀ line ∈ lines, nl ∉ line)
    (hne : ∀ line ∈ lines, line ≠ []) : separated nl ([nl].intercalate lines) = lines := by
  induction lines with
  | nil => rfl
  | cons line lines ih =>
    have hline : nl ∉ line := h line List.mem_cons_self
    cases lines with
    | nil =>
      rw [List.intercalate_singleton, separated_of_notMem hline (hne line List.mem_cons_self)]
    | cons next lines =>
      rw [List.intercalate_cons_cons, List.append_assoc, List.singleton_append,
        separated_append hline, ih (fun line hmem => h line (List.mem_cons_of_mem _ hmem))
          fun line hmem => hne line (List.mem_cons_of_mem _ hmem)]

/-- Only the empty sequence has no lines. Its first element is either a terminator, with an empty
line before it, or an element of the first line. -/
theorem separated_cons_ne_nil (nl b : α) (text : List α) : separated nl (b :: text) ≠ [] := by
  rw [separated]
  split
  · exact List.cons_ne_nil _ _
  · split <;> exact List.cons_ne_nil _ _

/-- A sequence that is empty or ends with a terminator has lines of its own: what is written behind
it adds lines and changes none of those there are. -/
theorem separated_append_of_getLast? {more : List α} (h : ∀ a ∈ text.getLast?, a = nl) :
    separated nl (text ++ more) = separated nl text ++ separated nl more := by
  induction text with
  | nil => rfl
  | cons b text ih =>
    rw [List.cons_append, separated, separated]
    cases text with
    | nil =>
      have hb : b = nl := h b rfl
      rw [if_pos hb, if_pos hb]
      rfl
    | cons c text =>
      rw [ih fun a ha => h a (by rwa [List.getLast?_cons_cons])]
      split
      · rfl
      · cases hlines : separated nl (c :: text) with
        | nil => exact absurd hlines (separated_cons_ne_nil nl c text)
        | cons line lines => rfl

/-- The pieces between the terminators are the lines, with an empty piece after them if nothing
follows the last terminator. So every line is a piece at the same place. -/
theorem separated_prefix_pieces (nl : α) (text : List α) :
    separated nl text <+: pieces nl text := by
  induction text with
  | nil => exact List.nil_prefix
  | cons b text ih =>
    rw [separated, pieces]
    split
    · exact (List.prefix_cons_inj _).2 ih
    · cases text with
      | nil => exact List.prefix_rfl
      | cons c text =>
        obtain ⟨line, lines, hlines⟩ :=
          List.exists_cons_of_ne_nil (separated_cons_ne_nil nl c text)
        rw [hlines] at ih ⊢
        obtain ⟨more, hmore⟩ := ih
        rw [← hmore]
        exact ⟨more, rfl⟩

/-! ## Pieces -/

/-- There is always a piece, even of the empty sequence. In this, pieces differ from lines, of which
the empty sequence has none. -/
theorem pieces_ne_nil (nl : α) (text : List α) : pieces nl text ≠ [] := by
  cases text with
  | nil => exact List.cons_ne_nil _ _
  | cons b text =>
    rw [pieces]
    split
    · exact List.cons_ne_nil _ _
    · split <;> exact List.cons_ne_nil _ _

/-- A separator divides a sequence, wherever it stands. Unlike with lines, nothing need be known of
what stands before it. -/
theorem pieces_append_cons (nl : α) (text rest : List α) :
    pieces nl (text ++ nl :: rest) = pieces nl text ++ pieces nl rest := by
  induction text with
  | nil => simp [pieces]
  | cons b text ih =>
    rw [List.cons_append, pieces, pieces, ih]
    split
    · rfl
    · cases hpieces : pieces nl text with
      | nil => exact absurd hpieces (pieces_ne_nil nl text)
      | cons piece more => rfl

/-- A sequence without a separator is one piece. It may be empty, and then its piece is empty as
well. -/
theorem pieces_of_notMem (h : nl ∉ line) : pieces nl line = [line] := by
  induction line with
  | nil => rfl
  | cons b line ih =>
    have hb : b ≠ nl := fun heq => h (heq ▸ List.mem_cons_self)
    rw [pieces, if_neg hb, ih fun hmem => h (List.mem_cons_of_mem _ hmem)]

/-- What is put together with separators falls apart again. The parts may be empty, but there must
be one, since there is always a piece. -/
theorem pieces_intercalate {parts : List (List α)} (h : ∀ part ∈ parts, nl ∉ part)
    (hne : parts ≠ []) : pieces nl ([nl].intercalate parts) = parts := by
  induction parts with
  | nil => exact absurd rfl hne
  | cons part parts ih =>
    have hpart : nl ∉ part := h part List.mem_cons_self
    cases parts with
    | nil => rw [List.intercalate_singleton, pieces_of_notMem hpart]
    | cons next parts =>
      rw [List.intercalate_cons_cons, List.append_assoc, List.singleton_append,
        pieces_append_cons, pieces_of_notMem hpart,
        ih (fun part hmem => h part (List.mem_cons_of_mem _ hmem)) (List.cons_ne_nil _ _)]
      rfl

omit [DecidableEq α] in
/-- Everything but the separators comes from a part. So what holds of the characters of all parts
holds of the text that is put together from them. -/
theorem mem_intercalate_iff {parts : List (List α)} (hne : a ≠ nl) :
    a ∈ [nl].intercalate parts ↔ ∃ part ∈ parts, a ∈ part := by
  induction parts with
  | nil => simp
  | cons part parts ih =>
    cases parts with
    | nil => simp
    | cons next parts =>
      rw [List.intercalate_cons_cons, List.mem_append, List.mem_append, ih]
      simp [hne]

/-- Everything but the separators is in a piece: no element is lost when a sequence is cut. The
converse is `mem_of_mem_pieces`. -/
theorem exists_mem_pieces (h : a ∈ text) (hne : a ≠ nl) : ∃ piece ∈ pieces nl text, a ∈ piece := by
  induction text with
  | nil => cases h
  | cons b text ih =>
    rw [pieces]
    rcases List.mem_cons.1 h with rfl | hmem
    · rw [if_neg hne]
      split
      · exact ⟨[a], List.mem_cons_self, List.mem_cons_self⟩
      · exact ⟨_, List.mem_cons_self, List.mem_cons_self⟩
    · obtain ⟨piece, hpiece, ha⟩ := ih hmem
      split
      · exact ⟨piece, List.mem_cons_of_mem _ hpiece, ha⟩
      · cases hpieces : pieces nl text with
        | nil => exact absurd hpieces (pieces_ne_nil nl text)
        | cons first more =>
          rw [hpieces] at hpiece
          rcases List.mem_cons.1 hpiece with rfl | hpiece
          · exact ⟨b :: piece, List.mem_cons_self, List.mem_cons_of_mem _ ha⟩
          · exact ⟨piece, List.mem_cons_of_mem _ hpiece, ha⟩

/-- A piece has nothing that the sequence does not have. So what holds of all elements of a sequence
holds of those of its pieces. -/
theorem mem_of_mem_pieces (h : line ∈ pieces nl text) (ha : a ∈ line) : a ∈ text := by
  induction text generalizing line with
  | nil =>
    rw [List.mem_singleton.1 h] at ha
    cases ha
  | cons b text ih =>
    rw [pieces] at h
    split at h
    · rcases List.mem_cons.1 h with rfl | h
      · cases ha
      · exact List.mem_cons_of_mem _ (ih h ha)
    · cases hpieces : pieces nl text with
      | nil => exact absurd hpieces (pieces_ne_nil nl text)
      | cons first more =>
        rw [hpieces] at h ih
        rcases List.mem_cons.1 h with rfl | h
        · rcases List.mem_cons.1 ha with rfl | ha
          · exact List.mem_cons_self
          · exact List.mem_cons_of_mem _ (ih List.mem_cons_self ha)
        · exact List.mem_cons_of_mem _ (ih (List.mem_cons_of_mem _ h) ha)

/-! ## Lines of a stream -/

/-- The lines that a stream hands out are the lines of the text, once they have lost their
terminators. The last one may have none to lose. -/
theorem map_dropFinal_terminated (nl : α) (text : List α) :
    (terminated nl text).map (dropFinal nl) = separated nl text := by
  induction text with
  | nil => rfl
  | cons b text ih =>
    rw [terminated, separated, ← ih]
    split
    · next hb => simp [dropFinal, hb]
    · next hb =>
      cases terminated nl text with
      | nil => simp [dropFinal, hb]
      | cons line lines => simp [dropFinal_cons hb]

/-- A line holds only what the sequence holds, and no terminator. The two are proved in one
induction, since both are needed of the first line when an element joins it. -/
theorem mem_of_mem_separated (h : line ∈ separated nl text) (ha : a ∈ line) :
    a ∈ text ∧ a ≠ nl := by
  induction text generalizing line with
  | nil => cases h
  | cons b text ih =>
    have hmore {l : List α} (hl : l ∈ separated nl text) (hal : a ∈ l) : a ∈ b :: text ∧ a ≠ nl :=
      ⟨List.mem_cons_of_mem _ (ih hl hal).1, (ih hl hal).2⟩
    rw [separated] at h
    split at h
    · rcases List.mem_cons.1 h with rfl | h
      · cases ha
      · exact hmore h ha
    · next hb =>
      cases hlines : separated nl text with
      | nil =>
        rw [hlines] at h
        rw [List.mem_singleton.1 h] at ha
        rw [List.mem_singleton.1 ha]
        exact ⟨List.mem_cons_self, hb⟩
      | cons l ls =>
        rw [hlines] at h hmore
        rcases List.mem_cons.1 h with rfl | h
        · rcases List.mem_cons.1 ha with rfl | ha
          · exact ⟨List.mem_cons_self, hb⟩
          · exact hmore List.mem_cons_self ha
        · exact hmore (List.mem_cons_of_mem _ h) ha

/-- No line holds a terminator, so cutting a line again leaves it as it is, and no terminator can be
dropped from its end. -/
theorem notMem_of_mem_separated (h : line ∈ separated nl text) : nl ∉ line :=
  fun hmem => (mem_of_mem_separated h hmem).2 rfl

/-- Nothing is lost when a sequence is cut behind its terminators. In front of them, it could not be
told whether there is one at the end. -/
theorem flatten_terminated (nl : α) (text : List α) : (terminated nl text).flatten = text := by
  induction text with
  | nil => rfl
  | cons b text ih =>
    rw [terminated]
    split
    · simp [ih]
    · cases hlines : terminated nl text with
      | nil =>
        rw [hlines] at ih
        simp [← ih]
      | cons line lines =>
        rw [hlines] at ih
        simp [← ih]

/-- What stands before a sequence, without a terminator of its own, joins the first line of the
sequence, or becomes the only line if there is none. -/
theorem terminated_append (h : nl ∉ line) (hne : line ≠ []) :
    terminated nl (line ++ rest)
      = match terminated nl rest with
        | [] => [line]
        | l :: ls => (line ++ l) :: ls := by
  induction line with
  | nil => exact absurd rfl hne
  | cons b line ih =>
    have hb : b ≠ nl := fun heq => h (heq ▸ List.mem_cons_self)
    rw [List.cons_append, terminated, if_neg hb]
    cases line with
    | nil => rfl
    | cons c line =>
      rw [ih (fun hmem => h (List.mem_cons_of_mem _ hmem)) (List.cons_ne_nil _ _)]
      cases terminated nl rest <;> rfl

/-! ## Lines of a script -/

/-- A text has the same lines at hand and as a stream. A line that has lost its terminator has no
second one, so it does not matter that a stream removes it and then looks for one again. -/
theorem streamedLines_eq_physicalLines (text : List Char) :
    streamedLines text = physicalLines text := by
  rw [streamedLines, physicalLines, ← map_dropFinal_terminated, List.map_map]
  refine List.map_congr_left fun line hline => ?_
  have hmem : dropFinal '\n' line ∈ separated '\n' text := by
    rw [← map_dropFinal_terminated]
    exact List.mem_map_of_mem hline
  rw [Function.comp_apply, unterminated, unterminated,
    dropFinal_of_notMem (notMem_of_mem_separated hmem)]

/-- The lines of a text are cut at its line feeds and lose one carriage return each. There is no
line feed left at their ends that they could lose as well. -/
theorem physicalLines_eq_map (text : List Char) :
    physicalLines text = (separated '\n' text).map (dropFinal '\r') := by
  refine List.map_congr_left fun line hline => ?_
  rw [unterminated, dropFinal_of_notMem (notMem_of_mem_separated hline)]

/-- A text that is empty or ends with a line feed has lines of its own: what is written behind it
adds lines and changes none of those there are. -/
theorem physicalLines_append {text : List Char} (h : ∀ c ∈ text.getLast?, c = '\n')
    (more : List Char) :
    physicalLines (text ++ more) = physicalLines text ++ physicalLines more := by
  rw [physicalLines, separated_append_of_getLast? h, List.map_append]
  rfl

/-! ## The lines of a text, said of the text -/

/-- What stands before a line feed, or at the end of a text, writes a line: one carriage return at
its end does not belong to the line. -/
def WritesLine (raw line : List Char) : Prop :=
  raw = line ++ ['\r'] ∨ raw = line ∧ line.getLast? ≠ some '\r'

/-- The lines of a text, said without cutting it: the text is one written line after the other, each
with a line feed behind it, which may be missing behind the last one if something is written there.
There is no line feed inside of a written line. -/
inductive HasLines : List Char → List (List Char) → Prop where
  | empty : HasLines [] []
  | last {raw line : List Char} : raw ≠ [] → '\n' ∉ raw → WritesLine raw line → HasLines raw [line]
  | line {raw line rest : List Char} {lines : List (List Char)} : '\n' ∉ raw → WritesLine raw line →
      HasLines rest lines → HasLines (raw ++ '\n' :: rest) (line :: lines)

/-- A written line is the line that is left when its end is removed. Without a line feed in it, its
end is a carriage return or nothing. -/
theorem WritesLine.unterminated_eq {raw line : List Char} (h : WritesLine raw line)
    (hfeed : '\n' ∉ raw) : unterminated '\n' '\r' raw = line := by
  rw [unterminated, dropFinal_of_notMem hfeed]
  rcases h with rfl | ⟨rfl, hlast⟩
  · exact dropFinal_concat line '\r'
  · exact dropFinal_eq_self fun c hc heq => hlast (heq ▸ hc)

/-- Everything between two line feeds writes a line: the one that is left when a carriage return at
its end is removed, if there is one. -/
theorem writesLine_unterminated {raw : List Char} (hfeed : '\n' ∉ raw) :
    WritesLine raw (unterminated '\n' '\r' raw) := by
  rcases raw.eq_nil_or_concat with rfl | ⟨front, c, rfl⟩
  · exact .inr ⟨rfl, by simp [unterminated, dropFinal]⟩
  · rw [List.concat_eq_append] at hfeed ⊢
    by_cases hc : c = '\r'
    · subst hc
      have hwrites : WritesLine (front ++ ['\r']) front := .inl rfl
      rwa [hwrites.unterminated_eq hfeed]
    · have hwrites : WritesLine (front ++ [c]) (front ++ [c]) := .inr ⟨rfl, by simpa using hc⟩
      rwa [hwrites.unterminated_eq hfeed]

/-- The lines that a text is cut into are lines of it. The text is taken apart at its first line
feed, where the first line ends. -/
theorem hasLines_physicalLines (text : List Char) : HasLines text (physicalLines text) := by
  -- A text is cut at its first line feed, and what follows is shorter.
  induction hlength : text.length using Nat.strongRecOn generalizing text with
  | ind n ih =>
    by_cases hfeed : '\n' ∈ text
    · obtain ⟨raw, rest, rfl, hraw⟩ := List.eq_append_cons_of_mem hfeed
      have hrest := ih rest.length (by simp [← hlength]; omega) rest rfl
      rw [physicalLines, separated_append hraw, List.map_cons]
      exact .line hraw (writesLine_unterminated hraw) hrest
    · by_cases hempty : text = []
      · rw [hempty]
        exact .empty
      · rw [physicalLines, separated_of_notMem hfeed hempty]
        exact .last hempty hfeed (writesLine_unterminated hfeed)

/-- A text has no other lines than those it is cut into. There is one way only to take a text apart,
since written lines have no line feed. -/
theorem HasLines.eq_physicalLines {text : List Char} {lines : List (List Char)}
    (h : HasLines text lines) : lines = physicalLines text := by
  induction h with
  | empty => rfl
  | last hne hfeed hwrites =>
    rw [physicalLines, separated_of_notMem hfeed hne, List.map_singleton,
      hwrites.unterminated_eq hfeed]
  | line hfeed hwrites _ ih =>
    rw [physicalLines, separated_append hfeed, List.map_cons, hwrites.unterminated_eq hfeed, ih]
    rfl

/-- The lines of a text are those it is cut into, and no others. So `physicalLines` computes what
`HasLines` says without cutting the text. -/
theorem hasLines_iff {text : List Char} {lines : List (List Char)} :
    HasLines text lines ↔ lines = physicalLines text :=
  ⟨HasLines.eq_physicalLines, fun h => h ▸ hasLines_physicalLines text⟩

/-! ## Unified line ends -/

/-- Every carriage return of a text stands right before a line feed. -/
def ReturnsBeforeFeeds (text : List Char) : Prop :=
  ∀ before after, text = before ++ '\r' :: after → ∃ rest, after = '\n' :: rest

/-- Every carriage return of a text is looked at with what follows it, one character after the
other. So it can be decided whether each stands before a line feed. -/
theorem returnsBeforeFeeds_cons {c : Char} {text : List Char} :
    ReturnsBeforeFeeds (c :: text) ↔
      (c = '\r' → text.head? = some '\n') ∧ ReturnsBeforeFeeds text := by
  constructor
  · intro h
    refine ⟨?_, fun before after heq => h (c :: before) after (by rw [heq]; rfl)⟩
    rintro rfl
    obtain ⟨rest, rfl⟩ := h [] text rfl
    rfl
  · rintro ⟨hfirst, hrest⟩ (_ | ⟨b, before⟩) after heq
    · cases heq
      obtain ⟨rest, hafter⟩ := List.head?_eq_some_iff.1 (hfirst rfl)
      exact ⟨rest, hafter⟩
    · cases heq
      exact hrest before after rfl

instance decidableReturnsBeforeFeeds : (text : List Char) → Decidable (ReturnsBeforeFeeds text)
  | [] => .isTrue fun before after heq => by cases before <;> cases heq
  | c :: text =>
    have := decidableReturnsBeforeFeeds text
    decidable_of_iff _ (returnsBeforeFeeds_cons (c := c)).symm

/-- A text whose line ends are unified has no carriage return: one before a line feed is removed,
and any other becomes a line feed. -/
theorem notMem_unifiedNewlines (text : List Char) : '\r' ∉ unifiedNewlines text := by
  fun_induction unifiedNewlines text with
  | case1 => exact List.not_mem_nil
  | case2 text ih => simpa using ih
  | case3 c text _ ih =>
    rw [List.mem_cons, not_or]
    refine ⟨?_, ih⟩
    split
    · decide
    · next hc => exact Ne.symm hc

/-- If every carriage return stands before a line feed, unifying the line ends of a text takes one
carriage return from the end of each line that has one. Another one would have become a line feed
and divided its line. -/
theorem separated_unifiedNewlines {text : List Char} (h : ReturnsBeforeFeeds text) :
    separated '\n' (unifiedNewlines text) = (separated '\n' text).map (dropFinal '\r') := by
  fun_induction unifiedNewlines text with
  | case1 => rfl
  | case2 text ih =>
    have htext := (returnsBeforeFeeds_cons.1 (returnsBeforeFeeds_cons.1 h).2).2
    simp [separated, dropFinal, ih htext]
  | case3 c text hnot ih =>
    obtain ⟨hfirst, htext⟩ := returnsBeforeFeeds_cons.1 h
    have hc : c ≠ '\r' := by
      intro heq
      obtain ⟨rest, hrest⟩ := List.head?_eq_some_iff.1 (hfirst heq)
      exact hnot rest heq hrest
    rw [if_neg hc, separated, separated, ih htext]
    split
    · rfl
    · cases separated '\n' text with
      | nil => simp [dropFinal, hc]
      | cons line lines => simp [dropFinal_cons hc]

/-- If every carriage return stands before a line feed, unifying the line ends of a text leaves its
lines as they are. They lose their carriage returns either way, now or when the text is cut. -/
theorem physicalLines_unifiedNewlines {text : List Char} (h : ReturnsBeforeFeeds text) :
    physicalLines (unifiedNewlines text) = physicalLines text := by
  rw [physicalLines_eq_map, physicalLines_eq_map, ← separated_unifiedNewlines h]
  -- The lines of the unified text have no carriage return to lose.
  refine (List.map_congr_left fun line hline => ?_).trans (List.map_id _)
  refine dropFinal_of_notMem fun hmem => notMem_unifiedNewlines text ?_
  exact (mem_of_mem_separated hline hmem).1

end ActivityScript.Text
