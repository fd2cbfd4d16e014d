import ActivityScript.CommandLine.Inline
import ActivityScript.Proofs.Script.Layout
import ActivityScript.Proofs.Script.Meaning
import ActivityScript.Proofs.Script.Phases

/-!
# Words on the command line

A script of words is one call: the first word names the function, and every other word reaches it
verbatim. Blanks, number signs, colons, equals signs and carriage returns in a word mean nothing,
because the word stands between quotation marks; a word that has a quotation mark itself is left out
of account here. The one character that no quoted text may hold is a line feed. A word with a line
feed ends the first line inside the text that was opened for it, so the script is not read at all.

Each word is spelled with the blank before it (`spelledWord`), so that the script is its first word
followed by the spellings of the others (`toList_inlineScript`) and the lexer takes off one spelling
after the other (`lexLine_spelledWords`). `words_reach_function` puts this together.
-/

namespace ActivityScript.CommandLine

open Script

variable {file : Option String} {name : Layout.Name} {words : List String}

/-! ## Spellings -/

/-- A later word as it stands in a script: a blank, and the word between quotation marks. -/
def spelledWord (word : String) : List Char := ' ' :: '\x22' :: word.toList ++ ['\x22']

/-- Quoted words with their places in the first line; before the first word there are `column`
characters. -/
def placedWords (file : Option String) (column : Nat) : List String → List (String × Location)
  | [] => []
  | word :: words =>
    (word, ⟨0, column + 1, file⟩)
      :: placedWords file (column + (spelledWord word).length) words

/-- The words that are placed are the words that were given, in their order. Their places are known
from the lengths of the words before them. -/
theorem map_fst_placedWords (file : Option String) (column : Nat) (words : List String) :
    (placedWords file column words).map Prod.fst = words := by
  induction words generalizing column with
  | nil => rfl
  | cons word words ih => rw [placedWords, List.map_cons, ih]

/-- A word without a quotation mark is put between quotation marks, and this is how it is spelled
after a blank. -/
theorem toList_inlineWord {word : String} (h : '\x22' ∉ word.toList) :
    ' ' :: (inlineWord word).toList = spelledWord word := by
  have hmark : word.toList.contains '\x22' = false := by simpa using h
  rw [inlineWord, hmark]
  simp [spelledWord]

/-- A script is its first word, followed by the spellings of the others. The blank between two words
is part of the spelling of the second. -/
theorem toList_inlineScript (first : String) (h : ∀ word ∈ words, '\x22' ∉ word.toList) :
    (inlineScript (first :: words)).toList = first.toList ++ words.flatMap spelledWord := by
  rw [inlineScript, String.toList_intercalate, List.map_cons]
  -- The first word stays as it is, so in the induction it stands for any beginning of the script.
  induction words generalizing first with
  | nil => simp
  | cons word words ih =>
    obtain ⟨hword, hwords⟩ := List.forall_mem_cons.1 h
    have hrest := ih (inlineWord word) hwords
    rw [List.map_cons, List.map_cons, List.intercalate_cons_cons, hrest, List.flatMap_cons,
      ← toList_inlineWord hword]
    simp

/-- No cut into lines touches a word without line feed. It ends with a quotation mark, so that not
even a carriage return at its end is lost. -/
theorem whole_spelledWord {word : String} (h : '\n' ∉ word.toList) :
    Layout.Whole (spelledWord word) := by
  refine ⟨by simp [spelledWord, h], fun c hc => ?_⟩
  have hlast : (spelledWord word).getLast? = some '\x22' := by
    rw [spelledWord, List.getLast?_append]
    rfl
  rw [hlast] at hc
  cases hc
  decide

/-- The column of the quotation mark that opens the word after `before`. -/
def openingColumn (first : String) (before : List String) : Nat :=
  (inlineScript (first :: before)).length + 1

/-- The column of a quotation mark that opens a word counts what stands before it: the name, the
spellings of the words before, and a blank. -/
theorem openingColumn_eq {before : List String} (h : ∀ word ∈ before, '\x22' ∉ word.toList) :
    openingColumn name.text before = (name.chars ++ before.flatMap spelledWord).length + 1 := by
  rw [openingColumn, ← String.length_toList, toList_inlineScript _ h, name.toList_text]

/-- At the opening column there is a quotation mark. So the place that a fault names is where the
word that is not closed was opened. -/
theorem getElem?_openingColumn {before after : List String} {word : String}
    (h : ∀ w ∈ before ++ word :: after, '\x22' ∉ w.toList) :
    (inlineScript (name.text :: (before ++ word :: after))).toList[openingColumn name.text before]?
      = some '\x22' := by
  rw [openingColumn_eq fun w hw => h w (List.mem_append_left _ hw), toList_inlineScript _ h,
    name.toList_text, List.flatMap_append, List.flatMap_cons, ← List.append_assoc,
    List.getElem?_append_right (Nat.le_add_right _ _)]
  simp [spelledWord]

/-! ## Lexing -/

/-- The token of a quoted word. -/
def wordToken (placed : String × Location) : Token := ⟨.literal placed.1, placed.2⟩

/-- The lexer takes off the spelling of a word and finds the word in it, verbatim. Nothing in the
word means anything between quotation marks. -/
theorem lexLine_spelledWord {word : String} (h : '\x22' ∉ word.toList) (column : Nat)
    (rest : List Char) :
    lexLine file 0 column (spelledWord word ++ rest)
      = (⟨.literal word, ⟨0, column + 1, file⟩⟩
            :: (lexLine file 0 (column + (spelledWord word).length) rest).1,
          (lexLine file 0 (column + (spelledWord word).length) rest).2) := by
  have hspelled : spelledWord word ++ rest
      = [' '] ++ ('\x22' :: word.toList ++ '\x22' :: rest) := by
    simp [spelledWord]
  have hlength : column + 1 + (word.toList.length + 2) = column + (spelledWord word).length := by
    simp [spelledWord]
    omega
  have hblank : ∀ c ∈ [' '], isSeparator c := by simp [isSeparator]
  rw [hspelled, lexLine_congr (scan_append_of_isSeparator hblank), List.length_singleton,
    lexLine_of_lexeme (scan_quoted h), hlength, String.ofList_toList]

/-- The lexer takes off the spellings of all words, one after the other, and finds each word at its
place. -/
theorem lexLine_spelledWords (h : ∀ word ∈ words, '\x22' ∉ word.toList) (column : Nat)
    (rest : List Char) :
    lexLine file 0 column (words.flatMap spelledWord ++ rest)
      = ((placedWords file column words).map wordToken
            ++ (lexLine file 0 (column + (words.flatMap spelledWord).length) rest).1,
          (lexLine file 0 (column + (words.flatMap spelledWord).length) rest).2) := by
  induction words generalizing column with
  | nil => rfl
  | cons word words ih =>
    obtain ⟨hword, hwords⟩ := List.forall_mem_cons.1 h
    rw [List.flatMap_cons, List.append_assoc, lexLine_spelledWord hword, ih hwords,
      List.length_append, Nat.add_assoc, placedWords, List.map_cons]
    rfl

/-- What stands behind a name in a script does not continue it: a blank comes first if there is a
word, and otherwise what is known not to continue it. -/
theorem isNameChar_head_spelledWords {rest : List Char}
    (hrest : ∀ c ∈ rest.head?, isNameChar c = false) :
    ∀ c ∈ (words.flatMap spelledWord ++ rest).head?, isNameChar c = false := by
  cases words with
  | nil => exact hrest
  | cons word words =>
    intro c hc
    cases hc
    decide

/-- The lexer finds the name of the function, then the words, then what follows them. The rest may
be the end of the line or a word that is not closed. -/
theorem lexLine_words (file : Option String) (name : Layout.Name)
    (h : ∀ word ∈ words, '\x22' ∉ word.toList) {rest : List Char}
    (hrest : ∀ c ∈ rest.head?, isNameChar c = false) :
    lexLine file 0 0 (name.chars ++ words.flatMap spelledWord ++ rest)
      = (⟨.identifier name.text, ⟨0, 0, file⟩⟩
            :: (placedWords file name.chars.length words).map wordToken
            ++ (lexLine file 0 (name.chars ++ words.flatMap spelledWord).length rest).1,
          (lexLine file 0 (name.chars ++ words.flatMap spelledWord).length rest).2) := by
  have hscan : scan 0 (name.chars ++ (words.flatMap spelledWord ++ rest))
      = .lexeme 0 (.identifier name.text) (0 + name.chars.length)
          (words.flatMap spelledWord ++ rest) :=
    (Layout.Atom.name name).scan (isNameChar_head_spelledWords hrest)
  rw [List.append_assoc, List.length_append, lexLine_of_lexeme hscan, lexLine_spelledWords h,
    Nat.zero_add]
  rfl

/-- The tokens of a script of words without line feeds: the name, one text for each word, and the
two ends. The script is a single line. -/
theorem tokenize_inlineScript (name : Layout.Name) (file : Option String)
    (hmarks : ∀ word ∈ words, '\x22' ∉ word.toList)
    (hfeeds : ∀ word ∈ words, '\n' ∉ word.toList) :
    ∃ sign finish, tokenize (.text (inlineScript (name.text :: words))) file
      = .ok (⟨.identifier name.text, ⟨0, 0, file⟩⟩
          :: (placedWords file name.chars.length words).map wordToken
          ++ [⟨.endOfLine, sign⟩, ⟨.endOfInput, finish⟩]) := by
  have hwhole : Layout.Whole (name.chars ++ words.flatMap spelledWord) :=
    name.whole.append (.flatMap fun word hword => whole_spelledWord (hfeeds word hword))
  have hlines : Text.physicalLines (name.chars ++ words.flatMap spelledWord)
      = [name.chars ++ words.flatMap spelledWord] := by
    have hne : name.chars ++ words.flatMap spelledWord ≠ [] := List.cons_ne_nil _ _
    rw [Text.physicalLines_eq_map, Text.separated_of_notMem hwhole.1 hne, List.map_singleton,
      Text.dropFinal_eq_self hwhole.2]
  have hend (column : Nat) : lexLine file 0 column [] = ([⟨.endOfLine, ⟨0, column, file⟩⟩], none) :=
    lexLine_of_lineEnd rfl
  have hline := lexLine_words file name hmarks fun c (hc : c ∈ [].head?) => by cases hc
  rw [List.append_nil, hend] at hline
  refine ⟨⟨0, (name.chars ++ words.flatMap spelledWord).length, file⟩, ⟨1, 0, file⟩, ?_⟩
  rw [tokenize, Source.lexing, Source.lines, toList_inlineScript _ hmarks, name.toList_text,
    hlines, List.map_singleton, tokens?_lexLines_cons hline, tokens?_lexLines_nil]
  simp [Except.map]

/-- A word with a line feed leaves its text open at the end of the first line. The fault is at the
quotation mark, after the blank before it. -/
theorem scan_openWord {front : List Char} (h : '\x22' ∉ front) (column : Nat) :
    scan column (' ' :: '\x22' :: front) = .fault (column + 1) .unterminatedLiteral := by
  rw [scan, if_pos (by decide), scan, if_neg (by decide), if_neg (by decide), if_pos rfl,
    splitAtMark_eq_none_iff.2 h]

/-- The first line of a script ends at the first line feed of a word. It has all that stands before,
but for a carriage return right before the line feed. -/
theorem physicalLines_words {before : List String} {front : List Char}
    (hbefore : ∀ word ∈ before, '\n' ∉ word.toList) (hfront : '\n' ∉ front) (back : List Char) :
    Text.physicalLines
        (name.chars ++ before.flatMap spelledWord ++ ' ' :: '\x22' :: front ++ '\n' :: back)
      = (name.chars ++ before.flatMap spelledWord ++ ' ' :: '\x22' :: Text.dropFinal '\r' front)
        :: Text.physicalLines back := by
  have hwhole : Layout.Whole (name.chars ++ before.flatMap spelledWord) :=
    name.whole.append (.flatMap fun word hword => whole_spelledWord (hbefore word hword))
  have hfeed : '\n' ∉ name.chars ++ before.flatMap spelledWord ++ ' ' :: '\x22' :: front := by
    rw [List.mem_append, not_or]
    exact ⟨hwhole.1, by simpa using hfront⟩
  rw [Text.physicalLines_eq_map, Text.physicalLines_eq_map, Text.separated_append hfeed,
    List.map_cons, Text.dropFinal_append (List.cons_ne_nil _ _), Text.dropFinal_cons (by decide),
    Text.dropFinal_cons (by decide)]

/-- A script with a line feed in one of its words is not lexed: the first such word is never closed.
It does not matter what stands after the line feed. -/
theorem tokenize_inlineScript_of_feed {before after : List String} {word : String}
    (hmarks : ∀ w ∈ before ++ word :: after, '\x22' ∉ w.toList)
    (hbefore : ∀ w ∈ before, '\n' ∉ w.toList) (hword : '\n' ∈ word.toList) :
    tokenize (.text (inlineScript (name.text :: (before ++ word :: after)))) file
      = .error (.script ⟨.unterminatedLiteral, ⟨0, openingColumn name.text before, file⟩⟩) := by
  obtain ⟨front, back, hsplit, hfront⟩ := List.eq_append_cons_of_mem hword
  have hfrontMark : '\x22' ∉ Text.dropFinal '\r' front := by
    intro hmem
    have hmark := hmarks word (by simp)
    rw [hsplit] at hmark
    exact hmark (List.mem_append_left _ ((Text.dropFinal_prefix '\r' front).subset hmem))
  have hchars : name.chars ++ (before ++ word :: after).flatMap spelledWord
      = name.chars ++ before.flatMap spelledWord
        ++ ' ' :: '\x22' :: front ++ '\n' :: (back ++ '\x22' :: after.flatMap spelledWord) := by
    simp [spelledWord, hsplit]
  have hmarksBefore : ∀ w ∈ before, '\x22' ∉ w.toList :=
    fun w hw => hmarks w (List.mem_append_left _ hw)
  have hline := lexLine_words file name hmarksBefore
    fun c (hc : c ∈ (' ' :: '\x22' :: Text.dropFinal '\r' front).head?) => by cases hc; decide
  rw [lexLine_of_fault (scan_openWord hfrontMark _)] at hline
  rw [tokenize, Source.lexing, Source.lines, toList_inlineScript _ hmarks, name.toList_text,
    hchars, physicalLines_words hbefore hfront, List.map_cons, lexLines, hline,
    openingColumn_eq hmarksBefore]
  rfl

/-! ## Running -/

section Running

variable {σ : Type} {registry : Registry (Native σ)} {entry : Entry (Native σ)}

/-- The tree of a quoted word. -/
def wordNode {φ : Type} (placed : String × Location) : Node φ := .literal placed.2 placed.1

/-- The program of a script of words is one call, with a text for each word. The name must resolve
with that many arguments. -/
theorem parse_words {location sign finish : Location} {first : String}
    (placed : List (String × Location))
    (h : registry.resolve location first placed.length = .ok entry) :
    parse registry (⟨.identifier first, location⟩ :: placed.map wordToken
        ++ [⟨.endOfLine, sign⟩, ⟨.endOfInput, finish⟩])
      = .ok [.call location first entry (placed.map wordNode)] := by
  have hwords : List.Forall₂ ReadsArgument (placed.map wordToken)
      (placed.map (wordNode (φ := Native σ))) := by
    rw [List.forall₂_map_left_iff, List.forall₂_map_right_iff, List.forall₂_same]
    exact fun word _ => .literal
  have hcall : Reads registry (⟨.identifier first, location⟩ :: placed.map wordToken)
      (.call location first entry (placed.map wordNode)) :=
    .call ⟨hwords, by rw [List.length_map, h]⟩
  rw [List.cons_append, parse_eq_parseStatements registry (List.cons_ne_nil _ _),
    parseStatements_cons rfl (hcall.parseStatement _ sign [⟨.endOfInput, finish⟩]), parseStatements]
  rfl

/-- A script of words without line feeds is read as one call, if its name resolves. Where the name
stands does not matter to whether it resolves. -/
theorem read_inlineScript (hmarks : ∀ word ∈ words, '\x22' ∉ word.toList)
    (hfeeds : ∀ word ∈ words, '\n' ∉ word.toList) {location : Location}
    (h : registry.resolve location name.text words.length = .ok entry) (file : Option String) :
    Script.read registry (.text (inlineScript (name.text :: words))) file
      = .ok [.call ⟨0, 0, file⟩ name.text entry
          ((placedWords file name.chars.length words).map wordNode)] := by
  obtain ⟨sign, finish, htokens⟩ := tokenize_inlineScript name file hmarks hfeeds
  have hentry : registry.resolve ⟨0, 0, file⟩ name.text
      (placedWords file name.chars.length words).length = .ok entry := by
    rw [← List.length_map (f := Prod.fst), map_fst_placedWords]
    exact Registry.resolve_eq_ok_iff.2 (Registry.resolve_eq_ok_iff.1 h)
  rw [read_of_tokenize htokens, parse_words _ hentry]
  rfl

/-- A call of texts makes one call, with these texts as arguments. The values of texts need no name,
so nothing can go wrong before the call. -/
theorem tracedRun_words (location : Location) (first : String) (entry : Entry (Native σ))
    (placed : List (String × Location)) (state : σ) :
    (tracedRun [.call location first entry (placed.map wordNode)] state).state
      = ⟨(entry.invocation (placed.map Prod.fst) state).after,
          [entry.invocation (placed.map Prod.fst) state]⟩ := by
  have hvalues : (placed.map (wordNode (φ := Native σ))).map (Node.value? (Past.latest (σ := σ) []))
      = (placed.map Prod.fst).map some := by
    rw [List.map_map, List.map_map]
    rfl
  have hcall : Node.call? (.call location first entry (placed.map wordNode))
      = some (location, entry, placed.map wordNode) := rfl
  have hstep := run_runStatement_of_values Scope.Agrees.empty hcall hvalues state []
  rw [tracedRun, run, List.map_singleton, runFrom, hstep]
  cases (entry.invocation (placed.map Prod.fst) state).result <;> rfl

/-- **Words reach the function verbatim.** Let the first word be a name and let no other word have a
quotation mark. If no word has a line feed, the tokens of the script are the name, one text for each
other word, which is that word, and the two ends; and if the name resolves with that many arguments,
executing the script makes exactly one call, with the words as arguments. If a word has a line feed,
executing the script fails at the quotation mark that opens the first such word, and nothing is
called. -/
theorem words_reach_function (name : Layout.Name) (words : List String)
    (hmarks : ∀ word ∈ words, '\x22' ∉ word.toList) (file : Option String)
    (registry : Registry (Native σ)) (scope : Scope) (state : σ) :
    ((∀ word ∈ words, '\n' ∉ word.toList) →
      (∃ tokens, tokenize (.text (inlineScript (name.text :: words))) file = .ok tokens ∧
        tokens.map Token.lexeme
          = .identifier name.text :: words.map .literal ++ [.endOfLine, .endOfInput]) ∧
      ∀ location entry, registry.resolve location name.text words.length = .ok entry →
        history registry (.text (inlineScript (name.text :: words))) file state
            = [entry.invocation words state] ∧
          (execute registry (.text (inlineScript (name.text :: words))) file scope state).state
            = (entry.invocation words state).after) ∧
    ∀ before word after, words = before ++ word :: after →
      (∀ earlier ∈ before, '\n' ∉ earlier.toList) → '\n' ∈ word.toList →
      (inlineScript (name.text :: words)).toList[openingColumn name.text before]? = some '\x22' ∧
        (∃ diagnostic, diagnostic.report = ⟨"E002", "missing closing quotation mark",
            ⟨0, openingColumn name.text before, file⟩⟩ ∧
          execute registry (.text (inlineScript (name.text :: words))) file scope state
            = ⟨some (.script diagnostic), scope, state⟩) ∧
        history registry (.text (inlineScript (name.text :: words))) file state = [] := by
  refine ⟨fun hfeeds => ⟨?_, fun location entry hresolve => ?_⟩, ?_⟩
  · obtain ⟨sign, finish, htokens⟩ := tokenize_inlineScript name file hmarks hfeeds
    have hlexemes : (Token.lexeme ∘ wordToken) = Lexeme.literal ∘ Prod.fst := rfl
    refine ⟨_, htokens, ?_⟩
    rw [List.map_append, List.map_cons, List.map_map, hlexemes, ← List.map_map,
      map_fst_placedWords]
    rfl
  · have hread := read_inlineScript hmarks hfeeds hresolve file
    have htraced := tracedRun_words ⟨0, 0, file⟩ name.text entry
      (placedWords file name.chars.length words) state
    rw [map_fst_placedWords] at htraced
    constructor
    · rw [history, hread]
      exact congrArg Traced.calls htraced
    · rw [execute_of_read_ok hread, ← untraced_tracedRun]
      exact congrArg Traced.state htraced
  · rintro before word after rfl hbefore hword
    have hread : Script.read registry
        (.text (inlineScript (name.text :: (before ++ word :: after)))) file
          = .error (.script
              ⟨.unterminatedLiteral, ⟨0, openingColumn name.text before, file⟩⟩) := by
      rw [Script.read, tokenize_inlineScript_of_feed hmarks hbefore hword]
      rfl
    exact ⟨getElem?_openingColumn hmarks, ⟨_, rfl, execute_of_read_error hread⟩,
      history_of_read_error hread⟩

/-- A comment and an empty word are handed over as they are; an assignment after a line feed is not
even seen. -/
theorem words_reach_function_comment :
    let name : Layout.Name := ⟨'p', [], .inl (by decide), by simp⟩
    let join : Entry (Native Nat) :=
      ⟨"p", ["*texts"], ⟨0, true⟩, fun arguments => return String.join arguments⟩
    ((∀ word ∈ ["# x", ""], '\x22' ∉ word.toList) ∧
      history ⟨[join]⟩ (.text (inlineScript (name.text :: ["# x", ""]))) none 0
        = [join.invocation ["# x", ""] 0]) ∧
    (∀ word ∈ ["a", "\nx = ", "\n"], '\x22' ∉ word.toList) ∧
      (∃ diagnostic, diagnostic.report
          = ⟨"E002", "missing closing quotation mark", ⟨0, 6, none⟩⟩ ∧
        execute ⟨[join]⟩ (.text (inlineScript (name.text :: ["a", "\nx = ", "\n"]))) none .empty 0
          = ⟨some (.script diagnostic), .empty, 0⟩) := by
  intro name join
  have hquiet : ∀ word ∈ ["# x", ""], '\x22' ∉ word.toList := by simp
  have hbroken : ∀ word ∈ ["a", "\nx = ", "\n"], '\x22' ∉ word.toList := by simp
  have hcall := (words_reach_function name _ hquiet none ⟨[join]⟩ .empty 0).1 (by simp)
  have hfail := (words_reach_function name _ hbroken none ⟨[join]⟩ .empty 0).2 ["a"] "\nx = " ["\n"]
    rfl (by simp) (by simp)
  have hcolumn : openingColumn name.text ["a"] = 6 := by decide +kernel
  rw [hcolumn] at hfail
  exact ⟨⟨hquiet, (hcall.2 ⟨0, 0, none⟩ join rfl).1⟩, hbroken, hfail.2.1⟩

end Running

end ActivityScript.CommandLine
