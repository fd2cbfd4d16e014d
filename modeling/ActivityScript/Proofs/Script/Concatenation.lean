import ActivityScript.Proofs.Script.LineByLine
import ActivityScript.Proofs.Text.Lines

/-!
# Concatenation of scripts

A script that is empty or ends with a line feed can be put in front of another script
(`tokenize_parse_append`): the tokens are those of the first without its end of input and then those
of the second, and the statements are those of the first and then those of the second. What comes
from the second script is moved down by the number of lines of the first. Of several faults, one of
lexing counts before one of parsing, and then one of the first script before one of the second.

That nothing of the first script reaches into the second is what `LineByLine` says. What is left
here is that the second script is handled alike at any place: lexing commutes with moving lines
(`tokenLines_shift`), and parsing with any change of locations (`parse_relocate`).
-/

namespace ActivityScript.Script

/-! ## Other places -/

/-- A location `n` lines further down. -/
def Location.shift (n : Nat) (location : Location) : Location :=
  { location with line := location.line + n }

section Relocation

variable {φ : Type} (place : Location → Location)

/-- A token at another place. -/
def Token.relocate (token : Token) : Token := ⟨token.lexeme, place token.location⟩

/-- A diagnostic at another place. -/
def Diagnostic.relocate (diagnostic : Diagnostic) : Diagnostic :=
  ⟨diagnostic.problem, place diagnostic.location⟩

/-- A fault of reading at another place. Bytes that cannot be decoded have none. -/
def ReadFault.relocate : ReadFault → ReadFault
  | .script diagnostic => .script (diagnostic.relocate place)
  | .encoding fault => .encoding fault

/-- A tree at other places. -/
def Node.relocate (node : Node φ) : Node φ := node.map place id

/-- The outcome of a part of the parser at other places: `move` says what this means for what it
gives if it succeeds. -/
def relocated {α : Type} (move : α → α) : Except Diagnostic α → Except Diagnostic α
  | .ok value => .ok (move value)
  | .error diagnostic => .error (diagnostic.relocate place)

/-- A tree and the tokens after it at other places. -/
def relocatePair (pair : Node φ × List Token) : Node φ × List Token :=
  (pair.1.relocate place, pair.2.map (Token.relocate place))

end Relocation

/-! ## Lexing further down -/

section Lexing

variable (file : Option String) (n line column : Nat) (cs : List Char) (lines : List Line)

/-- A line has the same tokens and the same fault further down. The number of the line is only ever
handed on to the places of tokens. -/
theorem lexLine_shift :
    lexLine file (line + n) column cs
      = ((lexLine file line column cs).1.map (Token.relocate (Location.shift n)),
          (lexLine file line column cs).2.map (Diagnostic.relocate (Location.shift n))) := by
  fun_induction lexLine file line column cs with
  | case1 column cs found lexeme next rest hscan tokens fault hrest ih =>
    rw [lexLine_of_lexeme hscan, ih, hrest]
    rfl
  | case2 column cs found hscan =>
    rw [lexLine_of_lineEnd hscan]
    rfl
  | case3 column cs found problem hscan =>
    rw [lexLine_of_fault hscan]
    rfl

/-- The tokens of a line further down are those of the line, moved. A line that is no text has no
place, so its fault is not moved. -/
theorem lineTokens_shift (first : Line) :
    lineTokens file (line + n) first
      = ((lineTokens file line first).map (List.map (Token.relocate (Location.shift n)))).mapError
          (ReadFault.relocate (Location.shift n)) := by
  cases first with
  | error fault => rfl
  | ok cs =>
    rw [lineTokens, lineTokens, lexLine_shift]
    cases lexLine file line 0 cs with
    | mk tokens fault? => cases fault? <;> rfl

/-- The lines of a script have the same tokens further down, and their fault is the same. All lines
are moved by the same number, since they are counted on from the first. -/
theorem tokenLines_shift :
    tokenLines file (line + n) lines
      = ((tokenLines file line lines).map
          (List.map (List.map (Token.relocate (Location.shift n))))).mapError
          (ReadFault.relocate (Location.shift n)) := by
  induction lines generalizing line with
  | nil => rfl
  | cons first lines ih =>
    have hcount : line + n + 1 = line + 1 + n := by omega
    rw [tokenLines, tokenLines, lineTokens_shift, hcount, ih]
    cases lineTokens file line first with
    | error fault => rfl
    | ok tokens => cases tokenLines file (line + 1) lines <;> rfl

end Lexing

/-! ## Parsing at other places -/

section Parsing

variable {φ : Type} (registry : Registry φ) (place : Location → Location) (last location : Location)
  (name : String) (tokens : List Token)

/-- The same arguments are taken at other places: whether a token is an argument depends on its
lexeme alone. What is left over is the same as well. -/
theorem takeArguments_relocate :
    takeArguments (tokens.map (Token.relocate place))
      = ((takeArguments (φ := φ) tokens).1.map (Node.relocate place),
          (takeArguments (φ := φ) tokens).2.map (Token.relocate place)) := by
  fun_induction takeArguments (φ := φ) tokens with
  | case1 => rfl
  | case2 name location tokens arguments rest heq ih =>
    rw [List.map_cons, Token.relocate, takeArguments, ih, heq]
    simp [Node.relocate, Node.map]
  | case3 text location tokens arguments rest heq ih =>
    rw [List.map_cons, Token.relocate, takeArguments, ih, heq]
    simp [Node.relocate, Node.map]
  | case4 token tokens hname htext =>
    obtain ⟨lexeme, location⟩ := token
    cases lexeme with
    | identifier name => exact absurd rfl (hname name location)
    | literal text => exact absurd rfl (htext text location)
    | equals | endOfLine | endOfInput => rfl

/-- A call resolves to the same entry at another place, or fails with the same problem there. The
place is only used for the diagnostic. -/
theorem resolve_relocate (count : Nat) :
    registry.resolve (place location) name count
      = relocated place id (registry.resolve location name count) := by
  unfold Registry.resolve
  split
  · rfl
  · split
    · rfl
    · split <;> rfl

/-- A call is parsed alike at other places. It needs the place of the last token only if the tokens
run out, and this place is moved as well. -/
theorem parseCall_relocate :
    parseCall registry (place last) name (place location) (tokens.map (Token.relocate place))
      = relocated place (relocatePair place) (parseCall registry last name location tokens) := by
  have htake := takeArguments_relocate (φ := φ) place tokens
  cases hrest : takeArguments (φ := φ) tokens with
  | mk arguments rest =>
    rw [hrest] at htake
    cases rest with
    | nil =>
      rw [parseCall, parseCall, htake, hrest]
      rfl
    | cons next rest =>
      rw [parseCall_eq htake (by simp), parseCall_eq hrest (by simp), List.length_map,
        resolve_relocate]
      cases registry.resolve location name arguments.length with
      | error diagnostic => rfl
      | ok target =>
        simp [relocated, relocatePair, Except.map, Node.relocate, Node.map, Node.mapAll_eq_map]

/-- The value of an assignment is parsed alike at other places, whether it is a text or a call. -/
theorem parseValue_relocate :
    parseValue registry (place last) (tokens.map (Token.relocate place))
      = relocated place (relocatePair place) (parseValue registry last tokens) := by
  match tokens with
  | [] => rfl
  | ⟨lexeme, location⟩ :: tokens =>
    cases lexeme with
    | identifier name => exact parseCall_relocate registry place last location name tokens
    | literal text =>
      simp [parseValue, Token.relocate, relocated, relocatePair, Node.relocate, Node.map]
    | equals | endOfLine | endOfInput => rfl

/-- A statement is parsed alike at other places. The cases are those of the parser: an equals sign
as second token makes it an assignment, and anything else a call. -/
theorem parseStatement_relocate (token : Token) :
    parseStatement registry (place last) (token.relocate place)
        (tokens.map (Token.relocate place))
      = relocated place (relocatePair place) (parseStatement registry last token tokens) := by
  obtain ⟨lexeme, location⟩ := token
  cases lexeme with
  | literal | equals | endOfLine | endOfInput => rfl
  | identifier name =>
    match tokens with
    | [] => exact parseCall_relocate registry place last location name []
    | ⟨first, sign⟩ :: tokens =>
      cases first with
      | identifier | literal | endOfLine | endOfInput =>
        rw [Token.relocate, parseStatement_eq_parseCall (by simp [Token.relocate]),
          parseStatement_eq_parseCall (by simp)]
        exact parseCall_relocate registry place last location name _
      | equals =>
        rw [List.map_cons, Token.relocate, Token.relocate, parseStatement_equals,
          parseStatement_equals, parseValue_relocate]
        cases parseValue registry last tokens with
        | error diagnostic => rfl
        | ok pair => simp [relocated, relocatePair, Except.map, Node.relocate, Node.map]

/-- Statements are the same at other places, and so is the first problem. The cases follow the
recursion of the parser, and each one takes the same branch for the tokens that were moved. -/
theorem parseStatements_relocate :
    parseStatements registry (place last) (tokens.map (Token.relocate place))
      = relocated place (List.map (Node.relocate place))
          (parseStatements registry last tokens) := by
  have hisEnd {token : Token} (hinput : token.lexeme ≠ .endOfInput)
      (hline : token.lexeme ≠ .endOfLine) : (token.relocate place).isEnd = false := by
    simp [Token.isEnd, Token.relocate, hinput, hline]
  fun_induction parseStatements registry last tokens with
  | case1 =>
    rw [List.map_nil, parseStatements]
    rfl
  | case2 token tokens hlex =>
    rw [List.map_cons, parseStatements, Token.relocate, hlex]
    rfl
  | case3 token tokens hlex ih =>
    rw [List.map_cons, parseStatements, Token.relocate, hlex]
    exact ih
  | case4 token tokens found hstatement hinput hline =>
    rw [List.map_cons, parseStatements_eq_bind (hisEnd hinput hline), parseStatement_relocate,
      hstatement]
    rfl
  | case5 token tokens node hstatement hinput hline =>
    rw [List.map_cons, parseStatements_eq_bind (hisEnd hinput hline), parseStatement_relocate,
      hstatement]
    rfl
  | case6 token tokens node next rest hstatement hnext nodes hrest hinput hline ih =>
    rw [List.map_cons, parseStatements_eq_bind (hisEnd hinput hline), parseStatement_relocate,
      hstatement]
    rw [hrest] at ih
    refine (if_pos hnext).trans ?_
    rw [ih]
    rfl
  | case7 token tokens node next rest hstatement hnext found hrest hinput hline ih =>
    rw [List.map_cons, parseStatements_eq_bind (hisEnd hinput hline), parseStatement_relocate,
      hstatement]
    rw [hrest] at ih
    refine (if_pos hnext).trans ?_
    rw [ih]
    rfl
  | case8 token tokens node next rest hstatement hinput hline hnext =>
    rw [List.map_cons, parseStatements_eq_bind (hisEnd hinput hline), parseStatement_relocate,
      hstatement]
    exact if_neg hnext

/-- Parsing commutes with any change of locations, since it looks at lexemes only and hands places
on. -/
theorem parse_relocate :
    parse registry (tokens.map (Token.relocate place))
      = relocated place (List.map (Node.relocate place)) (parse registry tokens) := by
  rw [parse, parse, List.getLast?_map]
  cases tokens.getLast? with
  | none => rfl
  | some last => exact parseStatements_relocate registry place last.location tokens

end Parsing

/-! ## One script after another -/

section Concatenation

variable {φ : Type} (registry : Registry φ) (s t : String) (file : Option String)

/-- The number of lines of a text. -/
def lineCount (s : String) : Nat := (Text.physicalLines s.toList).length

/-- The tokens of a text are those of its lines and an end of input, whose line number is the number
of the lines. A text has no lines without text. -/
theorem tokenize_text_eq :
    tokenize (.text s) file
      = (tokenLines file 0 ((Text.physicalLines s.toList).map .ok)).map
          (·.flatten ++ [⟨.endOfInput, ⟨lineCount s, 0, file⟩⟩]) := by
  have h := tokens?_lexLines_eq file 0 ((Text.physicalLines s.toList).map .ok)
  rw [List.length_map, Nat.zero_add] at h
  exact h

/-- A source that is lexed without a fault has the tokens found. Both sides of this can be
evaluated. -/
theorem tokenize_eq_ok {source : Source} {tokens : List Token}
    (hfault : (source.lexing file).fault? = none) (htokens : (source.lexing file).tokens = tokens) :
    tokenize source file = .ok tokens := by
  rw [tokenize, Lexing.tokens?, hfault, htokens]

/-- A text has at least one token, the end of input. So the parser always has a last token to go
by. -/
theorem ne_nil_of_tokenize_text {tokens : List Token} (h : tokenize (.text s) file = .ok tokens) :
    tokens ≠ [] := by
  rw [tokenize_text_eq] at h
  cases hlines : tokenLines file 0 ((Text.physicalLines s.toList).map .ok) with
  | error fault => rw [hlines] at h; cases h
  | ok lines =>
    rw [hlines] at h
    cases h
    simp

/-- Closed lines are parsed on their own and then what follows them; the first problem counts. What
follows must not be empty, because its last place is the one that the parser goes by. -/
theorem parse_flatten_append {lines : List (List Token)} (h : ∀ line ∈ lines, ClosedLine line)
    (finish : Location) {after : List Token} (hafter : after ≠ []) :
    parse registry (lines.flatten ++ after)
      = (parse registry (lines.flatten ++ [⟨.endOfInput, finish⟩])).bind fun program =>
          (parse registry after).map (program ++ ·) := by
  rw [parse_eq_parseStatements registry hafter,
    parse_eq_parseStatements registry (List.append_ne_nil_of_right_ne_nil _ hafter),
    parse_eq_parseStatements registry (List.append_ne_nil_of_right_ne_nil _ (List.cons_ne_nil _ _)),
    List.getLast_append_of_ne_nil _ hafter]
  rcases parseStatements_flatten h registry with ⟨diagnostic, hfault⟩ | ⟨nodes, hnodes⟩
  · rw [hfault, hfault]
    rfl
  · rw [hnodes, hnodes, parseStatements]
    simp [Except.map, Except.bind]

/-- The tokens of two texts, the second of which begins a line: those of the lines of the first, and
then those of the second, further down. A fault of the first comes before one of the second. -/
theorem tokenize_append (hs : ∀ c ∈ s.toList.getLast?, c = '\n') :
    tokenize (.text (s ++ t)) file
      = (tokenLines file 0 ((Text.physicalLines s.toList).map .ok)).bind fun first =>
          ((tokenize (.text t) file).map fun after =>
            first.flatten ++ after.map (Token.relocate (.shift (lineCount s)))).mapError
            (ReadFault.relocate (.shift (lineCount s))) := by
  rw [tokenize_text_eq t, tokenize_text_eq (s ++ t), String.toList_append,
    Text.physicalLines_append hs, List.map_append, tokenLines_append, List.length_map,
    tokenLines_shift]
  cases tokenLines file 0 ((Text.physicalLines s.toList).map .ok) with
  | error fault => rfl
  | ok first =>
    cases tokenLines file 0 ((Text.physicalLines t.toList).map .ok) with
    | error fault => rfl
    | ok second =>
      simp [Except.map, Except.mapError, Except.bind, List.map_flatten, Token.relocate,
        Location.shift, lineCount, Text.physicalLines_append hs, Nat.add_comm]

/-- **Scripts can be put one after the other.** Let `s` be empty or end with a line feed. If `s` is
not lexed, neither is `s ++ t`, for the same reason. If only `t` is not lexed, `s ++ t` is not, for
the same reason further down, by as many lines as `s` has. Otherwise the tokens of `s ++ t` are
those of `s` without its end of input and those of `t` further down. These are parsed to the
statements of `s` and those of `t` further down, unless `s` or else `t` has a problem, which is then
that of `s ++ t`. -/
theorem tokenize_parse_append (hs : s = "" ∨ s.toList.getLast? = some '\n') :
    (∀ fault, tokenize (.text s) file = .error fault →
      tokenize (.text (s ++ t)) file = .error fault) ∧
    (∀ before fault, tokenize (.text s) file = .ok before →
      tokenize (.text t) file = .error fault →
      tokenize (.text (s ++ t)) file = .error (fault.relocate (.shift (lineCount s)))) ∧
    ∀ before after, tokenize (.text s) file = .ok before → tokenize (.text t) file = .ok after →
      ∃ content tokens, before = content ++ [⟨.endOfInput, ⟨lineCount s, 0, file⟩⟩] ∧
        tokens = content ++ after.map (Token.relocate (.shift (lineCount s))) ∧
        tokenize (.text (s ++ t)) file = .ok tokens ∧
        (∀ problem, parse registry before = .error problem →
          parse registry tokens = .error problem) ∧
        (∀ program problem, parse registry before = .ok program →
          parse registry after = .error problem →
          parse registry tokens = .error (problem.relocate (.shift (lineCount s)))) ∧
        ∀ program program', parse registry before = .ok program →
          parse registry after = .ok program' →
          parse registry tokens
            = .ok (program ++ program'.map (Node.relocate (.shift (lineCount s)))) := by
  have hlast : ∀ c ∈ s.toList.getLast?, c = '\n' := by
    rcases hs with rfl | hs
    · simp
    · intro c hc
      rw [hs] at hc
      exact (Option.some.inj hc).symm
  have happend := tokenize_append s t file hlast
  have hbefore := tokenize_text_eq s file
  cases hlines : tokenLines file 0 ((Text.physicalLines s.toList).map .ok) with
  | error fault =>
    rw [hlines] at happend hbefore
    rw [hbefore, happend]
    refine ⟨fun fault' h => h, fun before fault' h => ?_, fun before after h => ?_⟩ <;> cases h
  | ok first =>
    rw [hlines] at happend hbefore
    rw [hbefore, happend]
    refine ⟨fun fault h => ?_, fun before fault h hfault => ?_, fun before after h hafter => ?_⟩
    · cases h
    · rw [hfault]
      rfl
    · cases h
      rw [hafter]
      refine ⟨first.flatten, _, rfl, rfl, rfl, ?_⟩
      have hne : after.map (Token.relocate (.shift (lineCount s))) ≠ [] := by
        simpa using ne_nil_of_tokenize_text t file hafter
      rw [parse_flatten_append registry (ClosedLine.of_tokenLines hlines)
        ⟨lineCount s, 0, file⟩ hne, parse_relocate]
      refine ⟨fun problem hp => ?_, fun program problem hp hq => ?_,
        fun program program' hp hq => ?_⟩
      · rw [hp]
        rfl
      · rw [hp, hq]
        rfl
      · rw [hp, hq]
        rfl

/-- A problem of the second script is reported two lines further down. -/
theorem tokenize_parse_append_problem :
    let s := "x = :a\r\n\n"
    let t := "x\n"
    let registry : Registry Unit := ⟨[]⟩
    let content : List Token :=
      [⟨.identifier "x", ⟨0, 0, none⟩⟩, ⟨.equals, ⟨0, 2, none⟩⟩, ⟨.literal "a", ⟨0, 4, none⟩⟩,
        ⟨.endOfLine, ⟨0, 6, none⟩⟩, ⟨.endOfLine, ⟨1, 0, none⟩⟩]
    let after : List Token :=
      [⟨.identifier "x", ⟨0, 0, none⟩⟩, ⟨.endOfLine, ⟨0, 1, none⟩⟩, ⟨.endOfInput, ⟨1, 0, none⟩⟩]
    let before := content ++ [⟨.endOfInput, ⟨2, 0, none⟩⟩]
    (s.toList.getLast? = some '\n' ∧ tokenize (.text s) none = .ok before ∧
      tokenize (.text t) none = .ok after ∧
      parse registry before = .ok [.assignment ⟨0, 0, none⟩ "x" (.literal ⟨0, 4, none⟩ "a")] ∧
      parse registry after = .error ⟨.functionNotFound, ⟨0, 0, none⟩⟩) ∧
    tokenize (.text (s ++ t)) none = .ok (content ++ after.map (Token.relocate (.shift 2))) ∧
    parse registry (content ++ after.map (Token.relocate (.shift 2)))
      = .error ⟨.functionNotFound, ⟨2, 0, none⟩⟩ := by
  intro s t registry content after before
  have hs : s.toList.getLast? = some '\n' := by decide
  have hbefore : tokenize (.text s) none = .ok before :=
    tokenize_eq_ok none (by decide +kernel) (by decide +kernel)
  have hafter : tokenize (.text t) none = .ok after :=
    tokenize_eq_ok none (by decide +kernel) (by decide +kernel)
  have hfirst : parse registry before
      = .ok [.assignment ⟨0, 0, none⟩ "x" (.literal ⟨0, 4, none⟩ "a")] := by
    have hrest : parseStatements registry ⟨2, 0, none⟩
        [⟨.endOfLine, ⟨1, 0, none⟩⟩, ⟨.endOfInput, ⟨2, 0, none⟩⟩] = .ok [] := by
      rw [parseStatements, parseStatements]
    exact (parseStatements_cons rfl rfl).trans (congrArg _ hrest)
  have hsecond : parse registry after = .error ⟨.functionNotFound, ⟨0, 0, none⟩⟩ := by
    exact parseStatements_eq_bind rfl
  obtain ⟨content', tokens, heq, rfl, htokens, -, hproblem, -⟩ :=
    (tokenize_parse_append registry s t none (.inr hs)).2.2 before after hbefore hafter
  have hlines : lineCount s = 2 := by decide
  rw [hlines] at htokens hproblem
  obtain rfl : content = content' := (List.append_inj' heq rfl).1
  exact ⟨⟨hs, hbefore, hafter, hfirst, hsecond⟩, htokens, hproblem _ _ hfirst hsecond⟩

end Concatenation

end ActivityScript.Script
