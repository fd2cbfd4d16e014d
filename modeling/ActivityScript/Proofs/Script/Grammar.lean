import ActivityScript.Proofs.Basic
import ActivityScript.Script.Parser

/-!
# The grammar of programs

The parser against a grammar that does not mention it. `IsProgram` is the language of token lists

    program   := (EOL | statement EOL)* EOF
    statement := call | NAME '=' TEXT | NAME '=' call
    call      := NAME (NAME | TEXT)*

and `Reads` relates the tokens of one statement to its tree, calls resolved. A program is read line
by line: `statementsOf` gives the lines of a token list that are not blank, and the trees stand
against them in order. `parse_eq_ok_iff_isProgram` says that parsing succeeds with exactly those
trees; what follows the first end of input is not looked at.

Soundness (`Reads.of_parseStatement`, `IsProgram.of_parseStatements`) says which tokens a parse has
used up. Completeness (`Reads.parseStatement`, `IsProgram.parseStatements`) is stated with arbitrary
tokens left over, because a statement is followed by the rest of its program.
-/

namespace ActivityScript.Script

variable {φ : Type} {registry : Registry φ} {last location : Location} {name : String}
  {token : Token} {tokens rest used line : List Token} {node : Node φ} {nodes : List (Node φ)}

/-! ## The language -/

/-- Whether a token carries a text of the program: a name or a literal. -/
def Token.isWord (token : Token) : Bool :=
  token.lexeme.value?.isSome

@[simp] theorem Token.isWord_identifier (name : String) (location : Location) :
    Token.isWord ⟨.identifier name, location⟩ = true := rfl
@[simp] theorem Token.isWord_literal (text : String) (location : Location) :
    Token.isWord ⟨.literal text, location⟩ = true := rfl
@[simp] theorem Token.isWord_equals (location : Location) :
    Token.isWord ⟨.equals, location⟩ = false := rfl
@[simp] theorem Token.isWord_endOfLine (location : Location) :
    Token.isWord ⟨.endOfLine, location⟩ = false := rfl
@[simp] theorem Token.isWord_endOfInput (location : Location) :
    Token.isWord ⟨.endOfInput, location⟩ = false := rfl

/-- A call: a name, then any number of names and literals. -/
inductive IsCall : List Token → Prop where
  | mk {name : String} {location : Location} {arguments : List Token} :
      (∀ token ∈ arguments, token.isWord) → IsCall (⟨.identifier name, location⟩ :: arguments)

/-- A statement: a call, or a name and an equals sign before a literal or before a call. -/
inductive IsStatement : List Token → Prop where
  | call {tokens : List Token} : IsCall tokens → IsStatement tokens
  | bindText {name text : String} {at₁ at₂ at₃ : Location} :
      IsStatement [⟨.identifier name, at₁⟩, ⟨.equals, at₂⟩, ⟨.literal text, at₃⟩]
  | bindCall {name : String} {at₁ at₂ : Location} {tokens : List Token} :
      IsCall tokens → IsStatement (⟨.identifier name, at₁⟩ :: ⟨.equals, at₂⟩ :: tokens)

/-- A program: blank lines and statements, each up to its end of line, then an end of input. -/
inductive IsProgram : List Token → Prop where
  | endOfInput {location : Location} : IsProgram [⟨.endOfInput, location⟩]
  | blank {location : Location} {tokens : List Token} :
      IsProgram tokens → IsProgram (⟨.endOfLine, location⟩ :: tokens)
  | statement {line tokens : List Token} {location : Location} :
      IsStatement line → IsProgram tokens → IsProgram (line ++ ⟨.endOfLine, location⟩ :: tokens)

/-- The lines of a token list up to its first end of input, without their ends of line. -/
def linesOf : List Token → List (List Token)
  | [] => []
  | ⟨.endOfInput, _⟩ :: _ => []
  | ⟨.endOfLine, _⟩ :: tokens => [] :: linesOf tokens
  | token :: tokens =>
    match linesOf tokens with
    | [] => [[token]]
    | line :: lines => (token :: line) :: lines

/-- The lines of a token list that are not blank. -/
def statementsOf (tokens : List Token) : List (List Token) :=
  (linesOf tokens).filter (· ≠ [])

/-! ## Trees of statements -/

/-- The tree of an argument. -/
inductive ReadsArgument : Token → Node φ → Prop where
  | reference {name : String} {location : Location} :
      ReadsArgument ⟨.identifier name, location⟩ (.reference location name)
  | literal {text : String} {location : Location} :
      ReadsArgument ⟨.literal text, location⟩ (.literal location text)

/-- The tree of a call that resolves in `registry`. -/
inductive ReadsCall (registry : Registry φ) : List Token → Node φ → Prop where
  | mk {name : String} {location : Location} {target : Entry φ} {tokens : List Token}
      {arguments : List (Node φ)} :
      List.Forall₂ ReadsArgument tokens arguments →
      registry.resolve location name arguments.length = .ok target →
      ReadsCall registry (⟨.identifier name, location⟩ :: tokens)
        (.call location name target arguments)

/-- The tree of a statement whose call, if it has one, resolves in `registry`. -/
inductive Reads (registry : Registry φ) : List Token → Node φ → Prop where
  | call {tokens : List Token} {node : Node φ} :
      ReadsCall registry tokens node → Reads registry tokens node
  | bindText {name text : String} {at₁ at₂ at₃ : Location} :
      Reads registry [⟨.identifier name, at₁⟩, ⟨.equals, at₂⟩, ⟨.literal text, at₃⟩]
        (.assignment at₁ name (.literal at₃ text))
  | bindCall {name : String} {at₁ at₂ : Location} {tokens : List Token} {node : Node φ} :
      ReadsCall registry tokens node →
      Reads registry (⟨.identifier name, at₁⟩ :: ⟨.equals, at₂⟩ :: tokens)
        (.assignment at₁ name node)

mutual

/-- The tokens that a tree was read from, in the order of the text; equals signs leave no trace. -/
def Node.words : Node φ → List Token
  | .assignment location name value => ⟨.identifier name, location⟩ :: value.words
  | .call location name _ arguments => ⟨.identifier name, location⟩ :: wordsOfAll arguments
  | .literal location text => [⟨.literal text, location⟩]
  | .reference location name => [⟨.identifier name, location⟩]
  | .empty _ => []

/-- The tokens that trees were read from, one tree after the other. -/
def wordsOfAll : List (Node φ) → List Token
  | [] => []
  | node :: nodes => node.words ++ wordsOfAll nodes

end

/-! ## Lines -/

/-- Whether a token ends a line or the input. -/
def Token.isEnd (token : Token) : Bool :=
  token.lexeme = .endOfLine || token.lexeme = .endOfInput

/-- A word ends nothing. So the words of a call cannot be taken for the end of its line. -/
theorem Token.isEnd_of_isWord (h : token.isWord) : token.isEnd = false := by
  obtain ⟨lexeme, location⟩ := token
  cases lexeme <;> first | rfl | cases h

/-- A call has a first token, and no token of it ends its line. It consists of words only. -/
theorem IsCall.isEnd (h : IsCall line) : line ≠ [] ∧ ∀ token ∈ line, token.isEnd = false := by
  obtain ⟨hargs⟩ := h
  refine ⟨List.cons_ne_nil _ _, fun token ht => ?_⟩
  rcases List.mem_cons.1 ht with rfl | ht
  · rfl
  · exact Token.isEnd_of_isWord (hargs token ht)

/-- A statement has a first token, and no token of it ends its line. So lines and statements cannot
be mixed up when a program is cut into lines. -/
theorem IsStatement.isEnd (h : IsStatement line) :
    line ≠ [] ∧ ∀ token ∈ line, token.isEnd = false := by
  cases h with
  | call hc => exact hc.isEnd
  | bindText =>
    refine ⟨List.cons_ne_nil _ _, fun token ht => ?_⟩
    simp only [List.mem_cons, List.not_mem_nil, or_false] at ht
    rcases ht with rfl | rfl | rfl <;> rfl
  | bindCall hc =>
    refine ⟨List.cons_ne_nil _ _, fun token ht => ?_⟩
    rcases List.mem_cons.1 ht with rfl | ht
    · rfl
    · rcases List.mem_cons.1 ht with rfl | ht
      · rfl
      · exact hc.isEnd.2 token ht

/-- Tokens that end nothing stand in the first line of what they begin. They may be none at all, and
then the line is blank. -/
theorem linesOf_append (h : ∀ token ∈ used, token.isEnd = false) :
    linesOf (used ++ ⟨.endOfLine, location⟩ :: tokens) = used :: linesOf tokens := by
  induction used with
  | nil => rfl
  | cons token used ih =>
    have hrest := ih fun t ht => h t (List.mem_cons_of_mem _ ht)
    have hfirst := h token List.mem_cons_self
    obtain ⟨lexeme, at'⟩ := token
    cases lexeme with
    | endOfLine | endOfInput => cases hfirst
    | identifier | literal | equals => simp [linesOf, hrest]

@[simp] theorem statementsOf_endOfInput :
    statementsOf (⟨.endOfInput, location⟩ :: tokens) = [] := rfl

@[simp] theorem statementsOf_endOfLine :
    statementsOf (⟨.endOfLine, location⟩ :: tokens) = statementsOf tokens := rfl

/-- A statement is the first of the statements of what it begins. It is not blank, so it is not left
out. -/
theorem IsStatement.statementsOf_append (h : IsStatement line) :
    statementsOf (line ++ ⟨.endOfLine, location⟩ :: tokens) = line :: statementsOf tokens := by
  rw [statementsOf, linesOf_append h.isEnd.2, List.filter_cons_of_pos (by simpa using h.isEnd.1)]
  rfl

/-- The words of a program are those of its statements, in order. Ends of line are no words, and a
blank line has none. -/
theorem IsProgram.filter_isWord (h : IsProgram tokens) :
    tokens.filter Token.isWord = (statementsOf tokens).flatMap (·.filter Token.isWord) := by
  induction h with
  | endOfInput => rfl
  | blank _ ih => simpa using ih
  | statement hs _ ih => simp [hs.statementsOf_append, ih]

/-! ## What trees say about their tokens -/

theorem ReadsArgument.isWord (h : ReadsArgument token node) : token.isWord := by
  cases h <;> rfl

theorem ReadsArgument.words (h : ReadsArgument token node) : node.words = [token] := by
  cases h <;> simp [Node.words]

/-- Arguments are words, all of which their trees keep, in order and each with its place. -/
theorem wordsOfAll_of_forall₂ (h : List.Forall₂ ReadsArgument used nodes) :
    (∀ token ∈ used, token.isWord) ∧ wordsOfAll nodes = used := by
  induction h with
  | nil => exact ⟨nofun, by simp [wordsOfAll]⟩
  | cons hr _ ih =>
    refine ⟨fun token ht => ?_, by simp [wordsOfAll, hr.words, ih.2]⟩
    rcases List.mem_cons.1 ht with rfl | ht
    · exact hr.isWord
    · exact ih.1 token ht

/-- What has the tree of a call is a call, and the tree keeps all its tokens: the name of the
function first, then the arguments. -/
theorem ReadsCall.isCall_words (h : ReadsCall registry line node) :
    IsCall line ∧ node.words = line := by
  obtain ⟨hargs, _⟩ := h
  obtain ⟨hwords, hall⟩ := wordsOfAll_of_forall₂ hargs
  exact ⟨⟨hwords⟩, by rw [Node.words, hall]⟩

/-- A call consists of words, so that nothing of it is lost if only words are kept. -/
theorem IsCall.filter_isWord (h : IsCall line) : line.filter Token.isWord = line := by
  obtain ⟨hargs⟩ := h
  simpa using hargs

/-- What has the tree of a statement is a statement. The constructors of `Reads` are those of
`IsStatement`, with trees. -/
theorem Reads.isStatement (h : Reads registry line node) : IsStatement line := by
  cases h with
  | call hc => exact .call hc.isCall_words.1
  | bindText => exact .bindText
  | bindCall hc => exact .bindCall hc.isCall_words.1

/-- The tree of a statement keeps its words: none is lost, repeated or moved. Only the equals sign
is no word. -/
theorem Reads.words (h : Reads registry line node) : node.words = line.filter Token.isWord := by
  cases h with
  | call hc => rw [hc.isCall_words.2, hc.isCall_words.1.filter_isWord]
  | bindText => simp [Node.words, List.filter_cons]
  | bindCall hc =>
    simp [Node.words, List.filter_cons, hc.isCall_words.2, hc.isCall_words.1.filter_isWord]

/-- A name right after the equals sign of a statement is the name of a call. A statement has one
equals sign at most, its second token. -/
theorem Reads.call_of_equals {before after : List Token} {sign : Location}
    (h : Reads registry line node)
    (hline : line = before ++ ⟨.equals, sign⟩ :: ⟨.identifier name, location⟩ :: after) :
    ∃ start bound target arguments,
      node = .assignment start bound (.call location name target arguments) := by
  have hnot {ts : List Token} (hc : IsCall ts) : (⟨.equals, sign⟩ : Token) ∉ ts := by
    intro hmem
    rw [← hc.filter_isWord] at hmem
    cases (List.mem_filter.1 hmem).2
  cases h with
  | call hc => exact absurd (by simp [hline]) (hnot hc.isCall_words.1)
  | bindText =>
    match before with
    | [] => cases hline
    | [_] => cases hline
    | _ :: _ :: before =>
      have hlen := congrArg List.length hline
      simp only [List.length_cons, List.length_append, List.length_nil] at hlen
      omega
  | bindCall hc =>
    match before with
    | [] => cases hline
    | [_] =>
      obtain ⟨hargs, hres⟩ := hc
      cases hline
      exact ⟨_, _, _, _, rfl⟩
    | _ :: _ :: before =>
      cases hline
      exact absurd (by simp) (hnot hc.isCall_words.1)

/-! ## Soundness -/

/-- The arguments at the beginning of a token list are read from it, and a word does not follow.
There is no way for this to fail. -/
theorem takeArguments_reads (tokens : List Token) :
    ∃ used, tokens = used ++ (takeArguments (φ := φ) tokens).2 ∧
      List.Forall₂ ReadsArgument used (takeArguments (φ := φ) tokens).1 ∧
      ∀ token ∈ (takeArguments (φ := φ) tokens).2.head?, token.isWord = false := by
  fun_induction takeArguments (φ := φ) tokens with
  | case1 => exact ⟨[], rfl, .nil, by simp⟩
  | case2 name location tokens arguments rest heq ih =>
    obtain ⟨used, happ, hargs, hhead⟩ := ih
    rw [heq] at happ hargs hhead
    exact ⟨⟨.identifier name, location⟩ :: used, by rw [happ]; rfl, .cons .reference hargs, hhead⟩
  | case3 text location tokens arguments rest heq ih =>
    obtain ⟨used, happ, hargs, hhead⟩ := ih
    rw [heq] at happ hargs hhead
    exact ⟨⟨.literal text, location⟩ :: used, by rw [happ]; rfl, .cons .literal hargs, hhead⟩
  | case4 token tokens hname htext =>
    refine ⟨[], rfl, .nil, fun t ht => ?_⟩
    obtain rfl : token = t := by simpa using ht
    obtain ⟨lexeme, location⟩ := token
    cases lexeme with
    | identifier name => exact absurd rfl (hname name location)
    | literal text => exact absurd rfl (htext text location)
    | equals | endOfLine | endOfInput => rfl

/-- The inversion of a parsed call: its name and the tokens it has used up have the tree that it
gives, and it resolves. -/
theorem ReadsCall.of_parseCall
    (h : parseCall registry last name location tokens = .ok (node, rest)) :
    ∃ used, tokens = used ++ rest ∧
      ReadsCall registry (⟨.identifier name, location⟩ :: used) node := by
  obtain ⟨used, happ, hargs, -⟩ := takeArguments_reads (φ := φ) tokens
  unfold parseCall at h
  split at h
  · cases h
  · next arguments after _ heq =>
    rw [heq] at happ hargs
    simp only [bind, Except.bind] at h
    split at h
    · cases h
    · next target hres =>
      cases h
      exact ⟨used, happ, hargs, hres⟩

/-- The inversion of a parsed statement: the tokens it has used up are a statement with its tree.
The rest has not been looked at, except for its first token. -/
theorem Reads.of_parseStatement
    (h : parseStatement registry last token tokens = .ok (node, rest)) :
    ∃ used, tokens = used ++ rest ∧ Reads registry (token :: used) node := by
  obtain ⟨lexeme, start⟩ := token
  unfold parseStatement at h
  split at h
  · next bound hlex =>
    cases hlex
    split at h
    · next sign after =>
      simp only [bind, Except.bind] at h
      split at h
      · cases h
      · next pair hv =>
        obtain ⟨value, left⟩ := pair
        cases h
        unfold parseValue at hv
        split at hv
        · cases hv
        · next name location tokens =>
          obtain ⟨used, rfl, hcall⟩ := ReadsCall.of_parseCall hv
          exact ⟨⟨.equals, sign⟩ :: ⟨.identifier name, location⟩ :: used, rfl, .bindCall hcall⟩
        · next text location tokens =>
          cases hv
          exact ⟨[⟨.equals, sign⟩, ⟨.literal text, location⟩], rfl, .bindText⟩
        · cases hv
    · obtain ⟨used, rfl, hcall⟩ := ReadsCall.of_parseCall h
      exact ⟨used, rfl, .call hcall⟩
  · cases h

/-- What a successful parse has used up is a program, whose statements have the trees it gives. It
stops at the first end of input, and anything may follow. -/
theorem IsProgram.of_parseStatements (h : parseStatements registry last tokens = .ok nodes) :
    ∃ used rest, tokens = used ++ rest ∧ IsProgram used ∧
      List.Forall₂ (Reads registry) (statementsOf used) nodes := by
  fun_induction parseStatements registry last tokens generalizing nodes with
  | case1 => cases h
  | case2 token tokens hlex =>
    obtain ⟨lexeme, location⟩ := token
    cases hlex
    cases h
    exact ⟨[⟨.endOfInput, location⟩], tokens, rfl, .endOfInput, .nil⟩
  | case3 token tokens hlex ih =>
    obtain ⟨lexeme, location⟩ := token
    cases hlex
    obtain ⟨used, rest, rfl, hprog, htrees⟩ := ih h
    exact ⟨⟨.endOfLine, location⟩ :: used, rest, rfl, .blank hprog, htrees⟩
  | case4 => cases h
  | case5 => cases h
  | case6 token tokens node next rest hstmt hlex nodes' hrest _ _ ih =>
    obtain ⟨line, rfl, hreads⟩ := Reads.of_parseStatement hstmt
    obtain ⟨lexeme, location⟩ := next
    cases hlex
    obtain ⟨used, rest, rfl, hprog, htrees⟩ := ih hrest
    cases h
    refine ⟨token :: line ++ ⟨.endOfLine, location⟩ :: used, rest, by simp,
      .statement hreads.isStatement hprog, ?_⟩
    rw [hreads.isStatement.statementsOf_append]
    exact .cons hreads htrees
  | case7 => cases h
  | case8 => cases h

/-! ## Completeness -/

/-- Arguments are taken as long as they last. What follows must not be a word, or it would be one
more argument. -/
theorem takeArguments_append (h : List.Forall₂ ReadsArgument used nodes)
    (hrest : ∀ token ∈ rest.head?, token.isWord = false) :
    takeArguments (used ++ rest) = (nodes, rest) := by
  induction h with
  | nil =>
    match rest with
    | [] => rfl
    | ⟨lexeme, location⟩ :: rest =>
      cases lexeme with
      | identifier | literal => cases hrest _ rfl
      | equals | endOfLine | endOfInput => rfl
  | cons hr _ ih => cases hr <;> simp [takeArguments, ih]

/-- A call is parsed up to the end of its line, which is left over. The place of the last token is
only needed if there is no such end. -/
theorem ReadsCall.parseCall (h : ReadsCall registry line node) :
    ∃ name location used, line = ⟨.identifier name, location⟩ :: used ∧
      (∀ token ∈ used, token.isWord) ∧ ∀ last sign rest,
        parseCall registry last name location (used ++ ⟨.endOfLine, sign⟩ :: rest)
          = .ok (node, ⟨.endOfLine, sign⟩ :: rest) := by
  obtain ⟨hargs, hres⟩ := h
  refine ⟨_, _, _, rfl, (wordsOfAll_of_forall₂ hargs).1, fun last sign rest => ?_⟩
  rw [Script.parseCall, takeArguments_append hargs (by simp)]
  simp [hres, bind, Except.bind, pure, Except.pure]

/-- A name that no equals sign follows begins a call. This is the only place where the parser looks
at a second token. -/
theorem parseStatement_eq_parseCall (h : ∀ token ∈ tokens.head?, token.lexeme ≠ .equals) :
    parseStatement registry last ⟨.identifier name, location⟩ tokens
      = parseCall registry last name location tokens := by
  match tokens with
  | [] => rfl
  | ⟨lexeme, sign⟩ :: tokens =>
    cases lexeme with
    | equals => exact absurd rfl (h _ rfl)
    | identifier | literal | endOfLine | endOfInput => rfl

/-- A statement is parsed up to the end of its line, whatever comes after that. Its tree is the one
that it was said to have. -/
theorem Reads.parseStatement (h : Reads registry (token :: used) node) (last sign : Location)
    (rest : List Token) :
    parseStatement registry last token (used ++ ⟨.endOfLine, sign⟩ :: rest)
      = .ok (node, ⟨.endOfLine, sign⟩ :: rest) := by
  cases h with
  | call hc =>
    obtain ⟨name, location, used, heq, hwords, hparse⟩ := hc.parseCall
    cases heq
    rw [parseStatement_eq_parseCall, hparse]
    -- An argument list does not begin with an equals sign, and neither does the end of the line.
    intro t ht
    cases used with
    | nil => cases ht; nofun
    | cons u used =>
      have hu := hwords u List.mem_cons_self
      cases ht
      intro heq
      simp [Token.isWord, heq, Lexeme.value?] at hu
  | bindText => rfl
  | bindCall hc =>
    obtain ⟨name, location, used, rfl, -, hparse⟩ := hc.parseCall
    simp only [Script.parseStatement, List.cons_append, parseValue, hparse]
    rfl

/-- One round of the parser: a statement up to the end of its line, then the rest. If the rest has a
problem, it is the problem of all. -/
theorem parseStatements_cons (hend : token.isEnd = false)
    (h : parseStatement registry last token tokens = .ok (node, ⟨.endOfLine, location⟩ :: rest)) :
    parseStatements registry last (token :: tokens)
      = (parseStatements registry last rest).map (node :: ·) := by
  rw [parseStatements]
  split
  · next hlex => simp [Token.isEnd, hlex] at hend
  · next hlex => simp [Token.isEnd, hlex] at hend
  · split
    · next heq => rw [h] at heq; cases heq
    · next heq => rw [h] at heq; cases heq
    · next heq =>
      rw [h] at heq
      cases heq
      simp only
      split <;> next hrest => rw [hrest]; rfl

/-- A program with trees for its statements is parsed to these trees, whatever follows it. The
induction is on the program, line by line. -/
theorem IsProgram.parseStatements (h : IsProgram used)
    (htrees : List.Forall₂ (Reads registry) (statementsOf used) nodes) (last : Location)
    (rest : List Token) : parseStatements registry last (used ++ rest) = .ok nodes := by
  induction h generalizing nodes with
  | endOfInput =>
    cases htrees
    simp [Script.parseStatements]
  | blank _ ih =>
    rw [List.cons_append, Script.parseStatements]
    exact ih htrees
  | @statement line tokens location hs _ ih =>
    rw [hs.statementsOf_append] at htrees
    cases htrees with
    | @cons _ node _ nodes hr htrees =>
      obtain ⟨token, line, rfl⟩ := List.exists_cons_of_ne_nil hs.isEnd.1
      have hend := hs.isEnd.2 token List.mem_cons_self
      rw [List.append_assoc, List.cons_append, List.cons_append,
        parseStatements_cons hend (hr.parseStatement last location (tokens ++ rest)), ih htrees]
      rfl

/-! ## The parser and the grammar -/

/-- A name right after an equals sign of a program is the name of a call. Both stand in one
statement, because no statement reaches past its line. -/
theorem IsProgram.call_of_equals {before after : List Token} {sign : Location}
    (h : IsProgram used) (htrees : List.Forall₂ (Reads registry) (statementsOf used) nodes)
    (hused : used = before ++ ⟨.equals, sign⟩ :: ⟨.identifier name, location⟩ :: after) :
    ∃ start bound target arguments,
      .assignment start bound (.call location name target arguments) ∈ nodes := by
  induction h generalizing nodes before with
  | endOfInput =>
    cases before with
    | nil => cases hused
    | cons _ before => cases before <;> cases hused
  | blank _ ih =>
    cases before with
    | nil => cases hused
    | cons _ before =>
      cases hused
      exact ih htrees rfl
  | @statement line tokens endAt hs _ ih =>
    rw [hs.statementsOf_append] at htrees
    cases htrees with
    | cons hr htrees =>
      -- The two tokens stand in the first line or after it, not across its end.
      rcases List.append_eq_append_iff.1 hused with ⟨more, rfl, htail⟩ | ⟨more, rfl, htail⟩
      · cases more with
        | nil => cases htail
        | cons _ more =>
          cases htail
          obtain ⟨start, bound, target, arguments, hmem⟩ := ih htrees rfl
          exact ⟨start, bound, target, arguments, List.mem_cons_of_mem _ hmem⟩
      · match more with
        | [] => cases htail
        | [_] => cases htail
        | _ :: _ :: more =>
          cases htail
          obtain ⟨start, bound, target, arguments, rfl⟩ := hr.call_of_equals rfl
          exact ⟨start, bound, target, arguments, List.mem_cons_self⟩

/-- The trees of the statements of a program keep the words of each. So words do not move from one
statement to another. -/
theorem map_words_of_forall₂ {lines : List (List Token)}
    (h : List.Forall₂ (Reads registry) lines nodes) :
    nodes.map Node.words = lines.map (·.filter Token.isWord) := by
  induction h with
  | nil => rfl
  | cons hr _ ih => rw [List.map_cons, List.map_cons, hr.words, ih]

/-- Tokens are parsed from the first one on. The place of the last token is only used to report that
the tokens have run out. -/
theorem parse_eq_parseStatements (registry : Registry φ) (h : tokens ≠ []) :
    parse registry tokens = parseStatements registry (tokens.getLast h).location tokens := by
  rw [parse, List.getLast?_eq_some_getLast h]

/-- **The parser accepts exactly its grammar.** It gives the trees `program` if and only if there
are no tokens and no trees, or the tokens begin with a program of the grammar, whose statements have
these trees in order. The trees keep every name and every literal of that program on its own line,
and a name right after an equals sign is called. -/
theorem parse_eq_ok_iff_isProgram (registry : Registry φ) (tokens : List Token)
    (program : List (Node φ)) :
    parse registry tokens = .ok program ↔
      (tokens = [] ∧ program = []) ∨
      ∃ used rest, tokens = used ++ rest ∧ IsProgram used ∧
        List.Forall₂ (Reads registry) (statementsOf used) program ∧
        program.flatMap Node.words = used.filter Token.isWord ∧
        program.map Node.words = (statementsOf used).map (·.filter Token.isWord) ∧
        ∀ before sign name location after,
          used = before ++ ⟨.equals, sign⟩ :: ⟨.identifier name, location⟩ :: after →
          ∃ start bound target arguments,
            .assignment start bound (.call location name target arguments) ∈ program := by
  constructor
  · intro h
    by_cases hne : tokens = []
    · subst hne
      cases h
      exact .inl ⟨rfl, rfl⟩
    · rw [parse_eq_parseStatements registry hne] at h
      obtain ⟨used, rest, happ, hprog, htrees⟩ := IsProgram.of_parseStatements h
      have hwords := map_words_of_forall₂ htrees
      refine .inr ⟨used, rest, happ, hprog, htrees, ?_, hwords, ?_⟩
      · rw [hprog.filter_isWord, List.flatMap_def, List.flatMap_def, hwords]
      · intro before sign name location after hused
        exact hprog.call_of_equals htrees hused
  · rintro (⟨rfl, rfl⟩ | ⟨used, rest, rfl, hprog, htrees, -⟩)
    · rfl
    · have hne : used ++ rest ≠ [] := by cases hprog <;> simp
      rw [parse_eq_parseStatements registry hne]
      exact hprog.parseStatements htrees _ rest

end ActivityScript.Script
