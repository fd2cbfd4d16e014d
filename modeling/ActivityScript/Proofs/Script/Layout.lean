import ActivityScript.Proofs.Script.Grammar
import ActivityScript.Proofs.Script.Scanning
import ActivityScript.Proofs.Text.Lines

/-!
# Layouts of programs

The many ways of writing one program. A `Layout` is a program together with everything that its
writer may choose: the blanks before, between and after the tokens, the spelling of each literal,
comments, blank lines, the terminator of each line, and whether the last line has one. Its parts
carry what makes them well formed: names are names, literals can be spelled as they are, and every
call resolves.

`Layout.text` is what the writer wrote and `Layout.program` what is meant, each node located right
after the text before its first character (`Location.after`). `parse_tokenize_layout` says that
lexing and parsing the first gives the second, for every program and every layout.

The proof goes through the atoms of a line. `Pieces.lexLine` follows the scanner over atoms with a
break before each, `Statement.reads` finds the tree of a statement in the tokens of its atoms, and
`tokens?_lexLines` puts the lines together.
-/

namespace ActivityScript.Script

/-- The place right after a text: as many lines down as the text has line feeds, and as many columns
to the right as characters follow the last of them. -/
def Location.after (file : Option String) (before : List Char) : Location :=
  ⟨before.count '\n', (before.reverse.takeWhile (· ≠ '\n')).length, file⟩

namespace Layout

variable {φ : Type} {registry : Registry φ}

/-! ## Parts of a line -/

/-- Any number of spaces and tabs. -/
structure Gap where
  chars : List Char
  blank : ∀ c ∈ chars, c = ' ' ∨ c = '\t'

/-- At least one space or tab. -/
structure Break extends Gap where
  nonempty : chars ≠ []

/-- A name: a letter or an underscore, then letters, underscores and full stops. -/
structure Name where
  first : Char
  more : List Char
  first_ok : first.isAlpha ∨ first = '_'
  more_ok : ∀ c ∈ more, c.isAlpha ∨ c = '_' ∨ c = '.'

/-- The characters of a name. -/
def Name.chars (name : Name) : List Char := name.first :: name.more

/-- A name as it is known to the interpreter. -/
def Name.text (name : Name) : String := String.ofList name.chars

/-- The characters of the text of a name are those it is spelled with. -/
theorem Name.toList_text (name : Name) : name.text.toList = name.chars :=
  String.toList_ofList

/-- A text with one of its spellings. Between quotation marks stands any text without these marks
and without line feed, after a colon one that consists of the characters of names. -/
inductive Literal where
  | quoted (text : List Char) (ok : ∀ c ∈ text, c ≠ '\x22' ∧ c ≠ '\n')
  | shorthand (text : List Char) (ok : ∀ c ∈ text, c.isAlpha ∨ c = '_' ∨ c = '.')

/-- The text that is meant. -/
def Literal.text : Literal → List Char
  | .quoted text _ | .shorthand text _ => text

/-- The text as it is spelled. -/
def Literal.chars : Literal → List Char
  | .quoted text _ => '\x22' :: text ++ ['\x22']
  | .shorthand text _ => ':' :: text

/-- What a call is given. -/
inductive Operand where
  | name (spelled : Name)
  | literal (spelled : Literal)

/-- An operand as it is spelled. -/
def Operand.chars : Operand → List Char
  | .name spelled => spelled.chars
  | .literal spelled => spelled.chars

/-- A call, with a break before each operand, of an entry that takes this many operands. -/
structure Call (registry : Registry φ) where
  function : Name
  operands : List (Break × Operand)
  target : Entry φ
  registered : registry.find? (String.ofList function.chars) = some target
  admitted : target.arity.admits operands.length

/-- A call as it is written. -/
def Call.chars (call : Call registry) : List Char :=
  call.function.chars ++ call.operands.flatMap fun (gap, operand) => gap.chars ++ operand.chars

/-- The right side of an assignment. -/
inductive Value (registry : Registry φ) where
  | literal (spelled : Literal)
  | call (written : Call registry)

/-- The right side of an assignment as it is written. -/
def Value.chars : Value registry → List Char
  | .literal spelled => spelled.chars
  | .call written => written.chars

/-- A call, or an assignment with a break on each side of its equals sign. -/
inductive Statement (registry : Registry φ) where
  | call (written : Call registry)
  | assignment (name : Name) (left right : Break) (value : Value registry)

/-- A statement as it is written. -/
def Statement.chars : Statement registry → List Char
  | .call written => written.chars
  | .assignment name left right value =>
    name.chars ++ left.chars ++ '=' :: right.chars ++ value.chars

/-- What stands in a line after a number sign. -/
structure Comment where
  text : List Char
  inside : '\n' ∉ text

/-- A comment as it is written. -/
def Comment.chars (comment : Comment) : List Char := '#' :: comment.text

/-- A line without its terminator. Without a statement it is blank or holds only a comment. -/
structure Line (registry : Registry φ) where
  indent : Gap
  statement? : Option (Statement registry)
  trail : Gap
  comment? : Option Comment

/-- A line as it is written. -/
def Line.chars (line : Line registry) : List Char :=
  line.indent.chars ++ line.statement?.elim [] Statement.chars ++ line.trail.chars
    ++ line.comment?.elim [] Comment.chars

/-- The two terminators of a line. -/
inductive Ending where
  | feed
  | returnFeed

/-- A terminator as it is written. -/
def Ending.chars : Ending → List Char
  | .feed => ['\n']
  | .returnFeed => ['\r', '\n']

/-- Lines with their terminators, one after the other. -/
def linesChars (lines : List (Line registry × Ending)) : List Char :=
  lines.flatMap fun (line, ending) => line.chars ++ ending.chars

/-! ## What is meant

Each function is given the text `before` the part of which it gives the nodes.
-/

/-- The node of a literal. -/
def Literal.node (file : Option String) (before : List Char) (literal : Literal) : Node φ :=
  .literal (.after file before) (String.ofList literal.text)

/-- The node of an operand. -/
def Operand.node (file : Option String) (before : List Char) : Operand → Node φ
  | .name spelled => .reference (.after file before) (String.ofList spelled.chars)
  | .literal spelled => spelled.node file before

/-- The nodes of operands, each after its break. -/
def operandNodes (file : Option String) (before : List Char) :
    List (Break × Operand) → List (Node φ)
  | [] => []
  | (gap, operand) :: operands =>
    operand.node file (before ++ gap.chars)
      :: operandNodes file (before ++ gap.chars ++ operand.chars) operands

/-- The node of a call. -/
def Call.node (file : Option String) (before : List Char) (call : Call registry) : Node φ :=
  .call (.after file before) (String.ofList call.function.chars) call.target
    (operandNodes file (before ++ call.function.chars) call.operands)

/-- The node of the right side of an assignment. -/
def Value.node (file : Option String) (before : List Char) : Value registry → Node φ
  | .literal spelled => spelled.node file before
  | .call written => written.node file before

/-- The node of a statement. -/
def Statement.node (file : Option String) (before : List Char) : Statement registry → Node φ
  | .call written => written.node file before
  | .assignment name left right value =>
    .assignment (.after file before) (String.ofList name.chars)
      (value.node file (before ++ name.chars ++ left.chars ++ '=' :: right.chars))

/-- The node of the statement of a line, if it has one; it starts after the indentation. -/
def Line.nodes (file : Option String) (before : List Char) (line : Line registry) :
    List (Node φ) :=
  line.statement?.toList.map (·.node file (before ++ line.indent.chars))

/-- The nodes of lines, one line after the other. -/
def linesNodes (file : Option String) (before : List Char) :
    List (Line registry × Ending) → List (Node φ)
  | [] => []
  | (line, ending) :: lines =>
    line.nodes file before ++ linesNodes file (before ++ line.chars ++ ending.chars) lines

end Layout

/-- A program with its layout: lines with their terminators, and perhaps a last line without. -/
structure Layout {φ : Type} (registry : Registry φ) where
  lines : List (Layout.Line registry × Layout.Ending)
  unended? : Option (Layout.Line registry)

namespace Layout

variable {φ : Type} {registry : Registry φ}

/-- The text that is written. -/
def text (layout : Layout registry) : List Char :=
  linesChars layout.lines ++ layout.unended?.elim [] Line.chars

/-- The program that is meant. -/
def program (file : Option String) (layout : Layout registry) : List (Node φ) :=
  linesNodes file [] layout.lines
    ++ layout.unended?.elim [] (Line.nodes file (linesChars layout.lines))

/-! ## Places -/

/-- Characters other than line feeds move a place to the right, one column for each. A carriage
return counts as a character here. -/
theorem after_append {file : Option String} {before chars : List Char} {line column : Nat}
    (hat : Location.after file before = ⟨line, column, file⟩) (h : '\n' ∉ chars) :
    Location.after file (before ++ chars) = ⟨line, column + chars.length, file⟩ := by
  simp only [Location.after, Location.mk.injEq, and_true] at hat ⊢
  obtain ⟨hline, hcolumn⟩ := hat
  refine ⟨by rw [List.count_append, hline, List.count_eq_zero_of_not_mem h, Nat.add_zero], ?_⟩
  have hall : ∀ c ∈ chars.reverse, decide (c ≠ '\n') = true := by
    intro c hc
    have hne : c ≠ '\n' := fun heq => h (heq ▸ List.mem_reverse.1 hc)
    simpa using hne
  rw [List.reverse_append, List.takeWhile_append_of_pos hall, List.length_append, hcolumn,
    List.length_reverse, Nat.add_comm]

/-- A line feed leads to the beginning of the next line, wherever it stands. -/
theorem after_feed {file : Option String} {before : List Char} {line column : Nat}
    (hat : Location.after file before = ⟨line, column, file⟩) :
    Location.after file (before ++ ['\n']) = ⟨line + 1, 0, file⟩ := by
  simp only [Location.after, Location.mk.injEq, and_true] at hat ⊢
  simp [List.count_append, hat.1]

/-! ## Parts stay whole

A part of a line holds no line feed and does not end in a carriage return, so that nothing of it is
lost when the text is cut into lines.
-/

/-- A text that no cut into lines touches. -/
def Whole (chars : List Char) : Prop :=
  '\n' ∉ chars ∧ ∀ c ∈ chars.getLast?, c ≠ '\r'

theorem Whole.nil : Whole [] := ⟨List.not_mem_nil, nofun⟩

theorem Whole.append {chars more : List Char} (h : Whole chars) (hmore : Whole more) :
    Whole (chars ++ more) := by
  refine ⟨by simp [h.1, hmore.1], fun c hc => ?_⟩
  rw [List.getLast?_append, Option.mem_def, Option.or_eq_some_iff] at hc
  rcases hc with hc | ⟨-, hc⟩
  · exact hmore.2 c hc
  · exact h.2 c hc

/-- A text is whole if none of its characters is a line feed or a carriage return. This is enough
for all parts but quoted texts. -/
theorem Whole.of_forall {chars : List Char} (h : ∀ c ∈ chars, c ≠ '\n' ∧ c ≠ '\r') :
    Whole chars :=
  ⟨fun hmem => (h _ hmem).1 rfl, fun c hc => (h c (List.mem_of_getLast? hc)).2⟩

theorem Whole.equals : Whole ['='] := .of_forall (by simp)

theorem Whole.flatMap {α : Type} {f : α → List Char} {l : List α} (h : ∀ a ∈ l, Whole (f a)) :
    Whole (l.flatMap f) := by
  induction l with
  | nil => exact .nil
  | cons a l ih =>
    rw [List.flatMap_cons]
    exact (h a List.mem_cons_self).append (ih fun b hb => h b (List.mem_cons_of_mem _ hb))

theorem Gap.whole (gap : Gap) : Whole gap.chars :=
  .of_forall fun c hc => by rcases gap.blank c hc with rfl | rfl <;> decide

/-- The characters of names are no line ends, neither line feeds nor carriage returns. -/
theorem ne_of_isWordChar {c : Char} (h : c.isAlpha ∨ c = '_' ∨ c = '.') : c ≠ '\n' ∧ c ≠ '\r' := by
  constructor <;> rintro rfl <;> revert h <;> decide

theorem Name.whole (name : Name) : Whole name.chars := by
  refine .of_forall fun c hc => ne_of_isWordChar ?_
  rcases List.mem_cons.1 hc with rfl | hc
  · rcases name.first_ok with h | h
    · exact .inl h
    · exact .inr (.inl h)
  · exact name.more_ok c hc

/-- A literal is whole in both spellings. A quoted text may have a carriage return in it, but it
ends with a quotation mark. -/
theorem Literal.whole (literal : Literal) : Whole literal.chars := by
  cases literal with
  | quoted text ok =>
    refine ⟨fun hmem => ?_, fun c hc => ?_⟩
    · simp only [Literal.chars, List.cons_append, List.mem_cons, List.mem_append,
        List.not_mem_nil, or_false] at hmem
      rcases hmem with h | h | h
      · cases h
      · exact (ok _ h).2 rfl
      · cases h
    · have hc : '\x22' = c := by simpa [Literal.chars, List.getLast?_cons] using hc
      subst hc
      decide
  | shorthand text ok =>
    refine .of_forall fun c hc => ?_
    rcases List.mem_cons.1 hc with rfl | hc
    · decide
    · exact ne_of_isWordChar (ok c hc)

theorem Operand.whole (operand : Operand) : Whole operand.chars := by
  cases operand with
  | name spelled => exact spelled.whole
  | literal spelled => exact spelled.whole

/-- A call is whole, with its breaks and operands. It ends with its last operand, or with its
name. -/
theorem Call.whole (call : Call registry) : Whole call.chars :=
  call.function.whole.append (.flatMap fun part _ => part.1.whole.append part.2.whole)

/-- A statement is whole, so that a cut into lines takes nothing from its end, even if a carriage
return follows it. -/
theorem Statement.whole (statement : Statement registry) : Whole statement.chars := by
  cases statement with
  | call written => exact written.whole
  | assignment name left right value =>
    have hvalue : Whole value.chars := by
      cases value with
      | literal spelled => exact spelled.whole
      | call written => exact written.whole
    have hleft := name.whole.append left.whole
    exact (hleft.append (Whole.equals.append right.whole)).append hvalue

/-! ## Atoms -/

/-- What the scanner finds: names, literals and equals signs. -/
inductive Atom where
  | name (spelled : Name)
  | literal (spelled : Literal)
  | equals

/-- An atom as it is spelled. -/
def Atom.chars : Atom → List Char
  | .name spelled => spelled.chars
  | .literal spelled => spelled.chars
  | .equals => ['=']

/-- The lexeme that an atom spells. -/
def Atom.lexeme : Atom → Lexeme
  | .name spelled => .identifier (String.ofList spelled.chars)
  | .literal spelled => .literal (String.ofList spelled.text)
  | .equals => .equals

/-- An atom is found whole where no character of names follows it. For quoted texts and equals signs
this would not be needed. -/
theorem Atom.scan (atom : Atom) {column : Nat} {rest : List Char}
    (hrest : ∀ c ∈ rest.head?, isNameChar c = false) :
    scan column (atom.chars ++ rest)
      = .lexeme column atom.lexeme (column + atom.chars.length) rest := by
  cases atom with
  | name spelled =>
    exact scan_name (isNameStart_iff.2 spelled.first_ok)
      (fun c hc => isNameChar_iff.2 (spelled.more_ok c hc)) hrest
  | literal spelled =>
    cases spelled with
    | quoted text ok =>
      have hscan : Script.scan column ('\x22' :: text ++ '\x22' :: rest) = _ :=
        scan_quoted fun hmem => (ok _ hmem).1 rfl
      have hlength : (Literal.chars (.quoted text ok)).length = text.length + 2 := by
        simp [Literal.chars]
      rw [Atom.chars, hlength]
      simpa [Literal.chars, Atom.lexeme, Literal.text] using hscan
    | shorthand text ok =>
      exact scan_shorthand (fun c hc => isNameChar_iff.2 (ok c hc)) hrest
  | equals => exact scan_equals

theorem Atom.whole (atom : Atom) : Whole atom.chars := by
  cases atom with
  | name spelled => exact spelled.whole
  | literal spelled => exact spelled.whole
  | equals => exact .equals

/-- Atoms with a break before each. -/
abbrev Pieces := List (Break × Atom)

/-- Pieces as they are written. -/
def Pieces.chars (pieces : Pieces) : List Char :=
  pieces.flatMap fun (gap, atom) => gap.chars ++ atom.chars

theorem Pieces.chars_cons (gap : Break) (atom : Atom) (pieces : Pieces) :
    Pieces.chars ((gap, atom) :: pieces) = gap.chars ++ (atom.chars ++ pieces.chars) := by
  simp [Pieces.chars]

/-- The tokens of pieces that stand after the text `before`. -/
def Pieces.tokens (file : Option String) (before : List Char) : Pieces → List Token
  | [] => []
  | (gap, atom) :: pieces =>
    ⟨atom.lexeme, .after file (before ++ gap.chars)⟩
      :: Pieces.tokens file (before ++ gap.chars ++ atom.chars) pieces

/-- A break keeps what stands before it from being continued. Without pieces, what follows must do
so. -/
theorem Pieces.isNameChar_head (pieces : Pieces) {rest : List Char}
    (hrest : ∀ c ∈ rest.head?, isNameChar c = false) :
    ∀ c ∈ (pieces.chars ++ rest).head?, isNameChar c = false := by
  cases pieces with
  | nil => exact hrest
  | cons piece pieces =>
    obtain ⟨gap, atom⟩ := piece
    obtain ⟨b, chars, hgap⟩ := List.exists_cons_of_ne_nil gap.nonempty
    intro c hc
    have hb : b = c := by simpa [Pieces.chars, hgap] using hc
    have hblank := gap.blank b (by rw [hgap]; exact List.mem_cons_self)
    rw [← hb]
    exact isNameChar_of_isSeparator (isSeparator_iff.2 hblank)

/-- Lexing a line after a gap is lexing it further to the right. The gap itself leaves no token. -/
theorem Gap.lexLine (gap : Gap) {file : Option String} {line column : Nat} {rest : List Char} :
    lexLine file line column (gap.chars ++ rest)
      = lexLine file line (column + gap.chars.length) rest := by
  exact lexLine_congr (scan_append_of_isSeparator fun c hc => isSeparator_iff.2 (gap.blank c hc))

/-- Lexing a line that begins with an atom gives its token first, at the place after the text before
it. -/
theorem Atom.lexLine (atom : Atom) {file : Option String} {before rest : List Char}
    {line column : Nat} (hat : Location.after file before = ⟨line, column, file⟩)
    (hrest : ∀ c ∈ rest.head?, isNameChar c = false) :
    lexLine file line column (atom.chars ++ rest)
      = (⟨atom.lexeme, .after file before⟩
            :: (lexLine file line (column + atom.chars.length) rest).1,
          (lexLine file line (column + atom.chars.length) rest).2) := by
  rw [lexLine_of_lexeme (atom.scan hrest), hat]

/-- Lexing follows pieces atom by atom, each at its place. The place is counted by the text before,
and moves on with each piece (`after_append`). -/
theorem Pieces.lexLine (pieces : Pieces) {file : Option String} {before rest : List Char}
    {line column : Nat} (hat : Location.after file before = ⟨line, column, file⟩)
    (hrest : ∀ c ∈ rest.head?, isNameChar c = false) :
    lexLine file line column (pieces.chars ++ rest)
      = (pieces.tokens file before ++ (lexLine file line (column + pieces.chars.length) rest).1,
          (lexLine file line (column + pieces.chars.length) rest).2) := by
  induction pieces generalizing before column with
  | nil => rfl
  | cons piece pieces ih =>
    obtain ⟨gap, atom⟩ := piece
    have hgap := after_append hat gap.whole.1
    have hatom := after_append hgap atom.whole.1
    have hlength : column + (Pieces.chars ((gap, atom) :: pieces)).length
        = column + gap.chars.length + atom.chars.length + (Pieces.chars pieces).length := by
      rw [Pieces.chars_cons, List.length_append, List.length_append]
      omega
    rw [hlength, Pieces.chars_cons, List.append_assoc, List.append_assoc, gap.lexLine,
      atom.lexLine hgap (Pieces.isNameChar_head pieces hrest), ih hatom, Pieces.tokens]
    rfl

/-! ## Statements as pieces -/

/-- The atom of an operand. -/
def Operand.atom : Operand → Atom
  | .name spelled => .name spelled
  | .literal spelled => .literal spelled

/-- The pieces of operands. -/
def operandPieces (operands : List (Break × Operand)) : Pieces :=
  operands.map fun (gap, operand) => (gap, operand.atom)

/-- Operands are written as their pieces are. The atom of an operand is spelled as the operand
is. -/
theorem chars_operandPieces (operands : List (Break × Operand)) :
    (operandPieces operands).chars
      = operands.flatMap fun (gap, operand) => gap.chars ++ operand.chars := by
  induction operands with
  | nil => rfl
  | cons part operands ih =>
    obtain ⟨gap, operand⟩ := part
    have hchars : operand.atom.chars = operand.chars := by cases operand <;> rfl
    rw [List.flatMap_cons, ← ih, List.append_assoc, ← hchars]
    exact Pieces.chars_cons gap operand.atom (operandPieces operands)

/-- The name that a statement begins with. -/
def Statement.head : Statement registry → Name
  | .call written => written.function
  | .assignment name _ _ _ => name

/-- The pieces of a statement after the name that it begins with. -/
def Statement.pieces : Statement registry → Pieces
  | .call written => operandPieces written.operands
  | .assignment _ left right (.literal spelled) => [(left, .equals), (right, .literal spelled)]
  | .assignment _ left right (.call written) =>
    (left, .equals) :: (right, .name written.function) :: operandPieces written.operands

/-- A statement is written as the name that it begins with and then its pieces. This is the form in
which the lexer comes to it. -/
theorem Statement.chars_eq (statement : Statement registry) :
    statement.chars = statement.head.chars ++ statement.pieces.chars := by
  match statement with
  | .call written => rw [Statement.pieces, chars_operandPieces]; rfl
  | .assignment name left right (.literal spelled) =>
    rw [Statement.pieces, Pieces.chars_cons, Pieces.chars_cons]
    simp [Statement.chars, Statement.head, Atom.chars, Value.chars, Pieces.chars]
  | .assignment name left right (.call written) =>
    rw [Statement.pieces, Pieces.chars_cons, Pieces.chars_cons, chars_operandPieces]
    simp [Statement.chars, Statement.head, Atom.chars, Value.chars, Call.chars]

/-- The tokens of operands have the nodes of the operands as their trees, at the same places. -/
theorem reads_operandPieces (file : Option String) (before : List Char)
    (operands : List (Break × Operand)) :
    List.Forall₂ ReadsArgument ((operandPieces operands).tokens file before)
      (operandNodes (φ := φ) file before operands) := by
  induction operands generalizing before with
  | nil => exact .nil
  | cons part operands ih =>
    obtain ⟨gap, operand⟩ := part
    have hmore := ih (before ++ gap.chars ++ operand.chars)
    cases operand with
    | name spelled => exact .cons .reference hmore
    | literal spelled => exact .cons .literal hmore

/-- There is one node for each operand, so that the call resolves with as many arguments as it has
operands. -/
theorem length_operandNodes (file : Option String) (before : List Char)
    (operands : List (Break × Operand)) :
    (operandNodes (φ := φ) file before operands).length = operands.length := by
  induction operands generalizing before with
  | nil => rfl
  | cons part operands ih => rw [operandNodes, List.length_cons, ih, List.length_cons]

/-- The tokens of a call have its node as their tree. The call resolves, because it was written for
an entry that takes this many operands. -/
theorem Call.reads (file : Option String) (before : List Char) (call : Call registry) :
    ReadsCall registry
      (⟨.identifier (String.ofList call.function.chars), .after file before⟩
        :: (operandPieces call.operands).tokens file (before ++ call.function.chars))
      (call.node file before) := by
  refine .mk (reads_operandPieces file _ call.operands) ?_
  rw [length_operandNodes]
  exact Registry.resolve_eq_ok_iff.2 ⟨call.registered, call.admitted⟩

/-- The tokens of a statement have its node as their tree: a call, or an assignment of a text or of
a call. -/
theorem Statement.reads (file : Option String) (before : List Char)
    (statement : Statement registry) :
    Reads registry
      (⟨.identifier (String.ofList statement.head.chars), .after file before⟩
        :: statement.pieces.tokens file (before ++ statement.head.chars))
      (statement.node file before) := by
  match statement with
  | .call written => exact .call (written.reads file before)
  | .assignment name left right (.literal spelled) =>
    have hbefore : before ++ name.chars ++ left.chars ++ ['='] ++ right.chars
        = before ++ name.chars ++ left.chars ++ '=' :: right.chars := by simp
    rw [Statement.node, Value.node, ← hbefore]
    exact .bindText
  | .assignment name left right (.call written) =>
    have hbefore : before ++ name.chars ++ left.chars ++ ['='] ++ right.chars
        = before ++ name.chars ++ left.chars ++ '=' :: right.chars := by simp
    rw [Statement.node, Value.node, ← hbefore]
    exact .bindCall (written.reads file _)

/-! ## Lines -/

/-- What may stand at the end of a line behind a statement: nothing, or a comment. -/
def IsTail (chars : List Char) : Prop :=
  chars = [] ∨ ∃ text, chars = '#' :: text

/-- Blanks and a comment end the line. Nothing else may follow a statement in its line. -/
theorem scan_of_isTail (gap : Gap) (column : Nat) {tail : List Char} (h : IsTail tail) :
    ∃ found, scan column (gap.chars ++ tail) = .lineEnd found := by
  rw [scan_append_of_isSeparator fun c hc => isSeparator_iff.2 (gap.blank c hc)]
  rcases h with rfl | ⟨text, rfl⟩
  · exact ⟨_, rfl⟩
  · exact ⟨_, scan_comment⟩

/-- Blanks and a comment continue no name, so the last atom of a statement is found whole. -/
theorem isNameChar_head_of_isTail (gap : Gap) {tail : List Char} (h : IsTail tail) :
    ∀ c ∈ (gap.chars ++ tail).head?, isNameChar c = false := by
  intro c hc
  cases hgap : gap.chars with
  | nil =>
    rw [hgap] at hc
    rcases h with rfl | ⟨text, rfl⟩
    · cases hc
    · cases hc
      decide
  | cons b chars =>
    rw [hgap] at hc
    cases hc
    have hblank := gap.blank c (by rw [hgap]; exact List.mem_cons_self)
    exact isNameChar_of_isSeparator (isSeparator_iff.2 hblank)

/-- A line is lexed to the tokens of its statement and the end of the line. A line without a
statement has the end only. -/
theorem Line.lexLine (line : Line registry) {file : Option String} {before tail : List Char}
    {number : Nat} (hat : Location.after file before = ⟨number, 0, file⟩) (htail : IsTail tail) :
    ∃ tokens found,
      lexLine file number 0 (line.indent.chars ++ line.statement?.elim [] Statement.chars
        ++ line.trail.chars ++ tail) = (tokens ++ [⟨.endOfLine, found⟩], none) ∧
      (tokens = [] ∧ line.nodes file before = [] ∨
        ∃ node, Reads registry tokens node ∧ line.nodes file before = [node]) := by
  have hindent := after_append hat line.indent.whole.1
  obtain ⟨indent, statement?, trail, comment?⟩ := line
  cases statement? with
  | none =>
    obtain ⟨found, hscan⟩ := scan_of_isTail trail (0 + indent.chars.length) htail
    refine ⟨[], ⟨number, found, file⟩, ?_, .inl ⟨rfl, rfl⟩⟩
    rw [Option.elim_none, List.append_nil, List.append_assoc, indent.lexLine,
      lexLine_of_lineEnd hscan, List.nil_append]
  | some statement =>
    have hhead := isNameChar_head_of_isTail trail htail
    have hname := after_append hindent statement.head.whole.1
    obtain ⟨found, hscan⟩ := scan_of_isTail trail
      (0 + indent.chars.length + statement.head.chars.length
        + (Pieces.chars statement.pieces).length) htail
    refine ⟨_, ⟨number, found, file⟩, ?_, .inr ⟨_, statement.reads file _, rfl⟩⟩
    rw [Option.elim_some, statement.chars_eq, List.append_assoc, List.append_assoc,
      List.append_assoc, indent.lexLine]
    have hatom := (Atom.name statement.head).lexLine hindent
      (Pieces.isNameChar_head statement.pieces hhead)
    rw [Atom.chars] at hatom
    rw [hatom, Pieces.lexLine statement.pieces hname hhead, lexLine_of_lineEnd hscan]
    rfl

/-- A line put in front of lexed lines: its statement is the first of the program. Without a
statement the line is a blank one. -/
theorem Line.tokens?_cons (line : Line registry) {file : Option String} {before tail : List Char}
    {number : Nat} {lines : List Script.Line} {rest : List Token} {nodes : List (Node φ)}
    (hat : Location.after file before = ⟨number, 0, file⟩) (htail : IsTail tail)
    (hrest : (lexLines file (number + 1) lines).tokens? = .ok rest) (hprog : IsProgram rest)
    (htrees : List.Forall₂ (Reads registry) (statementsOf rest) nodes) :
    ∃ tokens,
      (lexLines file number (.ok (line.indent.chars ++ line.statement?.elim [] Statement.chars
        ++ line.trail.chars ++ tail) :: lines)).tokens? = .ok tokens ∧ IsProgram tokens ∧
      List.Forall₂ (Reads registry) (statementsOf tokens) (line.nodes file before ++ nodes) := by
  obtain ⟨tokens, found, hlex, hnodes⟩ := line.lexLine hat htail
  refine ⟨tokens ++ ⟨.endOfLine, found⟩ :: rest, ?_, ?_⟩
  · rw [tokens?_lexLines_cons hlex, hrest]
    simp [Except.map]
  · rcases hnodes with ⟨rfl, hnone⟩ | ⟨node, hreads, hone⟩
    · rw [hnone]
      exact ⟨.blank hprog, htrees⟩
    · rw [hone, hreads.isStatement.statementsOf_append]
      exact ⟨.statement hreads.isStatement hprog, .cons hreads htrees⟩

/-- What a terminator leaves at the end of its line when it is cut off at the line feed. -/
def Ending.carriage : Ending → List Char
  | .feed => []
  | .returnFeed => ['\r']

theorem Ending.chars_eq (ending : Ending) : ending.chars = ending.carriage ++ ['\n'] := by
  cases ending <;> rfl

/-- A line holds no line feed, not even in its comment. So it is one line of the text. -/
theorem Line.notMem_chars (line : Line registry) : '\n' ∉ line.chars := by
  obtain ⟨indent, statement?, trail, comment?⟩ := line
  have hstatement : '\n' ∉ statement?.elim [] Statement.chars := by
    cases statement? with
    | none => exact List.not_mem_nil
    | some statement => exact statement.whole.1
  have hcomment : '\n' ∉ comment?.elim [] Comment.chars := by
    cases comment? with
    | none => exact List.not_mem_nil
    | some comment => simpa [Comment.chars] using comment.inside
  simp [Line.chars, indent.whole.1, hstatement, trail.whole.1, hcomment]

/-- Cutting a carriage return from a line takes it from its terminator or from its comment. The
statement and the blanks after it stay as they are. -/
theorem Line.dropFinal_chars (line : Line registry) (ending : Ending) :
    ∃ tail, IsTail tail ∧
      Text.dropFinal '\r' (line.chars ++ ending.carriage)
        = line.indent.chars ++ line.statement?.elim [] Statement.chars ++ line.trail.chars
            ++ tail := by
  obtain ⟨indent, statement?, trail, comment?⟩ := line
  cases ending with
  | returnFeed =>
    refine ⟨comment?.elim [] Comment.chars, ?_, Text.dropFinal_concat _ _⟩
    cases comment? with
    | none => exact .inl rfl
    | some comment => exact .inr ⟨comment.text, rfl⟩
  | feed =>
    rw [Ending.carriage, List.append_nil, Line.chars]
    cases comment? with
    | none =>
      refine ⟨[], .inl rfl, ?_⟩
      have hstatement : Whole (statement?.elim [] Statement.chars) := by
        cases statement? with
        | none => exact .nil
        | some statement => exact statement.whole
      exact Text.dropFinal_eq_self
        (((indent.whole.append hstatement).append trail.whole).append .nil).2
    | some comment =>
      refine ⟨'#' :: Text.dropFinal '\r' comment.text, .inr ⟨_, rfl⟩, ?_⟩
      rw [Option.elim_some, Comment.chars, Text.dropFinal_append (List.cons_ne_nil _ _),
        Text.dropFinal_cons (by decide)]

/-- A line without characters has no statement. If it is the last line, it is not even a line of the
text. -/
theorem Line.nodes_of_chars_eq_nil {line : Line registry} (h : line.chars = [])
    (file : Option String) (before : List Char) : line.nodes file before = [] := by
  obtain ⟨indent, statement?, trail, comment?⟩ := line
  cases statement? with
  | none => rfl
  | some statement => simp [Line.chars, statement.chars_eq, Name.chars] at h

/-- The lines of a script are lexed to a program of the grammar with the trees that are meant. The
induction is on the lines, and the text before them moves on with each one. -/
theorem tokens?_lexLines (lines : List (Line registry × Ending)) (unended? : Option (Line registry))
    {file : Option String} {before : List Char} {number : Nat}
    (hat : Location.after file before = ⟨number, 0, file⟩) :
    ∃ tokens,
      (lexLines file number ((Text.physicalLines
        (linesChars lines ++ unended?.elim [] Line.chars)).map .ok)).tokens? = .ok tokens ∧
      IsProgram tokens ∧
      List.Forall₂ (Reads registry) (statementsOf tokens)
        (linesNodes file before lines
          ++ unended?.elim [] (Line.nodes file (before ++ linesChars lines))) := by
  induction lines generalizing before number with
  | nil =>
    have hend (n : Nat) : (lexLines file n []).tokens? = .ok [⟨.endOfInput, ⟨n, 0, file⟩⟩] :=
      tokens?_lexLines_nil
    simp only [linesChars, linesNodes, List.flatMap_nil, List.nil_append, List.append_nil]
    cases unended? with
    | none => exact ⟨_, hend number, .endOfInput, .nil⟩
    | some line =>
      rw [Option.elim_some, Option.elim_some]
      by_cases hchars : line.chars = []
      · rw [hchars, line.nodes_of_chars_eq_nil hchars]
        exact ⟨_, hend number, .endOfInput, .nil⟩
      · obtain ⟨tail, htail, hcut⟩ := line.dropFinal_chars .feed
        rw [Ending.carriage, List.append_nil] at hcut
        rw [Text.physicalLines_eq_map, Text.separated_of_notMem line.notMem_chars hchars,
          List.map_singleton, hcut]
        have hstep := line.tokens?_cons hat htail (hend (number + 1)) .endOfInput .nil
        rwa [List.append_nil] at hstep
  | cons part lines ih =>
    obtain ⟨line, ending⟩ := part
    obtain ⟨tail, htail, hcut⟩ := line.dropFinal_chars ending
    have hcarriage : '\n' ∉ line.chars ++ ending.carriage := by
      have hending : '\n' ∉ ending.carriage := by cases ending <;> decide
      simp [line.notMem_chars, hending]
    have hnext : Location.after file (before ++ line.chars ++ ending.chars)
        = ⟨number + 1, 0, file⟩ := by
      rw [ending.chars_eq, List.append_assoc, ← List.append_assoc line.chars,
        ← List.append_assoc before]
      exact after_feed (after_append hat hcarriage)
    obtain ⟨rest, hrest, hprog, htrees⟩ := ih hnext
    have hchars : linesChars ((line, ending) :: lines) ++ unended?.elim [] Line.chars
        = (line.chars ++ ending.carriage)
            ++ '\n' :: (linesChars lines ++ unended?.elim [] Line.chars) := by
      simp [linesChars, ending.chars_eq]
    rw [hchars, Text.physicalLines_eq_map, Text.separated_append hcarriage, List.map_cons,
      ← Text.physicalLines_eq_map, hcut]
    have hstep := line.tokens?_cons hat htail hrest hprog htrees
    rw [← List.append_assoc] at hstep
    simpa [linesNodes, linesChars] using hstep

end Layout

/-- **Every layout of a program is read back.** The text of a layout is lexed, and its tokens are
parsed to the program that is meant, with each node at the line and column of its first character in
the text. -/
theorem parse_tokenize_layout {φ : Type} {registry : Registry φ} (layout : Layout registry)
    (file : Option String) :
    ∃ tokens, tokenize (.text (String.ofList layout.text)) file = .ok tokens ∧
      parse registry tokens = .ok (layout.program file) := by
  have hstart : Location.after file [] = ⟨0, 0, file⟩ := rfl
  obtain ⟨tokens, hlex, hprog, htrees⟩ :=
    Layout.tokens?_lexLines layout.lines layout.unended? hstart
  refine ⟨tokens, ?_, ?_⟩
  · rw [tokenize, Source.lexing, Source.lines, String.toList_ofList]
    exact hlex
  · have hne : tokens ≠ [] := by cases hprog <;> simp
    rw [parse_eq_parseStatements registry hne]
    simpa [Layout.program] using hprog.parseStatements htrees _ []

-- A comment line, then a call with one operand of each kind.
example :
    let registry : Registry Unit := ⟨[⟨"print", ["*words"], ⟨0, true⟩, ()⟩]⟩
    let space : Layout.Break := ⟨⟨[' '], by simp⟩, by simp⟩
    let indent : Layout.Gap := ⟨['\t'], by simp⟩
    let nothing : Layout.Gap := ⟨[], by simp⟩
    let call : Layout.Call registry :=
      ⟨⟨'p', ['r', 'i', 'n', 't'], by decide, by simp [Char.isAlpha, Char.isLower]⟩,
        [(space, .literal (.quoted ['a', ' ', '#', ' ', 'b'] (by simp))),
          (space, .name ⟨'x', [], by decide, by simp⟩)],
        ⟨"print", ["*words"], ⟨0, true⟩, ()⟩, rfl, by decide⟩
    let layout : Layout registry :=
      ⟨[(⟨nothing, none, nothing, some ⟨['n', 'o', 't', 'e'], by simp⟩⟩, .returnFeed)],
        some ⟨indent, some (.call call), nothing, none⟩⟩
    layout.text = "#note\r\n\tprint \"a # b\" x".toList ∧
      layout.program none
        = [.call ⟨1, 1, none⟩ "print" ⟨"print", ["*words"], ⟨0, true⟩, ()⟩
            [.literal ⟨1, 7, none⟩ "a # b", .reference ⟨1, 15, none⟩ "x"]] := by
  constructor <;> rfl

end ActivityScript.Script
