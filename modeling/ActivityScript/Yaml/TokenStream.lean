import ActivityScript.Yaml.Property

/-!
# The tokens of a document

A block ends where a line is indented less than it, so the reader keeps a stack of indentations.
Whether something is a key is only known at the colon after it: the reader remembers where a key
could have begun, at most one for each level of brackets, and puts the key token there when it meets
the colon. Such a key stands on one line and within 1024 characters; where a mapping must go on, it
has to be one.

A fault ends the tokens. Those before it still count, but not the ones that wait for a key token:
they are known only after the colon has been looked for, and that is where the fault is met.
-/

namespace ActivityScript.Yaml

/-- A place where a key may have begun. -/
structure PossibleKey where
  /-- The level of brackets. -/
  level : Nat
  /-- The number of tokens before it. -/
  slot : Nat
  /-- Whether nothing but a key can stand here. -/
  required : Bool
  position : Position
  deriving DecidableEq, Repr

/-- The tokens of a document up to the first fault. -/
structure TokenStream where
  tokens : List Token
  fault? : Option Fault
  deriving Repr

/-- The state of the reader. -/
structure TokenReader where
  position : Position
  /-- The tokens so far. -/
  tokens : List Token
  /-- The level of brackets. -/
  level : Nat
  /-- The indentation of the innermost block, and those around it. -/
  indent : Int
  outer : List Int
  /-- Whether a key can begin here. -/
  keyAllowed : Bool
  keys : List PossibleKey
  deriving Repr

namespace TokenReader

/-- The reader at the beginning of a document. -/
def start : TokenReader :=
  { position := ⟨0, 0, 0⟩, tokens := [], level := 0, indent := -1, outer := [],
    keyAllowed := true, keys := [] }

/-- Whether the reader is inside of brackets. -/
def inFlow (reader : TokenReader) : Bool := 0 < reader.level

/-- The column of the reader. -/
def column (reader : TokenReader) : Int := reader.position.column

/-- Appends a token. -/
def emit (reader : TokenReader) (token : Token) : TokenReader :=
  { reader with tokens := reader.tokens ++ [token] }

/-- Moves to where `rest` is left of `text`. -/
def moveTo (reader : TokenReader) (text rest : List Char) : TokenReader :=
  { reader with position := reader.position.upTo text rest }

/-- Skips blanks, comments and line breaks; `crossed` once a line break was met. -/
def skipBlank (position : Position) (comment crossed : Bool) :
    List Char → Position × Bool × List Char
  | [] => (position, crossed, [])
  | c :: cs =>
    if isBreak c then skipBlank (position.after c) false true cs
    else if comment || c = ' ' then skipBlank (position.after c) comment crossed cs
    else if c = '#' then skipBlank (position.after c) true crossed cs
    else (position, crossed, c :: cs)

/-- Moves to the next token. Outside of brackets a key can begin on each new line. -/
def toNextToken (reader : TokenReader) (text : List Char) : TokenReader × List Char :=
  let (position, text) :=
    match text with
    | c :: cs =>
      if reader.position.index = 0 ∧ c = byteOrderMark then (reader.position.after c, cs)
      else (reader.position, text)
    | [] => (reader.position, text)
  let (position, crossed, rest) := skipBlank position false false text
  let keyAllowed := reader.keyAllowed || (crossed && !reader.inFlow)
  ({ reader with position := position, keyAllowed := keyAllowed }, rest)

/-- Whether a possible key cannot be one any more. -/
def isStale (reader : TokenReader) (key : PossibleKey) : Bool :=
  key.position.line ≠ reader.position.line
    || 1024 < reader.position.index - key.position.index

/-- Forgets the possible keys of which `gone` holds; it is a fault if one of them is required. -/
def forget (reader : TokenReader) (gone : PossibleKey → Bool) : Except Fault TokenReader :=
  if reader.keys.any fun key => gone key && key.required then .error .malformed
  else .ok { reader with keys := reader.keys.filter fun key => !gone key }

/-- Forgets the possible key at the current level. -/
def forgetHere (reader : TokenReader) : Except Fault TokenReader :=
  reader.forget fun key => key.level = reader.level

/-- Remembers that a key may begin here. -/
def rememberKey (reader : TokenReader) : Except Fault TokenReader :=
  if reader.keyAllowed then do
    let cleared ← reader.forgetHere
    let key : PossibleKey :=
      { level := reader.level, slot := reader.tokens.length,
        required := !reader.inFlow && reader.indent = reader.column,
        position := reader.position }
    return { cleared with keys := cleared.keys ++ [key] }
  else .ok reader

/-- The indentations left, and the number of blocks that end, at a column. -/
def unwindFrom (column indent : Int) : List Int → Int × List Int × Nat
  | [] => (indent, [], 0)
  | next :: outer =>
    if column < indent then
      let (indent, outer, count) := unwindFrom column next outer
      (indent, outer, count + 1)
    else (indent, next :: outer, 0)

/-- Ends the blocks that are indented deeper than a column; there are none in brackets. -/
def unwind (reader : TokenReader) (column : Int) : TokenReader :=
  if reader.inFlow then reader
  else
    let (indent, outer, count) := unwindFrom column reader.indent reader.outer
    { reader with
      indent := indent, outer := outer
      tokens := reader.tokens ++ List.replicate count .blockEnd }

/-- Begins a block at a column, with its token at `slot`, unless one with this indentation is there
already or the reader is in brackets. -/
def beginBlock (reader : TokenReader) (column : Int) (slot : Nat) (token : Token) : TokenReader :=
  if !reader.inFlow && reader.indent < column then
    { reader with
      indent := column, outer := reader.indent :: reader.outer
      tokens := reader.tokens.take slot ++ token :: reader.tokens.drop slot }
  else reader

/-- Begins a block here. -/
def beginBlockHere (reader : TokenReader) (token : Token) : TokenReader :=
  reader.beginBlock reader.column reader.tokens.length token

/-- Everything ends here: all blocks, and the possible key. -/
def endAll (reader : TokenReader) : Except Fault TokenReader := do
  let reader ← (reader.unwind (-1)).forgetHere
  return { reader with keyAllowed := false }

/-- Reads an opening bracket. -/
def openBracket (reader : TokenReader) (token : Token) : Except Fault TokenReader := do
  let reader ← reader.rememberKey
  return { reader.emit token with level := reader.level + 1, keyAllowed := true }

/-- Reads a closing bracket; there must be one to close. -/
def closeBracket (reader : TokenReader) (token : Token) : Except Fault TokenReader := do
  if !reader.inFlow then throw .malformed
  let reader ← reader.forgetHere
  return { reader.emit token with level := reader.level - 1, keyAllowed := false }

/-- Reads a comma. -/
def comma (reader : TokenReader) : Except Fault TokenReader := do
  let reader ← reader.forgetHere
  return { reader.emit .comma with keyAllowed := true }

/-- Reads the hyphen before an item. -/
def entry (reader : TokenReader) : Except Fault TokenReader := do
  if !reader.inFlow && !reader.keyAllowed then throw .malformed
  let reader ← (reader.beginBlockHere .blockSequence).forgetHere
  return { reader.emit .entry with keyAllowed := true }

/-- Reads the question mark before a key. -/
def explicitKey (reader : TokenReader) : Except Fault TokenReader := do
  if !reader.inFlow && !reader.keyAllowed then throw .malformed
  let reader ← (reader.beginBlockHere .blockMapping).forgetHere
  return { reader.emit .key with keyAllowed := !reader.inFlow }

/-- Reads the colon before a value. -/
def value (reader : TokenReader) : Except Fault TokenReader := do
  match reader.keys.find? fun key => key.level = reader.level with
  | some key =>
    let tokens := reader.tokens.take key.slot ++ .key :: reader.tokens.drop key.slot
    let keys := reader.keys.filter fun other => other.level ≠ reader.level
    let reader := { reader with tokens := tokens, keys := keys, keyAllowed := false }
    return (reader.beginBlock key.position.column key.slot .blockMapping).emit .value
  | none =>
    if !reader.inFlow && !reader.keyAllowed then throw .malformed
    let reader := reader.beginBlockHere .blockMapping
    return { reader.emit .value with keyAllowed := !reader.inFlow }

/-- Reads a token that may begin a key. -/
def mayBeginKey (reader : TokenReader) (token : Token) : Except Fault TokenReader := do
  let reader ← reader.rememberKey
  return { reader.emit token with keyAllowed := false }

/-- Reads a block of lines. -/
def block (reader : TokenReader) (folded : Bool) (text : List Char) :
    Except Fault (TokenReader × List Char) := do
  let (content, rest) ← blockScalar folded reader.indent text
  let reader ← reader.forgetHere
  return ({ reader.emit (.scalar (String.ofList content) false) with keyAllowed := true }, rest)

/-- Reads a plain scalar. -/
def plain (reader : TokenReader) (text : List Char) : Except Fault (TokenReader × List Char) := do
  let (content, crossed, rest) := plainScalar reader.inFlow (reader.indent + 1) text
  let reader ← reader.mayBeginKey (.scalar (String.ofList content) true)
  return ({ reader with keyAllowed := crossed }, rest)

/-- Reads the token that begins with `c` before `cs`. The position is not moved. -/
def readToken (reader : TokenReader) (c : Char) (cs : List Char) :
    Except Fault (TokenReader × List Char) := do
  let text := c :: cs
  let margin := reader.position.column = 0
  if c = '%' && margin then
    let reader ← reader.endAll
    let (token, rest) ← directiveToken cs
    return (reader.emit token, rest)
  if margin && atMark '-' text then
    return ((← reader.endAll).emit .documentStart, text.drop 3)
  if margin && atMark '.' text then
    return ((← reader.endAll).emit .documentEnd, text.drop 3)
  if c = '[' then return (← reader.openBracket .sequenceOpen, cs)
  if c = '\x7b' then return (← reader.openBracket .mappingOpen, cs)
  if c = ']' then return (← reader.closeBracket .sequenceClose, cs)
  if c = '\x7d' then return (← reader.closeBracket .mappingClose, cs)
  if c = ',' then return (← reader.comma, cs)
  if c = '-' && atSpace cs then return (← reader.entry, cs)
  if c = '?' && (reader.inFlow || atSpace cs) then return (← reader.explicitKey, cs)
  if c = ':' && (reader.inFlow || atSpace cs) then return (← reader.value, cs)
  if c = '*' then
    let (name, rest) ← anchorName cs
    return (← reader.mayBeginKey (.reference name), rest)
  if c = '&' then
    let (name, rest) ← anchorName cs
    return (← reader.mayBeginKey (.anchor name), rest)
  if c = '!' then
    let (token, rest) ← tagToken cs
    return (← reader.mayBeginKey token, rest)
  if c = '|' && !reader.inFlow then return (← reader.block false cs)
  if c = '>' && !reader.inFlow then return (← reader.block true cs)
  if c = '\x27' || c = '\x22' then
    let reader ← reader.rememberKey
    let (content, rest) ← quotedScalar (c = '\x22') cs
    return ({ reader.emit (.scalar (String.ofList content) false) with keyAllowed := false }, rest)
  if beginsPlain reader.inFlow c cs then return (← reader.plain text)
  throw .malformed

/-- The tokens before the first that may still turn out to be a key. -/
def settled (reader : TokenReader) : List Token :=
  let slots := (reader.keys.filter fun key => !reader.isStale key).map (·.slot)
  reader.tokens.take (slots.foldl min reader.tokens.length)

/-- The tokens of the rest of a document. Each token takes at least one character. -/
def tokensFrom (reader : TokenReader) (text : List Char) : TokenStream :=
  let broken (fault : Fault) : TokenStream := ⟨reader.settled, some fault⟩
  let (reader, rest) := reader.toNextToken text
  match reader.forget reader.isStale with
  | .error fault => broken fault
  | .ok reader =>
    let reader := reader.unwind reader.column
    match rest with
    | [] =>
      match reader.endAll with
      | .error fault => broken fault
      | .ok reader => ⟨reader.tokens, none⟩
    | c :: cs =>
      match reader.readToken c cs with
      | .error fault => broken fault
      | .ok (next, after) =>
        if _h : after.length < text.length then
          tokensFrom (next.moveTo (c :: cs) after) after
        else broken .malformed
termination_by text.length

end TokenReader

/-- The tokens of a document. -/
def tokens (text : List Char) : TokenStream :=
  if text.all isAllowed then TokenReader.start.tokensFrom text else ⟨[], some .malformed⟩

end ActivityScript.Yaml
