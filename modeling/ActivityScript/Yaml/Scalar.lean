import ActivityScript.Yaml.Character
import ActivityScript.Yaml.Fault

/-!
# Scalars

A scalar is plain, between quotation marks, or a block of lines. Plain and quoted scalars may run
over several lines; a single line break in them then stands for a blank, and of several the first is
dropped. Each reader goes through its text one character at a time and gives the scalar with the
text after it. An escape that names half of a surrogate pair is not supported, since no character is
written so.
-/

namespace ActivityScript.Yaml

/-- What stands between two words of a scalar. -/
inductive Gap where
  /-- Nothing but blanks. -/
  | blanks (text : List Char)
  /-- Line breaks: the first, unless it was escaped, and those after it. -/
  | folded (first : Option Char) (breaks : List Char)
  deriving DecidableEq, Repr

/-- What a gap stands for. -/
def Gap.text : Gap → List Char
  | .blanks text => text
  | .folded none breaks => breaks
  | .folded (some c) breaks =>
    if c ≠ '\n' then c :: breaks
    else if breaks = [] then [' ']
    else breaks

/-- Whether a gap has a line break. -/
def Gap.isFolded : Gap → Bool
  | .blanks _ => false
  | .folded _ _ => true

/-- A gap with one more blank. -/
def Gap.addBlank (c : Char) : Gap → Gap
  | .blanks text => .blanks (text ++ [c])
  | gap => gap

/-- A gap with one more line break; blanks before it are dropped. -/
def Gap.addBreak (c : Char) : Gap → Gap
  | .blanks _ => .folded (some (breakText c)) []
  | .folded first breaks => .folded first (breaks ++ [breakText c])

/-! ## Quoted scalars -/

/-- Where the reader of a quoted scalar is. -/
inductive QuoteMode where
  | inside
  /-- After a quotation mark that ends the scalar, unless another one follows. -/
  | closing
  /-- After a backslash. -/
  | escape
  /-- In an escape that wants more hexadecimal digits. -/
  | code (left value : Nat)
  deriving DecidableEq, Repr

/-- The characters with escapes of one letter. -/
def shortEscape? (c : Char) : Option Char :=
  match c with
  | '0' => some '\x00'
  | 'a' => some '\x07'
  | 'b' => some '\x08'
  | 't' | '\t' => some '\t'
  | 'n' => some '\n'
  | 'v' => some '\x0b'
  | 'f' => some '\x0c'
  | 'r' => some '\r'
  | 'e' => some '\x1b'
  | ' ' => some ' '
  | '\x22' => some '\x22'
  | '\\' => some '\\'
  | '/' => some '/'
  | 'N' => some '\x85'
  | '_' => some '\xa0'
  | 'L' => some '\u2028'
  | 'P' => some '\u2029'
  | _ => none

/-- The number of digits in an escape by code point. -/
def codeLength? (c : Char) : Option Nat :=
  match c with
  | 'x' => some 2
  | 'u' => some 4
  | 'U' => some 8
  | _ => none

/-- Whether a code point is half of a pair and no character of its own. -/
def isSurrogate (code : Nat) : Bool := 0xD800 ≤ code && code ≤ 0xDFFF

/-- Why an escape for a surrogate is not read: texts are sequences of characters. -/
def surrogateReason : String := "surrogates are not supported"

/-- Goes on in a scalar between two quotation marks: `double` ones, in which a backslash escapes, or
single ones, of which two stand for one. `found` is what was read before `gap`. -/
def quotedFrom (double : Bool) (mode : QuoteMode) (found : List Char) (gap : Gap) :
    List Char → Except Fault (List Char × List Char)
  | [] => if mode = .closing then .ok (found ++ gap.text, []) else .error .malformed
  | c :: cs =>
    let put (text : List Char) := found ++ gap.text ++ text
    match mode with
    | .closing =>
      if c = '\x27' then quotedFrom double .inside (put ['\x27']) (.blanks []) cs
      else .ok (found ++ gap.text, c :: cs)
    | .escape =>
      if isBreak c then
        if atSeparator cs then .error .malformed
        else quotedFrom double .inside found (.folded none []) cs
      else
        match shortEscape? c, codeLength? c with
        | some e, _ => quotedFrom double .inside (put [e]) (.blanks []) cs
        | none, some n => quotedFrom double (.code n 0) found gap cs
        | none, none => .error .malformed
    | .code left value =>
      match Text.hexValue? c with
      | none => .error .malformed
      | some d =>
        let value := 16 * value + d
        if 1 < left then quotedFrom double (.code (left - 1) value) found gap cs
        else if 0x7FFFFFFF < value then .error .codeOverflow
        else if 0x10FFFF < value then .error .codePoint
        else if isSurrogate value then .error (.unsupported surrogateReason)
        else quotedFrom double .inside (put [Char.ofNat value]) (.blanks []) cs
    | .inside =>
      if c = ' ' ∨ c = '\t' then quotedFrom double .inside found (gap.addBlank c) cs
      else if isBreak c then
        if atSeparator cs then .error .malformed
        else quotedFrom double .inside found (gap.addBreak c) cs
      else if double ∧ c = '\x22' then .ok (found ++ gap.text, cs)
      else if ¬ double ∧ c = '\x27' then quotedFrom double .closing found gap cs
      else if double ∧ c = '\\' then
        quotedFrom double .escape (found ++ gap.text) (.blanks []) cs
      else quotedFrom double .inside (put [c]) (.blanks []) cs

/-- The scalar after its first quotation mark. -/
def quotedScalar (double : Bool) (text : List Char) : Except Fault (List Char × List Char) :=
  quotedFrom double .inside [] (.blanks []) text

/-! ## Plain scalars -/

/-- Whether a plain scalar cannot go on with `c` before `rest`. -/
def endsPlain (flow : Bool) (c : Char) (rest : List Char) : Bool :=
  isSpace c
    || (c = ':' && (atSpace rest
      || (flow && rest.head?.any [',', '[', ']', '\x7b', '\x7d'].contains)))
    || (flow && [',', '?', '[', ']', '\x7b', '\x7d'].contains c)

/-- Goes on in a plain scalar: `gap?` is what was met since its last word, with the column reached
in it. Gives also whether the scalar was left at the beginning of a line. -/
def plainFrom (flow : Bool) (indent : Int) (found : List Char) (gap? : Option (Gap × Nat)) :
    List Char → List Char × Bool × List Char
  | [] => (found, gap?.any (·.1.isFolded), [])
  | c :: cs =>
    match gap? with
    | none =>
      if c = ' ' then plainFrom flow indent found (some (.blanks [' '], 0)) cs
      else if isBreak c then
        if atSeparator cs then (found, true, cs)
        else plainFrom flow indent found (some (.folded (some (breakText c)) [], 0)) cs
      else if endsPlain flow c cs then (found, false, c :: cs)
      else plainFrom flow indent (found ++ [c]) none cs
    | some (gap, column) =>
      if c = ' ' then plainFrom flow indent found (some (gap.addBlank c, column + 1)) cs
      else if isBreak c then
        if atSeparator cs then (found, true, cs)
        else plainFrom flow indent found (some (gap.addBreak c, 0)) cs
      else if c = '#' ∨ (gap.isFolded ∧ ¬ flow ∧ (column : Int) < indent) ∨ endsPlain flow c cs then
        (found, gap.isFolded, c :: cs)
      else plainFrom flow indent (found ++ gap.text ++ [c]) none cs

/-- The plain scalar at the beginning of a text; lines of a block after the first are indented by at
least `indent`. -/
def plainScalar (flow : Bool) (indent : Int) (text : List Char) : List Char × Bool × List Char :=
  plainFrom flow indent [] none text

/-- Whether a plain scalar can begin with `c` before `rest`. -/
def beginsPlain (flow : Bool) (c : Char) (rest : List Char) : Bool :=
  !(isSpace c || "-?:,[]\x7b\x7d#&*!|>'\"%@\x60".toList.contains c)
    || (!atSpace rest && (c = '-' || (!flow && (c = '?' || c = ':'))))

/-! ## Blocks of lines -/

/-- What is done with the line breaks at the end of a block. -/
inductive Chomping where
  | strip
  | clip
  | keep
  deriving DecidableEq, Repr

/-- The chomping that a sign asks for. -/
def chomping? (c : Char) : Option Chomping :=
  if c = '+' then some .keep else if c = '-' then some .strip else none

/-- The indentation that a digit asks for. -/
def increment? (c : Char) : Option Nat :=
  if c.isDigit then some (c.toNat - 48) else none

/-- The signs after the mark of a block, and the text after them. -/
def blockSigns (text : List Char) : Except Fault (Chomping × Option Nat × List Char) :=
  let found : Chomping × Option Nat × List Char :=
    match text with
    | a :: b :: rest =>
      match chomping? a, increment? a, chomping? b, increment? b with
      | some chomping, _, _, some n => (chomping, some n, rest)
      | some chomping, _, _, none => (chomping, none, b :: rest)
      | none, some n, some chomping, _ => (chomping, some n, rest)
      | none, some n, none, _ => (.clip, some n, b :: rest)
      | none, none, _, _ => (.clip, none, text)
    | [a] =>
      match chomping? a, increment? a with
      | some chomping, _ => (chomping, none, [])
      | none, some n => (.clip, some n, [])
      | none, none => (.clip, none, text)
    | [] => (.clip, none, [])
  if found.2.1 = some 0 ∨ !atGap found.2.2 then .error .malformed else .ok found

/-- The text after a line that may hold only blanks and a comment. -/
def afterEmptyLine (text : List Char) : Except Fault (List Char) :=
  let rest := text.dropWhile (· = ' ')
  let rest := if rest.head? = some '#' then rest.dropWhile (!isBreak ·) else rest
  match rest with
  | [] => .ok []
  | c :: cs => if isBreak c then .ok cs else .error .malformed

/-- The empty lines at the beginning of a block and the blanks of the line after them: the line
breaks, the greatest column reached, the column of the last line, and the text after them. -/
def leadingLines (column greatest : Nat) : List Char → List Char × Nat × Nat × List Char
  | [] => ([], greatest, column, [])
  | c :: cs =>
    if c = ' ' then leadingLines (column + 1) (max greatest (column + 1)) cs
    else if isBreak c then
      let (breaks, greatest, column, rest) := leadingLines 0 greatest cs
      (breakText c :: breaks, greatest, column, rest)
    else ([], greatest, column, c :: cs)

/-- The empty lines at the beginning of a block whose lines are indented by `indent`. -/
def indentedLines (indent column : Nat) : List Char → List Char × Nat × List Char
  | [] => ([], column, [])
  | c :: cs =>
    if c = ' ' ∧ column < indent then indentedLines indent (column + 1) cs
    else if isBreak c then
      let (breaks, column, rest) := indentedLines indent 0 cs
      (breakText c :: breaks, column, rest)
    else ([], column, c :: cs)

/-- Where the reader of a block is. -/
inductive BlockMode where
  /-- In a line; `flush` if it began with neither blank nor tab. -/
  | line (flush : Bool)
  /-- After the line break `last?` of a line, if there was one, and empty lines. -/
  | between (flush : Bool) (last? : Option Char) (breaks : List Char) (column : Nat)
  deriving DecidableEq, Repr

/-- What the end of a block stands for. -/
def blockTail (chomping : Chomping) (last? : Option Char) (breaks : List Char) : List Char :=
  match chomping with
  | .strip => []
  | .clip => last?.toList
  | .keep => last?.toList ++ breaks

/-- What stands between two lines of a block, of which the second begins with `c`. -/
def blockJoint (folded flush : Bool) (last? : Option Char) (breaks : List Char) (c : Char) :
    List Char :=
  match last? with
  | none => breaks
  | some last =>
    if folded ∧ last = '\n' ∧ flush ∧ c ≠ ' ' ∧ c ≠ '\t' then
      if breaks = [] then [' '] else breaks
    else last :: breaks

/-- Goes on in a block. -/
def blockFrom (folded : Bool) (chomping : Chomping) (indent : Nat) (mode : BlockMode)
    (found : List Char) : List Char → List Char × List Char
  | [] =>
    match mode with
    | .line _ => (found, [])
    | .between _ last? breaks _ => (found ++ blockTail chomping last? breaks, [])
  | c :: cs =>
    match mode with
    | .line flush =>
      if isBreak c then
        blockFrom folded chomping indent (.between flush (some (breakText c)) [] 0) found cs
      else blockFrom folded chomping indent (.line flush) (found ++ [c]) cs
    | .between flush last? breaks column =>
      if c = ' ' ∧ column < indent then
        blockFrom folded chomping indent (.between flush last? breaks (column + 1)) found cs
      else if isBreak c then
        blockFrom folded chomping indent (.between flush last? (breaks ++ [breakText c]) 0) found cs
      else if column = indent then
        blockFrom folded chomping indent (.line (c ≠ ' ' ∧ c ≠ '\t'))
          (found ++ blockJoint folded flush last? breaks c ++ [c]) cs
      else (found ++ blockTail chomping last? breaks, c :: cs)

/-- The block after its mark, in a context that is indented by `outer`. -/
def blockScalar (folded : Bool) (outer : Int) (text : List Char) :
    Except Fault (List Char × List Char) := do
  let (chomping, increment, rest) ← blockSigns text
  let rest ← afterEmptyLine rest
  let least := max (outer + 1).toNat 1
  match increment with
  | some n =>
    let indent := least + n - 1
    let (breaks, column, rest) := indentedLines indent 0 rest
    return blockFrom folded chomping indent (.between true none breaks column) [] rest
  | none =>
    let (breaks, greatest, column, rest) := leadingLines 0 0 rest
    let indent := max least greatest
    return blockFrom folded chomping indent (.between true none breaks column) [] rest

end ActivityScript.Yaml
