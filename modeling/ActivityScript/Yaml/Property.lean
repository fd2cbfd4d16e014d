import ActivityScript.Text.Utf8
import ActivityScript.Yaml.Character
import ActivityScript.Yaml.Fault
import ActivityScript.Yaml.Scalar
import ActivityScript.Yaml.Token

/-!
# Anchors, tags and directives

An anchor names a node, a reference takes the node that was named. A tag gives the type of a node: a
handle, which stands for the beginning of the type, and the rest of it. Directives stand before a
document and may declare handles.
-/

namespace ActivityScript.Yaml

/-- A name and the text after it. -/
def takeName (text : List Char) : Except Fault (List Char × List Char) :=
  match text.takeWhile isNameChar with
  | [] => .error .malformed
  | name => .ok (name, text.dropWhile isNameChar)

/-- The name of an anchor or a reference, and the text after it. -/
def anchorName (text : List Char) : Except Fault (String × List Char) := do
  let (name, rest) ← takeName text
  if atSpace rest || rest.head?.any ("?:,]\x7d%@\x60".toList.contains ·) then
    return (String.ofList name, rest)
  else throw .malformed

/-- Whether a character can stand in a tag. -/
def isTagChar (c : Char) : Bool :=
  c.isAlphanum || "-;/?:@&=+$,_.!~*'()[]%".toList.contains c

/-- The characters that escaped bytes stand for. -/
def unescaped (bytes : List UInt8) : Except Fault (List Char) :=
  (Text.Utf8.decode bytes).mapError fun _ => .malformed

/-- Goes on in a tag after `found` and the escaped bytes `pending`. -/
def tagFrom (found : List Char) (pending : List UInt8) :
    List Char → Except Fault (List Char × List Char)
  | '%' :: a :: b :: cs =>
    match Text.hexValue? a, Text.hexValue? b with
    | some high, some low => tagFrom found (pending ++ [UInt8.ofNat (16 * high + low)]) cs
    | _, _ => .error .malformed
  | c :: cs =>
    if c = '%' then .error .malformed
    else do
      let more ← unescaped pending
      if isTagChar c then tagFrom (found ++ more ++ [c]) [] cs
      else return (found ++ more, c :: cs)
  | [] => do
    let more ← unescaped pending
    return (found ++ more, [])

/-- The characters of a tag, at least one, and the text after them. -/
def tagText (text : List Char) : Except Fault (String × List Char) := do
  if !text.head?.any isTagChar then throw .malformed
  let (found, rest) ← tagFrom [] [] text
  return (String.ofList found, rest)

/-- A handle, which begins with an exclamation mark, and the text after it. -/
def tagHandle : List Char → Except Fault (String × List Char)
  | '!' :: ' ' :: cs => .ok ("!", ' ' :: cs)
  | '!' :: cs =>
    let name := cs.takeWhile isNameChar
    match cs.dropWhile isNameChar with
    | '!' :: rest => .ok (String.ofList ('!' :: name ++ ['!']), rest)
    | _ => .error .malformed
  | _ => .error .malformed

/-- A tag after its exclamation mark, as handle and rest, and the text after it. -/
def tagToken (text : List Char) : Except Fault (Token × List Char) := do
  let (token, rest) ←
    match text with
    | '<' :: cs => do
      let (suffix, rest) ← tagText cs
      match rest with
      | '>' :: rest => pure (Token.tag none suffix, rest)
      | _ => throw .malformed
    | _ =>
      if atSpace text then pure (Token.tag none "!", text)
      else if (text.takeWhile fun c => c ≠ ' ' && !isBreak c).contains '!' then do
        let (handle, rest) ← tagHandle ('!' :: text)
        let (suffix, rest) ← tagText rest
        pure (Token.tag (some handle) suffix, rest)
      else do
        let (suffix, rest) ← tagText text
        pure (Token.tag (some "!") suffix, rest)
  if atGap rest then return (token, rest) else throw .malformed

/-- A number in decimal digits and the text after it. -/
def takeNumber (text : List Char) : Except Fault (Nat × List Char) :=
  match text.takeWhile Char.isDigit with
  | [] => .error .malformed
  | digits =>
    match Text.readNumber digits with
    | .ok n => .ok (n, text.dropWhile Char.isDigit)
    | .error fault => .error (.number fault)

/-- A directive after its percent sign, and the text after its line. -/
def directiveToken (text : List Char) : Except Fault (Token × List Char) := do
  let (name, rest) ← takeName text
  if !atGap rest then throw .malformed
  let arguments := rest.dropWhile (· = ' ')
  let (directive, rest) ←
    if name = "YAML".toList then do
      let (major, rest) ← takeNumber arguments
      match rest with
      | '.' :: rest => do
        let (_, rest) ← takeNumber rest
        if !atGap rest then throw .malformed
        pure (Directive.version major, rest)
      | _ => throw .malformed
    else if name = "TAG".toList then do
      let (handle, rest) ← tagHandle arguments
      if rest.head? ≠ some ' ' then throw .malformed
      let (lead, rest) ← tagText (rest.dropWhile (· = ' '))
      if !atGap rest then throw .malformed
      pure (Directive.handle handle lead, rest)
    else pure (Directive.other, rest.dropWhile (!isBreak ·))
  let rest ← afterEmptyLine rest
  return (.directive directive, rest)

end ActivityScript.Yaml
