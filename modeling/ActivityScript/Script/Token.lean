import ActivityScript.Script.Location
import ActivityScript.Text.Quoted

/-!
# Tokens

What a script is made of: names, texts and equals signs, an end after each line, and one end after
the last line. A token is such a lexeme at a location.
-/

namespace ActivityScript.Script

/-- The kinds of token, with the text of those that have one. -/
inductive Lexeme where
  | identifier (name : String)
  | literal (text : String)
  | equals
  | endOfLine
  | endOfInput
  deriving DecidableEq, Repr

/-- The label of a kind of token. -/
def Lexeme.label : Lexeme → String
  | .identifier _ => "IDENTIFIER"
  | .literal _ => "STRING_LITERAL"
  | .equals => "EQUALS"
  | .endOfLine => "EOL"
  | .endOfInput => "EOF"

/-- The text a lexeme carries. -/
def Lexeme.value? : Lexeme → Option String
  | .identifier name => some name
  | .literal text => some text
  | .equals | .endOfLine | .endOfInput => none

/-- A lexeme in an error message: its label, and its text in quotation marks. -/
def Lexeme.text (l : Lexeme) : String :=
  match l.value? with
  | some value => l.label ++ "(" ++ Text.quoted value ++ ")"
  | none => l.label

/-- A lexeme at a location. -/
structure Token where
  lexeme : Lexeme
  location : Location
  deriving DecidableEq, Repr

end ActivityScript.Script
