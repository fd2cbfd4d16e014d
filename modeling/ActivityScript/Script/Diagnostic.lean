import ActivityScript.Script.Token

/-!
# Diagnostics

Every way in which a script can be at fault is a `Problem`. A diagnostic is a problem at a location.
Problems have a code, which tells the phase that finds them, and a message. `Report` is what remains
of a diagnostic once it is put into words.
-/

namespace ActivityScript.Script

/-- The phases of handling a script. -/
inductive Phase where
  | lexing
  | parsing
  | execution
  deriving DecidableEq, Repr

/-- The faults of a script. -/
inductive Problem where
  /-- A character that begins no token. -/
  | invalidCharacter
  /-- A quotation mark without a second one on its line. -/
  | unterminatedLiteral
  /-- A token that cannot begin a statement. -/
  | unexpectedToken (found : Lexeme)
  /-- The tokens end without an end of input. -/
  | unexpectedEnd
  /-- A token after a complete statement. -/
  | expectedEndOfLine (found : Lexeme)
  /-- An assignment without a value. -/
  | expectedValue (found : Lexeme)
  /-- A call of a name that is not registered. -/
  | functionNotFound
  /-- Fewer arguments than the function requires. -/
  | missingArguments (required : Nat)
  /-- More arguments than the function accepts. -/
  | tooManyArguments (required : Nat)
  /-- A name that was never assigned. -/
  | undefinedVariable
  /-- A function that reported a failure. -/
  | activityFailed (message : String)
  deriving DecidableEq, Repr

/-- The phase that finds a problem. -/
def Problem.phase : Problem → Phase
  | .invalidCharacter | .unterminatedLiteral => .lexing
  | .unexpectedToken _ | .unexpectedEnd | .expectedEndOfLine _ | .expectedValue _
  | .functionNotFound | .missingArguments _ | .tooManyArguments _ => .parsing
  | .undefinedVariable | .activityFailed _ => .execution

/-- The code of a problem. -/
def Problem.code : Problem → String
  | .invalidCharacter => "E001"
  | .unterminatedLiteral => "E002"
  | .unexpectedToken _ => "E101"
  | .unexpectedEnd => "E102"
  | .expectedEndOfLine _ => "E103"
  | .expectedValue _ => "E104"
  | .functionNotFound => "E110"
  | .missingArguments _ => "E111"
  | .tooManyArguments _ => "E112"
  | .undefinedVariable => "E401"
  | .activityFailed _ => "E402"

/-- A problem in words. -/
def Problem.message : Problem → String
  | .invalidCharacter => "invalid character"
  | .unterminatedLiteral => "missing closing quotation mark"
  | .unexpectedToken found => "unexpected token " ++ found.text ++ " in statement"
  | .unexpectedEnd => "unexpected end of input"
  | .expectedEndOfLine found => "expected end of line, got " ++ found.text
  | .expectedValue found => "expected value, got " ++ found.text
  | .functionNotFound => "function not found"
  | .missingArguments required => "missing arguments, expected " ++ toString required
  | .tooManyArguments required => "too many arguments, expected " ++ toString required
  | .undefinedVariable => "undefined variable"
  | .activityFailed message => message

/-- A problem at a location. -/
structure Diagnostic where
  problem : Problem
  location : Location
  deriving DecidableEq, Repr

/-- A diagnostic in words. -/
structure Report where
  code : String
  message : String
  location : Location
  deriving DecidableEq, Repr

/-- The report of a diagnostic. -/
def Diagnostic.report (d : Diagnostic) : Report :=
  ⟨d.problem.code, d.problem.message, d.location⟩

/-- A report on one line. -/
def Report.text (r : Report) : String :=
  r.location.text ++ ": error[" ++ r.code ++ "]: " ++ r.message

end ActivityScript.Script
