import ActivityScript.Script.Node

/-!
# From tokens to programs

One statement stands on a line. It is a call, or a name, an equals sign and the value: a text or
another call. A call is a name followed by its arguments, which are names and texts; it is resolved
as soon as its arguments are known. Lines without tokens are skipped, tokens after the first end of
input are ignored, and the first problem ends the parse.

When the tokens run out before an end of input, the problem is reported at the last of them; `last`
is its location.
-/

namespace ActivityScript.Script

variable {φ : Type}

/-- The arguments at the beginning of a list of tokens, and the tokens after them. -/
def takeArguments : List Token → List (Node φ) × List Token
  | [] => ([], [])
  | ⟨.identifier name, location⟩ :: tokens =>
    let (arguments, rest) := takeArguments tokens
    (.reference location name :: arguments, rest)
  | ⟨.literal text, location⟩ :: tokens =>
    let (arguments, rest) := takeArguments tokens
    (.literal location text :: arguments, rest)
  | token :: tokens => ([], token :: tokens)

/-- A call of `name`, whose arguments begin the list of tokens, and the tokens after it. -/
def parseCall (registry : Registry φ) (last : Location) (name : String) (location : Location)
    (tokens : List Token) : Except Diagnostic (Node φ × List Token) :=
  match takeArguments tokens with
  | (_, []) => .error ⟨.unexpectedEnd, last⟩
  | (arguments, rest) => do
    let target ← registry.resolve location name arguments.length
    return (.call location name target arguments, rest)

/-- The value of an assignment at the beginning of a list of tokens, and the tokens after it. -/
def parseValue (registry : Registry φ) (last : Location) :
    List Token → Except Diagnostic (Node φ × List Token)
  | [] => .error ⟨.unexpectedEnd, last⟩
  | ⟨.identifier name, location⟩ :: tokens => parseCall registry last name location tokens
  | ⟨.literal text, location⟩ :: tokens => .ok (.literal location text, tokens)
  | token :: _ => .error ⟨.expectedValue token.lexeme, token.location⟩

/-- The statement that begins with `token`, and the tokens after it. -/
def parseStatement (registry : Registry φ) (last : Location) (token : Token)
    (tokens : List Token) : Except Diagnostic (Node φ × List Token) :=
  match token.lexeme with
  | .identifier name =>
    match tokens with
    | ⟨.equals, _⟩ :: rest => do
      let (value, rest) ← parseValue registry last rest
      return (.assignment token.location name value, rest)
    | _ => parseCall registry last name token.location tokens
  | found => .error ⟨.unexpectedToken found, token.location⟩

/-- The arguments are taken from the tokens. -/
theorem length_takeArguments_le (tokens : List Token) :
    (takeArguments (φ := φ) tokens).2.length ≤ tokens.length := by
  fun_induction takeArguments (φ := φ) tokens <;> simp_all <;> omega

/-- A call leaves no more tokens than it was given. -/
theorem length_of_parseCall {registry : Registry φ} {last location : Location} {name : String}
    {tokens rest : List Token} {node : Node φ}
    (h : parseCall registry last name location tokens = .ok (node, rest)) :
    rest.length ≤ tokens.length := by
  have hle := length_takeArguments_le (φ := φ) tokens
  unfold parseCall at h
  split at h
  · cases h
  · next heq =>
    simp only [bind, Except.bind] at h
    split at h
    · cases h
    · cases h
      simpa [heq] using hle

/-- A value leaves no more tokens than it was given. -/
theorem length_of_parseValue {registry : Registry φ} {last : Location}
    {tokens rest : List Token} {node : Node φ}
    (h : parseValue registry last tokens = .ok (node, rest)) : rest.length ≤ tokens.length := by
  unfold parseValue at h
  split at h
  · cases h
  · exact Nat.le_succ_of_le (length_of_parseCall h)
  · cases h
    simp
  · cases h

/-- A statement leaves no more tokens than follow its first one. -/
theorem length_of_parseStatement {registry : Registry φ} {last : Location} {token : Token}
    {tokens rest : List Token} {node : Node φ}
    (h : parseStatement registry last token tokens = .ok (node, rest)) :
    rest.length ≤ tokens.length := by
  unfold parseStatement at h
  split at h
  · split at h
    · simp only [bind, Except.bind] at h
      split at h
      · cases h
      · next hv =>
        cases h
        exact Nat.le_succ_of_le (length_of_parseValue hv)
    · exact length_of_parseCall h
  · cases h

/-- The statements of a list of tokens up to its first end of input. -/
def parseStatements (registry : Registry φ) (last : Location) (tokens : List Token) :
    Except Diagnostic (List (Node φ)) :=
  match tokens with
  | [] => .error ⟨.unexpectedEnd, last⟩
  | token :: tokens =>
    match token.lexeme with
    | .endOfInput => .ok []
    | .endOfLine => parseStatements registry last tokens
    | _ =>
      match _h : parseStatement registry last token tokens with
      | .error diagnostic => .error diagnostic
      | .ok (_, []) => .error ⟨.unexpectedEnd, last⟩
      | .ok (statement, next :: rest) =>
        match next.lexeme with
        | .endOfLine =>
          match parseStatements registry last rest with
          | .ok statements => .ok (statement :: statements)
          | .error diagnostic => .error diagnostic
        | found => .error ⟨.expectedEndOfLine found, next.location⟩
termination_by tokens.length
decreasing_by
  · simp
  · have := length_of_parseStatement _h
    simp at this ⊢
    omega

/-- The program of a list of tokens; no tokens at all are an empty program. -/
def parse (registry : Registry φ) (tokens : List Token) : Except Diagnostic (List (Node φ)) :=
  match tokens.getLast? with
  | none => .ok []
  | some last => parseStatements registry last.location tokens

end ActivityScript.Script
