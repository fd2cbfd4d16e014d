import ActivityScript.Script.Diagnostic
import ActivityScript.Script.Source

/-!
# From lines to tokens

A line is scanned from left to right. Spaces and tabs separate lexemes and mean nothing else; a
number sign ends the line. A name is the longest run of ASCII letters, underscores and full stops
that does not begin with a full stop. A text stands between two quotation marks, verbatim, or is the
longest run of the characters of names after a colon, which may be empty.

`scan` finds the next lexeme of a line. `lexLine` follows it to the end of a line and `lexLines` to
the end of a script; both keep the tokens found before a fault.
-/

namespace ActivityScript.Script

/-- Whether a character only separates lexemes. -/
def isSeparator (c : Char) : Bool := c = ' ' || c = '\t'

/-- Whether a character begins a name. -/
def isNameStart (c : Char) : Bool := c.isAlpha || c = '_'

/-- Whether a character continues a name. -/
def isNameChar (c : Char) : Bool := isNameStart c || c = '.'

/-- A text up to the first quotation mark, and what follows the mark. -/
def splitAtMark : List Char → Option (List Char × List Char)
  | [] => none
  | c :: cs =>
    if c = '\x22' then some ([], cs)
    else (splitAtMark cs).map fun (text, rest) => (c :: text, rest)

/-- What a scan of the rest of a line finds first. -/
inductive Scan where
  /-- A lexeme that starts at `column`, and the rest of the line, which starts at `next`. -/
  | lexeme (column : Nat) (found : Lexeme) (next : Nat) (rest : List Char)
  /-- Nothing more; the line ends at `column`. -/
  | lineEnd (column : Nat)
  /-- Something that is no lexeme. -/
  | fault (column : Nat) (problem : Problem)
  deriving DecidableEq, Repr

/-- The first lexeme of the rest of a line, which starts at `column`. -/
def scan (column : Nat) : List Char → Scan
  | [] => .lineEnd column
  | c :: cs =>
    if isSeparator c then scan (column + 1) cs
    else if c = '#' then .lineEnd (column + 1 + cs.length)
    else if c = '\x22' then
      match splitAtMark cs with
      | some (text, rest) =>
        .lexeme column (.literal (String.ofList text)) (column + text.length + 2) rest
      | none => .fault column .unterminatedLiteral
    else if c = ':' then
      let word := cs.takeWhile isNameChar
      .lexeme column (.literal (String.ofList word)) (column + 1 + word.length)
        (cs.dropWhile isNameChar)
    else if isNameStart c then
      let word := cs.takeWhile isNameChar
      .lexeme column (.identifier (String.ofList (c :: word))) (column + 1 + word.length)
        (cs.dropWhile isNameChar)
    else if c = '=' then .lexeme column .equals (column + 1) cs
    else .fault column .invalidCharacter

/-- What follows a quotation mark is shorter than what it was found in. -/
theorem length_of_splitAtMark {cs text rest : List Char} (h : splitAtMark cs = some (text, rest)) :
    rest.length < cs.length := by
  induction cs generalizing text rest with
  | nil => simp [splitAtMark] at h
  | cons c cs ih =>
    rw [splitAtMark] at h
    split at h
    · obtain ⟨rfl, rfl⟩ := Prod.mk.inj (Option.some.inj h)
      simp
    · obtain ⟨⟨t, r⟩, ht, he⟩ := Option.map_eq_some_iff.1 h
      obtain ⟨rfl, rfl⟩ := Prod.mk.inj he
      exact Nat.lt_succ_of_lt (ih ht)

/-- A scan that finds a lexeme leaves a shorter line. -/
theorem length_of_scan {column found next : Nat} {lexeme : Lexeme} {cs rest : List Char}
    (h : scan column cs = .lexeme found lexeme next rest) : rest.length < cs.length := by
  induction cs generalizing column with
  | nil => simp [scan] at h
  | cons c cs ih =>
    rw [scan] at h
    have := (List.dropWhile_suffix isNameChar (l := cs)).length_le
    split at h
    · exact Nat.lt_succ_of_lt (ih h)
    · split at h
      · cases h
      · split at h
        · split at h
          · cases h
            exact Nat.lt_succ_of_lt (length_of_splitAtMark ‹_›)
          · cases h
        · split at h
          · cases h
            exact Nat.lt_succ_of_le this
          · split at h
            · cases h
              exact Nat.lt_succ_of_le this
            · split at h
              · cases h
                exact Nat.lt_succ_self _
              · cases h

/-- The tokens of the rest of line number `line`, which starts at `column`, up to its end or to the
first fault. -/
def lexLine (file : Option String) (line column : Nat) (cs : List Char) :
    List Token × Option Diagnostic :=
  match _h : scan column cs with
  | .lexeme found lexeme next rest =>
    let (tokens, fault) := lexLine file line next rest
    (⟨lexeme, ⟨line, found, file⟩⟩ :: tokens, fault)
  | .lineEnd found => ([⟨.endOfLine, ⟨line, found, file⟩⟩], none)
  | .fault found problem => ([], some ⟨problem, ⟨line, found, file⟩⟩)
termination_by cs.length
decreasing_by exact length_of_scan _h

/-- Why a script has no complete list of tokens. -/
inductive ReadFault where
  | script (diagnostic : Diagnostic)
  | encoding (fault : Text.Utf8.Fault)
  deriving DecidableEq, Repr

/-- The outcome of reading lines to their end or to the first fault: the tokens found, the fault,
the number of the line reached, and the lines that were not looked at. -/
structure Lexing where
  tokens : List Token
  fault? : Option ReadFault
  line : Nat
  unread : List Line

/-- The tokens of lines, the first of which has number `line`. -/
def lexLines (file : Option String) (line : Nat) : List Line → Lexing
  | [] => ⟨[⟨.endOfInput, ⟨line, 0, file⟩⟩], none, line, []⟩
  | .error fault :: lines => ⟨[], some (.encoding fault), line, lines⟩
  | .ok cs :: lines =>
    match lexLine file line 0 cs with
    | (tokens, some diagnostic) => ⟨tokens, some (.script diagnostic), line, lines⟩
    | (tokens, none) =>
      let rest := lexLines file (line + 1) lines
      { rest with tokens := tokens ++ rest.tokens }

/-- The tokens of a source, up to the first fault. -/
def Source.lexing (source : Source) (file : Option String) : Lexing :=
  lexLines file 0 source.lines

/-- The tokens of a whole source. -/
def Lexing.tokens? (lexing : Lexing) : Except ReadFault (List Token) :=
  match lexing.fault? with
  | none => .ok lexing.tokens
  | some fault => .error fault

/-- The tokens of a whole source. -/
def tokenize (source : Source) (file : Option String) : Except ReadFault (List Token) :=
  (source.lexing file).tokens?

end ActivityScript.Script
