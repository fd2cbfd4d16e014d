import ActivityScript.Proofs.Script.Grammar
import Mathlib.Data.List.Induction

/-!
# Viable prefixes

Tokens are viable if some program of the grammar begins with them. `Standing` is a machine that
reads the grammar token by token and remembers what a parser has to: whether a statement, a value,
an argument or the end of a line may come next, and the call whose arguments are being read. It goes
on exactly as long as the tokens are viable (`viable_iff`), and it stands before a line, or after an
equals sign, exactly if the grammar says that the tokens end there (`after_eq_lineStart_iff`,
`after_eq_equals_iff`).

The machine is not the grammar written twice. It is deterministic where the grammar has several
rules for one beginning, so what the grammar says about a prefix, by some continuation, becomes
something that can be computed from the prefix alone.
-/

namespace ActivityScript.Script

variable {token : Token} {tokens before rest line lines words : List Token} {name : String}
  {location : Location} {count : Nat}

/-! ## Parts of programs -/

/-- Complete lines: blank ones and statements, each up to its end of line. -/
inductive IsLines : List Token → Prop where
  | nil : IsLines []
  | blank {location : Location} {tokens : List Token} :
      IsLines tokens → IsLines (⟨.endOfLine, location⟩ :: tokens)
  | statement {line tokens : List Token} {location : Location} :
      IsStatement line → IsLines tokens → IsLines (line ++ ⟨.endOfLine, location⟩ :: tokens)

/-- Complete lines, then the name and the equals sign of an assignment. -/
def AfterEquals (tokens : List Token) : Prop :=
  ∃ lines name at₁ at₂, IsLines lines ∧
    tokens = lines ++ [⟨.identifier name, at₁⟩, ⟨.equals, at₂⟩]

/-- Some program begins with the tokens. -/
def Viable (tokens : List Token) : Prop :=
  ∃ more, IsProgram (tokens ++ more)

/-- Complete lines and further complete lines are complete lines. The induction is on the first
ones, line by line. -/
theorem IsLines.append (h : IsLines lines) (hmore : IsLines tokens) :
    IsLines (lines ++ tokens) := by
  induction h with
  | nil => exact hmore
  | blank _ ih => exact .blank ih
  | statement hline _ ih =>
    rw [List.append_assoc, List.cons_append]
    exact .statement hline ih

/-- Complete lines before a program are the beginning of a longer one, because a program is complete
lines and an end of input. -/
theorem IsLines.isProgram_append (h : IsLines lines) (hmore : IsProgram tokens) :
    IsProgram (lines ++ tokens) := by
  induction h with
  | nil => exact hmore
  | blank _ ih => exact .blank ih
  | statement hline _ ih =>
    rw [List.append_assoc, List.cons_append]
    exact .statement hline ih

/-- Complete lines and a statement can be closed by an end of line and an end of input. Places do
not matter to the grammar. -/
theorem IsLines.viable_append (h : IsLines lines) (hline : IsStatement line) :
    Viable (lines ++ line) := by
  refine ⟨[⟨.endOfLine, ⟨0, 0, none⟩⟩, ⟨.endOfInput, ⟨0, 0, none⟩⟩], ?_⟩
  rw [List.append_assoc]
  exact h.isProgram_append (.statement hline .endOfInput)

/-- Viable tokens are viable from the first one on: the program that begins with all of them begins
with the first ones. -/
theorem Viable.of_append (rest : List Token) (h : Viable (before ++ rest)) : Viable before := by
  obtain ⟨more, hprog⟩ := h
  exact ⟨rest ++ more, by rwa [← List.append_assoc]⟩

/-! ## The machine -/

/-- Where a reader of the grammar stands. -/
inductive Standing where
  /-- Before a line or the end of input. -/
  | lineStart
  /-- After the name that begins a statement. -/
  | named (name : String) (location : Location)
  /-- After the equals sign of an assignment. -/
  | equals
  /-- After `count` arguments of a call whose name can no longer be the target of an assignment. -/
  | arguments (name : String) (location : Location) (count : Nat)
  /-- After the text of an assignment. -/
  | bound
  /-- After the end of input. -/
  | finished
  deriving DecidableEq

namespace Standing

/-- Where a reader stands after one more token, if the token can stand there. -/
def next (standing : Standing) (token : Token) : Option Standing :=
  match standing, token.lexeme with
  | .lineStart, .identifier name => some (.named name token.location)
  | .lineStart, .endOfLine => some .lineStart
  | .lineStart, .endOfInput => some .finished
  | .named name location, .identifier _ => some (.arguments name location 1)
  | .named name location, .literal _ => some (.arguments name location 1)
  | .named _ _, .equals => some .equals
  | .named _ _, .endOfLine => some .lineStart
  | .equals, .identifier name => some (.arguments name token.location 0)
  | .equals, .literal _ => some .bound
  | .arguments name location count, .identifier _ => some (.arguments name location (count + 1))
  | .arguments name location count, .literal _ => some (.arguments name location (count + 1))
  | .arguments _ _ _, .endOfLine => some .lineStart
  | .bound, .endOfLine => some .lineStart
  | _, _ => none

/-- Where a reader stands after further tokens, if all of them can stand there. -/
def after (standing : Standing) : List Token → Option Standing
  | [] => some standing
  | token :: tokens => (standing.next token).bind (·.after tokens)

/-- The call whose arguments are being read: its name, where that stands, and how many arguments
there are so far. -/
def call? : Standing → Option (String × Location × Nat)
  | .named name location => some (name, location, 0)
  | .arguments name location count => some (name, location, count)
  | .lineStart | .equals | .bound | .finished => none

/-- The call whose arguments end before a token. The name before an equals sign is not called. -/
def ended? (standing : Standing) (token : Token) : Option (String × Location × Nat) :=
  match standing with
  | .named name location =>
    if token.isWord ∨ token.lexeme = .equals then none else some (name, location, 0)
  | .arguments name location count => if token.isWord then none else some (name, location, count)
  | .lineStart | .equals | .bound | .finished => none

variable {standing reached : Standing}

/-- The machine reads tokens in two parts, the second from where it stands after the first, if it
has come so far. -/
theorem after_append (standing : Standing) (before rest : List Token) :
    standing.after (before ++ rest) = (standing.after before).bind (·.after rest) := by
  induction before generalizing standing with
  | nil => rfl
  | cons token before ih =>
    rw [List.cons_append, Standing.after, Standing.after]
    cases standing.next token with
    | none => rfl
    | some reached => exact ih reached

theorem after_concat (standing : Standing) (tokens : List Token) (token : Token) :
    standing.after (tokens ++ [token]) = (standing.after tokens).bind (·.next token) := by
  rw [after_append]
  cases standing.after tokens with
  | none => rfl
  | some reached =>
    rw [Option.bind_some, Option.bind_some, Standing.after]
    cases reached.next token <;> rfl

/-- A word continues the arguments of a call, and is counted. After the name that begins a statement
it also decides that the name is called. -/
theorem next_word (hcall : standing.call? = some (name, location, count)) (h : token.isWord) :
    standing.next token = some (.arguments name location (count + 1)) := by
  obtain ⟨lexeme, place⟩ := token
  cases standing with
  | named | arguments =>
    cases hcall
    cases lexeme with
    | identifier | literal => rfl
    | equals | endOfLine | endOfInput => cases h
  | lineStart | equals | bound | finished => cases hcall

/-- Words continue the arguments of a call, however many there are, and each is counted. -/
theorem after_arguments (h : ∀ token ∈ words, token.isWord) :
    (arguments name location count).after words
      = some (.arguments name location (count + words.length)) := by
  induction words generalizing count with
  | nil => rfl
  | cons word words ih =>
    have hcall : (arguments name location count).call? = some (name, location, count) := rfl
    rw [Standing.after, next_word hcall (h word List.mem_cons_self), Option.bind_some,
      ih fun token hmem => h token (List.mem_cons_of_mem _ hmem), List.length_cons, Nat.add_assoc,
      Nat.add_comm 1]

/-- Words after the name of a call are its arguments. Without any, the machine still stands behind
the name, where an equals sign may follow. -/
theorem after_words (hcall : standing.call? = some (name, location, 0))
    (h : ∀ token ∈ words, token.isWord) :
    ∃ reached, standing.after words = some reached ∧
      reached.call? = some (name, location, words.length) ∧
      (words = [] ∧ reached = standing ∨ reached = .arguments name location words.length) := by
  cases words with
  | nil => exact ⟨standing, rfl, hcall, .inl ⟨rfl, rfl⟩⟩
  | cons word words =>
    refine ⟨.arguments name location (words.length + 1), ?_, rfl, .inr rfl⟩
    rw [Standing.after, next_word hcall (h word List.mem_cons_self), Option.bind_some,
      after_arguments fun token hmem => h token (List.mem_cons_of_mem _ hmem), Nat.add_comm]

/-- The arguments of a call may be followed by an end of line, also if there are none. The machine
then stands before a line again. -/
theorem next_endOfLine (hcall : standing.call?.isSome) :
    standing.next ⟨.endOfLine, location⟩ = some .lineStart := by
  cases standing with
  | named | arguments => rfl
  | lineStart | equals | bound | finished => cases hcall

/-- A call is read from where a name may stand that is called, up to the end of its line. This holds
at the beginning of a line and after an equals sign. -/
theorem after_call (hname : standing.next ⟨.identifier name, location⟩ = some reached)
    (hcall : reached.call? = some (name, location, 0)) (h : ∀ token ∈ words, token.isWord)
    (sign : Location) :
    standing.after (⟨.identifier name, location⟩ :: words ++ ⟨.endOfLine, sign⟩ :: tokens)
      = lineStart.after tokens := by
  obtain ⟨last, hafter, hlast, -⟩ := after_words hcall h
  rw [List.cons_append, Standing.after, hname, Option.bind_some, after_append, hafter,
    Option.bind_some, Standing.after, next_endOfLine (by rw [hlast]; rfl), Option.bind_some]

end Standing

/-! ## What the machine reads -/

/-- A statement is read up to the end of its line, after which the machine stands where it began. So
statements can be read one after the other. -/
theorem IsStatement.after_append (h : IsStatement line) (sign : Location) :
    Standing.lineStart.after (line ++ ⟨.endOfLine, sign⟩ :: tokens)
      = Standing.lineStart.after tokens := by
  cases h with
  | call hcall =>
    obtain ⟨hwords⟩ := hcall
    exact Standing.after_call rfl rfl hwords sign
  | bindText => rfl
  | bindCall hcall =>
    obtain ⟨hwords⟩ := hcall
    have hname (name : String) (location : Location) :
        Standing.equals.next ⟨.identifier name, location⟩ = some (.arguments name location 0) := rfl
    exact Standing.after_call (hname _ _) rfl hwords sign

/-- Complete lines are read, after which the machine stands where it began, whatever follows
them. -/
theorem IsLines.after_append (h : IsLines lines) :
    Standing.lineStart.after (lines ++ tokens) = Standing.lineStart.after tokens := by
  induction h with
  | nil => rfl
  | blank _ ih => exact ih
  | statement hline _ ih =>
    rw [List.append_assoc, List.cons_append, hline.after_append]
    exact ih

theorem IsLines.after (h : IsLines lines) :
    Standing.lineStart.after lines = some .lineStart := by
  have hall : Standing.lineStart.after (lines ++ []) = some .lineStart := h.after_append
  rwa [List.append_nil] at hall

theorem AfterEquals.after (h : AfterEquals tokens) :
    Standing.lineStart.after tokens = some .equals := by
  obtain ⟨lines, name, at₁, at₂, hlines, rfl⟩ := h
  rw [hlines.after_append]
  rfl

/-- A program is read to its end, and then the machine has finished. So it never stops within a
program. -/
theorem IsProgram.after (h : IsProgram tokens) :
    Standing.lineStart.after tokens = some .finished := by
  induction h with
  | endOfInput => rfl
  | blank _ ih => exact ih
  | statement hline _ ih => rw [hline.after_append, ih]

/-- The tokens that lead to a standing, in terms of the grammar. -/
inductive Standing.Reached : Standing → List Token → Prop where
  | lineStart {tokens : List Token} : IsLines tokens → Reached .lineStart tokens
  | named {lines : List Token} {name : String} {location : Location} :
      IsLines lines → Reached (.named name location) (lines ++ [⟨.identifier name, location⟩])
  | equals {tokens : List Token} : AfterEquals tokens → Reached .equals tokens
  | arguments {before words : List Token} {name : String} {location : Location} :
      IsLines before ∧ words ≠ [] ∨ AfterEquals before → (∀ token ∈ words, token.isWord) →
      Reached (.arguments name location words.length)
        (before ++ ⟨.identifier name, location⟩ :: words)
  | bound {lines : List Token} {name text : String} {at₁ at₂ at₃ : Location} : IsLines lines →
      Reached .bound (lines ++ [⟨.identifier name, at₁⟩, ⟨.equals, at₂⟩, ⟨.literal text, at₃⟩])
  | finished {tokens : List Token} : IsProgram tokens → Reached .finished tokens

/-- A call after complete lines, or after those and an equals sign, ends complete lines and a
statement. In the second case the statement is the assignment. -/
theorem exists_lines_append_call (h : IsLines before ∨ AfterEquals before)
    (hwords : ∀ token ∈ words, token.isWord) :
    ∃ lines line, IsLines lines ∧ IsStatement line ∧
      before ++ ⟨.identifier name, location⟩ :: words = lines ++ line := by
  rcases h with hlines | ⟨lines, target, at₁, at₂, hlines, rfl⟩
  · exact ⟨before, _, hlines, .call ⟨hwords⟩, rfl⟩
  · exact ⟨lines, _, hlines, .bindCall ⟨hwords⟩, by rw [List.append_assoc]; rfl⟩

/-- Complete lines, a statement and an end of line are complete lines. This is how a line is
completed. -/
theorem IsLines.concat (h : IsLines lines) (hline : IsStatement line) (sign : Location) :
    IsLines (lines ++ line ++ [⟨.endOfLine, sign⟩]) := by
  rw [List.append_assoc]
  exact h.append (.statement hline .nil)

theorem forall_mem_concat (h : ∀ token ∈ words, token.isWord) (hword : token.isWord) :
    ∀ found ∈ words ++ [token], found.isWord := by
  intro found hmem
  rcases List.mem_append.1 hmem with hmem | hmem
  · exact h found hmem
  · rwa [List.mem_singleton.1 hmem]

namespace Standing

variable {standing reached : Standing}

/-- One token further, the tokens are described by the standing after it. The cases are the
standings, and for each the tokens that may come next. -/
theorem Reached.concat (h : Reached standing tokens) (hnext : standing.next token = some reached) :
    Reached reached (tokens ++ [token]) := by
  obtain ⟨lexeme, place⟩ := token
  cases h with
  | lineStart hlines =>
    cases lexeme with
    | identifier name => cases hnext; exact .named hlines
    | endOfLine => cases hnext; exact .lineStart (hlines.append (.blank .nil))
    | endOfInput => cases hnext; exact .finished (hlines.isProgram_append .endOfInput)
    | literal | equals => cases hnext
  | @named lines name location hlines =>
    cases lexeme with
    | identifier | literal =>
      cases hnext
      rw [List.append_assoc]
      exact .arguments (.inl ⟨hlines, List.cons_ne_nil _ _⟩)
        (forall_mem_concat (List.forall_mem_nil _) rfl)
    | equals =>
      cases hnext
      exact .equals ⟨lines, name, location, place, hlines, by rw [List.append_assoc]; rfl⟩
    | endOfLine =>
      cases hnext
      exact .lineStart (hlines.concat (.call ⟨by simp⟩) place)
    | endOfInput => cases hnext
  | equals hequals =>
    cases lexeme with
    | identifier name => cases hnext; exact .arguments (.inr hequals) (List.forall_mem_nil _)
    | literal text =>
      cases hnext
      obtain ⟨lines, name, at₁, at₂, hlines, rfl⟩ := hequals
      rw [List.append_assoc]
      exact .bound hlines
    | equals | endOfLine | endOfInput => cases hnext
  | @arguments before words name location hbefore hwords =>
    cases lexeme with
    | identifier | literal =>
      cases hnext
      rw [List.append_assoc, List.cons_append, ← List.length_concat, List.concat_eq_append]
      refine .arguments ?_ (forall_mem_concat hwords rfl)
      exact hbefore.imp_left fun h => ⟨h.1, by simp⟩
    | endOfLine =>
      cases hnext
      obtain ⟨lines, line, hlines, hline, heq⟩ :=
        exists_lines_append_call (hbefore.imp_left And.left) hwords
      rw [heq]
      exact .lineStart (hlines.concat hline place)
    | equals | endOfInput => cases hnext
  | bound hlines =>
    cases lexeme with
    | endOfLine => cases hnext; exact .lineStart (hlines.concat .bindText place)
    | identifier | literal | equals | endOfInput => cases hnext
  | finished => cases lexeme <;> cases hnext

/-- The tokens that the machine reads are described by where it stands after them. The induction is
from the last token on (`Reached.concat`). -/
theorem Reached.of_after (h : Standing.lineStart.after tokens = some standing) :
    Reached standing tokens := by
  induction tokens using List.reverseRecOn generalizing standing with
  | nil => cases h; exact .lineStart .nil
  | append_singleton tokens token ih =>
    rw [after_concat] at h
    obtain ⟨reached, hreached, hnext⟩ := Option.bind_eq_some_iff.1 h
    exact (ih hreached).concat hnext

/-- From wherever the machine stands, the tokens so far can become a program: the line can be
completed, and an end of input can follow. -/
theorem Reached.viable (h : Reached standing tokens) : Viable tokens := by
  cases h with
  | lineStart hlines => exact ⟨[⟨.endOfInput, ⟨0, 0, none⟩⟩], hlines.isProgram_append .endOfInput⟩
  | named hlines => exact hlines.viable_append (.call ⟨by simp⟩)
  | equals hequals =>
    obtain ⟨lines, name, at₁, at₂, hlines, rfl⟩ := hequals
    refine Viable.of_append [⟨.literal "", ⟨0, 0, none⟩⟩] ?_
    rw [List.append_assoc]
    exact hlines.viable_append .bindText
  | arguments hbefore hwords =>
    obtain ⟨lines, line, hlines, hline, heq⟩ :=
      exists_lines_append_call (hbefore.imp_left And.left) hwords
    rw [heq]
    exact hlines.viable_append hline
  | bound hlines => exact hlines.viable_append .bindText
  | finished hprog => exact ⟨[], by rwa [List.append_nil]⟩

end Standing

/-- Tokens are viable exactly as long as the machine goes on. One direction follows from a program
that begins with them, the other from `Reached.viable`. -/
theorem viable_iff :
    Viable tokens ↔ ∃ standing, Standing.lineStart.after tokens = some standing := by
  constructor
  · rintro ⟨more, hprog⟩
    have hover := hprog.after
    rw [Standing.after_append] at hover
    obtain ⟨standing, hstanding, -⟩ := Option.bind_eq_some_iff.1 hover
    exact ⟨standing, hstanding⟩
  · rintro ⟨standing, h⟩
    exact (Standing.Reached.of_after h).viable

/-- The machine stands before a line exactly after complete lines. So where it stands says in the
words of the grammar what has been read. -/
theorem after_eq_lineStart_iff :
    Standing.lineStart.after tokens = some .lineStart ↔ IsLines tokens := by
  refine ⟨fun h => ?_, IsLines.after⟩
  cases Standing.Reached.of_after h with
  | lineStart hlines => exact hlines

/-- The machine stands after an equals sign exactly if the tokens end with that of an assignment. A
name stands before it, at the beginning of a line. -/
theorem after_eq_equals_iff :
    Standing.lineStart.after tokens = some .equals ↔ AfterEquals tokens := by
  refine ⟨fun h => ?_, AfterEquals.after⟩
  cases Standing.Reached.of_after h with
  | equals hequals => exact hequals

end ActivityScript.Script
