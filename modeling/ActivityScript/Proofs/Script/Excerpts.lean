import ActivityScript.Proofs.Script.Faults
import ActivityScript.Proofs.Script.LineByLine
import ActivityScript.Proofs.Script.Sources
import ActivityScript.Script.FileExcerpt

/-!
# Excerpts show what was lexed

Whatever a script is told to have done wrong, it is told at a place of one of its lines, in the line
or right behind it (`Location.Within.of_execute`). The end of input, which lies behind the last
line, is never at fault: the parser does not look past the end of a line, and only statements run.

A report cuts the script into lines by itself, in one way for a text and in another for a file. Both
find the line that the lexer saw (`lineOfText?_of_lines`, `lineOfBytes?_of_lines`), so a report
always shows that line (`excerpt_shows_line`).
-/

namespace ActivityScript.Script

open Text Text.Utf8

/-! ## Places in lines -/

section Places

variable {first : Nat} {cs : List Char} {lines : List Line} {location : Location}

/-- A place in line number `line`, at most at column `bound`. -/
def Location.On (line bound : Nat) (location : Location) : Prop :=
  location.line = line ∧ location.column ≤ bound

/-- A place in one of `lines`, the first of which has number `first`, or right behind it. -/
def Location.Within (first : Nat) (lines : List Line) (location : Location) : Prop :=
  ∃ k cs, lines[k]? = some (.ok cs) ∧ location.On (first + k) cs.length

/-- The rest of a line is lexed at places of that rest. The end of the line may be right behind its
last character, but no fault is. -/
theorem on_of_lexLine (file : Option String) (line column : Nat) (cs : List Char) :
    (∀ token ∈ (lexLine file line column cs).1, token.location.On line (column + cs.length)) ∧
      ∀ diagnostic ∈ (lexLine file line column cs).2,
        diagnostic.location.On line (column + cs.length) := by
  fun_induction lexLine file line column cs with
  | case1 column cs found lexeme next rest hscan tokens fault hinner ih =>
    have hwithin := scan_within column cs
    rw [hscan] at hwithin
    obtain ⟨-, -, hnext, hlength⟩ := hwithin
    rw [hinner, hlength] at ih
    refine ⟨fun token hmem => ?_, ih.2⟩
    rcases List.mem_cons.1 hmem with rfl | hmem
    · exact ⟨rfl, by simp only; omega⟩
    · exact ih.1 token hmem
  | case2 column cs found hscan =>
    have hwithin := scan_within column cs
    rw [hscan] at hwithin
    refine ⟨fun token hmem => ?_, fun diagnostic hmem => absurd hmem (by simp)⟩
    rw [List.mem_singleton.1 hmem]
    exact ⟨rfl, Nat.le_of_eq hwithin⟩
  | case3 column cs found problem hscan =>
    have hwithin := scan_within column cs
    rw [hscan] at hwithin
    refine ⟨fun token hmem => absurd hmem List.not_mem_nil, fun diagnostic hmem => ?_⟩
    cases hmem
    exact ⟨rfl, Nat.le_of_lt hwithin.2⟩

theorem Location.Within.head (h : location.On first cs.length) :
    location.Within first (.ok cs :: lines) :=
  ⟨0, cs, rfl, h⟩

theorem Location.Within.tail {head : Line} (h : location.Within (first + 1) lines) :
    location.Within first (head :: lines) := by
  obtain ⟨k, cs, hget, hon⟩ := h
  have hcount : first + 1 + k = first + (k + 1) := by omega
  exact ⟨k + 1, cs, hget, hcount ▸ hon⟩

/-- A place within lines that are counted from zero is on the line with its number, which has a
text, and not further than right behind it. -/
theorem Location.Within.exists_getElem? (h : location.Within 0 lines) :
    ∃ line, lines[location.line]? = some (.ok line) ∧ location.column ≤ line.length := by
  obtain ⟨k, line, hget, hline, hcolumn⟩ := h
  rw [Nat.zero_add] at hline
  exact ⟨line, hline ▸ hget, hcolumn⟩

/-- Lines are lexed at places of theirs, up to the first fault. A line that is no text has no place
to be told about. -/
theorem Location.Within.of_tokenLines (file : Option String) (first : Nat) (lines : List Line) :
    match tokenLines file first lines with
    | .ok tokenized => ∀ token ∈ tokenized.flatten, token.location.Within first lines
    | .error (.script diagnostic) => diagnostic.location.Within first lines
    | .error (.encoding _) => True := by
  induction lines generalizing first with
  | nil => exact fun token hmem => absurd hmem List.not_mem_nil
  | cons head lines ih =>
    have hrest := ih (first + 1)
    rw [tokenLines]
    cases head with
    | error fault => trivial
    | ok cs =>
      rw [lineTokens]
      have hon := on_of_lexLine file first 0 cs
      rw [Nat.zero_add] at hon
      cases hlex : lexLine file first 0 cs with
      | mk tokens fault? =>
        rw [hlex] at hon
        cases fault? with
        | some found => exact .head (hon.2 found rfl)
        | none =>
          cases hlines : tokenLines file (first + 1) lines with
          | error fault =>
            rw [hlines] at hrest
            cases fault with
            | script diagnostic => exact Location.Within.tail hrest
            | encoding fault => trivial
          | ok rest =>
            rw [hlines] at hrest
            intro token hmem
            rw [List.flatten_cons] at hmem
            rcases List.mem_append.1 hmem with hmem | hmem
            · exact .head (hon.1 token hmem)
            · exact (hrest token hmem).tail

end Places

/-! ## Places of faults -/

section Faults

variable {file : Option String} {tokenized : List (List Token)} {sign : Location}
  {diagnostic : Diagnostic}

/-- The parser is at fault in one of the lines, not at the end of input behind them: the fault would
be the same if the input ended elsewhere. -/
theorem exists_mem_flatten_of_parse {φ : Type} {registry : Registry φ}
    (hclosed : ∀ tokens ∈ tokenized, ClosedLine tokens)
    (h : parse registry (tokenized.flatten ++ [⟨.endOfInput, sign⟩]) = .error diagnostic) :
    ∃ token ∈ tokenized.flatten, token.location = diagnostic.location := by
  rw [parse_eq_parseStatements registry (by simp)] at h
  rcases parseStatements_flatten hclosed registry with ⟨found, hfound⟩ | ⟨nodes, hnodes⟩
  · rw [hfound] at h
    cases h
    -- The fault does not depend on where the input ends, so let it end on another line.
    let elsewhere : Location := ⟨diagnostic.location.line + 1, 0, none⟩
    have hend : HasEnd (tokenized.flatten ++ [⟨.endOfInput, elsewhere⟩]) :=
      ⟨_, List.mem_append_right _ (List.mem_singleton_self _), rfl⟩
    obtain ⟨token, hmem, hlocation⟩ :=
      (ParseFault.of_parseStatements hend (hfound sign _)).located
    rcases List.mem_append.1 hmem with hmem | hmem
    · exact ⟨token, hmem, hlocation⟩
    · rw [List.mem_singleton.1 hmem] at hlocation
      have hline : diagnostic.location.line + 1 = diagnostic.location.line :=
        congrArg Location.line hlocation
      omega
  · rw [hnodes, parseStatements] at h
    cases h

/-- A run is at fault in one of the lines, not at the end of input behind them, because no statement
has an end of input in it. -/
theorem exists_mem_flatten_of_run {σ : Type} {registry : Registry (Native σ)}
    {program : List (Node (Native σ))} {state : σ}
    (hparse : parse registry (tokenized.flatten ++ [⟨.endOfInput, sign⟩]) = .ok program)
    (h : (run program state).fault? = some (.script diagnostic)) :
    ∃ token ∈ tokenized.flatten, token.location = diagnostic.location := by
  obtain ⟨statements, hsub, hreads⟩ := exists_reads_of_parse hparse
  obtain ⟨statement, hmem, hfault⟩ := RunFault.of_runFrom hreads h
  cases hfault with
  | @script _ token _ htoken hlocation =>
    refine ⟨token, ?_, hlocation⟩
    rcases List.mem_append.1 (hsub statement hmem htoken) with hin | hin
    · exact hin
    · -- Statements hold no end of input.
      obtain ⟨node, -, hnode⟩ := exists_mem_of_forall₂ hreads.flip statement hmem
      have hstatement : Reads registry statement node := hnode
      have hend := hstatement.isStatement.isEnd.2 token htoken
      rw [List.mem_singleton.1 hin] at hend
      cases hend

/-- **Scripts are at fault within their lines.** Every place that an execution can tell a script
about is in one of its lines, or right behind it. -/
theorem Location.Within.of_execute {σ : Type} {registry : Registry (Native σ)} {source : Source}
    {scope : Scope} {state : σ}
    (h : (execute registry source file scope state).fault? = some (.script diagnostic)) :
    diagnostic.location.Within 0 source.lines := by
  have hplaces := Location.Within.of_tokenLines file 0 source.lines
  have hlexed := tokens?_lexLines_eq file 0 source.lines
  rw [execute] at h
  cases hlines : tokenLines file 0 source.lines with
  | error fault =>
    rw [hlines] at hlexed
    rw [read, tokenize, Source.lexing, hlexed] at h
    cases fault with
    | encoding fault => cases h
    | script found =>
      cases h
      rwa [hlines] at hplaces
  | ok tokenized =>
    rw [hlines] at hlexed hplaces
    have hclosed := ClosedLine.of_tokenLines hlines
    rw [read_of_tokenize hlexed] at h
    cases hparse : parse registry
        (tokenized.flatten ++ [⟨.endOfInput, ⟨0 + source.lines.length, 0, file⟩⟩]) with
    | error found =>
      rw [hparse] at h
      cases h
      obtain ⟨token, hmem, hlocation⟩ := exists_mem_flatten_of_parse hclosed hparse
      exact hlocation ▸ hplaces token hmem
    | ok program =>
      rw [hparse] at h
      obtain ⟨token, hmem, hlocation⟩ := exists_mem_flatten_of_run hparse h
      exact hlocation ▸ hplaces token hmem

end Faults

/-! ## Reports -/

/-- What stands in front of the line in a report: the name of the script and the place in it, both
numbers counted from one. -/
def Report.lead (report : Report) (name : String) : String :=
  name ++ ":" ++ toString (report.location.line + 1) ++ ":"
    ++ toString (report.location.column + 1) ++ " | "

/-- The lines of a report that shows `line`: the message, the line behind its place, and a caret
below the column. -/
def Report.showing (report : Report) (name : String) (line : List Char) : String :=
  "\n".intercalate
    ["error: " ++ report.message,
      report.lead name ++ String.ofList line,
      String.ofList (List.replicate ((report.lead name).length + report.location.column) ' ')
        ++ "^"]

/-- A report with a line shows three lines: the message, the line behind its place, and a caret. The
lead is as long as the blanks that the caret is moved by. -/
theorem Report.excerpt_some (report : Report) (name : String) (line : List Char) :
    report.excerpt name (some line) = report.showing name line := by
  have hlead : name ++ ":" ++ report.location.position ++ " | " = report.lead name := by
    simp only [Location.position, Report.lead, String.append_assoc]
  unfold Report.excerpt
  simp only [hlead]
  rw [Report.showing, String.intercalate_cons_cons, String.intercalate_cons_cons,
    String.intercalate_singleton]
  simp only [String.append_assoc]

/-- A report about a text finds the line that the lexer saw. It cuts the text into one more piece at
most, and only at the end. -/
theorem lineOfText?_of_lines {s : String} {k : Nat} {line : List Char}
    (h : (Source.text s).lines[k]? = some (.ok line)) : lineOfText? s.toList k = some line := by
  rw [Source.lines, physicalLines_eq_map, List.map_map, List.getElem?_map] at h
  obtain ⟨piece, hpiece, heq⟩ := Option.map_eq_some_iff.1 h
  obtain ⟨more, hmore⟩ := separated_prefix_pieces '\n' s.toList
  have hlt := (List.getElem?_eq_some_iff.1 hpiece).1
  cases heq
  rw [lineOfText?, ← hmore, List.getElem?_append_left hlt, hpiece]
  rfl

/-- A report about a file finds the line that the lexer saw, which was well-formed. Decoding it with
replacements changes nothing then. -/
theorem lineOfBytes?_of_lines {bytes : List UInt8} {k : Nat} {line : List Char}
    (h : (Source.byteStream bytes).lines[k]? = some (.ok line)) :
    (∃ text, (terminated 10 bytes)[k]? = some (encode text)) ∧
      lineOfBytes? bytes k = some line := by
  rw [Source.lines, List.getElem?_map] at h
  obtain ⟨piece, hpiece, heq⟩ := Option.map_eq_some_iff.1 h
  cases hdecode : decode piece with
  | error fault =>
    rw [Line.ofBytes, hdecode] at heq
    cases heq
  | ok text =>
    obtain rfl := decode_eq_ok_iff.1 hdecode
    rw [Line.ofBytes, hdecode] at heq
    cases heq
    refine ⟨⟨text, hpiece⟩, ?_⟩
    rw [lineOfBytes?, hpiece, Option.map_some, unterminated_encode, decodeLossy_encode]

/-- **Reports show the line that was lexed.** Whatever a script is told to have done wrong, the
place is in a line that the lexer saw, or right behind it, and the report shows exactly that line.
This holds for a text, and for the content of a file as long as the file has it: the line at fault
is well-formed even if a later one is not. -/
theorem excerpt_shows_line {σ : Type} (registry : Registry (Native σ)) (file : Option String)
    (scope : Scope) (state : σ) :
    (∀ s diagnostic,
      (execute registry (.text s) file scope state).fault? = some (.script diagnostic) →
      ∃ line, (Source.text s).lines[diagnostic.location.line]? = some (.ok line) ∧
        diagnostic.location.column ≤ line.length ∧
        lineOfText? s.toList diagnostic.location.line = some line ∧
        diagnostic.report.excerptOfText s = diagnostic.report.showing inlineName line) ∧
    ∀ bytes diagnostic,
      (execute registry (.byteStream bytes) file scope state).fault? = some (.script diagnostic) →
      ∃ line, (Source.byteStream bytes).lines[diagnostic.location.line]? = some (.ok line) ∧
        (∃ text, (terminated 10 bytes)[diagnostic.location.line]? = some (encode text)) ∧
        diagnostic.location.column ≤ line.length ∧
        ∀ files path, Host.request path (files.contentAt path) = .ok bytes →
          lineOfFile files path diagnostic.location.line = .ok (some line) ∧
          diagnostic.report.excerptOfFile files path
            = .ok (diagnostic.report.showing path line) := by
  constructor
  · intro s diagnostic h
    obtain ⟨line, hget, hcolumn⟩ := (Location.Within.of_execute h).exists_getElem?
    have hfound := lineOfText?_of_lines hget
    refine ⟨line, hget, hcolumn, hfound, ?_⟩
    calc diagnostic.report.excerptOfText s
        = diagnostic.report.excerpt inlineName
            (lineOfText? s.toList diagnostic.location.line) := rfl
      _ = diagnostic.report.excerpt inlineName (some line) := by rw [hfound]
      _ = diagnostic.report.showing inlineName line := Report.excerpt_some _ _ _
  · intro bytes diagnostic h
    obtain ⟨line, hget, hcolumn⟩ := (Location.Within.of_execute h).exists_getElem?
    obtain ⟨htext, hfound⟩ := lineOfBytes?_of_lines hget
    refine ⟨line, hget, htext, hcolumn, fun files path hcontent => ?_⟩
    have hfile : lineOfFile files path diagnostic.location.line = .ok (some line) := by
      rw [lineOfFile, hcontent, ← hfound]
      rfl
    have hreport : diagnostic.report.location.line = diagnostic.location.line := rfl
    refine ⟨hfile, ?_⟩
    rw [Report.excerptOfFile, hreport, hfile]
    exact congrArg Except.ok (Report.excerpt_some _ _ _)

/-- The second line of a text is shown without its carriage return, and the first line of a file
is shown although its second line is no text. -/
theorem excerpt_shows_line_returnFeed :
    let registry : Registry (Native Nat) := ⟨[]⟩
    let lost : Diagnostic := ⟨.functionNotFound, ⟨1, 1, none⟩⟩
    let odd : Diagnostic := ⟨.invalidCharacter, ⟨0, 0, none⟩⟩
    let files : Host.FileSystem := ⟨[(["a"], .file 0 [63, 13, 10, 255])], [], 1⟩
    (execute registry (.text "x = :a\r\n print x\r") none Scope.empty 0).fault?
        = some (.script lost) ∧
      (∃ line, lineOfText? "x = :a\r\n print x\r".toList 1 = some line ∧
        lost.report.excerptOfText "x = :a\r\n print x\r" = lost.report.showing inlineName line) ∧
      (execute registry (.byteStream [63, 13, 10, 255]) none Scope.empty 0).fault?
        = some (.script odd) ∧
      ∃ line, odd.report.excerptOfFile files "a" = .ok (odd.report.showing "a" line) := by
  intro registry lost odd files
  have hlost : (execute registry (.text "x = :a\r\n print x\r") none Scope.empty 0).fault?
      = some (.script lost) := by
    decide +kernel
  have hodd : (execute registry (.byteStream [63, 13, 10, 255]) none Scope.empty 0).fault?
      = some (.script odd) := by
    decide +kernel
  have hfile : Host.request "a" (files.contentAt "a") = .ok [63, 13, 10, 255] := by
    decide +kernel
  obtain ⟨htext, hbytes⟩ := excerpt_shows_line registry none Scope.empty 0
  obtain ⟨line, -, -, hline, hshown⟩ := htext _ _ hlost
  obtain ⟨line', -, -, -, hcontent⟩ := hbytes _ _ hodd
  exact ⟨hlost, ⟨line, hline, hshown⟩, hodd, line', (hcontent files "a" hfile).2⟩

end ActivityScript.Script
