import ActivityScript.Proofs.Script.Interleavings
import ActivityScript.Proofs.Script.LineByLine

/-!
# Lines of a stream

Readings of a stream share its lines: a line that one of them has fetched is gone for the others.
So they partition the lines. In the order in which they are fetched, the lines are those of the
stream from its first one on; none is left out and none comes twice, and who finds the stream
exhausted finds it so for everybody (`Takes`). What a reading gives is made of the scans of the
lines that it has fetched itself, one after the other, the last one perhaps not to its end
(`Account`).

Both are kept by every advance, so by every interleaving. Reading all tokens at once is advancing a
new reading to its end (`proceeds_tokenize`), and so no exception. `readings_partition_lines` puts
this together.
-/

namespace ActivityScript.Script

variable {file : Option String} {line column : Nat} {cs rest : List Char}

/-! ## Scans -/

/-- What was found in a line, in order: the tokens, and the fault that ends them. -/
def lineResults (found : List Token × Option Diagnostic) : List (Except ReadFault Token) :=
  found.1.map .ok ++ found.2.toList.map fun diagnostic => .error (.script diagnostic)

/-- What a fetch leads to, without line numbers: the scan of the line, or the end of the input if
there was none. -/
def scanned (file : Option String) : Option Line → List (Except ReadFault Token)
  | none => [.ok ⟨.endOfInput, ⟨0, 0, file⟩⟩]
  | some (.error fault) => [.error (.encoding fault)]
  | some (.ok cs) => lineResults (lexLine file 0 0 cs)

/-- A line was fetched and has no fault, so that its reading goes on after it. -/
def Faultless (file : Option String) (line : Option Line) : Prop :=
  ∃ cs, line = some (.ok cs) ∧ (lexLine file 0 0 cs).2 = none

/-- A line gives at least one result: a line without a fault has its end, and any other line has its
fault. -/
theorem lineResults_ne_nil (file : Option String) (line column : Nat) (cs : List Char) :
    lineResults (lexLine file line column cs) ≠ [] := by
  cases hline : lexLine file line column cs with
  | mk tokens fault? =>
    cases fault? with
    | some diagnostic => simp [lineResults]
    | none =>
      obtain ⟨content, sign, rfl, -⟩ := ClosedLine.of_lexLine hline
      simp [lineResults]

/-- Whether there is an end of input does not depend on line numbers. So it can be told from what is
left of the results when these are struck out. -/
theorem exists_endOfInput_mem_unnumbered (results : List (Except ReadFault Token)) :
    (∃ location, .ok ⟨.endOfInput, location⟩ ∈ results.map unnumbered) ↔
      ∃ location, .ok ⟨.endOfInput, location⟩ ∈ results := by
  constructor
  · rintro ⟨location, hmem⟩
    obtain ⟨result, hresult, heq⟩ := List.mem_map.1 hmem
    match result, heq with
    | .ok ⟨_, location⟩, rfl => exact ⟨location, hresult⟩
  · rintro ⟨location, hmem⟩
    exact ⟨location.unnumbered, List.mem_map.2 ⟨_, hmem, rfl⟩⟩

/-- No scan gives an end of input. It comes from a stream that has no line left, and from nowhere
else. -/
theorem ne_endOfInput_of_mem_lexLine {token : Token}
    (h : token ∈ (lexLine file line column cs).1) : token.lexeme ≠ .endOfInput := by
  fun_induction lexLine file line column cs with
  | case1 column cs found lexeme next rest hscan tokens fault hrest ih =>
    rw [hrest] at ih
    rcases List.mem_cons.1 h with rfl | hmem
    · have hwithin := scan_within column cs
      rw [hscan] at hwithin
      exact hwithin.1.2
    · exact ih hmem
  | case2 =>
    cases List.mem_singleton.1 h
    simp
  | case3 => cases h

/-- An end of input is what an exhausted stream leads to, and nothing else. Neither a line that is
no text nor the scan of a line has one. -/
theorem eq_none_of_mem_scanned {location : Location} {fetch : Option Line}
    (h : .ok ⟨.endOfInput, location⟩ ∈ scanned file fetch) : fetch = none := by
  match fetch with
  | none => rfl
  | some (.error fault) => simp [scanned] at h
  | some (.ok cs) =>
    rcases List.mem_append.1 h with hmem | hmem
    · obtain ⟨token, htoken, heq⟩ := List.mem_map.1 hmem
      cases heq
      exact absurd rfl (ne_endOfInput_of_mem_lexLine htoken)
    · obtain ⟨diagnostic, -, heq⟩ := List.mem_map.1 hmem
      cases heq

/-! ## Lines that are taken -/

/-- Fetches take the first lines of `before` and leave `after`. Those that find nothing are the last
ones, and only if nothing is left. -/
def Takes (before : List Line) (fetched : List (Option Line)) (after : List Line) : Prop :=
  ∃ lines misses, fetched = lines.map some ++ List.replicate misses none ∧
    before = lines ++ after ∧ (misses ≠ 0 → after = [])

theorem Takes.refl (lines : List Line) : Takes lines [] lines :=
  ⟨[], 0, rfl, rfl, fun h => absurd rfl h⟩

/-- One fetch takes the first line and leaves the others. If there is no line, it finds nothing, and
then nothing is left indeed. -/
theorem Takes.head (lines : List Line) : Takes lines [lines.head?] lines.tail := by
  cases lines with
  | nil => exact ⟨[], 1, rfl, rfl, fun _ => rfl⟩
  | cons line lines => exact ⟨[line], 0, rfl, rfl, fun h => absurd rfl h⟩

/-- Fetches and further fetches after them take their lines one after the other. If the first ones
have found nothing at the end, the further ones find nothing at all. -/
theorem Takes.trans {before between after : List Line} {fetched more : List (Option Line)}
    (h : Takes before fetched between) (h' : Takes between more after) :
    Takes before (fetched ++ more) after := by
  obtain ⟨lines, misses, rfl, rfl, hleft⟩ := h
  obtain ⟨lines', misses', rfl, rfl, hleft'⟩ := h'
  cases misses with
  | zero =>
    refine ⟨lines ++ lines', misses', ?_, (List.append_assoc ..).symm, hleft'⟩
    rw [List.replicate_zero, List.append_nil, List.map_append, List.append_assoc]
  | succ misses =>
    -- Nothing was left, so nothing more is found.
    obtain ⟨rfl, rfl⟩ := List.append_eq_nil_iff.1 (hleft (Nat.succ_ne_zero _))
    refine ⟨lines, misses + 1 + misses', ?_, rfl, fun _ => rfl⟩
    rw [List.map_nil, List.nil_append, List.append_assoc, List.replicate_append_replicate]

namespace Reader

variable {reader after middle : Reader} {reading following last : Reading} {own : List Line}
  {fetched more : List (Option Line)} {given results : List (Except ReadFault Token)}

/-! ## One advance -/

/-- What an advance of a reading asks a stream for: nothing inside a line, and otherwise a line,
which is `none` if the stream is exhausted. -/
def asks (reader : Reader) : Reading → List (Option Line)
  | .fresh | .between _ => [reader.unread.head?]
  | .inside .. | .finished => []

/-- What a reading has fetched and given so far, without line numbers, by where it stands: the scans
of all lines before the last one, which had no fault, and the beginning of the scan of the last
one. -/
inductive Account (file : Option String) :
    Reading → List (Option Line) → List (Except ReadFault Token) → Prop where
  | fresh : Account file .fresh [] []
  | inside {earlier : List (Option Line)} {cs rest : List Char} {tokens : List Token}
      {column : Nat} {own : List Line} :
      (∀ line ∈ earlier, Faultless file line) → tokens ≠ [] →
      lexLine file 0 0 cs
        = (tokens ++ (lexLine file 0 column rest).1, (lexLine file 0 column rest).2) →
      Account file (.inside column rest own) (earlier ++ [some (.ok cs)])
        (earlier.flatMap (scanned file) ++ tokens.map .ok)
  | between {earlier : List (Option Line)} {last : Option Line} {own : List Line} :
      (∀ line ∈ earlier, Faultless file line) → Faultless file last →
      Account file (.between own) (earlier ++ [last])
        (earlier.flatMap (scanned file) ++ scanned file last)
  | finished {earlier : List (Option Line)} {last : Option Line} :
      (∀ line ∈ earlier, Faultless file line) →
      Account file .finished (earlier ++ [last])
        (earlier.flatMap (scanned file) ++ scanned file last)

/-- The account after a further scan of the line that was fetched last; `tokens` are what the scans
before have given. The cases are what the scan finds. -/
theorem Account.of_scanOn {earlier : List (Option Line)} {tokens : List Token}
    (hearlier : ∀ line ∈ earlier, Faultless reader.file line)
    (hline : lexLine reader.file 0 0 cs
      = (tokens ++ (lexLine reader.file 0 column rest).1, (lexLine reader.file 0 column rest).2))
    (own : List Line) :
    Account reader.file (reader.scanOn column rest own).2 (earlier ++ [some (.ok cs)])
      (earlier.flatMap (scanned reader.file) ++ tokens.map .ok
        ++ (reader.scanOn column rest own).1.toList.map unnumbered) := by
  cases hscan : scan column rest with
  | lexeme found lexeme next rest =>
    have hfurther : lexLine reader.file 0 0 cs
        = (tokens ++ [⟨lexeme, ⟨0, found, reader.file⟩⟩] ++ (lexLine reader.file 0 next rest).1,
            (lexLine reader.file 0 next rest).2) := by
      rw [hline, lexLine_of_lexeme hscan, List.append_assoc]
      rfl
    have haccount : Account reader.file (.inside next rest own) _ _ :=
      .inside hearlier (by simp) hfurther
    rw [scanOn, hscan]
    simpa using haccount
  | lineEnd found =>
    rw [lexLine_of_lineEnd hscan] at hline
    have hfaultless : Faultless reader.file (some (.ok cs)) := ⟨cs, rfl, by rw [hline]⟩
    have haccount : Account reader.file (.between own) _ _ := .between hearlier hfaultless
    rw [scanned, lineResults, hline] at haccount
    rw [scanOn, hscan]
    simpa using haccount
  | fault found problem =>
    rw [lexLine_of_fault hscan] at hline
    have haccount : Account reader.file .finished (earlier ++ [some (.ok cs)]) _ :=
      .finished hearlier
    rw [scanned, lineResults, hline] at haccount
    rw [scanOn, hscan]
    simpa using haccount

/-- The account after a line was asked for where no line so far had a fault. The first scan of the
line belongs to the same advance. -/
theorem Account.of_fetch (reader : Reader) {earlier : List (Option Line)}
    (hearlier : ∀ line ∈ earlier, Faultless reader.file line)
    (hstream : reader.source.isStream = true) (own : List Line) :
    Account reader.file (reader.fetch own).2.2 (earlier ++ [reader.unread.head?])
      (earlier.flatMap (scanned reader.file)
        ++ (reader.fetch own).1.toList.map unnumbered) := by
  rw [fetch, if_pos hstream]
  cases reader.unread with
  | nil => exact .finished hearlier
  | cons line lines =>
    cases line with
    | error fault => exact .finished hearlier
    | ok cs =>
      have hline : lexLine reader.file 0 0 cs
          = ([] ++ (lexLine reader.file 0 0 cs).1, (lexLine reader.file 0 0 cs).2) := rfl
      have haccount := Account.of_scanOn hearlier hline []
      rw [List.map_nil, List.append_nil] at haccount
      exact haccount

/-- An advance keeps the account of a reading of a stream. Where the reading stands decides whether
a line is asked for. -/
theorem Account.advance (h : Account reader.file reading fetched given)
    (hstream : reader.source.isStream = true) :
    Account reader.file (reader.advance reading).2.2 (fetched ++ reader.asks reading)
      (given ++ (reader.advance reading).1.toList.map unnumbered) := by
  cases h with
  | fresh => exact .of_fetch { reader with line := 0 } (List.forall_mem_nil _) hstream _
  | inside hearlier _ hline =>
    rw [asks, List.append_nil]
    exact .of_scanOn hearlier hline _
  | @between earlier last own hearlier hlast =>
    have hlines : ∀ line ∈ earlier ++ [last], Faultless reader.file line := by
      intro line hmem
      rcases List.mem_append.1 hmem with hmem | hmem
      · exact hearlier line hmem
      · rw [List.mem_singleton.1 hmem]
        exact hlast
    have haccount := Account.of_fetch { reader with line := reader.line + 1 } hlines hstream own
    rw [List.flatMap_append, List.flatMap_singleton] at haccount
    exact haccount
  | finished hearlier =>
    rw [asks, List.append_nil, Reader.advance, Option.toList_none, List.map_nil, List.append_nil]
    exact .finished hearlier

/-- An advance takes the lines that it asks for, which is one at most. Inside a line it leaves the
stream alone. -/
theorem takes_advance (hstream : reader.source.isStream = true) (reading : Reading) :
    Takes reader.unread (reader.asks reading) (reader.advance reading).2.1.unread := by
  cases reading with
  | fresh | between =>
    rw [advance, fetch, if_pos hstream]
    exact .head _
  | inside | finished => exact .refl _

/-! ## Reading to the end -/

/-- Advances of a reading, one after the other, each of which gives something: the lines that they
ask for, what they give, and where reader and reading stand after them. -/
inductive Proceeds : Reader → Reading → List (Option Line) → List (Except ReadFault Token) →
    Reader → Reading → Prop where
  | refl {reader : Reader} {reading : Reading} : Proceeds reader reading [] [] reader reading
  | step {reader middle after : Reader} {reading following last : Reading}
      {result : Except ReadFault Token} {fetched : List (Option Line)}
      {results : List (Except ReadFault Token)} :
      reader.advance reading = (some result, middle, following) →
      Proceeds middle following fetched results after last →
      Proceeds reader reading (reader.asks reading ++ fetched) (result :: results) after last

/-- Advances and further advances after them are advances one after the other, and so are what they
ask for and what they give. -/
theorem Proceeds.trans {more : List (Except ReadFault Token)} {others : List (Option Line)}
    (h : Proceeds reader reading fetched results middle following)
    (h' : Proceeds middle following others more after last) :
    Proceeds reader reading (fetched ++ others) (results ++ more) after last := by
  induction h with
  | refl => exact h'
  | step hadvance _ ih =>
    rw [List.append_assoc, List.cons_append]
    exact .step hadvance (ih h')

/-- Advances of a reading keep its account and take the lines that they ask for. The induction is on
the advances (`Account.advance`, `takes_advance`). -/
theorem Proceeds.account (h : Proceeds reader reading more results after last)
    (hstream : reader.source.isStream = true)
    (haccount : Account reader.file reading fetched given) :
    Account reader.file last (fetched ++ more) (given ++ results.map unnumbered) ∧
      Takes reader.unread more after.unread := by
  induction h generalizing fetched given with
  | refl =>
    rw [List.append_nil, List.map_nil, List.append_nil]
    exact ⟨haccount, .refl _⟩
  | @step reader middle after reading following last result more results hadvance _ ih =>
    have halike := reader.alike_advance reading
    have hfirst := haccount.advance hstream
    have htakes := takes_advance hstream reading
    rw [hadvance] at halike hfirst htakes
    rw [← halike.file] at hfirst ⊢
    obtain ⟨hrest, htakes'⟩ := ih (halike.isStream hstream) hfirst
    refine ⟨?_, htakes.trans htakes'⟩
    simpa using hrest

/-- From inside a line a reading proceeds to its end, without asking for another line. A fault
finishes the reading, and the end of the line leaves it between lines. -/
theorem Proceeds.inside (reader : Reader) (column : Nat) (rest : List Char) (own : List Line) :
    Proceeds reader (.inside column rest own) []
      (lineResults (lexLine reader.file reader.line column rest)) reader
      (if (lexLine reader.file reader.line column rest).2.isSome then .finished
        else .between own) := by
  induction hlength : rest.length using Nat.strongRecOn generalizing column rest with
  | _ length ih =>
    cases hscan : scan column rest with
    | lexeme found lexeme next left =>
      have hadvance : reader.advance (.inside column rest own)
          = (some (.ok ⟨lexeme, ⟨reader.line, found, reader.file⟩⟩), reader,
              .inside next left own) := by
        rw [advance, scanOn, hscan]
      rw [lexLine_of_lexeme hscan]
      exact .step hadvance (ih left.length (hlength ▸ length_of_scan hscan) next left rfl)
    | lineEnd found =>
      have hadvance : reader.advance (.inside column rest own)
          = (some (.ok ⟨.endOfLine, ⟨reader.line, found, reader.file⟩⟩), reader, .between own) := by
        rw [advance, scanOn, hscan]
      rw [lexLine_of_lineEnd hscan]
      exact .step hadvance .refl
    | fault found problem =>
      have hadvance : reader.advance (.inside column rest own)
          = (some (.error (.script ⟨problem, ⟨reader.line, found, reader.file⟩⟩)), reader,
              .finished) := by
        rw [advance, scanOn, hscan]
      rw [lexLine_of_fault hscan]
      exact .step hadvance .refl

/-- A reading that advances as another one does inside a line proceeds as that one does. This is so
when it has just fetched that line. -/
theorem Proceeds.of_advance_eq
    (h : reader.advance reading = middle.advance (.inside column rest own))
    (hproceeds : Proceeds middle (.inside column rest own) fetched results after last)
    (hne : results ≠ []) :
    Proceeds reader reading (reader.asks reading ++ fetched) results after last := by
  cases hproceeds with
  | refl => exact absurd rfl hne
  | step hadvance hrest => exact .step (h.trans hadvance) hrest

end Reader

/-- What reading to the end asks for if `lines` are left and the first of them gets the number
`line`: lines up to the first one with a fault, or all lines and one more, which is not there. -/
def fetchedThrough (file : Option String) (line : Nat) : List Line → List (Option Line)
  | [] => [none]
  | .error fault :: _ => [some (.error fault)]
  | .ok cs :: lines =>
    match (lexLine file line 0 cs).2 with
    | some _ => [some (.ok cs)]
    | none => some (.ok cs) :: fetchedThrough file (line + 1) lines

namespace Reader

variable {reader opened : Reader} {reading : Reading} {own : List Line}

/-- A reading that fetches a line next proceeds to its end as lexing the lines that are left does.
It asks for lines up to the first with a fault. -/
theorem Proceeds.of_fetch (h : reader.advance reading = opened.fetch own)
    (hstream : opened.source.isStream = true)
    (hasks : reader.asks reading = [opened.unread.head?]) :
    Proceeds reader reading (fetchedThrough opened.file opened.line opened.unread)
      (lexLines opened.file opened.line opened.unread).results
      { opened with
        line := (lexLines opened.file opened.line opened.unread).line
        unread := (lexLines opened.file opened.line opened.unread).unread } .finished := by
  -- By induction on the lines that are left. What follows a line is again a reading that fetches
  -- one, so reader and reading vary.
  induction hunread : opened.unread generalizing reader reading opened own with
  | nil =>
    have hadvance : reader.advance reading
        = (some (.ok ⟨.endOfInput, ⟨opened.line, 0, opened.file⟩⟩), { opened with unread := [] },
            .finished) := by
      rw [h, fetch, if_pos hstream, hunread]
      rfl
    have hstep := Proceeds.step hadvance .refl
    rw [hasks, hunread] at hstep
    exact hstep
  | cons first lines ih =>
    rw [hunread] at hasks
    cases first with
    | error fault =>
      have hadvance : reader.advance reading
          = (some (.error (.encoding fault)), { opened with unread := lines }, .finished) := by
        rw [h, fetch, if_pos hstream, hunread]
        rfl
      have hstep := Proceeds.step hadvance .refl
      rw [hasks] at hstep
      exact hstep
    | ok cs =>
      have hinside : reader.advance reading
          = { opened with unread := lines }.advance (.inside 0 cs []) := by
        rw [h, fetch, if_pos hstream, hunread]
        rfl
      have hfirst := Proceeds.of_advance_eq hinside (Proceeds.inside _ 0 cs [])
        (lineResults_ne_nil _ _ 0 cs)
      rw [hasks] at hfirst
      rw [results_lexLines_cons, fetchedThrough, lexLines]
      cases hline : lexLine opened.file opened.line 0 cs with
      | mk tokens fault? =>
        rw [hline] at hfirst
        cases fault? with
        | some diagnostic => exact hfirst
        | none =>
          have hnext : { opened with unread := lines }.advance (.between [])
              = { opened with line := opened.line + 1, unread := lines }.fetch [] := rfl
          simpa [lineResults] using hfirst.trans (ih hnext hstream rfl rfl)

/-- **Tokenizing is reading to the end.** All tokens of a stream that are read at once are what a
new reading gives, advance by advance, until it is finished, and the reader is left as that
reading leaves it. -/
theorem proceeds_tokenize (hstream : reader.source.isStream = true) :
    Proceeds reader .fresh (fetchedThrough reader.file 0 reader.unread)
      (lexLines reader.file 0 reader.unread).results reader.tokenize.2 .finished := by
  have hfetch : reader.advance .fresh = { reader with line := 0 }.fetch reader.source.lines := rfl
  have hproceeds := Proceeds.of_fetch hfetch hstream rfl
  rw [tokenize]
  simp only [hstream, if_true]
  exact hproceeds

end Reader

/-! ## Moves -/

/-- A line that was asked for: by which reading, unless all tokens were read at once, and what was
found. -/
structure Fetch where
  index? : Option Nat
  found : Option Line

theorem Fetch.map_found (index? : Option Nat) (lines : List (Option Line)) :
    (lines.map (mk index?)).map found = lines := by
  rw [List.map_map]
  exact List.map_id lines

/-- What reading number `index` has asked for, in order. -/
def fetchesOf (index : Nat) (fetches : List Fetch) : List (Option Line) :=
  (fetches.filter fun fetch => fetch.index? = some index).map Fetch.found

/-- What reading number `index` has given, in order. -/
def givenTo (index : Nat) (answers : List Answer) : List (Except ReadFault Token) :=
  (advancesOf index answers).filterMap id

namespace SharedReader

variable {shared : SharedReader} {index : Nat} {answers : List Answer}

/-- What a move asks for. -/
def asks (shared : SharedReader) : Move → List Fetch
  | .start => []
  | .advance index =>
    match shared.readings[index]? with
    | none => []
    | some reading => (shared.reader.asks reading).map (Fetch.mk (some index))
  | .tokenize =>
    (fetchedThrough shared.reader.file 0 shared.reader.unread).map (Fetch.mk none)

/-- What moves ask for, in order. -/
def fetches (shared : SharedReader) : List Move → List Fetch
  | [] => []
  | move :: moves => shared.asks move ++ (shared.step move).2.fetches moves

/-- What moves in two parts ask for is what the first ask for and then what the second do, from
where the first have led. -/
theorem fetches_append (shared : SharedReader) (moves more : List Move) :
    shared.fetches (moves ++ more) = shared.fetches moves ++ (shared.after moves).fetches more := by
  induction moves generalizing shared with
  | nil => rfl
  | cons move moves ih =>
    rw [List.cons_append, fetches, fetches, ih, List.append_assoc]
    rfl

theorem fetchesOf_append (index : Nat) (fetches more : List Fetch) :
    fetchesOf index (fetches ++ more) = fetchesOf index fetches ++ fetchesOf index more := by
  rw [fetchesOf, List.filter_append, List.map_append]
  rfl

/-- A move asks for nothing on behalf of a reading unless it advances this reading. -/
theorem fetchesOf_asks_of_ne (shared : SharedReader) {move : Move} (h : move ≠ .advance index) :
    fetchesOf index (shared.asks move) = [] := by
  cases move with
  | start => rfl
  | advance number =>
    have hne : number ≠ index := fun heq => h (heq ▸ rfl)
    rw [asks]
    split
    · rfl
    · simp [fetchesOf, hne]
  | tokenize => simp [fetchesOf, asks]

/-- An advance of a reading that was started asks for what the reader is asked for, on behalf of
this reading. -/
theorem fetchesOf_asks_advance {current : Reading} (h : shared.readings[index]? = some current) :
    fetchesOf index (shared.asks (.advance index)) = shared.reader.asks current := by
  have hall : ∀ fetch ∈ (shared.reader.asks current).map (Fetch.mk (some index)),
      decide (fetch.index? = some index) = true := by
    simp
  rw [asks, h, fetchesOf, List.filter_eq_self.2 hall, Fetch.map_found]

/-- One more answer is one more result of a reading if it is for this reading and there is one. A
finished reading is given nothing. -/
theorem givenTo_concat (index : Nat) (answers : List Answer) (answer : Answer) :
    givenTo index (answers ++ [answer])
      = givenTo index answers ++ (answer.to? index).toList.filterMap id := by
  rw [givenTo, advancesOf_concat, List.filterMap_append]
  rfl

/-- A move takes the lines that it asks for. For reading all tokens at once this follows from
reading to the end (`Reader.proceeds_tokenize`). -/
theorem takes_step (hstream : shared.reader.source.isStream = true) (move : Move) :
    Takes shared.reader.unread ((shared.asks move).map Fetch.found)
      (shared.step move).2.reader.unread := by
  cases move with
  | start => exact .refl _
  | advance index =>
    cases hfound : shared.readings[index]? with
    | none =>
      rw [step_advance_of_none hfound, asks, hfound]
      exact .refl _
    | some current =>
      have htakes := Reader.takes_advance hstream current
      rw [(step_advance_of_some hfound).2.2.1, asks, hfound, Fetch.map_found]
      exact htakes
  | tokenize =>
    have htakes := ((Reader.proceeds_tokenize hstream).account hstream .fresh).2
    rw [asks, Fetch.map_found]
    exact htakes

/-- A move keeps the accounts of all readings. That of the reading that is advanced goes on, and the
others stay as they are. -/
theorem account_step {fetches : List Fetch} (hstream : shared.reader.source.isStream = true)
    (hfile : shared.reader.file = file)
    (h : Reader.Account file (shared.reading index) (fetchesOf index fetches)
      ((givenTo index answers).map unnumbered)) (move : Move) :
    Reader.Account file ((shared.step move).2.reading index)
      (fetchesOf index (fetches ++ shared.asks move))
      ((givenTo index (answers ++ [(shared.step move).1])).map unnumbered) := by
  subst hfile
  rw [fetchesOf_append, givenTo_concat, List.map_append]
  by_cases hmove : move = .advance index
  · rw [hmove]
    cases hfound : shared.readings[index]? with
    | none =>
      rw [step_advance_of_none hfound, asks, hfound]
      simpa [fetchesOf, Answer.to?] using h
    | some current =>
      obtain ⟨hcurrent, hanswer, -, hreading⟩ := step_advance_of_some hfound
      rw [hcurrent] at h
      have haccount := h.advance hstream
      rw [hreading, hanswer, Answer.to?, if_pos rfl, fetchesOf_asks_advance hfound]
      cases hresult : (shared.reader.advance current).1 <;> simpa [hresult] using haccount
  · obtain ⟨hreading, hanswer⟩ := shared.step_of_ne hmove
    rw [hreading, hanswer, shared.fetchesOf_asks_of_ne hmove]
    simpa using h

/-! ## Runs -/

/-- After any moves, the lines that were asked for are the first lines of the stream, in this order.
This is `takes_step` for one move after the other. -/
theorem takes_after (source : Source) (file : Option String) (hstream : source.isStream = true)
    (moves : List Move) :
    Takes source.lines (((ofSource source file).fetches moves).map Fetch.found)
      ((ofSource source file).after moves).reader.unread := by
  induction moves using List.reverseRecOn with
  | nil => exact .refl _
  | append_singleton moves move ih =>
    have halike := (ofSource source file).alike_after moves
    have hmove := takes_step (halike.isStream hstream) move
    rw [fetches_append, after_append, List.map_append, fetches, fetches, List.append_nil]
    exact ih.trans hmove

/-- After any moves, every reading has its account. This is `account_step` for one move after the
other. -/
theorem account_after (source : Source) (file : Option String) (hstream : source.isStream = true)
    (moves : List Move) (index : Nat) :
    Reader.Account file (((ofSource source file).after moves).reading index)
      (fetchesOf index ((ofSource source file).fetches moves))
      ((givenTo index ((ofSource source file).answersTo moves)).map unnumbered) := by
  induction moves using List.reverseRecOn with
  | nil => exact .fresh
  | append_singleton moves move ih =>
    have halike := (ofSource source file).alike_after moves
    rw [fetches_append, after_append, answersTo_append, fetches, fetches, List.append_nil]
    exact account_step (halike.isStream hstream) halike.file ih move

end SharedReader

/-- Results are the scans of lines, one after the other, without line numbers. All lines but the
last one have no fault, and the scan of the last one may be cut short. -/
def Recites (file : Option String) (lines : List (Option Line))
    (results : List (Except ReadFault Token)) : Prop :=
  (lines = [] ∧ results = []) ∨
    ∃ earlier last part, lines = earlier ++ [last] ∧ (∀ line ∈ earlier, Faultless file line) ∧
      part ≠ [] ∧ part <+: scanned file last ∧
      results = earlier.flatMap (scanned file) ++ part

/-- Every fetch leads to at least one result, also one that finds nothing or a line that is no
text. -/
theorem scanned_ne_nil (file : Option String) (line : Option Line) : scanned file line ≠ [] := by
  match line with
  | none | some (.error fault) => exact List.cons_ne_nil _ _
  | some (.ok cs) => exact lineResults_ne_nil file 0 0 cs

/-- A reading with an account recites the lines that it has fetched. Only inside a line the scan of
the last one is cut short, but never to nothing. -/
theorem Reader.Account.recites {reading : Reading} {fetched : List (Option Line)}
    {given : List (Except ReadFault Token)} (h : Account file reading fetched given) :
    Recites file fetched given := by
  cases h with
  | fresh => exact .inl ⟨rfl, rfl⟩
  | @inside earlier cs _ tokens _ _ hearlier htokens hline =>
    have hcut : tokens.map .ok <+: scanned file (some (.ok cs)) := by
      rw [scanned, lineResults, hline, List.map_append, List.append_assoc]
      exact List.prefix_append _ _
    exact .inr ⟨earlier, _, _, rfl, hearlier, by simpa using htokens, hcut, rfl⟩
  | between hearlier _ | finished hearlier =>
    exact .inr ⟨_, _, _, rfl, hearlier, scanned_ne_nil file _, List.prefix_rfl, rfl⟩

/-- Results tell of an end of input exactly if there was no line left. No line without a fault leads
to one, and if there was no line, its only result is not cut off. -/
theorem Recites.endOfInput_iff {lines : List (Option Line)}
    {results : List (Except ReadFault Token)} (h : Recites file lines results) :
    (∃ location, .ok ⟨.endOfInput, location⟩ ∈ results) ↔ none ∈ lines := by
  rcases h with ⟨rfl, rfl⟩ | ⟨earlier, last, part, rfl, hearlier, hne, hpart, rfl⟩
  · simp
  constructor
  · rintro ⟨location, hmem⟩
    rw [List.mem_append, List.mem_singleton]
    rcases List.mem_append.1 hmem with hmem | hmem
    · obtain ⟨line, hline, hmem⟩ := List.mem_flatMap.1 hmem
      exact .inl (eq_none_of_mem_scanned hmem ▸ hline)
    · exact .inr (eq_none_of_mem_scanned (hpart.subset hmem)).symm
  · intro hmem
    rcases List.mem_append.1 hmem with hmem | hmem
    · obtain ⟨cs, hcs, -⟩ := hearlier none hmem
      cases hcs
    · -- The scan of no line is a single result, so that it is not cut short.
      cases List.mem_singleton.1 hmem
      obtain ⟨result, part, rfl⟩ := List.exists_cons_of_ne_nil hne
      obtain ⟨rfl, -⟩ := List.cons_prefix_cons.1 hpart
      exact ⟨⟨0, 0, file⟩, List.mem_append_right _ (List.mem_cons_self ..)⟩

/-- What reading all tokens at once gives: the tokens of `results`, or the fault that ends them. A
new reading that asks for `lines` and is advanced to its end gives these results, which are the
scans of the lines, and it leaves the reader in the same state. -/
structure Reader.TokenizesAs (reader : Reader) (lines : List (Option Line))
    (results : List (Except ReadFault Token)) : Prop where
  outcome : reader.tokenize.1 = results.mapM id
  proceeds : reader.Proceeds .fresh lines results reader.tokenize.2 .finished
  scans : results.map unnumbered = lines.flatMap (scanned reader.file)

/-- Taking results up to the first fault gives the tokens or the fault, as lexing at once does. -/
theorem mapM_results (lexing : Lexing) : lexing.results.mapM id = lexing.tokens? := by
  have htokens (tokens : List Token) : (tokens.map Except.ok).mapM id
      = (.ok tokens : Except ReadFault (List Token)) := by
    induction tokens with
    | nil => rfl
    | cons token tokens ih =>
      rw [List.map_cons, List.mapM_cons, ih]
      rfl
  rw [Lexing.results, List.mapM_append, htokens, Lexing.tokens?]
  cases lexing.fault? with
  | none => exact congrArg Except.ok (List.append_nil _)
  | some fault => rfl

/-- A stream is read at once as a new reading is that is advanced to its end. This reading is
finished, so the scan of its last line is not cut short. -/
theorem Reader.tokenizesAs {reader : Reader} (hstream : reader.source.isStream = true) :
    reader.TokenizesAs (fetchedThrough reader.file 0 reader.unread)
      (lexLines reader.file 0 reader.unread).results where
  outcome := by
    rw [mapM_results, tokenize, if_pos hstream]
  proceeds := proceeds_tokenize hstream
  scans := by
    have haccount := ((proceeds_tokenize hstream).account hstream .fresh).1
    rw [List.nil_append, List.nil_append] at haccount
    generalize fetchedThrough reader.file 0 reader.unread = lines at haccount ⊢
    generalize (lexLines reader.file 0 reader.unread).results.map unnumbered = given
      at haccount ⊢
    cases haccount with
    | finished => rw [List.flatMap_append, List.flatMap_singleton]

/-- **Readings of a stream partition its lines.** Whatever is done with a reader of a stream, in
whatever order: the lines that were fetched, in the order in which they were, are the first lines of
the stream, and those after them are left; after a fetch that found nothing there is no other one.
What a reading has given are the scans of the lines that it has fetched itself, with an end of input
exactly if it found the stream exhausted. And reading all tokens at once is one more reading, from
its beginning to its end. -/
theorem readings_partition_lines (source : Source) (file : Option String)
    (hstream : source.isStream = true) (moves : List Move) :
    (∃ lines misses,
      ((SharedReader.ofSource source file).fetches moves).map Fetch.found
        = lines.map some ++ List.replicate misses none ∧
      source.lines = lines ++ ((SharedReader.ofSource source file).after moves).reader.unread ∧
      (misses ≠ 0 → lines = source.lines)) ∧
    (∀ index,
      Recites file (fetchesOf index ((SharedReader.ofSource source file).fetches moves))
        ((givenTo index ((SharedReader.ofSource source file).answersTo moves)).map unnumbered) ∧
      ((∃ location, .ok ⟨.endOfInput, location⟩
          ∈ givenTo index ((SharedReader.ofSource source file).answersTo moves)) ↔
        none ∈ fetchesOf index ((SharedReader.ofSource source file).fetches moves))) ∧
    ∃ results, ((SharedReader.ofSource source file).after moves).reader.TokenizesAs
      ((((SharedReader.ofSource source file).after moves).asks .tokenize).map Fetch.found)
      results := by
  refine ⟨?_, fun index => ?_, ?_⟩
  · obtain ⟨lines, misses, hfetches, hlines, hleft⟩ :=
      SharedReader.takes_after source file hstream moves
    refine ⟨lines, misses, hfetches, hlines, fun hmisses => ?_⟩
    rw [hlines, hleft hmisses, List.append_nil]
  · have hrecites := (SharedReader.account_after source file hstream moves index).recites
    refine ⟨hrecites, ?_⟩
    rw [← hrecites.endOfInput_iff, exists_endOfInput_mem_unnumbered]
  · have halike := (SharedReader.ofSource source file).alike_after moves
    rw [SharedReader.asks, Fetch.map_found]
    exact ⟨_, Reader.tokenizesAs (halike.isStream hstream)⟩

/-- The second reading dies in the second line. That line is gone and the others are not: the third
line goes to the reading of all tokens at once, which exhausts the stream, and so the first reading
finds the end of the input after the first line. -/
theorem readings_partition_lines_bytes :
    let source := Source.byteStream [97, 10, 255, 10, 98]
    let moves := [.start, .start, .advance 0, .advance 1, .advance 0, .tokenize, .advance 0]
    let shared := SharedReader.ofSource source none
    let fault : Text.Utf8.Fault := ⟨0, 1, 255, .invalidStart⟩
    source.isStream = true ∧
      (shared.fetches moves).map Fetch.found
        = [some (.ok ['a']), some (.error fault), some (.ok ['b']), none, none] ∧
      fetchesOf 0 (shared.fetches moves) = [some (.ok ['a']), none] ∧
      (∃ location, .ok ⟨.endOfInput, location⟩ ∈ givenTo 0 (shared.answersTo moves)) ∧
      fetchesOf 1 (shared.fetches moves) = [some (.error fault)] ∧
      Recites none [some (.error fault)] ((givenTo 1 (shared.answersTo moves)).map unnumbered) ∧
      ¬∃ location, .ok ⟨.endOfInput, location⟩ ∈ givenTo 1 (shared.answersTo moves) := by
  intro source moves shared fault
  obtain ⟨-, hreadings, -⟩ := readings_partition_lines source none rfl moves
  have hfirst : fetchesOf 0 (shared.fetches moves) = [some (.ok ['a']), none] := by
    decide +kernel
  have hsecond : fetchesOf 1 (shared.fetches moves) = [some (.error fault)] := by
    decide +kernel
  have hend : none ∈ fetchesOf 0 (shared.fetches moves) := by simp [hfirst]
  have hnone : none ∉ fetchesOf 1 (shared.fetches moves) := by simp [hsecond]
  exact ⟨rfl, by decide +kernel, hfirst, (hreadings 0).2.2 hend, hsecond,
    hsecond ▸ (hreadings 1).1, (hreadings 1).2.not.2 hnone⟩

end ActivityScript.Script
