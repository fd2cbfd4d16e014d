import ActivityScript.Proofs.Script.Scanning
import ActivityScript.Script.Reading

/-!
# A reading from its beginning to its end

A reading that nothing else interferes with gives, one advance after the other, what lexing the
lines gives at once: its tokens, then its fault if it has one, and then nothing any more
(`nthAdvance_fresh`). This holds for sources at hand and for streams; the lines that a reading will
still see are its own or the shared ones (`Reader.pending`).
-/

namespace ActivityScript.Script

/-- What lexing finds, in order: the tokens, and the fault that ends them. -/
def Lexing.results (lexing : Lexing) : List (Except ReadFault Token) :=
  lexing.tokens.map .ok ++ lexing.fault?.toList.map .error

namespace Reader

variable {reader opened after : Reader} {reading following : Reading} {own : List Line}
  {result : Except ReadFault Token} {results : List (Except ReadFault Token)}

/-- What advance number `n` of a reading gives, if nobody else advances meanwhile. -/
def nthAdvance (reader : Reader) (reading : Reading) : Nat → Advance
  | 0 => (reader.advance reading).1
  | n + 1 => (reader.advance reading).2.1.nthAdvance (reader.advance reading).2.2 n

/-- The lines that a reading has still to fetch. -/
def pending (reader : Reader) (own : List Line) : List Line :=
  if reader.source.isStream then reader.unread else own

/-! ## Steps -/

/-- Readings whose first advance is the same give the same from then on, since an advance tells the
reader and the reading after it as well. -/
theorem nthAdvance_congr {other : Reader} (h : reader.advance reading = other.advance following)
    (n : Nat) : reader.nthAdvance reading n = other.nthAdvance following n := by
  cases n with
  | zero => rw [nthAdvance, nthAdvance, h]
  | succ n => rw [nthAdvance, nthAdvance, h]

/-- A result is given first, and the others by the advances after it. This is how what a reading
gives is put together. -/
theorem nthAdvance_of_advance (h : reader.advance reading = (some result, after, following))
    (hresults : ∀ n, after.nthAdvance following n = results[n]?) (n : Nat) :
    reader.nthAdvance reading n = (result :: results)[n]? := by
  cases n with
  | zero => rw [nthAdvance, h]; rfl
  | succ n => rw [nthAdvance, h, hresults, List.getElem?_cons_succ]

/-- A finished reading gives nothing, however often it is advanced. -/
theorem nthAdvance_finished (reader : Reader) (n : Nat) :
    reader.nthAdvance .finished n = none := by
  induction n with
  | zero => rfl
  | succ n ih => exact ih

/-- A reading that finishes with its first result gives nothing else. This is how faults and the end
of input end a reading. -/
theorem nthAdvance_of_finishing (h : reader.advance reading = (some result, after, .finished))
    (n : Nat) : reader.nthAdvance reading n = [result][n]? :=
  nthAdvance_of_advance h (nthAdvance_finished after) n

/-- Inside a line, its tokens are given, then its fault or what comes after its end. The induction
is on the length of what is left of the line. -/
theorem nthAdvance_inside (hresults : ∀ n, reader.nthAdvance (.between own) n = results[n]?)
    (column : Nat) (rest : List Char) (n : Nat) :
    reader.nthAdvance (.inside column rest own) n =
      ((lexLine reader.file reader.line column rest).1.map .ok ++
        match (lexLine reader.file reader.line column rest).2 with
        | some diagnostic => [.error (.script diagnostic)]
        | none => results)[n]? := by
  induction hlength : rest.length using Nat.strongRecOn generalizing column rest n with
  | _ length ih =>
    cases hscan : scan column rest with
    | lexeme found lexeme next after =>
      have hadvance : reader.advance (.inside column rest own)
          = (some (.ok ⟨lexeme, ⟨reader.line, found, reader.file⟩⟩), reader,
              .inside next after own) := by
        rw [advance, scanOn, hscan]
      rw [lexLine_of_lexeme hscan]
      exact nthAdvance_of_advance hadvance
        (fun n => ih after.length (hlength ▸ length_of_scan hscan) next after n rfl) n
    | lineEnd found =>
      have hadvance : reader.advance (.inside column rest own)
          = (some (.ok ⟨.endOfLine, ⟨reader.line, found, reader.file⟩⟩), reader, .between own) := by
        rw [advance, scanOn, hscan]
      rw [lexLine_of_lineEnd hscan]
      exact nthAdvance_of_advance hadvance hresults n
    | fault found problem =>
      have hadvance : reader.advance (.inside column rest own)
          = (some (.error (.script ⟨problem, ⟨reader.line, found, reader.file⟩⟩)), reader,
              .finished) := by
        rw [advance, scanOn, hscan]
      rw [lexLine_of_fault hscan]
      exact nthAdvance_of_finishing hadvance n

/-! ## Lines -/

/-- What is entered is the first of the lines that a reading has still to fetch, and the others
remain. For a stream they are the reader's, and otherwise the reading's own. -/
theorem exists_fetch_eq (reader : Reader) (own : List Line) :
    ∃ after own', after.pending own' = (reader.pending own).tail ∧
      after.file = reader.file ∧ after.line = reader.line ∧
      reader.fetch own = ((after.enter (reader.pending own) own').1, after,
        (after.enter (reader.pending own) own').2) := by
  by_cases hstream : reader.source.isStream
  · refine ⟨{ reader with unread := reader.unread.tail }, [], ?_, rfl, rfl, ?_⟩
    · rw [pending, pending, if_pos hstream, if_pos hstream]
    · rw [fetch, pending, if_pos hstream, if_pos hstream]
      rfl
  · refine ⟨reader, own.tail, ?_, rfl, rfl, ?_⟩
    · rw [pending, pending, if_neg hstream, if_neg hstream]
    · rw [fetch, pending, if_neg hstream, if_neg hstream]

/-- The results of lines are those of the first line, and then those of the others unless the first
line has a fault. -/
theorem results_lexLines_cons (file : Option String) (line : Nat) (cs : List Char)
    (lines : List Line) :
    (lexLines file line (.ok cs :: lines)).results =
      (lexLine file line 0 cs).1.map .ok ++
        match (lexLine file line 0 cs).2 with
        | some diagnostic => [.error (.script diagnostic)]
        | none => (lexLines file (line + 1) lines).results := by
  rw [lexLines]
  cases lexLine file line 0 cs with
  | mk tokens fault? => cases fault? <;> simp [Lexing.results]

/-- A reading that fetches a line next gives what the lines that it has still to fetch are lexed to.
The induction is on these lines. -/
theorem nthAdvance_of_fetch (h : reader.advance reading = opened.fetch own) (n : Nat) :
    reader.nthAdvance reading n
      = (lexLines opened.file opened.line (opened.pending own)).results[n]? := by
  induction hlines : opened.pending own generalizing reader reading opened own n with
  | nil =>
    obtain ⟨after, own', -, hfile, hline, hfetch⟩ := exists_fetch_eq opened own
    rw [hlines] at hfetch
    rw [← hfile, ← hline]
    exact nthAdvance_of_finishing (h.trans hfetch) n
  | cons line lines ih =>
    obtain ⟨after, own', hpending, hfile, hline, hfetch⟩ := exists_fetch_eq opened own
    rw [hlines] at hfetch hpending
    cases line with
    | error fault => exact nthAdvance_of_finishing (h.trans hfetch) n
    | ok cs =>
      -- The first advance is that of a reading at the beginning of the line that was fetched.
      have hinside : reader.advance reading = after.advance (.inside 0 cs own') := h.trans hfetch
      have hnext : after.advance (.between own')
          = { after with line := after.line + 1 }.fetch own' := rfl
      have hbetween (n : Nat) : after.nthAdvance (.between own') n
          = (lexLines after.file (after.line + 1) lines).results[n]? := ih hnext n hpending
      rw [nthAdvance_congr hinside, nthAdvance_inside hbetween, ← hfile, ← hline,
        results_lexLines_cons]

/-- **Lazily or at once.** A reading that nothing interferes with gives the tokens of its source,
then the fault that ends them, if there is one, and then nothing. -/
theorem nthAdvance_fresh (source : Source) (file : Option String) (n : Nat) :
    (ofSource source file).nthAdvance .fresh n = (source.lexing file).results[n]? := by
  have hpending : (ofSource source file).pending source.lines = source.lines := by
    rw [pending, ofSource, ite_self]
  have hfetch : (ofSource source file).advance .fresh
      = (ofSource source file).fetch source.lines := rfl
  rw [nthAdvance_of_fetch hfetch, hpending]
  rfl

end Reader

end ActivityScript.Script
