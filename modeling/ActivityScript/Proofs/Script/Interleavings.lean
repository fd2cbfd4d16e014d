import ActivityScript.Proofs.Script.Concatenation
import ActivityScript.Proofs.Script.Readings
import ActivityScript.Script.Interleaving
import Mathlib.Data.List.Induction

/-!
# Readings of a source at hand

Any number of readings may take turns on a source at hand. What they share is only the number of the
current line, so the tokens of one are not mixed with those of another: answer number `k` to a
reading is, apart from line numbers, what advance number `k` of a reading gives that nothing
interferes with. Line numbers are right as well if nobody else advances between the first and the
last advance of a reading, and in particular when all tokens are read at once
(`readings_do_not_mix`).

`InStep view` says that a reading has given, and is going to give, what a lone reading gives, as far
as `view` can tell. The reading's own moves keep this for any `view`; the moves of others keep it if
`view` leaves out line numbers, because an advance depends on the shared number only in the line
number of its result (`advance_unnumbered`).
-/

namespace ActivityScript.Script

/-! ## Results without line numbers -/

/-- A location with its line number struck out. -/
def Location.unnumbered (location : Location) : Location := { location with line := 0 }

/-- A result with its line number struck out. -/
def unnumbered : Except ReadFault Token → Except ReadFault Token
  | .ok token => .ok (token.relocate .unnumbered)
  | .error fault => .error (fault.relocate .unnumbered)

@[simp] theorem unnumbered_ok (lexeme : Lexeme) (line column : Nat) (file : Option String) :
    unnumbered (.ok ⟨lexeme, ⟨line, column, file⟩⟩) = .ok ⟨lexeme, ⟨0, column, file⟩⟩ := rfl
@[simp] theorem unnumbered_script (problem : Problem) (line column : Nat) (file : Option String) :
    unnumbered (.error (.script ⟨problem, ⟨line, column, file⟩⟩))
      = .error (.script ⟨problem, ⟨0, column, file⟩⟩) := rfl
@[simp] theorem unnumbered_encoding (fault : Text.Utf8.Fault) :
    unnumbered (.error (.encoding fault)) = .error (.encoding fault) := rfl

namespace Reader

/-- Two readers of one source. They may stand at different lines. -/
structure Alike (reader other : Reader) : Prop where
  source : reader.source = other.source
  file : reader.file = other.file

variable {reader other after : Reader} {source : Source} {file : Option String}

theorem Alike.refl (reader : Reader) : reader.Alike reader := ⟨rfl, rfl⟩

theorem Alike.symm (h : reader.Alike other) : other.Alike reader :=
  ⟨h.source.symm, h.file.symm⟩

theorem Alike.trans (h : reader.Alike other) (h' : other.Alike after) : reader.Alike after :=
  ⟨h.source.trans h'.source, h.file.trans h'.file⟩

theorem Alike.isStream (h : reader.Alike other) {kind : Bool}
    (hkind : other.source.isStream = kind) : reader.source.isStream = kind := by
  rw [h.source, hkind]

/-- An advance does not change the source that is read, nor its name. Only the line can be another
one. -/
theorem alike_advance (reader : Reader) (reading : Reading) :
    (reader.advance reading).2.1.Alike reader := by
  cases reading with
  | fresh | between =>
    rw [advance, fetch]
    split <;> exact ⟨rfl, rfl⟩
  | inside | finished => exact .refl reader

/-- What the scan of a line gives depends on the reader only in its line number. Where the reading
stands afterwards does not depend on it at all. -/
theorem scanOn_unnumbered (h : reader.Alike other) (column : Nat) (rest : List Char)
    (own : List Line) :
    (reader.scanOn column rest own).1.map unnumbered
        = (other.scanOn column rest own).1.map unnumbered ∧
      (reader.scanOn column rest own).2 = (other.scanOn column rest own).2 := by
  rw [scanOn, scanOn, h.file]
  cases scan column rest <;> exact ⟨rfl, rfl⟩

/-- What the next line gives depends on the reader only in its line number, if the source is at
hand: the reading has its own lines left, and does not take them from the reader. -/
theorem fetch_unnumbered (h : reader.Alike other) (hhand : other.source.isStream = false)
    (own : List Line) :
    (reader.fetch own).1.map unnumbered = (other.fetch own).1.map unnumbered ∧
      (reader.fetch own).2.2 = (other.fetch own).2.2 := by
  rw [fetch, fetch, h.source, hhand]
  cases own with
  | nil =>
    simp only [enter, h.file]
    exact ⟨rfl, rfl⟩
  | cons line own =>
    cases line with
    | error fault => exact ⟨rfl, rfl⟩
    | ok cs => exact scanOn_unnumbered h 0 cs own

/-- On a source at hand, what an advance gives depends on the reader only in its line number, and
where the reading stands afterwards does not depend on it at all. -/
theorem advance_unnumbered (h : reader.Alike other) (hhand : other.source.isStream = false)
    (reading : Reading) :
    (reader.advance reading).1.map unnumbered = (other.advance reading).1.map unnumbered ∧
      (reader.advance reading).2.2 = (other.advance reading).2.2 := by
  cases reading with
  | fresh =>
    have hopened : { reader with line := 0 }.Alike { other with line := 0 } := ⟨h.source, h.file⟩
    have hlines : reader.source.lines = other.source.lines := by rw [h.source]
    rw [advance, advance, hlines]
    exact fetch_unnumbered hopened hhand _
  | inside column rest own => exact scanOn_unnumbered h column rest own
  | between own =>
    have hopened : { reader with line := reader.line + 1 }.Alike
        { other with line := other.line + 1 } := ⟨h.source, h.file⟩
    exact fetch_unnumbered hopened hhand own
  | finished => exact ⟨rfl, rfl⟩

/-- On a source at hand, what a reading is going to give depends on the reader only in its line
numbers. The induction goes from advance to advance (`advance_unnumbered`). -/
theorem nthAdvance_unnumbered (h : reader.Alike other) (hhand : other.source.isStream = false)
    (reading : Reading) (n : Nat) :
    (reader.nthAdvance reading n).map unnumbered = (other.nthAdvance reading n).map unnumbered := by
  induction n generalizing reader other reading with
  | zero => exact (advance_unnumbered h hhand reading).1
  | succ n ih =>
    have hother := other.alike_advance reading
    rw [nthAdvance, nthAdvance, (advance_unnumbered h hhand reading).2]
    exact ih (((reader.alike_advance reading).trans h).trans hother.symm)
      (hother.isStream hhand) _

/-- A new reading of a source at hand starts from its beginning, whatever was read before. It sets
the line number back, so its line numbers are right as well. -/
theorem nthAdvance_fresh_of_alike (h : reader.Alike (ofSource source file))
    (hhand : source.isStream = false) (n : Nat) :
    reader.nthAdvance .fresh n = (ofSource source file).nthAdvance .fresh n := by
  have hfetch : reader.advance .fresh = { reader with line := 0 }.fetch source.lines := by
    rw [advance, h.source]
    rfl
  rw [nthAdvance_of_fetch hfetch, nthAdvance_fresh, pending, h.isStream hhand, h.file]
  rfl

end Reader

/-! ## Moves -/

/-- The result of an advance, if it is one of reading number `index`. -/
def Answer.to? (index : Nat) : Answer → Option Advance
  | .advanced number result => if number = index then some result else none
  | .started _ | .unknown _ | .tokenized _ => none

/-- What the advances of reading number `index` have given, in order. -/
def advancesOf (index : Nat) (answers : List Answer) : List Advance :=
  answers.filterMap (Answer.to? index)

namespace SharedReader

variable {shared next : SharedReader} {source : Source} {file : Option String} {index : Nat}
  {moves : List Move} {answers : List Answer} {answer : Answer}

/-- The state after moves. -/
def after (shared : SharedReader) (moves : List Move) : SharedReader :=
  moves.foldl (fun shared move => (shared.step move).2) shared

/-- What moves give, in order. -/
def answersTo (shared : SharedReader) : List Move → List Answer
  | [] => []
  | move :: moves => (shared.step move).1 :: (shared.step move).2.answersTo moves

theorem after_append (shared : SharedReader) (moves more : List Move) :
    shared.after (moves ++ more) = (shared.after moves).after more :=
  List.foldl_append

/-- The answers to moves in two parts are those to the first and then those to the second, from
where the first has led. -/
theorem answersTo_append (shared : SharedReader) (moves more : List Move) :
    shared.answersTo (moves ++ more)
      = shared.answersTo moves ++ (shared.after moves).answersTo more := by
  induction moves generalizing shared with
  | nil => rfl
  | cons move moves ih =>
    rw [List.cons_append, answersTo, answersTo, ih, List.cons_append]
    rfl

/-- A move does not change the source that is read. Even reading all tokens at once leaves a source
at hand as it is. -/
theorem alike_step (shared : SharedReader) (move : Move) :
    (shared.step move).2.reader.Alike shared.reader := by
  cases move with
  | start => exact .refl _
  | advance index =>
    rw [step]
    split
    · exact .refl _
    · exact shared.reader.alike_advance _
  | tokenize => exact ⟨rfl, rfl⟩

theorem alike_after (shared : SharedReader) (moves : List Move) :
    (shared.after moves).reader.Alike shared.reader := by
  induction moves generalizing shared with
  | nil => exact .refl _
  | cons move moves ih => exact (ih _).trans (shared.alike_step move)

/-- A reading, which counts as fresh until it is started. -/
def reading (shared : SharedReader) (index : Nat) : Reading :=
  shared.readings[index]?.getD .fresh

/-- A move leaves a reading alone unless it advances it, and its answer is not for this reading. A
reading that is started counts as fresh, as it did before. -/
theorem step_of_ne (shared : SharedReader) {move : Move} (h : move ≠ .advance index) :
    (shared.step move).2.reading index = shared.reading index ∧
      (shared.step move).1.to? index = none := by
  cases move with
  | start =>
    refine ⟨?_, rfl⟩
    rw [reading, reading, step, List.getElem?_append]
    split
    · rfl
    · next hge =>
      rw [List.getElem?_eq_none (Nat.not_lt.1 hge), List.getElem?_singleton]
      split <;> rfl
  | advance number =>
    have hne : number ≠ index := fun heq => h (heq ▸ rfl)
    rw [reading, reading, step]
    split
    · exact ⟨rfl, rfl⟩
    · exact ⟨by rw [List.getElem?_set_ne hne], if_neg hne⟩
  | tokenize => exact ⟨rfl, rfl⟩

/-- An advance of a reading that was not started does nothing, and its answer says so. -/
theorem step_advance_of_none (h : shared.readings[index]? = none) :
    shared.step (.advance index) = (.unknown index, shared) := by
  rw [step, h]

/-- An advance of a reading that was started gives what the reader gives, and leaves the reader and
the reading as the advance does. -/
theorem step_advance_of_some {current : Reading} (h : shared.readings[index]? = some current) :
    shared.reading index = current ∧
      (shared.step (.advance index)).1 = .advanced index (shared.reader.advance current).1 ∧
      (shared.step (.advance index)).2.reader = (shared.reader.advance current).2.1 ∧
      (shared.step (.advance index)).2.reading index = (shared.reader.advance current).2.2 := by
  obtain ⟨hlt, -⟩ := List.getElem?_eq_some_iff.1 h
  rw [reading, reading, step, h]
  refine ⟨rfl, rfl, rfl, ?_⟩
  rw [List.getElem?_set_self hlt]
  rfl

/-- A reading that is not advanced stands where it stood, whatever the others do. -/
theorem reading_after_of_notMem (shared : SharedReader) (h : .advance index ∉ moves) :
    (shared.after moves).reading index = shared.reading index := by
  induction moves generalizing shared with
  | nil => rfl
  | cons move moves ih =>
    obtain ⟨hmove, hmoves⟩ := not_or.1 (List.mem_cons.not.1 h)
    exact (ih _ hmoves).trans (shared.step_of_ne (Ne.symm hmove)).1

theorem advancesOf_concat (index : Nat) (answers : List Answer) (answer : Answer) :
    advancesOf index (answers ++ [answer])
      = advancesOf index answers ++ (answer.to? index).toList := by
  rw [advancesOf, List.filterMap_append]
  cases hanswer : answer.to? index <;> simp [advancesOf, hanswer]

/-- A reading that is not advanced is given nothing, whatever the others are given. -/
theorem advancesOf_eq_nil (shared : SharedReader) (h : .advance index ∉ moves) :
    advancesOf index (shared.answersTo moves) = [] := by
  induction moves generalizing shared with
  | nil => rfl
  | cons move moves ih =>
    obtain ⟨hmove, hmoves⟩ := not_or.1 (List.mem_cons.not.1 h)
    rw [answersTo, advancesOf, List.filterMap_cons_none (shared.step_of_ne (Ne.symm hmove)).2]
    exact ih _ hmoves

/-! ## A reading in step with a lone one -/

/-- As far as `view` can tell, reading number `index` has given what a reading gives that nothing
interferes with, and would go on so if nothing interfered from now on. -/
structure InStep {α : Type} (view : Advance → α) (source : Source) (file : Option String)
    (index : Nat) (shared : SharedReader) (answers : List Answer) : Prop where
  given : ∀ k result, (advancesOf index answers)[k]? = some result →
    view result = view ((Reader.ofSource source file).nthAdvance .fresh k)
  pending : ∀ n, view (shared.reader.nthAdvance (shared.reading index) n)
    = view ((Reader.ofSource source file).nthAdvance .fresh
        ((advancesOf index answers).length + n))

section OwnMoves

variable {α : Type} {view : Advance → α}

/-- Before its first advance a reading is in step. It has been given nothing, and it is going to
start from the beginning of the source. -/
theorem InStep.of_fresh (halike : shared.reader.Alike (.ofSource source file))
    (hhand : source.isStream = false) (hreading : shared.reading index = .fresh)
    (hgiven : advancesOf index answers = []) : InStep view source file index shared answers where
  given k result hresult := by
    rw [hgiven] at hresult
    cases hresult
  pending n := by
    rw [hreading, hgiven, Reader.nthAdvance_fresh_of_alike halike hhand, List.length_nil,
      Nat.zero_add]

/-- A reading stays in step with moves of others that do not change what it is going to give. The
answer to such a move is not for this reading. -/
theorem InStep.of_pending_eq (h : InStep view source file index shared answers)
    (hpending : ∀ n, view (next.reader.nthAdvance (next.reading index) n)
      = view (shared.reader.nthAdvance (shared.reading index) n))
    (hanswer : answer.to? index = none) :
    InStep view source file index next (answers ++ [answer]) := by
  have hgiven : advancesOf index (answers ++ [answer]) = advancesOf index answers := by
    rw [advancesOf_concat, hanswer]
    exact List.append_nil _
  refine ⟨hgiven ▸ h.given, fun n => ?_⟩
  rw [hgiven, hpending, h.pending]

/-- A reading stays in step with its own advances, for any `view`: the answer is the first that was
pending, and what is pending then is what was to come after it. -/
theorem InStep.advance (h : InStep view source file index shared answers) :
    InStep view source file index (shared.step (.advance index)).2
      (answers ++ [(shared.step (.advance index)).1]) := by
  cases hfound : shared.readings[index]? with
  | none =>
    rw [step_advance_of_none hfound]
    exact h.of_pending_eq (fun _ => rfl) rfl
  | some current =>
    obtain ⟨hcurrent, hanswer, hreader, hreading⟩ := step_advance_of_some hfound
    have hgiven : advancesOf index (answers ++ [(shared.step (.advance index)).1])
        = advancesOf index answers ++ [(shared.reader.advance current).1] := by
      rw [advancesOf_concat, hanswer, Answer.to?, if_pos rfl]
      rfl
    refine ⟨fun k result hresult => ?_, fun n => ?_⟩
    · -- The new answer is the first one that was pending.
      rw [hgiven] at hresult
      rcases Nat.lt_or_ge k (advancesOf index answers).length with hlt | hge
      · rw [List.getElem?_append_left hlt] at hresult
        exact h.given k result hresult
      · rw [List.getElem?_append_right hge, List.getElem?_singleton] at hresult
        split at hresult <;> cases hresult
        have hk : k = (advancesOf index answers).length + 0 := by omega
        rw [hk, ← h.pending 0, hcurrent]
        rfl
    · have hcount : (advancesOf index answers).length + 1 + n
          = (advancesOf index answers).length + (n + 1) := by omega
      rw [hgiven, List.length_append, List.length_singleton, hcount, ← h.pending (n + 1), hcurrent,
        hreader, hreading]
      rfl

end OwnMoves

/-- Apart from line numbers, a reading stays in step whatever is done. Its own advances keep it in
step, and the moves of others change no more than the line number of the reader. -/
theorem InStep.step (h : InStep (Option.map unnumbered) source file index shared answers)
    (halike : shared.reader.Alike (.ofSource source file)) (hhand : source.isStream = false)
    (move : Move) :
    InStep (Option.map unnumbered) source file index (shared.step move).2
      (answers ++ [(shared.step move).1]) := by
  by_cases hmove : move = .advance index
  · rw [hmove]
    exact h.advance
  · obtain ⟨hreading, hanswer⟩ := shared.step_of_ne hmove
    refine h.of_pending_eq (fun n => ?_) hanswer
    rw [hreading]
    exact Reader.nthAdvance_unnumbered (shared.alike_step move) (halike.isStream hhand) _ n

/-! ## Runs -/

/-- After any moves, every reading is in step, apart from line numbers. This is `InStep.step` for
one move after the other. -/
theorem inStep_after (hhand : source.isStream = false) (moves : List Move) (index : Nat) :
    InStep (Option.map unnumbered) source file index ((ofSource source file).after moves)
      ((ofSource source file).answersTo moves) := by
  induction moves using List.reverseRecOn with
  | nil => exact .of_fresh (.refl _) hhand rfl rfl
  | append_singleton moves move ih =>
    rw [after_append, answersTo_append]
    exact ih.step ((ofSource source file).alike_after moves) hhand move

/-- A reading stays in step as long as nobody else advances, for any `view`. Starting another
reading does not change the reader. -/
theorem InStep.after {α : Type} {view : Advance → α}
    (h : InStep view source file index shared answers)
    (hmoves : ∀ move ∈ moves, move = .start ∨ move = .advance index) :
    InStep view source file index (shared.after moves) (answers ++ shared.answersTo moves) := by
  induction moves generalizing shared answers with
  | nil =>
    rw [answersTo, List.append_nil]
    exact h
  | cons move moves ih =>
    obtain ⟨hmove, hmoves⟩ := List.forall_mem_cons.1 hmoves
    have hstep : InStep view source file index (shared.step move).2
        (answers ++ [(shared.step move).1]) := by
      rcases hmove with rfl | rfl
      · have hne : Move.start ≠ .advance index := by simp
        obtain ⟨hreading, hanswer⟩ := shared.step_of_ne hne
        refine h.of_pending_eq (fun n => ?_) hanswer
        rw [hreading]
        rfl
      · exact h.advance
    have hrest := ih hstep hmoves
    rw [List.append_assoc] at hrest
    exact hrest

/-- All tokens read at once are those of the source, with their line numbers. They are read from the
beginning, and the reader's line number is not used. -/
theorem tokenized_of_alike (halike : shared.reader.Alike (.ofSource source file))
    (hhand : source.isStream = false) {result : Except ReadFault (List Token)}
    (h : .tokenized result ∈ shared.answersTo moves) : result = tokenize source file := by
  induction moves generalizing shared with
  | nil => cases h
  | cons move moves ih =>
    rcases List.mem_cons.1 h with hanswer | hrest
    · cases move with
      | start => cases hanswer
      | advance number =>
        rw [step] at hanswer
        split at hanswer <;> cases hanswer
      | tokenize =>
        have hresult : result = shared.reader.tokenize.1 := by
          cases hanswer
          rfl
        rw [hresult, Reader.tokenize, halike.isStream hhand, halike.source, halike.file]
        rfl
    · exact ih ((shared.alike_step move).trans halike) hrest

end SharedReader

/-- Between the first and the last advance of a reading nobody else advances. -/
def Undisturbed (index : Nat) (moves : List Move) : Prop :=
  ∃ before during after, moves = before ++ during ++ after ∧
    .advance index ∉ before ∧ .advance index ∉ after ∧
    ∀ move ∈ during, move = .start ∨ move = .advance index

/-- **Readings of a source at hand are not mixed.** Whatever is done with a reader of a text or of
bytes at hand, in whatever order: advance number `k` of a reading gives, apart from line numbers,
what advance number `k` of a reading gives that nothing interferes with; all tokens read at once are
those of the source, with their line numbers; and so is what a reading gives if between its first
and its last advance nobody else advances. -/
theorem readings_do_not_mix (source : Source) (file : Option String)
    (hhand : source.isStream = false) (moves : List Move) :
    (∀ index k result,
      (advancesOf index ((SharedReader.ofSource source file).answersTo moves))[k]? = some result →
      result.map unnumbered
        = ((Reader.ofSource source file).nthAdvance .fresh k).map unnumbered) ∧
    (∀ result, .tokenized result ∈ (SharedReader.ofSource source file).answersTo moves →
      result = tokenize source file) ∧
    ∀ index, Undisturbed index moves → ∀ k result,
      (advancesOf index ((SharedReader.ofSource source file).answersTo moves))[k]? = some result →
      result = (Reader.ofSource source file).nthAdvance .fresh k := by
  refine ⟨fun index => (SharedReader.inStep_after hhand moves index).given,
    fun result hresult => SharedReader.tokenized_of_alike (.refl _) hhand hresult, ?_⟩
  rintro index ⟨before, during, after, rfl, hbefore, hafter, hduring⟩ k result hresult
  -- Others may have moved before, but a fresh reading does not notice; from there on all moves are
  -- its own, and those keep it in step with its line numbers, too.
  have halike := (SharedReader.ofSource source file).alike_after before
  have hfresh := (SharedReader.ofSource source file).reading_after_of_notMem hbefore
  have hstart : SharedReader.InStep id source file index _ _ := .of_fresh halike hhand hfresh
    (SharedReader.advancesOf_eq_nil (.ofSource source file) hbefore)
  have hend := hstart.after hduring
  have hgiven : advancesOf index
      ((SharedReader.ofSource source file).answersTo (before ++ during ++ after))
        = advancesOf index ((SharedReader.ofSource source file).answersTo before
            ++ ((SharedReader.ofSource source file).after before).answersTo during) := by
    rw [SharedReader.answersTo_append, SharedReader.answersTo_append, advancesOf,
      List.filterMap_append]
    exact (congrArg _ (SharedReader.advancesOf_eq_nil _ hafter)).trans (List.append_nil _)
  exact hend.given k result (hgiven ▸ hresult)

/-- A second reading resets the line number that the first one goes on with: the end of the second
line is then reported in line 0. The second reading, which advances only once, is undisturbed. -/
theorem readings_do_not_mix_reset :
    let moves := [.start, .advance 0, .advance 0, .advance 0, .start, .advance 1, .advance 0]
    let answers := (SharedReader.ofSource (.text "a\nb") none).answersTo moves
    let lone := (Reader.ofSource (.text "a\nb") none).nthAdvance .fresh
    (Source.text "a\nb").isStream = false ∧
      (advancesOf 0 answers)[3]? = some (some (.ok ⟨.endOfLine, ⟨0, 1, none⟩⟩)) ∧
      lone 3 = some (.ok ⟨.endOfLine, ⟨1, 1, none⟩⟩) ∧
      Option.map unnumbered (some (.ok ⟨.endOfLine, ⟨0, 1, none⟩⟩)) = (lone 3).map unnumbered ∧
      Undisturbed 1 moves ∧
      (advancesOf 1 answers)[0]? = some (some (.ok ⟨.identifier "a", ⟨0, 0, none⟩⟩)) ∧
      some (.ok ⟨.identifier "a", ⟨0, 0, none⟩⟩) = lone 0 := by
  intro moves answers lone
  have hmix := readings_do_not_mix (.text "a\nb") none rfl moves
  have hfirst : (advancesOf 0 answers)[3]? = some (some (.ok ⟨.endOfLine, ⟨0, 1, none⟩⟩)) := by
    decide +kernel
  have hsecond : (advancesOf 1 answers)[0]?
      = some (some (.ok ⟨.identifier "a", ⟨0, 0, none⟩⟩)) := by
    decide +kernel
  have hundisturbed : Undisturbed 1 moves :=
    ⟨[.start, .advance 0, .advance 0, .advance 0, .start], [.advance 1], [.advance 0], rfl,
      by decide, by decide, by decide⟩
  exact ⟨rfl, hfirst, by decide +kernel, hmix.1 0 3 _ hfirst, hundisturbed, hsecond,
    hmix.2.2 1 hundisturbed 0 _ hsecond⟩

end ActivityScript.Script
