import ActivityScript.Script.Reading

/-!
# Readings that take turns

A `SharedReader` is a reader with the readings that were started on it, numbered in that order. A
`Move` starts a further reading, advances one of them or tokenizes everything at once. Moves may
come in any order, so that the readings take turns as it happens.
-/

namespace ActivityScript.Script

/-- What can be done with a reader. -/
inductive Move where
  /-- Starts a reading. -/
  | start
  /-- Advances a reading. -/
  | advance (index : Nat)
  /-- Reads all tokens of a new reading. -/
  | tokenize
  deriving DecidableEq, Repr

/-- What a move gives. -/
inductive Answer where
  | started (index : Nat)
  | advanced (index : Nat) (result : Advance)
  /-- There is no reading with this number. -/
  | unknown (index : Nat)
  | tokenized (result : Except ReadFault (List Token))

/-- A reader and the readings that were started on it. -/
structure SharedReader where
  reader : Reader
  readings : List Reading

/-- A reader of a source on which no reading was started. -/
def SharedReader.ofSource (source : Source) (file : Option String) : SharedReader :=
  ⟨.ofSource source file, []⟩

/-- A move. -/
def SharedReader.step (shared : SharedReader) : Move → Answer × SharedReader
  | .start =>
    (.started shared.readings.length, { shared with readings := shared.readings ++ [.fresh] })
  | .advance index =>
    match shared.readings[index]? with
    | none => (.unknown index, shared)
    | some reading =>
      let (result, reader, reading) := shared.reader.advance reading
      (.advanced index result, ⟨reader, shared.readings.set index reading⟩)
  | .tokenize =>
    let (result, reader) := shared.reader.tokenize
    (.tokenized result, { shared with reader := reader })

end ActivityScript.Script
