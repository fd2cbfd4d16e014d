import ActivityScript.Activity.Log
import ActivityScript.Proofs.Activity.JsonReading
import ActivityScript.Proofs.Basic
import ActivityScript.Proofs.Text.Lines
import ActivityScript.Proofs.Text.Quoting

/-!
# Lines of records

A record takes one line of a log, whatever its texts hold: the line is ASCII and its only line feed
is at the end (`plain_of_mem_write`). The record comes back from its line (`Record.read?_line`), so
a text that holds nothing else can be cut into its lines and read one by one
(`Record.mapM_read?_separated`).

`ReadsAs` says this of bytes, as they are appended to files: they are a text of whole lines that are
read as certain records. The bytes that records are written to are read as these records
(`readsAs_lines`).
-/

namespace ActivityScript.Activity

open Host
open Text (Utf8.decode Utf8.encode separated)

/-! ## Characters of lines -/

namespace Json

/-- A character is printable ASCII. -/
def Plain (c : Char) : Prop := 0x20 ≤ c.toNat ∧ c.toNat < 0x7f

instance (c : Char) : Decidable (Plain c) :=
  inferInstanceAs (Decidable (0x20 ≤ c.toNat ∧ c.toNat < 0x7f))

variable {c : Char}

/-- Hexadecimal digits are printable ASCII, the letters among them as well. This is decided for each
of the sixteen. -/
theorem plain_digitChar : ∀ d < 16, Plain (Nat.digitChar d) := by
  decide

/-- A hexadecimal number of fixed width is written in printable ASCII, since it is written with
digits only (`exists_digitChar_of_mem_hexDigits`). -/
theorem plain_of_mem_hexDigits {n width : Nat} (h : c ∈ Text.hexDigits n width) : Plain c := by
  obtain ⟨digit, hlt, rfl⟩ := Text.exists_digitChar_of_mem_hexDigits h
  exact plain_digitChar digit hlt

/-- The escape of a unit is written in printable ASCII: a backslash, the letter `u` and four
digits. -/
theorem plain_of_mem_unitEscape {unit : Nat} (h : c ∈ unitEscape unit) : Plain c := by
  rcases List.mem_cons.1 h with rfl | hmem
  · decide
  · rcases List.mem_cons.1 hmem with rfl | hmem
    · decide
    · exact plain_of_mem_hexDigits hmem

/-- The characters of which a short escape can be made, after its backslash, are printable ASCII.
There are eight of them. -/
theorem plain_of_shortEscape? {char : Char} (h : shortEscape? c = some char) : Plain c := by
  unfold shortEscape? at h
  split at h
  · next hc => rcases hc with rfl | rfl | rfl <;> decide
  repeat' (split at h; · next hc => rw [hc]; decide)
  cases h

/-- However a character is written in a text, what is written is printable ASCII, by the three cases
of `escape_cases`. -/
theorem plain_of_mem_escape {d : Char} (h : c ∈ escape d) : Plain c := by
  rcases escape_cases d with ⟨e, -, hshort, hescape⟩ | ⟨-, -, hrange, hescape⟩ | hescape
  · rw [hescape, List.mem_cons, List.mem_singleton] at h
    rcases h with rfl | rfl
    · decide
    · exact plain_of_shortEscape? hshort
  · rw [hescape, List.mem_singleton] at h
    rw [h]
    exact hrange
  · rw [hescape] at h
    obtain ⟨unit, -, hmem⟩ := List.mem_flatMap.1 h
    exact plain_of_mem_unitEscape hmem

/-- A text is written in printable ASCII, whatever it holds, the quotation marks around it included.
So it holds no line feed. -/
theorem plain_of_mem_writeText {text : String} (h : c ∈ writeText text) : Plain c := by
  simp only [writeText, List.cons_append, List.mem_cons, List.mem_append, List.mem_flatMap,
    List.not_mem_nil, or_false] at h
  rcases h with rfl | ⟨d, -, hmem⟩ | rfl
  · decide
  · exact plain_of_mem_escape hmem
  · decide

/-- An integer is written in printable ASCII: digits, and perhaps a minus sign in front
(`exists_toString_eq_cons`). -/
theorem plain_of_mem_toString {value : Int} (h : c ∈ (toString value).toList) : Plain c := by
  have hdigit : ∀ d, (Text.asciiDigit? d).isSome → Plain d := by
    intro d hd
    unfold Text.asciiDigit? at hd
    split at hd
    · next hrange =>
      have hlow : 48 ≤ d.toNat := hrange.1
      have hhigh : d.toNat ≤ 57 := hrange.2
      exact ⟨by omega, by omega⟩
    · cases hd
  obtain ⟨first, digits, heq, hfirst, hdigits⟩ := exists_toString_eq_cons value
  rw [heq] at h
  rcases List.mem_cons.1 h with rfl | hmem
  · rcases hfirst with rfl | hfirst
    · decide
    · exact hdigit c hfirst
  · exact hdigit c (hdigits c hmem)

mutual

/-- A value is written in printable ASCII. The cases are those of the value; marks and blanks
between its parts are printable ASCII themselves. -/
theorem plain_of_mem_write : ∀ (value : Json) {c : Char}, c ∈ value.write → Plain c
  | .number value, c, h => by
    rw [write] at h
    exact plain_of_mem_toString h
  | .text value, c, h => by
    rw [write] at h
    exact plain_of_mem_writeText h
  | .array items, c, h => by
    rw [write, List.cons_append, List.mem_cons, List.mem_append, List.mem_singleton] at h
    rcases h with rfl | hmem | rfl
    · decide
    · exact plain_of_mem_writeItems items hmem
    · decide
  | .object fields, c, h => by
    rw [write, List.cons_append, List.mem_cons, List.mem_append, List.mem_singleton] at h
    rcases h with rfl | hmem | rfl
    · decide
    · exact plain_of_mem_writeFields fields hmem
    · decide

/-- The items of an array are written in printable ASCII, and so are the commas and blanks between
them. -/
theorem plain_of_mem_writeItems : ∀ (items : List Json) {c : Char}, c ∈ writeItems items → Plain c
  | [], c, h => by
    rw [writeItems] at h
    cases h
  | [item], c, h => by
    rw [writeItems] at h
    exact plain_of_mem_write item h
  | item :: next :: items, c, h => by
    simp only [writeItems_cons_cons, List.mem_append, List.mem_cons] at h
    rcases h with hmem | rfl | rfl | hmem
    · exact plain_of_mem_write item hmem
    · decide
    · decide
    · exact plain_of_mem_writeItems (next :: items) hmem

/-- The fields of an object are written in printable ASCII: their keys are texts, and colons, commas
and blanks stand between keys and values. -/
theorem plain_of_mem_writeFields : ∀ (fields : List (String × Json)) {c : Char},
    c ∈ writeFields fields → Plain c
  | [], c, h => by
    rw [writeFields] at h
    cases h
  | [(key, value)], c, h => by
    simp only [writeFields, List.mem_append, List.mem_cons, List.not_mem_nil, or_false] at h
    rcases h with (hmem | rfl | rfl) | hmem
    · exact plain_of_mem_writeText hmem
    · decide
    · decide
    · exact plain_of_mem_write value hmem
  | (key, value) :: next :: fields, c, h => by
    simp only [writeFields_cons_cons, List.mem_append, List.mem_cons] at h
    rcases h with hmem | rfl | rfl | hmem | rfl | rfl | hmem
    · exact plain_of_mem_writeText hmem
    · decide
    · decide
    · exact plain_of_mem_write value hmem
    · decide
    · decide
    · exact plain_of_mem_writeFields (next :: fields) hmem

end

/-! ## Fields -/

/-- The field of an object with a key. -/
def field? (key : String) : Json → Option Json
  | .object fields => fields.lookup key
  | _ => none

/-- The value of a number. -/
def number? : Json → Option Int
  | .number value => some value
  | _ => none

/-- The value of a number that is not negative. -/
def count? : Json → Option Nat
  | .number (.ofNat value) => some value
  | _ => none

/-- The value of a text. -/
def text? : Json → Option String
  | .text value => some value
  | _ => none

/-- The values of an array of texts. -/
def texts? : Json → Option (List String)
  | .array items => items.mapM text?
  | _ => none

/-- The texts of an array come back from it. Arguments of a command line are recorded in this
way. -/
theorem texts?_array (texts : List String) : texts? (.array (texts.map .text)) = some texts :=
  mapM_map_eq_some fun _ _ => rfl

end Json

/-! ## Records that are read -/

/-- The event that a JSON value describes. -/
def Event.ofJson? (json : Json) : Option Event := do
  let kind ← (← json.field? "type").text?
  if kind = "file" then
    return .file (← (← json.field? "path").text?) (← (← json.field? "activity_descriptor").text?)
  else if kind = "process" then
    return .launch (← (← json.field? "name").text?) (← (← json.field? "command_line").texts?)
      (← (← json.field? "pid").number?)
  else if kind = "network" then
    return .network (← (← json.field? "src").text?) (← (← json.field? "dest").text?)
      (← (← json.field? "sent").count?) (← (← json.field? "protocol").text?)
  else none

/-- The identity that a JSON value describes. -/
def identityOfJson? (json : Json) : Option Identity := do
  return ⟨← (← json.field? "pid").number?, ← (← json.field? "exe").text?,
    ← (← json.field? "args").texts?, ← (← json.field? "user").text?⟩

namespace Record

/-- The record that a JSON value describes. -/
def ofJson? (json : Json) : Option Record := do
  return ⟨← (← json.field? "timestamp").number?, ← identityOfJson? (← json.field? "env"),
    ← Event.ofJson? (← json.field? "activity")⟩

/-- The record in a line, with or without the line feed at its end. -/
def read? (line : List Char) : Option Record := (Json.read line).bind ofJson?

end Record

/-- An event comes back from its JSON value, with all of its fields. The field `type` says which of
the three kinds it is. -/
theorem Event.ofJson?_toJson (event : Event) : Event.ofJson? event.toJson = some event := by
  cases event with
  | file path descriptor => rfl
  | launch name commandLine pid =>
    simp [Event.ofJson?, Event.toJson, Json.field?, Json.text?, Json.number?, List.lookup_cons,
      Json.texts?_array]
  | network source destination sent protocol => rfl

/-- The identity of a process comes back from its JSON value: number, program, arguments and
user. -/
theorem identityOfJson?_identityJson (identity : Identity) :
    identityOfJson? (identityJson identity) = some identity := by
  simp [identityOfJson?, identityJson, Json.field?, Json.text?, Json.number?, List.lookup_cons,
    Json.texts?_array]

namespace Record

variable {record : Record}

/-- A record comes back from its JSON value, since its identity and its event do. No two of its keys
are the same. -/
theorem ofJson?_toJson (record : Record) : ofJson? record.toJson = some record := by
  simp [ofJson?, toJson, Json.field?, Json.number?, List.lookup_cons, identityOfJson?_identityJson,
    Event.ofJson?_toJson]

/-- The line of a record is the text of its JSON value, with a line feed after it that is passed
over like a blank. -/
theorem read_line (record : Record) : Json.read record.line = some record.toJson :=
  Json.read_write_append rfl (Json.stops_cons (by decide)) record.toJson

/-- A record comes back from its line. Nothing of it is lost, whatever characters its texts hold. -/
theorem read?_line (record : Record) : read? record.line = some record := by
  rw [read?, read_line, Option.bind_some, ofJson?_toJson]

/-- The line feed need not be there. When a log is cut into lines, it is gone, and the record is
still read. -/
theorem read?_write (record : Record) : read? record.toJson.write = some record := by
  have hread : Json.read (record.toJson.write ++ []) = some record.toJson :=
    Json.read_write_append rfl (fun _ h => by cases h) record.toJson
  rw [List.append_nil] at hread
  rw [read?, hread, Option.bind_some, ofJson?_toJson]

/-- There is no line feed in the text of a record but the one that ends its line, since everything
else is printable ASCII. -/
theorem newline_notMem_write (record : Record) : '\n' ∉ record.toJson.write := by
  intro hmem
  have hplain := Json.plain_of_mem_write record.toJson hmem
  exact absurd hplain (by decide)

/-- Different records have different lines, since a record is read back from its line
(`read?_line`). -/
theorem line_injective : Function.Injective line := by
  intro first second h
  have hread := read?_line first
  rw [h, read?_line] at hread
  exact (Option.some_inj.1 hread).symm

/-- The lines of a log are the records in it: it is cut after each record and nowhere else
(`newline_notMem_write`). -/
theorem separated_flatMap_line (records : List Record) :
    separated '\n' (records.flatMap line) = records.map fun record => record.toJson.write := by
  induction records with
  | nil => rfl
  | cons record records ih =>
    rw [List.flatMap_cons, line, List.append_assoc, List.singleton_append,
      Text.separated_append (newline_notMem_write record), ih, List.map_cons]

/-- A text that holds the lines of records, and nothing else, is cut into lines from which the
records are read, all of them and in their order. -/
theorem mapM_read?_separated (records : List Record) :
    (separated '\n' (records.flatMap line)).mapM read? = some records := by
  rw [separated_flatMap_line]
  exact mapM_map_eq_some fun record _ => read?_write record

/-- The line of a record is ASCII, the line feed at its end included. So it is the same in most
encodings. -/
theorem ascii_of_mem_line {c : Char} (h : c ∈ record.line) : c.toNat < 0x80 := by
  rcases List.mem_append.1 h with hmem | hmem
  · have hplain := Json.plain_of_mem_write record.toJson hmem
    exact Nat.lt_trans hplain.2 (by decide)
  · rw [List.mem_singleton.1 hmem]
    decide

end Record

/-! ## Records in files -/

/-- Bytes are read as records: they are a text of whole lines, each of them is the line of a record,
and these are the records. -/
def ReadsAs (bytes : List UInt8) (records : List Record) : Prop :=
  ∃ text, Utf8.decode bytes = .ok text ∧ (text = [] ∨ text.getLast? = some '\n') ∧
    (separated '\n' text).mapM Record.read? = some records

/-- The bytes that a log appends for an event. -/
def recordLine (log : Log) (now : Instant) (event : Event) : List UInt8 :=
  Utf8.encode (log.record now event).line

/-- Lines that are encoded one by one are encoded together. A log appends one line at a time, and a
reader decodes the whole file. -/
theorem flatMap_encode_line (records : List Record) :
    records.flatMap (fun record => Utf8.encode record.line)
      = Utf8.encode (records.flatMap Record.line) := by
  induction records with
  | nil => rfl
  | cons record records ih =>
    rw [List.flatMap_cons, ih, List.flatMap_cons, Text.Utf8.encode_append]

/-- The lines of records end with a line feed, if there are any. So the next record that is appended
starts a new line. -/
theorem getLast?_flatMap_line (records : List Record) :
    records.flatMap Record.line = [] ∨ (records.flatMap Record.line).getLast? = some '\n' := by
  rcases records.eq_nil_or_concat with rfl | ⟨earlier, record, rfl⟩
  · exact .inl rfl
  · refine .inr ?_
    rw [List.concat_eq_append, List.flatMap_append, List.flatMap_singleton, Record.line,
      ← List.append_assoc, List.getLast?_concat]

/-- The lines of records are read as these records: they are decoded to the text that was encoded,
and its lines are read one by one (`mapM_read?_separated`). -/
theorem readsAs_lines (records : List Record) :
    ReadsAs (records.flatMap fun record => Utf8.encode record.line) records := by
  rw [flatMap_encode_line]
  exact ⟨_, Text.Utf8.decode_eq_ok_iff.2 rfl, getLast?_flatMap_line records,
    Record.mapM_read?_separated records⟩

/-- What a log appends for events is read as their records, with the time that it was given and the
identity of the log. Time and identity are the same for all of these events. -/
theorem readsAs_recordLine (log : Log) (now : Instant) (events : List Event) :
    ReadsAs (events.flatMap (recordLine log now))
      (events.map fun event => ⟨now.seconds, log.identity, event⟩) := by
  have hlines := readsAs_lines (events.map (log.record now))
  rwa [List.flatMap_map] at hlines

end ActivityScript.Activity
