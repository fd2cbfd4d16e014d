import ActivityScript.Proofs.Host.Frames
import ActivityScript.Settings.Loading

/-!
# Which documents are settings

A document is settings if it is empty or a mapping whose keys are all known (`Value.IsSettings`);
the value that is set must have a text besides. Any other document is a fault. What kind of fault
matters to whoever handles it (`Fault.kind`), and there is one kind that nobody expects: unknown
keys are listed in order, and keys of different families have no order (`HaveOrder`). The keys are
only ever compared with their neighbours, but this finds a clash if there is one
(`clash?_eq_none_iff`).

`load_eq_ok_iff` and `load_unforeseen_iff` say the same about the file that a run takes its
settings from. Nothing is assumed of the reader that gives the document of a file.
-/

namespace ActivityScript.Settings

open Host

/-! ## Families of keys -/

/-- The families of keys that have an order. -/
inductive KeyFamily where
  | number
  | text
  | bytes
  | day
  /-- Times that are known in universal time, or times that are not. -/
  | time (isZoned : Bool)
  deriving DecidableEq, Repr

/-- The family of a key. -/
def Value.family? : Value → Option KeyFamily
  | .truth _ | .integer _ | .real _ => some .number
  | .text _ => some .text
  | .bytes _ => some .bytes
  | .date _ => some .day
  | .moment time => some (.time time.isZoned)
  | _ => none

/-- Keys that can be put in order: a single key, or keys of one family. -/
def HaveOrder (keys : List Value) : Prop :=
  keys.length ≤ 1 ∨ ∃ family, ∀ key ∈ keys, key.family? = some family

/-- A value has a size if it is a number, and a truth value counts as one. This is the family of
keys in which different kinds are compared. -/
theorem Value.isSome_size?_iff (value : Value) :
    value.size?.isSome ↔ value.family? = some .number := by
  cases value with
  | real number => cases number <;> simp [size?, family?]
  | _ => simp [size?, family?]

/-- Two keys can be compared if and only if they are of one family. Times with and without a zone
are of different families, and so are days and times. -/
theorem exists_comesBefore_iff (a b : Value) :
    (∃ before, comesBefore a b = .ok before) ↔
      ∃ family, a.family? = some family ∧ b.family? = some family := by
  unfold comesBefore
  split
  · simp [Value.family?]
  · simp [Value.family?]
  · simp [Value.family?]
  · split <;> simp_all [Value.family?, eq_comm]
  · simp [Value.family?]
  · simp [Value.family?]
  · -- Of the families only numbers are left.
    have hnumber : (∃ family, a.family? = some family ∧ b.family? = some family) ↔
        a.size?.isSome ∧ b.size?.isSome := by
      rw [a.isSome_size?_iff, b.isSome_size?_iff]
      refine ⟨?_, fun h => ⟨_, h⟩⟩
      rintro ⟨family, ha, hb⟩
      cases family with
      | number => exact ⟨ha, hb⟩
      | _ =>
        cases a <;> cases ha
        cases b <;> simp_all [Value.family?]
    rw [hnumber]
    cases a.size? <;> cases b.size? <;> simp

/-- Keys of which no two neighbours clash are of one family, if there are at least two. A neighbour
that two families share makes them the same. -/
theorem clash?_cons_eq_none_iff (key : Value) (keys : List Value) :
    clash? (key :: keys) = none ↔
      keys = [] ∨ ∃ family, ∀ found ∈ key :: keys, found.family? = some family := by
  induction keys generalizing key with
  | nil => simp [clash?]
  | cons next keys ih =>
    have hstep : clash? (key :: next :: keys) = none ↔
        (∃ before, comesBefore next key = .ok before) ∧ clash? (next :: keys) = none := by
      cases hbefore : comesBefore next key <;> simp [clash?, hbefore]
    rw [hstep, exists_comesBefore_iff, ih]
    constructor
    · rintro ⟨⟨family, hnext, hkey⟩, hrest⟩
      refine .inr ⟨family, ?_⟩
      rcases hrest with rfl | ⟨other, hother⟩
      · simp [hkey, hnext]
      · -- The neighbour is in both families, so they are one.
        have hsame : other = family :=
          Option.some.inj ((hother next List.mem_cons_self).symm.trans hnext)
        subst hsame
        exact List.forall_mem_cons.2 ⟨hkey, hother⟩
    · rintro (hnil | ⟨family, hall⟩)
      · cases hnil
      · have hrest := (List.forall_mem_cons.1 hall).2
        exact ⟨⟨family, hrest next List.mem_cons_self, hall key List.mem_cons_self⟩,
          .inr ⟨family, hrest⟩⟩

/-- If no two neighbours clash, the keys can be put in order, and the converse holds as well. A
single key can be put in order whatever it is. -/
theorem clash?_eq_none_iff (keys : List Value) : clash? keys = none ↔ HaveOrder keys := by
  cases keys with
  | nil => simp [clash?, HaveOrder]
  | cons key keys => simp [clash?_cons_eq_none_iff, HaveOrder]

/-! ## Kinds of faults -/

/-- A fault of a document is unforeseen exactly if it is none of those that are expected of
documents. -/
theorem Fault.kind_document_eq_unforeseen_iff (fault : Yaml.Fault) :
    (Fault.document fault).kind = .unforeseen ↔ fault.isExpected = false := by
  cases fault <;> simp [kind, Yaml.Fault.isExpected]

/-- The fault of unknown keys is expected if and only if they can be put in order. To list them they
are sorted, and that fails if they have no order. -/
theorem kind_unknownFault_cases (keys : List Value) (source : String) :
    (HaveOrder keys ∧ (unknownFault keys source).kind = .value) ∨
      (¬HaveOrder keys ∧ (unknownFault keys source).kind = .unforeseen) := by
  rw [← clash?_eq_none_iff]
  cases hclash : clash? keys with
  | none =>
    refine .inl ⟨rfl, ?_⟩
    simp only [unknownFault, sortedKeys, hclash]
    split <;> rfl
  | some clash =>
    refine .inr ⟨by simp, ?_⟩
    simp only [unknownFault, sortedKeys, hclash, Fault.kind]

/-! ## Documents -/

/-- The keys of a mapping that are not known. -/
def unknownKeys (pairs : List (Value × Value)) : List Value :=
  (pairs.map (·.1)).filter fun key => !isKnown key

namespace Value

/-- A document that sets known settings only, if it sets any. -/
def IsSettings : Value → Prop
  | .null => True
  | .mapping pairs => ∀ pair ∈ pairs, pair.1 = .text logFileKey
  | _ => False

/-- A mapping with unknown keys that cannot be put in order. -/
def Clashes : Value → Prop
  | .mapping pairs => ¬HaveOrder (unknownKeys pairs)
  | _ => False

/-- The value that a document sets the log file to. -/
def logFile? : Value → Option Value
  | .mapping pairs => pairs.getLast?.map (·.2)
  | _ => none

/-- The settings of a document that is settings. -/
def settings (value : Value) : Settings :=
  match value.logFile? with
  | some chosen => ⟨chosen.asText⟩
  | none => .default

end Value

/-- There is one key that is known, the name of the log file. Any other text and any other kind of
value is unknown. -/
theorem isKnown_iff (key : Value) : isKnown key ↔ key = .text logFileKey := by
  cases key <;> simp [isKnown]

/-- A mapping has no unknown keys exactly if it is settings. It may be empty, or have the known key
more than once. -/
theorem unknownKeys_eq_nil_iff (pairs : List (Value × Value)) :
    unknownKeys pairs = [] ↔ (Value.mapping pairs).IsSettings := by
  simp [unknownKeys, Value.IsSettings, isKnown_iff]

variable {value : Value} {source : String} {settings : Settings} {fault : Fault}
  {pairs : List (Value × Value)}

/-- A mapping of known keys makes settings if what it sets the log file to has a text. If the key is
there more than once, the last one counts. -/
theorem ofPairs_of_isSettings (h : (Value.mapping pairs).IsSettings) :
    ofPairs pairs source =
      if ∀ chosen ∈ (Value.mapping pairs).logFile?, chosen.isWritable
      then .ok (Value.mapping pairs).settings else .error .unwritable := by
  have hkeys : (pairs.map (·.1)).filter (fun key => !isKnown key) = [] :=
    (unknownKeys_eq_nil_iff pairs).2 h
  unfold ofPairs
  rw [hkeys]
  cases hlast : pairs.getLast? <;> simp [Value.logFile?, Value.settings, hlast]

/-- A mapping with an unknown key is at fault, whatever its known keys are set to, and the fault is
about the unknown keys. -/
theorem ofPairs_of_not_isSettings (h : ¬(Value.mapping pairs).IsSettings) :
    ofPairs pairs source = .error (unknownFault (unknownKeys pairs) source) := by
  have hkeys : (pairs.map (·.1)).filter (fun key => !isKnown key) ≠ [] :=
    fun hnil => h ((unknownKeys_eq_nil_iff pairs).1 hnil)
  unfold ofPairs
  split
  · next hnil => exact absurd hnil hkeys
  · rfl

/-- A document makes settings if and only if it is settings and what it sets has a text. An empty
document sets nothing and makes the default ones. -/
theorem ofDocument_eq_ok_iff :
    ofDocument value source = .ok settings ↔
      value.IsSettings ∧ (∀ chosen ∈ value.logFile?, chosen.isWritable) ∧
        value.settings = settings := by
  unfold ofDocument
  split
  · simp [Value.IsSettings, Value.logFile?, Value.settings]
  · next pairs =>
    by_cases hsettings : (Value.mapping pairs).IsSettings
    · rw [ofPairs_of_isSettings hsettings]
      split
      · next hwritable =>
        exact ⟨fun h => ⟨hsettings, hwritable, Except.ok.inj h⟩, fun h => congrArg _ h.2.2⟩
      · next hwritable => exact iff_of_false (by simp) fun h => hwritable h.2.1
    · simp [ofPairs_of_not_isSettings hsettings, hsettings]
  · next hnull hmapping =>
    have hnot : ¬value.IsSettings := by
      cases value with
      | null => exact absurd rfl hnull
      | mapping pairs => exact absurd rfl (hmapping pairs)
      | _ => exact id
    simp [hnot]

/-- A document with unknown keys that clash is no settings, since settings have no unknown keys. -/
theorem Value.Clashes.not_isSettings (h : value.Clashes) : ¬value.IsSettings := by
  cases value with
  | mapping pairs =>
    intro hsettings
    exact h (.inl (by simp [(unknownKeys_eq_nil_iff pairs).2 hsettings]))
  | _ => exact h.elim

/-- A document that makes no settings has a value that is not what it should be, or has unknown keys
without an order. The second is the one case that nobody foresees. -/
theorem kind_of_ofDocument_eq_error (h : ofDocument value source = .error fault) :
    (¬value.Clashes ∧ fault.kind = .value) ∨ (value.Clashes ∧ fault.kind = .unforeseen) := by
  unfold ofDocument at h
  split at h
  · cases h
  · next pairs =>
    by_cases hsettings : (Value.mapping pairs).IsSettings
    · rw [ofPairs_of_isSettings hsettings] at h
      split at h
      · cases h
      · cases h
        exact .inl ⟨fun hclash => hclash.not_isSettings hsettings, rfl⟩
    · rw [ofPairs_of_not_isSettings hsettings] at h
      cases h
      simpa [Value.Clashes] using kind_unknownFault_cases (unknownKeys pairs) source
  · next hmapping =>
    cases h
    refine .inl ⟨?_, rfl⟩
    cases value with
    | mapping pairs => exact absurd rfl (hmapping pairs)
    | _ => exact id

/-! ## Files -/

/-- The file that a run takes its settings from. -/
def Environment.path (environment : Environment) (explicit? : Option String) : String :=
  (environment.requested? explicit?).getD environment.userPath

variable {reader : Reader} {files : FileSystem} {path : String} {environment : Environment}
  {explicit? : Option String}

/-- A file that can be read exists. The path leads to something then, and it has no null
character. -/
theorem fileExists_of_request {content : List UInt8}
    (h : request path (files.contentAt path) = .ok content) : fileExists files path = .ok true := by
  obtain ⟨hnull, hcontent⟩ := request_eq_ok_iff.1 h
  obtain ⟨found, hlocate, -⟩ := exists_of_bind_eq_ok hcontent
  simp only [fileExists, request_eq_ok_iff.2 ⟨hnull, hlocate⟩]

/-- Looking for a file can only fail with a fault of the host. That there is no such file is no
fault here. -/
theorem kind_of_fileExists_eq_error (h : fileExists files path = .error fault) :
    fault.kind = .host := by
  unfold fileExists at h
  split at h
  · cases h
  · cases h
  · split at h
    · cases h
    · cases h
      rfl

/-- What reading a file can come to: the host refuses it, or its content is no text, or the text is
no document, or it has a value. In all cases but the first, the file exists. -/
theorem readFile_cases (reader : Reader) (files : FileSystem) (path : String) :
    (∃ fault, readFile reader files path = .error (.file fault)) ∨
    fileExists files path = .ok true ∧
      ((∃ fault, readFile reader files path = .error (.encoding fault)) ∨
        (∃ fault, readFile reader files path = .error (.document fault)) ∨
        ∃ value, readFile reader files path = .ok value) := by
  cases hrequest : request path (files.contentAt path) with
  | error fault =>
    refine .inl ⟨fault, ?_⟩
    rw [readFile, hrequest]
    rfl
  | ok content =>
    refine .inr ⟨fileExists_of_request hrequest, ?_⟩
    have hread : readFile reader files path = decodeFile content >>= fun text =>
        (reader (Text.unifiedNewlines text)).mapError .document := by
      rw [readFile, hrequest]
      rfl
    rw [decodeFile] at hread
    cases hdecode : Text.Utf8.decode content with
    | error bad =>
      rw [hdecode] at hread
      exact .inl ⟨_, hread⟩
    | ok text =>
      rw [hdecode] at hread
      change readFile reader files path
        = (reader (Text.unifiedNewlines text)).mapError .document at hread
      cases hdocument : reader (Text.unifiedNewlines text) with
      | error bad =>
        rw [hdocument] at hread
        exact .inr (.inl ⟨bad, hread⟩)
      | ok value =>
        rw [hdocument] at hread
        exact .inr (.inr ⟨value, hread⟩)

/-- A file that was not asked for need not exist, and then the default settings are used. A file
that was asked for and is missing is a fault. -/
theorem load_eq (reader : Reader) (files : FileSystem) (environment : Environment)
    (explicit? : Option String) :
    load reader files environment explicit? =
      fileExists files (environment.path explicit?) >>= fun found =>
        if found then ofFile reader files (environment.path explicit?)
        else if environment.requested? explicit? = none then .ok .default
        else .error (.missing (environment.path explicit?)) := by
  unfold load Environment.path
  cases environment.requested? explicit? with
  | none => simp only [Option.getD_none, if_true]; rfl
  | some path => simp only [Option.getD_some, reduceCtorEq, if_false]; rfl

/-- What loading can come to: the host refuses to look for the file, or there is none, or it is
read. If there is none, it depends on whether one was asked for. -/
theorem load_cases (reader : Reader) (files : FileSystem) (environment : Environment)
    (explicit? : Option String) :
    (∃ fault, fault.kind = .host ∧ load reader files environment explicit? = .error fault) ∨
    (fileExists files (environment.path explicit?) = .ok false ∧
      environment.requested? explicit? = none ∧
      load reader files environment explicit? = .ok .default) ∨
    load reader files environment explicit? = .error (.missing (environment.path explicit?)) ∨
    load reader files environment explicit? = ofFile reader files (environment.path explicit?) := by
  rw [load_eq]
  cases hexists : fileExists files (environment.path explicit?) with
  | error fault => exact .inl ⟨fault, kind_of_fileExists_eq_error hexists, rfl⟩
  | ok found =>
    simp only [bind, Except.bind]
    cases found with
    | false =>
      rw [if_neg Bool.false_ne_true]
      split
      · next hnone => exact .inr (.inl ⟨rfl, hnone, rfl⟩)
      · exact .inr (.inr (.inl rfl))
    | true => exact .inr (.inr (.inr (if_pos rfl)))

/-- A file that can be opened is read. It exists then, so it does not matter whether it was asked
for. -/
theorem load_eq_ofFile
    (h : ∀ fault, readFile reader files (environment.path explicit?) ≠ .error (.file fault)) :
    load reader files environment explicit? = ofFile reader files (environment.path explicit?) := by
  rcases readFile_cases reader files (environment.path explicit?) with ⟨fault, hread⟩ | ⟨hexists, -⟩
  · exact absurd hread (h fault)
  · rw [load_eq, hexists]
    simp only [bind, Except.bind, if_true]

/-- If a file has a document, loading comes to what this document makes, for the path that the file
was found at. -/
theorem load_of_readFile (h : readFile reader files (environment.path explicit?) = .ok value) :
    load reader files environment explicit? = ofDocument value (environment.path explicit?) := by
  rw [load_eq_ofFile (by simp [h]), ofFile, h]
  rfl

/-- If the text of a file is no document, loading comes to the fault of the document, whichever the
reader has found. -/
theorem load_of_readFile_document {bad : Yaml.Fault}
    (h : readFile reader files (environment.path explicit?) = .error (.document bad)) :
    load reader files environment explicit? = .error (.document bad) := by
  rw [load_eq_ofFile (by simp [h]), ofFile, h]
  rfl

/-- A run has settings if its file holds some, or if no file was asked for and there is none. This
holds for every reader of documents. -/
theorem load_eq_ok_iff :
    load reader files environment explicit? = .ok settings ↔
      (environment.requested? explicit? = none ∧
        fileExists files (environment.path explicit?) = .ok false ∧ .default = settings) ∨
      ∃ value, readFile reader files (environment.path explicit?) = .ok value ∧ value.IsSettings ∧
        (∀ chosen ∈ value.logFile?, chosen.isWritable) ∧ value.settings = settings := by
  constructor
  · intro h
    rcases load_cases reader files environment explicit? with
      ⟨fault, -, hload⟩ | ⟨hexists, hnone, hload⟩ | hload | hload
    · rw [hload] at h
      cases h
    · rw [hload] at h
      exact .inl ⟨hnone, hexists, Except.ok.inj h⟩
    · rw [hload] at h
      cases h
    · rw [hload] at h
      obtain ⟨value, hread, h⟩ := exists_of_bind_eq_ok h
      exact .inr ⟨value, hread, ofDocument_eq_ok_iff.1 h⟩
  · rintro (⟨hnone, hexists, rfl⟩ | ⟨value, hread, h⟩)
    · rw [load_eq, hexists, if_pos hnone]
      rfl
    · rw [load_of_readFile hread]
      exact ofDocument_eq_ok_iff.2 h

/-- A fault that nobody expects is one of the file and not one of finding it: all faults of finding
it are told. -/
theorem ofFile_of_load_unforeseen (h : load reader files environment explicit? = .error fault)
    (hkind : fault.kind = .unforeseen) :
    ofFile reader files (environment.path explicit?) = .error fault := by
  rcases load_cases reader files environment explicit? with
    ⟨refused, hhost, hload⟩ | ⟨-, -, hload⟩ | hload | hload
  · rw [hload] at h
    cases h
    rw [hhost] at hkind
    cases hkind
  · rw [hload] at h
    cases h
  · rw [hload] at h
    cases h
    cases hkind
  · rwa [hload] at h

/-- Nobody expects the fault of a file if and only if it holds unknown keys without an order, or its
document is at fault in an unexpected way. -/
theorem load_unforeseen_iff :
    (∃ fault, load reader files environment explicit? = .error fault ∧ fault.kind = .unforeseen) ↔
      (∃ value, readFile reader files (environment.path explicit?) = .ok value ∧ value.Clashes) ∨
      ∃ bad, readFile reader files (environment.path explicit?) = .error (.document bad) ∧
        bad.isExpected = false := by
  constructor
  · rintro ⟨fault, h, hkind⟩
    have hfile := ofFile_of_load_unforeseen h hkind
    unfold ofFile at hfile
    rcases readFile_cases reader files (environment.path explicit?) with
      ⟨refused, hread⟩ | ⟨-, ⟨bad, hread⟩ | ⟨bad, hread⟩ | ⟨value, hread⟩⟩
    · rw [hread] at hfile
      cases hfile
      cases refused <;> cases hkind
    · rw [hread] at hfile
      cases hfile
      cases hkind
    · rw [hread] at hfile
      cases hfile
      exact .inr ⟨bad, hread, (Fault.kind_document_eq_unforeseen_iff bad).1 hkind⟩
    · rw [hread] at hfile
      rcases kind_of_ofDocument_eq_error hfile with ⟨-, hvalue⟩ | ⟨hclashes, -⟩
      · rw [hvalue] at hkind
        cases hkind
      · exact .inl ⟨value, hread, hclashes⟩
  · rintro (⟨value, hread, hclashes⟩ | ⟨bad, hread, hbad⟩)
    · rw [load_of_readFile hread]
      cases hdocument : ofDocument value (environment.path explicit?) with
      | ok settings => exact absurd (ofDocument_eq_ok_iff.1 hdocument).1 hclashes.not_isSettings
      | error fault =>
        refine ⟨fault, rfl, ?_⟩
        rcases kind_of_ofDocument_eq_error hdocument with ⟨hnot, -⟩ | ⟨-, hkind⟩
        · exact absurd hclashes hnot
        · exact hkind
    · exact ⟨_, load_of_readFile_document hread, (Fault.kind_document_eq_unforeseen_iff bad).2 hbad⟩

/-- A mapping with an unknown key is a fault, and one of its values if and only if its unknown keys
can be put in order. It is never taken for settings. -/
theorem load_of_unknown
    (hread : readFile reader files (environment.path explicit?) = .ok (.mapping pairs))
    (hunknown : ¬(Value.mapping pairs).IsSettings) :
    ∃ fault, load reader files environment explicit? = .error fault ∧
      (fault.kind = .value ↔ HaveOrder (unknownKeys pairs)) := by
  refine ⟨_, (load_of_readFile hread).trans (ofPairs_of_not_isSettings hunknown), ?_⟩
  rcases kind_unknownFault_cases (unknownKeys pairs) (environment.path explicit?) with
    ⟨horder, hkind⟩ | ⟨horder, hkind⟩
  · exact iff_of_true hkind horder
  · exact iff_of_false (by simp [hkind]) horder

end ActivityScript.Settings
