import ActivityScript.Host.Errno
import ActivityScript.Settings.KeyOrder
import ActivityScript.Text.Utf8
import ActivityScript.Yaml.Fault

/-!
# Settings

The settings of a run, and how they are taken from a mapping. A mapping may only have known keys;
the unknown ones are listed in order, if they have one.
-/

namespace ActivityScript

/-- The settings of a run. -/
structure Settings where
  logFile : String
  deriving DecidableEq, Repr

namespace Settings

/-- The log file if no other is set. -/
def defaultLogFile : String := "activity.log"

/-- The settings if nothing is set. -/
def default : Settings := ⟨defaultLogFile⟩

/-- The key of the log file. -/
def logFileKey : String := "log_file"

/-- Why there are no settings. -/
inductive Fault where
  /-- A file that was asked for does not exist. -/
  | missing (path : String)
  | file (fault : Host.FileFault)
  | encoding (fault : Text.Utf8.Fault)
  | document (fault : Yaml.Fault)
  /-- The document is not a mapping. -/
  | notMapping (path : String)
  | unknown (keys : List Value) (source : String)
  /-- Unknown keys that cannot be put in order. -/
  | unordered (clash : KeyClash)
  /-- A value or a key that has no text. -/
  | unwritable

/-- A fault in words. -/
def Fault.text : Fault → String
  | .missing path => "config file not found: " ++ path
  | .file fault => fault.text
  | .encoding fault => fault.text
  | .document fault => fault.text
  | .notMapping path => "Invalid config format in " ++ path ++ ": expected mapping at root"
  | .unknown keys source =>
    "Unknown setting(s) " ++ (Value.list keys).quoted ++ " in " ++ source ++ ". Expected: "
      ++ (Value.list [.text logFileKey]).quoted
  | .unordered clash => clash.text
  | .unwritable => Text.tooLongToWrite

/-- The kinds of faults in which settings can end. -/
inductive FaultKind where
  /-- The file does not exist. -/
  | missing
  /-- The host refuses to open the file. -/
  | host
  /-- The document is not well formed. -/
  | form
  /-- A value, in the document or in what leads to it, is not what it should be. -/
  | value
  /-- Anything else, which nobody expects. -/
  | unforeseen
  deriving DecidableEq, Repr

/-- The kind of a fault. Unknown keys without an order are not foreseen, nor are faults that are not
expected of a document. -/
def Fault.kind : Fault → FaultKind
  | .missing _ => .missing
  | .file (.refused _ _) => .host
  | .document .malformed => .form
  | .document fault => if fault.isExpected then .value else .unforeseen
  | .unordered _ => .unforeseen
  | .file .nullInPath | .encoding _ | .notMapping _ | .unknown _ _ | .unwritable => .value

/-- The fault of a mapping with unknown keys. -/
def unknownFault (keys : List Value) (source : String) : Fault :=
  match sortedKeys keys with
  | .error clash => .unordered clash
  | .ok sorted => if sorted.all Value.isWritable then .unknown sorted source else .unwritable

/-- Whether a key is known. -/
def isKnown : Value → Bool
  | .text key => key = logFileKey
  | _ => false

/-- The settings of a mapping with keys that stand once; `source` names it in faults. -/
def ofPairs (pairs : List (Value × Value)) (source : String) : Except Fault Settings :=
  match (pairs.map (·.1)).filter fun key => !isKnown key with
  | [] =>
    match pairs.getLast? with
    | some (_, value) => if value.isWritable then .ok ⟨value.asText⟩ else .error .unwritable
    | none => .ok .default
  | keys => .error (unknownFault keys source)

/-- The settings of a document; an empty one sets nothing. -/
def ofDocument (value : Value) (source : String) : Except Fault Settings :=
  match value with
  | .null => .ok .default
  | .mapping pairs => ofPairs pairs source
  | _ => .error (.notMapping source)

end Settings

end ActivityScript
