import ActivityScript.Settings.Calendar
import ActivityScript.Text.Number

/-!
# Faults of documents

Most faults of a document only say that it is not well formed. Those of a single scalar say more. Of
several faults the one that is met first counts, so they are told apart as far as it can be seen.
-/

namespace ActivityScript.Yaml

/-- Why a document has no value. -/
inductive Fault where
  | malformed
  /-- An escape for a code point that does not exist. -/
  | codePoint
  /-- An escape for a number that does not even fit into 31 bits. -/
  | codeOverflow
  | number (fault : Text.NumberFault)
  /-- A text that writes no number with a point. -/
  | real (text : String)
  /-- A number in base sixty with a point and with too many parts. -/
  | realOverflow
  /-- A number without any character. -/
  | emptyNumber
  /-- A word that is no truth value. -/
  | truth (word : String)
  | calendar (fault : Settings.CalendarFault)
  /-- A text that writes neither a date nor a time. -/
  | timestamp
  /-- A mapping that had to be a date or a time. -/
  | mappedTimestamp
  /-- What a reader does not cope with, in its own words. -/
  | unsupported (reason : String)
  deriving DecidableEq, Repr

/-- A fault in words. -/
def Fault.text : Fault → String
  | .malformed => "the document is not well formed"
  | .codePoint => "chr() arg not in range(0x110000)"
  | .codeOverflow => "Python int too large to convert to C int"
  | .number fault => fault.text
  | .real text => "could not convert string to float: " ++ Text.quoted text
  | .realOverflow => "int too large to convert to float"
  | .emptyNumber => "string index out of range"
  | .truth word => Text.quoted word
  | .calendar fault => fault.text
  | .timestamp => "'NoneType' object has no attribute 'groupdict'"
  | .mappedTimestamp => "expected string or bytes-like object, got 'list'"
  | .unsupported reason => reason

/-- Whether a fault is one that is expected of a document, and not of the work on it. -/
def Fault.isExpected : Fault → Bool
  | .malformed | .codePoint | .number _ | .real _ | .calendar _ => true
  | _ => false

end ActivityScript.Yaml
