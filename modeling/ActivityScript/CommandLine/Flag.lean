import ActivityScript.Text.Digit
import ActivityScript.Text.Quoted

/-!
# Words of a command line

A word that begins with a hyphen may be a flag: in full, as the beginning of one long flag only, or
as several short flags joined. A value may follow in the same word, right after a short flag or
after an equals sign; the sign is dropped after the first flag of a word only. Words after two
hyphens are never flags, nor are single hyphens, negative numbers and unknown words with a blank.
-/

namespace ActivityScript.CommandLine

/-- The flags. -/
inductive Flag where
  | help
  | logFile
  | command
  | config
  | check
  | verbose
  deriving DecidableEq, Repr

/-- All ways to write a flag. -/
def spellings : List (String × Flag) :=
  [("-h", .help), ("--help", .help), ("-l", .logFile), ("--log-file", .logFile),
   ("-c", .command), ("--command", .command), ("--config", .config), ("--check", .check),
   ("-v", .verbose), ("--verbose", .verbose)]

/-- Whether a value belongs to a flag. -/
def Flag.takesValue : Flag → Bool
  | .logFile | .config => true
  | _ => false

/-- A flag as it is named in faults. -/
def Flag.title (flag : Flag) : String :=
  "/".intercalate ((spellings.filter fun entry => entry.2 = flag).map (·.1))

/-- Faults of a command line. -/
inductive UsageFault where
  /-- A word that is the beginning of several flags. -/
  | ambiguous (word : String) (candidates : List String)
  /-- A flag without its value. -/
  | valueMissing (flag : Flag)
  /-- A flag with a value it does not take. -/
  | valueIgnored (flag : Flag) (value : String)
  | unrecognized (words : List String)
  /-- Words after a script file. -/
  | unexpected (words : List String)
  deriving DecidableEq, Repr

/-- A fault in words. -/
def UsageFault.message : UsageFault → String
  | .ambiguous word candidates =>
    "ambiguous option: " ++ word ++ " could match " ++ ", ".intercalate candidates
  | .valueMissing flag => "argument " ++ flag.title ++ ": expected one argument"
  | .valueIgnored flag value =>
    "argument " ++ flag.title ++ ": ignored explicit argument " ++ Text.quoted value
  | .unrecognized words => "unrecognized arguments: " ++ " ".intercalate words
  | .unexpected words =>
    "unexpected arguments after script file: " ++ " ".intercalate words

/-- What a word is. -/
inductive Role where
  | plain
  /-- Two hyphens, after which all words are plain. -/
  | divider
  /-- A flag, with what follows it in the same word: a value, or further short flags. -/
  | flag (flag : Flag) (long : Bool) (joined? : Option (List Char))
  | unknown
  deriving DecidableEq, Repr

/-- A word with its role. -/
structure Word where
  text : String
  role : Role
  deriving DecidableEq, Repr

/-- Whether a character is a decimal digit of any script. -/
def isDecimal (c : Char) : Bool := (Text.digitValue? c).isSome

/-- Whether digits have at most one point among them and end in a digit. -/
def isNumber (text : List Char) : Bool :=
  match text.dropWhile isDecimal with
  | [] => text ≠ []
  | '.' :: digits => digits ≠ [] && digits.all isDecimal
  | _ => false

/-- Whether a word is a negative number; a line feed after it does not matter. -/
def isNegativeNumber : List Char → Bool
  | '-' :: cs => isNumber (if cs.getLast? = some '\n' then cs.dropLast else cs)
  | _ => false

/-- The text before the first equals sign, and the text after it if there is one. -/
def splitEquals (word : List Char) : List Char × Option (List Char) :=
  match word.dropWhile (· ≠ '=') with
  | [] => (word, none)
  | _ :: value => (word.takeWhile (· ≠ '='), some value)

/-- The flag with a spelling. -/
def flagOf? (spelling : List Char) : Option Flag := spellings.lookup (String.ofList spelling)

/-- The long flags that begin with a text. -/
def completions (lead : List Char) : List (String × Flag) :=
  spellings.filter fun entry => lead.isPrefixOf entry.1.toList

/-- The role of a word that is no flag: plain, or a flag that does not exist. -/
def roleOfOther (word : List Char) : Role :=
  if isNegativeNumber word || word.contains ' ' then .plain else .unknown

/-- The role of a word that begins with a hyphen, has more characters, and is no flag in full. -/
def roleOfPartial (word : List Char) : Except UsageFault Role :=
  let (lead, value?) := splitEquals word
  let long := word[1]? = some '-'
  match if value?.isSome then flagOf? lead else none with
  | some flag => .ok (.flag flag long value?)
  | none =>
    if long then
      match completions lead with
      | [] => .ok (roleOfOther word)
      | [(_, flag)] => .ok (.flag flag true value?)
      | several => .error (.ambiguous (String.ofList word) (several.map (·.1)))
    else
      match flagOf? (word.take 2) with
      | some flag => .ok (.flag flag false (some (word.drop 2)))
      | none => .ok (roleOfOther word)

/-- The role of a word before the divider. -/
def roleOf (word : String) : Except UsageFault Role :=
  let chars := word.toList
  match flagOf? chars with
  | some flag => .ok (.flag flag (chars[1]? = some '-') none)
  | none => if chars.head? = some '-' ∧ 1 < chars.length then roleOfPartial chars else .ok .plain

/-- The words of a command line with their roles. -/
def classify : List String → Except UsageFault (List Word)
  | [] => .ok []
  | word :: words =>
    if word = "--" then .ok (⟨word, .divider⟩ :: words.map fun text => ⟨text, .plain⟩)
    else do
      let role ← roleOf word
      let rest ← classify words
      return ⟨word, role⟩ :: rest

end ActivityScript.CommandLine
