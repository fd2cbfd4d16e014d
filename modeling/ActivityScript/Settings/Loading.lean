import ActivityScript.Host.Files
import ActivityScript.Settings.Basic
import ActivityScript.Text.Lines

/-!
# Loading settings

The settings file is the one that was asked for, or else the one that the environment names, or else
the one in the home directory. The last need not exist.

How a document is read from its text is not a matter of settings: the reader is an argument of
everything that reads a file.
-/

namespace ActivityScript.Settings

open Host

/-- What the environment of a run says about settings. -/
structure Environment where
  configured? : Option String
  home : String
  deriving DecidableEq, Repr

/-- The settings file in the home directory. -/
def Environment.userPath (environment : Environment) : String :=
  Path.join (Path.normal environment.home) ".config/edrtest/config.yaml"

/-- The settings file that must be used, if there is one. -/
def Environment.requested? (environment : Environment) (explicit? : Option String) :
    Option String :=
  match explicit? with
  | some path => some (Path.normal path)
  | none => (environment.configured?.filter (· ≠ "")).map Path.normal

/-- Whether there is something at a path. A path that cannot lead anywhere leads to nothing. -/
def fileExists (files : FileSystem) (path : String) : Except Fault Bool :=
  match request path (files.locate path) with
  | .ok _ => .ok true
  | .error .nullInPath => .ok false
  | .error (.refused errno p) =>
    if errno = .noEntry ∨ errno = .notDirectory ∨ errno = .tooManyLinks then .ok false
    else .error (.file (.refused errno p))

/-- The characters of a file. A sequence that the file ends in is counted from its own beginning. -/
def decodeFile (content : List UInt8) : Except Fault (List Char) :=
  (Text.Utf8.decode content).mapError fun fault =>
    .encoding (if fault.reason = .unexpectedEnd then { fault with start := 0 } else fault)

/-- A reader of documents: it gives the value that a text writes, or says what is wrong with it. -/
abbrev Reader := List Char → Except Yaml.Fault Value

/-- The document in a file. -/
def readFile (reader : Reader) (files : FileSystem) (path : String) : Except Fault Value := do
  let content ← (request path (files.contentAt path)).mapError .file
  let text ← decodeFile content
  (reader (Text.unifiedNewlines text)).mapError .document

/-- The settings in a file. -/
def ofFile (reader : Reader) (files : FileSystem) (path : String) : Except Fault Settings := do
  ofDocument (← readFile reader files path) path

/-- The settings of a run. -/
def load (reader : Reader) (files : FileSystem) (environment : Environment)
    (explicit? : Option String) : Except Fault Settings := do
  match environment.requested? explicit? with
  | some path =>
    if ← fileExists files path then ofFile reader files path else throw (.missing path)
  | none =>
    let path := environment.userPath
    if ← fileExists files path then ofFile reader files path else return .default

end ActivityScript.Settings
