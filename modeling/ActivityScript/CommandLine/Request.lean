import ActivityScript.CommandLine.Flag

/-!
# Requests

What a command line asks for. Flags come first; the first other word is the script, and all words
after it belong to the script, flags or not. A divider beside the script is dropped. The words are
texts of Unicode scalar values: words that are no text in the encoding of the host, which would have
lone surrogates in them, are outside of what is modelled.
-/

namespace ActivityScript.CommandLine

/-- What a command line asks for. -/
structure Request where
  logFile? : Option String
  config? : Option String
  command : Bool
  check : Bool
  verbose : Bool
  script? : Option String
  arguments : List String
  deriving DecidableEq, Repr

/-- A request without any flag. -/
def Request.empty : Request := ⟨none, none, false, false, false, none, []⟩

/-- A command line asks for help or for something else. -/
inductive Reading where
  | help
  | request (request : Request)
  deriving DecidableEq, Repr

/-- A request with one more flag; none if it asks for help. -/
def Request.withFlag (request : Request) (flag : Flag) (value : String) : Option Request :=
  match flag with
  | .help => none
  | .logFile => some { request with logFile? := some value }
  | .config => some { request with config? := some value }
  | .command => some { request with command := true }
  | .check => some { request with check := true }
  | .verbose => some { request with verbose := true }

/-- A request with more flags, in order. -/
def Request.withFlags (request : Request) : List (Flag × String) → Option Request
  | [] => some request
  | (flag, value) :: flags =>
    match request.withFlag flag value with
    | some request => request.withFlags flags
    | none => none

/-- The flags of one word. -/
structure WordFlags where
  /-- Flags with their values. -/
  settled : List (Flag × String)
  /-- A last flag, whose value, if it takes one, is the next word. -/
  last? : Option Flag
  deriving DecidableEq, Repr

/-- Flags with one more in front. -/
def WordFlags.cons (flag : Flag) (flags : WordFlags) : WordFlags :=
  { flags with settled := (flag, "") :: flags.settled }

/-- The flags of a word after its short flag `flag`: a value, or further short flags. What is
neither is a value that the flag does not take. -/
def joinedFlags (flag : Flag) : List Char → Except UsageFault WordFlags
  | [] => if flag.takesValue then .ok ⟨[(flag, "")], none⟩ else .error (.valueIgnored flag "")
  | c :: cs =>
    if flag.takesValue then .ok ⟨[(flag, String.ofList (c :: cs))], none⟩
    else
      match flagOf? ['-', c] with
      | none => .error (.valueIgnored flag (String.ofList (c :: cs)))
      | some next =>
        match cs with
        | [] => .ok ⟨[(flag, "")], some next⟩
        | d :: ds => (joinedFlags next (d :: ds)).map (WordFlags.cons flag)

/-- The flags of a word. -/
def wordFlags (flag : Flag) (long : Bool) (joined? : Option (List Char)) :
    Except UsageFault WordFlags :=
  match joined? with
  | none => .ok ⟨[], some flag⟩
  | some joined =>
    if long && !flag.takesValue then .error (.valueIgnored flag (String.ofList joined))
    else joinedFlags flag joined

/-- The words that hold the script, and those after it. -/
def splitScript : List Word → List String × List String
  | ⟨a, .divider⟩ :: ⟨b, .plain⟩ :: rest => ([a, b], rest.map (·.text))
  | ⟨a, .plain⟩ :: ⟨b, .divider⟩ :: rest => ([a, b], rest.map (·.text))
  | ⟨a, _⟩ :: rest => ([a], rest.map (·.text))
  | [] => ([], [])

/-- A request with its script, at the first word that is no flag; `unknown` holds the words before
it that are not recognized. -/
def Request.finish (request : Request) (unknown : List String) (words : List Word) :
    Except UsageFault Reading :=
  let (group, arguments) := splitScript words
  if unknown ≠ [] then .error (.unrecognized unknown)
  else .ok (.request { request with script? := (group.erase "--").head?, arguments := arguments })

/-- Reads words from the left. -/
def Request.read (request : Request) (unknown : List String) :
    List Word → Except UsageFault Reading
  | [] => request.finish unknown []
  | word :: words =>
    match word.role with
    | .plain | .divider => request.finish unknown (word :: words)
    | .unknown => request.read (unknown ++ [word.text]) words
    | .flag flag long joined? =>
      match wordFlags flag long joined? with
      | .error fault => .error fault
      | .ok flags =>
        match flags.last? with
        | none =>
          match request.withFlags flags.settled with
          | some request => request.read unknown words
          | none => .ok .help
        | some last =>
          if last.takesValue then
            match words with
            | ⟨value, .plain⟩ :: words =>
              match request.withFlags (flags.settled ++ [(last, value)]) with
              | some request => request.read unknown words
              | none => .ok .help
            | _ => .error (.valueMissing last)
          else
            match request.withFlags (flags.settled ++ [(last, "")]) with
            | some request => request.read unknown words
            | none => .ok .help

/-- What a command line asks for. -/
def readCommandLine (arguments : List String) : Except UsageFault Reading := do
  Request.empty.read [] (← classify arguments)

end ActivityScript.CommandLine
