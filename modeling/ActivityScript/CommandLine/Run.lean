import ActivityScript.CommandLine.Help
import ActivityScript.CommandLine.Inline
import ActivityScript.CommandLine.Request
import ActivityScript.Script.FileExcerpt
import ActivityScript.Script.Outline
import ActivityScript.Settings.Loading

/-!
# The program

From a command line to what it does: the settings are loaded first, then the script is opened, then
the log, and only then the script runs. Checking a script reads all of it and runs nothing. Faults
of the script are shown with an excerpt; faults of files are told in one line, and so are lines of a
script file that are no text. Whatever else goes wrong escapes. The reader of the settings file is
an argument of the program.
-/

namespace ActivityScript.CommandLine

open Host

/-- Faults that the program does not handle. -/
inductive Escape where
  | file (fault : FileFault)
  | script (fault : Script.Fault)
  | settings (fault : Settings.Fault)

/-- An escaped fault in words. -/
def Escape.text : Escape → String
  | .file fault => fault.text
  | .script fault => fault.text
  | .settings fault => fault.text

/-- What a run of the program leaves: its exit status or the fault that escaped, what it wrote to
the error output, and the world, which has what it printed. -/
structure Outcome where
  status : Except Escape Nat
  errors : String
  world : World

/-- The world after printing a text. -/
def printed (world : World) (text : String) : World :=
  { world with printed := world.printed ++ text }

/-- A failure that is told on the error output. -/
def failed (world : World) (message : String) : Outcome := ⟨.ok 1, message ++ "\n", world⟩

/-- Where a script comes from. -/
inductive Origin where
  | inline (text : String)
  | file (path : String) (content : List UInt8)

namespace Origin

/-- The script as a source. -/
def source : Origin → Script.Source
  | .inline text => .text text
  | .file _ content => .byteStream content

/-- The file name in locations. -/
def file? : Origin → Option String
  | .inline _ => none
  | .file path _ => some path

/-- The name under which a script is told to be in order. -/
def name : Origin → String
  | .inline _ => Script.inlineName
  | .file path _ => Path.lastName path

/-- A report about the script, with the line at fault. -/
def excerpt (files : FileSystem) (report : Script.Report) : Origin → Except FileFault String
  | .inline text => .ok (report.excerptOfText text)
  | .file path _ => report.excerptOfFile files path

/-- The end of a run at a fault. What the script did wrong is shown; everything else escapes. -/
def faulted (origin : Origin) (world : World) (fault : Script.Fault) : Outcome :=
  match fault with
  | .script diagnostic =>
    match origin.excerpt world.files diagnostic.report with
    | .ok text => failed world text
    | .error fault => ⟨.error (.file fault), "", world⟩
  | fault => ⟨.error (.script fault), "", world⟩

/-- What is told about a script in order. -/
def summary (origin : Origin) (verbose : Bool)
    (program : List (Script.Node (Script.Native Activity.Session))) : String :=
  let line := "OK: " ++ origin.name ++ " - " ++ toString program.length ++ " statement(s)\n"
  let outline := (Script.outline program).toOption.getD ""
  if verbose ∧ program ≠ [] then line ++ outline ++ "\n" else line

/-- Reads a script without running it. -/
def check (origin : Origin) (verbose : Bool) (world : World) : Outcome :=
  match Script.read Activity.natives origin.source origin.file? with
  | .error fault => origin.faulted world fault.toFault
  | .ok program => ⟨.ok 0, "", printed world (origin.summary verbose program)⟩

/-- Executes a script with an open log. -/
def execution (origin : Origin) (log : Activity.Log) (world : World) :
    Script.Run Activity.Session :=
  Script.execute Activity.natives origin.source origin.file? .empty ⟨world, .log log⟩

/-- Runs a script with a log. -/
def run (origin : Origin) (logFile : String) (world : World) : Outcome :=
  match (Activity.Log.ofPath logFile world.identity).openOn world.files with
  | .error .nullInPath => ⟨.error (.file .nullInPath), "", world⟩
  | .error fault => failed world ("Error: cannot open log file: " ++ fault.text)
  | .ok (log, files) =>
    let run := origin.execution log { world with files := files }
    match run.fault? with
    | none => ⟨.ok 0, "", run.state.world⟩
    | some fault => origin.faulted run.state.world fault

/-- Checks or runs a script. -/
def start (origin : Origin) (request : Request) (logFile : String) (world : World) : Outcome :=
  if request.check then origin.check request.verbose world else origin.run logFile world

end Origin

/-- The outcome for the script in a file: a line that is no text is told. -/
def Outcome.tellingEncoding (outcome : Outcome) : Outcome :=
  match outcome.status with
  | .error (.script (.encoding bad)) =>
    ⟨.ok 1, outcome.errors ++ "Error: " ++ bad.text ++ "\n", outcome.world⟩
  | _ => outcome

/-- The log file of a run: a flag that names one wins over the settings. -/
def Request.logFile (request : Request) (settings : Settings) : String :=
  match request.logFile? with
  | some path => if path = "" then settings.logFile else path
  | none => settings.logFile

/-- The end of a run at a fault of the settings. What nobody expects escapes. -/
def settingsFailed (world : World) (fault : Settings.Fault) : Outcome :=
  if fault.kind = .unforeseen then ⟨.error (.settings fault), "", world⟩
  else failed world ("Error: " ++ fault.text)

/-- Does what a request with a script asks for. -/
def Request.perform (reader : Settings.Reader) (request : Request) (script : String)
    (environment : Settings.Environment) (world : World) : Outcome :=
  if !request.command ∧ request.arguments ≠ [] then
    ⟨.ok 2, (UsageFault.unexpected request.arguments).report, world⟩
  else
    match Settings.load reader world.files environment request.config? with
    | .error fault => settingsFailed world fault
    | .ok settings =>
      let logFile := request.logFile settings
      if request.command then
        (Origin.inline (inlineScript (script :: request.arguments))).start request logFile world
      else
        match Host.request script (world.files.contentAt script) with
        | .ok content =>
          ((Origin.file script content).start request logFile world).tellingEncoding
        | .error .nullInPath => ⟨.error (.file .nullInPath), "", world⟩
        | .error fault => failed world ("Error: " ++ fault.text)

/-- Runs the program. -/
def runProgram (reader : Settings.Reader) (arguments : List String)
    (environment : Settings.Environment) (world : World) : Outcome :=
  match readCommandLine arguments with
  | .error fault => ⟨.ok 2, fault.report, world⟩
  | .ok .help => ⟨.ok 0, "", printed world helpText⟩
  | .ok (.request request) =>
    match request.script? with
    | none => ⟨.ok 1, "", printed world helpText⟩
    | some script => request.perform reader script environment world

end ActivityScript.CommandLine
