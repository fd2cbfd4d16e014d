import ActivityScript.Proofs.CommandLine.Checking
import ActivityScript.Proofs.Settings.Verdicts
import ActivityScript.Proofs.Text.Lines
import ActivityScript.Yaml.Reading

/-!
# What comes before a script runs

The settings are loaded and the log is opened before a script of words runs. Either may be at fault.
The program has a handler for the faults that it expects, which tells them in one line and leaves
the world as it was (`Request.Tells`); otherwise the script starts (`Request.Starts`). What no
handler is there for (`Request.MeetsUnhandled`) escapes: unknown keys that cannot be put in order,
faults of a document that are not expected of it, and a log file whose path holds a null character.
The log is opened at the normal form of its path, which has such a character if and only if the path
has one (`Path.mem_toList_normal_iff`).
-/

namespace ActivityScript.Host.Path

variable {c : Char}

/-- The root of a path has slashes only, one or two of them or none. So any other character of a
path is in one of its names. -/
theorem notMem_root (path : String) (hslash : c ≠ '/') : c ∉ (root path).toList := by
  unfold root
  split <;> simp [hslash]

/-- The names that are kept have the same characters as the path, slashes and dots aside. A name
that is left out is empty or a single dot. -/
theorem exists_mem_normalNames_iff (path : String) (hslash : c ≠ '/') (hdot : c ≠ '.') :
    (∃ name ∈ normalNames path, c ∈ name.toList) ↔ c ∈ path.toList := by
  constructor
  · rintro ⟨name, hname, hc⟩
    have hsegment : name ∈ segments path := (List.mem_filter.1 (List.mem_filter.1 hname).1).1
    obtain ⟨piece, hpiece, rfl⟩ := List.mem_map.1 hsegment
    rw [String.toList_ofList] at hc
    exact Text.mem_of_mem_pieces hpiece hc
  · intro hc
    obtain ⟨piece, hpiece, hmem⟩ := Text.exists_mem_pieces hc hslash
    have hname : c ∈ (String.ofList piece).toList := by rwa [String.toList_ofList]
    refine ⟨String.ofList piece, ?_, hname⟩
    -- A name with such a character is kept.
    have hkept : String.ofList piece ≠ "" ∧ String.ofList piece ≠ "." :=
      ⟨fun heq => by simp [heq] at hname, fun heq => by simp [heq, hdot] at hname⟩
    simp only [normalNames, names, List.mem_filter, decide_eq_true_eq]
    exact ⟨⟨List.mem_map_of_mem hpiece, hkept.1⟩, hkept.2⟩

/-- The normal form of a path has the same characters, slashes and dots aside. So a null character
is in the normal form exactly if it is in the path. -/
theorem mem_toList_normal_iff (path : String) (hslash : c ≠ '/') (hdot : c ≠ '.') :
    c ∈ (normal path).toList ↔ c ∈ path.toList := by
  have htext : c ∈ (root path ++ "/".intercalate (normalNames path)).toList ↔ c ∈ path.toList := by
    have hnames : c ∈ ("/".intercalate (normalNames path)).toList ↔ c ∈ path.toList := by
      rw [String.toList_intercalate, ← exists_mem_normalNames_iff path hslash hdot]
      exact (Text.mem_intercalate_iff hslash).trans (by simp)
    rw [String.toList_append, List.mem_append, hnames]
    simp [notMem_root path hslash]
  rw [← htext]
  simp only [normal]
  split
  · next hempty => simp [hempty, hdot]
  · rfl

end ActivityScript.Host.Path

namespace ActivityScript.CommandLine

open Host

/-! ## Logs -/

/-- The log of a run, opened. -/
def openedLog (logFile : String) (world : World) : Except FileFault (Activity.Log × FileSystem) :=
  (Activity.Log.ofPath logFile world.identity).openOn world.files

section Logs

variable {logFile : String} {world : World} {log : Activity.Log} {files : FileSystem}

/-- A log that was opened is open, and so it takes records. There is no log that is opened without a
handle. -/
theorem isOpen_of_openedLog (h : openedLog logFile world = .ok (log, files)) : log.isOpen := by
  obtain ⟨⟨handle, found⟩, -, h⟩ := exists_of_bind_eq_ok h
  cases h
  rfl

/-- A log cannot be opened for a null character exactly if its path has one. The path that is opened
is the normal form, which has it then as well. -/
theorem openedLog_eq_nullInPath_iff :
    openedLog logFile world = .error .nullInPath ↔ '\x00' ∈ logFile.toList := by
  have hrequest : request (Path.normal logFile) (world.files.openAppend (Path.normal logFile))
      = .error .nullInPath ↔ '\x00' ∈ logFile.toList :=
    request_eq_nullInPath_iff.trans (Path.mem_toList_normal_iff logFile (by decide) (by decide))
  rw [← hrequest]
  simp only [openedLog, Activity.Log.openOn, Activity.Log.ofPath]
  cases request (Path.normal logFile) (world.files.openAppend (Path.normal logFile)) <;>
    simp [bind, Except.bind, pure, Except.pure]

end Logs

/-! ## Outcomes -/

/-- The outcome of an execution. -/
def Origin.concluded (origin : Origin) (run : Script.Run Activity.Session) : Outcome :=
  match run.fault? with
  | none => ⟨.ok 0, "", run.state.world⟩
  | some fault => origin.faulted run.state.world fault

/-- Whether a fault of the settings or of a file escapes. -/
def Outcome.escapesEarly (outcome : Outcome) : Bool :=
  match outcome.status with
  | .error (.settings _) | .error (.file _) => true
  | .error (.script _) | .ok _ => false

/-- The excerpt of a script of words is taken from no file, so showing it cannot fail. Hence no
fault of a script escapes as one of files. -/
theorem escapesEarly_faulted_inline (text : String) (world : World) (fault : Script.Fault) :
    ((Origin.inline text).faulted world fault).escapesEarly = false := by
  cases fault <;> rfl

/-- A check of a script of words does not escape with a fault of the settings or of a file: it reads
no file at all. -/
theorem escapesEarly_check_inline (text : String) (verbose : Bool) (world : World) :
    ((Origin.inline text).check verbose world).escapesEarly = false := by
  unfold Origin.check
  split
  · exact escapesEarly_faulted_inline text world _
  · rfl

/-- The end of an execution of words does not escape with a fault of the settings or of a file,
whatever has gone wrong in it. -/
theorem escapesEarly_concluded_inline (text : String) (run : Script.Run Activity.Session) :
    ((Origin.inline text).concluded run).escapesEarly = false := by
  unfold Origin.concluded
  split
  · rfl
  · exact escapesEarly_faulted_inline text _ _

/-! ## Starts -/

section Starts

variable {origin : Origin} {logFile : String} {world : World} {log : Activity.Log}
  {files : FileSystem}

/-- A run with its log open is an execution that is concluded. This is `Origin.run_of_openOn` in the
words of this module. -/
theorem run_of_openedLog (h : openedLog logFile world = .ok (log, files)) :
    origin.run logFile world
      = origin.concluded (origin.execution log { world with files := files }) :=
  Origin.run_of_openOn h

/-- A run whose log file has a null character in its path escapes with this fault. There is no
handler for it. -/
theorem run_of_nullInPath (h : openedLog logFile world = .error .nullInPath) :
    origin.run logFile world = ⟨.error (.file .nullInPath), "", world⟩ := by
  unfold openedLog at h
  simp only [Origin.run, h]

/-- A run whose log cannot be opened tells so in one line, with what the host says, and does not
execute anything. -/
theorem run_of_refused {errno : Errno} {path : String}
    (h : openedLog logFile world = .error (.refused errno path)) :
    origin.run logFile world
      = failed world ("Error: cannot open log file: " ++ (FileFault.refused errno path).text) := by
  unfold openedLog at h
  simp only [Origin.run, h]

end Starts

namespace Request

variable {reader : Settings.Reader} {request : Request} {environment : Settings.Environment}
  {world : World}

/-- The settings of a request. -/
def settings (reader : Settings.Reader) (request : Request) (environment : Settings.Environment)
    (world : World) : Except Settings.Fault Settings :=
  Settings.load reader world.files environment request.config?

/-- With its settings, a script is checked, or executed with its log open. -/
def Starts (reader : Settings.Reader) (request : Request) (origin : Origin)
    (environment : Settings.Environment) (world : World) (outcome : Outcome) : Prop :=
  ∃ settings, request.settings reader environment world = .ok settings ∧
    if request.check then outcome = origin.check request.verbose world
    else ∃ log files, openedLog (request.logFile settings) world = .ok (log, files) ∧ log.isOpen ∧
      outcome = origin.concluded (origin.execution log { world with files := files })

/-- The settings or the log are at fault, and one line tells why. -/
def Tells (reader : Settings.Reader) (request : Request) (environment : Settings.Environment)
    (world : World) (outcome : Outcome) : Prop :=
  (∃ fault, request.settings reader environment world = .error fault ∧
    outcome = failed world ("Error: " ++ fault.text)) ∨
  ∃ settings fault, request.settings reader environment world = .ok settings ∧
    request.check = false ∧ openedLog (request.logFile settings) world = .error fault ∧
    outcome = failed world ("Error: cannot open log file: " ++ fault.text)

/-- What no handler is there for: a fault of the settings that nobody expects, or a log file whose
path cannot be given to the host. -/
def MeetsUnhandled (reader : Settings.Reader) (request : Request)
    (environment : Settings.Environment) (world : World) : Prop :=
  (∃ fault, request.settings reader environment world = .error fault ∧ fault.kind = .unforeseen) ∨
  request.check = false ∧ ∃ settings, request.settings reader environment world = .ok settings ∧
    '\x00' ∈ (request.logFile settings).toList

section Perform

variable {script : String} (hcommand : request.command)
include hcommand

/-- A request whose settings are at fault comes to this fault, before the log is opened and before
the script is read. -/
theorem perform_of_settings_eq_error {fault : Settings.Fault}
    (h : request.settings reader environment world = .error fault) :
    request.perform reader script environment world = settingsFailed world fault := by
  unfold settings at h
  simp only [perform, hcommand, h, Bool.not_true, Bool.false_eq_true, false_and, if_false]

/-- A request with settings starts its script, with the log file that the request or the settings
name. -/
theorem perform_of_settings_eq_ok {settings : Settings}
    (h : request.settings reader environment world = .ok settings) :
    request.perform reader script environment world
      = (Origin.inline (inlineScript (script :: request.arguments))).start request
          (request.logFile settings) world := by
  unfold Request.settings at h
  simp only [perform, hcommand, h, Bool.not_true, Bool.false_eq_true, false_and, if_false, if_true]

/-- A fault escapes before the script runs if and only if no handler is there for it. Otherwise the
script has started, or one line has told the fault. The cases are those of the settings, the check
and the log. -/
theorem perform_cases :
    (request.MeetsUnhandled reader environment world ∧
      (request.perform reader script environment world).escapesEarly = true) ∨
    (¬request.MeetsUnhandled reader environment world ∧
      (request.perform reader script environment world).escapesEarly = false ∧
      (request.Starts reader (.inline (inlineScript (script :: request.arguments))) environment
          world (request.perform reader script environment world) ∨
        request.Tells reader environment world
          (request.perform reader script environment world))) := by
  cases hsettings : request.settings reader environment world with
  | error fault =>
    rw [perform_of_settings_eq_error hcommand hsettings, settingsFailed]
    by_cases hkind : fault.kind = .unforeseen
    · rw [if_pos hkind]
      exact .inl ⟨.inl ⟨fault, hsettings, hkind⟩, rfl⟩
    · rw [if_neg hkind]
      refine .inr ⟨?_, rfl, .inr (.inl ⟨fault, hsettings, rfl⟩)⟩
      simp [MeetsUnhandled, hsettings, hkind]
  | ok settings =>
    rw [perform_of_settings_eq_ok hcommand hsettings, Origin.start]
    cases hcheck : request.check with
    | true =>
      rw [if_pos rfl]
      refine .inr ⟨?_, escapesEarly_check_inline _ _ _, .inl ⟨settings, hsettings, ?_⟩⟩
      · simp [MeetsUnhandled, hsettings, hcheck]
      · rw [if_pos hcheck]
    | false =>
      rw [if_neg Bool.false_ne_true]
      have hunhandled : request.MeetsUnhandled reader environment world ↔
          openedLog (request.logFile settings) world = .error .nullInPath := by
        simp [MeetsUnhandled, hsettings, hcheck, openedLog_eq_nullInPath_iff]
      rw [hunhandled]
      cases hopened : openedLog (request.logFile settings) world with
      | error fault =>
        cases fault with
        | nullInPath =>
          rw [run_of_nullInPath hopened]
          exact .inl ⟨rfl, rfl⟩
        | refused errno path =>
          rw [run_of_refused hopened]
          exact .inr ⟨by simp, rfl, .inr (.inr ⟨settings, _, hsettings, hcheck, hopened, rfl⟩)⟩
      | ok pair =>
        obtain ⟨log, files⟩ := pair
        rw [run_of_openedLog hopened]
        refine .inr ⟨by simp, escapesEarly_concluded_inline _ _, .inl ⟨settings, hsettings, ?_⟩⟩
        rw [if_neg (by simp [hcheck])]
        exact ⟨log, files, hopened, isOpen_of_openedLog hopened, rfl⟩

end Perform

end Request

/-- A command line that asks for a script of words performs this request. What else a command line
can ask for is not looked at here. -/
theorem runProgram_of_script {arguments : List String} {request : Request} {script : String}
    (hread : readCommandLine arguments = .ok (.request request))
    (hscript : request.script? = some script) (reader : Settings.Reader)
    (environment : Settings.Environment) (world : World) :
    runProgram reader arguments environment world
      = request.perform reader script environment world := by
  simp only [runProgram, hread, hscript]

/-- **Settings are used, or their fault is told.** Let a command line ask for a script of words, and
let any reader say which document a text is, or what is wrong with it. There are settings if and
only if their file is empty or a mapping of known keys whose value has a text, or if no file was
asked for and there is none. A mapping with an unknown key is a fault of its values, unless its
unknown keys have no order. Such keys, and faults that are not expected of a document, are the only
faults that nobody foresees. The program then starts the script with its log open, or tells the
fault of its settings or of its log, or a fault escapes; and this happens exactly if nobody foresees
the fault, or if the path of the log file holds a null character. -/
theorem settings_used_or_told {arguments : List String} {request : Request} {script : String}
    (hread : readCommandLine arguments = .ok (.request request))
    (hscript : request.script? = some script) (hcommand : request.command)
    (reader : Settings.Reader) (environment : Settings.Environment) (world : World) :
    (∀ settings, request.settings reader environment world = .ok settings ↔
      (environment.requested? request.config? = none ∧
        Settings.fileExists world.files (environment.path request.config?) = .ok false ∧
        .default = settings) ∨
      ∃ value, Settings.readFile reader world.files (environment.path request.config?) = .ok value ∧
        value.IsSettings ∧ (∀ chosen ∈ value.logFile?, chosen.isWritable) ∧
        value.settings = settings) ∧
    (∀ pairs,
      Settings.readFile reader world.files (environment.path request.config?)
        = .ok (.mapping pairs) →
      ¬(Settings.Value.mapping pairs).IsSettings →
      ∃ fault, request.settings reader environment world = .error fault ∧
        (fault.kind = .value ↔ Settings.HaveOrder (Settings.unknownKeys pairs))) ∧
    ((∃ fault, request.settings reader environment world = .error fault ∧
        fault.kind = .unforeseen) ↔
      (∃ value, Settings.readFile reader world.files (environment.path request.config?)
        = .ok value ∧ value.Clashes) ∨
      ∃ bad,
        Settings.readFile reader world.files (environment.path request.config?)
          = .error (.document bad) ∧ bad.isExpected = false) ∧
    (request.Starts reader (.inline (inlineScript (script :: request.arguments))) environment world
        (runProgram reader arguments environment world) ∨
      request.Tells reader environment world (runProgram reader arguments environment world) ∨
      (runProgram reader arguments environment world).escapesEarly) ∧
    ((runProgram reader arguments environment world).escapesEarly ↔
      (∃ fault, request.settings reader environment world = .error fault ∧
        fault.kind = .unforeseen) ∨
      request.check = false ∧ ∃ settings, request.settings reader environment world = .ok settings ∧
        '\x00' ∈ (request.logFile settings).toList) := by
  refine ⟨fun settings => Settings.load_eq_ok_iff,
    fun pairs hpairs => Settings.load_of_unknown hpairs, Settings.load_unforeseen_iff, ?_⟩
  rw [runProgram_of_script hread hscript]
  rcases Request.perform_cases hcommand with
    ⟨hunhandled, hescapes⟩ | ⟨hhandled, hescapes, hstarts | htells⟩
  · exact ⟨.inr (.inr hescapes), iff_of_true hescapes hunhandled⟩
  · exact ⟨.inl hstarts, iff_of_false (by simp [hescapes]) hhandled⟩
  · exact ⟨.inr (.inl htells), iff_of_false (by simp [hescapes]) hhandled⟩

/-- A world that holds a settings file only. -/
def worldOfSettings (text : String) : World :=
  World.quiet ⟨[(["c"], .file 0 (Text.Utf8.encode text.toList))], [], 1⟩

/-- A misspelled key is told. -/
theorem settings_used_or_told_misspelled :
    let request : Request := ⟨none, some "c", true, false, false, some "print", ["x"]⟩
    let world := worldOfSettings "logfile: x\n"
    let outcome := runProgram Yaml.read ["--config", "c", "-c", "print", "x"] ⟨none, "home"⟩ world
    readCommandLine ["--config", "c", "-c", "print", "x"] = .ok (.request request) ∧
      request.script? = some "print" ∧ request.command ∧
      outcome.escapesEarly = false ∧ request.Tells Yaml.read ⟨none, "home"⟩ world outcome := by
  intro request world outcome
  have hread : readCommandLine ["--config", "c", "-c", "print", "x"] = .ok (.request request) := by
    decide +kernel
  have hkind : (request.settings Yaml.read ⟨none, "home"⟩ world).mapError Settings.Fault.kind
      = .error .value := by
    decide +kernel
  obtain ⟨-, -, -, hcases, hescapes⟩ :=
    settings_used_or_told hread rfl rfl Yaml.read ⟨none, "home"⟩ world
  cases hsettings : request.settings Yaml.read ⟨none, "home"⟩ world with
  | ok settings =>
    rw [hsettings] at hkind
    cases hkind
  | error fault =>
    rw [hsettings] at hkind hescapes
    have hvalue : fault.kind = .value := Except.error.inj hkind
    have hquiet : outcome.escapesEarly = false := by
      simpa [hvalue] using hescapes
    refine ⟨hread, rfl, rfl, hquiet, ?_⟩
    rcases hcases with ⟨settings, hok, -⟩ | htells | hearly
    · rw [hsettings] at hok
      cases hok
    · exact htells
    · exact absurd hearly (Bool.eq_false_iff.1 hquiet)

/-- Unknown keys without an order escape, and so does a log file with a null character in its
path. -/
theorem settings_escape :
    let request : Request := ⟨none, some "c", true, false, false, some "print", ["x"]⟩
    let days := worldOfSettings "2001-01-01: a\n2001-01-01 00:00:00: b\n"
    let null := worldOfSettings "log_file: \"a\\0b\"\n"
    let program := runProgram Yaml.read ["--config", "c", "-c", "print", "x"] ⟨none, "home"⟩
    (request.settings Yaml.read ⟨none, "home"⟩ days).mapError Settings.Fault.kind
        = .error .unforeseen ∧
      (program days).escapesEarly ∧
      (request.settings Yaml.read ⟨none, "home"⟩ null).toOption = some ⟨"a\x00b"⟩ ∧
      (program null).escapesEarly := by
  decide +kernel

end ActivityScript.CommandLine
