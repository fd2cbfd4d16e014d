import ActivityScript.CommandLine.Run
import ActivityScript.Proofs.Host.Conversations
import ActivityScript.Proofs.Host.NewFiles
import ActivityScript.Proofs.Script.Phases

/-!
# Checking and running

A check reads a script and runs nothing; a run opens its log, reads the script and then runs it.
Both come to the same verdict on the script (`check_agrees_with_run`). That both show the same
excerpt is not obvious, because the excerpt is looked up in the file system and the run has opened a
log meanwhile: the log may be a file that was missing, even the one the excerpt is taken from. But
a file that was just made has no lines to show (`excerpt_of_touched`).
-/

namespace ActivityScript.CommandLine

open Host

/-! ## Excerpts -/

/-- Opening a log makes an empty file at most, and changes nothing else. A log that is open already
does not even look at the files. -/
theorem touched_of_openOn {log opened : Activity.Log} {files after : FileSystem}
    (h : log.openOn files = .ok (opened, after)) : files.Touched after := by
  unfold Activity.Log.openOn at h
  split at h
  · cases h
    exact .inl rfl
  · obtain ⟨⟨handle, found⟩, hrequest, h⟩ := exists_of_bind_eq_ok h
    cases h
    exact FileSystem.touched_of_openAppend (request_eq_ok_iff.1 hrequest).2

/-- The line that a report shows is the one that the file at the path has now. A file that cannot be
read has no line, and only a null character in the path is an error. -/
theorem excerptOfFile_eq (report : Script.Report) (files : FileSystem) (path : String) :
    report.excerptOfFile files path =
      if path.toList.contains '\x00' then .error .nullInPath
      else .ok (report.excerpt path
        ((files.contentAt path).toOption.bind (Script.lineOfBytes? · report.location.line))) := by
  unfold Script.Report.excerptOfFile Script.lineOfFile request
  by_cases hnull : path.toList.contains '\x00'
  · rw [if_pos hnull, if_pos hnull]
    rfl
  · rw [if_neg hnull, if_neg hnull]
    cases files.contentAt path <;> rfl

namespace Origin

variable {origin : Origin} {world : World} {files : FileSystem} {log : Activity.Log}
  {logFile : String}

/-- A file that was just made has no line to show, so the excerpt is the same before and after a log
was opened. This is also so if the log is the file of the script. -/
theorem excerpt_of_touched {after : FileSystem} (h : files.Touched after) (report : Script.Report)
    (origin : Origin) : origin.excerpt after report = origin.excerpt files report := by
  cases origin with
  | inline text => rfl
  | file path content =>
    rw [excerpt, excerpt, excerptOfFile_eq, excerptOfFile_eq]
    rcases h.contentAt path with heq | ⟨hbefore, hafter⟩
    · rw [heq]
    · have hempty : Script.lineOfBytes? [] report.location.line = none := rfl
      rw [hbefore, hafter, Except.toOption, Option.bind_some, hempty, Option.bind_none]

/-- The path of a script's file can be given to the host. -/
def HasPath : Origin → Prop
  | .inline _ => True
  | .file path _ => '\x00' ∉ path.toList

/-- There is always an excerpt to show if the path can be given to the host. It may have no line in
it, but the words of the report are there. -/
theorem HasPath.exists_excerpt (h : origin.HasPath) (files : FileSystem) (report : Script.Report) :
    ∃ text, origin.excerpt files report = .ok text := by
  cases origin with
  | inline text => exact ⟨_, rfl⟩
  | file path content =>
    rw [excerpt, excerptOfFile_eq, if_neg (by simpa [HasPath] using h)]
    exact ⟨_, rfl⟩

/-! ## Outcomes -/

/-- What a check can come to: the script has a problem, or a line that is no text, or is in order.
Only the first fails with status 1, and only the last prints something. -/
theorem check_cases (verbose : Bool) (h : origin.HasPath) (world : World) :
    (∃ diagnostic text,
      Script.read Activity.natives origin.source origin.file? = .error (.script diagnostic) ∧
      origin.excerpt world.files diagnostic.report = .ok text ∧
      origin.check verbose world = failed world text) ∨
    (∃ bad, Script.read Activity.natives origin.source origin.file? = .error (.encoding bad) ∧
      origin.check verbose world = ⟨.error (.script (.encoding bad)), "", world⟩) ∨
    ∃ program, Script.read Activity.natives origin.source origin.file? = .ok program ∧
      origin.check verbose world
        = ⟨.ok 0, "", printed world (origin.summary verbose program)⟩ := by
  rw [check]
  cases Script.read Activity.natives origin.source origin.file? with
  | ok program => exact .inr (.inr ⟨program, rfl, rfl⟩)
  | error fault =>
    cases fault with
    | encoding bad => exact .inr (.inl ⟨bad, rfl, rfl⟩)
    | script diagnostic =>
      obtain ⟨text, htext⟩ := h.exists_excerpt world.files diagnostic.report
      refine .inl ⟨diagnostic, text, rfl, htext, ?_⟩
      simp only [Script.ReadFault.toFault, faulted, htext]

/-- A line that is no text escapes with its own fault, and nothing else does so: problems of a
script are shown, and other faults escape as what they are. -/
theorem status_faulted_eq_encoding_iff {fault : Script.Fault} {bad : Text.Utf8.Fault} :
    (origin.faulted world fault).status = .error (.script (.encoding bad)) ↔
      fault = .encoding bad := by
  cases fault with
  | script diagnostic =>
    rw [faulted]
    split <;> simp [failed]
  | encoding found => simp [faulted]
  | notEvaluable kind => simp [faulted]
  | crashed crash => simp [faulted]

section Running

variable (hopen : (Activity.Log.ofPath logFile world.identity).openOn world.files
  = .ok (log, files))
include hopen

/-- What a run comes to once its log is open: its execution decides, and a fault is told in the
world that the execution has left. -/
theorem run_of_openOn :
    origin.run logFile world =
      match (origin.execution log { world with files := files }).fault? with
      | none => ⟨.ok 0, "", (origin.execution log { world with files := files }).state.world⟩
      | some fault =>
        origin.faulted (origin.execution log { world with files := files }).state.world fault := by
  cases hfault : (origin.execution log { world with files := files }).fault? <;>
    simp only [run, hopen, hfault]

/-- A run tells the problem that keeps a script from being read as a check does. The excerpt is the
same although the log was opened meanwhile (`excerpt_of_touched`). -/
theorem run_of_problem {diagnostic : Script.Diagnostic} {text : String}
    (hread : Script.read Activity.natives origin.source origin.file? = .error (.script diagnostic))
    (htext : origin.excerpt world.files diagnostic.report = .ok text) :
    origin.run logFile world = failed { world with files := files } text := by
  rw [run_of_openOn hopen, execution, Script.execute_of_read_error hread]
  simp only [Script.ReadFault.toFault, faulted]
  rw [excerpt_of_touched (touched_of_openOn hopen), htext]

/-- A run escapes with a line that is no text exactly if reading the script does. Executing it
cannot come to this fault. -/
theorem status_run_eq_encoding_iff {bad : Text.Utf8.Fault} :
    (origin.run logFile world).status = .error (.script (.encoding bad)) ↔
      Script.read Activity.natives origin.source origin.file? = .error (.encoding bad) := by
  have hfault : (origin.execution log { world with files := files }).fault?
        = some (.encoding bad) ↔
      Script.read Activity.natives origin.source origin.file? = .error (.encoding bad) :=
    Script.fault?_execute_eq_encoding_iff
  rw [← hfault, run_of_openOn hopen]
  cases (origin.execution log { world with files := files }).fault? with
  | none => simp
  | some fault => simp [status_faulted_eq_encoding_iff]

end Running

/-- A summary begins with the name of the script and the number of its statements, whether the
outline follows or not. -/
theorem exists_summary_eq (origin : Origin) (verbose : Bool)
    (program : List (Script.Node (Script.Native Activity.Session))) :
    ∃ outline, origin.summary verbose program
      = "OK: " ++ origin.name ++ " - " ++ toString program.length ++ " statement(s)\n"
          ++ outline := by
  unfold summary
  split
  · exact ⟨_, by rw [String.append_assoc]⟩
  · exact ⟨"", by rw [String.append_empty]⟩

/-! ## The verdicts -/

/-- **A check and a run agree.** Let the log of a run open. A check fails exactly if the run ends
with a problem of lexing or of parsing. The run then fails with the same words, no function was
called, and nothing happened to the world but that the log was opened, which made an empty file at
most. A line of the script that is no text, if it is reached, escapes from both. If the check
succeeds, the run can only be told a problem of execution, and what it executes is the program that
the script is read as, with as many statements as the check has counted. A check never changes a
file. -/
theorem check_agrees_with_run (verbose : Bool) (hpath : origin.HasPath)
    (hopen : (Activity.Log.ofPath logFile world.identity).openOn world.files = .ok (log, files)) :
    ((origin.check verbose world).status = .ok 1 ↔
      (origin.execution log { world with files := files }).FailsReading) ∧
    ((origin.check verbose world).status = .ok 1 →
      (origin.run logFile world).status = .ok 1 ∧
      (origin.run logFile world).errors = (origin.check verbose world).errors ∧
      Script.history Activity.natives origin.source origin.file?
        ⟨{ world with files := files }, .log log⟩ = [] ∧
      (origin.run logFile world).world = { world with files := files } ∧
      world.files.Touched files) ∧
    (∀ bad, origin.source.ReachesUndecodable origin.file? bad ↔
      (origin.check verbose world).status = .error (.script (.encoding bad))) ∧
    (∀ bad, origin.source.ReachesUndecodable origin.file? bad ↔
      (origin.run logFile world).status = .error (.script (.encoding bad))) ∧
    ((origin.check verbose world).status = .ok 0 →
      (∀ diagnostic,
        (origin.execution log { world with files := files }).fault? = some (.script diagnostic) →
          diagnostic.problem.phase = .execution) ∧
      ∃ program outline,
        Script.read Activity.natives origin.source origin.file? = .ok program ∧
        origin.execution log { world with files := files }
          = Script.run program ⟨{ world with files := files }, .log log⟩ ∧
        (origin.check verbose world).world.printed
          = world.printed ++ ("OK: " ++ origin.name ++ " - " ++ toString program.length
              ++ " statement(s)\n" ++ outline)) ∧
    (origin.check verbose world).world.files = world.files := by
  have hencoding (bad : Text.Utf8.Fault) :
      origin.source.ReachesUndecodable origin.file? bad ↔
        Script.read Activity.natives origin.source origin.file? = .error (.encoding bad) :=
    Script.read_eq_encoding_iff.symm
  simp only [hencoding, status_run_eq_encoding_iff hopen, implies_true, true_and]
  rw [execution, Script.failsReading_execute_iff]
  rcases check_cases verbose hpath world with
    ⟨diagnostic, text, hread, htext, hcheck⟩ | ⟨bad, hread, hcheck⟩ | ⟨program, hread, hcheck⟩
  · have hrun := run_of_problem hopen hread htext
    rw [hcheck, hrun, hread]
    refine ⟨?_, fun _ => ?_, ?_, ?_, rfl⟩
    · exact ⟨fun _ => ⟨diagnostic, rfl⟩, fun _ => rfl⟩
    · exact ⟨rfl, rfl, Script.history_of_read_error hread, rfl, touched_of_openOn hopen⟩
    · simp [failed]
    · simp [failed]
  · rw [hcheck, hread]
    simp
  · rw [hcheck, hread, Script.execute_of_read_ok hread]
    refine ⟨by simp, by simp, by simp, fun _ => ⟨?_, ?_⟩, rfl⟩
    · intro diagnostic hfault
      rcases Script.phase_of_run hread hfault with ⟨found, heq, hphase⟩ | ⟨crash, heq⟩
      · cases heq
        exact hphase
      · cases heq
    · obtain ⟨outline, hsummary⟩ := exists_summary_eq origin verbose program
      exact ⟨program, outline, rfl, rfl, by rw [← hsummary]; rfl⟩

/-- The second line of a script has a problem, and its log, which was missing, is made. -/
theorem check_agrees_with_run_problem :
    let content := Text.Utf8.encode "print :a\nbogus :b\n".toList
    let origin := Origin.file "s" content
    let identity : Identity := ⟨1, "runner", [], "root"⟩
    let files : FileSystem := ⟨[(["s"], .file 0 content)], [], 1⟩
    let world : World := .quiet files
    let log : Activity.Log := ⟨"log", identity, some (.file 1)⟩
    origin.HasPath ∧
      (Activity.Log.ofPath "log" identity).openOn files = .ok (log, files.addFile ["log"] []) ∧
      (origin.check false world).status = .ok 1 ∧
      (origin.run "log" world).status = .ok 1 ∧
      (origin.run "log" world).errors = (origin.check false world).errors ∧
      (origin.run "log" world).world = { world with files := files.addFile ["log"] [] } := by
  intro content origin identity files world log
  have hpath : origin.HasPath := by
    simp [origin, HasPath]
  have hopen : (Activity.Log.ofPath "log" world.identity).openOn world.files
      = .ok (log, files.addFile ["log"] []) := by
    decide +kernel
  have hcheck : (origin.check false world).status = .ok 1 := by
    have hvalue : (origin.check false world).status.toOption = some 1 := by decide +kernel
    generalize (origin.check false world).status = status at hvalue ⊢
    cases status with
    | error escape => cases hvalue
    | ok code => cases hvalue; rfl
  obtain ⟨hstatus, herrors, -, hworld, -⟩ :=
    (check_agrees_with_run false hpath hopen).2.1 hcheck
  exact ⟨hpath, hopen, hcheck, hstatus, herrors, hworld⟩

end Origin

end ActivityScript.CommandLine
