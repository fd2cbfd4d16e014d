import ActivityScript.Activity.Natives
import ActivityScript.CommandLine.Flag

/-!
# Help

The usage line, the help text with the list of functions, and the report of a usage fault.
-/

namespace ActivityScript.CommandLine

/-- The name of the program. -/
def programName : String := "edrtest"

/-- How the program is used, on one line. -/
def usageLine : String :=
  "usage: " ++ programName ++ " [-h] [-l FILE] [-c] [--config FILE] [--check] [-v] [script]"

/-- The help text. -/
def helpText : String :=
  "\n".intercalate
    [usageLine,
     "",
     "Run scripted file, process and network activity",
     "",
     "positional arguments:",
     "  script                script file, or script text with -c",
     "",
     "options:",
     "  -h, --help            show this help message and exit",
     "  -l FILE, --log-file FILE",
     "                        set log file (default: activity.log)",
     "  -c, --command         execute script string (don't read from a file),",
     "                        arguments are implicitly quoted",
     "  --config FILE         YAML settings file",
     "  --check               parse the script without running it",
     "  -v, --verbose         with --check, print the parsed statements",
     "",
     Activity.natives.listing]
  ++ "\n"

/-- The report of a usage fault. -/
def UsageFault.report (fault : UsageFault) : String :=
  usageLine ++ "\n" ++ programName ++ ": error: " ++ fault.message ++ "\n"

end ActivityScript.CommandLine
