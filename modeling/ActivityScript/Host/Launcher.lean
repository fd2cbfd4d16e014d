import ActivityScript.Host.Refusal

/-!
# Starting programs

The launcher starts programs and keeps the list of the commands it was given. Whether it starts one,
and under which number, is up to the launcher: it may depend on the command and on all commands
before it.
-/

namespace ActivityScript.Host

/-- A command, and whether it was to start in a session of its own. -/
structure Launch where
  command : List String
  ownSession : Bool
  deriving DecidableEq, Repr

/-- A launcher: what it answers to a command after those before it, which is the number of the new
program or a refusal, and the commands it was given. -/
structure Launcher where
  answer : List Launch → Launch → Except Refusal Int
  launches : List Launch

/-- Starts a command in a session of its own and gives its number. -/
def Launcher.launch (launcher : Launcher) (command : List String) :
    Except Refusal Int × Launcher :=
  (launcher.answer launcher.launches ⟨command, true⟩,
    { launcher with launches := launcher.launches ++ [⟨command, true⟩] })

end ActivityScript.Host
