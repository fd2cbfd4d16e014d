import ActivityScript.Host.Files
import ActivityScript.Host.Launcher
import ActivityScript.Host.Network

/-!
# The world

Everything that scripts can see or change: files, network, launcher, the text printed so far, the
identity of the running program and the time.
-/

namespace ActivityScript.Host

/-- Who is running. -/
structure Identity where
  pid : Int
  executable : String
  arguments : List String
  user : String
  deriving DecidableEq, Repr

/-- A time in seconds, as a decimal with `places` digits after the point. -/
structure Instant where
  digits : Int
  places : Nat
  deriving DecidableEq, Repr

/-- The whole seconds of a time, without what is after the point. -/
def Instant.seconds (instant : Instant) : Int :=
  instant.digits.tdiv (Nat.pow 10 instant.places : Nat)

/-- Everything outside of a script. -/
structure World where
  files : FileSystem
  network : Network
  launcher : Launcher
  printed : String
  identity : Identity
  now : Instant

end ActivityScript.Host
