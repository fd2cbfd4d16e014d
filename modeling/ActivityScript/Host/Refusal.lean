/-!
# Refusals with a text of their own

The network and the launcher refuse with a message and, most of the time, a number.
-/

namespace ActivityScript.Host

/-- A refusal. -/
structure Refusal where
  number? : Option Int
  message : String
  deriving DecidableEq, Repr

/-- A refusal in words. -/
def Refusal.text (refusal : Refusal) : String :=
  match refusal.number? with
  | some number => "[Errno " ++ toString number ++ "] " ++ refusal.message
  | none => refusal.message

end ActivityScript.Host
