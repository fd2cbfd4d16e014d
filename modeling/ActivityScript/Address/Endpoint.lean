import ActivityScript.Text.Number

/-!
# Endpoints

An endpoint is a host and a port. Its text is the host, a colon and the port, with square brackets
around a host that itself has a colon. Reading is more generous: the last colon divides host and
port, and one pair of brackets around the host is removed, whatever stands between them.
-/

namespace ActivityScript.Address

/-- A host with a port. -/
structure Endpoint where
  host : String
  port : Nat
  deriving DecidableEq, Repr

/-- The largest port. -/
def maxPort : Nat := 65535

/-- Why a text is no endpoint. -/
inductive EndpointFault where
  | malformed (text : String)
  /-- The port has digits only, but they write no number. -/
  | port (fault : Text.NumberFault)
  deriving DecidableEq, Repr

/-- The text before and after the last `mark`. -/
def splitAtLast (mark : Char) : List Char → Option (List Char × List Char)
  | [] => none
  | c :: cs =>
    match splitAtLast mark cs with
    | some (before, after) => some (c :: before, after)
    | none => if c = mark then some ([], cs) else none

/-- A host without one pair of brackets around it. -/
def unbracketed (host : List Char) : List Char :=
  if host.head? = some '[' ∧ host.getLast? = some ']' then host.tail.dropLast else host

/-- Whether a text has digits only, at least one. -/
def allDigits (text : List Char) : Bool := !text.isEmpty && text.all Text.isDigit

namespace Endpoint

/-- The endpoint that a text writes. -/
def read (text : String) : Except EndpointFault Endpoint :=
  match splitAtLast ':' text.toList with
  | none => .error (.malformed text)
  | some (host, port) =>
    if host.isEmpty || !allDigits port then .error (.malformed text)
    else
      match Text.readNumber port with
      | .error fault => .error (.port fault)
      | .ok number =>
        if maxPort < number then .error (.malformed text)
        else .ok ⟨String.ofList (unbracketed host), number⟩

/-- The text of an endpoint. -/
def text (endpoint : Endpoint) : String :=
  let port := toString endpoint.port
  if endpoint.host.toList.contains ':' then "[" ++ endpoint.host ++ "]:" ++ port
  else endpoint.host ++ ":" ++ port

end Endpoint

end ActivityScript.Address
