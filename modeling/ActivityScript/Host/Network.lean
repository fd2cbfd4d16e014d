import ActivityScript.Host.Refusal

/-!
# The network

The network takes calls and keeps the list of those it was given. Whether a call is refused is up to
the network: it may depend on the call and on all calls before it. A conversation opens a connection
or a socket, makes its calls until one is refused, and closes what it opened in any case.
-/

namespace ActivityScript.Host

/-- A call to the network. -/
inductive NetworkCall where
  | connect (host : String) (port : Nat)
  /-- Asks for a socket for single packets. -/
  | socket
  | bind (host : String) (port : Nat)
  | sendAll (payload : List UInt8)
  | sendTo (payload : List UInt8) (host : String) (port : Nat)
  /-- Asks for the own name of a connection or a socket. -/
  | socketName
  | close
  deriving DecidableEq, Repr

/-- A network: the own names it gives to connections and to sockets, as host and port, the refusal
that a call meets after those before it, and the calls it was given. -/
structure Network where
  connectionName : String × Nat
  socketName : String × Nat
  refusal? : List NetworkCall → NetworkCall → Option Refusal
  calls : List NetworkCall

namespace Network

/-- Makes a call. -/
def call (network : Network) (call : NetworkCall) : Option Refusal × Network :=
  (network.refusal? network.calls call, { network with calls := network.calls ++ [call] })

/-- Makes calls until one is refused. -/
def callAll (network : Network) : List NetworkCall → Option Refusal × Network
  | [] => (none, network)
  | first :: rest =>
    match network.call first with
    | (none, network) => network.callAll rest
    | (some refusal, network) => (some refusal, network)

/-- A conversation: `opening`, then `rest`, then the close. A refused close hides an earlier
refusal. -/
def converse (network : Network) (opening : NetworkCall) (rest : List NetworkCall) :
    Option Refusal × Network :=
  match network.call opening with
  | (some refusal, network) => (some refusal, network)
  | (none, network) =>
    let (refusal?, network) := network.callAll rest
    let (closing?, network) := network.call .close
    (closing?.or refusal?, network)

end Network

end ActivityScript.Host
