import Replication.Link.Connection
import Replication.Service.Dispatcher

/-! # Exchanges in one process

A client and a dispatcher at the two ends of one link: the client speaks, the dispatcher
takes the link, and the client reads what has come back.
-/

namespace Replication.Service

open Replication.Link (Connection)

/-- Sends a greeting and hangs up. -/
def greet (greeting : Octets) : EStateM HandlerError Connection Unit := do
  (Connection.write .accepter greeting).adaptExcept fun e => { reason := e.message }
  modify (·.close .accepter)

namespace Dispatcher

variable {α : Type} (d : Dispatcher Connection)

/-- The dispatcher and what a client gets out of a new link, of which `first` comes before
    the dispatcher's work and `next` behind it. -/
def converse (first : EStateM HandshakeError Connection Unit)
    (next : EStateM HandshakeError Connection α) :
    Dispatcher Connection × Except HandshakeError α :=
  match first { medium := .socket } with
  | .error e _ => (d, .error e)
  | .ok () link =>
    let (d, link) := d.dispatch (Connection.transport .accepter) link
    match next link with
    | .ok a _ => (d, .ok a)
    | .error e _ => (d, .error e)

/-- Asks for a service and reads so many bytes of what it sends. -/
def request (service : Octets) (count : Nat) :
    Dispatcher Connection × Except HandshakeError Octets :=
  d.converse (ask (Connection.transport .opener) service) do
    awaitVerdict (Connection.transport .opener) service
    onLink (Connection.read .opener count)

/-- Sends bytes, and reads the byte of the verdict. -/
def submit (bytes : Octets) : Dispatcher Connection × Except HandshakeError UInt8 :=
  d.converse (onLink (Connection.write .opener bytes)) do
    return (← onLink (Connection.read .opener 1)).headD 0

/-- Sends bytes and hangs up. -/
def abandon (bytes : Octets) : Dispatcher Connection × Except HandshakeError Unit :=
  d.converse (do
    onLink (Connection.write .opener bytes)
    modify (·.close .opener)) (return ())

end Dispatcher

end Replication.Service
