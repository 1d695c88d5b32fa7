import Replication.Proofs.Stream.Frames
import Replication.Proofs.Wire.Fields
import Replication.Service.Admission
import Replication.Service.Connector
import Replication.Service.Exchange

/-! # Both halves of a handshake agree

A client is let in just if the dispatcher hands its link over, and the handler gets every byte
behind the client's request.
-/

namespace Replication.Service

open Replication.Link (Connection)
open Replication.Stream (Carries)
open Replication.Wire

variable {link : Connection} {service up down rest : Octets} {d : Dispatcher Connection}

/-! ## Requests -/

def reading (service : Octets) (answer : UInt8) : Except HandshakeError Unit :=
  match Verdict.ofOrdinal? answer with
  | some .ok => .ok ()
  | some v => .error (.refused service v)
  | none => .error (.badVerdict answer)

namespace Dispatcher

end Dispatcher

/-! ## Meetings -/

namespace Dispatcher

end Dispatcher

/-- How a meeting ends at which a client asks for a service and writes bytes behind that. -/
structure Agrees (d : Dispatcher Connection) (service bytes : Octets) (m : Meeting) : Prop where
  succeeds : m.outcome = .ok () ↔
    (1 ≤ service.length ∧ service.length ≤ 256) ∧ d.isRegistered service = true
  /-- The service's handler gets the link, and no byte is missing on it.  Nothing is counted. -/
  served : m.outcome = .ok () → m.dispatcher = d ∧
    (∃ handler, d.handlers.get? service = some handler ∧ m.handler = some handler) ∧
    Carries m.link bytes []
  /-- The request is counted once, the services stay, and the link is closed. -/
  rejected : m.outcome ≠ .ok () →
    m.dispatcher = d.reject ∧ m.dispatcher.rejected = d.rejected + 1 ∧
      m.dispatcher.handlers = d.handlers ∧ m.handler = none ∧ m.link.accepter.closed = true
  unknown : 1 ≤ service.length ∧ service.length ≤ 256 → d.isRegistered service = false →
    m.outcome = .error (.refused service .unknownService)
  /-- Such a name is refused even if a service of that name is there. -/
  invalid : ¬ (1 ≤ service.length ∧ service.length ≤ 256) →
    m.outcome = .error (.refused service .invalid)

end Replication.Service
