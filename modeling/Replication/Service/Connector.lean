import Replication.Consumer.Basic
import Replication.Service.Handshake
import Replication.Table

/-! # Connecting to a master's feeder

A consumer finds its master's address in a table, opens a link to it and asks for the
feeder service.  A master that cannot be reached, or that has no feeder service yet, may
be tried again.
-/

namespace Replication.Service

open Replication.Consumer (ConnectError PassingFailure RetryClass)
open Replication.Link (LinkError Transport)

/-- The service that feeds consumers. -/
def feederService : Octets := .ofAscii "Feeder"

/-- How links to addresses of type `α` are opened. -/
structure Network (α σ : Type) where
  dial : α → Except LinkError σ
  transport : Transport σ
  /-- Shows a node's name in the diagnostics of a link to it. -/
  label : Octets → σ → σ

/-- The addresses of a group's nodes. -/
structure Connector (α : Type) where
  addresses : Table Octets α := .empty

/-- Why no link to a master's feeder came about. -/
inductive ConnectorError where
  | noAddress (node : Octets)
  | passing (f : PassingFailure)
  | handshake (e : HandshakeError)
deriving DecidableEq, Repr

def ConnectorError.message : ConnectorError → Octets
  | .noAddress node => .ofAscii "no address for node " ++ node
  | .passing f => f.reason
  | .handshake e => e.message

/-- What the error is to a consumer that follows the master. -/
def ConnectorError.toConnectError : ConnectorError → ConnectError
  | .passing f => .passing f
  | .handshake (.link e) => .link e
  | .handshake e@(.badVerdict _) => .protocol e.message
  | e => .failed e.message

namespace Connector

variable {α σ : Type}

def setAddress (c : Connector α) (node : Octets) (address : α) : Connector α :=
  { addresses := c.addresses.insert node address }

/-- The failure of a master that cannot be reached. -/
def unreachable (p : Parameters) (master : Octets) (e : LinkError) : PassingFailure where
  cls := .unreachable
  retries := p.networkRetries
  pause := p.connectRetrySleepMs
  reason := .ofAscii "feeder " ++ master ++ .ofAscii " unreachable: " ++ e.message

/-- The failure of a master that has not taken over yet. -/
def unavailable (p : Parameters) (master : Octets) (e : HandshakeError) : PassingFailure where
  cls := .unavailable
  retries := p.serviceUnavailableRetries
  pause := p.connectRetrySleepMs
  reason := .ofAscii "feeder " ++ master ++ .ofAscii ": " ++ e.message

/-- Opens a link to the feeder of a master.  A link on which the handshake fails is
    closed, and comes back with the error. -/
def connect (c : Connector α) (p : Parameters) (n : Network α σ) (master : Octets) :
    Except (ConnectorError × Option σ) σ :=
  match c.addresses.get? master with
  | none => .error (.noAddress master, none)
  | some address =>
    match n.dial address with
    | .error e => .error (.passing (unreachable p master e), none)
    | .ok link =>
      let link := n.transport.setTimeout p.preHeartbeatTimeoutMs (n.label master link)
      match handshake n.transport feederService link with
      | .ok () link => .ok link
      | .error e link =>
        let e := match e with
          | .refused _ .unknownService => .passing (unavailable p master e)
          | e => .handshake e
        .error (e, some (n.transport.close link))

end Connector

end Replication.Service
