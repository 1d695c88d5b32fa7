import Mathlib.Logic.Function.Basic
import Replication.Link.Connection

/-! # Ledgers

What happens at the two ends of a connection, and an account of the bytes: which of them were
written to an end, and which of them reads have taken there.  `Ledger.Reliable` says what a
connection within one process makes of them.
-/

namespace Replication.Link

/-! ## 1. Accounts -/

/-- What can be done at an end of a connection. -/
inductive Act where
  | read (side : Side) (n : Nat)
  | write (side : Side) (bytes : Octets)
  | close (side : Side)
  | setTimeout (side : Side) (milliseconds : Int)
deriving DecidableEq

/-- A new connection within one process.  Diagnostics of an end may name the node across. -/
def Connection.pair (names : Side → Option Octets) : Connection where
  opener := { peerName := names .opener }
  accepter := { peerName := names .accepter }

/-- A connection, the bytes that were written to its ends without an error, and the bytes that
    reads at its ends have removed, whether they failed or not. -/
structure Ledger where
  connection : Connection
  sent : Side → Octets := fun _ => []
  taken : Side → Octets := fun _ => []

namespace Ledger

/-- The bytes that wait at an end. -/
def pending (l : Ledger) (side : Side) : Octets :=
  (l.connection.endpoint side).incoming

def closed (l : Ledger) (side : Side) : Bool :=
  (l.connection.endpoint side).closed

/-- Enters what a read has removed, which is what it has left fewer bytes by. -/
def enterRead (l : Ledger) (side : Side) (connection : Connection) : Ledger :=
  let left := (connection.endpoint side).incoming.length
  { l with
    connection
    taken := Function.update l.taken side
      (l.taken side ++ (l.pending side).take ((l.pending side).length - left)) }

def act (l : Ledger) : Act → Ledger
  | .read side n =>
    match Connection.read side n l.connection with
    | .ok _ connection | .error _ connection => l.enterRead side connection
  | .write side bytes =>
    match Connection.write side bytes l.connection with
    | .ok () connection =>
      { l with
        connection
        sent := Function.update l.sent side.other (l.sent side.other ++ bytes) }
    | .error _ connection => { l with connection }
  | .close side => { l with connection := l.connection.close side }
  | .setTimeout side milliseconds =>
    { l with connection := l.connection.setTimeout side milliseconds }

def run (l : Ledger) (acts : List Act) : Ledger :=
  acts.foldl act l

/-! ## 2. Reliability -/

/-- What reads and writes have come to at a moment, and will come to next. -/
structure Reliable (names : Side → Option Octets) (l : Ledger) : Prop where
  /-- Nothing is lost on the way, doubled or brought out of order. -/
  balance : ∀ side, l.closed side = false → l.taken side ++ l.pending side = l.sent side
  /-- An end that closes drops what it has not read, and the other one keeps what it has. -/
  closes : ∀ side, (l.act (.close side)).closed side = true ∧
    (l.act (.close side)).pending side = [] ∧
    (l.act (.close side)).closed side.other = l.closed side.other ∧
    (l.act (.close side)).pending side.other = l.pending side.other ∧
    (l.act (.close side)).taken = l.taken ∧ (l.act (.close side)).sent = l.sent
  /-- Nothing waits at an end that has closed. -/
  dropped : ∀ side, l.closed side = true → l.pending side = [] ∧ l.taken side <+: l.sent side
  /-- A read returns the next bytes, and removes no others. -/
  next : ∀ side n bytes connection, Connection.read side n l.connection = .ok bytes connection →
    bytes.length = n ∧ l.taken side ++ bytes <+: l.sent side ∧
      (l.act (.read side n)).taken side = l.taken side ++ bytes
  /-- An end that has not closed gets all that was written to it. -/
  drains : ∀ side n, l.closed side = false →
    (l.taken side).length + n ≤ (l.sent side).length →
      ∃ bytes connection, Connection.read side n l.connection = .ok bytes connection
  /-- Behind that it waits for more, unless an end has closed. -/
  ends : ∀ side n, l.closed side = false → (l.sent side).length < (l.taken side).length + n →
    ∃ connection, Connection.read side n l.connection = .error
      ((if l.closed side.other then .closed
        else .noData (l.connection.endpoint side).timeout : LinkError).labelled (names side))
      connection
  /-- How long it waits is what was set last. -/
  waits : ∀ side milliseconds,
    ((l.act (.setTimeout side milliseconds)).connection.endpoint side).timeout = milliseconds
  /-- An end that has closed can read nothing. -/
  shut : ∀ side n, l.closed side = true → 0 < n → Connection.read side n l.connection =
    .error (LinkError.closed.labelled (names side)) l.connection
  accepted : ∀ side bytes, l.closed .opener = false → l.closed .accepter = false →
    ∃ connection, Connection.write side bytes l.connection = .ok () connection
  /-- Where an end has closed nothing can be written, at either of them. -/
  refused : ∀ side, l.closed side = true → ∀ side' bytes,
    Connection.write side' bytes l.connection =
      .error (LinkError.writeAfterClose.labelled (names side')) l.connection
  /-- It does not open again, so what was written before is all. -/
  final : ∀ side, l.closed side = true → ∀ acts,
    (l.run acts).closed side = true ∧ (l.run acts).sent = l.sent

end Ledger

end Replication.Link
