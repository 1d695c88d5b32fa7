import Replication.Link.Transport

/-! # Connections

Two ends joined by a byte pipe in each direction.  `Connection.read` takes exactly the
next bytes or fails, `Connection.write` appends to what the other end will read, and
closing an end drops what it has not read while the other end still drains what was
written to it.
-/

namespace Replication.Link

/-! ## 1. Ends -/

/-- What joins the two ends. -/
inductive Medium where
  /-- A pair of pipes in one process, of which either end closes both. -/
  | memory
  /-- A socket, each end of which closes for itself. -/
  | socket
deriving DecidableEq, Repr

/-- The end that opened a connection, or the one that accepted it. -/
inductive Side where
  | opener
  | accepter
deriving DecidableEq, Repr

/-- The end across. -/
def Side.other : Side → Side
  | .opener => .accepter
  | .accepter => .opener

/-- One end of a connection: the bytes that wait to be read there, its timeout in
    milliseconds, where none above zero means to wait for ever, and the name of the
    node across, if diagnostics show it. -/
structure Endpoint where
  incoming : Octets := []
  closed : Bool := false
  timeout : Int := 0
  peerName : Option Octets := none

/-- Two joined ends. -/
structure Connection where
  medium : Medium := .memory
  opener : Endpoint := {}
  accepter : Endpoint := {}

namespace Connection

/-- The state of one end. -/
def endpoint (c : Connection) : Side → Endpoint
  | .opener => c.opener
  | .accepter => c.accepter

/-- Replaces the state of one end. -/
def setEndpoint (c : Connection) (side : Side) (e : Endpoint) : Connection :=
  match side with
  | .opener => { c with opener := e }
  | .accepter => { c with accepter := e }

/-! ## 2. Operations of an end -/

/-- Whether bytes may still be written at an end. -/
def isOpen (c : Connection) (side : Side) : Bool :=
  match c.medium with
  | .memory => !c.opener.closed && !c.accepter.closed
  | .socket => !(c.endpoint side).closed

/-- Why a read finds too few bytes. -/
def shortage (c : Connection) (side : Side) : LinkError :=
  let e := c.endpoint side
  if e.closed then .closed
  else if (c.endpoint side.other).closed then
    match c.medium with
    | .memory => .closed
    | .socket => .hungUp
  else .noData e.timeout

/-- Takes the next `n` bytes.  When fewer are there the read fails, and they are
    gone. -/
def read (side : Side) (n : Nat) : EStateM LinkError Connection Octets := fun c =>
  let e := c.endpoint side
  if n = 0 then .ok [] c
  else if e.closed = false ∧ n ≤ e.incoming.length then
    .ok (e.incoming.take n) (c.setEndpoint side { e with incoming := e.incoming.drop n })
  else
    .error ((c.shortage side).labelled e.peerName) (c.setEndpoint side { e with incoming := [] })

/-- Appends bytes to what the other end reads.  A socket notices its close only when
    there is a byte to send. -/
def write (side : Side) (bytes : Octets) : EStateM LinkError Connection Unit := fun c =>
  let e := c.endpoint side
  if c.isOpen side ∨ (c.medium = .socket ∧ bytes = []) then
    let across := c.endpoint side.other
    .ok () (c.setEndpoint side.other { across with incoming := across.incoming ++ bytes })
  else .error (LinkError.writeAfterClose.labelled e.peerName) c

def close (c : Connection) (side : Side) : Connection :=
  c.setEndpoint side { c.endpoint side with closed := true, incoming := [] }

/-- Sets the timeout of the reads at an end. -/
def setTimeout (c : Connection) (side : Side) (milliseconds : Int) : Connection :=
  c.setEndpoint side { c.endpoint side with timeout := milliseconds }

/-- One end, for a protocol to talk over. -/
def transport (side : Side) : Transport Connection where
  read := read side
  write := write side
  setTimeout milliseconds c := c.setTimeout side milliseconds
  close c := c.close side

end Connection

end Replication.Link
