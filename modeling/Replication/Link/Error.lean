import Replication.Octets.Decimal

/-! # Failures of a link

A link carries bytes between two nodes.  Reading waits for the next byte at most as
long as the reader's timeout, and both directions fail once the link is closed.
-/

namespace Replication.Link

/-- Why bytes could not be read from a link or written to it. -/
inductive LinkError where
  /-- Nothing arrived within so many milliseconds. -/
  | noData (milliseconds : Int)
  /-- Nothing arrived in time, for this reason. -/
  | timedOut (reason : Octets)
  /-- The link is closed and drained. -/
  | closed
  /-- The other end hung up. -/
  | hungUp
  /-- A write came after the close. -/
  | writeAfterClose
  /-- The transport failed, for this reason. -/
  | failed (reason : Octets)
  /-- The failure befell the link to that node. -/
  | onLink (node : Octets) (cause : LinkError)
deriving DecidableEq, Repr

/-- Whether it is for want of time that an operation failed. -/
def LinkError.isTimeout : LinkError → Bool
  | .noData _ | .timedOut _ => true
  | .onLink _ cause => cause.isTimeout
  | _ => false

def LinkError.message : LinkError → Octets
  | .noData milliseconds =>
    .ofAscii "no data within " ++ Decimal.render milliseconds ++ .ofAscii "ms"
  | .timedOut reason => reason
  | .closed => .ofAscii "channel closed"
  | .hungUp => .ofAscii "connection closed by peer"
  | .writeAfterClose => .ofAscii "write on closed channel"
  | .failed reason => reason
  | .onLink node cause => node ++ .ofAscii ": " ++ cause.message

/-- The error as seen on a link that may be named after the remote node. -/
def LinkError.labelled (name : Option Octets) (e : LinkError) : LinkError :=
  match name with
  | some node => .onLink node e
  | none => e

end Replication.Link
