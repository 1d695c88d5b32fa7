import Replication.Ordinal

/-! # Log records

What one position of the commit log holds.  Positions count from zero and vlsns from
one, so the record at a position has the vlsn above it.
-/

namespace Replication.Log

/-- A record of the log.  The dtvlsn, the term and the policy matter for commits
    only. -/
structure Record where
  type : EntryType := .data
  txn : Int64 := 0
  dtvlsn : Int64 := -3
  term : Int64 := 0
  sync : SyncPolicy := .noSync
  timestamp : Int64 := 0
  payload : Octets := []
  beforeImage : Octets := []
deriving DecidableEq, Repr

/-- A record and the position it was found at. -/
structure Positioned where
  record : Record
  position : Nat
deriving DecidableEq, Repr

/-- The vlsn of a record that was found in the log. -/
def Positioned.vlsn (p : Positioned) : Nat := p.position + 1

end Replication.Log
