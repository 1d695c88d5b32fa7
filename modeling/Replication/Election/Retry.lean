/-! # Retrying an election

A limit on the rounds of one election, which can also be ended from outside once the
election is decided elsewhere.
-/

namespace Replication.Election

/-- How often a round may be repeated, and how far the election has come. -/
structure Retry where
  maxRetries : Int32
  started : Bool := false
  retries : Int32 := 0
  concluded : Bool := false
deriving DecidableEq, Repr

namespace Retry

/-- Asks for another round.  The first is free; no round starts once the election is
    concluded. -/
def next (r : Retry) : Bool × Retry :=
  if r.concluded then (false, r)
  else if ¬r.started then (true, { r with started := true })
  else if r.maxRetries ≤ r.retries then (false, r)
  else (true, { r with retries := r.retries + 1 })

def conclude (r : Retry) : Retry := { r with concluded := true }

end Retry

end Replication.Election
