import Replication.Octets.Basic

/-! # Retrying connections

A connection that fails for a passing reason is tried again, as often as the failure
allows.  Only failures of one class in a row count together.
-/

namespace Replication.Consumer

/-- The classes of passing failures. -/
inductive RetryClass where
  /-- The master cannot be reached. -/
  | unreachable
  /-- The master is there, but does not serve its feeder yet. -/
  | unavailable
  /-- Any other. -/
  | other
deriving DecidableEq, Repr

/-- A failure that may pass: how often to try again, and the pause before that in
    milliseconds. -/
structure PassingFailure where
  cls : RetryClass
  retries : Int
  pause : Int
  reason : Octets
deriving DecidableEq, Repr

/-- The class of the failures so far, and how many retries they have used. -/
structure RetryCount where
  cls : Option RetryClass := none
  used : Int := 0
deriving DecidableEq, Repr

/-- The count after one more failure; `none` when its retries are used up. -/
def RetryCount.after (c : RetryCount) (f : PassingFailure) : Option RetryCount :=
  if c.cls = some f.cls ∨ f.retries = 0 then
    if f.retries ≤ c.used + 1 then none else some { c with used := c.used + 1 }
  else some { cls := some f.cls, used := 0 }

end Replication.Consumer
