import Replication.Election.Choice
import Replication.Election.Proposer

/-! # Proposers in waiting

A proposer between two of its questions to its surroundings.  `Pending.environment` runs a
proposer only up to its next question, so that many proposers can take turns.
-/

namespace Replication.Election

/-- A computation that waits for an answer, or has ended. -/
inductive Pending (α : Type) where
  | done (a : α)
  /-- Asks for a yes or no. -/
  | ask (next : Bool → Pending α)
  /-- Asks for the retries used so far. -/
  | count (next : Int32 → Pending α)
  /-- Asks for the proposal of the next round. -/
  | draw (next : Proposal → Pending α)
  | broadcast (targets : List Octets) (request : Request) (next : List Reply → Pending α)

namespace Pending

variable {α β : Type}

/-- Goes on with the result of a computation. -/
def bind : Pending α → (α → Pending β) → Pending β
  | done a, f => f a
  | ask next, f => ask fun answer => (next answer).bind f
  | count next, f => count fun answer => (next answer).bind f
  | draw next, f => draw fun answer => (next answer).bind f
  | broadcast targets request next, f =>
    broadcast targets request fun replies => (next replies).bind f

instance : Monad Pending where
  pure := done
  bind := bind

/-- Surroundings that answer later.  The value to propose is chosen at once. -/
def environment : Environment Pending where
  retry := ask done
  retries := count done
  concluded := ask done
  cancelled := ask done
  nextProposal := draw done
  broadcast targets request := broadcast targets request done
  choose votes := done (chooseMaster votes)

end Pending

end Replication.Election
