import Replication.Election.Proposal

/-! # Election messages

A proposer asks acceptors to promise, then to accept; an acceptor answers with a
promise, an acceptance, a rejection, or a complaint about the request's text.
-/

namespace Replication.Election

/-- How attractive a suggested value is: the more current log wins, then the higher
    priority.  Priority zero marks a node that may never be master. -/
structure Ranking where
  vlsn : Int64
  priority : Int32
deriving DecidableEq, Repr

instance : LT Ranking where
  lt a b := a.vlsn < b.vlsn ∨ a.vlsn = b.vlsn ∧ a.priority < b.priority

instance (a b : Ranking) : Decidable (a < b) :=
  inferInstanceAs (Decidable (_ ∨ _))

/-- The value an acceptor would like to see elected. -/
structure Suggestion where
  value : Token
  ranking : Ranking
deriving DecidableEq, Repr

/-- An acceptor's promise to `proposal`: the pair it accepted last, if any, and its
    suggestion. -/
structure Promise where
  proposal : Proposal
  acceptedProposal : Option Proposal
  acceptedValue : Option Token
  suggestion : Suggestion
deriving DecidableEq, Repr

/-- What a proposer asks. -/
inductive Request where
  | propose (proposal : Proposal)
  | accept (proposal : Proposal) (value : Token)
deriving DecidableEq, Repr

/-- What an acceptor answers. -/
inductive Response where
  | promise (promise : Promise)
  | accepted (proposal : Proposal) (value : Token)
  /-- Carries the proposal that the acceptor is already bound to. -/
  | reject (higher : Proposal)
  | protocolError (message : Octets)
deriving DecidableEq, Repr

/-- A promise and the name of the acceptor that made it. -/
structure Vote where
  acceptor : Octets
  promise : Promise
deriving DecidableEq, Repr

end Replication.Election
