import Replication.Election.Message
import Replication.Election.Quorum

/-! # The two phases of a round

A phase sends one request to several acceptors and takes their replies as they
complete.  `collectPromises` and `collectAcceptances` say what a phase makes of the
replies it took, in that order: replies that are missing or do not answer the request
are passed over, a rejection ends the phase, and a cancelled proposer gives the phase
up at the next reply it takes.
-/

namespace Replication.Election

/-- One completed exchange of a broadcast. -/
structure Reply where
  acceptor : Octets
  /-- The answer, or why there is none. -/
  response : Except Octets Response
  /-- Whether the proposer was shut down when the reply was taken. -/
  cancelled : Bool := false

/-- How a phase ended. -/
inductive PhaseEnd (α : Type) where
  /-- The proposer was shut down. -/
  | abandoned
  /-- An acceptor is bound to a higher proposal. -/
  | higher
  /-- The replies were used up, or enough of them were positive. -/
  | complete (result : α)
deriving DecidableEq, Repr

/-- Applies a function to the result of a complete phase. -/
def PhaseEnd.map {α β : Type} (f : α → β) : PhaseEnd α → PhaseEnd β
  | abandoned => abandoned
  | higher => higher
  | complete a => complete (f a)

/-- The vote that a response casts for a proposal, if it is a promise to just that. -/
def Response.vote? (acceptor : Octets) (p : Proposal) : Response → Option Vote
  | promise m => if m.proposal = p then some { acceptor, promise := m } else none
  | _ => none

/-- The votes for a proposal among the replies, in the order in which they came. -/
def collectPromises (p : Proposal) : List Reply → PhaseEnd (List Vote)
  | [] => .complete []
  | reply :: replies =>
    if reply.cancelled then .abandoned
    else
      match reply.response with
      | .error _ => collectPromises p replies
      | .ok (.reject _) => .higher
      | .ok response =>
        match response.vote? reply.acceptor p with
        | some vote => (collectPromises p replies).map (vote :: ·)
        | none => collectPromises p replies

/-- What the second phase found: the acceptors that accepted, and whether they are
    enough. -/
structure Acceptances where
  accepters : List Octets
  won : Bool
deriving DecidableEq, Repr

/-- Whether a response accepts just this proposal and value. -/
def Response.accepts (p : Proposal) (v : Token) : Response → Bool
  | accepted p' v' => p' = p && v' = v
  | _ => false

/-- The acceptors that accepted, up to the one that completes the quorum. -/
def collectAcceptances (q : Quorum) (policy : QuorumPolicy) (p : Proposal) (v : Token) :
    (accepters : List Octets) → List Reply → PhaseEnd Acceptances
  | accepters, [] => .complete { accepters, won := false }
  | accepters, reply :: replies =>
    if reply.cancelled then .abandoned
    else
      match reply.response with
      | .error _ => collectAcceptances q policy p v accepters replies
      | .ok (.reject _) => .higher
      | .ok response =>
        if response.accepts p v then
          let accepters := accepters ++ [reply.acceptor]
          if q.Met policy accepters.length then .complete { accepters, won := true }
          else collectAcceptances q policy p v accepters replies
        else collectAcceptances q policy p v accepters replies

end Replication.Election
