import Replication.Election.Message

/-! # Choosing the value to elect

A value that some acceptor already accepted has to be carried forward: the one under
the highest accepted proposal.  Otherwise the best suggestion of a node that may
become master wins.  Among equals the earlier vote counts.
-/

namespace Replication.Election

/-- The accepted pair that a promise reports, if it reports both parts. -/
def Promise.acceptedPair (m : Promise) : Option (Proposal × Token) :=
  match m.acceptedProposal, m.acceptedValue with
  | some p, some v => some (p, v)
  | _, _ => none

/-- The earliest pair with the highest proposal. -/
def highestAccepted (pairs : List (Proposal × Token)) : Option (Proposal × Token) :=
  pairs.foldl (fun best pair =>
    match best with
    | none => some pair
    | some b => if pair.1 > b.1 then some pair else some b) none

/-- Whether the suggested value may be elected. -/
def Suggestion.Eligible (s : Suggestion) : Prop :=
  0 < s.ranking.priority ∧ s.value ≠ .empty

instance (s : Suggestion) : Decidable s.Eligible :=
  inferInstanceAs (Decidable (_ ∧ _))

/-- The earliest suggestion with the highest ranking. -/
def bestSuggestion (suggestions : List Suggestion) : Option Suggestion :=
  suggestions.foldl (fun best s =>
    match best with
    | none => some s
    | some b => if b.ranking < s.ranking then some s else some b) none

/-- The value to elect after these votes, if there is one. -/
def chooseMaster (votes : List Vote) : Option Token :=
  match highestAccepted (votes.filterMap (·.promise.acceptedPair)) with
  | some (_, v) => some v
  | none =>
    (bestSuggestion ((votes.map (·.promise.suggestion)).filter (·.Eligible))).map (·.value)

end Replication.Election
