import Replication.Election.Electorate

/-! # Orders of completion

The exchanges of a broadcast run side by side, so they may complete in any order.  An
electorate can be reached in any of them; `Campaign.environment` keeps to that of submission.
-/

namespace Replication.Election

/-- The order in which the exchanges of each broadcast are carried out, and completed. -/
structure Schedule where
  order : List Octets → Request → List Octets
  perm : ∀ names request, (order names request).Perm names

def Schedule.submission : Schedule where
  order names _ := names
  perm _ _ := .refl _

def Schedule.reverse : Schedule where
  order names _ := names.reverse
  perm _ _ := List.reverse_perm _

/-- The electorate as a proposer's environment, with its exchanges in the given order. -/
def Campaign.environmentIn (schedule : Schedule) : Environment (StateM Campaign) :=
  { Campaign.environment with
    broadcast := fun names request => Campaign.broadcast (schedule.order names request) request }

namespace Electorate

def names (e : Electorate) : List Octets := e.members.map (·.name)

/-- The acceptor of that name with its suggestion, if it is in reach. -/
def reach (e : Electorate) (name : Octets) : Option (Acceptor × Suggestion) :=
  (e.members.find? (·.name = name)).bind (·.reachable)

/-- The number of members in reach. -/
def reachable (e : Electorate) : Nat := e.members.countP (·.reachable.isSome)

/-- The promises of a proposal that the members in reach make, in the order of these names. -/
def votes (e : Electorate) (p : Proposal) (order : List Octets) : List Vote :=
  order.filterMap fun name =>
    (e.reach name).map fun (a, suggestion) =>
      { acceptor := name
        promise :=
          { proposal := p, acceptedProposal := a.accepted.map (·.1)
            acceptedValue := a.accepted.map (·.2), suggestion } }

end Electorate

end Replication.Election
