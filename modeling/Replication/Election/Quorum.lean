import Replication.Octets.Decimal

/-! # Quorums

How many votes of a group settle an election.
-/

namespace Replication.Election

/-- How many members have to agree. -/
inductive QuorumPolicy where
  | simpleMajority
  | all
deriving DecidableEq, Repr

def QuorumPolicy.name : QuorumPolicy → Octets
  | simpleMajority => .ofAscii "SIMPLE_MAJORITY"
  | all => .ofAscii "ALL"

/-- A group of electable members. -/
structure Quorum where
  groupSize : Nat
  groupSize_pos : 0 < groupSize := by decide
deriving DecidableEq, Repr

/-- A group has at least one member. -/
inductive QuorumError where
  | emptyGroup (size : Int)
deriving DecidableEq, Repr

def QuorumError.message : QuorumError → Octets
  | .emptyGroup size =>
    .ofAscii "electable group size must be positive: " ++ Decimal.render size

namespace Quorum

/-- The group of the given size. -/
def ofSize : (size : Int) → Except QuorumError Quorum
  | .ofNat (n + 1) => .ok { groupSize := n + 1, groupSize_pos := Nat.succ_pos n }
  | size => .error (.emptyGroup size)

/-- The votes needed: more than half, or all.  In a group of two one vote is a
    majority, so that the survivor of the other can go on alone. -/
def need (q : Quorum) : QuorumPolicy → Nat
  | .simpleMajority => if q.groupSize = 2 then 1 else q.groupSize / 2 + 1
  | .all => q.groupSize

/-- Whether that many votes are enough. -/
def Met (q : Quorum) (policy : QuorumPolicy) (votes : Int) : Prop :=
  q.need policy ≤ votes

instance (q : Quorum) (policy : QuorumPolicy) (votes : Int) : Decidable (q.Met policy votes) :=
  inferInstanceAs (Decidable (_ ≤ _))

end Quorum

end Replication.Election
