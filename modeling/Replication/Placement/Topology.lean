import Replication.Octets.Decimal
import Replication.Table

/-! # Topologies

A store's partitions are placed on shards, and move between them while the store is in
use.  Every move makes a new topology with the next sequence number, and the history
keeps all of them.
-/

namespace Replication.Placement

/-- The number of a shard. -/
abbrev ShardId := Int32

/-- The number of a partition. -/
abbrev PartitionId := Int32

/-! ## 1. Errors -/

/-- Why a question about the placement has no answer, or a change of it is refused. -/
inductive PlacementError where
  | unknownPartition (p : PartitionId) (sequence : Int64)
  | cannotMigrate (p : PartitionId)
  /-- A topology does not follow the latest one. -/
  | notNewer (sequence latest : Int64)
  | unknownTopology (sequence : Int64)
  | emptyHistory
deriving DecidableEq, Repr

def PlacementError.message : PlacementError → Octets
  | .unknownPartition p sequence =>
    .ofAscii "partition " ++ Decimal.render p.toInt ++ .ofAscii " is not in topology "
      ++ Decimal.render sequence.toInt
  | .cannotMigrate p => .ofAscii "cannot migrate unknown partition " ++ Decimal.render p.toInt
  | .notNewer sequence latest =>
    .ofAscii "topology " ++ Decimal.render sequence.toInt ++ .ofAscii " is not newer than "
      ++ Decimal.render latest.toInt
  | .unknownTopology sequence =>
    .ofAscii "no topology with sequence " ++ Decimal.render sequence.toInt
  | .emptyHistory => .ofAscii "topology history is empty"

/-! ## 2. Topologies -/

/-- Where each partition is, at one point of the store's history. -/
structure Topology where
  sequence : Int64 := 0
  placement : Table PartitionId ShardId := .empty
deriving DecidableEq, Repr

namespace Topology

def shardOf (t : Topology) (p : PartitionId) : Except PlacementError ShardId :=
  match t.placement.get? p with
  | some shard => .ok shard
  | none => .error (.unknownPartition p t.sequence)

/-- The partitions that a shard owns, ascending. -/
def partitionsOf (t : Topology) (shard : ShardId) : List PartitionId :=
  (t.placement.entries.filter (·.2 = shard)).map (·.1)

/-- The shards that own a partition, ascending. -/
def shards (t : Topology) : List ShardId :=
  (Table.ofList (t.placement.values.map fun shard => (shard, ()))).keys

/-- How many partitions there are. -/
def size (t : Topology) : Nat :=
  t.placement.entries.length

/-- The topology after a partition has moved to a shard. -/
def migrate (t : Topology) (p : PartitionId) (target : ShardId) : Except PlacementError Topology :=
  if t.placement.contains p then
    .ok { sequence := t.sequence + 1, placement := t.placement.insert p target }
  else .error (.cannotMigrate p)

/-- The text of a topology: each shard in front of its partitions. -/
def render (t : Topology) : Octets :=
  .ofAscii "topo#" ++ Decimal.render t.sequence.toInt ++ t.shards.flatMap fun shard =>
    .ofAscii " s" ++ Decimal.render shard.toInt ++ .ofAscii ":"
      ++ (t.partitionsOf shard).flatMap fun p => .ofAscii " p" ++ Decimal.render p.toInt

end Topology

/-! ## 3. Histories -/

/-- Every topology that a store went through, the latest one first. -/
structure History where
  topologies : List Topology := []
deriving DecidableEq, Repr

namespace History

def current (h : History) : Except PlacementError Topology :=
  match h.topologies with
  | t :: _ => .ok t
  | [] => .error .emptyHistory

def get (h : History) (sequence : Int64) : Except PlacementError Topology :=
  match h.topologies.find? (·.sequence = sequence) with
  | some t => .ok t
  | none => .error (.unknownTopology sequence)

/-- Adds a topology, whose sequence number has to be above all earlier ones. -/
def add (h : History) (t : Topology) : Except PlacementError History :=
  match h.topologies with
  | latest :: _ =>
    if latest.sequence < t.sequence then .ok { topologies := t :: h.topologies }
    else .error (.notNewer t.sequence latest.sequence)
  | [] => .ok { topologies := [t] }

end History

end Replication.Placement
