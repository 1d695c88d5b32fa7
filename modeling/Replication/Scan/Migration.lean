import Replication.Scan.Timeline

/-! # Complete migrations

Partitions that move in one step: their entries, the history and what the shards have heard
of change together.  A partition may move as often as it likes and come back to where it was.
`Orderly` tells which moves that fall into a batch can be noticed by it.
-/

namespace Replication.Scan

open Replication.Placement (History PartitionId ShardId Topology)

/-! ## 1. Stores at rest -/

/-- Whether a store is as a topology has it: every shard has heard of that one, and has just
    its own partitions open, caught up and with all their entries. -/
structure Situation.Rests (s : Situation) (entries : List IndexEntry) (t : Topology) : Prop where
  current : s.history.current = .ok t
  heard : ∀ x, (s.shard x).topology = t
  opened : ∀ x p, p ∈ (s.shard x).opened ↔ t.placement.get? p = some x
  caughtUp : ∀ x p, t.placement.get? p = some x → p ∉ (s.shard x).lagging
  whole : ∀ x (e : IndexEntry), t.placement.get? e.partition = some x →
    (e ∈ (s.shard x).index ↔ e ∈ entries)
  ascending : ∀ x, (s.shard x).index.Pairwise (· < ·)

/-- The store at rest on a topology that came after others. -/
def Situation.resting (entries : List IndexEntry) (t : Topology) (earlier : List Topology) :
    Situation where
  history := { topologies := t :: earlier }
  shard x :=
    { topology := t
      opened := t.partitionsOf x
      index := entries.filter fun e => t.placement.get? e.partition = some x }

/-- A migration that is complete at once. -/
def Migrates (entries : List IndexEntry) (s s' : Situation) : Prop :=
  ∃ t p target t', s.Rests entries t ∧ t.migrate p target = .ok t' ∧
    s.history.add t' = .ok s'.history ∧ s'.Rests entries t'

/-- The entries of a store, and where its partitions are at first. -/
structure Holdings where
  base : Topology
  entries : List IndexEntry
  named : ∀ p shard, base.placement.get? p = some shard → 0 ≤ p
  placed : ∀ e ∈ entries, (base.placement.get? e.partition).isSome

/-- Whether nothing happens to a store but complete migrations, any number of them between
    two looks. -/
structure Holdings.Governs (h : Holdings) (t : Timeline) : Prop where
  rests : t.now.Rests h.entries h.base
  steps : (t.now :: t.later).IsChain (Relation.ReflTransGen (Migrates h.entries))

/-! ## 2. Orderly batches -/

namespace Timeline

/-- What the store is like at each look from one moment to a later one. -/
def span (t t' : Timeline) : List Situation :=
  t.now :: t.later.take (t.later.length - t'.later.length)

/-- Whether a partition is open at a shard at each look from one moment to a later one. -/
def presence (t t' : Timeline) (x : ShardId) (p : PartitionId) : List Bool :=
  (t.span t').map fun s => p ∈ (s.shard x).opened

end Timeline

def ContinuationKey.target? (k : ContinuationKey) (base : Topology) : Option Target :=
  match k.place (k.targets base) with
  | .ok place => (k.targets base)[place]?
  | .error _ => none

/-- Whether a batch of a target can notice what happens between two moments.  The partition of
    a virtual scan must not leave its shard meanwhile, and a base partition that leaves must
    not come back. -/
def Orderly (base : Topology) (target : Target) (t t' : Timeline) : Prop :=
  if target.isVirtual then
    ¬ [true, false].Sublist (t.presence t' target.shard target.partition)
  else
    ∀ p, base.placement.get? p = some target.shard →
      ¬ [true, false, true].Sublist (t.presence t' target.shard p)

/-- Whether each of so many requests is orderly, if it brings a batch. -/
def Fleet.Orderly (fleet : Fleet Timeline) (query : Query) (requests : Nat)
    (c : Client Timeline) : Prop :=
  ∀ n < requests, let asking := (fleet.gather query n c).2
    ∀ k s base target results answered,
      fleet.keyOf asking.continuation asking.state = .ok k s →
      s.world.now.history.get k.topology = .ok base → k.target? base = some target →
      fleet.next query asking = .ok results answered →
        Scan.Orderly base target s.world answered.state.world

end Replication.Scan
