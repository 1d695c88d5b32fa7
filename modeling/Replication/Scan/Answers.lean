import Replication.Scan.Timeline

/-! # Answers

What a query returns from a store in which nothing moves, and what it is to drain a client: to
ask for batches until there are no more.
-/

namespace Replication.Scan

open Replication.Placement (ShardId Topology)

/-- Whether a store is on a topology: the shards that own partitions have heard of it, and have
    just their own partitions open.  Their indexes may hold entries of other partitions. -/
structure Situation.Serves (s : Situation) (t : Topology) : Prop where
  current : s.history.current = .ok t
  heard : ∀ x ∈ t.shards, (s.shard x).topology = t
  opened : ∀ x ∈ t.shards, ∀ p, p ∈ (s.shard x).opened ↔ t.placement.get? p = some x
  ascending : ∀ x ∈ t.shards, (s.shard x).index.Pairwise (· < ·)

/-- What a query on a topology asks for, shard by shard. -/
def Situation.answer (s : Situation) (t : Topology) (admits : IndexEntry → Bool) :
    List IndexEntry :=
  t.shards.flatMap fun x => (s.shard x).index.filter fun e =>
    t.placement.get? e.partition = some x && admits e

/-- Whether the batches of a client come one after the other until it is done: none of its
    requests fails, and no batch is above the limit. -/
structure Fleet.Completes {ω : Type} (fleet : Fleet ω) (query : Query) (c : Client ω)
    (run : List (List IndexEntry × Client ω)) : Prop where
  drained : ∀ requests, run.length ≤ requests →
    fleet.drain query requests c = run.map fun (results, c) => (.ok results, c)
  ended : ∀ last ∈ run.getLast?, last.2.done = true
  limited : ∀ batch ∈ run, batch.1.length ≤ query.batchLimit

end Replication.Scan
