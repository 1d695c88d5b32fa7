import Mathlib.Data.Finset.Card
import Mathlib.Logic.Function.Iterate
import Replication.Scan.Timeline

/-! # Departures

Partitions that leave their homes while a query is open.  `Departures` tells the stores in
which each of some partitions leaves at most once and no other does, whatever the order in
which the parts of a migration reach the shards.
-/

namespace Replication.Scan

open Replication.Placement (PartitionId ShardId Topology)

namespace Timeline

def after (t : Timeline) (looks : Nat) : Timeline :=
  pass^[looks] t

/-- Whether a node that looks at its topology now, and at its open partitions with the look
    behind that, finds that a partition is at its home. -/
def AtHome (t : Timeline) (base : Topology) (p : PartitionId) : Prop :=
  ∃ x, base.placement.get? p = some x ∧
    ¬ (t.now.shard x).topology.sequence < base.sequence ∧
    (t.now.shard x).topology.placement.get? p = some x ∧
    p ∈ (t.pass.now.shard x).opened

end Timeline

/-- Whether from some moment on nothing but some partitions leaves its home of a topology, each
    at most once, in a store that has no other entries than these and keeps the topology on
    record. -/
structure Departures (base : Topology) (entries : Finset IndexEntry)
    (leaving : Finset PartitionId) (t : Timeline) : Prop where
  recorded : ∀ i, (t.after i).now.history.get base.sequence = .ok base
  listed : ∀ i x, ∀ e ∈ ((t.after i).now.shard x).index, e ∈ entries
  /-- Of a partition that does not leave, its home hears nothing else. -/
  settled : ∀ p x, base.placement.get? p = some x → p ∉ leaving → ∀ i,
    ¬ ((t.after i).now.shard x).topology.sequence < base.sequence →
      ((t.after i).now.shard x).topology.placement.get? p = some x
  stays : ∀ p ∉ leaving, ∀ i j, i ≤ j → (t.after i).AtHome base p → (t.after j).AtHome base p
  /-- A partition that has left and is back does not leave again. -/
  once : ∀ p ∈ leaving, ∀ i j k l, i ≤ j → j ≤ k → k ≤ l → (t.after i).AtHome base p →
    ¬ (t.after j).AtHome base p → (t.after k).AtHome base p → (t.after l).AtHome base p

/-- Whether a query is done after at most so many batches, unless a request fails. -/
def Fleet.EndsWithin {ω : Type} (fleet : Fleet ω) (query : Query) (batches : Nat)
    (c : Client ω) : Prop :=
  (∀ answer ∈ fleet.drain query batches c, ∃ results, answer.1 = .ok results) →
    ∃ answer ∈ fleet.drain query batches c, answer.2.done = true

end Replication.Scan
