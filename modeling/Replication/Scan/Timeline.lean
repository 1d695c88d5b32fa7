import Mathlib.Data.List.Chain
import Mathlib.Logic.Relation
import Replication.Scan.Cluster

/-! # Timelines

A store that becomes something else between any two looks at it.  A `Timeline` lists all
that it will be, so what a query finds is a function of the timeline and of nothing else.
`Relocation` tells the timelines in which partitions move, each from its home to one other
shard, with no more order among the parts of a move than the data needs.
-/

namespace Replication.Scan

open Replication.Placement (History PartitionId PlacementError ShardId Topology)

/-! ## 1. Stores in time -/

/-- A store at one moment. -/
structure Situation where
  history : History := {}
  shard : ShardId → Shard

def Situation.onShard (s : Situation) (shard : ShardId) (f : Shard → Shard) : Situation :=
  { s with shard := fun other => if other = shard then f (s.shard other) else s.shard other }

/-- A store now, and what it will be like after each of the looks to come. -/
structure Timeline where
  now : Situation
  later : List Situation := []

namespace Timeline

/-- The timeline after a look.  In the end nothing changes any more. -/
def pass : Timeline → Timeline
  | { now, later := [] } => { now }
  | { later := next :: rest, .. } => { now := next, later := rest }

def look {α : Type} (f : Situation → α) : EStateM PlacementError Timeline α := fun t =>
  .ok (f t.now) t.pass

/-- What the node of a shard sees. -/
def view (shard : ShardId) : ShardView Timeline where
  shard
  history := look (·.history)
  localTopology := look fun s => (s.shard shard).topology
  openPartitions := look fun s => (s.shard shard).opened
  caughtUp p := look fun s => p ∉ (s.shard shard).lagging
  nextEntry after := look fun s => (s.shard shard).next after
  unrest t := t.later.length

def fleet (nodes : List ShardId) (patience : Nat) : Fleet Timeline where
  history := look (·.history)
  node? shard := if shard ∈ nodes then some (view shard) else none
  patience

end Timeline

/-- All that so many requests for a batch bring, where the ones that fail are made again. -/
def Fleet.gather {ω : Type} (fleet : Fleet ω) (query : Query) :
    Nat → Client ω → List IndexEntry × Client ω
  | 0, c => ([], c)
  | count + 1, c =>
    match fleet.next query c with
    | .ok results c =>
      let (more, c) := fleet.gather query count c
      (results ++ more, c)
    | .error _ c => fleet.gather query count c

/-! ## 2. Relocations -/

/-- Whether a partition can be read in full at a shard, as far as the shard can tell. -/
def Shard.Ready (s : Shard) (p : PartitionId) : Prop :=
  p ∈ s.opened ∧ p ∉ s.lagging

instance (s : Shard) (p : PartitionId) : Decidable (s.Ready p) :=
  inferInstanceAs (Decidable (_ ∧ _))

/-- Where the partitions of a topology go while its store is in use.  One that stays has
    its home for its destination. -/
structure Relocation where
  base : Topology
  destination : PartitionId → ShardId
  /-- The entries of all partitions. -/
  entries : List IndexEntry
  named : ∀ p shard, base.placement.get? p = some shard → 0 ≤ p
  placed : ∀ e ∈ entries, (base.placement.get? e.partition).isSome

namespace Relocation

variable (r : Relocation)

/-- Whether a shard has all entries of a partition, and no others of it. -/
def Complete (s : Shard) (p : PartitionId) : Prop :=
  ∀ e : IndexEntry, e.partition = p → (e ∈ s.index ↔ e ∈ r.entries)

/-- Whether a topology has every partition at its home or at its destination. -/
def Admits (t : Topology) : Prop :=
  ∀ p home, r.base.placement.get? p = some home →
    t.placement.get? p = some home ∨ t.placement.get? p = some (r.destination p)

/-- Whether a shard may have heard of a topology: the older ones may say anything. -/
def Hearsay (t : Topology) : Prop :=
  t.sequence < r.base.sequence ∨ r.Admits t

/-- Whether a shard's entries of a partition are there to be read. -/
def Relied (s : Situation) (shard : ShardId) (p : PartitionId) : Prop :=
  (r.base.placement.get? p = some shard ∧ p ∈ (s.shard shard).opened) ∨
    (r.destination p = shard ∧ (s.shard shard).Ready p)

/-- What can happen.  A partition is closed anywhere but at its destination, it is opened
    there, and there it has caught up only when all its entries have come.  Nothing says
    which of these comes first, nor when anybody hears of it. -/
inductive Step : Situation → Situation → Prop where
  | record {s : Situation} {t : Topology} {h : History} (admitted : r.Admits t)
    (added : s.history.add t = .ok h) : Step s { s with history := h }
  | hear {s : Situation} (shard : ShardId) {t : Topology} (hearsay : r.Hearsay t) :
    Step s (s.onShard shard ({ · with topology := t }))
  | close {s : Situation} (shard : ShardId) (p : PartitionId) (leaves : r.destination p ≠ shard) :
    Step s (s.onShard shard (·.closePartition p))
  | arrive {s : Situation} (p : PartitionId)
    (whole : p ∈ (s.shard (r.destination p)).lagging ∨ r.Complete (s.shard (r.destination p)) p) :
    Step s (s.onShard (r.destination p) (·.openPartition p))
  | lag {s : Situation} (p : PartitionId) (closed : p ∉ (s.shard (r.destination p)).opened) :
    Step s (s.onShard (r.destination p) (·.setLagging p true))
  | catchUp {s : Situation} (p : PartitionId)
    (whole : r.Complete (s.shard (r.destination p)) p) :
    Step s (s.onShard (r.destination p) (·.setLagging p false))
  /-- Entries are copied to a shard or dropped there. -/
  | store {s : Situation} (shard : ShardId) (index : List IndexEntry)
    (ascending : index.Pairwise (· < ·))
    (kept : ∀ e : IndexEntry, r.Relied s shard e.partition →
      (e ∈ index ↔ e ∈ (s.shard shard).index)) :
    Step s (s.onShard shard ({ · with index }))

/-- A store on the topology from which the partitions set out: all are at home, open and
    caught up, and whatever is ready at its destination is all there. -/
structure Settled (s : Situation) : Prop where
  current : s.history.current = .ok r.base
  heard : ∀ shard, r.Hearsay (s.shard shard).topology
  home : ∀ p shard, r.base.placement.get? p = some shard →
    (s.shard shard).Ready p ∧ r.Complete (s.shard shard) p
  arrived : ∀ p shard, r.base.placement.get? p = some shard →
    (s.shard (r.destination p)).Ready p → r.Complete (s.shard (r.destination p)) p
  ascending : ∀ shard, (s.shard shard).index.Pairwise (· < ·)

/-- Whether the partitions set out now, and nothing else happens from now on. -/
structure Governs (t : Timeline) : Prop where
  settled : r.Settled t.now
  steps : (t.now :: t.later).IsChain (Relation.ReflTransGen r.Step)

/-- Whether the partitions set out when a client's query starts, which it does with the
    first request that does not fail. -/
def Starts (fleet : Fleet Timeline) (query : Query) (c : Client Timeline) : Prop :=
  ∀ requests, let waiting := (fleet.gather query requests c).2
    waiting.continuation = [] → (∃ results next, fleet.next query waiting = .ok results next) →
      r.Governs waiting.state.world

end Relocation

end Replication.Scan
