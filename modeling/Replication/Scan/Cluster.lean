import Replication.Scan.Routing

/-! # Clusters

The shards of a store in memory, whose placement and index can be changed at any time:
between batches by applying a `Change`, or in the middle of a batch by a `Hook` that
waits for a node to look at its index or its topology.
-/

namespace Replication.Scan

open Replication.Placement (History PartitionId PlacementError ShardId Topology)

/-! ## 1. Shards -/

/-- A shard: the topology it has heard of, its open partitions, its index in ascending
    order, and the partitions that are not replicated in full. -/
structure Shard where
  topology : Topology
  opened : List PartitionId := []
  index : List IndexEntry := []
  lagging : List PartitionId := []
deriving DecidableEq, Repr

namespace Shard

/-- Puts an entry where it belongs, once. -/
def insertEntry (e : IndexEntry) : List IndexEntry → List IndexEntry
  | [] => [e]
  | x :: rest =>
    if e < x then e :: x :: rest
    else if e = x then x :: rest
    else x :: insertEntry e rest

def insert (s : Shard) (e : IndexEntry) : Shard :=
  { s with index := insertEntry e s.index }

def erase (s : Shard) (e : IndexEntry) : Shard :=
  { s with index := s.index.filter (· ≠ e) }

def openPartition (s : Shard) (p : PartitionId) : Shard :=
  { s with opened := p :: s.opened.filter (· ≠ p) }

def closePartition (s : Shard) (p : PartitionId) : Shard :=
  { s with opened := s.opened.filter (· ≠ p) }

def setLagging (s : Shard) (p : PartitionId) (lags : Bool) : Shard :=
  { s with lagging := if lags then p :: s.lagging else s.lagging.filter (· ≠ p) }

/-- The first entry of an open partition behind a position. -/
def next (s : Shard) (after : Option IndexEntry) : Option { e : IndexEntry // Follows e after } :=
  go s.index
where
  /-- The first such entry among those of a list. -/
  go : List IndexEntry → Option { e : IndexEntry // Follows e after }
    | [] => none
    | e :: rest =>
      if h : Follows e after then
        if e.partition ∈ s.opened then some ⟨e, h⟩ else go rest
      else go rest

end Shard

/-! ## 2. Changes -/

/-- What a hook waits for: that the node of a shard reads along its index, or that it looks
    at its topology. -/
inductive Occasion where
  | read
  | topology
deriving DecidableEq, Repr

/-- What may happen to a cluster. -/
inductive Change where
  /-- The history goes on with a topology in which a partition has moved. -/
  | advance (p : PartitionId) (target : ShardId)
  /-- The data of a partition moves. -/
  | move (p : PartitionId) (source target : ShardId)
  /-- A shard hears of the latest topology. -/
  | publish (shard : ShardId)
  /-- A shard hears of an earlier topology. -/
  | publishOld (shard : ShardId) (sequence : Int64)
  /-- A partition moves, and every shard hears of it. -/
  | migrate (p : PartitionId) (target : ShardId)
  | addTopology (t : Topology)
  | lag (shard : ShardId) (p : PartitionId) (lags : Bool)
  | insert (shard : ShardId) (e : IndexEntry)
  | erase (shard : ShardId) (e : IndexEntry)
  | openPartition (shard : ShardId) (p : PartitionId)
  | closePartition (shard : ShardId) (p : PartitionId)
  /-- Changes that wait for the occasion after so many more of its kind.  They take the
      place of others that wait for such an occasion at the same shard. -/
  | hook (occasion : Occasion) (shard : ShardId) (delay : Nat) (changes : List Change)
deriving Inhabited

/-- Changes that wait for an occasion. -/
structure Hook where
  occasion : Occasion
  shard : ShardId
  /-- How many occasions pass before. -/
  delay : Nat
  changes : List Change

/-- Whether a hook waits for an occasion at a shard. -/
def Hook.concerns (h : Hook) (occasion : Occasion) (shard : ShardId) : Bool :=
  h.occasion = occasion ∧ h.shard = shard

mutual

/-- How many hooks a change sets, at once or later. -/
def Change.hooks : Change → Nat
  | .hook _ _ _ changes => Change.hooksOf changes + 1
  | _ => 0

/-- How many hooks some changes set. -/
def Change.hooksOf : List Change → Nat
  | [] => 0
  | c :: rest => c.hooks + Change.hooksOf rest

end

/-! ## 3. Clusters -/

/-- A store: its history, its shards, and what waits to happen. -/
structure Cluster where
  history : History := {}
  shards : Table ShardId Shard := .empty
  hooks : List Hook := []

namespace Cluster

/-- A cluster in which every shard knows the topology and holds its own part of the
    entries. -/
def ofTopology (t : Topology) (shards : List ShardId) (entries : List IndexEntry) : Cluster :=
  { history := { topologies := [t] }
    shards := Table.ofList (shards.map fun shard =>
      let index := entries.filter fun e => t.placement.get? e.partition = some shard
      (shard, {
        topology := t
        opened := t.partitionsOf shard
        index := index.foldl (fun index e => Shard.insertEntry e index) [] })) }

def onShard (c : Cluster) (shard : ShardId) (f : Shard → Shard) : Cluster :=
  { c with shards := c.shards.update shard f }

/-- Moves the data of a partition.  The target gets the entries before the source drops
    them, so a move to the same shard loses them. -/
def moveData (c : Cluster) (p : PartitionId) (source target : ShardId) : Cluster :=
  let moving := ((c.shards.get? source).map (·.index.filter (·.partition = p))).getD []
  let c := c.onShard target fun s => moving.foldl Shard.insert s
  let c := c.onShard source fun s =>
    { s with index := s.index.filter (·.partition ≠ p) }.closePartition p
  c.onShard target (·.openPartition p)

def apply (c : Cluster) : Change → Except PlacementError Cluster
  | .advance p target => advance c p target
  | .move p source target => .ok (c.moveData p source target)
  | .publish shard => do
    let t ← c.history.current
    return c.onShard shard ({ · with topology := t })
  | .publishOld shard sequence => do
    let t ← c.history.get sequence
    return c.onShard shard ({ · with topology := t })
  | .migrate p target => do
    let source ← (← c.history.current).shardOf p
    let c := (← advance c p target).moveData p source target
    let t ← c.history.current
    return { c with shards := c.shards.map ({ · with topology := t }) }
  | .addTopology t => do return { c with history := ← c.history.add t }
  | .lag shard p lags => .ok (c.onShard shard (·.setLagging p lags))
  | .insert shard e => .ok (c.onShard shard (·.insert e))
  | .erase shard e => .ok (c.onShard shard (·.erase e))
  | .openPartition shard p => .ok (c.onShard shard (·.openPartition p))
  | .closePartition shard p => .ok (c.onShard shard (·.closePartition p))
  | .hook occasion shard delay changes =>
    .ok { c with hooks := { occasion, shard, delay, changes } ::
      c.hooks.filter (!·.concerns occasion shard) }
where
  /-- Adds the topology in which a partition has moved to the history. -/
  advance (c : Cluster) (p : PartitionId) (target : ShardId) : Except PlacementError Cluster := do
    let t ← (← c.history.current).migrate p target
    return { c with history := ← c.history.add t }

/-- The cluster after some changes; a change that fails is the last one. -/
def applyAll : List Change → EStateM PlacementError Cluster Unit
  | [] => return ()
  | change :: rest => fun c =>
    match c.apply change with
    | .ok c => applyAll rest c
    | .error e => .error e c

/-- Lets happen what waits for an occasion at a shard. -/
def occur (occasion : Occasion) (shard : ShardId) : EStateM PlacementError Cluster Unit := do
  let c ← get
  match c.hooks.find? (·.concerns occasion shard) with
  | none => return ()
  | some h =>
    let others := c.hooks.filter (!·.concerns occasion shard)
    match h.delay with
    | 0 =>
      set { c with hooks := others }
      applyAll h.changes
    | delay + 1 => set { c with hooks := { h with delay } :: others }

/-- What the node of a shard sees. -/
def view (shard : ShardId) : ShardView Cluster :=
  let state (c : Cluster) : Shard := (c.shards.get? shard).getD { topology := {} }
  { shard
    history := return (← get).history
    localTopology := do
      occur .topology shard
      return (state (← get)).topology
    openPartitions := return (state (← get)).opened
    caughtUp p := return p ∉ (state (← get)).lagging
    nextEntry after := do
      occur .read shard
      return (state (← get)).next after
    unrest c := c.hooks.foldr (fun h n => Change.hooksOf h.changes + 1 + n) 0 }

/-- The nodes of some shards of a cluster. -/
def fleet (shards : List ShardId) (patience : Nat) : Fleet Cluster where
  history := return (← get).history
  node? shard := if shard ∈ shards then some (view shard) else none
  patience

end Cluster

end Replication.Scan
