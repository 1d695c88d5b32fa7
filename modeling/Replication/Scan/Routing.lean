import Replication.Scan.Node

/-! # Routing the batches of a query

A query visits the shards of the topology that it started on, ascending, and then the
virtual scans that base scans made, ascending by partition.  Each batch goes to the node
of the current target; when that has nothing left, the key moves to the next target.
`Fleet.next` is the client's side: it sends the key back until the query is done.
-/

namespace Replication.Scan

open Replication.Placement (History PartitionId PlacementError ShardId Topology)

/-! ## 1. Targets -/

/-- A shard to be visited, for its base partitions or for one virtual scan. -/
structure Target where
  shard : ShardId
  partition : PartitionId := noVirtualScan
deriving DecidableEq, Repr

def Target.isVirtual (t : Target) : Bool :=
  t.partition ≠ noVirtualScan

/-- The targets of a query that started on a topology. -/
def ContinuationKey.targets (k : ContinuationKey) (base : Topology) : List Target :=
  base.shards.map (fun shard => { shard := shard })
    ++ k.virtualScans.entries.map fun (p, scan) => { shard := scan.target, partition := p }

/-- The place of a query's current target. -/
def ContinuationKey.place (k : ContinuationKey) (targets : List Target) : Except ScanError Nat :=
  if k.isVirtual then
    match targets.findIdx? (·.partition = k.virtualPartition) with
    | some i => .ok i
    | none => .error (.unknownTarget k.virtualPartition)
  else .ok k.shardIndex.toInt.toNat

/-- The key that stands at the front of a target. -/
def ContinuationKey.moveTo (k : ContinuationKey) (place : Nat) (targets : List Target) :
    ContinuationKey :=
  { k with
    shardIndex := Int32.ofNat place
    resume := none
    virtualPartition := (targets[place]?.map (·.partition)).getD noVirtualScan }

/-! ## 2. Nodes -/

/-- The nodes of a store. -/
structure Fleet (ω : Type) where
  history : EStateM PlacementError ω History
  node? : ShardId → Option (ShardView ω)
  /-- How many times more a node looks whether it can scan. -/
  patience : Nat := 0

/-- A world and what its nodes have counted. -/
structure FleetState (ω : Type) where
  world : ω
  stats : Table ShardId NodeStats := .empty

/-- The results of a batch, and the key to ask for the next one with. -/
structure QueryBatch where
  results : List IndexEntry := []
  continuation : Octets
  done : Bool
deriving DecidableEq, Repr

namespace Fleet

variable {ω α : Type} (fleet : Fleet ω)

/-- A look at the history. -/
def askHistory (f : History → Except PlacementError α) :
    EStateM ScanError (FleetState ω) α := fun s =>
  match fleet.history s.world with
  | .ok h world =>
    match f h with
    | .ok a => .ok a { s with world }
    | .error e => .error (.placement e) { s with world }
  | .error e world => .error (.placement e) { s with world }

/-- The work of a node on a key.  What it changed stays changed when it fails. -/
def atNode (shard : ShardId) (key : ContinuationKey) (x : ShardView ω → ScanM ω α)
    (s : FleetState ω) : Except ScanError α × ContinuationKey × FleetState ω :=
  match fleet.node? shard with
  | none => (.error (.noNode shard), key, s)
  | some view =>
    let counted (r : Scanning ω) : ContinuationKey × FleetState ω :=
      (r.key, { world := r.world, stats := s.stats.insert shard r.stats })
    match x view { world := s.world, key, stats := (s.stats.get? shard).getD {} } with
    | .ok a r => (.ok a, counted r)
    | .error e r => (.error e, counted r)

/-- An answer that may be a refusal. -/
def answer (x : Except ScanError α) : EStateM ScanError (FleetState ω) α :=
  match x with
  | .ok a => pure a
  | .error e => throw e

def targets (key : ContinuationKey) : EStateM ScanError (FleetState ω) (List Target) := do
  return key.targets (← fleet.askHistory (·.get key.topology))

/-- A batch of a target, and the key behind it. -/
def scan (query : Query) (target : Target) (key : ContinuationKey) :
    EStateM ScanError (FleetState ω) (Batch × ContinuationKey) := fun s =>
  let work (view : ShardView ω) : ScanM ω Batch :=
    if target.isVirtual then scanVirtual view query fleet.patience
    else scanBase view query fleet.patience
  match fleet.atNode target.shard key work s with
  | (.ok batch, key, s) => .ok (batch, key) s
  | (.error e, _, s) => .error e s

/-- The key that a client sent; a query starts with none. -/
def readKey : (continuation : Octets) → Except KeyError ContinuationKey
  | [] => .ok {}
  | bytes => ContinuationKey.parse bytes

/-- The key that a client sent, on the current topology if it names none. -/
def keyOf (continuation : Octets) : EStateM ScanError (FleetState ω) ContinuationKey := do
  match readKey continuation with
  | .error e => throw (.key e)
  | .ok key =>
    if key.topology < 0 then
      return { key with topology := (← fleet.askHistory (·.current)).sequence }
    return key

/-- The batch that a key asks for.  A base scan may add virtual scans behind its target, so
    the targets are looked up again before the key moves on. -/
def batchAt (query : Query) (key : ContinuationKey) :
    EStateM ScanError (FleetState ω) QueryBatch := do
  let targets ← fleet.targets key
  let place ← answer (key.place targets)
  match targets[place]? with
  | none => return { continuation := key.write, done := true }
  | some target =>
    let (batch, key) ← fleet.scan query target key
    if batch.exhausted then
      let targets ← fleet.targets key
      let key := key.moveTo (place + 1) targets
      return {
        results := batch.results, continuation := key.write
        done := targets.length ≤ place + 1 }
    else return { results := batch.results, continuation := key.write, done := false }

def executeBatch (query : Query) (continuation : Octets) :
    EStateM ScanError (FleetState ω) QueryBatch := do
  fleet.batchAt query (← fleet.keyOf continuation)

end Fleet

/-! ## 3. Clients -/

/-- A client in the middle of a query. -/
structure Client (ω : Type) where
  state : FleetState ω
  /-- The key of the latest batch, and no bytes before the first one. -/
  continuation : Octets := []
  done : Bool := false
  batches : Nat := 0

/-- Asks for the next batch, which may be empty before the query is done.  When that
    fails the client may ask again. -/
def Fleet.next {ω : Type} (fleet : Fleet ω) (query : Query) :
    EStateM ScanError (Client ω) (List IndexEntry) := fun c =>
  if c.done then .ok [] c
  else
    match fleet.executeBatch query c.continuation c.state with
    | .ok b state =>
      .ok b.results {
        state, continuation := b.continuation, done := b.done, batches := c.batches + 1 }
    | .error e state => .error e { c with state }

/-- The results of so many batches, each with the client behind it; fewer if the query is
    done or fails. -/
def Fleet.drain {ω : Type} (fleet : Fleet ω) (query : Query) :
    Nat → Client ω → List (Except ScanError (List IndexEntry) × Client ω)
  | 0, _ => []
  | count + 1, c =>
    if c.done then []
    else
      match fleet.next query c with
      | .ok results c => (.ok results, c) :: fleet.drain query count c
      | .error e c => [(.error e, c)]

end Replication.Scan
