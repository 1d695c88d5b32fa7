import Replication.Scan.Key

/-! # Scanning a shard

A node scans its shard's index while partitions come and go.  `readFrom` is one walk
along the index; `scanBase` scans the partitions that the shard owned when the query
started, and hands those that have left over to virtual scans; `scanVirtual` scans one
partition that has arrived.

* A base batch during which a target left is thrown away, since the walk may have skipped
  entries of that partition behind the new resume position.
* The world may change whenever the node looks at it, so every look is an operation of
  the `ShardView`.
-/

namespace Replication.Scan

open Replication.Placement (History PartitionId PlacementError ShardId Topology)

/-! ## 1. Queries and batches -/

/-- What a query asks for, and how much of it at a time. -/
structure Query where
  admits : IndexEntry → Bool
  /-- Results of a batch. -/
  batchLimit : Nat := 100
  /-- Entries of scanned partitions that a batch reads, admitted or not. -/
  readLimit : Nat := 10000

/-- Some results, and whether there are none behind them. -/
structure Batch where
  results : List IndexEntry := []
  exhausted : Bool := false
deriving DecidableEq, Repr

/-! ## 2. Errors -/

/-- What a base scan waits for. -/
inductive Obstacle where
  /-- The shard has not heard of the query's topology. -/
  | topology (wanted known : Int64)
  /-- Other partitions are open than the shard's topology says. -/
  | openPartitions (sequence : Int64)
  /-- A partition that arrived is not replicated in full. -/
  | catchUp (p : PartitionId)
deriving DecidableEq, Repr

def Obstacle.message : Obstacle → Octets
  | .topology wanted known =>
    .ofAscii "topology " ++ Decimal.render wanted.toInt ++ .ofAscii " (have "
      ++ Decimal.render known.toInt ++ .ofAscii ")"
  | .openPartitions sequence =>
    .ofAscii "open partitions to match topology " ++ Decimal.render sequence.toInt
  | .catchUp p =>
    .ofAscii "migrated partition " ++ Decimal.render p.toInt ++ .ofAscii " to catch up"

/-- Why a batch does not come about. -/
inductive ScanError where
  | placement (e : PlacementError)
  | key (e : KeyError)
  /-- A partition came back to the shard that it had left. -/
  | returned (p : PartitionId) (shard target : ShardId)
  /-- A partition moved on from the shard of its virtual scan. -/
  | movedOn (p : PartitionId) (shard owner : ShardId)
  | noVirtualScan (p : PartitionId)
  | unknownTarget (p : PartitionId)
  | wrongShard (p : PartitionId) (target shard : ShardId)
  | noNode (shard : ShardId)
  | obstructed (shard : ShardId) (o : Obstacle)
  | unavailable (p : PartitionId) (shard : ShardId)
  /-- Every attempt at a batch was overtaken by a migration. -/
  | unsettled (shard : ShardId)
deriving DecidableEq, Repr

def ScanError.message : ScanError → Octets
  | .placement e => e.message
  | .key e => e.message
  | .returned p shard target =>
    .ofAscii "partition " ++ Decimal.render p.toInt ++ .ofAscii " returned to shard "
      ++ Decimal.render shard.toInt ++ .ofAscii " after moving to shard "
      ++ Decimal.render target.toInt
  | .movedOn p shard owner =>
    .ofAscii "partition " ++ Decimal.render p.toInt ++ .ofAscii " left shard "
      ++ Decimal.render shard.toInt ++ .ofAscii " for shard " ++ Decimal.render owner.toInt
      ++ .ofAscii " during the query"
  | .noVirtualScan p => .ofAscii "no virtual scan for partition " ++ Decimal.render p.toInt
  | .unknownTarget p =>
    .ofAscii "continuation key names unknown virtual scan of partition " ++ Decimal.render p.toInt
  | .wrongShard p target shard =>
    .ofAscii "virtual scan of partition " ++ Decimal.render p.toInt ++ .ofAscii " belongs to shard "
      ++ Decimal.render target.toInt ++ .ofAscii ", not " ++ Decimal.render shard.toInt
  | .noNode shard => .ofAscii "no scan node for shard " ++ Decimal.render shard.toInt
  | .obstructed shard o =>
    .ofAscii "shard " ++ Decimal.render shard.toInt ++ .ofAscii " timed out waiting for "
      ++ o.message
  | .unavailable p shard =>
    .ofAscii "partition " ++ Decimal.render p.toInt ++ .ofAscii " not available at shard "
      ++ Decimal.render shard.toInt
  | .unsettled shard =>
    .ofAscii "shard " ++ Decimal.render shard.toInt ++ .ofAscii " changed during every attempt"

/-! ## 3. What a node sees -/

/-- What a node sees of its shard and of the store, in a world of states `ω`. -/
structure ShardView (ω : Type) where
  shard : ShardId
  /-- The store's history, which is ahead of what the shard has heard of. -/
  history : EStateM PlacementError ω History
  localTopology : EStateM PlacementError ω Topology
  /-- The partitions whose data can be read here. -/
  openPartitions : EStateM PlacementError ω (List PartitionId)
  /-- Whether the data of a partition that came here is replicated in full. -/
  caughtUp : PartitionId → EStateM PlacementError ω Bool
  /-- The first entry of an open partition behind a position. -/
  nextEntry : (after : Option IndexEntry) →
    EStateM PlacementError ω (Option { e : IndexEntry // Follows e after })
  /-- How many times at most the placement may yet change while a batch is read. -/
  unrest : ω → Nat

/-- What a node has counted. -/
structure NodeStats where
  batches : Nat := 0
  discarded : Nat := 0
  /-- Virtual scans that base scans made. -/
  added : Nat := 0
deriving DecidableEq, Repr

/-- A world, the key of the query under way, and a node's counts. -/
structure Scanning (ω : Type) where
  world : ω
  key : ContinuationKey
  stats : NodeStats := {}

/-- A computation of a node. -/
abbrev ScanM (ω : Type) := EStateM ScanError (Scanning ω)

namespace ScanM

variable {ω α : Type}

/-- A look at the world. -/
def look (x : EStateM PlacementError ω α) : ScanM ω α := fun s =>
  match x s.world with
  | .ok a world => .ok a { s with world }
  | .error e world => .error (.placement e) { s with world }

/-- The answer of a topology or a history. -/
def ask (x : Except PlacementError α) : ScanM ω α :=
  match x with
  | .ok a => pure a
  | .error e => throw (.placement e)

def setKey (key : ContinuationKey) : ScanM ω Unit :=
  modify fun s => { s with key }

def count (f : NodeStats → NodeStats) : ScanM ω Unit :=
  modify fun s => { s with stats := f s.stats }

end ScanM

/-! ## 4. Reading along the index -/

/-- A walk along the index: the last entry of a scanned partition, how many such entries
    were read, and the results. -/
structure Reading (ω : Type) where
  world : ω
  resume : Option IndexEntry
  reads : Nat := 0
  results : List IndexEntry := []

namespace Reading

variable {ω : Type}

def next (view : ShardView ω) (cursor : Option IndexEntry) :
    EStateM PlacementError (Reading ω) (Option { e : IndexEntry // Follows e cursor }) := fun r =>
  match view.nextEntry cursor r.world with
  | .ok e world => .ok e { r with world }
  | .error e world => .error e { r with world }

/-- Takes an entry of a scanned partition. -/
def take (query : Query) (e : IndexEntry) (r : Reading ω) : Reading ω :=
  { r with
    resume := some e
    reads := r.reads + 1
    results := if query.admits e then r.results ++ [e] else r.results }

end Reading

/-- Walks along the index from behind `cursor` until a limit is reached, or to the end;
    whether the end was reached.  Entries of other partitions are passed over, and do not
    count. -/
def readFrom {ω : Type} (view : ShardView ω) (query : Query) (accepts : PartitionId → Bool)
    (cursor : Option IndexEntry) : EStateM PlacementError (Reading ω) Bool := do
  let r ← get
  if query.batchLimit ≤ r.results.length ∨ query.readLimit ≤ r.reads then return false
  match ← Reading.next view cursor with
  | none => return true
  | some ⟨e, _⟩ =>
    if accepts e.partition then modify (Reading.take query e)
    readFrom view query accepts (some e)
termination_by entriesBehind cursor
decreasing_by exact entriesBehind_lt (by assumption)

/-- Reads a batch from behind a resume position, which `put` then moves in the key, also
    when the reading fails. -/
def readBatch {ω : Type} (view : ShardView ω) (query : Query) (accepts : PartitionId → Bool)
    (resume : Option IndexEntry) (put : Option IndexEntry → ContinuationKey → ContinuationKey) :
    ScanM ω Batch := fun s =>
  match readFrom view query accepts resume { world := s.world, resume } with
  | .ok exhausted r =>
    .ok { results := r.results, exhausted } { s with world := r.world, key := put r.resume s.key }
  | .error e r => .error (.placement e) { s with world := r.world, key := put r.resume s.key }

/-! ## 5. Base scans -/

section Base

variable {ω : Type} (view : ShardView ω)

/-- What keeps a base scan from starting, in a shard of some topology: the shard has to
    know the query's topology, exactly its own partitions are open, and those among them
    that it did not own at the base are caught up. -/
def obstacle? (base here : Topology) : ScanM ω (Option Obstacle) := do
  if here.sequence < base.sequence then
    return some (.topology base.sequence here.sequence)
  let expected := here.partitionsOf view.shard
  let opened ← ScanM.look view.openPartitions
  if ¬ (expected ⊆ opened ∧ opened ⊆ expected) then return some (.openPartitions here.sequence)
  let arrived := expected.filter (· ∉ base.partitionsOf view.shard)
  return (← arrived.findM? fun p => return !(← ScanM.look (view.caughtUp p))).map .catchUp

/-- Waits until a base scan can start, looking so many times more; the shard's topology
    by then. -/
def awaitBase (base : Topology) (patience : Nat) : ScanM ω Topology := do
  let here ← ScanM.look view.localTopology
  match ← obstacle? view base here with
  | none => return here
  | some o =>
    match patience with
    | 0 => throw (.obstructed view.shard o)
    | patience + 1 => awaitBase base patience

/-- Refuses a query of which a partition has come back to this shard. -/
def checkReturned (base here : Topology) : ScanM ω Unit := do
  (← get).key.virtualScans.entries.forM fun (p, scan) => do
    if (← ScanM.ask (base.shardOf p)) = view.shard then
      if (← ScanM.ask (here.shardOf p)) = view.shard then
        throw (.returned p view.shard scan.target)

/-- Makes virtual scans of the base partitions that have left.  What they held up to the
    resume position was returned from here. -/
def addDeparted (base here : Topology) : ScanM ω Unit := do
  (base.partitionsOf view.shard).forM fun p => do
    let owner ← ScanM.ask (here.shardOf p)
    let key := (← get).key
    if owner ≠ view.shard ∧ ¬ key.virtualScans.contains p then
      ScanM.setKey { key with
        virtualScans := key.virtualScans.insert p { target := owner, resume := key.resume } }
      ScanM.count fun c => { c with added := c.added + 1 }

/-- Whether one of the partitions that were scanned has left meanwhile. -/
def targetsLeft (targets : List PartitionId) : ScanM ω Bool := do
  let here ← ScanM.look view.localTopology
  let opened ← ScanM.look view.openPartitions
  let owners ← targets.mapM fun p => ScanM.ask (here.shardOf p)
  return owners.any (· ≠ view.shard) || targets.any (· ∉ opened)

/-- Reads a batch of the base partitions, again while migrations interfere, in so many
    attempts at most. -/
def scanBaseWithin (query : Query) (patience : Nat) (base : Topology) :
    (attempts : Nat) → ScanM ω Batch
  | 0 => throw (.unsettled view.shard)
  | attempts + 1 => do
    let here ← awaitBase view base patience
    checkReturned view base here
    addDeparted view base here
    let key := (← get).key
    let targets := (base.partitionsOf view.shard).filter (!key.virtualScans.contains ·)
    let batch ← readBatch view query targets.contains key.resume fun resume k => { k with resume }
    if ← targetsLeft view targets then
      -- The batch is thrown away, and with it the resume position that it has reached.
      ScanM.setKey key
      ScanM.count fun c => { c with discarded := c.discarded + 1 }
      -- An exhausted walk is made again at once; otherwise the client comes back for the rest.
      if batch.exhausted then scanBaseWithin query patience base attempts
      else
        ScanM.count fun c => { c with batches := c.batches + 1 }
        return {}
    else
      ScanM.count fun c => { c with batches := c.batches + 1 }
      return batch

/-- A batch of the partitions that the shard owned when the query started.  An attempt
    fails only if the placement changed during it. -/
def scanBase (query : Query) (patience : Nat) : ScanM ω Batch := do
  let s ← get
  let base ← ScanM.ask ((← ScanM.look view.history).get s.key.topology)
  scanBaseWithin view query patience base (view.unrest s.world + 1)

end Base

/-! ## 6. Virtual scans -/

section Virtual

variable {ω : Type} (view : ShardView ω)

/-- Whether a partition can be scanned here. -/
def isAvailable (p : PartitionId) : ScanM ω Bool := do
  let here ← ScanM.look view.localTopology
  if (← ScanM.ask (here.shardOf p)) ≠ view.shard then return false
  if p ∉ (← ScanM.look view.openPartitions) then return false
  ScanM.look (view.caughtUp p)

/-- Refuses a partition that moved on, which cannot be followed. -/
def checkOwned (p : PartitionId) : ScanM ω Unit := do
  let latest ← ScanM.ask (← ScanM.look view.history).current
  let owner ← ScanM.ask (latest.shardOf p)
  if owner ≠ view.shard then throw (.movedOn p view.shard owner)

/-- Waits until a partition can be scanned here, looking so many times more. -/
def awaitPartition (p : PartitionId) (patience : Nat) : ScanM ω Unit := do
  checkOwned view p
  unless ← isAvailable view p do
    match patience with
    | 0 => throw (.unavailable p view.shard)
    | patience + 1 => awaitPartition p patience

/-- A batch of the partition whose virtual scan is under way. -/
def scanVirtual (query : Query) (patience : Nat) : ScanM ω Batch := do
  let key := (← get).key
  let p := key.virtualPartition
  match key.virtualScans.get? p with
  | none => throw (.noVirtualScan p)
  | some scan =>
    if scan.target ≠ view.shard then throw (.wrongShard p scan.target view.shard)
    awaitPartition view p patience
    let batch ← readBatch view query (· = p) scan.resume fun resume k =>
      { k with virtualScans := k.virtualScans.update p ({ · with resume }) }
    ScanM.count fun c => { c with batches := c.batches + 1 }
    return batch

end Virtual

end Replication.Scan
