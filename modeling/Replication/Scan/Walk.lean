import Replication.Scan.Departure

/-! # Walks along an index that changes

What a node finds that looks for the next entry over and over, while partitions are opened
and closed and entries come and go.  A `Portion` tells how a batch is made from a walk.
-/

namespace Replication.Scan

open Replication.Placement (PartitionId ShardId)

/-! ## 1. What there is to find -/

namespace Timeline

/-- A shard as the look of this number finds it. -/
def shardAt (t : Timeline) (x : ShardId) (look : Nat) : Shard :=
  (t.after look).now.shard x

/-- Whether an entry is there for each of so many looks, and its partition is open. -/
def Keeps (t : Timeline) (x : ShardId) (looks : Nat) (e : IndexEntry) : Prop :=
  ∀ look < looks, e ∈ (t.shardAt x look).index ∧ e.partition ∈ (t.shardAt x look).opened

end Timeline

/-- The entries that are found with one look each, every one from behind the one before. -/
inductive Walk (x : ShardId) : Option IndexEntry → Timeline → List IndexEntry → Prop where
  | stop {cursor : Option IndexEntry} {t : Timeline} : Walk x cursor t []
  | step {cursor : Option IndexEntry} {t : Timeline} {e : { e : IndexEntry // Follows e cursor }}
    {found : List IndexEntry} (next : (t.now.shard x).next cursor = some e)
    (onward : Walk x (some e.1) t.pass found) : Walk x cursor t (e.1 :: found)

/-! ## 2. What is made of it -/

/-- The entries found that are read, which are those of the partitions asked for. -/
def taken (accepts : PartitionId → Bool) (found : List IndexEntry) : List IndexEntry :=
  found.filter fun e => accepts e.partition

/-- The last of some entries, or the position that they lie behind. -/
def lastOf (start : Option IndexEntry) : List IndexEntry → Option IndexEntry
  | [] => start
  | e :: rest => lastOf (some e) rest

/-- The number of looks of a walk, the last one of which has found nothing if the walk was
    exhausted. -/
def looksOf (found : List IndexEntry) (exhausted : Bool) : Nat :=
  found.length + if exhausted then 1 else 0

/-- Whether a batch is made from a walk that stops where one of the limits is reached, or else
    where nothing is left to find. -/
structure Portion (x : ShardId) (query : Query) (accepts : PartitionId → Bool)
    (start : Option IndexEntry) (t : Timeline) (found : List IndexEntry) (batch : Batch) :
    Prop where
  walk : Walk x start t found
  results : batch.results = (taken accepts found).filter query.admits
  fewResults : batch.results.length ≤ query.batchLimit
  fewReads : (taken accepts found).length ≤ query.readLimit
  limit : batch.exhausted = false →
    batch.results.length = query.batchLimit ∨ (taken accepts found).length = query.readLimit
  nothing : batch.exhausted = true →
    (t.shardAt x found.length).next (lastOf start found) = none

end Replication.Scan
