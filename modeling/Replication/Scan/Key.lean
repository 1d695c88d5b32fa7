import Replication.Scan.Entry
import Replication.Wire.Field

/-! # Continuation keys

A query's client holds its cursor and sends it back with every request.
`ContinuationKey.write` and `ContinuationKey.parse` are inverse to each other on the keys
whose shard index is not negative; anything else a client sends is refused.
-/

namespace Replication.Scan

open Replication.Placement (PartitionId ShardId)
open Replication.Wire (ReadError Reader putBool putPackedLong)

/-! ## 1. Keys -/

/-- The scan of a partition that migrated, at the shard it went to.  The entries up to the
    resume position were returned already. -/
structure VirtualScan where
  target : ShardId
  resume : Option IndexEntry := none
deriving DecidableEq, Repr

/-- The partition that stands for no virtual scan. -/
def noVirtualScan : PartitionId := -1

/-- Where a query stands. -/
structure ContinuationKey where
  /-- The sequence number of the topology that the query started on, or a negative number
      until it has. -/
  topology : Int64 := -1
  /-- The place of the current shard among those to be visited. -/
  shardIndex : Int32 := 0
  /-- The partition whose virtual scan is under way. -/
  virtualPartition : PartitionId := noVirtualScan
  resume : Option IndexEntry := none
  virtualScans : Table PartitionId VirtualScan := .empty
deriving DecidableEq, Repr

def ContinuationKey.isVirtual (k : ContinuationKey) : Bool :=
  k.virtualPartition ≠ noVirtualScan

/-! ## 2. Text -/

/-- The text of a resume position. -/
def renderResume : Option IndexEntry → Octets
  | none => .ofAscii "-"
  | some e => Decimal.render e.key.toInt ++ .ofAscii "/p" ++ Decimal.render e.partition.toInt

def ContinuationKey.render (k : ContinuationKey) : Octets :=
  .ofAscii "ck[topo " ++ Decimal.render k.topology.toInt
    ++ .ofAscii " idx " ++ Decimal.render k.shardIndex.toInt
    ++ .ofAscii " vs " ++ Decimal.render k.virtualPartition.toInt
    ++ .ofAscii " resume " ++ renderResume k.resume
    ++ (k.virtualScans.entries.flatMap fun (p, scan) =>
      .ofAscii " p" ++ Decimal.render p.toInt ++ .ofAscii "->s" ++ Decimal.render scan.target.toInt
        ++ .ofAscii "@" ++ renderResume scan.resume)
    ++ .ofAscii "]"

/-! ## 3. Writing -/

/-- The first byte of a key. -/
def keyFormat : UInt8 := 1

/-- A packed long of 32 bits. -/
def putPackedInt (v : Int32) : Octets :=
  putPackedLong v.toInt64

/-- A resume position behind a flag that tells whether there is one. -/
def putResume : Option IndexEntry → Octets
  | none => putBool false
  | some e => putBool true ++ putPackedLong e.key ++ putPackedInt e.partition

/-- A virtual scan behind its partition. -/
def putScan : PartitionId × VirtualScan → Octets
  | (p, scan) => putPackedInt p ++ putPackedInt scan.target ++ putResume scan.resume

def ContinuationKey.write (k : ContinuationKey) : Octets :=
  keyFormat :: putPackedLong k.topology ++ putPackedInt k.shardIndex
    ++ putPackedInt k.virtualPartition ++ putResume k.resume
    ++ putPackedLong (Int64.ofNat k.virtualScans.entries.length)
    ++ k.virtualScans.entries.flatMap putScan

/-! ## 4. Reading -/

/-- The numbers of a key that have to fit 32 bits. -/
inductive KeyItem where
  | shardIndex
  | virtualPartition
  | partition
  | shard
deriving DecidableEq, Repr

/-- The name of a number in diagnostics. -/
def KeyItem.name : KeyItem → Octets
  | .shardIndex => .ofAscii "shard index"
  | .virtualPartition => .ofAscii "virtual scan partition"
  | .partition => .ofAscii "partition"
  | .shard => .ofAscii "shard"

/-- Why bytes are no key. -/
inductive KeyError where
  | read (e : ReadError)
  | unknownFormat (format : UInt8)
  | outOfRange (item : KeyItem) (value : Int64)
  /-- There cannot be so many virtual scans in the bytes that are left. -/
  | badCount (count : Int64)
  | duplicate (p : PartitionId)
  | trailing (count : Nat)
  | negativeIndex (index : Int32)
deriving DecidableEq, Repr

def KeyError.message : KeyError → Octets
  | .read e => e.message
  | .unknownFormat format =>
    .ofAscii "unknown continuation key format " ++ Decimal.render format.toNat
  | .outOfRange item value =>
    .ofAscii "continuation key " ++ item.name ++ .ofAscii " out of range: "
      ++ Decimal.render value.toInt
  | .badCount count => .ofAscii "bad virtual scan count " ++ Decimal.render count.toInt
  | .duplicate p => .ofAscii "duplicate virtual scan of partition " ++ Decimal.render p.toInt
  | .trailing count =>
    .ofAscii "continuation key has " ++ Decimal.render count ++ .ofAscii " trailing bytes"
  | .negativeIndex index => .ofAscii "negative shard index " ++ Decimal.render index.toInt

/-- A computation that takes the parts of a key from the front of a text. -/
abbrev KeyReader := EStateM KeyError Octets

namespace KeyReader

def field {α : Type} (r : Reader α) : KeyReader α := fun s =>
  match r s with
  | .ok a s => .ok a s
  | .error e s => .error (.read e) s

/-- A packed long that has to fit 32 bits. -/
def packedInt (item : KeyItem) : KeyReader Int32 := do
  let v ← field Reader.packedLong
  if Int32.minValue.toInt ≤ v.toInt ∧ v.toInt ≤ Int32.maxValue.toInt then return v.toInt32
  throw (.outOfRange item v)

def resume : KeyReader (Option IndexEntry) := do
  if ← field Reader.bool then
    let key ← field Reader.packedLong
    return some { key, partition := ← packedInt .partition }
  else return none

/-- So many virtual scans, which join those that were read before. -/
def virtualScans : Nat → Table PartitionId VirtualScan → KeyReader (Table PartitionId VirtualScan)
  | 0, scans => return scans
  | count + 1, scans => do
    let p ← packedInt .partition
    let target ← packedInt .shard
    let scan : VirtualScan := { target, resume := ← resume }
    if scans.contains p then throw (.duplicate p)
    virtualScans count (scans.insert p scan)

/-- A key, behind which nothing may follow.  A virtual scan takes three bytes at least. -/
def key : KeyReader ContinuationKey := do
  let format ← field Reader.byte
  if format ≠ keyFormat then throw (.unknownFormat format)
  let topology ← field Reader.packedLong
  let shardIndex ← packedInt .shardIndex
  let virtualPartition ← packedInt .virtualPartition
  let resume ← resume
  let count ← field Reader.packedLong
  let left ← field Reader.remaining
  if count.toInt < 0 ∨ (left / 3 : Nat) < count.toInt then throw (.badCount count)
  let virtualScans ← virtualScans count.toInt.toNat .empty
  let left ← field Reader.remaining
  if left ≠ 0 then throw (.trailing left)
  if shardIndex < 0 then throw (.negativeIndex shardIndex)
  return { topology, shardIndex, virtualPartition, resume, virtualScans }

end KeyReader

/-- The key that a text of bytes stands for. -/
def ContinuationKey.parse (s : Octets) : Except KeyError ContinuationKey :=
  match KeyReader.key s with
  | .ok k _ => .ok k
  | .error e _ => .error e

end Replication.Scan
