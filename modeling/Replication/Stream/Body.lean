import Replication.Stream.Message
import Replication.Wire.Field

/-! # Bodies of messages

`Message.body` writes the fields of a message one after the other, and `Op.readBody`
reads them back for a message of that op.
-/

namespace Replication.Stream

/-! ## 1. Writing -/

open Wire in
/-- The bytes of a message behind its header. -/
def Message.body : Message → Octets
  | .heartbeat id now lastCommit => putLong id ++ putLong now ++ putPackedLong lastCommit
  | .heartbeatResponse id highVlsn dtvlsn =>
    putLong id ++ putPackedLong highVlsn ++ putPackedLong dtvlsn
  | .entry e =>
    putPackedLong e.vlsn ++ [e.type.ordinal] ++ putPackedLong e.txn ++ putLong e.timestamp
      ++ putCounted e.payload ++ putCounted e.beforeImage
  | .commit c =>
    putPackedLong c.vlsn ++ putPackedLong c.txn ++ putPackedLong c.dtvlsn ++ putLong c.term
      ++ [c.sync.ordinal] ++ putBool c.needsAck ++ putLong c.timestamp
  | .ack txn => putPackedLong txn
  | .groupAck txns => putInt (Int32.ofNat txns.length) ++ txns.flatMap putPackedLong
  | .shutdownRequest time => putLong time
  | .shutdownResponse => []
  | .clientVersion version node id type =>
    putInt version ++ putCounted node ++ putInt id ++ [type.ordinal]
  | .serverVersion version node id => putInt version ++ putCounted node ++ putInt id
  | .incompatibleVersion reason => putCounted reason
  | .protocolError reason => putCounted reason

/-! ## 2. Reading -/

/-- The enumerations whose members occur in messages. -/
inductive Enumeration where
  | entryType
  | syncPolicy
  | nodeType
deriving DecidableEq, Repr

def Enumeration.name : Enumeration → Octets
  | .entryType => .ofAscii "entry type"
  | .syncPolicy => .ofAscii "sync policy"
  | .nodeType => .ofAscii "node type"

/-- Why a body is no message. -/
inductive BodyError where
  | field (e : Wire.ReadError)
  /-- No member of the enumeration has that ordinal. -/
  | badOrdinal (e : Enumeration) (ordinal : UInt8)
  /-- The number of ids is negative or larger than the bytes that follow. -/
  | badAckCount (count : Int32)
deriving DecidableEq, Repr

def BodyError.message : BodyError → Octets
  | .field e => e.message
  | .badOrdinal e ordinal =>
    .ofAscii "bad " ++ e.name ++ .ofAscii " ordinal " ++ Decimal.render ordinal.toNat
  | .badAckCount count => .ofAscii "bad group ack count " ++ Decimal.render count.toInt

/-- A computation that takes fields of a body from its front. -/
abbrev BodyReader := EStateM BodyError Octets

instance : MonadLift Wire.Reader BodyReader where
  monadLift r s :=
    match r s with
    | .ok a s => .ok a s
    | .error e s => .error (.field e) s

def BodyReader.member {α : Type} (e : Enumeration) (ofOrdinal? : UInt8 → Option α) :
    BodyReader α := do
  let ordinal ← Wire.Reader.byte
  match ofOrdinal? ordinal with
  | some a => return a
  | none => throw (.badOrdinal e ordinal)

def BodyReader.packedLongs : Nat → BodyReader (List Int64)
  | 0 => return []
  | n + 1 => do
    let v ← Wire.Reader.packedLong
    return v :: (← packedLongs n)

/-- Packed longs behind their number.  Each takes a byte at least. -/
def BodyReader.countedPackedLongs : BodyReader (List Int64) := do
  let count ← Wire.Reader.int
  if count.toInt < 0 ∨ (← Wire.Reader.remaining) < count.toInt then throw (.badAckCount count)
  packedLongs count.toInt.toNat

open Wire.Reader BodyReader in
/-- The message of an op whose fields are next. -/
def Op.readBody : Op → BodyReader Message
  | .heartbeat => return .heartbeat (← long) (← long) (← packedLong)
  | .heartbeatResponse => return .heartbeatResponse (← long) (← packedLong) (← packedLong)
  | .entry => return .entry {
      vlsn := ← packedLong
      type := ← member .entryType EntryType.ofOrdinal?
      txn := ← packedLong
      timestamp := ← long
      payload := ← byteArray
      beforeImage := ← byteArray }
  | .commit => return .commit {
      vlsn := ← packedLong
      txn := ← packedLong
      dtvlsn := ← packedLong
      term := ← long
      sync := ← member .syncPolicy SyncPolicy.ofOrdinal?
      needsAck := ← bool
      timestamp := ← long }
  | .ack => return .ack (← packedLong)
  | .groupAck => return .groupAck (← countedPackedLongs)
  | .shutdownRequest => return .shutdownRequest (← long)
  | .shutdownResponse => return .shutdownResponse
  | .clientVersion =>
    return .clientVersion (← int) (← string) (← int) (← member .nodeType NodeType.ofOrdinal?)
  | .serverVersion => return .serverVersion (← int) (← string) (← int)
  | .incompatibleVersion => return .incompatibleVersion (← string)
  | .protocolError => return .protocolError (← string)

end Replication.Stream
