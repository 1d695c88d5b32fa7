import Replication.Ordinal

/-! # Messages of the replication stream

The master's feeder ships records and heartbeats, the consumer answers with
acknowledgments; version messages open the stream.  Log positions (vlsns), transaction
ids, terms and times are 64-bit words.
-/

namespace Replication.Stream

/-! ## 1. The kinds of message -/

/-- A log record other than the commits that are to be acknowledged. -/
structure Entry where
  vlsn : Int64
  type : EntryType
  txn : Int64
  timestamp : Int64
  payload : Octets
  beforeImage : Octets
deriving DecidableEq, Repr

/-- The dtvlsn of commits from before it was tracked. -/
def uninitializedVlsn : Int64 := -3

/-- The end of a transaction.  The dtvlsn is the last position that a majority of the
    group is known to hold. -/
structure Commit where
  vlsn : Int64
  txn : Int64
  dtvlsn : Int64
  term : Int64
  sync : SyncPolicy
  needsAck : Bool
  timestamp : Int64
deriving DecidableEq, Repr

/-- The dtvlsn of a commit, or its own position where none was tracked. -/
def Commit.effectiveDtvlsn (c : Commit) : Int64 :=
  if c.dtvlsn = uninitializedVlsn then c.vlsn else c.dtvlsn

/-- What is sent over the stream. -/
inductive Message where
  | heartbeat (id now lastCommit : Int64)
  | heartbeatResponse (id highVlsn dtvlsn : Int64)
  | entry (e : Entry)
  | commit (c : Commit)
  | ack (txn : Int64)
  | groupAck (txns : List Int64)
  | shutdownRequest (time : Int64)
  | shutdownResponse
  | clientVersion (version : Int32) (node : Octets) (id : Int32) (type : NodeType)
  | serverVersion (version : Int32) (node : Octets) (id : Int32)
  | incompatibleVersion (reason : Octets)
  | protocolError (reason : Octets)
deriving DecidableEq, Repr

/-! ## 2. Ops -/

/-- The kind of a message. -/
inductive Op where
  | heartbeat
  | heartbeatResponse
  | entry
  | commit
  | ack
  | groupAck
  | shutdownRequest
  | shutdownResponse
  | clientVersion
  | serverVersion
  | incompatibleVersion
  | protocolError
deriving DecidableEq, Repr

/-- The number of an op on the wire. -/
def Op.id : Op → Int16
  | .heartbeat => 1
  | .heartbeatResponse => 2
  | .entry => 3
  | .commit => 4
  | .ack => 5
  | .groupAck => 6
  | .shutdownRequest => 7
  | .shutdownResponse => 8
  | .clientVersion => 1000
  | .serverVersion => 1001
  | .incompatibleVersion => 1002
  | .protocolError => 1003

def Op.all : List Op :=
  [.heartbeat, .heartbeatResponse, .entry, .commit, .ack, .groupAck, .shutdownRequest,
    .shutdownResponse, .clientVersion, .serverVersion, .incompatibleVersion, .protocolError]

def Op.ofId? (id : Int16) : Option Op :=
  Op.all.find? (·.id = id)

theorem Op.ofId?_id (op : Op) : Op.ofId? op.id = some op := by
  cases op <;> rfl

def Op.name : Op → Octets
  | .heartbeat => .ofAscii "HEARTBEAT"
  | .heartbeatResponse => .ofAscii "HEARTBEAT_RESPONSE"
  | .entry => .ofAscii "ENTRY"
  | .commit => .ofAscii "COMMIT"
  | .ack => .ofAscii "ACK"
  | .groupAck => .ofAscii "GROUP_ACK"
  | .shutdownRequest => .ofAscii "SHUTDOWN_REQUEST"
  | .shutdownResponse => .ofAscii "SHUTDOWN_RESPONSE"
  | .clientVersion => .ofAscii "CLIENT_VERSION"
  | .serverVersion => .ofAscii "SERVER_VERSION"
  | .incompatibleVersion => .ofAscii "INCOMPATIBLE_VERSION"
  | .protocolError => .ofAscii "PROTOCOL_ERROR"

def Message.op : Message → Op
  | .heartbeat .. => .heartbeat
  | .heartbeatResponse .. => .heartbeatResponse
  | .entry _ => .entry
  | .commit _ => .commit
  | .ack _ => .ack
  | .groupAck _ => .groupAck
  | .shutdownRequest _ => .shutdownRequest
  | .shutdownResponse => .shutdownResponse
  | .clientVersion .. => .clientVersion
  | .serverVersion .. => .serverVersion
  | .incompatibleVersion _ => .incompatibleVersion
  | .protocolError _ => .protocolError

end Replication.Stream
