import Replication.Group.Master
import Replication.Link.Transport
import Replication.Log.Source
import Replication.Stream.Session

/-! # Feeders

The master's end of one connection: it answers the consumer's handshake, ships the
records of the log and heartbeats, and hands acknowledgments to a listener.
-/

namespace Replication

namespace Feeder

open Replication.Group (Master)
open Replication.Link (Transport)
open Replication.Log (CommitLog FileProtector Positioned Source SourceError)
open Replication.Stream (Codec Message Op Session StreamError)

/-! ## 1. Listeners -/

/-- A listener could not take a notification. -/
structure ListenerError where
  reason : Octets
deriving DecidableEq, Repr

/-- Who is told what a consumer answers, by the consumer's name. -/
structure Listener (ρ : Type) where
  heartbeatResponse : Octets → (id highVlsn dtvlsn : Int64) → EStateM ListenerError ρ Unit
  ack : Octets → (txn : Int64) → EStateM ListenerError ρ Unit
  shutdownResponse : Octets → EStateM ListenerError ρ Unit

/-- What a listener is told. -/
inductive Notice where
  | heartbeatResponse (replica : Octets) (id highVlsn dtvlsn : Int64)
  | ack (replica : Octets) (txn : Int64)
  | shutdownResponse (replica : Octets)
deriving DecidableEq, Repr

/-- A notification that is recorded, whatever comes of it. -/
def Notice.recorded {ρ : Type} (notice : Notice) (x : EStateM ListenerError ρ Unit) :
    EStateM ListenerError (ρ × List Notice) Unit := fun (s, notices) =>
  match x s with
  | .ok () s => .ok () (s, notices ++ [notice])
  | .error e s => .error e (s, notices ++ [notice])

/-- A listener that records what it is told. -/
def Listener.recorded {ρ : Type} (l : Listener ρ) : Listener (ρ × List Notice) where
  heartbeatResponse replica id highVlsn dtvlsn :=
    (Notice.heartbeatResponse replica id highVlsn dtvlsn).recorded
      (l.heartbeatResponse replica id highVlsn dtvlsn)
  ack replica txn := (Notice.ack replica txn).recorded (l.ack replica txn)
  shutdownResponse replica := (Notice.shutdownResponse replica).recorded (l.shutdownResponse replica)

/-! ## 2. Feeders -/

/-- What a feeder is set up with. -/
structure Setup (σ ρ : Type) where
  master : Master
  codec : Codec
  transport : Transport σ
  listener : Listener ρ
  preHeartbeatTimeout : Int
  replicaTimeout : Int

/-- Why a feeder stops serving its consumer. -/
inductive FeederError where
  | stream (e : StreamError)
  /-- The client speaks another version of the stream. -/
  | incompatible (client : Octets) (version : Int32)
  | source (e : SourceError)
  | listener (e : ListenerError)
  | unexpected (op : Op)
deriving DecidableEq, Repr

def incompatibility (client : Octets) (version : Int32) : Octets :=
  .ofAscii "client " ++ client ++ .ofAscii " speaks version " ++ Decimal.render version.toInt
    ++ .ofAscii ", feeder speaks " ++ Decimal.render Stream.streamVersion.toInt

def FeederError.message : FeederError → Octets
  | .stream e => e.message
  | .incompatible client version => incompatibility client version
  | .source e => e.message
  | .listener e => e.reason
  | .unexpected op => .ofAscii "feeder got unexpected " ++ op.name

/-- A feeder was started that runs already. -/
inductive StartError where
  | running
deriving DecidableEq, Repr

def StartError.message : StartError → Octets
  | .running => .ofAscii "feeder is already running"

/-- Where the output loop is. -/
inductive OutputLoop where
  | idle
  | starting
  /-- Waits for the consumer's introduction. -/
  | handshaking
  /-- Looks for a shutdown request. -/
  | requesting
  /-- Looks whether a heartbeat is due. -/
  | beating
  | fetching
  | shipping (r : Positioned)
  | done
deriving DecidableEq, Repr

/-- Where the input loop is. -/
inductive InputLoop where
  | idle
  /-- Waits for the handshake. -/
  | waiting
  | reading
  | done
deriving DecidableEq, Repr

end Feeder

/-- A feeder. -/
structure Feeder where
  source : Log.Source
  /-- The vlsn of the record to be shipped next. -/
  next : Int
  output : Feeder.OutputLoop := .idle
  input : Feeder.InputLoop := .idle
  running : Bool := false
  cancelled : Bool := false
  /-- The time of the shutdown that the consumer is to be asked for, from zero on. -/
  shutdownRequest : Int64 := -1
  shutdownSent : Bool := false
  replicaName : Octets := []
  replicaType : NodeType := .electable
  shipped : Nat := 0
  heartbeats : Nat := 0
  acks : Nat := 0
  /-- The first failure of either loop. -/
  error : Option Feeder.FeederError := none
deriving DecidableEq, Repr

namespace Feeder

/-- A feeder that ships from the start of its source on. -/
def ofSource (source : Log.Source) : Feeder :=
  { source, next := source.start }

/-- The message that ships a record.  An arbiter gets the commits only. -/
def shipment (client : NodeType) (r : Log.Positioned) : Option Stream.Message :=
  let vlsn := Int64.ofNat r.vlsn
  let record := r.record
  match record.type, client with
  | .commit, _ => some (.commit {
      vlsn, txn := record.txn, dtvlsn := record.dtvlsn, term := record.term
      sync := record.sync, needsAck := true, timestamp := record.timestamp })
  | _, .arbiter => none
  | type, _ => some (.entry {
      vlsn, type, txn := record.txn, timestamp := record.timestamp
      payload := record.payload, beforeImage := record.beforeImage })

end Feeder

end Replication
