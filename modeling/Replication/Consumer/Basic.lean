import Replication.Consumer.Retry
import Replication.Group.Master
import Replication.Link.Transport
import Replication.Parameters
import Replication.Replay.Replayer
import Replication.Stream.Session

/-! # Consumers of the stream

A replica or an arbiter that follows a master: what it is set up with, what it keeps
from one connection to the next, and the reasons for which a connection ends.
-/

namespace Replication

/-! ## 1. Consumers -/

/-- What a consumer is doing. -/
inductive Consumer.Phase where
  | connecting
  | handshake
  | streaming
  | softDrain
  | immediateExit
  | closed
deriving DecidableEq, Repr

def Consumer.Phase.name : Consumer.Phase → Octets
  | .connecting => .ofAscii "CONNECTING"
  | .handshake => .ofAscii "HANDSHAKE"
  | .streaming => .ofAscii "STREAMING"
  | .softDrain => .ofAscii "SOFT_DRAIN"
  | .immediateExit => .ofAscii "IMMEDIATE_EXIT"
  | .closed => .ofAscii "CLOSED"

/-- The phases, in the order in which a connection may go through them. -/
def Consumer.Phase.all : List Consumer.Phase :=
  [.connecting, .handshake, .streaming, .softDrain, .immediateExit, .closed]

/-- What a consumer keeps from one connection to the next. -/
structure Consumer (τ : Type) where
  masters : Group.MasterStatus := {}
  replay : Replay.State τ
  phase : Consumer.Phase := .closed
  /-- Whether the consumer has been told to stop for good. -/
  stopped : Bool := false
  /-- The id of the first heartbeat of the latest connection. -/
  heartbeatId : Int64 := -1
  /-- How many heartbeats were answered. -/
  heartbeatAcks : Nat := 0
  /-- The messages that the latest connection left unreplayed. -/
  requests : List Stream.Message := []
  /-- The acknowledgments that the latest connection left unwritten. -/
  output : List Replay.Ack := []

namespace Consumer

open Replication.Group (ObsoleteMaster)
open Replication.Link (LinkError Transport)
open Replication.Replay (ReplayError Store)
open Replication.Stream (Codec Op Session StreamError)

/-- What a consumer is set up with. -/
structure Setup (σ τ : Type) where
  node : Octets
  nodeId : Int32
  codec : Codec
  transport : Transport σ
  store : Store τ
  /-- How many messages may wait to be replayed. -/
  requestCapacity : Nat
  /-- How many acknowledgments may wait to be written. -/
  outputCapacity : Nat
  /-- How many messages are replayed at once. -/
  groupSize : Nat
  /-- Whether acknowledgments of transactions are written together. -/
  groupedAcks : Bool
  preHeartbeatTimeout : Int
  replicaTimeout : Int

/-- The setup that a node's parameters call for. -/
def Setup.ofParameters {σ τ : Type} (p : Parameters) (node : Octets) (nodeId : Int32)
    (transport : Transport σ) (store : Store τ) : Except Stream.LimitError (Setup σ τ) := do
  let codec ← Codec.ofLimit p.maxMessageSize
  return {
    node, nodeId, codec, transport, store
    requestCapacity := p.replicaMessageQueueSize.toNat
    outputCapacity := p.outputQueueSize.toNat
    groupSize := (max p.maxGroupTxns 1).toNat
    groupedAcks := p.enableGroupAcks
    preHeartbeatTimeout := p.preHeartbeatTimeoutMs
    replicaTimeout := p.replicaTimeoutMs }

/-! ## 2. Why a connection ends -/

/-- Why no link to a master came about. -/
inductive ConnectError where
  | passing (f : PassingFailure)
  | link (e : LinkError)
  /-- The master's service spoke another protocol. -/
  | protocol (reason : Octets)
  | failed (reason : Octets)
deriving DecidableEq, Repr

/-- Why a connection ends. -/
inductive ConnectionError where
  | connect (e : ConnectError)
  | obsoleteMaster (e : ObsoleteMaster)
  | stoppedWhileConnecting
  | stream (e : StreamError)
  | rejected (master reason : Octets)
  | unexpectedReply (op : Op)
  | replay (e : ReplayError)
  /-- Nobody is left to write acknowledgments. -/
  | writerGone
  /-- The master asked the whole group to shut down, at that time. -/
  | groupShutdown (master : Octets) (highVlsn time : Int64)
deriving DecidableEq, Repr

def ConnectError.message : ConnectError → Octets
  | .passing f => f.reason
  | .link e => e.message
  | .protocol reason => reason
  | .failed reason => reason

def ConnectionError.message : ConnectionError → Octets
  | .connect e => e.message
  | .obsoleteMaster e => e.message
  | .stoppedWhileConnecting => .ofAscii "acker shut down while connecting"
  | .stream e => e.message
  | .rejected master reason =>
    .ofAscii "feeder " ++ master ++ .ofAscii " rejected handshake: " ++ reason
  | .unexpectedReply op => .ofAscii "unexpected handshake reply " ++ op.name
  | .replay e => e.message
  | .writerGone => .ofAscii "ack output thread is gone"
  | .groupShutdown master highVlsn _ =>
    .ofAscii "master " ++ master ++ .ofAscii " requested group shutdown at vlsn:"
      ++ Decimal.render highVlsn.toUInt64.toNat

/-- Whether a connection that ends this way is simply over: the link broke or the master
    changed, and the next election decides what comes then. -/
def ConnectionError.isOrdinary : ConnectionError → Bool
  | .connect (.link _) | .obsoleteMaster _ | .stoppedWhileConnecting | .stream (.link _)
  | .writerGone => true
  | _ => false

/-! ## 3. Opening a connection -/

/-- A consumer and its session with a master. -/
structure Attached (σ τ : Type) where
  consumer : Consumer τ
  session : Session σ

namespace Attached

variable {σ τ α : Type}

def onSession (x : EStateM StreamError (Session σ) α) :
    EStateM ConnectionError (Attached σ τ) α := fun s =>
  match x s.session with
  | .ok a session => .ok a { s with session }
  | .error e session => .error (.stream e) { s with session }

/-- An operation on the replayer and its store. -/
def onReplay (x : EStateM ReplayError (Replay.State τ) α) :
    EStateM ConnectionError (Attached σ τ) α := fun s =>
  match x s.consumer.replay with
  | .ok a replay => .ok a { s with consumer := { s.consumer with replay } }
  | .error e replay => .error (.replay e) { s with consumer := { s.consumer with replay } }

/-- Introduces the consumer to the feeder of a master, picks up the durable state, and
    waits for the first heartbeat.  The result is the acknowledgment of it. -/
def handshake (setup : Setup σ τ) (master : Group.Master) :
    EStateM ConnectionError (Attached σ τ) Replay.Ack := do
  modify fun s => { s with consumer := { s.consumer with phase := .handshake } }
  let type : NodeType :=
    match (← get).consumer.replay.replayer.role with
    | .arbiter => .arbiter
    | .replica => .electable
  onSession (Session.send setup.codec setup.transport
    (.clientVersion Stream.streamVersion setup.node setup.nodeId type))
  match ← onSession (Session.receive setup.codec setup.transport) with
  | .incompatibleVersion reason => throw (.rejected master.name reason)
  | .serverVersion .. =>
    onReplay (Replay.State.start setup.store master.id)
    let id ← onSession (Session.receiveAs setup.codec setup.transport fun
      | .heartbeat id _ _ => some id
      | _ => none)
    modify fun s => { s with consumer := { s.consumer with heartbeatId := id } }
    return (← get).consumer.replay.replayer.ack .heartbeat id
  | m => throw (.unexpectedReply m.op)

end Attached

end Consumer

end Replication
