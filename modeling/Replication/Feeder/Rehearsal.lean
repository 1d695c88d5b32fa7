import Replication.Feeder.Feeding
import Replication.Link.Scripted
import Replication.Parameters

/-! # Rehearsed feeders

A feeder whose consumer follows a script, on a log that is written meanwhile.  After
each change the feeder is let run until it rests: it has taken all input that is there
whole and shipped everything durable, or it has ended.
-/

namespace Replication.Feeder

open Replication.Group (Master)
open Replication.Link (LinkError ScriptedLink)
open Replication.Log (CommitLog FileProtector LogError Record)
open Replication.Stream (Codec LimitError Message Traffic)

/-! ## 1. A listener that keeps what it hears -/

/-- The notices so far, and whether acknowledgments are no longer taken. -/
structure Recorder where
  notices : List Notice := []
  failing : Bool := false
deriving DecidableEq, Repr

namespace Recorder

def note (n : Notice) : EStateM ListenerError Recorder Unit :=
  modify fun r => { r with notices := r.notices ++ [n] }

/-- The listener that keeps what it hears. -/
def listener : Listener Recorder where
  heartbeatResponse replica id highVlsn dtvlsn :=
    note (.heartbeatResponse replica id highVlsn dtvlsn)
  ack replica txn := do
    note (.ack replica txn)
    if (← get).failing then throw { reason := .ofAscii "listener failed" }
  shutdownResponse replica := note (.shutdownResponse replica)

end Recorder

/-! ## 2. Letting a feeder run -/

namespace Feeding

variable (setup : Setup ScriptedLink Recorder)

/-- Whether the next read of the connection has something to return or to fail with. -/
def readable (s : Feeding ScriptedLink Recorder) : Bool :=
  let l := s.session.link
  l.closed || l.ending.isSome || (Stream.headerSize ≤ l.incoming.length &&
    match setup.codec.decodeHeader (l.incoming.take Stream.headerSize) with
    | .ok h => Stream.headerSize + h.size ≤ l.incoming.length
    | .error _ => true)

/-- Whether the output loop waits for something to happen. -/
def outputRests (s : Feeding ScriptedLink Recorder) : Bool :=
  let f := s.feeder
  match f.output with
  | .idle | .done => true
  | .handshaking => !s.readable setup
  | .requesting =>
    !f.cancelled && (f.shutdownRequest < 0 || f.shutdownSent) && 0 < f.heartbeats
      && s.log.durable < f.next
  | _ => false

/-- Whether the input loop waits for something to happen. -/
def inputRests (s : Feeding ScriptedLink Recorder) : Bool :=
  match s.feeder.input with
  | .idle | .done => true
  | .waiting => s.feeder.output ∈ [.idle, .starting, .handshaking]
  | .reading => !s.feeder.cancelled && !s.readable setup

/-- Lets the loops move until both rest, the output loop first. -/
def settleWithin : Nat → Feeding ScriptedLink Recorder → Feeding ScriptedLink Recorder
  | 0, s => s
  | fuel + 1, s =>
    if !s.outputRests setup then settleWithin fuel (s.step setup (.output false 0))
    else if !s.inputRests setup then settleWithin fuel (s.step setup .input)
    else s

/-- Lets the loops move until both rest.  Each record takes four moves, and each message
    of the consumer at least one byte. -/
def settle (s : Feeding ScriptedLink Recorder) : Feeding ScriptedLink Recorder :=
  settleWithin setup (4 * s.log.records.length + 2 * s.session.link.incoming.length + 16) s

end Feeding

/-! ## 3. The stage -/

/-- A log, a connection and a listener, and from its creation on a feeder. -/
structure Stage where
  log : CommitLog
  protector : FileProtector := {}
  link : ScriptedLink := {}
  traffic : Traffic := {}
  recorder : Recorder := {}
  feeder : Option (Setup ScriptedLink Recorder × Feeder) := none

/-- Why a feeder cannot be created. -/
inductive CreationError where
  | log (e : LogError)
  | limit (e : LimitError)
deriving DecidableEq, Repr

namespace Stage

/-- The feeder at work, with what it works on. -/
def feeding? (s : Stage) : Option (Setup ScriptedLink Recorder × Feeding ScriptedLink Recorder) :=
  s.feeder.map fun (setup, feeder) =>
    (setup, {
      log := s.log
      protector := s.protector
      session := { link := s.link, traffic := s.traffic }
      listener := s.recorder
      feeder })

/-- The stage after the feeder's work. -/
def put (setup : Setup ScriptedLink Recorder) (f : Feeding ScriptedLink Recorder) : Stage :=
  { log := f.log, protector := f.protector, link := f.session.link, traffic := f.session.traffic
    recorder := f.listener, feeder := some (setup, f.feeder) }

/-- Applies something to the feeder, if there is one. -/
def act (s : Stage) (f : Setup ScriptedLink Recorder → Feeding ScriptedLink Recorder →
    Feeding ScriptedLink Recorder) : Stage :=
  match s.feeding? with
  | some (setup, feeding) => put setup (f setup feeding)
  | none => s

/-- Lets the feeder run until it rests. -/
def settle (s : Stage) : Stage := s.act Feeding.settle

/-- Creates a feeder for a node, which starts at a vlsn.  It takes the place of an earlier
    one. -/
def create (p : Parameters) (master : Master) (node : Octets) (start : Int) :
    EStateM CreationError Stage Unit := fun s =>
  match Log.Source.ofStart s.log s.protector node start with
  | .error e => .error (.log e) s
  | .ok custody =>
    match Codec.ofLimit p.maxMessageSize with
    | .error e => .error (.limit e) s
    | .ok codec =>
      let setup : Setup ScriptedLink Recorder := {
        master, codec, transport := ScriptedLink.transport, listener := Recorder.listener
        preHeartbeatTimeout := p.preHeartbeatTimeoutMs, replicaTimeout := p.replicaTimeoutMs }
      let s := { s with protector := custody.protector }.act Feeding.shutDown
      .ok () { s with
        link := { s.link with peerName := some node }
        feeder := some (setup, Feeder.ofSource custody.source) }

def start : EStateM StartError Stage Unit := fun s =>
  match s.feeding? with
  | none => .ok () s
  | some (setup, feeding) =>
    match feeding.start with
    | .ok feeding => .ok () (put setup feeding)
    | .error e => .error e s

/-- Appends a record, and makes it visible to readers if that is wanted. -/
def append (s : Stage) (r : Record) (durable : Bool) : Stage :=
  let log := s.log.append r
  { s with log := if durable then (log.markDurable log.last).toOption.getD log else log }

/-- Makes the records up to a vlsn visible to readers. -/
def markDurable (vlsn : Int) : EStateM LogError Stage Unit := fun s =>
  match s.log.markDurable vlsn with
  | .ok log => .ok () { s with log }
  | .error e => .error e s

/-- Lets bytes of the consumer arrive. -/
def deliver (s : Stage) (bytes : Octets) : Stage :=
  { s with link := s.link.deliver bytes }

/-- Lets reading fail behind the bytes that have arrived. -/
def endInput (s : Stage) (e : LinkError) : Stage :=
  { s with link := { s.link with ending := some e } }

/-- Lets writing fail from now on. -/
def failWrites (s : Stage) : Stage :=
  { s with link := { s.link with writable := some 0 } }

/-- Lets the listener fail from now on. -/
def failListener (s : Stage) : Stage :=
  { s with recorder := { s.recorder with failing := true } }

/-- Removes the files that nobody needs. -/
def clean (s : Stage) : Stage :=
  { s with log := s.log.clean s.protector }

end Stage

end Replication.Feeder
