import Replication.Consumer.Basic
import Replication.Consumer.Responses
import Replication.Queue.Bounded

/-! # A connection that streams

Three threads share a connection: the reader takes messages off the link into the request
queue, the replayer takes groups of them and queues acknowledgments, and the writer puts
those on the link.  Each `step` is one atomic move of one thread, or something that
happens to the consumer from outside, so a list of actions is one interleaving.
-/

namespace Replication.Consumer

open Replication.Group (Master)
open Replication.Replay (Ack)
open Replication.Stream (Message Session)

/-! ## 1. Where the threads are -/

/-- How the threads are asked to end. -/
inductive ExitRequest where
  | none
  /-- After all queued messages were replayed. -/
  | soft
  | immediate
deriving DecidableEq, Repr

/-- Where the reader is. -/
inductive Reader where
  | reading
  | offering (m : Message)
  /-- The link broke; waits for the replayer to end. -/
  | joining
  /-- Waits for the writer to end. -/
  | draining
  | leaving
  /-- Waits for the replayer to end on the way out. -/
  | joiningLast
  /-- Waits for the writer to end on the way out. -/
  | stopping
  | done
deriving DecidableEq, Repr

/-- Where the replayer is. -/
inductive Replayer where
  | polling
  | polled (m : Option Message)
  | gathering (m : Message)
  /-- Queues acknowledgments, the last of them that of a requested shutdown. -/
  | queueing (acks : List Ack) (shutdown : Option Int64)
  /-- Waits until the shutdown is acknowledged. -/
  | awaiting (shutdown : Int64)
  | done
deriving DecidableEq, Repr

/-- Where the writer is. -/
inductive Writer where
  | checking
  | polling
  | starved
  | holding (a : Ack)
  | writing (acks : List Ack)
  | done
deriving DecidableEq, Repr

/-- A connection that streams. -/
structure Streaming (σ τ : Type) where
  consumer : Consumer τ
  session : Session σ
  requests : BoundedQueue Message
  output : BoundedQueue Ack
  exit : ExitRequest := .none
  /-- The writer ends once the output queue is empty. -/
  drain : Bool := false
  /-- The writer ends at once. -/
  stop : Bool := false
  shutdownAcked : Bool := false
  reader : Reader := .reading
  replayer : Replayer := .polling
  writer : Writer := .checking
  readError : Option ConnectionError := none
  replayError : Option ConnectionError := none
  writeError : Option ConnectionError := none

namespace Streaming

variable {σ τ : Type}

/-- A connection after its handshake, which left an acknowledgment to write. -/
def start (setup : Setup σ τ) (a : Attached σ τ) (first : Ack) : Streaming σ τ :=
  let output := BoundedQueue.ofItems setup.outputCapacity a.consumer.output
  { consumer := { a.consumer with phase := .streaming }
    session := a.session.setTimeout setup.transport setup.replicaTimeout
    requests := .ofItems setup.requestCapacity a.consumer.requests
    output := (output.push? first).getD output }

/-- The consumer behind a connection, whose queues stay as they are. -/
def leave (s : Streaming σ τ) : Consumer τ :=
  { s.consumer with requests := s.requests.items, output := s.output.items }

/-! ## 2. The reader -/

/-- Takes a message off the link.  A broken link asks for a soft exit, bytes that are no
    message end the reader. -/
def read (setup : Setup σ τ) (s : Streaming σ τ) : Streaming σ τ :=
  if s.consumer.stopped then { s with reader := .leaving }
  else
    match Session.receive setup.codec setup.transport s.session with
    | .ok m session => { s with session, reader := .offering m }
    | .error (.link _) session =>
      { s with
        session
        exit := .soft
        consumer := { s.consumer with phase := .softDrain }
        reader := .joining }
    | .error e session => { s with session, readError := some (.stream e), reader := .leaving }

def readerStep (setup : Setup σ τ) (s : Streaming σ τ) : Streaming σ τ :=
  match s.reader with
  | .reading => s.read setup
  | .offering m =>
    match s.requests.push? m with
    | some requests => { s with requests, reader := .reading }
    | none => if s.replayer = .done then { s with reader := .leaving } else s
  -- The writer is let go only once the replayer has ended, whose acknowledgments it still has
  -- to write.
  | .joining => if s.replayer = .done then { s with drain := true, reader := .draining } else s
  | .draining => if s.writer = .done then { s with reader := .leaving } else s
  | .leaving =>
    let phase := if s.consumer.phase = .softDrain then .softDrain else .immediateExit
    { s with exit := .immediate, consumer := { s.consumer with phase }, reader := .joiningLast }
  | .joiningLast => if s.replayer = .done then { s with stop := true, reader := .stopping } else s
  | .stopping => if s.writer = .done then { s with reader := .done } else s
  | .done => s

/-! ## 3. The replayer -/

/-- Ends the replayer with an error.  The link is closed to wake the reader. -/
def failReplay (setup : Setup σ τ) (s : Streaming σ τ) (e : ConnectionError) : Streaming σ τ :=
  { s with
    replayError := some e
    requests := s.requests.clear
    session := s.session.close setup.transport
    replayer := .done }

/-- Looks for reasons to end before a message is replayed. -/
def consider (setup : Setup σ τ) (s : Streaming σ τ) (m : Option Message) : Streaming σ τ :=
  -- A soft exit ends the replayer only with empty hands; an immediate one drops the message.
  if s.exit = .immediate ∨ (s.exit = .soft ∧ m = none) ∨ s.consumer.stopped then
    { s with replayer := .done }
  else
    match s.consumer.masters.assertSync, m with
    | .error e, _ => s.failReplay setup (.obsoleteMaster e)
    | .ok (), none => { s with replayer := .polling }
    | .ok (), some m => { s with replayer := .gathering m }

/-- Replays a message and those that wait behind it, as far as a group goes. -/
def replayGroup (setup : Setup σ τ) (syncDue : Bool) (s : Streaming σ τ) (m : Message) :
    Streaming σ τ :=
  let (more, requests) := s.requests.drain (setup.groupSize - 1)
  let s := { s with requests }
  match Replay.State.replayGroup setup.store syncDue (m :: more) s.consumer.replay with
  | .error e replay =>
    { s with consumer := { s.consumer with replay } }.failReplay setup (.replay e)
  | .ok result replay =>
    -- A shutdown is acknowledged behind the whole group, wherever in it the request stands.
    let acks :=
      match result.shutdown with
      | some _ => result.acks ++ [replay.replayer.ack .shutdown 0]
      | none => result.acks
    { s with
      consumer := { s.consumer with replay }
      replayer := .queueing acks result.shutdown }

/-- The end of the connection that a requested shutdown asks for. -/
def groupShutdown (s : Streaming σ τ) (time : Int64) : ConnectionError :=
  .groupShutdown s.consumer.masters.group.name s.consumer.replay.replayer.highVlsn time

/-- A move of the replayer, at a moment when stable storage may be due. -/
def replayerStep (setup : Setup σ τ) (syncDue : Bool) (s : Streaming σ τ) : Streaming σ τ :=
  match s.replayer with
  | .polling =>
    match s.requests.pop? with
    | some (m, requests) => { s with requests, replayer := .polled (some m) }
    | none => { s with replayer := .polled none }
  | .polled m => s.consider setup m
  | .gathering m => s.replayGroup setup syncDue m
  | .queueing [] none => { s with replayer := .polling }
  | .queueing [] (some time) =>
    { s with session := s.session.setTimeout setup.transport 0, replayer := .awaiting time }
  | .queueing (a :: rest) shutdown =>
    match s.output.push? a with
    | some output => { s with output, replayer := .queueing rest shutdown }
    | none => if s.writer = .done then s.failReplay setup .writerGone else s
  | .awaiting time =>
    if s.shutdownAcked ∨ s.writer = .done then s.failReplay setup (s.groupShutdown time) else s
  | .done => s

/-- The replayer stops waiting for the acknowledgment of a shutdown to be written. -/
def giveUp (setup : Setup σ τ) (s : Streaming σ τ) : Streaming σ τ :=
  match s.replayer with
  | .awaiting time => s.failReplay setup (s.groupShutdown time)
  | _ => s

/-! ## 4. The writer -/

/-- Notes that a message was written. -/
def wrote (s : Streaming σ τ) : Message → Streaming σ τ
  | .heartbeatResponse .. =>
    { s with consumer := { s.consumer with heartbeatAcks := s.consumer.heartbeatAcks + 1 } }
  | .shutdownResponse => { s with shutdownAcked := true }
  | _ => s

/-- Writes the message that answers the first of some acknowledgments. -/
def write (setup : Setup σ τ) (s : Streaming σ τ) (a : Ack) (rest : List Ack) : Streaming σ τ :=
  let (m, left) := firstResponse setup.groupedAcks a rest
  match Session.send setup.codec setup.transport m s.session with
  | .ok () session => { { s with session }.wrote m with writer := .writing left }
  | .error e session =>
    -- A writer that was stopped anyway reports no failure.
    if s.stop then { s with session, writer := .done }
    else
      { s with
        session := session.close setup.transport
        writeError := some (.stream e)
        writer := .done }

def writerStep (setup : Setup σ τ) (s : Streaming σ τ) : Streaming σ τ :=
  match s.writer with
  | .checking => { s with writer := if s.stop then .done else .polling }
  | .polling =>
    match s.output.pop? with
    | some (a, output) => { s with output, writer := .holding a }
    | none => { s with writer := .starved }
  | .starved => { s with writer := if s.drain then .done else .checking }
  | .holding a =>
    let (more, output) := s.output.drain setup.outputCapacity
    { s with output, writer := .writing (a :: more) }
  | .writing [] => { s with writer := .checking }
  | .writing (a :: rest) => s.write setup a rest
  | .done => s

/-! ## 5. Interleavings -/

/-- What moves next. -/
inductive Action where
  | reader
  | replayer (syncDue : Bool)
  | writer
  /-- The replayer's patience for the shutdown acknowledgment ends. -/
  | giveUp
  /-- The consumer is told to stop for good. -/
  | stop
  /-- The group elects a master. -/
  | elect (m : Master)
deriving DecidableEq, Repr

/-- One action.  A thread that has to wait stays where it is. -/
def step (setup : Setup σ τ) (s : Streaming σ τ) : Action → Streaming σ τ
  | .reader => s.readerStep setup
  | .replayer syncDue => s.replayerStep setup syncDue
  | .writer => s.writerStep setup
  | .giveUp => s.giveUp setup
  | .stop =>
    { s with
      consumer := { s.consumer with stopped := true }
      session := s.session.close setup.transport }
  | .elect m => { s with consumer := { s.consumer with masters := s.consumer.masters.elect m } }

def run (setup : Setup σ τ) (s : Streaming σ τ) (actions : List Action) : Streaming σ τ :=
  actions.foldl (step setup) s

/-- Why the connection ended, if not for its link alone: what befell the replayer counts
    first, then the writer, then the reader. -/
def error? (s : Streaming σ τ) : Option ConnectionError :=
  s.replayError.or (s.writeError.or s.readError)

end Streaming

end Replication.Consumer
