import Replication.Consumer.Loop
import Replication.Link.Scripted

/-! # Rehearsed connections

A connection whose other side follows a script, and one interleaving of the consumer's
threads that is fixed by the script: the first message is replayed alone, the others in
groups as large as they may be, then a last heartbeat; only then are the acknowledgments
written, and only then does the link come to its end.
-/

namespace Replication.Consumer

open Replication.Group (Master)
open Replication.Link (LinkError ScriptedLink)
open Replication.Replay (MemoryStore)
open Replication.Stream (Message)

/-! ## 1. Scripts -/

/-- How a script ends. -/
inductive Ending where
  | link (e : LinkError)
  /-- The consumer is told to stop. -/
  | stop
  /-- These bytes come, and then the link fails. -/
  | bytes (bytes : Octets)
deriving DecidableEq, Repr

/-- What happens on a connection after its handshake. -/
structure Script where
  stream : List Message
  ending : Ending
  /-- During the write to the store that comes after so many others, this master is
      elected. -/
  election : Option (Nat × Master) := none

/-- The heartbeat behind the last message of a script. -/
def lastHeartbeat : Message := .heartbeat 9223372036854775807 0 0

/-! ## 2. The rehearsed interleaving -/

namespace Rehearsal

/-- A rehearsed connection. -/
abbrev Scene := Streaming ScriptedLink MemoryStore

variable (setup : Setup ScriptedLink MemoryStore) (syncDue : Bool) (script : Script)

/-- Makes messages arrive. -/
def deliver (bytes : Octets) (s : Scene) : Scene :=
  { s with session := { s.session with link := s.session.link.deliver bytes } }

/-- Lets the reader take as many messages off the link as that. -/
def readMessages : Nat → Scene → Scene
  | 0, s => s
  | n + 1, s => readMessages n ((s.step setup .reader).step setup .reader)

/-- Whether the replayer waits for something that it does not bring about. -/
def replayerRests (s : Scene) : Bool :=
  match s.replayer with
  | .polling => s.requests.items.isEmpty && s.exit = .none && !s.consumer.stopped
  | .awaiting _ => !s.shutdownAcked && s.writer ≠ .done
  | .done => true
  | _ => false

/-- One move of the replayer, with the election that may come of it. -/
def replayerMoves (s : Scene) : Scene :=
  let s := s.step setup (.replayer syncDue)
  match script.election with
  | some (before, master) =>
    if before < s.consumer.replay.store.calls.countP (·.kind = .write) then
      s.step setup (.elect master)
    else s
  | none => s

/-- Lets the replayer move until it rests. -/
def replay : Nat → Scene → Scene
  | 0, s => s
  | fuel + 1, s => if replayerRests s then s else replay fuel (replayerMoves setup syncDue script s)

/-- Whether the writer waits for something that it does not bring about. -/
def writerRests (s : Scene) : Bool :=
  match s.writer with
  | .checking => s.output.items.isEmpty && !s.drain && !s.stop
  | .done => true
  | _ => false

/-- Lets the writer move until it rests. -/
def write : Nat → Scene → Scene
  | 0, s => s
  | fuel + 1, s => if writerRests s then s else write fuel (s.step setup .writer)

/-- Brings the link to its end, unless it is closed already. -/
def endLink (s : Scene) : Scene :=
  if s.session.link.closed then s
  else
    match script.ending with
    | .link e =>
      { s with session := { s.session with link := { s.session.link with ending := some e } } }
    | .stop => s.step setup .stop
    | .bytes bytes => deliver bytes s

/-- Lets the reader move, and the others after each of its moves, until all threads have
    ended. -/
def conclude (patience : Nat) : Nat → Scene → Scene
  | 0, s => s
  | fuel + 1, s =>
    if s.reader = .done then s
    else
      let s := s.step setup .reader
      conclude patience fuel (write setup patience (replay setup syncDue script patience s))

/-- More moves than any thread needs for a script. -/
def patience : Nat :=
  let last := match script.ending with
    | .bytes bytes => bytes.length
    | _ => 0
  16 * (script.stream.length + last + 4)

/-- The rehearsed interleaving. -/
def drive (s : Scene) : Scene :=
  let patience := patience script
  let replay := replay setup syncDue script patience
  let write := write setup patience
  let read (ms : List Message) (s : Scene) : Scene :=
    readMessages setup ms.length (deliver (ms.flatMap Message.frame) s)
  let s := replay (read (script.stream.take 1) s)
  let s := replay (read (script.stream.drop 1) s)
  let s := if s.replayer = .polling then replay (read [lastHeartbeat] s) else s
  let s := replay (write s)
  conclude setup syncDue script patience patience (endLink setup script s)

end Rehearsal

end Replication.Consumer
