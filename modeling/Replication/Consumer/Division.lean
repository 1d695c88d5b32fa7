import Replication.Consumer.Ledger

/-! # The division of a stream

The replayer takes what waits in the request queue as one group, so where the stream of a
connection is cut is a matter of timing.  Beside the connection stand here the groups that
it has replayed, and the acknowledgments that the replayer has queued to be written.
-/

namespace Replication.Consumer

open Replication.Replay (Ack)
open Replication.Stream (Message)

/-! ## 1. What an action does -/

namespace Ledger.Entry

variable {α : Type}

def used? : Entry α → Option (List α)
  | .used items => some items
  | _ => none

/-- The item that was put in the queue. -/
def put? : Entry α → Option α
  | .put a => some a
  | _ => none

end Ledger.Entry

namespace Streaming

variable {σ τ : Type}

def group? (setup : Setup σ τ) (s : Streaming σ τ) (action : Action) : Option (List Message) :=
  (s.requestEntry? setup action).bind (·.used?)

def queues? (setup : Setup σ τ) (s : Streaming σ τ) (action : Action) : Option Ack :=
  (s.outputEntry? setup action).bind (·.put?)

end Streaming

/-! ## 2. Connections with their division -/

/-- A connection, the groups that it has replayed, and what its replayer has queued. -/
structure Divided (σ τ : Type) where
  talk : Talk σ τ
  groups : List (List Message) := []
  queued : List Ack := []

namespace Divided

variable {σ τ : Type}

/-- A connection behind its handshake, which has replayed nothing. -/
def start (setup : Setup σ τ) (first : Ack) (a : Attached σ τ) : Divided σ τ where
  talk := .start setup first a

def step (setup : Setup σ τ) (w : Divided σ τ) (move : Talk.Move σ) : Divided σ τ :=
  let talk := w.talk.step setup move
  match move with
  | .act action =>
    { talk
      groups := w.groups ++ (w.talk.streaming.group? setup action).toList
      queued := w.queued ++ (w.talk.streaming.queues? setup action).toList }
  | .link _ => { w with talk }

def run (setup : Setup σ τ) (w : Divided σ τ) (moves : List (Talk.Move σ)) : Divided σ τ :=
  moves.foldl (step setup) w

end Divided

end Replication.Consumer
