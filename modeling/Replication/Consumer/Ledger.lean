import Replication.Consumer.Life

/-! # Ledgers of the queues

What goes through the two queues of a connection.  A thread that takes from a queue polls
it, and whether it is to end it reads in a later move; so the ledger of a queue also has
what had been put there when the thread last looked.
-/

namespace Replication.Consumer

open Replication.Replay (Ack)
open Replication.Stream (Message)

/-! ## 1. Ledgers -/

/-- What has gone through a queue. -/
structure Ledger (α : Type) where
  put : List α := []
  /-- What the thread that takes from the queue has done its work on. -/
  used : List α := []
  /-- What had been put there when that thread last looked. -/
  known : List α := []

namespace Ledger

variable {α : Type}

/-- What may happen to a queue. -/
inductive Entry (α : Type) where
  | put (a : α)
  | looked
  | used (items : List α)

/-- Enters what happened, if anything did. -/
def note (l : Ledger α) : Option (Entry α) → Ledger α
  | some (.put a) => { l with put := l.put ++ [a] }
  | some .looked => { l with known := l.put }
  | some (.used items) => { l with used := l.used ++ items }
  | none => l

/-- Whether all that its thread knew of was used, so that what is left came later. -/
structure Leaves (l : Ledger α) (left : List α) : Prop where
  used : l.used = l.known
  put : l.put = l.known ++ left

end Ledger

/-! ## 2. Entries -/

namespace Streaming

variable {σ τ : Type}

/-- What an action does to the request queue.  Messages are used when they are replayed. -/
def requestEntry? (setup : Setup σ τ) (s : Streaming σ τ) : Action → Option (Ledger.Entry Message)
  | .reader =>
    match s.reader with
    | .offering m =>
      match s.requests.push? m with
      | some _ => some (.put m)
      | none => none
    | _ => none
  | .replayer syncDue =>
    match s.replayer with
    | .polling => some .looked
    | .gathering m =>
      let group := m :: (s.requests.drain (setup.groupSize - 1)).1
      match Replay.State.replayGroup setup.store syncDue group s.consumer.replay with
      | .ok .. => some (.used group)
      | .error .. => none
    | _ => none
  | _ => none

/-- What an action does to the output queue.  Acknowledgments are used when the writer turns
    to writing them. -/
def outputEntry? (setup : Setup σ τ) (s : Streaming σ τ) : Action → Option (Ledger.Entry Ack)
  | .replayer _ =>
    match s.replayer with
    | .queueing (a :: _) _ =>
      match s.output.push? a with
      | some _ => some (.put a)
      | none => none
    | _ => none
  | .writer =>
    match s.writer with
    | .polling => some .looked
    | .holding a => some (.used (a :: (s.output.drain setup.outputCapacity).1))
    | _ => none
  | _ => none

/-- Whether a connection is over because its link failed, and nothing else went wrong: no
    message failed to be replayed, no shutdown was asked for, no other master was found, no
    write failed, and the consumer was not told to stop. -/
structure BrokeOff (s : Streaming σ τ) : Prop where
  ended : s.reader = .done
  broke : s.consumer.phase = .softDrain
  stopped : s.consumer.stopped = false
  /-- That nobody writes acknowledgments any more goes back to a failed write. -/
  replay : ∀ e, s.replayError = some e → e = .writerGone
  write : s.writeError = none

theorem BrokeOff.of_unfailed {s : Streaming σ τ} (ended : s.reader = .done)
    (broke : s.consumer.phase = .softDrain) (stopped : s.consumer.stopped = false)
    (error : s.error? = none) : s.BrokeOff := by
  rw [error?, Option.or_eq_none_iff, Option.or_eq_none_iff] at error
  refine ⟨ended, broke, stopped, fun e failed => ?_, error.2.1⟩
  cases error.1.symm.trans failed

end Streaming

/-! ## 3. Connections with their ledgers -/

/-- A connection and the ledgers of its queues. -/
structure Audited (σ τ : Type) where
  talk : Talk σ τ
  requests : Ledger Message
  output : Ledger Ack

namespace Audited

variable {σ τ : Type}

/-- A connection behind its handshake, with what is in its queues. -/
def start (setup : Setup σ τ) (first : Ack) (a : Attached σ τ) : Audited σ τ :=
  let talk := Talk.start setup first a
  { talk
    requests := { put := talk.streaming.requests.items }
    output := { put := talk.streaming.output.items } }

def step (setup : Setup σ τ) (w : Audited σ τ) (move : Talk.Move σ) : Audited σ τ :=
  let talk := w.talk.step setup move
  match move with
  | .act a =>
    { talk
      requests := w.requests.note (w.talk.streaming.requestEntry? setup a)
      output := w.output.note (w.talk.streaming.outputEntry? setup a) }
  | .link _ => { w with talk }

def run (setup : Setup σ τ) (w : Audited σ τ) (moves : List (Talk.Move σ)) : Audited σ τ :=
  moves.foldl (step setup) w

end Audited

end Replication.Consumer
