import Replication.Consumer.Ledger
import Replication.Proofs.Consumer.ReplyOrder
import Replication.Proofs.Consumer.Staging

/-! # What a broken connection leaves behind

When the link of a connection fails, the replayer and the writer are to empty their queues
before they end.  Each ends when it has found its queue empty, and when it then learns that
it may end.  So it has done its work on all that was there when it last looked, and what
was put on the queue between the two moves is left behind.
-/

namespace Replication.Consumer

open Replication.Replay (Ack)
open Replication.Stream (Message Session)

/-! ## A queue and its thread -/

/-- The thread that takes from a queue, as the queue sees it. -/
inductive Taker (α : Type) where
  | ready
  | holding (a : α)
  /-- Has found nothing, and has not come back. -/
  | starved
  | ended

namespace Ledger

variable {α : Type} {l : Ledger α} {excused excused' : Prop} {items more : List α} {a : α}
  {taker : Taker α}

/-- Whether a queue's ledger agrees with what is in it.  A thread that was excused may have
    ended in any way. -/
def Agrees (l : Ledger α) (excused : Prop) (items : List α) : Taker α → Prop
  | .ready => l.put = l.used ++ items
  | .holding a => l.put = l.used ++ a :: items
  | .starved => l.Leaves items
  | .ended => excused ∨ l.Leaves items

theorem Leaves.put_more (h : l.Leaves items) :
    (l.note (some (.put a))).Leaves (items ++ [a]) := by
  refine ⟨h.used, ?_⟩
  rw [note, h.put, List.append_assoc]

theorem Leaves.all (h : l.Leaves items) : l.put = l.used ++ items := by
  rw [h.used, h.put]

theorem Agrees.mono (h : l.Agrees excused items taker) (imp : excused → excused') :
    l.Agrees excused' items taker := by
  cases taker with
  | ended => exact h.imp_left imp
  | _ => exact h

theorem Agrees.put (h : l.Agrees excused items taker) :
    (l.note (some (.put a))).Agrees excused (items ++ [a]) taker := by
  cases taker with
  | ready =>
    change l.put ++ [a] = l.used ++ (items ++ [a])
    rw [show l.put = l.used ++ items from h, List.append_assoc]
  | holding b =>
    change l.put ++ [a] = l.used ++ b :: (items ++ [a])
    rw [show l.put = l.used ++ b :: items from h, List.append_assoc, List.cons_append]
  | starved => exact Leaves.put_more h
  | ended => exact h.imp_right Leaves.put_more

theorem Agrees.found (h : l.Agrees excused (a :: items) .ready) :
    (l.note (some .looked)).Agrees excused items (.holding a) :=
  h

/-- Who finds nothing has used all that was put there. -/
theorem Agrees.missed (h : l.Agrees excused [] .ready) :
    (l.note (some .looked)).Agrees excused [] .starved := by
  have all : l.put = l.used := (show l.put = l.used ++ [] from h).trans (List.append_nil _)
  exact ⟨all.symm, (List.append_nil _).symm⟩

theorem Agrees.used (h : l.Agrees excused (more ++ items) (.holding a)) :
    (l.note (some (.used (a :: more)))).Agrees excused items .ready := by
  change l.put = l.used ++ a :: more ++ items
  rw [show l.put = l.used ++ a :: (more ++ items) from h, List.append_assoc, List.cons_append]

theorem Agrees.resume (h : l.Agrees excused items .starved) : l.Agrees excused items .ready :=
  Leaves.all h

theorem Agrees.ended (h : l.Agrees excused items .starved) : l.Agrees excused items .ended :=
  .inr h

end Ledger

/-- The replayer, as the request queue sees it. -/
def Replayer.taker : Replayer → Taker Message
  | .polled (some m) | .gathering m => .holding m
  | .polled none => .starved
  | .done => .ended
  | .polling | .queueing .. | .awaiting _ => .ready

/-- The writer, as the output queue sees it. -/
def Writer.taker : Writer → Taker Ack
  | .holding a => .holding a
  | .starved => .starved
  | .done => .ended
  | .checking | .polling | .writing _ => .ready

namespace Streaming

variable {σ τ : Type} {setup : Setup σ τ} {s : Streaming σ τ}

/-! ## The request queue -/

variable {l : Ledger Message}

theorem requests_reader {excused : Prop} {taker : Taker Message}
    (h : l.Agrees excused s.requests.items taker) :
    (l.note (s.requestEntry? setup .reader)).Agrees excused
      (s.readerStep setup).requests.items taker := by
  unfold readerStep requestEntry?
  cases place : s.reader with
  | reading =>
    dsimp only
    unfold read
    split
    · exact h
    · split <;> exact h
  | offering m =>
    dsimp only
    cases pushed : s.requests.push? m with
    | some requests =>
      dsimp only
      rw [BoundedQueue.items_of_push? pushed]
      exact h.put
    | none =>
      dsimp only
      split <;> exact h
  | leaving | done => exact h
  | _ =>
    dsimp only
    split <;> exact h

theorem requests_replayer (staged : s.Staged) (attended : s.Attended) (syncDue : Bool)
    (h : l.Agrees s.ReplayExcused s.requests.items s.replayer.taker) :
    (l.note (s.requestEntry? setup (.replayer syncDue))).Agrees
      (s.replayerStep setup syncDue).ReplayExcused (s.replayerStep setup syncDue).requests.items
      (s.replayerStep setup syncDue).replayer.taker := by
  unfold replayerStep requestEntry?
  cases place : s.replayer with
  | polling =>
    rw [place] at h
    dsimp only
    split
    next m requests popped =>
      rw [BoundedQueue.items_of_pop? popped] at h
      exact h.found
    next empty =>
      rw [BoundedQueue.items_of_pop?_none empty] at h ⊢
      exact h.missed
  | polled m =>
    rw [place] at h
    dsimp only
    unfold consider
    split
    next why =>
      -- It may end with nothing in its hands; with a message there it needs an excuse.
      cases m with
      | none => exact h.ended
      | some m =>
        rcases why with exit | ⟨-, found⟩ | stopped
        · rcases staged.of_immediate exit with ending | drained
          · exact .inl (.inr (.inr (.inr ending)))
          · cases place.symm.trans drained.2.1
        · cases found
        · exact .inl (.inr (.inl stopped))
    next =>
      split
      · exact .inl (.inl ⟨_, rfl, nofun⟩)
      · exact h.resume
      · exact h
  | gathering m =>
    rw [place, ← s.requests.drain_append (setup.groupSize - 1)] at h
    dsimp only
    unfold replayGroup
    dsimp only
    cases Replay.State.replayGroup setup.store syncDue
        (m :: (s.requests.drain (setup.groupSize - 1)).1) s.consumer.replay with
    | error e replay => exact .inl (.inl ⟨_, rfl, nofun⟩)
    | ok result replay => exact h.used
  | queueing acks shutdown =>
    rw [place] at h
    cases acks with
    | nil => cases shutdown <;> exact h
    | cons a rest =>
      dsimp only
      split
      · exact h
      · split
        next ended =>
          -- Nobody writes any more, but the replayer is still there.
          refine .inl (.inr (.inr ?_))
          exact (attended.writer ended).resolve_left (by rw [place]; exact nofun)
        next =>
          rw [place]
          exact h
  | awaiting time =>
    rw [place] at h
    dsimp only
    split
    · exact .inl (.inl ⟨_, rfl, nofun⟩)
    · rw [place]
      exact h
  | done =>
    dsimp only
    rw [place]
    rw [place] at h
    exact h

theorem requests_step (staged : s.Staged) (attended : s.Attended) (action : Action)
    (h : l.Agrees s.ReplayExcused s.requests.items s.replayer.taker) :
    (l.note (s.requestEntry? setup action)).Agrees (s.step setup action).ReplayExcused
      (s.step setup action).requests.items (s.step setup action).replayer.taker := by
  cases action with
  | reader =>
    have excused : s.ReplayExcused → (s.readerStep setup).ReplayExcused :=
      staged.replayExcused_step setup (.inl rfl)
    rw [step, (readerStep_frame setup s).1]
    exact requests_reader (h.mono excused)
  | replayer syncDue => exact requests_replayer staged attended syncDue h
  | writer =>
    have excused := staged.replayExcused_step setup (.inr rfl)
    have footprint := s.step_footprint setup .writer
    generalize s.step setup .writer = s' at footprint excused ⊢
    cases footprint
    exact h.mono excused
  | giveUp =>
    rw [step, giveUp]
    split
    · exact .inl (.inl ⟨_, rfl, by rintro ⟨⟩⟩)
    · exact h
  | stop => exact h.mono fun _ => .inr (.inl rfl)
  | elect m => exact h

/-! ## The output queue -/

variable {o : Ledger Ack}

theorem output_replayer {excused : Prop} {taker : Taker Ack} (syncDue : Bool)
    (h : o.Agrees excused s.output.items taker) :
    (o.note (s.outputEntry? setup (.replayer syncDue))).Agrees excused
      (s.replayerStep setup syncDue).output.items taker := by
  unfold replayerStep outputEntry?
  -- Of all places only one puts something on the queue, and only if there is room.
  cases place : s.replayer with
  | polling =>
    dsimp only
    split <;> exact h
  | polled m =>
    dsimp only
    unfold consider
    split
    · exact h
    · split <;> exact h
  | gathering m =>
    dsimp only
    unfold replayGroup
    dsimp only
    split <;> exact h
  | queueing acks shutdown =>
    cases acks with
    | nil => cases shutdown <;> exact h
    | cons a rest =>
      dsimp only
      cases pushed : s.output.push? a with
      | some output =>
        dsimp only
        rw [BoundedQueue.items_of_push? pushed]
        exact h.put
      | none =>
        dsimp only
        split <;> exact h
  | awaiting time =>
    dsimp only
    split <;> exact h
  | done => exact h

theorem output_writer (staged : s.Staged)
    (h : o.Agrees s.WriteExcused s.output.items s.writer.taker) :
    (o.note (s.outputEntry? setup .writer)).Agrees (s.writerStep setup).WriteExcused
      (s.writerStep setup).output.items (s.writerStep setup).writer.taker := by
  -- The writer is told to stop only when it is done, unless the connection ends at once.
  have stopping (stop : s.stop = true) (going : s.writer ≠ .done) :
      s.consumer.phase = .immediateExit :=
    (staged.of_stop stop).resolve_right fun drained => going drained.2.2
  unfold writerStep outputEntry?
  cases place : s.writer with
  | checking =>
    rw [place] at h
    dsimp only
    split
    next stop => exact .inl (.inr (stopping stop (by rw [place]; exact nofun)))
    next => exact h
  | polling =>
    rw [place] at h
    dsimp only
    split
    next a output popped =>
      rw [BoundedQueue.items_of_pop? popped] at h
      exact h.found
    next empty =>
      rw [BoundedQueue.items_of_pop?_none empty] at h ⊢
      exact h.missed
  | starved =>
    rw [place] at h
    dsimp only
    split
    · exact h.ended
    · exact h.resume
  | holding a =>
    rw [place, ← s.output.drain_append setup.outputCapacity] at h
    exact h.used
  | writing acks =>
    rw [place] at h
    cases acks with
    | nil => exact h
    | cons a rest =>
      dsimp only
      unfold write
      dsimp only
      split
      next session sent =>
        rw [output_wrote]
        exact h
      next e session failed =>
        split
        next stop => exact .inl (.inr (stopping stop (by rw [place]; exact nofun)))
        next => exact .inl (.inl rfl)
  | done =>
    dsimp only
    rw [place]
    rw [place] at h
    exact h

theorem output_step (staged : s.Staged) (action : Action)
    (h : o.Agrees s.WriteExcused s.output.items s.writer.taker) :
    (o.note (s.outputEntry? setup action)).Agrees (s.step setup action).WriteExcused
      (s.step setup action).output.items (s.step setup action).writer.taker := by
  have excused := staged.writeExcused_step setup action
  have footprint := s.step_footprint setup action
  cases action with
  | replayer syncDue =>
    rw [step, (replayerStep_frame setup s syncDue).1]
    exact output_replayer syncDue (h.mono excused)
  | writer => exact output_writer staged h
  | _ =>
    generalize s.step setup _ = s' at footprint excused ⊢
    cases footprint
    exact h.mono excused

end Streaming

/-! ## A whole connection -/

namespace Audited

variable {σ τ : Type} {setup : Setup σ τ} {w : Audited σ τ}

/-- Whether the ledgers of a connection agree with what is in its queues. -/
structure Agrees (w : Audited σ τ) : Prop where
  staged : w.talk.streaming.Staged
  attended : w.talk.streaming.Attended
  requests : w.requests.Agrees w.talk.streaming.ReplayExcused w.talk.streaming.requests.items
    w.talk.streaming.replayer.taker
  output : w.output.Agrees w.talk.streaming.WriteExcused w.talk.streaming.output.items
    w.talk.streaming.writer.taker

theorem agrees_start (setup : Setup σ τ) (first : Ack) (a : Attached σ τ) :
    (start setup first a).Agrees :=
  ⟨⟨rfl, rfl, rfl⟩, ⟨nofun, nofun⟩, rfl, rfl⟩

theorem Agrees.step (h : w.Agrees) (move : Talk.Move σ) : (w.step setup move).Agrees := by
  cases move with
  | act action =>
    exact ⟨h.staged.step action, h.attended.step h.staged action,
      Streaming.requests_step h.staged h.attended action h.requests,
      Streaming.output_step h.staged action h.output⟩
  | link change => exact ⟨h.staged, ⟨h.attended.drain, h.attended.writer⟩, h.requests, h.output⟩

theorem Agrees.run (setup : Setup σ τ) (h : w.Agrees) (moves : List (Talk.Move σ)) :
    (w.run setup moves).Agrees := by
  induction moves generalizing w with
  | nil => exact h
  | cons move moves ih => exact ih (h.step move)

/-- Whatever the threads, the master and the node do: when a connection is over because its
    link failed, and for no other reason, then every message has been replayed that was in
    the request queue when the replayer last looked, every acknowledgment was handed on to be
    written that was in the output queue when the writer last looked, and what is left in
    the queues was put there after that. -/
theorem run_leaves_late (setup : Setup σ τ) (first : Ack) (a : Attached σ τ)
    (moves : List (Talk.Move σ))
    (broke : ((start setup first a).run setup moves).talk.streaming.BrokeOff) :
    ((start setup first a).run setup moves).requests.Leaves
        ((start setup first a).run setup moves).talk.streaming.requests.items ∧
      ((start setup first a).run setup moves).output.Leaves
        ((start setup first a).run setup moves).talk.streaming.output.items := by
  have agrees := (agrees_start setup first a).run setup moves
  generalize (start setup first a).run setup moves = w at broke agrees
  -- The reader is done, so the other threads are, and neither of them is excused.
  have ending : w.talk.streaming.consumer.phase ≠ .immediateExit := by
    rw [broke.broke]
    exact nofun
  have drained : w.talk.streaming.Drained := by
    have staged := agrees.staged
    rw [Streaming.Staged, broke.ended] at staged
    exact staged.resolve_left ending
  have written : ¬ w.talk.streaming.WriteExcused := by
    rintro (error | immediate)
    · rw [broke.write] at error
      cases error
    · exact ending immediate
  constructor
  · have requests := agrees.requests
    rw [drained.2.1] at requests
    refine requests.resolve_left ?_
    rintro (⟨e, error, failed⟩ | stopped | excused)
    · exact failed (broke.replay e error)
    · cases broke.stopped.symm.trans stopped
    · exact written excused
  · have output := agrees.output
    rw [drained.2.2] at output
    exact output.resolve_left written

end Audited

namespace Hangup

open Replication.Link (ScriptedLink)
open Replication.Replay (MemoryStore)
open Reconnection (sample consumer commit)

/-- The reply to the heartbeat of the handshake. -/
def first : Ack := { kind := .heartbeat, id := 1, highVlsn := 0, dtvlsn := 0 }

/-- A master that has sent two commits and hung up. -/
def attached : Attached ScriptedLink MemoryStore where
  consumer := { consumer with phase := .handshake, heartbeatId := 1 }
  session.link := { incoming := [commit 7, commit 8].flatMap Message.frame, ending := some .closed }

def reader (count : Nat) : List (Talk.Move ScriptedLink) :=
  List.replicate count (.act .reader)

def replayer (count : Nat) : List (Talk.Move ScriptedLink) :=
  List.replicate count (.act (.replayer false))

def writer (count : Nat) : List (Talk.Move ScriptedLink) :=
  List.replicate count (.act .writer)

/-- Both commits are in the queue when the link breaks. -/
def inTime : List (Talk.Move ScriptedLink) :=
  reader 5 ++ replayer 8 ++ reader 1 ++ writer 9 ++ reader 4

/-- The writer finds its queue empty before the first commit comes, and the replayer before
    the second. -/
def late : List (Talk.Move ScriptedLink) :=
  writer 7 ++ reader 2 ++ replayer 6 ++ reader 3 ++ replayer 1 ++ reader 1 ++ writer 1 ++ reader 4

end Hangup

namespace Audited

open Hangup (first attached inTime late)
open Reconnection (sample commit)

theorem run_leaves_late_inTime :
    ((start sample first attached).run sample inTime).talk.streaming.BrokeOff ∧
      ((start sample first attached).run sample inTime).requests.Leaves
        ((start sample first attached).run sample inTime).talk.streaming.requests.items ∧
      ((start sample first attached).run sample inTime).output.Leaves
        ((start sample first attached).run sample inTime).talk.streaming.output.items := by
  have broke : ((start sample first attached).run sample inTime).talk.streaming.BrokeOff :=
    .of_unfailed (by decide +kernel) (by decide +kernel) (by decide +kernel) (by decide +kernel)
  exact ⟨broke, run_leaves_late sample first attached inTime broke⟩

/-- The second commit is read and queued, and never replayed; the acknowledgment of the first
    is queued, and never handed on. -/
theorem run_loses_late :
    ((start sample first attached).run sample late).talk.streaming.BrokeOff ∧
      ((start sample first attached).run sample late).requests.put = [commit 7, commit 8] ∧
      ((start sample first attached).run sample late).requests.used = [commit 7] ∧
      ((start sample first attached).run sample late).output.put.map (·.reply?) =
        [some (.heartbeat 1), some (.txn 7)] ∧
      ((start sample first attached).run sample late).output.used.map (·.reply?) =
        [some (.heartbeat 1)] :=
  ⟨.of_unfailed (by decide +kernel) (by decide +kernel) (by decide +kernel) (by decide +kernel),
    by decide +kernel, by decide +kernel, by decide +kernel, by decide +kernel⟩

end Audited

end Replication.Consumer
