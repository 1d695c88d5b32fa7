import Replication.Consumer.Division
import Replication.Proofs.Replay.Course

/-! # Replies on their way

Between a message that was read and the reply that is written stand two queues and three
threads.  What a thread holds is read off its place in the code, so the whole way is one
list: the acknowledgments that the writer holds, those in the output queue, those that the
replayer has yet to queue, and in front of it the messages that are not replayed.  A move
of a thread shifts what is on the way, or the thread ends and takes some of it along.
-/

namespace Replication.Consumer

open Replication.Replay (Ack Reply Role due)
open Replication.Stream (Message Session)

/-! ## Replies of a dialogue -/

def repliesOf : Message → List Reply
  | .heartbeatResponse id _ _ => [.heartbeat id]
  | .ack txn => [.txn txn]
  | .groupAck txns => txns.map .txn
  | _ => []

def Dialogue.replies (d : Dialogue) : List Reply :=
  d.written.flatMap repliesOf

def Dialogue.due (d : Dialogue) (role : Role) : List Reply :=
  .heartbeat d.heartbeat :: d.read.filterMap (Replay.due role)

theorem filterMap_reply?_run {acks : List Ack} (txns : ∀ a ∈ acks, a.kind = .txn) :
    acks.filterMap (·.reply?) = acks.map fun a => .txn a.id := by
  induction acks with
  | nil => rfl
  | cons a rest ih =>
    have kind := txns a List.mem_cons_self
    rw [List.filterMap_cons, Ack.reply?, kind, ih fun b mem => txns b (List.mem_cons_of_mem _ mem)]
    rfl

/-- A response makes the replies of the acknowledgments that it uses up. -/
theorem replies_firstResponse (grouped : Bool) (a : Ack) (rest : List Ack) :
    repliesOf (firstResponse grouped a rest).1 ++
      (firstResponse grouped a rest).2.filterMap (·.reply?) = (a :: rest).filterMap (·.reply?) := by
  rw [firstResponse, List.filterMap_cons, Ack.reply?]
  cases kind : a.kind with
  | heartbeat => rfl
  | shutdown => rfl
  | txn =>
    cases grouped with
    | false => rfl
    | true =>
      obtain ⟨left, parts⟩ := rest.takeWhile_prefix fun b => decide (b.kind = .txn)
      have txns : ∀ b ∈ rest.takeWhile fun b => decide (b.kind = .txn), b.kind = .txn :=
        fun b mem => of_decide_eq_true (List.all_eq_true.1 List.all_takeWhile b mem)
      dsimp only
      rw [if_pos rfl]
      generalize rest.takeWhile (fun b => decide (b.kind = .txn)) = run at parts txns
      subst parts
      cases run with
      | nil => rfl
      | cons b run =>
        dsimp only
        rw [List.drop_left, List.filterMap_append, filterMap_reply?_run txns, repliesOf]
        simp

/-! ## The way of a reply -/

/-- The acknowledgments that the writer has taken off the queue. -/
def Writer.held : Writer → List Ack
  | .holding a => [a]
  | .writing acks => acks
  | _ => []

/-- The acknowledgments that the replayer has yet to queue. -/
def Replayer.queued : Replayer → List Ack
  | .queueing acks _ => acks
  | _ => []

/-- The shutdown that the replayer has been asked for. -/
def Replayer.asked? : Replayer → Option Int64
  | .queueing _ asked => asked
  | .awaiting time => some time
  | _ => none

/-- The messages that the replayer has taken off the queue. -/
def Replayer.taken : Replayer → List Message
  | .polled (some m) | .gathering m => [m]
  | _ => []

/-- The message that the reader has yet to queue. -/
def Reader.offered : Reader → List Message
  | .offering m => [m]
  | _ => []

namespace Streaming

variable {σ τ : Type} {setup : Setup σ τ} {s s' : Streaming σ τ} {action : Action}

/-- The acknowledgments that have been queued. -/
def undelivered (s : Streaming σ τ) : List Ack :=
  s.writer.held ++ s.output.items

/-- The acknowledgments on the way. -/
def unwritten (s : Streaming σ τ) : List Ack :=
  s.writer.held ++ s.output.items ++ s.replayer.queued

/-- The messages on the way. -/
def unreplayed (s : Streaming σ τ) : List Message :=
  s.replayer.taken ++ s.requests.items ++ s.reader.offered

/-! ## What a thread leaves alone -/

/-- What an action may touch. -/
inductive Footprint (s : Streaming σ τ) : Action → Streaming σ τ → Prop where
  | reader {phase session requests exit drain stop reader readError} :
    Footprint s .reader { s with
      consumer := { s.consumer with phase }
      session, requests, exit, drain, stop, reader, readError }
  | replayer {syncDue replay session requests output replayer replayError} :
    Footprint s (.replayer syncDue) { s with
      consumer := { s.consumer with replay }
      session, requests, output, replayer, replayError }
  | writer {heartbeatAcks session output shutdownAcked writer writeError} :
    Footprint s .writer { s with
      consumer := { s.consumer with heartbeatAcks }
      session, output, shutdownAcked, writer, writeError }
  | giveUp {session requests replayer replayError} :
    Footprint s .giveUp { s with session, requests, replayer, replayError }
  | stop {session} :
    Footprint s .stop { s with consumer := { s.consumer with stopped := true }, session }
  | elect {m masters} : Footprint s (.elect m) { s with consumer := { s.consumer with masters } }

section Footprints

variable (setup s)

theorem readerStep_footprint : s.Footprint .reader (s.readerStep setup) := by
  unfold readerStep
  cases reader : s.reader with
  | reading =>
    dsimp only
    unfold read
    split
    · exact .reader
    · split <;> exact .reader
  | offering m =>
    dsimp only
    split
    · exact .reader
    · split <;> exact .reader
  | leaving | done => exact .reader
  | _ =>
    dsimp only
    split <;> exact .reader

theorem writerStep_footprint : s.Footprint .writer (s.writerStep setup) := by
  unfold writerStep
  cases writer : s.writer with
  | polling =>
    dsimp only
    split <;> exact .writer
  | writing acks =>
    cases acks with
    | nil => exact .writer
    | cons a rest =>
      dsimp only
      unfold write
      dsimp only
      split
      · cases (firstResponse setup.groupedAcks a rest).1 <;> exact .writer
      · split <;> exact .writer
  | _ => exact .writer

theorem replayerStep_footprint (syncDue : Bool) :
    s.Footprint (.replayer syncDue) (s.replayerStep setup syncDue) := by
  unfold replayerStep
  cases replayer : s.replayer with
  | polling =>
    dsimp only
    split <;> exact .replayer
  | polled m =>
    dsimp only
    unfold consider
    split
    · exact .replayer
    · split <;> exact .replayer
  | gathering m =>
    dsimp only
    unfold replayGroup
    dsimp only
    split <;> exact .replayer
  | queueing acks shutdown =>
    cases acks with
    | nil => cases shutdown <;> exact .replayer
    | cons a rest =>
      dsimp only
      split
      · exact .replayer
      · split <;> exact .replayer
  | awaiting time =>
    dsimp only
    split <;> exact .replayer
  | done => exact .replayer

theorem step_footprint (action : Action) : s.Footprint action (s.step setup action) := by
  cases action with
  | reader => exact readerStep_footprint setup s
  | replayer syncDue => exact replayerStep_footprint setup s syncDue
  | writer => exact writerStep_footprint setup s
  | giveUp =>
    rw [step, giveUp]
    split <;> exact .giveUp
  | stop => exact .stop
  | elect m => exact .elect

theorem readerStep_frame :
    (s.readerStep setup).replayer = s.replayer ∧ (s.readerStep setup).writer = s.writer := by
  have footprint := readerStep_footprint setup s
  generalize s.readerStep setup = s' at footprint ⊢
  cases footprint
  exact ⟨rfl, rfl⟩

theorem writerStep_frame :
    (s.writerStep setup).replayer = s.replayer ∧ (s.writerStep setup).reader = s.reader := by
  have footprint := writerStep_footprint setup s
  generalize s.writerStep setup = s' at footprint ⊢
  cases footprint
  exact ⟨rfl, rfl⟩

theorem replayerStep_frame (syncDue : Bool) :
    (s.replayerStep setup syncDue).writer = s.writer ∧
      (s.replayerStep setup syncDue).reader = s.reader := by
  have footprint := replayerStep_footprint setup s syncDue
  generalize s.replayerStep setup syncDue = s' at footprint ⊢
  cases footprint
  exact ⟨rfl, rfl⟩

end Footprints

/-- A replayer that has ended stays so. -/
theorem replayer_done_step (done : s.replayer = .done) :
    (s.step setup action).replayer = .done := by
  cases action with
  | reader => exact (readerStep_frame setup s).1.trans done
  | replayer syncDue =>
    change (s.replayerStep setup syncDue).replayer = .done
    rw [replayerStep, done]
    exact done
  | writer => exact (writerStep_frame setup s).1.trans done
  | giveUp =>
    change (s.giveUp setup).replayer = .done
    rw [giveUp, done]
    exact done
  | stop => exact done
  | elect m => exact done

/-- A writer that has ended stays so. -/
theorem writer_done_step (done : s.writer = .done) : (s.step setup action).writer = .done := by
  cases action with
  | reader => exact (readerStep_frame setup s).2.trans done
  | replayer syncDue => exact (replayerStep_frame setup s syncDue).1.trans done
  | writer =>
    change (s.writerStep setup).writer = .done
    rw [writerStep, done]
    exact done
  | giveUp =>
    change (s.giveUp setup).writer = .done
    unfold giveUp
    split <;> exact done
  | stop => exact done
  | elect m => exact done

/-! ## Moves of the threads -/

/-- What a move of the reader comes to. -/
inductive Reading (s s' : Streaming σ τ) : Option Passage → Prop where
  | along (unreplayed : s'.unreplayed = s.unreplayed) : Reading s s' none
  | read {m : Message} (unreplayed : s'.unreplayed = s.unreplayed ++ [m]) :
    Reading s s' (some (.read m))
  /-- Nobody takes what was read. -/
  | lost (ended : s.replayer = .done) : Reading s s' none

theorem readerStep_reading : Reading s (s.readerStep setup) (s.passage? setup .reader) := by
  unfold readerStep
  cases reader : s.reader with
  | reading =>
    simp only [passage?, reader]
    unfold read
    by_cases stopped : s.consumer.stopped = true
    · rw [if_pos stopped, if_pos stopped]
      exact .along (by simp [unreplayed, reader, Reader.offered])
    · rw [if_neg stopped, if_neg stopped]
      cases received : Session.receive setup.codec setup.transport s.session with
      | ok m session => exact .read (by simp [unreplayed, reader, Reader.offered])
      | error e session => cases e <;> exact .along (by simp [unreplayed, reader, Reader.offered])
  | offering m =>
    simp only [passage?, reader]
    split
    next requests pushed =>
      refine .along ?_
      simp [unreplayed, reader, Reader.offered, BoundedQueue.items_of_push? pushed]
    next =>
      split
      next ended => exact .lost ended
      next => exact .along rfl
  | leaving =>
    simp only [passage?, reader]
    exact .along (by simp [unreplayed, reader, Reader.offered])
  | done =>
    simp only [passage?, reader]
    exact .along rfl
  | _ =>
    simp only [passage?, reader]
    split
    · exact .along (by simp [unreplayed, reader, Reader.offered])
    · exact .along rfl

/-- What a move of the replayer comes to. -/
inductive Turn (setup : Setup σ τ) (s s' : Streaming σ τ) :
    Option (List Message) → Option Ack → Prop where
  | along (asked : s'.replayer.asked? = s.replayer.asked?)
    (queued : s'.replayer.queued = s.replayer.queued)
    (replay : s'.consumer.replay = s.consumer.replay) (error : s'.replayError = s.replayError)
    (output : s'.output = s.output) (unreplayed : s'.unreplayed = s.unreplayed) :
    Turn setup s s' none none
  | replayed {syncDue : Bool} {m : Message} {group : List Message} {g : Replay.GroupResult}
    (gathering : s.replayer = .gathering m) (few : group.length ≤ max setup.groupSize 1)
    (done : Replay.State.replayGroup setup.store syncDue group s.consumer.replay =
      .ok g s'.consumer.replay)
    (after : s'.replayer = .queueing
      (g.acks ++ g.shutdown.toList.map fun _ => s'.consumer.replay.replayer.ack .shutdown 0)
      g.shutdown)
    (error : s'.replayError = s.replayError) (output : s'.output = s.output)
    (unreplayed : s.unreplayed = group ++ s'.unreplayed) : Turn setup s s' (some group) none
  | queued {a : Ack} {rest : List Ack} {asked : Option Int64}
    (before : s.replayer = .queueing (a :: rest) asked) (after : s'.replayer = .queueing rest asked)
    (replay : s'.consumer.replay = s.consumer.replay) (error : s'.replayError = s.replayError)
    (output : s'.output.items = s.output.items ++ [a]) (unreplayed : s'.unreplayed = s.unreplayed) :
    Turn setup s s' none (some a)
  | shut {time : Int64} (awaiting : s.replayer = .awaiting time) (done : s'.replayer = .done)
    (replay : s'.consumer.replay = s.consumer.replay)
    (error : s'.replayError = some (s.groupShutdown time)) (output : s'.output = s.output) :
    Turn setup s s' none none
  /-- The replayer ends for another reason. -/
  | ended (going : s.replayer ≠ .done) (done : s'.replayer = .done)
    (replay : s.replayer.asked? = none ∨ s'.consumer.replay = s.consumer.replay)
    (role : s'.consumer.replay.replayer.role = s.consumer.replay.replayer.role)
    (error : ∀ master vlsn time, s'.replayError = some (.groupShutdown master vlsn time) →
      s.replayError = s'.replayError) (output : s'.output = s.output) : Turn setup s s' none none

/-- A replayer that goes on with what it has in hand moves nothing. -/
theorem Turn.still {place : Replayer} (asked : place.asked? = s.replayer.asked?)
    (queued : place.queued = s.replayer.queued) (taken : place.taken = s.replayer.taken) :
    Turn setup s { s with replayer := place } none none :=
  .along asked queued rfl rfl rfl (by rw [unreplayed, unreplayed, taken])

theorem unreplayed_gathering {m : Message} (gathering : s.replayer = .gathering m) (n : Nat) :
    s.unreplayed = (m :: (s.requests.drain n).1) ++
      ((s.requests.drain n).2.items ++ s.reader.offered) := by
  rw [unreplayed, gathering, Replayer.taken, ← s.requests.drain_append n]
  simp only [List.cons_append, List.nil_append, List.append_assoc]

theorem length_group_le (m : Message) (s : Streaming σ τ) (n : Nat) :
    (m :: (s.requests.drain (n - 1)).1).length ≤ max n 1 := by
  have few : (s.requests.drain (n - 1)).1.length ≤ n - 1 := List.length_take_le _ _
  rw [List.length_cons]
  omega

theorem replayGroup_turn {syncDue : Bool} {m : Message} (gathering : s.replayer = .gathering m) :
    Turn setup s (s.replayGroup setup syncDue m) (s.group? setup (.replayer syncDue))
      (s.queues? setup (.replayer syncDue)) := by
  have silent : s.queues? setup (.replayer syncDue) = none := by
    simp [queues?, outputEntry?, gathering]
  rw [silent, group?, requestEntry?, gathering, replayGroup]
  dsimp only
  cases replayed : Replay.State.replayGroup setup.store syncDue
      (m :: (s.requests.drain (setup.groupSize - 1)).1) s.consumer.replay with
  | error e replay =>
    refine .ended (fun done => by cases gathering.symm.trans done) rfl
      (.inl (by rw [gathering]; rfl))
      ((Replay.State.keepsRole_replayGroup _ _).of_error replayed) ?_ rfl
    intro master vlsn time shut
    cases shut
  | ok g replay =>
    refine .replayed gathering (length_group_le m s _) replayed ?_ rfl rfl
      (unreplayed_gathering gathering _)
    dsimp only
    cases g.shutdown with
    | none => simp
    | some time => rfl

theorem replayerStep_turn (syncDue : Bool) :
    Turn setup s (s.replayerStep setup syncDue) (s.group? setup (.replayer syncDue))
      (s.queues? setup (.replayer syncDue)) := by
  unfold replayerStep
  cases replayer : s.replayer with
  | gathering m => exact replayGroup_turn replayer
  | polling =>
    simp only [group?, requestEntry?, queues?, outputEntry?, replayer]
    split
    next m requests popped =>
      refine .along (by rw [replayer]; rfl) (by rw [replayer]; rfl) rfl rfl rfl ?_
      simp [unreplayed, replayer, Replayer.taken, BoundedQueue.items_of_pop? popped]
    next => exact .still (by rw [replayer]; rfl) (by rw [replayer]; rfl) (by rw [replayer]; rfl)
  | polled m =>
    -- The flags and the master are looked at here, and may end the replayer with `m` in hand.
    have going : s.replayer ≠ .done := fun done => by cases replayer.symm.trans done
    simp only [group?, requestEntry?, queues?, outputEntry?, replayer]
    unfold consider
    split
    · exact .ended going rfl (.inr rfl) rfl (fun _ _ _ _ => rfl) rfl
    · split
      · exact .ended going rfl (.inr rfl) rfl (fun _ _ _ shut => by cases shut) rfl
      · exact .still (by rw [replayer]; rfl) (by rw [replayer]; rfl) (by rw [replayer]; rfl)
      · exact .still (by rw [replayer]; rfl) (by rw [replayer]; rfl) (by rw [replayer]; rfl)
  | queueing acks asked =>
    cases acks with
    | nil =>
      simp only [group?, requestEntry?, queues?, outputEntry?, replayer]
      cases asked with
      | none => exact .still (by rw [replayer]; rfl) (by rw [replayer]; rfl) (by rw [replayer]; rfl)
      | some time =>
        -- Beside the place only the timeout of the link changes, which moves nothing.
        refine .along (by rw [replayer]; rfl) (by rw [replayer]; rfl) rfl rfl rfl ?_
        simp [unreplayed, replayer, Replayer.taken]
    | cons a rest =>
      simp only [group?, requestEntry?, queues?, outputEntry?, replayer]
      cases pushed : s.output.push? a with
      | some output =>
        refine .queued replayer rfl rfl rfl (BoundedQueue.items_of_push? pushed) ?_
        simp [unreplayed, replayer, Replayer.taken]
      | none =>
        -- The queue is full, which ends the replayer only if nobody empties it any more.
        dsimp only
        split
        · exact .ended (fun done => by cases replayer.symm.trans done) rfl (.inr rfl) rfl
            (fun _ _ _ shut => by cases shut) rfl
        · exact .along rfl rfl rfl rfl rfl rfl
  | awaiting time =>
    simp only [group?, requestEntry?, queues?, outputEntry?, replayer]
    split
    · exact .shut replayer rfl rfl rfl rfl
    · exact .along rfl rfl rfl rfl rfl rfl
  | done =>
    simp only [group?, requestEntry?, queues?, outputEntry?, replayer]
    exact .along rfl rfl rfl rfl rfl rfl

theorem giveUp_turn : Turn setup s (s.giveUp setup) none none := by
  unfold giveUp
  split
  next time awaiting => exact .shut awaiting rfl rfl rfl rfl
  next => exact .along rfl rfl rfl rfl rfl rfl

section Wrote

variable (s : Streaming σ τ) (m : Message)

@[simp] theorem output_wrote : (s.wrote m).output = s.output := by
  cases m <;> rfl

@[simp] theorem writeError_wrote : (s.wrote m).writeError = s.writeError := by
  cases m <;> rfl

end Wrote

/-- What a move of the writer comes to. -/
inductive Writing (setup : Setup σ τ) (s s' : Streaming σ τ) : Option Passage → Prop where
  | along (undelivered : s'.undelivered = s.undelivered) : Writing setup s s' none
  | written {a : Ack} {rest : List Ack} (behind : List Ack) (going : s.writer ≠ .done)
    (before : s.undelivered = a :: rest ++ behind)
    (after : s'.undelivered = (firstResponse setup.groupedAcks a rest).2 ++ behind) :
    Writing setup s s' (some (.written (firstResponse setup.groupedAcks a rest).1))
  | failed (done : s'.writer = .done) : Writing setup s s' none

theorem writerStep_writing : Writing setup s (s.writerStep setup) (s.passage? setup .writer) := by
  unfold writerStep
  cases writer : s.writer with
  | checking =>
    simp only [passage?, writer]
    refine .along ?_
    split <;> simp [undelivered, writer, Writer.held]
  | polling =>
    simp only [passage?, writer]
    split
    next a output popped =>
      refine .along ?_
      simp [undelivered, writer, Writer.held, BoundedQueue.items_of_pop? popped]
    next => exact .along (by simp [undelivered, writer, Writer.held])
  | starved =>
    simp only [passage?, writer]
    refine .along ?_
    split <;> simp [undelivered, writer, Writer.held]
  | holding a =>
    -- What a batch takes off the queue stays where it was on the way.
    simp only [passage?, writer]
    refine .along ?_
    rw [undelivered, undelivered, writer, Writer.held, Writer.held,
      ← s.output.drain_append setup.outputCapacity]
    simp only [List.cons_append, List.nil_append]
  | writing acks =>
    cases acks with
    | nil =>
      simp only [passage?, writer]
      exact .along (by simp [undelivered, writer, Writer.held])
    | cons a rest =>
      simp only [passage?, writer]
      unfold write
      dsimp only
      cases sent : Session.send setup.codec setup.transport
          (firstResponse setup.groupedAcks a rest).1 s.session with
      -- A response uses up a run at the front of the batch, and leaves the rest to be written.
      | ok u session =>
        refine .written s.output.items (by rw [writer]; exact nofun) ?_ ?_
        · simp [undelivered, writer, Writer.held]
        · simp [undelivered, Writer.held]
      | error e session =>
        dsimp only
        split <;> exact .failed rfl
  | done =>
    simp only [passage?, writer]
    exact .along rfl

/-! ## Shifts -/

/-- How an action shifts what is on the way. -/
inductive Shift (setup : Setup σ τ) (s s' : Streaming σ τ) : Option Passage → Prop where
  | along (unwritten : s'.unwritten = s.unwritten) (unreplayed : s'.unreplayed = s.unreplayed)
    (replay : s'.consumer.replay = s.consumer.replay) : Shift setup s s' none
  | read {m : Message} (unwritten : s'.unwritten = s.unwritten)
    (unreplayed : s'.unreplayed = s.unreplayed ++ [m])
    (replay : s'.consumer.replay = s.consumer.replay) : Shift setup s s' (some (.read m))
  | replayed {syncDue : Bool} {group : List Message} {g : Replay.GroupResult} (last : List Ack)
    (going : s.replayer ≠ .done)
    (done : Replay.State.replayGroup setup.store syncDue group s.consumer.replay =
      .ok g s'.consumer.replay)
    (unreplayed : s.unreplayed = group ++ s'.unreplayed)
    (unwritten : s'.unwritten = s.unwritten ++ g.acks ++ last)
    (silent : last.filterMap (·.reply?) = []) (unasked : g.shutdown = none → last = []) :
    Shift setup s s' none
  | written {a : Ack} {rest : List Ack} (behind : List Ack) (going : s.writer ≠ .done)
    (before : s.unwritten = a :: rest ++ behind)
    (after : s'.unwritten = (firstResponse setup.groupedAcks a rest).2 ++ behind)
    (unreplayed : s'.unreplayed = s.unreplayed)
    (replay : s'.consumer.replay = s.consumer.replay) :
    Shift setup s s' (some (.written (firstResponse setup.groupedAcks a rest).1))
  /-- The replayer ends, or has ended so that nobody takes what is read. -/
  | replayerDone (done : s'.replayer = .done) (unwritten : s'.unwritten <+: s.unwritten)
    (role : s'.consumer.replay.replayer.role = s.consumer.replay.replayer.role) :
    Shift setup s s' none
  | writerDone (done : s'.writer = .done) (replay : s'.consumer.replay = s.consumer.replay) :
    Shift setup s s' none

theorem readerStep_shift : Shift setup s (s.readerStep setup) (s.passage? setup .reader) := by
  have footprint := readerStep_footprint setup s
  have reading : Reading s (s.readerStep setup) (s.passage? setup .reader) := readerStep_reading
  generalize s.readerStep setup = s' at footprint reading ⊢
  generalize s.passage? setup .reader = passage at reading ⊢
  cases footprint
  cases reading with
  | along unreplayed => exact .along rfl unreplayed rfl
  | read unreplayed => exact .read rfl unreplayed rfl
  | lost ended => exact .replayerDone ended (List.prefix_refl _) rfl

theorem Turn.shift {group : Option (List Message)} {a : Option Ack} (turn : Turn setup s s' group a)
    (writer : s'.writer = s.writer) : Shift setup s s' none := by
  cases turn with
  | along asked queued replay error output unreplayed =>
    exact .along (by rw [unwritten, unwritten, writer, output, queued]) unreplayed replay
  | @replayed syncDue m group g gathering few done after error output unreplayed =>
    refine .replayed (g.shutdown.toList.map fun _ => s'.consumer.replay.replayer.ack .shutdown 0)
      ?_ done unreplayed ?_ ?_ ?_
    · rw [gathering]
      exact nofun
    · simp [unwritten, writer, output, after, gathering, Replayer.queued]
    · cases g.shutdown <;> rfl
    · intro unasked
      rw [unasked]
      rfl
  | queued before after replay error output unreplayed =>
    refine .along ?_ unreplayed replay
    simp [unwritten, writer, output, before, after, Replayer.queued]
  | shut awaiting done replay error output =>
    refine .replayerDone done ?_ (by rw [replay])
    simp [unwritten, writer, output, done, Replayer.queued]
  | ended going done replay role error output =>
    refine .replayerDone done ?_ role
    simp [unwritten, writer, output, done, Replayer.queued]

theorem writerStep_shift : Shift setup s (s.writerStep setup) (s.passage? setup .writer) := by
  have footprint := writerStep_footprint setup s
  have writing : Writing setup s (s.writerStep setup) (s.passage? setup .writer) :=
    writerStep_writing
  generalize s.writerStep setup = s' at footprint writing ⊢
  generalize s.passage? setup .writer = passage at writing ⊢
  cases footprint
  cases writing with
  | along undelivered => exact .along (congrArg (· ++ s.replayer.queued) undelivered) rfl rfl
  | written behind going before after =>
    refine .written (behind ++ s.replayer.queued) going ?_ ?_ rfl rfl
    · rw [← List.append_assoc, ← before]
      rfl
    · rw [← List.append_assoc, ← after]
      rfl
  | failed done => exact .writerDone done rfl

/-- Each action shifts what is on the way. -/
theorem step_shift (setup : Setup σ τ) (s : Streaming σ τ) (action : Action) :
    Shift setup s (s.step setup action) (s.passage? setup action) := by
  cases action with
  | reader => exact readerStep_shift
  | replayer syncDue =>
    exact (replayerStep_turn syncDue).shift (replayerStep_frame setup s syncDue).1
  | writer => exact writerStep_shift
  | giveUp =>
    have turn : Turn setup s (s.giveUp setup) none none := giveUp_turn
    refine turn.shift ?_
    unfold giveUp
    split <;> rfl
  | stop => exact .along rfl rfl rfl
  | elect m => exact .along rfl rfl rfl

end Streaming

end Replication.Consumer
