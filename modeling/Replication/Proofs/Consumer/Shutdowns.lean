import Replication.Proofs.Consumer.Draining
import Replication.Proofs.Replay.Shutdowns

/-! # Where a shutdown is acknowledged

The messages of a group are acknowledged in their order, and a shutdown that one of them
asks for behind all of them.  So what becomes of the messages behind the request depends on
where its group ends: those in the group are replayed and acknowledged in front of the
shutdown, and no others ever are.
-/

namespace Replication.Consumer

open Replication.Replay (Ack Reply Store StoreCall call? due lastShutdown? shutdown?)
open Replication.Stream (Message)

/-! ## Divisions -/

/-- What a connection starts from. -/
structure Origin where
  replayer : Replay.Replayer
  handed : List StoreCall
  /-- The messages that wait to be replayed. -/
  waiting : List Message
  /-- The replies that wait to be written. -/
  replies : List Reply

/-- What becomes of a connection from here on goes back to this. -/
def Talk.origin {σ τ : Type} (t : Talk σ (τ × List StoreCall)) : Origin where
  replayer := t.streaming.consumer.replay.replayer
  handed := Replay.handed t.streaming.consumer.replay.store.2
  waiting := t.streaming.unreplayed
  replies := t.streaming.unwritten.filterMap (·.reply?)

namespace Divided

variable {σ τ : Type} {setup : Setup σ (τ × List StoreCall)} {st : Store τ} {o : Origin}
  {w w' : Divided σ (τ × List StoreCall)}

def replayed {τ : Type} (w : Divided σ τ) : List Message :=
  w.groups.flatten

/-- Whether the replayer and its store have followed the messages. -/
structure Followed (o : Origin) (w : Divided σ (τ × List StoreCall)) : Prop where
  replayer : (o.replayer.tookAll w.replayed).Alike w.talk.streaming.consumer.replay.replayer
  handed : Replay.handed w.talk.streaming.consumer.replay.store.2 =
    o.handed ++ w.replayed.filterMap (call? o.replayer.role)

/-- How things stand with a replayer that has not ended. -/
structure Going (o : Origin) (w : Divided σ (τ × List StoreCall)) : Prop where
  error : w.talk.streaming.replayError = none
  asked : w.talk.streaming.replayer.asked? = lastShutdown? w.replayed
  queued : w.queued ++ w.talk.streaming.replayer.queued = o.replayer.items w.replayed
  read : w.replayed ++ w.talk.streaming.unreplayed = o.waiting ++ w.talk.dialogue.read

/-- What holds of a connection that goes back to `o`, whatever its threads do: the last group
    alone may ask for a shutdown, and no more is queued than the acknowledgments of all that
    was replayed with that of a shutdown behind them. -/
structure Sound (setup : Setup σ (τ × List StoreCall)) (o : Origin)
    (w : Divided σ (τ × List StoreCall)) : Prop where
  few : ∀ group ∈ w.groups, group.length ≤ max setup.groupSize 1
  earlier : ∀ earlier last, w.groups = earlier ++ [last] → lastShutdown? earlier.flatten = none
  followed : w.talk.streaming.replayer ≠ .done ∨ lastShutdown? w.replayed ≠ none → w.Followed o
  going : w.talk.streaming.replayer ≠ .done → w.Going o
  read : w.replayed <+: o.waiting ++ w.talk.dialogue.read
  queued : w.queued <+: o.replayer.items w.replayed
  shut : ∀ master vlsn time,
    w.talk.streaming.replayError = some (.groupShutdown master vlsn time) →
      w.queued = o.replayer.items w.replayed ∧
        vlsn = (o.replayer.tookAll w.replayed).highVlsn ∧ lastShutdown? w.replayed = some time
  sent : w.talk.dialogue.replies <+: o.replies ++ w.queued.filterMap (·.reply?)
  unsent : w.talk.streaming.writer ≠ .done →
    w.talk.dialogue.replies ++ w.talk.streaming.undelivered.filterMap (·.reply?) =
      o.replies ++ w.queued.filterMap (·.reply?)

theorem Followed.of_replay (h : w.Followed o) (groups : w'.groups = w.groups)
    (replay : w'.talk.streaming.consumer.replay = w.talk.streaming.consumer.replay) :
    w'.Followed o := by
  refine ⟨?_, ?_⟩
  · rw [replay, replayed, groups]
    exact h.replayer
  · rw [replay, replayed, groups]
    exact h.handed

/-! ## Moves -/

/-- A group that is replayed is followed, and its acknowledgments are to be queued. -/
theorem Sound.replayGroup (h : w.Sound setup o) (records : setup.store = st.recorded)
    {s' : Streaming σ (τ × List StoreCall)} {syncDue : Bool} {m : Message}
    {group : List Message} {g : Replay.GroupResult}
    (gathering : w.talk.streaming.replayer = .gathering m)
    (done : Replay.State.replayGroup setup.store syncDue group w.talk.streaming.consumer.replay =
      .ok g s'.consumer.replay) :
    lastShutdown? w.replayed = none ∧ g.shutdown = lastShutdown? group ∧
      w.queued ++ (g.acks ++ g.shutdown.toList.map fun _ =>
        s'.consumer.replay.replayer.ack .shutdown 0) =
          o.replayer.items (w.replayed ++ group) ∧
      (o.replayer.tookAll (w.replayed ++ group)).Alike s'.consumer.replay.replayer ∧
      Replay.handed s'.consumer.replay.store.2 =
        o.handed ++ (w.replayed ++ group).filterMap (call? o.replayer.role) := by
  have ready : w.talk.streaming.replayer ≠ .done := by
    rw [gathering]
    exact nofun
  obtain ⟨alike, handed⟩ := h.followed (.inl ready)
  obtain ⟨-, asked, queued, -⟩ := h.going ready
  rw [gathering] at asked queued
  have unasked : lastShutdown? w.replayed = none := asked.symm
  obtain ⟨-, result, replayer, -⟩ := Replay.State.replayGroup_ok done
  have shutdown : g.shutdown = lastShutdown? group := by
    rw [result]
    exact (Replay.foldl_shutdown? none group).trans (Option.or_none)
  -- The replayer before the group, and so the one behind it, is the one the messages tell.
  have after : ((o.replayer.tookAll w.replayed).tookAll group).Alike
      s'.consumer.replay.replayer :=
    (alike.tookAll group).trans (replayer ▸ Replay.Replayer.alike_counted _ _)
  have acks : g.acks = (o.replayer.tookAll w.replayed).allAnswers group := by
    rw [result]
    exact alike.allAnswers group
  refine ⟨unasked, shutdown, ?_, ?_, ?_⟩
  · rw [Replay.Replayer.items_append unasked, ← queued, acks, shutdown, after.ack]
    exact (congrArg (· ++ _) (List.append_nil w.queued)).symm
  · rw [Replay.Replayer.tookAll_append]
    exact after
  · rw [records] at done
    rw [(Replay.State.handed_of_replayGroup done).1, handed, alike.role,
      Replay.Replayer.role_tookAll, List.filterMap_append, List.append_assoc]

theorem Sound.unsent_of_same (h : w.Sound setup o) {s' : Streaming σ (τ × List StoreCall)}
    (writer : s'.writer = w.talk.streaming.writer) (output : s'.output = w.talk.streaming.output)
    (writing : s'.writer ≠ .done) :
    w.talk.dialogue.replies ++ s'.undelivered.filterMap (·.reply?) =
      o.replies ++ w.queued.filterMap (·.reply?) := by
  rw [Streaming.undelivered, writer, output]
  exact h.unsent (writer ▸ writing)

section Turns

variable (h : w.Sound setup o) {s' : Streaming σ (τ × List StoreCall)}
  (writer : s'.writer = w.talk.streaming.writer)

include h writer

theorem Sound.along (later : s'.replayer ≠ .done → w.talk.streaming.replayer ≠ .done)
    (asked : s'.replayer.asked? = w.talk.streaming.replayer.asked?)
    (queued : s'.replayer.queued = w.talk.streaming.replayer.queued)
    (replay : s'.consumer.replay = w.talk.streaming.consumer.replay)
    (error : s'.replayError = w.talk.streaming.replayError)
    (output : s'.output = w.talk.streaming.output)
    (unreplayed : s'.unreplayed = w.talk.streaming.unreplayed) :
    Sound setup o { w with talk := { w.talk with streaming := s' } } := by
  refine { h with
    followed := fun why => (h.followed (why.imp_left later)).of_replay rfl replay
    going := fun ready => ?_
    shut := ?_
    unsent := h.unsent_of_same writer output }
  · have going := h.going (later ready)
    refine ⟨error.trans going.error, asked.trans going.asked, ?_, ?_⟩
    · dsimp only
      rw [queued]
      exact going.queued
    · dsimp only
      rw [unreplayed]
      exact going.read
  · dsimp only
    rw [error]
    exact h.shut

theorem Sound.replays (records : setup.store = st.recorded) {syncDue : Bool} {m : Message}
    {group : List Message} {g : Replay.GroupResult}
    (gathering : w.talk.streaming.replayer = .gathering m)
    (few : group.length ≤ max setup.groupSize 1)
    (done : Replay.State.replayGroup setup.store syncDue group w.talk.streaming.consumer.replay =
      .ok g s'.consumer.replay)
    (after : s'.replayer = .queueing
      (g.acks ++ g.shutdown.toList.map fun _ => s'.consumer.replay.replayer.ack .shutdown 0)
      g.shutdown)
    (error : s'.replayError = w.talk.streaming.replayError)
    (output : s'.output = w.talk.streaming.output)
    (unreplayed : w.talk.streaming.unreplayed = group ++ s'.unreplayed) :
    Sound setup o {
      talk := { w.talk with streaming := s' }
      groups := w.groups ++ [group]
      queued := w.queued } := by
  -- A replayer that has been asked for a shutdown replays no further group.
  obtain ⟨unasked, shutdown, queued, alike, handed⟩ := h.replayGroup records gathering done
  have going := h.going (by rw [gathering]; exact nofun)
  have messages : ({
      talk := { w.talk with streaming := s' }
      groups := w.groups ++ [group]
      queued := w.queued } : Divided σ _).replayed = w.replayed ++ group := by
    simp [replayed]
  have read : w.replayed ++ group ++ s'.unreplayed = o.waiting ++ w.talk.dialogue.read := by
    rw [List.append_assoc, ← unreplayed]
    exact going.read
  refine {
    few := fun group' mem => ?_
    earlier := fun earlier last split => ?_
    followed := fun _ => ⟨?_, ?_⟩
    going := fun _ => ⟨error.trans going.error, ?_, ?_, ?_⟩
    read := ?_
    queued := ?_
    shut := fun master vlsn time shut => ?_
    sent := h.sent
    unsent := h.unsent_of_same writer output }
  · rcases List.mem_append.1 mem with before | last
    · exact h.few group' before
    · obtain rfl := List.mem_singleton.1 last
      exact few
  -- The new group is the last, and what stands in front of it are all earlier ones.
  · obtain ⟨rfl, -⟩ := List.append_inj' split rfl
    exact unasked
  · rw [messages]
    exact alike
  · rw [messages]
    exact handed
  · rw [messages, Replay.lastShutdown?_append, unasked, Option.or_none, ← shutdown]
    dsimp only
    rw [after]
    rfl
  · rw [messages, ← queued]
    dsimp only
    rw [after]
    rfl
  · rw [messages]
    exact read
  · rw [messages]
    exact ⟨s'.unreplayed, read⟩
  · rw [messages]
    exact ⟨_, queued⟩
  · cases (error.trans going.error).symm.trans shut

theorem Sound.queues {a : Ack} {rest : List Ack} {asked : Option Int64}
    (before : w.talk.streaming.replayer = .queueing (a :: rest) asked)
    (after : s'.replayer = .queueing rest asked)
    (replay : s'.consumer.replay = w.talk.streaming.consumer.replay)
    (error : s'.replayError = w.talk.streaming.replayError)
    (output : s'.output.items = w.talk.streaming.output.items ++ [a])
    (unreplayed : s'.unreplayed = w.talk.streaming.unreplayed) :
    Sound setup o {
      talk := { w.talk with streaming := s' }
      groups := w.groups
      queued := w.queued ++ [a] } := by
  have ready : w.talk.streaming.replayer ≠ .done := by
    rw [before]
    exact nofun
  have going := h.going ready
  -- An item that is queued moves from what is to be queued to what has been.
  have queued : w.queued ++ [a] ++ rest = o.replayer.items w.replayed := by
    rw [← going.queued, before, List.append_assoc]
    rfl
  refine { h with
    followed := fun _ => (h.followed (.inl ready)).of_replay rfl replay
    going := fun _ => ⟨error.trans going.error, ?_, ?_, ?_⟩
    queued := ⟨rest, queued⟩
    shut := fun master vlsn time shut => ?_
    sent := ?_
    unsent := fun writing => ?_ }
  · refine Eq.trans ?_ going.asked
    rw [before, after]
    rfl
  · dsimp only
    rw [after]
    exact queued
  · dsimp only
    rw [unreplayed]
    exact going.read
  · cases (error.trans going.error).symm.trans shut
  · dsimp only
    rw [List.filterMap_append, ← List.append_assoc]
    exact h.sent.trans (List.prefix_append _ _)
  · have unsent := h.unsent (writer ▸ writing)
    dsimp only [Streaming.undelivered] at unsent ⊢
    rw [writer, output, ← List.append_assoc, List.filterMap_append, ← List.append_assoc,
      unsent, List.filterMap_append, List.append_assoc]

theorem Sound.shuts {time : Int64} (awaiting : w.talk.streaming.replayer = .awaiting time)
    (done : s'.replayer = .done)
    (replay : s'.consumer.replay = w.talk.streaming.consumer.replay)
    (error : s'.replayError = some (w.talk.streaming.groupShutdown time))
    (output : s'.output = w.talk.streaming.output) :
    Sound setup o { w with talk := { w.talk with streaming := s' } } := by
  have ready : w.talk.streaming.replayer ≠ .done := by
    rw [awaiting]
    exact nofun
  have followed := h.followed (.inl ready)
  obtain ⟨-, asked, queued, -⟩ := h.going ready
  rw [awaiting] at asked queued
  refine { h with
    followed := fun _ => followed.of_replay rfl replay
    going := fun ready' => absurd done ready'
    shut := fun master vlsn time' shut => ?_
    unsent := h.unsent_of_same writer output }
  cases error.symm.trans shut
  exact ⟨(List.append_nil _).symm.trans queued, followed.replayer.highVlsn, asked.symm⟩

theorem Sound.ends (ready : w.talk.streaming.replayer ≠ .done) (done : s'.replayer = .done)
    (replay : w.talk.streaming.replayer.asked? = none ∨
      s'.consumer.replay = w.talk.streaming.consumer.replay)
    (error : ∀ master vlsn time, s'.replayError = some (.groupShutdown master vlsn time) →
      w.talk.streaming.replayError = s'.replayError)
    (output : s'.output = w.talk.streaming.output) :
    Sound setup o { w with talk := { w.talk with streaming := s' } } := by
  have going := h.going ready
  have followed := h.followed (.inl ready)
  refine { h with
    followed := ?_
    going := fun ready' => absurd done ready'
    shut := fun master vlsn time shut => ?_
    unsent := h.unsent_of_same writer output }
  · rintro (ready' | asked)
    · exact absurd done ready'
    · -- Once a shutdown is asked for, the replayer has nothing more to replay.
      refine followed.of_replay rfl (replay.resolve_left fun unasked => asked ?_)
      exact going.asked.symm.trans unasked
  · cases going.error.symm.trans ((error master vlsn time shut).trans shut)

/-- The moves of the replayer keep what holds of the connection. -/
theorem Sound.turn (records : setup.store = st.recorded)
    {group : Option (List Message)} {a : Option Ack}
    (turn : Streaming.Turn setup w.talk.streaming s' group a)
    (later : s'.replayer ≠ .done → w.talk.streaming.replayer ≠ .done) :
    Sound setup o {
      talk := { w.talk with streaming := s' }
      groups := w.groups ++ group.toList
      queued := w.queued ++ a.toList } := by
  cases turn with
  | along asked queued replay error output unreplayed =>
    simp only [Option.toList_none, List.append_nil]
    exact h.along writer later asked queued replay error output unreplayed
  | replayed gathering few done after error output unreplayed =>
    simp only [Option.toList_none, Option.toList_some, List.append_nil]
    exact h.replays writer records gathering few done after error output unreplayed
  | queued before after replay error output unreplayed =>
    simp only [Option.toList_none, Option.toList_some, List.append_nil]
    exact h.queues writer before after replay error output unreplayed
  | shut awaiting done replay error output =>
    simp only [Option.toList_none, List.append_nil]
    exact h.shuts writer awaiting done replay error output
  | ended ready done replay role error output =>
    simp only [Option.toList_none, List.append_nil]
    exact h.ends writer ready done replay error output

end Turns

section Asides

variable (h : w.Sound setup o) {t' : Talk σ (τ × List StoreCall)}
  (replayer : t'.streaming.replayer = w.talk.streaming.replayer)
  (replay : t'.streaming.consumer.replay = w.talk.streaming.consumer.replay)
  (error : t'.streaming.replayError = w.talk.streaming.replayError)

include h replayer replay error

/-- What leaves the replayer alone keeps what holds of the connection, if nothing is lost on
    the way to the replayer or from it. -/
theorem Sound.aside (read : w.talk.dialogue.read <+: t'.dialogue.read)
    (reading : w.talk.streaming.replayer ≠ .done → w.replayed ++ t'.streaming.unreplayed =
      o.waiting ++ t'.dialogue.read)
    (sent : t'.dialogue.replies <+: o.replies ++ w.queued.filterMap (·.reply?))
    (unsent : t'.streaming.writer ≠ .done →
      t'.dialogue.replies ++ t'.streaming.undelivered.filterMap (·.reply?) =
        o.replies ++ w.queued.filterMap (·.reply?)) :
    Sound setup o { w with talk := t' } := by
  refine { h with
    followed := fun why => ?_
    going := fun ready => ?_
    read := h.read.trans ((List.prefix_append_right_inj _).2 read)
    shut := ?_
    sent, unsent }
  · rw [replayer] at why
    exact (h.followed why).of_replay rfl replay
  · rw [replayer] at ready
    have going := h.going ready
    refine ⟨error.trans going.error, ?_, ?_, reading ready⟩
    · dsimp only
      rw [replayer]
      exact going.asked
    · dsimp only
      rw [replayer]
      exact going.queued
  · dsimp only
    rw [error]
    exact h.shut

/-- What leaves the queues alone too, and the link, keeps what holds of the connection. -/
theorem Sound.apart (dialogue : t'.dialogue = w.talk.dialogue)
    (unreplayed : t'.streaming.unreplayed = w.talk.streaming.unreplayed)
    (writer : t'.streaming.writer = w.talk.streaming.writer)
    (output : t'.streaming.output = w.talk.streaming.output) :
    Sound setup o { w with talk := t' } := by
  refine h.aside replayer replay error ⟨[], ?_⟩ ?_ ?_ ?_
  · rw [List.append_nil, dialogue]
  · intro ready
    rw [unreplayed, dialogue]
    exact (h.going ready).read
  · rw [dialogue]
    exact h.sent
  · rw [dialogue]
    exact h.unsent_of_same writer output

end Asides

theorem Sound.reader (h : w.Sound setup o) :
    Sound setup o { w with talk := w.talk.step setup (.act .reader) } := by
  have footprint := Streaming.readerStep_footprint setup w.talk.streaming
  have reading : Streaming.Reading w.talk.streaming (w.talk.streaming.readerStep setup)
    (w.talk.streaming.passage? setup .reader) := Streaming.readerStep_reading
  rw [Talk.step, Streaming.step]
  generalize w.talk.streaming.readerStep setup = s' at footprint reading ⊢
  generalize w.talk.streaming.passage? setup .reader = passage at reading ⊢
  cases footprint
  cases reading with
  | along unreplayed => exact h.apart rfl rfl rfl rfl unreplayed rfl rfl
  | @read m unreplayed =>
    refine h.aside rfl rfl rfl (List.prefix_append _ _) (fun ready => ?_) h.sent h.unsent
    dsimp only [Dialogue.note]
    rw [unreplayed, ← List.append_assoc, (h.going ready).read, List.append_assoc]
  | lost ended => exact h.aside rfl rfl rfl (List.prefix_refl _) (absurd ended) h.sent h.unsent

theorem Sound.writer (h : w.Sound setup o) :
    Sound setup o { w with talk := w.talk.step setup (.act .writer) } := by
  have footprint := Streaming.writerStep_footprint setup w.talk.streaming
  have writing : Streaming.Writing setup w.talk.streaming (w.talk.streaming.writerStep setup)
    (w.talk.streaming.passage? setup .writer) := Streaming.writerStep_writing
  have going : (w.talk.streaming.step setup .writer).writer ≠ .done →
      w.talk.streaming.writer ≠ .done := mt Streaming.writer_done_step
  rw [Streaming.step] at going
  rw [Talk.step, Streaming.step]
  generalize w.talk.streaming.writerStep setup = s' at footprint writing going ⊢
  generalize w.talk.streaming.passage? setup .writer = passage at writing ⊢
  cases footprint
  cases writing with
  | along undelivered =>
    refine h.aside rfl rfl rfl (List.prefix_refl _) (fun ready => (h.going ready).read) h.sent
      fun writing => ?_
    dsimp only [Dialogue.note]
    rw [undelivered]
    exact h.unsent (going writing)
  | @written a rest behind ready before after =>
    -- What the message replies to is taken off the front of what was queued.
    have same := h.unsent ready
    rw [before, List.filterMap_append, ← replies_firstResponse setup.groupedAcks,
      List.append_assoc, ← List.append_assoc, ← Dialogue.replies_written,
      ← List.filterMap_append, ← after] at same
    refine h.aside rfl rfl rfl (List.prefix_refl _) (fun ready => (h.going ready).read) ⟨_, same⟩
      fun _ => same
  | failed done =>
    exact h.aside rfl rfl rfl (List.prefix_refl _) (fun ready => (h.going ready).read) h.sent
      (absurd done)

/-! ## Runs -/

theorem step_act_of_silent {action : Streaming.Action}
    (group : w.talk.streaming.group? setup action = none)
    (queues : w.talk.streaming.queues? setup action = none) :
    w.step setup (.act action) = { w with talk := w.talk.step setup (.act action) } := by
  simp [step, group, queues]

/-- Every move keeps what holds of the connection. -/
theorem Sound.step (h : w.Sound setup o) (records : setup.store = st.recorded)
    (move : Talk.Move σ) : (w.step setup move).Sound setup o := by
  cases move with
  | link change => exact h.apart rfl rfl rfl rfl rfl rfl rfl
  | act action =>
    cases action with
    | reader =>
      have group : w.talk.streaming.group? setup .reader = none := by
        rw [Streaming.group?, Streaming.requestEntry?]
        cases w.talk.streaming.reader with
        | offering m =>
          dsimp only
          cases w.talk.streaming.requests.push? m <;> rfl
        | _ => rfl
      rw [step_act_of_silent group rfl]
      exact h.reader
    | replayer syncDue =>
      have later : (w.talk.streaming.step setup (.replayer syncDue)).replayer ≠ .done →
          w.talk.streaming.replayer ≠ .done := mt Streaming.replayer_done_step
      exact h.turn (Streaming.replayerStep_frame setup _ syncDue).1 records
        (Streaming.replayerStep_turn syncDue) later
    | writer =>
      have queues : w.talk.streaming.queues? setup .writer = none := by
        rw [Streaming.queues?, Streaming.outputEntry?]
        cases w.talk.streaming.writer <;> rfl
      rw [step_act_of_silent rfl queues]
      exact h.writer
    | giveUp =>
      have later : (w.talk.streaming.step setup .giveUp).replayer ≠ .done →
          w.talk.streaming.replayer ≠ .done := mt Streaming.replayer_done_step
      refine h.turn ?_ records Streaming.giveUp_turn later
      have footprint := Streaming.step_footprint setup w.talk.streaming .giveUp
      generalize w.talk.streaming.step setup .giveUp = s' at footprint ⊢
      cases footprint
      rfl
    | stop | elect m =>
      rw [step_act_of_silent rfl rfl]
      exact h.apart rfl rfl rfl rfl rfl rfl rfl

theorem Sound.run (h : w.Sound setup o) (records : setup.store = st.recorded)
    (moves : List (Talk.Move σ)) : (w.run setup moves).Sound setup o := by
  induction moves generalizing w with
  | nil => exact h
  | cons move moves ih => exact ih (h.step records move)

theorem sound_start (setup : Setup σ (τ × List StoreCall)) (first : Ack)
    (a : Attached σ (τ × List StoreCall)) :
    (start setup first a).Sound setup (Talk.start setup first a).origin where
  few := nofun
  earlier earlier last split := by
    cases List.append_ne_nil_of_right_ne_nil earlier (List.cons_ne_nil last []) split.symm
  followed _ := ⟨.refl _, (List.append_nil _).symm⟩
  going _ := ⟨rfl, rfl, rfl, (List.append_nil _).symm⟩
  read := List.nil_prefix
  queued := List.nil_prefix
  shut := nofun
  sent := List.nil_prefix
  unsent _ := by
    simp [start, Talk.start, Talk.origin, Dialogue.replies, Streaming.start, Streaming.unwritten,
      Streaming.undelivered, Replayer.queued]

/-! ## Requests -/

/-- What a shutdown request comes to that a connection has replayed, with `before` in front of
    it and `late` behind it in its group. -/
structure ShutDown (setup : Setup σ (τ × List StoreCall)) (o : Origin)
    (w : Divided σ (τ × List StoreCall)) (before : List Message) (time : Int64)
    (late : List Message) : Prop where
  /-- Its group is the last one. -/
  groups : ∃ earlier part, w.groups = earlier ++ [part ++ .shutdownRequest time :: late] ∧
    before = earlier.flatten ++ part
  first : ∀ m ∈ before, shutdown? m = none
  few : ∀ group ∈ w.groups, group.length ≤ max setup.groupSize 1
  read : before ++ .shutdownRequest time :: late <+: o.waiting ++ w.talk.dialogue.read
  handed : Replay.handed w.talk.streaming.consumer.replay.store.2 =
    o.handed ++ (before ++ late).filterMap (call? o.replayer.role)
  /-- The messages that were replayed are acknowledged in their order, and the shutdown behind
      all of them. -/
  queued : w.queued <+: o.replayer.allAnswers (before ++ late) ++
    [(o.replayer.tookAll (before ++ late)).ack .shutdown 0]
  sent : w.talk.dialogue.replies <+:
    o.replies ++ (before ++ late).filterMap (due o.replayer.role)
  shut : ∀ master vlsn last,
    w.talk.streaming.replayError = some (.groupShutdown master vlsn last) →
      w.queued = o.replayer.allAnswers (before ++ late) ++
          [(o.replayer.tookAll (before ++ late)).ack .shutdown 0] ∧
        vlsn = (o.replayer.tookAll (before ++ late)).highVlsn ∧
        last = (lastShutdown? late).getD time
  /-- So the shutdown is acknowledged in the place of its request just if nothing behind the
      request in its group is acknowledged at all, -/
  inPlace : (∃ master vlsn last,
      w.talk.streaming.replayError = some (.groupShutdown master vlsn last)) →
    (w.queued.map (·.reply?) = (before.filterMap (due o.replayer.role)).map some ++ [none] ↔
      ∀ m ∈ late, due o.replayer.role m = none)
  /-- and the store is handed what is in front of the request and no more just if nothing
      behind it in its group is handed over. -/
  untouched : Replay.handed w.talk.streaming.consumer.replay.store.2 =
      o.handed ++ before.filterMap (call? o.replayer.role) ↔
    ∀ m ∈ late, call? o.replayer.role m = none

/-- The replies of what is queued are those that are due, and a shutdown makes none. -/
theorem replies_queued (r : Replay.Replayer) (ms : List Message) (last : Ack)
    (silent : last.reply? = none) :
    (r.allAnswers ms ++ [last]).map (·.reply?) =
      (ms.filterMap (due r.role)).map some ++ [none] := by
  rw [List.map_append, Replay.Replayer.replies_allAnswers, List.map_singleton, silent]

theorem filterMap_queued (r : Replay.Replayer) (ms : List Message) (last : Ack)
    (silent : last.reply? = none) :
    (r.allAnswers ms ++ [last]).filterMap (·.reply?) = ms.filterMap (due r.role) := by
  have same := congrArg (List.filterMap id) (replies_queued r ms last silent)
  simpa [List.filterMap_map, List.filterMap_cons, silent] using same

theorem Sound.shutDown (h : w.Sound setup o) {time : Int64}
    (asked : .shutdownRequest time ∈ w.replayed) :
    ∃ before time late, w.ShutDown setup o before time late := by
  have asks : lastShutdown? w.replayed ≠ none := fun unasked => by
    cases Replay.lastShutdown?_eq_none.1 unasked _ asked
  -- The request is in the last group, and is the first one there.
  obtain ⟨earlier, last, groups⟩ : ∃ earlier last, w.groups = earlier ++ [last] := by
    rcases List.eq_nil_or_concat w.groups with none | some
    · rw [replayed, none] at asked
      cases asked
    · simpa using some
  have plain := h.earlier earlier last groups
  have messages : w.replayed = earlier.flatten ++ last := by
    simp [replayed, groups]
  have asks' : lastShutdown? last ≠ none := by
    rwa [messages, Replay.lastShutdown?_append, plain, Option.or_none] at asks
  obtain ⟨part, time, late, rfl, first⟩ := Replay.exists_first_shutdown asks'
  rw [← List.append_assoc] at messages
  have first : ∀ m ∈ earlier.flatten ++ part, shutdown? m = none := fun m mem =>
    (List.mem_append.1 mem).elim (Replay.lastShutdown?_eq_none.1 plain m) (first m)
  generalize hbefore : earlier.flatten ++ part = before at messages first
  obtain ⟨-, handed⟩ := h.followed (.inr asks)
  have read := h.read
  have queued := h.queued
  have shut := h.shut
  rw [messages, Replay.filterMap_call?_request] at handed
  rw [messages] at read
  rw [messages, Replay.Replayer.items_request] at queued
  simp only [messages, Replay.Replayer.items_request, Replay.Replayer.tookAll_request,
    Replay.lastShutdown?_request, Option.some.injEq] at shut
  refine ⟨before, time, late, {
    groups := ⟨earlier, part, groups, hbefore.symm⟩
    first, read, handed, queued
    few := h.few
    sent := ?_
    shut := fun master vlsn last error => (shut master vlsn last error).imp_right
      (.imp_right .symm)
    inPlace := ?_
    untouched := ?_ }⟩
  · refine h.sent.trans ((List.prefix_append_right_inj _).2 ?_)
    rw [← filterMap_queued _ _ ((o.replayer.tookAll (before ++ late)).ack .shutdown 0) rfl]
    exact queued.filterMap _
  · rintro ⟨master, vlsn, last, error⟩
    rw [(shut master vlsn last error).1, replies_queued _ _ _ rfl, List.filterMap_append]
    simp [List.filterMap_eq_nil_iff]
  · rw [handed, List.filterMap_append]
    simp [List.filterMap_eq_nil_iff]

/-- However the threads of a connection interleave, and so however its messages are cut into
    groups: once a shutdown request is replayed, no messages are replayed or acknowledged but
    those in front of it and those behind it in its own group, and the shutdown is acknowledged
    behind them all.  The position that the shutdown is reported with is the one behind them
    all. -/
theorem run_of_asked (setup : Setup σ (τ × List StoreCall)) (records : setup.store = st.recorded)
    (first : Ack) (a : Attached σ (τ × List StoreCall)) (moves : List (Talk.Move σ)) {time : Int64}
    (asked : .shutdownRequest time ∈ ((start setup first a).run setup moves).replayed) :
    ∃ before time late, ((start setup first a).run setup moves).ShutDown setup
      (Talk.start setup first a).origin before time late :=
  ((sound_start setup first a).run records moves).shutDown asked

end Divided

/-! ## A commit behind the request -/

namespace Overtaking

open Replication.Link (ScriptedLink)
open Replication.Replay (MemoryStore)
open Hangup (reader replayer writer)
open Reconnection (commit)

/-- A replica whose store records what it is asked for. -/
def setup : Setup ScriptedLink (MemoryStore × List StoreCall) :=
  { Reconnection.sample with store := MemoryStore.store.recorded }

/-- A master that sends a shutdown request, and goes on to send a commit. -/
def attached : Attached ScriptedLink (MemoryStore × List StoreCall) where
  consumer := {
    masters := Reconnection.consumer.masters
    replay := { replayer := { role := .replica }, store := ({}, []) }
    phase := .handshake
    heartbeatId := 1 }
  session.link := {
    incoming := [commit 7, .shutdownRequest 5000, commit 8].flatMap Message.frame
    ending := some .closed }

/-- All messages wait when the replayer comes, and it takes the first two as a group. -/
def ending : List (Talk.Move ScriptedLink) :=
  reader 6 ++ replayer 6 ++ writer 12 ++ replayer 1

/-- The first message comes alone, and the other two make the next group. -/
def beginning : List (Talk.Move ScriptedLink) :=
  reader 2 ++ replayer 5 ++ reader 4 ++ replayer 6 ++ writer 12 ++ replayer 1

def after (moves : List (Talk.Move ScriptedLink)) :
    Divided ScriptedLink (MemoryStore × List StoreCall) :=
  (Divided.start setup Hangup.first attached).run setup moves

end Overtaking

namespace Divided

open Overtaking (setup attached beginning ending after)
open Reconnection (commit)

/-- A request with a commit in front of it and one behind it in its group. -/
theorem run_of_asked_beginning :
    (setup.store = Replay.MemoryStore.store.recorded ∧
      .shutdownRequest 5000 ∈ ((start setup Hangup.first attached).run setup beginning).replayed) ∧
    ∃ before time late, ((start setup Hangup.first attached).run setup beginning).ShutDown setup
      (Talk.start setup Hangup.first attached).origin before time late := by
  have asked : .shutdownRequest 5000 ∈
      ((start setup Hangup.first attached).run setup beginning).replayed := by
    decide +kernel
  exact ⟨⟨rfl, asked⟩, run_of_asked setup rfl Hangup.first attached beginning asked⟩

/-- The same messages in other groups.  Where the request ends its group, the commit behind it
    is never replayed; where the commit is in the group, the store is handed it, it is
    acknowledged in front of the shutdown, and the shutdown is reported with its position. -/
theorem shutdown_overtaken :
    ((after ending).talk.dialogue.read = [commit 7, .shutdownRequest 5000, commit 8] ∧
      (after beginning).talk.dialogue.read = [commit 7, .shutdownRequest 5000, commit 8]) ∧
    ((after ending).groups = [[commit 7, .shutdownRequest 5000]] ∧
      (after ending).queued.map (·.reply?) = [some (.txn 7), none] ∧
      (after ending).talk.dialogue.replies = [.heartbeat 1, .txn 7] ∧
      Replay.handed (after ending).talk.streaming.consumer.replay.store.2 =
        [commit 7].filterMap (call? .replica) ∧
      (after ending).talk.streaming.replayError =
        some (.groupShutdown (.ofAscii "master") 7 5000)) ∧
    ((after beginning).groups = [[commit 7], [.shutdownRequest 5000, commit 8]] ∧
      (after beginning).queued.map (·.reply?) = [some (.txn 7), some (.txn 8), none] ∧
      (after beginning).talk.dialogue.replies = [.heartbeat 1, .txn 7, .txn 8] ∧
      Replay.handed (after beginning).talk.streaming.consumer.replay.store.2 =
        [commit 7, commit 8].filterMap (call? .replica) ∧
      (after beginning).talk.streaming.replayError =
        some (.groupShutdown (.ofAscii "master") 8 5000)) := by
  refine ⟨⟨?_, ?_⟩, ⟨?_, ?_, ?_, ?_, ?_⟩, ⟨?_, ?_, ?_, ?_, ?_⟩⟩ <;> decide +kernel

end Divided

end Replication.Consumer
