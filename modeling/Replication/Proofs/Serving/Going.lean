import Replication.Proofs.Consumer.Opening
import Replication.Proofs.Serving.Deliveries
import Replication.Proofs.Serving.Lines

/-! # Services that go on

A feeder serves a consumer over one connection, each with its own threads.  Whatever moves
next, all that was said stays accounted for at both ends, until a thread ends; and none does
as long as the codecs have room for what is said and the records suit the consumer.
-/

namespace Replication.Serving

open Replication.Consumer (Attached Streaming Talk nodeType)
open Replication.Feeder (Beginning Feeding Listener Notice Spoken beat? isResponse isShipment
  noticesOf shipment)
open Replication.Feeder.Feeding (Account Sound Suits)
open Replication.Link (Connection)
open Replication.Log (CommitLog Positioned Source)
open Replication.Replay (Ack Admits Role Store StoreCall call? dtvlsnAfter handed)
open Replication.Stream (Carries Message Session)

variable {ρ τ : Type} {feeder : Feeder.Setup Connection (ρ × List Notice)}
  {listener : Listener ρ}
  {consumer : Consumer.Setup (Line (ρ × List Notice)) (τ × List StoreCall)} {store : Store τ}

/-! ## Two ends -/

/-- Whether the two ends are set up for one connection, with a listener and a store that
    keep what they are told. -/
structure Wired (feeder : Feeder.Setup Connection (ρ × List Notice)) (listener : Listener ρ)
    (consumer : Consumer.Setup (Line (ρ × List Notice)) (τ × List StoreCall))
    (store : Store τ) : Prop where
  accepts : feeder.transport = Connection.transport .accepter
  hears : feeder.listener = listener.recorded
  serves : consumer.transport = Line.transport feeder
  records : consumer.store = store.recorded
  room : 0 < consumer.outputCapacity

/-- Where a service begins: the role of the consumer, the position of the record that is
    shipped first, what the listener was told and the store was handed before, and the
    dtvlsn that the consumer loaded. -/
structure Origin where
  role : Role
  first : Nat
  told : List Notice
  handed : List StoreCall
  loaded : Int64

/-- The same as the feeder sees it. -/
def Origin.beginning (o : Origin)
    (consumer : Consumer.Setup (Line (ρ × List Notice)) (τ × List StoreCall)) : Beginning where
  first := o.first
  told := o.told
  name := consumer.node
  type := nodeType o.role

/-- The records from there on that are durable. -/
def Origin.durable (o : Origin) (log : CommitLog) : List Positioned :=
  log.between (o.first + 1) log.durable

variable (consumer) in
/-- What a consumer may say: how it introduces itself, and responses. -/
def Speaks (role : Role) (m : Message) : Prop :=
  m = consumer.hello role ∨ consumer.Answers m

variable (feeder consumer) in
/-- Whether each message that a codec lets through has a size that a header can tell. -/
structure Framed (o : Origin) (log : CommitLog) : Prop where
  sent : Feeding.Framed feeder (o.beginning consumer) log
  said : ∀ m, Speaks consumer o.role m → m.body.length ≤ consumer.codec.limit →
    m.body.length < 2 ^ 31

theorem framed_of_limit (limit : feeder.codec.limit < 2 ^ 31)
    (limit' : consumer.codec.limit < 2 ^ 31) (o : Origin) (log : CommitLog) :
    Framed feeder consumer o log :=
  ⟨fun _ _ fits => Nat.lt_of_le_of_lt fits limit, fun _ _ fits => Nat.lt_of_le_of_lt fits limit'⟩

variable (feeder listener consumer store) in
/-- Whether there is nothing to end a service: both codecs have room for all messages, the
    listener takes what it is told and the store does what it is asked for, and what the
    commits of the log tell a replica to be durable never falls. -/
structure Suitable (o : Origin) (log : CommitLog) : Prop where
  takes : listener.Takes
  works : store.Works
  sends : ∀ m, (o.beginning consumer).Sends feeder.master log m →
    m.body.length ≤ feeder.codec.limit ∧ m.body.length ≤ consumer.codec.limit
  speaks : ∀ m, Speaks consumer o.role m →
    m.body.length ≤ consumer.codec.limit ∧ m.body.length ≤ feeder.codec.limit
  ordered : o.role = .replica →
    (o.loaded :: (o.durable log).filterMap toldDtvlsn?).Pairwise (· ≤ ·)

/-- A listener and a store at work suit a service with codecs that have room for the
    greetings, for the acknowledgments that may wait and for the records. -/
theorem Suitable.of_room {o : Origin} {log : CommitLog} {room : Nat} (takes : listener.Takes)
    (works : store.Works) (feeder_room : room ≤ feeder.codec.limit)
    (consumer_room : room ≤ consumer.codec.limit)
    (answer : (Message.serverVersion Stream.streamVersion feeder.master.name
      feeder.master.id).body.length ≤ room)
    (hello : (consumer.hello o.role).body.length ≤ room)
    (responses : 26 + 9 * consumer.outputCapacity ≤ room)
    (records : ∀ r ∈ o.durable log, ∀ m, shipment (nodeType o.role) r = some m →
      m.body.length ≤ room)
    (ordered : o.role = .replica →
      (o.loaded :: (o.durable log).filterMap toldDtvlsn?).Pairwise (· ≤ ·)) :
    Suitable feeder listener consumer store o log := by
  have sends : ∀ m, (o.beginning consumer).Sends feeder.master log m → m.body.length ≤ room := by
    intro m sends
    cases sends with
    | greeting => exact answer
    | beat id now last =>
      have bound := Stream.length_body_heartbeat_le id now last
      omega
    | record durable ships => exact records _ durable m ships
  have speaks : ∀ m, Speaks consumer o.role m → m.body.length ≤ room := by
    rintro m (rfl | answers)
    · exact hello
    · exact Nat.le_trans answers.length_le responses
  exact ⟨takes, works,
    fun m h => ⟨Nat.le_trans (sends m h) feeder_room, Nat.le_trans (sends m h) consumer_room⟩,
    fun m h => ⟨Nat.le_trans (speaks m h) consumer_room, Nat.le_trans (speaks m h) feeder_room⟩,
    ordered⟩

/-! ## Services that go on -/

/-- The feeder's end of the connection of a consumer. -/
def feeding (t : Talk (Line (ρ × List Notice)) (τ × List StoreCall)) :
    Feeding Connection (ρ × List Notice) :=
  t.streaming.session.link.feeding

variable (feeder consumer) in
/-- A service of which no thread has ended.  All that was said on the connection is
    accounted for at both ends. -/
structure Going (o : Origin) (t : Talk (Line (ρ × List Notice)) (τ × List StoreCall)) :
    Prop where
  steady : t.streaming.Steady consumer
  flowing : t.Flowing o.role o.handed o.loaded
  inOrder : t.InOrder o.role
  spoken : ∀ m ∈ consumer.hello o.role :: t.dialogue.written,
    Speaks consumer o.role m ∧ m.body.length ≤ consumer.codec.limit
  responses : ∀ m ∈ t.dialogue.written, isResponse m = true
  sound : ∃ now last, Sound feeder (o.beginning consumer)
    (consumer.hello o.role :: t.dialogue.written)
    (.serverVersion Stream.streamVersion feeder.master.name feeder.master.id ::
      .heartbeat t.dialogue.heartbeat now last :: t.dialogue.read) [] (feeding t)

variable (feeder listener consumer store) in
/-- A service of which a thread has ended, for cause. -/
def Broken (o : Origin) (t : Talk (Line (ρ × List Notice)) (τ × List StoreCall)) : Prop :=
  (¬ t.streaming.AtWork ∨ (feeding t).Ended) ∧
    ¬ Suitable feeder listener consumer store o (feeding t).log

/-! ## What a service has said -/

section Said

variable {o : Origin} {log log' : CommitLog}
  {t : Talk (Line (ρ × List Notice)) (τ × List StoreCall)}

theorem Framed.of_extends (h : Framed feeder consumer o log') (longer : log'.Extends log) :
    Framed feeder consumer o log :=
  ⟨h.sent.of_extends longer, h.said⟩

theorem Suitable.of_extends (h : Suitable feeder listener consumer store o log')
    (longer : log'.Extends log) : Suitable feeder listener consumer store o log := by
  refine ⟨h.takes, h.works, fun m sends => h.sends m (sends.of_extends longer), h.speaks,
    fun replica => (h.ordered replica).sublist ?_⟩
  exact ((longer.between_prefix _).filterMap _).sublist.cons_cons _

theorem Suitable.suits (h : Suitable feeder listener consumer store o log) {wrote : List Message}
    (spoken : ∀ m ∈ wrote, Speaks consumer o.role m) :
    Feeding.Suits feeder listener (o.beginning consumer) log wrote :=
  ⟨h.takes, fun m sends => (h.sends m sends).1, fun m mem => (h.speaks m (spoken m mem)).2⟩

theorem streamed_of_emitted {type : NodeType} {first n beats : Nat} {stream : List Message}
    (role : Role) (typed : type = nodeType role)
    (emitted : Feeder.Emitted log type first n beats stream) :
    ∀ m ∈ stream, Streamed role m := by
  subst typed
  intro m mem
  rcases emitted.only m mem with beat | ships
  · cases m with
    | heartbeat id now last => trivial
    | _ => cases beat
  · have shipped := List.mem_filter.2 ⟨mem, ships⟩
    rw [emitted.records] at shipped
    obtain ⟨r, -, same⟩ := List.mem_filterMap.1 shipped
    exact streamed_of_shipment same

namespace Going

variable (h : Going feeder consumer o t)

include h

theorem introduced :
    Spoken (o.beginning consumer) (consumer.hello o.role :: t.dialogue.written) :=
  .cons consumer.nodeId h.responses

theorem short (framed : Framed feeder consumer o log) :
    ∀ m ∈ consumer.hello o.role :: t.dialogue.written, m.body.length < 2 ^ 31 :=
  fun m mem => framed.said m (h.spoken m mem).1 (h.spoken m mem).2

/-- What the feeder has heard and sent behind the greetings, and what of it is on the way. -/
theorem serving : ∃ n now last heard up down, heard ++ up = t.dialogue.written ∧
    Account feeder (o.beginning consumer) (feeding t) n (consumer.hello o.role :: heard) up
      (.serverVersion Stream.streamVersion feeder.master.name feeder.master.id ::
        .heartbeat t.dialogue.heartbeat now last :: t.dialogue.read) down [] ∧
    Feeding.Serving (o.beginning consumer) (feeding t) n heard
      (.heartbeat t.dialogue.heartbeat now last :: (t.dialogue.read ++ down)) := by
  obtain ⟨now, last, n, received, up, down, parts, account⟩ := h.sound
  have phase := account.phase
  generalize all : _ ++ down = sent at phase
  cases phase with
  | greeting g =>
    -- In front of the handshake nothing was sent, but the greeting was read.
    cases all
  | @serving id heard stream serving =>
    obtain ⟨-, rfl⟩ := List.cons.inj all
    obtain ⟨same, rest⟩ := List.cons.inj parts
    rw [same] at account
    exact ⟨n, now, last, heard, up, down, rest, account, serving⟩

/-- What was read stands at the front of what the feeder has sent. -/
theorem streamed : ∀ m ∈ t.dialogue.read, Streamed o.role m := by
  obtain ⟨n, now, last, heard, up, down, -, -, serving⟩ := h.serving
  intro m mem
  exact streamed_of_emitted o.role rfl serving.emitted m
    (List.mem_cons_of_mem _ (List.mem_append_left _ mem))

theorem plain : ∀ m ∈ t.streaming.unreplayed, ∀ time, m ≠ .shutdownRequest time := by
  obtain ⟨replayed, read, -⟩ := h.flowing.replayed
  rintro m mem time rfl
  exact h.streamed _ (read ▸ List.mem_append_right _ mem)

/-- There is no reason to refuse what was read. -/
theorem admits (suitable : Suitable feeder listener consumer store o (feeding t).log) :
    Admits o.role o.loaded t.dialogue.read := by
  obtain ⟨n, now, last, heard, up, down, -, account, serving⟩ := h.serving
  -- What was read is part of what was shipped, and that is part of what is durable.
  refine admits_of_streamed h.streamed fun replica => (suitable.ordered replica).sublist ?_
  have shipped : (feeding t).log.between (o.first + 1) n <+: o.durable (feeding t).log := by
    rcases account.place.within with within | fresh
    · exact CommitLog.between_prefix _ within
    · rw [CommitLog.between_of_lt (fresh ▸ Nat.lt_succ_self _)]
      exact List.nil_prefix
  have told : (t.dialogue.read ++ down).filterMap effectiveDtvlsn? = _ :=
    dtvlsns_of_ships serving.emitted.records
  rw [List.filterMap_append] at told
  refine List.Sublist.cons_cons _ (.trans ?_ (shipped.filterMap toldDtvlsn?).sublist)
  exact told ▸ List.sublist_append_left _ _

theorem unended : ¬ (feeding t).Ended := by
  obtain ⟨n, now, last, heard, up, down, -, -, serving⟩ := h.serving
  rintro (output | input)
  · have isServing := serving.output
    rw [output] at isServing
    cases isServing
  · rcases serving.input with waiting | reading
    · cases waiting.symm.trans input
    · cases reading.symm.trans input

end Going

end Said

/-! ## Moves -/

section Moves

variable (wired : Wired feeder listener consumer store) {o : Origin} {log : CommitLog}
  {t : Talk (Line (ρ × List Notice)) (τ × List StoreCall)}

theorem broken_of_lost {wrote : List Message} (spoken : ∀ m ∈ wrote, Speaks consumer o.role m)
    (lost : Line.Lost feeder listener (o.beginning consumer) wrote t.streaming.session.link) :
    Broken feeder listener consumer store o t :=
  ⟨.inr lost.1, fun suitable => lost.2 (suitable.suits spoken)⟩

theorem isResponse_firstResponse (grouped : Bool) {a : Ack} (rest : List Ack)
    (answerable : a.reply?.isSome) :
    isResponse (Consumer.firstResponse grouped a rest).1 = true := by
  unfold Consumer.firstResponse
  cases kind : a.kind with
  | heartbeat => rfl
  | txn =>
    dsimp only
    split <;> rfl
  | shutdown =>
    rw [Ack.reply?, kind] at answerable
    cases answerable

/-- What is written while no shutdown is acknowledged is a response. -/
theorem isResponse_of_written {action : Streaming.Action} {m : Message}
    (flowing : t.Flowing o.role o.handed o.loaded)
    (passage : t.streaming.passage? consumer action = some (.written m)) : isResponse m = true := by
  have shift := t.streaming.step_shift consumer action
  rw [passage] at shift
  cases shift with
  | @written a rest behind going before after unreplayed replay =>
    refine isResponse_firstResponse _ rest (flowing.answerable a ?_)
    rw [before]
    exact List.mem_append_left _ List.mem_cons_self

theorem dialogue_act {action : Streaming.Action} {passage : Option Consumer.Passage}
    (same : t.streaming.passage? consumer action = passage) :
    (t.step consumer (.act action)).dialogue = t.dialogue.note passage := by
  rw [Talk.step, same]

section Step

include wired

theorem extends_step (move : Move) :
    (feeding (Serving.step feeder consumer t move)).log.Extends (feeding t).log :=
  (lasting_extends _).step wired.serves (.refl _) move

theorem Broken.step (h : Broken feeder listener consumer store o t) (move : Move) :
    Broken feeder listener consumer store o (Serving.step feeder consumer t move) := by
  -- What suits the longer log would have suited the log before.
  refine ⟨?_, fun suitable => h.2 (suitable.of_extends (extends_step wired move))⟩
  rcases h.1 with ended | ended
  · left
    have ended_act (action : Streaming.Action) : ¬ (t.streaming.step consumer action).AtWork :=
      fun atWork => ended atWork.of_step
    cases move with
    | reader =>
      unfold Serving.step
      dsimp only
      split
      · exact ended
      · exact ended_act .reader
    | replayer syncDue => exact ended_act (.replayer syncDue)
    | writer => exact ended_act .writer
    | feeder w => exact fun atWork => ended ⟨atWork.reader, atWork.replayer, atWork.writer⟩
  · exact .inr (lasting_ended.step wired.serves ended move)

namespace Going

variable (h : Going feeder consumer o t) (framed : Framed feeder consumer o log)

include h

omit wired in
theorem quiet {action : Streaming.Action} (passage : t.streaming.passage? consumer action = none)
    (flowing : (t.step consumer (.act action)).Flowing o.role o.handed o.loaded)
    (steady : (t.streaming.step consumer action).Steady consumer)
    (session : (t.streaming.step consumer action).session = t.streaming.session) :
    Going feeder consumer o (t.step consumer (.act action)) := by
  have same : feeding (t.step consumer (.act action)) = feeding t :=
    congrArg (·.link.feeding) session
  refine ⟨steady, flowing, h.inOrder.step _, ?_, ?_, ?_⟩ <;> rw [dialogue_act passage]
  · exact h.spoken
  · exact h.responses
  · exact same ▸ h.sound

theorem flow {action : Streaming.Action}
    (steady : (t.streaming.step consumer action).Steady consumer) :
    (t.step consumer (.act action)).Flowing o.role o.handed o.loaded :=
  h.flowing.act wired.records h.plain steady.atWork

theorem feeds (w : Work) (framed : Framed feeder consumer o log) :
    Going feeder consumer o (Serving.step feeder consumer t (.feeder w)) ∨
      Broken feeder listener consumer store o (Serving.step feeder consumer t (.feeder w)) := by
  obtain ⟨now, last, sound⟩ := h.sound
  have inOrder : (t.step consumer (.link fun l => l.act feeder w)).InOrder o.role :=
    h.inOrder.step _
  rcases Line.sound_act wired.accepts wired.hears h.introduced (h.short framed) sound w with
    sound | lost
  · exact .inl ⟨{ h.steady with }, ⟨h.flowing.kept, h.flowing.replayed, h.flowing.answerable⟩,
      inOrder, h.spoken, h.responses, now, last, sound⟩
  · exact .inr (broken_of_lost (fun m mem => (h.spoken m mem).1) lost)

theorem replays (syncDue : Bool) :
    Going feeder consumer o (Serving.step feeder consumer t (.replayer syncDue)) ∨
      Broken feeder listener consumer store o
        (Serving.step feeder consumer t (.replayer syncDue)) := by
  have longer := extends_step wired (t := t) (.replayer syncDue)
  have outcome := h.steady.replayerStep syncDue h.plain
  change Going feeder consumer o (t.step consumer (.act (.replayer syncDue))) ∨ _
  cases outcome with
  | quiet steady session => exact .inl (h.quiet rfl (h.flow wired steady) steady session)
  | @replayFailed _ group rest e replay taken failed ended =>
    refine .inr ⟨.inl ended, fun suitable => ?_⟩
    -- The group is admitted behind what was replayed, and the store carries it out.
    obtain ⟨replayed, read, handed, dtvlsn⟩ := h.flowing.replayed
    have admits := h.admits (suitable.of_extends longer)
    rw [read, taken, Replay.admits_append, Replay.admits_append] at admits
    have group_admits := admits.2.1
    rw [← dtvlsn, ← h.flowing.kept] at group_admits
    obtain ⟨g, replay', done⟩ :=
      Replay.State.replayGroup_total suitable.works.recorded group_admits syncDue
    rw [wired.records, done] at failed
    cases failed

theorem writes :
    Going feeder consumer o (Serving.step feeder consumer t .writer) ∨
      Broken feeder listener consumer store o (Serving.step feeder consumer t .writer) := by
  have outcome := h.steady.writerStep
  change Going feeder consumer o (t.step consumer (.act .writer)) ∨ _
  generalize passage : t.streaming.passage? consumer .writer = p at outcome
  obtain ⟨now, last, sound⟩ := h.sound
  cases outcome with
  | quiet steady session => exact .inl (h.quiet passage (h.flow wired steady) steady session)
  | @written m answers done steady =>
    have fits := Session.length_le_of_send done
    rw [wired.serves] at done
    obtain ⟨session, sent, sound'⟩ := Line.send_eq_ok (s := t.streaming.session) sound fits
    cases done.symm.trans sent
    refine .inl ⟨steady, h.flow wired steady, h.inOrder.step _, ?_, ?_, ?_⟩ <;>
      rw [dialogue_act passage]
    · intro m' (mem : m' ∈ (consumer.hello o.role :: t.dialogue.written) ++ [m])
      rcases List.mem_append.1 mem with before | last
      · exact h.spoken m' before
      · obtain rfl := List.mem_singleton.1 last
        exact ⟨.inr answers, fits⟩
    · intro m' mem
      rcases List.mem_append.1 mem with before | last
      · exact h.responses m' before
      · obtain rfl := List.mem_singleton.1 last
        exact isResponse_of_written h.flowing passage
    · exact ⟨now, last, sound'⟩
  | @sendFailed m e session answers failed ended =>
    -- Both ends are open, so a response that fits does get on the link.
    refine .inr ⟨.inl ended, fun suitable => ?_⟩
    have fits := (suitable.speaks m (.inr answers)).1
    obtain ⟨session, sent, -⟩ := Line.send_eq_ok (s := t.streaming.session) sound fits
    rw [wired.serves, sent] at failed
    cases failed

theorem reads (framed : Framed feeder consumer o
      (feeding (Serving.step feeder consumer t .reader)).log) :
    Going feeder consumer o (Serving.step feeder consumer t .reader) ∨
      Broken feeder listener consumer store o (Serving.step feeder consumer t .reader) := by
  have longer := extends_step wired (t := t) .reader
  unfold Serving.step at framed longer ⊢
  dsimp only at framed longer ⊢
  split at framed
  next waits => exact .inl (by rw [if_pos waits]; exact h)
  next goes =>
  rw [if_neg goes] at longer ⊢
  have outcome := h.steady.readerStep
  generalize passage : t.streaming.passage? consumer .reader = p at outcome
  obtain ⟨now, last, sound⟩ := h.sound
  have spoken := h.introduced
  have short := h.short framed
  cases outcome with
  | quiet steady session => exact .inl (h.quiet passage (h.flow wired steady) steady session)
  | @read m reading done steady =>
    rw [wired.serves] at done
    have next := Line.receive_next wired.accepts wired.hears spoken short
      (by rw [done]; exact framed.sent) sound done
    rcases next with sound | lost
    · refine .inl ⟨steady, h.flow wired steady, h.inOrder.step _, ?_, ?_, ?_⟩ <;>
        rw [dialogue_act passage]
      · exact h.spoken
      · exact h.responses
      · exact ⟨now, last, sound⟩
    · exact .inr (broken_of_lost (fun m mem => (h.spoken m mem).1) lost)
  | @readFailed e reading failed ended =>
    have isOpen : t.streaming.session.link.IsOpen := by
      obtain ⟨n, received, up, down, -, account⟩ := sound
      exact ⟨account.carries.opener, account.carries.accepter⟩
    rw [wired.serves] at failed
    -- Bytes wait, and they begin with a frame: it is too large, or the feeder has ended.
    rcases Line.receive_arrived wired.accepts wired.hears spoken short
      (by rw [failed]; exact framed.sent) sound (fun empty => goes ⟨reading, isOpen, empty⟩) with
      ⟨m, front, ⟨session, done, -⟩ | ⟨large, -⟩ | lost⟩
    · cases failed.symm.trans done
    · refine .inr ⟨.inl ended, fun suitable => Nat.not_le.2 large ?_⟩
      have sends := Line.sends_of_taken front (List.mem_append_right _ List.mem_cons_self)
      exact ((suitable.of_extends longer).sends m sends).2
    · rw [failed] at lost
      exact .inr (broken_of_lost (fun m mem => (h.spoken m mem).1) lost)

theorem step (move : Move)
    (framed : Framed feeder consumer o (feeding (Serving.step feeder consumer t move)).log) :
    Going feeder consumer o (Serving.step feeder consumer t move) ∨
      Broken feeder listener consumer store o (Serving.step feeder consumer t move) := by
  cases move with
  | reader => exact h.reads wired framed
  | replayer syncDue => exact h.replays wired syncDue
  | writer => exact h.writes wired
  | feeder w => exact h.feeds wired w framed

end Going

theorem extends_run (t : Talk (Line (ρ × List Notice)) (τ × List StoreCall)) (moves : List Move) :
    (feeding (run feeder consumer t moves)).log.Extends (feeding t).log := by
  induction moves generalizing t with
  | nil => exact .refl _
  | cons move moves ih => exact (ih _).trans (extends_step wired move)

/-- A service goes on, unless a thread ends for cause. -/
theorem going_or_broken_run (moves : List Move)
    (framed : Framed feeder consumer o (feeding (run feeder consumer t moves)).log)
    (h : Going feeder consumer o t ∨ Broken feeder listener consumer store o t) :
    Going feeder consumer o (run feeder consumer t moves) ∨
      Broken feeder listener consumer store o (run feeder consumer t moves) := by
  induction moves generalizing t with
  | nil => exact h
  | cons move moves ih =>
    refine ih framed ?_
    -- Sizes are told of the last log, which extends those on the way.
    rcases h with going | broken
    · exact going.step wired move (framed.of_extends (extends_run wired _ moves))
    · exact .inr (broken.step wired move)

end Step

end Moves

end Replication.Serving
