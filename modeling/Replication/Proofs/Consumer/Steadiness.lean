import Replication.Proofs.Consumer.ReplyOrder
import Replication.Proofs.Replay.Recording
import Replication.Proofs.Stream.Bodies

/-! # Threads at work

A thread of a connection ends for cause only: the link fails it, or a group cannot be
replayed, or it is told to end.  Until then a move takes one message off the link, puts one
on it, or leaves it alone.
-/

namespace Replication.Consumer

open Replication.Replay (Ack Role StoreCall)
open Replication.Stream (Message Session StreamError)

variable {σ τ : Type}

/-! ## Threads -/

/-- Whether the reader takes messages. -/
def Reader.atWork : Reader → Bool
  | .reading | .offering _ => true
  | _ => false

/-- Whether the replayer takes messages, and was not asked for a shutdown. -/
def Replayer.atWork : Replayer → Bool
  | .polling | .polled _ | .gathering _ | .queueing _ none => true
  | _ => false

/-- Whether the writer may come to put a message on the link: it answers no more
    acknowledgments than can wait for it. -/
def Setup.Answers (setup : Setup σ τ) (m : Message) : Prop :=
  ∃ a rest, rest.length ≤ setup.outputCapacity ∧ m = (firstResponse setup.groupedAcks a rest).1

open Replication.Stream.BodyReader Replication.Wire in
/-- A response is no larger than the acknowledgments that it may answer allow. -/
theorem length_body_firstResponse_le (grouped : Bool) (a : Ack) (rest : List Ack) :
    (firstResponse grouped a rest).1.body.length ≤ 26 + 9 * rest.length := by
  unfold firstResponse
  cases a.kind with
  | heartbeat =>
    have highVlsn := length_putPackedLong_le a.highVlsn
    have dtvlsn := length_putPackedLong_le a.dtvlsn
    simp only [Message.body, Wire.putLong, List.length_append, Wire.length_bigEndian]
    omega
  | shutdown => exact Nat.zero_le _
  | txn =>
    have first := length_putPackedLong_le a.id
    -- A group takes four bytes for its size and at most nine for each number.
    have few : (if grouped then rest.takeWhile (·.kind = .txn) else []).length ≤ rest.length := by
      split
      · exact (List.takeWhile_prefix _).length_le
      · exact Nat.zero_le _
    dsimp only
    generalize (if grouped then rest.takeWhile (·.kind = .txn) else []) = run at few ⊢
    have ids := length_flatMap_putPackedLong_le (a.id :: run.map (·.id))
    rw [List.length_cons, List.length_map] at ids
    split
    · simp only [Message.body]
      omega
    · simp only [Message.body, Wire.putInt, List.length_append, Wire.length_bigEndian]
      omega

theorem Setup.Answers.length_le {setup : Setup σ τ} {m : Message} (h : setup.Answers m) :
    m.body.length ≤ 26 + 9 * setup.outputCapacity := by
  obtain ⟨a, rest, few, rfl⟩ := h
  have bound := length_body_firstResponse_le setup.groupedAcks a rest
  omega

namespace Streaming

variable {setup : Setup σ τ} {s s' : Streaming σ τ}

/-- Whether no thread has ended. -/
structure AtWork (s : Streaming σ τ) : Prop where
  reader : s.reader.atWork = true
  replayer : s.replayer ≠ .done
  writer : s.writer ≠ .done

/-- Whether all threads are at work and none has been told to end. -/
structure Steady (setup : Setup σ τ) (s : Streaming σ τ) : Prop where
  reader : s.reader.atWork = true
  replayer : s.replayer.atWork = true
  writer : s.writer ≠ .done
  exit : s.exit = .none
  drain : s.drain = false
  stop : s.stop = false
  stopped : s.consumer.stopped = false
  masters : s.consumer.masters.InSync
  held : s.writer.held.length ≤ setup.outputCapacity + 1

theorem Steady.going (h : s.Steady setup) : s.replayer ≠ .done := by
  intro done
  have atWork := h.replayer
  rw [done] at atWork
  cases atWork

theorem Steady.atWork (h : s.Steady setup) : s.AtWork :=
  ⟨h.reader, h.going, h.writer⟩

theorem reader_atWork_of_step {action : Action} (h : (s.step setup action).reader.atWork = true) :
    s.reader.atWork = true := by
  -- Only its own moves touch the reader, and none of them leads back to work.
  cases action with
  | reader =>
    change (s.readerStep setup).reader.atWork = true at h
    unfold Streaming.readerStep at h
    cases reader : s.reader with
    | reading | offering m => rfl
    | leaving => rw [reader] at h; cases h
    | done =>
      rw [reader] at h
      dsimp only at h
      rw [reader] at h
      cases h
    | _ =>
      rw [reader] at h
      dsimp only at h
      split at h
      · cases h
      · rw [reader] at h
        cases h
  | replayer syncDue =>
    have same : (s.step setup (.replayer syncDue)).reader = s.reader :=
      (replayerStep_frame setup s syncDue).2
    exact same ▸ h
  | writer =>
    have same : (s.step setup .writer).reader = s.reader := (writerStep_frame setup s).2
    exact same ▸ h
  | giveUp =>
    change (s.giveUp setup).reader.atWork = true at h
    unfold giveUp at h
    split at h <;> exact h
  | stop | elect m => exact h

theorem AtWork.of_step {action : Action} (h : (s.step setup action).AtWork) : s.AtWork :=
  ⟨reader_atWork_of_step h.reader, fun done => h.replayer (replayer_done_step done),
    fun done => h.writer (writer_done_step done)⟩

/-- What a move of a thread comes to when all are at work. -/
inductive Outcome (setup : Setup σ τ) (s s' : Streaming σ τ) :
    Action → Option Passage → Prop where
  | quiet {action : Action} (steady : s'.Steady setup) (session : s'.session = s.session) :
    Outcome setup s s' action none
  | read {m : Message} (reading : s.reader = .reading)
    (done : Session.receive setup.codec setup.transport s.session = .ok m s'.session)
    (steady : s'.Steady setup) : Outcome setup s s' .reader (some (.read m))
  | readFailed {e : StreamError} (reading : s.reader = .reading)
    (failed : Session.receive setup.codec setup.transport s.session = .error e s'.session)
    (ended : ¬ s'.AtWork) : Outcome setup s s' .reader none
  | replayFailed {syncDue : Bool} {group rest : List Message} {e : Replay.ReplayError}
    {replay : Replay.State τ} (taken : s.unreplayed = group ++ rest)
    (failed : Replay.State.replayGroup setup.store syncDue group s.consumer.replay =
      .error e replay) (ended : ¬ s'.AtWork) : Outcome setup s s' (.replayer syncDue) none
  | written {m : Message} (answers : setup.Answers m)
    (done : Session.send setup.codec setup.transport m s.session = .ok () s'.session)
    (steady : s'.Steady setup) : Outcome setup s s' .writer (some (.written m))
  | sendFailed {m : Message} {e : StreamError} {session : Session σ} (answers : setup.Answers m)
    (failed : Session.send setup.codec setup.transport m s.session = .error e session)
    (ended : ¬ s'.AtWork) : Outcome setup s s' .writer none

/-! ## Moves -/

section Moves

variable (h : s.Steady setup)

include h

theorem Steady.readerStep :
    Outcome setup s (s.readerStep setup) .reader (s.passage? setup .reader) := by
  unfold Streaming.readerStep passage?
  cases reader : s.reader with
  | reading =>
    dsimp only
    unfold Streaming.read
    -- The reader looks whether to stop, and so does the note of what it has read.
    rw [if_neg (by simp [h.stopped]), if_neg (by simp [h.stopped])]
    cases received : Session.receive setup.codec setup.transport s.session with
    | ok m session => exact .read reader received { h with reader := rfl }
    | error e session =>
      cases e <;> exact .readFailed reader received fun atWork => nomatch atWork.reader
  | offering m =>
    dsimp only
    split
    next requests pushed => exact .quiet { h with reader := rfl } rfl
    next =>
      rw [if_neg h.going]
      exact .quiet h rfl
  | _ =>
    have atWork := h.reader
    rw [reader] at atWork
    cases atWork

theorem Steady.replayGroup {syncDue : Bool} {m : Message} (gathering : s.replayer = .gathering m)
    (records : ∀ m ∈ s.unreplayed, ∀ time, m ≠ .shutdownRequest time) :
    Outcome setup s (s.replayGroup setup syncDue m) (.replayer syncDue) none := by
  have messages := unreplayed_gathering gathering (setup.groupSize - 1)
  unfold Streaming.replayGroup
  dsimp only
  split
  next e replay failed => exact .replayFailed messages failed fun atWork => atWork.replayer rfl
  next g replay replayed =>
    have unasked := Replay.State.unasked_replayGroup
      (fun m' mem => records m' (messages ▸ List.mem_append_left _ mem)) replayed
    refine .quiet { h with replayer := ?_ } rfl
    rw [unasked]
    rfl

theorem Steady.replayerStep (syncDue : Bool)
    (records : ∀ m ∈ s.unreplayed, ∀ time, m ≠ .shutdownRequest time) :
    Outcome setup s (s.replayerStep setup syncDue) (.replayer syncDue) none := by
  unfold Streaming.replayerStep
  cases replayer : s.replayer with
  | polling =>
    dsimp only
    split <;> exact .quiet { h with replayer := rfl } rfl
  | polled m =>
    -- None of the reasons to end is there.
    have going : ¬ (s.exit = .immediate ∨ (s.exit = .soft ∧ m = none) ∨
        s.consumer.stopped = true) := by
      simp [h.exit, h.stopped]
    have inSync : s.consumer.masters.assertSync = .ok () := if_pos h.masters
    dsimp only
    unfold consider
    rw [if_neg going, inSync]
    cases m <;> exact .quiet { h with replayer := rfl } rfl
  | gathering m => exact h.replayGroup replayer records
  | queueing acks shutdown =>
    cases shutdown with
    | none =>
      cases acks with
      | nil => exact .quiet { h with replayer := rfl } rfl
      | cons a rest =>
        dsimp only
        split
        next output pushed => exact .quiet { h with replayer := rfl } rfl
        next =>
          rw [if_neg h.writer]
          exact .quiet h rfl
    | some time =>
      have atWork := h.replayer
      rw [replayer] at atWork
      cases atWork
  | awaiting time | done =>
    have atWork := h.replayer
    rw [replayer] at atWork
    cases atWork

theorem Steady.wrote (m : Message) : (s.wrote m).Steady setup := by
  cases m <;> exact { h with }

theorem Steady.writerStep :
    Outcome setup s (s.writerStep setup) .writer (s.passage? setup .writer) := by
  unfold Streaming.writerStep passage?
  cases writer : s.writer with
  | checking =>
    dsimp only
    rw [if_neg (by simp [h.stop])]
    exact .quiet { h with writer := nofun, held := Nat.zero_le _ } rfl
  | polling =>
    dsimp only
    split
    next a output popped =>
      exact .quiet { h with writer := nofun, held := Nat.le_add_left _ _ } rfl
    next => exact .quiet { h with writer := nofun, held := Nat.zero_le _ } rfl
  | starved =>
    dsimp only
    rw [if_neg (by simp [h.drain])]
    exact .quiet { h with writer := nofun, held := Nat.zero_le _ } rfl
  | holding a =>
    refine .quiet { h with writer := nofun, held := ?_ } rfl
    exact Nat.succ_le_succ (List.length_take_le _ _)
  | writing acks =>
    cases acks with
    | nil => exact .quiet { h with writer := nofun, held := Nat.zero_le _ } rfl
    | cons a rest =>
      -- What is held was taken from a queue of that capacity, and the first behind it.
      have held := h.held
      rw [writer] at held
      have few : rest.length ≤ setup.outputCapacity := Nat.le_of_succ_le_succ held
      have answers : setup.Answers (firstResponse setup.groupedAcks a rest).1 :=
        ⟨a, rest, few, rfl⟩
      dsimp only
      unfold Streaming.write
      dsimp only
      cases sent : Session.send setup.codec setup.transport
          (firstResponse setup.groupedAcks a rest).1 s.session with
      | ok u session =>
        have session' : (({ s with session } : Streaming σ τ).wrote
            (firstResponse setup.groupedAcks a rest).1).session = session := by
          cases (firstResponse setup.groupedAcks a rest).1 <;> rfl
        have wrote : (({ s with session } : Streaming σ τ).wrote
            (firstResponse setup.groupedAcks a rest).1).Steady setup :=
          Steady.wrote (s := { s with session }) { h with } _
        refine .written answers (sent.trans ?_) { wrote with writer := nofun, held := ?_ }
        · dsimp only
          rw [session']
        · exact Nat.le_succ_of_le (Nat.le_trans (length_firstResponse _ _ _) few)
      | error e session =>
        dsimp only
        rw [if_neg (by simp [h.stop])]
        exact .sendFailed answers sent fun atWork => atWork.writer rfl
  | done => exact absurd writer h.writer

end Moves

/-- A consumer that is to go on starts all its threads. -/
theorem steady_start {first : Ack} {a : Attached σ τ} (stopped : a.consumer.stopped = false)
    (masters : a.consumer.masters.InSync) : (start setup a first).Steady setup :=
  ⟨rfl, rfl, nofun, rfl, rfl, rfl, stopped, masters, Nat.zero_le _⟩

end Streaming

/-! ## What becomes of the messages -/

theorem suffix_firstResponse (grouped : Bool) (a : Ack) (rest : List Ack) :
    (firstResponse grouped a rest).2 <:+ rest := by
  simp only [firstResponse]
  cases a.kind with
  | heartbeat | shutdown => exact List.suffix_refl _
  | txn =>
    dsimp only
    split
    · exact List.suffix_refl _
    · exact List.drop_suffix _ _

namespace Talk

/-- How far a connection has come whose threads are at work: the store was handed what the
    replayed messages lead to, after `base`, the dtvlsn follows from them, and none of the
    acknowledgments on the way is one of a shutdown. -/
structure Flowing (role : Role) (base : List StoreCall) (loaded : Int64)
    (t : Talk σ (τ × List StoreCall)) : Prop where
  kept : t.streaming.consumer.replay.replayer.role = role
  replayed : ∃ replayed, t.dialogue.read = replayed ++ t.streaming.unreplayed ∧
    Replay.handed t.streaming.consumer.replay.store.2 =
      base ++ replayed.filterMap (Replay.call? role) ∧
    t.streaming.consumer.replay.replayer.dtvlsn = replayed.foldl (Replay.dtvlsnAfter role) loaded
  answerable : ∀ a ∈ t.streaming.unwritten, a.reply?.isSome

variable {setup : Setup σ (τ × List StoreCall)} {st : Replay.Store τ} {role : Role}
  {base : List StoreCall} {loaded : Int64} {t : Talk σ (τ × List StoreCall)}

theorem flowing_start {first : Ack} {a : Attached σ (τ × List StoreCall)}
    (room : 0 < setup.outputCapacity) (kind : first.kind = .heartbeat)
    (requests : a.consumer.requests = []) (output : a.consumer.output = []) :
    (start setup first a).Flowing a.consumer.replay.replayer.role
      (Replay.handed a.consumer.replay.store.2) a.consumer.replay.replayer.dtvlsn := by
  refine ⟨rfl, ⟨[], ?_, (List.append_nil _).symm, rfl⟩, fun b mem => ?_⟩
  · rw [unreplayed_start requests]
    rfl
  · rw [unwritten_start room output] at mem
    obtain rfl := List.mem_singleton.1 mem
    rw [Ack.reply?, kind]
    rfl

theorem Flowing.act (h : t.Flowing role base loaded) (records : setup.store = st.recorded)
    (plain : ∀ m ∈ t.streaming.unreplayed, ∀ time, m ≠ .shutdownRequest time)
    {action : Streaming.Action} (atWork : (t.streaming.step setup action).AtWork) :
    (t.step setup (.act action)).Flowing role base loaded := by
  have shift := t.streaming.step_shift setup action
  obtain ⟨replayed, read, handed, dtvlsn⟩ := h.replayed
  rw [step]
  generalize t.streaming.passage? setup action = passage at shift
  generalize t.streaming.step setup action = s' at shift atWork
  cases shift with
  | along unwritten unreplayed replay =>
    refine ⟨?_, ⟨replayed, ?_, ?_, ?_⟩, ?_⟩ <;> dsimp only [Dialogue.note]
    · rw [replay, h.kept]
    · rw [unreplayed, read]
    · rw [replay, handed]
    · rw [replay, dtvlsn]
    · rw [unwritten]
      exact h.answerable
  | @read m unwritten unreplayed replay =>
    refine ⟨?_, ⟨replayed, ?_, ?_, ?_⟩, ?_⟩ <;> dsimp only [Dialogue.note]
    · rw [replay, h.kept]
    · rw [unreplayed, read, List.append_assoc]
    · rw [replay, handed]
    · rw [replay, dtvlsn]
    · rw [unwritten]
      exact h.answerable
  | @replayed syncDue group g last going done unreplayed unwritten silent unasked =>
    have group_plain : ∀ m ∈ group, ∀ time, m ≠ .shutdownRequest time := fun m mem =>
      plain m (unreplayed ▸ List.mem_append_left _ mem)
    have replies := Replay.State.isSome_reply?_replayGroup done
    obtain rfl := unasked (Replay.State.unasked_replayGroup group_plain done)
    have kept := (Replay.State.keepsRole_replayGroup _ _).of_ok done
    rw [records] at done
    obtain ⟨handed', dtvlsn'⟩ := Replay.State.handed_of_replayGroup done
    -- The group has been replayed too.
    refine ⟨kept.trans h.kept, ⟨replayed ++ group, ?_, ?_, ?_⟩, ?_⟩ <;> dsimp only [Dialogue.note]
    · rw [read, unreplayed, List.append_assoc]
    · rw [handed', handed, h.kept, List.filterMap_append, List.append_assoc]
    · rw [dtvlsn', dtvlsn, h.kept, List.foldl_append]
    · intro a mem
      rw [unwritten, List.append_nil] at mem
      rcases List.mem_append.1 mem with before | last
      · exact h.answerable a before
      · exact replies a last
  | @written a rest behind going before after unreplayed replay =>
    refine ⟨?_, ⟨replayed, ?_, ?_, ?_⟩, ?_⟩ <;> dsimp only [Dialogue.note]
    · rw [replay, h.kept]
    · rw [unreplayed, read]
    · rw [replay, handed]
    · rw [replay, dtvlsn]
    · intro b mem
      rw [after] at mem
      refine h.answerable b ?_
      rw [before]
      rcases List.mem_append.1 mem with left | mem
      · exact List.mem_append_left _ (List.mem_cons_of_mem _
          ((suffix_firstResponse _ _ _).subset left))
      · exact List.mem_append_right _ mem
  | replayerDone done => exact absurd done atWork.replayer
  | writerDone done => exact absurd done atWork.writer

end Talk

end Replication.Consumer
