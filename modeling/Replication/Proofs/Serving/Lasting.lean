import Replication.Proofs.Feeder.Loops
import Replication.Proofs.Log.Sources
import Replication.Serving.Line

/-! # What lasts on a line

Some things hold of a line for good once they do, whatever happens at either end: a loop of
the feeder has ended, or the log holds what it holds.
-/

namespace Replication.Serving

open Replication.Consumer (Streaming Talk)
open Replication.Feeder (Feeding)
open Replication.Link (Connection LinkError)
open Replication.Stream (Codec CodecError Message Session)

variable {ρ : Type} {feeder : Feeder.Setup Connection ρ} {line : Line ρ}

/-! ## Lines -/

/-- Whether nothing that happens to a line changes that something holds of it. -/
structure Lasting (feeder : Feeder.Setup Connection ρ) (P : Line ρ → Prop) : Prop where
  act : ∀ {line}, P line → ∀ w, P (line.act feeder w)
  setLink : ∀ {line}, P line → ∀ link, P (line.setLink link)
  meanwhile : ∀ {line}, P line → ∀ meanwhile, P { line with meanwhile }

namespace Line

theorem ended_act (ended : line.feeding.Ended) (w : Work) : (line.act feeder w).feeding.Ended := by
  unfold act
  split
  · exact ended
  · cases w with
    | output due now => exact ended.outputStep due now
    | input => exact ended.inputStep
    | append r => exact ended
    | markDurable vlsn =>
      dsimp only [Work.action, Feeding.step]
      split <;> exact ended
    | clean => exact ended

theorem extends_act (w : Work) :
    (line.act feeder w).feeding.log.Extends line.feeding.log := by
  unfold act
  split
  · exact .refl _
  · cases w with
    | output due now =>
      have same : (line.feeding.outputStep feeder due now).log = line.feeding.log :=
        (Feeding.outputStep_frame due now).2
      exact same ▸ .refl _
    | input =>
      have same : (line.feeding.inputStep feeder).log = line.feeding.log :=
        Feeding.inputStep_frame.2
      exact same ▸ .refl _
    | append r => exact Log.CommitLog.extends_append r
    | markDurable vlsn =>
      dsimp only [Work.action, Feeding.step]
      split
      next done => exact Log.CommitLog.extends_markDurable done
      next => exact .refl _
    | clean => exact Log.CommitLog.extends_clean _

end Line

theorem lasting_ended : Lasting feeder fun line : Line ρ => line.feeding.Ended :=
  ⟨fun ended w => Line.ended_act ended w, fun ended _ => ended, fun ended _ => ended⟩

theorem lasting_extends (log : Log.CommitLog) :
    Lasting feeder fun line : Line ρ => line.feeding.log.Extends log :=
  ⟨fun longer w => (Line.extends_act w).trans longer, fun longer _ => longer,
    fun longer _ => longer⟩

namespace Lasting

variable {P : Line ρ → Prop} (h : Lasting feeder P)

include h

theorem acts (holds : P line) (works : List Work) : P (works.foldl (Line.act feeder) line) := by
  induction works generalizing line with
  | nil => exact holds
  | cons w works ih => exact ih (h.act holds w)

theorem pass (holds : P line) : P (line.pass feeder) := by
  unfold Line.pass
  split
  · exact holds
  next works meanwhile _ => exact h.acts (h.meanwhile holds meanwhile) works

/-! ## Sessions -/

theorem read {l : Line ρ} (n : Nat) (holds : P (l.pass feeder)) :
    P (endState ((Line.transport feeder).read n l)) := by
  unfold Line.transport
  dsimp only
  split <;> exact h.setLink holds _

theorem write (bytes : Octets) : Stays P ((Line.transport feeder).write bytes) := by
  intro l holds
  unfold Line.transport
  dsimp only
  split <;> exact h.setLink holds _

omit h in
theorem link_endState_onLink {α : Type} (x : EStateM LinkError (Line ρ) α)
    (s : Session (Line ρ)) : (endState (Session.onLink x s)).link = endState (x s.link) := by
  unfold Session.onLink
  split
  next done => rw [done]; rfl
  next failed => rw [failed]; rfl

omit h in
theorem stays_onLink {α : Type} {x : EStateM LinkError (Line ρ) α} (stays : Stays P x) :
    Stays (fun s : Session (Line ρ) => P s.link) (Session.onLink x) := by
  intro s holds
  have link := link_endState_onLink x s
  exact link ▸ stays s.link holds

omit h in
theorem stays_liftCodec {α : Type} {Q : Session (Line ρ) → Prop} (x : Except CodecError α) :
    Stays Q (Session.liftCodec x) := by
  cases x with
  | ok a => exact .pure a
  | error e => exact .throw _

theorem read_pass (n : Nat) {s : Session (Line ρ)} (holds : P (s.link.pass feeder)) :
    P (endState (Session.onLink ((Line.transport feeder).read n) s)).link := by
  rw [link_endState_onLink]
  exact h.read n holds

/-- What lasts and holds behind the first wait of a message that is received holds behind it. -/
theorem receive_pass {c : Codec} {s : Session (Line ρ)} (holds : P (s.link.pass feeder)) :
    P (endState (Session.receive c (Line.transport feeder) s)).link := by
  -- The body is read behind a second wait, unless it is empty.
  refine Stays.behind (P := fun s : Session (Line ρ) => P s.link) (h.read_pass _ holds)
    fun header => .bind (stays_liftCodec _) fun _ => ?_
  dsimp only
  split
  · exact .bind (.pure _) fun _ => .bind (stays_liftCodec _) fun _ =>
      .bind (.modify fun _ holds => holds) fun _ => .pure _
  · exact .bind (stays_onLink fun l holds => h.read _ (h.pass holds)) fun _ =>
      .bind (stays_liftCodec _) fun _ => .bind (.modify fun _ holds => holds) fun _ => .pure _

theorem receive (c : Codec) : Stays (fun s : Session (Line ρ) => P s.link)
    (Session.receive c (Line.transport feeder)) :=
  fun _ holds => h.receive_pass (h.pass holds)

theorem of_receive {c : Codec} {s s' : Session (Line ρ)} {m : Message}
    (done : Session.receive c (Line.transport feeder) s = .ok m s') (holds : P s.link) :
    P s'.link := by
  have lasts := h.receive c s holds
  rw [done] at lasts
  exact lasts

theorem send (c : Codec) (m : Message) : Stays (fun s : Session (Line ρ) => P s.link)
    (Session.send c (Line.transport feeder) m) :=
  .bind (stays_liftCodec _) fun frame => .bind (stays_onLink (h.write frame)) fun _ =>
    .modify fun _ holds => holds

/-! ## Consumers -/

section Consumer

variable {τ : Type} {consumer : Consumer.Setup (Line ρ) τ}
  (serves : consumer.transport = Line.transport feeder) {s : Streaming (Line ρ) τ}

include serves

theorem readerStep (holds : P s.session.link) : P (s.readerStep consumer).session.link := by
  have received := h.receive consumer.codec s.session holds
  rw [← serves] at received
  unfold Streaming.readerStep
  cases s.reader with
  | reading =>
    dsimp only
    unfold Streaming.read
    split
    · exact holds
    · split <;> simp_all [endState]
  | offering m =>
    dsimp only
    split
    · exact holds
    · split <;> exact holds
  | leaving | done => exact holds
  | _ =>
    dsimp only
    split <;> exact holds

theorem failReplay (holds : P s.session.link) (e : Consumer.ConnectionError) :
    P (s.failReplay consumer e).session.link := by
  have closed : (s.failReplay consumer e).session.link =
      s.session.link.setLink (s.session.link.link.close .opener) := by
    rw [Streaming.failReplay, serves]
    rfl
  exact closed ▸ h.setLink holds _

theorem replayerStep (holds : P s.session.link) (syncDue : Bool) :
    P (s.replayerStep consumer syncDue).session.link := by
  -- The replayer closes the link when it fails and sets a timeout when it is to shut down.
  unfold Streaming.replayerStep
  cases s.replayer with
  | polling =>
    dsimp only
    split <;> exact holds
  | polled m =>
    dsimp only
    unfold Streaming.consider
    split
    · exact holds
    · split
      · exact h.failReplay serves holds _
      · exact holds
      · exact holds
  | gathering m =>
    dsimp only
    unfold Streaming.replayGroup
    dsimp only
    split
    next e replay failed =>
      exact h.failReplay serves (s := { s with
        requests := (s.requests.drain (consumer.groupSize - 1)).2
        consumer := { s.consumer with replay } }) holds _
    next => exact holds
  | queueing acks shutdown =>
    cases acks with
    | nil =>
      cases shutdown with
      | none => exact holds
      | some time =>
        dsimp only [Session.setTimeout]
        rw [serves]
        exact h.setLink holds _
    | cons a rest =>
      dsimp only
      split
      · exact holds
      · split
        · exact h.failReplay serves holds _
        · exact holds
  | awaiting time =>
    dsimp only
    split
    · exact h.failReplay serves holds _
    · exact holds
  | done => exact holds

omit h serves in
theorem session_wrote (m : Message) : (s.wrote m).session = s.session := by
  cases m <;> rfl

theorem writerStep (holds : P s.session.link) : P (s.writerStep consumer).session.link := by
  unfold Streaming.writerStep
  cases s.writer with
  | polling =>
    dsimp only
    split <;> exact holds
  | writing acks =>
    cases acks with
    | nil => exact holds
    | cons a rest =>
      have sent := h.send consumer.codec
        (Consumer.firstResponse consumer.groupedAcks a rest).1 s.session holds
      rw [← serves] at sent
      dsimp only
      unfold Streaming.write
      dsimp only
      split
      next session done =>
        rw [done] at sent
        dsimp only
        rw [session_wrote]
        exact sent
      next e session failed =>
        rw [failed] at sent
        split
        · exact sent
        · dsimp only [Session.close]
          rw [serves]
          exact h.setLink sent _
  | _ => exact holds

/-- What lasts and holds of the line that a consumer reads from holds behind each move. -/
theorem step {t : Talk (Line ρ) τ} (holds : P t.streaming.session.link) (move : Move) :
    P (Serving.step feeder consumer t move).streaming.session.link := by
  cases move with
  | reader =>
    unfold Serving.step
    dsimp only
    split
    · exact holds
    · exact h.readerStep serves holds
  | replayer syncDue => exact h.replayerStep serves holds syncDue
  | writer => exact h.writerStep serves holds
  | feeder w => exact h.act holds w

end Consumer

end Lasting

end Replication.Serving
