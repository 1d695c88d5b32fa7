import Replication.Feeder.Feeding
import Replication.Proofs.Computations

/-! # Loops that have ended

Neither loop moves the other one, and one that has ended stays so.
-/

namespace Replication.Feeder.Feeding

open Replication.Log (CommitLog Positioned)
open Replication.Stream (Message Session)

variable {σ ρ α : Type} {setup : Setup σ ρ} {s : Feeding σ ρ}

/-- Where the loops are, and the log, none of which a part of a move changes. -/
def loops (s : Feeding σ ρ) : OutputLoop × InputLoop × CommitLog :=
  (s.feeder.output, s.feeder.input, s.log)

theorem keeps_onSession (x : EStateM Stream.StreamError (Session σ) α) :
    Keeps (loops (ρ := ρ)) (onSession x) := by
  intro s
  unfold onSession
  split <;> rfl

theorem keeps_handshake : Keeps loops (handshake setup) := by
  refine .bind (keeps_onSession _) fun ⟨version, name, type⟩ => ?_
  dsimp only
  split
  · exact .bind (keeps_onSession _) fun _ => .bind (.throw _) fun _ =>
      .bind (.modify fun _ => rfl) fun _ => .bind (keeps_onSession _) fun _ => .modify fun _ => rfl
  · exact .bind (.modify fun _ => rfl) fun _ => .bind (keeps_onSession _) fun _ =>
      .modify fun _ => rfl

theorem keeps_request : Keeps loops (request setup) := by
  refine .bind .get fun s => ?_
  dsimp only
  split
  · exact .bind (keeps_onSession _) fun _ => .modify fun _ => rfl
  · exact .pure _

theorem keeps_beat (now : Int64) : Keeps loops (beat setup now) :=
  .bind .get fun _ => .bind (keeps_onSession _) fun _ => .modify fun _ => rfl

theorem keeps_fetch : Keeps (loops (σ := σ) (ρ := ρ)) fetch := by
  intro s
  unfold fetch
  dsimp only
  split <;> rfl

theorem keeps_ship (r : Positioned) : Keeps loops (ship setup r) := by
  refine .bind .get fun s => ?_
  dsimp only
  split
  · exact .bind (keeps_onSession _) fun _ => .bind (.modify fun _ => rfl) fun _ =>
      .modify fun _ => rfl
  · exact .modify fun _ => rfl

section Listening

variable {γ : Type} {view : Feeding σ ρ → γ}
  (told : ∀ s listener acks, view { s with listener, feeder := { s.feeder with acks } } = view s)

include told

theorem keeps_onListener (x : EStateM ListenerError ρ α) : Keeps view (onListener x) := by
  intro s
  unfold onListener
  cases x s.listener with
  | ok a listener => exact told s listener s.feeder.acks
  | error e listener => exact told s listener s.feeder.acks

/-- What is heard changes only the listener and the count of acknowledgments. -/
theorem keeps_listen (m : Message) : Keeps view (listen setup m) := by
  refine .bind .get fun s => ?_
  cases m with
  | heartbeatResponse id highVlsn dtvlsn => exact keeps_onListener told _
  | ack txn =>
    exact .bind (.modify fun s => told s s.listener _) fun _ => keeps_onListener told _
  | groupAck txns =>
    refine .bind (.modify fun s => told s s.listener _) fun _ => ?_
    induction txns with
    | nil => exact .pure _
    | cons txn rest ih => exact .bind (keeps_onListener told _) fun _ => ih
  | shutdownResponse => exact keeps_onListener told _
  | _ => exact .throw _

end Listening

theorem loops_fail (setup : Setup σ ρ) (s : Feeding σ ρ) (e : FeederError) :
    loops (s.fail setup e) = loops s := by
  unfold fail
  split <;> rfl

theorem outputMove_frame {x : EStateM FeederError (Feeding σ ρ) OutputLoop} (kept : Keeps loops x) :
    (s.outputMove setup x).feeder.input = s.feeder.input ∧ (s.outputMove setup x).log = s.log := by
  unfold outputMove
  split
  next done =>
    have same := kept.of_ok done
    exact ⟨congrArg (·.2.1) same, congrArg (·.2.2) same⟩
  next e s₁ failed =>
    have same := (loops_fail setup s₁ e).trans (kept.of_error failed)
    exact ⟨congrArg (·.2.1) same, congrArg (·.2.2) same⟩

theorem outputStep_frame (due : Bool) (now : Int64) :
    (s.outputStep setup due now).feeder.input = s.feeder.input ∧
      (s.outputStep setup due now).log = s.log := by
  unfold outputStep
  split
  · exact ⟨rfl, rfl⟩
  · exact ⟨rfl, rfl⟩
  · exact outputMove_frame (.bind (.modify fun _ => rfl) fun _ => .pure _)
  · exact outputMove_frame (.bind keeps_handshake fun _ => .pure _)
  · split
    · exact ⟨rfl, rfl⟩
    · exact outputMove_frame (.bind keeps_request fun _ => .pure _)
  · refine outputMove_frame ?_
    split
    · exact .bind (keeps_beat now) fun _ => .pure _
    · exact .pure _
  · refine outputMove_frame (.bind keeps_fetch fun r => ?_)
    cases r <;> exact .pure _
  · exact outputMove_frame (.bind (keeps_ship _) fun _ => .pure _)

theorem inputStep_frame :
    (s.inputStep setup).feeder.output = s.feeder.output ∧ (s.inputStep setup).log = s.log := by
  unfold inputStep
  split
  · exact ⟨rfl, rfl⟩
  · exact ⟨rfl, rfl⟩
  · split <;> exact ⟨rfl, rfl⟩
  · split
    · exact ⟨rfl, rfl⟩
    · have kept : Keeps loops (onSession (Session.receive setup.codec setup.transport) >>=
          listen setup) := .bind (keeps_onSession _) fun m => keeps_listen (fun _ _ _ => rfl) m
      dsimp only
      split
      next done =>
        have same := kept.of_ok done
        exact ⟨congrArg (·.1) same, congrArg (·.2.2) same⟩
      next e s₁ failed =>
        have same := (loops_fail setup s₁ e).trans (kept.of_error failed)
        exact ⟨congrArg (·.1) same, congrArg (·.2.2) same⟩

def Ended (s : Feeding σ ρ) : Prop :=
  s.feeder.output = .done ∨ s.feeder.input = .done

theorem Ended.outputStep (h : Ended s) (due : Bool) (now : Int64) :
    Ended (s.outputStep setup due now) := by
  rcases h with output | input
  · left
    rw [Feeding.outputStep, output]
    exact output
  · exact .inr ((outputStep_frame due now).1.trans input)

theorem Ended.inputStep (h : Ended s) : Ended (s.inputStep setup) := by
  rcases h with output | input
  · exact .inl (inputStep_frame.1.trans output)
  · right
    rw [Feeding.inputStep, input]
    exact input

end Replication.Feeder.Feeding
