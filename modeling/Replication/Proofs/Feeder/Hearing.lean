import Replication.Feeder.Feeding
import Replication.Proofs.Computations

/-! # What a feeder hears

The input loop tells the listener of each response that it takes off the link, in the order
of the stream: of a group as of single acknowledgments, one after the other.
-/

namespace Replication.Feeder

open Replication.Stream (Message)

/-! ## Responses -/

/-- What the listener is to be told of a message from the consumer of that name. -/
def noticesOf (name : Octets) : Message → List Notice
  | .heartbeatResponse id highVlsn dtvlsn => [.heartbeatResponse name id highVlsn dtvlsn]
  | .ack txn => [.ack name txn]
  | .groupAck txns => txns.map (.ack name)
  | _ => []

/-- Whether a message responds to the stream. -/
def isResponse : Message → Bool
  | .heartbeatResponse .. | .ack _ | .groupAck _ => true
  | _ => false

/-- Whether a listener takes every notification of a response. -/
structure Listener.Takes {ρ : Type} (l : Listener ρ) : Prop where
  heartbeatResponse : ∀ name id highVlsn dtvlsn r,
    ∃ r', l.heartbeatResponse name id highVlsn dtvlsn r = .ok () r'
  ack : ∀ name txn r, ∃ r', l.ack name txn r = .ok () r'

namespace Feeding

variable {σ ρ α : Type}

section Recorded

variable {x : EStateM ListenerError ρ Unit} {notice : Notice} {s s' : Feeding σ (ρ × List Notice)}

/-- Whether nothing but the listener and the count of acknowledgments has changed. -/
def Told (s s' : Feeding σ ρ) : Prop :=
  ∃ listener acks, s' = { s with listener, feeder := { s.feeder with acks } }

theorem Told.refl (s : Feeding σ ρ) : Told s s := ⟨s.listener, s.feeder.acks, rfl⟩

theorem Told.trans {s₁ s₂ s₃ : Feeding σ ρ} (first : Told s₁ s₂) (second : Told s₂ s₃) :
    Told s₁ s₃ := by
  obtain ⟨listener, acks, rfl⟩ := first
  obtain ⟨listener', acks', rfl⟩ := second
  exact ⟨listener', acks', rfl⟩

theorem told_count (n : Nat) (s : Feeding σ ρ) :
    Told s (s.update fun f => { f with acks := f.acks + n }) :=
  ⟨s.listener, s.feeder.acks + n, rfl⟩

theorem onListener_recorded_ok (done : onListener (notice.recorded x) s = .ok () s') :
    Told s s' ∧ s'.listener.2 = s.listener.2 ++ [notice] := by
  simp only [onListener, Notice.recorded] at done
  cases told : x s.listener.1 with
  | ok u r =>
    rw [told] at done
    cases done
    exact ⟨⟨_, s.feeder.acks, rfl⟩, rfl⟩
  | error e r =>
    rw [told] at done
    cases done

theorem onListener_recorded_total (takes : ∀ r, ∃ r', x r = .ok () r') (notice : Notice)
    (s : Feeding σ (ρ × List Notice)) :
    ∃ listener, onListener (notice.recorded x) s = .ok () { s with listener } ∧
      listener.2 = s.listener.2 ++ [notice] := by
  obtain ⟨r', told⟩ := takes s.listener.1
  simp only [onListener, Notice.recorded, told]
  exact ⟨_, rfl, rfl⟩

end Recorded

section Listening

variable {l : Listener ρ} {setup : Setup σ (ρ × List Notice)}
  (hears : setup.listener = l.recorded) {s s' : Feeding σ (ρ × List Notice)}

include hears

theorem forM_ack_ok {name : Octets} {txns : List Int64}
    (done : txns.forM (fun txn => onListener (setup.listener.ack name txn)) s = .ok () s') :
    Told s s' ∧ s'.listener.2 = s.listener.2 ++ txns.map (.ack name) := by
  induction txns generalizing s with
  | nil =>
    cases done
    exact ⟨.refl _, (List.append_nil _).symm⟩
  | cons txn rest ih =>
    obtain ⟨u, s₁, first, others⟩ := bind_eq_ok done
    rw [hears] at first
    obtain ⟨told, heard⟩ := onListener_recorded_ok first
    obtain ⟨told', heard'⟩ := ih others
    exact ⟨told.trans told', by rw [heard', heard, List.append_assoc]; rfl⟩

/-- The listener is told of the response and of nothing else. -/
theorem listen_ok {m : Message} (response : isResponse m = true)
    (done : listen setup m s = .ok () s') :
    Told s s' ∧ s'.listener.2 = s.listener.2 ++ noticesOf s.feeder.replicaName m := by
  rw [listen, get_bind] at done
  cases m with
  | heartbeatResponse id highVlsn dtvlsn =>
    dsimp only at done
    rw [hears] at done
    exact onListener_recorded_ok done
  | ack txn =>
    dsimp only at done
    rw [modify_bind, hears] at done
    obtain ⟨told, heard⟩ := onListener_recorded_ok done
    exact ⟨(told_count 1 s).trans told, heard⟩
  | groupAck txns =>
    dsimp only at done
    rw [modify_bind] at done
    obtain ⟨told, heard⟩ := forM_ack_ok hears done
    exact ⟨(told_count txns.length s).trans told, heard⟩
  | _ => cases response

theorem forM_ack_total (takes : l.Takes) (name : Octets) (txns : List Int64)
    (s : Feeding σ (ρ × List Notice)) :
    ∃ listener, txns.forM (fun txn => onListener (setup.listener.ack name txn)) s =
        .ok () { s with listener } ∧
      listener.2 = s.listener.2 ++ txns.map (.ack name) := by
  induction txns generalizing s with
  | nil => exact ⟨s.listener, rfl, (List.append_nil _).symm⟩
  | cons txn rest ih =>
    obtain ⟨listener, first, heard⟩ :=
      onListener_recorded_total (takes.ack name txn) (.ack name txn) s
    obtain ⟨listener', others, heard'⟩ := ih { s with listener }
    rw [hears]
    rw [hears] at others
    exact ⟨listener', (bind_eq_of_ok first).trans others,
      by rw [heard', heard, List.append_assoc]; rfl⟩

/-- A listener that takes every notification takes every response. -/
theorem listen_total (takes : l.Takes) {m : Message} (response : isResponse m = true)
    (s : Feeding σ (ρ × List Notice)) : ∃ s', listen setup m s = .ok () s' := by
  rw [listen, get_bind]
  cases m with
  | heartbeatResponse id highVlsn dtvlsn =>
    dsimp only
    rw [hears]
    obtain ⟨listener, told, -⟩ :=
      onListener_recorded_total (takes.heartbeatResponse _ _ _ _) _ s
    exact ⟨_, told⟩
  | ack txn =>
    dsimp only
    rw [modify_bind, hears]
    obtain ⟨listener, told, -⟩ := onListener_recorded_total (takes.ack _ _) _ _
    exact ⟨_, told⟩
  | groupAck txns =>
    dsimp only
    rw [modify_bind]
    obtain ⟨listener, told, -⟩ := forM_ack_total hears takes _ _ _
    exact ⟨_, told⟩
  | _ => cases response

end Listening

end Feeding

end Replication.Feeder
