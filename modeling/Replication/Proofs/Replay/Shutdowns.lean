import Replication.Proofs.Replay.Grouping

/-! # Shutdowns among the messages

A shutdown request leads to no call, and it changes nothing in the replayer.  All that
comes of it is one acknowledgment, and that stands behind those of the whole group.
-/

namespace Replication.Replay

open Replication.Stream (Message)

/-! ## The last request -/

def lastShutdown? (ms : List Message) : Option Int64 :=
  (ms.filterMap shutdown?).getLast?

variable {ms ms' : List Message}

theorem lastShutdown?_append (ms ms' : List Message) :
    lastShutdown? (ms ++ ms') = (lastShutdown? ms').or (lastShutdown? ms) := by
  rw [lastShutdown?, List.filterMap_append, List.getLast?_append]
  rfl

theorem lastShutdown?_eq_none : lastShutdown? ms = none ↔ ∀ m ∈ ms, shutdown? m = none := by
  rw [lastShutdown?, List.getLast?_eq_none_iff, List.filterMap_eq_nil_iff]

/-- A group asks for the last of the shutdowns that its messages ask for. -/
theorem foldl_shutdown? (time : Option Int64) (ms : List Message) :
    ms.foldl (fun time m => (shutdown? m).or time) time = (lastShutdown? ms).or time := by
  induction ms generalizing time with
  | nil => rfl
  | cons m rest ih =>
    rw [List.foldl_cons, ih, ← List.singleton_append, lastShutdown?_append, Option.or_assoc]
    congr 2
    rw [lastShutdown?, filterMap_cons_toList]
    cases shutdown? m <;> rfl

theorem lastShutdown?_request (before late : List Message) (time : Int64) :
    lastShutdown? (before ++ .shutdownRequest time :: late) =
      some ((lastShutdown? late).getD time) := by
  rw [lastShutdown?_append, ← List.singleton_append, lastShutdown?_append]
  cases lastShutdown? late <;> rfl

/-- The first of the requests, with what stands in front of it and behind it. -/
theorem exists_first_shutdown (asked : lastShutdown? ms ≠ none) :
    ∃ (before : List Message) (time : Int64) (late : List Message),
      ms = before ++ .shutdownRequest time :: late ∧ ∀ m ∈ before, shutdown? m = none := by
  obtain ⟨m, mem, request⟩ : ∃ m ∈ ms, shutdown? m ≠ none := by
    simpa [lastShutdown?_eq_none] using asked
  cases found : ms.find? fun m => (shutdown? m).isSome with
  | none =>
    have none := List.find?_eq_none.1 found m mem
    exact absurd (Option.isNone_iff_eq_none.1 (by simpa using none)) request
  | some m' =>
    obtain ⟨request', before, late, rfl, others⟩ := List.find?_eq_some_iff_append.1 found
    cases m' with
    | shutdownRequest time =>
      exact ⟨before, time, late, rfl, fun m mem => by simpa using others m mem⟩
    | _ => cases request'

/-! ## What is queued -/

namespace Replayer

variable {r r' : Replayer}

theorem Alike.highVlsn (h : r.Alike r') : r'.highVlsn = r.highVlsn :=
  congrArg (·.highVlsn) h.durableState

theorem Alike.ack (h : r.Alike r') (kind : Ack.Kind) (id : Int64) :
    r'.ack kind id = r.ack kind id := by
  obtain ⟨n, rfl⟩ := h
  rfl

/-- What is queued of messages that were taken as one group. -/
def items (r : Replayer) (ms : List Message) : List Ack :=
  r.allAnswers ms ++ (lastShutdown? ms).toList.map fun _ => (r.tookAll ms).ack .shutdown 0

theorem items_of_unasked (unasked : lastShutdown? ms = none) : r.items ms = r.allAnswers ms := by
  rw [items, unasked]
  exact List.append_nil _

/-- Messages that ask for no shutdown may be replayed in front of a group. -/
theorem items_append (unasked : lastShutdown? ms = none) :
    r.items (ms ++ ms') = r.items ms ++ (r.tookAll ms).items ms' := by
  rw [items_of_unasked unasked, items, items, lastShutdown?_append, unasked, Option.or_none,
    allAnswers_append, tookAll_append, List.append_assoc]

section Request

variable (r) (before late : List Message) (time : Int64)

/-- A shutdown request leaves no trace in the replayer. -/
theorem tookAll_request :
    r.tookAll (before ++ .shutdownRequest time :: late) = r.tookAll (before ++ late) := by
  rw [tookAll_append, tookAll_append]
  rfl

theorem allAnswers_request :
    r.allAnswers (before ++ .shutdownRequest time :: late) = r.allAnswers (before ++ late) := by
  rw [allAnswers_append, allAnswers_append]
  rfl

/-- Its acknowledgment stands behind those of all messages, wherever it stands among them. -/
theorem items_request :
    r.items (before ++ .shutdownRequest time :: late) =
      r.allAnswers (before ++ late) ++ [(r.tookAll (before ++ late)).ack .shutdown 0] := by
  rw [items, lastShutdown?_request, tookAll_request, allAnswers_request]
  rfl

end Request

end Replayer

theorem filterMap_call?_request (role : Role) (before late : List Message) (time : Int64) :
    (before ++ .shutdownRequest time :: late).filterMap (call? role) =
      (before ++ late).filterMap (call? role) := by
  have quiet : call? role (.shutdownRequest time) = none := by
    cases role <;> rfl
  rw [List.filterMap_append, List.filterMap_cons_none quiet, List.filterMap_append]

end Replication.Replay
