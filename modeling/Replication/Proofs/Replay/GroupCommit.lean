import Replication.Proofs.Replay.Recording

/-! # Group commit

A group is acknowledged once it is durable, and no sooner: the store is asked for its
records, in their order, and then for one write, which covers all that is acknowledged.
-/

namespace Replication.Replay

open Replication.Stream (Commit Message)

/-! ## Watermarks -/

namespace Replayer

variable {r : Replayer} {m : Message} {ms : List Message}

theorem le_highVlsn_raise (r : Replayer) (vlsn : Int64) : r.highVlsn ≤ (r.raise vlsn).highVlsn := by
  unfold raise
  split
  next less => exact Int64.le_of_lt less
  next => exact Int64.le_refl _

theorem le_raise (r : Replayer) (vlsn : Int64) : vlsn ≤ (r.raise vlsn).highVlsn := by
  unfold raise
  split
  next => exact Int64.le_refl _
  next le => exact Int64.not_lt.1 le

theorem highVlsn_le_took (r : Replayer) (m : Message) : r.highVlsn ≤ (r.took m).highVlsn := by
  cases m with
  | commit c => exact r.le_highVlsn_raise c.vlsn
  | entry e => exact r.le_highVlsn_raise e.vlsn
  | _ => exact Int64.le_refl _

/-- The dtvlsn does not fall at a message that is taken: an arbiter keeps the largest, and a
    replica would have refused a smaller one. -/
theorem dtvlsn_le_took (accepted : r.refusal? m = none) : r.dtvlsn ≤ (r.took m).dtvlsn := by
  rw [dtvlsn_took]
  cases m with
  | commit c =>
    cases role : r.role with
    | arbiter =>
      dsimp only [dtvlsnAfter]
      rw [← State.ite_lt_eq_max]
      split
      next less => exact Int64.le_of_lt less
      next => exact Int64.le_refl _
    | replica =>
      simp only [refusal?, role] at accepted
      split at accepted
      · cases accepted
      next ordered => exact Int64.not_lt.1 ordered
  | _ => exact Int64.le_refl _

theorem highVlsn_le_tookAll (r : Replayer) (ms : List Message) :
    r.highVlsn ≤ (r.tookAll ms).highVlsn := by
  induction ms generalizing r with
  | nil => exact Int64.le_refl _
  | cons m rest ih => exact Int64.le_trans (r.highVlsn_le_took m) (ih _)

theorem dtvlsn_le_tookAll (accepted : r.refused? ms = none) :
    r.dtvlsn ≤ (r.tookAll ms).dtvlsn := by
  induction ms generalizing r with
  | nil => exact Int64.le_refl _
  | cons m rest ih =>
    obtain ⟨first, others⟩ := refused?_cons_eq_none.1 accepted
    exact Int64.le_trans (dtvlsn_le_took first) (ih others)

/-- What is acknowledged along the way is not beyond the watermarks at the end. -/
theorem allAnswers_le (accepted : r.refused? ms = none) {a : Ack} (mem : a ∈ r.allAnswers ms) :
    a.highVlsn ≤ (r.tookAll ms).highVlsn ∧ a.dtvlsn ≤ (r.tookAll ms).dtvlsn := by
  induction ms generalizing r with
  | nil => cases mem
  | cons m rest ih =>
    obtain ⟨first, others⟩ := refused?_cons_eq_none.1 accepted
    rcases List.mem_append.1 mem with now | later
    · -- The watermarks at that moment, which the rest of the group only raises.
      obtain ⟨reply, -, rfl⟩ := List.mem_map.1 now
      have marks : ((r.took m).answer reply).highVlsn = (r.took m).highVlsn ∧
          ((r.took m).answer reply).dtvlsn = (r.took m).dtvlsn := by
        cases reply <;> exact ⟨rfl, rfl⟩
      rw [marks.1, marks.2]
      exact ⟨highVlsn_le_tookAll _ rest, dtvlsn_le_tookAll others⟩
    · exact ih others later

theorem vlsn_le_tookAll {c : Commit} (mem : .commit c ∈ ms) :
    c.vlsn ≤ (r.tookAll ms).highVlsn := by
  induction ms generalizing r with
  | nil => cases mem
  | cons m rest ih =>
    rcases List.mem_cons.1 mem with rfl | mem
    · exact Int64.le_trans (r.le_raise c.vlsn) (highVlsn_le_tookAll _ rest)
    · exact ih mem

end Replayer

/-! ## What a group comes to -/

namespace State

variable {σ : Type}

/-- What holds when a group has been replayed, and made durable by a write of `state`. -/
structure Committed (st : Store σ) (group : List Message) (s s' : State (σ × List StoreCall))
    (g : GroupResult) (state : DurableState) (sync : Bool) : Prop where
  accepted : s.replayer.refused? group = none
  /-- The store was asked for the records, and then for one write. -/
  asked : s'.store.2 = s.store.2 ++ (group.filterMap (call? s.replayer.role) ++ [.write state sync])
  carried : st.carryOut (group.filterMap (call? s.replayer.role) ++ [.write state sync])
    s.store.1 = .ok () s'.store.1
  final : state = s'.replayer.durableState
  /-- What is acknowledged is what is due, in the order of the messages. -/
  replies : g.acks.map (·.reply?) = (group.filterMap (due s.replayer.role)).map some
  behind : ∀ a ∈ g.acks, a.highVlsn ≤ state.highVlsn ∧ a.dtvlsn ≤ state.dtvlsn
  covered : ∀ c, .commit c ∈ group → (due s.replayer.role (.commit c)).isSome →
    c.vlsn ≤ state.highVlsn
  forced : ∀ c, .commit c ∈ group → c.sync = .sync → sync = true

/-- Why a group has not been replayed, and what the store was asked for until then. -/
inductive Thrown (st : Store σ) (syncDue : Bool) (group : List Message)
    (s s' : State (σ × List StoreCall)) : ReplayError → Prop where
  | refused {n : Nat} {e : ReplayError} (refused : s.replayer.refused? group = some (n, e))
    (asked : s'.store.2 = s.store.2 ++ (group.take n).filterMap (call? s.replayer.role))
    (carried : st.carryOut ((group.take n).filterMap (call? s.replayer.role)) s.store.1 =
      .ok () s'.store.1) : Thrown st syncDue group s s' e
  | failed {calls : List StoreCall} {e : StoreError} (asked : s'.store.2 = s.store.2 ++ calls)
    (order : calls <+: group.filterMap (call? s.replayer.role) ++
      [.write (s.replayer.tookAll group).durableState (group.any wantsSync || syncDue)])
    (failed : st.carryOut calls s.store.1 = .error e s'.store.1) :
    Thrown st syncDue group s s' (.store e)

variable {st : Store σ} {s s' : State (σ × List StoreCall)} {group : List Message} {syncDue : Bool}

theorem committed_of_replayGroup {g : GroupResult}
    (done : replayGroup st.recorded syncDue group s = .ok g s') :
    ∃ state sync, Committed st group s s' g state sync := by
  obtain ⟨accepted, result, replayer, carried⟩ := replayGroup_ok done
  obtain ⟨carried, asked⟩ := Store.carryOut_recorded_ok carried
  have acks : g.acks = s.replayer.allAnswers group := by
    rw [result]
    rfl
  have synced : g.synced = (group.any wantsSync || syncDue) := by rw [result]
  refine ⟨_, _, accepted, asked, carried, ?_, replies_replayGroup done, ?_, ?_, ?_⟩
  · rw [replayer]
    rfl
  · intro a mem
    rw [acks] at mem
    exact Replayer.allAnswers_le accepted mem
  · intro c mem _
    exact Replayer.vlsn_le_tookAll mem
  · intro c mem sync
    have wanted : group.any wantsSync = true :=
      List.any_eq_true.2 ⟨_, mem, decide_eq_true sync⟩
    rw [synced, wanted, Bool.true_or]

theorem thrown_of_calls {calls : List StoreCall} {e : StoreError}
    (order : calls <+: group.filterMap (call? s.replayer.role) ++
      [.write (s.replayer.tookAll group).durableState (group.any wantsSync || syncDue)])
    (failed : st.recorded.carryOut calls s.store = .error e s'.store) :
    Thrown st syncDue group s s' (.store e) := by
  obtain ⟨n, -, broke, asked⟩ := Store.carryOut_recorded_error failed
  exact .failed asked ((List.take_prefix _ _).trans order) broke

theorem thrown_of_replayGroup {e : ReplayError}
    (failed : replayGroup st.recorded syncDue group s = .error e s') :
    Thrown st syncDue group s s' e := by
  rcases replayGroup_error failed with ⟨n, stopped⟩ | ⟨e', rfl, -, broke⟩
  · cases stopped with
    | refused there refused replayer done =>
      obtain ⟨carried, asked⟩ := Store.carryOut_recorded_ok done
      exact .refused refused asked carried
    | failed there replayer broke =>
      refine thrown_of_calls ?_ broke
      exact ((List.take_prefix _ _).filterMap _).trans (List.prefix_append _ _)
  · exact thrown_of_calls (List.prefix_refl _) broke

/-- A group that is replayed has been made durable with all that it acknowledges, by one
    write behind its records.  If a message is refused or the store fails, the group comes
    to an error, and nothing is acknowledged. -/
theorem replayGroup_commits (st : Store σ) (syncDue : Bool) (group : List Message)
    (s : State (σ × List StoreCall)) :
    match replayGroup st.recorded syncDue group s with
    | .ok g s' => ∃ state sync, Committed st group s s' g state sync
    | .error e s' => Thrown st syncDue group s s' e := by
  split
  next done => exact committed_of_replayGroup done
  next failed => exact thrown_of_replayGroup failed

end State

end Replication.Replay
