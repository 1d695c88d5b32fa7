import Replication.Proofs.Replay.Course

/-! # What a store is asked for

A replica hands each record of a group to its store, in the order of the group, and an
arbiter hands it none.  The dtvlsn follows from the messages alone.
-/

namespace Replication.Replay

open Replication.Stream (Commit Entry Message)

/-! ## Calls -/

/-- The calls that hand a record to the store. -/
def handed (calls : List StoreCall) : List StoreCall :=
  calls.filter fun call => call.kind = .entry ∨ call.kind = .commit

theorem handed_append (calls calls' : List StoreCall) :
    handed (calls ++ calls') = handed calls ++ handed calls' :=
  List.filter_append ..

@[simp] theorem handed_write (state : DurableState) (sync : Bool) :
    handed [.write state sync] = [] := rfl

/-- A message leads to a call that hands a record over. -/
theorem kind_of_call? {role : Role} {m : Message} {call : StoreCall}
    (called : call? role m = some call) : call.kind = .entry ∨ call.kind = .commit := by
  cases role <;> cases m <;> cases called
  · exact .inl rfl
  · exact .inr rfl

@[simp] theorem handed_calls (role : Role) (ms : List Message) :
    handed (ms.filterMap (call? role)) = ms.filterMap (call? role) := by
  refine List.filter_eq_self.2 fun call mem => ?_
  obtain ⟨m, -, called⟩ := List.mem_filterMap.1 mem
  exact decide_eq_true (kind_of_call? called)

/-! ## Recorded stores -/

namespace Store

variable {σ : Type} {st : Store σ} {calls : List StoreCall} {t t' : σ × List StoreCall}

theorem perform_recorded (st : Store σ) (call : StoreCall) (t : σ × List StoreCall) :
    st.recorded.perform call t = call.recorded (st.perform call) t := by
  cases call with
  | load =>
    simp only [perform, Store.recorded, StoreCall.recorded, bind, EStateM.bind]
    cases st.load t.1 <;> rfl
  | _ => rfl

/-- Calls that are carried out are recorded, all of them. -/
theorem carryOut_recorded_ok (done : st.recorded.carryOut calls t = .ok () t') :
    st.carryOut calls t.1 = .ok () t'.1 ∧ t'.2 = t.2 ++ calls := by
  induction calls generalizing t with
  | nil =>
    cases done
    exact ⟨rfl, (List.append_nil _).symm⟩
  | cons call calls ih =>
    obtain ⟨_, t₁, first, others⟩ := bind_eq_ok done
    rw [perform_recorded, StoreCall.recorded] at first
    obtain ⟨carried, recorded⟩ := ih others
    cases performed : st.perform call t.1 with
    | ok u a =>
      rw [performed] at first
      cases first
      refine ⟨?_, ?_⟩
      · rw [carryOut, bind_eq_of_ok performed]
        exact carried
      · rw [recorded, List.append_assoc, List.singleton_append]
    | error e a =>
      rw [performed] at first
      cases first

/-- Otherwise the calls are recorded up to the one that fails. -/
theorem carryOut_recorded_error {e : StoreError}
    (failed : st.recorded.carryOut calls t = .error e t') :
    ∃ n < calls.length, st.carryOut (calls.take (n + 1)) t.1 = .error e t'.1 ∧
      t'.2 = t.2 ++ calls.take (n + 1) := by
  induction calls generalizing t with
  | nil => cases failed
  | cons call calls ih =>
    have first : st.recorded.perform call t = _ := perform_recorded st call t
    rw [StoreCall.recorded] at first
    cases performed : st.perform call t.1 with
    | ok u a =>
      rw [performed] at first
      -- The first call is carried out, so a later one fails.
      rw [carryOut, bind_eq_of_ok first] at failed
      obtain ⟨n, less, broke, recorded⟩ := ih failed
      refine ⟨n + 1, Nat.succ_lt_succ less, ?_, ?_⟩
      · rw [List.take_succ_cons, carryOut, bind_eq_of_ok performed]
        exact broke
      · rw [recorded, List.take_succ_cons, List.append_assoc, List.singleton_append]
    | error e' a =>
      rw [performed] at first
      rw [carryOut, bind_eq_of_error first] at failed
      cases failed
      refine ⟨0, Nat.succ_pos _, ?_, rfl⟩
      rw [List.take_succ_cons, carryOut, bind_eq_of_error performed]

end Store

namespace State

variable {σ : Type} {st : Store σ} {s s' : State (σ × List StoreCall)} {group : List Message}

/-- At the start the durable state is loaded, and nothing is handed over. -/
theorem loaded_of_start {masterId : Int32} (done : start st.recorded masterId s = .ok () s') :
    ∃ loaded stored, st.load s.store.1 = .ok loaded stored ∧
      s'.replayer.dtvlsn = loaded.dtvlsn ∧ handed s'.store.2 = handed s.store.2 := by
  obtain ⟨loaded, s₁, load, done⟩ := bind_eq_ok done
  cases done
  unfold onStore Store.recorded StoreCall.recorded at load
  dsimp only at load
  cases held : st.load s.store.1 with
  | ok loaded' stored =>
    rw [held] at load
    cases load
    exact ⟨loaded, stored, rfl, rfl, (handed_append _ _).trans (List.append_nil _)⟩
  | error e stored =>
    rw [held] at load
    cases load

/-- A group that is replayed hands its records to the store and moves the dtvlsn on. -/
theorem handed_of_replayGroup {syncDue : Bool} {g : GroupResult}
    (done : replayGroup st.recorded syncDue group s = .ok g s') :
    handed s'.store.2 = handed s.store.2 ++ group.filterMap (call? s.replayer.role) ∧
      s'.replayer.dtvlsn = group.foldl (dtvlsnAfter s.replayer.role) s.replayer.dtvlsn := by
  obtain ⟨-, -, replayer, carried⟩ := replayGroup_ok done
  obtain ⟨-, recorded⟩ := Store.carryOut_recorded_ok carried
  rw [recorded, handed_append, handed_append, handed_calls, handed_write, replayer]
  exact ⟨by rw [List.append_nil], Replayer.dtvlsn_tookAll _ _⟩

end State

/-! ## Groups that can be replayed -/

/-- Whether a consumer in a role, with that dtvlsn, has no reason to refuse messages: a
    replica none that tells a smaller dtvlsn, an arbiter none that is no commit. -/
def Admits (role : Role) (dtvlsn : Int64) : List Message → Prop
  | [] => True
  | m :: rest =>
    (match m, role with
      | .heartbeat .., _ => True
      | .entry _, .replica => True
      | .commit c, .replica => dtvlsn ≤ c.effectiveDtvlsn
      | .commit _, .arbiter => True
      | _, _ => False) ∧ Admits role (dtvlsnAfter role dtvlsn m) rest

theorem admits_append {role : Role} {dtvlsn : Int64} {ms ms' : List Message} :
    Admits role dtvlsn (ms ++ ms') ↔
      Admits role dtvlsn ms ∧ Admits role (ms.foldl (dtvlsnAfter role) dtvlsn) ms' := by
  induction ms generalizing dtvlsn with
  | nil => simp [Admits]
  | cons m rest ih => simp only [List.cons_append, Admits, ih, List.foldl_cons, and_assoc]

theorem refusal?_of_admits {r : Replayer} {m : Message} (h : Admits r.role r.dtvlsn [m]) :
    r.refusal? m = none := by
  obtain ⟨admits, -⟩ := h
  cases role : r.role <;> cases m <;> simp_all [Replayer.refusal?, Int64.not_lt]

theorem refused?_of_admits {r : Replayer} {ms : List Message} (h : Admits r.role r.dtvlsn ms) :
    r.refused? ms = none := by
  induction ms generalizing r with
  | nil => rfl
  | cons m rest ih =>
    have others := h.2
    rw [← Replayer.dtvlsn_took, ← r.role_took m] at others
    rw [Replayer.refused?, refusal?_of_admits ⟨h.1, trivial⟩, ih others]
    rfl

/-- Whether a store carries out all that a replayer asks for. -/
structure Store.Works {σ : Type} (st : Store σ) : Prop where
  entry : ∀ e a, ∃ a', st.replayEntry e a = .ok () a'
  commit : ∀ c a, ∃ a', st.replayCommit c a = .ok () a'
  write : ∀ state sync a, ∃ a', st.writeDurable state sync a = .ok () a'

theorem recorded_total {σ : Type} {x : EStateM StoreError σ Unit}
    (works : ∀ a, ∃ a', x a = .ok () a') (call : StoreCall) (t : σ × List StoreCall) :
    ∃ t', call.recorded x t = .ok () t' := by
  obtain ⟨a', done⟩ := works t.1
  refine ⟨(a', t.2 ++ [call]), ?_⟩
  unfold StoreCall.recorded
  dsimp only
  rw [done]

theorem Store.Works.recorded {σ : Type} {st : Store σ} (h : st.Works) : st.recorded.Works :=
  ⟨fun e => recorded_total (h.entry e) _, fun c => recorded_total (h.commit c) _,
    fun state sync => recorded_total (h.write state sync) _⟩

theorem Store.Works.carryOut {σ : Type} {st : Store σ} (h : st.Works) {calls : List StoreCall}
    (unloading : ∀ call ∈ calls, call ≠ .load) (a : σ) : ∃ a', st.carryOut calls a = .ok () a' := by
  induction calls generalizing a with
  | nil => exact ⟨a, rfl⟩
  | cons call calls ih =>
    have first : ∃ a₁, st.perform call a = .ok () a₁ := by
      cases call with
      | load => exact absurd rfl (unloading _ List.mem_cons_self)
      | entry e => exact h.entry e a
      | commit c => exact h.commit c a
      | write state sync => exact h.write state sync a
    obtain ⟨a₁, performed⟩ := first
    rw [Store.carryOut, bind_eq_of_ok performed]
    exact ih (fun call mem => unloading call (List.mem_cons_of_mem _ mem)) a₁

theorem load_not_mem_calls (role : Role) (ms : List Message) :
    ∀ call ∈ ms.filterMap (call? role), call ≠ .load := by
  rintro _ mem rfl
  obtain ⟨m, -, called⟩ := List.mem_filterMap.1 mem
  rcases kind_of_call? called with kind | kind <;> cases kind

namespace State

variable {σ : Type} {st : Store σ} {s s' : State σ} {group : List Message}

section Works

variable (works : st.Works)

include works

/-- Where the store works, replaying stops at a message that is refused, and not before. -/
theorem Stopped.refused_of_works {n : Nat} {e : ReplayError} (stopped : Stopped st s s' group n e) :
    s.replayer.refused? group = some (n, e) := by
  cases stopped with
  | refused there refused replayer done => exact refused
  | failed there replayer failed =>
    obtain ⟨a', done⟩ := works.carryOut (load_not_mem_calls _ _) s.store
    cases done.symm.trans failed

theorem refused_of_replayGroup_error {syncDue : Bool} {e : ReplayError}
    (failed : replayGroup st syncDue group s = .error e s') :
    ∃ n, Stopped st s s' group n e := by
  rcases replayGroup_error failed with stopped | ⟨e', -, -, failed⟩
  · exact stopped
  · have unloading : ∀ call ∈ group.filterMap (call? s.replayer.role) ++
        [.write (s.replayer.tookAll group).durableState (group.any wantsSync || syncDue)],
          call ≠ .load := by
      intro call mem
      rcases List.mem_append.1 mem with mem | mem
      · exact load_not_mem_calls _ _ call mem
      · obtain rfl := List.mem_singleton.1 mem
        nofun
    obtain ⟨a', done⟩ := works.carryOut unloading s.store
    cases done.symm.trans failed

/-- A group that there is no reason to refuse is replayed. -/
theorem replayGroup_total (admits : Admits s.replayer.role s.replayer.dtvlsn group)
    (syncDue : Bool) : ∃ g s', replayGroup st syncDue group s = .ok g s' := by
  cases done : replayGroup st syncDue group s with
  | ok g s' => exact ⟨g, s', rfl⟩
  | error e s' =>
    obtain ⟨n, stopped⟩ := refused_of_replayGroup_error works done
    cases (stopped.refused_of_works works).symm.trans (refused?_of_admits admits)

end Works

end State

end Replication.Replay
