import Replication.Proofs.Replay.Watermarks

/-! # What the highest position counts

A replica raises its highest position to the records that its store is handed.  But it notes
where a commit stands before it looks at the dtvlsn, so a commit that it refuses counts as
well, although the store never hears of it.
-/

namespace Replication.Replay

open Replication.Stream (Commit Message)

/-! ## Positions -/

/-- The position of the record that a call hands over. -/
def StoreCall.vlsn? : StoreCall → Option Int64
  | .entry e => some e.vlsn
  | .commit c => some c.vlsn
  | _ => none

/-- The position of the commit that was refused, if the dtvlsn would have fallen with it. -/
def ReplayError.vlsn? : ReplayError → Option Int64
  | .dtvlsnRegressed _ _ vlsn => some vlsn
  | _ => none

/-- The position of the commit whose refusal has ended a computation. -/
def refusedAt? {σ α : Type} : EStateM.Result ReplayError σ α → Option Int64
  | .ok _ _ => none
  | .error e _ => e.vlsn?

namespace Replayer

variable {r : Replayer} {m : Message} {e : ReplayError} {v : Int64}

theorem highVlsn_raise_cases (r : Replayer) (vlsn : Int64) :
    (r.raise vlsn).highVlsn = r.highVlsn ∨ (r.raise vlsn).highVlsn = vlsn := by
  rw [highVlsn_raise]
  split
  · exact .inr rfl
  · exact .inl rfl

@[simp] theorem role_met (r : Replayer) (m : Message) : (r.met m).role = r.role := by
  cases m with
  | commit c => exact r.role_raise c.vlsn
  | _ => rfl

/-- Only a commit is refused for its dtvlsn. -/
theorem commit_of_refusal (refused : r.refusal? m = some e) (regressed : e.vlsn? = some v) :
    ∃ c, m = .commit c ∧ c.vlsn = v := by
  cases m with
  | commit c =>
    refine ⟨c, rfl, ?_⟩
    cases role : r.role with
    | arbiter => simp [refusal?, role] at refused
    | replica =>
      simp only [refusal?, role] at refused
      split at refused
      · cases refused
        exact Option.some.inj regressed
      · cases refused
  | entry e' =>
    cases role : r.role <;> simp only [refusal?, role] at refused <;> cases refused
    cases regressed
  | heartbeat | shutdownRequest => cases refused
  | _ =>
    cases refused
    cases regressed

section Replica

variable (replica : r.role = .replica)

include replica

/-- The commit that a replica refuses is the only message that it has noted and not handed
    over. -/
theorem highVlsn_met_of_refusal (refused : r.refusal? m = some e) :
    (r.met m).highVlsn = r.highVlsn ∨ e.vlsn? = some (r.met m).highVlsn := by
  cases m with
  | commit c =>
    refine (r.highVlsn_raise_cases c.vlsn).imp_right fun raised => ?_
    simp only [refusal?, replica] at refused
    split at refused
    · cases refused
      exact congrArg some raised.symm
    · cases refused
  | _ => exact .inl rfl

/-- A replica that has met a message which it does not refuse counts no more than what the
    message hands over. -/
theorem highVlsn_met_of_accepted (m : Message) : (r.met m).highVlsn = r.highVlsn ∨
    (r.met m).highVlsn ∈ (call? r.role m).toList.filterMap (·.vlsn?) := by
  cases m with
  | commit c =>
    rw [replica]
    exact (r.highVlsn_raise_cases c.vlsn).imp_right fun raised =>
      List.mem_singleton.2 raised
  | _ => exact .inl rfl

theorem highVlsn_took_of_replica (m : Message) : (r.took m).highVlsn = r.highVlsn ∨
    (r.took m).highVlsn ∈ (call? r.role m).toList.filterMap (·.vlsn?) := by
  cases m with
  | commit c => exact highVlsn_met_of_accepted replica (.commit c)
  | entry e =>
    rw [replica]
    exact (r.highVlsn_raise_cases e.vlsn).imp_right fun raised => List.mem_singleton.2 raised
  | _ => exact .inl rfl

end Replica

theorem highVlsn_le_met (r : Replayer) (m : Message) : r.highVlsn ≤ (r.met m).highVlsn :=
  (r.within_met m).1

/-- A message that is refused among others is refused by the replayer that has taken those in
    front of it. -/
theorem refusal?_of_refused? {ms : List Message} {n : Nat} (refused : r.refused? ms = some (n, e)) :
    ∃ before m after, ms = before ++ m :: after ∧ before = ms.take n ∧
      (r.tookAll before).refusal? m = some e := by
  induction ms generalizing r n with
  | nil => cases refused
  | cons m rest ih =>
    rw [refused?] at refused
    cases refusal : r.refusal? m with
    | some e' =>
      rw [refusal] at refused
      cases refused
      exact ⟨[], m, rest, rfl, rfl, refusal⟩
    | none =>
      rw [refusal] at refused
      obtain ⟨⟨n', e'⟩, later, same⟩ := Option.map_eq_some_iff.1 refused
      cases same
      obtain ⟨before, m', after, rfl, front, refused'⟩ := ih later
      refine ⟨m :: before, m', after, rfl, ?_, refused'⟩
      rw [List.take_succ_cons, ← front]

end Replayer

/-! ## Where the highest position comes from -/

variable {σ α β : Type} {st : Store σ}

namespace State

/-- How a computation leaves the highest position of a replayer: not lower than before, nor
    than the commit whose refusal has ended it; and if it is another one, it is that of a
    record that the store was handed meanwhile, or of that commit. -/
structure Raised (s : State (σ × List StoreCall))
    (r : EStateM.Result ReplayError (State (σ × List StoreCall)) α) : Prop where
  role : (endState r).replayer.role = s.replayer.role
  forward : s.replayer.highVlsn ≤ (endState r).replayer.highVlsn
  refused : ∀ v, refusedAt? r = some v → v ≤ (endState r).replayer.highVlsn
  origin : ∃ calls, (endState r).store.2 = s.store.2 ++ calls ∧
    ((endState r).replayer.highVlsn = s.replayer.highVlsn ∨
      (endState r).replayer.highVlsn ∈ calls.filterMap (·.vlsn?) ∨
      refusedAt? r = some (endState r).replayer.highVlsn)

namespace Raised

variable {s : State (σ × List StoreCall)}

/-- A computation that refuses nothing may call the store, as long as it leaves the highest
    position alone. -/
theorem of_same {r : EStateM.Result ReplayError (State (σ × List StoreCall)) α}
    {calls : List StoreCall} (role : (endState r).replayer.role = s.replayer.role)
    (high : (endState r).replayer.highVlsn = s.replayer.highVlsn)
    (asked : (endState r).store.2 = s.store.2 ++ calls) (unrefused : refusedAt? r = none) :
    Raised s r := by
  refine ⟨role, Int64.le_of_eq high.symm, fun v refused => ?_, calls, asked, .inl high⟩
  cases unrefused.symm.trans refused

theorem pure (a : α) : Raised s (EStateM.Result.ok a s : EStateM.Result ReplayError _ α) :=
  of_same rfl rfl (List.append_nil _).symm rfl

theorem bind {x : EStateM ReplayError (State (σ × List StoreCall)) α}
    {f : α → EStateM ReplayError (State (σ × List StoreCall)) β} (first : Raised s (x s))
    (next : ∀ a s₁, x s = .ok a s₁ → Raised s₁ (f a s₁)) : Raised s ((x >>= f) s) := by
  cases done : x s with
  | error e s₁ =>
    rw [bind_eq_of_error done]
    rw [done] at first
    exact ⟨first.role, first.forward, first.refused, first.origin⟩
  | ok a s₁ =>
    rw [bind_eq_of_ok done]
    have second := next a s₁ done
    rw [done] at first
    obtain ⟨calls, asked, source⟩ := first.origin
    obtain ⟨calls', asked', source'⟩ := second.origin
    refine ⟨second.role.trans first.role, Int64.le_trans first.forward second.forward,
      second.refused, calls ++ calls', ?_, ?_⟩
    · rw [asked', ← List.append_assoc]
      exact congrArg (· ++ calls') asked
    · rw [List.filterMap_append, List.mem_append]
      rcases source' with same | handed | refused
      · -- What was not raised by the second part is where the first part left it.
        rw [same]
        rcases source with same | handed | refused
        · exact .inl same
        · exact .inr (.inl (.inl handed))
        · cases refused
      · exact .inr (.inl (.inr handed))
      · exact .inr (.inr refused)

end Raised

variable {s : State (σ × List StoreCall)}

theorem raised_replayMessage (replica : s.replayer.role = .replica) (g : GroupResult)
    (m : Message) : Raised s (replayMessage st.recorded g m s) := by
  cases refusal : s.replayer.refusal? m with
  | some e =>
    rw [replayMessage_of_refusal st.recorded g s refusal]
    refine ⟨s.replayer.role_met m, s.replayer.highVlsn_le_met m, fun v refused => ?_, [],
      (List.append_nil _).symm, ?_⟩
    · obtain ⟨c, rfl, rfl⟩ := Replayer.commit_of_refusal refusal refused
      exact s.replayer.le_raise c.vlsn
    · exact (Replayer.highVlsn_met_of_refusal replica refusal).imp_right .inr
  | none =>
    rw [replayMessage_of_accepted st.recorded g s refusal]
    cases carried : st.recorded.carryOut (call? s.replayer.role m).toList s.store with
    | ok u store =>
      exact ⟨s.replayer.role_took m, s.replayer.highVlsn_le_took m, nofun, _,
        (Store.carryOut_recorded_ok carried).2,
        (Replayer.highVlsn_took_of_replica replica m).imp_right .inl⟩
    | error e store =>
      -- The only call of the message was made, whatever became of it.
      have asked : store.2 = s.store.2 ++ (call? s.replayer.role m).toList := by
        obtain ⟨n, -, -, asked⟩ := Store.carryOut_recorded_error carried
        rw [asked]
        cases call? s.replayer.role m <;> simp
      exact ⟨s.replayer.role_met m, s.replayer.highVlsn_le_met m, nofun, _, asked,
        (Replayer.highVlsn_met_of_accepted replica m).imp_right .inl⟩

theorem raised_foldlM (replica : s.replayer.role = .replica) (group : List Message)
    (g : GroupResult) : Raised s (group.foldlM (replayMessage st.recorded) g s) := by
  induction group generalizing g s with
  | nil => exact .pure g
  | cons m rest ih =>
    rw [List.foldlM_cons]
    have first : Raised s (replayMessage st.recorded g m s) := raised_replayMessage replica g m
    refine first.bind fun g₁ s₁ done => ih ?_ g₁
    have role := first.role
    rw [done] at role
    exact role.trans replica

/-- The write behind a group leaves the highest position alone. -/
theorem raised_onStore_write (state : DurableState) (sync : Bool) :
    Raised s (onStore (st.recorded.writeDurable state sync) s) := by
  have asked : ∃ r, onStore (st.recorded.writeDurable state sync) s = r ∧
      (endState r).replayer = s.replayer ∧
      (endState r).store.2 = s.store.2 ++ [.write state sync] ∧ refusedAt? r = none := by
    refine ⟨_, rfl, ?_⟩
    unfold onStore Store.recorded StoreCall.recorded
    dsimp only
    cases st.writeDurable state sync s.store.1 with
    | ok u a => exact ⟨rfl, rfl, rfl⟩
    | error e a => exact ⟨rfl, rfl, rfl⟩
  obtain ⟨r, same, replayer, asked, unrefused⟩ := asked
  rw [same]
  exact .of_same (by rw [replayer]) (by rw [replayer]) asked unrefused

theorem raised_replayGroup (replica : s.replayer.role = .replica) (syncDue : Bool)
    (group : List Message) : Raised s (replayGroup st.recorded syncDue group s) := by
  refine (raised_foldlM replica group {}).bind fun g s₁ _ => ?_
  rw [get_bind]
  refine (raised_onStore_write _ _).bind fun _ s₂ _ => ?_
  dsimp only
  split
  all_goals exact .of_same rfl rfl (List.append_nil _).symm rfl

/-- A commit that is refused is noted all the same, and nothing behind it is. -/
theorem highVlsn_of_refused {s s' : State σ} {syncDue : Bool} {group : List Message}
    {e : ReplayError} {v : Int64} (failed : replayGroup st syncDue group s = .error e s')
    (refused : e.vlsn? = some v) :
    ∃ before c after, group = before ++ .commit c :: after ∧ c.vlsn = v ∧
      s'.replayer.highVlsn = ((s.replayer.tookAll before).raise v).highVlsn := by
  rcases replayGroup_error failed with ⟨n, stopped⟩ | ⟨e', rfl, -, -⟩
  · cases stopped with
    | refused there refusal replayer done =>
      obtain ⟨before, m, after, split, front, refusal⟩ := Replayer.refusal?_of_refused? refusal
      obtain ⟨c, rfl, rfl⟩ := Replayer.commit_of_refusal refusal refused
      refine ⟨before, c, after, split, rfl, ?_⟩
      have length : n = before.length := by
        rw [front, List.length_take]
        obtain ⟨inside, -⟩ := List.getElem?_eq_some_iff.1 there
        omega
      rw [split, length, List.getElem?_append_right (Nat.le_refl _), Nat.sub_self,
        List.getElem?_cons_zero] at there
      cases there
      rw [replayer, ← front]
      rfl
    | failed there replayer broke => cases refused
  · cases refused

/-- A replica that goes through groups from here on, with a record of what its store is asked
    for. -/
def replays (st : Store σ) (s : State σ) (groups : List (Bool × List Message)) :
    History (σ × List StoreCall) :=
  .run st.recorded { state := { replayer := s.replayer, store := (s.store, []) } }
    (groups.map fun (syncDue, group) => .group syncDue group)

end State

/-! ## Histories of a replica -/

namespace History

variable {h : History (σ × List StoreCall)}

/-- The positions that a highest one may be counted up to: the one that was loaded, and those
    of the records that the store was handed. -/
def counted (loaded : Int64) (h : History (σ × List StoreCall)) : List Int64 :=
  loaded :: h.state.store.2.filterMap (·.vlsn?)

/-- The positions of the commits that were refused because the dtvlsn would have fallen. -/
def refused (h : History (σ × List StoreCall)) : List Int64 :=
  h.errors.filterMap (·.vlsn?)

/-- What holds of the highest position of a replica, whatever it has gone through since it
    loaded one. -/
structure Explained (loaded : Int64) (h : History (σ × List StoreCall)) : Prop where
  role : h.state.replayer.role = .replica
  origin : h.state.replayer.highVlsn ∈ counted loaded h ∨ h.state.replayer.highVlsn ∈ h.refused
  behind : ∀ v ∈ h.refused, v ≤ h.state.replayer.highVlsn

variable {loaded : Int64}

/-- One more group leaves a highest position that comes from where it came from before, from
    what the store is handed now, or from the commit that is refused now. -/
theorem Explained.step (e : Explained loaded h) (syncDue : Bool) (group : List Message) :
    Explained loaded (h.step st.recorded (.group syncDue group)) := by
  have raised : State.Raised h.state (State.replayGroup st.recorded syncDue group h.state) :=
    State.raised_replayGroup e.role syncDue group
  have state : (h.step st.recorded (.group syncDue group)).state =
      endState (State.replayGroup st.recorded syncDue group h.state) :=
    (state_step ..).trans (endState_perform_group ..)
  have refused : (h.step st.recorded (.group syncDue group)).refused = h.refused ++
      (refusedAt? (State.replayGroup st.recorded syncDue group h.state)).toList := by
    rw [History.refused, History.step, Task.perform]
    cases done : State.replayGroup st.recorded syncDue group h.state with
    | ok g s' =>
      rw [bind_eq_of_ok done]
      exact (List.append_nil _).symm
    | error e s' =>
      rw [bind_eq_of_error done]
      dsimp only
      rw [List.filterMap_append, filterMap_cons_toList]
      exact congrArg _ (List.append_nil _)
  obtain ⟨calls, asked, source⟩ := raised.origin
  refine ⟨?_, ?_, fun v mem => ?_⟩
  · rw [state]
    exact raised.role.trans e.role
  · rw [refused, counted, state, asked, List.filterMap_append, ← List.cons_append]
    simp only [List.mem_append, Option.mem_toList]
    -- A position that was not raised is explained as it was before.
    rcases source with same | handed | now
    · rw [same]
      exact e.origin.imp .inl .inl
    · exact .inl (.inr handed)
    · exact .inr (.inr now)
  · rw [refused, List.mem_append, Option.mem_toList] at mem
    rw [state]
    rcases mem with before | now
    · exact Int64.le_trans (e.behind v before) raised.forward
    · exact raised.refused v now

theorem Explained.run (e : Explained loaded h) (groups : List (Bool × List Message)) :
    Explained loaded
      (h.run st.recorded (groups.map fun (syncDue, group) => .group syncDue group)) := by
  induction groups generalizing h with
  | nil => exact e
  | cons group rest ih => exact ih (e.step group.1 group.2)

theorem explained_replays {s : State σ} (replica : s.replayer.role = .replica)
    (groups : List (Bool × List Message)) :
    Explained s.replayer.highVlsn (s.replays st groups) :=
  Explained.run (h := { state := { replayer := s.replayer, store := (s.store, []) } })
    ⟨replica, .inl List.mem_cons_self, nofun⟩ groups

/-- The highest position exceeds what counts just when a commit was refused that does. -/
theorem Explained.exceeds_iff (e : Explained loaded h) :
    (∃ w ∈ counted loaded h, h.state.replayer.highVlsn ≤ w) ↔
      ∀ v ∈ h.refused, ∃ w ∈ counted loaded h, v ≤ w := by
  constructor
  · rintro ⟨w, counts, le⟩ v refused
    exact ⟨w, counts, Int64.le_trans (e.behind v refused) le⟩
  · intro within
    rcases e.origin with counts | refused
    · exact ⟨_, counts, Int64.le_refl _⟩
    · exact within _ refused

end History

section Replica

variable {s s₀ : State σ} {masterId : Int32}

theorem State.loaded_of_start_ok (started : start st masterId s = .ok () s₀) :
    ∃ d, st.load s.store = .ok d s₀.store ∧ s₀.replayer.highVlsn = d.highVlsn ∧
      s₀.replayer.role = s.replayer.role := by
  have role := (keepsRole_start masterId).of_ok started
  obtain ⟨d, s₁, loads, done⟩ := bind_eq_ok started
  obtain ⟨load, -⟩ := onStore_eq_ok loads
  cases done
  exact ⟨d, load, rfl, role⟩

/-- From a start on, a replica counts what it has loaded and what its store was handed, and
    the commits that it has refused.  So its highest position is within the first two just
    when each refused commit is, and a refused commit leaves it as it was just when it does
    not stand above it. -/
theorem replays_count_refused (replica : s.replayer.role = .replica)
    (started : State.start st masterId s = .ok () s₀) (groups : List (Bool × List Message)) :
    ∃ d, st.load s.store = .ok d s₀.store ∧
      let h := s₀.replays st groups
      let high := h.state.replayer.highVlsn
      let counted := h.counted d.highVlsn
      (high ∈ counted ∨ high ∈ h.refused) ∧ (∀ v ∈ h.refused, v ≤ high) ∧
        ((∃ w ∈ counted, high ≤ w) ↔ ∀ v ∈ h.refused, ∃ w ∈ counted, v ≤ w) ∧
        ∀ syncDue group e s' v,
          State.replayGroup st.recorded syncDue group h.state = .error e s' → e.vlsn? = some v →
            ∃ before c after, group = before ++ .commit c :: after ∧ c.vlsn = v ∧
              let r := h.state.replayer.tookAll before
              r.highVlsn ≤ s'.replayer.highVlsn ∧
                (s'.replayer.highVlsn = r.highVlsn ↔ v ≤ r.highVlsn) := by
  obtain ⟨d, load, high, role⟩ := State.loaded_of_start_ok started
  have explained : History.Explained s₀.replayer.highVlsn (s₀.replays st groups) :=
    History.explained_replays (role.trans replica) groups
  rw [high] at explained
  refine ⟨d, load, explained.origin, explained.behind, explained.exceeds_iff,
    fun syncDue group e s' v failed refused => ?_⟩
  obtain ⟨before, c, after, split, same, raised⟩ := State.highVlsn_of_refused failed refused
  refine ⟨before, c, after, split, same, ?_⟩
  rw [raised]
  refine ⟨Replayer.le_highVlsn_raise _ v, ?_⟩
  rw [Replayer.highVlsn_raise]
  constructor
  · intro still
    split at still
    · exact Int64.le_of_eq still
    next le => exact Int64.not_lt.1 le
  · intro le
    exact if_neg (Int64.not_lt.2 le)

end Replica

/-! ## A commit that stands above all others -/

namespace Regression

/-- A replica whose store holds everything up to 10, of which 9 is known to be durable. -/
def replica : State MemoryStore where
  replayer := { role := .replica }
  store := { durable := { highVlsn := 10, dtvlsn := 9 } }

/-- The same replica behind its start. -/
def started : State MemoryStore where
  replayer := { role := .replica, masterId := 1, highVlsn := 10, dtvlsn := 9 }
  store := { durable := { highVlsn := 10, dtvlsn := 9 }, calls := [.load] }

/-- A commit that knows only the positions up to 8 to be durable. -/
def staleCommit (vlsn : Int64) : Message := .commit {
  vlsn, txn := vlsn, dtvlsn := 8, term := 1, sync := .noSync, needsAck := true
  timestamp := 0 }

/-- Position 12 is replayed, and then a stale commit is refused at 20. -/
def groups : List (Bool × List Message) :=
  [(false, [durableCommit 12]), (true, [.heartbeat 1 0 0, staleCommit 20, durableCommit 30])]

end Regression

theorem replays_count_refused_regression :
    Regression.replica.replayer.role = .replica ∧
      State.start MemoryStore.store 1 Regression.replica = .ok () Regression.started ∧
      let h := Regression.started.replays MemoryStore.store Regression.groups
      h.counted 10 = [10, 12] ∧ h.refused = [20] ∧ 20 ≤ h.state.replayer.highVlsn ∧
        ¬ ∃ w ∈ h.counted 10, h.state.replayer.highVlsn ≤ w := by
  have begun : State.start MemoryStore.store 1 Regression.replica = .ok () Regression.started := rfl
  have counted : (Regression.started.replays MemoryStore.store Regression.groups).counted 10 =
      [10, 12] := by decide +kernel
  have refused : (Regression.started.replays MemoryStore.store Regression.groups).refused =
      [20] := by decide +kernel
  obtain ⟨d, load, -, behind, exceeds, -⟩ :=
    replays_count_refused rfl begun Regression.groups
  cases load
  refine ⟨rfl, begun, counted, refused, behind 20 (by rw [refused]; decide), fun within => ?_⟩
  obtain ⟨w, mem, le⟩ := exceeds.1 within 20 (by rw [refused]; decide)
  have mem : w ∈ [(10 : Int64), 12] := counted ▸ mem
  rcases List.mem_cons.1 mem with rfl | mem
  · exact absurd le (by decide)
  · rcases List.mem_singleton.1 mem with rfl
    exact absurd le (by decide)

/-- A commit that is refused for its dtvlsn leaves the highest position above everything that
    was loaded or handed to the store. -/
theorem not_within_counted :
    let h := Regression.started.replays MemoryStore.store [(false, [Regression.staleCommit 11])]
    h.errors = [.dtvlsnRegressed 9 8 11] ∧ handed h.state.store.2 = [] ∧
      Regression.started.replayer.highVlsn = 10 ∧ h.state.replayer.highVlsn = 11 ∧
      ¬ ∃ w ∈ h.counted 10, h.state.replayer.highVlsn ≤ w := by
  decide +kernel

end Replication.Replay
