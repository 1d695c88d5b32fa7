import Mathlib.Order.Bounds.Basic
import Replication.Proofs.Replay.GroupCommit
import Replication.Replay.History

/-! # Durable watermarks

The watermarks that a store is given to keep do not go back, whatever fails.  What a
replayer has taken since it last loaded them may be ahead of what the store keeps, but
never behind.
-/

namespace Replication.Replay

open Replication.Stream (Commit Message)

/-! ## Durable states -/

/-- Whether the watermarks of a durable state are not ahead of those of another one. -/
def DurableState.Within (d d' : DurableState) : Prop :=
  d.highVlsn ≤ d'.highVlsn ∧ d.dtvlsn ≤ d'.dtvlsn

namespace DurableState.Within

variable {d d' d'' : DurableState}

theorem refl (d : DurableState) : d.Within d :=
  ⟨Int64.le_refl _, Int64.le_refl _⟩

theorem trans (h : d.Within d') (h' : d'.Within d'') : d.Within d'' :=
  ⟨Int64.le_trans h.1 h'.1, Int64.le_trans h.2 h'.2⟩

end DurableState.Within

/-! ## Stores that remember -/

variable {σ : Type}

/-- What is relied on of a store that keeps the durable state `held`: it loads what it was
    last given and did not fail to keep. -/
structure Store.Remembers (st : Store σ) (held : σ → DurableState) : Prop where
  load : Keeps held st.load
  loaded : ∀ {a a' d}, st.load a = .ok d a' → d = held a
  entry : ∀ e, Keeps held (st.replayEntry e)
  commit : ∀ c, Keeps held (st.replayCommit c)
  kept : ∀ {a a' d sync u}, st.writeDurable d sync a = .ok u a' → held a' = d
  failed : ∀ {a a' d sync e}, st.writeDurable d sync a = .error e a' → held a' = held a

section Marking

variable {α : Type} {done failed : List Mark} {x : EStateM StoreError σ α} {t t' : σ × List Mark}

theorem marking_eq_ok {r : α} (h : marking done failed x t = .ok r t') :
    x t.1 = .ok r t'.1 ∧ t'.2 = t.2 ++ done := by
  unfold marking at h
  dsimp only at h
  split at h
  next worked =>
    cases h
    exact ⟨worked, rfl⟩
  next => cases h

theorem marking_eq_error {e : StoreError} (h : marking done failed x t = .error e t') :
    x t.1 = .error e t'.1 ∧ t'.2 = t.2 ++ failed := by
  unfold marking at h
  dsimp only at h
  split at h
  next => cases h
  next broke =>
    cases h
    exact ⟨broke, rfl⟩

/-- A call that leaves no marks leaves those that are there. -/
theorem keeps_unmarked {held : σ → DurableState} (h : Keeps held x) :
    Keeps (fun t : σ × List Mark => (held t.1, t.2)) (marking [] [] x) := by
  intro t
  cases called : marking [] [] x t with
  | ok r t' =>
    obtain ⟨worked, marks⟩ := marking_eq_ok called
    exact Prod.ext (h.of_ok worked) (marks.trans (List.append_nil _))
  | error e t' =>
    obtain ⟨broke, marks⟩ := marking_eq_error called
    exact Prod.ext (h.of_error broke) (marks.trans (List.append_nil _))

end Marking

/-! ## States that count -/

/-- Whether a store was given a state that later ones must not go back behind: one that it
    kept, or one that the replayer has gone on from without loading. -/
def Counts (marks : List Mark) (d : DurableState) : Prop :=
  ∃ before kept after, marks = before ++ .written d kept :: after ∧
    (kept = true ∨ .loaded ∉ after)

/-- Whether the states that a store was given do not go back. -/
def Forward (marks : List Mark) : Prop :=
  ∀ before d kept, before ++ [.written d kept] <+: marks → ∀ d', Counts before d' → d'.Within d

variable {marks : List Mark} {d d' : DurableState} {kept : Bool}

/-- Of the states from before a load only those count that the store has kept. -/
theorem mem_of_counts_loaded (counts : Counts (marks ++ [.loaded]) d) :
    .written d true ∈ marks := by
  obtain ⟨before, kept, after, same, lasting⟩ := counts
  rcases List.eq_nil_or_concat after with rfl | ⟨after, last, rfl⟩
  · exact nomatch (List.append_inj' same rfl).2
  · rw [List.concat_eq_append, ← List.cons_append, ← List.append_assoc] at same
    obtain ⟨rfl, loaded⟩ := List.append_inj' same rfl
    obtain rfl : Mark.loaded = last := List.head_eq_of_cons_eq loaded
    rcases lasting with rfl | unloaded
    · simp
    · simp at unloaded

theorem counts_of_counts_written (counts : Counts (marks ++ [.written d' kept]) d) :
    d = d' ∨ Counts marks d := by
  obtain ⟨before, kept', after, same, lasting⟩ := counts
  rcases List.eq_nil_or_concat after with rfl | ⟨after, last, rfl⟩
  · cases (List.append_inj' same rfl).2
    exact .inl rfl
  · rw [List.concat_eq_append, ← List.cons_append, ← List.append_assoc] at same
    obtain ⟨rfl, -⟩ := List.append_inj' same rfl
    refine .inr ⟨before, kept', after, rfl, lasting.imp_right fun unloaded mem => unloaded ?_⟩
    exact List.concat_eq_append ▸ List.mem_append_left _ mem

theorem Forward.loaded (h : Forward marks) : Forward (marks ++ [.loaded]) := by
  intro before d kept front
  rcases List.prefix_concat_iff.1 front with same | front
  · cases (List.append_inj' same rfl).2
  · exact h before d kept front

theorem Forward.written (h : Forward marks) (ahead : ∀ d', Counts marks d' → d'.Within d)
    (kept : Bool) : Forward (marks ++ [.written d kept]) := by
  intro before d' kept' front
  rcases List.prefix_concat_iff.1 front with same | front
  · obtain ⟨rfl, last⟩ := List.append_inj' same rfl
    cases last
    exact ahead
  · exact h before d' kept' front

/-! ## What a group does -/

namespace Replayer

variable {r : Replayer} {m : Message}

theorem within_met (r : Replayer) (m : Message) : r.durableState.Within (r.met m).durableState := by
  cases m with
  | commit c =>
    exact ⟨r.le_highVlsn_raise c.vlsn, Int64.le_of_eq (State.dtvlsn_raise r c.vlsn).symm⟩
  | _ => exact .refl _

theorem within_took (accepted : r.refusal? m = none) :
    r.durableState.Within (r.took m).durableState :=
  ⟨r.highVlsn_le_took m, dtvlsn_le_took accepted⟩

end Replayer

namespace State

/-- A message moves the watermarks on, if it moves them, whether it is replayed or not.  What
    the store shows of itself stays as it was, if its records do not touch that. -/
theorem stays_replayMessage (st : Store σ) {γ : Type} {view : σ → γ}
    (entry : ∀ e, Keeps view (st.replayEntry e)) (commit : ∀ c, Keeps view (st.replayCommit c))
    (d : DurableState) (seen : γ) (g : GroupResult) (m : Message) :
    Stays (fun s : State σ => d.Within s.replayer.durableState ∧ view s.store = seen)
      (replayMessage st g m) := by
  rintro s ⟨ahead, rfl⟩
  -- A message that is not replayed has been met all the same, which raises the marks.
  cases refusal : s.replayer.refusal? m with
  | some e =>
    rw [replayMessage_of_refusal st g s refusal]
    exact ⟨ahead.trans (s.replayer.within_met m), rfl⟩
  | none =>
    have quiet : Keeps view (st.carryOut (call? s.replayer.role m).toList) := by
      cases called : call? s.replayer.role m with
      | none => exact .pure ()
      | some call =>
        rw [Option.toList, carryOut_singleton]
        cases role : s.replayer.role <;> rw [role] at called <;> cases m <;> cases called
        · exact entry _
        · exact commit _
    have same := quiet s.store
    rw [replayMessage_of_accepted st g s refusal]
    cases carried : st.carryOut (call? s.replayer.role m).toList s.store with
    | ok u store =>
      rw [carried] at same
      exact ⟨ahead.trans (Replayer.within_took refusal), same⟩
    | error e store =>
      rw [carried] at same
      exact ⟨ahead.trans (s.replayer.within_met m), same⟩

end State

/-! ## What a replayer is ahead of -/

variable {st : Store σ} {held : σ → DurableState} {s s' : State (σ × List Mark)}

/-- What holds of a replayer and its marked store: the replayer is ahead of all that counts
    and of what the store holds, which is ahead of all that the store has kept. -/
structure Ahead (held : σ → DurableState) (s : State (σ × List Mark)) : Prop where
  forward : Forward s.store.2
  counted : ∀ d, Counts s.store.2 d → d.Within s.replayer.durableState
  kept : ∀ d, .written d true ∈ s.store.2 → d.Within (held s.store.1)
  held : (held s.store.1).Within s.replayer.durableState

namespace Ahead

theorem on (h : Ahead held s) (on : s.replayer.durableState.Within s'.replayer.durableState)
    (same : (held s'.store.1, s'.store.2) = (held s.store.1, s.store.2)) : Ahead held s' := by
  obtain ⟨holds, marks⟩ := Prod.mk.inj same
  constructor
  · rw [marks]
    exact h.forward
  · rw [marks]
    exact fun d counts => (h.counted d counts).trans on
  · rw [marks, holds]
    exact h.kept
  · rw [holds]
    exact h.held.trans on

theorem mem_written {d d' : DurableState} {marks : List Mark} {kept : Bool}
    (mem : .written d true ∈ marks ++ [.written d' kept]) :
    .written d true ∈ marks ∨ d = d' ∧ kept = true := by
  rcases List.mem_append.1 mem with mem | mem
  · exact .inl mem
  · cases List.mem_singleton.1 mem
    exact .inr ⟨rfl, rfl⟩

/-- The store is given the watermarks of the replayer. -/
theorem write (h : Ahead held s) (kept : Bool)
    (replayer : s'.replayer.durableState = s.replayer.durableState)
    (marks : s'.store.2 = s.store.2 ++ [.written s.replayer.durableState kept])
    (holds : held s'.store.1 = if kept then s.replayer.durableState else held s.store.1) :
    Ahead held s' := by
  -- A write that is kept lifts what is held to the watermarks; one that is not changes nothing.
  constructor
  · rw [marks]
    exact h.forward.written h.counted kept
  · intro d counts
    rw [marks] at counts
    rw [replayer]
    rcases counts_of_counts_written counts with rfl | counts
    · exact .refl _
    · exact h.counted d counts
  · intro d mem
    rw [marks] at mem
    rw [holds]
    rcases mem_written mem with mem | ⟨rfl, rfl⟩
    · split
      · exact (h.kept d mem).trans h.held
      · exact h.kept d mem
    · exact .refl _
  · rw [replayer, holds]
    split
    · exact .refl _
    · exact h.held

/-- The replayer takes over what the store holds. -/
theorem load (h : Ahead held s) (holds : held s'.store.1 = held s.store.1)
    (marks : s'.store.2 = s.store.2 ++ [.loaded])
    (replayer : (held s.store.1).Within s'.replayer.durableState) : Ahead held s' := by
  constructor
  · rw [marks]
    exact h.forward.loaded
  · intro d counts
    rw [marks] at counts
    exact (h.kept d (mem_of_counts_loaded counts)).trans replayer
  · intro d mem
    rw [marks] at mem
    rw [holds]
    refine h.kept d ((List.mem_append.1 mem).resolve_right fun loaded => ?_)
    cases List.mem_singleton.1 loaded
  · rw [holds]
    exact replayer

variable (remembers : st.Remembers held)

include remembers

theorem replayGroup (h : Ahead held s) (syncDue : Bool) (group : List Message) :
    Ahead held (endState (State.replayGroup st.marked syncDue group s)) := by
  have folded := Stays.foldlM (State.stays_replayMessage st.marked
    (fun e => keeps_unmarked (remembers.entry e)) (fun c => keeps_unmarked (remembers.commit c))
    s.replayer.durableState (held s.store.1, s.store.2)) group {} s ⟨.refl _, rfl⟩
  rw [State.replayGroup]
  cases done : group.foldlM (State.replayMessage st.marked) {} s with
  | error e s₁ =>
    rw [done] at folded
    rw [bind_eq_of_error done]
    -- Nothing is written for a group that was not taken whole.
    exact h.on folded.1 folded.2
  | ok g s₁ =>
    rw [done] at folded
    rw [bind_eq_of_ok done, get_bind]
    have taken : Ahead held s₁ := h.on folded.1 folded.2
    -- All of the group was taken, and the store is given the watermarks.
    cases written : State.onStore (st.marked.writeDurable s₁.replayer.durableState
        (g.synced || syncDue)) s₁ with
    | error e s₂ =>
      obtain ⟨e', rfl, broke, same⟩ := State.onStore_eq_error written
      obtain ⟨failed, marks⟩ := marking_eq_error broke
      rw [bind_eq_of_error written]
      exact taken.write false (by rw [endState, same]) marks (remembers.failed failed)
    | ok u s₂ =>
      obtain ⟨wrote, same⟩ := State.onStore_eq_ok written
      obtain ⟨worked, marks⟩ := marking_eq_ok wrote
      rw [bind_eq_of_ok written]
      dsimp only
      split
      all_goals exact taken.write true (by rw [← same]; rfl) marks (remembers.kept worked)

theorem start (h : Ahead held s) (masterId : Int32) :
    Ahead held (endState (State.start st.marked masterId s)) := by
  rw [State.start]
  cases loads : State.onStore st.marked.load s with
  | error e s₁ =>
    obtain ⟨e', rfl, broke, same⟩ := State.onStore_eq_error loads
    obtain ⟨failed, marks⟩ := marking_eq_error broke
    rw [bind_eq_of_error loads]
    -- A load that fails leaves the replayer with the marks it had.
    refine h.on (by rw [endState, same]; exact .refl _) (Prod.ext ?_ ?_)
    · exact remembers.load.of_error failed
    · exact marks.trans (List.append_nil _)
  | ok d s₁ =>
    obtain ⟨load, -⟩ := State.onStore_eq_ok loads
    obtain ⟨worked, marks⟩ := marking_eq_ok load
    obtain rfl := remembers.loaded worked
    rw [bind_eq_of_ok loads]
    exact h.load (remembers.load.of_ok worked) marks (.refl _)

end Ahead

/-! ## Histories -/

namespace History

variable {h : History σ} {task : Task} {tasks : List Task}

theorem state_step (st : Store σ) (h : History σ) (task : Task) :
    (h.step st task).state = endState (task.perform st h.state) := by
  unfold step
  split
  next done => rw [done]; rfl
  next failed => rw [failed]; rfl

theorem endState_perform_group (st : Store σ) (syncDue : Bool) (group : List Message)
    (s : State σ) : endState ((Task.group syncDue group).perform st s) =
      endState (State.replayGroup st syncDue group s) := by
  rw [Task.perform]
  cases done : State.replayGroup st syncDue group s with
  | ok g s' => rw [bind_eq_of_ok done]; rfl
  | error e s' =>
    rw [bind_eq_of_error done]
    rfl

theorem ahead_step (remembers : st.Remembers held) {h : History (σ × List Mark)}
    (ahead : Ahead held h.state) (task : Task) : Ahead held (h.step st.marked task).state := by
  rw [state_step]
  cases task with
  | start masterId => exact ahead.start remembers masterId
  | group syncDue group =>
    rw [endState_perform_group]
    exact ahead.replayGroup remembers syncDue group

theorem ahead_run (remembers : st.Remembers held) {h : History (σ × List Mark)}
    (ahead : Ahead held h.state) (tasks : List Task) :
    Ahead held (h.run st.marked tasks).state := by
  induction tasks generalizing h with
  | nil => exact ahead
  | cons task rest ih => exact ih (ahead_step remembers ahead task)

theorem step_of_unfailing (unfailing : (h.step st task).errors = []) :
    h.errors = [] ∧ task.perform st h.state = .ok () (h.step st task).state := by
  unfold step at unfailing ⊢
  split at unfailing
  next done => exact ⟨unfailing, done⟩
  next => simp at unfailing

theorem unfailing_of_run (unfailing : (h.run st tasks).errors = []) : h.errors = [] := by
  induction tasks generalizing h with
  | nil => exact unfailing
  | cons task rest ih => exact (step_of_unfailing (ih unfailing)).1

end History

/-! ## What an arbiter knows -/

/-- A first position, and what the commits among some messages tell of theirs. -/
def told (tell : Commit → Int64) (first : Int64) (ms : List Message) : Set Int64 :=
  {v | v = first ∨ ∃ c, .commit c ∈ ms ∧ tell c = v}

variable {tell : Commit → Int64} {first v : Int64} {ms : List Message}

theorem isGreatest_told_nil (tell : Commit → Int64) (first : Int64) :
    IsGreatest (told tell first []) first :=
  ⟨.inl rfl, by rintro v (rfl | ⟨c, mem, -⟩); exacts [Int64.le_refl _, nomatch mem]⟩

theorem isGreatest_told_commit (greatest : IsGreatest (told tell first ms) v) (c : Commit) :
    IsGreatest (told tell first (ms ++ [.commit c])) (if v < tell c then tell c else v) := by
  obtain ⟨mem, upper⟩ := greatest
  constructor
  · split
    · exact .inr ⟨c, List.mem_append_right _ (List.mem_singleton_self _), rfl⟩
    · exact mem.imp_right fun ⟨c', mem, same⟩ => ⟨c', List.mem_append_left _ mem, same⟩
  · -- It is not behind what was told before, nor behind what is told now.
    have both : v ≤ (if v < tell c then tell c else v) ∧
        tell c ≤ (if v < tell c then tell c else v) := by
      split
      next less => exact ⟨Int64.le_of_lt less, Int64.le_refl _⟩
      next le => exact ⟨Int64.le_refl _, Int64.not_lt.1 le⟩
    rintro v' (rfl | ⟨c', mem, rfl⟩)
    · exact Int64.le_trans (upper (.inl rfl)) both.1
    · rcases List.mem_append.1 mem with mem | mem
      · exact Int64.le_trans (upper (.inr ⟨c', mem, rfl⟩)) both.1
      · cases List.mem_singleton.1 mem
        exact both.2

theorem told_append_other {m : Message} (other : ∀ c, m ≠ .commit c) :
    told tell first (ms ++ [m]) = told tell first ms := by
  unfold told
  simp [Ne.symm (other _)]

/-- What holds of an arbiter that has met no error since it loaded the state `d`, and was
    delivered some messages. -/
structure Knows (held : σ → DurableState) (d : DurableState) (ms : List Message) (s : State σ) :
    Prop where
  role : s.replayer.role = .arbiter
  /-- The store holds what the arbiter knows. -/
  highVlsn_held : (held s.store).highVlsn = s.replayer.highVlsn
  dtvlsn_held : (held s.store).dtvlsn = s.replayer.dtvlsn
  highVlsn : IsGreatest (told (·.vlsn) d.highVlsn ms) s.replayer.highVlsn
  dtvlsn : IsGreatest (told (·.effectiveDtvlsn) d.dtvlsn ms) s.replayer.dtvlsn

namespace Replayer

variable {r : Replayer} {d : DurableState} {m : Message}

theorem highVlsn_raise (r : Replayer) (vlsn : Int64) :
    (r.raise vlsn).highVlsn = if r.highVlsn < vlsn then vlsn else r.highVlsn := by
  unfold raise
  split <;> rfl

theorem isGreatest_took (role : r.role = .arbiter) (accepted : r.refusal? m = none)
    (highVlsn : IsGreatest (told (·.vlsn) d.highVlsn ms) r.highVlsn)
    (dtvlsn : IsGreatest (told (·.effectiveDtvlsn) d.dtvlsn ms) r.dtvlsn) :
    IsGreatest (told (·.vlsn) d.highVlsn (ms ++ [m])) (r.took m).highVlsn ∧
      IsGreatest (told (·.effectiveDtvlsn) d.dtvlsn (ms ++ [m])) (r.took m).dtvlsn := by
  cases m with
  | commit c =>
    have high : (r.took (.commit c)).highVlsn = _ := r.highVlsn_raise c.vlsn
    rw [dtvlsn_took, role, dtvlsnAfter, high, ← State.ite_lt_eq_max]
    exact ⟨isGreatest_told_commit highVlsn c, isGreatest_told_commit dtvlsn c⟩
  | entry e => simp [refusal?, role] at accepted
  | _ =>
    rw [told_append_other fun _ => Message.noConfusion,
      told_append_other fun _ => Message.noConfusion]
    exact ⟨highVlsn, dtvlsn⟩

theorem isGreatest_tookAll {ms' : List Message} (role : r.role = .arbiter)
    (accepted : r.refused? ms' = none)
    (highVlsn : IsGreatest (told (·.vlsn) d.highVlsn ms) r.highVlsn)
    (dtvlsn : IsGreatest (told (·.effectiveDtvlsn) d.dtvlsn ms) r.dtvlsn) :
    IsGreatest (told (·.vlsn) d.highVlsn (ms ++ ms')) (r.tookAll ms').highVlsn ∧
      IsGreatest (told (·.effectiveDtvlsn) d.dtvlsn (ms ++ ms')) (r.tookAll ms').dtvlsn := by
  induction ms' generalizing r ms with
  | nil =>
    rw [List.append_nil]
    exact ⟨highVlsn, dtvlsn⟩
  | cons m rest ih =>
    obtain ⟨first, others⟩ := refused?_cons_eq_none.1 accepted
    obtain ⟨highVlsn, dtvlsn⟩ := isGreatest_took role first highVlsn dtvlsn
    rw [List.append_cons]
    exact ih ((r.role_took m).trans role) others highVlsn dtvlsn

end Replayer

namespace Knows

variable {s s' : State σ} {d : DurableState}

/-- Starting again makes no difference to an arbiter that has met no error. -/
theorem start {masterId : Int32} (remembers : st.Remembers held) (h : Knows held d ms s)
    (done : State.start st masterId s = .ok () s') : Knows held d ms s' := by
  obtain ⟨d', s₁, loads, done⟩ := bind_eq_ok done
  obtain ⟨load, same⟩ := State.onStore_eq_ok loads
  have holds := remembers.load.of_ok load
  obtain rfl := remembers.loaded load
  cases done
  refine ⟨?_, congrArg _ holds, congrArg _ holds, ?_, ?_⟩
  · exact (congrArg Replayer.role same).trans h.role
  · exact h.highVlsn_held ▸ h.highVlsn
  · exact h.dtvlsn_held ▸ h.dtvlsn

theorem replayGroup {syncDue : Bool} {group : List Message} {g : GroupResult}
    (remembers : st.Remembers held) (h : Knows held d ms s)
    (done : State.replayGroup st syncDue group s = .ok g s') :
    Knows held d (ms ++ group) s' := by
  obtain ⟨accepted, -, replayer, carried⟩ := State.replayGroup_ok done
  rw [Store.carryOut_append] at carried
  obtain ⟨_, a, -, carried⟩ := bind_eq_ok carried
  rw [State.carryOut_singleton] at carried
  have holds : held s'.store = (s.replayer.tookAll group).durableState := remembers.kept carried
  have greatest := Replayer.isGreatest_tookAll h.role accepted h.highVlsn h.dtvlsn
  constructor
  · rw [replayer]
    exact (Replayer.role_tookAll _ _).trans h.role
  · rw [holds, replayer]
    rfl
  · rw [holds, replayer]
    rfl
  · rw [replayer]
    exact greatest.1
  · rw [replayer]
    exact greatest.2

theorem perform {task : Task} (remembers : st.Remembers held) (h : Knows held d ms s)
    (done : task.perform st s = .ok () s') : Knows held d (ms ++ task.messages) s' := by
  cases task with
  | start masterId =>
    rw [Task.messages, List.append_nil]
    exact h.start remembers done
  | group syncDue group =>
    obtain ⟨g, s₁, replayed, same⟩ := bind_eq_ok done
    obtain ⟨-, rfl⟩ := pure_eq_ok same
    exact h.replayGroup remembers replayed

theorem run {h : History σ} {tasks : List Task} (remembers : st.Remembers held)
    (knows : Knows held d ms h.state) (unfailing : (h.run st tasks).errors = []) :
    Knows held d (ms ++ tasks.flatMap Task.messages) (h.run st tasks).state := by
  induction tasks generalizing h ms with
  | nil => exact (List.append_nil ms).symm ▸ knows
  | cons task rest ih =>
    obtain ⟨-, done⟩ := History.step_of_unfailing (History.unfailing_of_run unfailing)
    rw [List.flatMap_cons, ← List.append_assoc]
    exact ih (knows.perform remembers done) unfailing

end Knows

/-! ## From the start -/

theorem Store.Remembers.marked (remembers : st.Remembers held) :
    st.marked.Remembers fun t => held t.1 where
  load t := by
    cases called : st.marked.load t with
    | ok d t' => exact remembers.load.of_ok (marking_eq_ok called).1
    | error e t' => exact remembers.load.of_error (marking_eq_error called).1
  loaded called := remembers.loaded (marking_eq_ok called).1
  entry e t := congrArg Prod.fst (keeps_unmarked (remembers.entry e) t)
  commit c t := congrArg Prod.fst (keeps_unmarked (remembers.commit c) t)
  kept called := remembers.kept (marking_eq_ok called).1
  failed called := remembers.failed (marking_eq_error called).1

section Start

variable {s : State σ} {masterId : Int32} {d : DurableState} {a : σ}

/-- The state behind a start that succeeds. -/
def State.started (s : State σ) (masterId : Int32) (d : DurableState) (a : σ) :
    State (σ × List Mark) where
  replayer := { s.replayer with
    masterId, term := d.term, highVlsn := d.highVlsn, dtvlsn := d.dtvlsn }
  store := (a, [.loaded])

theorem State.history_start (loads : st.load s.store = .ok d a) (tasks : List Task) :
    s.history st (.start masterId :: tasks) =
      .run st.marked { state := s.started masterId d a } tasks := by
  have done : (Task.start masterId).perform st.marked
      { replayer := s.replayer, store := (s.store, []) } = .ok () (s.started masterId d a) := by
    simp only [Task.perform, State.start, State.onStore, Store.marked, marking, bind, EStateM.bind,
      loads]
    rfl
  rw [State.history, History.run, List.foldl_cons, History.step, done]
  rfl

theorem ahead_started (remembers : st.Remembers held) (loads : st.load s.store = .ok d a) :
    Ahead held (s.started masterId d a) := by
  have holds : held a = d := (remembers.load.of_ok loads).trans (remembers.loaded loads).symm
  have unwritten : ∀ d' kept, Mark.written d' kept ∉ [Mark.loaded] := by simp
  constructor
  · intro before d' kept front
    exact absurd (front.subset (List.mem_append_right _ (List.mem_singleton_self _)))
      (unwritten d' kept)
  · rintro d' ⟨before, kept, after, same, -⟩
    change [Mark.loaded] = _ at same
    exact absurd (same ▸ List.mem_append_right _ List.mem_cons_self) (unwritten d' kept)
  · exact fun d' mem => absurd mem (unwritten d' true)
  · exact holds ▸ .refl _

theorem knows_started (remembers : st.Remembers held) (role : s.replayer.role = .arbiter)
    (loads : st.load s.store = .ok d a) :
    Knows (fun t => held t.1) d [] (s.started masterId d a) := by
  have holds : held a = d := (remembers.load.of_ok loads).trans (remembers.loaded loads).symm
  exact ⟨role, congrArg _ holds, congrArg _ holds, isGreatest_told_nil .., isGreatest_told_nil ..⟩

/-- The watermarks that a store is given do not go back from what it has kept, nor from
    anything that it was given since the last load.  An arbiter that meets no error knows
    the largest dtvlsn and the highest position of all that it loaded and was told, in
    whatever order. -/
theorem watermarks_history (remembers : st.Remembers held) (loads : st.load s.store = .ok d a)
    (masterId : Int32) (tasks : List Task) :
    let h := s.history st (.start masterId :: tasks)
    Forward h.state.store.2 ∧
      (s.replayer.role = .arbiter → h.errors = [] →
        IsGreatest (told (·.effectiveDtvlsn) d.dtvlsn (tasks.flatMap Task.messages))
            h.state.replayer.dtvlsn ∧
          IsGreatest (told (·.vlsn) d.highVlsn (tasks.flatMap Task.messages))
            h.state.replayer.highVlsn) := by
  intro h
  have started : h = _ := State.history_start loads tasks
  constructor
  · rw [started]
    exact (History.ahead_run remembers (ahead_started remembers loads) tasks).forward
  · intro role unfailing
    rw [started] at unfailing ⊢
    have knows := (knows_started remembers role loads).run remembers.marked unfailing
    exact ⟨knows.dtvlsn, knows.highVlsn⟩

end Start

/-! ## Out of order, and forgotten -/

namespace MemoryStore

theorem keeps_receive (call : StoreCall) : Keeps MemoryStore.durable (receive call) := by
  intro a
  unfold receive
  dsimp only
  split <;> rfl

theorem remembers_store : store.Remembers MemoryStore.durable where
  load := .bind (keeps_receive _) fun _ => .bind .get fun _ => .pure _
  loaded loads := by
    obtain ⟨u, a₁, received, loads⟩ := bind_eq_ok loads
    cases loads
    exact (keeps_receive _).of_ok received
  entry _ := keeps_receive _
  commit _ := keeps_receive _
  kept wrote := by
    obtain ⟨u, a₁, received, wrote⟩ := bind_eq_ok wrote
    cases wrote
    rfl
  failed broke := by
    rcases bind_eq_error broke with received | ⟨u, a₁, received, broke⟩
    · exact (keeps_receive _).of_error received
    · cases broke

end MemoryStore

/-- A commit at a position, known to be durable up to there. -/
def durableCommit (vlsn : Int64) : Message := .commit {
  vlsn, txn := vlsn, dtvlsn := vlsn, term := 1, sync := .noSync, needsAck := true
  timestamp := 0 }

namespace OutOfOrder

/-- An arbiter that was told of position 3 in an earlier life. -/
def arbiter : State MemoryStore where
  replayer := { role := .arbiter }
  store := { durable := { highVlsn := 3, dtvlsn := 2 } }

/-- It is told of position 12 before 11, the connection having been lost in between. -/
def tasks : List Task :=
  [.group false [durableCommit 12], .start 1, .group true [durableCommit 11]]

end OutOfOrder

theorem watermarks_history_out_of_order :
    MemoryStore.store.Remembers MemoryStore.durable ∧
      MemoryStore.store.load OutOfOrder.arbiter.store =
        .ok { highVlsn := 3, dtvlsn := 2 } { OutOfOrder.arbiter.store with calls := [.load] } ∧
      OutOfOrder.arbiter.replayer.role = .arbiter ∧
      (OutOfOrder.arbiter.history MemoryStore.store (.start 1 :: OutOfOrder.tasks)).errors = [] ∧
      let h := OutOfOrder.arbiter.history MemoryStore.store (.start 1 :: OutOfOrder.tasks)
      Forward h.state.store.2 ∧
        IsGreatest (told (·.effectiveDtvlsn) 2 (OutOfOrder.tasks.flatMap Task.messages))
            h.state.replayer.dtvlsn ∧
          IsGreatest (told (·.vlsn) 3 (OutOfOrder.tasks.flatMap Task.messages))
            h.state.replayer.highVlsn := by
  have loads : MemoryStore.store.load OutOfOrder.arbiter.store =
      .ok { highVlsn := 3, dtvlsn := 2 } { OutOfOrder.arbiter.store with calls := [.load] } := rfl
  have unfailing : (OutOfOrder.arbiter.history MemoryStore.store
      (.start 1 :: OutOfOrder.tasks)).errors = [] := by
    decide +kernel
  have known := watermarks_history (s := OutOfOrder.arbiter) MemoryStore.remembers_store loads 1
    OutOfOrder.tasks
  exact ⟨MemoryStore.remembers_store, loads, rfl, unfailing, known.1, known.2 rfl unfailing⟩

/-- The states that a store was given, in their order. -/
def given (marks : List Mark) : List DurableState :=
  marks.filterMap fun
    | .written d _ => some d
    | .loaded => none

/-- What a store failed to keep is forgotten when the replayer starts again, so what the
    store is given next may go back behind it. -/
theorem not_pairwise_given :
    let s : State MemoryStore :=
      { replayer := { role := .arbiter }, store := { faults := [(.write, 0)] } }
    let tasks : List Task := [.start 1, .group false [durableCommit 10], .start 1,
      .group false [.heartbeat 1 0 0]]
    MemoryStore.store.Remembers MemoryStore.durable ∧
      ¬ (given (s.history MemoryStore.store tasks).state.store.2).Pairwise
        DurableState.Within := by
  intro s tasks
  have back : given (s.history MemoryStore.store tasks).state.store.2 =
      [{ highVlsn := 10, dtvlsn := 10, masterId := 1, term := 1 }, { masterId := 1 }] := by
    decide +kernel
  refine ⟨MemoryStore.remembers_store, fun ordered => ?_⟩
  rw [back, List.pairwise_pair] at ordered
  exact absurd ordered.1 (by decide)

end Replication.Replay
