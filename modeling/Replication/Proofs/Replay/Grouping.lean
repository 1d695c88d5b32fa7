import Replication.Proofs.Replay.Recording

/-! # Groups

How the messages of a stream are cut into groups is a matter of timing.  It makes no
difference to what the store is handed, to what is acknowledged, or to where the replay
stops at a message that is refused.
-/

namespace Replication.Replay

open Replication.Stream (Message)

/-! ## Replaying group after group -/

namespace State

variable {σ : Type}

/-- How many messages of a group are replayed before one is not. -/
def replayedOf (st : Store σ) (g : GroupResult) : List Message → State σ → Nat
  | [], _ => 0
  | m :: rest, s =>
    match replayMessage st g m s with
    | .ok g' s' => replayedOf st g' rest s' + 1
    | .error .. => 0

/-- Replays groups until one fails, and collects what they acknowledge.  An error comes with
    the number of messages in front of the one that caused it. -/
def replayGroups (st : Store σ) :
    List (Bool × List Message) → State σ → EStateM.Result (Nat × ReplayError) (State σ) (List Ack)
  | [], s => .ok [] s
  | (syncDue, group) :: rest, s =>
    match replayGroup st syncDue group s with
    | .error e s' => .error (replayedOf st {} group s, e) s'
    | .ok g s' =>
      match replayGroups st rest s' with
      | .error (n, e) s'' => .error (group.length + n, e) s''
      | .ok acks s'' => .ok (g.acks ++ acks) s''

end State

def lastWritten (calls : List StoreCall) : Option DurableState :=
  (calls.filterMap fun
    | .write state _ => some state
    | _ => none).getLast?

/-! ## Group syncs -/

namespace Replayer

/-- Whether two replayers differ in their group syncs at most. -/
def Alike (r r' : Replayer) : Prop :=
  ∃ n, r' = { r with groupSyncs := n }

variable {r r' r'' : Replayer}

theorem Alike.refl (r : Replayer) : r.Alike r :=
  ⟨r.groupSyncs, rfl⟩

theorem Alike.trans (h : r.Alike r') (h' : r'.Alike r'') : r.Alike r'' := by
  obtain ⟨n, rfl⟩ := h
  obtain ⟨n', rfl⟩ := h'
  exact ⟨n', rfl⟩

theorem alike_counted (r : Replayer) (sync : Bool) : r.Alike (r.counted sync) :=
  ⟨_, rfl⟩

theorem Alike.raise (h : r.Alike r') (vlsn : Int64) : (r.raise vlsn).Alike (r'.raise vlsn) := by
  obtain ⟨n, rfl⟩ := h
  refine ⟨n, ?_⟩
  unfold Replayer.raise
  dsimp only
  split <;> rfl

/-- Group syncs play no part in what becomes of a message. -/
theorem Alike.took (h : r.Alike r') (m : Message) : (r.took m).Alike (r'.took m) := by
  cases m with
  | commit c =>
    obtain ⟨n, same⟩ := h.raise c.vlsn
    obtain ⟨n', rfl⟩ := h
    refine ⟨n, ?_⟩
    simp only [Replayer.took, Replayer.met, same]
  | entry e => exact h.raise e.vlsn
  | _ => exact h

theorem Alike.refusal? (h : r.Alike r') (m : Message) : r'.refusal? m = r.refusal? m := by
  obtain ⟨n, rfl⟩ := h
  cases m <;> rfl

theorem Alike.answers (h : r.Alike r') (m : Message) : r'.answers m = r.answers m := by
  obtain ⟨n, same⟩ := h.took m
  obtain ⟨n', rfl⟩ := h
  rw [Replayer.answers, Replayer.answers, same]
  exact List.map_congr_left fun reply _ => by cases reply <;> rfl

theorem Alike.refused? (h : r.Alike r') (ms : List Message) :
    r'.refused? ms = r.refused? ms := by
  induction ms generalizing r r' with
  | nil => rfl
  | cons m rest ih => rw [Replayer.refused?, Replayer.refused?, h.refusal? m, ih (h.took m)]

theorem Alike.tookAll (h : r.Alike r') (ms : List Message) :
    (r.tookAll ms).Alike (r'.tookAll ms) := by
  induction ms generalizing r r' with
  | nil => exact h
  | cons m rest ih => exact ih (h.took m)

theorem Alike.allAnswers (h : r.Alike r') (ms : List Message) :
    r'.allAnswers ms = r.allAnswers ms := by
  induction ms generalizing r r' with
  | nil => rfl
  | cons m rest ih => rw [Replayer.allAnswers, Replayer.allAnswers, h.answers m, ih (h.took m)]

theorem Alike.role (h : r.Alike r') : r'.role = r.role := by
  obtain ⟨n, rfl⟩ := h
  rfl

theorem Alike.durableState (h : r.Alike r') : r'.durableState = r.durableState := by
  obtain ⟨n, rfl⟩ := h
  rfl

/-! ## Messages behind each other -/

theorem tookAll_append (r : Replayer) (ms ms' : List Message) :
    r.tookAll (ms ++ ms') = (r.tookAll ms).tookAll ms' :=
  List.foldl_append

theorem allAnswers_append (r : Replayer) (ms ms' : List Message) :
    r.allAnswers (ms ++ ms') = r.allAnswers ms ++ (r.tookAll ms).allAnswers ms' := by
  induction ms generalizing r with
  | nil => rfl
  | cons m rest ih =>
    rw [List.cons_append, allAnswers, allAnswers, ih, List.append_assoc]
    rfl

theorem refused?_append_of_none {ms : List Message} (accepted : r.refused? ms = none)
    (ms' : List Message) : r.refused? (ms ++ ms') =
      ((r.tookAll ms).refused? ms').map fun (n, e) => (ms.length + n, e) := by
  induction ms generalizing r with
  | nil => simp [tookAll]
  | cons m rest ih =>
    obtain ⟨first, others⟩ := refused?_cons_eq_none.1 accepted
    rw [List.cons_append, refused?, first, ih others, Option.map_map, List.length_cons]
    refine congrArg (fun f => Option.map f _) (funext ?_)
    rintro ⟨n, e⟩
    exact congrArg (·, e) (Nat.add_right_comm ..)

theorem refused?_append_of_some {ms : List Message} {n : Nat} {e : ReplayError}
    (refused : r.refused? ms = some (n, e)) (ms' : List Message) :
    r.refused? (ms ++ ms') = some (n, e) := by
  induction ms generalizing r n with
  | nil => cases refused
  | cons m rest ih =>
    rw [refused?] at refused
    rw [List.cons_append, refused?]
    cases refusal : r.refusal? m with
    | some e' => rw [refusal] at refused; exact refused
    | none =>
      rw [refusal] at refused
      dsimp only at refused ⊢
      obtain ⟨⟨n', e'⟩, others, same⟩ := Option.map_eq_some_iff.1 refused
      cases same
      rw [ih others]
      rfl

theorem refused?_lt {ms : List Message} {n : Nat} {e : ReplayError}
    (refused : r.refused? ms = some (n, e)) : n < ms.length := by
  induction ms generalizing r n with
  | nil => cases refused
  | cons m rest ih =>
    rw [refused?] at refused
    cases refusal : r.refusal? m with
    | some e' =>
      rw [refusal] at refused
      cases refused
      exact Nat.succ_pos _
    | none =>
      rw [refusal] at refused
      obtain ⟨⟨n', e'⟩, others, same⟩ := Option.map_eq_some_iff.1 refused
      cases same
      exact Nat.succ_lt_succ (ih others)

end Replayer

/-! ## What the groups come to -/

namespace State

variable {σ : Type} {st : Store σ} {groups groups' : List (Bool × List Message)}

theorem lastWritten_append_write (calls : List StoreCall) (role : Role) (ms : List Message)
    (state : DurableState) (sync : Bool) :
    lastWritten (calls ++ (ms.filterMap (call? role) ++ [.write state sync])) = some state := by
  simp [lastWritten, List.filterMap_append]

theorem replayedOf_eq {s : State σ} {g : GroupResult} {ms : List Message} {n : Nat}
    {e : ReplayError} {store : σ} (refused : s.replayer.refused? ms = some (n, e))
    (carried : st.carryOut ((ms.take n).filterMap (call? s.replayer.role)) s.store =
      .ok () store) : replayedOf st g ms s = n := by
  induction ms generalizing s g n with
  | nil => cases refused
  | cons m rest ih =>
    rw [Replayer.refused?] at refused
    rw [replayedOf]
    cases refusal : s.replayer.refusal? m with
    | some e' =>
      rw [refusal] at refused
      cases refused
      rw [replayMessage_of_refusal st g s refusal]
    | none =>
      rw [refusal] at refused
      obtain ⟨⟨n', e'⟩, others, same⟩ := Option.map_eq_some_iff.1 refused
      cases same
      rw [List.take_succ_cons, filterMap_cons_toList, Store.carryOut_append] at carried
      obtain ⟨_, store', first, carried⟩ := bind_eq_ok carried
      rw [replayMessage_of_accepted st g s refusal, first]
      dsimp only
      rw [ih others (by rw [Replayer.role_took]; exact carried)]

/-- Whether replaying was not cut short by the store. -/
def Unbroken : EStateM.Result (Nat × ReplayError) (State σ) (List Ack) → Prop
  | .error (_, .store _) _ => False
  | _ => True

theorem unbroken_error {there : Nat × ReplayError} {s : State σ}
    (h : Unbroken (.error there s)) (e : StoreError) : there.2 ≠ .store e := by
  obtain ⟨n, e'⟩ := there
  rintro rfl
  exact h

/-- How replaying group after group ends, told from the messages alone. -/
theorem replayGroups_error {s s' : State (σ × List StoreCall)} {n : Nat} {e : ReplayError}
    (failed : replayGroups st.recorded groups s = .error (n, e) s')
    (unbroken : ∀ e', e ≠ .store e') :
    s.replayer.refused? (groups.flatMap (·.2)) = some (n, e) ∧
      handed s'.store.2 = handed s.store.2 ++
        ((groups.flatMap (·.2)).take n).filterMap (call? s.replayer.role) := by
  induction groups generalizing s n with
  | nil => cases failed
  | cons first rest ih =>
    obtain ⟨syncDue, group⟩ := first
    rw [replayGroups] at failed
    rw [List.flatMap_cons]
    cases replayed : replayGroup st.recorded syncDue group s with
    | error e' s₁ =>
      rw [replayed] at failed
      cases failed
      -- This group fails, by a refusal, since the store is not to blame.
      rcases replayGroup_error replayed with ⟨n, stopped⟩ | ⟨e', rfl, -⟩
      · cases stopped with
        | failed => exact absurd rfl (unbroken _)
        | refused there refused replayer done =>
          obtain ⟨-, asked⟩ := Store.carryOut_recorded_ok done
          rw [replayedOf_eq refused done]
          refine ⟨Replayer.refused?_append_of_some refused _, ?_⟩
          rw [asked, handed_append, handed_calls,
            List.take_append_of_le_length (Nat.le_of_lt (Replayer.refused?_lt refused))]
      · exact absurd rfl (unbroken e')
    | ok g s₁ =>
      rw [replayed] at failed
      dsimp only at failed
      obtain ⟨accepted, -, replayer, carried⟩ := replayGroup_ok replayed
      obtain ⟨-, asked⟩ := Store.carryOut_recorded_ok carried
      have alike : (s.replayer.tookAll group).Alike s₁.replayer :=
        replayer ▸ Replayer.alike_counted _ _
      split at failed
      next n' e' s₂ later =>
        -- A later one fails, and the messages of this one stand in front of the refused one.
        cases failed
        obtain ⟨refused, calls⟩ := ih later
        rw [alike.refused?] at refused
        rw [alike.role, Replayer.role_tookAll] at calls
        refine ⟨?_, ?_⟩
        · rw [Replayer.refused?_append_of_none accepted, refused]
          rfl
        · rw [calls, asked, handed_append, handed_append, handed_calls, handed_write,
            List.append_nil, List.take_length_add_append, List.filterMap_append, List.append_assoc]
      next => cases failed

theorem replayGroups_ok {s s' : State (σ × List StoreCall)} {acks : List Ack}
    (done : replayGroups st.recorded groups s = .ok acks s') :
    s.replayer.refused? (groups.flatMap (·.2)) = none ∧
      acks = s.replayer.allAnswers (groups.flatMap (·.2)) ∧
      (s.replayer.tookAll (groups.flatMap (·.2))).Alike s'.replayer ∧
      handed s'.store.2 = handed s.store.2 ++
        (groups.flatMap (·.2)).filterMap (call? s.replayer.role) ∧
      lastWritten s'.store.2 =
        if groups = [] then lastWritten s.store.2 else some s'.replayer.durableState := by
  induction groups generalizing s acks with
  | nil =>
    cases done
    exact ⟨rfl, rfl, .refl _, (List.append_nil _).symm, rfl⟩
  | cons first rest ih =>
    obtain ⟨syncDue, group⟩ := first
    rw [replayGroups] at done
    rw [List.flatMap_cons]
    cases replayed : replayGroup st.recorded syncDue group s with
    | error e' s₁ =>
      rw [replayed] at done
      cases done
    | ok g s₁ =>
      rw [replayed] at done
      dsimp only at done
      obtain ⟨accepted, result, replayer, carried⟩ := replayGroup_ok replayed
      obtain ⟨-, asked⟩ := Store.carryOut_recorded_ok carried
      have alike : (s.replayer.tookAll group).Alike s₁.replayer :=
        replayer ▸ Replayer.alike_counted _ _
      have answered : g.acks = s.replayer.allAnswers group := by
        rw [result]
        rfl
      split at done
      next => cases done
      next acks' s₂ later =>
        cases done
        obtain ⟨accepted', rfl, alike', calls, written⟩ := ih later
        rw [alike.refused?] at accepted'
        rw [alike.role, Replayer.role_tookAll] at calls
        refine ⟨?_, ?_, ?_, ?_, ?_⟩
        · rw [Replayer.refused?_append_of_none accepted, accepted']
          rfl
        · rw [answered, alike.allAnswers, Replayer.allAnswers_append]
        · rw [Replayer.tookAll_append]
          exact (alike.tookAll _).trans alike'
        · rw [calls, asked, handed_append, handed_append, handed_calls, handed_write,
            List.append_nil, List.filterMap_append, List.append_assoc]
        · rw [written, if_neg (List.cons_ne_nil _ _)]
          split
          next empty =>
            -- The last group is this one.
            subst empty
            cases later
            rw [asked, lastWritten_append_write, alike.durableState]
          next => rfl

/-- What two ways of replaying have in common: they both stop at the same message, for the
    same reason, with the same records handed over; or neither stops, and they also
    acknowledge the same, and come to the same watermarks in memory and in the store. -/
def SameEnd : EStateM.Result (Nat × ReplayError) (State (σ × List StoreCall)) (List Ack) →
    EStateM.Result (Nat × ReplayError) (State (σ × List StoreCall)) (List Ack) → Prop
  | .error there s, .error there' s' =>
    there = there' ∧ handed s.store.2 = handed s'.store.2
  | .ok acks s, .ok acks' s' =>
    acks = acks' ∧ handed s.store.2 = handed s'.store.2 ∧
      s.replayer.highVlsn = s'.replayer.highVlsn ∧ s.replayer.dtvlsn = s'.replayer.dtvlsn ∧
      s.replayer.term = s'.replayer.term ∧ s.replayer.acks = s'.replayer.acks ∧
      lastWritten s.store.2 = lastWritten s'.store.2
  | _, _ => False

theorem eq_nil_of_flatMap_eq_nil (filled : ∀ group ∈ groups, group.2 ≠ [])
    (empty : groups.flatMap (·.2) = []) : groups = [] := by
  cases groups with
  | nil => rfl
  | cons first rest =>
    rw [List.flatMap_cons, List.append_eq_nil_iff] at empty
    exact absurd empty.1 (filled first List.mem_cons_self)

/-- The same messages come to the same, however they are cut into groups. -/
theorem sameEnd_replayGroups (filled : ∀ group ∈ groups, group.2 ≠ [])
    (filled' : ∀ group ∈ groups', group.2 ≠ [])
    (messages : groups.flatMap (·.2) = groups'.flatMap (·.2)) (s : State (σ × List StoreCall))
    (unbroken : Unbroken (replayGroups st.recorded groups s))
    (unbroken' : Unbroken (replayGroups st.recorded groups' s)) :
    SameEnd (replayGroups st.recorded groups s) (replayGroups st.recorded groups' s) := by
  have empty : groups = [] ↔ groups' = [] := by
    refine ⟨fun nil => eq_nil_of_flatMap_eq_nil filled' ?_,
      fun nil => eq_nil_of_flatMap_eq_nil filled ?_⟩
    · rw [← messages, nil, List.flatMap_nil]
    · rw [messages, nil, List.flatMap_nil]
  -- Both ends are told from the messages, which are the same.
  cases done : replayGroups st.recorded groups s with
  | ok acks s₁ =>
    obtain ⟨accepted, answers, alike, calls, written⟩ := replayGroups_ok done
    cases done' : replayGroups st.recorded groups' s with
    | ok acks' s₂ =>
      obtain ⟨-, answers', alike', calls', written'⟩ := replayGroups_ok done'
      rw [← messages] at answers' alike' calls'
      obtain ⟨n, same⟩ := alike
      obtain ⟨n', same'⟩ := alike'
      refine ⟨answers.trans answers'.symm, calls.trans calls'.symm, ?_, ?_, ?_, ?_, ?_⟩
      · rw [same, same']
      · rw [same, same']
      · rw [same, same']
      · rw [same, same']
      · rw [written, written', same, same']
        simp only [empty]
        rfl
    | error there s₂ =>
      rw [done'] at unbroken'
      obtain ⟨refused, -⟩ := replayGroups_error done' (unbroken_error unbroken')
      rw [← messages, accepted] at refused
      cases refused
  | error there s₁ =>
    rw [done] at unbroken
    obtain ⟨refused, calls⟩ := replayGroups_error done (unbroken_error unbroken)
    cases done' : replayGroups st.recorded groups' s with
    | ok acks' s₂ =>
      obtain ⟨accepted, -⟩ := replayGroups_ok done'
      rw [← messages, refused] at accepted
      cases accepted
    | error there' s₂ =>
      rw [done'] at unbroken'
      obtain ⟨refused', calls'⟩ := replayGroups_error done' (unbroken_error unbroken')
      rw [← messages] at refused' calls'
      obtain rfl : there = there' := Option.some.inj (refused.symm.trans refused')
      exact ⟨rfl, calls.trans calls'.symm⟩

/-- A commit and a heartbeat make one group, or two. -/
theorem sameEnd_replayGroups_two :
    let c : Message := .commit {
      vlsn := 3, txn := 7, dtvlsn := 2, term := 1, sync := .sync, needsAck := true
      timestamp := 0 }
    let h : Message := .heartbeat 1 0 3
    let s : State (MemoryStore × List StoreCall) :=
      { replayer := { role := .replica }, store := ({}, []) }
    (Unbroken (replayGroups MemoryStore.store.recorded [(false, [c, h])] s) ∧
      Unbroken (replayGroups MemoryStore.store.recorded [(true, [c]), (false, [h])] s)) ∧
      SameEnd (replayGroups MemoryStore.store.recorded [(false, [c, h])] s)
        (replayGroups MemoryStore.store.recorded [(true, [c]), (false, [h])] s) := by
  intro c h s
  have unbroken : Unbroken (replayGroups MemoryStore.store.recorded [(false, [c, h])] s) := trivial
  have unbroken' : Unbroken
      (replayGroups MemoryStore.store.recorded [(true, [c]), (false, [h])] s) := trivial
  exact ⟨⟨unbroken, unbroken'⟩,
    sameEnd_replayGroups (by simp) (by simp) rfl s unbroken unbroken'⟩

end State

end Replication.Replay
