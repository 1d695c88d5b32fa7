import Replication.Proofs.Replay.Replies

/-! # The course of a replay

Whether a replayer refuses a message, what it becomes when it takes one, what it asks its
store for and what it acknowledges all follow from the messages and the replayer alone.
The store has a say in one thing: at which of these calls the replay stops, if at any.
-/

namespace Replication.Replay

open Replication.Stream (Message Entry Commit)

/-! ## Stores -/

def call? : Role → Message → Option StoreCall
  | .replica, .entry e => some (.entry e)
  | .replica, .commit c => some (.commit c)
  | _, _ => none

namespace Store

variable {σ : Type}

def perform (st : Store σ) : StoreCall → EStateM StoreError σ Unit
  | .load => do
    let _ ← st.load
    return ()
  | .entry e => st.replayEntry e
  | .commit c => st.replayCommit c
  | .write state sync => st.writeDurable state sync

/-- Carries out calls, one after the other, until one fails. -/
def carryOut (st : Store σ) : List StoreCall → EStateM StoreError σ Unit
  | [] => return ()
  | call :: calls => do
    st.perform call
    st.carryOut calls

theorem carryOut_append (st : Store σ) (calls calls' : List StoreCall) :
    st.carryOut (calls ++ calls') = (st.carryOut calls >>= fun _ => st.carryOut calls') := by
  induction calls with
  | nil => rfl
  | cons call calls ih => simp [carryOut, ih]

end Store

/-! ## Messages -/

/-- The dtvlsn behind a message. -/
def dtvlsnAfter (role : Role) (dtvlsn : Int64) : Message → Int64
  | .commit c =>
    match role with
    | .arbiter => max dtvlsn c.effectiveDtvlsn
    | .replica => c.effectiveDtvlsn
  | _ => dtvlsn

namespace Replayer

/-- Why a replayer refuses a message, if it does. -/
def refusal? (r : Replayer) : Message → Option ReplayError
  | .heartbeat .. | .shutdownRequest _ => none
  | .entry e =>
    match r.role with
    | .arbiter => some (.entryAtArbiter e.type e.vlsn)
    | .replica => none
  | .commit c =>
    match r.role with
    | .arbiter => none
    | .replica =>
      if c.effectiveDtvlsn < r.dtvlsn then
        some (.dtvlsnRegressed r.dtvlsn c.effectiveDtvlsn c.vlsn)
      else none
  | m => some (.unexpected m.op)

/-- The replayer that has looked at a message, and has not taken it yet. -/
def met (r : Replayer) : Message → Replayer
  | .commit c => { r.raise c.vlsn with term := c.term }
  | _ => r

def took (r : Replayer) : Message → Replayer
  | .commit c =>
    let r' := r.met (.commit c)
    { r' with
      dtvlsn := dtvlsnAfter r.role r.dtvlsn (.commit c)
      acks := r'.acks + (due r.role (.commit c)).toList.length }
  | .entry e => r.raise e.vlsn
  | _ => r

/-- The acknowledgment that makes a reply at this moment. -/
def answer (r : Replayer) : Reply → Ack
  | .heartbeat id => r.ack .heartbeat id
  | .txn id => r.ack .txn id

/-- What is acknowledged of a message that was taken. -/
def answers (r : Replayer) (m : Message) : List Ack :=
  (due r.role m).toList.map (r.took m).answer

end Replayer

/-- Whether a message wants the group to go to stable storage. -/
def wantsSync : Message → Bool
  | .commit c => c.sync = .sync
  | _ => false

def shutdown? : Message → Option Int64
  | .shutdownRequest time => some time
  | _ => none

def GroupResult.add (g : GroupResult) (m : Message) (acks : List Ack) : GroupResult where
  acks := g.acks ++ acks
  shutdown := (shutdown? m).or g.shutdown
  synced := g.synced || wantsSync m

namespace State

variable {σ : Type} (st : Store σ) (g : GroupResult) (s : State σ)

theorem ite_lt_eq_max (d e : Int64) : (if d < e then e else d) = max d e := by
  change _ = if d ≤ e then e else d
  by_cases less : d < e
  · rw [if_pos less, if_pos (Int64.le_of_lt less)]
  · rw [if_neg less]
    split
    next le => exact Int64.le_antisymm le (Int64.not_lt.1 less)
    next => rfl

/-- The dtvlsn does not depend on the highest position. -/
@[simp] theorem dtvlsn_raise (r : Replayer) (vlsn : Int64) : (r.raise vlsn).dtvlsn = r.dtvlsn := by
  unfold Replayer.raise
  split <;> rfl

theorem onStore_of_ok {α : Type} {x : EStateM StoreError σ α} {a : α} {store : σ}
    (done : x s.store = .ok a store) : onStore x s = .ok a { s with store } := by
  rw [onStore, done]

theorem onStore_of_error {α : Type} {x : EStateM StoreError σ α} {e : StoreError} {store : σ}
    (failed : x s.store = .error e store) : onStore x s = .error (.store e) { s with store } := by
  rw [onStore, failed]

theorem carryOut_singleton (call : StoreCall) : st.carryOut [call] = st.perform call := by
  funext a
  simp only [Store.carryOut, bind, EStateM.bind, pure, EStateM.pure]
  cases st.perform call a <;> rfl

/-- A message that is refused is not handed to the store. -/
theorem replayMessage_of_refusal {m : Message} {e : ReplayError}
    (refused : s.replayer.refusal? m = some e) :
    replayMessage st g m s = .error e { s with replayer := s.replayer.met m } := by
  cases m with
  | heartbeat id now last | shutdownRequest time => cases refused
  | entry e' =>
    cases role : s.replayer.role with
    | replica => simp [Replayer.refusal?, role] at refused
    | arbiter =>
      have failed : replayEntry st e' s = .error (.entryAtArbiter e'.type e'.vlsn) s := by
        rw [replayEntry, get_bind, role]
        rfl
      simp only [Replayer.refusal?, role] at refused
      cases refused
      rw [replayMessage, bind_eq_of_error failed]
      rfl
  | commit c =>
    cases role : s.replayer.role with
    | arbiter => simp [Replayer.refusal?, role] at refused
    | replica =>
      simp only [Replayer.refusal?, role] at refused
      split at refused
      next less =>
        cases refused
        -- The vlsn of the commit has been noted before its dtvlsn is looked at.
        let s₁ : State σ := { s with replayer := s.replayer.met (.commit c) }
        have failed : takeCommit st c s₁ =
            .error (.dtvlsnRegressed s.replayer.dtvlsn c.effectiveDtvlsn c.vlsn) s₁ := by
          have role' : s₁.replayer.role = .replica := (Replayer.role_raise _ _).trans role
          have dtvlsn : s₁.replayer.dtvlsn = s.replayer.dtvlsn := dtvlsn_raise _ _
          rw [takeCommit, get_bind, role']
          dsimp only
          rw [dtvlsn, if_pos less]
          rfl
        have failed' : replayCommit st c s = .error _ s₁ :=
          (bind_eq_of_ok (show update _ s = .ok () s₁ from rfl)).trans (bind_eq_of_error failed)
        rw [replayMessage, bind_eq_of_error failed']
      next => cases refused
  | _ =>
    cases refused
    rfl

/-- Acknowledging only counts. -/
theorem acknowledge_eq (c : Commit) :
    acknowledge c s = .ok ((due s.replayer.role (.commit c)).map s.replayer.answer)
      { s with replayer := { s.replayer with
          acks := s.replayer.acks + (due s.replayer.role (.commit c)).toList.length } } := by
  rw [acknowledge, get_bind, due]
  split
  · rfl
  · rfl

theorem takeCommit_of_accepted {c : Commit} (accepted : s.replayer.refusal? (.commit c) = none) :
    takeCommit st c { s with replayer := s.replayer.met (.commit c) } =
      match st.carryOut (call? s.replayer.role (.commit c)).toList s.store with
      | .ok () store =>
        .ok () { replayer := { s.replayer.met (.commit c) with
          dtvlsn := dtvlsnAfter s.replayer.role s.replayer.dtvlsn (.commit c) }, store }
      | .error e store =>
        .error (.store e) { replayer := s.replayer.met (.commit c), store } := by
  -- Neither the role nor the dtvlsn has changed when the commit is looked at.
  let s₁ : State σ := { s with replayer := s.replayer.met (.commit c) }
  have role' : s₁.replayer.role = s.replayer.role := Replayer.role_raise _ _
  have dtvlsn : s₁.replayer.dtvlsn = s.replayer.dtvlsn := dtvlsn_raise _ _
  change takeCommit st c s₁ = _
  rw [takeCommit, get_bind, role']
  cases role : s.replayer.role with
  | arbiter =>
    dsimp only [call?, Option.toList, Store.carryOut, dtvlsnAfter]
    rw [← dtvlsn, ← ite_lt_eq_max]
    change EStateM.Result.ok () { s₁ with replayer := _ } = EStateM.Result.ok () _
    dsimp only
    by_cases less : s₁.replayer.dtvlsn < c.effectiveDtvlsn
    · rw [if_pos less, if_pos less]
    · rw [if_neg less, if_neg less]
  | replica =>
    simp only [Replayer.refusal?, role] at accepted
    split at accepted
    · cases accepted
    next ordered =>
      dsimp only [call?, Option.toList]
      rw [dtvlsn, if_neg ordered, carryOut_singleton, Store.perform]
      cases stored : st.replayCommit c s.store with
      | ok u store =>
        rw [bind_eq_of_ok (onStore_of_ok s₁ stored)]
        rfl
      | error e store =>
        rw [bind_eq_of_error (onStore_of_error s₁ stored)]

/-- What a message that is not refused comes to, if the store carries out its call. -/
theorem replayMessage_of_accepted {m : Message} (accepted : s.replayer.refusal? m = none) :
    replayMessage st g m s =
      match st.carryOut (call? s.replayer.role m).toList s.store with
      | .ok () store =>
        .ok (g.add m (s.replayer.answers m)) { replayer := s.replayer.took m, store }
      | .error e store => .error (.store e) { replayer := s.replayer.met m, store } := by
  -- Only a commit leaves a trace if the store fails, since its vlsn is noted first.
  cases m with
  | heartbeat id now last =>
    have quiet : call? s.replayer.role (.heartbeat id now last) = none := by
      cases s.replayer.role <;> rfl
    rw [quiet]
    simp [Store.carryOut, replayMessage, get_bind, GroupResult.add, shutdown?, wantsSync,
      Replayer.answers, due, Replayer.answer, Replayer.took]
    rfl
  | shutdownRequest time =>
    have quiet : call? s.replayer.role (.shutdownRequest time) = none := by
      cases s.replayer.role <;> rfl
    rw [quiet]
    simp [Store.carryOut, replayMessage, GroupResult.add, shutdown?, wantsSync,
      Replayer.answers, due, Replayer.took]
    rfl
  | entry e =>
    cases role : s.replayer.role with
    | arbiter => simp [Replayer.refusal?, role] at accepted
    | replica =>
      simp only [call?, Option.toList, carryOut_singleton, Store.perform]
      cases stored : st.replayEntry e s.store with
      | ok u store =>
        have replayed : replayEntry st e s =
            .ok () { replayer := s.replayer.raise e.vlsn, store } := by
          rw [replayEntry, get_bind, role]
          dsimp only
          rw [bind_eq_of_ok (onStore_of_ok s stored)]
          rfl
        rw [replayMessage, bind_eq_of_ok replayed]
        simp [GroupResult.add, shutdown?, wantsSync, Replayer.answers, due, Replayer.took]
        rfl
      | error e' store =>
        have failed : replayEntry st e s = .error (.store e') { s with store } := by
          rw [replayEntry, get_bind, role]
          dsimp only
          rw [bind_eq_of_error (onStore_of_error s stored)]
        rw [replayMessage, bind_eq_of_error failed]
        rfl
  | commit c =>
    have taken := takeCommit_of_accepted st s accepted
    cases stored : st.carryOut (call? s.replayer.role (.commit c)).toList s.store with
    | ok u store =>
      rw [stored] at taken
      have role' : (s.replayer.met (.commit c)).role = s.replayer.role := Replayer.role_raise _ _
      have replayed : replayCommit st c s = _ :=
        (bind_eq_of_ok (show update _ s = .ok () _ from rfl)).trans
          ((bind_eq_of_ok taken).trans (acknowledge_eq _ c))
      rw [replayMessage, bind_eq_of_ok replayed]
      simp only [GroupResult.add, shutdown?, wantsSync, Replayer.answers, Replayer.took, role']
      cases due s.replayer.role (.commit c) with
      | none => rfl
      | some reply => cases reply <;> rfl
    | error e store =>
      rw [stored] at taken
      have failed : replayCommit st c s = _ :=
        (bind_eq_of_ok (show update _ s = .ok () _ from rfl)).trans (bind_eq_of_error taken)
      rw [replayMessage, bind_eq_of_error failed]
  | _ => cases accepted

end State

/-! ## Groups -/

theorem filterMap_cons_toList {α β : Type} (f : α → Option β) (a : α) (as : List α) :
    (a :: as).filterMap f = (f a).toList ++ as.filterMap f := by
  rw [List.filterMap_cons]
  cases f a <;> rfl

namespace Replayer

/-- Why a replayer refuses one of some messages, and how many it takes before that. -/
def refused? (r : Replayer) : List Message → Option (Nat × ReplayError)
  | [] => none
  | m :: rest =>
    match r.refusal? m with
    | some e => some (0, e)
    | none => ((r.took m).refused? rest).map fun (n, e) => (n + 1, e)

def tookAll (r : Replayer) (ms : List Message) : Replayer :=
  ms.foldl took r

/-- What is acknowledged of messages that were taken. -/
def allAnswers (r : Replayer) : List Message → List Ack
  | [] => []
  | m :: rest => r.answers m ++ (r.took m).allAnswers rest

/-- A replayer that has made a group durable. -/
def counted (r : Replayer) (sync : Bool) : Replayer :=
  { r with groupSyncs := r.groupSyncs + sync.toNat }

@[simp] theorem role_took (r : Replayer) (m : Message) : (r.took m).role = r.role := by
  cases m with
  | commit c => exact r.role_raise c.vlsn
  | entry e => exact r.role_raise e.vlsn
  | _ => rfl

@[simp] theorem role_tookAll (r : Replayer) (ms : List Message) : (r.tookAll ms).role = r.role := by
  induction ms generalizing r with
  | nil => rfl
  | cons m rest ih => exact (ih (r.took m)).trans (r.role_took m)

@[simp] theorem dtvlsn_took (r : Replayer) (m : Message) :
    (r.took m).dtvlsn = dtvlsnAfter r.role r.dtvlsn m := by
  cases m with
  | entry e => exact State.dtvlsn_raise r e.vlsn
  | _ => rfl

theorem dtvlsn_tookAll (r : Replayer) (ms : List Message) :
    (r.tookAll ms).dtvlsn = ms.foldl (dtvlsnAfter r.role) r.dtvlsn := by
  induction ms generalizing r with
  | nil => rfl
  | cons m rest ih =>
    rw [List.foldl_cons, ← dtvlsn_took, ← r.role_took m]
    exact ih (r.took m)

theorem refused?_cons_eq_none {r : Replayer} {m : Message} {ms : List Message} :
    r.refused? (m :: ms) = none ↔ r.refusal? m = none ∧ (r.took m).refused? ms = none := by
  rw [refused?]
  cases refusal : r.refusal? m <;> simp

theorem reply?_answer (r : Replayer) (reply : Reply) : (r.answer reply).reply? = some reply := by
  cases reply <;> rfl

theorem replies_answers (r : Replayer) (m : Message) :
    (r.answers m).map (·.reply?) = (due r.role m).toList.map some := by
  simp [answers, Function.comp_def, reply?_answer]

/-- The acknowledgments are the replies that are due, one for one. -/
theorem replies_allAnswers (r : Replayer) (ms : List Message) :
    (r.allAnswers ms).map (·.reply?) = (ms.filterMap (due r.role)).map some := by
  induction ms generalizing r with
  | nil => rfl
  | cons m rest ih =>
    rw [allAnswers, List.map_append, replies_answers, ih, role_took, filterMap_cons_toList,
      List.map_append]

end Replayer

def GroupResult.addAll (g : GroupResult) (ms : List Message) (acks : List Ack) : GroupResult where
  acks := g.acks ++ acks
  shutdown := ms.foldl (fun time m => (shutdown? m).or time) g.shutdown
  synced := g.synced || ms.any wantsSync

namespace State

variable {σ : Type} {st : Store σ} {g g' : GroupResult} {s s' : State σ} {ms : List Message}

/-- Where replaying stops: at a message that is refused, or whose call fails. -/
inductive Stopped (st : Store σ) (s s' : State σ) (ms : List Message) (n : Nat) :
    ReplayError → Prop where
  | refused {m : Message} {e : ReplayError} (there : ms[n]? = some m)
    (refused : s.replayer.refused? ms = some (n, e))
    (replayer : s'.replayer = (s.replayer.tookAll (ms.take n)).met m)
    (done : st.carryOut ((ms.take n).filterMap (call? s.replayer.role)) s.store = .ok () s'.store) :
    Stopped st s s' ms n e
  | failed {m : Message} {e : StoreError} (there : ms[n]? = some m)
    (replayer : s'.replayer = (s.replayer.tookAll (ms.take n)).met m)
    (failed : st.carryOut ((ms.take (n + 1)).filterMap (call? s.replayer.role)) s.store =
      .error e s'.store) : Stopped st s s' ms n (.store e)

theorem foldlM_ok (done : ms.foldlM (replayMessage st) g s = .ok g' s') :
    s.replayer.refused? ms = none ∧ g' = g.addAll ms (s.replayer.allAnswers ms) ∧
      s'.replayer = s.replayer.tookAll ms ∧
      st.carryOut (ms.filterMap (call? s.replayer.role)) s.store = .ok () s'.store := by
  induction ms generalizing g s with
  | nil =>
    cases done
    refine ⟨rfl, ?_, rfl, rfl⟩
    simp [GroupResult.addAll, Replayer.allAnswers]
  | cons m rest ih =>
    rw [List.foldlM_cons] at done
    obtain ⟨g₁, s₁, first, others⟩ := bind_eq_ok done
    -- A message that is refused, or whose call fails, would have ended the fold with an error.
    cases refusal : s.replayer.refusal? m with
    | some e =>
      rw [replayMessage_of_refusal st g s refusal] at first
      cases first
    | none =>
      rw [replayMessage_of_accepted st g s refusal] at first
      cases stored : st.carryOut (call? s.replayer.role m).toList s.store with
      | error e store =>
        rw [stored] at first
        cases first
      | ok u store =>
        rw [stored] at first
        cases first
        obtain ⟨accepted, result, replayer, carried⟩ := ih others
        rw [Replayer.role_took] at carried
        refine ⟨?_, ?_, replayer, ?_⟩
        · simp [Replayer.refused?, refusal, accepted]
        · rw [result]
          simp [GroupResult.addAll, GroupResult.add, Replayer.allAnswers, Bool.or_assoc]
        · rw [filterMap_cons_toList, Store.carryOut_append, bind_eq_of_ok stored]
          exact carried

theorem foldlM_error {e : ReplayError}
    (failed : ms.foldlM (replayMessage st) g s = .error e s') : ∃ n, Stopped st s s' ms n e := by
  induction ms generalizing g s with
  | nil => cases failed
  | cons m rest ih =>
    rw [List.foldlM_cons] at failed
    cases refusal : s.replayer.refusal? m with
    | some e' =>
      rw [bind_eq_of_error (replayMessage_of_refusal st g s refusal)] at failed
      cases failed
      refine ⟨0, .refused rfl ?_ rfl rfl⟩
      simp [Replayer.refused?, refusal]
    | none =>
      have first := replayMessage_of_accepted st g s refusal
      cases stored : st.carryOut (call? s.replayer.role m).toList s.store with
      | error e' store =>
        rw [stored] at first
        rw [bind_eq_of_error first] at failed
        cases failed
        -- Only a message that leads to a call can fail in the store.
        refine ⟨0, .failed rfl rfl ?_⟩
        cases called : call? s.replayer.role m <;> simpa [called] using stored
      | ok u store =>
        rw [stored] at first
        rw [bind_eq_of_ok first] at failed
        obtain ⟨n, stopped⟩ := ih failed
        refine ⟨n + 1, ?_⟩
        cases stopped with
        | refused there refused replayer done =>
          refine .refused there ?_ replayer ?_
          · simp [Replayer.refused?, refusal, refused]
          · rw [Replayer.role_took] at done
            rw [List.take_succ_cons, filterMap_cons_toList, Store.carryOut_append,
              bind_eq_of_ok stored]
            exact done
        | failed there replayer broke =>
          refine .failed there replayer ?_
          rw [Replayer.role_took] at broke
          rw [List.take_succ_cons, filterMap_cons_toList, Store.carryOut_append,
            bind_eq_of_ok stored]
          exact broke

theorem onStore_eq_ok {α : Type} {x : EStateM StoreError σ α} {a : α}
    (done : onStore x s = .ok a s') : x s.store = .ok a s'.store ∧ s'.replayer = s.replayer := by
  unfold onStore at done
  split at done
  next worked =>
    cases done
    exact ⟨worked, rfl⟩
  next => cases done

theorem onStore_eq_error {α : Type} {x : EStateM StoreError σ α} {e : ReplayError}
    (failed : onStore x s = .error e s') :
    ∃ e', e = .store e' ∧ x s.store = .error e' s'.store ∧ s'.replayer = s.replayer := by
  unfold onStore at failed
  split at failed
  next => cases failed
  next e' store broke =>
    cases failed
    exact ⟨e', rfl, broke, rfl⟩

/-- A group that is replayed is taken message by message and then made durable. -/
theorem replayGroup_ok {syncDue : Bool} (done : replayGroup st syncDue ms s = .ok g s') :
    s.replayer.refused? ms = none ∧
      g = { GroupResult.addAll {} ms (s.replayer.allAnswers ms) with
        synced := ms.any wantsSync || syncDue } ∧
      s'.replayer = (s.replayer.tookAll ms).counted g.synced ∧
      st.carryOut (ms.filterMap (call? s.replayer.role) ++
        [.write (s.replayer.tookAll ms).durableState g.synced]) s.store = .ok () s'.store := by
  obtain ⟨g₁, s₁, folded, done⟩ := bind_eq_ok done
  obtain ⟨accepted, rfl, replayer, carried⟩ := foldlM_ok folded
  rw [get_bind] at done
  obtain ⟨_, s₂, written, done⟩ := bind_eq_ok done
  obtain ⟨wrote, same⟩ := onStore_eq_ok written
  rw [Store.carryOut_append, bind_eq_of_ok carried, carryOut_singleton, ← replayer]
  have synced : (GroupResult.addAll {} ms (s.replayer.allAnswers ms)).synced = ms.any wantsSync :=
    Bool.false_or _
  rw [synced] at done wrote
  dsimp only at done
  -- The replayer counts the writes that were synced.
  split at done
  next sync =>
    cases done
    refine ⟨accepted, rfl, ?_, wrote⟩
    rw [← same, sync]
    rfl
  next sync =>
    cases done
    refine ⟨accepted, rfl, ?_, wrote⟩
    rw [same, Bool.eq_false_iff.2 sync]
    rfl

/-- Its acknowledgments are the replies that are due. -/
theorem replies_replayGroup {syncDue : Bool} (done : replayGroup st syncDue ms s = .ok g s') :
    g.acks.map (·.reply?) = (ms.filterMap (due s.replayer.role)).map some := by
  obtain ⟨-, rfl, -, -⟩ := replayGroup_ok done
  exact Replayer.replies_allAnswers s.replayer ms

theorem filterMap_replies_replayGroup {syncDue : Bool}
    (done : replayGroup st syncDue ms s = .ok g s') :
    g.acks.filterMap (·.reply?) = ms.filterMap (due s.replayer.role) := by
  have same := congrArg (List.filterMap id) (replies_replayGroup done)
  simpa [List.filterMap_map] using same

theorem isSome_reply?_replayGroup {syncDue : Bool}
    (done : replayGroup st syncDue ms s = .ok g s') : ∀ a ∈ g.acks, a.reply?.isSome := by
  intro a mem
  have mem := List.mem_map_of_mem (f := (·.reply?)) mem
  rw [replies_replayGroup done] at mem
  obtain ⟨reply, -, same⟩ := List.mem_map.1 mem
  rw [← same]
  rfl

/-- A group without a shutdown request asks for no shutdown. -/
theorem unasked_replayGroup {syncDue : Bool} (records : ∀ m ∈ ms, ∀ time, m ≠ .shutdownRequest time)
    (done : replayGroup st syncDue ms s = .ok g s') : g.shutdown = none := by
  obtain ⟨-, rfl, -, -⟩ := replayGroup_ok done
  dsimp only [GroupResult.addAll]
  clear done
  induction ms with
  | nil => rfl
  | cons m rest ih =>
    have plain : shutdown? m = none := by
      cases m with
      | shutdownRequest time => exact absurd rfl (records _ List.mem_cons_self time)
      | _ => rfl
    rw [List.foldl_cons, plain]
    exact ih fun m' mem => records m' (List.mem_cons_of_mem _ mem)

/-- One that is not was stopped at a message, or its write failed. -/
theorem replayGroup_error {syncDue : Bool} {e : ReplayError}
    (failed : replayGroup st syncDue ms s = .error e s') :
    (∃ n, Stopped st s s' ms n e) ∨
      ∃ e', e = .store e' ∧ s'.replayer = s.replayer.tookAll ms ∧
        st.carryOut (ms.filterMap (call? s.replayer.role) ++
          [.write (s.replayer.tookAll ms).durableState (ms.any wantsSync || syncDue)]) s.store =
            .error e' s'.store := by
  -- Either a message stops the group, or all were taken and the write fails.
  rcases bind_eq_error failed with stopped | ⟨g₁, s₁, folded, failed⟩
  · exact .inl (foldlM_error stopped)
  · obtain ⟨-, rfl, replayer, carried⟩ := foldlM_ok folded
    rw [get_bind] at failed
    rcases bind_eq_error failed with broke | ⟨_, s₂, written, failed⟩
    · obtain ⟨e', rfl, broke, same⟩ := onStore_eq_error broke
      refine .inr ⟨e', rfl, same.trans replayer, ?_⟩
      rw [Store.carryOut_append, bind_eq_of_ok carried, carryOut_singleton, ← replayer]
      exact broke
    · dsimp only at failed
      split at failed <;> cases failed

end State

end Replication.Replay
