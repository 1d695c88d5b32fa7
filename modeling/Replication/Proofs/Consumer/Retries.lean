import Mathlib.Data.List.Forall2
import Replication.Consumer.Loop
import Replication.Link.Scripted

/-! # Retries are bounded

A consumer that cannot reach its master tries again until more failures of one class have come
in a row than the last of them allows.  What the loop keeps for this is the class of the last
failure and a count that starts at zero; `Tracks` says how many failures in a row that stands
for, whatever classes come one after the other.
-/

namespace Replication.Consumer

variable {σ τ : Type}

/-! ## Failures in a row -/

/-- How many failures at the end of some are of a class. -/
def trail (failures : List PassingFailure) (cls : RetryClass) : Nat :=
  (failures.reverse.takeWhile (·.cls = cls)).length

/-- How many failures of its class in a row a failure ends that comes behind others. -/
def streak (failures : List PassingFailure) (f : PassingFailure) : Nat :=
  trail failures f.cls + 1

/-- Whether none of some failures ends more of its class in a row than it allows, when they
    come behind others. -/
def Borne (before : List PassingFailure) : List PassingFailure → Prop
  | [] => True
  | f :: failures => (streak before f : Int) ≤ f.retries ∧ Borne (before ++ [f]) failures

instance decidableBorne : ∀ before failures, Decidable (Borne before failures)
  | _, [] => .isTrue trivial
  | before, f :: failures =>
    @instDecidableAnd _ _ _ (decidableBorne (before ++ [f]) failures)

theorem trail_concat (failures : List PassingFailure) (f : PassingFailure) (cls : RetryClass) :
    trail (failures ++ [f]) cls = if f.cls = cls then trail failures cls + 1 else 0 := by
  rw [trail, List.reverse_concat, List.takeWhile_cons]
  split <;> simp_all [trail]

/-- Whether a count stands for the failures so far: it is one less than their number in a row,
    of its class, and no failure of another class is the last one. -/
structure RetryCount.Tracks (c : RetryCount) (failures : List PassingFailure) : Prop where
  used : 0 ≤ c.used
  same : ∀ cls, c.cls = some cls → (trail failures cls : Int) = c.used + 1
  other : ∀ cls, c.cls ≠ some cls → trail failures cls = 0

theorem RetryCount.Tracks.nil : RetryCount.Tracks {} [] :=
  ⟨Int.le_refl 0, nofun, fun _ _ => rfl⟩

/-- A failure uses the count up just when it ends more of its class in a row than it allows, and
    is counted otherwise. -/
theorem RetryCount.Tracks.after {c : RetryCount} {failures : List PassingFailure}
    (h : c.Tracks failures) {f : PassingFailure} (retries : 0 ≤ f.retries) :
    (f.retries < streak failures f ∧ c.after f = none) ∨
      ((streak failures f : Int) ≤ f.retries ∧
        ∃ c', c.after f = some c' ∧ c'.Tracks (failures ++ [f])) := by
  have used := h.used
  rw [RetryCount.after, streak]
  -- A failure of the class that is counted adds to the row, and any other one ends it.
  by_cases same : c.cls = some f.cls
  · have row := h.same f.cls same
    rw [if_pos (.inl same)]
    split
    next up => exact .inl ⟨by omega, rfl⟩
    next left =>
      refine .inr ⟨by omega, _, rfl, ?_, fun cls now => ?_, fun cls now => ?_⟩
      · change 0 ≤ c.used + 1
        omega
      · obtain rfl : f.cls = cls := Option.some.inj (same.symm.trans now)
        rw [trail_concat, if_pos rfl]
        push_cast
        omega
      · rw [trail_concat, if_neg fun eq => now (same.trans (congrArg some eq))]
  · -- The count starts anew, unless no retry is allowed at all.
    have row := h.other f.cls same
    by_cases none : f.retries = 0
    · rw [if_pos (.inr none), if_pos (by omega)]
      exact .inl ⟨by omega, rfl⟩
    · rw [if_neg (not_or.2 ⟨same, none⟩)]
      refine .inr ⟨by omega, _, rfl, Int.le_refl 0, fun cls now => ?_, fun cls now => ?_⟩
      · obtain rfl : f.cls = cls := Option.some.inj now
        rw [trail_concat, if_pos rfl, row]
        rfl
      · rw [trail_concat, if_neg fun eq => now (congrArg some eq)]

/-! ## Attempts that fail -/

/-- What the loop looks at between two attempts. -/
def looks (c : Consumer τ) : Group.MasterStatus × Bool := (c.masters, c.stopped)

theorem looks_foldl_notice {c c' : Consumer τ} (same : looks c = looks c') (events : List Event) :
    looks (events.foldl notice c) = looks (events.foldl notice c') := by
  induction events generalizing c c' with
  | nil => exact same
  | cons e events ih =>
    refine ih ?_
    have masters : c.masters = c'.masters := congrArg (·.1) same
    have stopped : c.stopped = c'.stopped := congrArg (·.2) same
    cases e <;> simp only [looks, notice, masters, stopped]

theorem node_foldl_notice (c : Consumer τ) (events : List Event) :
    (events.foldl notice c).masters.node = c.masters.node := by
  induction events generalizing c with
  | nil => rfl
  | cons e events ih => cases e <;> exact ih _

/-- A consumer that follows the group's master again knows what it knew. -/
theorem masters_foldl_notice {c : Consumer τ} {events : List Event} (before : c.masters.InSync)
    (again : (events.foldl notice c).masters.InSync) :
    (events.foldl notice c).masters = c.masters := by
  have node := node_foldl_notice c events
  have group : (events.foldl notice c).masters.group = c.masters.group := by
    rw [← again.2, ← before.2, node]
  calc
    (events.foldl notice c).masters = ⟨_, _⟩ := rfl
    _ = c.masters := by rw [node, group]

/-- Whether an attempt of a consumer fails in passing, and its master turns out to be the
    group's still, then and behind the pause, where nobody has stopped the consumer. -/
structure Attempt.Fails (c : Consumer τ) (a : Attempt σ) (f : PassingFailure) : Prop where
  outcome : a.outcome = .error (.passing f)
  retries : 0 ≤ f.retries
  found : (a.meanwhile.foldl notice c).masters.InSync
  woken : ((a.meanwhile ++ a.afterwards).foldl notice c).masters.InSync
  going : ((a.meanwhile ++ a.afterwards).foldl notice c).stopped = false

/-- Whether an attempt of a consumer fails in passing, and another master turns out to be the
    group's, then or behind the pause. -/
structure Attempt.Strays (c : Consumer τ) (a : Attempt σ) (f : PassingFailure) : Prop where
  outcome : a.outcome = .error (.passing f)
  obsolete : ¬ (a.meanwhile.foldl notice c).masters.InSync ∨
    ¬ ((a.meanwhile ++ a.afterwards).foldl notice c).masters.InSync

section Same

variable {c c' : Consumer τ} {a : Attempt σ} {f : PassingFailure}

/-- Of the consumer only what the loop looks at matters. -/
theorem Attempt.Fails.of_looks (h : a.Fails c f) (same : looks c' = looks c) : a.Fails c' f := by
  obtain ⟨masters, -⟩ := Prod.mk.inj (looks_foldl_notice same a.meanwhile)
  obtain ⟨masters', stopped⟩ := Prod.mk.inj (looks_foldl_notice same (a.meanwhile ++ a.afterwards))
  exact ⟨h.outcome, h.retries, masters ▸ h.found, masters' ▸ h.woken, stopped ▸ h.going⟩

theorem Attempt.Strays.of_looks (h : a.Strays c f) (same : looks c' = looks c) : a.Strays c' f := by
  obtain ⟨masters, -⟩ := Prod.mk.inj (looks_foldl_notice same a.meanwhile)
  obtain ⟨masters', -⟩ := Prod.mk.inj (looks_foldl_notice same (a.meanwhile ++ a.afterwards))
  exact ⟨h.outcome, by rw [masters, masters']; exact h.obsolete⟩

end Same

section Loop

variable (setup : Setup σ τ) (drive : Streaming σ τ → Streaming σ τ) {c : Consumer τ}
  {a : Attempt σ} {f : PassingFailure} {count : RetryCount}

/-- An attempt that fails has asked for one link, and leaves the consumer as events do. -/
theorem attempt_fails (inSync : c.masters.InSync) (outcome : a.outcome = .error (.passing f)) :
    (attempt setup drive a c).error = some (.connect (.passing f)) ∧
      (attempt setup drive a c).reached = [c.masters.node.name] ∧
      looks (attempt setup drive a c).consumer = looks (a.meanwhile.foldl notice c) := by
  have follows : c.masters.assertSync = .ok () := if_pos inSync
  rw [attempt, connect]
  simp only [follows, outcome, true_and]
  refine looks_foldl_notice ?_ a.meanwhile
  rfl

theorem reached_attempt (inSync : c.masters.InSync) :
    (attempt setup drive a c).reached = [c.masters.node.name] := by
  have follows : c.masters.assertSync = .ok () := if_pos inSync
  rw [attempt, connect]
  simp only [follows]
  cases a.outcome with
  | error e => rfl
  | ok link =>
    dsimp only
    generalize introduce setup c.masters.node link _ = introduced
    cases introduced <;> rfl

theorem exists_reached_followFrom (count : RetryCount) (inSync : c.masters.InSync)
    (going : c.stopped = false) (attempts : List (Attempt σ)) :
    ∃ next, (followFrom setup drive count c attempts).reached = c.masters.node.name :: next := by
  -- Whatever comes of the first attempt, it has asked for its link.
  cases attempts with
  | nil =>
    rw [followFrom, going, if_neg Bool.false_ne_true]
    exact ⟨[], reached_attempt setup drive inSync⟩
  | cons a rest =>
    have one : (attempt setup drive a c).reached = [c.masters.node.name] :=
      reached_attempt setup drive inSync
    rw [followFrom, going, if_neg Bool.false_ne_true]
    dsimp only
    split
    · exact ⟨[], one⟩
    · split
      · exact ⟨[], one⟩
      · split
        · exact ⟨[], one⟩
        · exact ⟨_, congrArg (· ++ _) one⟩
    · split <;> exact ⟨[], one⟩

/-- A failure that uses the count up is the last. -/
theorem followFrom_last (inSync : c.masters.InSync) (going : c.stopped = false)
    (fails : a.Fails c f) (up : count.after f = none) (rest : List (Attempt σ)) :
    (followFrom setup drive count c (a :: rest)).error = none ∧
      (followFrom setup drive count c (a :: rest)).reached = [c.masters.node.name] := by
  obtain ⟨error, reached, -⟩ := attempt_fails setup drive inSync fails.outcome
  rw [followFrom, going, if_neg Bool.false_ne_true]
  simp only [error, up, ite_self, true_and]
  exact reached

/-- Nor is there another attempt when the group has another master. -/
theorem followFrom_strays (inSync : c.masters.InSync) (going : c.stopped = false)
    (strays : a.Strays c f) (rest : List (Attempt σ)) :
    (followFrom setup drive count c (a :: rest)).error = none ∧
      (followFrom setup drive count c (a :: rest)).reached = [c.masters.node.name] := by
  obtain ⟨error, reached, known⟩ :=
    attempt_fails setup drive inSync strays.outcome
  have woken := looks_foldl_notice known a.afterwards
  rw [← List.foldl_append] at woken
  obtain ⟨masters, -⟩ := Prod.mk.inj known
  obtain ⟨masters', -⟩ := Prod.mk.inj woken
  rw [followFrom, going, if_neg Bool.false_ne_true]
  simp only [error]
  split
  · exact ⟨rfl, reached⟩
  next count' more =>
    -- The count is not used up, so it has been looked at, for a consumer still in sync.
    have found : (attempt setup drive a c).consumer.masters.InSync :=
      Decidable.byContradiction fun obsolete => by rw [if_neg obsolete] at more; cases more
    rw [masters] at found
    rw [masters', if_pos (.inr (strays.obsolete.resolve_left (not_not.2 found)))]
    exact ⟨rfl, reached⟩

/-- Any other failure is followed by what a consumer does that knows what this one knew. -/
theorem followFrom_fails {count' : RetryCount} (inSync : c.masters.InSync)
    (going : c.stopped = false) (fails : a.Fails c f) (more : count.after f = some count')
    (rest : List (Attempt σ)) :
    ∃ c', looks c' = looks c ∧
      (followFrom setup drive count c (a :: rest)).error =
        (followFrom setup drive count' c' rest).error ∧
      (followFrom setup drive count c (a :: rest)).reached =
        c.masters.node.name :: (followFrom setup drive count' c' rest).reached := by
  obtain ⟨error, reached, known⟩ := attempt_fails setup drive inSync fails.outcome
  have woken := looks_foldl_notice known a.afterwards
  rw [← List.foldl_append] at woken
  obtain ⟨masters, -⟩ := Prod.mk.inj known
  obtain ⟨masters', stopped⟩ := Prod.mk.inj woken
  refine ⟨a.afterwards.foldl notice (attempt setup drive a c).consumer, ?_, ?_⟩
  · rw [looks, looks, masters', stopped, fails.going, going, masters_foldl_notice inSync fails.woken]
  · rw [followFrom, going, if_neg Bool.false_ne_true]
    have awake : ¬ ((a.afterwards.foldl notice (attempt setup drive a c).consumer).stopped = true ∨
        ¬ (a.afterwards.foldl notice (attempt setup drive a c).consumer).masters.InSync) := by
      rw [stopped, masters', fails.going]
      exact not_or.2 ⟨Bool.false_ne_true, not_not.2 fails.woken⟩
    simp only [error, masters, if_pos fails.found, more]
    rw [if_neg awake, reached]
    exact ⟨rfl, rfl⟩

end Loop

/-! ## The loop -/

section Runs

variable (setup : Setup σ τ) (drive : Streaming σ τ → Streaming σ τ) {c : Consumer τ}
  (inSync : c.masters.InSync) (going : c.stopped = false) {attempts : List (Attempt σ)}
  {failures : List PassingFailure} (fail : List.Forall₂ (Attempt.Fails c) attempts failures)

include inSync going fail

/-- Behind failures that are borne the loop goes on, with their number in a row counted. -/
theorem followFrom_borne {before : List PassingFailure} {count : RetryCount} {c₁ : Consumer τ}
    (same : looks c₁ = looks c) (tracks : count.Tracks before) (borne : Borne before failures)
    (rest : List (Attempt σ)) :
    ∃ count' c', looks c' = looks c ∧ count'.Tracks (before ++ failures) ∧
      (followFrom setup drive count c₁ (attempts ++ rest)).error =
        (followFrom setup drive count' c' rest).error ∧
      (followFrom setup drive count c₁ (attempts ++ rest)).reached =
        List.replicate attempts.length c.masters.node.name ++
          (followFrom setup drive count' c' rest).reached := by
  -- Each failure is counted, so the count stands for those so far, whatever they were.
  induction fail generalizing before count c₁ with
  | nil =>
    rw [List.append_nil]
    exact ⟨count, c₁, same, tracks, rfl, rfl⟩
  | @cons a f attempts failures fails _ ih =>
    obtain ⟨allowed, borne⟩ := borne
    obtain ⟨masters, stopped⟩ := Prod.mk.inj same
    rcases tracks.after fails.retries with ⟨up, -⟩ | ⟨-, count₂, more, tracks'⟩
    · exact absurd allowed (Int.not_le.2 up)
    · obtain ⟨c₂, same', error, reached⟩ := followFrom_fails setup drive
        (masters ▸ inSync) (stopped.trans going) (fails.of_looks same) more (attempts ++ rest)
      obtain ⟨count', c', same'', tracks'', error', reached'⟩ := ih (same'.trans same) tracks' borne
      refine ⟨count', c', same'', ?_, error.trans error', ?_⟩
      · rwa [List.append_assoc] at tracks''
      · rw [List.cons_append, reached, reached', masters, List.length_cons, List.replicate_succ]
        rfl

/-- A consumer that follows its group's master asks for one link for each failure in passing, and
    then for another one, as long as none of the failures ends more of its class in a row than
    it allows; the first one that does is the last, and the consumer is back without an error.
    So it is behind a failure after which, or after the pause behind which, the group has another
    master. -/
theorem follow_retries (borne : Borne [] failures) :
    (∀ rest, ∃ next, (follow setup drive (attempts ++ rest) c).reached =
      List.replicate (attempts.length + 1) c.masters.node.name ++ next) ∧
    ∀ (last : Attempt σ) (f : PassingFailure) (rest : List (Attempt σ)),
      (last.Fails c f ∧ f.retries < streak failures f) ∨ last.Strays c f →
        (follow setup drive (attempts ++ last :: rest) c).error = none ∧
        (follow setup drive (attempts ++ last :: rest) c).reached =
          List.replicate (attempts.length + 1) c.masters.node.name := by
  refine ⟨fun rest => ?_, fun last f rest ends => ?_⟩
  · obtain ⟨count, c', same, -, -, reached⟩ := followFrom_borne setup drive
      inSync going fail rfl .nil borne rest
    obtain ⟨masters, stopped⟩ := Prod.mk.inj same
    obtain ⟨next, another⟩ := exists_reached_followFrom setup drive count (masters ▸ inSync)
      (stopped.trans going) rest
    refine ⟨next, ?_⟩
    change (followFrom setup drive {} c (attempts ++ rest)).reached = _
    rw [reached, another, masters, List.replicate_succ', List.append_assoc]
    rfl
  · obtain ⟨count, c', same, tracks, error, reached⟩ := followFrom_borne setup drive
      inSync going fail rfl .nil borne (last :: rest)
    obtain ⟨masters, stopped⟩ := Prod.mk.inj same
    have follows : c'.masters.InSync := masters ▸ inSync
    have awake : c'.stopped = false := stopped.trans going
    have ended : (followFrom setup drive count c' (last :: rest)).error = none ∧
        (followFrom setup drive count c' (last :: rest)).reached = [c'.masters.node.name] := by
      rcases ends with ⟨fails, up⟩ | strays
      · rcases tracks.after fails.retries with ⟨-, none⟩ | ⟨allowed, -⟩
        · exact followFrom_last setup drive follows awake (fails.of_looks same) none rest
        · exact absurd up (Int.not_lt.2 allowed)
      · exact followFrom_strays setup drive follows awake (strays.of_looks same) rest
    change (followFrom setup drive {} c (attempts ++ last :: rest)).error = none ∧
      (followFrom setup drive {} c (attempts ++ last :: rest)).reached = _
    rw [error, reached, ended.1, ended.2, masters, List.replicate_succ']
    exact ⟨rfl, rfl⟩

end Runs

/-! ## Refusals of two classes -/

namespace Refusals

open Replication.Link (ScriptedLink)
open Replication.Replay (MemoryStore)

/-- A replica that comes to no link. -/
def setup : Setup ScriptedLink MemoryStore where
  node := .ofAscii "r2"
  nodeId := 2
  codec := { limit := 48, limit_pos := by decide }
  transport := ScriptedLink.transport
  store := MemoryStore.store
  requestCapacity := 1
  outputCapacity := 2
  groupSize := 1
  groupedAcks := false
  preHeartbeatTimeout := 0
  replicaTimeout := 0

def master : Group.Master := { name := .ofAscii "m1", id := 1 }

/-- A replica that follows the group's master. -/
def consumer : Consumer MemoryStore where
  masters := { group := master, node := master }
  replay := { replayer := { role := .replica }, store := {} }

/-- A failure that allows two retries. -/
def failure (cls : RetryClass) : PassingFailure :=
  { cls, retries := 2, pause := 10, reason := [] }

/-- Two classes by turns, and then one of them twice. -/
def failures : List PassingFailure :=
  [.unreachable, .unavailable, .unreachable, .unavailable, .unreachable, .unreachable].map failure

/-- An attempt that fails while the master is elected once more. -/
def refused (f : PassingFailure) : Attempt ScriptedLink :=
  { meanwhile := [.elect master], outcome := .error (.passing f) }

/-- An attempt in the pause behind which another master is elected. -/
def overtaken (f : PassingFailure) : Attempt ScriptedLink :=
  { outcome := .error (.passing f), afterwards := [.elect { name := .ofAscii "m2", id := 2 }] }

end Refusals

open Refusals in
/-- The third refusal in a row is the last attempt; so is a first one if another master is
    elected. -/
theorem follow_retries_alternating :
    consumer.masters.InSync ∧ consumer.stopped = false ∧
      List.Forall₂ (Attempt.Fails consumer) (failures.map refused) failures ∧ Borne [] failures ∧
      (failure .unreachable).retries < streak failures (failure .unreachable) ∧
      (follow setup id (failures.map refused ++ [refused (failure .unreachable)]) consumer).reached =
        List.replicate 7 master.name ∧
      ¬ (failure .unavailable).retries < streak failures (failure .unavailable) ∧
      (follow setup id (failures.map refused ++ [overtaken (failure .unavailable),
        refused (failure .unavailable)]) consumer).reached = List.replicate 7 master.name := by
  have inSync : consumer.masters.InSync := by decide
  have fails : ∀ f : PassingFailure, 0 ≤ f.retries → (refused f).Fails consumer f :=
    fun f allowed => ⟨rfl, allowed, inSync, inSync, rfl⟩
  have fail : List.Forall₂ (Attempt.Fails consumer) (failures.map refused) failures := by
    rw [List.forall₂_map_left_iff, List.forall₂_same]
    have allowed : ∀ f ∈ failures, 0 ≤ f.retries := by decide
    exact fun f mem => fails f (allowed f mem)
  have borne : Borne [] failures := by decide
  have up : (failure .unreachable).retries < streak failures (failure .unreachable) := by decide
  have strays : (overtaken (failure .unavailable)).Strays consumer (failure .unavailable) :=
    ⟨rfl, by decide⟩
  obtain ⟨-, ends⟩ := follow_retries setup id inSync rfl fail borne
  exact ⟨inSync, rfl, fail, borne, up, (ends _ _ [] (.inl ⟨fails _ (by decide), up⟩)).2, by decide,
    (ends _ _ _ (.inr strays)).2⟩

end Replication.Consumer
