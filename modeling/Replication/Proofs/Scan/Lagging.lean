import Replication.Proofs.Scan.Exactness

/-! # Base batches of a shard that lags

A base scan starts when just the shard's own partitions are open, and waits for the ones that
the base does not have there to catch up.  Those are not scanned by it: whether the partitions
that it does scan have caught up makes no difference to it, as `scanBase_congr` tells.
-/

namespace Replication.Scan

open Replication.Placement (History PartitionId PlacementError ShardId Topology)

/-! ## What is not asked -/

section Blind

variable {ω : Type} {view : ShardView ω} {query : Query} {base : Topology}
  {caughtUp : PartitionId → EStateM PlacementError ω Bool}

/-- A walk does not ask what has caught up. -/
theorem readFrom_congr (view : ShardView ω)
    (caughtUp : PartitionId → EStateM PlacementError ω Bool) (query : Query)
    (accepts : PartitionId → Bool) (cursor : Option IndexEntry) :
    readFrom { view with caughtUp } query accepts cursor =
      readFrom view query accepts cursor := by
  induction left : entriesBehind cursor using Nat.strongRecOn generalizing cursor with
  | _ left ih =>
    subst left
    rw [readFrom, readFrom]
    refine congrArg (bind get) (funext fun r => ?_)
    split
    · rfl
    refine congrArg (bind (Reading.next view cursor)) (funext fun found => ?_)
    cases found with
    | none => rfl
    | some e =>
      obtain ⟨e, follows⟩ := e
      dsimp only
      rw [ih _ (entriesBehind_lt follows) (some e) rfl]

/-- A base scan asks it only of partitions that the base does not have at the shard. -/
theorem obstacle?_congr
    (agree : ∀ p ∉ base.partitionsOf view.shard, caughtUp p = view.caughtUp p)
    (here : Topology) :
    obstacle? { view with caughtUp } base here = obstacle? view base here := by
  unfold obstacle?
  split
  · rfl
  refine congrArg (bind (ScanM.look view.openPartitions)) (funext fun opened => ?_)
  split
  · rfl
  have arrived : ∀ l : List PartitionId, (∀ p ∈ l, p ∉ base.partitionsOf view.shard) →
      l.findM? (fun p => return !(← (ScanM.look (caughtUp p) : ScanM ω Bool))) =
        l.findM? fun p => return !(← (ScanM.look (view.caughtUp p) : ScanM ω Bool)) := by
    intro l other
    induction l with
    | nil => rfl
    | cons p l ih =>
      obtain ⟨first, rest⟩ := List.forall_mem_cons.1 other
      rw [List.findM?, List.findM?, agree p first, ih rest]
  dsimp only
  rw [arrived _ fun p mem => of_decide_eq_true (List.mem_filter.1 mem).2]

theorem awaitBase_congr
    (agree : ∀ p ∉ base.partitionsOf view.shard, caughtUp p = view.caughtUp p)
    (patience : Nat) :
    awaitBase { view with caughtUp } base patience = awaitBase view base patience := by
  induction patience with
  | zero =>
    unfold awaitBase
    simp only [obstacle?_congr agree]
  | succ patience ih =>
    unfold awaitBase
    simp only [obstacle?_congr agree, ih]

theorem scanBaseWithin_congr
    (agree : ∀ p ∉ base.partitionsOf view.shard, caughtUp p = view.caughtUp p)
    (patience attempts : Nat) :
    scanBaseWithin { view with caughtUp } query patience base attempts =
      scanBaseWithin view query patience base attempts := by
  induction attempts with
  | zero => rfl
  | succ attempts ih =>
    have batches (accepts : PartitionId → Bool) (resume : Option IndexEntry)
        (put : Option IndexEntry → ContinuationKey → ContinuationKey) :
        readBatch { view with caughtUp } query accepts resume put =
          readBatch view query accepts resume put := by
      funext s
      rw [readBatch, readBatch, readFrom_congr]
    unfold scanBaseWithin
    rw [awaitBase_congr agree]
    simp only [batches, ih]
    rfl

/-- Whether the partitions that it scans have caught up makes no difference to a base scan. -/
theorem scanBase_congr {s : Scanning ω} {h : History} {world : ω}
    (looked : view.history s.world = .ok h world) (recorded : h.get s.key.topology = .ok base)
    (agree : ∀ p ∉ base.partitionsOf view.shard, caughtUp p = view.caughtUp p)
    (patience : Nat) :
    scanBase { view with caughtUp } query patience s = scanBase view query patience s := by
  have found : ScanM.look view.history s = .ok h { s with world } := by
    rw [ScanM.look, looked]
  rw [scanBase, scanBase, get_bind, get_bind]
  dsimp only
  rw [bind_eq_of_ok found, bind_eq_of_ok found, recorded]
  exact congrFun (scanBaseWithin_congr agree patience _) _

end Blind

/-! ## What is asked -/

section Asked

variable {x : ShardId} {query : Query} {base : Topology} {s s' : Scanning Timeline}

/-- If none of some partitions is found to lag, each had caught up when it was looked at. -/
theorem caughtUp_of_findM? {l : List PartitionId}
    (done : (l.findM? (fun p => return !(← ScanM.look ((Timeline.view x).caughtUp p))) :
      ScanM Timeline (Option PartitionId)) s = .ok none s') :
    ∀ p ∈ l, ∃ t, s.world.Reaches t ∧ t.Reaches s'.world ∧ p ∉ (t.now.shard x).lagging := by
  induction l generalizing s with
  | nil => exact fun p mem => absurd mem List.not_mem_nil
  | cons first rest ih =>
    rw [List.findM?, bind_assoc, bind_eq_of_ok (look_caughtUp s first)] at done
    by_cases caught : first ∉ (s.world.now.shard x).lagging
    · rw [decide_eq_true caught] at done
      change (rest.findM? _ : ScanM Timeline (Option PartitionId))
        { s with world := s.world.pass } = .ok none s' at done
      have later :=
        (Glances.findM? (fun _ => (Glances.caughtUp _).bind fun _ => .pure _) rest).of_ok done
      refine List.forall_mem_cons.2 ⟨⟨s.world, .refl _, (Timeline.Reaches.pass _).trans later.1,
        caught⟩, fun p mem => ?_⟩
      obtain ⟨t, before, after, caught⟩ := ih done p mem
      exact ⟨t, (Timeline.Reaches.pass _).trans before, after, caught⟩
    · rw [decide_eq_false caught] at done
      cases done

/-- How a shard is found when the reading of a base batch starts: it had heard of the query's
    topology or a later one at a moment, just its own partitions were open at the next look,
    and the ones that the base does not have there had caught up before the start. -/
structure Footing (base : Topology) (x : ShardId) (t start : Timeline) : Prop where
  known : ¬ (t.now.shard x).topology.sequence < base.sequence
  opened : ∀ p, p ∈ (t.pass.now.shard x).opened ↔
    (t.now.shard x).topology.placement.get? p = some x
  arrivals : ∀ p, (t.now.shard x).topology.placement.get? p = some x →
    base.placement.get? p ≠ some x →
      ∃ look, t.pass.pass.Reaches look ∧ look.Reaches start ∧ p ∉ (look.now.shard x).lagging

theorem footing_of_awaitBase {patience : Nat} {here : Topology}
    (done : awaitBase (Timeline.view x) base patience s = .ok here s') :
    ∃ t, s.world.Reaches t ∧ t.pass.Reaches s'.world ∧ here = (t.now.shard x).topology ∧
      Footing base x t s'.world := by
  obtain ⟨s₀, reaches, heard, looked⟩ := awaitBase_looked done
  have later := ((Glances.obstacle? _).of_ok looked).1
  refine ⟨s₀.world, reaches, later, heard, ?_⟩
  subst heard
  rw [obstacle?] at looked
  -- No obstacle was found, so each of the three questions was answered in favour.
  split at looked
  · cases (pure_eq_ok looked).1
  next known =>
    dsimp only at looked
    rw [bind_eq_of_ok (look_opened _)] at looked
    split at looked
    · cases (pure_eq_ok looked).1
    next same =>
      obtain ⟨owned, foreign⟩ := not_not.1 same
      obtain ⟨found, s₁, asked, looked⟩ := bind_eq_ok looked
      obtain ⟨none_, rfl⟩ := pure_eq_ok looked
      cases found with
      | some p => cases none_
      | none =>
        refine ⟨known, fun p => ⟨fun opened => mem_partitionsOf.1 (foreign opened),
          fun home => owned (mem_partitionsOf.2 home)⟩, fun p home other => ?_⟩
        refine caughtUp_of_findM? asked p (List.mem_filter.2 ⟨mem_partitionsOf.2 home, ?_⟩)
        exact decide_eq_true fun mem => other (mem_partitionsOf.1 mem)

/-- A walk takes nothing but what it asks for. -/
theorem asked_of_mem_readFrom {accepts : PartitionId → Bool} {cursor : Option IndexEntry}
    {start final : Reading Timeline} {exhausted : Bool}
    (read : readFrom (Timeline.view x) query accepts cursor start = .ok exhausted final) :
    ∀ e ∈ final.results, e ∈ start.results ∨ accepts e.partition = true := by
  -- Each turn stands at a later entry, so fewer are behind it.
  induction left : entriesBehind cursor using Nat.strongRecOn generalizing cursor start with
  | _ left ih =>
    subst left
    rw [readFrom_eq] at read
    split at read
    · cases read
      exact fun e mem => .inl mem
    cases found : (start.world.now.shard x).next cursor with
    | none =>
      rw [found] at read
      cases read
      exact fun e mem => .inl mem
    | some next =>
      rw [found] at read
      dsimp only at read
      intro e mem
      rcases ih _ (entriesBehind_lt next.2) read rfl e mem with before | asked
      · unfold Reading.find Reading.take at before
        grind
      · exact .inr asked

/-- A base batch that brings something has started on a footing, and brings it from partitions
    that the shard has both at the base and by then. -/
theorem footing_of_scanBaseWithin {patience attempts : Nat} {batch : Batch}
    (done : scanBaseWithin (Timeline.view x) query patience base attempts s = .ok batch s') :
    ∃ t start, s.world.Reaches t ∧ t.pass.Reaches start ∧ start.Reaches s'.world ∧
      Footing base x t start ∧ ∀ e ∈ batch.results,
        base.placement.get? e.partition = some x ∧
        (t.now.shard x).topology.placement.get? e.partition = some x ∧
        s'.key.virtualScans.get? e.partition = none := by
  induction attempts generalizing s with
  | zero => cases done
  | succ attempts ih =>
    obtain ⟨here, s₀, s₁, awaited, passed, begins, outcome⟩ := scanBaseWithin_succ_awaited done
    obtain ⟨t, before, after, rfl, footing⟩ := footing_of_awaitBase awaited
    -- The attempt is made again, brings nothing that counts, or brings the batch.
    rcases outcome with ⟨s₂, later, key, again⟩ | ⟨key, later, rfl⟩ | ⟨asked, s₂, kept⟩
    · obtain ⟨t', start, before', rest⟩ := ih again
      exact ⟨t', start, (((before.trans (.pass t)).trans after).trans
        (passed.trans later)).trans before', rest⟩
    · exact ⟨t, s₀.world, before, after, passed.trans later, footing,
        fun e mem => absurd mem List.not_mem_nil⟩
    · have read := kept.read
      have reading := (Forward.readBatch _ _ _).of_ok read
      refine ⟨t, s₀.world, before, after,
        passed.trans (reading.trans ((Timeline.Reaches.pass _).trans kept.looked)), footing,
        fun e mem => ?_⟩
      rw [readBatch] at read
      split at read
      next exhausted final walk =>
        cases read
        have among := asked_of_mem_readFrom walk e mem
        have target := (kept.targets _).1 (among.resolve_left List.not_mem_nil)
        refine ⟨target.1, begins.stayed _ target.1 target.2, ?_⟩
        rw [kept.key]
        exact target.2
      next => cases read

end Asked

/-- A base scan does not depend on whether the partitions that the base has at the shard have
    caught up, and these are the only ones that it brings anything of.  It makes sure that they
    are open there, and of all others that are that they have caught up. -/
theorem scanBase_footing {x : ShardId} {base : Topology} {s : Scanning Timeline}
    (recorded : s.world.now.history.get s.key.topology = .ok base) (query : Query)
    (patience : Nat) :
    (∀ caughtUp : PartitionId → EStateM PlacementError Timeline Bool,
      (∀ p, base.placement.get? p ≠ some x → caughtUp p = (Timeline.view x).caughtUp p) →
        scanBase { Timeline.view x with caughtUp } query patience s =
          scanBase (Timeline.view x) query patience s) ∧
    ∀ batch s', scanBase (Timeline.view x) query patience s = .ok batch s' →
      ∃ t start, s.world.Reaches t ∧ t.pass.Reaches start ∧ start.Reaches s'.world ∧
        Footing base x t start ∧ ∀ e ∈ batch.results,
          base.placement.get? e.partition = some x ∧
          (t.now.shard x).topology.placement.get? e.partition = some x ∧
          s'.key.virtualScans.get? e.partition = none := by
  constructor
  · intro caughtUp agree
    exact scanBase_congr rfl recorded
      (fun p other => agree p (mt mem_partitionsOf.2 other)) patience
  · intro batch s' done
    obtain ⟨attempts, done⟩ := scanBase_ok_within recorded done
    obtain ⟨t, start, before, rest⟩ := footing_of_scanBaseWithin done
    exact ⟨t, start, (Timeline.Reaches.pass _).trans before, rest⟩

/-! ## A partition that is not all there -/

namespace Laggard

/-- Partition 1 has moved from shard 2 to shard 1, which lags behind. -/
def world : Timeline where
  now :=
    { history := { topologies := [handoverTopology 2 1, handoverTopology 1 2] }
      shard := fun _ => {
        topology := handoverTopology 2 1
        opened := [0, 1]
        index := [⟨10, 0⟩, ⟨20, 1⟩]
        lagging := [1] } }

/-- A base scan of shard 1 for all entries, in a query that started on some topology. -/
def scan (sequence : Int64) : EStateM.Result ScanError (Scanning Timeline) Batch :=
  scanBase (Timeline.view 1) { admits := fun _ => true } 0
    { world, key := { topology := sequence } }

end Laggard

open Laggard in
/-- What the shard has is what its base scan finds. -/
theorem scanBase_footing_world :
    world.now.history.get 2 = .ok (handoverTopology 2 1) ∧ ∃ batch s', scan 2 = .ok batch s' ∧
      batch.results = [⟨10, 0⟩, ⟨20, 1⟩] ∧
      ∃ t start, world.Reaches t ∧ t.pass.Reaches start ∧ start.Reaches s'.world ∧
        Footing (handoverTopology 2 1) 1 t start ∧ ∀ e ∈ batch.results,
          (handoverTopology 2 1).placement.get? e.partition = some 1 ∧
          (t.now.shard 1).topology.placement.get? e.partition = some 1 ∧
          s'.key.virtualScans.get? e.partition = none := by
  have recorded : world.now.history.get 2 = .ok (handoverTopology 2 1) := by rfl
  have done : ∃ batch s', scan 2 = .ok batch s' ∧ batch.results = [⟨10, 0⟩, ⟨20, 1⟩] := by
    refine ⟨_, _, by cbv, ?_⟩
    rfl
  obtain ⟨batch, s', done, results⟩ := done
  exact ⟨recorded, batch, s', done, results,
    (scanBase_footing (s := { world, key := { topology := 2 } }) recorded
      { admits := fun _ => true } 0).2 batch s' done⟩

open Laggard in
/-- A query that started after the move reads the partition although the shard lags behind all
    the time, and leaves nothing for later.  One that started before waits in vain. -/
theorem scan_overlooks :
    (∀ t, world.Reaches t → 1 ∈ (t.now.shard 1).lagging) ∧
    (∃ s', scan 2 = .ok { results := [⟨10, 0⟩, ⟨20, 1⟩], exhausted := true } s' ∧
      s'.key.virtualScans.get? 1 = none) ∧
    ∃ s', scan 1 = .error (.obstructed 1 (.catchUp 1)) s' := by
  refine ⟨?_, ⟨_, by cbv, rfl⟩, ⟨_, by cbv⟩⟩
  rintro t ⟨looks, rfl⟩
  induction looks with
  | zero => decide
  | succ looks ih => exact ih

end Replication.Scan
