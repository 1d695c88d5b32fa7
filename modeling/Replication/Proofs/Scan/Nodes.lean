import Replication.Proofs.Scan.Reading

/-! # What a node learns from its looks

Most of what a node does only passes time.  What its answers say about the store holds of
the moments at which it looked.
-/

namespace Replication.Scan

open Replication.Placement (History PartitionId PlacementError ShardId Topology)

variable {α β : Type} {x : ShardId} {query : Query} {base : Topology}

/-! ## Computations that only look -/

/-- Whether a computation passes time and leaves the key alone, however it ends. -/
def Glances (c : ScanM Timeline α) : Prop :=
  ∀ s, s.world.Reaches (endState (c s)).world ∧ (endState (c s)).key = s.key

namespace Glances

theorem pure (a : α) : Glances (pure a) := fun _ => ⟨.refl _, rfl⟩

theorem throw (e : ScanError) : Glances (throw e : ScanM Timeline α) := fun _ => ⟨.refl _, rfl⟩

theorem history : Glances (ScanM.look (Timeline.view x).history) :=
  fun s => ⟨.pass s.world, rfl⟩

theorem topology : Glances (ScanM.look (Timeline.view x).localTopology) :=
  fun s => ⟨.pass s.world, rfl⟩

theorem opened : Glances (ScanM.look (Timeline.view x).openPartitions) :=
  fun s => ⟨.pass s.world, rfl⟩

theorem caughtUp (p : PartitionId) : Glances (ScanM.look ((Timeline.view x).caughtUp p)) :=
  fun s => ⟨.pass s.world, rfl⟩

theorem ask (answer : Except PlacementError α) : Glances (ScanM.ask answer) := by
  cases answer with
  | ok a => exact pure a
  | error e => exact throw _

theorem get : Glances get := fun _ => ⟨.refl _, rfl⟩

theorem count (f : NodeStats → NodeStats) : Glances (ScanM.count f) := fun _ => ⟨.refl _, rfl⟩

theorem bind {c : ScanM Timeline α} {f : α → ScanM Timeline β} (h : Glances c)
    (h' : ∀ a, Glances (f a)) : Glances (c >>= f) := by
  intro s
  obtain ⟨reaches, key⟩ := h s
  cases first : c s with
  | ok a s₁ =>
    rw [bind_eq_of_ok first]
    rw [first] at reaches key
    obtain ⟨reaches', key'⟩ := h' a s₁
    exact ⟨reaches.trans reaches', key'.trans key⟩
  | error e s₁ =>
    rw [bind_eq_of_error first]
    rw [first] at reaches key
    exact ⟨reaches, key⟩

theorem forM {f : α → ScanM Timeline PUnit} (h : ∀ a, Glances (f a)) (l : List α) :
    Glances (l.forM f) := by
  induction l with
  | nil => exact pure _
  | cons a l ih =>
    exact (h a).bind fun _ => ih

theorem findM? {f : α → ScanM Timeline Bool} (h : ∀ a, Glances (f a)) (l : List α) :
    Glances (l.findM? f) := by
  induction l with
  | nil => exact pure _
  | cons a l ih =>
    rw [List.findM?]
    refine (h a).bind fun found => ?_
    cases found with
    | true => exact pure _
    | false => exact ih

theorem mapM {f : α → ScanM Timeline β} (h : ∀ a, Glances (f a)) (l : List α) :
    Glances (l.mapM f) := by
  induction l with
  | nil => exact pure _
  | cons a l ih =>
    rw [List.mapM_cons]
    exact (h a).bind fun _ => ih.bind fun _ => pure _

/-! ## What a node looks at -/

theorem obstacle? (here : Topology) : Glances (obstacle? (Timeline.view x) base here) := by
  unfold Scan.obstacle?
  split
  · exact pure _
  dsimp only
  refine opened.bind fun opened => ?_
  split
  · exact pure _
  exact (findM? (fun _ => (caughtUp _).bind fun _ => pure _) _).bind fun _ => pure _

theorem awaitBase (patience : Nat) : Glances (awaitBase (Timeline.view x) base patience) := by
  induction patience with
  | zero =>
    unfold Scan.awaitBase
    refine topology.bind fun here => (obstacle? here).bind fun o => ?_
    cases o with
    | none => exact pure _
    | some o => exact throw _
  | succ patience ih =>
    unfold Scan.awaitBase
    refine topology.bind fun here => (obstacle? here).bind fun o => ?_
    cases o with
    | none => exact pure _
    | some o => exact ih

theorem checkReturned (here : Topology) : Glances (checkReturned (Timeline.view x) base here) := by
  unfold Scan.checkReturned
  refine get.bind fun s => forM (fun entry => (ask _).bind fun owner => ?_) _
  split
  · refine (ask _).bind fun owner => ?_
    split
    · exact throw _
    · exact pure _
  · exact pure _

theorem targetsLeft (targets : List PartitionId) :
    Glances (targetsLeft (Timeline.view x) targets) := by
  unfold Scan.targetsLeft
  exact topology.bind fun here => opened.bind fun opened =>
    (mapM (fun _ => ask _) _).bind fun owners => pure _

theorem isAvailable (p : PartitionId) : Glances (isAvailable (Timeline.view x) p) := by
  unfold Scan.isAvailable
  refine topology.bind fun here => (ask _).bind fun owner => ?_
  split
  · exact pure _
  refine opened.bind fun opened => ?_
  split
  · exact pure _
  · exact caughtUp p

theorem checkOwned (p : PartitionId) : Glances (checkOwned (Timeline.view x) p) := by
  unfold Scan.checkOwned
  refine history.bind fun history => (ask _).bind fun latest => (ask _).bind fun owner => ?_
  split
  · exact throw _
  · exact pure _

theorem awaitPartition (p : PartitionId) (patience : Nat) :
    Glances (awaitPartition (Timeline.view x) p patience) := by
  induction patience with
  | zero =>
    unfold Scan.awaitPartition
    refine (checkOwned p).bind fun _ => (isAvailable p).bind fun available => ?_
    cases available with
    | true => exact pure _
    | false => exact throw _
  | succ patience ih =>
    unfold Scan.awaitPartition
    refine (checkOwned p).bind fun _ => (isAvailable p).bind fun available => ?_
    cases available with
    | true => exact pure _
    | false => exact ih

end Glances

/-! ## What a look brings -/

section Looks

variable (s : Scanning Timeline)

theorem look_topology : ScanM.look (Timeline.view x).localTopology s =
    .ok (s.world.now.shard x).topology { s with world := s.world.pass } := rfl

theorem look_opened : ScanM.look (Timeline.view x).openPartitions s =
    .ok (s.world.now.shard x).opened { s with world := s.world.pass } := rfl

theorem look_caughtUp (p : PartitionId) : ScanM.look ((Timeline.view x).caughtUp p) s =
    .ok (decide (p ∉ (s.world.now.shard x).lagging)) { s with world := s.world.pass } := rfl

theorem look_history : ScanM.look (Timeline.view x).history s =
    .ok s.world.now.history { s with world := s.world.pass } := rfl

end Looks

section Inversions

variable {s s' : Scanning Timeline}

theorem Glances.of_ok {c : ScanM Timeline α} {a : α} (h : Glances c) (done : c s = .ok a s') :
    s.world.Reaches s'.world ∧ s'.key = s.key := by
  have glances := h s
  rw [done] at glances
  exact glances

/-- Where no obstacle is found the shard knows the topology, and has its partitions open. -/
theorem obstacle?_none {here : Topology}
    (done : obstacle? (Timeline.view x) base here s = .ok none s') :
    ¬ here.sequence < base.sequence ∧
      ∀ p ∈ here.partitionsOf x, p ∈ (s.world.now.shard x).opened := by
  rw [obstacle?] at done
  split at done
  · cases (pure_eq_ok done).1
  next known =>
    dsimp only at done
    rw [bind_eq_of_ok (look_opened s)] at done
    split at done
    · cases (pure_eq_ok done).1
    next same => exact ⟨known, (not_not.1 same).1⟩

/-- A base scan starts with a topology of its shard behind which no obstacle is found. -/
theorem awaitBase_looked {patience : Nat} {here : Topology}
    (done : awaitBase (Timeline.view x) base patience s = .ok here s') :
    ∃ s₀ : Scanning Timeline, s.world.Reaches s₀.world ∧
      here = (s₀.world.now.shard x).topology ∧
      obstacle? (Timeline.view x) base here { s₀ with world := s₀.world.pass } = .ok none s' := by
  induction patience generalizing s with
  | zero =>
    rw [awaitBase, bind_eq_of_ok (look_topology s)] at done
    obtain ⟨o, s₁, looked, done⟩ := bind_eq_ok done
    cases o with
    | none =>
      obtain ⟨rfl, rfl⟩ := pure_eq_ok done
      exact ⟨s, .refl _, rfl, looked⟩
    | some o => cases done
  | succ patience ih =>
    rw [awaitBase, bind_eq_of_ok (look_topology s)] at done
    obtain ⟨o, s₁, looked, done⟩ := bind_eq_ok done
    have later := (Glances.obstacle? _).of_ok looked
    cases o with
    | none =>
      obtain ⟨rfl, rfl⟩ := pure_eq_ok done
      exact ⟨s, .refl _, rfl, looked⟩
    | some o =>
      obtain ⟨s₀, reaches, rest⟩ := ih done
      exact ⟨s₀, ((Timeline.Reaches.pass _).trans later.1).trans reaches, rest⟩

/-- The topology that a base scan starts with is one that the shard has heard of, and the
    partitions that the shard has there are open at the look behind it. -/
theorem awaitBase_ok {patience : Nat} {here : Topology}
    (done : awaitBase (Timeline.view x) base patience s = .ok here s') :
    ¬ here.sequence < base.sequence ∧
      ∃ t, s.world.Reaches t ∧ t.pass.Reaches s'.world ∧ here = (t.now.shard x).topology ∧
        ∀ p ∈ here.partitionsOf x, p ∈ (t.pass.now.shard x).opened := by
  obtain ⟨s₀, reaches, heard, looked⟩ := awaitBase_looked done
  obtain ⟨known, opened⟩ := obstacle?_none looked
  exact ⟨known, s₀.world, reaches, ((Glances.obstacle? _).of_ok looked).1, heard, opened⟩

/-- Targets that have not left are open at the second look behind the batch. -/
theorem targetsLeft_false {targets : List PartitionId}
    (done : targetsLeft (Timeline.view x) targets s = .ok false s') :
    s.world.pass.Reaches s'.world ∧ ∀ p ∈ targets, p ∈ (s.world.pass.now.shard x).opened := by
  rw [targetsLeft, bind_eq_of_ok (look_topology s), bind_eq_of_ok (look_opened _)] at done
  obtain ⟨owners, s₁, asked, done⟩ := bind_eq_ok done
  have later := (Glances.mapM (fun _ => .ask _) _).of_ok asked
  obtain ⟨stayed, rfl⟩ := pure_eq_ok done
  rw [Bool.or_eq_false_iff] at stayed
  refine ⟨(Timeline.Reaches.pass _).trans later.1, fun p mem => ?_⟩
  simpa using List.any_eq_false.1 stayed.2 p mem

/-- A partition that can be scanned was open first and caught up then. -/
theorem isAvailable_true {p : PartitionId}
    (done : isAvailable (Timeline.view x) p s = .ok true s') :
    ∃ t, s.world.Reaches t ∧ t.pass.Reaches s'.world ∧ p ∈ (t.now.shard x).opened ∧
      p ∉ (t.pass.now.shard x).lagging := by
  rw [isAvailable, bind_eq_of_ok (look_topology s)] at done
  obtain ⟨owner, s₁, asked, done⟩ := bind_eq_ok done
  have later := (Glances.ask _).of_ok asked
  split at done
  · cases (pure_eq_ok done).1
  rw [bind_eq_of_ok (look_opened s₁)] at done
  split at done
  · cases (pure_eq_ok done).1
  next opened =>
    rw [look_caughtUp] at done
    injection done with caught final
    subst final
    exact ⟨s₁.world, (Timeline.Reaches.pass _).trans later.1, .pass _, not_not.1 opened,
      of_decide_eq_true caught⟩

theorem awaitPartition_ok {p : PartitionId} {patience : Nat}
    (done : awaitPartition (Timeline.view x) p patience s = .ok () s') :
    ∃ t, s.world.Reaches t ∧ t.pass.Reaches s'.world ∧ p ∈ (t.now.shard x).opened ∧
      p ∉ (t.pass.now.shard x).lagging := by
  -- Each look that finds the partition unavailable uses up some patience and passes time.
  induction patience generalizing s with
  | zero =>
    rw [awaitPartition] at done
    obtain ⟨_, s₁, owned, done⟩ := bind_eq_ok done
    obtain ⟨available, s₂, looked, done⟩ := bind_eq_ok done
    have later := (Glances.checkOwned p).of_ok owned
    cases available with
    | true =>
      cases (pure_eq_ok done).2
      obtain ⟨t, before, after, shown⟩ := isAvailable_true looked
      exact ⟨t, later.1.trans before, after, shown⟩
    | false => cases done
  | succ patience ih =>
    rw [awaitPartition] at done
    obtain ⟨_, s₁, owned, done⟩ := bind_eq_ok done
    obtain ⟨available, s₂, looked, done⟩ := bind_eq_ok done
    have later := (Glances.checkOwned p).of_ok owned
    cases available with
    | true =>
      cases (pure_eq_ok done).2
      obtain ⟨t, before, after, shown⟩ := isAvailable_true looked
      exact ⟨t, later.1.trans before, after, shown⟩
    | false =>
      obtain ⟨t, before, after, shown⟩ := ih done
      have later' := (Glances.isAvailable p).of_ok looked
      exact ⟨t, (later.1.trans later'.1).trans before, after, shown⟩

end Inversions

end Replication.Scan
