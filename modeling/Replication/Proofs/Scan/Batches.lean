import Replication.Proofs.Scan.Nodes

/-! # What a node's batches hold

While a relocation is under way, a base batch that is kept holds just the entries of its
partitions between two resume positions, since all of them were open to the end and so
throughout.  A virtual batch is exact because its partition was ready before and stays so.
-/

namespace Replication.Scan

open Replication.Placement (History PartitionId PlacementError ShardId Topology)

variable {α β : Type} {x : ShardId} {query : Query} {r : Relocation}

/-! ## Computations that pass time -/

/-- Whether a computation passes time, however it ends. -/
def Forward {ε σ : Type} (world : σ → Timeline) (c : EStateM ε σ α) : Prop :=
  ∀ s, (world s).Reaches (world (endState (c s)))

namespace Forward

section General

variable {ε σ : Type} {world : σ → Timeline} {s s' : σ}

theorem bind {c : EStateM ε σ α} {f : α → EStateM ε σ β} (h : Forward world c)
    (h' : ∀ a, Forward world (f a)) : Forward world (c >>= f) := by
  intro s
  have reaches := h s
  cases first : c s with
  | ok a s₁ =>
    rw [bind_eq_of_ok first]
    rw [first] at reaches
    exact reaches.trans (h' a s₁)
  | error e s₁ =>
    rw [bind_eq_of_error first]
    rw [first] at reaches
    exact reaches

theorem pure (a : α) : Forward world (pure a : EStateM ε σ α) := fun _ => .refl _

theorem throw (e : ε) : Forward world (throw e : EStateM ε σ α) := fun _ => .refl _

theorem of_ok {c : EStateM ε σ α} {a : α} (h : Forward world c) (done : c s = .ok a s') :
    (world s).Reaches (world s') := by
  have forward := h s
  rw [done] at forward
  exact forward

theorem of_error {c : EStateM ε σ α} {e : ε} (h : Forward world c) (failed : c s = .error e s') :
    (world s).Reaches (world s') := by
  have forward := h s
  rw [failed] at forward
  exact forward

end General

theorem of_glances {c : ScanM Timeline α} (h : Glances c) : Forward Scanning.world c :=
  fun s => (h s).1

theorem setKey (key : ContinuationKey) : Forward Scanning.world (ScanM.setKey key) :=
  fun _ => .refl _

theorem addDeparted (base here : Topology) :
    Forward Scanning.world (addDeparted (Timeline.view x) base here) := by
  unfold Scan.addDeparted
  generalize base.partitionsOf (Timeline.view x).shard = l
  induction l with
  | nil => exact pure _
  | cons p l ih =>
    refine bind ((of_glances (.ask _)).bind fun owner => (of_glances .get).bind fun now => ?_)
      fun _ => ih
    dsimp only
    split
    · exact (setKey _).bind fun _ => of_glances (.count _)
    · exact pure _

theorem readBatch (accepts : PartitionId → Bool) (resume : Option IndexEntry)
    (put : Option IndexEntry → ContinuationKey → ContinuationKey) :
    Forward Scanning.world (readBatch (Timeline.view x) query accepts resume put) := by
  intro s
  obtain ⟨exhausted, final, read, reaches⟩ := readFrom_reaches (x := x) query accepts
    resume { world := s.world, resume }
  rw [Scan.readBatch, read]
  exact reaches

theorem scanBaseWithin (patience : Nat) (base : Topology) (attempts : Nat) :
    Forward Scanning.world (scanBaseWithin (Timeline.view x) query patience base attempts) := by
  induction attempts with
  | zero => exact throw _
  | succ attempts ih =>
    unfold Scan.scanBaseWithin
    refine (of_glances (.awaitBase patience)).bind fun here => ?_
    refine (of_glances (.checkReturned here)).bind fun _ => ?_
    refine (addDeparted base here).bind fun _ => (of_glances .get).bind fun now => ?_
    refine (readBatch _ _ _).bind fun batch => (of_glances (.targetsLeft _)).bind fun left => ?_
    cases left with
    | true =>
      refine (setKey _).bind fun _ => (of_glances (.count _)).bind fun _ => ?_
      split
      · exact ih
      · exact (of_glances (.count _)).bind fun _ => pure _
    | false => exact (of_glances (.count _)).bind fun _ => pure _

theorem scanBase (patience : Nat) :
    Forward Scanning.world (scanBase (Timeline.view x) query patience) := by
  unfold Scan.scanBase
  exact (of_glances .get).bind fun _ => (of_glances .history).bind fun _ =>
    (of_glances (.ask _)).bind fun _ => scanBaseWithin patience _ _

theorem scanVirtual (patience : Nat) :
    Forward Scanning.world (scanVirtual (Timeline.view x) query patience) := by
  unfold Scan.scanVirtual
  refine (of_glances .get).bind fun now => ?_
  dsimp only
  split
  · exact throw _
  split
  · exact throw _
  refine (of_glances (.awaitPartition _ patience)).bind fun _ => ?_
  exact (readBatch _ _ _).bind fun _ => (of_glances (.count _)).bind fun _ => pure _

end Forward

/-! ## Batches -/

variable {s s' : Scanning Timeline}

/-- Whether a batch holds just what a query asks for between two resume positions, and has
    left nothing behind if it says so. -/
structure Exact (r : Relocation) (query : Query) (asked : PartitionId → Bool)
    (start stop : Option IndexEntry) (batch : Batch) : Prop where
  forward : reached start ≤ reached stop
  all : batch.exhausted = true → ∀ e ∈ r.entries, asked e.partition = true →
    e.position < reached stop
  count : ∀ e, batch.results.count e =
    if e ∈ r.entries ∧ asked e.partition = true ∧ query.admits e = true ∧
      reached start ≤ e.position ∧ e.position < reached stop then 1 else 0

/-- A batch during which everything shows is exact. -/
theorem readBatch_ok {accepts : PartitionId → Bool} {start : Option IndexEntry}
    {put : Option IndexEntry → ContinuationKey → ContinuationKey} {batch : Batch}
    (done : readBatch (Timeline.view x) query accepts start put s = .ok batch s')
    (shows_ : ∀ t, s.world.Reaches t → t.Reaches s'.world → Shows r x accepts t) :
    ∃ stop, s'.key = put stop s.key ∧ Exact r query accepts start stop batch := by
  rw [readBatch] at done
  split at done
  next exhausted final read =>
    cases done
    have walked := readFrom_walked (r := r) read (Nat.le_refl _) shows_
    obtain ⟨more, results, count⟩ := walked.found
    refine ⟨final.resume, rfl, walked.forward, fun done e mem asked => ?_, fun e => ?_⟩
    · have forward := walked.forward
      dsimp only at forward
      by_cases after : reached start ≤ e.position
      · exact walked.all done e mem asked after
      · omega
    · rw [results, List.nil_append]
      exact count e
  next => cases done

/-! ## Base batches -/

theorem mem_partitionsOf {t : Topology} {p : PartitionId} :
    p ∈ t.partitionsOf x ↔ t.placement.get? p = some x := by
  rw [Table.get?_eq_some_iff, Topology.partitionsOf, List.mem_map]
  constructor
  · rintro ⟨⟨q, home⟩, mem, rfl⟩
    obtain ⟨listed, same⟩ := List.mem_filter.1 mem
    cases of_decide_eq_true same
    exact listed
  · intro mem
    exact ⟨(p, x), List.mem_filter.2 ⟨mem, by simp⟩, rfl⟩

theorem shardOf_eq_ok {t : Topology} {p : PartitionId} {shard : ShardId} :
    t.shardOf p = .ok shard ↔ t.placement.get? p = some shard := by
  rw [Topology.shardOf]
  split
  next found => rw [found, Except.ok.injEq, Option.some.injEq]
  next missing => simp [missing]

/-- What a base scan does to a key before it reads, as its shard knows the placement then:
    partitions that have left get virtual scans, which go on from where the key stands. -/
structure Departing (base here : Topology) (x : ShardId) (k k' : ContinuationKey) : Prop where
  same : k' = { k with virtualScans := k'.virtualScans }
  scans : ∀ p, k'.virtualScans.get? p = k.virtualScans.get? p ∨
    (k.virtualScans.get? p = none ∧ base.placement.get? p = some x ∧
      ∃ target, here.placement.get? p = some target ∧ target ≠ x ∧
        k'.virtualScans.get? p = some { target, resume := k.resume })

namespace Departing

variable {base here : Topology} {k k' k'' : ContinuationKey}

theorem refl (k : ContinuationKey) : Departing base here x k k where
  same := rfl
  scans _ := .inl rfl

theorem trans (h : Departing base here x k k') (h' : Departing base here x k' k'') :
    Departing base here x k k'' where
  same := by
    rw [h'.same, h.same]
  scans p := by
    have resume : k'.resume = k.resume := by rw [h.same]
    rcases h'.scans p with kept | ⟨fresh, home, target, made⟩
    · rw [kept]
      exact h.scans p
    · rcases h.scans p with kept | ⟨-, -, _, -, -, made'⟩
      · exact .inr ⟨kept ▸ fresh, home, target, resume ▸ made⟩
      · rw [fresh] at made'
        cases made'

/-- A virtual scan stays as it is. -/
theorem kept (h : Departing base here x k k') {p : PartitionId} {scan : VirtualScan}
    (made : k.virtualScans.get? p = some scan) : k'.virtualScans.get? p = some scan := by
  rcases h.scans p with same | ⟨fresh, -⟩
  · rw [same, made]
  · rw [made] at fresh
    cases fresh

end Departing

theorem ask_ok {answer : Except PlacementError α} {a : α} (done : ScanM.ask answer s = .ok a s') :
    answer = .ok a ∧ s' = s := by
  cases answer with
  | ok b =>
    obtain ⟨rfl, rfl⟩ := pure_eq_ok done
    exact ⟨rfl, rfl⟩
  | error e => cases done

/-- Base partitions that have no virtual scan then are where they were. -/
theorem addDeparted_ok {base here : Topology}
    (done : addDeparted (Timeline.view x) base here s = .ok () s') :
    s'.world = s.world ∧ Departing base here x s.key s'.key ∧
      ∀ p, base.placement.get? p = some x → s'.key.virtualScans.get? p = none →
        here.placement.get? p = some x := by
  rw [addDeparted] at done
  -- The loop goes over a list of partitions, so the induction is on any list of them.
  suffices each : s'.world = s.world ∧ Departing base here x s.key s'.key ∧
      ∀ p ∈ base.partitionsOf (Timeline.view x).shard, s'.key.virtualScans.get? p = none →
        here.placement.get? p = some x from
    ⟨each.1, each.2.1, fun p home => each.2.2 p (mem_partitionsOf.2 home)⟩
  have homes : ∀ p ∈ base.partitionsOf (Timeline.view x).shard,
      base.placement.get? p = some x :=
    fun p mem => mem_partitionsOf.1 mem
  generalize base.partitionsOf (Timeline.view x).shard = l at homes done ⊢
  induction l generalizing s with
  | nil =>
    cases done
    exact ⟨rfl, .refl _, fun p mem => nomatch mem⟩
  | cons p l ih =>
    obtain ⟨_, s₁, first, done⟩ := bind_eq_ok done
    have home := homes p List.mem_cons_self
    obtain ⟨world, departed, stayed⟩ :=
      ih (fun q mem => homes q (List.mem_cons_of_mem _ mem)) done
    -- What one turn makes is kept by the others, so the turns can be taken one by one.
    suffices one : s₁.world = s.world ∧ Departing base here x s.key s₁.key ∧
        (s₁.key.virtualScans.get? p = none → here.placement.get? p = some x) by
      refine ⟨world.trans one.1, one.2.1.trans departed, fun q mem unmade => ?_⟩
      rcases List.mem_cons.1 mem with rfl | mem
      · refine one.2.2 (Option.eq_none_iff_forall_ne_some.2 fun scan made => ?_)
        rw [departed.kept made] at unmade
        cases unmade
      · exact stayed q mem unmade
    obtain ⟨owner, s₂, asked, rest⟩ := bind_eq_ok first
    obtain ⟨owned, rfl⟩ := ask_ok asked
    rw [shardOf_eq_ok] at owned
    rw [get_bind] at rest
    split at rest
    next left =>
      cases rest
      have fresh : s₂.key.virtualScans.get? p = none := by
        simpa [Table.contains_eq_isSome] using left.2
      refine ⟨rfl, ⟨rfl, fun q => ?_⟩, fun unmade => ?_⟩
      · dsimp only
        rw [Table.get?_insert]
        split
        next same =>
          subst same
          exact .inr ⟨fresh, home, owner, owned, left.1, rfl⟩
        next => exact .inl rfl
      · dsimp only at unmade
        rw [Table.get?_insert, if_pos rfl] at unmade
        cases unmade
    next stays =>
      cases rest
      refine ⟨rfl, .refl _, fun unmade => ?_⟩
      rw [Table.contains_eq_isSome, unmade] at stays
      have here : owner = (Timeline.view x).shard := by simpa using stays
      exact owned.trans (congrArg some here)

/-- What a node is told of some partitions is what it asked about them. -/
theorem mem_of_mapM_ask {f : α → Except PlacementError β} {l : List α} {answers : List β}
    (done : l.mapM (fun a => ScanM.ask (f a)) s = .ok answers s') {b : β} (mem : b ∈ answers) :
    ∃ a ∈ l, f a = .ok b := by
  induction l generalizing s s' answers with
  | nil =>
    obtain ⟨rfl, -⟩ := pure_eq_ok done
    cases mem
  | cons a l ih =>
    rw [List.mapM_cons] at done
    obtain ⟨first, s₁, asked, done⟩ := bind_eq_ok done
    obtain ⟨rest, s₂, others, done⟩ := bind_eq_ok done
    obtain ⟨rfl, -⟩ := pure_eq_ok done
    rcases List.mem_cons.1 mem with rfl | mem
    · exact ⟨a, List.mem_cons_self, (ask_ok asked).1⟩
    · obtain ⟨a', mem', same⟩ := ih others mem
      exact ⟨a', List.mem_cons_of_mem _ mem', same⟩

/-- A target has left that the topology has elsewhere at the first look behind the batch, or
    that is not open at the second. -/
theorem targetsLeft_true {targets : List PartitionId}
    (done : targetsLeft (Timeline.view x) targets s = .ok true s') :
    s.world.pass.Reaches s'.world ∧ ∃ p ∈ targets,
      (s.world.now.shard x).topology.placement.get? p ≠ some x ∨
        p ∉ (s.world.pass.now.shard x).opened := by
  rw [targetsLeft, bind_eq_of_ok (look_topology s), bind_eq_of_ok (look_opened _)] at done
  obtain ⟨owners, s₁, asked, done⟩ := bind_eq_ok done
  have later := (Glances.mapM (fun _ => .ask _) _).of_ok asked
  obtain ⟨left, rfl⟩ := pure_eq_ok done
  refine ⟨(Timeline.Reaches.pass _).trans later.1, ?_⟩
  rcases Bool.or_eq_true _ _ ▸ left with elsewhere | closed
  · obtain ⟨owner, mem, other⟩ := List.any_eq_true.1 elsewhere
    obtain ⟨p, mem, owned⟩ := mem_of_mapM_ask asked mem
    refine ⟨p, mem, .inl fun here => ?_⟩
    rw [shardOf_eq_ok.1 owned] at here
    exact of_decide_eq_true other (Option.some.inj here)
  · obtain ⟨p, mem, closed⟩ := List.any_eq_true.1 closed
    exact ⟨p, mem, .inr (of_decide_eq_true closed)⟩

/-! ## The course of a base batch -/

/-- How an attempt at a base batch begins: the shard's partitions are open as it has heard, and
    the ones that have left get virtual scans. -/
structure Begins (base : Topology) (x : ShardId) (s s₁ : Scanning Timeline) (here : Topology) :
    Prop where
  known : ¬ here.sequence < base.sequence
  looked : ∃ t, s.world.Reaches t ∧ t.pass.Reaches s₁.world ∧ here = (t.now.shard x).topology ∧
    ∀ p, here.placement.get? p = some x → p ∈ (t.pass.now.shard x).opened
  departed : Departing base here x s.key s₁.key
  stayed : ∀ p, base.placement.get? p = some x → s₁.key.virtualScans.get? p = none →
    here.placement.get? p = some x

/-- How a base batch ends that is kept: it has the partitions that have no virtual scan, and
    they are open at the second look behind it. -/
structure KeptBatch (base : Topology) (x : ShardId) (query : Query) (s₁ s' : Scanning Timeline)
    (batch : Batch) (asked : PartitionId → Bool) (s₂ : Scanning Timeline) : Prop where
  targets : ∀ p, asked p = true ↔
    base.placement.get? p = some x ∧ s₁.key.virtualScans.get? p = none
  read : readBatch (Timeline.view x) query asked s₁.key.resume
    (fun resume k => { k with resume }) s₁ = .ok batch s₂
  key : s'.key = s₂.key
  looked : s₂.world.pass.Reaches s'.world
  opened : ∀ p, asked p = true → p ∈ (s₂.world.pass.now.shard x).opened

/-- How a base batch ends that is thrown away: at the looks behind it one of its partitions has
    left, and the key is the one from before it. -/
structure LostBatch (base : Topology) (x : ShardId) (query : Query) (s₁ s' : Scanning Timeline)
    (batch : Batch) (asked : PartitionId → Bool) (s₂ : Scanning Timeline) : Prop where
  targets : ∀ p, asked p = true ↔
    base.placement.get? p = some x ∧ s₁.key.virtualScans.get? p = none
  read : readBatch (Timeline.view x) query asked s₁.key.resume
    (fun resume k => { k with resume }) s₁ = .ok batch s₂
  key : s'.key = s₁.key
  passed : s₁.world.Reaches s₂.world
  looked : s₂.world.pass.Reaches s'.world
  left : ∃ p, asked p = true ∧
    ((s₂.world.now.shard x).topology.placement.get? p ≠ some x ∨
      p ∉ (s₂.world.pass.now.shard x).opened)

theorem Begins.reaches {base here : Topology} (begins : Begins base x s s₁ here) :
    s.world.Reaches s₁.world := by
  obtain ⟨t, before, after, -⟩ := begins.looked
  exact (before.trans (.pass t)).trans after

theorem LostBatch.reaches {base : Topology} {batch : Batch} {asked : PartitionId → Bool}
    (lost : LostBatch base x query s₁ s' batch asked s₂) : s₁.world.Reaches s'.world :=
  lost.passed.trans ((Timeline.Reaches.pass _).trans lost.looked)

/-- One attempt at a base batch, which has to be made again if it brings none. -/
def baseRound {ω : Type} (view : ShardView ω) (query : Query) (patience : Nat) (base : Topology) :
    ScanM ω (Option Batch) := do
  let here ← awaitBase view base patience
  checkReturned view base here
  addDeparted view base here
  let key := (← get).key
  let targets := (base.partitionsOf view.shard).filter (!key.virtualScans.contains ·)
  let batch ← readBatch view query targets.contains key.resume fun resume k => { k with resume }
  if ← targetsLeft view targets then
    ScanM.setKey key
    ScanM.count fun c => { c with discarded := c.discarded + 1 }
    if batch.exhausted then return none
    ScanM.count fun c => { c with batches := c.batches + 1 }
    return some {}
  ScanM.count fun c => { c with batches := c.batches + 1 }
  return some batch

/-- Base batches are attempted one after the other. -/
theorem scanBaseWithin_succ {ω : Type} (view : ShardView ω) (query : Query) (patience : Nat)
    (base : Topology) (attempts : Nat) :
    scanBaseWithin view query patience base (attempts + 1) = (do
      match ← baseRound view query patience base with
      | some batch => return batch
      | none => scanBaseWithin view query patience base attempts) := by
  rw [scanBaseWithin]
  simp only [baseRound, bind_assoc]
  congr; funext here
  congr; funext _
  congr; funext _
  congr; funext s
  congr; funext batch
  congr; funext left
  cases left with
  | false => simp
  | true => cases batch.exhausted <;> simp

/-- An attempt at a base batch is awaited, and what it has read is thrown away or kept. -/
theorem baseRound_ok {base : Topology} {patience : Nat} {brought : Option Batch}
    (done : baseRound (Timeline.view x) query patience base s = .ok brought s') :
    ∃ here s₀ s₁ asked batch s₂, awaitBase (Timeline.view x) base patience s = .ok here s₀ ∧
      s₀.world.Reaches s₁.world ∧ Begins base x s s₁ here ∧
      ((LostBatch base x query s₁ s' batch asked s₂ ∧
          brought = if batch.exhausted then none else some {}) ∨
        (KeptBatch base x query s₁ s' batch asked s₂ ∧ brought = some batch)) := by
  obtain ⟨here, s₁, awaited, done⟩ := bind_eq_ok done
  obtain ⟨_, s₂, checked, done⟩ := bind_eq_ok done
  obtain ⟨_, s₃, departed, done⟩ := bind_eq_ok done
  rw [get_bind] at done
  obtain ⟨read, s₄, reading, done⟩ := bind_eq_ok done
  obtain ⟨left, s₅, looked, done⟩ := bind_eq_ok done
  obtain ⟨passed₂, key₂⟩ := (Glances.checkReturned here).of_ok checked
  obtain ⟨world, departed, stayed⟩ := addDeparted_ok departed
  obtain ⟨known, t, before, after, heard, opened⟩ := awaitBase_ok awaited
  have begins : Begins base x s s₃ here := by
    refine ⟨known, ⟨t, before, ?_, heard, fun p owned => opened p (mem_partitionsOf.2 owned)⟩, ?_,
      stayed⟩
    · rw [world]
      exact after.trans passed₂
    · rwa [key₂, ((Glances.awaitBase patience).of_ok awaited).2] at departed
  let targets := (base.partitionsOf x).filter (!s₃.key.virtualScans.contains ·)
  have wanted (p : PartitionId) : targets.contains p = true ↔
      base.placement.get? p = some x ∧ s₃.key.virtualScans.get? p = none := by
    rw [List.contains_iff_mem, List.mem_filter, Table.contains_eq_isSome, mem_partitionsOf]
    simp
  have passed₄ := (Forward.readBatch _ _ _).of_ok reading
  obtain ⟨-, key₅⟩ := (Glances.targetsLeft _).of_ok looked
  refine ⟨here, s₁, s₃, targets.contains, read, s₄, awaited, world ▸ passed₂, begins, ?_⟩
  cases left with
  | true =>
    -- The batch is thrown away, and with it all that it did to the key.
    obtain ⟨_, s₆, set, done⟩ := bind_eq_ok done
    cases set
    obtain ⟨_, s₇, counted, done⟩ := bind_eq_ok done
    cases counted
    obtain ⟨later, p, mem, gone⟩ := targetsLeft_true looked
    have lost {stats : NodeStats} : LostBatch base x query s₃
        { s₅ with key := s₃.key, stats } read targets.contains s₄ :=
      ⟨wanted, reading, rfl, passed₄, later, p, List.contains_iff_mem.2 mem, gone⟩
    split at done
    next exhausted =>
      obtain ⟨rfl, rfl⟩ := pure_eq_ok done
      exact .inl ⟨lost, (if_pos exhausted).symm⟩
    next going =>
      obtain ⟨_, s₈, counted, done⟩ := bind_eq_ok done
      cases counted
      obtain ⟨rfl, rfl⟩ := pure_eq_ok done
      exact .inl ⟨lost, (if_neg going).symm⟩
  | false =>
    obtain ⟨_, s₆, counted, done⟩ := bind_eq_ok done
    cases counted
    obtain ⟨rfl, rfl⟩ := pure_eq_ok done
    obtain ⟨later, opened⟩ := targetsLeft_false looked
    exact .inr ⟨⟨wanted, reading, key₅, later,
      fun p asked => opened p (List.contains_iff_mem.1 asked)⟩, rfl⟩

/-- An attempt at a base batch is awaited, and then made again, given up, or brings a batch. -/
theorem scanBaseWithin_succ_awaited {base : Topology} {patience attempts : Nat} {batch : Batch}
    (done : scanBaseWithin (Timeline.view x) query patience base (attempts + 1) s = .ok batch s') :
    ∃ here s₀ s₁, awaitBase (Timeline.view x) base patience s = .ok here s₀ ∧
      s₀.world.Reaches s₁.world ∧ Begins base x s s₁ here ∧
      ((∃ s₂, s₁.world.Reaches s₂.world ∧ s₂.key = s₁.key ∧
          scanBaseWithin (Timeline.view x) query patience base attempts s₂ = .ok batch s') ∨
        (s'.key = s₁.key ∧ s₁.world.Reaches s'.world ∧ batch = {}) ∨
        ∃ asked s₂, KeptBatch base x query s₁ s' batch asked s₂) := by
  rw [scanBaseWithin_succ] at done
  obtain ⟨brought, s₃, round, done⟩ := bind_eq_ok done
  obtain ⟨here, s₀, s₁, asked, read, s₂, awaited, passed, begins, outcome⟩ := baseRound_ok round
  refine ⟨here, s₀, s₁, awaited, passed, begins, ?_⟩
  rcases outcome with ⟨lost, rfl⟩ | ⟨kept, rfl⟩
  · cases exhausted : read.exhausted with
    | true =>
      rw [exhausted] at done
      exact .inl ⟨s₃, lost.reaches, lost.key, done⟩
    | false =>
      rw [exhausted] at done
      obtain ⟨rfl, rfl⟩ := pure_eq_ok done
      exact .inr (.inl ⟨lost.key, lost.reaches, rfl⟩)
  · obtain ⟨rfl, rfl⟩ := pure_eq_ok done
    exact .inr (.inr ⟨asked, s₂, kept⟩)

/-- An attempt at a base batch is made again, is given up, or brings a batch. -/
theorem scanBaseWithin_succ_ok {base : Topology} {patience attempts : Nat} {batch : Batch}
    (done : scanBaseWithin (Timeline.view x) query patience base (attempts + 1) s = .ok batch s') :
    ∃ here s₁, Begins base x s s₁ here ∧
      ((∃ s₂, s₁.world.Reaches s₂.world ∧ s₂.key = s₁.key ∧
          scanBaseWithin (Timeline.view x) query patience base attempts s₂ = .ok batch s') ∨
        (s'.key = s₁.key ∧ batch = {}) ∨
        ∃ asked s₂, KeptBatch base x query s₁ s' batch asked s₂) := by
  obtain ⟨here, _, s₁, -, -, begins, outcome⟩ := scanBaseWithin_succ_awaited done
  exact ⟨here, s₁, begins, outcome.imp_right (.imp_left fun ⟨key, _, empty⟩ => ⟨key, empty⟩)⟩

/-! ## Base batches of a relocation -/

/-- What a base scan does to a key before it reads: partitions that have left get virtual
    scans, which go on from where the key stands. -/
structure Departed (r : Relocation) (x : ShardId) (k k' : ContinuationKey) : Prop where
  same : k' = { k with virtualScans := k'.virtualScans }
  scans : ∀ p, k'.virtualScans.get? p = k.virtualScans.get? p ∨
    (k.virtualScans.get? p = none ∧ r.base.placement.get? p = some x ∧
      k'.virtualScans.get? p = some { target := r.destination p, resume := k.resume })

theorem Departed.trans {k k' k'' : ContinuationKey} (h : Departed r x k k')
    (h' : Departed r x k' k'') : Departed r x k k'' where
  same := by
    rw [h'.same, h.same]
  scans p := by
    have resume : k'.resume = k.resume := by rw [h.same]
    rcases h'.scans p with kept | ⟨fresh, home, made⟩
    · rw [kept]
      exact h.scans p
    · rcases h.scans p with kept | ⟨-, -, made'⟩
      · exact .inr ⟨kept ▸ fresh, home, resume ▸ made⟩
      · rw [fresh] at made'
        cases made'

/-- Partitions that leave go to their destinations if the shard has heard of no other way. -/
theorem Departing.departed {here : Topology} {k k' : ContinuationKey}
    (h : Departing r.base here x k k')
    (goes : ∀ p scan, k'.virtualScans.get? p = some scan → r.base.placement.get? p = some x →
      here.placement.get? p = some scan.target → scan.target ≠ x →
        scan.target = r.destination p) : Departed r x k k' where
  same := h.same
  scans p := by
    rcases h.scans p with kept | ⟨fresh, home, target, owned, left, made⟩
    · exact .inl kept
    · obtain rfl : target = r.destination p := goes p _ made home owned left
      exact .inr ⟨fresh, home, made⟩

/-- A partition that a topology of the relocation has elsewhere is at its destination. -/
theorem Relocation.Admits.owner {t : Topology} (h : r.Admits t) {p : PartitionId}
    {home owner : ShardId} (based : r.base.placement.get? p = some home)
    (owned : t.placement.get? p = some owner) (left : owner ≠ home) :
    owner = r.destination p := by
  rcases h p home based with at_ | at_
  · rw [owned] at at_
    exact absurd (Option.some.inj at_) left
  · rw [owned] at at_
    exact Option.some.inj at_

/-- What a base scan comes to: virtual scans for what has left, and then either nothing at
    all or an exact batch of the partitions that have none. -/
def BaseScanned (r : Relocation) (x : ShardId) (query : Query) (k k' : ContinuationKey)
    (batch : Batch) : Prop :=
  ∃ mid, Departed r x k mid ∧
    ((k' = mid ∧ batch = {}) ∨
      ∃ asked stop,
        (∀ p, asked p = true ↔
          r.base.placement.get? p = some x ∧ mid.virtualScans.get? p = none) ∧
        k' = { mid with resume := stop } ∧ Exact r query asked mid.resume stop batch)

theorem Departed.scanned {k k' k'' : ContinuationKey} {batch : Batch} (h : Departed r x k k')
    (h' : BaseScanned r x query k' k'' batch) : BaseScanned r x query k k'' batch := by
  obtain ⟨mid, departed, outcome⟩ := h'
  exact ⟨mid, h.trans departed, outcome⟩

/-- A batch that is kept is exact if everything shows while it is read. -/
theorem KeptBatch.scanned {s₁ s₂ : Scanning Timeline} {k : ContinuationKey} {batch : Batch}
    {asked : PartitionId → Bool} (h : KeptBatch r.base x query s₁ s' batch asked s₂)
    (departed : Departed r x k s₁.key)
    (shows_ : ∀ t, s₁.world.Reaches t → t.Reaches s₂.world → Shows r x asked t) :
    BaseScanned r x query k s'.key batch := by
  obtain ⟨stop, key, exact_⟩ := readBatch_ok (r := r) h.read shows_
  exact ⟨s₁.key, departed, .inr ⟨asked, stop, h.targets, h.key.trans key, exact_⟩⟩

/-- Base partitions that are open in the end were open and all there throughout. -/
theorem Relocation.Steady.shows {t t' : Timeline} (h : r.Steady t) (reaches : t.Reaches t')
    {accepts : PartitionId → Bool}
    (homes : ∀ p, accepts p = true → r.base.placement.get? p = some x)
    (opened : ∀ p, accepts p = true → p ∈ (t'.now.shard x).opened) : Shows r x accepts t := by
  have fits := h.consistent.shards x
  have onward := (h.reaches reaches).2
  refine ⟨fits.ascending, fun p asked => ?_⟩
  have wasOpen := (onward x).left p (homes p asked) (opened p asked)
  exact ⟨wasOpen, fits.home p (homes p asked) wasOpen⟩

theorem scanBaseWithin_ok {patience attempts : Nat} {batch : Batch} (steady : r.Steady s.world)
    (done : scanBaseWithin (Timeline.view x) query patience r.base attempts s = .ok batch s') :
    BaseScanned r x query s.key s'.key batch := by
  induction attempts generalizing s with
  | zero => cases done
  | succ attempts ih =>
    obtain ⟨here, s₁, begins, outcome⟩ := scanBaseWithin_succ_ok done
    obtain ⟨t, before, -, heard, -⟩ := begins.looked
    have steady₁ := (steady.reaches begins.reaches).1
    have admits : r.Admits here := by
      have hearsay := ((steady.reaches before).1.consistent.shards x).heard
      rw [heard]
      exact hearsay.resolve_left (heard ▸ begins.known)
    have departed : Departed r x s.key s₁.key :=
      begins.departed.departed fun p scan _ home owned left => admits.owner home owned left
    rcases outcome with ⟨s₂, later, key, again⟩ | ⟨key, rfl⟩ | ⟨asked, s₂, kept⟩
    · have scanned := ih (steady₁.reaches later).1 again
      rw [key] at scanned
      exact departed.scanned scanned
    · exact ⟨s₁.key, departed, .inl ⟨key, rfl⟩⟩
    · exact kept.scanned departed fun t' later before' =>
        (steady₁.reaches later).1.shows (before'.trans (.pass _))
          (fun p mem => ((kept.targets p).1 mem).1) kept.opened

/-- A base batch starts on the topology of its query. -/
theorem scanBase_ok_within {base : Topology} {patience : Nat} {batch : Batch}
    (recorded : s.world.now.history.get s.key.topology = .ok base)
    (done : scanBase (Timeline.view x) query patience s = .ok batch s') :
    ∃ attempts, scanBaseWithin (Timeline.view x) query patience base attempts
      { s with world := s.world.pass } = .ok batch s' := by
  rw [scanBase, get_bind, bind_eq_of_ok (look_history s), recorded] at done
  exact ⟨_, done⟩

/-- A base batch of a query that started on the topology of a relocation. -/
theorem scanBase_ok {patience : Nat} {batch : Batch} (steady : r.Steady s.world)
    (pinned : s.key.topology = r.base.sequence)
    (done : scanBase (Timeline.view x) query patience s = .ok batch s') :
    BaseScanned r x query s.key s'.key batch := by
  obtain ⟨attempts, done⟩ := scanBase_ok_within (by rw [pinned, steady.consistent.recorded]) done
  exact scanBaseWithin_ok (s := { s with world := s.world.pass }) steady.pass.1 done

/-! ## Virtual batches -/

/-- A key behind a batch of a virtual scan. -/
def ContinuationKey.readTo (k : ContinuationKey) (p : PartitionId) (stop : Option IndexEntry) :
    ContinuationKey :=
  { k with virtualScans := k.virtualScans.update p ({ · with resume := stop }) }

/-- A batch of a virtual scan comes from the shard of the scan, at which its partition was open
    and then caught up. -/
theorem scanVirtual_eq_ok {patience : Nat} {batch : Batch}
    (done : scanVirtual (Timeline.view x) query patience s = .ok batch s') :
    ∃ scan t s₁ s₂, s.key.virtualScans.get? s.key.virtualPartition = some scan ∧
      scan.target = x ∧ s.world.Reaches t ∧ t.pass.Reaches s₁.world ∧ s₁.key = s.key ∧
      s.key.virtualPartition ∈ (t.now.shard x).opened ∧
      s.key.virtualPartition ∉ (t.pass.now.shard x).lagging ∧
      readBatch (Timeline.view x) query (· = s.key.virtualPartition) scan.resume
        (fun resume k => { k with
          virtualScans := k.virtualScans.update s.key.virtualPartition ({ · with resume }) }) s₁ =
        .ok batch s₂ ∧
      s'.key = s₂.key ∧ s'.world = s₂.world := by
  rw [scanVirtual, get_bind] at done
  dsimp only at done
  cases made : s.key.virtualScans.get? s.key.virtualPartition with
  | none =>
    rw [made] at done
    cases done
  | some scan =>
    rw [made] at done
    dsimp only at done
    split at done
    · cases done
    next here =>
      rw [not_not] at here
      obtain ⟨_, s₁, awaited, done⟩ := bind_eq_ok done
      obtain ⟨read, s₂, reading, done⟩ := bind_eq_ok done
      obtain ⟨_, s₃, counted, done⟩ := bind_eq_ok done
      cases counted
      obtain ⟨rfl, rfl⟩ := pure_eq_ok done
      obtain ⟨t, before, after, opened, caughtUp⟩ := awaitPartition_ok awaited
      exact ⟨scan, t, s₁, s₂, rfl, here, before, after,
        ((Glances.awaitPartition _ _).of_ok awaited).2, opened, caughtUp, reading, rfl, rfl⟩

/-- A batch of a virtual scan at the destination of its partition. -/
theorem scanVirtual_ok {patience : Nat} {batch : Batch} (steady : r.Steady s.world)
    (targets : ∀ p scan, s.key.virtualScans.get? p = some scan →
      scan.target = r.destination p ∧ ∃ home, r.base.placement.get? p = some home)
    (done : scanVirtual (Timeline.view x) query patience s = .ok batch s') :
    ∃ scan stop, s.key.virtualScans.get? s.key.virtualPartition = some scan ∧
      s'.key = s.key.readTo s.key.virtualPartition stop ∧
      Exact r query (· = s.key.virtualPartition) scan.resume stop batch := by
  obtain ⟨scan, t, s₁, s₂, made, here, before, after, key, opened, caughtUp, read, key', -⟩ :=
    scanVirtual_eq_ok done
  obtain ⟨target, home, based⟩ := targets _ scan made
  obtain rfl : r.destination s.key.virtualPartition = x := target.symm.trans here
  -- What was open and then caught up was ready then, and stays ready.
  have steadyAt := (steady.reaches before).1
  have ready : (t.pass.now.shard (r.destination s.key.virtualPartition)).Ready
      s.key.virtualPartition :=
    ⟨(steadyAt.pass.2 _).kept _ rfl opened, caughtUp⟩
  obtain ⟨stop, moved, exact_⟩ := readBatch_ok (r := r) read fun t' later _ => by
    obtain ⟨steady', onward⟩ := steadyAt.pass.1.reaches (after.trans later)
    have fits := steady'.consistent.shards (r.destination s.key.virtualPartition)
    refine ⟨fits.ascending, fun p asked => ?_⟩
    cases of_decide_eq_true asked
    have ready' := (onward _).ready _ rfl ready
    exact ⟨ready'.1, fits.arrived _ home based rfl ready'⟩
  rw [key] at moved
  exact ⟨scan, stop, made, key'.trans moved, exact_⟩

end Replication.Scan
