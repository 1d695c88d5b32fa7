import Replication.Proofs.Scan.Progress
import Replication.Scan.Migration

/-! # What a node's batches hold while partitions migrate

A store in which migrations are complete is at rest at every look.  So a partition that a
batch reads is all there for as long as it is open, and the batch is exact if the partition
was open throughout.
-/

namespace Replication.Scan

open Replication.Placement (History PartitionId ShardId Topology)

variable {x : ShardId} {p : PartitionId} {query : Query}

/-! ## Stores at rest -/

/-- A store at rest on any topology. -/
theorem rests_resting {entries : List IndexEntry} (ascending : entries.Pairwise (· < ·))
    (t : Topology) (earlier : List Topology) :
    (Situation.resting entries t earlier).Rests entries t where
  current := rfl
  heard _ := rfl
  opened _ _ := mem_partitionsOf
  caughtUp _ _ _ := List.not_mem_nil
  whole x e owned := by simp [Situation.resting, owned]
  ascending _ := ascending.filter _

/-- A store at rest can migrate any partition that it has. -/
theorem migrates_resting {entries : List IndexEntry} (ascending : entries.Pairwise (· < ·))
    {t t' : Topology} {earlier : List Topology} {target : ShardId}
    (moved : t.migrate p target = .ok t') (later : t.sequence < t'.sequence) :
    Migrates entries (.resting entries t earlier) (.resting entries t' (t :: earlier)) :=
  ⟨t, p, target, t', rests_resting ascending t earlier, moved, if_pos later,
    rests_resting ascending t' (t :: earlier)⟩

theorem Situation.Rests.unique {s : Situation} {entries : List IndexEntry} {t t' : Topology}
    (h : s.Rests entries t) (h' : s.Rests entries t') : t = t' :=
  Except.ok.inj (h.current.symm.trans h'.current)

/-- Where a store is at rest, all entries of an open partition are there. -/
theorem Situation.Rests.shows {r : Relocation} {world : Timeline} {now : Topology}
    (h : world.now.Rests r.entries now) {accepts : PartitionId → Bool}
    (opened : ∀ p, accepts p = true → p ∈ (world.now.shard x).opened) :
    Shows r x accepts world := by
  refine ⟨h.ascending x, fun p asked => ⟨opened p asked, fun e same => ?_⟩⟩
  subst same
  exact h.whole x e ((h.opened x _).1 (opened _ asked))

/-- Whether a timeline is one of complete migrations, which began after a topology at the
    latest. -/
structure Migratory (entries : List IndexEntry) (base : Topology) (t : Timeline) : Prop where
  recorded : t.now.history.get base.sequence = .ok base
  rests : ∃ now, t.now.Rests entries now ∧ base.sequence ≤ now.sequence
  steps : (t.now :: t.later).IsChain (Relation.ReflTransGen (Migrates entries))

/-- Migrations do not hide a topology. -/
theorem recorded_of_migrates {s s' : Situation} {entries : List IndexEntry} {base now : Topology}
    (recorded : s.history.get base.sequence = .ok base) (rests : s.Rests entries now)
    (above : base.sequence ≤ now.sequence)
    (steps : Relation.ReflTransGen (Migrates entries) s s') :
    s'.history.get base.sequence = .ok base ∧
      ∃ now', s'.Rests entries now' ∧ base.sequence ≤ now'.sequence := by
  induction steps with
  | refl => exact ⟨recorded, now, rests, above⟩
  | tail _ step ih =>
    obtain ⟨recorded, latest, rests, above⟩ := ih
    obtain ⟨t, p, target, t', rests', -, added, rests''⟩ := step
    obtain rfl := rests.unique rests'
    obtain ⟨recorded', -, later⟩ := History.get_of_add rests.current above recorded added
    exact ⟨recorded', t', rests'', by grind⟩

namespace Migratory

variable {entries : List IndexEntry} {base : Topology} {t t' : Timeline}

theorem pass (h : Migratory entries base t) : Migratory entries base t.pass := by
  obtain ⟨now, later⟩ := t
  cases later with
  | nil => exact h
  | cons next rest =>
    obtain ⟨steps, chain⟩ := List.isChain_cons_cons.1 h.steps
    obtain ⟨latest, rests, above⟩ := h.rests
    obtain ⟨recorded, rests'⟩ := recorded_of_migrates h.recorded rests above steps
    exact ⟨recorded, rests', chain⟩

theorem reaches (h : Migratory entries base t) (reaches : t.Reaches t') :
    Migratory entries base t' := by
  obtain ⟨looks, rfl⟩ := reaches
  induction looks generalizing t with
  | zero => exact h
  | succ looks ih => exact ih h.pass

end Migratory

theorem Holdings.Governs.migratory {h : Holdings} {t : Timeline} (governs : h.Governs t) :
    Migratory h.entries h.base t where
  recorded := History.get_of_current governs.rests.current
  rests := ⟨h.base, governs.rests, Int64.le_refl _⟩
  steps := governs.steps

/-! ## Presence -/

namespace Timeline

variable {t t₁ t₂ t₃ t' : Timeline}

theorem Reaches.append (reaches : t.Reaches t') :
    ∃ before, t.now :: t.later = before ++ t'.now :: t'.later := by
  obtain ⟨looks, rfl⟩ := reaches
  induction looks generalizing t with
  | zero => exact ⟨[], rfl⟩
  | succ looks ih =>
    obtain ⟨now, later⟩ := t
    cases later with
    | nil => exact @ih ⟨now, []⟩
    | cons next rest =>
      obtain ⟨before, listed⟩ := @ih ⟨next, rest⟩
      exact ⟨now :: before, congrArg (now :: ·) listed⟩

/-- A span starts with what comes before a moment within it. -/
theorem Reaches.span (reaches : t.Reaches t₁) (reaches' : t₁.Reaches t') :
    ∃ before, t.span t' = before ++ t₁.span t' ∧ (before = [] → t.now = t₁.now) ∧
      ∀ first ∈ before.head?, first = t.now := by
  -- A span is what is dropped on the way, and the situation at which it arrives.
  have span {t : Timeline} (reaches : t.Reaches t') :
      ∀ before, t.now :: t.later = before ++ t'.now :: t'.later →
        t.span t' = before ++ [t'.now] := by
    intro before listed
    have length := congrArg List.length listed
    simp only [List.length_cons, List.length_append] at length
    have passed : t.later.length - t'.later.length = before.length := by omega
    have taken := congrArg (List.take (before.length + 1)) listed
    rw [List.take_succ_cons, List.take_append] at taken
    rw [Timeline.span, passed, taken, List.take_of_length_le (Nat.le_succ _)]
    simp
  obtain ⟨before, listed⟩ := reaches.append
  obtain ⟨before', listed'⟩ := reaches'.append
  refine ⟨before, ?_, ?_, ?_⟩
  · rw [span reaches' before' listed', span (reaches.trans reaches') (before ++ before')
      (by rw [listed, listed', List.append_assoc]), List.append_assoc]
  · rintro rfl
    exact (List.cons.inj listed).1
  · cases before with
    | nil => exact fun first mem => nomatch mem
    | cons first rest =>
      rintro _ ⟨⟩
      exact (List.cons.inj listed).1.symm

theorem sublist_presence_of_reaches {l : List Bool} (reaches : t.Reaches t₁)
    (reaches' : t₁.Reaches t') (sub : l.Sublist (t₁.presence t' x p)) :
    l.Sublist (t.presence t' x p) := by
  obtain ⟨before, spans, -⟩ := reaches.span reaches'
  rw [presence, spans, List.map_append]
  exact sub.trans (List.sublist_append_right _ _)

/-- A look at which a partition is not where it is later counts. -/
theorem cons_sublist_presence {l : List Bool} {b : Bool} (reaches : t.Reaches t₁)
    (reaches' : t₁.Reaches t') (sub : l.Sublist (t₁.presence t' x p))
    (here : decide (p ∈ (t.now.shard x).opened) = b)
    (changed : decide (p ∈ (t₁.now.shard x).opened) ≠ b) :
    (b :: l).Sublist (t.presence t' x p) := by
  obtain ⟨before, spans, same, first⟩ := reaches.span reaches'
  rw [presence, spans, List.map_append]
  cases before with
  | nil =>
    rw [same rfl] at here
    exact absurd here changed
  | cons now rest =>
    obtain rfl : now = t.now := first now rfl
    rw [List.map_cons, here, List.cons_append]
    exact (sub.trans (List.sublist_append_right _ _)).cons_cons b

theorem singleton_sublist_presence {b : Bool}
    (here : decide (p ∈ (t.now.shard x).opened) = b) : [b].Sublist (t.presence t' x p) := by
  rw [List.singleton_sublist, ← here]
  exact List.mem_map_of_mem (f := fun s : Situation => decide (p ∈ (s.shard x).opened))
    List.mem_cons_self

/-- A partition that does not leave a shard is open there from the first time on. -/
theorem opened_of_not_left (remains : ¬ [true, false].Sublist (t.presence t' x p))
    (reaches : t.Reaches t₁) (reaches₁ : t₁.Reaches t₂) (reaches₂ : t₂.Reaches t')
    (opened : p ∈ (t₁.now.shard x).opened) : p ∈ (t₂.now.shard x).opened := by
  by_contra closed
  have away : [false].Sublist (t₂.presence t' x p) :=
    singleton_sublist_presence (decide_eq_false closed)
  have left := cons_sublist_presence reaches₁ reaches₂ away (decide_eq_true opened)
    (by simp [closed])
  exact remains (sublist_presence_of_reaches reaches (reaches₁.trans reaches₂) left)

/-- A partition that does not come back to a shard is open there between any two times. -/
theorem opened_of_not_returned (remains : ¬ [true, false, true].Sublist (t.presence t' x p))
    (reaches : t.Reaches t₁) (reaches₁ : t₁.Reaches t₂) (reaches₂ : t₂.Reaches t₃)
    (reaches₃ : t₃.Reaches t') (opened : p ∈ (t₁.now.shard x).opened)
    (opened' : p ∈ (t₃.now.shard x).opened) : p ∈ (t₂.now.shard x).opened := by
  by_contra closed
  have back : [true].Sublist (t₃.presence t' x p) :=
    singleton_sublist_presence (decide_eq_true opened')
  have away := cons_sublist_presence reaches₂ reaches₃ back (decide_eq_false closed)
    (by simp [opened'])
  have left := cons_sublist_presence reaches₁ (reaches₂.trans reaches₃) away
    (decide_eq_true opened) (by simp [closed])
  exact remains (sublist_presence_of_reaches reaches
    (reaches₁.trans (reaches₂.trans reaches₃)) left)

end Timeline
/-! ## Batches -/

section Batches

variable {r : Relocation} {base : Topology} {s s' : Scanning Timeline} {batch : Batch}
  {k k' : ContinuationKey} {patience attempts : Nat}

theorem readBatch_key {accepts : PartitionId → Bool} {start : Option IndexEntry}
    {put : Option IndexEntry → ContinuationKey → ContinuationKey}
    (done : readBatch (Timeline.view x) query accepts start put s = .ok batch s') :
    ∃ stop, s'.key = put stop s.key := by
  rw [readBatch] at done
  split at done
  next =>
    cases done
    exact ⟨_, rfl⟩
  next => cases done

/-- A base scan leaves the virtual scans alone that there are. -/
theorem scanBaseWithin_kept {scan : VirtualScan}
    (done : scanBaseWithin (Timeline.view x) query patience base attempts s = .ok batch s')
    (made : s.key.virtualScans.get? p = some scan) :
    s'.key.virtualScans.get? p = some scan := by
  induction attempts generalizing s with
  | zero => cases done
  | succ attempts ih =>
    obtain ⟨here, s₁, begins, outcome⟩ := scanBaseWithin_succ_ok done
    have made₁ := begins.departed.kept made
    rcases outcome with ⟨s₂, -, key, again⟩ | ⟨key, -⟩ | ⟨asked, s₂, kept⟩
    · exact ih again (key ▸ made₁)
    · rwa [key]
    · obtain ⟨stop, key⟩ := readBatch_key kept.read
      rwa [kept.key, key]

/-- A base scan is exact if no base partition comes back while it is under way.  Its key tells
    where the partitions went. -/
theorem Migratory.scanBaseWithin_ok (migratory : Migratory r.entries r.base s.world)
    (stay : ∀ t₁ t₂ t₃, s.world.Reaches t₁ → t₁.Reaches t₂ → t₂.Reaches t₃ →
      t₃.Reaches s'.world → ∀ p, r.base.placement.get? p = some x →
        p ∈ (t₁.now.shard x).opened → p ∈ (t₃.now.shard x).opened →
          p ∈ (t₂.now.shard x).opened)
    (goes : ∀ p scan, s'.key.virtualScans.get? p = some scan → scan.target = r.destination p)
    (done : scanBaseWithin (Timeline.view x) query patience r.base attempts s = .ok batch s') :
    BaseScanned r x query s.key s'.key batch := by
  induction attempts generalizing s with
  | zero => cases done
  | succ attempts ih =>
    obtain ⟨here, s₁, begins, outcome⟩ := scanBaseWithin_succ_ok done
    obtain ⟨t, before, after, -, opened⟩ := begins.looked
    have later := begins.reaches
    have departed (kept : ∀ p scan, s₁.key.virtualScans.get? p = some scan →
        s'.key.virtualScans.get? p = some scan) : Departed r x s.key s₁.key :=
      begins.departed.departed fun p scan made _ _ _ => goes p scan (kept p scan made)
    rcases outcome with ⟨s₂, later₂, key, again⟩ | ⟨key, rfl⟩ | ⟨asked, s₂, kept⟩
    · have scanned := ih (migratory.reaches (later.trans later₂))
        (fun t₁ t₂ t₃ reaches => stay t₁ t₂ t₃ ((later.trans later₂).trans reaches)) again
      rw [key] at scanned
      exact (departed fun p scan made => scanBaseWithin_kept again (key ▸ made)).scanned scanned
    · exact ⟨s₁.key, departed fun p scan made => key ▸ made, .inl ⟨key, rfl⟩⟩
    · obtain ⟨stop, key⟩ := readBatch_key kept.read
      refine kept.scanned (departed fun p scan made => ?_) fun t' reading ending => ?_
      · rwa [kept.key, key]
      -- What is read was open when the shard was looked at, and is open behind the batch.
      · obtain ⟨now, rests, -⟩ := (migratory.reaches (later.trans reading)).rests
        refine rests.shows fun p mem => ?_
        obtain ⟨home, unmade⟩ := (kept.targets p).1 mem
        exact stay t.pass t' s₂.world.pass (before.trans (.pass t)) (after.trans reading)
          (ending.trans (.pass _)) kept.looked p home (opened p (begins.stayed p home unmade))
          (kept.opened p mem)

/-- A batch of a virtual scan is exact if its partition stays where it is. -/
theorem Migratory.scanVirtual_ok (migratory : Migratory r.entries r.base s.world)
    (stays : ∀ t₁ t₂, s.world.Reaches t₁ → t₁.Reaches t₂ → t₂.Reaches s'.world →
      s.key.virtualPartition ∈ (t₁.now.shard x).opened →
        s.key.virtualPartition ∈ (t₂.now.shard x).opened)
    (done : scanVirtual (Timeline.view x) query patience s = .ok batch s') :
    ∃ scan stop, s.key.virtualScans.get? s.key.virtualPartition = some scan ∧
      s'.key = s.key.readTo s.key.virtualPartition stop ∧
      Exact r query (· = s.key.virtualPartition) scan.resume stop batch := by
  obtain ⟨scan, t, s₁, s₂, made, -, before, after, key, opened, -, read, key', world⟩ :=
    scanVirtual_eq_ok done
  have later := (before.trans (.pass t)).trans after
  obtain ⟨stop, moved, exact_⟩ := readBatch_ok (r := r) read fun t' reading ending => by
    obtain ⟨now, rests, -⟩ := (migratory.reaches (later.trans reading)).rests
    refine rests.shows fun p asked => ?_
    cases of_decide_eq_true asked
    exact stays t t' before (((Timeline.Reaches.pass t).trans after).trans reading)
      (world ▸ ending) opened
  rw [key] at moved
  exact ⟨scan, stop, made, key'.trans moved, exact_⟩

end Batches

end Replication.Scan
