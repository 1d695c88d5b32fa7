import Replication.Scan.Timeline

/-! # What a relocation leaves alone

A partition that is open at its home is all there, one that has left does not come back, and
one that is ready at its destination stays so.  `Steady` says that this is so of all moments
of a timeline, and `Reaches` which of them come after which.
-/

namespace Replication.Placement.History

variable {h h' : History} {t base : Topology}

theorem current_eq_ok : h.current = .ok t ↔ ∃ earlier, h.topologies = t :: earlier := by
  rw [current]
  split
  next latest earlier listed => simp [listed]
  next empty => simp [empty]

/-- What is current can be found. -/
theorem get_of_current (latest : h.current = .ok t) : h.get t.sequence = .ok t := by
  obtain ⟨earlier, listed⟩ := current_eq_ok.1 latest
  simp [get, listed]

/-- A topology that joins a history does not hide an earlier one. -/
theorem get_of_add {latest : Topology} (newest : h.current = .ok latest)
    (above : base.sequence ≤ latest.sequence) (recorded : h.get base.sequence = .ok base)
    (added : h.add t = .ok h') :
    h'.get base.sequence = .ok base ∧ h'.current = .ok t ∧ latest.sequence < t.sequence := by
  obtain ⟨earlier, listed⟩ := current_eq_ok.1 newest
  rw [add, listed] at added
  dsimp only at added
  split at added
  next later =>
    cases added
    have other : ¬ t.sequence = base.sequence := by grind
    refine ⟨?_, rfl, later⟩
    rw [get, listed] at recorded
    rwa [get, List.find?_cons_of_neg (by simpa using other)]
  next => cases added

end Replication.Placement.History

namespace Replication.Scan

open Replication.Placement (History PartitionId ShardId Topology)

namespace Relocation

/-! ## Shards -/

section Shards

variable (r : Relocation) (x : ShardId)

/-- What holds of a shard at every moment. -/
structure Fits (a : Shard) : Prop where
  heard : r.Hearsay a.topology
  home : ∀ p, r.base.placement.get? p = some x → p ∈ a.opened → r.Complete a p
  stays : ∀ p, r.base.placement.get? p = some x → r.destination p = x → p ∈ a.opened
  arrived : ∀ p home, r.base.placement.get? p = some home → r.destination p = x → a.Ready p →
    r.Complete a p
  ascending : a.index.Pairwise (· < ·)

/-- What is known of a shard later on. -/
structure Later (a a' : Shard) : Prop where
  left : ∀ p, r.base.placement.get? p = some x → p ∈ a'.opened → p ∈ a.opened
  kept : ∀ p, r.destination p = x → p ∈ a.opened → p ∈ a'.opened
  ready : ∀ p, r.destination p = x → a.Ready p → a'.Ready p

variable {r x} {a a' a'' : Shard}

theorem Later.refl (a : Shard) : r.Later x a a where
  left _ _ mem := mem
  kept _ _ mem := mem
  ready _ _ ready := ready

theorem Later.trans (h : r.Later x a a') (h' : r.Later x a' a'') : r.Later x a a'' where
  left p home mem := h.left p home (h'.left p home mem)
  kept p here mem := h'.kept p here (h.kept p here mem)
  ready p here ready := h'.ready p here (h.ready p here ready)

theorem Fits.hear (h : r.Fits x a) {t : Topology} (hearsay : r.Hearsay t) :
    r.Fits x { a with topology := t } ∧ r.Later x a { a with topology := t } :=
  ⟨{ h with heard := hearsay }, ⟨fun _ _ mem => mem, fun _ _ mem => mem, fun _ _ ready => ready⟩⟩

theorem mem_closePartition {p q : PartitionId} :
    q ∈ (a.closePartition p).opened ↔ q ∈ a.opened ∧ q ≠ p := by
  simp [Shard.closePartition, List.mem_filter]

theorem mem_openPartition {p q : PartitionId} :
    q ∈ (a.openPartition p).opened ↔ q = p ∨ q ∈ a.opened := by
  simp only [Shard.openPartition, List.mem_cons, List.mem_filter, decide_eq_true_eq]
  by_cases same : q = p <;> simp [same]

theorem Fits.close (h : r.Fits x a) {p : PartitionId} (leaves : r.destination p ≠ x) :
    r.Fits x (a.closePartition p) ∧ r.Later x a (a.closePartition p) := by
  -- Whoever is at its destination here is another partition.
  have other {q : PartitionId} (here : r.destination q = x) : q ≠ p := by
    rintro rfl
    exact leaves here
  constructor
  · constructor
    case heard => exact h.heard
    case home => exact fun q home mem => h.home q home (mem_closePartition.1 mem).1
    case stays =>
      exact fun q home here => mem_closePartition.2 ⟨h.stays q home here, other here⟩
    case arrived =>
      exact fun q home based here ready =>
        h.arrived q home based here ⟨(mem_closePartition.1 ready.1).1, ready.2⟩
    case ascending => exact h.ascending
  · constructor
    case left => exact fun q _ mem => (mem_closePartition.1 mem).1
    case kept => exact fun q here mem => mem_closePartition.2 ⟨mem, other here⟩
    case ready =>
      exact fun q here ready => ⟨mem_closePartition.2 ⟨ready.1, other here⟩, ready.2⟩

theorem Fits.arrive (h : r.Fits x a) {p : PartitionId} (here : r.destination p = x)
    (whole : p ∈ a.lagging ∨ r.Complete a p) :
    r.Fits x (a.openPartition p) ∧ r.Later x a (a.openPartition p) := by
  constructor
  · constructor
    case heard => exact h.heard
    case home =>
      intro q home mem
      rcases mem_openPartition.1 mem with rfl | mem
      · exact h.home q home (h.stays q home here)
      · exact h.home q home mem
    case stays => exact fun q home here => mem_openPartition.2 (.inr (h.stays q home here))
    case arrived =>
      intro q home based here ready
      by_cases same : q = p
      · subst same
        exact whole.resolve_left ready.2
      · have opened := (mem_openPartition.1 ready.1).resolve_left same
        exact h.arrived q home based here ⟨opened, ready.2⟩
    case ascending => exact h.ascending
  · constructor
    case left =>
      intro q home mem
      rcases mem_openPartition.1 mem with rfl | mem
      · exact h.stays q home here
      · exact mem
    case kept => exact fun q _ mem => mem_openPartition.2 (.inr mem)
    case ready => exact fun q _ ready => ⟨mem_openPartition.2 (.inr ready.1), ready.2⟩

theorem Fits.lag (h : r.Fits x a) {p : PartitionId} (closed : p ∉ a.opened) :
    r.Fits x (a.setLagging p true) ∧ r.Later x a (a.setLagging p true) := by
  have ready_iff {q : PartitionId} : (a.setLagging p true).Ready q ↔ a.Ready q := by
    simp only [Shard.setLagging, Shard.Ready, if_true, List.mem_cons, not_or]
    constructor
    · exact fun ⟨opened, _, caught⟩ => ⟨opened, caught⟩
    · rintro ⟨opened, caught⟩
      exact ⟨opened, by rintro rfl; exact closed opened, caught⟩
  exact ⟨⟨h.heard, h.home, h.stays, fun q home based here ready =>
      h.arrived q home based here (ready_iff.1 ready), h.ascending⟩,
    ⟨fun _ _ mem => mem, fun _ _ mem => mem, fun _ _ ready => ready_iff.2 ready⟩⟩

theorem Fits.catchUp (h : r.Fits x a) {p : PartitionId} (whole : r.Complete a p) :
    r.Fits x (a.setLagging p false) ∧ r.Later x a (a.setLagging p false) := by
  have lagging_iff {q : PartitionId} :
      q ∈ (a.setLagging p false).lagging ↔ q ∈ a.lagging ∧ q ≠ p := by
    simp [Shard.setLagging, List.mem_filter]
  constructor
  · refine ⟨h.heard, h.home, h.stays, fun q home based here ready => ?_, h.ascending⟩
    by_cases same : q = p
    · subst same
      exact whole
    · exact h.arrived q home based here
        ⟨ready.1, fun lagging => ready.2 (lagging_iff.2 ⟨lagging, same⟩)⟩
  · exact ⟨fun _ _ mem => mem, fun _ _ mem => mem,
      fun q _ ready => ⟨ready.1, fun lagging => ready.2 (lagging_iff.1 lagging).1⟩⟩

theorem Fits.store (h : r.Fits x a) {index : List IndexEntry} (ascending : index.Pairwise (· < ·))
    (kept : ∀ e : IndexEntry,
      (r.base.placement.get? e.partition = some x ∧ e.partition ∈ a.opened) ∨
        (r.destination e.partition = x ∧ a.Ready e.partition) → (e ∈ index ↔ e ∈ a.index)) :
    r.Fits x { a with index } ∧ r.Later x a { a with index } := by
  constructor
  · refine ⟨h.heard, fun p home mem e same => ?_, h.stays, fun p home based here ready e same => ?_,
      ascending⟩
    · subst same
      exact (kept e (.inl ⟨home, mem⟩)).trans (h.home _ home mem e rfl)
    · subst same
      exact (kept e (.inr ⟨here, ready⟩)).trans (h.arrived _ home based here ready e rfl)
  · exact ⟨fun _ _ mem => mem, fun _ _ mem => mem, fun _ _ ready => ready⟩

end Shards

/-! ## Stores -/

section Stores

variable (r : Relocation)

/-- What holds of a store at every moment. -/
structure Consistent (s : Situation) : Prop where
  recorded : s.history.get r.base.sequence = .ok r.base
  newest : ∃ latest rest, s.history.topologies = latest :: rest ∧
    r.base.sequence ≤ latest.sequence
  shards : ∀ x, r.Fits x (s.shard x)

/-- What is known of a store later on. -/
def Onward (s s' : Situation) : Prop :=
  ∀ x, r.Later x (s.shard x) (s'.shard x)

variable {r} {s s' s'' : Situation}

theorem Onward.refl (s : Situation) : r.Onward s s := fun x => .refl (s.shard x)

theorem Onward.trans (h : r.Onward s s') (h' : r.Onward s' s'') : r.Onward s s'' :=
  fun x => (h x).trans (h' x)

/-- Nothing comes before the topology from which the partitions set out. -/
theorem Settled.consistent (h : r.Settled s) : r.Consistent s where
  recorded := History.get_of_current h.current
  newest := by
    obtain ⟨rest, listed⟩ := History.current_eq_ok.1 h.current
    exact ⟨_, rest, listed, Int64.le_refl _⟩
  shards x :=
    { heard := h.heard x
      home := fun p home _ => (h.home p x home).2
      stays := fun p home _ => (h.home p x home).1.1
      arrived := by
        rintro p home based rfl ready
        exact h.arrived p home based ready
      ascending := h.ascending x }

/-- A change of one shard that leaves the others as they were. -/
theorem Consistent.onShard (h : r.Consistent s) {x : ShardId} {f : Shard → Shard}
    (changed : r.Fits x (f (s.shard x)) ∧ r.Later x (s.shard x) (f (s.shard x))) :
    r.Consistent (s.onShard x f) ∧ r.Onward s (s.onShard x f) := by
  have each (y : ShardId) : r.Fits y ((s.onShard x f).shard y) ∧
      r.Later y (s.shard y) ((s.onShard x f).shard y) := by
    simp only [Situation.onShard]
    split
    next same =>
      subst same
      exact changed
    next => exact ⟨h.shards y, .refl _⟩
  exact ⟨⟨h.recorded, h.newest, fun y => (each y).1⟩, fun y => (each y).2⟩

/-- A topology that joins the history does not hide the one of the relocation. -/
theorem Consistent.record (h : r.Consistent s) {t : Topology} {history : History}
    (added : s.history.add t = .ok history) :
    r.Consistent { s with history } ∧ r.Onward s { s with history } := by
  obtain ⟨latest, rest, listed, above⟩ := h.newest
  obtain ⟨recorded, newest, later⟩ :=
    History.get_of_add (History.current_eq_ok.2 ⟨rest, listed⟩) above h.recorded added
  obtain ⟨earlier, listed'⟩ := History.current_eq_ok.1 newest
  exact ⟨⟨recorded, ⟨t, earlier, listed', by grind⟩, h.shards⟩, .refl _⟩

/-- One step, whichever it is. -/
theorem Consistent.step (h : r.Consistent s) (step : r.Step s s') :
    r.Consistent s' ∧ r.Onward s s' := by
  cases step with
  | record _ added => exact h.record added
  | hear x hearsay => exact h.onShard ((h.shards x).hear hearsay)
  | close x p leaves => exact h.onShard ((h.shards x).close leaves)
  | arrive p whole => exact h.onShard ((h.shards _).arrive rfl whole)
  | lag p closed => exact h.onShard ((h.shards _).lag closed)
  | catchUp p whole => exact h.onShard ((h.shards _).catchUp whole)
  | store x index ascending kept => exact h.onShard ((h.shards x).store ascending kept)

theorem Consistent.steps (h : r.Consistent s) (steps : Relation.ReflTransGen r.Step s s') :
    r.Consistent s' ∧ r.Onward s s' := by
  induction steps with
  | refl => exact ⟨h, .refl s⟩
  | tail _ step ih =>
    obtain ⟨consistent, onward⟩ := ih.1.step step
    exact ⟨consistent, ih.2.trans onward⟩

end Stores

end Relocation

/-! ## Timelines -/

namespace Timeline

/-- Whether one timeline is what another one comes to. -/
def Reaches (t t' : Timeline) : Prop :=
  ∃ looks, t' = pass^[looks] t

@[simp] theorem Reaches.refl (t : Timeline) : t.Reaches t := ⟨0, rfl⟩

@[simp] theorem Reaches.pass (t : Timeline) : t.Reaches t.pass := ⟨1, rfl⟩

theorem Reaches.trans {t t' t'' : Timeline} (h : t.Reaches t') (h' : t'.Reaches t'') :
    t.Reaches t'' := by
  obtain ⟨looks, rfl⟩ := h
  obtain ⟨looks', rfl⟩ := h'
  exact ⟨looks' + looks, (Function.iterate_add_apply _ _ _ _).symm⟩

end Timeline

namespace Relocation

variable (r : Relocation)

/-- Whether a timeline is one of the relocation, which may have begun before. -/
structure Steady (t : Timeline) : Prop where
  consistent : r.Consistent t.now
  steps : (t.now :: t.later).IsChain (Relation.ReflTransGen r.Step)

variable {r} {t t' : Timeline}

theorem Governs.steady (h : r.Governs t) : r.Steady t where
  consistent := h.settled.consistent
  steps := h.steps

theorem Steady.pass (h : r.Steady t) : r.Steady t.pass ∧ r.Onward t.now t.pass.now := by
  obtain ⟨now, later⟩ := t
  cases later with
  | nil => exact ⟨h, .refl now⟩
  | cons next rest =>
    obtain ⟨steps, chain⟩ := List.isChain_cons_cons.1 h.steps
    obtain ⟨consistent, onward⟩ := h.consistent.steps steps
    exact ⟨⟨consistent, chain⟩, onward⟩

/-- What holds throughout a timeline holds of all that it comes to. -/
theorem Steady.reaches (h : r.Steady t) (reaches : t.Reaches t') :
    r.Steady t' ∧ r.Onward t.now t'.now := by
  obtain ⟨looks, rfl⟩ := reaches
  induction looks generalizing t with
  | zero => exact ⟨h, .refl t.now⟩
  | succ looks ih =>
    obtain ⟨steady, onward⟩ := h.pass
    obtain ⟨steady', onward'⟩ := ih steady
    exact ⟨steady', onward.trans onward'⟩

end Relocation

end Replication.Scan
