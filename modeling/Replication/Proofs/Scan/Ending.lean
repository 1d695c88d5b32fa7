import Replication.Proofs.Scan.Exactness
import Replication.Proofs.Scan.Migrations
import Replication.Scan.Departure

/-! # Queries end

Each batch of a query has read an entry that it will not read again, or has nothing behind it
at its target, or was thrown away because a partition left that does not leave again.  So a
measure of what is still to come goes down with every batch.
-/

namespace Replication.Scan

open Replication.Placement (History PartitionId PlacementError ShardId Topology)

variable {base : Topology} {entries : Finset IndexEntry} {leaving : Finset PartitionId}
  {t t₁ t₂ t' : Timeline} {p : PartitionId} {x : ShardId} {query : Query}
  {patience attempts place : Nat} {nodes : List ShardId}

/-! ## Leaving home -/

theorem Timeline.after_after (t : Timeline) (i j : Nat) : (t.after i).after j = t.after (j + i) :=
  (Function.iterate_add_apply _ _ _ _).symm

/-- Departures go on as they began. -/
theorem Departures.reaches (h : Departures base entries leaving t) (reaches : t.Reaches t') :
    Departures base entries leaving t' := by
  obtain ⟨looks, rfl⟩ := reaches
  change Departures base entries leaving (t.after looks)
  constructor
  case recorded => exact fun i => t.after_after looks i ▸ h.recorded _
  case listed => exact fun i => t.after_after looks i ▸ h.listed _
  case settled => exact fun p x home stays i => t.after_after looks i ▸ h.settled p x home stays _
  case stays =>
    intro p remains i j before
    rw [t.after_after, t.after_after]
    exact h.stays p remains _ _ (by omega)
  case once =>
    intro p leaves i j k l before after later
    simp only [t.after_after]
    exact h.once p leaves _ _ _ _ (by omega) (by omega) (by omega)

theorem Timeline.length_later_pass (t : Timeline) : t.pass.later.length ≤ t.later.length ∧
    (t.pass ≠ t → t.pass.later.length < t.later.length) := by
  obtain ⟨now, later⟩ := t
  cases later with
  | nil => exact ⟨Nat.le_refl _, fun changed => absurd rfl changed⟩
  | cons next rest => exact ⟨Nat.le_succ _, fun _ => Nat.lt_succ_self _⟩

theorem Timeline.Reaches.length_later_le (h : t.Reaches t') :
    t'.later.length ≤ t.later.length := by
  obtain ⟨looks, rfl⟩ := h
  induction looks generalizing t with
  | zero => exact Nat.le_refl _
  | succ looks ih => exact ih.trans t.length_later_pass.1

/-- What changes has less before it. -/
theorem Timeline.Reaches.length_later_lt (h : t.Reaches t') (changed : t' ≠ t) :
    t'.later.length < t.later.length := by
  obtain ⟨looks, rfl⟩ := h
  induction looks generalizing t with
  | zero => exact absurd rfl changed
  | succ looks ih =>
    by_cases same : t.pass = t
    · rw [Function.iterate_succ_apply, same] at changed ⊢
      exact ih changed
    · exact (Timeline.Reaches.length_later_le ⟨looks, rfl⟩).trans_lt (t.length_later_pass.2 same)

/-- Whether a partition will be found at home and then be found to have left. -/
def Leaves (base : Topology) (p : PartitionId) (t : Timeline) : Prop :=
  ∃ t₁ t₂, t.Reaches t₁ ∧ t₁.Reaches t₂ ∧ t₁.AtHome base p ∧ ¬ t₂.AtHome base p

open Classical in
/-- The partitions that have yet to leave. -/
noncomputable def leavers (base : Topology) (leaving : Finset PartitionId) (t : Timeline) :
    Finset PartitionId :=
  leaving.filter fun p => Leaves base p t

theorem mem_leavers : p ∈ leavers base leaving t ↔ p ∈ leaving ∧ Leaves base p t := by
  classical exact Finset.mem_filter

theorem card_leavers_le (base : Topology) (leaving : Finset PartitionId) (t : Timeline) :
    (leavers base leaving t).card ≤ leaving.card :=
  Finset.card_le_card fun _ mem => (mem_leavers.1 mem).1

theorem leavers_subset (reaches : t.Reaches t') :
    leavers base leaving t' ⊆ leavers base leaving t := by
  intro p mem
  obtain ⟨leaves, t₁, t₂, reaches₁, rest⟩ := mem_leavers.1 mem
  exact mem_leavers.2 ⟨leaves, t₁, t₂, reaches.trans reaches₁, rest⟩

/-- A partition that has left will not leave again. -/
theorem Departures.not_leaves (h : Departures base entries leaving t) (mem : p ∈ leaving)
    (reaches₁ : t.Reaches t₁) (reaches₂ : t₁.Reaches t₂) (there : t₁.AtHome base p)
    (gone : ¬ t₂.AtHome base p) : ¬ Leaves base p t₂ := by
  rintro ⟨t₃, t₄, reaches₃, reaches₄, back, again⟩
  obtain ⟨i, rfl⟩ := reaches₁
  obtain ⟨j, rfl⟩ := reaches₂
  obtain ⟨k, rfl⟩ := reaches₃
  obtain ⟨l, rfl⟩ := reaches₄
  have moment (i j : Nat) : Timeline.pass^[j] (t.after i) = t.after (j + i) := t.after_after i j
  change ¬ (Timeline.pass^[j] (t.after i)).AtHome base p at gone
  change (Timeline.pass^[k] (Timeline.pass^[j] (t.after i))).AtHome base p at back
  change ¬ (Timeline.pass^[l] (Timeline.pass^[k] (Timeline.pass^[j] (t.after i)))).AtHome base p
    at again
  simp only [moment] at gone back again
  exact again (h.once p mem _ _ _ _ (by omega) (by omega) (by omega) there gone back)

/-- Only some partitions leave. -/
theorem Departures.mem_leaving (h : Departures base entries leaving t)
    (reaches₁ : t.Reaches t₁) (reaches₂ : t₁.Reaches t₂) (there : t₁.AtHome base p)
    (gone : ¬ t₂.AtHome base p) : p ∈ leaving := by
  by_contra remains
  obtain ⟨i, rfl⟩ := reaches₁
  obtain ⟨j, rfl⟩ := reaches₂
  refine gone ?_
  rw [← Function.iterate_add_apply]
  exact h.stays p remains i (j + i) (by omega) there

/-- Each time that a partition is found to have left there is one less to leave. -/
theorem Departures.card_leavers_lt (h : Departures base entries leaving t)
    (reaches₁ : t.Reaches t₁) (reaches₂ : t₁.Reaches t₂) (reaches : t₂.Reaches t')
    (there : t₁.AtHome base p) (gone : ¬ t₂.AtHome base p) :
    (leavers base leaving t').card < (leavers base leaving t).card := by
  have mem := h.mem_leaving reaches₁ reaches₂ there gone
  have fewer : leavers base leaving t₂ ⊂ leavers base leaving t := by
    refine Finset.ssubset_iff_subset_ne.2 ⟨leavers_subset (reaches₁.trans reaches₂), fun same => ?_⟩
    have leaves : p ∈ leavers base leaving t :=
      mem_leavers.2 ⟨mem, t₁, t₂, reaches₁, reaches₂, there, gone⟩
    rw [← same] at leaves
    exact h.not_leaves mem reaches₁ reaches₂ there gone (mem_leavers.1 leaves).2
  exact lt_of_le_of_lt (Finset.card_le_card (leavers_subset reaches)) (Finset.card_lt_card fewer)

section Lost

variable {s s₁ s₂ s' : Scanning Timeline} {here : Topology} {batch : Batch}
  {asked : PartitionId → Bool}

/-- A base batch is thrown away only if a partition was at home when it began and is not any
    more. -/
theorem LostBatch.left_home (begins : Begins base x s s₁ here)
    (lost : LostBatch base x query s₁ s' batch asked s₂) :
    ∃ p t, s.world.Reaches t ∧ t.Reaches s₂.world ∧ t.AtHome base p ∧
      ¬ s₂.world.AtHome base p := by
  obtain ⟨t, before, after, heard, opened⟩ := begins.looked
  obtain ⟨p, asks, left⟩ := lost.left
  obtain ⟨home, unmade⟩ := (lost.targets p).1 asks
  have owned := begins.stayed p home unmade
  refine ⟨p, t, before, ((Timeline.Reaches.pass t).trans after).trans lost.passed,
    ⟨x, home, heard ▸ begins.known, heard ▸ owned, opened p owned⟩, ?_⟩
  rintro ⟨x', home', -, owned', opened'⟩
  obtain rfl : x = x' := Option.some.inj (home.symm.trans home')
  exact left.elim (fun elsewhere => elsewhere owned') fun closed => closed opened'

/-- So one partition less has yet to leave. -/
theorem LostBatch.card_leavers_lt (h : Departures base entries leaving s.world)
    (begins : Begins base x s s₁ here) (lost : LostBatch base x query s₁ s' batch asked s₂) :
    (leavers base leaving s'.world).card < (leavers base leaving s.world).card := by
  obtain ⟨p, t, before, after, there, gone⟩ := lost.left_home begins
  exact h.card_leavers_lt before after ((Timeline.Reaches.pass _).trans lost.looked) there gone

/-- And something happened meanwhile. -/
theorem LostBatch.length_later_lt (begins : Begins base x s s₁ here)
    (lost : LostBatch base x query s₁ s' batch asked s₂) :
    s'.world.later.length < s.world.later.length := by
  obtain ⟨p, t, before, after, there, gone⟩ := lost.left_home begins
  have changed : s₂.world ≠ t := by
    rintro same
    exact gone (same ▸ there)
  have less := after.length_later_lt changed
  have := before.length_later_le
  have := ((Timeline.Reaches.pass _).trans lost.looked).length_later_le
  omega

end Lost

/-! ## What is still to come -/

/-- Whether an entry may still be read behind a key that stands at a target: its own target is
    still to come, or it is this one and the entry lies behind the resume position. -/
def Due (base : Topology) (k : ContinuationKey) (place : Nat) (e : IndexEntry) : Prop :=
  match k.virtualScans.get? e.partition with
  | some scan => (∃ i, place ≤ i ∧
      (k.targets base)[i]? = some { shard := scan.target, partition := e.partition }) ∧
    reached scan.resume ≤ e.position
  | none => ∃ i home, place ≤ i ∧ base.placement.get? e.partition = some home ∧
    base.shards[i]? = some home ∧ (i = place → reached k.resume ≤ e.position)

section Due

variable {k k' : ContinuationKey} {e : IndexEntry} {scan : VirtualScan}

theorem due_of_made (made : k.virtualScans.get? e.partition = some scan) :
    Due base k place e ↔ (∃ i, place ≤ i ∧
      (k.targets base)[i]? = some { shard := scan.target, partition := e.partition }) ∧
        reached scan.resume ≤ e.position := by
  rw [Due, made]

theorem due_of_unmade (unmade : k.virtualScans.get? e.partition = none) :
    Due base k place e ↔ ∃ i home, place ≤ i ∧ base.placement.get? e.partition = some home ∧
      base.shards[i]? = some home ∧ (i = place → reached k.resume ≤ e.position) := by
  rw [Due, unmade]

/-- What is due behind a target is due at it. -/
theorem Due.of_moveTo {targets : List Target}
    (due : Due base (k.moveTo (place + 1) targets) (place + 1) e) : Due base k place e := by
  cases made : k.virtualScans.get? e.partition with
  | some scan =>
    have made' : (k.moveTo (place + 1) targets).virtualScans.get? e.partition = some scan := made
    obtain ⟨⟨i, after, at_⟩, behind⟩ := (due_of_made made').1 due
    exact (due_of_made made).2 ⟨⟨i, Nat.le_of_succ_le after, at_⟩, behind⟩
  | none =>
    have made' : (k.moveTo (place + 1) targets).virtualScans.get? e.partition = none := made
    obtain ⟨i, home, after, based, at_, -⟩ := (due_of_unmade made').1 due
    refine (due_of_unmade made).2 ⟨i, home, Nat.le_of_succ_le after, based, at_, ?_⟩
    rintro rfl
    omega

/-- A base scan that moves its resume position forward makes nothing due. -/
theorem Due.of_resume {stop : Option IndexEntry} (forward : reached k.resume ≤ reached stop)
    (due : Due base { k with resume := stop } place e) : Due base k place e := by
  cases made : k.virtualScans.get? e.partition with
  | some scan =>
    exact (due_of_made made).2 ((due_of_made (k := { k with resume := stop }) made).1 due)
  | none =>
    obtain ⟨i, home, after, based, at_, behind⟩ :=
      (due_of_unmade (k := { k with resume := stop }) made).1 due
    exact (due_of_unmade made).2
      ⟨i, home, after, based, at_, fun here => forward.trans (behind here)⟩

/-- An entry of a base partition that was passed over is not due any more. -/
theorem not_due_of_resume {stop : Option IndexEntry}
    (unmade : k.virtualScans.get? e.partition = none)
    (home : base.placement.get? e.partition = some x) (at_ : base.shards[place]? = some x)
    (before : e.position < reached stop) : ¬ Due base { k with resume := stop } place e := by
  intro due
  obtain ⟨i, home', after, based, at', behind⟩ :=
    (due_of_unmade (k := { k with resume := stop }) unmade).1 due
  obtain rfl : x = home' := Option.some.inj (home.symm.trans based)
  obtain ⟨bound, same⟩ := List.getElem?_eq_some_iff.1 at_
  obtain ⟨bound', same'⟩ := List.getElem?_eq_some_iff.1 at'
  have here : i = place := (nodup_shards base).getElem_inj_iff.1 (same'.trans same.symm)
  have := behind here
  dsimp only at this
  omega

/-- A virtual scan that moves its resume position forward makes nothing due. -/
theorem Due.of_readTo {stop : Option IndexEntry} (made : k.virtualScans.get? p = some scan)
    (forward : reached scan.resume ≤ reached stop) (due : Due base (k.readTo p stop) place e) :
    Due base k place e := by
  have found := Table.get?_update k.virtualScans p e.partition ({ · with resume := stop })
  have targets : (k.readTo p stop).targets base = k.targets base :=
    targets_update k p ({ · with resume := stop }) (fun _ => rfl) base
  cases made' : k.virtualScans.get? e.partition with
  | some scan' =>
    rw [made'] at found
    by_cases same : e.partition = p
    · subst same
      rw [made] at made'
      cases made'
      rw [if_pos rfl, Option.map_some] at found
      obtain ⟨ahead, behind⟩ := (due_of_made (k := k.readTo e.partition stop) found).1 due
      rw [targets] at ahead
      exact (due_of_made made).2 ⟨ahead, forward.trans behind⟩
    · rw [if_neg same] at found
      have := (due_of_made (k := k.readTo p stop) found).1 due
      rw [targets] at this
      exact (due_of_made made').2 this
  | none =>
    rw [made', Option.map_none, ite_self] at found
    exact (due_of_unmade made').2 ((due_of_unmade (k := k.readTo p stop) found).1 due)

/-- An entry of a virtual scan that was passed over is not due any more. -/
theorem not_due_of_readTo {stop : Option IndexEntry}
    (made : k.virtualScans.get? e.partition = some scan) (before : e.position < reached stop) :
    ¬ Due base (k.readTo e.partition stop) place e := by
  intro due
  have found : (k.readTo e.partition stop).virtualScans.get? e.partition =
      some { scan with resume := stop } := by
    rw [ContinuationKey.readTo, Table.get?_update, if_pos rfl, made, Option.map_some]
  have behind := ((due_of_made found).1 due).2
  dsimp only at behind
  omega

/-- Making a virtual scan of a partition that has left makes nothing due. -/
theorem Due.of_departing {here : Topology} (departing : Departing base here x k k')
    (proper : k'.Proper) (at_ : base.shards[place]? = some x) (due : Due base k' place e) :
    Due base k place e := by
  obtain ⟨front, -⟩ := List.getElem?_eq_some_iff.1 at_
  have resume : k'.resume = k.resume := by rw [departing.same]
  -- A new scan begins where the base scan stands, so its entries were due with that.
  rcases departing.scans e.partition with kept | ⟨unmade, home, target, -, -, fresh⟩
  · cases made : k.virtualScans.get? e.partition with
    | some scan =>
      obtain ⟨-, behind⟩ := (due_of_made (kept.trans made)).1 due
      -- A virtual scan comes behind all shards.
      have mem : { shard := scan.target, partition := e.partition } ∈ k.targets base :=
        mem_targets.2 (.inr ⟨scan, made, rfl⟩)
      obtain ⟨i, at'⟩ := List.getElem?_of_mem mem
      refine (due_of_made made).2 ⟨⟨i, Nat.le_of_not_lt fun before => ?_, at'⟩, behind⟩
      rw [getElem?_targets k (before.trans front)] at at'
      obtain ⟨_, -, same⟩ := Option.map_eq_some_iff.1 at'
      exact proper _ scan (kept.trans made) (congrArg Target.partition same).symm
    | none =>
      obtain ⟨i, home, after, based, at', behind⟩ := (due_of_unmade (kept.trans made)).1 due
      exact (due_of_unmade made).2 ⟨i, home, after, based, at', resume ▸ behind⟩
  · obtain ⟨-, behind⟩ := (due_of_made fresh).1 due
    exact (due_of_unmade unmade).2 ⟨place, x, Nat.le_refl _, home, at_, fun _ => behind⟩

end Due

open Classical in
/-- What may still be read or thrown away: entries that are due, and partitions that have yet
    to leave. -/
noncomputable def toCome (base : Topology) (entries : Finset IndexEntry)
    (leaving : Finset PartitionId) (k : ContinuationKey) (place : Nat) (t : Timeline) : Nat :=
  (entries.filter fun e => Due base k place e).card + (leavers base leaving t).card

section ToCome

variable {k k' : ContinuationKey} {place' : Nat}

/-- Nothing comes anew with time. -/
theorem toCome_le (due : ∀ e, Due base k' place' e → Due base k place e)
    (fewer : (leavers base leaving t').card ≤ (leavers base leaving t).card) :
    toCome base entries leaving k' place' t' ≤ toCome base entries leaving k place t := by
  classical
  exact Nat.add_le_add (Finset.card_le_card fun e mem => Finset.mem_filter.2
    ⟨(Finset.mem_filter.1 mem).1, due e (Finset.mem_filter.1 mem).2⟩) fewer

theorem toCome_lt_of_left (due : ∀ e, Due base k' place' e → Due base k place e)
    (fewer : (leavers base leaving t').card < (leavers base leaving t).card) :
    toCome base entries leaving k' place' t' < toCome base entries leaving k place t := by
  classical
  exact Nat.add_lt_add_of_le_of_lt (Finset.card_le_card fun e mem => Finset.mem_filter.2
    ⟨(Finset.mem_filter.1 mem).1, due e (Finset.mem_filter.1 mem).2⟩) fewer

/-- An entry that was due and is not any more has come. -/
theorem toCome_lt_of_read {e : IndexEntry} (mem : e ∈ entries)
    (due : ∀ e, Due base k' place' e → Due base k place e) (was : Due base k place e)
    (read : ¬ Due base k' place' e) (reaches : t.Reaches t') :
    toCome base entries leaving k' place' t' < toCome base entries leaving k place t := by
  classical
  refine Nat.add_lt_add_of_lt_of_le (Finset.card_lt_card ?_)
    (Finset.card_le_card (leavers_subset reaches))
  refine Finset.ssubset_iff_subset_ne.2 ⟨fun e mem => ?_, fun same => ?_⟩
  · exact Finset.mem_filter.2 ⟨(Finset.mem_filter.1 mem).1, due e (Finset.mem_filter.1 mem).2⟩
  · have mem' : e ∈ entries.filter fun e => Due base k place e := Finset.mem_filter.2 ⟨mem, was⟩
    rw [← same] at mem'
    exact read (Finset.mem_filter.1 mem').2

end ToCome

/-! ## Batches -/

/-- A key that a query has while partitions leave. -/
structure OnCourse (base : Topology) (leaving : Finset PartitionId) (k : ContinuationKey)
    (place : Nat) : Prop where
  pinned : k.topology = base.sequence
  scans : ∀ p scan, k.virtualScans.get? p = some scan → p ∈ leaving
  marks : k.Marks base place

namespace OnCourse

variable {k k' : ContinuationKey}

theorem isProper (h : OnCourse base leaving k place) (proper : noVirtualScan ∉ leaving) :
    k.Proper := by
  rintro p scan made rfl
  exact proper (h.scans _ scan made)

/-- There is at most one target for each shard and for each partition that leaves. -/
theorem length_targets_le (h : OnCourse base leaving k place) :
    (k.targets base).length ≤ base.shards.length + leaving.card := by
  have few : k.virtualScans.keys.toFinset ⊆ leaving := by
    intro p mem
    obtain ⟨scan, made⟩ := Table.mem_keys.1 (List.mem_toFinset.1 mem)
    exact h.scans p scan made
  have count := Finset.card_le_card few
  rw [List.toFinset_card_of_nodup (Table.nodup_keys _), Table.keys, List.length_map] at count
  rw [ContinuationKey.targets, List.length_append, List.length_map, List.length_map]
  omega

/-- Partitions that left get virtual scans. -/
theorem departing {here : Topology} (h : OnCourse base leaving k place)
    (front : place < base.shards.length) (departing : Departing base here x k k')
    (left : ∀ p target, base.placement.get? p = some x → here.placement.get? p = some target →
      target ≠ x → p ∈ leaving) : OnCourse base leaving k' place where
  pinned := by
    rw [departing.same]
    exact h.pinned
  scans p scan made := by
    rcases departing.scans p with kept | ⟨-, home, target, owned, other, -⟩
    · exact h.scans p scan (kept ▸ made)
    · exact left p target home owned other
  marks t at_ := by
    rw [getElem?_targets k' front, ← getElem?_targets k front] at at_
    rw [departing.same]
    exact h.marks t at_

theorem readTo (h : OnCourse base leaving k place) (p : PartitionId) (stop : Option IndexEntry) :
    OnCourse base leaving (k.readTo p stop) place where
  pinned := h.pinned
  scans q scan made := by
    rw [ContinuationKey.readTo, Table.get?_update] at made
    split at made
    · obtain ⟨scan', made', -⟩ := Option.map_eq_some_iff.1 made
      exact h.scans q scan' made'
    · exact h.scans q scan made
  marks t at_ := by
    rw [ContinuationKey.readTo,
      targets_update k p ({ · with resume := stop }) (fun _ => rfl)] at at_
    exact h.marks t at_

end OnCourse

section Batches

variable {s s' : Scanning Timeline} {batch : Batch}

/-- A batch moves its resume position forward, over an entry that it asks for if it has not
    come to the end. -/
theorem readBatch_moved {accepts : PartitionId → Bool} {start : Option IndexEntry}
    {put : Option IndexEntry → ContinuationKey → ContinuationKey}
    (limits : 1 ≤ query.batchLimit ∧ 1 ≤ query.readLimit)
    (done : readBatch (Timeline.view x) query accepts start put s = .ok batch s') :
    ∃ stop, s'.key = put stop s.key ∧ reached start ≤ reached stop ∧
      (batch.exhausted = false → ∃ t e, s.world.Reaches t ∧ e ∈ (t.now.shard x).index ∧
        accepts e.partition = true ∧ reached start ≤ e.position ∧ e.position < reached stop) := by
  rw [readBatch] at done
  split at done
  next exhausted final read =>
    cases done
    have moved := readFrom_moved read (Nat.le_refl _)
    refine ⟨final.resume, rfl, moved.forward, fun going => ?_⟩
    refine moved.taken.resolve_left ?_
    rintro ⟨reads, results⟩
    have limit := moved.limited going
    rw [reads, results] at limit
    simp only [List.length_nil] at limit
    omega
  next => cases done

/-- What a batch of a target comes to: the key stays at the target, and less is to come unless
    there is nothing behind it. -/
structure Nearer (base : Topology) (entries : Finset IndexEntry) (leaving : Finset PartitionId)
    (place : Nat) (k : ContinuationKey) (t : Timeline) (batch : Batch) (k' : ContinuationKey)
    (t' : Timeline) : Prop where
  course : OnCourse base leaving k' place
  open_ : place < (k'.targets base).length
  still : toCome base entries leaving k' place t' ≤ toCome base entries leaving k place t
  less : batch.exhausted = false →
    toCome base entries leaving k' place t' < toCome base entries leaving k place t

/-- A base batch that was kept. -/
theorem KeptBatch.nearer {s₁ s₂ : Scanning Timeline} {asked : PartitionId → Bool}
    (h : Departures base entries leaving s₁.world)
    (limits : 1 ≤ query.batchLimit ∧ 1 ≤ query.readLimit)
    (course : OnCourse base leaving s₁.key place) (at_ : base.shards[place]? = some x)
    (kept : KeptBatch base x query s₁ s' batch asked s₂) :
    Nearer base entries leaving place s₁.key s₁.world batch s'.key s'.world := by
  obtain ⟨front, -⟩ := List.getElem?_eq_some_iff.1 at_
  obtain ⟨stop, moved, forward, read⟩ := readBatch_moved limits kept.read
  have passed := ((Forward.readBatch _ _ _).of_ok kept.read).trans
    ((Timeline.Reaches.pass _).trans kept.looked)
  rw [kept.key, moved]
  have fewer : ∀ e, Due base { s₁.key with resume := stop } place e → Due base s₁.key place e :=
    fun e => Due.of_resume forward
  constructor
  case course => exact ⟨course.pinned, course.scans, course.marks⟩
  case open_ =>
    rw [ContinuationKey.targets, List.length_append, List.length_map]
    omega
  case still => exact toCome_le fewer (Finset.card_le_card (leavers_subset passed))
  case less =>
    intro going
    -- A batch that goes on has read an entry, which was due before and is not any more.
    obtain ⟨t, e, reaches, mem, asks, after, before⟩ := read going
    obtain ⟨i, rfl⟩ := reaches
    obtain ⟨home, unmade⟩ := (kept.targets _).1 asks
    exact toCome_lt_of_read (h.listed i x e mem) fewer
      ((due_of_unmade unmade).2 ⟨place, x, Nat.le_refl _, home, at_, fun _ => after⟩)
      (not_due_of_resume unmade home at_ before) passed

theorem Nearer.trans {k k₁ k' : ContinuationKey}
    (h : Nearer base entries leaving place k₁ t₁ batch k' t')
    (before : toCome base entries leaving k₁ place t₁ ≤ toCome base entries leaving k place t) :
    Nearer base entries leaving place k t batch k' t' where
  course := h.course
  open_ := h.open_
  still := h.still.trans before
  less going := (h.less going).trans_le before

/-- A base batch, after however many attempts. -/
theorem Departures.scanBaseWithin_nearer (h : Departures base entries leaving s.world)
    (proper : noVirtualScan ∉ leaving) (limits : 1 ≤ query.batchLimit ∧ 1 ≤ query.readLimit)
    (course : OnCourse base leaving s.key place) (at_ : base.shards[place]? = some x)
    (done : scanBaseWithin (Timeline.view x) query patience base attempts s = .ok batch s') :
    Nearer base entries leaving place s.key s.world batch s'.key s'.world := by
  induction attempts generalizing s with
  | zero => cases done
  | succ attempts ih =>
    rw [scanBaseWithin_succ] at done
    obtain ⟨brought, s₃, round, done⟩ := bind_eq_ok done
    obtain ⟨here, s₀, s₁, asked, read, s₂, -, -, begins, outcome⟩ := baseRound_ok round
    obtain ⟨t, before, -, heard, -⟩ := begins.looked
    obtain ⟨front, -⟩ := List.getElem?_eq_some_iff.1 at_
    -- A partition that has left by now is one of those that leave, as the others stay settled.
    have course₁ : OnCourse base leaving s₁.key place := by
      refine course.departing front begins.departed fun p target home owned other => ?_
      by_contra remains
      obtain ⟨i, rfl⟩ := before
      have stays := h.settled p x home remains i (heard ▸ begins.known)
      change ((Timeline.pass^[i] s.world).now.shard x).topology.placement.get? p = _ at stays
      rw [← heard, owned] at stays
      exact other (Option.some.inj stays)
    have due (e : IndexEntry) : Due base s₁.key place e → Due base s.key place e :=
      Due.of_departing begins.departed (course₁.isProper proper) at_
    rcases outcome with ⟨lost, rfl⟩ | ⟨kept, rfl⟩
    -- The entries that were read are due again; it is the partition that left that counts.
    · have less : toCome base entries leaving s₃.key place s₃.world <
          toCome base entries leaving s.key place s.world :=
        toCome_lt_of_left (lost.key ▸ due) (lost.card_leavers_lt h begins)
      have reaches : s.world.Reaches s₃.world := begins.reaches.trans lost.reaches
      cases exhausted : read.exhausted with
      | true =>
        rw [exhausted] at done
        exact (ih (h.reaches reaches) (lost.key ▸ course₁) done).trans (Nat.le_of_lt less)
      | false =>
        rw [exhausted] at done
        obtain ⟨rfl, rfl⟩ := pure_eq_ok done
        refine ⟨lost.key ▸ course₁, ?_, Nat.le_of_lt less, fun _ => less⟩
        rw [ContinuationKey.targets, List.length_append, List.length_map]
        omega
    · obtain ⟨rfl, rfl⟩ := pure_eq_ok done
      exact (kept.nearer (h.reaches begins.reaches) limits course₁ at_).trans
        (toCome_le due (Finset.card_le_card (leavers_subset begins.reaches)))

/-- A batch of a virtual scan. -/
theorem Departures.scanVirtual_nearer (h : Departures base entries leaving s.world)
    (limits : 1 ≤ query.batchLimit ∧ 1 ≤ query.readLimit)
    (course : OnCourse base leaving s.key place) {scan : VirtualScan}
    (made : s.key.virtualScans.get? s.key.virtualPartition = some scan)
    (at_ : (s.key.targets base)[place]? =
      some { shard := scan.target, partition := s.key.virtualPartition })
    (done : scanVirtual (Timeline.view x) query patience s = .ok batch s') :
    Nearer base entries leaving place s.key s.world batch s'.key s'.world := by
  obtain ⟨scan', t, s₁, s₂, made', -, before, after, key, -, -, read, key', world⟩ :=
    scanVirtual_eq_ok done
  rw [made] at made'
  cases made'
  have passed := (before.trans (.pass t)).trans after
  obtain ⟨stop, moved, forward, taken⟩ := readBatch_moved limits read
  have reaches := passed.trans ((Forward.readBatch _ _ _).of_ok read)
  have stands : s'.key = s.key.readTo s.key.virtualPartition stop := by
    rw [key', moved, key]
    rfl
  rw [stands, world]
  have fewer (e : IndexEntry) : Due base (s.key.readTo s.key.virtualPartition stop) place e →
      Due base s.key place e := Due.of_readTo made forward
  refine ⟨course.readTo _ _, ?_, toCome_le fewer (Finset.card_le_card (leavers_subset reaches)),
    fun going => ?_⟩
  · rw [ContinuationKey.readTo, targets_update _ _ ({ · with resume := stop }) (fun _ => rfl)]
    exact (List.getElem?_eq_some_iff.1 at_).1
  -- Here, too, a batch that goes on has read an entry, of the partition of its scan.
  · obtain ⟨t, e, reading, mem, asks, after, before⟩ := taken going
    obtain ⟨i, rfl⟩ := passed.trans reading
    have same : e.partition = s.key.virtualPartition := of_decide_eq_true asks
    have read : ¬ Due base (s.key.readTo s.key.virtualPartition stop) place e := by
      rw [← same]
      exact not_due_of_readTo (same ▸ made) before
    refine toCome_lt_of_read (h.listed i x e mem) fewer ?_ read reaches
    exact (due_of_made (same ▸ made)).2 ⟨⟨place, Nat.le_refl _, same ▸ at_⟩, after⟩

end Batches

/-! ## Attempts -/

section Attempts

variable {s : Scanning Timeline} {enough : Nat}

/-- How many attempts a base batch takes, if so many are allowed. -/
def baseRounds {ω : Type} (view : ShardView ω) (query : Query) (patience : Nat) (base : Topology) :
    (attempts : Nat) → Scanning ω → Nat
  | 0, _ => 0
  | attempts + 1, s =>
    match baseRound view query patience base s with
    | .ok none s => baseRounds view query patience base attempts s + 1
    | _ => 1

/-- Each attempt but the last one finds that a partition has left. -/
theorem Departures.baseRounds_le (h : Departures base entries leaving s.world) (query : Query)
    (patience attempts : Nat) :
    baseRounds (Timeline.view x) query patience base attempts s ≤
      (leavers base leaving s.world).card + 1 := by
  induction attempts generalizing s with
  | zero => exact Nat.zero_le _
  | succ attempts ih =>
    rw [baseRounds]
    split
    next s₃ round =>
      obtain ⟨here, s₀, s₁, asked, read, s₂, -, passed, begins, ⟨lost, -⟩ | ⟨-, kept⟩⟩ :=
        baseRound_ok round
      · have less := lost.card_leavers_lt h begins
        have later := ih (h.reaches (begins.reaches.trans lost.reaches))
        omega
      · cases kept
    next => omega

/-- As many attempts are enough as there are partitions that have yet to leave, and one more;
    or as there are changes to come, and one more. -/
theorem Departures.scanBaseWithin_eq (h : Departures base entries leaving s.world)
    (few : (leavers base leaving s.world).card < attempts ∨ s.world.later.length < attempts)
    (few' : (leavers base leaving s.world).card < enough ∨ s.world.later.length < enough) :
    scanBaseWithin (Timeline.view x) query patience base attempts s =
      scanBaseWithin (Timeline.view x) query patience base enough s := by
  induction attempts generalizing s enough with
  | zero => omega
  | succ attempts ih =>
    obtain ⟨enough, rfl⟩ : ∃ n, enough = n + 1 := Nat.exists_eq_succ_of_ne_zero (by omega)
    rw [scanBaseWithin_succ, scanBaseWithin_succ]
    cases round : baseRound (Timeline.view x) query patience base s with
    | error e s₃ => rw [bind_eq_of_error round, bind_eq_of_error round]
    | ok brought s₃ =>
      rw [bind_eq_of_ok round, bind_eq_of_ok round]
      cases brought with
      | some batch => rfl
      | none =>
        obtain ⟨here, s₀, s₁, asked, read, s₂, -, passed, begins, ⟨lost, -⟩ | ⟨-, kept⟩⟩ :=
          baseRound_ok round
        · have less := lost.card_leavers_lt h begins
          have shorter := lost.length_later_lt begins
          exact ih (h.reaches (begins.reaches.trans lost.reaches)) (by omega) (by omega)
        · cases kept

/-- A base batch takes no more attempts than there are partitions that leave, and one. -/
theorem Departures.scanBase_eq (h : Departures base entries leaving s.world)
    (pinned : s.key.topology = base.sequence) :
    scanBase (Timeline.view x) query patience s =
      scanBaseWithin (Timeline.view x) query patience base (leaving.card + 1)
        { s with world := s.world.pass } := by
  have recorded : s.world.now.history.get s.key.topology = .ok base := by
    rw [pinned]
    exact h.recorded 0
  rw [scanBase, get_bind, bind_eq_of_ok (look_history s), recorded]
  have left := card_leavers_le base leaving s.world.pass
  have shorter := s.world.length_later_pass.1
  exact (h.reaches (.pass _)).scanBaseWithin_eq (s := { s with world := s.world.pass })
    (.inr (Nat.lt_succ_of_le shorter)) (.inl (Nat.lt_succ_of_le left))

end Attempts

/-! ## Queries -/

section Queries

variable {s s' : FleetState Timeline} {k k' : ContinuationKey} {c c' : Client Timeline}
  {results : List IndexEntry} {n : Nat}

/-- What is still to come of a query, its targets included. -/
noncomputable def toGo (base : Topology) (entries : Finset IndexEntry)
    (leaving : Finset PartitionId) (k : ContinuationKey) (place : Nat) (t : Timeline) : Nat :=
  toCome base entries leaving k place t + (base.shards.length + leaving.card - place)

/-- A batch of the target that a key stands at. -/
theorem Departures.scan_nearer {target : Target} {batch : Batch}
    (h : Departures base entries leaving s.world) (proper : noVirtualScan ∉ leaving)
    (limits : 1 ≤ query.batchLimit ∧ 1 ≤ query.readLimit)
    (course : OnCourse base leaving k place) (at_ : (k.targets base)[place]? = some target)
    (done : (Timeline.fleet nodes patience).scan query target k s = .ok (batch, k') s') :
    Nearer base entries leaving place k s.world batch k' s'.world := by
  obtain ⟨stats, stats', worked⟩ := scan_eq_ok done
  by_cases virtual : target.isVirtual = true
  · rw [if_pos virtual] at worked
    obtain ⟨scan, -, -, -, made, -⟩ := scanVirtual_eq_ok worked
    exact h.scanVirtual_nearer (s := { world := s.world, key := k, stats }) limits course made
      (at_.trans (congrArg some (course.marks.virtual at_ virtual made))) worked
  · rw [if_neg virtual] at worked
    rw [Target.eq_of_not_isVirtual virtual] at at_
    -- A base target stands in front of all virtual ones, so it is one of the base's shards.
    have front := (course.isProper proper).lt_length_shards at_
    have shard : base.shards[place]? = some target.shard := by
      rw [getElem?_targets k front] at at_
      obtain ⟨_, found, same⟩ := Option.map_eq_some_iff.1 at_
      exact found.trans (congrArg some (congrArg Target.shard same))
    have recorded : s.world.now.history.get k.topology = .ok base := by
      rw [course.pinned]
      exact h.recorded 0
    obtain ⟨attempts, within⟩ := scanBase_ok_within recorded worked
    exact (h.reaches (.pass _)).scanBaseWithin_nearer
      (s := { world := s.world.pass, key := k, stats }) proper limits course shard within |>.trans
        (toCome_le (fun _ due => due) (Finset.card_le_card (leavers_subset (.pass _))))

/-- A batch of a query. -/
theorem Departures.batchAt_ok {b : QueryBatch} (h : Departures base entries leaving s.world)
    (proper : noVirtualScan ∉ leaving) (limits : 1 ≤ query.batchLimit ∧ 1 ≤ query.readLimit)
    (course : OnCourse base leaving k place) (inRange : 0 ≤ k.shardIndex)
    (open_ : place < (k.targets base).length)
    (done : (Timeline.fleet nodes patience).batchAt query k s = .ok b s') :
    ∃ k' place', b.continuation = k'.write ∧ OnCourse base leaving k' place' ∧
      (b.done = true ↔ (k'.targets base).length ≤ place') ∧
      toGo base entries leaving k' place' s'.world < toGo base entries leaving k place s.world := by
  have pinned {t : Timeline} {k' : ContinuationKey} {place' : Nat} (reaches : s.world.Reaches t)
      (course : OnCourse base leaving k' place') : t.now.history.get k'.topology = .ok base := by
    rw [course.pinned]
    exact (h.reaches reaches).recorded 0
  obtain ⟨target, at_⟩ : ∃ target, (k.targets base)[place]? = some target :=
    ⟨_, List.getElem?_eq_getElem open_⟩
  rw [Fleet.batchAt, bind_eq_of_ok (targets_eq (pinned (.refl _) course))] at done
  obtain ⟨place₁, s₁, placed, done⟩ := bind_eq_ok done
  rw [(course.isProper proper).place_eq course.marks at_ inRange] at placed
  obtain ⟨rfl, rfl⟩ := pure_eq_ok placed
  rw [at_] at done
  dsimp only at done
  obtain ⟨⟨batch, k₁⟩, s₂, scanning, done⟩ := bind_eq_ok done
  have later := (Timeline.Reaches.pass _).trans ((Forward.scan _ _).of_ok scanning)
  have nearer := ((h.reaches (.pass _)).scan_nearer (s := { s with world := s.world.pass }) proper
    limits course at_ scanning).trans (k := k) (t := s.world)
      (toCome_le (fun _ due => due) (Finset.card_le_card (leavers_subset (.pass _))))
  have few := course.length_targets_le
  dsimp only at done
  split at done
  next =>
    -- The key moves on to the next target.
    obtain ⟨targets, s₃, looked, done⟩ := bind_eq_ok done
    obtain ⟨rfl, rfl⟩ := pure_eq_ok done
    rw [targets_eq (pinned later nearer.course)] at looked
    cases looked
    refine ⟨_, place + 1, rfl, ⟨nearer.course.pinned, nearer.course.scans, k₁.marks_moveTo base _⟩,
      decide_eq_true_iff, ?_⟩
    have still : toCome base entries leaving (k₁.moveTo (place + 1) (k₁.targets base)) (place + 1)
        s₂.world.pass ≤ toCome base entries leaving k place s.world :=
      (toCome_le (fun _ => Due.of_moveTo)
        (Finset.card_le_card (leavers_subset (.pass _)))).trans nearer.still
    rw [toGo, toGo]
    dsimp only
    omega
  next going =>
    -- The key stays at its target, so it must be an entry or a partition that is less to come.
    obtain ⟨rfl, rfl⟩ := pure_eq_ok done
    refine ⟨k₁, place, rfl, nearer.course, iff_of_false (by simp)
      (Nat.not_le.2 nearer.open_), ?_⟩
    exact Nat.add_lt_add_right (nearer.less (by simpa using going)) _

/-- A client that has not finished has as much as this to go at most. -/
structure Underway (base : Topology) (entries : Finset IndexEntry) (leaving : Finset PartitionId)
    (c : Client Timeline) (n : Nat) : Prop where
  departures : Departures base entries leaving c.state.world
  key : ∃ k place, c.continuation = k.write ∧ OnCourse base leaving k place ∧
    (c.done = true ↔ (k.targets base).length ≤ place) ∧
    toGo base entries leaving k place c.state.world ≤ n

/-- A client that has nothing to go has finished. -/
theorem Underway.done (h : Underway base entries leaving c 0) : c.done = true := by
  obtain ⟨k, place, -, course, ended, little⟩ := h.key
  have few := course.length_targets_le
  rw [toGo] at little
  exact ended.2 (by omega)

/-- A request takes a client on. -/
theorem Underway.next_ok (h : Underway base entries leaving c (n + 1))
    (started : 0 ≤ base.sequence) (proper : noVirtualScan ∉ leaving)
    (limits : 1 ≤ query.batchLimit ∧ 1 ≤ query.readLimit) (going : c.done = false)
    (done : (Timeline.fleet nodes patience).next query c = .ok results c') :
    Underway base entries leaving c' n := by
  rw [Fleet.next, if_neg (by simp [going])] at done
  split at done
  next b state executed =>
    cases done
    obtain ⟨k, place, written, course, ended, few⟩ := h.key
    rw [written, Fleet.executeBatch] at executed
    have later := (Forward.executeBatch query _).of_ok executed
    obtain ⟨k₁, s₁, read, executed⟩ := bind_eq_ok executed
    obtain ⟨rfl, rfl, inRange⟩ := keyOf_write (by rw [course.pinned]; exact started) read
    obtain ⟨k', place', written', course', ended', less⟩ := h.departures.batchAt_ok proper limits
      course inRange (Nat.not_le.1 fun beyond => by simp [ended.2 beyond] at going) executed
    exact ⟨h.departures.reaches later, k', place', written', course', ended', by dsimp only; omega⟩
  next => cases done

/-- The request that starts a query. -/
theorem Departures.next_ok (h : Departures base entries leaving c.state.world)
    (inhabited : base.shards ≠ []) (proper : noVirtualScan ∉ leaving)
    (limits : 1 ≤ query.batchLimit ∧ 1 ≤ query.readLimit)
    (pinned : c.state.world.now.history.current = .ok base) (fresh : c.continuation = [])
    (going : c.done = false)
    (few : entries.card + base.shards.length + 2 * leaving.card ≤ n + 1)
    (done : (Timeline.fleet nodes patience).next query c = .ok results c') :
    Underway base entries leaving c' n := by
  rw [Fleet.next, if_neg (by simp [going])] at done
  split at done
  next b state executed =>
    cases done
    have later := (Forward.executeBatch query _).of_ok executed
    rw [Fleet.executeBatch, fresh, bind_eq_of_ok (keyOf_nil pinned)] at executed
    have course : OnCourse base leaving { topology := base.sequence } 0 := by
      refine ⟨rfl, fun _ _ made => (by cases made), fun t at_ => ?_⟩
      rw [getElem?_targets _ (List.length_pos_iff.2 inhabited)] at at_
      obtain ⟨shard, -, rfl⟩ := Option.map_eq_some_iff.1 at_
      exact ⟨rfl, fun _ => rfl⟩
    have open_ : 0 < (ContinuationKey.targets { topology := base.sequence } base).length := by
      rw [ContinuationKey.targets, List.length_append, List.length_map]
      exact Nat.add_pos_left (List.length_pos_iff.2 inhabited) _
    obtain ⟨k', place', written', course', ended', less⟩ :=
      (h.reaches (.pass _)).batchAt_ok (s := { c.state with world := c.state.world.pass }) proper
        limits course (Int32.le_refl _) open_ executed
    -- At its start a query has every entry, every shard and every departure to go.
    have atMost : toGo base entries leaving { topology := base.sequence } 0 c.state.world.pass ≤
        n + 1 := by
      classical
      have read := Finset.card_filter_le entries fun e =>
        Due base { topology := base.sequence } 0 e
      have left := card_leavers_le base leaving c.state.world.pass
      rw [toGo, toCome]
      omega
    exact ⟨h.reaches later, k', place', written', course', ended', by dsimp only at less ⊢; omega⟩
  next => cases done

/-- A query ends if its first request leaves it so that it does. -/
theorem Fleet.EndsWithin.of_next {fleet : Fleet Timeline} (going : c.done = false)
    (next : ∀ results c', fleet.next query c = .ok results c' → c'.done = false →
      fleet.EndsWithin query n c') : fleet.EndsWithin query (n + 1) c := by
  rw [Fleet.EndsWithin, Fleet.drain, if_neg (by simp [going])]
  cases asked : fleet.next query c with
  | error e c' => exact fun succeed => by simpa using succeed _ (List.mem_singleton_self _)
  | ok results c' =>
    intro succeed
    by_cases finished : c'.done = true
    · exact ⟨_, List.mem_cons_self, finished⟩
    · obtain ⟨answer, mem, done⟩ := next results c' asked (by simpa using finished)
        fun answer mem => succeed answer (List.mem_cons_of_mem _ mem)
      exact ⟨answer, List.mem_cons_of_mem _ mem, done⟩

/-- A client that has so much to go is done after so many requests. -/
theorem Underway.endsWithin (h : Underway base entries leaving c n)
    (started : 0 ≤ base.sequence) (proper : noVirtualScan ∉ leaving)
    (limits : 1 ≤ query.batchLimit ∧ 1 ≤ query.readLimit) (going : c.done = false) :
    (Timeline.fleet nodes patience).EndsWithin query n c := by
  -- What is to go bounds the requests, as each takes one at least from it.
  induction n generalizing c with
  | zero => simp [h.done] at going
  | succ n ih =>
    exact .of_next going fun results c' asked => ih (h.next_ok started proper limits going asked)

/-- A query that starts is done after so many requests. -/
theorem Departures.endsWithin (h : Departures base entries leaving c.state.world)
    (started : 0 ≤ base.sequence) (inhabited : base.shards ≠ [])
    (proper : noVirtualScan ∉ leaving) (limits : 1 ≤ query.batchLimit ∧ 1 ≤ query.readLimit)
    (pinned : c.state.world.now.history.current = .ok base) (fresh : c.continuation = [])
    (going : c.done = false) :
    (Timeline.fleet nodes patience).EndsWithin query
      (entries.card + base.shards.length + 2 * leaving.card) c := by
  obtain ⟨n, bound⟩ : ∃ n, entries.card + base.shards.length + 2 * leaving.card = n + 1 :=
    Nat.exists_eq_succ_of_ne_zero (by have := List.length_pos_iff.2 inhabited; omega)
  rw [bound]
  refine .of_next going fun results c' asked => ?_
  exact (h.next_ok inhabited proper limits pinned fresh going (Nat.le_of_eq bound)
    asked).endsWithin started proper limits

/-- A query on a topology with a number that is not negative ends.  Each batch has read an entry
    or has finished a target, or was thrown away because a partition had left; and a partition
    is left behind at most twice, by a batch that is thrown away and at a target of its own. -/
theorem query_ends (base : Topology) (entries : Finset IndexEntry)
    (leaving : Finset PartitionId) (query : Query) (nodes : List ShardId) (patience : Nat)
    (world : Timeline) (started : 0 ≤ base.sequence) (inhabited : base.shards ≠ [])
    (proper : noVirtualScan ∉ leaving) (limits : 1 ≤ query.batchLimit ∧ 1 ≤ query.readLimit)
    (pinned : world.now.history.current = .ok base)
    (departures : Departures base entries leaving world) :
    (Timeline.fleet nodes patience).EndsWithin query
        (entries.card + base.shards.length + 2 * leaving.card) { state := { world } } ∧
      ∀ x s, world.Reaches s.world → s.key.topology = base.sequence →
        scanBase (Timeline.view x) query patience s =
          scanBaseWithin (Timeline.view x) query patience base (leaving.card + 1)
            { s with world := s.world.pass } ∧
        ∀ attempts, baseRounds (Timeline.view x) query patience base attempts
          { s with world := s.world.pass } ≤ leaving.card + 1 := by
  refine ⟨departures.endsWithin started inhabited proper limits pinned rfl rfl,
    fun x s reaches keeps => ⟨(departures.reaches reaches).scanBase_eq keeps, fun attempts => ?_⟩⟩
  have few := (departures.reaches (reaches.trans (.pass _))).baseRounds_le
    (s := { s with world := s.world.pass }) (x := x) query patience attempts
  exact few.trans (Nat.succ_le_succ (card_leavers_le ..))

end Queries

/-! ## A partition that migrates while a query is open -/

section Migrating

variable {topologies : Nat → Topology} {earlier : Nat → List Topology} {held : List IndexEntry}

/-- Where a store is at rest at every look, a partition is at home if two looks in a row find it
    there. -/
theorem atHome_iff_of_resting
    (rests : ∀ i, (t.after i).now = .resting held (topologies i) (earlier i))
    (newer : ∀ i, base.sequence ≤ (topologies i).sequence) (i : Nat) :
    (t.after i).AtHome base p ↔ ∃ x, base.placement.get? p = some x ∧
      (topologies i).placement.get? p = some x ∧
      (topologies (i + 1)).placement.get? p = some x := by
  have next : (t.after i).pass = t.after (i + 1) := (Function.iterate_succ_apply' _ _ _).symm
  have current : ¬ (topologies i).sequence < base.sequence := Int64.not_lt.2 (newer i)
  simp [Timeline.AtHome, next, rests, Situation.resting, mem_partitionsOf, current]

/-- Complete migrations are departures, if no partition comes back to where it was at first. -/
theorem Departures.of_resting
    (rests : ∀ i, (t.after i).now = .resting held (topologies i) (earlier i))
    (newer : ∀ i, base.sequence ≤ (topologies i).sequence)
    (recorded : ∀ i,
      History.get { topologies := topologies i :: earlier i } base.sequence = .ok base)
    (stays : ∀ p ∉ leaving, ∀ i, (topologies i).placement.get? p = base.placement.get? p)
    (once : ∀ p ∈ leaving, ∀ i j, i ≤ j →
      (topologies j).placement.get? p = base.placement.get? p →
        (topologies i).placement.get? p = base.placement.get? p) :
    Departures base held.toFinset leaving t where
  recorded i := by
    rw [rests]
    exact recorded i
  listed i x e mem := by
    rw [rests] at mem
    exact List.mem_toFinset.2 (List.mem_of_mem_filter mem)
  settled p x home remains i _ := by
    rw [rests]
    exact (stays p remains i).trans home
  stays p remains i j _ there := by
    obtain ⟨x, home, -⟩ := (atHome_iff_of_resting rests newer i).1 there
    exact (atHome_iff_of_resting rests newer j).2
      ⟨x, home, (stays p remains j).trans home, (stays p remains (j + 1)).trans home⟩
  once p leaves i j k l _ before _ there gone back := by
    -- A partition that is at home has not been anywhere else.
    obtain ⟨x, home, -, again⟩ := (atHome_iff_of_resting rests newer k).1 back
    have kept (n : Nat) (early : n ≤ k + 1) : (topologies n).placement.get? p = some x :=
      (once p leaves n (k + 1) early (again.trans home.symm)).trans home
    exact absurd ((atHome_iff_of_resting rests newer j).2
      ⟨x, home, kept j (by omega), kept (j + 1) (by omega)⟩) gone

/-- A store at rest in which a migration is complete after so many more looks. -/
def Timeline.migrating (held : List IndexEntry) (base moved : Topology) (looks : Nat) :
    Timeline where
  now := .resting held base []
  later := .replicate looks (.resting held base []) ++ [.resting held moved [base]]

theorem now_after_migrating {moved : Topology} (looks i : Nat) :
    ((Timeline.migrating held base moved looks).after i).now =
      .resting held (if i ≤ looks then base else moved) (if i ≤ looks then [] else [base]) := by
  induction looks generalizing i with
  | zero =>
    cases i with
    | zero => rfl
    | succ i =>
      have still : (Timeline.mk (.resting held moved [base]) []).after i =
        .mk (.resting held moved [base]) [] := Function.iterate_fixed rfl i
      exact congrArg Timeline.now still
  | succ looks ih =>
    cases i with
    | zero => rfl
    | succ i =>
      have passed : (Timeline.migrating held base moved (looks + 1)).after (i + 1) =
        (Timeline.migrating held base moved looks).after i := rfl
      simpa [passed] using ih i

/-- A single migration is a departure. -/
theorem departures_migrating {moved : Topology} (target : ShardId)
    (moves : base.migrate p target = .ok moved) (elsewhere : base.placement.get? p ≠ some target)
    (newer : base.sequence < moved.sequence) (looks : Nat) :
    Departures base held.toFinset {p} (.migrating held base moved looks) := by
  obtain rfl : { sequence := base.sequence + 1, placement := base.placement.insert p target } =
      moved := by
    rw [Topology.migrate] at moves
    split at moves
    · exact Except.ok.inj moves
    · cases moves
  refine .of_resting (now_after_migrating looks) (fun i => ?_) (fun i => ?_) (fun q other i => ?_)
    fun q leaves i j before back => ?_
  · split
    · exact Int64.le_refl _
    · exact Int64.le_of_lt newer
  · dsimp only at newer
    have other : base.sequence + 1 ≠ base.sequence := fun same => by
      rw [same] at newer
      exact Int64.lt_irrefl newer
    split <;> simp [History.get, other]
  · split
    · rfl
    · simpa [Table.get?_insert] using fun same => absurd same (by simpa using other)
  · obtain rfl := Finset.mem_singleton.1 leaves
    -- Once it has moved the partition does not come back.
    have early : j ≤ looks := by
      by_contra late
      rw [if_neg late, Table.get?_insert, if_pos rfl] at back
      exact elsewhere back.symm
    rw [if_pos (before.trans early)]

/-- A drain in which no request fails and none is the last one has not ended. -/
theorem not_endsWithin {ω : Type} {fleet : Fleet ω} {c : Client ω} {n : Nat}
    (going : (fleet.drain query n c).all (fun answer => answer.1.isOk && !answer.2.done) = true) :
    ¬ fleet.EndsWithin query n c := by
  intro ends
  rw [List.all_eq_true] at going
  obtain ⟨answer, mem, done⟩ := ends fun answer mem => by
    have := going answer mem
    cases brought : answer.1 with
    | ok results => exact ⟨results, rfl⟩
    | error e => simp [brought, Except.isOk, Except.toBool] at this
  simpa [done] using going answer mem

/-- The bound is reached by a partition that leaves while the first batch reads its entry. -/
theorem query_ends_tight :
    let base : Topology := { sequence := 1, placement := ⟨[(0, 1), (1, 1), (2, 2)], by decide⟩ }
    let moved : Topology := { sequence := 2, placement := ⟨[(0, 1), (1, 2), (2, 2)], by decide⟩ }
    let held : List IndexEntry := [⟨10, 0⟩, ⟨20, 1⟩]
    let query : Query := { admits := fun _ => true, batchLimit := 1 }
    let fleet := Timeline.fleet [1, 2] 0
    let world := Timeline.migrating held base moved 5
    Departures base held.toFinset {1} world ∧
      held.toFinset.card + base.shards.length + 2 * ({1} : Finset PartitionId).card = 6 ∧
      fleet.EndsWithin query 6 { state := { world } } ∧
      ¬ fleet.EndsWithin query 5 { state := { world } } := by
  intro base moved held query fleet world
  have departures : Departures base held.toFinset {1} world :=
    departures_migrating 2 rfl (by decide) (by decide) 5
  exact ⟨departures, by decide, (query_ends base held.toFinset {1} query [1, 2] 0 world (by decide)
    (by decide) (by decide) (by decide) rfl departures).1, not_endsWithin (by cbv)⟩

/-- A query on a topology with a negative number starts again with every batch, and may read a
    partition twice.  A migration of the partition whose number stands for no virtual scan has
    the base scans behind it made again. -/
theorem not_query_ends :
    (¬ ∀ (base : Topology) (entries : Finset IndexEntry) (leaving : Finset PartitionId)
      (query : Query) (nodes : List ShardId) (patience : Nat) (world : Timeline),
      base.shards ≠ [] → noVirtualScan ∉ leaving → 1 ≤ query.batchLimit ∧ 1 ≤ query.readLimit →
      world.now.history.current = .ok base → Departures base entries leaving world →
      (Timeline.fleet nodes patience).EndsWithin query
        (entries.card + base.shards.length + 2 * leaving.card) { state := { world } }) ∧
    ¬ ∀ (base : Topology) (entries : Finset IndexEntry) (leaving : Finset PartitionId)
      (query : Query) (nodes : List ShardId) (patience : Nat) (world : Timeline),
      0 ≤ base.sequence → base.shards ≠ [] → 1 ≤ query.batchLimit ∧ 1 ≤ query.readLimit →
      world.now.history.current = .ok base → Departures base entries leaving world →
      (Timeline.fleet nodes patience).EndsWithin query
        (entries.card + base.shards.length + 2 * leaving.card) { state := { world } } := by
  constructor
  case left =>
    intro ends
    let base : Topology := { sequence := -5, placement := ⟨[(0, 1), (1, 2)], by decide⟩ }
    let moved : Topology := { sequence := -4, placement := ⟨[(0, 3), (1, 2)], by decide⟩ }
    let held : List IndexEntry := [⟨10, 0⟩, ⟨20, 0⟩, ⟨30, 0⟩]
    have departures : Departures base held.toFinset {0} (.migrating held base moved 21) :=
      departures_migrating 3 rfl (by decide) (by decide) 21
    exact not_endsWithin (by cbv) (ends base held.toFinset {0}
      { admits := fun _ => true, batchLimit := 1 } [1, 2, 3] 0 _ (by decide) (by decide) (by decide)
      rfl departures)
  case right =>
    intro ends
    let base : Topology := { sequence := 1, placement := ⟨[(-1, 1), (0, 2)], by decide⟩ }
    let moved : Topology := { sequence := 2, placement := ⟨[(-1, 2), (0, 2)], by decide⟩ }
    let held : List IndexEntry := [⟨5, -1⟩, ⟨10, 0⟩, ⟨20, 0⟩, ⟨30, 0⟩]
    have departures : Departures base held.toFinset {-1} (.migrating held base moved 5) :=
      departures_migrating 2 rfl (by decide) (by decide) 5
    exact not_endsWithin (by cbv) (ends base held.toFinset {-1}
      { admits := fun _ => true, batchLimit := 1 } [1, 2] 0 _ (by decide) (by decide) (by decide)
      rfl departures)

end Migrating

end Replication.Scan
