import Replication.Proofs.Scan.Routes

/-! # How far a query has come

`Returned` tells entry by entry what the batches up to a key have returned.  Making a virtual
scan and moving on to the next target do not change it, and a batch adds just its results.
-/

namespace Replication.Scan

open Replication.Placement (History PartitionId PlacementError ShardId Topology)

variable {r : Relocation} {query : Query} {k k' : ContinuationKey} {place place' : Nat}
  {x : ShardId} {results : List IndexEntry}

/-! ## What was returned -/

/-- Whether an entry was returned up to a key that stands at a target, if it was asked for. -/
def Returned (r : Relocation) (k : ContinuationKey) (place : Nat) (e : IndexEntry) : Prop :=
  match k.virtualScans.get? e.partition with
  | some scan =>
    { shard := scan.target, partition := e.partition } ∈ (k.targets r.base).take place ∨
      e.position < reached scan.resume
  | none => ∃ home, r.base.placement.get? e.partition = some home ∧
      ({ shard := home } ∈ (k.targets r.base).take place ∨
        (k.targets r.base)[place]? = some { shard := home } ∧ e.position < reached k.resume)

theorem returned_of_made {e : IndexEntry} {scan : VirtualScan}
    (made : k.virtualScans.get? e.partition = some scan) : Returned r k place e ↔
      { shard := scan.target, partition := e.partition } ∈ (k.targets r.base).take place ∨
        e.position < reached scan.resume := by
  rw [Returned, made]

theorem returned_of_home {e : IndexEntry} {home : ShardId}
    (plain : k.virtualScans.get? e.partition = none)
    (based : r.base.placement.get? e.partition = some home) : Returned r k place e ↔
      { shard := home } ∈ (k.targets r.base).take place ∨
        (k.targets r.base)[place]? = some { shard := home } ∧ e.position < reached k.resume := by
  rw [Returned, plain]
  dsimp only
  constructor
  · rintro ⟨home', based', stands⟩
    rw [based] at based'
    cases based'
    exact stands
  · exact fun stands => ⟨home, based, stands⟩

/-- What a batch adds to what was returned before it. -/
structure Advances (r : Relocation) (query : Query) (k : ContinuationKey) (place : Nat)
    (k' : ContinuationKey) (place' : Nat) (results : List IndexEntry) : Prop where
  nodup : results.Nodup
  new : ∀ e, e ∈ results ↔ e ∈ r.entries ∧ query.admits e = true ∧ Returned r k' place' e ∧
    ¬ Returned r k place e
  kept : ∀ e ∈ r.entries, Returned r k place e → Returned r k' place' e

/-- An empty batch adds nothing. -/
theorem Advances.of_iff (same : ∀ e ∈ r.entries, Returned r k place e ↔ Returned r k' place' e) :
    Advances r query k place k' place' [] where
  nodup := .nil
  new e := by
    simp only [List.not_mem_nil, false_iff]
    exact fun ⟨mem, _, now, before⟩ => before ((same e mem).2 now)
  kept e mem := (same e mem).1

theorem Advances.congr {k₁ k₂ : ContinuationKey} {place₁ place₂ : Nat}
    (h : Advances r query k₁ place₁ k₂ place₂ results)
    (before : ∀ e ∈ r.entries, Returned r k place e ↔ Returned r k₁ place₁ e)
    (after : ∀ e ∈ r.entries, Returned r k₂ place₂ e ↔ Returned r k' place' e) :
    Advances r query k place k' place' results where
  nodup := h.nodup
  new e := by
    rw [h.new e]
    refine and_congr_right fun mem => ?_
    rw [before e mem, after e mem]
  kept e mem was := (after e mem).1 (h.kept e mem ((before e mem).1 was))

section Results

variable {more : List IndexEntry}

/-- What has come with a batch and before it is what was returned up to there. -/
theorem Advances.mem_append (h : Advances r query k place k' place' more)
    (returned : ∀ e, e ∈ results ↔
      e ∈ r.entries ∧ query.admits e = true ∧ Returned r k place e) (e : IndexEntry) :
    e ∈ results ++ more ↔ e ∈ r.entries ∧ query.admits e = true ∧ Returned r k' place' e := by
  rw [List.mem_append, returned e, h.new e]
  constructor
  · rintro (⟨mem, admitted, before⟩ | ⟨mem, admitted, now, -⟩)
    · exact ⟨mem, admitted, h.kept e mem before⟩
    · exact ⟨mem, admitted, now⟩
  · rintro ⟨mem, admitted, now⟩
    by_cases before : Returned r k place e
    · exact .inl ⟨mem, admitted, before⟩
    · exact .inr ⟨mem, admitted, now, before⟩

theorem Advances.nodup_append (h : Advances r query k place k' place' more)
    (nodup : results.Nodup)
    (returned : ∀ e, e ∈ results ↔
      e ∈ r.entries ∧ query.admits e = true ∧ Returned r k place e) : (results ++ more).Nodup := by
  refine nodup.append h.nodup fun e mem mem' => ?_
  exact ((h.new e).1 mem').2.2.2 ((returned e).1 mem).2.2

end Results

/-! ## Exact batches -/

section Batches

variable {asked : PartitionId → Bool} {start stop : Option IndexEntry} {batch : Batch}

theorem Exact.nodup (h : Exact r query asked start stop batch) : batch.results.Nodup := by
  rw [List.nodup_iff_count_le_one]
  intro e
  rw [h.count e]
  split <;> omega

theorem Exact.mem_results (h : Exact r query asked start stop batch) {e : IndexEntry} :
    e ∈ batch.results ↔ e ∈ r.entries ∧ asked e.partition = true ∧ query.admits e = true ∧
      reached start ≤ e.position ∧ e.position < reached stop := by
  rw [← List.count_pos_iff, h.count e]
  split
  next holds => exact iff_of_true (by omega) holds
  next fails => exact iff_of_false (by omega) fails

/-- An exact batch adds its results if it moves the resume positions of just the entries that
    it asks for. -/
theorem Exact.advances (h : Exact r query asked start stop batch)
    (moved : ∀ e ∈ r.entries, asked e.partition = true →
      (Returned r k place e ↔ e.position < reached start) ∧
        (Returned r k' place' e ↔ e.position < reached stop))
    (others : ∀ e ∈ r.entries, asked e.partition = false →
      (Returned r k place e ↔ Returned r k' place' e)) :
    Advances r query k place k' place' batch.results where
  nodup := h.nodup
  new e := by
    rw [h.mem_results]
    -- The results are what stands between the two resume positions, so just what is new.
    refine and_congr_right fun mem => ?_
    cases wanted : asked e.partition with
    | true =>
      obtain ⟨before, after⟩ := moved e mem wanted
      rw [before, after]
      simp only [true_and, Nat.not_lt]
      tauto
    | false =>
      rw [others e mem wanted]
      simp
  kept e mem := by
    cases wanted : asked e.partition with
    | true =>
      obtain ⟨before, after⟩ := moved e mem wanted
      rw [before, after]
      have forward := h.forward
      omega
    | false => exact (others e mem wanted).1

end Batches

/-! ## Base batches -/

/-- The entries of a relocation have a home. -/
theorem Relocation.home_of_mem {e : IndexEntry} (mem : e ∈ r.entries) :
    ∃ home, r.base.placement.get? e.partition = some home :=
  Option.isSome_iff_exists.1 (r.placed e mem)

theorem Departed.onTrack (h : Departed r x k k') (track : OnTrack r k) : OnTrack r k' where
  pinned := by
    rw [h.same]
    exact track.pinned
  scans p scan made := by
    rcases h.scans p with kept | ⟨-, home, fresh⟩
    · exact track.scans p scan (kept ▸ made)
    · rw [made] at fresh
      cases fresh
      exact ⟨rfl, x, home⟩

/-- No target in front of the current one is the current one. -/
theorem OnTrack.not_mem_take (h : OnTrack r k) {t : Target}
    (at_ : (k.targets r.base)[place]? = some t) : t ∉ (k.targets r.base).take place := by
  intro mem
  obtain ⟨j, bound, same⟩ := List.mem_take_iff_getElem.1 mem
  obtain ⟨bound', same'⟩ := List.getElem?_eq_some_iff.1 at_
  have twice := h.nodup_targets.getElem_inj_iff.1 (same.trans same'.symm)
  omega

/-- The targets in front of a shard are shards. -/
theorem OnTrack.partition_of_mem_take (h : OnTrack r k)
    (at_ : (k.targets r.base)[place]? = some { shard := x }) {t : Target}
    (mem : t ∈ (k.targets r.base).take place) : t.partition = noVirtualScan := by
  rw [take_targets k (Nat.le_of_lt (h.lt_length_shards at_))] at mem
  obtain ⟨_, -, rfl⟩ := List.mem_map.1 (List.mem_of_mem_take mem)
  rfl

/-- A virtual scan of a partition that has left starts where its home stopped. -/
theorem Departed.returned (h : Departed r x k k') (track : OnTrack r k)
    (at_ : (k.targets r.base)[place]? = some { shard := x }) :
    ∀ e ∈ r.entries, Returned r k place e ↔ Returned r k' place e := by
  intro e mem
  have front := track.lt_length_shards at_
  have track' := h.onTrack track
  have at' : (k'.targets r.base)[place]? = some { shard := x } := by
    rw [getElem?_targets k' front, ← getElem?_targets k front, at_]
  have passed : (k'.targets r.base).take place = (k.targets r.base).take place := by
    rw [take_targets k' (Nat.le_of_lt front), take_targets k (Nat.le_of_lt front)]
  have resume : k'.resume = k.resume := by rw [h.same]
  obtain ⟨home, based⟩ := r.home_of_mem mem
  rcases h.scans e.partition with kept | ⟨plain, home', made⟩
  · cases scan : k.virtualScans.get? e.partition with
    | none =>
      rw [returned_of_home scan based, returned_of_home (kept.trans scan) based, passed, at_, at',
        resume]
    | some scan' =>
      rw [returned_of_made scan, returned_of_made (kept.trans scan), passed]
  -- A scan made just now starts where its home stopped, and its own target is still to come.
  · rw [returned_of_home plain home', returned_of_made made]
    have absent : { shard := x } ∉ (k.targets r.base).take place := track.not_mem_take at_
    have unmade : { shard := r.destination e.partition, partition := e.partition } ∉
        (k'.targets r.base).take place := by
      intro mem
      exact track'.named made (track'.partition_of_mem_take at' mem)
    simp only [absent, unmade, false_or, at_, true_and]

/-- A base batch that was kept. -/
theorem Exact.advances_base {asked : PartitionId → Bool} {stop : Option IndexEntry} {batch : Batch}
    (h : Exact r query asked k.resume stop batch) (track : OnTrack r k)
    (at_ : (k.targets r.base)[place]? = some { shard := x })
    (wanted : ∀ p, asked p = true ↔
      r.base.placement.get? p = some x ∧ k.virtualScans.get? p = none) :
    Advances r query k place { k with resume := stop } place batch.results := by
  have absent : { shard := x } ∉ (k.targets r.base).take place := track.not_mem_take at_
  -- The partitions that the batch asked for are those that return at this target, and no others.
  refine h.advances (fun e mem asks => ?_) fun e mem passes => ?_
  · obtain ⟨home, plain⟩ := (wanted _).1 asks
    have plain' : { k with resume := stop }.virtualScans.get? e.partition = none := plain
    rw [returned_of_home plain home, returned_of_home plain' home]
    change (_ ∈ (k.targets r.base).take place ∨ _ ↔ _) ∧
      (_ ∈ (k.targets r.base).take place ∨ (k.targets r.base)[place]? = _ ∧ _ ↔ _)
    simp only [absent, false_or, at_, true_and]
  · obtain ⟨home, based⟩ := r.home_of_mem mem
    cases scan : k.virtualScans.get? e.partition with
    | none =>
      have scan' : { k with resume := stop }.virtualScans.get? e.partition = none := scan
      rw [returned_of_home scan based, returned_of_home scan' based]
      change _ ↔ _ ∈ (k.targets r.base).take place ∨ (k.targets r.base)[place]? = _ ∧ _
      have elsewhere : home ≠ x := by
        rintro rfl
        rw [(wanted _).2 ⟨based, scan⟩] at passes
        cases passes
      have other : (k.targets r.base)[place]? ≠ some { shard := home } := by
        rw [at_]
        exact fun same => elsewhere (congrArg Target.shard (Option.some.inj same)).symm
      simp only [other, false_and]
    | some scan' =>
      have scan'' : { k with resume := stop }.virtualScans.get? e.partition = some scan' := scan
      rw [returned_of_made scan, returned_of_made scan'']
      rfl

/-! ## Virtual batches -/

theorem targets_readTo (p : PartitionId) (stop : Option IndexEntry) :
    (k.readTo p stop).targets r.base = k.targets r.base :=
  targets_update k p ({ · with resume := stop }) (fun _ => rfl) r.base

theorem OnTrack.readTo (h : OnTrack r k) (p : PartitionId) (stop : Option IndexEntry) :
    OnTrack r (k.readTo p stop) where
  pinned := h.pinned
  scans q scan made := by
    rw [ContinuationKey.readTo, Table.get?_update] at made
    split at made
    · obtain ⟨scan', made', rfl⟩ := Option.map_eq_some_iff.1 made
      exact h.scans q scan' made'
    · exact h.scans q scan made

/-- A batch of a virtual scan. -/
theorem Exact.advances_virtual {p : PartitionId} {scan : VirtualScan} {stop : Option IndexEntry}
    {batch : Batch} (h : Exact r query (· = p) scan.resume stop batch) (track : OnTrack r k)
    (made : k.virtualScans.get? p = some scan)
    (at_ : (k.targets r.base)[place]? = some { shard := scan.target, partition := p }) :
    Advances r query k place (k.readTo p stop) place batch.results := by
  have absent : { shard := scan.target, partition := p } ∉ (k.targets r.base).take place :=
    track.not_mem_take at_
  have found (q : PartitionId) : (k.readTo p stop).virtualScans.get? q =
      if q = p then (k.virtualScans.get? q).map ({ · with resume := stop })
      else k.virtualScans.get? q := Table.get?_update _ _ _ _
  refine h.advances (fun e _ asks => ?_) fun e mem passes => ?_
  · obtain rfl : e.partition = p := of_decide_eq_true asks
    have made' : (k.readTo e.partition stop).virtualScans.get? e.partition =
        some { scan with resume := stop } := by
      rw [found, if_pos rfl, made, Option.map_some]
    rw [returned_of_made made, returned_of_made made', targets_readTo]
    simp only [absent, false_or, and_self]
  · have other : e.partition ≠ p := of_decide_eq_false passes
    have same := (found e.partition).trans (if_neg other)
    obtain ⟨home, based⟩ := r.home_of_mem mem
    cases scan' : k.virtualScans.get? e.partition with
    | none =>
      rw [returned_of_home scan' based, returned_of_home (same.trans scan') based, targets_readTo]
      rfl
    | some other =>
      rw [returned_of_made scan', returned_of_made (same.trans scan'), targets_readTo]

/-! ## Moving on -/

/-- A key moves on from a target of which everything was returned. -/
theorem returned_moveTo {t : Target} (at_ : (k.targets r.base)[place]? = some t)
    (homes : ∀ e ∈ r.entries, ∀ home, k.virtualScans.get? e.partition = none →
      r.base.placement.get? e.partition = some home → { shard := home } = t →
        e.position < reached k.resume)
    (scans : ∀ e ∈ r.entries, ∀ scan, k.virtualScans.get? e.partition = some scan →
      { shard := scan.target, partition := e.partition } = t → e.position < reached scan.resume) :
    ∀ e ∈ r.entries, Returned r k place e ↔
      Returned r (k.moveTo (place + 1) (k.targets r.base)) (place + 1) e := by
  intro e mem
  have passed (t' : Target) : t' ∈ (k.targets r.base).take (place + 1) ↔
      t' ∈ (k.targets r.base).take place ∨ t' = t := by
    rw [List.take_add_one, at_, Option.toList_some, List.mem_append, List.mem_singleton]
  obtain ⟨home, based⟩ := r.home_of_mem mem
  -- An entry is returned by the one target that has its partition, so it is enough to look at
  -- that one: its home, or its virtual scan if there is one.
  cases scan : k.virtualScans.get? e.partition with
  | none =>
    have scan' : (k.moveTo (place + 1) (k.targets r.base)).virtualScans.get? e.partition = none :=
      scan
    rw [returned_of_home scan based, returned_of_home scan' based]
    change _ ↔ _ ∈ (k.targets r.base).take (place + 1) ∨ _ ∧ e.position < reached none
    rw [passed, at_, reached_none, Option.some.injEq]
    simp only [Nat.not_lt_zero, and_false, or_false]
    refine or_congr_right ⟨fun ⟨same, _⟩ => same.symm, fun same => ⟨same.symm, ?_⟩⟩
    exact homes e mem home scan based same
  | some scan' =>
    have scan'' : (k.moveTo (place + 1) (k.targets r.base)).virtualScans.get? e.partition =
        some scan' := scan
    rw [returned_of_made scan, returned_of_made scan'']
    change _ ↔ _ ∈ (k.targets r.base).take (place + 1) ∨ _
    rw [passed]
    constructor
    · rintro (mem | before)
      · exact .inl (.inl mem)
      · exact .inr before
    · rintro ((mem | same) | before)
      · exact .inl mem
      · exact .inr (scans e mem scan' scan same)
      · exact .inr before

/-- Behind the last target everything was returned. -/
theorem returned_of_length_le (done : (k.targets r.base).length ≤ place) :
    ∀ e ∈ r.entries, Returned r k place e := by
  intro e mem
  obtain ⟨home, based⟩ := r.home_of_mem mem
  cases scan : k.virtualScans.get? e.partition with
  | none =>
    rw [returned_of_home scan based, List.take_of_length_le done, mem_targets]
    exact .inl (.inl ⟨mem_shards.2 ⟨_, based⟩, rfl⟩)
  | some scan' =>
    rw [returned_of_made scan, List.take_of_length_le done, mem_targets]
    exact .inl (.inr ⟨scan', scan, rfl⟩)

/-- At the front of the first target nothing was returned. -/
theorem not_returned_start (e : IndexEntry) :
    ¬ Returned r { topology := r.base.sequence } 0 e := by
  rintro ⟨home, -, passed | ⟨-, before⟩⟩
  · cases passed
  · exact absurd before (Nat.not_lt_zero _)

end Replication.Scan
