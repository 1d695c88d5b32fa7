import Mathlib
import Replication.Proofs.Scan.Reading
import Replication.Scan.Walk

/-! # What a batch covers

Whatever happens to the index between the looks of a batch, its results ascend from behind the
resume position, and no entry that could be found all the time is left out between the old
resume position and the new one, nor behind the new one if nothing was left to find.
-/

namespace Replication.Scan

open Replication.Placement (PartitionId ShardId)

variable {x : ShardId} {query : Query} {accepts : PartitionId → Bool}
  {start cursor : Option IndexEntry} {t : Timeline} {found : List IndexEntry} {e : IndexEntry}

/-! ## Entries behind a position -/

/-- Whether entries ascend from behind a position. -/
def AscendsFrom (start : Option IndexEntry) (es : List IndexEntry) : Prop :=
  es.Pairwise (· < ·) ∧ ∀ e ∈ es, Follows e start

theorem AscendsFrom.filter {es : List IndexEntry} (h : AscendsFrom start es)
    (keep : IndexEntry → Bool) : AscendsFrom start (es.filter keep) :=
  ⟨h.1.filter keep, fun e mem => h.2 e (List.mem_of_mem_filter mem)⟩

theorem follows_of_le {a b : Option IndexEntry} (le : reached a ≤ reached b)
    (follows : Follows e b) : Follows e a :=
  follows_iff.2 (le.trans (follows_iff.1 follows))

theorem lastOf_eq_or_mem (start : Option IndexEntry) (es : List IndexEntry) :
    lastOf start es = start ∨ ∃ e ∈ es, lastOf start es = some e := by
  induction es generalizing start with
  | nil => exact .inl rfl
  | cons first rest ih =>
    right
    obtain same | ⟨e, mem, last⟩ := ih (some first)
    · exact ⟨first, List.mem_cons_self, same⟩
    · exact ⟨e, List.mem_cons_of_mem _ mem, last⟩

/-- The last of some entries lies behind the position, and none of them behind it. -/
theorem AscendsFrom.reached_lastOf {es : List IndexEntry} (h : AscendsFrom start es) :
    reached start ≤ reached (lastOf start es) ∧
      ∀ e ∈ es, reached (some e) ≤ reached (lastOf start es) := by
  induction es generalizing start with
  | nil => exact ⟨Nat.le_refl _, fun _ mem => absurd mem List.not_mem_nil⟩
  | cons first rest ih =>
    obtain ⟨above, ascending⟩ := List.pairwise_cons.1 h.1
    have behind : AscendsFrom (some first) rest := ⟨ascending, above⟩
    obtain ⟨forward, below⟩ := ih behind
    have follows := follows_iff.1 (h.2 first List.mem_cons_self)
    rw [reached_some] at forward
    refine ⟨by rw [lastOf]; omega, fun e mem => ?_⟩
    obtain rfl | mem := List.mem_cons.1 mem
    · exact forward
    · exact below e mem

/-- Of some of the entries the last one is not behind the last one of all. -/
theorem AscendsFrom.reached_lastOf_filter {es : List IndexEntry} (h : AscendsFrom start es)
    (keep : IndexEntry → Bool) :
    reached (lastOf start (es.filter keep)) ≤ reached (lastOf start es) := by
  obtain ⟨forward, below⟩ := h.reached_lastOf
  obtain same | ⟨e, mem, last⟩ := lastOf_eq_or_mem start (es.filter keep)
  · rwa [same]
  · rw [last]
    exact below e (List.mem_of_mem_filter mem)

/-! ## Walks -/

theorem Timeline.Keeps.pass {looks : Nat} (h : t.Keeps x (looks + 1) e) :
    t.pass.Keeps x looks e := fun look early => h (look + 1) (Nat.succ_lt_succ early)

namespace Walk

/-- A walk goes forward. -/
theorem ascends (walk : Walk x cursor t found) : AscendsFrom cursor found := by
  induction walk with
  | stop => exact ⟨List.Pairwise.nil, fun _ mem => absurd mem List.not_mem_nil⟩
  | @step cursor t e found next onward ih =>
    refine ⟨List.pairwise_cons.2 ⟨ih.2, ih.1⟩, List.forall_mem_cons.2 ⟨e.2, fun other mem => ?_⟩⟩
    have behind := follows_iff.1 (ih.2 other mem)
    have follows := follows_iff.1 e.2
    rw [reached_some] at behind
    exact follows_iff.2 (by omega)

/-- What a walk finds is in the index at the look that finds it. -/
theorem mem_index (walk : Walk x cursor t found) (mem : e ∈ found) :
    ∃ look < found.length, e ∈ (t.shardAt x look).index := by
  induction walk with
  | stop => cases mem
  | step next onward ih =>
    obtain rfl | mem := List.mem_cons.1 mem
    · exact ⟨0, Nat.succ_pos _, Shard.mem_of_next next⟩
    · obtain ⟨look, early, listed⟩ := ih mem
      exact ⟨look + 1, Nat.succ_lt_succ early, listed⟩

/-- A walk finds what is there all the time, or does not get as far. -/
theorem covers (walk : Walk x cursor t found)
    (ascending : ∀ look, (t.shardAt x look).index.Pairwise (· < ·))
    (kept : t.Keeps x found.length e) (follows : Follows e cursor) :
    e ∈ found ∨ Follows e (lastOf cursor found) := by
  induction walk with
  | stop => exact .inr follows
  | @step cursor t first found next onward ih =>
    obtain ⟨listed, opened⟩ := kept 0 (Nat.succ_pos _)
    obtain ⟨-, -, least⟩ := Shard.next_eq_some (ascending 0) next
    -- What the look finds is not behind the entry, which it could have found.
    obtain same | behind := Nat.eq_or_lt_of_le (least e listed (follows_iff.1 follows) opened)
    · exact .inl (IndexEntry.position_injective same ▸ List.mem_cons_self)
    · have onto : Follows e (some first.1) := follows_iff.2 behind
      exact (ih (fun look => ascending (look + 1)) kept.pass onto).imp_left
        (List.mem_cons_of_mem _)

end Walk

/-! ## Batches -/

theorem taken_cons (e : IndexEntry) (found : List IndexEntry) :
    taken accepts (e :: found) =
      if accepts e.partition then e :: taken accepts found else taken accepts found := by
  rw [taken, List.filter_cons]
  rfl

/-- What a reading comes to that goes on with a walk. -/
def Reading.along (query : Query) (accepts : PartitionId → Bool) (found : List IndexEntry)
    (exhausted : Bool) (r : Reading Timeline) : Reading Timeline where
  world := r.world.after (looksOf found exhausted)
  resume := lastOf r.resume (taken accepts found)
  reads := r.reads + (taken accepts found).length
  results := r.results ++ (taken accepts found).filter query.admits

theorem along_nil (exhausted : Bool) (r : Reading Timeline) :
    r.along query accepts [] exhausted =
      { r with world := r.world.after (if exhausted then 1 else 0) } := by
  simp only [Reading.along, taken, looksOf, lastOf, List.filter_nil, List.length_nil,
    List.append_nil, Nat.zero_add, Nat.add_zero]

theorem along_cons (e : IndexEntry) (found : List IndexEntry) (exhausted : Bool)
    (r : Reading Timeline) :
    r.along query accepts (e :: found) exhausted =
      (r.find query accepts e).along query accepts found exhausted := by
  have looks : looksOf (e :: found) exhausted = looksOf found exhausted + 1 := by
    rw [looksOf, looksOf, List.length_cons]
    omega
  have later (n : Nat) : r.world.after (n + 1) = r.world.pass.after n := rfl
  rw [Reading.along, Reading.along, find_world, looks, later, taken_cons]
  unfold Reading.find
  dsimp only
  by_cases asked : accepts e.partition = true
  · rw [if_pos asked, if_pos asked, Reading.take, List.length_cons, List.filter_cons]
    dsimp only [lastOf]
    congr 1
    · omega
    · split <;> simp
  · rw [if_neg asked, if_neg asked]

theorem find_le (query : Query) (accepts : PartitionId → Bool) (e : IndexEntry)
    (r : Reading Timeline) :
    (r.find query accepts e).results.length ≤ r.results.length + 1 ∧
      (r.find query accepts e).reads ≤ r.reads + 1 := by
  unfold Reading.find Reading.take
  split
  · refine ⟨?_, Nat.le_refl _⟩
    dsimp only
    split <;> simp
  · exact ⟨Nat.le_succ _, Nat.le_succ _⟩

/-- A reading goes along a walk, up to a limit or to where nothing is left to find. -/
theorem readFrom_along (query : Query) (accepts : PartitionId → Bool)
    (cursor : Option IndexEntry) (r : Reading Timeline)
    (fewResults : r.results.length ≤ query.batchLimit) (fewReads : r.reads ≤ query.readLimit) :
    ∃ exhausted found final, final = r.along query accepts found exhausted ∧
      readFrom (Timeline.view x) query accepts cursor r = .ok exhausted final ∧
      Walk x cursor r.world found ∧
      final.results.length ≤ query.batchLimit ∧ final.reads ≤ query.readLimit ∧
      (exhausted = false →
        final.results.length = query.batchLimit ∨ final.reads = query.readLimit) ∧
      (exhausted = true →
        (r.world.shardAt x found.length).next (lastOf cursor found) = none) := by
  -- On what is left of the index.
  induction left : entriesBehind cursor using Nat.strongRecOn generalizing cursor r with
  | _ left ih =>
    subst left
    rw [readFrom_eq]
    split
    next limit =>
      refine ⟨false, [], r, (along_nil false r).symm, rfl, .stop, fewResults, fewReads, ?_, nofun⟩
      exact fun _ => limit.imp (Nat.le_antisymm fewResults) (Nat.le_antisymm fewReads)
    next room =>
      obtain ⟨roomForResults, roomForReads⟩ := not_or.1 room
      cases next : (r.world.now.shard x).next cursor with
      | none =>
        exact ⟨true, [], _, (along_nil true r).symm, rfl, .stop, fewResults, fewReads, nofun,
          fun _ => next⟩
      | some e =>
        obtain ⟨results, reads⟩ := find_le query accepts e.1 r
        obtain ⟨exhausted, found, final, rfl, read, walk, rest⟩ :=
          ih _ (entriesBehind_lt e.2) (some e.1) (r.find query accepts e.1) (by omega)
            (by omega) rfl
        rw [find_world] at walk rest
        exact ⟨exhausted, e.1 :: found, _, (along_cons e.1 found exhausted r).symm, read,
          .step next walk, rest⟩

/-- A batch is made from a walk. -/
theorem readBatch_portion (x : ShardId) (query : Query) (accepts : PartitionId → Bool)
    (start : Option IndexEntry) (put : Option IndexEntry → ContinuationKey → ContinuationKey)
    (s : Scanning Timeline) :
    ∃ batch found, Portion x query accepts start s.world found batch ∧
      readBatch (Timeline.view x) query accepts start put s =
        .ok batch { s with
          world := s.world.after (looksOf found batch.exhausted)
          key := put (lastOf start (taken accepts found)) s.key } := by
  obtain ⟨exhausted, found, final, rfl, read, walk, fewResults, fewReads, limit, nothing⟩ :=
    readFrom_along (x := x) query accepts start { world := s.world, resume := start }
      (Nat.zero_le _) (Nat.zero_le _)
  refine ⟨{ results := _, exhausted }, found, ?_, by rw [readBatch, read]; rfl⟩
  simp only [Reading.along, List.nil_append, Nat.zero_add] at fewResults fewReads limit
  exact ⟨walk, rfl, fewResults, fewReads, limit, nothing⟩

section Portions

variable {batch : Batch} (portion : Portion x query accepts start t found batch)

include portion

/-- Between the old resume position and the new one nothing is left out that is there all the
    time. -/
theorem Portion.covers (ascending : ∀ look, (t.shardAt x look).index.Pairwise (· < ·))
    (kept : t.Keeps x found.length e) (asked : accepts e.partition = true)
    (follows : Follows e start) (upTo : ¬ Follows e (lastOf start (taken accepts found))) :
    e ∈ taken accepts found := by
  have ascends := portion.walk.ascends
  obtain mem | beyond := portion.walk.covers ascending kept follows
  · exact List.mem_filter.2 ⟨mem, asked⟩
  · exact absurd (follows_of_le (ascends.reached_lastOf_filter _) beyond) upTo

/-- Behind a batch that is exhausted there is nothing that is there all the time. -/
theorem Portion.not_follows (ascending : ∀ look, (t.shardAt x look).index.Pairwise (· < ·))
    (exhausted : batch.exhausted = true) (kept : t.Keeps x (found.length + 1) e)
    (asked : accepts e.partition = true) :
    ¬ Follows e (lastOf start (taken accepts found)) := by
  intro follows
  have ascends := portion.walk.ascends
  have read := ascends.filter fun e => accepts e.partition
  have before : Follows e start := follows_of_le read.reached_lastOf.1 follows
  have early : t.Keeps x found.length e := fun look early => kept look (Nat.lt_succ_of_lt early)
  -- The entry was read, and then it is not behind the last one read; or the last look would have
  -- found it.
  obtain mem | beyond := portion.walk.covers ascending early before
  · have last := read.reached_lastOf.2 e (List.mem_filter.2 ⟨mem, asked⟩)
    have behind := follows_iff.1 follows
    rw [reached_some, ← taken] at last
    omega
  · obtain ⟨listed, opened⟩ := kept found.length (Nat.lt_succ_self _)
    exact Shard.next_eq_none (portion.nothing exhausted) e listed (follows_iff.1 beyond) opened

/-- A walk has no more looks than there are entries behind its start, and one. -/
theorem Portion.looks_le {entries : Finset IndexEntry}
    (listed : ∀ look < looksOf found batch.exhausted, ∀ e ∈ (t.shardAt x look).index,
      e ∈ entries) :
    looksOf found batch.exhausted ≤ (entries.filter fun e => Follows e start).card + 1 := by
  have ascends := portion.walk.ascends
  have nodup : found.Nodup := ascends.1.imp fun below same => by
    have := IndexEntry.position_lt_position below
    rw [same] at this
    exact Nat.lt_irrefl _ this
  have sub : found.toFinset ⊆ entries.filter fun e => Follows e start := by
    intro e mem
    have mem := List.mem_toFinset.1 mem
    obtain ⟨look, early, inIndex⟩ := portion.walk.mem_index mem
    have counted : look < looksOf found batch.exhausted := Nat.lt_add_right _ early
    exact Finset.mem_filter.2 ⟨listed look counted e inIndex, ascends.2 e mem⟩
  have few := Finset.card_le_card sub
  rw [List.toFinset_card_of_nodup nodup] at few
  rw [looksOf]
  split <;> omega

end Portions

/-- Whatever happens between the looks of a batch, it brings ascending results from behind the
    resume position, as many as the limits let through.  The last entry read is the new resume
    position.  What is there at every look is among the results if it is asked for, admitted and
    not behind the new resume position, and none of it is behind that when nothing was left to
    find.  Over an index of so many entries there are no more looks than that, and one. -/
theorem readBatch_covers (x : ShardId) (query : Query) (accepts : PartitionId → Bool)
    (start : Option IndexEntry) (put : Option IndexEntry → ContinuationKey → ContinuationKey)
    (s : Scanning Timeline)
    (ascending : ∀ look, (s.world.shardAt x look).index.Pairwise (· < ·)) :
    ∃ batch found looks stop, Portion x query accepts start s.world found batch ∧
      looks = looksOf found batch.exhausted ∧ stop = lastOf start (taken accepts found) ∧
      readBatch (Timeline.view x) query accepts start put s =
        .ok batch { s with world := s.world.after looks, key := put stop s.key } ∧
      batch.results.Pairwise (· < ·) ∧
      (∀ e ∈ batch.results, Follows e start ∧ ¬ Follows e stop ∧
        accepts e.partition = true ∧ query.admits e = true) ∧
      (∀ e, s.world.Keeps x looks e → accepts e.partition = true → query.admits e = true →
        Follows e start → ¬ Follows e stop → e ∈ batch.results) ∧
      (batch.exhausted = true → ∀ e, s.world.Keeps x looks e → accepts e.partition = true →
        ¬ Follows e stop) ∧
      ∀ entries : Finset IndexEntry,
        (∀ look < looks, ∀ e ∈ (s.world.shardAt x look).index, e ∈ entries) →
        looks ≤ (entries.filter fun e => Follows e start).card + 1 := by
  obtain ⟨batch, found, portion, read⟩ := readBatch_portion x query accepts start put s
  have ascends := portion.walk.ascends.filter fun e => accepts e.partition
  refine ⟨batch, found, _, _, portion, rfl, rfl, read, ?_, fun e mem => ?_, ?_, ?_, ?_⟩
  · rw [portion.results]
    exact ascends.1.filter _
  · rw [portion.results] at mem
    obtain ⟨mem, admitted⟩ := List.mem_filter.1 mem
    have last := follows_iff.not.2 (Nat.not_le.2 (ascends.reached_lastOf.2 e mem))
    exact ⟨ascends.2 e mem, last, (List.mem_filter.1 mem).2, admitted⟩
  · intro e kept asked admitted follows upTo
    rw [portion.results]
    have early : s.world.Keeps x found.length e := fun look early =>
      kept look (Nat.lt_add_right _ early)
    exact List.mem_filter.2 ⟨portion.covers ascending early asked follows upTo, admitted⟩
  · intro exhausted e kept asked
    rw [looksOf, exhausted] at kept
    exact portion.not_follows ascending exhausted kept asked
  · exact fun entries listed => portion.looks_le listed

namespace Flicker

/-- A store in which only some partitions of a shard are open. -/
def showing (opened : List PartitionId) : Situation where
  shard _ := { topology := {}, opened, index := [⟨10, 0⟩, ⟨20, 1⟩, ⟨30, 0⟩, ⟨40, 1⟩] }

/-- A partition that is closed while its first entry is looked for, and is open again then. -/
def world : Timeline where
  now := showing [0, 1]
  later := [showing [0], showing [0, 1]]

/-- All entries but the first. -/
def others : Query where
  admits e := e.key ≠ 10

/-- The batch that a reading brings, and the resume position behind it. -/
def brought : EStateM.Result ScanError (Scanning Timeline) Batch →
    Option (Batch × Option IndexEntry)
  | .ok batch s => some (batch, s.key.resume)
  | .error _ _ => none

theorem index_world (look : Nat) : (world.shardAt 1 look).index = ((showing []).shard 1).index := by
  match look with
  | 0 | 1 => rfl
  | look + 2 =>
    have still : (Timeline.mk (showing [0, 1]) []).after look = .mk (showing [0, 1]) [] :=
      Function.iterate_fixed rfl look
    exact congrArg (fun t : Timeline => (t.now.shard 1).index) still

end Flicker

open Flicker in
/-- The entry of a partition that flickers is passed over, and no other. -/
theorem readBatch_covers_flickering :
    (∀ look, (world.shardAt 1 look).index.Pairwise (· < ·)) ∧
      world.Keeps 1 4 ⟨30, 0⟩ ∧ ¬ world.Keeps 1 4 ⟨20, 1⟩ ∧
      ∃ batch s', readBatch (Timeline.view 1) others (fun _ => true) none
          (fun resume k => { k with resume }) { world, key := {} } = .ok batch s' ∧
        batch.results = [⟨30, 0⟩, ⟨40, 1⟩] ∧ batch.exhausted = true ∧
        s'.key.resume = some ⟨40, 1⟩ := by
  have ascending (look : Nat) : (world.shardAt 1 look).index.Pairwise (· < ·) := by
    rw [index_world]
    decide
  have kept : world.Keeps 1 4 ⟨30, 0⟩ := by
    unfold Timeline.Keeps
    decide
  have hidden : ¬ world.Keeps 1 4 ⟨20, 1⟩ := fun kept => by
    have := (kept 1 (by decide)).2
    revert this
    decide
  obtain ⟨batch, found, looks, stop, -, -, -, read, -⟩ := readBatch_covers 1 others (fun _ => true)
    none (fun resume k => { k with resume }) { world, key := {} } ascending
  have evaluated : brought (readBatch (Timeline.view 1) others (fun _ => true) none
      (fun resume k => { k with resume }) { world, key := {} }) =
        some ({ results := [⟨30, 0⟩, ⟨40, 1⟩], exhausted := true }, some ⟨40, 1⟩) := by
    cbv
  rw [read] at evaluated
  cases evaluated
  exact ⟨ascending, kept, hidden, _, _, read, rfl, rfl, rfl⟩

end Replication.Scan
