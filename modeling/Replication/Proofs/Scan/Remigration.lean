import Replication.Proofs.Scan.Exactness
import Replication.Proofs.Scan.Migrations

/-! # Queries while partitions migrate more than once

However often partitions migrate while a query is open, it is exact if its batches are
orderly.  Batches that are not may lose entries, and the query ends as if nothing were amiss.
-/

namespace Replication.Scan

open Replication.Placement (History PartitionId ShardId Topology)

variable {query : Query} {nodes : List ShardId} {patience : Nat}

/-! ## Holdings -/

namespace Holdings

variable {h : Holdings} {t t' : Timeline}

/-- The relocation that takes partitions to where a key has virtual scans of them. -/
def toward (h : Holdings) (k : ContinuationKey) : Relocation where
  base := h.base
  destination p := ((k.virtualScans.get? p).map (·.target)).getD 0
  entries := h.entries
  named := h.named
  placed := h.placed

theorem destination_toward {k : ContinuationKey} {p : PartitionId} {scan : VirtualScan}
    (made : k.virtualScans.get? p = some scan) : scan.target = (h.toward k).destination p := by
  change scan.target = ((k.virtualScans.get? p).map (·.target)).getD 0
  rw [made]
  rfl

/-- The holdings after a migration. -/
theorem exists_of_migrates {s s' : Situation} (rests : s.Rests h.entries h.base)
    (step : Migrates h.entries s s') :
    ∃ h' : Holdings, h'.entries = h.entries ∧ h.base.sequence ≤ h'.base.sequence ∧
      s'.Rests h'.entries h'.base := by
  obtain ⟨base, p, target, base', rests', moved, added, rests''⟩ := step
  obtain rfl := rests.unique rests'
  obtain ⟨-, -, later⟩ := History.get_of_add rests.current (Int64.le_refl _)
    (History.get_of_current rests.current) added
  rw [Topology.migrate] at moved
  split at moved
  next has =>
    obtain rfl := Except.ok.inj moved
    rw [Table.contains_eq_isSome] at has
    obtain ⟨home, based⟩ := Option.isSome_iff_exists.1 has
    -- A partition that was placed before still is, if elsewhere.
    let h' : Holdings := {
      base := { sequence := h.base.sequence + 1, placement := h.base.placement.insert p target }
      entries := h.entries
      named := fun q shard at_ => by
        rw [Table.get?_insert] at at_
        split at at_
        next same => exact same ▸ h.named p home based
        next => exact h.named q shard at_
      placed := fun e mem => by
        rw [Table.get?_insert]
        split
        · rfl
        · exact h.placed e mem }
    exact ⟨h', rfl, by grind, rests''⟩
  next => cases moved

/-- Later on a store holds the same entries, on a later topology. -/
theorem Governs.exists_of_reaches (governs : h.Governs t) (reaches : t.Reaches t') :
    ∃ h' : Holdings, h'.entries = h.entries ∧ h.base.sequence ≤ h'.base.sequence ∧
      h'.Governs t' := by
  have pass {h : Holdings} {t : Timeline} (governs : h.Governs t) :
      ∃ h' : Holdings, h'.entries = h.entries ∧ h.base.sequence ≤ h'.base.sequence ∧
        h'.Governs t.pass := by
    obtain ⟨now, later⟩ := t
    cases later with
    | nil => exact ⟨h, rfl, Int64.le_refl _, governs⟩
    | cons next rest =>
      obtain ⟨steps, chain⟩ := List.isChain_cons_cons.1 governs.steps
      suffices after : ∃ h' : Holdings, h'.entries = h.entries ∧
          h.base.sequence ≤ h'.base.sequence ∧ next.Rests h'.entries h'.base by
        obtain ⟨h', entries, above, rests⟩ := after
        exact ⟨h', entries, above, rests, entries ▸ chain⟩
      have rests : now.Rests h.entries h.base := governs.rests
      clear chain governs
      -- Between two looks there may be any number of migrations.
      induction steps with
      | refl => exact ⟨h, rfl, Int64.le_refl _, rests⟩
      | tail _ step ih =>
        obtain ⟨h₁, entries₁, above₁, rests₁⟩ := ih
        obtain ⟨h₂, entries₂, above₂, rests₂⟩ := exists_of_migrates rests₁ (entries₁ ▸ step)
        exact ⟨h₂, entries₂.trans entries₁, by grind, rests₂⟩
  obtain ⟨looks, rfl⟩ := reaches
  induction looks generalizing h t with
  | zero => exact ⟨h, rfl, Int64.le_refl _, governs⟩
  | succ looks ih =>
    obtain ⟨h₁, entries₁, above₁, governs₁⟩ := pass governs
    obtain ⟨h₂, entries₂, above₂, governs₂⟩ := ih governs₁
    exact ⟨h₂, entries₂.trans entries₁, by grind, governs₂⟩

end Holdings

/-! ## Batches -/

section Batches

variable {h : Holdings} {s s' : FleetState Timeline} {k k' : ContinuationKey} {place : Nat}

/-- A key stands where it stood when it is told from a later one where partitions go. -/
theorem Stands.toward (stands : Stands (h.toward k) k place)
    (kept : ∀ p scan, k.virtualScans.get? p = some scan →
      ∃ scan', k'.virtualScans.get? p = some scan' ∧ scan'.target = scan.target) :
    Stands (h.toward k') k place where
  pinned := stands.pinned
  scans p scan made := by
    obtain ⟨scan', made', same⟩ := kept p scan made
    exact ⟨same.symm.trans (Holdings.destination_toward made'), (stands.scans p scan made).2⟩
  current := stands.current

theorem ContinuationKey.get?_readTo {p : PartitionId} {stop : Option IndexEntry} {q : PartitionId}
    {scan : VirtualScan} (made : k.virtualScans.get? q = some scan) :
    ∃ scan', (k.readTo p stop).virtualScans.get? q = some scan' ∧ scan'.target = scan.target := by
  rw [readTo, Table.get?_update, made]
  split
  · exact ⟨_, rfl, rfl⟩
  · exact ⟨scan, rfl, rfl⟩

/-- A batch of the target that a key stands at, if it is orderly. -/
theorem Migratory.scan_ok {t : Target} {batch : Batch} {w w' : Timeline}
    (migratory : Migratory h.entries h.base s.world) (stands : Stands (h.toward k) k place)
    (at_ : (k.targets h.base)[place]? = some t) (orderly : Orderly h.base t w w')
    (before : w.Reaches s.world) (after : s'.world.Reaches w')
    (done : (Timeline.fleet nodes patience).scan query t k s = .ok (batch, k') s') :
    Scanned (h.toward k') query k place batch k' := by
  obtain ⟨stats, stats', worked⟩ := scan_eq_ok done
  -- The keys before and after the batch agree on where partitions go, so either will do; the
  -- later one knows of all virtual scans.
  by_cases virtual : t.isVirtual = true
  · rw [if_pos virtual] at worked
    rw [Orderly, if_pos virtual, ← (stands.current t at_).1] at orderly
    obtain ⟨scan, stop, made, key, exact_⟩ := Migratory.scanVirtual_ok (r := h.toward k')
      (s := { world := s.world, key := k, stats }) migratory
      (fun t₁ t₂ reaches₁ reaches₂ ending => Timeline.opened_of_not_left orderly
        (before.trans reaches₁) reaches₂ (ending.trans after)) worked
    dsimp only at made key exact_
    subst key
    have stands' : Stands (h.toward (k.readTo k.virtualPartition stop)) k place :=
      stands.toward fun p scan made => ContinuationKey.get?_readTo made
    exact exact_.scanned stands' made (at_.trans (congrArg some (stands.virtual at_ virtual made)))
  · rw [if_neg virtual] at worked
    rw [Orderly, if_neg virtual] at orderly
    have pinned : k.topology = h.base.sequence := stands.pinned
    have recorded : s.world.now.history.get k.topology = .ok h.base := by
      rw [pinned, migratory.recorded]
    obtain ⟨attempts, within⟩ := scanBase_ok_within recorded worked
    have stands' : Stands (h.toward k') k place :=
      stands.toward fun p scan made => ⟨scan, scanBaseWithin_kept within made, rfl⟩
    have scanned := Migratory.scanBaseWithin_ok (r := h.toward k')
      (s := { world := s.world.pass, key := k, stats }) migratory.pass
      (fun t₁ t₂ t₃ reaches₁ reaches₂ reaches₃ ending p home =>
        Timeline.opened_of_not_returned (orderly p home)
          ((before.trans (.pass _)).trans reaches₁) reaches₂ reaches₃ (ending.trans after))
      (fun p scan made => Holdings.destination_toward made) within
    exact scanned.scanned stands' (at_.trans (congrArg some (Target.eq_of_not_isVirtual virtual)))

end Batches

/-! ## Queries -/

section Queries

variable {h : Holdings} {c c' : Client Timeline} {results more : List IndexEntry} {requests : Nat}

/-- A client that has got some results while partitions migrate: its key stands at a target,
    and the results are what was returned up to there. -/
structure Tracks (h : Holdings) (query : Query) (c : Client Timeline)
    (results : List IndexEntry) : Prop where
  migratory : Migratory h.entries h.base c.state.world
  key : ∃ k place, c.continuation = k.write ∧ Stands (h.toward k) k place ∧
    (c.done = true ↔ (k.targets h.base).length ≤ place) ∧
      ∀ e, e ∈ results ↔
        e ∈ h.entries ∧ query.admits e = true ∧ Returned (h.toward k) k place e
  nodup : results.Nodup

/-- A batch of a query, if it is orderly. -/
theorem Migratory.tracks {s s' : FleetState Timeline} {k : ContinuationKey} {place batches : Nat}
    {b : QueryBatch} (migratory : Migratory h.entries h.base s.world)
    (stands : Stands (h.toward k) k place) (inRange : 0 ≤ k.shardIndex)
    (open_ : place < (k.targets h.base).length ∨ k.targets h.base = [])
    (orderly : ∀ target, k.target? h.base = some target →
      Orderly h.base target s.world s'.world)
    (nodup : results.Nodup)
    (returned : ∀ e, e ∈ results ↔
      e ∈ h.entries ∧ query.admits e = true ∧ Returned (h.toward k) k place e)
    (done : (Timeline.fleet nodes patience).batchAt query k s = .ok b s') :
    Tracks h query ⟨s', b.continuation, b.done, batches⟩ (results ++ b.results) := by
  obtain ⟨k', place', written, stands', advances, ended⟩ := batchAt_ok (R := h.toward)
    (fun _ _ _ => rfl) (fun _ _ reaches => (migratory.reaches reaches).recorded) stands inRange
    open_ (fun t batch k' s₂ at_ scanning ending => by
      -- The target that was looked up by the key is the one at its place.
      have stood : k.target? h.base = some t := by
        rw [ContinuationKey.target?]
        have placed := stands.place_eq at_ inRange
        change k.place (k.targets h.base) = _ at placed
        rw [placed]
        exact at_
      exact migratory.pass.scan_ok (s := { s with world := s.world.pass }) stands at_
        (orderly t stood) (.pass _) ending scanning) done
  exact {
    migratory := migratory.reaches ((Forward.batchAt query k).of_ok done)
    key := ⟨k', place', written, stands', ended, advances.mem_append (r := h.toward k') returned⟩
    nodup := advances.nodup_append (r := h.toward k') nodup returned }

/-- A request on the way. -/
theorem Tracks.next_ok (tracks : Tracks h query c results) (started : 0 ≤ h.base.sequence)
    (orderly : (Timeline.fleet nodes patience).Orderly query (requests + 1) c)
    (done : (Timeline.fleet nodes patience).next query c = .ok more c') :
    Tracks h query c' (results ++ more) := by
  have orderly := orderly 0 (Nat.succ_pos _)
  have answered := done
  rw [Fleet.next] at done
  split at done
  · cases done
    rwa [List.append_nil]
  next unfinished =>
    split at done
    next b state executed =>
      cases done
      obtain ⟨k, place, written, stands, ended, returned⟩ := tracks.key
      rw [written, Fleet.executeBatch] at executed
      obtain ⟨k₁, s₁, read, executed⟩ := bind_eq_ok executed
      -- The client's bytes are read back as the key that they were written from.
      have keyed := read
      obtain ⟨rfl, rfl, inRange⟩ := keyOf_write (stands.named_topology started) read
      rw [← written] at keyed
      have recorded : c.state.world.now.history.get k₁.topology = .ok h.base := by
        rw [show k₁.topology = h.base.sequence from stands.pinned, tracks.migratory.recorded]
      exact tracks.migratory.tracks stands inRange
        (.inl (Nat.not_le.1 fun beyond => unfinished (ended.2 beyond)))
        (fun target stood => orderly _ _ _ target _ _ keyed recorded stood answered)
        tracks.nodup returned executed
    next => cases done

theorem Tracks.next_error {e : ScanError} (tracks : Tracks h query c results)
    (failed : (Timeline.fleet nodes patience).next query c = .error e c') :
    Tracks h query c' results := by
  obtain ⟨reaches, continuation, done⟩ := Scan.next_error failed
  refine ⟨tracks.migratory.reaches reaches, ?_, tracks.nodup⟩
  rw [continuation, done]
  exact tracks.key

/-- The request that starts a query. -/
theorem Holdings.Governs.next_ok (governs : h.Governs c.state.world)
    (fresh : c.continuation = []) (unfinished : c.done = false)
    (orderly : (Timeline.fleet nodes patience).Orderly query (requests + 1) c)
    (done : (Timeline.fleet nodes patience).next query c = .ok more c') :
    Tracks h query c' more := by
  have orderly := orderly 0 (Nat.succ_pos _)
  have answered := done
  rw [Fleet.next, if_neg (by simp [unfinished])] at done
  split at done
  next b state executed =>
    cases done
    rw [Fleet.executeBatch, fresh, bind_eq_of_ok (keyOf_nil governs.rests.current)] at executed
    have keyed : (Timeline.fleet nodes patience).keyOf c.continuation c.state =
        .ok { topology := h.base.sequence } { c.state with world := c.state.world.pass } :=
      fresh ▸ keyOf_nil governs.rests.current
    have migratory := governs.migratory.pass
    have tracks : Tracks h query ⟨state, b.continuation, b.done, c.batches + 1⟩
        ([] ++ b.results) := Migratory.tracks (s := { c.state with world := c.state.world.pass })
      (k := { topology := h.base.sequence }) migratory stands_start (Int32.le_refl _)
      (by rw [List.length_pos_iff]; exact (Classical.em _).symm)
      (fun target stood => orderly _ _ _ target _ _ keyed migratory.recorded stood answered)
      .nil (fun e => iff_of_false List.not_mem_nil
        fun was => not_returned_start (r := h.toward _) e was.2.2) executed
    rwa [List.nil_append] at tracks
  next => cases done

theorem Fleet.Orderly.of_ok (orderly : (Timeline.fleet nodes patience).Orderly query
    (requests + 1) c) (done : (Timeline.fleet nodes patience).next query c = .ok more c') :
    (Timeline.fleet nodes patience).Orderly query requests c' := by
  intro n bound
  have later := orderly (n + 1) (Nat.succ_lt_succ bound)
  rw [Fleet.gather, done] at later
  exact later

theorem Fleet.Orderly.of_error {e : ScanError} (orderly : (Timeline.fleet nodes patience).Orderly
    query (requests + 1) c)
    (failed : (Timeline.fleet nodes patience).next query c = .error e c') :
    (Timeline.fleet nodes patience).Orderly query requests c' := by
  intro n bound
  have later := orderly (n + 1) (Nat.succ_lt_succ bound)
  rw [Fleet.gather, failed] at later
  exact later

/-- All requests of a query that has started. -/
theorem Tracks.gather (tracks : Tracks h query c results) (started : 0 ≤ h.base.sequence)
    (requests : Nat) (orderly : (Timeline.fleet nodes patience).Orderly query requests c) :
    Tracks h query ((Timeline.fleet nodes patience).gather query requests c).2
      (results ++ ((Timeline.fleet nodes patience).gather query requests c).1) := by
  induction requests generalizing c results with
  | zero =>
    rw [Fleet.gather, List.append_nil]
    exact tracks
  | succ requests ih =>
    rw [Fleet.gather]
    split
    next more c' done =>
      have later := ih (tracks.next_ok started orderly done) (orderly.of_ok done)
      rwa [List.append_assoc] at later
    next e c' failed => exact ih (tracks.next_error failed) (orderly.of_error failed)

/-- A client that has finished has got just what it asked for. -/
theorem Tracks.exact (tracks : Tracks h query c results) (done : c.done = true) :
    results.Nodup ∧ ∀ e, e ∈ results ↔ e ∈ h.entries ∧ query.admits e = true := by
  obtain ⟨k, place, -, -, ended, returned⟩ := tracks.key
  refine ⟨tracks.nodup, fun e => (returned e).trans ?_⟩
  constructor
  · exact fun ⟨mem, admitted, _⟩ => ⟨mem, admitted⟩
  · exact fun ⟨mem, admitted⟩ =>
      ⟨mem, admitted, returned_of_length_le (r := h.toward k) (ended.1 done) e mem⟩

/-- All requests of a query that has not started.  It starts on the topology that is current
    at the first request that does not fail. -/
theorem Holdings.Governs.gather (governs : h.Governs c.state.world)
    (started : 0 ≤ h.base.sequence) (fresh : c.continuation = []) (unfinished : c.done = false)
    (requests : Nat) (orderly : (Timeline.fleet nodes patience).Orderly query requests c)
    (done : ((Timeline.fleet nodes patience).gather query requests c).2.done = true) :
    ∃ h' : Holdings, h'.entries = h.entries ∧
      Tracks h' query ((Timeline.fleet nodes patience).gather query requests c).2
        ((Timeline.fleet nodes patience).gather query requests c).1 := by
  induction requests generalizing c h with
  | zero =>
    rw [Fleet.gather, unfinished] at done
    cases done
  | succ requests ih =>
    rw [Fleet.gather] at done ⊢
    split
    next more c' succeeded =>
      have tracks := governs.next_ok fresh unfinished orderly succeeded
      exact ⟨h, rfl, tracks.gather started requests (orderly.of_ok succeeded)⟩
    next e c' failed =>
      -- Nothing is pinned yet, and by the next request the topology may be another one.
      obtain ⟨reaches, continuation, ended⟩ := Scan.next_error failed
      obtain ⟨h₁, entries, above, governs₁⟩ := governs.exists_of_reaches reaches
      rw [failed] at done
      obtain ⟨h₂, entries₂, tracks⟩ := ih governs₁ (by grind) (continuation.trans fresh)
        (ended.trans unfinished) (orderly.of_error failed) done
      exact ⟨h₂, entries₂.trans entries, tracks⟩

/-- A query that ends has returned each entry that it asks for once and nothing else, however
    often partitions migrate meanwhile, if all its batches are orderly. -/
theorem gather_exact_of_orderly (h : Holdings) (query : Query) (nodes : List ShardId)
    (patience requests : Nat) (world : Timeline) (started : 0 ≤ h.base.sequence)
    (governs : h.Governs world)
    (orderly : (Timeline.fleet nodes patience).Orderly query requests { state := { world } })
    (done : ((Timeline.fleet nodes patience).gather query requests
      { state := { world } }).2.done = true) :
    let results := ((Timeline.fleet nodes patience).gather query requests { state := { world } }).1
    results.Nodup ∧ ∀ e, e ∈ results ↔ e ∈ h.entries ∧ query.admits e = true := by
  obtain ⟨h', entries, tracks⟩ := governs.gather started rfl rfl requests orderly done
  rw [← entries]
  exact tracks.exact done

end Queries

/-! ## A partition that wanders -/

namespace Wandering

/-- The entries of two partitions. -/
def entries : List IndexEntry :=
  [⟨10, 0⟩, ⟨20, 1⟩, ⟨30, 0⟩, ⟨40, 1⟩]

theorem ascending_entries : entries.Pairwise (· < ·) := by decide

/-- Partition 1 starts at a shard. -/
def holdings (home : ShardId) : Holdings where
  base := handoverTopology 1 home
  entries
  named p shard at_ := by
    obtain ⟨rfl, -⟩ | ⟨rfl, -⟩ := homes_handoverTopology at_ <;> decide
  placed e mem := by
    obtain rfl | rfl | rfl | rfl : e = ⟨10, 0⟩ ∨ e = ⟨20, 1⟩ ∨ e = ⟨30, 0⟩ ∨ e = ⟨40, 1⟩ := by
      simpa [entries] using mem
    all_goals rfl

/-- The store at rest with partition 1 at a shard, which it has reached by way of others. -/
def stop (home : ShardId) (sequence : Int64) (earlier : List Topology) : Situation :=
  .resting entries (handoverTopology sequence home) earlier

theorem rests_stop (home : ShardId) :
    (stop home 1 []).Rests (holdings home).entries (holdings home).base :=
  rests_resting ascending_entries _ _

/-- Partition 1 can go from any shard to any other one. -/
theorem steps_stop (home home' : ShardId) (sequence : Int64) (later : sequence < sequence + 1)
    (earlier : List Topology) :
    Relation.ReflTransGen (Migrates entries) (stop home sequence earlier)
      (stop home' (sequence + 1) (handoverTopology sequence home :: earlier)) :=
  .single (migrates_resting (p := 1) ascending_entries rfl later)

/-- Partition 1 leaves shard 1 for shard 2 while the only batch is read, and comes back. -/
def outAndBack : Timeline where
  now := stop 1 1 []
  later := .replicate 5 (stop 1 1 []) ++ [
    stop 2 2 [handoverTopology 1 1],
    stop 1 3 [handoverTopology 2 2, handoverTopology 1 1]]

/-- Partition 1 leaves shard 2 for shard 1 between the first two batches, and leaves that
    during its virtual scan. -/
def onAndOn : Timeline where
  now := stop 2 1 []
  later := .replicate 10 (stop 2 1 []) ++ .replicate 15 (stop 1 2 [handoverTopology 1 2]) ++ [
    stop 2 3 [handoverTopology 2 1, handoverTopology 1 2]]

/-- Partition 1 leaves shard 2 for shard 1 between the first two batches, and is at shard 2
    for a moment before its virtual scan. -/
def toAndFro : Timeline where
  now := stop 2 1 []
  later := .replicate 10 (stop 2 1 []) ++ .replicate 8 (stop 1 2 [handoverTopology 1 2]) ++ [
    stop 2 3 [handoverTopology 2 1, handoverTopology 1 2],
    stop 1 4 [handoverTopology 3 2, handoverTopology 2 1, handoverTopology 1 2]]

/-- A client that asks for all entries. -/
def gather (world : Timeline) (requests : Nat) : List IndexEntry × Client Timeline :=
  (Timeline.fleet [1, 2] 0).gather { admits := fun _ => true } requests { state := { world } }

theorem governs_outAndBack : (holdings 1).Governs outAndBack where
  rests := rests_stop 1
  steps := by
    have out := steps_stop 1 2 1 (by decide) []
    have back := steps_stop 2 1 2 (by decide) [handoverTopology 1 1]
    simp only [outAndBack, List.replicate, List.cons_append, List.nil_append,
      List.isChain_cons_cons, Relation.ReflTransGen.refl, true_and]
    exact ⟨out, back, .singleton _⟩

theorem governs_onAndOn : (holdings 2).Governs onAndOn where
  rests := rests_stop 2
  steps := by
    have moved := steps_stop 2 1 1 (by decide) []
    have on := steps_stop 1 2 2 (by decide) [handoverTopology 1 2]
    simp only [onAndOn, List.replicate, List.cons_append, List.nil_append,
      List.isChain_cons_cons, Relation.ReflTransGen.refl, true_and]
    exact ⟨moved, on, .singleton _⟩

theorem governs_toAndFro : (holdings 2).Governs toAndFro where
  rests := rests_stop 2
  steps := by
    have moved := steps_stop 2 1 1 (by decide) []
    have away := steps_stop 1 2 2 (by decide) [handoverTopology 1 2]
    have back := steps_stop 2 1 3 (by decide)
      [handoverTopology 2 1, handoverTopology 1 2]
    simp only [toAndFro, List.replicate, List.cons_append, List.nil_append,
      List.isChain_cons_cons, Relation.ReflTransGen.refl, true_and]
    exact ⟨moved, away, back, .singleton _⟩

/-- A request that was computed is orderly if its batch is. -/
theorem orderly_of_eq {fleet : Fleet Timeline} {query : Query} {asking : Client Timeline}
    (k : ContinuationKey) (s : FleetState Timeline) (base : Topology) (target : Target)
    {k' : ContinuationKey} {s' : FleetState Timeline} {base' : Topology} {target' : Target}
    {results : List IndexEntry} {answered : Client Timeline}
    (keyed : fleet.keyOf asking.continuation asking.state = .ok k s)
    (recorded : s.world.now.history.get k.topology = .ok base)
    (stood : k.target? base = some target)
    (orderly : Orderly base target s.world (endState (fleet.next query asking)).state.world)
    (keyed' : fleet.keyOf asking.continuation asking.state = .ok k' s')
    (recorded' : s'.world.now.history.get k'.topology = .ok base')
    (stood' : k'.target? base' = some target')
    (done : fleet.next query asking = .ok results answered) :
    Orderly base' target' s'.world answered.state.world := by
  cases keyed.symm.trans keyed'
  cases recorded.symm.trans recorded'
  cases stood.symm.trans stood'
  rwa [done] at orderly

/-- Where partition 1 is, or the one that stays, while a request behind so many others is
    answered. -/
def presence (w : Timeline) (requests : Nat) (x : ShardId) (p : PartitionId) : List Bool :=
  w.presence (endState ((Timeline.fleet [1, 2] 0).next { admits := fun _ => true }
    (gather toAndFro requests).2)).state.world x p

/-- The partition at shard 1 is there throughout the first batch, the one of shard 2 is away
    when the second one begins, and is at its virtual scan but for the first look. -/
theorem orderly_toAndFro : (Timeline.fleet [1, 2] 0).Orderly { admits := fun _ => true } 3
    { state := { world := toAndFro } } := by
  intro n bound
  change ∀ k s base target results answered, _ → _ → _ → _ → _
  obtain rfl | rfl | rfl : n = 0 ∨ n = 1 ∨ n = 2 := by omega
  · refine fun _ _ _ _ _ _ => orderly_of_eq { topology := 1 } { world := toAndFro.pass }
      (handoverTopology 1 2) { shard := 1 } (by cbv) (by cbv) (by cbv) ?_
    rw [Orderly, if_neg (by decide)]
    intro p home
    obtain ⟨rfl, -⟩ | ⟨-, same⟩ := homes_handoverTopology home
    · have present : presence toAndFro.pass 0 1 0 = .replicate 11 true := by cbv
      change ¬ [true, false, true].Sublist (presence toAndFro.pass 0 1 0)
      rw [present]
      decide
    · cases same
  · refine fun _ _ _ _ _ _ => orderly_of_eq { topology := 1, shardIndex := 1 }
      (gather toAndFro 1).2.state (handoverTopology 1 2) { shard := 2 } (by cbv) (by cbv) (by cbv) ?_
    rw [Orderly, if_neg (by decide)]
    intro p home
    obtain ⟨-, same⟩ | ⟨rfl, -⟩ := homes_handoverTopology home
    · cases same
    · have present : presence (gather toAndFro 1).2.state.world 1 2 1 =
          .replicate 8 false ++ [true] := by cbv
      change ¬ [true, false, true].Sublist (presence (gather toAndFro 1).2.state.world 1 2 1)
      rw [present]
      decide
  · refine fun _ _ _ _ _ _ => orderly_of_eq {
        topology := 1, shardIndex := 2, virtualPartition := 1
        virtualScans := Table.empty.insert 1 { target := 1 } }
      (gather toAndFro 2).2.state (handoverTopology 1 2) { shard := 1, partition := 1 } (by cbv)
      (by cbv) (by cbv) ?_
    have present : presence (gather toAndFro 2).2.state.world 2 1 1 = [false, true] := by cbv
    rw [Orderly, if_pos (by decide)]
    change ¬ [true, false].Sublist (presence (gather toAndFro 2).2.state.world 2 1 1)
    rw [present]
    decide

end Wandering

open Wandering in
/-- A partition may migrate again and again between two batches. -/
theorem gather_exact_toAndFro :
    0 ≤ (holdings 2).base.sequence ∧ (holdings 2).Governs toAndFro ∧
      (Timeline.fleet [1, 2] 0).Orderly { admits := fun _ => true } 3
        { state := { world := toAndFro } } ∧
      (gather toAndFro 3).2.done = true ∧
      let results := (gather toAndFro 3).1
      results.Nodup ∧ ∀ e, e ∈ results ↔ e ∈ (holdings 2).entries ∧ true = true := by
  have started : 0 ≤ (holdings 2).base.sequence := by decide
  have done : (gather toAndFro 3).2.done = true := by cbv
  exact ⟨started, governs_toAndFro, orderly_toAndFro, done, gather_exact_of_orderly _ _ _ _ _ _
    started governs_toAndFro orderly_toAndFro done⟩

open Wandering in
/-- A query in which every request brings a batch misses entries of a partition that is away
    within a base batch, and of one that leaves during its virtual scan. -/
theorem gather_overlooks :
    ((holdings 1).Governs outAndBack ∧ (gather outAndBack 1).2.done = true ∧
      (gather outAndBack 1).2.batches = 1 ∧ ∃ e ∈ (holdings 1).entries,
        e ∉ (gather outAndBack 1).1) ∧
    ((holdings 2).Governs onAndOn ∧ (gather onAndOn 3).2.done = true ∧
      (gather onAndOn 3).2.batches = 3 ∧ ∃ e ∈ (holdings 2).entries,
        e ∉ (gather onAndOn 3).1) := by
  have out : (gather outAndBack 1).1 = [⟨10, 0⟩, ⟨30, 0⟩, ⟨40, 1⟩] := by cbv
  have on : (gather onAndOn 3).1 = [⟨10, 0⟩, ⟨30, 0⟩, ⟨20, 1⟩] := by cbv
  refine ⟨⟨governs_outAndBack, by cbv, by cbv, ⟨20, 1⟩, by decide, ?_⟩,
    ⟨governs_onAndOn, by cbv, by cbv, ⟨40, 1⟩, by decide, ?_⟩⟩
  · rw [out]
    decide
  · rw [on]
    decide

end Replication.Scan
