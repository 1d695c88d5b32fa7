import Mathlib
import Replication.Proofs.Scan.Progress

/-! # Queries are exact while partitions move

However the parts of the moves fall between the looks of the nodes, a query that ends has
returned each entry that it asks for once, and nothing else.
-/

namespace Replication.Scan

open Replication.Placement (History PartitionId PlacementError ShardId Topology)

variable {r : Relocation} {query : Query} {nodes : List ShardId} {patience : Nat}

/-! ## Requests pass time -/

section Time

variable {α : Type}

theorem Forward.askHistory (f : History → Except PlacementError α) :
    Forward FleetState.world ((Timeline.fleet nodes patience).askHistory f) := by
  intro s
  unfold Fleet.askHistory
  dsimp only [Timeline.fleet, Timeline.look]
  cases f s.world.now.history <;> exact .pass _

theorem Forward.answer (x : Except ScanError α) :
    Forward FleetState.world (Fleet.answer x : EStateM ScanError (FleetState Timeline) α) := by
  cases x with
  | ok a => exact pure a
  | error e => exact throw e

theorem Forward.targets (k : ContinuationKey) :
    Forward FleetState.world ((Timeline.fleet nodes patience).targets k) :=
  (askHistory _).bind fun _ => pure _

theorem Forward.keyOf (continuation : Octets) :
    Forward FleetState.world ((Timeline.fleet nodes patience).keyOf continuation) := by
  unfold Fleet.keyOf
  split
  · exact throw _
  split
  · exact (askHistory _).bind fun _ => pure _
  · exact pure _

/-- The work of a node passes the time of the fleet. -/
theorem Forward.scan (target : Target) (k : ContinuationKey) :
    Forward FleetState.world ((Timeline.fleet nodes patience).scan query target k) := by
  intro s
  unfold Fleet.scan Fleet.atNode
  dsimp only [Timeline.fleet]
  by_cases known : target.shard ∈ nodes
  · rw [if_pos known]
    have forward : Forward Scanning.world (if target.isVirtual then
        Scan.scanVirtual (Timeline.view target.shard) query patience
      else Scan.scanBase (Timeline.view target.shard) query patience) := by
      split
      · exact Forward.scanVirtual patience
      · exact Forward.scanBase patience
    dsimp only
    split
    next done =>
      split at done
      next worked =>
        cases done
        exact forward.of_ok worked
      next => cases done
    next done =>
      split at done
      next => cases done
      next failed =>
        cases done
        exact forward.of_error failed
  · rw [if_neg known]
    exact .refl _

theorem Forward.batchAt (query : Query) (k : ContinuationKey) :
    Forward FleetState.world ((Timeline.fleet nodes patience).batchAt query k) := by
  unfold Fleet.batchAt
  refine (targets k).bind fun targets => ?_
  refine (answer _).bind fun place => ?_
  split
  · exact pure _
  refine (scan _ _).bind fun scanned => ?_
  split
  split
  · exact (Forward.targets _).bind fun _ => pure _
  · exact pure _

theorem Forward.executeBatch (query : Query) (continuation : Octets) :
    Forward FleetState.world ((Timeline.fleet nodes patience).executeBatch query continuation) :=
  (keyOf _).bind fun k => batchAt query k

end Time

/-! ## Batches -/

section Batches

variable {s s' : FleetState Timeline} {k k' : ContinuationKey} {place : Nat}

theorem askHistory_eq {α : Type} {f : History → Except PlacementError α} {a : α}
    (answer : f s.world.now.history = .ok a) :
    (Timeline.fleet nodes patience).askHistory f s = .ok a { s with world := s.world.pass } := by
  unfold Fleet.askHistory
  dsimp only [Timeline.fleet, Timeline.look]
  rw [answer]

theorem targets_eq {base : Topology} (known : s.world.now.history.get k.topology = .ok base) :
    (Timeline.fleet nodes patience).targets k s =
      .ok (k.targets base) { s with world := s.world.pass } := by
  rw [Fleet.targets, bind_eq_of_ok (askHistory_eq known)]
  rfl

/-- What a batch of a target does to a key: it stays at the target, and if it has nothing left
    then it can move on. -/
structure Scanned (r : Relocation) (query : Query) (k : ContinuationKey) (place : Nat)
    (batch : Batch) (k' : ContinuationKey) : Prop where
  stands : Stands r k' place
  open_ : place < (k'.targets r.base).length
  advances : Advances r query k place k' place batch.results
  moves : batch.exhausted = true → ∀ e ∈ r.entries, Returned r k' place e ↔
    Returned r (k'.moveTo (place + 1) (k'.targets r.base)) (place + 1) e

/-- A batch of the base partitions of a shard. -/
theorem BaseScanned.scanned {x : ShardId} {batch : Batch} (stands : Stands r k place)
    (at_ : (k.targets r.base)[place]? = some { shard := x })
    (h : BaseScanned r x query k k' batch) : Scanned r query k place batch k' := by
  obtain ⟨mid, departed, outcome⟩ := h
  have front := stands.lt_length_shards at_
  have track : OnTrack r mid := departed.onTrack stands.toOnTrack
  have at_mid : (mid.targets r.base)[place]? = some { shard := x } := by
    rw [getElem?_targets mid front, ← getElem?_targets k front, at_]
  have same := departed.returned stands.toOnTrack at_
  -- The key stays at the shard, whatever its resume position.
  have stays (stop : Option IndexEntry) : Stands r { mid with resume := stop } place :=
    { pinned := track.pinned
      scans := track.scans
      current := by
        intro t at_'
        change (mid.targets r.base)[place]? = some t at at_'
        rw [at_mid] at at_'
        cases at_'
        rw [departed.same]
        exact stands.current _ at_ }
  have open_ : place < (mid.targets r.base).length := (List.getElem?_eq_some_iff.1 at_mid).1
  rcases outcome with ⟨rfl, rfl⟩ | ⟨asked, stop, wanted, rfl, exact_⟩
  · exact ⟨stays _, open_, .of_iff same, fun done => nomatch done⟩
  · have advances := exact_.advances_base track at_mid wanted
    refine ⟨stays stop, open_, advances.congr same fun _ _ => Iff.rfl, ?_⟩
    intro done
    refine returned_moveTo (k := { mid with resume := stop }) at_mid ?_ ?_
    · intro e mem home plain based same
      cases same
      exact exact_.all done e mem ((wanted _).2 ⟨based, plain⟩)
    · intro e mem scan made same
      exact absurd (congrArg Target.partition same) (track.named made)

/-- A batch of a virtual scan. -/
theorem Exact.scanned {p : PartitionId} {scan : VirtualScan} {stop : Option IndexEntry}
    {batch : Batch} (stands : Stands r k place) (made : k.virtualScans.get? p = some scan)
    (at_ : (k.targets r.base)[place]? = some { shard := scan.target, partition := p })
    (h : Exact r query (· = p) scan.resume stop batch) :
    Scanned r query k place batch (k.readTo p stop) := by
  have track := stands.toOnTrack.readTo p stop
  have at_' : ((k.readTo p stop).targets r.base)[place]? =
      some { shard := scan.target, partition := p } := by
    rw [targets_readTo, at_]
  refine ⟨{ track with current := fun t at_ => ?_ }, (List.getElem?_eq_some_iff.1 at_').1,
    h.advances_virtual stands.toOnTrack made at_, ?_⟩
  · rw [targets_readTo] at at_
    exact stands.current t at_
  · intro done
    refine returned_moveTo at_' ?_ ?_
    · intro e mem home _ _ same
      exact absurd (congrArg Target.partition same).symm (stands.named made)
    · intro e mem scan' made' same
      obtain rfl : e.partition = p := congrArg Target.partition same
      rw [ContinuationKey.readTo, Table.get?_update, if_pos rfl, made] at made'
      cases made'
      exact h.all done e mem (decide_eq_true rfl)

/-- The batch of a target is the work of the node of its shard. -/
theorem scan_eq_ok {t : Target} {batch : Batch}
    (done : (Timeline.fleet nodes patience).scan query t k s = .ok (batch, k') s') :
    ∃ stats stats', (if t.isVirtual then scanVirtual (Timeline.view t.shard) query patience
        else scanBase (Timeline.view t.shard) query patience) { world := s.world, key := k, stats } =
      .ok batch { world := s'.world, key := k', stats := stats' } := by
  unfold Fleet.scan Fleet.atNode at done
  dsimp only [Timeline.fleet] at done
  by_cases known : t.shard ∈ nodes
  · rw [if_pos known] at done
    dsimp only at done
    split at done
    next worked =>
      cases done
      split at worked
      next worked' =>
        cases worked
        exact ⟨_, _, worked'⟩
      next => cases worked
    next => cases done
  · rw [if_neg known] at done
    cases done

/-- A target that is not virtual is a shard. -/
theorem Target.eq_of_not_isVirtual {t : Target} (plain : ¬ t.isVirtual = true) :
    t = { shard := t.shard } := by
  obtain ⟨shard, p⟩ := t
  obtain rfl : p = noVirtualScan := by simpa [Target.isVirtual] using plain
  rfl

/-- A virtual target is that of the virtual scan under way. -/
theorem ContinuationKey.Marks.virtual {base : Topology} {t : Target} (marks : k.Marks base place)
    (at_ : (k.targets base)[place]? = some t) (virtual : t.isVirtual = true) {scan : VirtualScan}
    (made : k.virtualScans.get? k.virtualPartition = some scan) :
    t = { shard := scan.target, partition := k.virtualPartition } := by
  have partition := (marks t at_).1
  obtain ⟨scan', made', target⟩ := (mem_targets.1 (List.mem_of_getElem? at_)).resolve_left
    fun plain => by simp [Target.isVirtual, plain.2] at virtual
  rw [partition, made'] at made
  cases made
  rw [target, partition]

theorem Stands.virtual {t : Target} (stands : Stands r k place)
    (at_ : (k.targets r.base)[place]? = some t) (virtual : t.isVirtual = true) {scan : VirtualScan}
    (made : k.virtualScans.get? k.virtualPartition = some scan) :
    t = { shard := scan.target, partition := k.virtualPartition } :=
  ContinuationKey.Marks.virtual stands.current at_ virtual made

/-- A batch of the target that a key stands at. -/
theorem scan_ok {t : Target} {batch : Batch} (steady : r.Steady s.world) (stands : Stands r k place)
    (at_ : (k.targets r.base)[place]? = some t)
    (done : (Timeline.fleet nodes patience).scan query t k s = .ok (batch, k') s') :
    Scanned r query k place batch k' := by
  obtain ⟨stats, stats', worked⟩ := scan_eq_ok done
  by_cases virtual : t.isVirtual = true
  · rw [if_pos virtual] at worked
    obtain ⟨scan, stop, made, key, exact_⟩ := scanVirtual_ok (r := r) steady stands.scans worked
    dsimp only at made key exact_
    rw [key]
    exact exact_.scanned stands made (at_.trans (congrArg some (stands.virtual at_ virtual made)))
  · rw [if_neg virtual] at worked
    exact (scanBase_ok (r := r) steady stands.pinned worked).scanned stands
      (at_.trans (congrArg some (Target.eq_of_not_isVirtual virtual)))

/-- A batch of a query: the key that comes with it stands at a target, or behind the last one
    when the query is done.  Where the partitions go may be told from the key. -/
theorem batchAt_ok {R : ContinuationKey → Relocation} {b : QueryBatch}
    (moved : ∀ k place targets, R (k.moveTo place targets) = R k)
    (known : ∀ t k', s.world.Reaches t →
      t.now.history.get (R k').base.sequence = .ok (R k').base)
    (stands : Stands (R k) k place) (inRange : 0 ≤ k.shardIndex)
    (open_ : place < (k.targets (R k).base).length ∨ k.targets (R k).base = [])
    (scans : ∀ t batch k' s₂, (k.targets (R k).base)[place]? = some t →
      (Timeline.fleet nodes patience).scan query t k { s with world := s.world.pass } =
        .ok (batch, k') s₂ → s₂.world.Reaches s'.world → Scanned (R k') query k place batch k')
    (done : (Timeline.fleet nodes patience).batchAt query k s = .ok b s') :
    ∃ k' place', b.continuation = k'.write ∧ Stands (R k') k' place' ∧
      Advances (R k') query k place k' place' b.results ∧
      (b.done = true ↔ (k'.targets (R k').base).length ≤ place') := by
  have pinned {s : FleetState Timeline} {k' : ContinuationKey} (track : OnTrack (R k') k')
      (recorded : s.world.now.history.get (R k').base.sequence = .ok (R k').base) :
      s.world.now.history.get k'.topology = .ok (R k').base := by
    rw [track.pinned, recorded]
  rw [Fleet.batchAt, bind_eq_of_ok (targets_eq (pinned stands.toOnTrack (known _ k (.refl _))))]
    at done
  obtain ⟨place₁, s₁, placed, done⟩ := bind_eq_ok done
  cases at_ : (k.targets (R k).base)[place]? with
  | none =>
    -- The topology has no shards at all, so there is nothing to return.
    have beyond := List.getElem?_eq_none_iff.1 at_
    obtain empty : k.targets (R k).base = [] := open_.resolve_left (Nat.not_lt.2 beyond)
    rw [empty, List.getElem?_nil] at done
    obtain ⟨rfl, rfl⟩ := pure_eq_ok done
    exact ⟨k, place, rfl, stands, .of_iff fun _ _ => Iff.rfl, iff_of_true rfl beyond⟩
  | some t =>
    rw [stands.place_eq at_ inRange] at placed
    obtain ⟨rfl, rfl⟩ := pure_eq_ok placed
    rw [at_] at done
    dsimp only at done
    obtain ⟨⟨batch, k₁⟩, s₂, scanning, done⟩ := bind_eq_ok done
    have later := (Forward.scan _ _).of_ok scanning
    dsimp only at done
    split at done
    next exhausted =>
      obtain ⟨targets, s₃, looked, done⟩ := bind_eq_ok done
      obtain ⟨rfl, rfl⟩ := pure_eq_ok done
      have scanned := scans t batch k₁ s₂ at_ scanning ((Forward.targets _).of_ok looked)
      rw [targets_eq (pinned scanned.stands.toOnTrack
        (known _ k₁ ((Timeline.Reaches.pass _).trans later)))] at looked
      cases looked
      refine ⟨_, place + 1, rfl, ?_, ?_, ?_⟩
      · rw [moved]
        exact scanned.stands.stands_moveTo (place + 1)
      · rw [moved]
        exact scanned.advances.congr (fun _ _ => Iff.rfl) (scanned.moves exhausted)
      · rw [moved]
        exact decide_eq_true_iff
    next =>
      obtain ⟨rfl, rfl⟩ := pure_eq_ok done
      have scanned := scans t batch k₁ _ at_ scanning (.refl _)
      refine ⟨k₁, place, rfl, scanned.stands, scanned.advances, iff_of_false (by simp) ?_⟩
      exact Nat.not_le.2 scanned.open_

/-- A batch of a query of a relocation. -/
theorem Relocation.Steady.batchAt_ok {b : QueryBatch} (steady : r.Steady s.world)
    (stands : Stands r k place) (inRange : 0 ≤ k.shardIndex)
    (open_ : place < (k.targets r.base).length ∨ k.targets r.base = [])
    (done : (Timeline.fleet nodes patience).batchAt query k s = .ok b s') :
    ∃ k' place', b.continuation = k'.write ∧ Stands r k' place' ∧
      Advances r query k place k' place' b.results ∧
      (b.done = true ↔ (k'.targets r.base).length ≤ place') :=
  Scan.batchAt_ok (R := fun _ => r) (fun _ _ _ => rfl)
    (fun _ _ reaches => (steady.reaches reaches).1.consistent.recorded) stands inRange open_
    (fun _ _ _ _ at_ scanning _ => scan_ok steady.pass.1 stands at_ scanning) done

end Batches

/-! ## Queries -/

section Queries

variable {c c' : Client Timeline} {results more : List IndexEntry}

/-- A client that has got some results: its key stands at a target, and the results are what
    was returned up to there. -/
structure Standing (r : Relocation) (query : Query) (c : Client Timeline)
    (results : List IndexEntry) : Prop where
  steady : r.Steady c.state.world
  key : ∃ k place, c.continuation = k.write ∧ Stands r k place ∧
    (c.done = true ↔ (k.targets r.base).length ≤ place) ∧
      ∀ e, e ∈ results ↔ e ∈ r.entries ∧ query.admits e = true ∧ Returned r k place e
  nodup : results.Nodup

/-- Behind a batch a client has its results too. -/
theorem Standing.extend {k k' : ContinuationKey} {place place' : Nat}
    (nodup : results.Nodup)
    (returned : ∀ e, e ∈ results ↔ e ∈ r.entries ∧ query.admits e = true ∧ Returned r k place e)
    (advances : Advances r query k place k' place' more)
    (steady : r.Steady c.state.world) (written : c.continuation = k'.write)
    (stands : Stands r k' place') (done : c.done = true ↔ (k'.targets r.base).length ≤ place') :
    Standing r query c (results ++ more) where
  steady := steady
  key := ⟨k', place', written, stands, done, advances.mem_append returned⟩
  nodup := advances.nodup_append nodup returned

theorem write_ne_nil (k : ContinuationKey) : k.write ≠ [] := by
  simp [ContinuationKey.write]

/-- A key is read back that names a topology and whose place has a number. -/
theorem keyOf_write {s s' : FleetState Timeline} {k k' : ContinuationKey} (named : 0 ≤ k.topology)
    (done : (Timeline.fleet nodes patience).keyOf k.write s = .ok k' s') :
    k' = k ∧ s' = s ∧ 0 ≤ k.shardIndex := by
  have read : Fleet.readKey k.write = ContinuationKey.parse k.write := by
    unfold Fleet.readKey
    split
    next empty => exact absurd empty (write_ne_nil k)
    next => rfl
  rw [Fleet.keyOf, read] at done
  by_cases negative : k.shardIndex < 0
  · rw [ContinuationKey.parse_write_of_neg negative] at done
    cases done
  · have inRange : 0 ≤ k.shardIndex := by grind
    rw [ContinuationKey.parse_write inRange] at done
    dsimp only at done
    rw [if_neg (by grind)] at done
    obtain ⟨rfl, rfl⟩ := pure_eq_ok done
    exact ⟨rfl, rfl, inRange⟩

/-- The key of a query that started on a topology with a proper number names it. -/
theorem OnTrack.named_topology {k : ContinuationKey} (h : OnTrack r k)
    (started : 0 ≤ r.base.sequence) : 0 ≤ k.topology := by
  rw [h.pinned]
  exact started

/-- A request on the way. -/
theorem Standing.next_ok (h : Standing r query c results) (started : 0 ≤ r.base.sequence)
    (done : (Timeline.fleet nodes patience).next query c = .ok more c') :
    Standing r query c' (results ++ more) := by
  rw [Fleet.next] at done
  split at done
  · cases done
    rwa [List.append_nil]
  next unfinished =>
    split at done
    next b state executed =>
      cases done
      obtain ⟨k, place, written, stands, ended, returned⟩ := h.key
      rw [written, Fleet.executeBatch] at executed
      have later := (Forward.executeBatch query _).of_ok executed
      obtain ⟨k₁, s₁, read, executed⟩ := bind_eq_ok executed
      obtain ⟨rfl, rfl, inRange⟩ := keyOf_write (stands.named_topology started) read
      obtain ⟨k', place', written', stands', advances, ended'⟩ := h.steady.batchAt_ok stands inRange
        (.inl (Nat.not_le.1 fun beyond => unfinished (ended.2 beyond))) executed
      exact .extend h.nodup returned advances (h.steady.reaches later).1 written' stands' ended'
    next => cases done

/-- A request that fails only takes time. -/
theorem next_error {e : ScanError}
    (failed : (Timeline.fleet nodes patience).next query c = .error e c') :
    c.state.world.Reaches c'.state.world ∧ c'.continuation = c.continuation ∧ c'.done = c.done := by
  rw [Fleet.next] at failed
  split at failed
  · cases failed
  · split at failed
    · cases failed
    next executed =>
      cases failed
      exact ⟨(Forward.executeBatch query _).of_error executed, rfl, rfl⟩

theorem Standing.next_error {e : ScanError} (h : Standing r query c results)
    (failed : (Timeline.fleet nodes patience).next query c = .error e c') :
    Standing r query c' results := by
  obtain ⟨reaches, continuation, done⟩ := Scan.next_error failed
  refine ⟨(h.steady.reaches reaches).1, ?_, h.nodup⟩
  rw [continuation, done]
  exact h.key

/-- A query that starts is on the current topology. -/
theorem keyOf_nil {s : FleetState Timeline} {t : Topology}
    (current : s.world.now.history.current = .ok t) :
    (Timeline.fleet nodes patience).keyOf [] s =
      .ok { topology := t.sequence } { s with world := s.world.pass } := by
  rw [Fleet.keyOf]
  dsimp only [Fleet.readKey]
  rw [if_pos (by decide), bind_eq_of_ok (askHistory_eq current)]
  rfl

/-- A query starts at the front of the first target. -/
theorem stands_start : Stands r { topology := r.base.sequence } 0 where
  pinned := rfl
  scans _ _ made := nomatch made
  current t at_ := by
    have mem := mem_targets.1 (List.mem_of_getElem? at_)
    rcases mem with ⟨-, plain⟩ | ⟨scan, made, -⟩
    · exact ⟨plain.symm, fun _ => rfl⟩
    · cases made

/-- The request that starts a query. -/
theorem Relocation.Governs.next_ok (h : r.Governs c.state.world) (fresh : c.continuation = [])
    (unfinished : c.done = false)
    (done : (Timeline.fleet nodes patience).next query c = .ok more c') :
    Standing r query c' more := by
  rw [Fleet.next, if_neg (by simp [unfinished])] at done
  split at done
  next b state executed =>
    cases done
    have later := (Forward.executeBatch query _).of_ok executed
    rw [Fleet.executeBatch, fresh, bind_eq_of_ok (keyOf_nil h.settled.current)] at executed
    obtain ⟨k', place', written', stands', advances, ended'⟩ := Relocation.Steady.batchAt_ok
      (s := { c.state with world := c.state.world.pass }) h.steady.pass.1 stands_start
      (Int32.le_refl _) (by rw [List.length_pos_iff]; exact (Classical.em _).symm) executed
    have standing : Standing r query ⟨state, b.continuation, b.done, c.batches + 1⟩
        ([] ++ b.results) := .extend .nil (fun e => by simp [not_returned_start e]) advances
      (h.steady.reaches later).1 written' stands' ended'
    rwa [List.nil_append] at standing
  next => cases done

/-- All requests of a query that has started. -/
theorem Standing.gather (h : Standing r query c results) (started : 0 ≤ r.base.sequence)
    (requests : Nat) :
    Standing r query ((Timeline.fleet nodes patience).gather query requests c).2
      (results ++ ((Timeline.fleet nodes patience).gather query requests c).1) := by
  induction requests generalizing c results with
  | zero =>
    rw [Fleet.gather, List.append_nil]
    exact h
  | succ requests ih =>
    rw [Fleet.gather]
    split
    next more c' done =>
      have later := ih (h.next_ok started done)
      rwa [List.append_assoc] at later
    next e c' failed => exact ih (h.next_error failed)

/-- A client that has finished has got just what it asked for. -/
theorem Standing.exact (h : Standing r query c results) (done : c.done = true) :
    results.Nodup ∧ ∀ e, e ∈ results ↔ e ∈ r.entries ∧ query.admits e = true := by
  obtain ⟨k, place, -, -, ended, returned⟩ := h.key
  refine ⟨h.nodup, fun e => (returned e).trans ?_⟩
  constructor
  · exact fun ⟨mem, admitted, _⟩ => ⟨mem, admitted⟩
  · exact fun ⟨mem, admitted⟩ => ⟨mem, admitted, returned_of_length_le (ended.1 done) e mem⟩

theorem Relocation.Starts.next_error {e : ScanError}
    (h : r.Starts (Timeline.fleet nodes patience) query c)
    (failed : (Timeline.fleet nodes patience).next query c = .error e c') :
    r.Starts (Timeline.fleet nodes patience) query c' := by
  intro requests
  have later := h (requests + 1)
  rw [Fleet.gather, failed] at later
  exact later

/-- All requests of a query that has not started: those that fail leave it as it was. -/
theorem Relocation.Starts.gather (h : r.Starts (Timeline.fleet nodes patience) query c)
    (started : 0 ≤ r.base.sequence) (fresh : c.continuation = []) (unfinished : c.done = false)
    (requests : Nat) (done : ((Timeline.fleet nodes patience).gather query requests c).2.done) :
    Standing r query ((Timeline.fleet nodes patience).gather query requests c).2
      ((Timeline.fleet nodes patience).gather query requests c).1 := by
  induction requests generalizing c with
  | zero =>
    rw [Fleet.gather, unfinished] at done
    cases done
  | succ requests ih =>
    rw [Fleet.gather] at done ⊢
    split
    next more c' succeeded =>
      have governs := h 0 fresh ⟨more, c', succeeded⟩
      exact (governs.next_ok fresh unfinished succeeded).gather started requests
    next e c' failed =>
      obtain ⟨-, continuation, ended⟩ := Scan.next_error failed
      rw [failed] at done
      exact ih (h.next_error failed) (continuation.trans fresh) (ended.trans unfinished) done

/-- A request that succeeds brings a key. -/
theorem executeBatch_continuation {continuation : Octets} {s s' : FleetState Timeline}
    {b : QueryBatch}
    (done : (Timeline.fleet nodes patience).executeBatch query continuation s = .ok b s') :
    b.continuation ≠ [] := by
  obtain ⟨k, s₁, -, done⟩ := bind_eq_ok done
  obtain ⟨targets, s₂, -, done⟩ := bind_eq_ok done
  obtain ⟨place, s₃, -, done⟩ := bind_eq_ok done
  dsimp only at done
  cases at_ : targets[place]? with
  | none =>
    rw [at_] at done
    obtain ⟨rfl, -⟩ := pure_eq_ok done
    exact write_ne_nil _
  | some target =>
    rw [at_] at done
    obtain ⟨⟨batch, k₁⟩, s₄, -, done⟩ := bind_eq_ok done
    dsimp only at done
    split at done
    · obtain ⟨targets', s₅, -, done⟩ := bind_eq_ok done
      obtain ⟨rfl, -⟩ := pure_eq_ok done
      exact write_ne_nil _
    · obtain ⟨rfl, -⟩ := pure_eq_ok done
      exact write_ne_nil _

/-- A client that has a key always has one. -/
theorem gather_continuation (requests : Nat) (going : c.continuation ≠ []) :
    ((Timeline.fleet nodes patience).gather query requests c).2.continuation ≠ [] := by
  induction requests generalizing c with
  | zero => exact going
  | succ requests ih =>
    rw [Fleet.gather]
    split
    next more c' succeeded =>
      refine ih ?_
      rw [Fleet.next] at succeeded
      split at succeeded
      · cases succeeded
        exact going
      · split at succeeded
        next executed =>
          cases succeeded
          exact executeBatch_continuation executed
        next => cases succeeded
    next e c' failed =>
      refine ih ?_
      rw [(Scan.next_error failed).2.1]
      exact going

/-- A query that has a key behind its first request started there. -/
theorem Relocation.Governs.starts (h : r.Governs c.state.world)
    (going : ((Timeline.fleet nodes patience).gather query 1 c).2.continuation ≠ []) :
    r.Starts (Timeline.fleet nodes patience) query c := by
  intro requests
  cases requests with
  | zero => exact fun _ _ => h
  | succ requests =>
    intro waiting fresh
    dsimp only [waiting] at fresh
    rw [Fleet.gather] at going fresh
    split at fresh
    next succeeded =>
      rw [succeeded] at going
      exact absurd fresh (gather_continuation requests going)
    next failed =>
      rw [failed] at going
      exact absurd fresh (gather_continuation requests going)

/-- A query that ends has returned each entry that it asks for once and nothing else, however
    partitions move while it runs. -/
theorem gather_exact (r : Relocation) (query : Query) (nodes : List ShardId) (patience : Nat)
    (world : Timeline) (requests : Nat) (started : 0 ≤ r.base.sequence)
    (starts : r.Starts (Timeline.fleet nodes patience) query { state := { world } })
    (done : ((Timeline.fleet nodes patience).gather query requests
      { state := { world } }).2.done = true) :
    let results := ((Timeline.fleet nodes patience).gather query requests { state := { world } }).1
    results.Nodup ∧ ∀ e, e ∈ results ↔ e ∈ r.entries ∧ query.admits e = true :=
  (starts.gather started rfl rfl requests done).exact done

end Queries

/-! ## A partition that moves between two batches -/

section Handover

/-- Partition 0 at shard 1, and partition 1 at a shard. -/
def handoverTopology (sequence : Int64) (home : ShardId) : Topology where
  sequence
  placement := ⟨[(0, 1), (1, home)], by simp⟩

/-- The only homes of a partition. -/
theorem homes_handoverTopology {sequence : Int64} {home shard : ShardId} {p : PartitionId}
    (at_ : (handoverTopology sequence home).placement.get? p = some shard) :
    p = 0 ∧ shard = 1 ∨ p = 1 ∧ shard = home := by
  simpa [handoverTopology] using Table.get?_eq_some_iff.1 at_

/-- The move of partition 1 from shard 2 to shard 1. -/
def handover (sequence : Int64) : Relocation where
  base := handoverTopology sequence 2
  destination _ := 1
  entries := [⟨10, 0⟩, ⟨20, 1⟩]
  named p shard at_ := by
    obtain ⟨rfl, -⟩ | ⟨rfl, -⟩ := homes_handoverTopology at_ <;> decide
  placed e mem := by
    obtain rfl | rfl : e = ⟨10, 0⟩ ∨ e = ⟨20, 1⟩ := by simpa using mem
    · rfl
    · rfl

/-- All that stands before the move. -/
def beforeHandover (sequence : Int64) : Situation where
  history := { topologies := [handoverTopology sequence 2] }
  shard x :=
    { topology := handoverTopology sequence 2
      opened := if x = 1 then [0] else [1]
      index := if x = 1 then [⟨10, 0⟩] else [⟨20, 1⟩] }

/-- All that stands behind it. -/
def afterHandover (sequence : Int64) : Situation :=
  let moved := handoverTopology (sequence + 1) 1
  let recorded : Situation :=
    { beforeHandover sequence with
      history := { topologies := [moved, handoverTopology sequence 2] } }
  ((((recorded.onShard 1 ({ · with topology := moved })).onShard 2
    ({ · with topology := moved })).onShard 1 ({ · with index := [⟨10, 0⟩, ⟨20, 1⟩] })).onShard 2
      (·.closePartition 1)).onShard 1 (·.openPartition 1)

/-- The move falls between the first two batches. -/
def duringHandover (sequence : Int64) : Timeline where
  now := beforeHandover sequence
  later := .replicate 9 (beforeHandover sequence) ++ [afterHandover sequence]

/-- A client of the two shards that asks for all entries. -/
def gatherHandover (sequence : Int64) (requests : Nat) : List IndexEntry × Client Timeline :=
  (Timeline.fleet [1, 2] 0).gather { admits := fun _ => true } requests
    { state := { world := duringHandover sequence } }

theorem settled_beforeHandover (sequence : Int64) :
    (handover sequence).Settled (beforeHandover sequence) where
  current := rfl
  heard _ := .inr fun _ _ at_ => .inl at_
  home p shard at_ := by
    obtain ⟨rfl, rfl⟩ | ⟨rfl, rfl⟩ := homes_handoverTopology at_
    · refine ⟨⟨List.mem_singleton_self _, List.not_mem_nil⟩, ?_⟩
      simp [Relocation.Complete, beforeHandover, handover]
      grind
    · refine ⟨⟨List.mem_singleton_self _, List.not_mem_nil⟩, ?_⟩
      simp [Relocation.Complete, beforeHandover, handover]
      grind
  arrived p shard at_ ready := by
    obtain ⟨rfl, rfl⟩ | ⟨rfl, rfl⟩ := homes_handoverTopology at_
    · simp [Relocation.Complete, beforeHandover, handover]
      grind
    · have opened : (1 : PartitionId) ∈ [0] := ready.1
      exact absurd opened (by decide)
  ascending shard := by
    dsimp only [beforeHandover]
    split <;> exact List.pairwise_singleton ..

theorem steps_handover {sequence : Int64} (newer : sequence < sequence + 1) :
    Relation.ReflTransGen (handover sequence).Step (beforeHandover sequence)
      (afterHandover sequence) := by
  have admitted : (handover sequence).Admits (handoverTopology (sequence + 1) 1) := by
    intro p home at_
    obtain ⟨rfl, rfl⟩ | ⟨rfl, rfl⟩ := homes_handoverTopology at_
    · exact .inl rfl
    · exact .inr rfl
  have recorded := Relation.ReflTransGen.single (Relocation.Step.record
    (s := beforeHandover sequence) admitted (if_pos newer))
  have heard := (recorded.tail (.hear 1 (.inr admitted))).tail (.hear 2 (.inr admitted))
  -- Only partition 0 is relied on at shard 1 as yet.
  have copied := heard.tail (.store 1 [⟨10, 0⟩, ⟨20, 1⟩] (by decide) (by
    rintro ⟨key, p⟩ relied
    obtain rfl : p = 0 := by
      rcases relied with ⟨home, -⟩ | ⟨-, opened, -⟩
      · obtain ⟨rfl, -⟩ | ⟨-, same⟩ := homes_handoverTopology home
        · rfl
        · cases same
      · exact List.mem_singleton.1 opened
    simp [Situation.onShard, beforeHandover]))
  have closed := copied.tail (.close 2 1 (show (1 : ShardId) ≠ 2 by decide))
  refine closed.tail (.arrive 1 (.inr ?_))
  rintro ⟨key, p⟩ rfl
  simp [Situation.onShard, handover]

theorem governs_duringHandover {sequence : Int64} (newer : sequence < sequence + 1) :
    (handover sequence).Governs (duringHandover sequence) where
  settled := settled_beforeHandover sequence
  steps := by
    have steps := steps_handover newer
    simp [duringHandover, List.replicate, List.isChain_cons_cons, Relation.ReflTransGen.refl, steps]

/-- The query starts with its first request. -/
theorem starts_duringHandover (sequence : Int64) (newer : sequence < sequence + 1)
    (going : (gatherHandover sequence 1).2.continuation ≠ []) :
    (handover sequence).Starts (Timeline.fleet [1, 2] 0) { admits := fun _ => true }
      { state := { world := duringHandover sequence } } :=
  (governs_duringHandover newer).starts going

/-- A partition that moves behind the reader is found at its virtual scan. -/
theorem gather_exact_handover :
    0 ≤ (handover 1).base.sequence ∧
      (handover 1).Starts (Timeline.fleet [1, 2] 0) { admits := fun _ => true }
        { state := { world := duringHandover 1 } } ∧
      (gatherHandover 1 3).2.done = true ∧
      let results := (gatherHandover 1 3).1
      results.Nodup ∧ ∀ e, e ∈ results ↔ e ∈ (handover 1).entries ∧ true = true := by
  have started : 0 ≤ (handover 1).base.sequence := by decide
  have starts := starts_duringHandover 1 (by decide) (by cbv; simp)
  have done : (gatherHandover 1 3).2.done = true := by cbv
  exact ⟨started, starts, done, gather_exact (handover 1) _ _ _ _ 3 started starts done⟩

/-- A query on a topology with a negative number starts again with every batch, and may miss
    what has moved. -/
theorem not_gather_exact : ¬ ∀ (r : Relocation) (query : Query) (nodes : List ShardId)
    (patience : Nat) (world : Timeline) (requests : Nat),
    r.Starts (Timeline.fleet nodes patience) query { state := { world } } →
    ((Timeline.fleet nodes patience).gather query requests { state := { world } }).2.done = true →
    let results := ((Timeline.fleet nodes patience).gather query requests { state := { world } }).1
    results.Nodup ∧ ∀ e, e ∈ results ↔ e ∈ r.entries ∧ query.admits e = true := by
  intro exact_
  have starts := starts_duringHandover (-5) (by decide) (by cbv; simp)
  have done : (gatherHandover (-5) 2).2.done = true := by cbv
  have results : (gatherHandover (-5) 2).1 = [⟨10, 0⟩] := by cbv
  have missed := (exact_ (handover (-5)) _ _ _ _ 2 starts done).2 ⟨20, 1⟩
  rw [gatherHandover] at results
  rw [results] at missed
  exact absurd (missed.2 ⟨by simp [handover], rfl⟩) (by decide)

end Handover

end Replication.Scan
