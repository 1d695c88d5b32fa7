import Mathlib.Data.List.Nodup
import Replication.Proofs.Scan.Batches
import Replication.Proofs.Scan.Keys

/-! # Where a query stands

A query visits each target once.  What its key says was returned is told entry by entry by
`Returned`: an entry belongs to the virtual scan of its partition if there is one, and to its
home otherwise.
-/

namespace Replication.Scan

open Replication.Placement (History PartitionId PlacementError ShardId Topology)

variable {r : Relocation} {query : Query} {k k' : ContinuationKey} {place : Nat} {x : ShardId}

/-! ## Targets -/

/-- The shards of a topology are the homes of its partitions. -/
theorem mem_shards {t : Topology} : x ∈ t.shards ↔ ∃ p, t.placement.get? p = some x := by
  simp only [Topology.shards, Table.mem_keys_ofList, Table.values, List.mem_map, Prod.exists,
    Prod.mk.injEq, and_true, Table.get?_eq_some_iff, exists_const, exists_eq_right]

theorem nodup_shards (t : Topology) : t.shards.Nodup := Table.nodup_keys _

/-- Whether the virtual scans of a key are of proper partitions. -/
def ContinuationKey.Proper (k : ContinuationKey) : Prop :=
  ∀ p scan, k.virtualScans.get? p = some scan → p ≠ noVirtualScan

/-- A key that a query of a relocation may have. -/
structure OnTrack (r : Relocation) (k : ContinuationKey) : Prop where
  pinned : k.topology = r.base.sequence
  scans : ∀ p scan, k.virtualScans.get? p = some scan →
    scan.target = r.destination p ∧ ∃ home, r.base.placement.get? p = some home

/-- The partition of a virtual target is a proper one. -/
theorem OnTrack.named (h : OnTrack r k) {p : PartitionId} {scan : VirtualScan}
    (made : k.virtualScans.get? p = some scan) : p ≠ noVirtualScan := by
  obtain ⟨-, home, based⟩ := h.scans p scan made
  rintro rfl
  exact absurd (r.named _ home based) (by decide)

theorem OnTrack.proper (h : OnTrack r k) : k.Proper := fun _ _ made => h.named made

theorem mem_targets {base : Topology} {t : Target} : t ∈ k.targets base ↔
    (t.shard ∈ base.shards ∧ t.partition = noVirtualScan) ∨
      ∃ scan, k.virtualScans.get? t.partition = some scan ∧ scan.target = t.shard := by
  simp only [ContinuationKey.targets, List.mem_append, List.mem_map, Prod.exists,
    ← Table.get?_eq_some_iff]
  obtain ⟨shard, partition⟩ := t
  refine or_congr ⟨?_, ?_⟩ ⟨?_, ?_⟩
  · rintro ⟨_, mem, ⟨⟩⟩
    exact ⟨mem, rfl⟩
  · rintro ⟨mem, ⟨⟩⟩
    exact ⟨_, mem, rfl⟩
  · rintro ⟨p, scan, made, ⟨⟩⟩
    exact ⟨scan, made, rfl⟩
  · rintro ⟨scan, made, ⟨⟩⟩
    exact ⟨partition, scan, made, rfl⟩

/-- No target comes twice. -/
theorem ContinuationKey.Proper.nodup_targets (h : k.Proper) (base : Topology) :
    (k.targets base).Nodup := by
  refine List.Nodup.append ?_ ?_ ?_
  · exact (nodup_shards base).map fun _ _ same => congrArg Target.shard same
  · refine List.pairwise_map.2 (k.virtualScans.ascending.imp ?_)
    intro a b below same
    have := congrArg Target.partition same
    dsimp only at this
    grind
  · intro t base virtual
    obtain ⟨_, -, rfl⟩ := List.mem_map.1 base
    obtain ⟨⟨p, scan⟩, mem, same⟩ := List.mem_map.1 virtual
    exact h p scan (Table.get?_eq_some_iff.2 mem) (congrArg Target.partition same)

theorem OnTrack.nodup_targets (h : OnTrack r k) : (k.targets r.base).Nodup :=
  h.proper.nodup_targets r.base

/-- The targets come from the partitions and destinations of the virtual scans alone. -/
theorem targets_update (k : ContinuationKey) (p : PartitionId) (f : VirtualScan → VirtualScan)
    (same : ∀ scan, (f scan).target = scan.target) (base : Topology) :
    { k with virtualScans := k.virtualScans.update p f }.targets base = k.targets base := by
  simp only [ContinuationKey.targets, Table.update, List.map_map]
  congr 2
  funext entry
  obtain ⟨q, scan⟩ := entry
  simp only [Function.comp_apply]
  split
  · rw [same]
  · rfl

/-- A target that is no virtual scan is among the shards of the topology. -/
theorem ContinuationKey.Proper.lt_length_shards (h : k.Proper) {base : Topology}
    (at_ : (k.targets base)[place]? = some { shard := x }) : place < base.shards.length := by
  by_contra beyond
  rw [ContinuationKey.targets, List.getElem?_append_right (by simpa using beyond)] at at_
  obtain ⟨⟨p, scan⟩, mem, same⟩ := List.mem_map.1 (List.mem_of_getElem? at_)
  exact h p scan (Table.get?_eq_some_iff.2 mem) (congrArg Target.partition same)

theorem OnTrack.lt_length_shards (h : OnTrack r k)
    (at_ : (k.targets r.base)[place]? = some { shard := x }) : place < r.base.shards.length :=
  h.proper.lt_length_shards at_

/-- All keys of a query have the same targets among the shards of the topology. -/
theorem getElem?_targets (k : ContinuationKey) {base : Topology}
    (front : place < base.shards.length) :
    (k.targets base)[place]? = (base.shards[place]?).map fun shard => { shard } := by
  rw [ContinuationKey.targets, List.getElem?_append_left (by simpa using front), List.getElem?_map]

theorem take_targets (k : ContinuationKey) {base : Topology} (front : place ≤ base.shards.length) :
    (k.targets base).take place = (base.shards.map fun shard => { shard }).take place := by
  rw [ContinuationKey.targets, List.take_append_of_le_length (by simpa using front)]

/-! ## Places -/

/-- Whether a key says that its query is at a target, if there is one at this place. -/
def ContinuationKey.Marks (k : ContinuationKey) (base : Topology) (place : Nat) : Prop :=
  ∀ t, (k.targets base)[place]? = some t → k.virtualPartition = t.partition ∧
    (t.partition = noVirtualScan → k.shardIndex = Int32.ofNat place)

/-- Whether a key stands at a target. -/
structure Stands (r : Relocation) (k : ContinuationKey) (place : Nat) : Prop extends
    OnTrack r k where
  current : ∀ t, (k.targets r.base)[place]? = some t →
    k.virtualPartition = t.partition ∧
      (t.partition = noVirtualScan → k.shardIndex = Int32.ofNat place)

/-- A place that a 32-bit number can still hold is read back, as there are no more shards
    than such numbers. -/
theorem toNat_ofNat_of_le {n : Nat} (bound : n < 2 ^ 32) (inRange : 0 ≤ Int32.ofNat n) :
    (Int32.ofNat n).toInt.toNat = n := by
  have positive := Int32.le_iff_toInt_le.1 inRange
  have size : Int32.size = 2 ^ 32 := rfl
  rw [Int32.toInt_ofNat', Int.bmod_def, size] at positive ⊢
  simp only [Int32.toInt_zero] at positive
  split at positive <;> split <;> omega

/-- A topology has no more shards than there are numbers for them. -/
theorem length_shards_le (t : Topology) : t.shards.length ≤ 2 ^ 32 := by
  rw [Topology.shards, Table.keys, List.length_map]
  exact Table.length_entries_le _

/-- A key that was read stands where it stood when it was written. -/
theorem ContinuationKey.Proper.place_eq (h : k.Proper) {base : Topology}
    (marks : k.Marks base place) {t : Target} (at_ : (k.targets base)[place]? = some t)
    (inRange : 0 ≤ k.shardIndex) : k.place (k.targets base) = .ok place := by
  obtain ⟨partition, index⟩ := marks t at_
  by_cases plain : t.partition = noVirtualScan
  · obtain ⟨shard, p⟩ := t
    obtain rfl : p = noVirtualScan := plain
    have partition : k.virtualPartition = noVirtualScan := partition
    have front := h.lt_length_shards at_
    have few := length_shards_le base
    rw [index rfl] at inRange
    rw [ContinuationKey.place, if_neg (by simp [ContinuationKey.isVirtual, partition]), index rfl,
      toNat_ofNat_of_le (by omega) inRange]
  · have found : (k.targets base).findIdx? (·.partition = k.virtualPartition) = some place := by
      obtain ⟨bound, same⟩ := List.getElem?_eq_some_iff.1 at_
      refine List.findIdx?_eq_some_iff_getElem.2 ⟨bound, by rw [same, partition]; simp, ?_⟩
      intro j before same'
      have partition' := of_decide_eq_true same'
      rw [partition] at partition'
      -- Two targets of one partition are the same virtual scan.
      have one := mem_targets.1 (List.mem_of_getElem? at_)
      have other := mem_targets.1 (List.getElem_mem (Nat.lt_trans before bound))
      rw [partition'] at other
      obtain ⟨scan, made, target⟩ := one.resolve_left fun base => plain base.2
      obtain ⟨scan', made', target'⟩ := other.resolve_left fun base => plain base.2
      rw [made] at made'
      cases made'
      have inside : j < (k.targets base).length := Nat.lt_trans before bound
      have twice : (k.targets base)[j] = (k.targets base)[place] := by
        rw [same]
        cases h' : (k.targets base)[j]
        cases t
        rw [h'] at target' partition'
        cases partition'
        cases target'.symm.trans target
        rfl
      have := (h.nodup_targets base).getElem_inj_iff.1 twice
      omega
    rw [ContinuationKey.place, if_pos (by simpa [ContinuationKey.isVirtual, partition] using plain),
      found]

theorem Stands.place_eq (h : Stands r k place) {t : Target}
    (at_ : (k.targets r.base)[place]? = some t) (inRange : 0 ≤ k.shardIndex) :
    k.place (k.targets r.base) = .ok place :=
  h.proper.place_eq h.current at_ inRange

/-- A key that moved says that it is at its new target. -/
theorem ContinuationKey.marks_moveTo (k : ContinuationKey) (base : Topology) (place : Nat) :
    (k.moveTo place (k.targets base)).Marks base place := by
  intro t at_
  change (k.targets base)[place]? = some t at at_
  rw [ContinuationKey.moveTo, at_]
  exact ⟨rfl, fun _ => rfl⟩

/-- A key that moved stands at the front of its new target. -/
theorem OnTrack.stands_moveTo (h : OnTrack r k) (place : Nat) :
    Stands r (k.moveTo place (k.targets r.base)) place where
  pinned := h.pinned
  scans := h.scans
  current := k.marks_moveTo r.base place

end Replication.Scan
