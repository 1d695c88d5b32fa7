import Replication.Placement.Topology

/-! # Index entries

A shard's index is ordered by key, then by partition.  An entry's position among all
possible entries is a number below `entryCount`, so a scan that only moves forward ends.
-/

namespace Replication.Scan

open Replication.Placement (PartitionId)

/-- An entry of an index. -/
structure IndexEntry where
  key : Int64
  partition : PartitionId
deriving DecidableEq, Repr

/-- The number of possible entries. -/
def entryCount : Nat := UInt64.size * UInt32.size

namespace IndexEntry

/-- The order of the index. -/
instance : LT IndexEntry where
  lt a b := a.key < b.key ∨ (a.key = b.key ∧ a.partition < b.partition)

instance (a b : IndexEntry) : Decidable (a < b) :=
  inferInstanceAs (Decidable (_ ∨ _))

/-- The number of possible entries in front of an entry. -/
def position (e : IndexEntry) : Nat :=
  ((e.key.toInt - Int64.minValue.toInt) * UInt32.size
    + (e.partition.toInt - Int32.minValue.toInt)).toNat

theorem position_lt (e : IndexEntry) : e.position < entryCount := by
  have h₁ := e.key.toInt_lt
  have h₂ := e.partition.toInt_lt
  have h₃ := e.key.le_toInt
  have h₄ := e.partition.le_toInt
  simp only [position, entryCount, Int64.toInt_minValue, Int32.toInt_minValue, UInt32.size,
    UInt64.size]
  omega

/-- The order of the index is the order of the positions. -/
theorem position_lt_position {a b : IndexEntry} (h : a < b) : a.position < b.position := by
  have h : a.key < b.key ∨ (a.key = b.key ∧ a.partition < b.partition) := h
  have h₁ := a.partition.toInt_lt
  have h₂ := a.partition.le_toInt
  have h₃ := b.partition.toInt_lt
  have h₄ := b.partition.le_toInt
  have h₅ := a.key.le_toInt
  simp only [position, Int64.toInt_minValue, Int32.toInt_minValue, UInt32.size]
  rcases h with h | ⟨hk, h⟩
  · have := Int64.lt_iff_toInt_lt.1 h
    omega
  · have := Int32.lt_iff_toInt_lt.1 h
    rw [hk] at h₅ ⊢
    omega

end IndexEntry

/-- Whether an entry lies behind a resume position, where none is the front of the
    index. -/
def Follows (e : IndexEntry) : Option IndexEntry → Prop
  | none => True
  | some last => last < e

instance (e : IndexEntry) : (after : Option IndexEntry) → Decidable (Follows e after)
  | none => inferInstanceAs (Decidable True)
  | some last => inferInstanceAs (Decidable (last < e))

/-- The number of possible entries behind a resume position. -/
def entriesBehind : Option IndexEntry → Nat
  | none => entryCount
  | some e => entryCount - 1 - e.position

theorem entriesBehind_lt {e : IndexEntry} {after : Option IndexEntry} (h : Follows e after) :
    entriesBehind (some e) < entriesBehind after := by
  have he := e.position_lt
  match after, h with
  | none, _ => simp only [entriesBehind]; omega
  | some last, h =>
    have := IndexEntry.position_lt_position h
    simp only [entriesBehind]
    omega

end Replication.Scan
