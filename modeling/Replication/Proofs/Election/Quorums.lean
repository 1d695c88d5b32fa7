import Mathlib.Data.List.Nodup
import Mathlib.Data.List.Perm.Subperm
import Replication.Election.Contest

/-! # Quorums overlap

More than half of the electors are in every quorum, unless the survivor of a group of two
may go on alone.  So any two quorums have an elector in common, whatever their policies.
-/

namespace Replication.Election

/-- A quorum is more than half of a group. -/
theorem Quorum.lt_two_mul_need {q : Quorum} {policy : QuorumPolicy} (h : q.Overlapping policy) :
    q.groupSize < 2 * q.need policy := by
  have positive := q.groupSize_pos
  cases policy with
  | simpleMajority =>
    have notTwo : q.groupSize ≠ 2 := h rfl
    simp only [Quorum.need, if_neg notTwo]
    omega
  | all =>
    simp only [Quorum.need]
    omega

/-- Distinct names from a list, more than half of its length each, have one in common. -/
theorem exists_mem_of_length_lt {α : Type} [DecidableEq α] {names left right : List α}
    (leftNodup : left.Nodup) (rightNodup : right.Nodup) (leftSub : left ⊆ names)
    (rightSub : right ⊆ names) (more : names.length < left.length + right.length) :
    ∃ a, a ∈ left ∧ a ∈ right := by
  by_contra none
  have disjoint : left.Disjoint right := fun a hl hr => none ⟨a, hl, hr⟩
  have nodup : (left ++ right).Nodup := leftNodup.append rightNodup disjoint
  have sub : left ++ right ⊆ names := List.append_subset.2 ⟨leftSub, rightSub⟩
  have bound := (List.subperm_of_subset nodup sub).length_le
  rw [List.length_append] at bound
  omega

/-- Two quorums of electors share an elector. -/
theorem Electors.exists_mem_both (e : Electors) {policy policy' : QuorumPolicy}
    {left right : List Octets} (h : e.quorum.Overlapping policy)
    (h' : e.quorum.Overlapping policy') (leftNodup : left.Nodup) (rightNodup : right.Nodup)
    (leftSub : left ⊆ e.names) (rightSub : right ⊆ e.names)
    (leftMet : e.quorum.need policy ≤ left.length)
    (rightMet : e.quorum.need policy' ≤ right.length) : ∃ a, a ∈ left ∧ a ∈ right := by
  apply exists_mem_of_length_lt leftNodup rightNodup leftSub rightSub
  have half := Quorum.lt_two_mul_need h
  have half' := Quorum.lt_two_mul_need h'
  have fits := e.length_le
  omega

end Replication.Election
