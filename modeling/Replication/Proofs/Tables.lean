import Replication.Table

/-! # More about tables

An entry that is there already can be put in again, and the table is the one from before.  A
change adds one entry at most, and takes one out that was there.
-/

namespace Replication.Table

variable {κ α : Type} [DecidableEq κ] [LT κ] [DecidableLT κ] [LE κ] [Std.IsLinearOrder κ]
  [Std.LawfulOrderLT κ]

omit [Std.IsLinearOrder κ] in
theorem insertEntry_of_mem {k : κ} {a : α} {l : List (κ × α)} (ascending : l.Pairwise (·.1 < ·.1))
    (mem : (k, a) ∈ l) : insertEntry k a l = l := by
  induction l with
  | nil => cases mem
  | cons head rest ih =>
    obtain ⟨above, ascending⟩ := List.pairwise_cons.1 ascending
    rw [insertEntry]
    rcases List.mem_cons.1 mem with rfl | later
    · rw [if_neg (Std.lt_irrefl), if_pos rfl]
    · have before : head.1 < k := above _ later
      rw [if_neg (Std.not_gt_of_lt before), if_neg (Std.ne_of_lt before).symm, ih ascending later]

theorem insert_of_get? {t : Table κ α} {k : κ} {a : α} (found : t.get? k = some a) :
    t.insert k a = t := by
  have same : (t.insert k a).entries = t.entries :=
    insertEntry_of_mem t.ascending (get?_eq_some_iff.1 found)
  obtain ⟨entries, ascending⟩ := t
  simp only [insert] at same ⊢
  congr

theorem insert_insert (t : Table κ α) (k : κ) (a : α) : (t.insert k a).insert k a = t.insert k a :=
  insert_of_get? ((get?_insert ..).trans (if_pos rfl))

omit [DecidableLT κ] in
theorem mem_values {t : Table κ α} {a : α} : a ∈ t.values ↔ ∃ k, t.get? k = some a := by
  simp only [values, List.mem_map, Prod.exists, exists_eq_right, get?_eq_some_iff]

/-! ## How many entries there are -/

omit [LE κ] [Std.IsLinearOrder κ] [Std.LawfulOrderLT κ] in
theorem length_insertEntry_le (k : κ) (a : α) (l : List (κ × α)) :
    (insertEntry k a l).length ≤ l.length + 1 := by
  induction l with
  | nil => exact Nat.le_refl _
  | cons head rest ih =>
    rw [insertEntry]
    split
    · exact Nat.le_refl _
    · split
      · exact Nat.le_succ _
      · exact Nat.succ_le_succ ih

theorem length_insert_le (t : Table κ α) (k : κ) (a : α) :
    (t.insert k a).entries.length ≤ t.entries.length + 1 :=
  length_insertEntry_le k a t.entries

omit [DecidableLT κ] in
theorem length_erase_lt {t : Table κ α} {k : κ} {a : α} (found : t.get? k = some a) :
    (t.erase k).entries.length < t.entries.length :=
  List.length_filter_lt_length_iff_exists.2 ⟨(k, a), get?_eq_some_iff.1 found, by simp⟩

omit [DecidableLT κ] [LE κ] [Std.IsLinearOrder κ] [Std.LawfulOrderLT κ] in
@[simp] theorem length_update (t : Table κ α) (k : κ) (f : α → α) :
    (t.update k f).entries.length = t.entries.length :=
  List.length_map _

end Replication.Table
