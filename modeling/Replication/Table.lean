import Replication.Octets.Basic

/-! # Tables

A finite map whose entries stand in ascending order of their keys.  The order is part of
the type, so two tables of the same entries are equal, and each operation is described
by what `Table.get?` finds afterwards.
-/

namespace Replication

/-- Values by key, ascending. -/
structure Table (κ α : Type) [LT κ] where
  entries : List (κ × α)
  ascending : entries.Pairwise (·.1 < ·.1)
deriving DecidableEq, Repr

namespace Table

variable {κ α β : Type} [LT κ]

/-- The table without entries. -/
def empty : Table κ α where
  entries := []
  ascending := List.Pairwise.nil

instance : Inhabited (Table κ α) := ⟨empty⟩

section Lookup

variable [DecidableEq κ]

/-- The value of a key. -/
def get? (t : Table κ α) (k : κ) : Option α :=
  (t.entries.find? (·.1 = k)).map (·.2)

def contains (t : Table κ α) (k : κ) : Bool :=
  t.entries.any (·.1 = k)

end Lookup

/-- The keys, ascending. -/
def keys (t : Table κ α) : List κ :=
  t.entries.map (·.1)

/-- The values, in the order of their keys. -/
def values (t : Table κ α) : List α :=
  t.entries.map (·.2)

/-! ## Changes that keep the keys or drop some -/

/-- Removes a key. -/
def erase [DecidableEq κ] (t : Table κ α) (k : κ) : Table κ α where
  entries := t.entries.filter (·.1 ≠ k)
  ascending := t.ascending.filter _

/-- Applies a function to every value. -/
def map (f : α → β) (t : Table κ α) : Table κ β where
  entries := t.entries.map fun entry => (entry.1, f entry.2)
  ascending := List.pairwise_map.2 t.ascending

/-- Applies a function to the value of a key. -/
def update [DecidableEq κ] (t : Table κ α) (k : κ) (f : α → α) : Table κ α where
  entries := t.entries.map fun entry => (entry.1, if entry.1 = k then f entry.2 else entry.2)
  ascending := List.pairwise_map.2 t.ascending

/-! ## Insertion -/

section Insertion

variable [DecidableEq κ] [DecidableLT κ]

/-- Puts an entry where its key belongs in a list of ascending keys. -/
def insertEntry (k : κ) (a : α) : List (κ × α) → List (κ × α)
  | [] => [(k, a)]
  | entry :: rest =>
    if k < entry.1 then (k, a) :: entry :: rest
    else if k = entry.1 then (k, a) :: rest
    else entry :: insertEntry k a rest

theorem eq_or_mem_of_mem_insertEntry {k : κ} {a : α} {entry : κ × α} {l : List (κ × α)}
    (h : entry ∈ insertEntry k a l) : entry = (k, a) ∨ entry ∈ l := by
  induction l with
  | nil => simpa [insertEntry] using h
  | cons head rest ih =>
    simp only [insertEntry] at h
    split at h
    · simpa using h
    · split at h <;> grind

variable [LE κ] [Std.IsLinearOrder κ] [Std.LawfulOrderLT κ]

theorem pairwise_insertEntry (k : κ) (a : α) {l : List (κ × α)}
    (h : l.Pairwise (·.1 < ·.1)) : (insertEntry k a l).Pairwise (·.1 < ·.1) := by
  induction l with
  | nil => simp [insertEntry]
  | cons head rest ih =>
    obtain ⟨above, ascending⟩ := List.pairwise_cons.1 h
    unfold insertEntry
    split
    case isTrue before =>
      refine List.pairwise_cons.2 ⟨fun entry mem => ?_, h⟩
      rcases List.mem_cons.1 mem with rfl | mem
      · exact before
      · exact Std.lt_trans before (above entry mem)
    case isFalse notBefore =>
      split
      case isTrue same =>
        exact List.pairwise_cons.2 ⟨fun entry mem => same ▸ above entry mem, ascending⟩
      case isFalse other =>
        refine List.pairwise_cons.2 ⟨fun entry mem => ?_, ih ascending⟩
        rcases eq_or_mem_of_mem_insertEntry mem with rfl | mem
        · grind
        · exact above entry mem

/-- Sets the value of a key. -/
def insert (t : Table κ α) (k : κ) (a : α) : Table κ α where
  entries := insertEntry k a t.entries
  ascending := pairwise_insertEntry k a t.ascending

/-- The table of some pairs, of which a later one replaces an earlier one of the same
    key. -/
def ofList (pairs : List (κ × α)) : Table κ α :=
  pairs.foldl (fun t entry => t.insert entry.1 entry.2) empty

end Insertion

/-! ## What a key finds after a change -/

section Lookup

variable [DecidableEq κ]

@[simp] theorem get?_empty (k : κ) : (empty : Table κ α).get? k = none := rfl

/-- A key is there if it has a value. -/
theorem contains_eq_isSome (t : Table κ α) (k : κ) : t.contains k = (t.get? k).isSome := by
  rw [contains, get?, Option.isSome_map, List.isSome_find?]

/-- A key finds just the value that stands beside it. -/
theorem get?_eq_some_iff [LE κ] [Std.IsLinearOrder κ] [Std.LawfulOrderLT κ] {t : Table κ α} {k : κ}
    {a : α} : t.get? k = some a ↔ (k, a) ∈ t.entries := by
  obtain ⟨entries, ascending⟩ := t
  simp only [get?]
  induction entries with
  | nil => simp
  | cons entry rest ih =>
    obtain ⟨above, rest_ascending⟩ := List.pairwise_cons.1 ascending
    obtain ⟨j, b⟩ := entry
    by_cases same : j = k
    · subst same
      rw [List.find?_cons_of_pos (by simp), Option.map_some, Option.some.injEq, List.mem_cons]
      constructor
      · rintro rfl
        exact .inl rfl
      · rintro (same | mem)
        · exact (Prod.mk.inj same).2.symm
        · exact absurd (above _ mem) (by grind)
    · rw [List.find?_cons_of_neg (by simpa using same), ih rest_ascending, List.mem_cons]
      exact ⟨.inr, fun mem => mem.resolve_left fun pair => same (Prod.mk.inj pair).1.symm⟩

@[simp] theorem get?_erase (t : Table κ α) (k j : κ) :
    (t.erase k).get? j = if j = k then none else t.get? j := by
  simp only [get?, erase, List.find?_filter]
  split <;> rename_i h <;> grind

@[simp] theorem get?_map (f : α → β) (t : Table κ α) (k : κ) :
    (t.map f).get? k = (t.get? k).map f := by
  simp [get?, map, List.find?_map, Function.comp_def]

@[simp] theorem get?_update (t : Table κ α) (k j : κ) (f : α → α) :
    (t.update k f).get? j = if j = k then (t.get? j).map f else t.get? j := by
  simp only [get?, update, List.find?_map, Function.comp_def]
  cases found : t.entries.find? (·.1 = j) with
  | none => simp
  | some entry =>
    have same : entry.1 = j := by simpa using List.find?_some found
    simp only [Option.map_some, same]
    split <;> rfl

theorem find?_insertEntry [DecidableLT κ] (k j : κ) (a : α) (l : List (κ × α)) :
    (insertEntry k a l).find? (·.1 = j)
      = if j = k then some (k, a) else l.find? (·.1 = j) := by
  induction l with
  | nil => grind [insertEntry]
  | cons head rest ih => grind [insertEntry]

@[simp] theorem get?_insert [DecidableLT κ] [LE κ] [Std.IsLinearOrder κ] [Std.LawfulOrderLT κ]
    (t : Table κ α) (k j : κ) (a : α) :
    (t.insert k a).get? j = if j = k then some a else t.get? j := by
  simp only [get?, insert, find?_insertEntry]
  split <;> rfl

section Keys

variable [LE κ] [Std.IsLinearOrder κ] [Std.LawfulOrderLT κ]

/-- The keys are those that find a value. -/
theorem mem_keys {t : Table κ α} {k : κ} : k ∈ t.keys ↔ ∃ a, t.get? k = some a := by
  simp only [keys, List.mem_map, Prod.exists, exists_and_right, exists_eq_right, get?_eq_some_iff]

omit [DecidableEq κ] in
theorem nodup_keys (t : Table κ α) : t.keys.Nodup :=
  List.pairwise_map.2 (t.ascending.imp fun below same => by grind)

/-- The keys of a table of pairs are the first parts of the pairs. -/
theorem mem_keys_ofList [DecidableLT κ] {pairs : List (κ × α)} {k : κ} :
    k ∈ (ofList pairs).keys ↔ ∃ a, (k, a) ∈ pairs := by
  suffices joined : ∀ (pairs : List (κ × α)) (t : Table κ α),
      k ∈ (pairs.foldl (fun t entry => t.insert entry.1 entry.2) t).keys ↔
        k ∈ t.keys ∨ ∃ a, (k, a) ∈ pairs by
    rw [ofList, joined]
    simp [keys, empty]
  intro pairs
  induction pairs with
  | nil => simp
  | cons pair pairs ih =>
    intro t
    obtain ⟨j, b⟩ := pair
    rw [List.foldl_cons, ih, mem_keys, mem_keys]
    simp only [get?_insert, List.mem_cons, Prod.mk.injEq]
    by_cases same : k = j
    · subst same
      simp
    · simp [same]

end Keys

end Lookup

end Table

end Replication
