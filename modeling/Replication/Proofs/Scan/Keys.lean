import Mathlib.Algebra.Group.Int.Defs
import Replication.Proofs.Wire.Spelling
import Replication.Scan.Key

/-! # Continuation keys are read back

A key that a client sends back unchanged is the key that it was given, unless the shard
index has become negative.  Other texts may spell a key too, but no part of a spelling does,
nor anything longer, and none is shorter than the one that was handed out.
-/

namespace Replication

/-! ## Tables -/

namespace Table

variable {κ α : Type} [LT κ] [LE κ] [DecidableEq κ] [DecidableLT κ] [Std.IsLinearOrder κ]
  [Std.LawfulOrderLT κ]

/-- A key behind all others goes to the end. -/
theorem insertEntry_of_above {k : κ} {a : α} {l : List (κ × α)}
    (above : ∀ entry ∈ l, entry.1 < k) : insertEntry k a l = l ++ [(k, a)] := by
  induction l with
  | nil => rfl
  | cons entry rest ih =>
    have below := above entry List.mem_cons_self
    rw [insertEntry, if_neg (by grind), if_neg (by grind),
      ih fun entry mem => above entry (List.mem_cons_of_mem _ mem)]
    rfl

omit [LE κ] [Std.IsLinearOrder κ] [Std.LawfulOrderLT κ] in
/-- A key that is not there joins the others. -/
theorem perm_insertEntry_of_fresh {k : κ} {a : α} {l : List (κ × α)}
    (fresh : ∀ entry ∈ l, entry.1 ≠ k) : (insertEntry k a l).Perm ((k, a) :: l) := by
  induction l with
  | nil => exact .refl _
  | cons entry rest ih =>
    have other := fresh entry List.mem_cons_self
    rw [insertEntry]
    split
    · exact .refl _
    · rw [if_neg other.symm]
      exact ((ih fun entry mem => fresh entry (List.mem_cons_of_mem _ mem)).cons entry).trans
        (.swap _ _ _)

end Table

/-- Ascending 32-bit numbers from some number on are no more than there are such numbers. -/
theorem length_le_of_ascending {l : List Int32} (low : Int) (ascending : l.Pairwise (· < ·))
    (from_ : ∀ x ∈ l, low ≤ x.toInt) (inRange : low ≤ 2 ^ 31) :
    (l.length : Int) ≤ 2 ^ 31 - low := by
  induction l generalizing low with
  | nil =>
    rw [List.length_nil]
    omega
  | cons x rest ih =>
    obtain ⟨above, ascending⟩ := List.pairwise_cons.1 ascending
    have least := from_ x List.mem_cons_self
    have bound := x.toInt_lt
    have shorter := ih (x.toInt + 1) ascending
      (fun y mem => Int32.lt_iff_toInt_lt.1 (above y mem)) (by omega)
    rw [List.length_cons]
    omega

/-- A table of 32-bit keys has no more entries than there are keys. -/
theorem Table.length_entries_le {α : Type} (t : Table Int32 α) : t.entries.length ≤ 2 ^ 32 := by
  have bound := length_le_of_ascending (l := t.entries.map (·.1)) (-2 ^ 31)
    (List.pairwise_map.2 t.ascending) (fun x _ => x.le_toInt) (by omega)
  rw [List.length_map] at bound
  omega

namespace Scan

open Replication.Placement (PartitionId)
open Replication.Wire (Reader Settles Spells putBool putPackedLong)

/-! ## Parts of a key -/

namespace KeyReader

variable (rest : Octets)

theorem field_eq_of_ok {α : Type} {r : Reader α} {s s' : Octets} {a : α} (h : r s = .ok a s') :
    field r s = .ok a s' := by
  rw [field, h]

theorem field_eq_ok {α : Type} {r : Reader α} {s s' : Octets} {a : α} (h : field r s = .ok a s') :
    r s = .ok a s' := by
  unfold field at h
  split at h
  next done =>
    cases h
    exact done
  next => cases h

theorem field_remaining (s : Octets) : field Reader.remaining s = .ok s.length s := rfl

theorem packedInt_putPackedInt (item : KeyItem) (v : Int32) :
    packedInt item (putPackedInt v ++ rest) = .ok v rest := by
  have low := v.le_toInt
  have high := v.toInt_lt
  have read := field_eq_of_ok (Reader.packedLong_putPackedLong rest v.toInt64)
  rw [packedInt, putPackedInt, bind_eq_of_ok read, Int32.toInt_toInt64, if_pos ?inRange,
    Int32.toInt32_toInt64]
  · rfl
  · simp only [Int32.toInt_minValue, Int32.toInt_maxValue]
    omega

theorem resume_putResume (position : Option IndexEntry) :
    resume (putResume position ++ rest) = .ok position rest := by
  cases position with
  | none =>
    rw [resume, putResume, bind_eq_of_ok (field_eq_of_ok (Reader.bool_putBool rest false))]
    rfl
  | some e =>
    rw [resume, putResume, List.append_assoc, List.append_assoc,
      bind_eq_of_ok (field_eq_of_ok (Reader.bool_putBool _ true))]
    simp only [if_true]
    rw [bind_eq_of_ok (field_eq_of_ok (Reader.packedLong_putPackedLong _ _)),
      bind_eq_of_ok (packedInt_putPackedInt _ _ _)]
    rfl

/-- The virtual scans that are read join those that were read before. -/
theorem virtualScans_flatMap (t : Table PartitionId VirtualScan)
    (l : List (PartitionId × VirtualScan)) (scans : Table PartitionId VirtualScan)
    (split : scans.entries ++ l = t.entries) :
    virtualScans l.length scans (l.flatMap putScan ++ rest) = .ok t rest := by
  induction l generalizing scans with
  | nil =>
    obtain ⟨entries, ascending⟩ := t
    obtain ⟨entries', ascending'⟩ := scans
    obtain rfl : entries' = entries := (List.append_nil _).symm.trans split
    rfl
  | cons entry l ih =>
    obtain ⟨p, target, position⟩ := entry
    have ascending := t.ascending
    rw [← split] at ascending
    -- A table is in the order of its keys, so each scan is put behind those read before it.
    have above : ∀ entry ∈ scans.entries, entry.1 < p := fun entry mem =>
      (List.pairwise_append.1 ascending).2.2 entry mem _ List.mem_cons_self
    have fresh : scans.contains p = false := by
      simp only [Table.contains, List.any_eq_false, decide_eq_true_eq]
      intro entry mem same
      have below := above entry mem
      rw [same] at below
      exact absurd below (Std.lt_irrefl)
    have inserted : (scans.insert p { target, resume := position }).entries =
        scans.entries ++ [(p, { target, resume := position })] :=
      Table.insertEntry_of_above above
    rw [List.length_cons, virtualScans, List.flatMap_cons, putScan, List.append_assoc,
      List.append_assoc, List.append_assoc, bind_eq_of_ok (packedInt_putPackedInt _ _ _),
      bind_eq_of_ok (packedInt_putPackedInt _ _ _), bind_eq_of_ok (resume_putResume _ _)]
    simp only [fresh]
    exact ih _ (by rw [inserted, List.append_assoc]; exact split)

/-- A virtual scan takes three bytes at least. -/
theorem length_flatMap_putScan (l : List (PartitionId × VirtualScan)) :
    3 * l.length ≤ (l.flatMap putScan).length := by
  have long (v : Int64) : 1 ≤ (putPackedLong v).length := by
    unfold putPackedLong
    dsimp only
    split <;> simp
  have position (e : Option IndexEntry) : 1 ≤ (putResume e).length := by
    cases e <;> simp [putResume, putBool]
  induction l with
  | nil => simp
  | cons entry l ih =>
    have first := long entry.1.toInt64
    have second := long entry.2.target.toInt64
    have third := position entry.2.resume
    simp only [List.length_cons, List.flatMap_cons, putScan, putPackedInt, List.length_append]
    omega

/-! ## Spellings of a key -/

theorem settles_field {α : Type} {r : Reader α} {write : α → Octets} (h : Settles r write) :
    Settles (field r) write := by
  intro s s' a read
  obtain ⟨text, split, spells, size⟩ := h (field_eq_ok read)
  exact ⟨text, split, fun rest => field_eq_of_ok (spells rest), size⟩

theorem settles_packedInt (item : KeyItem) : Settles (packedInt item) putPackedInt := by
  intro s s' v read
  obtain ⟨w, s₁, first, done⟩ := bind_eq_ok read
  obtain ⟨text, rfl, spells, size⟩ := settles_field Reader.settles_packedLong first
  split at done
  next inRange =>
    obtain ⟨rfl, rfl⟩ := pure_eq_ok done
    have same : w.toInt32.toInt64 = w := by
      simp only [Int32.toInt_minValue, Int32.toInt_maxValue] at inRange
      apply Int64.toInt_inj.1
      rw [Int32.toInt_toInt64, Int64.toInt_toInt32, Int.bmod_eq_of_le] <;> omega
    refine ⟨text, rfl, fun rest => ?_, by rw [putPackedInt, same]; exact size⟩
    rw [packedInt, bind_eq_of_ok (spells rest), if_pos inRange]
    rfl
  next => cases done

theorem settles_resume : Settles resume putResume := by
  intro s s' position read
  obtain ⟨there, s₁, first, done⟩ := bind_eq_ok read
  obtain ⟨flag, rfl, spells, size⟩ := settles_field Reader.settles_bool first
  cases there with
  | false =>
    obtain ⟨rfl, rfl⟩ := pure_eq_ok done
    exact ⟨flag, rfl, fun rest => bind_eq_of_ok (spells rest), size⟩
  | true =>
    obtain ⟨key, s₂, second, others⟩ := bind_eq_ok done
    obtain ⟨text, rfl, spells', size'⟩ := settles_field Reader.settles_packedLong second
    obtain ⟨partition, s₃, third, last⟩ := bind_eq_ok others
    obtain ⟨text', rfl, spells'', size''⟩ := settles_packedInt .partition third
    obtain ⟨rfl, rfl⟩ := pure_eq_ok last
    refine ⟨flag ++ (text ++ (text' ++ [])), by simp, ?_, ?_⟩
    · exact .bind spells (.bind spells' (.bind spells'' (.pure _)))
    · simp only [putResume, putBool, List.length_append, List.length_singleton,
        List.length_nil] at size ⊢
      omega

/-- The virtual scans that are read are as many as were asked for, besides those that were
    read before, and none is longer than it was when it was written. -/
theorem virtualScans_eq_ok {count : Nat} {scans t : Table PartitionId VirtualScan}
    {s s' : Octets} (read : virtualScans count scans s = .ok t s') :
    t.entries.length = scans.entries.length + count ∧
      ∃ text, s = text ++ s' ∧ Spells (virtualScans count scans) text t ∧
        (t.entries.flatMap putScan).length ≤
          (scans.entries.flatMap putScan).length + text.length := by
  induction count generalizing scans s with
  | zero =>
    obtain ⟨rfl, rfl⟩ := pure_eq_ok read
    exact ⟨rfl, [], rfl, .pure _, Nat.le_refl _⟩
  | succ count ih =>
    obtain ⟨p, s₁, first, behind₁⟩ := bind_eq_ok read
    obtain ⟨text₁, rfl, spells₁, size₁⟩ := settles_packedInt .partition first
    obtain ⟨target, s₂, second, behind₂⟩ := bind_eq_ok behind₁
    obtain ⟨text₂, rfl, spells₂, size₂⟩ := settles_packedInt .shard second
    obtain ⟨position, s₃, third, behind₃⟩ := bind_eq_ok behind₂
    obtain ⟨text₃, rfl, spells₃, size₃⟩ := settles_resume third
    obtain ⟨absent, behind₄⟩ := guard_eq_ok behind₃
    obtain ⟨length, text₄, rfl, spells₄, size₄⟩ := ih behind₄
    -- A partition is read at most once, so nothing that was read before is lost.
    have fresh : ∀ entry ∈ scans.entries, entry.1 ≠ p := fun entry mem same =>
      absent (List.any_eq_true.2 ⟨entry, mem, decide_eq_true same⟩)
    have joined : (scans.insert p { target, resume := position }).entries.Perm _ :=
      Table.perm_insertEntry_of_fresh fresh
    rw [joined.length_eq, List.length_cons] at length
    rw [(joined.flatMap_right putScan).length_eq, List.flatMap_cons, putScan] at size₄
    refine ⟨by omega, text₁ ++ (text₂ ++ (text₃ ++ text₄)), by simp, ?_, ?_⟩
    · refine .bind spells₁ (.bind spells₂ (.bind spells₃ ?_))
      intro rest
      simp only [absent]
      exact spells₄ rest
    · simp only [List.length_append] at size₄ ⊢
      omega

/-- The texts of the parts of a key, behind its first byte. -/
structure Spelling where
  topology : Octets
  shardIndex : Octets
  virtualPartition : Octets
  resume : Octets
  count : Octets
  scans : Octets

namespace Spelling

/-- The text of a whole key. -/
def text (p : Spelling) : Octets :=
  keyFormat :: (p.topology ++ (p.shardIndex ++ (p.virtualPartition ++ (p.resume ++
    (p.count ++ p.scans)))))

/-- Whether the parts spell those of a key, whose virtual scans have the room that they
    need. -/
structure Of (p : Spelling) (k : ContinuationKey) : Prop where
  topology : Spells (field Reader.packedLong) p.topology k.topology
  shardIndex : Spells (packedInt .shardIndex) p.shardIndex k.shardIndex
  virtualPartition : Spells (packedInt .virtualPartition) p.virtualPartition k.virtualPartition
  resume : Spells KeyReader.resume p.resume k.resume
  count : Spells (field Reader.packedLong) p.count (Int64.ofNat k.virtualScans.entries.length)
  room : 3 * k.virtualScans.entries.length ≤ p.scans.length
  scans : Spells (KeyReader.virtualScans k.virtualScans.entries.length .empty) p.scans
    k.virtualScans

/-- What is read of a spelling that something may follow: the whole key, and then the shard
    index is looked at. -/
theorem Of.key {p : Spelling} {k : ContinuationKey} (h : p.Of k) (rest : Octets) :
    KeyReader.key (p.text ++ rest) =
      if rest ≠ [] then .error (.trailing rest.length) rest
      else if k.shardIndex < 0 then .error (.negativeIndex k.shardIndex) [] else .ok k [] := by
  have count :
      (Int64.ofNat k.virtualScans.entries.length).toInt = k.virtualScans.entries.length := by
    have bound := k.virtualScans.length_entries_le
    rw [← Int64.ofInt_eq_ofNat, Int64.toInt_ofInt_of_le (by omega) (by omega)]
  have room := h.room
  have length : (p.scans ++ rest).length = p.scans.length + rest.length := List.length_append
  simp only [text, List.cons_append, List.append_assoc]
  rw [KeyReader.key, bind_eq_of_ok (field_eq_of_ok (Reader.byte_cons _ _))]
  simp only [ne_eq, not_true_eq_false, if_false]
  rw [bind_eq_of_ok (h.topology _), bind_eq_of_ok (h.shardIndex _),
    bind_eq_of_ok (h.virtualPartition _), bind_eq_of_ok (h.resume _), bind_eq_of_ok (h.count _),
    bind_eq_of_ok (field_remaining _), count, length, if_neg (by omega), Int.toNat_natCast,
    bind_eq_of_ok (h.scans rest), bind_eq_of_ok (field_remaining _)]
  -- Bytes behind the key are reported before its shard index is looked at.
  by_cases more : rest = []
  · subst more
    rw [List.length_nil, if_neg (not_not_intro rfl), if_neg (not_not_intro rfl)]
    by_cases negative : k.shardIndex < 0
    · rw [if_pos negative, if_pos negative]
      rfl
    · rw [if_neg negative, if_neg negative]
      rfl
  · rw [if_pos more, if_pos fun none => more (List.length_eq_zero_iff.1 none)]
    rfl

/-- The parts of a key as they are written. -/
def written (k : ContinuationKey) : Spelling where
  topology := putPackedLong k.topology
  shardIndex := putPackedInt k.shardIndex
  virtualPartition := putPackedInt k.virtualPartition
  resume := putResume k.resume
  count := putPackedLong (Int64.ofNat k.virtualScans.entries.length)
  scans := k.virtualScans.entries.flatMap putScan

theorem text_written (k : ContinuationKey) : (written k).text = k.write := by
  simp only [text, written, ContinuationKey.write, List.cons_append, List.append_assoc]

theorem of_written (k : ContinuationKey) : (written k).Of k where
  topology rest := field_eq_of_ok (Reader.packedLong_putPackedLong rest _)
  shardIndex rest := packedInt_putPackedInt rest _ _
  virtualPartition rest := packedInt_putPackedInt rest _ _
  resume rest := resume_putResume rest _
  count rest := field_eq_of_ok (Reader.packedLong_putPackedLong rest _)
  room := length_flatMap_putScan k.virtualScans.entries
  scans rest := virtualScans_flatMap rest k.virtualScans k.virtualScans.entries .empty rfl

end Spelling

/-- The whole key is read, and then its shard index is looked at. -/
theorem key_write (k : ContinuationKey) :
    key k.write =
      if k.shardIndex < 0 then .error (.negativeIndex k.shardIndex) [] else .ok k [] := by
  have read := (Spelling.of_written k).key []
  rwa [List.append_nil, Spelling.text_written, if_neg (not_not_intro rfl)] at read

/-- Nothing but a spelling is read as a key, and none is shorter than what was written. -/
theorem key_eq_ok {s s' : Octets} {k : ContinuationKey} (read : key s = .ok k s') :
    0 ≤ k.shardIndex ∧ ∃ p : Spelling, s = p.text ∧ p.Of k ∧ k.write.length ≤ s.length := by
  obtain ⟨format, s₁, first, behind₁⟩ := bind_eq_ok read
  obtain rfl := Reader.byte_eq_ok (field_eq_ok first)
  obtain ⟨known, behind₂⟩ := guard_eq_ok behind₁
  obtain ⟨topology, s₂, second, behind₃⟩ := bind_eq_ok behind₂
  obtain ⟨text₁, rfl, spells₁, size₁⟩ := settles_field Reader.settles_packedLong second
  obtain ⟨index, s₃, third, behind₄⟩ := bind_eq_ok behind₃
  obtain ⟨text₂, rfl, spells₂, size₂⟩ := settles_packedInt .shardIndex third
  obtain ⟨partition, s₄, fourth, behind₅⟩ := bind_eq_ok behind₄
  obtain ⟨text₃, rfl, spells₃, size₃⟩ := settles_packedInt .virtualPartition fourth
  obtain ⟨position, s₅, fifth, behind₆⟩ := bind_eq_ok behind₅
  obtain ⟨text₄, rfl, spells₄, size₄⟩ := settles_resume fifth
  obtain ⟨count, s₆, sixth, behind₇⟩ := bind_eq_ok behind₆
  obtain ⟨text₅, rfl, spells₅, size₅⟩ := settles_field Reader.settles_packedLong sixth
  rw [bind_eq_of_ok (field_remaining _)] at behind₇
  obtain ⟨enough, behind₈⟩ := guard_eq_ok behind₇
  obtain ⟨scans, s₇, seventh, behind₉⟩ := bind_eq_ok behind₈
  obtain ⟨length, text₆, rfl, spells₆, size₆⟩ := virtualScans_eq_ok seventh
  rw [bind_eq_of_ok (field_remaining _)] at behind₉
  obtain ⟨whole, last⟩ := guard_eq_ok behind₉
  obtain ⟨notNegative, done⟩ := guard_eq_ok last
  obtain ⟨rfl, rfl⟩ := pure_eq_ok done
  -- Nothing is left, so the virtual scans have the room that was looked for.
  obtain rfl : s₇ = [] := List.length_eq_zero_iff.1 (Decidable.not_not.1 whole)
  obtain rfl : format = keyFormat := Decidable.not_not.1 known
  have entries : scans.entries.length = count.toInt.toNat := by
    rw [length, Table.empty, List.length_nil, Nat.zero_add]
  have same : Int64.ofNat scans.entries.length = count := by
    rw [entries, ← Int64.ofInt_eq_ofNat, Int.toNat_of_nonneg (by omega), Int64.ofInt_toInt]
  rw [← entries] at spells₆
  rw [List.append_nil] at enough ⊢
  refine ⟨by grind, ⟨text₁, text₂, text₃, text₄, text₅, text₆⟩, rfl,
    ⟨spells₁, spells₂, spells₃, spells₄, same ▸ spells₅, by dsimp only; omega, spells₆⟩, ?_⟩
  simp only [Table.empty, List.flatMap_nil, List.length_nil] at size₆
  simp only [ContinuationKey.write, same, List.length_append, List.length_cons]
  omega

end KeyReader

/-- A key whose shard index is not negative is read back. -/
theorem ContinuationKey.parse_write {k : ContinuationKey} (h : 0 ≤ k.shardIndex) :
    ContinuationKey.parse k.write = .ok k := by
  rw [parse, KeyReader.key_write, if_neg (by grind)]

/-- No other key can be written and read. -/
theorem ContinuationKey.parse_write_of_neg {k : ContinuationKey} (h : k.shardIndex < 0) :
    ContinuationKey.parse k.write = .error (.negativeIndex k.shardIndex) := by
  rw [parse, KeyReader.key_write, if_pos h]

/-- A text that is a key spells it, and the bytes that the key was handed out as are no more. -/
theorem ContinuationKey.parse_eq_ok {s : Octets} {k : ContinuationKey} (read : parse s = .ok k) :
    0 ≤ k.shardIndex ∧ ∃ p : KeyReader.Spelling, s = p.text ∧ p.Of k ∧
      k.write.length ≤ s.length := by
  rw [parse] at read
  split at read
  next k' s' done =>
    cases read
    exact KeyReader.key_eq_ok done
  next => cases read

/-- Nothing may follow a key. -/
theorem ContinuationKey.parse_append {s rest : Octets} {k : ContinuationKey}
    (read : parse s = .ok k) (more : rest ≠ []) :
    parse (s ++ rest) = .error (.trailing rest.length) := by
  obtain ⟨-, p, rfl, spells, -⟩ := parse_eq_ok read
  rw [parse, spells.key, if_pos more]

/-- A key that may be handed out is read back from its bytes, from all of them and from
    nothing more.  Whatever bytes a client sends, they are refused, or they are some key that
    may be handed out, with one virtual scan at most of each partition, and in no more bytes. -/
theorem ContinuationKey.parse_exact :
    (∀ k : ContinuationKey, 0 ≤ k.shardIndex →
      parse k.write = .ok k ∧
      (∀ part rest, rest ≠ [] → part ++ rest = k.write → ∃ e, parse part = .error e) ∧
      ∀ rest, rest ≠ [] → parse (k.write ++ rest) = .error (.trailing rest.length)) ∧
    ∀ s : Octets, (∃ e, parse s = .error e) ∨
      ∃ k : ContinuationKey, parse s = .ok k ∧ 0 ≤ k.shardIndex ∧ k.virtualScans.keys.Nodup ∧
        parse k.write = .ok k ∧ k.write.length ≤ s.length := by
  refine ⟨fun k placed => ?_, fun s => ?_⟩
  · have back := parse_write placed
    refine ⟨back, fun part rest more whole => ?_, fun rest more => parse_append back more⟩
    cases read : parse part with
    | error e => exact ⟨e, rfl⟩
    | ok k' =>
      -- What follows a key is refused, but the whole is a key.
      have refused := parse_append read more
      rw [whole, back] at refused
      cases refused
  · cases read : parse s with
    | error e => exact .inl ⟨e, rfl⟩
    | ok k =>
      obtain ⟨placed, p, -, -, size⟩ := parse_eq_ok read
      exact .inr ⟨k, rfl, placed, k.virtualScans.nodup_keys, parse_write placed, size⟩

/-- A key in the middle of a virtual scan, with the scan of another partition still to come. -/
def migratedKey : ContinuationKey where
  topology := Int64.minValue
  shardIndex := Int32.maxValue
  virtualPartition := 1
  resume := some { key := 120, partition := -120 }
  virtualScans := .ofList [(1, { target := 2 }),
    (Int32.minValue, { target := 0, resume := some { key := Int64.maxValue, partition := 7 } })]

/-- It is read back, but not without its last byte. -/
theorem ContinuationKey.parse_exact_migratedKey :
    0 ≤ migratedKey.shardIndex ∧ parse migratedKey.write = .ok migratedKey ∧
      ∃ e, parse migratedKey.write.dropLast = .error e :=
  have placed : 0 ≤ migratedKey.shardIndex := by decide
  have strict := parse_exact.1 migratedKey placed
  have nonempty : migratedKey.write ≠ [] := List.cons_ne_nil _ _
  ⟨placed, strict.1,
    strict.2.1 _ _ (List.cons_ne_nil _ []) (List.dropLast_concat_getLast nonempty)⟩

end Scan

end Replication
