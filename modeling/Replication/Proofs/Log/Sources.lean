import Replication.Log.Source
import Replication.Proofs.Computations

/-! # What a source fetches

Asked for one record after the other, a source delivers them in the order of the log, each
as soon as it is durable, and its range keeps the cleaner from the files that are still to
be read.
-/

namespace Replication.Log

/-! ## Parts of the log -/

namespace CommitLog

def positioned (log : CommitLog) : List Positioned :=
  log.records.mapIdx fun position record => { record, position }

/-- The records from one vlsn up to another one. -/
def between (log : CommitLog) (first last : Nat) : List Positioned :=
  (log.positioned.take last).drop (first - 1)

variable {log : CommitLog} {first last : Nat}

theorem between_of_lt (empty : last < first) : log.between first last = [] := by
  rw [between, List.drop_eq_nil_iff, List.length_take]
  omega

theorem between_succ {r : Record} (within : first ≤ last + 1)
    (there : log.records[last]? = some r) :
    log.between first (last + 1) = log.between first last ++ [⟨r, last⟩] := by
  obtain ⟨inside, -⟩ := List.getElem?_eq_some_iff.1 there
  have found : log.positioned[last]? = some ⟨r, last⟩ := by
    simp [positioned, there]
  have length : (log.positioned.take last).length = last := by
    rw [List.length_take, positioned, List.length_mapIdx]
    omega
  rw [between, between, List.take_add_one, found, List.drop_append_of_le_length (by omega)]
  rfl

theorem mem_between {r : Positioned} : r ∈ log.between (first + 1) last ↔
    first ≤ r.position ∧ r.position < last ∧ log.records[r.position]? = some r.record := by
  have found (i : Nat) : (log.between (first + 1) last)[i]? =
      if first + i < last then log.records[first + i]?.map fun record => ⟨record, first + i⟩
      else none := by
    rw [between, List.getElem?_drop, Nat.add_sub_cancel, List.getElem?_take]
    simp [positioned]
  rw [List.mem_iff_getElem?]
  constructor
  · rintro ⟨i, there⟩
    rw [found] at there
    split at there
    next inside =>
      obtain ⟨record, present, rfl⟩ := Option.map_eq_some_iff.1 there
      exact ⟨Nat.le_add_right _ _, inside, present⟩
    next => cases there
  · rintro ⟨later, before, there⟩
    refine ⟨r.position - first, ?_⟩
    rw [found, Nat.add_sub_cancel' later, if_pos before, there]
    rfl

/-! ## Logs that grow -/

/-- Whether a log holds all that another one does, and has it durable. -/
structure Extends (log' log : CommitLog) : Prop where
  records : log.records <+: log'.records
  durable : log.durable ≤ log'.durable

theorem Extends.refl (log : CommitLog) : log.Extends log :=
  ⟨List.prefix_refl _, Nat.le_refl _⟩

theorem Extends.trans {log₁ log₂ log₃ : CommitLog} (later : log₃.Extends log₂)
    (sooner : log₂.Extends log₁) : log₃.Extends log₁ :=
  ⟨sooner.records.trans later.records, Nat.le_trans sooner.durable later.durable⟩

theorem extends_append (r : Record) : (log.append r).Extends log :=
  ⟨List.prefix_append _ _, Nat.le_refl _⟩

theorem extends_markDurable {vlsn : Int} {log' : CommitLog}
    (done : log.markDurable vlsn = .ok log') : log'.Extends log := by
  unfold markDurable at done
  split at done
  · cases done
    exact ⟨List.prefix_refl _, Nat.le_max_left _ _⟩
  · cases done

theorem extends_clean (p : FileProtector) : (log.clean p).Extends log :=
  ⟨List.prefix_refl _, Nat.le_refl _⟩

theorem between_prefix (first : Nat) {last last' : Nat} (le : last ≤ last') :
    log.between first last <+: log.between first last' := by
  obtain ⟨later, whole⟩ := List.take_prefix_take_left (l := log.positioned) le
  rw [between, between]
  exact ⟨_, by rw [← List.drop_append, whole]⟩

theorem Extends.getElem?_eq {log' : CommitLog} (h : log'.Extends log) {position : Nat} {r : Record}
    (there : log.records[position]? = some r) : log'.records[position]? = some r := by
  obtain ⟨inside, rfl⟩ := List.getElem?_eq_some_iff.1 there
  rw [h.records.getElem inside]
  exact List.getElem?_eq_getElem (Nat.lt_of_lt_of_le inside h.records.length_le)

theorem Extends.between_eq {log' : CommitLog} (h : log'.Extends log) (first : Nat)
    (inside : last ≤ log.records.length) : log'.between first last = log.between first last := by
  obtain ⟨more, longer⟩ := h.records
  have length : log.positioned.length = log.records.length := by simp [positioned]
  have parts : ∃ rest, log'.positioned = log.positioned ++ rest := by
    rw [positioned, positioned, ← longer, List.mapIdx_append]
    exact ⟨_, rfl⟩
  obtain ⟨rest, parts⟩ := parts
  rw [between, between, parts, List.take_append_of_le_length (by omega)]

/-- The durable records of a log stay the first ones of what it grows to. -/
theorem Extends.between_prefix {log' : CommitLog} (h : log'.Extends log) (first : Nat) :
    log.between first log.durable <+: log'.between first log'.durable := by
  rw [← h.between_eq first log.durable_le]
  exact CommitLog.between_prefix first h.durable

/-! ## Files -/

theorem fileOf_le {position later : Int} (nonneg : 0 ≤ position) (le : position ≤ later) :
    log.fileOf position ≤ log.fileOf later := by
  rw [fileOf, fileOf, Int.tdiv_eq_ediv_of_nonneg nonneg, Int.tdiv_eq_ediv_of_nonneg (by omega)]
  exact Int.ediv_le_ediv (Int.natCast_pos.2 log.recordsPerFile_pos) le

theorem cleanLimit_le_current (log : CommitLog) (p : FileProtector) :
    log.cleanLimit p ≤ log.fileOf log.durable := by
  unfold cleanLimit
  dsimp only
  split
  · exact Int.min_le_right _ _
  · exact Int.le_refl _

theorem cleanLimit_le_start (log : CommitLog) {p : FileProtector} {range : FileRange}
    (registered : range ∈ p.ranges.values) : log.cleanLimit p ≤ range.start := by
  have mem : range.start ∈ p.ranges.values.map (·.start) := List.mem_map_of_mem registered
  obtain ⟨least, found⟩ := Option.isSome_iff_exists.1 (List.isSome_min?_of_mem mem)
  have below : least ≤ range.start := (List.min?_eq_some_iff.1 found).2 _ mem
  rw [cleanLimit, FileProtector.least?, found]
  exact Int.le_trans (Int.min_le_left _ _) below

/-- The cleaner keeps the files of a registered range. -/
theorem firstFile_clean {p : FileProtector} {id : Nat} {range : FileRange}
    (registered : p.ranges.get? id = some range) (kept : (log.firstFile : Int) ≤ range.start) :
    ((log.clean p).firstFile : Int) ≤ range.start := by
  have limit : log.cleanLimit p ≤ range.start :=
    log.cleanLimit_le_start (List.mem_map.2 ⟨(id, range), Table.get?_eq_some_iff.1 registered, rfl⟩)
  simp only [clean]
  omega

end CommitLog

namespace Cursor

variable {log : CommitLog} {c : Cursor}

theorem readUntil_of_nothing (nothing : log.read (c.next - 1) = .ok none) (vlsn : Int) :
    readUntil log vlsn c = .ok none c := by
  rw [readUntil]
  split
  next failed => rw [nothing] at failed; cases failed
  next => rfl
  next found => rw [nothing] at found; cases found

theorem readUntil_of_found {r : Positioned} (found : log.read (c.next - 1) = .ok (some r))
    (vlsn : Int) : readUntil log vlsn c =
      if r.vlsn = vlsn then .ok (some r) (c.pass log r) else readUntil log vlsn (c.pass log r) := by
  rw [readUntil]
  split
  next failed => rw [found] at failed; cases failed
  next nothing => rw [found] at nothing; cases nothing
  next found' =>
    rw [found] at found'
    cases found'
    rfl

end Cursor

/-! ## Sources that stand in front of a record -/

/-- A source whose cursor is behind the first `n` records of the log, with a range that
    covers what comes. -/
structure Source.Behind (log : CommitLog) (n : Nat) (c : Custody) : Prop where
  cursor : c.source.cursor.next = n + 1
  range : ∃ id range, c.source.range = .active id ∧ c.protector.ranges.get? id = some range ∧
    (log.firstFile : Int) ≤ range.start ∧ range.start ≤ log.fileOf n

namespace Source

variable {log : CommitLog} {n : Nat} {c : Custody}

theorem Behind.append (h : Behind log n c) (r : Record) : Behind (log.append r) n c :=
  ⟨h.cursor, h.range⟩

theorem Behind.markDurable (h : Behind log n c) {vlsn : Int} {log' : CommitLog}
    (done : log.markDurable vlsn = .ok log') : Behind log' n c := by
  unfold CommitLog.markDurable at done
  split at done
  · cases done
    exact ⟨h.cursor, h.range⟩
  · cases done

theorem Behind.clean (h : Behind log n c) : Behind (log.clean c.protector) n c := by
  obtain ⟨cursor, id, range, active, registered, kept, covers⟩ := h
  exact ⟨cursor, id, range, active, registered, CommitLog.firstFile_clean registered kept, covers⟩

/-- A source is opened in front of a record whose file is there, with a range of its own that
    starts at this file. -/
theorem ofStart_eq_ok {p : FileProtector} {name : Octets} {vlsn : Int}
    (opened : ofStart log p name vlsn = .ok c) :
    let file := log.fileOf (vlsn - 1)
    0 < vlsn ∧ (log.firstFile : Int) ≤ file ∧ c = {
      source := {
        start := vlsn
        cursor := { next := vlsn, startFile := file, lastFile := file }
        range := .active p.nextId }
      protector := (p.protect (.ofAscii "Feeder-" ++ name) file).2 } := by
  unfold ofStart Cursor.ofStart CommitLog.findPosition at opened
  split at opened
  · cases opened
  next positive =>
    dsimp only at opened
    split at opened
    · cases opened
    next there =>
      cases opened
      exact ⟨Int.not_le.1 positive, Int.not_lt.1 there, rfl⟩

theorem behind_ofStart {p : FileProtector} {name : Octets} {vlsn : Int}
    (opened : ofStart log p name vlsn = .ok c) :
    ∃ n : Nat, vlsn = n + 1 ∧ c.source.start = vlsn ∧ Behind log n c := by
  obtain ⟨positive, there, rfl⟩ := ofStart_eq_ok opened
  have same : ((vlsn - 1).toNat : Int) = vlsn - 1 := by omega
  refine ⟨(vlsn - 1).toNat, by omega, rfl, by rw [same]; exact (Int.sub_add_cancel _ _).symm, ?_⟩
  refine ⟨p.nextId, _, rfl, Table.get?_insert _ _ _ _ |>.trans (if_pos rfl), there, ?_⟩
  exact Int.le_of_eq (congrArg log.fileOf same.symm)

/-- A registered range ends up at the file that the cursor read last, if that is later. -/
theorem follow_eq_ok {c : Custody} {id : Nat} {range : FileRange}
    (active : c.source.range = .active id) (registered : c.protector.ranges.get? id = some range) :
    ∃ protector range', follow c = .ok () { c with protector } ∧
      protector.ranges.get? id = some range' ∧
      range'.start = max range.start c.source.cursor.lastFile := by
  have start : c.protector.startOf c.source.range = .ok range.start := by
    rw [FileProtector.startOf, active, FileProtector.range?, registered]
  unfold follow
  rw [start]
  by_cases ahead : c.source.cursor.lastFile ≤ range.start
  · refine ⟨c.protector, range, if_pos ahead, registered, by omega⟩
  · let range' : FileRange := { range with start := c.source.cursor.lastFile }
    have moved : FileProtector.advance c.source.range c.source.cursor.lastFile c.protector =
        .ok () { c.protector with ranges := c.protector.ranges.insert id range' } := by
      rw [active, FileProtector.advance, get_bind, FileProtector.range?, registered]
      dsimp only
      rw [if_neg (by omega)]
      rfl
    refine ⟨{ c.protector with ranges := c.protector.ranges.insert id range' }, range', ?_,
      (Table.get?_insert c.protector.ranges id id range').trans (if_pos rfl), ?_⟩
    · rw [moved]
      exact if_neg ahead
    · exact (Int.max_eq_right (Int.le_of_lt (Int.not_le.1 ahead))).symm

/-! ## Fetching -/

section Fetching

variable (h : Behind log n c)

include h

theorem Behind.read : log.read n = .ok (log.recordAt? n) := by
  obtain ⟨-, id, range, -, -, kept, covers⟩ := h
  rw [CommitLog.read, if_neg (by omega)]

theorem Behind.scan_of_waiting (waiting : log.durable ≤ n) :
    Cursor.scan log (n + 1) c.source.cursor = .ok none c.source.cursor := by
  have next : c.source.cursor.next - 1 = n := by rw [h.cursor]; omega
  have nothing : log.recordAt? n = none := by rw [CommitLog.recordAt?, if_neg (by omega)]
  have read := h.read
  rw [nothing, ← next] at read
  rw [Cursor.scan, if_neg (by rw [h.cursor]; omega), Cursor.readUntil_of_nothing read]

theorem Behind.scan_of_durable {r : Record} (durable : n < log.durable)
    (there : log.records[n]? = some r) :
    Cursor.scan log (n + 1) c.source.cursor =
      .ok (some ⟨r, n⟩) (c.source.cursor.pass log ⟨r, n⟩) := by
  have next : c.source.cursor.next - 1 = n := by rw [h.cursor]; omega
  have some : log.recordAt? n = some ⟨r, n⟩ := by
    rw [CommitLog.recordAt?, if_pos (by omega), Int.toNat_natCast, there]
    rfl
  have read := h.read
  rw [some, ← next] at read
  rw [Cursor.scan, if_neg (by rw [h.cursor]; omega), Cursor.readUntil_of_found read,
    if_pos (by simp [Positioned.vlsn])]

theorem Behind.follow (r : Record) :
    ∃ c', Source.follow { c with source :=
        { c.source with cursor := c.source.cursor.pass log ⟨r, n⟩ } } = .ok () c' ∧
      Behind log (n + 1) c' := by
  obtain ⟨-, id, range, active, registered, kept, covers⟩ := h
  have later : log.fileOf n ≤ log.fileOf (n + 1 : Nat) :=
    CommitLog.fileOf_le (Int.natCast_nonneg n) (by omega)
  obtain ⟨protector, range', followed, registered', start⟩ :=
    follow_eq_ok (c := { c with source :=
      { c.source with cursor := c.source.cursor.pass log ⟨r, n⟩ } }) active registered
  -- The range never moves past the file of the record that comes next.
  have file : range'.start = max range.start (log.fileOf n) := start
  exact ⟨_, followed, by simp [Cursor.pass, Positioned.vlsn], id, range', active, registered',
    by omega, by omega⟩

theorem Behind.isActive : c.source.range.isActive = true := by
  obtain ⟨-, id, range, active, -⟩ := h
  rw [active]
  rfl

variable (wanted : Bool)

theorem Behind.fetch_of_waiting (waiting : log.durable ≤ n) :
    Source.fetch log (n + 1) wanted c = .ok none c := by
  have scanned : Source.scan log (n + 1) c = .ok none c := by
    rw [Source.scan, h.scan_of_waiting waiting]
  rw [Source.fetch, get_bind, h.isActive]
  simp only [Bool.not_true, Bool.false_eq_true, if_false]
  rw [bind_eq_of_ok scanned]
  rfl

/-- The record that stands behind the cursor is fetched once it is durable. -/
theorem Behind.fetch_of_durable (durable : n < log.durable) :
    ∃ r c', log.records[n]? = some r ∧
      Source.fetch log (n + 1) wanted c =
        .ok (some ⟨if wanted then r else { r with beforeImage := [] }, n⟩) c' ∧
      Behind log (n + 1) c' := by
  have inside : n < log.records.length := Nat.lt_of_lt_of_le durable log.durable_le
  have there : log.records[n]? = some log.records[n] := List.getElem?_eq_getElem inside
  have scanned := h.scan_of_durable durable there
  obtain ⟨c', followed, behind⟩ := h.follow log.records[n]
  refine ⟨log.records[n], c', there, ?_, behind⟩
  have read : Source.scan log (n + 1) c = .ok (some ⟨log.records[n], n⟩) { c with source :=
      { c.source with cursor := c.source.cursor.pass log ⟨log.records[n], n⟩ } } := by
    rw [Source.scan, scanned]
  rw [Source.fetch, get_bind, h.isActive]
  simp only [Bool.not_true, Bool.false_eq_true, if_false]
  rw [bind_eq_of_ok read]
  dsimp only
  rw [bind_eq_of_ok followed]
  cases wanted <;> rfl

end Fetching

end Source

end Replication.Log
