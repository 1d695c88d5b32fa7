import Replication.Proofs.Log.Sources

/-! # What a range protects

A range moves forward behind the cursor of its source, so the cursor never stands in front
of it, and the cleaner, which stops at the first range, never passes a cursor.
-/

namespace Replication.Log

/-! ## Registered ranges -/

namespace FileProtector

variable {p p' p'' : FileProtector}

/-- Whether the registered ranges have only moved forward, and each new one has got a new
    number. -/
structure Later (p p' : FileProtector) : Prop where
  nextId : p.nextId ≤ p'.nextId
  forward : ∀ id < p.nextId, ∀ range', p'.ranges.get? id = some range' →
    ∃ range, p.ranges.get? id = some range ∧ range.start ≤ range'.start

theorem Later.refl (p : FileProtector) : p.Later p :=
  ⟨Nat.le_refl _, fun _ _ range' found => ⟨range', found, Int.le_refl _⟩⟩

theorem Later.trans (h : p.Later p') (h' : p'.Later p'') : p.Later p'' := by
  refine ⟨Nat.le_trans h.nextId h'.nextId, fun id known range'' found => ?_⟩
  obtain ⟨range', found', le'⟩ := h'.forward id (Nat.lt_of_lt_of_le known h.nextId) range'' found
  obtain ⟨range, found, le⟩ := h.forward id known range' found'
  exact ⟨range, found, Int.le_trans le le'⟩

theorem later_protect (p : FileProtector) (name : Octets) (start : Int) :
    p.Later (p.protect name start).2 := by
  refine ⟨Nat.le_succ _, fun id known range' found => ⟨range', ?_, Int.le_refl _⟩⟩
  rw [protect, Table.get?_insert, if_neg (Nat.ne_of_lt known)] at found
  exact found

@[simp] theorem nextId_release (p : FileProtector) (h : RangeHandle) :
    (p.release h).2.nextId = p.nextId := by
  unfold release
  split <;> rfl

theorem get?_release (p : FileProtector) (h : RangeHandle) (id : Nat) :
    (p.release h).2.ranges.get? id = if h = .active id then none else p.ranges.get? id := by
  cases h with
  | empty | released range => rfl
  | active id' =>
    cases found : p.ranges.get? id' with
    | none =>
      have same : p.release (.active id') = (.active id', p) := by
        simp only [release, range?, found]
      rw [same]
      split
      next held =>
        cases held
        exact found
      next => rfl
    | some range =>
      have erased : p.release (.active id') =
          (.released range, { p with ranges := p.ranges.erase id' }) := by
        simp only [release, range?, found]
      rw [erased, Table.get?_erase]
      by_cases same : id = id'
      · rw [if_pos same, if_pos (congrArg _ same.symm)]
      · rw [if_neg same, if_neg fun held => same (RangeHandle.active.inj held).symm]

theorem later_release (p : FileProtector) (h : RangeHandle) : p.Later (p.release h).2 := by
  refine ⟨Nat.le_of_eq (p.nextId_release h).symm, fun id _ range' found =>
    ⟨range', ?_, Int.le_refl _⟩⟩
  rw [get?_release] at found
  split at found
  · cases found
  · exact found

/-- A handle is not active after the release of its range, unless there was none. -/
theorem active_of_release {h : RangeHandle} {id : Nat} (active : (p.release h).1 = .active id) :
    h = .active id := by
  unfold release at active
  split at active
  · cases active
  · exact active

/-- What moving a range forward comes to. -/
theorem advance_cases (h : RangeHandle) (file : Int) (p : FileProtector) :
    (∃ id range, h = .active id ∧ p.ranges.get? id = some range ∧ range.start ≤ file ∧
        advance h file p = .ok () { p with
          ranges := p.ranges.insert id { range with start := file } }) ∨
      ∃ e, advance h file p = .error e p := by
  cases h with
  | empty => exact .inr ⟨_, rfl⟩
  | released range => exact .inr ⟨_, rfl⟩
  | active id =>
    rw [advance, get_bind, range?]
    cases found : p.ranges.get? id with
    | none => exact .inr ⟨_, rfl⟩
    | some range =>
      dsimp only
      by_cases back : file < range.start
      · rw [if_pos back]
        exact .inr ⟨_, rfl⟩
      · rw [if_neg back]
        exact .inl ⟨id, range, rfl, found, Int.not_lt.1 back, rfl⟩

theorem later_advance (h : RangeHandle) (file : Int) (p : FileProtector) :
    p.Later (endState (advance h file p)) := by
  rcases advance_cases h file p with ⟨id, range, -, found, le, done⟩ | ⟨e, failed⟩
  · rw [done]
    refine ⟨Nat.le_refl _, fun id' _ range' found' => ?_⟩
    rw [endState, Table.get?_insert] at found'
    split at found'
    next same =>
      cases found'
      exact ⟨range, same ▸ found, le⟩
    next => exact ⟨range', found', Int.le_refl _⟩
  · rw [failed]
    exact .refl p

/-- Only the range of the handle moves. -/
theorem get?_advance {h : RangeHandle} {id : Nat} (other : h ≠ .active id) (file : Int)
    (p : FileProtector) : (endState (advance h file p)).ranges.get? id = p.ranges.get? id := by
  rcases advance_cases h file p with ⟨id', range, held, -, -, done⟩ | ⟨e, failed⟩
  · rw [done, endState, Table.get?_insert, if_neg]
    rintro rfl
    exact other held
  · rw [failed]
    rfl

theorem nextId_advance (h : RangeHandle) (file : Int) (p : FileProtector) :
    (endState (advance h file p)).nextId = p.nextId := by
  rcases advance_cases h file p with ⟨id, range, -, -, -, done⟩ | ⟨e, failed⟩
  · rw [done]
    rfl
  · rw [failed]
    rfl

end FileProtector

/-! ## Cursors -/

/-- Whether a cursor stands behind the beginning of a file: the record that it has read last
    lies in that file or a later one, and so does the one that comes next. -/
structure Cursor.Past (log : CommitLog) (file : Int) (c : Cursor) : Prop where
  positive : 1 ≤ c.next
  last : file ≤ c.lastFile
  next : c.lastFile ≤ log.fileOf (c.next - 1)

namespace Cursor

variable {log log' : CommitLog} {file : Int} {c : Cursor}

theorem Past.pass (h : c.Past log file) {r : Positioned} (there : (r.position : Int) = c.next - 1) :
    (c.pass log r).Past log file := by
  have later : log.fileOf r.position ≤ log.fileOf (r.position + 1) :=
    CommitLog.fileOf_le (Int.natCast_nonneg _) (by omega)
  refine ⟨?_, ?_, ?_⟩
  · simp only [Cursor.pass, Positioned.vlsn]
    omega
  · change file ≤ log.fileOf r.position
    rw [there]
    exact Int.le_trans h.last h.next
  · have next : (c.pass log r).next - 1 = (r.position : Int) + 1 := by
      simp only [Cursor.pass, Positioned.vlsn]
      omega
    rw [next]
    exact later

/-- Reading on, a cursor finds no file gone that is not in front of it. -/
theorem Past.readUntil (h : c.Past log file) (kept : (log.firstFile : Int) ≤ file) (vlsn : Int) :
    ∃ r c', Cursor.readUntil log vlsn c = .ok r c' ∧ c'.Past log file := by
  induction c using Cursor.readUntil.induct log vlsn with
  | case1 c e failed =>
    -- The file of the next record is not in front of `file`, and that one is there.
    rw [CommitLog.read, if_neg (by have := h.last; have := h.next; omega)] at failed
    cases failed
  | case2 c nothing => exact ⟨none, c, readUntil_of_nothing nothing vlsn, h⟩
  | case3 c r found reached =>
    refine ⟨some r, c.pass log r, ?_, h.pass (CommitLog.position_of_read found).1⟩
    rw [readUntil_of_found found, if_pos reached]
  | case4 c r found early ih =>
    obtain ⟨r', c', done, past⟩ := ih (h.pass (CommitLog.position_of_read found).1)
    refine ⟨r', c', ?_, past⟩
    rw [readUntil_of_found found, if_neg early, done]

end Cursor

/-! ## Sources -/

/-- Whether the range of a source covers what its cursor may still read, if it has not been
    given up. -/
def Source.Guarded (log : CommitLog) (c : Custody) : Prop :=
  match c.source.range with
  | .active id => ∃ range, c.protector.ranges.get? id = some range ∧
      (log.firstFile : Int) ≤ range.start ∧ c.source.cursor.Past log range.start
  | .released _ => True
  | .empty => False

namespace Source

variable {log log' : CommitLog} {c c' : Custody}

theorem guarded_active {id : Nat} (active : c.source.range = .active id) :
    Guarded log c ↔ ∃ range, c.protector.ranges.get? id = some range ∧
      (log.firstFile : Int) ≤ range.start ∧ c.source.cursor.Past log range.start := by
  unfold Guarded
  rw [active]

theorem guarded_released {range : FileRange} (released : c.source.range = .released range) :
    Guarded log c := by
  unfold Guarded
  rw [released]
  trivial

theorem Guarded.ne_empty (h : Guarded log c) : c.source.range ≠ .empty := by
  intro empty
  unfold Guarded at h
  rw [empty] at h
  exact h

/-- What happens elsewhere does not matter to a source, as long as its range stays. -/
theorem Guarded.of_same (h : Guarded log c) (source : c'.source = c.source)
    (files : log'.recordsPerFile = log.recordsPerFile)
    (kept : ∀ id range, c.source.range = .active id → c.protector.ranges.get? id = some range →
      c'.protector.ranges.get? id = some range ∧
        ((log.firstFile : Int) ≤ range.start → (log'.firstFile : Int) ≤ range.start)) :
    Guarded log' c' := by
  cases held : c.source.range with
  | empty => exact absurd held h.ne_empty
  | released range => exact guarded_released ((congrArg (·.range) source).trans held)
  | active id =>
    obtain ⟨range, found, first, past⟩ := (guarded_active held).1 h
    obtain ⟨found', first'⟩ := kept id range held found
    refine (guarded_active ((congrArg (·.range) source).trans held)).2
      ⟨range, found', first' first, ?_⟩
    rw [source]
    refine ⟨past.positive, past.last, ?_⟩
    rw [CommitLog.fileOf, files]
    exact past.next

theorem Guarded.shutDown (h : Guarded log c) :
    ∃ range, (Source.shutDown c).source.range = .released range := by
  cases held : c.source.range with
  | empty => exact absurd held h.ne_empty
  | released range =>
    refine ⟨range, ?_⟩
    simp only [Source.shutDown, held, FileProtector.release]
  | active id =>
    obtain ⟨range, found, -⟩ := (guarded_active held).1 h
    refine ⟨range, ?_⟩
    simp only [Source.shutDown, held, FileProtector.release, FileProtector.range?, found]

theorem guarded_ofStart {p : FileProtector} {name : Octets} {vlsn : Int}
    (opened : ofStart log p name vlsn = .ok c) :
    c.source.range = .active p.nextId ∧
      c.protector = (p.protect (.ofAscii "Feeder-" ++ name) c.source.cursor.startFile).2 ∧
      Guarded log c := by
  obtain ⟨positive, there, rfl⟩ := ofStart_eq_ok opened
  refine ⟨rfl, rfl, (guarded_active rfl).2
    ⟨_, Table.get?_insert _ _ _ _ |>.trans (if_pos rfl), there, ?_⟩⟩
  exact ⟨positive, Int.le_refl _, Int.le_refl _⟩

/-! ## Fetching -/

/-- What a fetch changes: the cursor, and the range of this source, which moves forward. -/
structure Fetched (c c' : Custody) : Prop where
  range : c'.source.range = c.source.range
  later : c.protector.Later c'.protector
  nextId : c'.protector.nextId = c.protector.nextId
  others : ∀ id, c.source.range ≠ .active id →
    c'.protector.ranges.get? id = c.protector.ranges.get? id

theorem Fetched.cursor (cursor : Cursor) :
    Fetched c { c with source := { c.source with cursor } } :=
  ⟨rfl, .refl _, rfl, fun _ _ => rfl⟩

theorem fetched_follow (c : Custody) : Fetched c (endState (follow c)) := by
  unfold follow
  split
  · exact .cursor _
  next start _ =>
    split
    · exact .cursor _
    · have later := FileProtector.later_advance c.source.range c.source.cursor.lastFile c.protector
      have nextId :=
        FileProtector.nextId_advance c.source.range c.source.cursor.lastFile c.protector
      have others (id) (other : c.source.range ≠ .active id) :=
        FileProtector.get?_advance other c.source.cursor.lastFile c.protector
      split
      next moved =>
        rw [moved] at later nextId others
        exact ⟨rfl, later, nextId, others⟩
      next failed =>
        rw [failed] at later nextId others
        exact ⟨rfl, later, nextId, others⟩

theorem Fetched.trans {c'' : Custody} (h : Fetched c c') (h' : Fetched c' c'') :
    Fetched c c'' :=
  ⟨h'.range.trans h.range, h.later.trans h'.later, h'.nextId.trans h.nextId, fun id other =>
    (h'.others id (h.range ▸ other)).trans (h.others id other)⟩

/-- A fetch through a source that is guarded keeps it so.  It fails only if the record was
    passed, or if the source was shut down. -/
theorem Guarded.fetch (h : Guarded log c) (vlsn : Int) (wanted : Bool) :
    match Source.fetch log vlsn wanted c with
    | .ok _ c' => Guarded log c' ∧ Fetched c c'
    | .error e c' => Guarded log c' ∧ Fetched c c' ∧
        ((∃ next, e = .cursor (.behind vlsn next)) ∨ ∃ name, e = .shutDown name) := by
  rw [Source.fetch, get_bind]
  cases held : c.source.range with
  | empty => exact absurd held h.ne_empty
  | released range => exact ⟨h, .cursor c.source.cursor, .inr ⟨_, rfl⟩⟩
  | active id =>
    simp only [RangeHandle.isActive, Bool.not_true, Bool.false_eq_true, if_false]
    obtain ⟨range, registered, kept, past⟩ := (guarded_active held).1 h
    by_cases behind : vlsn < c.source.cursor.next
    · have failed : Source.scan log vlsn c =
          .error (.cursor (.behind vlsn c.source.cursor.next)) c := by
        rw [Source.scan, Cursor.scan, if_pos behind]
      rw [bind_eq_of_error failed]
      exact ⟨h, .cursor c.source.cursor, .inl ⟨_, rfl⟩⟩
    · obtain ⟨r, cursor, read, past'⟩ := past.readUntil kept vlsn
      let c₁ : Custody := { c with source := { c.source with cursor } }
      have scanned : Source.scan log vlsn c = .ok r c₁ := by
        rw [Source.scan, Cursor.scan, if_neg behind, read]
      have guarded : Guarded log c₁ :=
        (guarded_active (c := c₁) held).2 ⟨range, registered, kept, past'⟩
      rw [bind_eq_of_ok scanned]
      cases r with
      | none => exact ⟨guarded, .cursor cursor⟩
      | some r =>
        -- The range moves up to the file that was read last, and the cursor is behind that.
        obtain ⟨protector, range', followed, registered', start⟩ :=
          follow_eq_ok (c := c₁) held registered
        have fetched : Fetched c₁ { c₁ with protector } := by
          have fetched := fetched_follow c₁
          rwa [followed] at fetched
        have last := past'.last
        have guarded' : Guarded log { c₁ with protector } :=
          (guarded_active (c := { c₁ with protector }) held).2
            ⟨range', registered', by rw [start]; omega, past'.positive,
              by rw [start]; exact Int.max_le.2 ⟨last, Int.le_refl _⟩, past'.next⟩
        dsimp only
        rw [bind_eq_of_ok followed]
        cases wanted <;> exact ⟨guarded', .trans (.cursor cursor) fetched⟩

end Source

end Replication.Log
