import Replication.Proofs.Log.Cleaning
import Replication.Proofs.Tables

/-! # What a fetch comes to

A source that is asked for any vlsn, whatever was done before, answers in one of four ways:
it is shut down, the record has been passed, the record is delivered, or it is not durable
yet.  In the last case the cursor may have moved, but not behind the record that was asked
for, so a later fetch delivers it.
-/

namespace Replication.Log

/-! ## Reading on -/

namespace CommitLog

variable {log : CommitLog} {position : Int} {r : Positioned}

theorem record_of_read (found : log.read position = .ok (some r)) :
    log.records[r.position]? = some r.record := by
  simp only [read, recordAt?] at found
  split at found
  · cases found
  · have found := Except.ok.inj found
    split at found
    next inside =>
      obtain ⟨record, there, rfl⟩ := Option.map_eq_some_iff.1 found
      exact there
    · cases found

/-- A position in front of the durable end holds a record. -/
theorem le_of_read_nothing (nothing : log.read position = .ok none) (nonneg : 0 ≤ position) :
    log.durable ≤ position := by
  simp only [read, recordAt?] at nothing
  split at nothing
  · cases nothing
  · have nothing := Except.ok.inj nothing
    split at nothing
    next inside =>
      have missing := List.getElem?_eq_none_iff.1 (Option.map_eq_none_iff.1 nothing)
      have := log.durable_le
      omega
    next outside => omega

/-- No record and no file comes or goes when records become durable. -/
theorem markDurable_keeps (log : CommitLog) (vlsn : Int) :
    let log' := (log.markDurable vlsn).toOption.getD log
    log'.records = log.records ∧ log'.firstFile = log.firstFile ∧
      log'.recordsPerFile = log.recordsPerFile := by
  unfold markDurable
  split <;> exact ⟨rfl, rfl, rfl⟩

end CommitLog

namespace Cursor

variable {log : CommitLog} {file : Int} {c : Cursor}

theorem read_of_past (past : c.Past log file) (kept : (log.firstFile : Int) ≤ file) {e : LogError} :
    log.read (c.next - 1) ≠ .error e := by
  have last := past.last
  have next := past.next
  rw [CommitLog.read, if_neg (by omega)]
  intro same
  cases same

theorem readUntil_of_failed {e : LogError} (failed : log.read (c.next - 1) = .error e)
    (vlsn : Int) : readUntil log vlsn c = .error (.log e) c := by
  rw [readUntil]
  split
  next failed' =>
    rw [failed] at failed'
    cases failed'
    rfl
  next nothing => rw [failed] at nothing; cases nothing
  next found => rw [failed] at found; cases found

/-- A cursor reaches each durable record that it has not passed. -/
theorem Past.readUntil_of_durable (past : c.Past log file) (kept : (log.firstFile : Int) ≤ file)
    {k : Nat} {r : Record} (ahead : c.next ≤ k + 1) (durable : k < log.durable)
    (there : log.records[k]? = some r) :
    Cursor.readUntil log (k + 1) c = .ok (some ⟨r, k⟩) (c.pass log ⟨r, k⟩) := by
  induction c using Cursor.readUntil.induct log (k + 1) with
  | case1 c e failed => exact absurd failed (read_of_past past kept)
  | case2 c nothing =>
    have positive := past.positive
    have end_ := CommitLog.le_of_read_nothing nothing (by omega)
    omega
  | case3 c r' found reached =>
    have here : r'.position = k := by
      simp only [Positioned.vlsn] at reached
      omega
    obtain ⟨record, position⟩ := r'
    cases here
    cases (CommitLog.record_of_read found).symm.trans there
    rw [readUntil_of_found found, if_pos reached]
  | case4 c r' found early ih =>
    have position := (CommitLog.position_of_read found).1
    have ahead' : (c.pass log r').next ≤ k + 1 := by
      simp only [Cursor.pass, Positioned.vlsn] at early ⊢
      omega
    rw [readUntil_of_found found, if_neg early, ih (past.pass position) ahead']
    rfl

/-- Asked for a record that is not durable, a cursor stops at the durable end. -/
theorem Past.readUntil_of_waiting (past : c.Past log file) (kept : (log.firstFile : Int) ≤ file)
    {vlsn : Int} (waiting : log.durable < vlsn) :
    ∃ c', Cursor.readUntil log vlsn c = .ok none c' ∧
      c'.next = max c.next (log.durable + 1) := by
  induction c using Cursor.readUntil.induct log vlsn with
  | case1 c e failed => exact absurd failed (read_of_past past kept)
  | case2 c nothing =>
    have positive := past.positive
    have stop := CommitLog.le_of_read_nothing nothing (by omega)
    exact ⟨c, readUntil_of_nothing nothing vlsn, by omega⟩
  | case3 c r found reached =>
    have position := CommitLog.position_of_read found
    simp only [Positioned.vlsn] at reached
    omega
  | case4 c r found early ih =>
    have position := CommitLog.position_of_read found
    obtain ⟨c', done, next⟩ := ih (past.pass position.1)
    refine ⟨c', by rw [readUntil_of_found found, if_neg early, done], ?_⟩
    simp only [Cursor.pass, Positioned.vlsn] at next
    omega

/-- Reads on as `readUntil` does, looking at the log no more than so many times. -/
def readWithin (log : CommitLog) (vlsn : Int) :
    Nat → Cursor → Option (EStateM.Result CursorError Cursor (Option Positioned))
  | 0, _ => none
  | looks + 1, c =>
    match log.read (c.next - 1) with
    | .error e => some (.error (.log e) c)
    | .ok none => some (.ok none c)
    | .ok (some r) =>
      if r.vlsn = vlsn then some (.ok (some r) (c.pass log r))
      else readWithin log vlsn looks (c.pass log r)

/-- Reading on comes to an end, since each look but the last moves the cursor towards the
    durable end. -/
theorem readWithin_eq {looks : Nat} (enough : (log.durable + 1 - c.next).toNat < looks)
    (vlsn : Int) : readWithin log vlsn looks c = some (readUntil log vlsn c) := by
  induction looks generalizing c with
  | zero => exact absurd enough (Nat.not_lt_zero _)
  | succ looks ih =>
    rw [readWithin]
    split
    next failed => rw [readUntil_of_failed failed]
    next nothing => rw [readUntil_of_nothing nothing]
    next r found =>
      have position := CommitLog.position_of_read found
      have fewer : (log.durable + 1 - (c.pass log r).next).toNat < looks := by
        simp only [Cursor.pass, Positioned.vlsn]
        omega
      rw [readUntil_of_found found, ih fewer, apply_ite some]

end Cursor

/-! ## Fetching -/

namespace Source

variable {log : CommitLog} {c : Custody}

theorem fetch_of_released {range : FileRange} (released : c.source.range = .released range)
    (vlsn : Int) (wanted : Bool) :
    fetch log vlsn wanted c = .error (.shutDown range.name) c := by
  rw [fetch, get_bind, released]
  rfl

section Active

variable {id : Nat} (active : c.source.range = .active id)

include active

/-- A source that is not shut down reads on with its cursor. -/
theorem fetch_of_active (vlsn : Int) (wanted : Bool) :
    fetch log vlsn wanted c = (scan log vlsn >>= fun r =>
      match r with
      | none => return none
      | some r => do
        follow
        if wanted then return some r
        return some { r with record := { r.record with beforeImage := [] } }) c := by
  rw [fetch, get_bind, active]
  rfl

theorem fetch_of_behind {vlsn : Int} (behind : vlsn < c.source.cursor.next) (wanted : Bool) :
    fetch log vlsn wanted c = .error (.cursor (.behind vlsn c.source.cursor.next)) c := by
  have failed : scan log vlsn c = .error (.cursor (.behind vlsn c.source.cursor.next)) c := by
    rw [scan, Cursor.scan, if_pos behind]
  rw [fetch_of_active active, bind_eq_of_error failed]

variable (guarded : Guarded log c)

include guarded

/-- A record that is not durable yet is not delivered, and the range stays where it is. -/
theorem Guarded.fetch_of_waiting {vlsn : Int} (ahead : c.source.cursor.next ≤ vlsn)
    (waiting : log.durable < vlsn) (wanted : Bool) :
    ∃ cursor,
      Source.fetch log vlsn wanted c = .ok none { c with source := { c.source with cursor } } ∧
        cursor.next ≤ vlsn := by
  obtain ⟨range, -, kept, past⟩ := (guarded_active active).1 guarded
  obtain ⟨cursor, read, next⟩ := past.readUntil_of_waiting kept waiting
  have scanned : scan log vlsn c = .ok none { c with source := { c.source with cursor } } := by
    rw [scan, Cursor.scan, if_neg (Int.not_lt.2 ahead), read]
  refine ⟨cursor, ?_, by omega⟩
  rw [fetch_of_active active, bind_eq_of_ok scanned]
  rfl

/-- A durable record that was not passed is delivered, and the range is at its file then. -/
theorem Guarded.fetch_of_durable {k : Nat} {r : Record} (ahead : c.source.cursor.next ≤ k + 1)
    (durable : k < log.durable) (there : log.records[k]? = some r) (wanted : Bool) :
    ∃ protector range, Source.fetch log (k + 1) wanted c =
        .ok (some ⟨if wanted then r else { r with beforeImage := [] }, k⟩)
          { source := { c.source with cursor := c.source.cursor.pass log ⟨r, k⟩ }, protector } ∧
      protector.ranges.get? id = some range ∧ range.start = log.fileOf k := by
  obtain ⟨range, registered, kept, past⟩ := (guarded_active active).1 guarded
  let c₁ : Custody := { c with source :=
    { c.source with cursor := c.source.cursor.pass log ⟨r, k⟩ } }
  have scanned : scan log (k + 1) c = .ok (some ⟨r, k⟩) c₁ := by
    rw [scan, Cursor.scan, if_neg (Int.not_lt.2 ahead),
      past.readUntil_of_durable kept ahead durable there]
  obtain ⟨protector, range', followed, registered', start⟩ :=
    follow_eq_ok (c := c₁) active registered
  refine ⟨protector, range', ?_, registered', ?_⟩
  · rw [fetch_of_active active, bind_eq_of_ok scanned]
    dsimp only
    rw [bind_eq_of_ok followed]
    cases wanted <;> rfl
  · -- The range starts no later than the file of the next record, and that no later than here.
    have positive := past.positive
    have here : log.fileOf (c.source.cursor.next - 1) ≤ log.fileOf k :=
      CommitLog.fileOf_le (by omega) (by omega)
    have behind : range.start ≤ log.fileOf k :=
      Int.le_trans past.last (Int.le_trans past.next here)
    exact start.trans (Int.max_eq_right behind)

end Active

end Source

/-! ## Fetching from an archive -/

namespace Archive

def Action.appended : Action → List Record
  | .append r => [r]
  | _ => []

/-- Whether an action leaves the source of a number alone, except that it may ask it for
    records before that of a vlsn, and for that one as long as it is not durable. -/
def Action.Spares (n vlsn durable : Int) : Action → Prop
  | .openSource m _ _ | .shutDown m | .dropSource m => m ≠ n
  | .fetch m w _ => m = n → w < vlsn ∨ w = vlsn ∧ durable < vlsn
  | _ => True

/-- Whether each action of a run leaves the source of a number alone in that way. -/
def Undisturbed (n vlsn : Int) (a : Archive) : List Action → Prop
  | [] => True
  | action :: rest =>
    action.Spares n vlsn a.log.durable ∧ Undisturbed n vlsn (a.step action) rest

/-- Whether a fetch of a vlsn delivers that one of some records, leaves the cursor right
    behind it, and the range at its file, which is the one that was read last. -/
def Delivers (a : Archive) (records : List Record) (n vlsn : Int) (wanted : Bool) : Prop :=
  ∃ (k : Nat) (r : Record) (a' : Archive) (s : Source), vlsn = k + 1 ∧ records[k]? = some r ∧
    fetch n vlsn wanted a =
      .ok (some ⟨if wanted then r else { r with beforeImage := [] }, k⟩) a' ∧
    a'.sources.get? n = some s ∧ s.cursor.next = vlsn + 1 ∧
    a'.protector.startOf s.range = .ok (a.log.fileOf k) ∧ s.cursor.lastFile = a.log.fileOf k

variable {a : Archive} {n vlsn : Int} {s : Source} {id : Nat}

/-- Putting a source back as it was changes nothing. -/
theorem restore_self (found : a.sources.get? n = some s) :
    a.restore n ⟨s, a.protector⟩ = a := by
  rw [restore, Table.insert_of_get? found]

theorem fetch_of_found (found : a.sources.get? n = some s) (vlsn : Int) (wanted : Bool) :
    fetch n vlsn wanted a =
      match Source.fetch a.log vlsn wanted ⟨s, a.protector⟩ with
      | .ok r c => .ok r (a.restore n c)
      | .error e c => .error e (a.restore n c) := by
  cases done : Source.fetch a.log vlsn wanted ⟨s, a.protector⟩ <;> simp only [fetch, found, done]

theorem fetch_of_shutDown {range : FileRange} (found : a.sources.get? n = some s)
    (released : s.range = .released range) (vlsn : Int) (wanted : Bool) :
    fetch n vlsn wanted a = .error (.shutDown range.name) a := by
  rw [fetch_of_found found, Source.fetch_of_released (c := ⟨s, a.protector⟩) released]
  exact congrArg _ (restore_self found)

theorem fetch_of_passed (found : a.sources.get? n = some s) (active : s.range = .active id)
    (behind : vlsn < s.cursor.next) (wanted : Bool) :
    fetch n vlsn wanted a = .error (.cursor (.behind vlsn s.cursor.next)) a := by
  rw [fetch_of_found found, Source.fetch_of_behind (c := ⟨s, a.protector⟩) active behind]
  exact congrArg _ (restore_self found)

/-- Whether a source has not passed the record of a vlsn. -/
def Awaits (a : Archive) (n vlsn : Int) : Prop :=
  ∃ s id, a.sources.get? n = some s ∧ s.range = .active id ∧ s.cursor.next ≤ vlsn

namespace Sound

variable (h : a.Sound)

include h

theorem fetch_of_waiting (awaits : a.Awaits n vlsn) (waiting : a.log.durable < vlsn)
    (wanted : Bool) :
    ∃ a', Archive.fetch n vlsn wanted a = .ok none a' ∧ a'.protector = a.protector ∧
      a'.Awaits n vlsn := by
  obtain ⟨s, id, found, active, ahead⟩ := awaits
  obtain ⟨cursor, fetched, next⟩ :=
    (h.guarded n s found).fetch_of_waiting (c := ⟨s, a.protector⟩) active ahead waiting wanted
  refine ⟨a.restore n ⟨{ s with cursor }, a.protector⟩, ?_, rfl, { s with cursor }, id,
    get?_restore .., active, next⟩
  rw [fetch_of_found found, fetched]

theorem fetch_of_durable (found : a.sources.get? n = some s) (active : s.range = .active id)
    (ahead : s.cursor.next ≤ vlsn) (durable : vlsn ≤ a.log.durable) (wanted : Bool) :
    ∃ (k : Nat) (r : Record) (protector : FileProtector) (range : FileRange), vlsn = k + 1 ∧
      a.log.records[k]? = some r ∧
      Archive.fetch n vlsn wanted a =
        .ok (some ⟨if wanted then r else { r with beforeImage := [] }, k⟩)
          (a.restore n ⟨{ s with cursor := s.cursor.pass a.log ⟨r, k⟩ }, protector⟩) ∧
      protector.ranges.get? id = some range ∧ range.start = a.log.fileOf k := by
  have guarded := h.guarded n s found
  obtain ⟨range, -, -, past⟩ := (Source.guarded_active active).1 guarded
  have positive : 1 ≤ s.cursor.next := past.positive
  obtain ⟨k, rfl⟩ : ∃ k : Nat, vlsn = k + 1 := ⟨(vlsn - 1).toNat, by omega⟩
  have inside : k < a.log.records.length := by
    have := a.log.durable_le
    omega
  have there : a.log.records[k]? = some a.log.records[k] := List.getElem?_eq_getElem inside
  obtain ⟨protector, range', fetched, registered, start⟩ :=
    guarded.fetch_of_durable (c := ⟨s, a.protector⟩) active ahead (by omega) there wanted
  refine ⟨k, a.log.records[k], protector, range', rfl, there, ?_, registered, start⟩
  rw [fetch_of_found found, fetched]

theorem delivers (awaits : a.Awaits n vlsn) (durable : vlsn ≤ a.log.durable) (wanted : Bool) :
    a.Delivers a.log.records n vlsn wanted := by
  obtain ⟨s, id, found, active, ahead⟩ := awaits
  obtain ⟨k, r, protector, range, rfl, there, fetched, registered, start⟩ :=
    h.fetch_of_durable found active ahead durable wanted
  refine ⟨k, r, _, _, rfl, there, fetched, get?_restore .., rfl, ?_, rfl⟩
  change protector.startOf s.range = _
  rw [FileProtector.startOf, active, FileProtector.range?, registered, ← start]

/-- A source that has not passed a record has not passed it either after an action that
    spares it. -/
theorem awaits_step (awaits : a.Awaits n vlsn) {action : Action}
    (spares : action.Spares n vlsn a.log.durable) : (a.step action).Awaits n vlsn := by
  by_cases own : action.source? = some n
  case neg =>
    rw [Awaits, get?_sources_step own]
    exact awaits
  cases action with
  | openSource m feeder w | shutDown m | dropSource m =>
    exact absurd (Option.some.inj own) spares
  | fetch m w wanted =>
    obtain rfl : m = n := Option.some.inj own
    change (endState (Archive.fetch m w wanted a)).Awaits m vlsn
    -- An older record is passed, delivered, or not even durable, as the awaited one is.
    have older : w < vlsn ∨ w = vlsn ∧ a.log.durable < vlsn := spares rfl
    obtain ⟨s, id, found, active, ahead⟩ := awaits
    by_cases behind : w < s.cursor.next
    · rw [fetch_of_passed found active behind]
      exact ⟨s, id, found, active, ahead⟩
    · have awaits' : a.Awaits m w := ⟨s, id, found, active, Int.not_lt.1 behind⟩
      by_cases durable : w ≤ a.log.durable
      · obtain ⟨k, r, protector, range, rfl, -, fetched, -, -⟩ :=
          h.fetch_of_durable found active (Int.not_lt.1 behind) durable wanted
        rw [fetched]
        refine ⟨_, id, get?_restore .., active, ?_⟩
        change (k + 1 : Nat) + 1 ≤ vlsn
        omega
      · obtain ⟨a', waited, -, s', id', found', active', next⟩ :=
          h.fetch_of_waiting awaits' (Int.not_le.1 durable) wanted
        rw [waited]
        exact ⟨s', id', found', active', by omega⟩
  | _ => cases own

theorem awaits_run {actions : List Action} (awaits : a.Awaits n vlsn)
    (undisturbed : a.Undisturbed n vlsn actions) : (a.run actions).Awaits n vlsn := by
  induction actions generalizing a with
  | nil => exact awaits
  | cons action rest ih =>
    exact ih (h.step action) (h.awaits_step awaits undisturbed.1) undisturbed.2

end Sound

/-! ## Whatever was done before -/

/-- What an action does with the log, given the registry of the ranges. -/
def Action.onLog (p : FileProtector) (log : CommitLog) : Action → CommitLog
  | .append r => log.append r
  | .markDurable vlsn => (log.markDurable vlsn).toOption.getD log
  | .clean => log.clean p
  | _ => log

theorem log_step (a : Archive) (action : Action) :
    (a.step action).log = action.onLog a.protector a.log := by
  -- Beside the three actions on the log, none leaves another log, whether it fails or not.
  cases action with
  | append r | clean | protect m name start | release m | drop m => rfl
  | advance m file => rw [step, endState_advance]; rfl
  | move giver taker =>
    change (a.move giver taker).log = a.log
    unfold move
    split <;> rfl
  | markDurable w =>
    change (endState (a.markDurable w)).log = (a.log.markDurable w).toOption.getD a.log
    unfold markDurable
    split
    next done => rw [done]; rfl
    next failed => rw [failed]; rfl
  | place m w =>
    change (endState (place m w a)).log = a.log
    unfold place
    split <;> rfl
  | scan m w =>
    change (endState (scan m w a)).log = a.log
    unfold scan
    split
    · rfl
    · split <;> rfl
  | openSource m feeder w =>
    change (endState (openSource m feeder w a)).log = a.log
    unfold openSource
    split
    next c opened => exact log_shutDown { a with protector := c.protector } m
    next => rfl
  | shutDown m | dropSource m => exact log_shutDown a m
  | fetch m w wanted =>
    change (endState (fetch m w wanted a)).log = a.log
    unfold fetch
    split
    · rfl
    · split <;> rfl

/-- The log holds what was appended, in its order. -/
theorem records_step (a : Archive) (action : Action) :
    (a.step action).log.records = a.log.records ++ action.appended := by
  rw [log_step]
  cases action with
  | append r => rfl
  | markDurable w =>
    exact (a.log.markDurable_keeps w).1.trans (List.append_nil _).symm
  | _ => exact (List.append_nil _).symm

theorem records_run (a : Archive) (actions : List Action) :
    (a.run actions).log.records = a.log.records ++ actions.flatMap (·.appended) := by
  induction actions generalizing a with
  | nil => exact (List.append_nil _).symm
  | cons action rest ih =>
    rw [List.flatMap_cons, ← List.append_assoc, ← records_step]
    exact ih (a.step action)

theorem run_append (a : Archive) (actions later : List Action) :
    a.run (actions ++ later) = (a.run actions).run later :=
  List.foldl_append

/-- A source that has not been shut down since it was opened delivers each durable record that it
    has not passed, just as it was appended.  Asked for one that is not durable yet it delivers
    nothing, and delivers that one later, if it is left alone until then. -/
theorem fetch_exact (log : CommitLog) (actions : List Action) {n : Int} {s : Source}
    (found : (run { log } actions).sources.get? n = some s) (vlsn : Int) (wanted : Bool) :
    let a := run { log } actions
    (∀ looks, (a.log.durable + 1 - s.cursor.next).toNat < looks →
        Cursor.readWithin a.log vlsn looks s.cursor =
          some (Cursor.readUntil a.log vlsn s.cursor)) ∧
      (∀ range, s.range = .released range →
        fetch n vlsn wanted a = .error (.shutDown range.name) a) ∧
      ((∃ range, s.range = .released range) ∨ ∃ id, s.range = .active id) ∧
      ((∃ id, s.range = .active id) ↔ openAfter n { log } false actions = true) ∧
      ∀ id, s.range = .active id →
        (vlsn < s.cursor.next →
          fetch n vlsn wanted a = .error (.cursor (.behind vlsn s.cursor.next)) a) ∧
        (s.cursor.next ≤ vlsn → vlsn ≤ a.log.durable →
          a.Delivers (log.records ++ actions.flatMap (·.appended)) n vlsn wanted) ∧
        (s.cursor.next ≤ vlsn → a.log.durable < vlsn →
          ∃ a', fetch n vlsn wanted a = .ok none a' ∧ a'.protector = a.protector ∧
            ∀ later, a'.Undisturbed n vlsn later →
              let all := actions ++ .fetch n vlsn wanted :: later
              vlsn ≤ (run { log } all).log.durable → ∀ wanted,
                (run { log } all).Delivers (log.records ++ all.flatMap (·.appended)) n vlsn
                  wanted) := by
  intro a
  have sound : a.Sound := (sound_ofLog log).run actions
  refine ⟨fun looks enough => Cursor.readWithin_eq enough vlsn,
    fun range released => fetch_of_shutDown found released vlsn wanted, ?_, ?_,
    fun id active => ⟨fun behind => fetch_of_passed found active behind wanted,
      fun ahead durable => ?_, fun ahead waiting => ?_⟩⟩
  · cases held : s.range with
    | empty => exact absurd held (sound.guarded n s found).ne_empty
    | released range => exact .inl ⟨range, rfl⟩
    | active id => exact .inr ⟨id, rfl⟩
  · rw [← open_run_ofLog]
    simp only [Holds, found, Option.some.injEq, exists_eq_left']
  · have delivers := sound.delivers ⟨s, id, found, active, ahead⟩ durable wanted
    rwa [records_run] at delivers
  · obtain ⟨a', waited, protector, awaits⟩ :=
      sound.fetch_of_waiting ⟨s, id, found, active, ahead⟩ waiting wanted
    refine ⟨a', waited, protector, ?_⟩
    intro later undisturbed all durable wanted'
    -- The source still awaits the record after all that, and then it is durable.
    have sound' : (run { log } all).Sound := (sound_ofLog log).run all
    have awaits' : (run { log } all).Awaits n vlsn := by
      have left : run { log } all = a'.run later := by
        rw [run_append, run, List.foldl_cons, step, waited]
        rfl
      have fetched := sound.fetch n vlsn wanted
      rw [waited] at fetched
      rw [left]
      exact fetched.awaits_run awaits undisturbed
    have delivers := sound'.delivers awaits' durable wanted'
    rwa [records_run] at delivers

namespace Shipment

/-- Files of two records. -/
def log : CommitLog where
  recordsPerFile := 2
  recordsPerFile_pos := Nat.succ_pos 1
  durable_le := by decide

/-- A source that begins at the first of five records reads on to the third, and the cleaner
    takes the file in front of that. -/
def actions : List Action :=
  (List.range 5).map (fun i => .append { txn := Int64.ofNat i, beforeImage := [1] }) ++
    [.markDurable 4, .openSource 7 [] 1, .fetch 7 3 false, .clean]

def source : Source where
  start := 1
  cursor := { next := 4, startFile := 0, lastFile := 1 }
  range := .active 0

end Shipment

theorem fetch_exact_shipment :
    (run { log := Shipment.log } Shipment.actions).sources.get? 7 = some Shipment.source ∧
      let a := run { log := Shipment.log } Shipment.actions
      let records := Shipment.actions.flatMap (·.appended)
      openAfter 7 { log := Shipment.log } false Shipment.actions = true ∧
        a.log.firstFile = 1 ∧ records.length = 5 ∧
        fetch 7 2 true a = .error (.cursor (.behind 2 4)) a ∧ a.Delivers records 7 4 true ∧
        ∃ a', fetch 7 5 true a = .ok none a' ∧ a'.protector = a.protector ∧
          (run { log := Shipment.log } (Shipment.actions ++
            [.fetch 7 5 true, .clean, .fetch 7 5 true, .fetch 7 4 true, .markDurable 5])).Delivers
              records 7 5 false := by
  have found : (run { log := Shipment.log } Shipment.actions).sources.get? 7 =
      some Shipment.source := by decide +kernel
  have durable : (run { log := Shipment.log } Shipment.actions).log.durable = 4 := by
    decide +kernel
  obtain ⟨-, -, -, opened, passed⟩ := fetch_exact Shipment.log Shipment.actions found 2 true
  obtain ⟨-, -, -, -, delivered⟩ := fetch_exact Shipment.log Shipment.actions found 4 true
  obtain ⟨-, -, -, -, waiting⟩ := fetch_exact Shipment.log Shipment.actions found 5 true
  obtain ⟨a', waited, protector, later⟩ :=
    (waiting 0 rfl).2.2 (by decide) (by rw [durable]; decide)
  refine ⟨found, opened.1 ⟨0, rfl⟩, by decide +kernel, by decide +kernel,
    (passed 0 rfl).1 (by decide), (delivered 0 rfl).2.1 (by decide) (by rw [durable]; decide),
    a', waited, protector, ?_⟩
  have after : a' = endState (fetch 7 5 true (run { log := Shipment.log } Shipment.actions)) := by
    rw [waited]
    rfl
  refine later [.clean, .fetch 7 5 true, .fetch 7 4 true, .markDurable 5] ?_
    (by decide +kernel) false
  subst after
  exact ⟨trivial, fun _ => .inr ⟨rfl, by decide +kernel⟩, fun _ => .inl (by decide), trivial,
    trivial⟩

end Archive

end Replication.Log
