import Replication.Log.Archive
import Replication.Proofs.Log.Protection

/-! # What the cleaner leaves

Whatever is done with a log and its readers, in whatever order, the cleaner takes no file
that is protected or that durable records have not filled, so a source that has not been
shut down always finds its records.
-/

namespace Replication.Log.Archive

/-! ## Runs -/

/-- What is done with an archive. -/
inductive Action where
  | append (r : Record)
  | markDurable (vlsn : Int)
  | clean
  | protect (n : Int) (name : Octets) (start : Int)
  | advance (n file : Int)
  | release (n : Int)
  | move (giver taker : Int)
  | drop (n : Int)
  | place (n vlsn : Int)
  | scan (n vlsn : Int)
  | openSource (n : Int) (feeder : Octets) (vlsn : Int)
  | fetch (n vlsn : Int) (withBeforeImage : Bool)
  | shutDown (n : Int)
  | dropSource (n : Int)

/-- The archive after an action, whether that failed or not. -/
def step (a : Archive) : Action → Archive
  | .append r => a.append r
  | .markDurable vlsn => endState (a.markDurable vlsn)
  | .clean => a.clean
  | .protect n name start => a.protect n name start
  | .advance n file => endState (advance n file a)
  | .release n => a.release n
  | .move giver taker => a.move giver taker
  | .drop n => a.drop n
  | .place n vlsn => endState (place n vlsn a)
  | .scan n vlsn => endState (scan n vlsn a)
  | .openSource n feeder vlsn => endState (openSource n feeder vlsn a)
  | .fetch n vlsn withBeforeImage => endState (fetch n vlsn withBeforeImage a)
  | .shutDown n => a.shutDown n
  | .dropSource n => a.dropSource n

def run (a : Archive) (actions : List Action) : Archive :=
  actions.foldl step a

/-- The source that an action is about. -/
def Action.source? : Action → Option Int
  | .openSource n _ _ | .fetch n _ _ | .shutDown n | .dropSource n => some n
  | _ => none

/-- Whether the source of a number is open behind an action, given whether it was before.  Opening
    it may fail, and leaves it as it is then. -/
def openBehind (n : Int) (a : Archive) (was : Bool) : Action → Bool
  | .openSource m feeder vlsn =>
    if m = n then
      match Archive.openSource m feeder vlsn a with
      | .ok .. => true
      | .error .. => was
    else was
  | .shutDown m | .dropSource m => if m = n then false else was
  | _ => was

/-- Whether the source of a number is open behind a run: whether it was opened, and neither shut
    down nor discarded since. -/
def openAfter (n : Int) (a : Archive) (was : Bool) : List Action → Bool
  | [] => was
  | action :: rest => openAfter n (a.step action) (openBehind n a was action) rest

/-! ## Sound archives -/

/-- Whether the source of a number holds the range of that id. -/
def Holds (a : Archive) (n : Int) (id : Nat) : Prop :=
  ∃ s, a.sources.get? n = some s ∧ s.range = .active id

/-- Whether each source is guarded, by a range that it shares with nobody. -/
structure Sound (a : Archive) : Prop where
  guarded : ∀ n s, a.sources.get? n = some s → Source.Guarded a.log ⟨s, a.protector⟩
  known : ∀ n id, a.Holds n id → id < a.protector.nextId
  handles : ∀ n id, a.handle n = .active id → id < a.protector.nextId
  alone : ∀ n m id, a.Holds n id → a.Holds m id → n = m
  apart : ∀ n m id, a.Holds n id → a.handle m ≠ .active id

variable {a a' : Archive}

/-- An archive without sources and handles is sound, whatever is in its log. -/
theorem sound_ofLog (log : CommitLog) : Sound { log } := by
  have nobody (n : Int) (id : Nat) : ¬ Holds { log } n id := by
    rintro ⟨s, found, -⟩
    cases found
  exact ⟨nofun, fun n id held => absurd held (nobody n id), nofun,
    fun n m id held => absurd held (nobody n id), fun n m id held => absurd held (nobody n id)⟩

theorem handle_setHandle (a : Archive) (n m : Int) (h : RangeHandle) :
    (a.setHandle n h).handle m = if m = n then h else a.handle m := by
  rw [handle, setHandle]
  dsimp only
  rw [Table.get?_insert]
  split <;> rfl

theorem get?_setHandle (a : Archive) (n : Int) (h : RangeHandle) (id : Nat) :
    (a.setHandle n h).protector.ranges.get? id =
      if a.handle n = .active id then none else a.protector.ranges.get? id :=
  FileProtector.get?_release ..

theorem get?_restore (a : Archive) (n : Int) (c : Custody) :
    (a.restore n c).sources.get? n = some c.source :=
  (Table.get?_insert ..).trans (if_pos rfl)

theorem endState_advance (n file : Int) (a : Archive) :
    endState (advance n file a) =
      { a with protector := endState (FileProtector.advance (a.handle n) file a.protector) } := by
  rw [advance]
  split
  next moved => rw [moved]; rfl
  next failed => rw [failed]; rfl

theorem handle_protect (a : Archive) (n m : Int) (name : Octets) (start : Int) :
    (a.protect n name start).handle m =
      if m = n then .active a.protector.nextId else a.handle m :=
  handle_setHandle { a with protector := (a.protector.protect name start).2 } n m _

theorem later_protect (a : Archive) (n : Int) (name : Octets) (start : Int) :
    a.protector.Later (a.protect n name start).protector :=
  (FileProtector.later_protect a.protector name start).trans (FileProtector.later_release _ _)

theorem nextId_protect (a : Archive) (n : Int) (name : Octets) (start : Int) :
    (a.protect n name start).protector.nextId = a.protector.nextId + 1 :=
  FileProtector.nextId_release ..

theorem get?_protect (a : Archive) (n : Int) (name : Octets) (start : Int) {id : Nat}
    (known : id < a.protector.nextId) (other : a.handle n ≠ .active id) :
    (a.protect n name start).protector.ranges.get? id = a.protector.ranges.get? id := by
  refine (get?_setHandle { a with protector := _ } n _ id).trans ((if_neg other).trans ?_)
  exact (Table.get?_insert ..).trans (if_neg (Nat.ne_of_lt known))

/-! ## Shutting down -/

section ShutDown

variable (a : Archive) (n : Int)

theorem log_shutDown : (a.shutDown n).log = a.log := by
  unfold shutDown
  split <;> rfl

theorem handles_shutDown : (a.shutDown n).handles = a.handles := by
  unfold shutDown
  split <;> rfl

theorem get?_sources_shutDown {m : Int} (other : m ≠ n) :
    (a.shutDown n).sources.get? m = a.sources.get? m := by
  unfold shutDown
  split
  · rfl
  · exact (Table.get?_insert ..).trans (if_neg other)

theorem later_shutDown : a.protector.Later (a.shutDown n).protector := by
  unfold shutDown
  split
  · exact .refl _
  · exact FileProtector.later_release _ _

theorem nextId_shutDown : (a.shutDown n).protector.nextId = a.protector.nextId := by
  unfold shutDown
  split
  · rfl
  · exact FileProtector.nextId_release ..

theorem get?_shutDown {id : Nat} (other : ¬ a.Holds n id) :
    (a.shutDown n).protector.ranges.get? id = a.protector.ranges.get? id := by
  unfold shutDown
  split
  · rfl
  next s found =>
    exact (FileProtector.get?_release ..).trans (if_neg fun active => other ⟨s, found, active⟩)

theorem holds_of_shutDown {id : Nat} (held : (a.shutDown n).Holds n id) : a.Holds n id := by
  obtain ⟨s', found', active⟩ := held
  unfold shutDown at found'
  split at found'
  next nobody => cases nobody.symm.trans found'
  next s found =>
    cases ((Table.get?_insert ..).trans (if_pos rfl)).symm.trans found'
    exact ⟨s, found, FileProtector.active_of_release active⟩

end ShutDown

namespace Sound

variable (h : a.Sound)

include h

/-- The log may grow, and lose files that no range protects. -/
theorem of_log (sources : a'.sources = a.sources) (handles : a'.handles = a.handles)
    (protector : a'.protector = a.protector)
    (files : a'.log.recordsPerFile = a.log.recordsPerFile)
    (kept : ∀ id range, a.protector.ranges.get? id = some range →
      (a.log.firstFile : Int) ≤ range.start → (a'.log.firstFile : Int) ≤ range.start) :
    a'.Sound := by
  have holds (n : Int) (id : Nat) : a'.Holds n id ↔ a.Holds n id := by rw [Holds, Holds, sources]
  have handle (n : Int) : a'.handle n = a.handle n := by rw [Archive.handle, handles]; rfl
  refine ⟨fun n s found => ?_, fun n id held => ?_, fun n id held => ?_,
    fun n m id held held' => ?_, fun n m id held => ?_⟩
  · rw [sources] at found
    refine (h.guarded n s found).of_same rfl files fun id range _ registered => ?_
    rw [protector]
    exact ⟨registered, kept id range registered⟩
  · rw [protector]
    exact h.known n id ((holds n id).1 held)
  · rw [protector]
    rw [handle] at held
    exact h.handles n id held
  · exact h.alone n m id ((holds n id).1 held) ((holds m id).1 held')
  · rw [handle]
    exact h.apart n m id ((holds n id).1 held)

/-- Handles may change hands, as long as the ranges of the sources stay. -/
theorem of_handles (log : a'.log = a.log) (sources : a'.sources = a.sources)
    (nextId : a.protector.nextId ≤ a'.protector.nextId)
    (handles : ∀ n id, a'.handle n = .active id →
      (∃ m, a.handle m = .active id) ∨ (a.protector.nextId ≤ id ∧ id < a'.protector.nextId))
    (kept : ∀ n id, a.Holds n id →
      a'.protector.ranges.get? id = a.protector.ranges.get? id) : a'.Sound := by
  have holds (n : Int) (id : Nat) : a'.Holds n id ↔ a.Holds n id := by rw [Holds, Holds, sources]
  refine ⟨fun n s found => ?_, fun n id held => ?_, fun n id held => ?_,
    fun n m id held held' => ?_, fun n m id held held' => ?_⟩
  · rw [sources] at found
    refine (h.guarded n s found).of_same rfl (congrArg (·.recordsPerFile) log)
      fun id range active registered => ?_
    rw [log, kept n id ⟨s, found, active⟩]
    exact ⟨registered, fun first => first⟩
  · exact Nat.lt_of_lt_of_le (h.known n id ((holds n id).1 held)) nextId
  · rcases handles n id held with ⟨m, before⟩ | ⟨-, known⟩
    · exact Nat.lt_of_lt_of_le (h.handles m id before) nextId
    · exact known
  · exact h.alone n m id ((holds n id).1 held) ((holds m id).1 held')
  · have before := (holds n id).1 held
    rcases handles m id held' with ⟨m', before'⟩ | ⟨new, -⟩
    · exact h.apart n m' id before before'
    · exact absurd (h.known n id before) (Nat.not_lt.2 new)

/-- A source may change, as long as the ranges of the others stay. -/
theorem of_source (n : Int) (log : a'.log = a.log) (handles : a'.handles = a.handles)
    (others : ∀ m, m ≠ n → a'.sources.get? m = a.sources.get? m)
    (nextId : a.protector.nextId ≤ a'.protector.nextId)
    (own : ∀ id, a'.Holds n id →
      a.Holds n id ∨ (a.protector.nextId ≤ id ∧ id < a'.protector.nextId))
    (guarded : ∀ s, a'.sources.get? n = some s → Source.Guarded a.log ⟨s, a'.protector⟩)
    (kept : ∀ id, id < a.protector.nextId → ¬ a.Holds n id →
      a'.protector.ranges.get? id = a.protector.ranges.get? id) : a'.Sound := by
  have handle (m : Int) : a'.handle m = a.handle m := by rw [Archive.handle, handles]; rfl
  have held_before (m : Int) (id : Nat) (held : a'.Holds m id) :
      a.Holds m id ∨ (m = n ∧ a.protector.nextId ≤ id ∧ id < a'.protector.nextId) := by
    by_cases same : m = n
    · subst same
      exact (own id held).imp_right fun new => ⟨rfl, new⟩
    · obtain ⟨s, found, active⟩ := held
      exact .inl ⟨s, (others m same).symm.trans found, active⟩
  -- A range is one of before, and then nobody else's, or it has a number that is new.
  refine ⟨fun m s found => ?_, fun m id held => ?_, fun m id held => ?_,
    fun m k id held held' => ?_, fun m k id held held' => ?_⟩
  · by_cases same : m = n
    · subst same
      rw [log]
      exact guarded s found
    · rw [others m same] at found
      refine (h.guarded m s found).of_same rfl (congrArg (·.recordsPerFile) log)
        fun id range active registered => ?_
      have held : a.Holds m id := ⟨s, found, active⟩
      rw [log, kept id (h.known m id held) fun held' => same (h.alone m n id held held')]
      exact ⟨registered, fun first => first⟩
  · rcases held_before m id held with before | ⟨-, -, known⟩
    · exact Nat.lt_of_lt_of_le (h.known m id before) nextId
    · exact known
  · rw [handle] at held
    exact Nat.lt_of_lt_of_le (h.handles m id held) nextId
  · rcases held_before m id held with before | ⟨rfl, new, -⟩
    · rcases held_before k id held' with before' | ⟨rfl, new, -⟩
      · exact h.alone m k id before before'
      · exact absurd (h.known m id before) (Nat.not_lt.2 new)
    · rcases held_before k id held' with before' | ⟨rfl, -, -⟩
      · exact absurd (h.known k id before') (Nat.not_lt.2 new)
      · rfl
  · rw [handle] at held'
    rcases held_before m id held with before | ⟨rfl, new, -⟩
    · exact h.apart m k id before held'
    · exact absurd (h.handles k id held') (Nat.not_lt.2 new)

/-! ## Handles -/

theorem setHandle (n : Int) {handle : RangeHandle}
    (known : ∀ id, handle = .active id → ∃ m, a.handle m = .active id) :
    (a.setHandle n handle).Sound := by
  refine h.of_handles rfl rfl ?_ (fun m id held => .inl ?_) fun m id held => ?_
  · exact Nat.le_of_eq (a.protector.nextId_release (a.handle n)).symm
  · rw [handle_setHandle] at held
    split at held
    · exact known id held
    · exact ⟨m, held⟩
  · rw [get?_setHandle, if_neg (h.apart m n id held)]

theorem release (n : Int) : (a.release n).Sound :=
  h.setHandle n fun _ held => ⟨n, FileProtector.active_of_release held⟩

theorem protect (n : Int) (name : Octets) (start : Int) : (a.protect n name start).Sound := by
  refine h.of_handles rfl rfl (later_protect a n name start).nextId (fun m id held => ?_)
    fun m id held => get?_protect a n name start (h.known m id held) (h.apart m n id held)
  rw [handle_protect] at held
  rw [nextId_protect]
  split at held
  · cases held
    exact .inr ⟨Nat.le_refl _, Nat.lt_succ_self _⟩
  · exact .inl ⟨m, held⟩

theorem advance (n file : Int) : (endState (Archive.advance n file a)).Sound := by
  rw [endState_advance]
  refine h.of_handles rfl rfl ?_ (fun m id held => .inl ⟨m, held⟩) fun m id held => ?_
  · exact Nat.le_of_eq (FileProtector.nextId_advance ..).symm
  · exact FileProtector.get?_advance (h.apart m n id held) file a.protector

theorem move (giver taker : Int) : (a.move giver taker).Sound := by
  unfold Archive.move
  split
  · exact h
  · refine (h.setHandle taker fun id held => ⟨giver, held⟩).of_handles rfl rfl (Nat.le_refl _)
      (fun m id held => .inl ⟨m, ?_⟩) fun _ _ _ => rfl
    rw [Archive.handle, Table.get?_insert] at held
    split at held
    · cases held
    · exact held

theorem drop (n : Int) : (a.drop n).Sound := by
  refine (h.release n).of_handles rfl rfl (Nat.le_refl _)
    (fun m id held => .inl ⟨m, ?_⟩) fun _ _ _ => rfl
  rw [Archive.handle, Archive.drop, Table.get?_erase] at held
  split at held
  · cases held
  · exact held

/-! ## Sources -/

theorem shutDown (n : Int) : (a.shutDown n).Sound := by
  refine h.of_source n (log_shutDown a n) (handles_shutDown a n)
    (fun m other => get?_sources_shutDown a n other) (later_shutDown a n).nextId
    (fun id held => .inl (holds_of_shutDown a n held)) (fun s found => ?_)
    fun id _ other => get?_shutDown a n other
  unfold Archive.shutDown at found ⊢
  split at found
  next nobody => cases nobody.symm.trans found
  next s' found' =>
    cases ((Table.get?_insert ..).trans (if_pos rfl)).symm.trans found
    obtain ⟨range, released⟩ := (h.guarded n s' found').shutDown
    exact Source.guarded_released released

theorem dropSource (n : Int) : (a.dropSource n).Sound := by
  have gone : (a.dropSource n).sources.get? n = none :=
    (Table.get?_erase ..).trans (if_pos rfl)
  refine (h.shutDown n).of_source n rfl rfl (fun m other => ?_) (Nat.le_refl _)
    (fun id held => ?_) (fun s found => ?_) fun _ _ _ => rfl
  · exact (Table.get?_erase ..).trans (if_neg other)
  · obtain ⟨s, found, -⟩ := held
    cases gone.symm.trans found
  · cases gone.symm.trans found

theorem openSource (n : Int) (feeder : Octets) (vlsn : Int) :
    (endState (Archive.openSource n feeder vlsn a)).Sound := by
  unfold Archive.openSource
  cases opened : Source.ofStart a.log a.protector feeder vlsn with
  | error e => exact h
  | ok c =>
    -- The new range is registered first, and then the source that had the number goes.
    obtain ⟨active, protector, guarded⟩ := Source.guarded_ofStart opened
    let a₁ : Archive := { a with protector := c.protector }
    let a₂ : Archive :=
      { a₁.shutDown n with sources := (a₁.shutDown n).sources.insert n c.source }
    have nextId : a₂.protector.nextId = a.protector.nextId + 1 := by
      refine (nextId_shutDown a₁ n).trans ?_
      rw [show a₁.protector = c.protector from rfl, protector]
      rfl
    have here : a₂.sources.get? n = some c.source := (Table.get?_insert ..).trans (if_pos rfl)
    have newest : ¬ a₁.Holds n a.protector.nextId := fun held =>
      Nat.lt_irrefl _ (h.known n _ held)
    change a₂.Sound
    refine h.of_source n (log_shutDown a₁ n) (handles_shutDown a₁ n) (fun m other => ?_)
      (by omega) (fun id held => .inr ?_) (fun s found => ?_) fun id known other => ?_
    · exact (Table.get?_insert ..).trans ((if_neg other).trans (get?_sources_shutDown a₁ n other))
    · obtain ⟨s, found, active'⟩ := held
      cases here.symm.trans found
      cases active.symm.trans active'
      omega
    · cases here.symm.trans found
      refine guarded.of_same rfl rfl fun id range active' registered => ⟨?_, fun first => first⟩
      cases active.symm.trans active'
      exact (get?_shutDown a₁ n newest).trans registered
    · refine (get?_shutDown a₁ n other).trans ?_
      rw [show a₁.protector = c.protector from rfl, protector]
      exact (Table.get?_insert ..).trans (if_neg (Nat.ne_of_lt known))

theorem fetch (n vlsn : Int) (wanted : Bool) :
    (endState (Archive.fetch n vlsn wanted a)).Sound := by
  unfold Archive.fetch
  cases found : a.sources.get? n with
  | none => exact h
  | some s =>
    have fetched := (h.guarded n s found).fetch vlsn wanted
    dsimp only
    -- Whether it fails or not, a fetch leaves a source that is guarded.
    have restored (c' : Custody) (guarded : Source.Guarded a.log c')
        (fetched : Source.Fetched ⟨s, a.protector⟩ c') : (a.restore n c').Sound := by
      have here : (a.restore n c').sources.get? n = some c'.source :=
        (Table.get?_insert ..).trans (if_pos rfl)
      refine h.of_source n rfl rfl (fun m other => ?_) fetched.later.nextId (fun id held => .inl ?_)
        (fun s' found' => ?_) fun id _ other => ?_
      · exact (Table.get?_insert ..).trans (if_neg other)
      · obtain ⟨s', found', active⟩ := held
        cases here.symm.trans found'
        exact ⟨s, found, fetched.range.symm.trans active⟩
      · cases here.symm.trans found'
        exact guarded
      · exact fetched.others id fun active => other ⟨s, found, active⟩
    cases done : Source.fetch a.log vlsn wanted ⟨s, a.protector⟩ with
    | ok r c' =>
      rw [done] at fetched
      dsimp only [endState]
      exact restored c' fetched.1 fetched.2
    | error e c' =>
      rw [done] at fetched
      exact restored c' fetched.1 fetched.2.1

/-! ## Whole runs -/

theorem step (action : Action) : (a.step action).Sound := by
  cases action with
  | append r => exact h.of_log rfl rfl rfl rfl fun _ _ _ first => first
  | markDurable vlsn =>
    change (endState (a.markDurable vlsn)).Sound
    unfold Archive.markDurable
    split
    next done =>
      unfold CommitLog.markDurable at done
      split at done
      · cases done
        exact h.of_log rfl rfl rfl rfl fun _ _ _ first => first
      · cases done
    · exact h
  | clean =>
    exact h.of_log rfl rfl rfl rfl fun _ _ registered first =>
      CommitLog.firstFile_clean registered first
  | protect n name start => exact h.protect n name start
  | advance n file => exact h.advance n file
  | release n => exact h.release n
  | move giver taker => exact h.move giver taker
  | drop n => exact h.drop n
  | place n vlsn =>
    change (endState (Archive.place n vlsn a)).Sound
    unfold Archive.place
    split
    · exact h.of_log rfl rfl rfl rfl fun _ _ _ first => first
    · exact h
  | scan n vlsn =>
    change (endState (Archive.scan n vlsn a)).Sound
    unfold Archive.scan
    split
    · exact h
    · split <;> exact h.of_log rfl rfl rfl rfl fun _ _ _ first => first
  | openSource n feeder vlsn => exact h.openSource n feeder vlsn
  | fetch n vlsn wanted => exact h.fetch n vlsn wanted
  | shutDown n => exact h.shutDown n
  | dropSource n => exact h.dropSource n

theorem run (actions : List Action) : (a.run actions).Sound := by
  induction actions generalizing a with
  | nil => exact h
  | cons action rest ih => exact ih (h.step action)

/-- No range moves back. -/
theorem later_step (action : Action) : a.protector.Later (a.step action).protector := by
  -- Reading and cleaning leave the registry alone, and a number is never given twice.
  cases action with
  | append r | clean => exact .refl _
  | markDurable vlsn =>
    change a.protector.Later (endState (a.markDurable vlsn)).protector
    unfold Archive.markDurable
    split <;> exact .refl _
  | protect n name start => exact later_protect a n name start
  | advance n file =>
    change a.protector.Later (endState (Archive.advance n file a)).protector
    rw [endState_advance]
    exact FileProtector.later_advance (a.handle n) file a.protector
  | release n | drop n => exact FileProtector.later_release _ _
  | move giver taker =>
    change a.protector.Later (a.move giver taker).protector
    unfold Archive.move
    split
    · exact .refl _
    · exact FileProtector.later_release _ _
  | place n vlsn =>
    change a.protector.Later (endState (Archive.place n vlsn a)).protector
    unfold Archive.place
    split <;> exact .refl _
  | scan n vlsn =>
    change a.protector.Later (endState (Archive.scan n vlsn a)).protector
    unfold Archive.scan
    split
    · exact .refl _
    · split <;> exact .refl _
  | openSource n feeder vlsn =>
    change a.protector.Later (endState (Archive.openSource n feeder vlsn a)).protector
    unfold Archive.openSource
    split
    next c opened =>
      have protector := (Source.guarded_ofStart opened).2.1
      refine .trans ?_ (later_shutDown { a with protector := c.protector } n)
      exact protector ▸ FileProtector.later_protect ..
    · exact .refl _
  | fetch n vlsn wanted =>
    change a.protector.Later (endState (Archive.fetch n vlsn wanted a)).protector
    unfold Archive.fetch
    split
    · exact .refl _
    next s found =>
      have fetched := (h.guarded n s found).fetch vlsn wanted
      split
      next done =>
        rw [done] at fetched
        exact fetched.2.later
      next failed =>
        rw [failed] at fetched
        exact fetched.2.1.later
  | shutDown n | dropSource n => exact later_shutDown a n

theorem later_run (actions : List Action) : a.protector.Later (a.run actions).protector := by
  induction actions generalizing a with
  | nil => exact .refl _
  | cons action rest ih => exact (h.later_step action).trans (ih (h.step action))

end Sound

/-! ## What is open -/

/-- An action on another source, or on none, leaves a source as it is. -/
theorem get?_sources_step {n : Int} {action : Action} (other : action.source? ≠ some n) :
    (a.step action).sources.get? n = a.sources.get? n := by
  have apart {m : Int} (other : some m ≠ some n) : n ≠ m := fun same => other (congrArg _ same.symm)
  cases action with
  | append r | clean | protect m name start | release m | drop m => rfl
  | advance m file => rw [step, endState_advance]
  | move giver taker =>
    change (a.move giver taker).sources.get? n = _
    unfold move
    split <;> rfl
  | markDurable w =>
    change (endState (a.markDurable w)).sources.get? n = _
    unfold markDurable
    split <;> rfl
  | place m w =>
    change (endState (place m w a)).sources.get? n = _
    unfold place
    split <;> rfl
  | scan m w =>
    change (endState (scan m w a)).sources.get? n = _
    unfold scan
    split
    · rfl
    · split <;> rfl
  | openSource m feeder w =>
    change (endState (openSource m feeder w a)).sources.get? n = _
    unfold openSource
    split
    · exact (Table.get?_insert ..).trans
        ((if_neg (apart other)).trans (get?_sources_shutDown _ m (apart other)))
    · rfl
  | shutDown m => exact get?_sources_shutDown a m (apart other)
  | dropSource m =>
    exact (Table.get?_erase ..).trans
      ((if_neg (apart other)).trans (get?_sources_shutDown a m (apart other)))
  | fetch m w wanted =>
    change (endState (fetch m w wanted a)).sources.get? n = _
    unfold fetch
    split
    · rfl
    · split <;> exact (Table.get?_insert ..).trans (if_neg (apart other))

theorem openBehind_of_other {n : Int} {was : Bool} {action : Action}
    (other : action.source? ≠ some n) : openBehind n a was action = was := by
  cases action with
  | openSource m feeder w => exact if_neg fun same => other (congrArg _ same)
  | shutDown m | dropSource m => exact if_neg fun same => other (congrArg _ same)
  | _ => rfl

theorem holds_openSource {n : Int} {feeder : Octets} {vlsn : Int}
    (opened : openSource n feeder vlsn a = .ok () a') : ∃ id, a'.Holds n id := by
  unfold openSource at opened
  split at opened
  next c started =>
    cases opened
    exact ⟨_, c.source, (Table.get?_insert ..).trans (if_pos rfl),
      (Source.guarded_ofStart started).1⟩
  next => cases opened

namespace Sound

variable (h : a.Sound) {n : Int}

include h

theorem not_holds_shutDown (id : Nat) : ¬ (a.shutDown n).Holds n id := by
  rintro ⟨s', found', active⟩
  unfold Archive.shutDown at found'
  split at found'
  next nobody => cases nobody.symm.trans found'
  next s found =>
    obtain ⟨range, released⟩ := (h.guarded n s found).shutDown
    cases ((Table.get?_insert ..).trans (if_pos rfl)).symm.trans found'
    cases released.symm.trans active

/-- Reading through a source neither opens nor closes it. -/
theorem holds_fetch (vlsn : Int) (wanted : Bool) (id : Nat) :
    (endState (Archive.fetch n vlsn wanted a)).Holds n id ↔ a.Holds n id := by
  unfold Archive.fetch
  cases found : a.sources.get? n with
  | none => exact .rfl
  | some s =>
    have fetched := (h.guarded n s found).fetch vlsn wanted
    have restored (c : Custody) (range : c.source.range = s.range) :
        (a.restore n c).Holds n id ↔ a.Holds n id := by
      rw [Holds, Holds, get?_restore, found]
      simp only [Option.some.injEq, exists_eq_left', range]
    dsimp only
    cases done : Source.fetch a.log vlsn wanted ⟨s, a.protector⟩ with
    | ok r c =>
      rw [done] at fetched
      exact restored c fetched.2.range
    | error e c =>
      rw [done] at fetched
      exact restored c fetched.2.1.range

theorem open_step {was : Bool} (before : (∃ id, a.Holds n id) ↔ was = true) (action : Action) :
    (∃ id, (a.step action).Holds n id) ↔ openBehind n a was action = true := by
  by_cases own : action.source? = some n
  case neg =>
    rw [openBehind_of_other own, ← before]
    simp only [Holds, get?_sources_step own]
  -- Four actions are about the source itself.
  cases action with
  | openSource m feeder w =>
    obtain rfl : m = n := Option.some.inj own
    rw [openBehind, if_pos rfl]
    change (∃ id, (endState (Archive.openSource m feeder w a)).Holds m id) ↔ _
    cases opened : Archive.openSource m feeder w a with
    | ok _ a' => exact iff_of_true (holds_openSource opened) rfl
    | error e a' =>
      have same : a' = a := by
        unfold Archive.openSource at opened
        split at opened
        · cases opened
        · cases opened
          rfl
      exact same ▸ before
  | fetch m w wanted =>
    obtain rfl : m = n := Option.some.inj own
    exact (exists_congr (h.holds_fetch w wanted)).trans before
  | shutDown m =>
    obtain rfl : m = n := Option.some.inj own
    rw [openBehind, if_pos rfl]
    exact iff_of_false (not_exists.2 h.not_holds_shutDown) Bool.false_ne_true
  | dropSource m =>
    obtain rfl : m = n := Option.some.inj own
    rw [openBehind, if_pos rfl]
    refine iff_of_false ?_ Bool.false_ne_true
    rintro ⟨id, s, found, -⟩
    cases ((Table.get?_erase ..).trans (if_pos rfl)).symm.trans found
  | _ => cases own

/-- Whether a source is open can be told from what was done. -/
theorem open_run {was : Bool} (before : (∃ id, a.Holds n id) ↔ was = true)
    (actions : List Action) :
    (∃ id, (a.run actions).Holds n id) ↔ openAfter n a was actions = true := by
  induction actions generalizing a was with
  | nil => exact before
  | cons action rest ih => exact ih (h.step action) (h.open_step before action)

end Sound

theorem open_run_ofLog (log : CommitLog) (n : Int) (actions : List Action) :
    (∃ id, (run { log } actions).Holds n id) ↔ openAfter n { log } false actions = true :=
  (sound_ofLog log).open_run (iff_of_false nofun Bool.false_ne_true) actions

/-! ## What is safe -/

/-- Whether a source reads what it still has to read.  Its range covers it, will not move
    back whatever is done, and a fetch through it never finds a file gone. -/
structure Safe (a : Archive) (n : Int) (s : Source) (id : Nat) : Prop where
  covered : ∃ range, a.protector.ranges.get? id = some range ∧
    (a.log.firstFile : Int) ≤ range.start ∧ range.start ≤ s.cursor.lastFile ∧
    s.cursor.lastFile ≤ a.log.fileOf (s.cursor.next - 1)
  forward : ∀ actions range range', a.protector.ranges.get? id = some range →
    (a.run actions).protector.ranges.get? id = some range' → range.start ≤ range'.start
  there : ∀ vlsn wanted e a', Archive.fetch n vlsn wanted a = .error e a' →
    ∀ e', e = .cursor (.log e') → e'.isInsufficientLog = false

/-- Whether cleaning takes only files that no range protects and that durable records have
    filled. -/
def CleansSafely (a : Archive) : Prop :=
  ∀ file : Int, (a.log.firstFile : Int) ≤ file → file < (a.clean.log.firstFile : Int) →
    a.protector.protects file = false ∧
      ∀ position : Int, a.log.durable ≤ position → file < a.log.fileOf position

variable {n : Int} {s : Source} {id : Nat}

/-- A source that is guarded never finds the log gone. -/
theorem Sound.fetch_ne_log (h : a.Sound) (n vlsn : Int) (wanted : Bool) (e : LogError)
    (a' : Archive) : Archive.fetch n vlsn wanted a ≠ .error (.cursor (.log e)) a' := by
  intro failed
  unfold Archive.fetch at failed
  split at failed
  · cases failed
  next s found =>
    have fetched := (h.guarded n s found).fetch vlsn wanted
    split at failed
    · cases failed
    next failed' =>
      cases failed
      rw [failed'] at fetched
      rcases fetched.2.2 with ⟨next, behind⟩ | ⟨name, gone⟩
      · cases behind
      · cases gone

theorem Sound.safe (h : a.Sound) (found : a.sources.get? n = some s)
    (active : s.range = .active id) : a.Safe n s id := by
  have guarded := h.guarded n s found
  refine ⟨?_, fun actions range range' registered registered' => ?_,
    fun vlsn wanted e a' failed e' same => ?_⟩
  · obtain ⟨range, registered, kept, past⟩ := (Source.guarded_active active).1 guarded
    exact ⟨range, registered, kept, past.last, past.next⟩
  · obtain ⟨range₁, registered₁, le⟩ := (h.later_run actions).forward id
      (h.known n id ⟨s, found, active⟩) range' registered'
    cases registered.symm.trans registered₁
    exact le
  · subst same
    exact absurd failed (h.fetch_ne_log n vlsn wanted e' a')

/-- Cleaning stops at the least protected file, and at the file of the next durable record. -/
theorem cleansSafely (a : Archive) : a.CleansSafely := by
  intro file later taken
  have limit : file < a.log.cleanLimit a.protector := by
    simp only [Archive.clean, CommitLog.clean] at taken
    omega
  refine ⟨?_, fun position beyond => ?_⟩
  · rw [FileProtector.protects, List.any_eq_false]
    intro range registered
    have start := a.log.cleanLimit_le_start registered
    simp only [decide_eq_true_eq, Int.not_le]
    exact Int.lt_of_lt_of_le limit start
  · have current := a.log.cleanLimit_le_current a.protector
    exact Int.lt_of_lt_of_le limit
      (Int.le_trans current (CommitLog.fileOf_le (Int.natCast_nonneg _) beyond))

/-- Whatever is done with a log and its readers, each source is safe from its opening on until it
    is shut down or discarded, and cleaning takes nothing that is still needed. -/
theorem safe_run (log : CommitLog) (actions : List Action) :
    (∀ n s, (run { log } actions).sources.get? n = some s →
      (∃ id, s.range = .active id ∧ (run { log } actions).Safe n s id) ∨
        ∃ range, s.range = .released range) ∧
      (∀ n, (∃ id, (run { log } actions).Holds n id) ↔
        openAfter n { log } false actions = true) ∧
      (run { log } actions).CleansSafely := by
  have sound := (sound_ofLog log).run actions
  refine ⟨fun n s found => ?_, fun n => open_run_ofLog log n actions, cleansSafely _⟩
  cases held : s.range with
  | active id => exact .inl ⟨id, rfl, sound.safe found held⟩
  | released range => exact .inr ⟨range, rfl⟩
  | empty => exact absurd held (sound.guarded n s found).ne_empty

end Replication.Log.Archive
