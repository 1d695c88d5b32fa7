import Replication.Log.Opening
import Replication.Proofs.Log.Fetching

/-! # Whether a source is born protected

A constructor that looks its first record up and protects the file of that in one go makes a
source that finds its records.  Between its two steps that file is nobody's, and a cleaning
that comes then may take it.  The source is made all the same, and its first fetch fails.
-/

namespace Replication.Log

/-! ## Looking a record up -/

namespace CommitLog

variable {log : CommitLog} {file : Int}

theorem firstFile_clean_le (p : FileProtector) (nonneg : 0 ≤ file) :
    ((log.clean p).firstFile : Int) ≤ file ↔
      (log.firstFile : Int) ≤ file ∧ log.cleanLimit p ≤ file := by
  simp only [clean]
  omega

end CommitLog

namespace Cursor

variable {log log' : CommitLog} {vlsn : Int} {c : Cursor}

/-- A cursor in front of a record, whether the file of that is there or not. -/
def inFront (log : CommitLog) (vlsn : Int) : Cursor where
  next := vlsn
  startFile := log.fileOf (vlsn - 1)
  lastFile := log.fileOf (vlsn - 1)

theorem ofStart_of_there (positive : 0 < vlsn)
    (there : (log.firstFile : Int) ≤ log.fileOf (vlsn - 1)) :
    ofStart log vlsn = .ok (inFront log vlsn) := by
  rw [ofStart, CommitLog.findPosition, if_neg (Int.not_le.2 positive)]
  dsimp only
  rw [if_neg (Int.not_lt.2 there)]
  rfl

theorem ofStart_of_cleaned (positive : 0 < vlsn)
    (gone : log.fileOf (vlsn - 1) < (log.firstFile : Int)) :
    ofStart log vlsn = .error (.cleaned vlsn (log.fileOf (vlsn - 1))) := by
  rw [ofStart, CommitLog.findPosition, if_neg (Int.not_le.2 positive)]
  dsimp only
  rw [if_pos gone]
  rfl

theorem eq_inFront (found : ofStart log vlsn = .ok c) :
    0 < vlsn ∧ (log.firstFile : Int) ≤ log.fileOf (vlsn - 1) ∧ c = inFront log vlsn := by
  by_cases positive : 0 < vlsn
  · by_cases there : (log.firstFile : Int) ≤ log.fileOf (vlsn - 1)
    · cases (ofStart_of_there positive there).symm.trans found
      exact ⟨positive, there, rfl⟩
    · cases (ofStart_of_cleaned positive (Int.not_le.1 there)).symm.trans found
  · rw [ofStart, CommitLog.findPosition, if_pos (Int.not_lt.1 positive)] at found
    cases found

end Cursor

/-! ## What is cleaned in a run -/

namespace Archive

variable {a : Archive} {file : Int}

theorem fileOf_step (a : Archive) (action : Action) (position : Int) :
    (a.step action).log.fileOf position = a.log.fileOf position := by
  rw [log_step]
  cases action with
  | markDurable w =>
    change ((a.log.markDurable w).toOption.getD a.log).fileOf position = _
    rw [CommitLog.fileOf, (a.log.markDurable_keeps w).2.2]
    rfl
  | _ => rfl

theorem fileOf_run (a : Archive) (actions : List Action) (position : Int) :
    (a.run actions).log.fileOf position = a.log.fileOf position := by
  induction actions generalizing a with
  | nil => rfl
  | cons action rest ih => exact (ih (a.step action)).trans (fileOf_step a action position)

/-- Whether each cleaning in a run stops at a file or before. -/
def Spares (a : Archive) (file : Int) (actions : List Action) : Prop :=
  ∀ early late, actions = early ++ .clean :: late →
    (a.run early).log.cleanLimit (a.run early).protector ≤ file

theorem spares_cons {action : Action} {rest : List Action} :
    a.Spares file (action :: rest) ↔
      (action = .clean → a.log.cleanLimit a.protector ≤ file) ∧
        (a.step action).Spares file rest := by
  constructor
  · intro spares
    refine ⟨fun same => ?_, fun early late split => ?_⟩
    · exact spares [] rest (congrArg (· :: rest) same)
    · exact spares (action :: early) late (congrArg (action :: ·) split)
  · rintro ⟨first, spares⟩ early late split
    cases early with
    | nil => exact first (List.cons.inj split).1
    | cons action' early =>
      obtain ⟨rfl, tail⟩ := List.cons.inj split
      exact spares early late tail

theorem firstFile_step (nonneg : 0 ≤ file) (action : Action) :
    ((a.step action).log.firstFile : Int) ≤ file ↔
      (a.log.firstFile : Int) ≤ file ∧
        (action = .clean → a.log.cleanLimit a.protector ≤ file) := by
  rw [log_step]
  by_cases same : action = .clean
  · subst same
    exact (CommitLog.firstFile_clean_le a.protector nonneg).trans
      (and_congr_right fun _ => ⟨fun limit _ => limit, fun limit => limit rfl⟩)
  · have kept : (action.onLog a.protector a.log).firstFile = a.log.firstFile := by
      cases action with
      | clean => exact absurd rfl same
      | markDurable w => exact (a.log.markDurable_keeps w).2.1
      | _ => rfl
    rw [kept]
    exact (and_iff_left fun clean => absurd clean same).symm

/-- After a run, a file is there just if it was there before and no cleaning took it. -/
theorem firstFile_run (nonneg : 0 ≤ file) (actions : List Action) :
    ((a.run actions).log.firstFile : Int) ≤ file ↔
      (a.log.firstFile : Int) ≤ file ∧ a.Spares file actions := by
  induction actions generalizing a with
  | nil =>
    refine (and_iff_left fun early late split => ?_).symm
    cases early <;> cases split
  | cons action rest ih =>
    have step : ((a.run (action :: rest)).log.firstFile : Int) ≤ file ↔
        ((a.step action).log.firstFile : Int) ≤ file ∧ (a.step action).Spares file rest := ih
    rw [step, firstFile_step nonneg, spares_cons, and_assoc]

/-! ## Registering -/

variable {n : Int} {feeder : Octets} {vlsn : Int} {c : Cursor}

theorem log_register (a : Archive) (n : Int) (feeder : Octets) (vlsn : Int) (c : Cursor) :
    (a.register n feeder vlsn c).log = a.log :=
  log_shutDown { a with protector := _ } n

/-- Both steps of the constructor, with nothing in between. -/
theorem openSource_of_found (found : Cursor.ofStart a.log vlsn = .ok c) :
    openSource n feeder vlsn a = .ok () (a.register n feeder vlsn c) := by
  rw [openSource, Source.ofStart, found]
  rfl

theorem openSource_of_refused {e : LogError} (refused : Cursor.ofStart a.log vlsn = .error e) :
    openSource n feeder vlsn a = .error e a := by
  rw [openSource, Source.ofStart, refused]
  rfl

/-- The new source protects the files from the one on that its cursor begins in. -/
theorem register_source (known : ∀ id, a.Holds n id → id < a.protector.nextId)
    (feeder : Octets) (vlsn : Int) (c : Cursor) :
    let made := a.register n feeder vlsn c
    made.sources.get? n = some ⟨vlsn, c, .active a.protector.nextId⟩ ∧
      made.protector.startOf (.active a.protector.nextId) = .ok c.startFile := by
  -- The source that had the number before goes with its own range, which is an older one.
  have newest (p : FileProtector) : ¬ Holds { a with protector := p } n a.protector.nextId :=
    fun held => Nat.lt_irrefl _ (known _ held)
  refine ⟨(Table.get?_insert ..).trans (if_pos rfl), ?_⟩
  have registered : (a.register n feeder vlsn c).protector.ranges.get? a.protector.nextId =
      some ⟨.ofAscii "Feeder-" ++ feeder, c.startFile⟩ :=
    (get?_shutDown _ n (newest _)).trans ((Table.get?_insert ..).trans (if_pos rfl))
  rw [FileProtector.startOf, FileProtector.range?, registered]

theorem fetch_of_cleaned {s : Source} {id : Nat} (found : a.sources.get? n = some s)
    (active : s.range = .active id)
    (gone : a.log.fileOf (s.cursor.next - 1) < (a.log.firstFile : Int)) (wanted : Bool) :
    fetch n s.cursor.next wanted a =
      .error (.cursor (.log (.cleanedUnderReader (a.log.fileOf (s.cursor.next - 1))))) a := by
  have failed : a.log.read (s.cursor.next - 1) =
      .error (.cleanedUnderReader (a.log.fileOf (s.cursor.next - 1))) := if_pos gone
  have scanned : Source.scan a.log s.cursor.next ⟨s, a.protector⟩ =
      .error (.cursor (.log (.cleanedUnderReader (a.log.fileOf (s.cursor.next - 1)))))
        ⟨s, a.protector⟩ := by
    rw [Source.scan, Cursor.scan, if_neg (Int.lt_irrefl _), Cursor.readUntil_of_failed failed]
  rw [fetch_of_found found, Source.fetch_of_active (c := ⟨s, a.protector⟩) active,
    bind_eq_of_error scanned]
  -- The cursor has not moved, so the source is put back as it was.
  exact congrArg _ (restore_self found)

section Register

variable (h : a.Sound) (positive : 0 < vlsn)

include h positive

/-- Whether the source is made in one go or in two steps is the same, if its first file is
    still there. -/
theorem register_of_there (there : (a.log.firstFile : Int) ≤ a.log.fileOf (vlsn - 1)) :
    let made := a.register n feeder vlsn (Cursor.inFront a.log vlsn)
    openSource n feeder vlsn a = .ok () made ∧ ∀ later w wanted e a',
      fetch n w wanted (made.run later) ≠ .error (.cursor (.log e)) a' := by
  intro made
  have opened : openSource n feeder vlsn a = .ok () made :=
    openSource_of_found (Cursor.ofStart_of_there positive there)
  have sound := h.openSource n feeder vlsn
  rw [opened] at sound
  refine ⟨opened, fun later w wanted e a' => ?_⟩
  have sound' : (made.run later).Sound := sound.run later
  exact sound'.fetch_ne_log n w wanted e a'

/-- The second step does not notice that the file is gone. -/
theorem register_of_gone (gone : a.log.fileOf (vlsn - 1) < (a.log.firstFile : Int)) :
    let made := a.register n feeder vlsn (Cursor.inFront a.log vlsn)
    openSource n feeder vlsn a = .error (.cleaned vlsn (a.log.fileOf (vlsn - 1))) a ∧
      ∀ wanted, fetch n vlsn wanted made =
        .error (.cursor (.log (.cleanedUnderReader (a.log.fileOf (vlsn - 1))))) made := by
  intro made
  have log : made.log = a.log := log_register a n feeder vlsn _
  refine ⟨openSource_of_refused (Cursor.ofStart_of_cleaned positive gone), fun wanted => ?_⟩
  have fetched := fetch_of_cleaned (a := made) (register_source (h.known n) feeder vlsn _).1 rfl
    (by rw [log]; exact gone) wanted
  rw [log] at fetched
  exact fetched

end Register

end Archive

/-! ## A constructor among others -/

/-- Whose turn it is: the constructor's, or that of others who use the log. -/
inductive Turn where
  | opener
  | other (action : Archive.Action)

namespace Site

section Turns

variable (n : Int) (feeder : Octets) (vlsn : Int)

def step (site : Site) : Turn → Site
  | .opener => site.construct n feeder vlsn
  | .other action => { site with archive := site.archive.step action }

def run (site : Site) (turns : List Turn) : Site :=
  turns.foldl (step n feeder vlsn) site

end Turns

/-- What the turns were, as long as the constructor has not come to its second step. -/
def Course (vlsn : Int) (a : Archive) (turns : List Turn) (site : Site) : Prop :=
  match site.opening with
  | .begun => ∃ before : List Archive.Action,
      turns = before.map Turn.other ∧ site.archive = a.run before
  | .found c => ∃ before between : List Archive.Action,
      turns = before.map Turn.other ++ .opener :: between.map Turn.other ∧
        Cursor.ofStart (a.run before).log vlsn = .ok c ∧
        site.archive = (a.run before).run between
  | .opened | .failed _ => True

variable {n : Int} {feeder : Octets} {vlsn : Int} {a : Archive} {turns : List Turn} {site : Site}

theorem course_begun (vlsn : Int) (a : Archive) : Course vlsn a [] { archive := a } :=
  ⟨[], rfl, rfl⟩

theorem Course.step (course : Course vlsn a turns site) (turn : Turn) :
    Course vlsn a (turns ++ [turn]) (site.step n feeder vlsn turn) := by
  obtain ⟨archive, opening⟩ := site
  -- Turns of others come before the first step of the constructor, or behind it.
  cases opening with
  | begun =>
    obtain ⟨before, rfl, rfl⟩ := course
    cases turn with
    | opener =>
      simp only [Site.step, construct]
      cases found : Cursor.ofStart (a.run before).log vlsn with
      | ok c => exact ⟨before, [], rfl, found, rfl⟩
      | error e => trivial
    | other action =>
      refine ⟨before ++ [action], ?_, (Archive.run_append a before [action]).symm⟩
      rw [List.map_append]
      rfl
  | found c =>
    obtain ⟨before, between, rfl, found, rfl⟩ := course
    cases turn with
    | opener => trivial
    | other action =>
      refine ⟨before, between ++ [action], ?_, found,
        (Archive.run_append (a.run before) between [action]).symm⟩
      rw [List.map_append, List.append_assoc]
      rfl
  | opened | failed e => cases turn <;> trivial

theorem Course.run (course : Course vlsn a turns site) (later : List Turn) :
    Course vlsn a (turns ++ later) (site.run n feeder vlsn later) := by
  induction later generalizing turns site with
  | nil =>
    rw [List.append_nil]
    exact course
  | cons turn rest ih =>
    rw [List.append_cons]
    exact ih (course.step turn)

/-- A source is born protected just if no cleaning between the two steps of its constructor
    takes the file that it begins in.  Else the constructor makes it all the same, though it
    would have been refused had both steps been one, and its first fetch fails. -/
theorem born_protected_iff (log : CommitLog) (n : Int) (feeder : Octets) (vlsn : Int)
    (turns : List Turn) {c : Cursor}
    (found : (run n feeder vlsn { archive := { log } } turns).opening = .found c) :
    let site := run n feeder vlsn { archive := { log } } turns
    let made := (site.construct n feeder vlsn).archive
    (site.construct n feeder vlsn).opening = .opened ∧
      (∃ s id, made.sources.get? n = some s ∧ s.cursor = c ∧ s.range = .active id ∧
        made.protector.startOf s.range = .ok c.startFile) ∧
      c.startFile = made.log.fileOf (vlsn - 1) ∧
      (∃ before between : List Archive.Action,
        turns = before.map Turn.other ++ .opener :: between.map Turn.other ∧
          Cursor.ofStart (Archive.run { log } before).log vlsn = .ok c ∧
          ((made.log.firstFile : Int) ≤ c.startFile ↔
            (Archive.run { log } before).Spares c.startFile between)) ∧
      ((made.log.firstFile : Int) ≤ c.startFile →
        Archive.openSource n feeder vlsn site.archive = .ok () made ∧
          ∀ later w wanted e a',
            Archive.fetch n w wanted (made.run later) ≠ .error (.cursor (.log e)) a') ∧
      (c.startFile < (made.log.firstFile : Int) →
        Archive.openSource n feeder vlsn site.archive =
            .error (.cleaned vlsn c.startFile) site.archive ∧
          ∀ wanted, Archive.fetch n vlsn wanted made =
            .error (.cursor (.log (.cleanedUnderReader c.startFile))) made) := by
  intro site made
  have course : Course vlsn { log } turns site :=
    (course_begun vlsn { log }).run turns
  have opening : site.opening = .found c := found
  unfold Course at course
  rw [opening] at course
  obtain ⟨before, between, rfl, looked, after⟩ := course
  have constructed : site.construct n feeder vlsn =
      { archive := site.archive.register n feeder vlsn c, opening := .opened } := by
    rw [construct, opening]
  have made_eq : made = site.archive.register n feeder vlsn c := by
    rw [show made = (site.construct n feeder vlsn).archive from rfl, constructed]
  have log_made : made.log = site.archive.log := by rw [made_eq, Archive.log_register]
  have sound : site.archive.Sound := by
    rw [after]
    exact ((Archive.sound_ofLog log).run before).run between
  have file : (Archive.run { log } before).log.fileOf (vlsn - 1) =
      site.archive.log.fileOf (vlsn - 1) := by
    rw [after]
    exact (Archive.fileOf_run _ between _).symm
  -- The cursor was placed in front of a file that was there, and has not changed since.
  obtain ⟨positive, there, same⟩ := Cursor.eq_inFront looked
  have cursor : c = Cursor.inFront site.archive.log vlsn := by
    rw [same, Cursor.inFront, file]
    rfl
  have start : c.startFile = site.archive.log.fileOf (vlsn - 1) := by rw [cursor]; rfl
  obtain ⟨source, range⟩ :=
    Archive.register_source (sound.known n) feeder vlsn c
  rw [log_made, made_eq]
  refine ⟨by rw [constructed], ⟨_, _, source, rfl, rfl, range⟩, start,
    ⟨before, between, rfl, looked, ?_⟩, fun here => ?_, fun gone => ?_⟩
  · have nonneg : 0 ≤ c.startFile := by
      rw [start, ← file]
      exact Int.le_trans (Int.natCast_nonneg _) there
    rw [after, Archive.firstFile_run nonneg]
    exact and_iff_right (by rw [start, ← file]; exact there)
  · rw [start] at here
    rw [cursor]
    exact Archive.register_of_there sound positive here
  · rw [start] at gone ⊢
    rw [cursor]
    exact Archive.register_of_gone sound positive gone

namespace Timing

/-- Four durable records, which fill two files of two records. -/
def filled : List Archive.Action :=
  (List.range 4).map (fun i => .append { txn := Int64.ofNat i }) ++ [.markDurable 4]

/-- While another source reads the second file, a constructor is at its beginning too, and the
    cleaner comes before and after its first step. -/
def calm : List Turn :=
  filled.map .other ++ [.other (.openSource 5 [] 3), .other .clean, .opener, .other .clean]

/-- A constructor is at the beginning of the first file, and the cleaner comes after that. -/
def race : List Turn :=
  filled.map .other ++ [.opener, .other .clean]

end Timing

theorem born_protected_iff_calm :
    let site := run 7 [] 3 { archive := { log := Archive.Shipment.log } } Timing.calm
    let made := (site.construct 7 [] 3).archive
    site.opening = .found ⟨3, 1, 1⟩ ∧ made.log.firstFile = 1 ∧
      Archive.openSource 7 [] 3 site.archive = .ok () made ∧
      ∀ later w wanted e a',
        Archive.fetch 7 w wanted (made.run later) ≠ .error (.cursor (.log e)) a' := by
  have found : (run 7 [] 3 { archive := { log := Archive.Shipment.log } } Timing.calm).opening =
      .found ⟨3, 1, 1⟩ := by decide +kernel
  obtain ⟨-, -, -, -, safe, -⟩ := born_protected_iff Archive.Shipment.log 7 [] 3 Timing.calm found
  exact ⟨found, by decide +kernel, safe (by decide +kernel)⟩

/-- A source may be made although its first file is gone by then, and deliver nothing. -/
theorem not_born_protected :
    let site := run 7 [] 1 { archive := { log := Archive.Shipment.log } } Timing.race
    let made := (site.construct 7 [] 1).archive
    site.opening = .found ⟨1, 0, 0⟩ ∧ (site.construct 7 [] 1).opening = .opened ∧
      made.log.fileOf 0 < made.log.firstFile ∧
      ∀ wanted, Archive.fetch 7 1 wanted made =
        .error (.cursor (.log (.cleanedUnderReader 0))) made := by
  intro site made
  have source : made.sources.get? 7 = some ⟨1, ⟨1, 0, 0⟩, .active 0⟩ := by decide +kernel
  have file : made.log.fileOf 0 = 0 := by decide +kernel
  have gone : made.log.fileOf 0 < made.log.firstFile := by decide +kernel
  refine ⟨by decide +kernel, by decide +kernel, gone, fun wanted => ?_⟩
  have failed := Archive.fetch_of_cleaned source rfl gone wanted
  rw [show made.log.fileOf (1 - 1) = 0 from file] at failed
  exact failed

end Site

end Replication.Log
