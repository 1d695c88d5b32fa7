import Replication.Log.Protector
import Replication.Log.Record

/-! # The commit log

Records in the order of their vlsns, cut into files of equal numbers of records.
Readers see the durable ones.  `CommitLog.clean` removes files from the front, as far as
they are complete and no protected range needs them.
-/

namespace Replication.Log

/-! ## 1. The log -/

/-- A log of which the files before `firstFile` are gone. -/
structure CommitLog where
  recordsPerFile : Nat
  recordsPerFile_pos : 0 < recordsPerFile
  records : List Record := []
  /-- The last vlsn that readers see. -/
  durable : Nat := 0
  firstFile : Nat := 0
  durable_le : durable ≤ records.length := by simp

/-- Why the log refuses a request. -/
inductive LogError where
  | recordsPerFileNotPositive
  | neverAppended (vlsn : Int)
  | badStart (vlsn : Int)
  /-- The file of the vlsn is gone. -/
  | cleaned (vlsn file : Int)
  /-- A reader fell behind the cleaner. -/
  | cleanedUnderReader (file : Int)
deriving DecidableEq, Repr

/-- Whether an error says that the log no longer holds what was asked for. -/
def LogError.isInsufficientLog : LogError → Bool
  | .cleaned .. | .cleanedUnderReader _ => true
  | _ => false

def LogError.message : LogError → Octets
  | .recordsPerFileNotPositive => .ofAscii "records per file must be positive"
  | .neverAppended vlsn =>
    .ofAscii "vlsn " ++ Decimal.render vlsn ++ .ofAscii " was never appended"
  | .badStart vlsn => .ofAscii "bad start vlsn " ++ Decimal.render vlsn
  | .cleaned vlsn file =>
    .ofAscii "vlsn " ++ Decimal.render vlsn ++ .ofAscii " is in cleaned file "
      ++ Decimal.render file
  | .cleanedUnderReader file =>
    .ofAscii "log file " ++ Decimal.render file ++ .ofAscii " was cleaned under a reader"

namespace CommitLog

/-- An empty log. -/
def ofRecordsPerFile : Int → Except LogError CommitLog
  | .ofNat (n + 1) => .ok { recordsPerFile := n + 1, recordsPerFile_pos := Nat.succ_pos n }
  | _ => .error .recordsPerFileNotPositive

def last (log : CommitLog) : Nat := log.records.length

def fileOf (log : CommitLog) (position : Int) : Int := position.tdiv log.recordsPerFile

/-! ## 2. Writing and cleaning -/

/-- Adds a record behind the last one. -/
def append (log : CommitLog) (r : Record) : CommitLog :=
  { log with
    records := log.records ++ [r]
    durable_le := by have := log.durable_le; simp; omega }

/-- Makes the records up to a vlsn visible to readers. -/
def markDurable (log : CommitLog) (vlsn : Int) : Except LogError CommitLog :=
  if h : vlsn ≤ log.last then
    .ok { log with
      durable := max log.durable vlsn.toNat
      durable_le := by have := log.durable_le; simp only [last] at h; omega }
  else .error (.neverAppended vlsn)

/-- The first file that cleaning has to keep: the one that the next durable record goes
    to, or an earlier one that is protected. -/
def cleanLimit (log : CommitLog) (p : FileProtector) : Int :=
  let current := log.fileOf log.durable
  -- A range that starts ahead of what is durable gives no more files away.
  match p.least? with
  | some start => min start current
  | none => current

/-- Removes the files that nobody needs. -/
def clean (log : CommitLog) (p : FileProtector) : CommitLog :=
  { log with firstFile := max log.firstFile (log.cleanLimit p).toNat }

/-! ## 3. Reading -/

/-- The position of a vlsn whose file is there. -/
def findPosition (log : CommitLog) (vlsn : Int) : Except LogError Int :=
  if vlsn ≤ 0 then .error (.badStart vlsn)
  else
    let file := log.fileOf (vlsn - 1)
    if file < log.firstFile then .error (.cleaned vlsn file) else .ok (vlsn - 1)

/-- The durable record at a position. -/
def recordAt? (log : CommitLog) (position : Int) : Option Positioned :=
  if 0 ≤ position ∧ position < log.durable then
    log.records[position.toNat]?.map fun record => { record, position := position.toNat }
  else none

/-- The durable record at a position whose file is there. -/
def read (log : CommitLog) (position : Int) : Except LogError (Option Positioned) :=
  let file := log.fileOf position
  if file < log.firstFile then .error (.cleanedUnderReader file) else .ok (log.recordAt? position)

theorem position_of_recordAt? {log : CommitLog} {position : Int} {r : Positioned}
    (h : log.recordAt? position = some r) :
    (r.position : Int) = position ∧ position < log.durable := by
  simp only [recordAt?] at h
  split at h
  · next inside =>
    obtain ⟨record, _, rfl⟩ := Option.map_eq_some_iff.1 h
    exact ⟨by simp; omega, inside.2⟩
  · cases h

theorem position_of_read {log : CommitLog} {position : Int} {r : Positioned}
    (h : log.read position = .ok (some r)) :
    (r.position : Int) = position ∧ position < log.durable := by
  simp only [read] at h
  split at h
  · cases h
  · exact position_of_recordAt? (Except.ok.inj h)

end CommitLog

end Replication.Log
