import Replication.Log.CommitLog

/-! # Cursors

A cursor reads the log forward.  Asked for a vlsn it skips the records before it and
stays where it is when that record is not durable yet.
-/

namespace Replication.Log

/-- A reader between two records. -/
structure Cursor where
  /-- The vlsn of the record that is read next. -/
  next : Int
  /-- The file where reading began. -/
  startFile : Int
  /-- The file of the record that was read last. -/
  lastFile : Int
deriving DecidableEq, Repr

/-- Why a cursor cannot deliver a record. -/
inductive CursorError where
  | log (e : LogError)
  /-- The record was passed already. -/
  | behind (vlsn next : Int)
deriving DecidableEq, Repr

def CursorError.message : CursorError → Octets
  | .log e => e.message
  | .behind vlsn next =>
    .ofAscii "feeder reader cannot go back to vlsn " ++ Decimal.render vlsn
      ++ .ofAscii ", next is " ++ Decimal.render next

namespace Cursor

/-- A cursor in front of a record. -/
def ofStart (log : CommitLog) (vlsn : Int) : Except LogError Cursor := do
  let file := log.fileOf (← log.findPosition vlsn)
  return { next := vlsn, startFile := file, lastFile := file }

/-- The cursor behind a record that it has read. -/
def pass (c : Cursor) (log : CommitLog) (r : Positioned) : Cursor :=
  { c with next := r.vlsn + 1, lastFile := log.fileOf r.position }

/-- Reads on until the record of a vlsn has been read, or no durable one is left. -/
def readUntil (log : CommitLog) (vlsn : Int) (c : Cursor) :
    EStateM.Result CursorError Cursor (Option Positioned) :=
  match _h : log.read (c.next - 1) with
  | .error e => .error (.log e) c
  | .ok none => .ok none c
  | .ok (some r) =>
    if r.vlsn = vlsn then .ok (some r) (c.pass log r) else readUntil log vlsn (c.pass log r)
termination_by (log.durable + 1 - c.next).toNat
decreasing_by
  have := CommitLog.position_of_read _h
  simp only [pass, Positioned.vlsn]
  omega

/-- The record of a vlsn at or after the cursor. -/
def scan (log : CommitLog) (vlsn : Int) : EStateM CursorError Cursor (Option Positioned) := fun c =>
  if vlsn < c.next then .error (.behind vlsn c.next) c else readUntil log vlsn c

end Cursor

end Replication.Log
