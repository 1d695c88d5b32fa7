import Replication.Log.Cursor

/-! # Sources of a feeder

A source delivers the records that one feeder ships.  It protects the files from the one
that its cursor is in, so that the cleaner never takes what is still to be read.
-/

namespace Replication.Log

/-- A cursor over the log with the range that protects its files. -/
structure Source where
  start : Int
  cursor : Cursor
  range : RangeHandle
deriving DecidableEq, Repr

/-- Why a source cannot deliver a record. -/
inductive SourceError where
  | cursor (e : CursorError)
  | range (e : RangeError)
  | shutDown (name : Octets)
deriving DecidableEq, Repr

def SourceError.message : SourceError → Octets
  | .cursor e => e.message
  | .range e => e.message
  | .shutDown name => .ofAscii "feeder source " ++ name ++ .ofAscii " is shut down"

/-- A source and the registry of the ranges. -/
structure Custody where
  source : Source
  protector : FileProtector
deriving DecidableEq, Repr

namespace Source

/-- A source for the feeder of that name, which begins at a vlsn. -/
def ofStart (log : CommitLog) (p : FileProtector) (feeder : Octets) (vlsn : Int) :
    Except LogError Custody := do
  let cursor ← Cursor.ofStart log vlsn
  let (range, protector) := p.protect (.ofAscii "Feeder-" ++ feeder) cursor.startFile
  return { source := { start := vlsn, cursor, range }, protector }

/-- Reads on with the cursor of a source. -/
def scan (log : CommitLog) (vlsn : Int) :
    EStateM SourceError Custody (Option Positioned) := fun s =>
  match Cursor.scan log vlsn s.source.cursor with
  | .ok r cursor => .ok r { s with source := { s.source with cursor } }
  | .error e cursor => .error (.cursor e) { s with source := { s.source with cursor } }

/-- Lets the range follow the cursor into a later file. -/
def follow : EStateM SourceError Custody Unit := fun s =>
  match s.protector.startOf s.source.range with
  | .error e => .error (.range e) s
  | .ok start =>
    if s.source.cursor.lastFile ≤ start then .ok () s
    else
      match FileProtector.advance s.source.range s.source.cursor.lastFile s.protector with
      | .ok () protector => .ok () { s with protector }
      | .error e protector => .error (.range e) { s with protector }

/-- The record of a vlsn, if it is durable, with its before image if that is wanted. -/
def fetch (log : CommitLog) (vlsn : Int) (withBeforeImage : Bool) :
    EStateM SourceError Custody (Option Positioned) := do
  let s ← get
  if !s.source.range.isActive then throw (.shutDown (s.protector.nameOf s.source.range))
  match ← scan log vlsn with
  | none => return none
  | some r =>
    -- The cursor has moved by now, so the range has to come after it before the record goes out.
    follow
    if withBeforeImage then return some r
    return some { r with record := { r.record with beforeImage := [] } }

/-- Gives up the protection.  The source delivers nothing after that. -/
def shutDown (s : Custody) : Custody :=
  let (range, protector) := s.protector.release s.source.range
  { source := { s.source with range }, protector }

end Source

end Replication.Log
