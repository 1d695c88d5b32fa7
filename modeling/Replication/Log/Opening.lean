import Replication.Log.Archive

/-! # Opening a source in two steps

The constructor of a source takes one lock to look its first record up, and another one to
protect the file of that.  Whatever else is done with the log may come in between.
-/

namespace Replication.Log

/-- How far a constructor has come. -/
inductive Opening where
  | begun
  /-- The first record is there, and its file is not protected yet. -/
  | found (cursor : Cursor)
  | opened
  | failed (e : LogError)
deriving DecidableEq, Repr

/-- A log with its readers, and a source that is being opened. -/
structure Site where
  archive : Archive
  opening : Opening := .begun

/-- Protects the files from the one that a cursor begins in, for a source that reads on with
    it. -/
def Archive.register (n : Int) (feeder : Octets) (vlsn : Int) (cursor : Cursor) (a : Archive) :
    Archive :=
  let (range, protector) := a.protector.protect (.ofAscii "Feeder-" ++ feeder) cursor.startFile
  let a := { a with protector }.shutDown n
  { a with sources := a.sources.insert n { start := vlsn, cursor, range } }

/-- The next locked call of the constructor. -/
def Site.construct (n : Int) (feeder : Octets) (vlsn : Int) (site : Site) : Site :=
  match site.opening with
  | .begun =>
    match Cursor.ofStart site.archive.log vlsn with
    | .ok c => { site with opening := .found c }
    | .error e => { site with opening := .failed e }
  | .found c => { archive := site.archive.register n feeder vlsn c, opening := .opened }
  | .opened | .failed _ => site

end Replication.Log
