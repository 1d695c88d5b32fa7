import Replication.Log.Source

/-! # A log with its readers

The log, the registry of protected ranges, and the owners of ranges, cursors and sources
by number.  What takes a number that is in use replaces, and so releases, what held it.
-/

namespace Replication.Log

/-- A log and all who hold on to it. -/
structure Archive where
  log : CommitLog
  protector : FileProtector := {}
  handles : Table Int RangeHandle := .empty
  cursors : Table Int Cursor := .empty
  sources : Table Int Source := .empty

namespace Archive

/-! ## 1. The log -/

def append (a : Archive) (r : Record) : Archive :=
  { a with log := a.log.append r }

/-- Appends so many copies of a record, whose transactions are numbered from its own on. -/
def appendMany (a : Archive) (count : Nat) (r : Record) : Archive :=
  (List.range count).foldl (fun a i => a.append { r with txn := r.txn + Int64.ofNat i }) a

/-- Makes the records up to a vlsn visible to readers. -/
def markDurable (vlsn : Int) : EStateM LogError Archive Unit := fun a =>
  match a.log.markDurable vlsn with
  | .ok log => .ok () { a with log }
  | .error e => .error e a

/-- Removes the files that nobody needs. -/
def clean (a : Archive) : Archive :=
  { a with log := a.log.clean a.protector }

/-! ## 2. Ranges -/

def handle (a : Archive) (n : Int) : RangeHandle :=
  (a.handles.get? n).getD .empty

/-- Releases the handle of a number, which then holds another one. -/
def setHandle (a : Archive) (n : Int) (h : RangeHandle) : Archive :=
  { a with
    protector := (a.protector.release (a.handle n)).2
    handles := a.handles.insert n h }

/-- Protects the files from `start` on. -/
def protect (a : Archive) (n : Int) (name : Octets) (start : Int) : Archive :=
  let (h, protector) := a.protector.protect name start
  { a with protector }.setHandle n h

/-- Moves a range forward. -/
def advance (n file : Int) : EStateM RangeError Archive Unit := fun a =>
  match FileProtector.advance (a.handle n) file a.protector with
  | .ok () protector => .ok () { a with protector }
  | .error e protector => .error e { a with protector }

/-- Gives up a range. -/
def release (a : Archive) (n : Int) : Archive :=
  let (h, protector) := a.protector.release (a.handle n)
  { a with protector, handles := a.handles.insert n h }

/-- Hands a range on.  The giver is empty after that, unless it is the taker too. -/
def move (a : Archive) (giver taker : Int) : Archive :=
  if giver = taker then a
  else
    let a' := a.setHandle taker (a.handle giver)
    { a' with handles := a'.handles.insert giver .empty }

/-- Discards a handle. -/
def drop (a : Archive) (n : Int) : Archive :=
  let a := a.release n
  { a with handles := a.handles.erase n }

/-! ## 3. Cursors and sources -/

/-- Places a cursor in front of a record. -/
def place (n vlsn : Int) : EStateM LogError Archive Unit := fun a =>
  match Cursor.ofStart a.log vlsn with
  | .ok c => .ok () { a with cursors := a.cursors.insert n c }
  | .error e => .error e a

def scan (n vlsn : Int) : EStateM CursorError Archive (Option Positioned) := fun a =>
  match a.cursors.get? n with
  | none => .ok none a
  | some c =>
    match Cursor.scan a.log vlsn c with
    | .ok r c => .ok r { a with cursors := a.cursors.insert n c }
    | .error e c => .error e { a with cursors := a.cursors.insert n c }

/-- Puts back a source and the registry after it. -/
def restore (a : Archive) (n : Int) (s : Custody) : Archive :=
  { a with sources := a.sources.insert n s.source, protector := s.protector }

def shutDown (a : Archive) (n : Int) : Archive :=
  match a.sources.get? n with
  | none => a
  | some source => a.restore n (Source.shutDown { source, protector := a.protector })

def openSource (n : Int) (feeder : Octets) (vlsn : Int) : EStateM LogError Archive Unit := fun a =>
  match Source.ofStart a.log a.protector feeder vlsn with
  | .ok s =>
    let a := { a with protector := s.protector }.shutDown n
    .ok () { a with sources := a.sources.insert n s.source }
  | .error e => .error e a

/-- Fetches a record through a source. -/
def fetch (n vlsn : Int) (withBeforeImage : Bool) :
    EStateM SourceError Archive (Option Positioned) := fun a =>
  match a.sources.get? n with
  | none => .ok none a
  | some source =>
    match Source.fetch a.log vlsn withBeforeImage { source, protector := a.protector } with
    | .ok r s => .ok r (a.restore n s)
    | .error e s => .error e (a.restore n s)

def dropSource (a : Archive) (n : Int) : Archive :=
  let a := a.shutDown n
  { a with sources := a.sources.erase n }

end Archive

end Replication.Log
