import Replication.Octets.Decimal
import Replication.Table

/-! # Protected file ranges

A protected range keeps the cleaner from its first file and all files after it.  Each
range has one owner, who holds a handle: through it the range moves forward, and with
its release the protection ends.
-/

namespace Replication.Log

/-! ## 1. Ranges and handles -/

/-- A range of files from a first one on, under the name of who needs them. -/
structure FileRange where
  name : Octets
  start : Int
deriving DecidableEq, Repr

/-- The ranges that are registered, by their numbers. -/
structure FileProtector where
  ranges : Table Nat FileRange := .empty
  nextId : Nat := 0
deriving DecidableEq, Repr

/-- What the owner of a range has in hand. -/
inductive RangeHandle where
  /-- No range, or one that was handed on. -/
  | empty
  /-- The registered range of that number. -/
  | active (id : Nat)
  /-- A range that was given up, as it was then. -/
  | released (range : FileRange)
deriving DecidableEq, Repr

/-- Why an owner's request fails. -/
inductive RangeError where
  | empty
  | inactive
  /-- A range only moves forward. -/
  | movesBack (name : Octets) (start file : Int)
deriving DecidableEq, Repr

def RangeError.message : RangeError → Octets
  | .empty => .ofAscii "empty file range"
  | .inactive => .ofAscii "advancing an inactive file range"
  | .movesBack name start file =>
    .ofAscii "file range " ++ name ++ .ofAscii " cannot move back from " ++ Decimal.render start
      ++ .ofAscii " to " ++ Decimal.render file

/-- Whether a handle protects files. -/
def RangeHandle.isActive : RangeHandle → Bool
  | .active _ => true
  | _ => false

namespace FileProtector

/-! ## 2. What is protected -/

/-- How many ranges are registered. -/
def count (p : FileProtector) : Nat := p.ranges.entries.length

/-- The first file that any range protects. -/
def least? (p : FileProtector) : Option Int :=
  (p.ranges.values.map (·.start)).min?

/-- Whether a file lies in some range. -/
def protects (p : FileProtector) (file : Int) : Bool :=
  p.ranges.values.any (·.start ≤ file)

def range? (p : FileProtector) : RangeHandle → Option FileRange
  | .empty => none
  | .active id => p.ranges.get? id
  | .released range => some range

/-- The name of a handle's range, which is empty if there is none. -/
def nameOf (p : FileProtector) (h : RangeHandle) : Octets :=
  ((p.range? h).map (·.name)).getD []

/-- The first file of a handle's range. -/
def startOf (p : FileProtector) (h : RangeHandle) : Except RangeError Int :=
  match p.range? h with
  | some range => .ok range.start
  | none => .error .empty

/-! ## 3. Owners' requests -/

def protect (p : FileProtector) (name : Octets) (start : Int) : RangeHandle × FileProtector :=
  (.active p.nextId, { ranges := p.ranges.insert p.nextId { name, start }, nextId := p.nextId + 1 })

/-- Moves the first file of a range forward. -/
def advance (h : RangeHandle) (file : Int) : EStateM RangeError FileProtector Unit := do
  match h, (← get).range? h with
  | .active id, some range =>
    if file < range.start then throw (.movesBack range.name range.start file)
    modify fun p => { p with ranges := p.ranges.insert id { range with start := file } }
  | _, _ => throw .inactive

/-- Gives a range up.  A handle that is not active stays as it is. -/
def release (p : FileProtector) (h : RangeHandle) : RangeHandle × FileProtector :=
  match h, p.range? h with
  | .active id, some range => (.released range, { p with ranges := p.ranges.erase id })
  | _, _ => (h, p)

end FileProtector

end Replication.Log
