import Replication.Octets.Basic

/-! # Enumerations with fixed ordinals

Their members go over the wire as one byte, so the ordinals never change.
-/

namespace Replication

/-- How far a commit has to be durable before it is acknowledged. -/
inductive SyncPolicy where
  | sync
  | noSync
  | writeNoSync
deriving DecidableEq, Repr

/-- What part a node plays in its group: it may become master, it only votes and
    acknowledges, or it only follows. -/
inductive NodeType where
  | electable
  | arbiter
  | secondary
deriving DecidableEq, Repr

/-- What a log record does. -/
inductive EntryType where
  | data
  | commit
  | abort
deriving DecidableEq, Repr

/-- The byte that stands for a policy. -/
def SyncPolicy.ordinal : SyncPolicy → UInt8
  | .sync => 0
  | .noSync => 1
  | .writeNoSync => 2

/-- The policy that a byte stands for. -/
def SyncPolicy.ofOrdinal? : UInt8 → Option SyncPolicy
  | 0 => some .sync
  | 1 => some .noSync
  | 2 => some .writeNoSync
  | _ => none

def SyncPolicy.name : SyncPolicy → Octets
  | .sync => .ofAscii "SYNC"
  | .noSync => .ofAscii "NO_SYNC"
  | .writeNoSync => .ofAscii "WRITE_NO_SYNC"

/-- The byte that stands for a node type. -/
def NodeType.ordinal : NodeType → UInt8
  | .electable => 0
  | .arbiter => 1
  | .secondary => 2

/-- The node type that a byte stands for. -/
def NodeType.ofOrdinal? : UInt8 → Option NodeType
  | 0 => some .electable
  | 1 => some .arbiter
  | 2 => some .secondary
  | _ => none

/-- The byte that stands for an entry type. -/
def EntryType.ordinal : EntryType → UInt8
  | .data => 0
  | .commit => 1
  | .abort => 2

/-- The entry type that a byte stands for. -/
def EntryType.ofOrdinal? : UInt8 → Option EntryType
  | 0 => some .data
  | 1 => some .commit
  | 2 => some .abort
  | _ => none

def EntryType.name : EntryType → Octets
  | .data => .ofAscii "DATA"
  | .commit => .ofAscii "COMMIT"
  | .abort => .ofAscii "ABORT"

theorem SyncPolicy.ofOrdinal?_ordinal (p : SyncPolicy) : ofOrdinal? p.ordinal = some p := by
  cases p <;> rfl

theorem NodeType.ofOrdinal?_ordinal (t : NodeType) : ofOrdinal? t.ordinal = some t := by
  cases t <;> rfl

theorem EntryType.ofOrdinal?_ordinal (t : EntryType) : ofOrdinal? t.ordinal = some t := by
  cases t <;> rfl

end Replication
