import Replication.Stream.Message

/-! # Durable stores

What a consumer of the stream keeps its state in: the watermarks that it has made
durable, and on replicas the replayed records.
-/

namespace Replication.Replay

open Replication.Stream (Entry Commit)

/-- What a consumer knows after a restart. -/
structure DurableState where
  /-- The highest position replayed. -/
  highVlsn : Int64 := 0
  /-- The highest position that a majority of the group is known to hold. -/
  dtvlsn : Int64 := 0
  masterId : Int32 := -1
  term : Int64 := 0
deriving DecidableEq, Repr

/-- The calls that a consumer makes to its store. -/
inductive StoreCall where
  | load
  | entry (e : Entry)
  | commit (c : Commit)
  | write (state : DurableState) (sync : Bool)
deriving DecidableEq, Repr

/-- The kind of a call. -/
inductive StoreCall.Kind where
  | load
  | entry
  | commit
  | write
deriving DecidableEq, Repr

def StoreCall.kind : StoreCall → StoreCall.Kind
  | .load => .load
  | .entry _ => .entry
  | .commit _ => .commit
  | .write .. => .write

def StoreCall.Kind.name : StoreCall.Kind → Octets
  | .load => .ofAscii "load"
  | .entry => .ofAscii "entry"
  | .commit => .ofAscii "commit"
  | .write => .ofAscii "write"

/-- A call that the store could not carry out. -/
inductive StoreError where
  | failed (kind : StoreCall.Kind)
deriving DecidableEq, Repr

def StoreError.message : StoreError → Octets
  | .failed kind => .ofAscii "store failed on " ++ kind.name

/-- A store whose state is `σ`. -/
structure Store (σ : Type) where
  load : EStateM StoreError σ DurableState
  replayEntry : Entry → EStateM StoreError σ Unit
  replayCommit : Commit → EStateM StoreError σ Unit
  /-- Makes the state and everything replayed durable; on stable storage, if that is
      asked for. -/
  writeDurable : DurableState → Bool → EStateM StoreError σ Unit

/-! ## Recorded stores -/

/-- A call to a store that is recorded, whatever comes of it. -/
def StoreCall.recorded {σ α : Type} (call : StoreCall) (x : EStateM StoreError σ α) :
    EStateM StoreError (σ × List StoreCall) α := fun (s, calls) =>
  match x s with
  | .ok a s => .ok a (s, calls ++ [call])
  | .error e s => .error e (s, calls ++ [call])

def Store.recorded {σ : Type} (st : Store σ) : Store (σ × List StoreCall) where
  load := StoreCall.load.recorded st.load
  replayEntry e := (StoreCall.entry e).recorded (st.replayEntry e)
  replayCommit c := (StoreCall.commit c).recorded (st.replayCommit c)
  writeDurable state sync := (StoreCall.write state sync).recorded (st.writeDurable state sync)

/-! ## A store in memory

It keeps the calls made to it, and fails those that it was told to fail: such a call is
kept but has no effect.
-/

/-- The state of a store in memory.  A fault names a kind of call and how many of that
    kind still succeed before it. -/
structure MemoryStore where
  durable : DurableState := {}
  calls : List StoreCall := []
  faults : List (StoreCall.Kind × Nat) := []

namespace MemoryStore

/-- The faults that are left after a call. -/
def faultsAfter (kind : StoreCall.Kind) (faults : List (StoreCall.Kind × Nat)) :
    List (StoreCall.Kind × Nat) :=
  faults.filterMap fun fault =>
    if fault.1 ≠ kind then some fault
    else if fault.2 = 0 then none
    else some (kind, fault.2 - 1)

/-- Keeps a call, and fails it if it is its turn. -/
def receive (call : StoreCall) : EStateM StoreError MemoryStore Unit := fun s =>
  let after := { s with
    calls := s.calls ++ [call]
    faults := faultsAfter call.kind s.faults }
  if s.faults.contains (call.kind, 0) then .error (.failed call.kind) after else .ok () after

/-- The store in memory. -/
def store : Store MemoryStore where
  load := do
    receive .load
    return (← get).durable
  replayEntry e := receive (.entry e)
  replayCommit c := receive (.commit c)
  writeDurable state sync := do
    receive (.write state sync)
    modify ({ · with durable := state })

end MemoryStore

end Replication.Replay
