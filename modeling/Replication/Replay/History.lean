import Replication.Replay.Replayer

/-! # The history of a replayer

A replayer is started again for every connection to a master, and replays groups in
between, and either may fail.  What its store is given to keep meanwhile, and when it was
asked for what it keeps, is marked beside it.
-/

namespace Replication.Replay

open Replication.Stream (Message)

/-! ## 1. Marks -/

/-- What happens to the durable state of a store. -/
inductive Mark where
  /-- It was loaded. -/
  | loaded
  /-- The store was given that state, and kept it, or failed to. -/
  | written (state : DurableState) (kept : Bool)
deriving DecidableEq, Repr

variable {σ : Type}

/-- A call to a store that leaves marks, one list of them if it succeeds and another one if
    it fails. -/
def marking {α : Type} (done failed : List Mark) (x : EStateM StoreError σ α) :
    EStateM StoreError (σ × List Mark) α := fun (a, marks) =>
  match x a with
  | .ok r a => .ok r (a, marks ++ done)
  | .error e a => .error e (a, marks ++ failed)

/-- A store that marks when it was loaded, and each state that it was given. -/
def Store.marked (st : Store σ) : Store (σ × List Mark) where
  load := marking [.loaded] [] st.load
  replayEntry e := marking [] [] (st.replayEntry e)
  replayCommit c := marking [] [] (st.replayCommit c)
  writeDurable state sync :=
    marking [.written state true] [.written state false] (st.writeDurable state sync)

/-! ## 2. Histories -/

/-- What a replayer is asked to do. -/
inductive Task where
  | start (masterId : Int32)
  | group (syncDue : Bool) (messages : List Message)
deriving DecidableEq, Repr

namespace Task

def perform (st : Store σ) : Task → EStateM ReplayError (State σ) Unit
  | .start masterId => State.start st masterId
  | .group syncDue messages => do
    let _ ← State.replayGroup st syncDue messages
    return ()

def messages : Task → List Message
  | .start _ => []
  | .group _ messages => messages

end Task

/-- A replayer with its store, and the errors it has met so far. -/
structure History (σ : Type) where
  state : State σ
  errors : List ReplayError := []

namespace History

/-- One more task.  Whatever comes of it, the replayer goes on from there. -/
def step (st : Store σ) (h : History σ) (task : Task) : History σ :=
  match task.perform st h.state with
  | .ok _ state => { h with state }
  | .error e state => { state, errors := h.errors ++ [e] }

def run (st : Store σ) (h : History σ) (tasks : List Task) : History σ :=
  tasks.foldl (step st) h

end History

/-- The history of a replayer and its store, marked from here on. -/
def State.history (st : Store σ) (s : State σ) (tasks : List Task) : History (σ × List Mark) :=
  .run st.marked { state := { replayer := s.replayer, store := (s.store, []) } } tasks

end Replication.Replay
