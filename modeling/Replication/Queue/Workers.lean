import Replication.Octets.Basic

/-! # Worker pools

A fixed number of workers that take tasks from one queue.  A task that fails
stops nobody.  Shutting down refuses further tasks, but those queued before are
still run.
-/

namespace Replication

/-- A task: its name, and whether it fails after it has run. -/
structure Task where
  id : Int
  fails : Bool := false
deriving DecidableEq, Repr

/-- The workers, the tasks that wait in order, and those that were run. -/
structure WorkerPool where
  name : Octets
  workers : Nat
  waiting : List Task := []
  ran : List Task := []
  stopped : Bool := false
deriving Repr

/-- Why a pool could not do what it was asked for. -/
inductive PoolError where
  /-- The pool would have no worker. -/
  | noWorkers (name : Octets)
  /-- The pool takes no more tasks. -/
  | isShutDown (name : Octets)
deriving DecidableEq, Repr

def PoolError.message : PoolError → Octets
  | .noWorkers name => .ofAscii "thread pool " ++ name ++ .ofAscii " needs at least one thread"
  | .isShutDown name => .ofAscii "thread pool " ++ name ++ .ofAscii " is shut down"

namespace WorkerPool

/-- A pool of the given number of workers, at least one. -/
def ofSize (workers : Nat) (name : Octets) : Except PoolError WorkerPool :=
  if workers = 0 then .error (.noWorkers name) else .ok { name, workers }

/-- Queues a task behind the others. -/
def submit (p : WorkerPool) (t : Task) : Except PoolError WorkerPool :=
  if p.stopped then .error (.isShutDown p.name) else .ok { p with waiting := p.waiting ++ [t] }

/-- A worker takes the task that waited longest and runs it. -/
def runNext (p : WorkerPool) : WorkerPool :=
  match p.waiting with
  | [] => p
  | t :: rest => { p with waiting := rest, ran := p.ran ++ [t] }

/-- The workers run all tasks that wait. -/
def runAll (p : WorkerPool) : WorkerPool :=
  { p with waiting := [], ran := p.ran ++ p.waiting }

/-- Refuses further tasks and lets the workers finish those that wait. -/
def shutDown (p : WorkerPool) : WorkerPool :=
  { p.runAll with stopped := true }

end WorkerPool

end Replication
