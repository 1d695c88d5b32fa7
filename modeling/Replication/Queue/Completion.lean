/-! # Completion queues

The results of a number of tasks that run side by side, handed out in the order
in which they were completed, and never more of them than were submitted.
-/

namespace Replication

/-- The results of `submitted` tasks: how many were taken, and those that wait. -/
structure CompletionQueue (α : Type) where
  submitted : Nat
  taken : Nat := 0
  done : List α := []
deriving Repr

namespace CompletionQueue

variable {α : Type}

/-- Records the result of one task. -/
def complete (q : CompletionQueue α) (a : α) : CompletionQueue α :=
  { q with done := q.done ++ [a] }

/-- Takes the result completed first; `none` if none waits, or if as many were
    taken as tasks were submitted. -/
def take? (q : CompletionQueue α) : Option (α × CompletionQueue α) :=
  if q.taken < q.submitted then
    match q.done with
    | [] => none
    | a :: rest => some (a, { q with taken := q.taken + 1, done := rest })
  else none

/-- The number of results still to be taken. -/
def pending (q : CompletionQueue α) : Nat := q.submitted - q.taken

end CompletionQueue

end Replication
