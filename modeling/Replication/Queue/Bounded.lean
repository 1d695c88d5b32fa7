import Replication.Octets.Basic

/-! # Bounded queues

A first-in first-out queue that holds at most `capacity` items.  It joins two
stages of a pipeline: the producer waits while the queue is full, the consumer
takes items one by one or drains several at once.
-/

namespace Replication

/-- A queue of at most `capacity` items, oldest first. -/
structure BoundedQueue (α : Type) where
  capacity : Nat
  items : List α := []
  length_le : items.length ≤ capacity := by simp

/-- A queue was asked for that can hold nothing. -/
inductive QueueError where
  | zeroCapacity
deriving DecidableEq, Repr

def QueueError.message : QueueError → Octets
  | .zeroCapacity => .ofAscii "queue capacity must be positive"

namespace BoundedQueue

variable {α : Type}

/-- An empty queue, which has to have room for one item at least. -/
def ofCapacity (capacity : Nat) : Except QueueError (BoundedQueue α) :=
  if capacity = 0 then .error .zeroCapacity else .ok { capacity }

/-- A queue of the first of some items, as many as it has room for. -/
def ofItems (capacity : Nat) (items : List α) : BoundedQueue α :=
  { capacity, items := items.take capacity, length_le := List.length_take_le _ _ }

/-- The number of items that wait. -/
def size (q : BoundedQueue α) : Nat := q.items.length

/-- The number of items for which there is room. -/
def room (q : BoundedQueue α) : Nat := q.capacity - q.items.length

/-- One more item fits below a bound that was not reached. -/
theorem length_concat_le {items : List α} {bound : Nat} {a : α} (h : items.length < bound) :
    (items ++ [a]).length ≤ bound := by
  rw [List.length_append, List.length_singleton]
  exact h

/-- Appends an item, if there is room. -/
def push? (q : BoundedQueue α) (a : α) : Option (BoundedQueue α) :=
  if h : q.items.length < q.capacity then
    some { q with items := q.items ++ [a], length_le := length_concat_le h }
  else none

/-- Takes the oldest item, if there is one. -/
def pop? (q : BoundedQueue α) : Option (α × BoundedQueue α) :=
  match h : q.items with
  | [] => none
  | a :: rest =>
    some (a, { q with items := rest, length_le := by have := q.length_le; grind })

/-- Takes the oldest items, at most `n` of them. -/
def drain (q : BoundedQueue α) (n : Nat) : List α × BoundedQueue α :=
  (q.items.take n,
    { q with items := q.items.drop n, length_le := by have := q.length_le; simp; omega })

/-- Drops all items. -/
def clear (q : BoundedQueue α) : BoundedQueue α :=
  { q with items := [], length_le := by simp }

@[simp] theorem items_clear (q : BoundedQueue α) : q.clear.items = [] := rfl

@[simp] theorem drain_append (q : BoundedQueue α) (n : Nat) :
    (q.drain n).1 ++ (q.drain n).2.items = q.items := by
  simp [drain]

theorem items_of_push? {q q' : BoundedQueue α} {a : α} (h : q.push? a = some q') :
    q'.items = q.items ++ [a] := by
  simp only [push?] at h
  split at h
  · cases h; rfl
  · cases h

theorem items_of_pop? {q q' : BoundedQueue α} {a : α} (h : q.pop? = some (a, q')) :
    q.items = a :: q'.items := by
  simp only [pop?] at h
  split at h
  · cases h
  · next heq => cases h; exact heq

theorem items_of_pop?_none {q : BoundedQueue α} (h : q.pop? = none) : q.items = [] := by
  simp only [pop?] at h
  split at h
  · assumption
  · cases h

end BoundedQueue

end Replication
