/-! # Cancellation

A token carries a flag that its copies share.  Every unit of work that has to stop
when its owner does holds a copy, and cancelling any copy is seen through all of
them.
-/

namespace Replication

/-- The tokens in use, in the order of their creation: the flag each one refers
    to, and the flags themselves. -/
structure Cancellation where
  tokens : List Nat := []
  flags : List Bool := []
deriving DecidableEq, Repr

namespace Cancellation

/-- Adds a token with a flag of its own. -/
def create (c : Cancellation) : Cancellation :=
  { tokens := c.tokens ++ [c.flags.length], flags := c.flags ++ [false] }

/-- Adds a token that shares the flag of token `n`. -/
def copy (c : Cancellation) (n : Nat) : Cancellation :=
  match c.tokens[n]? with
  | none => c
  | some flag => { c with tokens := c.tokens ++ [flag] }

/-- Makes token `n` share the flag of token `m`. -/
def assign (c : Cancellation) (n m : Nat) : Cancellation :=
  match c.tokens[m]? with
  | none => c
  | some flag => { c with tokens := c.tokens.set n flag }

/-- Cancels token `n` and all its copies. -/
def cancel (c : Cancellation) (n : Nat) : Cancellation :=
  match c.tokens[n]? with
  | none => c
  | some flag => { c with flags := c.flags.set flag true }

def cancelled (c : Cancellation) : List Bool :=
  c.tokens.map fun flag => c.flags[flag]?.getD false

end Cancellation

end Replication
