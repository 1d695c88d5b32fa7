import Replication.Election.Proposal

/-! # Drawing proposals

All generators of a process share the time stamp that was drawn last.  A draw
loads it, reads the clock, and offers the clock's reading, or one more than what it
loaded if the clock is not ahead of that.  The offer holds if nobody drew in
between; otherwise the draw starts over from the stamp that it found.
-/

namespace Replication.Election

/-- A draw in progress. -/
inductive Draw where
  /-- The last stamp is known; the clock is read next. -/
  | loaded (last : UInt64)
  /-- A stamp is to be exchanged for the last one. -/
  | offering (last next : UInt64)
deriving DecidableEq, Repr

namespace Draw

/-- The stamp to offer at the clock reading `now`. -/
def candidate (last now : UInt64) : UInt64 :=
  if now ≤ last then last + 1 else now

def readClock (now : UInt64) : Draw → Draw
  | loaded last => offering last (candidate last now)
  | offering last next => offering last next

/-- What became of an exchange: another attempt, or a stamp that is now the last. -/
inductive Exchanged where
  | retry (draw : Draw)
  | drawn (stamp : UInt64)
deriving DecidableEq, Repr

/-- Exchanges the offer for the shared stamp.  It fails if the shared stamp is not
    the one that was loaded, and it may fail for no reason. -/
def exchange (shared : UInt64) (spurious : Bool) : Draw → Exchanged × UInt64
  | loaded _ => (.retry (loaded shared), shared)
  | offering last next =>
    if shared = last ∧ ¬spurious then (.drawn next, next) else (.retry (loaded shared), shared)

end Draw

/-- A source of proposals of one node. -/
structure Generator where
  suffix : Token
deriving DecidableEq, Repr

/-- The suffix of a node: its number as eight hexadecimal digits. -/
def Generator.nodeSuffix (node : Int32) : Octets :=
  Hexadecimal.render 8 node.toUInt32.toNat

def Generator.ofNode (node : Int32) : Except TokenError Generator :=
  (Token.ofText (nodeSuffix node) .proposalSuffix).map Generator.mk

/-- A draw that nobody disturbs: the proposal, and the stamp that is now the last. -/
def Generator.next (g : Generator) (shared now : UInt64) : Proposal × UInt64 :=
  let stamp := Draw.candidate shared now
  ({ time := stamp, suffix := g.suffix }, stamp)

/-- So many draws in a row that nobody disturbs. -/
def Generator.draws (g : Generator) : (count : Nat) → (shared : UInt64) → List Proposal
  | 0, _ => []
  | count + 1, shared =>
    let (p, shared) := g.next shared 0
    p :: g.draws count shared

end Replication.Election
