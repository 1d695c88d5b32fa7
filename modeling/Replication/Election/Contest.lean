import Replication.Election.Acceptor
import Replication.Election.Pending

/-! # Contests

Any number of elections at once among the same acceptors.  The acceptors deal with the
requests of a broadcast in any order and at any time, or never; the proposer that sent it
goes on with any of the responses that exist by then.  Each `step` is one move of one
party, so a list of actions is one interleaving.
-/

namespace Replication.Election

/-! ## 1. Parties -/

/-- Whether any two quorums of a policy have a member in common, which the survivor of a
    group of two does without. -/
def Quorum.Overlapping (q : Quorum) (policy : QuorumPolicy) : Prop :=
  policy = .simpleMajority → q.groupSize ≠ 2

instance (q : Quorum) (policy : QuorumPolicy) : Decidable (q.Overlapping policy) :=
  inferInstanceAs (Decidable (_ → _))

/-- The acceptors of a group, of which there may be fewer than the group has members. -/
structure Electors where
  group : Token
  quorum : Quorum
  names : List Octets
  distinct : names.Nodup := by decide
  length_le : names.length ≤ quorum.groupSize := by decide

/-- A request that was sent to some acceptors. -/
structure Broadcast where
  caller : Nat
  targets : List Octets
  request : Request

/-- What an acceptor made of its part of a broadcast.  There is no response if its
    suggestion failed. -/
structure Handling where
  broadcast : Nat
  acceptor : Octets
  response : Option Response
deriving DecidableEq

/-- An election that some proposer runs. -/
structure Call where
  policy : QuorumPolicy
  program : Pending (Option Outcome)
  /-- The broadcast whose replies it waits for. -/
  waiting : Option Nat := none

/-- Elections among the same acceptors, with all broadcasts and all that acceptors made of
    them. -/
structure Contest where
  electors : Electors
  acceptors : Octets → Acceptor
  calls : List Call := []
  broadcasts : List Broadcast := []
  handled : List Handling := []

namespace Contest

/-- Acceptors that were never asked. -/
def start (electors : Electors) : Contest :=
  { electors, acceptors := fun _ => { group := electors.group } }

/-! ## 2. Moves -/

/-- A move of an election. -/
inductive Move where
  | answer (yes : Bool)
  | count (retries : Int32)
  | draw (p : Proposal)
  | broadcast
  /-- Goes on with the replies taken so far. -/
  | collect (replies : List Reply)

/-- What moves next. -/
inductive Action where
  /-- An election begins, which gives up after so many rounds. -/
  | call (policy : QuorumPolicy) (rounds : Nat)
  | move (call : Nat) (move : Move)
  /-- An acceptor deals with its part of a broadcast. -/
  | handle (broadcast : Nat) (acceptor : Octets) (suggest : Suggest)

def setCall (c : Contest) (i : Nat) (call : Call) : Contest :=
  { c with calls := c.calls.set i call }

/-- Whether an acceptor has dealt with its part of a broadcast. -/
def Handled (c : Contest) (b : Nat) (acceptor : Octets) : Prop :=
  ∃ h ∈ c.handled, h.broadcast = b ∧ h.acceptor = acceptor

instance (c : Contest) (b : Nat) (acceptor : Octets) : Decidable (c.Handled b acceptor) :=
  inferInstanceAs (Decidable (∃ h ∈ c.handled, _))

/-- Whether a response came of an exchange. -/
def Responded (c : Contest) (b : Nat) (acceptor : Octets) (r : Response) : Prop :=
  { broadcast := b, acceptor, response := some r } ∈ c.handled

instance (c : Contest) (b : Nat) (acceptor : Octets) (r : Response) :
    Decidable (c.Responded b acceptor r) :=
  inferInstanceAs (Decidable (_ ∈ _))

/-- Whether a reply tells the truth, as far as it tells anything. -/
def Genuine (c : Contest) (b : Nat) (reply : Reply) : Prop :=
  match reply.response with
  | .ok r => c.Responded b reply.acceptor r
  | .error _ => True

instance (c : Contest) (b : Nat) (reply : Reply) : Decidable (c.Genuine b reply) := by
  unfold Genuine
  split <;> infer_instance

/-- Whether replies can have come of a broadcast: at most one from each acceptor, and none
    that was made up. -/
def Replies (c : Contest) (b : Nat) (replies : List Reply) : Prop :=
  (replies.map (·.acceptor)).Nodup ∧ ∀ reply ∈ replies, c.Genuine b reply

instance (c : Contest) (b : Nat) (replies : List Reply) : Decidable (c.Replies b replies) :=
  inferInstanceAs (Decidable (_ ∧ _))

/-- Keeps what an acceptor made of its part of a broadcast. -/
def note (c : Contest) (b : Nat) (acceptor : Octets) (response : Option Response) (a : Acceptor) :
    Contest :=
  { c with
    acceptors := fun name => if name = acceptor then a else c.acceptors name
    handled := c.handled ++ [{ broadcast := b, acceptor, response }] }

/-- Lets an acceptor deal with its part of a broadcast. -/
def handle (c : Contest) (b : Nat) (acceptor : Octets) (request : Request) (suggest : Suggest) :
    Contest :=
  match Acceptor.process suggest request (c.acceptors acceptor) with
  | .ok response a => c.note b acceptor (some response) a
  | .error _ a => c.note b acceptor none a

/-- Sends the request of an election, which then waits for replies. -/
def send (c : Contest) (i : Nat) (call : Call) (targets : List Octets) (request : Request) :
    Contest :=
  { c.setCall i { call with waiting := some c.broadcasts.length } with
    broadcasts := c.broadcasts ++ [{ caller := i, targets, request }] }

/-- Makes a move of an election. -/
def advance (c : Contest) (i : Nat) (call : Call) (move : Move) : Contest :=
  match call.program, call.waiting, move with
  | .ask next, _, .answer yes => c.setCall i { call with program := next yes }
  | .count next, _, .count retries => c.setCall i { call with program := next retries }
  | .draw next, _, .draw p => c.setCall i { call with program := next p }
  | .broadcast targets request _, none, .broadcast =>
    c.send i call targets request
  | .broadcast _ _ next, some b, .collect replies =>
    if c.Replies b replies then
      c.setCall i { call with program := next replies, waiting := none }
    else c
  | _, _, _ => c

/-- One action.  What cannot happen now leaves everything as it was. -/
def step (c : Contest) : Action → Contest
  | .call policy rounds =>
    if c.electors.quorum.Overlapping policy then
      let program := Proposer.run Pending.environment c.electors.quorum policy c.electors.names
        rounds {}
      { c with calls := c.calls ++ [{ policy, program }] }
    else c
  | .move i move =>
    match c.calls[i]? with
    | some call => c.advance i call move
    | none => c
  | .handle b acceptor suggest =>
    match c.broadcasts[b]? with
    | some sent =>
      if acceptor ∈ sent.targets ∧ ¬ c.Handled b acceptor then
        c.handle b acceptor sent.request suggest
      else c
    | none => c

def run (c : Contest) (actions : List Action) : Contest :=
  actions.foldl step c

end Contest

end Replication.Election
