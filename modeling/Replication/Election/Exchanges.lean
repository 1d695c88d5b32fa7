import Replication.Election.Proposer

/-! # Proposers among arbitrary exchanges

Nothing is known of the surroundings of a proposer, but that it sends each request of a
broadcast once: the exchanges may complete in any order or not in time, with any response or
with a failure, and whatever else the proposer asks may be answered in any way, or fail.
A record is kept of what it drew, sent, got and chose.
-/

namespace Replication.Election

/-! ## 1. Exchanges -/

/-- One completed exchange of a broadcast to `n` acceptors. -/
structure Completion (n : Nat) where
  exchange : Fin n
  /-- The answer, or why there is none. -/
  response : Except Octets Response
  /-- Whether the proposer was shut down when the reply was taken. -/
  cancelled : Bool := false

/-- The exchanges of a broadcast that completed in time, in the order of completion. -/
structure Completions (n : Nat) where
  taken : List (Completion n)
  once : (taken.map (·.exchange)).Nodup := by decide

def Completions.replies (targets : List Octets) (c : Completions targets.length) : List Reply :=
  c.taken.map fun done =>
    { acceptor := targets[done.exchange], response := done.response, cancelled := done.cancelled }

def Reply.vote? (p : Proposal) (reply : Reply) : Option Vote :=
  match reply.response with
  | .ok response => response.vote? reply.acceptor p
  | .error _ => none

/-- Whether a reply accepts just this proposal and value. -/
def Reply.accepts (p : Proposal) (v : Token) (reply : Reply) : Bool :=
  match reply.response with
  | .ok response => response.accepts p v
  | .error _ => false

def Reply.rejects (reply : Reply) : Bool :=
  match reply.response with
  | .ok (.reject _) => true
  | _ => false

/-! ## 2. Surroundings -/

/-- What happens to a proposer in a world that is free to do anything. -/
structure Surroundings (ε ω : Type) where
  retry : EStateM ε ω Bool
  retries : EStateM ε ω Int32
  concluded : EStateM ε ω Bool
  cancelled : EStateM ε ω Bool
  nextProposal : EStateM ε ω Proposal
  exchanges : (targets : List Octets) → Request → EStateM ε ω (Completions targets.length)
  choose : List Vote → EStateM ε ω (Option Token)

/-- What is recorded of a proposer. -/
inductive Step where
  | drew (p : Proposal)
  /-- A request was sent to these targets, and these replies came. -/
  | asked (targets : List Octets) (request : Request) (replies : List Reply)
  /-- This came of choosing a value after these votes. -/
  | chose (votes : List Vote) (value : Option Token)

/-- A world, with the record of a proposer. -/
structure Recorded (ω : Type) where
  world : ω
  steps : List Step := []

variable {ε ω α : Type}

/-- Records what comes of a computation in the world. -/
def recording (steps : α → List Step) (x : EStateM ε ω α) : EStateM ε (Recorded ω) α :=
  fun r =>
    match x r.world with
    | .ok a world => .ok a { world, steps := r.steps ++ steps a }
    | .error e world => .error e { r with world }

def Surroundings.environment (s : Surroundings ε ω) : Environment (EStateM ε (Recorded ω)) where
  retry := recording (fun _ => []) s.retry
  retries := recording (fun _ => []) s.retries
  concluded := recording (fun _ => []) s.concluded
  cancelled := recording (fun _ => []) s.cancelled
  nextProposal := recording (fun p => [.drew p]) s.nextProposal
  broadcast targets request :=
    recording (fun replies => [.asked targets request replies])
      (do return (← s.exchanges targets request).replies targets)
  choose votes := recording (fun value => [.chose votes value]) (s.choose votes)

end Replication.Election
