import Replication.Election.Phase

/-! # Proposers

A proposer runs rounds of two phases until a value is elected or there is a reason to
stop.  Everything it depends on is an `Environment`: whether another round may start,
the proposals to use, the replies that a broadcast brings, and the value to propose
after the votes of the first phase.  `Proposer.run` is the loop over the rounds, and
every round is counted under the one thing that stopped it.
-/

namespace Replication.Election

/-! ## 1. Counters -/

/-- What the rounds of a proposer came to, in 32 bits each. -/
structure Counters where
  phase1NoQuorum : Int32 := 0
  phase1NoNonZeroPrio : Int32 := 0
  phase1HigherProposal : Int32 := 0
  phase2NoQuorum : Int32 := 0
  phase2HigherProposal : Int32 := 0
  promiseCount : Int32 := 0
  retries : Int32 := 0
deriving DecidableEq, Repr

namespace Counters

/-- Counters are added one by one, and wrap around where a sum does not fit. -/
instance : Add Counters where
  add a b :=
    { phase1NoQuorum := a.phase1NoQuorum + b.phase1NoQuorum
      phase1NoNonZeroPrio := a.phase1NoNonZeroPrio + b.phase1NoNonZeroPrio
      phase1HigherProposal := a.phase1HigherProposal + b.phase1HigherProposal
      phase2NoQuorum := a.phase2NoQuorum + b.phase2NoQuorum
      phase2HigherProposal := a.phase2HigherProposal + b.phase2HigherProposal
      promiseCount := a.promiseCount + b.promiseCount
      retries := a.retries + b.retries }

@[simp] theorem zero_add (c : Counters) : {} + c = c := by
  obtain ⟨_, _, _, _, _, _, _⟩ := c
  change Counters.mk _ _ _ _ _ _ _ = _
  simp only [Int32.zero_add]

@[simp] theorem add_zero (c : Counters) : c + {} = c := by
  obtain ⟨_, _, _, _, _, _, _⟩ := c
  change Counters.mk _ _ _ _ _ _ _ = _
  simp only [Int32.add_zero]

/-- The counters as a text of names and values. -/
def render (c : Counters) : Octets :=
  .ofAscii "phase1NoQuorum=" ++ Decimal.render c.phase1NoQuorum.toInt
    ++ .ofAscii " phase1NoNonZeroPrio=" ++ Decimal.render c.phase1NoNonZeroPrio.toInt
    ++ .ofAscii " phase1HigherProposal=" ++ Decimal.render c.phase1HigherProposal.toInt
    ++ .ofAscii " phase2NoQuorum=" ++ Decimal.render c.phase2NoQuorum.toInt
    ++ .ofAscii " phase2HigherProposal=" ++ Decimal.render c.phase2HigherProposal.toInt
    ++ .ofAscii " promiseCount=" ++ Decimal.render c.promiseCount.toInt
    ++ .ofAscii " retries=" ++ Decimal.render c.retries.toInt

end Counters

/-! ## 2. Outcomes -/

/-- Why a proposer stopped without a winner. -/
inductive ExitReason where
  | retriesExhausted
  | roundConcluded
  | shutDown
deriving DecidableEq, Repr

def ExitReason.text : ExitReason → Octets
  | retriesExhausted => .ofAscii "retries exhausted"
  | roundConcluded => .ofAscii "election round concluded"
  | shutDown => .ofAscii "proposer shut down"

/-- How an election ended for its proposer. -/
inductive Outcome where
  | won (proposal : Proposal) (value : Token) (counters : Counters)
  | exit (reason : ExitReason) (counters : Counters)
deriving DecidableEq, Repr

def Outcome.counters : Outcome → Counters
  | won _ _ c => c
  | exit _ c => c

/-- The text of an election without a winner: the reason and the counters. -/
def ExitReason.message (reason : ExitReason) (c : Counters) : Octets :=
  reason.text ++ .ofAscii " [" ++ c.render ++ .ofAscii "]"

/-- A proposer needs somebody to ask. -/
inductive ProposerError where
  | noAcceptors
deriving DecidableEq, Repr

def ProposerError.message : ProposerError → Octets
  | noAcceptors => .ofAscii "proposer needs at least one acceptor"

/-! ## 3. The loop -/

/-- What a proposer depends on, in the monad of its surroundings. -/
structure Environment (m : Type → Type) where
  /-- Asks whether another round may start. -/
  retry : m Bool
  /-- The retries used so far. -/
  retries : m Int32
  /-- Whether the election was decided elsewhere. -/
  concluded : m Bool
  /-- Whether the proposer was shut down. -/
  cancelled : m Bool
  /-- The proposal for the next round. -/
  nextProposal : m Proposal
  /-- Sends a request to some acceptors; the replies come in the order of completion. -/
  broadcast : List Octets → Request → m (List Reply)
  /-- The value to propose after these votes. -/
  choose : List Vote → m (Option Token)

/-- What a round leads to. -/
inductive RoundEnd where
  /-- A value was elected. -/
  | won (proposal : Proposal) (value : Token)
  /-- The round failed; another one may succeed. -/
  | failed
  /-- There is no point in another round. -/
  | stopped (reason : ExitReason)
deriving DecidableEq, Repr

namespace Proposer

variable {m : Type → Type} [Monad m]

/-- The second phase of a round, with what it adds to the counters. -/
def acceptPhase (env : Environment m) (q : Quorum) (policy : QuorumPolicy) (p : Proposal)
    (v : Token) (votes : List Vote) : m (RoundEnd × Counters) := do
  let replies ← env.broadcast (votes.map (·.acceptor)) (.accept p v)
  match collectAcceptances q policy p v [] replies with
  | .abandoned => return (.failed, {})
  | .higher => return (.failed, { phase2HigherProposal := 1 })
  | .complete { won := true, .. } => return (.won p v, {})
  | .complete { won := false, .. } => return (.failed, { phase2NoQuorum := 1 })

/-- A round that has its quorum of votes: chooses a value and runs the second phase,
    unless the election was concluded before or after the choice. -/
def afterPromises (env : Environment m) (q : Quorum) (policy : QuorumPolicy) (p : Proposal)
    (votes : List Vote) : m (RoundEnd × Counters) := do
  let counters : Counters := { promiseCount := .ofNat votes.length }
  if ← env.concluded then return (.stopped .roundConcluded, counters)
  match ← env.choose votes with
  | none => return (.failed, counters + { phase1NoNonZeroPrio := 1 })
  | some v =>
    if ← env.concluded then return (.stopped .roundConcluded, counters)
    let (ended, more) ← acceptPhase env q policy p v votes
    return (ended, counters + more)

def round (env : Environment m) (q : Quorum) (policy : QuorumPolicy)
    (acceptors : List Octets) : m (RoundEnd × Counters) := do
  if ← env.cancelled then return (.stopped .shutDown, {})
  let p ← env.nextProposal
  let replies ← env.broadcast acceptors (.propose p)
  match collectPromises p replies with
  | .abandoned => return (.failed, {})
  | .higher => return (.failed, { phase1HigherProposal := 1 })
  | .complete votes =>
    if q.Met policy votes.length then afterPromises env q policy p votes
    else return (.failed, { promiseCount := .ofNat votes.length, phase1NoQuorum := 1 })

/-- The end of an election without a winner.  Being concluded and being shut down
    count as the reason even if they came too late to stop a round. -/
def finish (env : Environment m) (reason : ExitReason) (counters : Counters) :
    m Outcome := do
  let reason := if ← env.concluded then .roundConcluded else reason
  let reason := if ← env.cancelled then .shutDown else reason
  return .exit reason { counters with retries := ← env.retries }

/-- Runs rounds until one wins or there is a reason to stop; `none` if none of the
    first `fuel` rounds is the last. -/
def run (env : Environment m) (q : Quorum) (policy : QuorumPolicy) (acceptors : List Octets) :
    (fuel : Nat) → Counters → m (Option Outcome)
  | 0, _ => return none
  | fuel + 1, counters => do
    if !(← env.retry) then return some (← finish env .retriesExhausted counters)
    let (ended, more) ← round env q policy acceptors
    let counters := counters + more
    match ended with
    | .won p v => return some (.won p v { counters with retries := ← env.retries })
    | .failed => run env q policy acceptors fuel counters
    | .stopped reason => return some (← finish env reason counters)

end Proposer

end Replication.Election
