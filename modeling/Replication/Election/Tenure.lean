import Replication.Election.Exchanges
import Replication.Election.Retry

/-! # The calls of a proposer

A proposer is called any number of times, each time with a limit on retries of its own, and
adds up what it counted.  Nothing is known of the transport and the strategy; and at any
moment between two of its questions others may conclude the election, or shut it down.
-/

namespace Replication.Election

/-! ## 1. What others do meanwhile -/

/-- What others do to a proposer between two of its questions. -/
structure Interference where
  conclude : Bool := false
  shutDown : Bool := false

/-- A proposer in its world. -/
structure Tenure (ω : Type) where
  world : ω
  retry : Retry
  isShutDown : Bool := false
  total : Counters := {}

/-- The strategy and the transport of a proposer, and what others do meanwhile. -/
structure Outside (ε ω : Type) where
  meanwhile : ω → Interference × ω
  nextProposal : EStateM ε ω Proposal
  exchanges : (targets : List Octets) → Request → EStateM ε ω (Completions targets.length)
  choose : List Vote → EStateM ε ω (Option Token)

variable {ε ω α : Type}

/-- A computation of the world. -/
def Tenure.within (x : EStateM ε ω α) : EStateM ε (Tenure ω) α := fun t =>
  match x t.world with
  | .ok a world => .ok a { t with world }
  | .error e world => .error e { t with world }

/-- The same exchanges, each with the proposer shut down if it was before. -/
def Completions.flag {n : Nat} (shutDown : Bool) (c : Completions n) : Completions n where
  taken := c.taken.map fun done => { done with cancelled := done.cancelled || shutDown }
  once := by
    rw [List.map_map]
    exact c.once

namespace Outside

/-- Lets others interfere.  Nothing that they do is undone. -/
def interfere (o : Outside ε ω) : EStateM ε (Tenure ω) Unit :=
  modify fun t =>
    let (i, world) := o.meanwhile t.world
    { t with
      world
      retry := if i.conclude then t.retry.conclude else t.retry
      isShutDown := t.isShutDown || i.shutDown }

/-- What a proposer depends on. -/
def surroundings (o : Outside ε ω) : Surroundings ε (Tenure ω) where
  retry := do
    o.interfere
    modifyGet fun t => let (go, retry) := t.retry.next; (go, { t with retry })
  retries := do
    o.interfere
    return (← get).retry.retries
  concluded := do
    o.interfere
    return (← get).retry.concluded
  cancelled := do
    o.interfere
    return (← get).isShutDown
  nextProposal := Tenure.within o.nextProposal
  exchanges targets request := do
    let c := (← Tenure.within (o.exchanges targets request)).flag (← get).isShutDown
    modify fun t => { t with isShutDown := t.isShutDown || c.taken.any (·.cancelled) }
    return c
  choose votes := Tenure.within (o.choose votes)

end Outside

/-! ## 2. Calls -/

/-- Runs an election and hands over what was counted, whether it was won or not. -/
def Proposer.issue {m : Type → Type} [Monad m] (env : Environment m) (record : Counters → m Unit)
    (q : Quorum) (policy : QuorumPolicy) (acceptors : List Octets) (fuel : Nat) :
    m (Option Outcome) := do
  match ← run env q policy acceptors fuel {} with
  | none => return none
  | some outcome =>
    record outcome.counters
    return some outcome

/-- A call of a proposer. -/
structure Order where
  policy : QuorumPolicy
  maxRetries : Int32

namespace Outside

variable (o : Outside ε ω) (q : Quorum) (acceptors : List Octets)

/-- One call, with a fresh count of retries. -/
def call (order : Order) : EStateM ε (Recorded (Tenure ω)) (Option Outcome) := do
  modify fun r => { r with world := { r.world with retry := { maxRetries := order.maxRetries } } }
  Proposer.issue o.surroundings.environment
    (fun c => modify fun r =>
      { r with world := { r.world with total := r.world.total + c } })
    q order.policy acceptors (order.maxRetries.toNatClampNeg + 2)

end Outside

/-! ## 3. Counting -/

/-- What stops a round that is counted. -/
inductive Setback where
  | phase1NoQuorum
  | phase1NoNonZeroPrio
  | phase1HigherProposal
  | phase2NoQuorum
  | phase2HigherProposal
deriving DecidableEq

namespace Counters

/-- The counter of the rounds that met a setback. -/
def under (c : Counters) : Setback → Int32
  | .phase1NoQuorum => c.phase1NoQuorum
  | .phase1NoNonZeroPrio => c.phase1NoNonZeroPrio
  | .phase1HigherProposal => c.phase1HigherProposal
  | .phase2NoQuorum => c.phase2NoQuorum
  | .phase2HigherProposal => c.phase2HigherProposal

/-- The rounds that were counted, added up in 32 bits as the counters are. -/
def sum (c : Counters) : Int32 :=
  c.phase1NoQuorum + c.phase1NoNonZeroPrio + c.phase1HigherProposal + c.phase2NoQuorum +
    c.phase2HigherProposal

/-- The rounds that were counted, added up as integers. -/
def rounds (c : Counters) : Int :=
  c.phase1NoQuorum.toInt + c.phase1NoNonZeroPrio.toInt + c.phase1HigherProposal.toInt +
    c.phase2NoQuorum.toInt + c.phase2HigherProposal.toInt

end Counters

/-- Whether a proposal was drawn, which starts a round. -/
def Step.isDraw : Step → Bool
  | drew _ => true
  | asked .. | chose .. => false

/-- The promises of a first phase, unless it saw a rejection. -/
def Step.promises : Step → Nat
  | asked _ (.propose p) replies =>
    if replies.any (·.rejects) then 0 else (replies.filterMap (·.vote? p)).length
  | asked _ (.accept ..) _ | drew _ | chose .. => 0

/-- The rounds that have started. -/
def draws (steps : List Step) : Nat := steps.countP (·.isDraw)

/-- The promises of all first phases that saw no rejection. -/
def promises (steps : List Step) : Nat :=
  steps.foldr (fun step n => step.promises + n) 0

/-- What the counters of a call to a proposer tell, given what stopped the rounds that it has
    counted.  A counter that grows beyond 32 bits wraps around; where none does, the counters are
    exact. -/
structure Outcome.Accounts (outcome : Outcome) (maxRetries : Int32) (setbacks : List Setback)
    (r : Recorded (Tenure ω)) : Prop where
  /-- Each counter tells how often its setback was met. -/
  told : ∀ s, outcome.counters.under s = .ofNat (setbacks.count s)
  /-- So together they tell how many rounds were counted, -/
  added : outcome.counters.sum = .ofNat setbacks.length
  /-- and do so exactly unless one of them has wrapped around. -/
  exactly : (∀ s, setbacks.count s ≤ Int32.maxValue.toInt) →
    outcome.counters.rounds = setbacks.length
  /-- No round is counted that has not started, and none twice. -/
  counted : setbacks.length ≤ draws r.steps
  /-- At most one of the rounds that have started is not counted. -/
  uncounted : draws r.steps ≤ setbacks.length + 1
  /-- All rounds but the one that was won are retries, and have failed. -/
  won : ∀ p v c, outcome = .won p v c →
    draws r.steps = c.retries.toInt + 1 ∧ c.rounds = c.retries.toInt ∧
      setbacks.length = c.retries.toInt
  /-- Nobody gives up without interference before all rounds have failed.  Only the greatest limit
      leaves room for a round more than a counter holds. -/
  exhausted : ∀ reason c, outcome = .exit reason c →
    r.world.isShutDown = false → r.world.retry.concluded = false →
    draws r.steps = max 0 maxRetries.toInt + 1 ∧ setbacks.length = max 0 maxRetries.toInt + 1 ∧
      c.retries = max 0 maxRetries ∧ c.sum = max 0 maxRetries + 1 ∧
      (maxRetries < Int32.maxValue → c.rounds = max 0 maxRetries.toInt + 1)
  promised : r.world.isShutDown = false →
    outcome.counters.promiseCount = .ofNat (promises r.steps) ∧
      (promises r.steps ≤ Int32.maxValue.toInt →
        outcome.counters.promiseCount.toInt = promises r.steps)

end Replication.Election
