import Replication.Election.Electorate
import Replication.Proofs.Election.Interference

/-! # Every round is counted once

Whatever transport, strategy and others do, a round of a proposer that has started is counted
under just one thing that stopped it, unless it was won, or was given up for good.  A round
lemma tells what one round adds to the record and to the counters; the rest is induction on
the rounds, and on the calls.

The counters wrap around.  So an exact account is kept beside them, the list of what stopped the
rounds, of which they are an image in 32 bits.
-/

namespace Replication.Election

/-! ## Why a phase ends early -/

section Phases

variable {α β : Type} {p : Proposal} {v : Token} {q : Quorum} {policy : QuorumPolicy}
  {replies : List Reply}

end Phases

variable {ε ω α : Type}

/-! ## What is counted -/

theorem draws_append (before after : List Step) :
    draws (before ++ after) = draws before + draws after :=
  List.countP_append

theorem promises_append (before after : List Step) :
    promises (before ++ after) = promises before + promises after := by
  induction before with
  | nil => exact (Nat.zero_add _).symm
  | cons step before ih =>
    show step.promises + promises (before ++ after) = step.promises + promises before + _
    rw [ih, Nat.add_assoc]

theorem Setback.length_eq (setbacks : List Setback) : setbacks.length =
    setbacks.count .phase1NoQuorum + setbacks.count .phase1NoNonZeroPrio +
      setbacks.count .phase1HigherProposal + setbacks.count .phase2NoQuorum +
      setbacks.count .phase2HigherProposal := by
  induction setbacks with
  | nil => rfl
  | cons s setbacks ih =>
    cases s <;> simp only [List.length_cons, List.count_cons, beq_iff_eq, reduceCtorEq, if_true,
      if_false] <;> omega

/-- A number in 32 bits is exact as long as it fits. -/
theorem exactly_of_ofNat {count : Int32} {n : Nat} (told : count = .ofNat n) :
    count = .ofNat n ∧ (n ≤ Int32.maxValue.toInt → count.toInt = n) := by
  refine ⟨told, fun fits => ?_⟩
  rw [Int32.toInt_maxValue] at fits
  rw [told, Int32.toInt_ofNat_of_lt (by omega)]

namespace Counters

variable {a b : Counters} {setbacks more : List Setback}

@[simp] theorem under_add (a b : Counters) (s : Setback) :
    (a + b).under s = a.under s + b.under s := by
  cases s <;> rfl

/-- Whether counters tell of these setbacks, as far as 32 bits can. -/
def Tell (c : Counters) (setbacks : List Setback) : Prop :=
  ∀ s, c.under s = .ofNat (setbacks.count s)

theorem Tell.add (h : a.Tell setbacks) (h' : b.Tell more) : (a + b).Tell (setbacks ++ more) := by
  intro s
  rw [under_add, h s, h' s, List.count_append, Int32.ofNat_add]

/-- The retries that are entered at the end of a call are no setback. -/
theorem Tell.enterRetries (h : a.Tell setbacks) (retries : Int32) :
    ({ a with retries } : Counters).Tell setbacks := by
  intro s
  rw [← h s]
  cases s <;> rfl

theorem Tell.sum_eq (h : a.Tell setbacks) : a.sum = .ofNat setbacks.length := by
  rw [Setback.length_eq]
  simp only [Int32.ofNat_add, ← h _]
  rfl

/-- Counters that have not wrapped around are exact. -/
theorem Tell.rounds_eq (h : a.Tell setbacks)
    (fits : ∀ s, setbacks.count s ≤ Int32.maxValue.toInt) : a.rounds = setbacks.length := by
  have exact (s : Setback) : (a.under s).toInt = setbacks.count s :=
    (exactly_of_ofNat (h s)).2 (fits s)
  change (a.under .phase1NoQuorum).toInt + (a.under .phase1NoNonZeroPrio).toInt +
    (a.under .phase1HigherProposal).toInt + (a.under .phase2NoQuorum).toInt +
    (a.under .phase2HigherProposal).toInt = _
  simp only [exact, Setback.length_eq setbacks, Int.natCast_add]

/-- None has if there are too few rounds for that. -/
theorem Tell.rounds_eq_of_le (h : a.Tell setbacks)
    (few : setbacks.length ≤ Int32.maxValue.toInt) : a.rounds = setbacks.length :=
  h.rounds_eq fun _ => Int.le_trans (Int.ofNat_le.2 List.count_le_length) few

end Counters

/-- How many rounds a round may count: one if it failed, and none if it was won or others ended
    it. -/
def RoundEnd.Counts (ended : RoundEnd) (rounds : Nat) (t : Tenure ω) : Prop :=
  match ended with
  | won .. => rounds = 0
  | failed => rounds = 1 ∨ rounds = 0 ∧ t.Interfered
  | stopped _ => rounds = 0 ∧ t.Interfered

/-- What the phases of a round add to the record and to the counters once its promises are
    there. -/
structure Adds (before after : Recorded (Tenure ω)) (ended : RoundEnd) (more : Counters)
    (setbacks : List Setback) : Prop where
  continues : before.world.Continues after.world
  drawn : draws after.steps = draws before.steps
  promised : promises after.steps = promises before.steps
  counts : ended.Counts setbacks.length after.world
  told : more.Tell setbacks

section Rounds

variable {o : Outside ε ω} {q : Quorum} {policy : QuorumPolicy} {r r' : Recorded (Tenure ω)}
  {acceptors : List Octets} {p : Proposal} {v : Token} {votes : List Vote} {ended : RoundEnd}
  {more : Counters} {setbacks : List Setback}

/-- A step that neither draws nor tells promises. -/
theorem Adds.of_step {step : Step} (continues : r.world.Continues r'.world)
    (steps : r'.steps = r.steps ++ [step]) (undrawn : draws [step] = 0)
    (unpromised : promises [step] = 0) (counts : ended.Counts setbacks.length r'.world)
    (told : more.Tell setbacks) : Adds r r' ended more setbacks where
  continues
  drawn := by rw [steps, draws_append, undrawn, Nat.add_zero]
  promised := by rw [steps, promises_append, unpromised, Nat.add_zero]
  counts
  told

/-- What a round adds that was started: it draws once, and is counted with the promises that it
    got. -/
structure Started (before after : Recorded (Tenure ω)) (ended : RoundEnd) (more : Counters)
    (setbacks : List Setback) : Prop where
  continues : before.world.Continues after.world
  running : before.world.isShutDown = false
  drawn : draws after.steps = draws before.steps + 1
  promised : after.world.isShutDown = false →
    Int32.ofNat (promises after.steps) = .ofNat (promises before.steps) + more.promiseCount
  counts : ended.Counts setbacks.length after.world
  told : more.Tell setbacks

end Rounds

/-! ## Retries -/

section Runs

variable {o : Outside ε ω} {q : Quorum} {policy : QuorumPolicy} {acceptors : List Octets}
  {r r' : Recorded (Tenure ω)} {maxRetries : Int32} {counters more : Counters} {ended : RoundEnd}
  {setbacks new : List Setback}

/-- What was counted, between two rounds and behind the last one: all rounds that have started,
    or all but one that others have ended. -/
structure Tallied (counters : Counters) (setbacks : List Setback) (r : Recorded (Tenure ω)) :
    Prop where
  told : counters.Tell setbacks
  rounds : draws r.steps = setbacks.length ∨
    draws r.steps = setbacks.length + 1 ∧ r.world.Interfered
  promised : r.world.isShutDown = false → counters.promiseCount = .ofNat (promises r.steps)

theorem Tallied.rounds_eq (h : Tallied counters setbacks r) (undisturbed : ¬ r.world.Interfered) :
    draws r.steps = setbacks.length :=
  h.rounds.resolve_right fun one => undisturbed one.2

/-- What holds of a call between its rounds. -/
structure Underway (maxRetries : Int32) (counters : Counters) (setbacks : List Setback)
    (r : Recorded (Tenure ω)) : Prop extends Tallied counters setbacks r where
  limit : r.world.retry.maxRetries = maxRetries
  few : 0 ≤ r.world.retry.retries.toInt ∧ r.world.retry.retries.toInt ≤ maxRetries.toNatClampNeg
  fresh : r.world.retry.started = false → r.world.retry.retries.toInt = 0 ∧ draws r.steps = 0
  drawn : r.world.retry.started = true → draws r.steps = r.world.retry.retries.toInt + 1

/-- What holds of a call in front of a round. -/
structure Ready (maxRetries : Int32) (counters : Counters) (setbacks : List Setback)
    (r : Recorded (Tenure ω)) : Prop extends Tallied counters setbacks r where
  limit : r.world.retry.maxRetries = maxRetries
  few : 0 ≤ r.world.retry.retries.toInt ∧ r.world.retry.retries.toInt ≤ maxRetries.toNatClampNeg
  started : r.world.retry.started = true
  undecided : r.world.retry.concluded = false
  drawn : draws r.steps = r.world.retry.retries.toInt

/-- All rounds before one that is started were counted. -/
theorem Ready.started_rounds (h : Ready maxRetries counters setbacks r)
    (round : Started r r' ended more new) : draws r.steps = setbacks.length :=
  h.rounds_eq (Tenure.not_interfered_iff.2 ⟨round.running, h.undecided⟩)

theorem Ready.promised_add (h : Ready maxRetries counters setbacks r)
    (round : Started r r' ended more new) (running : r'.world.isShutDown = false) :
    (counters + more).promiseCount = .ofNat (promises r'.steps) := by
  rw [round.promised running, ← h.promised round.running]
  rfl

/-- Behind a round that was not won, it is counted as well, or others have ended it. -/
theorem Ready.tallied (h : Ready maxRetries counters setbacks r)
    (round : Started r r' ended more new)
    (lost : new.length = 1 ∨ new.length = 0 ∧ r'.world.Interfered) :
    Tallied (counters + more) (setbacks ++ new) r' where
  told := h.told.add round.told
  rounds := by
    rw [round.drawn, h.started_rounds round, List.length_append]
    exact lost.imp (fun one => by rw [one]) (And.imp_left fun zero => by rw [zero])
  promised := h.promised_add round

/-- A round that failed leads on. -/
theorem Ready.failed (h : Ready maxRetries counters setbacks r)
    (round : Started r r' .failed more new) :
    Underway maxRetries (counters + more) (setbacks ++ new) r' where
  toTallied := h.tallied round round.counts
  limit := round.continues.limit.trans h.limit
  few := round.continues.retries ▸ h.few
  fresh first :=
    absurd ((round.continues.started.trans h.started).symm.trans first) Bool.false_ne_true.symm
  drawn _ := by rw [round.drawn, round.continues.retries, Int.natCast_add, h.drawn]; rfl

/-! ## How a call ends -/

theorem Ready.won {p : Proposal} {v : Token} {result : Option Outcome}
    (h : Ready maxRetries counters setbacks r) (round : Started r r' (.won p v) more new)
    {r'' : Recorded (Tenure ω)}
    (ended : (do
        return some (.won p v { counters + more with
          retries := ← o.surroundings.environment.retries }) : EStateM ε _ _) r' =
      .ok result r'') :
    ∃ outcome setbacks, result = some outcome ∧ outcome.Accounts maxRetries setbacks r'' := by
  obtain ⟨t, continues, counted⟩ := o.retries_total r'
  rw [bind_eq_of_ok counted] at ended
  obtain ⟨rfl, rfl⟩ := pure_eq_ok ended
  have drawn := round.drawn
  have before := h.started_rounds round
  have retries : (draws r.steps : Int) = t.retry.retries.toInt := by
    rw [continues.retries, round.continues.retries, h.drawn]
  obtain rfl : new = [] := List.eq_nil_of_length_eq_zero round.counts
  have told := (h.told.add round.told).enterRetries t.retry.retries
  rw [List.append_nil] at told
  -- A winner has at most as many rounds behind it as there are retries, so no counter wraps around.
  have few := t.retry.retries.toInt_le
  have rounds := told.rounds_eq_of_le (by omega)
  have promised (running : t.isShutDown = false) := h.promised_add round (continues.running running)
  refine ⟨_, setbacks, rfl, told, told.sum_eq, told.rounds_eq, ?_, ?_, ?_, nofun,
    fun running => exactly_of_ofNat (promised running)⟩
  · show setbacks.length ≤ draws r'.steps
    omega
  · show draws r'.steps ≤ setbacks.length + 1
    omega
  · rintro _ _ _ ⟨⟩
    refine ⟨?_, rounds.trans (before ▸ retries), before ▸ retries⟩
    show (draws r'.steps : Int) = t.retry.retries.toInt + 1
    omega

/-- What holds of a call at all times, also when it fails: it draws no more proposals than it
    has retries, and adds nothing to the total. -/
structure Within (maxRetries : Int32) (total : Counters) (r : Recorded (Tenure ω)) : Prop where
  limit : r.world.retry.maxRetries = maxRetries
  few : 0 ≤ r.world.retry.retries.toInt ∧ r.world.retry.retries.toInt ≤ maxRetries.toNatClampNeg
  drawn : (draws r.steps : Int) ≤
    if r.world.retry.started then r.world.retry.retries.toInt + 1 else 0
  total : r.world.total = total

variable {total : Counters}

end Runs

/-! ## Calls -/

namespace Outside

section Calls

variable (o : Outside ε ω) (q : Quorum) (acceptors : List Octets) (order : Order) (t : Tenure ω)

/-- A call in front of its first question. -/
def opening : Recorded (Tenure ω) :=
  { world := { t with retry := { maxRetries := order.maxRetries } } }

end Calls

end Outside

/-- An election in one process is a call as well. -/
theorem Campaign.run_eq_issue (q : Quorum) (policy : QuorumPolicy) :
    Campaign.run q policy = (do
      let c ← get
      Proposer.issue environment (fun counters => modify fun c => { c with candidate :=
        { c.candidate with total := c.candidate.total + counters } })
        q policy (c.electorate.members.map (·.name)) c.fuel) :=
  rfl

/-! ## Two calls -/

namespace Unruly

/-- The same world, in which nobody interferes. -/
def outside : Outside Empty Nat where
  meanwhile n := ({}, n)
  nextProposal := surroundings.nextProposal
  exchanges := surroundings.exchanges
  choose := surroundings.choose

/-- A proposer that was never called. -/
def fresh : Tenure Nat := { world := 0, retry := { maxRetries := 0 } }

end Unruly

end Replication.Election
