import Replication.Election.Contest

/-! # What a proposer may send

A proposer asks all electors to promise.  It asks for acceptance only behind such a
broadcast whose replies brought a quorum of votes: just those that voted, and the value
that their votes call for.  `Pending.Heeds` says that a waiting proposer keeps to this
whatever answers it gets, and `heeds_run` that every proposer does.
-/

namespace Replication.Election

/-! ## The rules -/

/-- The latest broadcast of a proposer, with the replies that it went on with. -/
inductive Stage where
  | fresh
  | promised (p : Proposal) (replies : List Reply)
  | accepted (p : Proposal) (v : Token) (replies : List Reply)

/-- The stage of a proposer that got the replies to its request. -/
def Request.stage (replies : List Reply) : Request → Stage
  | .propose p => .promised p replies
  | .accept p v => .accepted p v replies

section Rules

variable (q : Quorum) (policy : QuorumPolicy) (names : List Octets)

/-- Whether replies to a proposal bring a quorum of votes that call for a value. -/
structure Backing (p : Proposal) (v : Token) (replies : List Reply) (votes : List Vote) :
    Prop where
  collected : collectPromises p replies = .complete votes
  met : q.Met policy votes.length
  chosen : chooseMaster votes = some v

/-- Whether a proposer may send a request to these targets. -/
def Request.Permitted (s : Stage) (targets : List Octets) : Request → Prop
  | .propose _ => targets = names
  | .accept p v => ∃ replies votes, s = .promised p replies ∧
      Backing q policy p v replies votes ∧ targets = votes.map (·.acceptor)

/-- Whether the latest replies make a value win. -/
def Stage.Wins (s : Stage) (p : Proposal) (v : Token) : Prop :=
  ∃ replies accepters, s = .accepted p v replies ∧
    collectAcceptances q policy p v [] replies = .complete { accepters, won := true }

/-- Whether everything that a computation may yet send is permitted, and what holds in the
    end. -/
def Pending.Heeds {α : Type} (post : Stage → α → Prop) : Stage → Pending α → Prop
  | s, .done a => post s a
  | s, .ask next => ∀ answer, (next answer).Heeds post s
  | s, .count next => ∀ answer, (next answer).Heeds post s
  | s, .draw next => ∀ answer, (next answer).Heeds post s
  | s, .broadcast targets request next =>
    request.Permitted q policy names s targets ∧
      ∀ replies, (next replies).Heeds post (request.stage replies)

end Rules

/-! ## Computations that follow one another -/

section Heeds

variable {q : Quorum} {policy : QuorumPolicy} {names : List Octets} {α β : Type}

@[simp] theorem Pending.heeds_pure {post : Stage → α → Prop} {s : Stage} {a : α} :
    (pure a : Pending α).Heeds q policy names post s ↔ post s a := Iff.rfl

/-- The rest of a computation starts at the stage that its first part leads to. -/
@[simp] theorem Pending.heeds_bind {post : Stage → β → Prop} {s : Stage} {x : Pending α}
    {f : α → Pending β} :
    (x >>= f).Heeds q policy names post s ↔
      x.Heeds q policy names (fun s a => (f a).Heeds q policy names post s) s := by
  show (x.bind f).Heeds q policy names post s ↔ _
  induction x generalizing s with
  | done a => exact Iff.rfl
  | ask next ih => exact forall_congr' fun answer => ih answer
  | count next ih => exact forall_congr' fun answer => ih answer
  | draw next ih => exact forall_congr' fun answer => ih answer
  | broadcast targets request next ih =>
    exact and_congr_right fun _ => forall_congr' fun replies => ih replies

/-- What holds in the end may be weakened. -/
theorem Pending.Heeds.mono {post post' : Stage → α → Prop} {s : Stage} {x : Pending α}
    (h : x.Heeds q policy names post s) (weaker : ∀ s a, post s a → post' s a) :
    x.Heeds q policy names post' s := by
  induction x generalizing s with
  | done a => exact weaker s a h
  | ask next ih => exact fun answer => ih answer (h answer)
  | count next ih => exact fun answer => ih answer (h answer)
  | draw next ih => exact fun answer => ih answer (h answer)
  | broadcast targets request next ih =>
    exact ⟨h.1, fun replies => ih replies (h.2 replies)⟩

/-! ## Questions

The answer to a question may be any; only a broadcast moves the stage. -/

variable {s : Stage}

@[simp] theorem heeds_retry {post : Stage → Bool → Prop} :
    Pending.environment.retry.Heeds q policy names post s ↔ ∀ go, post s go := Iff.rfl

@[simp] theorem heeds_retries {post : Stage → Int32 → Prop} :
    Pending.environment.retries.Heeds q policy names post s ↔ ∀ n, post s n := Iff.rfl

@[simp] theorem heeds_concluded {post : Stage → Bool → Prop} :
    Pending.environment.concluded.Heeds q policy names post s ↔ ∀ b, post s b := Iff.rfl

@[simp] theorem heeds_cancelled {post : Stage → Bool → Prop} :
    Pending.environment.cancelled.Heeds q policy names post s ↔ ∀ b, post s b := Iff.rfl

@[simp] theorem heeds_nextProposal {post : Stage → Proposal → Prop} :
    Pending.environment.nextProposal.Heeds q policy names post s ↔ ∀ p, post s p := Iff.rfl

@[simp] theorem heeds_choose {post : Stage → Option Token → Prop} {votes : List Vote} :
    (Pending.environment.choose votes).Heeds q policy names post s ↔
      post s (chooseMaster votes) := Iff.rfl

@[simp] theorem heeds_broadcast {post : Stage → List Reply → Prop} {targets : List Octets}
    {request : Request} :
    (Pending.environment.broadcast targets request).Heeds q policy names post s ↔
      request.Permitted q policy names s targets ∧
        ∀ replies, post (request.stage replies) replies := Iff.rfl

/-! ## Proposers -/

/-- What holds behind a round: a value that was elected did win. -/
def RoundEnd.Earned (q : Quorum) (policy : QuorumPolicy) (s : Stage)
    (result : RoundEnd × Counters) : Prop :=
  ∀ p v, result.1 = .won p v → s.Wins q policy p v

/-- What holds behind an election: its winner did win. -/
def Outcome.Earned (q : Quorum) (policy : QuorumPolicy) (s : Stage) (outcome : Option Outcome) :
    Prop :=
  ∀ p v counters, outcome = some (.won p v counters) → s.Wins q policy p v

@[simp] theorem earned_failed {counters : Counters} :
    RoundEnd.Earned q policy s (.failed, counters) := fun _ _ won => RoundEnd.noConfusion won

@[simp] theorem earned_stopped {reason : ExitReason} {counters : Counters} :
    RoundEnd.Earned q policy s (.stopped reason, counters) :=
  fun _ _ won => RoundEnd.noConfusion won

/-- What a round counts does not matter. -/
theorem RoundEnd.Earned.counted {ended : RoundEnd} {counters : Counters}
    (h : RoundEnd.Earned q policy s (ended, counters)) (counters' : Counters) :
    RoundEnd.Earned q policy s (ended, counters') := h

theorem heeds_acceptPhase {p : Proposal} {v : Token} {replies : List Reply} {votes : List Vote}
    (backing : Backing q policy p v replies votes) :
    (Proposer.acceptPhase Pending.environment q policy p v votes).Heeds q policy names
      (RoundEnd.Earned q policy) (.promised p replies) := by
  simp only [Proposer.acceptPhase, Pending.heeds_bind, heeds_broadcast]
  refine ⟨⟨replies, votes, rfl, backing, rfl⟩, fun acceptances => ?_⟩
  split
  · exact earned_failed
  · exact earned_failed
  next accepters collected =>
    intro p' v' won
    cases won
    exact ⟨acceptances, accepters, rfl, collected⟩
  · exact earned_failed

theorem heeds_afterPromises {p : Proposal} {replies : List Reply} {votes : List Vote}
    (collected : collectPromises p replies = .complete votes)
    (met : q.Met policy votes.length) :
    (Proposer.afterPromises Pending.environment q policy p votes).Heeds q policy names
      (RoundEnd.Earned q policy) (.promised p replies) := by
  simp only [Proposer.afterPromises, Pending.heeds_bind, heeds_concluded]
  intro concluded
  split
  · exact earned_stopped
  simp only [Pending.heeds_bind, heeds_choose]
  split
  · exact earned_failed
  next v chosen =>
    simp only [Pending.heeds_bind, heeds_concluded]
    intro concluded
    split
    · exact earned_stopped
    simp only [Pending.heeds_bind]
    exact (heeds_acceptPhase ⟨collected, met, chosen⟩).mono fun _ _ earned => earned.counted _

theorem heeds_round (s : Stage) :
    (Proposer.round Pending.environment q policy names).Heeds q policy names
      (RoundEnd.Earned q policy) s := by
  simp only [Proposer.round, Pending.heeds_bind, heeds_cancelled]
  intro cancelled
  split
  · exact earned_stopped
  simp only [Pending.heeds_bind, heeds_nextProposal, heeds_broadcast]
  refine fun p => ⟨rfl, fun replies => ?_⟩
  split
  · exact earned_failed
  · exact earned_failed
  next votes collected =>
    split
    next met => exact heeds_afterPromises collected met
    next => exact earned_failed

/-- The end of an election without a winner sends nothing, and nobody has won. -/
theorem heeds_finish (reason : ExitReason) (counters : Counters) (s : Stage) :
    (do return some (← Proposer.finish Pending.environment reason counters) :
      Pending (Option Outcome)).Heeds q policy names (Outcome.Earned q policy) s := by
  simp only [Proposer.finish, Pending.heeds_bind, heeds_concluded, heeds_cancelled, heeds_retries,
    Pending.heeds_pure]
  intro _ _ _ p v counters won
  cases won

/-- Every proposer keeps to the rules, from whatever stage it begins. -/
theorem heeds_run (rounds : Nat) (counters : Counters) (s : Stage) :
    (Proposer.run Pending.environment q policy names rounds counters).Heeds q policy names
      (Outcome.Earned q policy) s := by
  induction rounds generalizing counters s with
  | zero =>
    intro p v counters won
    cases won
  | succ rounds ih =>
    simp only [Proposer.run, Pending.heeds_bind, heeds_retry]
    intro go
    split
    · exact heeds_finish _ _ _
    simp only [Pending.heeds_bind]
    refine (heeds_round s).mono fun s result earned => ?_
    obtain ⟨ended, more⟩ := result
    cases ended with
    | won p v =>
      simp only [Pending.heeds_bind, heeds_retries]
      rintro retries p' v' _ ⟨⟩
      exact earned p v rfl
    | failed => exact ih _ _
    | stopped reason => exact heeds_finish _ _ _

end Heeds

end Replication.Election
