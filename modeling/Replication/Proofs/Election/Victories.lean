import Mathlib.Data.List.Nodup
import Replication.Election.Exchanges
import Replication.Proofs.Computations
import Replication.Proofs.Election.Phases

/-! # What a victory rests on

Whatever surrounds a proposer, one that has won has drawn its proposal last, asked all
acceptors to promise it, chosen its value after just the votes that came, and asked just the
voters to accept; a quorum of them did.  `Recorded` shows all of this: `steps_of_won` tells
the last four steps, `Mandate` what the replies in them amount to.
-/

namespace Replication.Election

/-! ## Replies -/

section Replies

variable {p : Proposal} {v : Token} {reply : Reply} {replies : List Reply}

theorem Reply.not_rejects_of_ok {response : Response} (answered : reply.response = .ok response)
    (other : ∀ higher, response ≠ .reject higher) : reply.rejects = false := by
  rw [Reply.rejects, answered]
  cases response with
  | reject higher => exact absurd rfl (other higher)
  | promise _ | accepted _ _ | protocolError _ => rfl

theorem Reply.acceptor_of_vote? {vote : Vote} (h : reply.vote? p = some vote) :
    vote.acceptor = reply.acceptor := by
  rw [Reply.vote?] at h
  split at h
  · exact (Response.vote?_eq_some h).2.1
  · cases h

/-- A complete first phase has met no rejection, and has all the votes in their order. -/
theorem votes_eq_of_collectPromises {votes : List Vote}
    (h : collectPromises p replies = .complete votes) :
    votes = replies.filterMap (·.vote? p) ∧ ∀ reply ∈ replies, reply.rejects = false := by
  induction replies generalizing votes with
  | nil =>
    cases h
    exact ⟨rfl, fun _ mem => absurd mem List.not_mem_nil⟩
  | cons reply replies ih =>
    unfold collectPromises at h
    split at h
    · cases h
    split at h
    -- No answer is no vote and no rejection, and what is left decides.
    next failure failed =>
      obtain ⟨votes_eq, unrejected⟩ := ih h
      have none : reply.vote? p = none := by rw [Reply.vote?, failed]
      refine ⟨?_, List.forall_mem_cons.2 ⟨?_, unrejected⟩⟩
      · rw [List.filterMap_cons_none none, votes_eq]
      · rw [Reply.rejects, failed]
    · cases h
    next response noReject answered =>
      have calm := Reply.not_rejects_of_ok answered noReject
      have same : reply.vote? p = response.vote? reply.acceptor p := by
        rw [Reply.vote?, answered]
      split at h
      next vote cast =>
        obtain ⟨rest, hrest, rfl⟩ := PhaseEnd.map_eq_complete h
        obtain ⟨rfl, unrejected⟩ := ih hrest
        exact ⟨by rw [List.filterMap_cons_some (same.trans cast)],
          List.forall_mem_cons.2 ⟨calm, unrejected⟩⟩
      next none =>
        obtain ⟨votes_eq, unrejected⟩ := ih h
        exact ⟨by rw [List.filterMap_cons_none (same.trans none), votes_eq],
          List.forall_mem_cons.2 ⟨calm, unrejected⟩⟩

/-- The voters answered in their order. -/
theorem voters_sublist (p : Proposal) (replies : List Reply) :
    ((replies.filterMap (·.vote? p)).map (·.acceptor)).Sublist (replies.map (·.acceptor)) := by
  induction replies with
  | nil => exact .slnil
  | cons reply replies ih =>
    cases cast : reply.vote? p with
    | none =>
      rw [List.filterMap_cons_none cast]
      exact ih.cons _
    | some vote =>
      rw [List.filterMap_cons_some cast, List.map_cons, List.map_cons,
        Reply.acceptor_of_vote? cast]
      exact ih.cons_cons _

/-- A second phase is won by the acceptances among the replies that it took, none of which is
    a rejection. -/
theorem accepters_eq_of_collectAcceptances {q : Quorum} {policy : QuorumPolicy}
    {before accepters : List Octets}
    (h : collectAcceptances q policy p v before replies = .complete { accepters, won := true }) :
    q.need policy ≤ accepters.length ∧ ∃ taken rest, replies = taken ++ rest ∧
      accepters = before ++ (taken.filter (·.accepts p v)).map (·.acceptor) ∧
        ∀ reply ∈ taken, reply.rejects = false := by
  induction replies generalizing before with
  | nil => cases h
  | cons reply replies ih =>
    -- A reply that does not accept is passed over.
    have passed (other : reply.accepts p v = false) (calm : reply.rejects = false)
        (h : collectAcceptances q policy p v before replies =
          .complete { accepters, won := true }) :
        q.need policy ≤ accepters.length ∧ ∃ taken rest, reply :: replies = taken ++ rest ∧
          accepters = before ++ (taken.filter (·.accepts p v)).map (·.acceptor) ∧
            ∀ reply ∈ taken, reply.rejects = false := by
      obtain ⟨met, taken, rest, rfl, found, unrejected⟩ := ih h
      refine ⟨met, reply :: taken, rest, rfl, ?_, List.forall_mem_cons.2 ⟨calm, unrejected⟩⟩
      rw [List.filter_cons_of_neg (by rw [other]; exact Bool.false_ne_true), found]
    unfold collectAcceptances at h
    split at h
    · cases h
    split at h
    next failure failed =>
      exact passed (by rw [Reply.accepts, failed]) (by rw [Reply.rejects, failed]) h
    · cases h
    next response noReject answered =>
      have calm := Reply.not_rejects_of_ok answered noReject
      have same : reply.accepts p v = response.accepts p v := by rw [Reply.accepts, answered]
      split at h
      next accepts =>
        have counted : reply.accepts p v = true := same.trans accepts
        simp only at h
        split at h
        next met =>
          cases h
          refine ⟨Int.ofNat_le.1 met, [reply], replies, rfl, ?_,
            List.forall_mem_cons.2 ⟨calm, fun _ mem => absurd mem List.not_mem_nil⟩⟩
          rw [List.filter_cons_of_pos counted]
          rfl
        next =>
          obtain ⟨met, taken, rest, rfl, found, unrejected⟩ := ih h
          refine ⟨met, reply :: taken, rest, rfl, ?_, List.forall_mem_cons.2 ⟨calm, unrejected⟩⟩
          rw [List.filter_cons_of_pos counted, found, List.append_assoc]
          rfl
      next other => exact passed (same.trans (Bool.eq_false_iff.2 other)) calm h

end Replies

/-! ## Completions -/

namespace Completions

variable {targets : List Octets} (c : Completions targets.length)

theorem map_acceptor_replies :
    (c.replies targets).map (·.acceptor) = (c.taken.map (·.exchange)).map (targets[·]) := by
  rw [replies, List.map_map, List.map_map]
  rfl

/-- Only those who were asked reply. -/
theorem acceptors_subset : (c.replies targets).map (·.acceptor) ⊆ targets := by
  rw [map_acceptor_replies]
  intro name mem
  obtain ⟨i, -, rfl⟩ := List.mem_map.1 mem
  exact List.getElem_mem i.isLt

/-- Nobody replies twice to what he was asked once. -/
theorem nodup_acceptors (distinct : targets.Nodup) :
    ((c.replies targets).map (·.acceptor)).Nodup := by
  rw [map_acceptor_replies]
  refine c.once.map fun i j same => Fin.ext ?_
  exact (distinct.getElem_inj_iff).1 same

end Completions

/-! ## Rounds, however they end -/

/-- What drawing a proposal leads to is kept by the rest of the round, if it is kept by all the
    other questions. -/
theorem Proposer.round_leads {ε σ : Type} {env : Environment (EStateM ε σ)} {q : Quorum}
    {policy : QuorumPolicy} {acceptors : List Octets} {P Q : σ → Prop} (weaker : ∀ s, P s → Q s)
    (cancelled : Stays P env.cancelled) (drawn : ∀ s, P s → Q (endState (env.nextProposal s)))
    (broadcast : ∀ targets request, Stays Q (env.broadcast targets request))
    (concluded : Stays Q env.concluded) (choose : ∀ votes, Stays Q (env.choose votes)) {s : σ}
    (h : P s) : Q (endState (Proposer.round env q policy acceptors s)) := by
  have kept := cancelled s h
  rw [Proposer.round]
  cases asked : env.cancelled s with
  | error e s₁ =>
    rw [asked] at kept
    rw [bind_eq_of_error asked]
    exact weaker s₁ kept
  | ok shutDown s₁ =>
    rw [asked] at kept
    rw [bind_eq_of_ok asked]
    split
    · exact weaker s₁ kept
    -- Behind the drawing only `Q` is left, which all questions to come keep.
    refine Stays.behind (drawn s₁ kept) fun p => .bind (broadcast _ _) fun replies => ?_
    split
    · exact .pure _
    · exact .pure _
    split
    case isFalse => exact .pure _
    refine .bind concluded fun concluded' => ?_
    split
    · exact .pure _
    refine .bind (choose _) fun value => ?_
    split
    · exact .pure _
    refine .bind concluded fun concluded' => ?_
    split
    · exact .pure _
    refine .bind (.bind (broadcast _ _) fun replies => ?_) fun _ => .pure _
    split <;> exact .pure _

/-! ## Steps -/

section Steps

variable {ε ω α : Type} {s : Surroundings ε ω} {q : Quorum} {policy : QuorumPolicy}
  {p p' : Proposal} {v v' : Token} {r r' : Recorded ω} {counters : Counters}

/-- The record grows by what comes of a computation. -/
theorem recording_eq_ok {steps : α → List Step} {x : EStateM ε ω α} {a : α}
    (h : recording steps x r = .ok a r') :
    x r.world = .ok a r'.world ∧ r'.steps = r.steps ++ steps a := by
  rw [recording] at h
  split at h
  next a' world done =>
    cases h
    exact ⟨done, rfl⟩
  next => cases h

/-- A question of which nothing is recorded. -/
theorem steps_of_unrecorded {x : EStateM ε ω α} {a : α}
    (h : recording (fun _ => []) x r = .ok a r') : r'.steps = r.steps :=
  (recording_eq_ok h).2.trans (List.append_nil _)

theorem steps_of_broadcast {targets : List Octets} {request : Request} {replies : List Reply}
    (h : s.environment.broadcast targets request r = .ok replies r') :
    r'.steps = r.steps ++ [.asked targets request replies] ∧
      ∃ c : Completions targets.length, replies = c.replies targets := by
  obtain ⟨done, steps⟩ := recording_eq_ok h
  refine ⟨steps, ?_⟩
  obtain ⟨c, _, -, same⟩ := bind_eq_ok done
  exact ⟨c, (pure_eq_ok same).1.symm⟩

/-- Nothing is taken out of the record. -/
theorem stays_recording {before : List Step} (steps : α → List Step) (x : EStateM ε ω α) :
    Stays (fun r => before <+: r.steps) (recording steps x) := by
  intro r kept
  rw [recording]
  split
  · exact kept.trans (List.prefix_append _ _)
  · exact kept

theorem stays_round (s : Surroundings ε ω) (q : Quorum) (policy : QuorumPolicy)
    (acceptors : List Octets) {before : List Step} :
    Stays (fun r => before <+: r.steps) (Proposer.round s.environment q policy acceptors) := by
  intro r kept
  refine Proposer.round_leads (P := fun r : Recorded ω => before <+: r.steps) (fun _ => id)
    ?_ ?_ ?_ ?_ ?_ kept
  · exact stays_recording _ _
  · exact stays_recording _ _
  · exact fun _ _ => stays_recording _ _
  · exact stays_recording _ _
  · exact fun _ => stays_recording _ _

/-! ## Victories -/

/-- What a victory rests on: the replies that were taken in both phases and the votes among
    them, with the replies that were left to themselves once a quorum had accepted. -/
structure Victory (q : Quorum) (policy : QuorumPolicy) (acceptors : List Octets) (p : Proposal)
    (v : Token) where
  promises : List Reply
  votes : List Vote
  acceptances : List Reply
  stragglers : List Reply
  /-- The votes are all the promises of just this proposal, in the order of completion. -/
  votes_eq : votes = promises.filterMap (·.vote? p)
  votes_enough : q.need policy ≤ votes.length
  voters_distinct : (votes.map (·.acceptor)).Nodup
  voters_subset : votes.map (·.acceptor) ⊆ acceptors
  /-- A quorum of distinct voters accepted just this proposal and value. -/
  accepters : List Octets
  accepters_eq : accepters = (acceptances.filter (·.accepts p v)).map (·.acceptor)
  accepters_enough : q.need policy ≤ accepters.length
  accepters_distinct : accepters.Nodup
  accepters_subset : accepters ⊆ votes.map (·.acceptor)
  /-- No rejection was taken in either phase. -/
  unrejected : ∀ reply ∈ promises ++ acceptances, reply.rejects = false

/-- The steps of the round that was won. -/
def Victory.steps {acceptors : List Octets} (w : Victory q policy acceptors p v) : List Step :=
  [.drew p, .asked acceptors (.propose p) w.promises, .chose w.votes (some v),
    .asked (w.votes.map (·.acceptor)) (.accept p v) (w.acceptances ++ w.stragglers)]

section Rounds

variable {votes : List Vote} {acceptors : List Octets}

/-- The second phase of a round that is won. -/
theorem steps_of_acceptPhase
    (h : Proposer.acceptPhase s.environment q policy p v votes r =
      .ok (.won p' v', counters) r') :
    p = p' ∧ v = v' ∧ ∃ c : Completions (votes.map (·.acceptor)).length, ∃ accepters,
      r'.steps = r.steps ++ [.asked (votes.map (·.acceptor)) (.accept p v) (c.replies _)] ∧
      collectAcceptances q policy p v [] (c.replies _) = .complete { accepters, won := true } := by
  obtain ⟨replies, r₁, sent, h⟩ := bind_eq_ok h
  obtain ⟨steps, c, rfl⟩ := steps_of_broadcast sent
  cases collected : collectAcceptances q policy p v [] (c.replies _) with
  | abandoned | higher =>
    rw [collected] at h
    cases h
  | complete result =>
    obtain ⟨accepters, enough⟩ := result
    rw [collected] at h
    cases enough with
    | false => cases h
    | true =>
      cases h
      exact ⟨rfl, rfl, c, accepters, steps, collected⟩

/-- A round that is won, from its quorum of votes on. -/
theorem steps_of_afterPromises
    (h : Proposer.afterPromises s.environment q policy p votes r =
      .ok (.won p' v, counters) r') :
    p = p' ∧ ∃ c : Completions (votes.map (·.acceptor)).length, ∃ accepters,
      r'.steps = r.steps ++ [.chose votes (some v),
        .asked (votes.map (·.acceptor)) (.accept p v) (c.replies _)] ∧
      collectAcceptances q policy p v [] (c.replies _) = .complete { accepters, won := true } := by
  obtain ⟨concluded, r₁, asked, h⟩ := bind_eq_ok h
  split at h
  · cases h
  obtain ⟨value, r₂, chosen, h⟩ := bind_eq_ok h
  split at h
  · cases h
  next v' =>
    obtain ⟨concluded', r₃, asked', h⟩ := bind_eq_ok h
    split at h
    · cases h
    obtain ⟨⟨ended, more⟩, r₄, phase, h⟩ := bind_eq_ok h
    cases h
    obtain ⟨rfl, rfl, c, accepters, steps, collected⟩ := steps_of_acceptPhase phase
    refine ⟨rfl, c, accepters, ?_, collected⟩
    rw [steps, steps_of_unrecorded asked', (recording_eq_ok chosen).2, steps_of_unrecorded asked,
      List.append_assoc]
    rfl

/-- A round that is won is a victory. -/
theorem steps_of_round (distinct : acceptors.Nodup)
    (h : Proposer.round s.environment q policy acceptors r = .ok (.won p v, counters) r') :
    ∃ w : Victory q policy acceptors p v, r'.steps = r.steps ++ w.steps := by
  obtain ⟨cancelled, r₁, asked, h⟩ := bind_eq_ok h
  split at h
  · cases h
  obtain ⟨p', r₂, drawn, h⟩ := bind_eq_ok h
  obtain ⟨promises, r₃, sent, h⟩ := bind_eq_ok h
  obtain ⟨steps, c, rfl⟩ := steps_of_broadcast sent
  cases collected : collectPromises p' (c.replies _) with
  | abandoned | higher =>
    rw [collected] at h
    cases h
  | complete votes =>
    rw [collected] at h
    dsimp only at h
    split at h
    next met =>
      -- Voters are a part of those asked first, and accepters of the voters; so all are distinct.
      obtain ⟨rfl, c', accepters, steps', collected'⟩ := steps_of_afterPromises h
      obtain ⟨votes_eq, unrejected⟩ := votes_eq_of_collectPromises collected
      obtain ⟨enough, taken, rest, replies, found, unrejected'⟩ :=
        accepters_eq_of_collectAcceptances collected'
      have voters : (votes.map (·.acceptor)).Sublist ((c.replies acceptors).map (·.acceptor)) :=
        votes_eq ▸ voters_sublist p' _
      have voters_distinct := voters.nodup (c.nodup_acceptors distinct)
      have accepters_sub : accepters.Sublist
          ((c'.replies (votes.map (·.acceptor))).map (·.acceptor)) := by
        rw [found, replies, List.nil_append, List.map_append]
        exact (List.filter_sublist.map _).trans (List.sublist_append_left _ _)
      have grown : r'.steps = r.steps ++
          [.drew p', .asked acceptors (.propose p') (c.replies acceptors), .chose votes (some v),
            .asked (votes.map (·.acceptor)) (.accept p' v) (taken ++ rest)] := by
        rw [steps', steps, (recording_eq_ok drawn).2, steps_of_unrecorded asked, replies]
        simp only [List.append_assoc, List.cons_append, List.nil_append]
      exact ⟨{
        promises := c.replies acceptors, votes, acceptances := taken, stragglers := rest
        votes_eq, votes_enough := Int.ofNat_le.1 met, voters_distinct
        voters_subset := List.Subset.trans voters.subset c.acceptors_subset
        accepters, accepters_eq := found, accepters_enough := enough
        accepters_distinct := accepters_sub.nodup (c'.nodup_acceptors voters_distinct)
        accepters_subset := List.Subset.trans accepters_sub.subset c'.acceptors_subset
        unrejected := List.forall_mem_append.2 ⟨unrejected, unrejected'⟩ }, grown⟩
    next => cases h

/-- Nobody has won who stopped without a winner. -/
theorem not_won_of_finish {reason : ExitReason} {outcome : Option Outcome}
    (h : (do return some (← Proposer.finish s.environment reason counters)) r =
      .ok outcome r') (p : Proposal) (v : Token) (counters : Counters) :
    outcome ≠ some (.won p v counters) := by
  obtain ⟨ended, r₁, finished, same⟩ := bind_eq_ok h
  obtain ⟨rfl, -⟩ := pure_eq_ok same
  obtain ⟨_, _, -, finished⟩ := bind_eq_ok finished
  obtain ⟨_, _, -, finished⟩ := bind_eq_ok finished
  obtain ⟨_, _, -, finished⟩ := bind_eq_ok finished
  obtain ⟨rfl, -⟩ := pure_eq_ok finished
  nofun

end Rounds

end Steps

/-- Whatever happens to a proposer, and whatever happened to it before: the round in which it
    has won is a victory. -/
theorem Proposer.victory_of_won {ε ω : Type} (s : Surroundings ε ω) (q : Quorum)
    (policy : QuorumPolicy) {acceptors : List Octets} (distinct : acceptors.Nodup) {fuel : Nat}
    {counters counters' : Counters} {p : Proposal} {v : Token} {r r' : Recorded ω}
    (won : Proposer.run s.environment q policy acceptors fuel counters r =
      .ok (some (.won p v counters')) r') :
    ∃ (earlier : List Step) (w : Victory q policy acceptors p v),
      r'.steps = r.steps ++ earlier ++ w.steps := by
  -- On the rounds: the last one is the one that was won.
  induction fuel generalizing counters r with
  | zero => cases won
  | succ fuel ih =>
    obtain ⟨go, r₁, asked, won⟩ := bind_eq_ok won
    split at won
    · exact absurd rfl (not_won_of_finish won p v counters')
    obtain ⟨⟨ended, more⟩, r₂, round, won⟩ := bind_eq_ok won
    cases ended with
    | won p' v' =>
      obtain ⟨retries, r₃, counted, won⟩ := bind_eq_ok won
      cases won
      obtain ⟨w, steps⟩ := steps_of_round distinct round
      refine ⟨[], w, ?_⟩
      rw [steps_of_unrecorded counted, steps, steps_of_unrecorded asked, List.append_nil]
    | failed =>
      obtain ⟨earlier, w, steps⟩ := ih won
      have kept := stays_round s q policy acceptors r₁ (List.prefix_refl r₁.steps)
      rw [round] at kept
      obtain ⟨failed, grown⟩ : r₁.steps <+: r₂.steps := kept
      refine ⟨failed ++ earlier, w, ?_⟩
      rw [steps, ← grown, steps_of_unrecorded asked, List.append_assoc r.steps]
    | stopped reason => exact absurd rfl (not_won_of_finish won p v counters')

/-! ## A world that does not help -/

namespace Unruly

/-- Five acceptors. -/
def names : List Octets := [[1], [2], [3], [4], [5]]

/-- The value to elect. -/
def value : Token := .blanked [65]

/-- What comes of the exchange with the number `i`: the first round is rejected, in the second
    one acceptor promises an older proposal and another accepts another value. -/
def answer (i : Nat) : Request → Except Octets Response
  | .propose p =>
    if p.time = 1 ∧ i = 2 then .ok (.reject { p with time := 2 })
    else if i = 3 then .error []
    else .ok (.promise
      { proposal := if i = 0 then { p with time := 1 } else p, acceptedProposal := none
        acceptedValue := none
        suggestion := { value, ranking := { vlsn := 1, priority := 1 } } })
  | .accept p v => .ok (.accepted p (if i = 2 then .empty else v))

/-- Every exchange completes, the last one first. -/
def completions (n : Nat) (request : Request) : Completions n where
  taken := (List.finRange n).reverse.map fun i =>
    { exchange := i, response := answer i request }
  once := by simpa [Function.comp_def] using List.nodup_finRange n

/-- A world that counts the proposals. -/
def surroundings : Surroundings Empty Nat where
  retry := return true
  retries := return 1
  concluded := return false
  cancelled := return false
  nextProposal := modifyGet fun n => ({ time := n.toUInt64 + 1, suffix := .empty }, n + 1)
  exchanges targets request := return completions targets.length request
  choose _ := return some value

/-- In a group of three its proposer wins with the second proposal. -/
theorem victory_of_won_unruly :
    ∃ counters r', names.Nodup ∧
      Proposer.run surroundings.environment { groupSize := 3 } .simpleMajority names 2 {}
        { world := 0 } = .ok (some (.won { time := 2, suffix := .empty } value counters)) r' ∧
      ∃ (earlier : List Step) (w : Victory { groupSize := 3 } .simpleMajority names
          { time := 2, suffix := .empty } value), r'.steps = [] ++ earlier ++ w.steps := by
  have distinct : names.Nodup := by decide
  have won : ∃ counters r',
      Proposer.run surroundings.environment { groupSize := 3 } .simpleMajority names 2 {}
        { world := 0 } = .ok (some (.won { time := 2, suffix := .empty } value counters)) r' :=
    ⟨_, _, rfl⟩
  obtain ⟨counters, r', won⟩ := won
  exact ⟨counters, r', distinct, won, Proposer.victory_of_won surroundings _ _ distinct won⟩

end Unruly

end Replication.Election
