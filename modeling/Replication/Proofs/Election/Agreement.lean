import Replication.Proofs.Election.Invariant
import Replication.Proofs.Election.Quorums

/-! # Agreement

Once a quorum has accepted a value under a proposal, no request for acceptance under that
proposal or a later one carries another value, so all winners agree.  Nothing is asked of the
proposals: elections may use one twice, or share one.
-/

namespace Replication.Election

namespace Contest

/-- Whether a quorum has accepted a value under a proposal. -/
def Elected (c : Contest) (policy : QuorumPolicy) (p : Proposal) (v : Token) : Prop :=
  ∃ accepters : List Octets, accepters.Nodup ∧ c.electors.quorum.need policy ≤ accepters.length ∧
    ∀ a ∈ accepters, ∃ b, c.Responded b a (.accepted p v)

/-- Whether acceptance of a value under a proposal was asked for. -/
def Requested (c : Contest) (p : Proposal) (v : Token) : Prop :=
  ∃ sent ∈ c.broadcasts, sent.request = .accept p v

/-- Whether an election has ended with a winner. -/
def Won (c : Contest) (i : Nat) (p : Proposal) (v : Token) : Prop :=
  ∃ call counters, c.calls[i]? = some call ∧ call.program = .done (some (.won p v counters))

section Agreement

variable {c : Contest} {p p' : Proposal} {v v' : Token} {policy : QuorumPolicy}

/-- Who responds is an elector. -/
theorem Sound.elector (h : c.Sound) {b : Nat} {acceptor : Octets} {r : Response}
    (responded : c.Responded b acceptor r) : acceptor ∈ c.electors.names := by
  obtain ⟨sent, found, target, -⟩ := h.relevant b acceptor r responded
  exact h.addressed sent (List.mem_of_getElem? found) target

/-- The voters behind a request for acceptance. -/
theorem Basis.voters_subset (h : c.Sound) {k b : Nat} {sent : Broadcast} {votes : List Vote}
    (basis : c.Basis k sent p v b votes) : votes.map (·.acceptor) ⊆ c.electors.names := by
  intro name mem
  obtain ⟨vote, voted, rfl⟩ := List.mem_map.1 mem
  exact h.elector (basis.cast vote voted).2

/-- Two requests under one proposal carry the same value: an acceptor that voted for both
    promised the proposal only once, so they go back to one broadcast, and the same
    proposer sent no other request after it. -/
theorem Sound.value_unique (h : c.Sound) (one : c.Requested p v) (other : c.Requested p v') :
    v = v' := by
  obtain ⟨sent, mem, request⟩ := one
  obtain ⟨sent', mem', request'⟩ := other
  obtain ⟨k, found⟩ := List.mem_iff_getElem?.1 mem
  obtain ⟨k', found'⟩ := List.mem_iff_getElem?.1 mem'
  obtain ⟨b, votes, basis⟩ := h.basis k sent p v found request
  obtain ⟨b', votes', basis'⟩ := h.basis k' sent' p v' found' request'
  obtain ⟨policy, overlapping, met⟩ := basis.quorum
  obtain ⟨policy', overlapping', met'⟩ := basis'.quorum
  -- Two quorums have a voter in common, who promised the proposal in one broadcast only.
  obtain ⟨a, inVotes, inVotes'⟩ := c.electors.exists_mem_both overlapping overlapping'
    basis.distinct basis'.distinct (basis.voters_subset h) (basis'.voters_subset h)
    (by rwa [List.length_map]) (by rwa [List.length_map])
  obtain ⟨vote, voted, rfl⟩ := List.mem_map.1 inVotes
  obtain ⟨vote', voted', name⟩ := List.mem_map.1 inVotes'
  obtain ⟨same, promised⟩ := basis.cast vote voted
  obtain ⟨same', promised'⟩ := basis'.cast vote' voted'
  rw [name] at promised'
  obtain rfl : b = b' := (h.memory vote.acceptor).once b b' _ _ (mem_answers.2 promised)
    (mem_answers.2 promised') (same.trans same'.symm)
  obtain ⟨first, foundFirst, caller, -⟩ := basis.proposed
  obtain ⟨first', foundFirst', caller', -⟩ := basis'.proposed
  rw [foundFirst] at foundFirst'
  cases foundFirst'
  have callers : sent.caller = sent'.caller := caller.symm.trans caller'
  -- Each request is the next one that its proposer sent behind that broadcast.
  rcases Nat.lt_trichotomy k k' with lt | rfl | lt
  · exact absurd callers (basis'.next k sent basis.before lt found)
  · rw [found] at found'
    cases found'
    rw [request] at request'
    exact (Request.accept.inj request').2
  · exact absurd callers.symm (basis.next k' sent' basis'.before lt found')

/-- What was elected was asked for. -/
theorem Elected.requested (h : c.Sound) (overlapping : c.electors.quorum.Overlapping policy)
    (elected : c.Elected policy p v) : c.Requested p v := by
  obtain ⟨accepters, -, met, accepted⟩ := elected
  have half := Quorum.lt_two_mul_need overlapping
  obtain ⟨a, mem⟩ := List.exists_mem_of_length_pos (l := accepters) (by omega)
  obtain ⟨b, responded⟩ := accepted a mem
  obtain ⟨sent, found, -, request⟩ := h.relevant b a _ responded
  exact ⟨sent, List.mem_of_getElem? found, request⟩

/-- Behind a later proposal stands a vote of somebody who had accepted the elected value
    before, so its value is that of an earlier request, not below the elected one. -/
theorem Sound.carried (h : c.Sound) (overlapping : c.electors.quorum.Overlapping policy)
    (elected : c.Elected policy p v) (later : p < p') {k : Nat} {sent : Broadcast}
    (found : c.broadcasts[k]? = some sent) (request : sent.request = .accept p' v') :
    ∃ j, j < k ∧ ∃ first q,
      c.broadcasts[j]? = some first ∧ first.request = .accept q v' ∧ p ≤ q := by
  obtain ⟨accepters, distinct, met, accepted⟩ := elected
  obtain ⟨b, votes, basis⟩ := h.basis k sent p' v' found request
  obtain ⟨policy', overlapping', met'⟩ := basis.quorum
  have sub : accepters ⊆ c.electors.names := fun a mem => h.elector (accepted a mem).choose_spec
  obtain ⟨a, inVotes, inAccepters⟩ := c.electors.exists_mem_both overlapping' overlapping
    basis.distinct distinct (basis.voters_subset h) sub (by rwa [List.length_map]) met
  obtain ⟨vote, voted, rfl⟩ := List.mem_map.1 inVotes
  obtain ⟨b', responded⟩ := accepted _ inAccepters
  obtain ⟨same, promised⟩ := basis.cast vote voted
  obtain ⟨q, w, reports, above⟩ := (h.memory vote.acceptor).reported b b' _ p v
    (mem_answers.2 promised) (mem_answers.2 responded) (same ▸ later)
  obtain ⟨best, voted', q', highest, top⟩ := chooseMaster_of_accepted basis.chosen voted
    (by rw [reports]; rfl)
  have most : q ≤ q' := top vote voted _ reports
  obtain ⟨j, below, first, foundFirst, request⟩ := basis.older best voted' q' v' highest
  exact ⟨j, below, first, q', foundFirst, request, by grind⟩

/-- No request under the elected proposal or a later one carries another value. -/
theorem Sound.value_of_elected (h : c.Sound) (overlapping : c.electors.quorum.Overlapping policy)
    (elected : c.Elected policy p v) (requested : c.Requested p' v') (later : p ≤ p') : v' = v := by
  obtain ⟨sent, mem, request⟩ := requested
  obtain ⟨k, found⟩ := List.mem_iff_getElem?.1 mem
  -- On the number of the request: its value comes from a request before it.
  induction k using Nat.strongRecOn generalizing sent p' with
  | _ k ih =>
    by_cases same : p' = p
    · subst same
      exact h.value_unique ⟨sent, mem, request⟩ (elected.requested h overlapping)
    · obtain ⟨j, below, first, q, foundFirst, request', above⟩ :=
        h.carried overlapping elected (by grind) found request
      exact ih j below above first (List.mem_of_getElem? foundFirst) request' foundFirst

/-- A winner was elected by a quorum of its election's policy. -/
theorem Sound.elected_of_won (h : c.Sound) {i : Nat} (won : c.Won i p v) :
    ∃ policy, c.electors.quorum.Overlapping policy ∧ c.Elected policy p v := by
  obtain ⟨call, counters, found, program⟩ := won
  have way := h.calls i call found
  obtain ⟨s, heeds, stage⟩ := way.stage
  rw [program] at heeds
  obtain ⟨replies, accepters, rfl, collected⟩ := heeds p v counters rfl
  have idle : call.waiting = none := by
    cases waiting : call.waiting with
    | none => rfl
    | some b =>
      obtain ⟨-, _, _, _, program', -⟩ := way.waits b waiting
      rw [program] at program'
      cases program'
  obtain ⟨b, sent, -, -, came⟩ := stage idle
  obtain ⟨met, _, rfl, order, made⟩ := accepters_of_collectAcceptances collected
  refine ⟨call.policy, way.overlapping, accepters, order.nodup came.1, Int.ofNat_le.1 met, ?_⟩
  intro a mem
  obtain ⟨reply, from_, rfl, answered⟩ := made a mem
  have genuine := came.2 reply from_
  rw [Genuine, answered] at genuine
  exact ⟨b, genuine⟩

end Agreement

/-- However elections, acceptors and messages interleave, requests for acceptance from an
    elected proposal on carry the elected value, and any two winners are the same. -/
theorem agreement (electors : Electors) (actions : List Action) :
    let c := (start electors).run actions
    (∀ policy p v p' v', electors.quorum.Overlapping policy → c.Elected policy p v →
      c.Requested p' v' → p ≤ p' → v' = v) ∧
    ∀ i j p p' v v', c.Won i p v → c.Won j p' v' → v = v' := by
  intro c
  have h : c.Sound := (Sound.start electors).run actions
  have same : c.electors = electors := run_electors _ _
  constructor
  · intro policy p v p' v' overlapping elected requested later
    exact h.value_of_elected (same ▸ overlapping) elected requested later
  · intro i j p p' v v' won won'
    obtain ⟨policy, overlapping, elected⟩ := h.elected_of_won won
    obtain ⟨policy', overlapping', elected'⟩ := h.elected_of_won won'
    rcases Std.le_total (a := p) (b := p') with le | le
    · exact (h.value_of_elected overlapping elected (elected'.requested h overlapping') le).symm
    · exact h.value_of_elected overlapping' elected' (elected.requested h overlapping) le

/-! ## Two elections in a row -/

/-- Three acceptors. -/
def trio : Electors :=
  { group := .empty, quorum := { groupSize := 3 }, names := [[1], [2], [3]] }

/-- The actions of an election that goes through at once: its voters, with the pairs that they
    hold, would rather have their own value, and accept the one that is elected. -/
def winningRound (i b : Nat) (p : Proposal) (v own : Token)
    (voters : List (Octets × Option (Proposal × Token))) : List Action :=
  let suggestion : Suggestion := { value := own, ranking := { vlsn := 1, priority := 1 } }
  let deal (b : Nat) : List Action :=
    voters.map fun voter => .handle b voter.1 fun _ => some suggestion
  let replies (response : Option (Proposal × Token) → Response) : Action :=
    .move i (.collect (voters.map fun voter =>
      { acceptor := voter.1, response := .ok (response voter.2) }))
  [.call .simpleMajority 1, .move i (.answer true), .move i (.answer false), .move i (.draw p),
      .move i .broadcast] ++
    deal b ++
    [replies fun held => .promise
        { proposal := p, acceptedProposal := held.map (·.1), acceptedValue := held.map (·.2),
          suggestion },
      .move i (.answer false), .move i (.answer false), .move i .broadcast] ++
    deal (b + 1) ++
    [replies fun _ => .accepted p v, .move i (.count 0)]

/-- The second election meets only one of those who voted in the first. -/
def succession : List Action :=
  winningRound 0 0 { time := 1, suffix := .empty } ⟨[65], by decide⟩ ⟨[65], by decide⟩
      [([1], none), ([2], none)] ++
    winningRound 1 2 { time := 2, suffix := .empty } ⟨[65], by decide⟩ ⟨[66], by decide⟩
      [([3], none), ([2], some ({ time := 1, suffix := .empty }, ⟨[65], by decide⟩))]

/-- The winner of the first election is the only one that the second one can have. -/
theorem agreement_succession :
    let c := (start trio).run succession
    let first : Proposal := { time := 1, suffix := .empty }
    let second : Proposal := { time := 2, suffix := .empty }
    let v : Token := ⟨[65], by decide⟩
    (trio.quorum.Overlapping .simpleMajority ∧ c.Elected .simpleMajority first v ∧
      c.Requested second v ∧ first ≤ second ∧ ∀ v', c.Requested second v' → v' = v) ∧
    c.Won 0 first v ∧ c.Won 1 second v ∧ ∀ p' v', c.Won 1 p' v' → v = v' := by
  intro c first second v
  have elected : c.Elected .simpleMajority first v := by
    refine ⟨[[1], [2]], by decide, by decide, ?_⟩
    simp only [List.forall_mem_cons]
    exact ⟨⟨1, by decide⟩, ⟨1, by decide⟩, by simp⟩
  have won : c.Won 0 first v := ⟨_, _, rfl, rfl⟩
  obtain ⟨settled, same⟩ := agreement trio succession
  refine ⟨⟨by decide, elected, ⟨_, List.mem_of_getElem? (i := 3) rfl, rfl⟩, by decide, ?_⟩, won,
    ⟨_, _, rfl, rfl⟩, ?_⟩
  · exact fun v' requested =>
      settled .simpleMajority first v second v' (by decide) elected requested
      (by decide)
  · exact fun p' v' won' => same 0 1 first p' v v' won won'

end Contest

end Replication.Election
