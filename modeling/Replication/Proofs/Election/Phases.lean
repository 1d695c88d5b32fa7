import Replication.Election.Choice
import Replication.Election.Phase

/-! # What the phases find

Votes and acceptances come from replies, each acceptor's from its own, and the value to
propose is the one under the highest proposal that any vote reports as accepted.
-/

namespace Replication.Election

/-! ## Collecting -/

/-- A response counts as a vote only if it promises just this proposal. -/
theorem Response.vote?_eq_some {r : Response} {acceptor : Octets} {p : Proposal} {vote : Vote}
    (h : r.vote? acceptor p = some vote) :
    r = .promise vote.promise ∧ vote.acceptor = acceptor ∧ vote.promise.proposal = p := by
  cases r with
  | promise m =>
    simp only [Response.vote?] at h
    split at h
    · next same =>
      cases h
      exact ⟨rfl, rfl, same⟩
    · cases h
  | accepted _ _ | reject _ | protocolError _ => cases h

/-- A response that accepts a proposal and value says just that. -/
theorem Response.eq_accepted {r : Response} {p : Proposal} {v : Token} (h : r.accepts p v = true) :
    r = .accepted p v := by
  cases r with
  | accepted p' v' =>
    simp only [Response.accepts, Bool.and_eq_true, decide_eq_true_eq] at h
    rw [h.1, h.2]
  | promise _ | reject _ | protocolError _ => cases h

theorem PhaseEnd.map_eq_complete {α β : Type} {f : α → β} {e : PhaseEnd α} {b : β}
    (h : e.map f = .complete b) : ∃ a, e = .complete a ∧ f a = b := by
  cases e with
  | complete a => exact ⟨a, rfl, PhaseEnd.complete.inj h⟩
  | abandoned | higher => cases h

/-- The voters answered in their order, and every vote is a promise that its acceptor
    made. -/
theorem votes_of_collectPromises {p : Proposal} {replies : List Reply} {votes : List Vote}
    (h : collectPromises p replies = .complete votes) :
    (votes.map (·.acceptor)).Sublist (replies.map (·.acceptor)) ∧
      ∀ vote ∈ votes, vote.promise.proposal = p ∧
        ∃ reply ∈ replies, reply.acceptor = vote.acceptor ∧
          reply.response = .ok (.promise vote.promise) := by
  induction replies generalizing votes with
  | nil =>
    cases h
    exact ⟨.slnil, fun _ mem => absurd mem List.not_mem_nil⟩
  | cons reply replies ih =>
    -- A reply that casts no vote leaves the votes to the replies behind it.
    have later {votes : List Vote} (h : collectPromises p replies = .complete votes) :
        (votes.map (·.acceptor)).Sublist ((reply :: replies).map (·.acceptor)) ∧
          ∀ vote ∈ votes, vote.promise.proposal = p ∧
            ∃ r ∈ reply :: replies, r.acceptor = vote.acceptor ∧
              r.response = .ok (.promise vote.promise) := by
      obtain ⟨sub, made⟩ := ih h
      refine ⟨sub.cons _, fun vote mem => ?_⟩
      obtain ⟨same, r, hr, made⟩ := made vote mem
      exact ⟨same, r, List.mem_cons_of_mem _ hr, made⟩
    unfold collectPromises at h
    split at h
    · cases h
    split at h
    · exact later h
    · cases h
    next response _ answered =>
      split at h
      next vote cast =>
        obtain ⟨rest, hrest, rfl⟩ := PhaseEnd.map_eq_complete h
        obtain ⟨rfl, name, same⟩ := Response.vote?_eq_some cast
        obtain ⟨sub, made⟩ := later hrest
        refine ⟨?_, fun v mem => ?_⟩
        · rw [List.map_cons, List.map_cons, name]
          exact (ih hrest).1.cons_cons _
        · rcases List.mem_cons.1 mem with rfl | mem
          · exact ⟨same, reply, List.mem_cons_self, name.symm, answered⟩
          · exact made v mem
      next => exact later h

/-- The accepters answered in their order, they are enough, and each of them accepted just
    this proposal and value. -/
theorem accepters_of_collectAcceptances {q : Quorum} {policy : QuorumPolicy} {p : Proposal}
    {v : Token} {before accepters : List Octets} {replies : List Reply}
    (h : collectAcceptances q policy p v before replies = .complete { accepters, won := true }) :
    q.Met policy accepters.length ∧ ∃ more, accepters = before ++ more ∧
      more.Sublist (replies.map (·.acceptor)) ∧
        ∀ a ∈ more, ∃ reply ∈ replies,
          reply.acceptor = a ∧ reply.response = .ok (.accepted p v) := by
  induction replies generalizing before with
  | nil => cases h
  | cons reply replies ih =>
    -- What the replies behind the first one bring.
    have later {before : List Octets}
        (h : collectAcceptances q policy p v before replies =
          .complete { accepters, won := true }) :
        q.Met policy accepters.length ∧ ∃ more, accepters = before ++ more ∧
          more.Sublist (replies.map (·.acceptor)) ∧
            ∀ a ∈ more, ∃ r ∈ reply :: replies,
              r.acceptor = a ∧ r.response = .ok (.accepted p v) := by
      obtain ⟨met, more, split, sub, made⟩ := ih h
      refine ⟨met, more, split, sub, fun a mem => ?_⟩
      obtain ⟨r, hr, made⟩ := made a mem
      exact ⟨r, List.mem_cons_of_mem _ hr, made⟩
    have passed
        (h : collectAcceptances q policy p v before replies =
          .complete { accepters, won := true }) :
        q.Met policy accepters.length ∧ ∃ more, accepters = before ++ more ∧
          more.Sublist ((reply :: replies).map (·.acceptor)) ∧
            ∀ a ∈ more, ∃ r ∈ reply :: replies,
              r.acceptor = a ∧ r.response = .ok (.accepted p v) := by
      obtain ⟨met, more, split, sub, made⟩ := later h
      exact ⟨met, more, split, sub.cons _, made⟩
    unfold collectAcceptances at h
    split at h
    · cases h
    split at h
    · exact passed h
    · cases h
    next response _ answered =>
      split at h
      next accepts =>
        have first : reply.response = .ok (.accepted p v) := by
          rw [answered, Response.eq_accepted accepts]
        simp only at h
        split at h
        next met =>
          cases h
          refine ⟨met, [reply.acceptor], rfl, ?_, fun a mem => ?_⟩
          · exact List.singleton_sublist.2 List.mem_cons_self
          · exact ⟨reply, List.mem_cons_self, (List.mem_singleton.1 mem).symm, first⟩
        next =>
          obtain ⟨met, more, split, sub, made⟩ := later h
          refine ⟨met, reply.acceptor :: more, by rw [split, List.append_assoc]; rfl,
            sub.cons_cons _, fun a mem => ?_⟩
          rcases List.mem_cons.1 mem with rfl | mem
          · exact ⟨reply, List.mem_cons_self, rfl, first⟩
          · exact made a mem
      next => exact passed h

/-! ## Choosing -/

/-- The pair that is found has the highest proposal. -/
theorem highestAccepted_spec {pairs : List (Proposal × Token)} {best : Proposal × Token}
    (h : highestAccepted pairs = some best) : best ∈ pairs ∧ ∀ pair ∈ pairs, pair.1 ≤ best.1 := by
  -- The fold is taken from any start, with what it does to the best pair in two equations.
  suffices found : ∀ (pick : Option (Proposal × Token) → Proposal × Token →
        Option (Proposal × Token)), (∀ pair, pick none pair = some pair) →
      (∀ b pair, pick (some b) pair = if pair.1 > b.1 then some pair else some b) →
      ∀ (pairs : List (Proposal × Token)) (first : Option (Proposal × Token)),
        pairs.foldl pick first = some best →
        (best ∈ pairs ∨ first = some best) ∧ (∀ pair ∈ pairs, pair.1 ≤ best.1) ∧
          ∀ b, first = some b → b.1 ≤ best.1 by
    obtain ⟨mem, above, -⟩ := found _ (fun _ => rfl) (fun _ _ => rfl) pairs none h
    exact ⟨mem.resolve_right (by simp), above⟩
  intro pick fresh held pairs
  induction pairs with
  | nil =>
    intro first h
    rw [List.foldl_nil] at h
    subst h
    exact ⟨.inr rfl, fun _ mem => absurd mem List.not_mem_nil, by grind⟩
  | cons pair pairs ih =>
    intro first h
    rw [List.foldl_cons] at h
    obtain ⟨mem, above, started⟩ := ih _ h
    cases first with
    | none =>
      rw [fresh] at mem started
      grind
    | some b =>
      rw [held] at mem started
      grind

/-- Something is found if there is a pair at all. -/
theorem highestAccepted_eq_none {pairs : List (Proposal × Token)}
    (h : highestAccepted pairs = none) : pairs = [] := by
  suffices kept : ∀ (pick : Option (Proposal × Token) → Proposal × Token →
        Option (Proposal × Token)),
      (∀ b pair, pick (some b) pair = if pair.1 > b.1 then some pair else some b) →
      ∀ (pairs : List (Proposal × Token)) (b : Proposal × Token),
        pairs.foldl pick (some b) ≠ none by
    cases pairs with
    | nil => rfl
    | cons pair pairs => exact absurd h (kept _ (fun _ _ => rfl) pairs pair)
  intro pick held pairs
  induction pairs with
  | nil => simp
  | cons pair pairs ih =>
    intro b
    rw [List.foldl_cons, held]
    split
    · exact ih _
    · exact ih _

/-- If any vote reports an accepted pair, the value comes from the highest of them. -/
theorem chooseMaster_of_accepted {votes : List Vote} {v : Token} {vote : Vote}
    (h : chooseMaster votes = some v) (mem : vote ∈ votes)
    (reports : vote.promise.acceptedPair.isSome) :
    ∃ best ∈ votes, ∃ p, best.promise.acceptedPair = some (p, v) ∧
      ∀ other ∈ votes, ∀ pair, other.promise.acceptedPair = some pair → pair.1 ≤ p := by
  obtain ⟨pair, hpair⟩ := Option.isSome_iff_exists.1 reports
  have listed : pair ∈ votes.filterMap (·.promise.acceptedPair) :=
    List.mem_filterMap.2 ⟨vote, mem, hpair⟩
  unfold chooseMaster at h
  split at h
  next p v' highest =>
    cases h
    obtain ⟨among, above⟩ := highestAccepted_spec highest
    obtain ⟨best, hbest, same⟩ := List.mem_filterMap.1 among
    refine ⟨best, hbest, p, same, fun other hother pair hpair => ?_⟩
    exact above pair (List.mem_filterMap.2 ⟨other, hother, hpair⟩)
  next nothing =>
    rw [highestAccepted_eq_none nothing] at listed
    exact absurd listed List.not_mem_nil

end Replication.Election
