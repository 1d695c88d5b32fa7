import Mathlib.Data.List.Induction
import Mathlib.Data.Prod.Lex
import Replication.Proofs.Election.Phases

/-! # Which value is chosen

An accepted value is carried forward, the one under the highest proposal; if there is none, the
earliest of the best suggestions wins.  The order of the votes matters only among equals, so it
does not matter at all if equals call for the same value.
-/

namespace Replication.Election

/-! ## Rankings -/

namespace Ranking

variable {a b c : Ranking}

theorem lt_iff_lex : a < b ↔
    toLex (a.vlsn.toInt, a.priority.toInt) < toLex (b.vlsn.toInt, b.priority.toInt) := by
  rw [Prod.Lex.toLex_lt_toLex, ← Int64.lt_iff_toInt_lt, Int64.toInt_inj, ← Int32.lt_iff_toInt_lt]
  exact Iff.rfl

theorem lt_trans (h : a < b) (h' : b < c) : a < c :=
  lt_iff_lex.2 ((lt_iff_lex.1 h).trans (lt_iff_lex.1 h'))

theorem lt_of_not_lt_of_lt (h : ¬ b < a) (h' : b < c) : a < c := by
  rw [lt_iff_lex, not_lt] at h
  exact lt_iff_lex.2 (h.trans_lt (lt_iff_lex.1 h'))

/-- Rankings of which neither is above the other are the same. -/
theorem eq_of_not_lt (h : ¬ a < b) (h' : ¬ b < a) : a = b := by
  rw [lt_iff_lex, not_lt] at h h'
  obtain ⟨vlsn, priority⟩ := Prod.mk.inj (toLex.injective (le_antisymm h' h))
  cases a
  cases b
  cases Int64.toInt_inj.1 vlsn
  cases Int32.toInt_inj.1 priority
  rfl

end Ranking

/-! ## Votes that decide -/

/-- Whether a vote reports both an accepted proposal and its value. -/
def Vote.Reports (vote : Vote) (p : Proposal) (v : Token) : Prop :=
  vote.promise.acceptedProposal = some p ∧ vote.promise.acceptedValue = some v

/-- Whether a vote suggests a value that may be elected. -/
def Vote.Electable (vote : Vote) : Prop :=
  vote.promise.suggestion.Eligible

instance (vote : Vote) : Decidable vote.Electable :=
  inferInstanceAs (Decidable vote.promise.suggestion.Eligible)

/-- How attractive the suggestion of a vote is. -/
def Vote.ranking (vote : Vote) : Ranking :=
  vote.promise.suggestion.ranking

/-- Whether a vote reports an accepted pair, and none of the votes a higher one. -/
structure Vote.Highest (votes : List Vote) (vote : Vote) (p : Proposal) (v : Token) : Prop where
  mem : vote ∈ votes
  reports : vote.Reports p v
  top : ∀ other ∈ votes, ∀ p' v', other.Reports p' v' → p' ≤ p

/-- Whether a vote is the earliest of those whose suggestion is ranked best. -/
structure Vote.Foremost (votes : List Vote) (vote : Vote) : Prop where
  electable : vote.Electable
  split : ∃ before after, votes = before ++ vote :: after ∧
    (∀ other ∈ before, other.Electable → other.ranking < vote.ranking) ∧
    ∀ other ∈ after, other.Electable → ¬ vote.ranking < other.ranking

/-- Whether votes that are equal in what decides between them call for equal values. -/
structure Unequivocal (votes : List Vote) : Prop where
  accepted : ∀ vote ∈ votes, ∀ other ∈ votes, ∀ p v v',
    vote.Reports p v → other.Reports p v' → v = v'
  suggested : ∀ vote ∈ votes, ∀ other ∈ votes, vote.Electable → other.Electable →
    vote.ranking = other.ranking → vote.promise.suggestion.value = other.promise.suggestion.value

section Votes

variable {votes votes' : List Vote} {vote : Vote} {p : Proposal} {v : Token}

theorem Vote.reports_iff : vote.Reports p v ↔ vote.promise.acceptedPair = some (p, v) := by
  rw [Vote.Reports, Promise.acceptedPair]
  split
  next p' v' proposal value => simp [proposal, value]
  next other => exact iff_of_false (fun ⟨proposal, value⟩ => other p v proposal value) nofun

theorem Vote.Foremost.mem (h : vote.Foremost votes) : vote ∈ votes := by
  obtain ⟨before, after, rfl, -, -⟩ := h.split
  exact List.mem_append_right before List.mem_cons_self

/-- No suggestion is ranked above the foremost one. -/
theorem Vote.Foremost.top (h : vote.Foremost votes) :
    ∀ other ∈ votes, other.Electable → ¬ vote.ranking < other.ranking := by
  obtain ⟨before, after, rfl, above, notBelow⟩ := h.split
  have self : ¬ vote.ranking < vote.ranking := by
    rw [Ranking.lt_iff_lex]
    exact lt_irrefl _
  intro other mem electable
  rcases List.mem_append.1 mem with mem | mem
  · exact fun below => self (Ranking.lt_trans below (above other mem electable))
  · rcases List.mem_cons.1 mem with rfl | mem
    · exact self
    · exact notBelow other mem electable

/-- One more vote is foremost if its suggestion is ranked above all that may be elected. -/
theorem Vote.Foremost.concat {new : Vote} (electable : new.Electable)
    (above : ∀ other ∈ votes, other.Electable → other.ranking < new.ranking) :
    new.Foremost (votes ++ [new]) where
  electable
  split := ⟨votes, [], rfl, above, fun _ mem => absurd mem List.not_mem_nil⟩

/-- Otherwise the foremost vote stays. -/
theorem Vote.Foremost.stays {new : Vote} (h : vote.Foremost votes)
    (notAbove : new.Electable → ¬ vote.ranking < new.ranking) : vote.Foremost (votes ++ [new]) := by
  obtain ⟨before, after, rfl, above, notBelow⟩ := h.split
  refine ⟨h.electable, before, after ++ [new], by rw [List.append_assoc]; rfl, above, ?_⟩
  rw [List.forall_mem_append, List.forall_mem_singleton]
  exact ⟨notBelow, notAbove⟩

/-! ## The suggestion that wins -/

/-- The suggestions that may be elected, in the order of the votes. -/
def electables (votes : List Vote) : List Suggestion :=
  (votes.map (·.promise.suggestion)).filter (·.Eligible)

theorem bestSuggestion_concat (suggestions : List Suggestion) (s : Suggestion) :
    bestSuggestion (suggestions ++ [s]) =
      match bestSuggestion suggestions with
      | none => some s
      | some b => if b.ranking < s.ranking then some s else some b := by
  rw [bestSuggestion, List.foldl_append]
  rfl

theorem electables_concat (votes : List Vote) (new : Vote) :
    electables (votes ++ [new]) =
      if new.Electable then electables votes ++ [new.promise.suggestion] else electables votes := by
  rw [electables, List.map_append, List.filter_append]
  split
  next electable =>
    exact congrArg _ (List.filter_cons_of_pos (decide_eq_true electable))
  next electable =>
    have dropped : [new.promise.suggestion].filter (·.Eligible) = [] :=
      List.filter_cons_of_neg (mt of_decide_eq_true electable)
    rw [List.map_singleton, dropped, List.append_nil, electables]

theorem bestSuggestion_electables (votes : List Vote) :
    match bestSuggestion (electables votes) with
    | some s => ∃ vote : Vote, vote.Foremost votes ∧ vote.promise.suggestion = s
    | none => ∀ vote ∈ votes, ¬ vote.Electable := by
  -- On the votes, the last one first: it is foremost, or nothing changes.
  induction votes using List.reverseRecOn with
  | nil => exact fun _ mem => absurd mem List.not_mem_nil
  | append_singleton votes new ih =>
    by_cases electable : new.Electable
    · rw [electables_concat, if_pos electable, bestSuggestion_concat]
      cases best : bestSuggestion (electables votes) with
      | none =>
        rw [best] at ih
        exact ⟨new, .concat electable fun other mem may => absurd may (ih other mem), rfl⟩
      | some s =>
        rw [best] at ih
        obtain ⟨vote, foremost, rfl⟩ := ih
        dsimp only
        by_cases above : vote.promise.suggestion.ranking < new.promise.suggestion.ranking
        · have first : new.Foremost (votes ++ [new]) := .concat electable fun other mem may =>
            Ranking.lt_of_not_lt_of_lt (foremost.top other mem may) above
          rw [if_pos above]
          exact ⟨new, first, rfl⟩
        · rw [if_neg above]
          exact ⟨vote, foremost.stays fun _ => above, rfl⟩
    · rw [electables_concat, if_neg electable]
      split
      next s best =>
        rw [best] at ih
        obtain ⟨vote, foremost, same⟩ := ih
        exact ⟨vote, foremost.stays fun may => absurd may electable, same⟩
      next best =>
        rw [best] at ih
        rw [List.forall_mem_append, List.forall_mem_singleton]
        exact ⟨ih, electable⟩

/-! ## The choice -/

/-- What is chosen is the value of the highest pair that is reported, or else that of the
    foremost vote, if there is one. -/
theorem chooseMaster_cases (votes : List Vote) :
    (∃ (vote : Vote) (p : Proposal) (v : Token),
      vote.Highest votes p v ∧ chooseMaster votes = some v) ∨
    (∀ vote ∈ votes, ∀ p v, ¬ vote.Reports p v) ∧
      ((∃ vote : Vote, vote.Foremost votes ∧
          chooseMaster votes = some vote.promise.suggestion.value) ∨
        (∀ vote ∈ votes, ¬ vote.Electable) ∧ chooseMaster votes = none) := by
  have best := bestSuggestion_electables votes
  rw [chooseMaster]
  split
  next p v highest =>
    obtain ⟨among, above⟩ := highestAccepted_spec highest
    obtain ⟨vote, mem, reports⟩ := List.mem_filterMap.1 among
    refine .inl ⟨vote, p, v, ⟨mem, Vote.reports_iff.2 reports, fun other hother p' v' h => ?_⟩, rfl⟩
    exact above (p', v') (List.mem_filterMap.2 ⟨other, hother, Vote.reports_iff.1 h⟩)
  -- No pair is reported, so the choice is among the suggestions.
  next nothing =>
    refine .inr ⟨fun vote mem p v reports => ?_, ?_⟩
    · have listed : (p, v) ∈ votes.filterMap (·.promise.acceptedPair) :=
        List.mem_filterMap.2 ⟨vote, mem, Vote.reports_iff.1 reports⟩
      rw [highestAccepted_eq_none nothing] at listed
      exact absurd listed List.not_mem_nil
    · rw [← electables]
      split at best
      next s found =>
        obtain ⟨vote, foremost, rfl⟩ := best
        exact .inl ⟨vote, foremost, by rw [found, Option.map_some]⟩
      next none =>
        exact .inr ⟨best, by rw [none, Option.map_none]⟩

/-- Two highest votes report the same pair, if the same proposals were accepted with the same
    values. -/
theorem Vote.Highest.value_eq {other : Vote} {p' : Proposal} {v' : Token}
    (agree : Unequivocal votes) (perm : votes.Perm votes') (h : vote.Highest votes p v)
    (h' : other.Highest votes' p' v') : v = v' := by
  have mem : other ∈ votes := perm.mem_iff.2 h'.mem
  have le := h'.top vote (perm.mem_iff.1 h.mem) p v h.reports
  have ge := h.top other mem p' v' h'.reports
  obtain rfl : p = p' := Std.le_antisymm le ge
  exact agree.accepted vote h.mem other mem p v v' h.reports h'.reports

/-- Two foremost votes suggest the same value, if the same rankings come with the same values. -/
theorem Vote.Foremost.value_eq {other : Vote} (agree : Unequivocal votes)
    (perm : votes.Perm votes') (h : vote.Foremost votes) (h' : other.Foremost votes') :
    vote.promise.suggestion.value = other.promise.suggestion.value := by
  have mem : other ∈ votes := perm.mem_iff.2 h'.mem
  have notAbove := h.top other mem h'.electable
  have notBelow := h'.top vote (perm.mem_iff.1 h.mem) h.electable
  exact agree.suggested vote h.mem other mem h.electable h'.electable
    (Ranking.eq_of_not_lt notAbove notBelow)

/-- The order of the votes does not matter if equals call for the same value. -/
theorem chooseMaster_eq_of_perm (agree : Unequivocal votes) (perm : votes.Perm votes') :
    chooseMaster votes = chooseMaster votes' := by
  rcases chooseMaster_cases votes with ⟨vote, p, v, highest, same⟩ |
    ⟨unreported, ⟨vote, foremost, same⟩ | ⟨unsuggested, same⟩⟩ <;>
  rcases chooseMaster_cases votes' with ⟨vote', p', v', highest', same'⟩ |
    ⟨unreported', ⟨vote', foremost', same'⟩ | ⟨unsuggested', same'⟩⟩
  · rw [same, same', highest.value_eq agree perm highest']
  · exact absurd highest.reports (unreported' vote (perm.mem_iff.1 highest.mem) p v)
  · exact absurd highest.reports (unreported' vote (perm.mem_iff.1 highest.mem) p v)
  · exact absurd highest'.reports (unreported vote' (perm.mem_iff.2 highest'.mem) p' v')
  · rw [same, same', foremost.value_eq agree perm foremost']
  · exact absurd foremost.electable (unsuggested' vote (perm.mem_iff.1 foremost.mem))
  · exact absurd highest'.reports (unreported vote' (perm.mem_iff.2 highest'.mem) p' v')
  · exact absurd foremost'.electable (unsuggested vote' (perm.mem_iff.2 foremost'.mem))
  · rw [same, same']

/-! ## The specification -/

/-- The value comes from the highest pair that is reported, else from the foremost suggestion,
    and there is none just if there is neither; and the order of the votes matters only if
    equals call for different values. -/
theorem chooseMaster_spec :
    (∀ votes : List Vote, (∃ vote ∈ votes, ∃ p v, vote.Reports p v) →
      ∃ (vote : Vote) (p : Proposal) (v : Token),
        vote.Highest votes p v ∧ chooseMaster votes = some v) ∧
    (∀ votes : List Vote, (∀ vote ∈ votes, ∀ p v, ¬ vote.Reports p v) →
      (∃ vote ∈ votes, vote.Electable) →
      ∃ vote : Vote, vote.Foremost votes ∧
        chooseMaster votes = some vote.promise.suggestion.value) ∧
    (∀ votes : List Vote, chooseMaster votes = none ↔
      (∀ vote ∈ votes, ∀ p v, ¬ vote.Reports p v) ∧ ∀ vote ∈ votes, ¬ vote.Electable) ∧
    ∀ votes votes' : List Vote, votes.Perm votes' → Unequivocal votes →
      chooseMaster votes = chooseMaster votes' := by
  refine ⟨fun votes => ?_, fun votes => ?_, fun votes => ?_,
    fun _ _ perm agree => chooseMaster_eq_of_perm agree perm⟩ <;>
  rcases chooseMaster_cases votes with ⟨vote, p, v, highest, same⟩ |
    ⟨unreported, ⟨vote, foremost, same⟩ | ⟨unsuggested, same⟩⟩
  -- Some vote reports a pair.
  · exact fun _ => ⟨vote, p, v, highest, same⟩
  · exact fun ⟨other, mem, p, v, reports⟩ => absurd reports (unreported other mem p v)
  · exact fun ⟨other, mem, p, v, reports⟩ => absurd reports (unreported other mem p v)
  -- None does, but some suggestion may be elected.
  · exact fun unreported => absurd highest.reports (unreported vote highest.mem p v)
  · exact fun _ _ => ⟨vote, foremost, same⟩
  · exact fun _ ⟨other, mem, electable⟩ => absurd electable (unsuggested other mem)
  -- Nothing is chosen just if neither is the case.
  · exact iff_of_false (by rw [same]; nofun) fun ⟨unreported, _⟩ =>
      unreported vote highest.mem p v highest.reports
  · exact iff_of_false (by rw [same]; nofun) fun ⟨_, unsuggested⟩ =>
      unsuggested vote foremost.mem foremost.electable
  · exact iff_of_true same ⟨unreported, unsuggested⟩

end Votes

/-! ## Three votes in either order -/

namespace Rivals

/-- A vote that reports this pair and suggests this value, with the given ranking. -/
def vote (name : Octets) (held : Option (Proposal × Token)) (value : Octets)
    (ranking : Ranking) : Vote where
  acceptor := name
  promise :=
    { proposal := { time := 9, suffix := .empty }
      acceptedProposal := held.map (·.1)
      acceptedValue := held.map (·.2)
      suggestion := { value := .blanked value, ranking } }

/-- Suggestions of which two are ranked best, and both are of the same value. -/
def suggestions : List Vote :=
  [vote [1] none [65] { vlsn := 7, priority := 2 }, vote [2] none [66] { vlsn := 8, priority := 0 },
    vote [3] none [65] { vlsn := 7, priority := 2 }]

/-- The same, and one of the voters has accepted a value before. -/
def carried : List Vote :=
  vote [4] (some ({ time := 1, suffix := .empty }, .blanked [67])) [] { vlsn := 0, priority := 0 } ::
    suggestions

/-- Each of the cases occurs, and the suggestions elect the same the other way round. -/
theorem chooseMaster_spec_rivals :
    (∃ (vote : Vote) (p : Proposal) (v : Token),
      vote.Highest carried p v ∧ chooseMaster carried = some v) ∧
    (∃ vote : Vote, vote.Foremost suggestions ∧
      chooseMaster suggestions = some vote.promise.suggestion.value) ∧
    chooseMaster suggestions = chooseMaster suggestions.reverse := by
  obtain ⟨reported, suggested, -, permuted⟩ := chooseMaster_spec
  have unreported : ∀ vote ∈ suggestions, ∀ p v, ¬ vote.Reports p v := by
    have none : ∀ vote ∈ suggestions, vote.promise.acceptedProposal = none := by decide
    intro vote mem p v reports
    cases (none vote mem).symm.trans reports.1
  refine ⟨reported carried ?_, suggested suggestions unreported ?_,
    permuted suggestions suggestions.reverse (List.reverse_perm _).symm ?_⟩
  · exact ⟨_, List.mem_cons_self, _, _, rfl, rfl⟩
  · exact ⟨_, List.mem_cons_self, by decide⟩
  · exact {
      accepted := fun vote mem _ _ p v _ reports => absurd reports (unreported vote mem p v)
      suggested := by decide }

end Rivals

end Replication.Election
