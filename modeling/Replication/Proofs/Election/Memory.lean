import Replication.Proofs.Election.Phases
import Replication.Election.Contest

/-! # What an acceptor remembers

An acceptor that knows only its last promise and its last acceptance still bears witness to
all its answers: `Acceptor.Remembers` relates its state to them.  In particular it promises
a proposal at most once, and a promise reports the highest proposal accepted below it.
-/

namespace Replication.Election

/-! ## Answers -/

/-- What dealing with a request can come to. -/
inductive Acceptor.Dealt (a : Acceptor) : Request → Option Response → Acceptor → Prop where
  | promised {p : Proposal} (s : Suggestion) (above : ∀ top, a.promised = some top → top < p) :
    Dealt a (.propose p)
      (some (.promise
        { proposal := p, acceptedProposal := a.accepted.map (·.1),
          acceptedValue := a.accepted.map (·.2), suggestion := s }))
      { a with promised := some p }
  /-- The suggestion failed, but the promise stands. -/
  | silent {p : Proposal} (above : ∀ top, a.promised = some top → top < p) :
    Dealt a (.propose p) none { a with promised := some p }
  | accepted {p : Proposal} {v : Token} (notBelow : ∀ top, a.promised = some top → top ≤ p) :
    Dealt a (.accept p v) (some (.accepted p v))
      { a with promised := some p, accepted := some (p, v) }
  | unpromised {p top : Proposal} (bound : a.promised = some top) (notAbove : p ≤ top) :
    Dealt a (.propose p) (some (.reject top)) a
  | unaccepted {p top : Proposal} {v : Token} (bound : a.promised = some top) (below : p < top) :
    Dealt a (.accept p v) (some (.reject top)) a

/-- An acceptor does one of these. -/
theorem Acceptor.process_dealt (suggest : Suggest) (request : Request) (a : Acceptor) :
    match Acceptor.process suggest request a with
    | .ok response a' => a.Dealt request (some response) a'
    | .error _ a' => a.Dealt request none a' := by
  cases request with
  | propose p =>
    simp only [process, propose]
    cases bound : a.promised.filter (p ≤ ·) with
    | some top =>
      obtain ⟨promised, notAbove⟩ := Option.filter_eq_some_iff.1 bound
      exact .unpromised promised (by simpa using notAbove)
    | none =>
      have above : ∀ top, a.promised = some top → top < p := by
        intro top h
        rw [h] at bound
        grind
      -- The promise is made by now, so it stands even if there is nothing to suggest.
      cases suggest p with
      | none => exact .silent above
      | some s => exact .promised s above
  | accept p v =>
    simp only [process, accept]
    cases bound : a.promised.filter (p < ·) with
    | some top =>
      obtain ⟨promised, below⟩ := Option.filter_eq_some_iff.1 bound
      exact .unaccepted promised (by simpa using below)
    | none =>
      have notBelow : ∀ top, a.promised = some top → top ≤ p := by
        intro top h
        rw [h] at bound
        grind
      exact .accepted notBelow

/-! ## Memory -/

/-- What the state of an acceptor says about its answers, each of which has the number of
    the broadcast that it belongs to. -/
structure Acceptor.Remembers (a : Acceptor) (answers : List (Nat × Response)) : Prop where
  promised : ∀ b m, (b, .promise m) ∈ answers → ∃ top, a.promised = some top ∧ m.proposal ≤ top
  accepted : ∀ b p v, (b, .accepted p v) ∈ answers →
    ∃ p' v', a.accepted = some (p', v') ∧ p ≤ p'
  held : ∀ p v, a.accepted = some (p, v) →
    (∃ b, (b, .accepted p v) ∈ answers) ∧ ∃ top, a.promised = some top ∧ p ≤ top
  /-- No proposal is promised twice. -/
  once : ∀ b b' m m', (b, .promise m) ∈ answers → (b', .promise m') ∈ answers →
    m.proposal = m'.proposal → b = b'
  /-- A promise reports no less than what was accepted below it, also when the acceptance
      is the older one. -/
  reported : ∀ b b' m p v, (b, .promise m) ∈ answers → (b', .accepted p v) ∈ answers →
    p < m.proposal → ∃ p' v', m.acceptedPair = some (p', v') ∧ p ≤ p'
  /-- A promise reports nothing that was not accepted below it. -/
  report : ∀ b m p v, (b, .promise m) ∈ answers → m.acceptedPair = some (p, v) →
    p < m.proposal ∧ ∃ b', (b', .accepted p v) ∈ answers

namespace Acceptor.Remembers

variable {a a' : Acceptor} {answers : List (Nat × Response)}

/-- An acceptor that was never asked has nothing to remember. -/
theorem fresh (group : Token) : Remembers { group } [] where
  promised _ _ h := absurd h List.not_mem_nil
  accepted _ _ _ h := absurd h List.not_mem_nil
  held _ _ h := nomatch h
  once _ _ _ _ h := absurd h List.not_mem_nil
  reported _ _ _ _ _ h := absurd h List.not_mem_nil
  report _ _ _ _ h := absurd h List.not_mem_nil

/-- The pair that a promise reports is the one that its acceptor holds. -/
theorem acceptedPair_eq (p : Proposal) (held : Option (Proposal × Token)) (s : Suggestion) :
    Promise.acceptedPair
      { proposal := p, acceptedProposal := held.map (·.1), acceptedValue := held.map (·.2),
        suggestion := s } = held := by
  cases held with
  | none => rfl
  | some pair => rfl

/-- A promise without an answer binds the acceptor to a higher proposal, and that is all. -/
theorem bind {p : Proposal} (h : a.Remembers answers)
    (above : ∀ top, a.promised = some top → top < p) :
    Remembers { a with promised := some p } answers where
  promised b m mem := by
    obtain ⟨top, bound, le⟩ := h.promised b m mem
    have lt := above top bound
    exact ⟨p, rfl, by grind⟩
  accepted := h.accepted
  held p' v accepted := by
    obtain ⟨answered, top, bound, le⟩ := h.held p' v accepted
    have lt := above top bound
    exact ⟨answered, p, rfl, by grind⟩
  once := h.once
  reported := h.reported
  report := h.report

/-- An answer that neither promises nor accepts needs no memory. -/
theorem rejection (h : a.Remembers answers) (b : Nat) (higher : Proposal) :
    a.Remembers (answers ++ [(b, .reject higher)]) := by
  constructor <;> simp only [List.mem_append, List.mem_singleton, Prod.mk.injEq, reduceCtorEq,
    and_false, or_false]
  · exact h.promised
  · exact h.accepted
  · exact h.held
  · exact h.once
  · exact h.reported
  · exact h.report

/-- A promise is above all earlier ones, and reports what was accepted before it. -/
theorem promise {p : Proposal} (h : a.Remembers answers) (b : Nat) (s : Suggestion)
    (above : ∀ top, a.promised = some top → top < p) :
    Remembers { a with promised := some p }
      (answers ++ [(b, .promise
        { proposal := p, acceptedProposal := a.accepted.map (·.1),
          acceptedValue := a.accepted.map (·.2), suggestion := s })]) := by
  have bound := h.bind above
  -- The proposal is above every one promised so far, so no two promises are to the same.
  have earlier : ∀ b m, (b, .promise m) ∈ answers → m.proposal < p := by
    intro b m mem
    obtain ⟨top, bound, le⟩ := h.promised b m mem
    have lt := above top bound
    grind
  have pair := acceptedPair_eq p a.accepted s
  constructor <;> simp only [List.mem_append, List.mem_singleton, Prod.mk.injEq, reduceCtorEq,
    and_false, or_false, Response.promise.injEq]
  case promised =>
    rintro b m (mem | ⟨-, rfl⟩)
    · exact bound.promised b m mem
    · exact ⟨p, rfl, by grind⟩
  case accepted => exact bound.accepted
  case held => exact bound.held
  case once =>
    rintro b b' m m' (mem | ⟨rfl, rfl⟩) (mem' | ⟨rfl, rfl⟩) same
    · exact h.once b b' m m' mem mem' same
    · have lt := earlier b m mem
      grind
    · have lt := earlier b' m' mem'
      grind
    · rfl
  case reported =>
    rintro b b' m p' v (mem | ⟨-, rfl⟩) mem' lt
    · exact h.reported b b' m p' v mem mem' lt
    · rw [pair]
      exact h.accepted b' p' v mem'
  case report =>
    rintro b m p' v (mem | ⟨-, rfl⟩) reports
    · exact h.report b m p' v mem reports
    · rw [pair] at reports
      obtain ⟨answered, top, promised, le⟩ := h.held p' v reports
      have lt := above top promised
      exact ⟨by grind, answered⟩

/-- An acceptance is not below any promise or any other acceptance. -/
theorem acceptance {p : Proposal} {v : Token} (h : a.Remembers answers) (b : Nat)
    (notBelow : ∀ top, a.promised = some top → top ≤ p) :
    Remembers { a with promised := some p, accepted := some (p, v) }
      (answers ++ [(b, .accepted p v)]) := by
  -- An acceptance may repeat the highest promise, so here the order is not strict.
  have earlier : ∀ b m, (b, .promise m) ∈ answers → m.proposal ≤ p := by
    intro b m mem
    obtain ⟨top, bound, le⟩ := h.promised b m mem
    have le' := notBelow top bound
    grind
  constructor <;> simp only [List.mem_append, List.mem_singleton, Prod.mk.injEq, reduceCtorEq,
    and_false, or_false, Response.accepted.injEq]
  case promised => exact fun b m mem => ⟨p, rfl, earlier b m mem⟩
  case accepted =>
    rintro b p' v' (mem | ⟨-, rfl, rfl⟩)
    · obtain ⟨q, w, accepted, le⟩ := h.accepted b p' v' mem
      obtain ⟨-, top, bound, le'⟩ := h.held q w accepted
      have le'' := notBelow top bound
      exact ⟨p, v, rfl, by grind⟩
    · exact ⟨p', v', rfl, by grind⟩
  case held =>
    rintro p' v' ⟨⟩
    exact ⟨⟨b, .inr ⟨rfl, rfl, rfl⟩⟩, p, rfl, by grind⟩
  case once => exact h.once
  case reported =>
    rintro b b' m p' v' mem (mem' | ⟨-, rfl, rfl⟩) lt
    · exact h.reported b b' m p' v' mem mem' lt
    · have le := earlier b m mem
      grind
  case report =>
    intro b m p' v' mem reports
    obtain ⟨lt, b', answered⟩ := h.report b m p' v' mem reports
    exact ⟨lt, b', .inl answered⟩

/-- Whatever an acceptor does, it remembers. -/
theorem dealt {request : Request} {response : Option Response} (h : a.Remembers answers) (b : Nat)
    (dealt : a.Dealt request response a') :
    a'.Remembers (answers ++ (response.map (b, ·)).toList) := by
  cases dealt with
  | promised s above => exact h.promise b s above
  | silent above =>
    rw [Option.map_none, Option.toList_none, List.append_nil]
    exact h.bind above
  | accepted notBelow => exact h.acceptance b notBelow
  | unpromised | unaccepted => exact h.rejection b _

end Acceptor.Remembers

end Replication.Election
