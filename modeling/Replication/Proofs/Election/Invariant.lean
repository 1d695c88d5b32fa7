import Replication.Proofs.Election.Memory
import Replication.Proofs.Election.Rounds

/-! # What holds throughout a contest

Every acceptor remembers its answers, every response belongs to its request, every request
for acceptance has its votes behind it, and every election is somewhere on its way through
the phases.  `Contest.Sound.step` is the one place where the moves are told apart.
-/

namespace Replication.Election

/-! ## The invariant -/

/-- Whether a response goes along with a request. -/
def Response.Answers (request : Request) : Response → Prop
  | .promise m => request = .propose m.proposal
  | .accepted p v => request = .accept p v
  | .reject _ | .protocolError _ => True

/-- What an acceptor answers goes along with what it was asked. -/
theorem Acceptor.Dealt.answers {a a' : Acceptor} {request : Request} {r : Response}
    (h : a.Dealt request (some r) a') : r.Answers request := by
  cases h with
  | promised | accepted => rfl
  | unpromised | unaccepted => trivial

namespace Contest

/-- The answers of an acceptor, with the numbers of the broadcasts. -/
def answers (c : Contest) (acceptor : Octets) : List (Nat × Response) :=
  c.handled.filterMap fun h =>
    if h.acceptor = acceptor then h.response.map (h.broadcast, ·) else none

@[simp] theorem mem_answers {c : Contest} {acceptor : Octets} {b : Nat} {r : Response} :
    (b, r) ∈ c.answers acceptor ↔ c.Responded b acceptor r := by
  simp only [answers, List.mem_filterMap, Responded]
  constructor
  · rintro ⟨⟨b', name, response⟩, mem, found⟩
    split at found
    next same =>
      cases same
      obtain ⟨r', rfl, pair⟩ := Option.map_eq_some_iff.1 found
      cases pair
      exact mem
    next => cases found
  · intro mem
    exact ⟨_, mem, by simp⟩

/-- Whether a broadcast is the last one of an election so far. -/
def Latest (c : Contest) (i b : Nat) : Prop :=
  (∃ sent, c.broadcasts[b]? = some sent ∧ sent.caller = i) ∧
    ∀ j sent, b < j → c.broadcasts[j]? = some sent → sent.caller ≠ i

def AtStage (c : Contest) (i : Nat) : Stage → Prop
  | .fresh => True
  | .promised p replies => ∃ b sent, c.Latest i b ∧ c.broadcasts[b]? = some sent ∧
      sent.request = .propose p ∧ c.Replies b replies
  | .accepted p v replies => ∃ b sent, c.broadcasts[b]? = some sent ∧
      sent.request = .accept p v ∧ c.Replies b replies

/-- Whether an election is on its way: it keeps to the rules from its stage on, and if it
    waits, it waits for its last broadcast. -/
structure OnTheWay (c : Contest) (i : Nat) (call : Call) : Prop where
  overlapping : c.electors.quorum.Overlapping call.policy
  stage : ∃ s, call.program.Heeds c.electors.quorum call.policy c.electors.names
      (Outcome.Earned c.electors.quorum call.policy) s ∧
    (call.waiting = none → c.AtStage i s)
  waits : ∀ b, call.waiting = some b → c.Latest i b ∧
    ∃ targets request next, call.program = .broadcast targets request next ∧
      c.broadcasts[b]? = some { caller := i, targets, request }

/-- The votes behind a request for acceptance: it is the next broadcast after the proposal
    that they answered, and what they report was sent before. -/
structure Basis (c : Contest) (k : Nat) (sent : Broadcast) (p : Proposal) (v : Token) (b : Nat)
    (votes : List Vote) : Prop where
  before : b < k
  proposed : ∃ first, c.broadcasts[b]? = some first ∧ first.caller = sent.caller ∧
    first.request = .propose p
  next : ∀ j other, b < j → j < k → c.broadcasts[j]? = some other → other.caller ≠ sent.caller
  quorum : ∃ policy, c.electors.quorum.Overlapping policy ∧
    c.electors.quorum.need policy ≤ votes.length
  distinct : (votes.map (·.acceptor)).Nodup
  cast : ∀ vote ∈ votes, vote.promise.proposal = p ∧
    c.Responded b vote.acceptor (.promise vote.promise)
  chosen : chooseMaster votes = some v
  older : ∀ vote ∈ votes, ∀ p' v', vote.promise.acceptedPair = some (p', v') →
    ∃ j, j < k ∧ ∃ first, c.broadcasts[j]? = some first ∧ first.request = .accept p' v'

/-- What holds throughout. -/
structure Sound (c : Contest) : Prop where
  memory : ∀ acceptor, (c.acceptors acceptor).Remembers (c.answers acceptor)
  relevant : ∀ b acceptor r, c.Responded b acceptor r →
    ∃ sent, c.broadcasts[b]? = some sent ∧ acceptor ∈ sent.targets ∧ r.Answers sent.request
  addressed : ∀ sent ∈ c.broadcasts, sent.targets ⊆ c.electors.names
  basis : ∀ k sent p v, c.broadcasts[k]? = some sent → sent.request = .accept p v →
    ∃ b votes, c.Basis k sent p v b votes
  calls : ∀ i call, c.calls[i]? = some call → c.OnTheWay i call

/-! ## What stays as a contest goes on -/

/-- Whether one contest is a later state of the other, with these broadcasts added. -/
structure Grows (c : Contest) (more : List Broadcast) (c' : Contest) : Prop where
  electors : c'.electors = c.electors
  broadcasts : c'.broadcasts = c.broadcasts ++ more
  handled : c.handled ⊆ c'.handled

section Grows

variable {c c' : Contest} {more : List Broadcast} {i b : Nat}

theorem Grows.getElem? (h : c.Grows more c') {sent : Broadcast}
    (found : c.broadcasts[b]? = some sent) :
    c'.broadcasts[b]? = some sent := by
  rw [h.broadcasts]
  exact List.getElem?_append_left (List.getElem?_eq_some_iff.1 found).1 ▸ found

/-- A broadcast of the later state is an earlier one or one of those added. -/
theorem Grows.getElem?_or_mem (h : c.Grows more c') {sent : Broadcast}
    (found : c'.broadcasts[b]? = some sent) : c.broadcasts[b]? = some sent ∨ sent ∈ more := by
  rw [h.broadcasts, List.getElem?_append] at found
  split at found
  · exact .inl found
  · exact .inr (List.mem_of_getElem? found)

theorem Responded.grows {acceptor : Octets} {r : Response} (h : c.Grows more c')
    (responded : c.Responded b acceptor r) : c'.Responded b acceptor r :=
  h.handled responded

theorem Replies.grows {replies : List Reply} (h : c.Grows more c') (came : c.Replies b replies) :
    c'.Replies b replies := by
  refine ⟨came.1, fun reply mem => ?_⟩
  have genuine := came.2 reply mem
  unfold Genuine at genuine ⊢
  split
  next r answered =>
    rw [answered] at genuine
    exact Responded.grows h genuine
  next => trivial

theorem Latest.grows (h : c.Grows more c') (latest : c.Latest i b)
    (others : ∀ sent ∈ more, sent.caller ≠ i) : c'.Latest i b := by
  obtain ⟨⟨sent, found, own⟩, last⟩ := latest
  refine ⟨⟨sent, h.getElem? found, own⟩, fun j sent after found => ?_⟩
  rcases h.getElem?_or_mem found with found | added
  · exact last j sent after found
  · exact others sent added

theorem AtStage.grows {s : Stage} (h : c.Grows more c') (stage : c.AtStage i s)
    (others : ∀ sent ∈ more, sent.caller ≠ i) : c'.AtStage i s := by
  cases s with
  | fresh => trivial
  | promised p replies =>
    obtain ⟨b, sent, latest, found, request, came⟩ := stage
    exact ⟨b, sent, latest.grows h others, h.getElem? found, request, came.grows h⟩
  | accepted p v replies =>
    obtain ⟨b, sent, found, request, came⟩ := stage
    exact ⟨b, sent, h.getElem? found, request, came.grows h⟩

/-- What others do leaves an election where it is. -/
theorem OnTheWay.grows {call : Call} (h : c.Grows more c') (way : c.OnTheWay i call)
    (others : ∀ sent ∈ more, sent.caller ≠ i) : c'.OnTheWay i call where
  overlapping := h.electors ▸ way.overlapping
  stage := by
    obtain ⟨s, heeds, stage⟩ := way.stage
    exact ⟨s, h.electors ▸ heeds, fun idle => (stage idle).grows h others⟩
  waits b waiting := by
    obtain ⟨latest, targets, request, next, program, found⟩ := way.waits b waiting
    exact ⟨latest.grows h others, targets, request, next, program, h.getElem? found⟩

/-- Whether a broadcast was made is not changed by what comes later. -/
theorem lt_length_of_sent {k : Nat} {sent : Broadcast} (found : c.broadcasts[k]? = some sent) :
    k < c.broadcasts.length :=
  (List.getElem?_eq_some_iff.1 found).1

theorem Basis.grows {k : Nat} {sent : Broadcast} {p : Proposal} {v : Token} {votes : List Vote}
    (h : c.Grows more c') (sentBy : k ≤ c.broadcasts.length)
    (basis : c.Basis k sent p v b votes) : c'.Basis k sent p v b votes where
  before := basis.before
  proposed := by
    obtain ⟨first, found, rest⟩ := basis.proposed
    exact ⟨first, h.getElem? found, rest⟩
  next j other after below found' := by
    have inside : j < c.broadcasts.length := Nat.lt_of_lt_of_le below sentBy
    rw [h.broadcasts, List.getElem?_append_left inside] at found'
    exact basis.next j other after below found'
  quorum := h.electors ▸ basis.quorum
  distinct := basis.distinct
  cast vote mem := (basis.cast vote mem).imp_right (Responded.grows h)
  chosen := basis.chosen
  older vote mem p' v' reports := by
    obtain ⟨j, below, first, found, request⟩ := basis.older vote mem p' v' reports
    exact ⟨j, below, first, h.getElem? found, request⟩

/-- A request for acceptance keeps the votes behind it. -/
theorem Sound.basis_grows (h : c.Grows more c') (sound : c.Sound) {k : Nat} {sent : Broadcast}
    {p : Proposal} {v : Token} (found : c.broadcasts[k]? = some sent)
    (request : sent.request = .accept p v) : ∃ b votes, c'.Basis k sent p v b votes := by
  obtain ⟨b, votes, basis⟩ := sound.basis k sent p v found request
  exact ⟨b, votes, basis.grows h (Nat.le_of_lt (lt_length_of_sent found))⟩

end Grows

/-! ## Moves -/

/-- A place in a list with an element added is a place of the list, or the last one. -/
theorem getElem?_concat_cases {α : Type} {xs : List α} {x y : α} {i : Nat}
    (h : (xs ++ [x])[i]? = some y) : xs[i]? = some y ∨ i = xs.length ∧ y = x := by
  rw [List.getElem?_append] at h
  split at h
  · exact .inl h
  next outside =>
    obtain ⟨bound, same⟩ := List.getElem?_eq_some_iff.1 h
    rw [List.length_singleton] at bound
    exact .inr ⟨by omega, by simpa using same.symm⟩

section Moves

variable {c : Contest} {i b : Nat}

/-- Nothing has happened yet. -/
theorem Sound.start (electors : Electors) : (Contest.start electors).Sound where
  memory _ := .fresh electors.group
  relevant _ _ _ h := absurd h List.not_mem_nil
  addressed _ h := absurd h List.not_mem_nil
  basis _ _ _ _ h := nomatch h
  calls _ _ h := nomatch h

theorem responded_note {acceptor name : Octets} {response : Option Response} {a : Acceptor}
    {b' : Nat} {r : Response} :
    (c.note b acceptor response a).Responded b' name r ↔
      c.Responded b' name r ∨ b' = b ∧ name = acceptor ∧ response = some r := by
  simp only [Responded, note, List.mem_append, List.mem_singleton, Handling.mk.injEq]
  exact or_congr_right
    ⟨fun ⟨hb, hn, hr⟩ => ⟨hb, hn, hr.symm⟩, fun ⟨hb, hn, hr⟩ => ⟨hb, hn, hr.symm⟩⟩

theorem answers_note_self {acceptor : Octets} {response : Option Response} {a : Acceptor} :
    (c.note b acceptor response a).answers acceptor =
      c.answers acceptor ++ (response.map (b, ·)).toList := by
  simp only [answers, note, List.filterMap_append, List.filterMap_cons, List.filterMap_nil,
    if_true]
  cases response with
  | none => rfl
  | some r => rfl

theorem answers_note_ne {acceptor name : Octets} {response : Option Response} {a : Acceptor}
    (other : acceptor ≠ name) : (c.note b acceptor response a).answers name = c.answers name := by
  simp only [answers, note, List.filterMap_append, List.filterMap_cons, List.filterMap_nil,
    if_neg other, List.append_nil]

/-- An acceptor deals with its part of a broadcast. -/
theorem Sound.note (h : c.Sound) {sent : Broadcast} {acceptor : Octets}
    {response : Option Response} {a : Acceptor} (found : c.broadcasts[b]? = some sent)
    (target : acceptor ∈ sent.targets)
    (dealt : (c.acceptors acceptor).Dealt sent.request response a) :
    (c.note b acceptor response a).Sound := by
  have grows : c.Grows [] (c.note b acceptor response a) :=
    ⟨rfl, (List.append_nil _).symm, List.subset_append_left _ _⟩
  constructor
  case memory =>
    -- Only the acceptor that has answered has something new to remember.
    intro name
    by_cases other : acceptor = name
    · subst other
      rw [answers_note_self, Contest.note]
      simpa using (h.memory acceptor).dealt b dealt
    · rw [answers_note_ne other, Contest.note]
      simpa [Ne.symm other] using h.memory name
  case relevant =>
    intro b' name r responded
    rcases responded_note.1 responded with responded | ⟨rfl, rfl, rfl⟩
    · exact h.relevant b' name r responded
    · exact ⟨sent, found, target, dealt.answers⟩
  case addressed => exact h.addressed
  case basis => exact fun _ _ _ _ found request => h.basis_grows grows found request
  case calls =>
    intro i call found
    exact (h.calls i call found).grows grows fun _ mem => absurd mem List.not_mem_nil

/-- Only elections change, and all of them are on their way. -/
theorem Sound.withCalls (h : c.Sound) {calls : List Call}
    (way : ∀ i call, calls[i]? = some call → c.OnTheWay i call) : { c with calls }.Sound := by
  have grows : c.Grows [] { c with calls } :=
    ⟨rfl, (List.append_nil _).symm, List.Subset.refl _⟩
  constructor
  case memory => exact h.memory
  case relevant => exact h.relevant
  case addressed => exact h.addressed
  case basis => exact fun _ _ _ _ found request => h.basis_grows grows found request
  case calls =>
    intro i call found
    exact (way i call found).grows grows fun _ mem => absurd mem List.not_mem_nil

/-- An election begins. -/
theorem Sound.begin (h : c.Sound) {call : Call} (way : c.OnTheWay c.calls.length call) :
    { c with calls := c.calls ++ [call] }.Sound := by
  refine h.withCalls fun i call' found => ?_
  rcases getElem?_concat_cases found with found | ⟨rfl, rfl⟩
  · exact h.calls i call' found
  · exact way

/-- An election moves on by itself. -/
theorem Sound.setCall (h : c.Sound) {call : Call} (way : c.OnTheWay i call) :
    (c.setCall i call).Sound := by
  refine h.withCalls fun j call' found => ?_
  rw [List.getElem?_set] at found
  split at found
  next same =>
    split at found
    · cases found
      exact same ▸ way
    · cases found
  next => exact h.calls j call' found

/-- Replies that an election went on with bring a quorum of votes, so they are a basis for
    the broadcast that comes next. -/
theorem Sound.basis_of_backing (h : c.Sound) (sent : Broadcast) {policy : QuorumPolicy}
    {p : Proposal} {v : Token} {replies : List Reply} {votes : List Vote}
    (overlapping : c.electors.quorum.Overlapping policy) (latest : c.Latest sent.caller b)
    {first : Broadcast} (found : c.broadcasts[b]? = some first)
    (request : first.request = .propose p) (came : c.Replies b replies)
    (backing : Backing c.electors.quorum policy p v replies votes) :
    c.Basis c.broadcasts.length sent p v b votes := by
  obtain ⟨order, made⟩ := votes_of_collectPromises backing.collected
  have cast : ∀ vote ∈ votes, vote.promise.proposal = p ∧
      c.Responded b vote.acceptor (.promise vote.promise) := by
    intro vote mem
    obtain ⟨same, reply, from_, name, answered⟩ := made vote mem
    have genuine := came.2 reply from_
    rw [Genuine, answered, name] at genuine
    exact ⟨same, genuine⟩
  constructor
  case before => exact lt_length_of_sent found
  case proposed =>
    obtain ⟨⟨first', found', own⟩, -⟩ := latest
    rw [found] at found'
    cases found'
    exact ⟨first, found, own, request⟩
  case next => exact fun j other after _ found => latest.2 j other after found
  case quorum => exact ⟨policy, overlapping, Int.ofNat_le.1 backing.met⟩
  case distinct => exact order.nodup came.1
  case cast => exact cast
  case chosen => exact backing.chosen
  case older =>
    -- What a vote reports was answered by now, so the request for it was sent by now.
    intro vote mem p' v' reports
    have answered := mem_answers.2 (cast vote mem).2
    obtain ⟨-, b', accepted⟩ := (h.memory vote.acceptor).report b _ p' v' answered reports
    obtain ⟨first, found, -, request⟩ := h.relevant b' _ _ (mem_answers.1 accepted)
    exact ⟨b', lt_length_of_sent found, first, found, request⟩

/-- The targets that a request is permitted to have are electors. -/
theorem Sound.targets_subset (h : c.Sound) {policy : QuorumPolicy} {st : Stage}
    {targets : List Octets} {request : Request} (overlapping : c.electors.quorum.Overlapping policy)
    (stage : c.AtStage i st)
    (permitted : request.Permitted c.electors.quorum policy c.electors.names st targets) :
    targets ⊆ c.electors.names := by
  cases request with
  | propose p =>
    cases permitted
    exact List.Subset.refl _
  | accept p v =>
    obtain ⟨replies, votes, rfl, backing, rfl⟩ := permitted
    obtain ⟨b, first, latest, found, request, came⟩ := stage
    have basis := h.basis_of_backing ⟨i, [], .propose p⟩ overlapping latest found
      request came backing
    intro name mem
    obtain ⟨vote, voted, rfl⟩ := List.mem_map.1 mem
    obtain ⟨first', found', target, -⟩ := h.relevant b _ _ (basis.cast vote voted).2
    exact h.addressed first' (List.mem_of_getElem? found') target

/-- An election that is ready to send does so and waits. -/
theorem Sound.send (h : c.Sound) {call : Call} {targets : List Octets} {request : Request}
    {next : List Reply → Pending (Option Outcome)} (found : c.calls[i]? = some call)
    (program : call.program = .broadcast targets request next) (idle : call.waiting = none) :
    (c.send i call targets request).Sound := by
  have way := h.calls i call found
  obtain ⟨st, heeds, stage⟩ := way.stage
  have permitted := heeds
  rw [program] at permitted
  replace permitted := permitted.1
  have grows : c.Grows [⟨i, targets, request⟩] (c.send i call targets request) :=
    ⟨rfl, rfl, List.Subset.refl _⟩
  constructor
  case memory => exact h.memory
  case relevant =>
    intro b name r responded
    obtain ⟨first, found, rest⟩ := h.relevant b name r responded
    exact ⟨first, grows.getElem? found, rest⟩
  case addressed =>
    intro other mem
    rcases List.mem_append.1 mem with mem | mem
    · exact h.addressed other mem
    · cases List.mem_singleton.1 mem
      exact h.targets_subset way.overlapping (stage idle) permitted
  case basis =>
    intro k other p v found' request'
    rcases getElem?_concat_cases found' with old | ⟨rfl, rfl⟩
    · exact h.basis_grows grows old request'
    -- The votes behind a new request are those that the rules let its election send it for.
    · cases request'
      obtain ⟨replies, votes, rfl, backing, -⟩ := permitted
      obtain ⟨b, first, latest, found, request, came⟩ := stage idle
      have basis := h.basis_of_backing ⟨i, targets, .accept p v⟩ way.overlapping latest
        found request came backing
      exact ⟨b, votes, basis.grows grows (Nat.le_refl _)⟩
  case calls =>
    intro j call' found'
    rw [Contest.send, Contest.setCall, List.getElem?_set] at found'
    split at found'
    next same =>
      subst same
      split at found'
      · cases found'
        have sent : (c.send i call targets request).broadcasts[c.broadcasts.length]? =
            some ⟨i, targets, request⟩ := List.getElem?_concat_length
        refine ⟨way.overlapping, ⟨st, heeds, fun idle' => nomatch idle'⟩, ?_⟩
        rintro b ⟨⟩
        refine ⟨⟨⟨_, sent, rfl⟩, fun j other after found => ?_⟩, targets, request, next, program,
          sent⟩
        have bound := lt_length_of_sent found
        rw [Contest.send, List.length_append, List.length_singleton] at bound
        omega
      · cases found'
    next other =>
      refine (h.calls j call' found').grows grows fun sent mem => ?_
      cases List.mem_singleton.1 mem
      exact other

/-- An election goes on with the replies to its last broadcast. -/
theorem Sound.collect (h : c.Sound) {call : Call} {targets : List Octets} {request : Request}
    {next : List Reply → Pending (Option Outcome)} {replies : List Reply}
    (found : c.calls[i]? = some call) (program : call.program = .broadcast targets request next)
    (waiting : call.waiting = some b) (came : c.Replies b replies) :
    (c.setCall i { call with program := next replies, waiting := none }).Sound := by
  have way := h.calls i call found
  obtain ⟨st, heeds, -⟩ := way.stage
  obtain ⟨latest, targets', request', next', program', sent⟩ := way.waits b waiting
  rw [program] at heeds program'
  cases program'
  refine h.setCall ⟨way.overlapping, ⟨_, heeds.2 replies, fun _ => ?_⟩,
    fun b waiting => nomatch waiting⟩
  cases request with
  | propose p => exact ⟨b, _, latest, sent, rfl, came⟩
  | accept p v => exact ⟨b, _, sent, rfl, came⟩

/-- An election takes the answer to a question. -/
theorem Sound.answer (h : c.Sound) {call : Call} {rest : Pending (Option Outcome)}
    (found : c.calls[i]? = some call)
    (heeded : ∀ st, call.program.Heeds c.electors.quorum call.policy c.electors.names
        (Outcome.Earned c.electors.quorum call.policy) st →
      rest.Heeds c.electors.quorum call.policy c.electors.names
        (Outcome.Earned c.electors.quorum call.policy) st)
    (noBroadcast : ∀ targets request next, call.program ≠ .broadcast targets request next) :
    (c.setCall i { call with program := rest }).Sound := by
  have way := h.calls i call found
  obtain ⟨st, heeds, stage⟩ := way.stage
  refine h.setCall ⟨way.overlapping, ⟨st, heeded st heeds, stage⟩, fun b waiting => ?_⟩
  obtain ⟨-, targets, request, next, program, -⟩ := way.waits b waiting
  exact absurd program (noBroadcast targets request next)

/-- Whatever move an election makes, if it can make it at all. -/
theorem Sound.advance (h : c.Sound) {call : Call} (found : c.calls[i]? = some call) (move : Move) :
    (c.advance i call move).Sound := by
  unfold Contest.advance
  split
  next next yes program =>
    refine h.answer found (fun st heeds => ?_) (by simp [program])
    rw [program] at heeds
    exact heeds yes
  next next retries program =>
    refine h.answer found (fun st heeds => ?_) (by simp [program])
    rw [program] at heeds
    exact heeds retries
  next next p program =>
    refine h.answer found (fun st heeds => ?_) (by simp [program])
    rw [program] at heeds
    exact heeds p
  next program idle => exact h.send found program idle
  next program waiting =>
    split
    next came => exact h.collect found program waiting came
    next => exact h
  next => exact h

/-- Whatever an acceptor does with its part of a broadcast. -/
theorem Sound.handle (h : c.Sound) {sent : Broadcast} {acceptor : Octets} (suggest : Suggest)
    (found : c.broadcasts[b]? = some sent) (target : acceptor ∈ sent.targets) :
    (c.handle b acceptor sent.request suggest).Sound := by
  have dealt := Acceptor.process_dealt suggest sent.request (c.acceptors acceptor)
  unfold Contest.handle
  split
  next answered =>
    rw [answered] at dealt
    exact h.note found target dealt
  next failed =>
    rw [failed] at dealt
    exact h.note found target dealt

/-- One action, whichever it is. -/
theorem Sound.step (h : c.Sound) (action : Action) : (c.step action).Sound := by
  cases action with
  | call policy rounds =>
    simp only [Contest.step]
    split
    next overlapping =>
      exact h.begin ⟨overlapping, ⟨.fresh, heeds_run rounds {} .fresh, fun _ => trivial⟩,
        fun b waiting => nomatch waiting⟩
    next => exact h
  | move i move =>
    simp only [Contest.step]
    split
    next call found => exact h.advance found move
    next => exact h
  | handle b acceptor suggest =>
    simp only [Contest.step]
    split
    next sent found =>
      split
      next free => exact h.handle suggest found free.1
      next => exact h
    next => exact h

/-- The electors stay the same. -/
theorem step_electors (c : Contest) (action : Action) : (c.step action).electors = c.electors := by
  cases action with
  | call policy rounds =>
    simp only [Contest.step]
    split <;> rfl
  | move i move =>
    simp only [Contest.step, Contest.advance]
    split
    · split <;> try rfl
      split <;> rfl
    · rfl
  | handle b acceptor suggest =>
    simp only [Contest.step, Contest.handle]
    split
    · split
      · split <;> rfl
      · rfl
    · rfl

theorem run_electors (c : Contest) (actions : List Action) :
    (c.run actions).electors = c.electors := by
  induction actions generalizing c with
  | nil => rfl
  | cons action actions ih => exact (ih (c.step action)).trans (step_electors c action)

/-- All actions, in whatever order. -/
theorem Sound.run (h : c.Sound) (actions : List Action) : (c.run actions).Sound := by
  induction actions generalizing c with
  | nil => exact h
  | cons action actions ih => exact ih (h.step action)

end Moves

end Contest

end Replication.Election
