import Mathlib
import Replication.Election.Schedule
import Replication.Proofs.Election.Obedience

/-! # Elections without a rival

A proposer that is alone, whose proposal is above all promises, gets through at once if a
quorum can be reached: every member in reach grants what it is asked, and its answer comes
back through the records as it was given.  If the promises call for no value, nobody is asked
to accept.
-/

namespace Replication.Election

/-! ## Members that grant -/

namespace Acceptor

def granted (a : Acceptor) : Request → Acceptor
  | .propose p => { a with promised := some p }
  | .accept p v => { a with promised := some p, accepted := some (p, v) }

def grant (a : Acceptor) (s : Suggestion) : Request → Response
  | .propose p => .promise
      { proposal := p, acceptedProposal := a.accepted.map (·.1),
        acceptedValue := a.accepted.map (·.2), suggestion := s }
  | .accept p v => .accepted p v

/-- Whether nothing binds an acceptor to refuse a request. -/
def Willing (a : Acceptor) : Request → Prop
  | .propose p => ∀ top, a.promised = some top → top < p
  | .accept p _ => ∀ top, a.promised = some top → top ≤ p

variable {a : Acceptor} {request : Request}

theorem process_of_willing (willing : a.Willing request) (s : Suggestion) :
    process (fun _ => some s) request a = .ok (a.grant s request) (a.granted request) := by
  cases request with
  | propose p =>
    have free : a.promised.filter (p ≤ ·) = none := by
      rw [Option.filter_eq_none_iff]
      intro top bound
      have lt := willing top bound
      grind
    simp only [process, propose, free, grant, granted]
  | accept p v =>
    have free : a.promised.filter (p < ·) = none := by
      rw [Option.filter_eq_none_iff]
      intro top bound
      have le := willing top bound
      grind
    simp only [process, accept, free, grant, granted]

theorem dealt_of_willing (willing : a.Willing request) (s : Suggestion) :
    a.Dealt request (some (a.grant s request)) (a.granted request) := by
  have dealt := process_dealt (fun _ => some s) request a
  rwa [process_of_willing willing] at dealt

/-- A record that arrives at its own group is answered with a record. -/
theorem processRecord_of_willing (willing : a.Willing request) (s : Suggestion) :
    processRecord (fun _ => some s) (Record.formatRequest a.group request) a =
      .ok (Record.formatResponse a.group (a.grant s request)) (a.granted request) := by
  rw [processRecord_of_read _ (Record.parseRequest_formatRequest a.group request),
    bind_eq_of_ok (process_of_willing willing s)]
  rfl

end Acceptor

/-- A member that has granted a request, if it is in reach. -/
def Member.granted (request : Request) (m : Member) : Member :=
  { m with reachable := m.reachable.map fun (a, s) => (a.granted request, s) }

namespace Electorate

variable {e : Electorate} {name : Octets} {request : Request}

/-- The reply to a request that a member grants if it can be reached. -/
def reply (e : Electorate) (request : Request) (name : Octets) : Reply where
  acceptor := name
  response :=
    match e.reach name with
    | some (a, s) => .ok (a.grant s request)
    | none => .error (.ofAscii "cannot reach " ++ name).zeroTerminated

/-- What goes over the wire then. -/
def transcript (e : Electorate) (request : Request) (name : Octets) : Transcript where
  acceptor := name
  request := Record.formatRequest e.group request
  reply :=
    match e.reach name with
    | some (a, s) => .ok (Record.formatResponse e.group (a.grant s request))
    | none => .error (.ofAscii "cannot reach " ++ name).zeroTerminated

/-- The electorate after a request that all of these members grant. -/
def served (e : Electorate) (request : Request) (names : List Octets) : Electorate :=
  { e with
    members := e.members.map fun m => if names.contains m.name then m.granted request else m
    exchanges := e.exchanges + names.length
    transcripts := e.transcripts ++ names.map (e.transcript request) }

theorem served_eq (e : Electorate) (request : Request) (names : List Octets) :
    e.served request names = { e with
      members := e.members.map fun m => if m.name ∈ names then m.granted request else m
      exchanges := e.exchanges + names.length
      transcripts := e.transcripts ++ names.map (e.transcript request) } := by
  simp only [served, List.contains_iff_mem]

/-- A member is reached under its name. -/
theorem reach_of_mem (distinct : e.names.Nodup) {m : Member} (mem : m ∈ e.members) :
    e.reach m.name = m.reachable := by
  have found : e.members.find? (·.name = m.name) = some m := by
    cases found : e.members.find? (·.name = m.name) with
    | none => simpa using List.find?_eq_none.1 found m mem
    | some m' =>
      have same : m'.name = m.name := by simpa using List.find?_some found
      rw [List.inj_on_of_nodup_map distinct (List.mem_of_find?_eq_some found) mem same]
  rw [reach, found]
  rfl

/-- A request changes nothing but the acceptors that are reached under these names. -/
theorem reach_served (e : Electorate) (request : Request) (names : List Octets) (name : Octets) :
    (e.served request names).reach name =
      if name ∈ names then (e.reach name).map fun (a, s) => (a.granted request, s)
      else e.reach name := by
  have kept : ∀ m : Member, (if m.name ∈ names then m.granted request else m).name = m.name := by
    intro m
    split <;> rfl
  have found : (e.served request names).members.find? (·.name = name) =
      (e.members.find? (·.name = name)).map
        fun m => if m.name ∈ names then m.granted request else m := by
    simp only [served_eq, List.find?_map, Function.comp_def, kept]
  rw [reach, found, reach]
  cases found : e.members.find? (·.name = name) with
  | none => split <;> rfl
  | some m =>
    have same : m.name = name := by simpa using List.find?_some found
    simp only [Option.map_some, Option.bind_some, same]
    split <;> rfl

theorem names_served (e : Electorate) (request : Request) (names : List Octets) :
    (e.served request names).names = e.names := by
  rw [Electorate.names, served_eq, List.map_map]
  refine List.map_congr_left fun m _ => ?_
  rw [Function.comp_apply]
  split <;> rfl

end Electorate

/-! ## Exchanges -/

/-- Whether these members of an electorate grant a request as far as they can be reached, and
    nothing interferes. -/
structure Electorate.Grants (e : Electorate) (request : Request) (names : List Octets) :
    Prop where
  distinct : e.names.Nodup
  faultless : e.faults = []
  willing : ∀ name ∈ names, ∀ a s, e.reach name = some (a, s) →
    a.group = e.group ∧ a.Willing request

namespace Campaign

variable {c : Campaign} {name : Octets} {request : Request}

theorem ask_of_reached {record reply : Octets} {a a' : Acceptor} {s : Suggestion}
    (reached : c.electorate.reach name = some (a, s))
    (answered : a.processRecord (fun _ => some s) record = .ok reply a') :
    ask name record c =
      (.ok reply,
        { c with electorate := { c.electorate with
            members := c.electorate.members.map fun m =>
              if m.name = name then { m with reachable := some (a', s) } else m } }) := by
  obtain ⟨⟨_, _⟩, found, rfl⟩ := Option.bind_eq_some_iff.1 reached
  rw [ask]
  simp only [bind, StateT.bind, get, getThe, MonadStateOf.get, StateT.get, pure, found, answered]
  rfl

theorem ask_of_unreached {record : Octets} (unreached : c.electorate.reach name = none) :
    ask name record c = (.error (.ofAscii "cannot reach " ++ name), c) := by
  rw [ask]
  simp only [bind, StateT.bind, get, getThe, MonadStateOf.get, StateT.get, pure]
  cases found : c.electorate.members.find? (·.name = name) with
  | none => rfl
  | some m =>
    obtain ⟨_, reachable⟩ := m
    rw [Electorate.reach, found] at unreached
    cases (show reachable = none from unreached)
    rfl

/-- Nothing befalls an exchange without faults. -/
theorem exchange_of_grants (grants : c.electorate.Grants request [name]) :
    exchange name request c =
      ((c.electorate.reply request name).response,
        { c with electorate := c.electorate.served request [name] }) := by
  have fault : c.electorate.fault c.electorate.exchanges = {} := by
    rw [Electorate.fault, grants.faultless]
    rfl
  let begun : Campaign :=
    { c with electorate := { c.electorate with exchanges := c.electorate.exchanges + 1 } }
  rw [exchange]
  simp only [bind, StateT.bind, get, getThe, MonadStateOf.get, StateT.get, pure, StateT.pure,
    modify, modifyGet, MonadStateOf.modifyGet, StateT.modifyGet, fault, carry, Bool.or_false,
    Option.getD_none, Bool.false_eq_true, if_false]
  simp only [Electorate.reply, Electorate.served_eq, Electorate.transcript, List.map_cons,
    List.map_nil, List.length_singleton, List.mem_singleton]
  cases reached : c.electorate.reach name with
  -- A member out of reach does not answer, and what it is granted leaves it as it is.
  | none =>
    have kept : c.electorate.members.map
        (fun m => if m.name = name then m.granted request else m) = c.electorate.members := by
      refine (List.map_congr_left fun m mem => ?_).trans (List.map_id _)
      split
      next same =>
        have unreached := (Electorate.reach_of_mem grants.distinct mem).symm.trans (same ▸ reached)
        rw [Member.granted, unreached]
        exact congrArg (Member.mk m.name) unreached.symm
      next => rfl
    rw [ask_of_unreached (show begun.electorate.reach name = none from reached), kept]
  -- Names are distinct, so the one member of that name answers and the others stay.
  | some pair =>
    obtain ⟨a, s⟩ := pair
    obtain ⟨group, willing⟩ := grants.willing name (List.mem_singleton_self name) a s reached
    have answered := Acceptor.processRecord_of_willing willing s
    rw [group] at answered
    have read :=
      Acceptor.parseResponse_of_dealt (Acceptor.dealt_of_willing willing s) c.electorate.group
    have updated : c.electorate.members.map
          (fun m => if m.name = name then m.granted request else m) =
        c.electorate.members.map fun m =>
          if m.name = name then { m with reachable := some (a.granted request, s) } else m := by
      refine List.map_congr_left fun m mem => ?_
      split
      next same =>
        have member := (Electorate.reach_of_mem grants.distinct mem).symm.trans (same ▸ reached)
        rw [Member.granted, member]
        rfl
      next => rfl
    rw [ask_of_reached (show begun.electorate.reach name = some (a, s) from reached) answered,
      updated]
    simp only [read]
    rfl

end Campaign

/-! ## Broadcasts -/

namespace Electorate

variable {e : Electorate} {name : Octets} {names : List Octets} {request : Request}

theorem served_nil (e : Electorate) (request : Request) : e.served request [] = e := by
  have members : e.members.map (fun m => if m.name ∈ [] then m.granted request else m) =
      e.members := by simp
  rw [served_eq, members, List.map_nil, List.append_nil]
  rfl

/-- One member after the other serves a request. -/
theorem served_cons (request : Request) (other : name ∉ names) :
    (e.served request [name]).served request names = e.served request (name :: names) := by
  have members : (e.members.map fun m => if m.name ∈ [name] then m.granted request else m).map
        (fun m => if m.name ∈ names then m.granted request else m) =
      e.members.map fun m => if m.name ∈ name :: names then m.granted request else m := by
    rw [List.map_map]
    refine List.map_congr_left fun m _ => ?_
    by_cases same : m.name = name
    · have named : (m.granted request).name ∉ names := fun mem => other (same ▸ mem)
      simp only [Function.comp_apply, same, List.mem_cons, true_or, if_true, if_neg named]
    · simp only [Function.comp_apply, same, List.mem_cons, List.not_mem_nil, or_false, false_or,
        if_false]
  have transcripts : names.map ((e.served request [name]).transcript request) =
      names.map (e.transcript request) := by
    refine List.map_congr_left fun n mem => ?_
    have apart : n ∉ [name] := fun same => other (List.mem_singleton.1 same ▸ mem)
    rw [transcript, reach_served, if_neg apart, transcript]
    rfl
  rw [served_eq, transcripts]
  simp only [served_eq, members, List.length_cons, List.length_nil, List.map_cons, List.map_nil,
    List.append_assoc, List.singleton_append, Nat.zero_add, Nat.add_assoc, Nat.add_comm 1]

theorem reply_served (request : Request) {n : Octets} (other : n ≠ name) :
    (e.served request [name]).reply request n = e.reply request n := by
  have apart : n ∉ [name] := fun same => other (List.mem_singleton.1 same)
  rw [reply, reach_served, if_neg apart, reply]

theorem Grants.mono {some_ : List Octets} (h : e.Grants request names) (sub : some_ ⊆ names) :
    e.Grants request some_ :=
  { h with willing := fun name mem => h.willing name (sub mem) }

theorem Grants.served (h : e.Grants request names) (other : name ∉ names) :
    (e.served request [name]).Grants request names where
  distinct := (names_served e request [name]).symm ▸ h.distinct
  faultless := h.faultless
  willing n mem a s reached := by
    have apart : n ∉ [name] := fun same => other (List.mem_singleton.1 same ▸ mem)
    rw [reach_served, if_neg apart] at reached
    exact h.willing n mem a s reached

end Electorate

namespace Campaign

variable {c : Campaign} {names : List Octets} {request : Request}

theorem broadcast_cons (name : Octets) (names : List Octets) (request : Request)
    (running : c.candidate.isShutDown = false) {response : Except Octets Response} {e : Electorate}
    (exchanged : exchange name request c = (response, { c with electorate := e })) :
    broadcast (name :: names) request c =
      let (replies, c') := broadcast names request { c with electorate := e }
      ({ acceptor := name, response } :: replies, c') := by
  rw [broadcast, List.mapM_cons]
  simp only [bind, StateT.bind, get, getThe, MonadStateOf.get, StateT.get, pure, StateT.pure,
    running, Bool.false_eq_true, if_false, exchanged]
  rfl

/-- A broadcast reaches whom it can, and they all grant it. -/
theorem broadcast_of_grants (distinct : names.Nodup) (grants : c.electorate.Grants request names)
    (running : c.candidate.isShutDown = false) :
    broadcast names request c =
      (names.map (c.electorate.reply request),
        { c with electorate := c.electorate.served request names }) := by
  induction names generalizing c with
  | nil =>
    rw [Electorate.served_nil]
    rfl
  | cons name names ih =>
    obtain ⟨other, distinct⟩ := List.nodup_cons.1 distinct
    have first := exchange_of_grants
      (grants.mono fun n mem => List.mem_singleton.1 mem ▸ List.mem_cons_self)
    have rest := ih (c := { c with electorate := c.electorate.served request [name] }) distinct
      ((grants.mono (List.subset_cons_self name names)).served other) running
    have replies : names.map ((c.electorate.served request [name]).reply request) =
        names.map (c.electorate.reply request) :=
      List.map_congr_left fun n mem =>
        Electorate.reply_served request fun same => other (same ▸ mem)
    rw [broadcast_cons name names request running first, rest]
    simp only [replies, Electorate.served_cons request other]
    rfl

end Campaign

/-! ## Both phases -/

namespace Electorate

variable {e : Electorate} {p : Proposal} {v : Token} {names : List Octets}

theorem collectPromises_reply (e : Electorate) (p : Proposal) (names : List Octets) :
    collectPromises p (names.map (e.reply (.propose p))) = .complete (e.votes p names) := by
  induction names with
  | nil => rfl
  | cons name names ih =>
    rw [List.map_cons, collectPromises, votes]
    cases reached : e.reach name with
    | none =>
      simp only [reply, reached, Bool.false_eq_true, if_false, List.filterMap_cons, Option.map_none]
      exact ih
    | some pair =>
      simp only [reply, reached, Bool.false_eq_true, if_false, List.filterMap_cons,
        Option.map_some, Acceptor.grant, Response.vote?, if_true]
      rw [ih]
      rfl

/-- Enough members in reach make a quorum. -/
theorem collectAcceptances_reply {q : Quorum} {policy : QuorumPolicy} {before : List Octets}
    (inReach : ∀ name ∈ names, (e.reach name).isSome) (short : before.length < q.need policy)
    (enough : q.need policy ≤ before.length + names.length) :
    ∃ accepters, collectAcceptances q policy p v before (names.map (e.reply (.accept p v))) =
      .complete { accepters, won := true } := by
  induction names generalizing before with
  | nil => exact absurd enough (Nat.not_le.2 short)
  | cons name names ih =>
    obtain ⟨first, rest⟩ := List.forall_mem_cons.1 inReach
    obtain ⟨pair, reached⟩ := Option.isSome_iff_exists.1 first
    rw [List.map_cons, collectAcceptances]
    simp only [reply, reached, Bool.false_eq_true, if_false, Acceptor.grant, Response.accepts,
      decide_true, Bool.and_true, if_true]
    split
    · exact ⟨_, rfl⟩
    next unmet =>
      refine ih rest ?_ ?_
      · exact Nat.lt_of_not_le fun met => unmet (Int.ofNat_le.2 met)
      · rw [List.length_append]
        rw [List.length_cons] at enough
        simp only [List.length_cons, List.length_nil]
        omega

theorem voters_eq (e : Electorate) (p : Proposal) (names : List Octets) :
    (e.votes p names).map (·.acceptor) = names.filter fun name => (e.reach name).isSome := by
  induction names with
  | nil => rfl
  | cons name names ih =>
    rw [votes] at ih ⊢
    cases reached : e.reach name with
    | none =>
      rw [List.filterMap_cons_none (by rw [reached]; rfl), ih,
        List.filter_cons_of_neg (by simp [reached])]
    | some pair =>
      rw [List.filterMap_cons_some (by rw [reached]; rfl), List.map_cons, ih,
        List.filter_cons_of_pos (by simp [reached])]

/-- There are as many votes as members in reach. -/
theorem length_votes (distinct : e.names.Nodup) (perm : names.Perm e.names) (p : Proposal) :
    (e.votes p names).length = e.reachable := by
  have members : ∀ m ∈ e.members, (e.reach m.name).isSome = m.reachable.isSome := fun m mem => by
    rw [reach_of_mem distinct mem]
  calc (e.votes p names).length
      = ((e.votes p names).map (·.acceptor)).length := (List.length_map _).symm
    _ = names.countP fun name => (e.reach name).isSome := by
        rw [voters_eq, List.countP_eq_length_filter]
    _ = e.names.countP fun name => (e.reach name).isSome := perm.countP_eq _
    _ = e.members.countP fun m => (e.reach m.name).isSome := List.countP_map ..
    _ = e.reachable := List.countP_congr fun m mem => by rw [members m mem]

end Electorate

namespace Campaign

/-- Whether nothing stands in the way of a proposer that draws this proposal. -/
structure Clear (c : Campaign) (p : Proposal) : Prop where
  distinct : c.electorate.names.Nodup
  faultless : c.electorate.faults = []
  running : c.candidate.isShutDown = false
  undecided : c.retry.concluded = false
  drawn : c.candidate.next.1 = p
  /-- Every member in reach is of the group and has promised nothing as high. -/
  above : ∀ m ∈ c.electorate.members, ∀ a s, m.reachable = some (a, s) →
    a.group = c.electorate.group ∧ ∀ top, a.promised = some top → top < p

variable {c : Campaign} {p : Proposal} {v : Token} {schedule : Schedule} {q : Quorum}
  {policy : QuorumPolicy}

/-- The members have promised. -/
def promised (schedule : Schedule) (c : Campaign) (p : Proposal) : Campaign :=
  { c with
    electorate :=
      c.electorate.served (.propose p) (schedule.order c.electorate.names (.propose p))
    candidate := c.candidate.next.2 }

/-- The votes of the members, in the order in which they come. -/
def votes (schedule : Schedule) (c : Campaign) (p : Proposal) : List Vote :=
  c.electorate.votes p (schedule.order c.electorate.names (.propose p))

theorem running_next (c : Candidate) : c.next.2.isShutDown = c.isShutDown := by
  obtain ⟨upcoming, _, _, _⟩ := c
  cases upcoming <;> rfl

theorem Clear.grants_propose (clear : c.Clear p) (names : List Octets) :
    c.electorate.Grants (.propose p) names where
  distinct := clear.distinct
  faultless := clear.faultless
  willing name _ a s reached := by
    obtain ⟨m, found, reachable⟩ := Option.bind_eq_some_iff.1 reached
    exact clear.above m (List.mem_of_find?_eq_some found) a s reachable

/-- The order of a broadcast to distinct members names each of them once. -/
theorem nodup_order (schedule : Schedule) {names : List Octets} (distinct : names.Nodup)
    (request : Request) : (schedule.order names request).Nodup :=
  (schedule.perm names request).nodup_iff.2 distinct

/-- The first phase brings the votes of all members in reach. -/
theorem round_of_clear (schedule : Schedule) (clear : c.Clear p)
    (enough : q.need policy ≤ c.electorate.reachable) :
    Proposer.round (environmentIn schedule) q policy c.electorate.names c =
      Proposer.afterPromises (environmentIn schedule) q policy p (votes schedule c p)
        (promised schedule c p) := by
  let drawn : Campaign := { c with candidate := c.candidate.next.2 }
  have sent : (environmentIn schedule).broadcast c.electorate.names (.propose p) drawn =
      ((schedule.order c.electorate.names (.propose p)).map (c.electorate.reply (.propose p)),
        promised schedule c p) :=
    broadcast_of_grants (c := drawn) (nodup_order schedule clear.distinct _)
      (clear.grants_propose _) ((running_next c.candidate).trans clear.running)
  have met : q.Met policy (votes schedule c p).length := by
    rw [votes, Electorate.length_votes clear.distinct (schedule.perm _ _)]
    exact Int.ofNat_le.2 enough
  have asked : (environmentIn schedule).cancelled c = (false, c) :=
    congrArg (·, c) clear.running
  have draws : (environmentIn schedule).nextProposal c = (p, drawn) :=
    congrArg (·, drawn) clear.drawn
  rw [Proposer.round, bind_eq_of_eq asked]
  simp only [Bool.false_eq_true, if_false]
  rw [bind_eq_of_eq draws, bind_eq_of_eq sent, Electorate.collectPromises_reply]
  exact congrFun (if_pos met) _

/-- The targets of the second phase, in the order in which they accept. -/
def targets (schedule : Schedule) (c : Campaign) (p : Proposal) (v : Token) : List Octets :=
  schedule.order ((votes schedule c p).map (·.acceptor)) (.accept p v)

/-- Just the members in reach are targets. -/
theorem mem_targets {name : Octets} :
    name ∈ targets schedule c p v ↔
      name ∈ c.electorate.names ∧ (c.electorate.reach name).isSome := by
  rw [targets, (schedule.perm _ _).mem_iff, votes, Electorate.voters_eq, List.mem_filter,
    (schedule.perm _ _).mem_iff]

/-- Whoever has promised a proposal may accept it. -/
theorem Clear.grants_accept (clear : c.Clear p) (schedule : Schedule) (v : Token) :
    (promised schedule c p).electorate.Grants (.accept p v) (targets schedule c p v) where
  distinct := (Electorate.names_served ..).symm ▸ clear.distinct
  faultless := clear.faultless
  willing name mem a s reached := by
    have asked : name ∈ schedule.order c.electorate.names (.propose p) :=
      (schedule.perm _ _).mem_iff.2 (mem_targets.1 mem).1
    rw [promised, Electorate.reach_served, if_pos asked] at reached
    obtain ⟨⟨a₀, s₀⟩, before, same⟩ := Option.map_eq_some_iff.1 reached
    cases same
    refine ⟨((clear.grants_propose [name]).willing name (List.mem_singleton_self name) a₀ s
      before).1, ?_⟩
    rintro top ⟨⟩
    exact Std.le_refl p

/-- The members have accepted. -/
def accepted (schedule : Schedule) (c : Campaign) (p : Proposal) (v : Token) : Campaign :=
  { promised schedule c p with
    electorate :=
      (promised schedule c p).electorate.served (.accept p v) (targets schedule c p v) }

theorem acceptPhase_of_clear (clear : c.Clear p)
    (enough : q.need policy ≤ c.electorate.reachable) :
    Proposer.acceptPhase (environmentIn schedule) q policy p v (votes schedule c p)
      (promised schedule c p) = ((.won p v, {}), accepted schedule c p v) := by
  have voters_distinct : ((votes schedule c p).map (·.acceptor)).Nodup := by
    rw [votes, Electorate.voters_eq]
    exact (nodup_order schedule clear.distinct _).filter _
  have sent : (environmentIn schedule).broadcast ((votes schedule c p).map (·.acceptor))
        (.accept p v) (promised schedule c p) =
      ((targets schedule c p v).map ((promised schedule c p).electorate.reply (.accept p v)),
        accepted schedule c p v) :=
    broadcast_of_grants (nodup_order schedule voters_distinct _) (clear.grants_accept schedule v)
      ((running_next c.candidate).trans clear.running)
  -- Only members that have promised are asked, so all of them are in reach.
  have inReach : ∀ name ∈ targets schedule c p v,
      ((promised schedule c p).electorate.reach name).isSome := by
    intro name mem
    have asked : name ∈ schedule.order c.electorate.names (.propose p) :=
      (schedule.perm _ _).mem_iff.2 (mem_targets.1 mem).1
    rw [promised, Electorate.reach_served, if_pos asked, Option.isSome_map]
    exact (mem_targets.1 mem).2
  have count : (targets schedule c p v).length = c.electorate.reachable := by
    rw [targets, (schedule.perm _ _).length_eq, List.length_map, votes,
      Electorate.length_votes clear.distinct (schedule.perm _ _)]
  have short : ([] : List Octets).length < q.need policy := by
    have := q.groupSize_pos
    rw [List.length_nil]
    cases policy with
    | simpleMajority =>
      rw [Quorum.need]
      split <;> omega
    | all => exact this
  obtain ⟨accepters, collected⟩ :=
    Electorate.collectAcceptances_reply inReach short (by rw [List.length_nil, count]; omega)
  rw [Proposer.acceptPhase, bind_eq_of_eq sent, collected]
  rfl

/-- Everybody in reach has promised and accepted, and nobody else has done anything. -/
theorem members_accepted (clear : c.Clear p) (schedule : Schedule) (v : Token) :
    (accepted schedule c p v).electorate.members =
      c.electorate.members.map (·.granted (.accept p v)) := by
  rw [accepted, Electorate.served_eq, promised, Electorate.served_eq, List.map_map]
  refine List.map_congr_left fun m mem => ?_
  have named : m.name ∈ c.electorate.names := List.mem_map_of_mem mem
  have asked : m.name ∈ schedule.order c.electorate.names (.propose p) :=
    (schedule.perm _ _).mem_iff.2 named
  have target : m.name ∈ targets schedule c p v ↔ m.reachable.isSome := by
    rw [mem_targets, Electorate.reach_of_mem clear.distinct mem]
    exact and_iff_right named
  have promises : (m.granted (.propose p)).name = m.name := rfl
  rw [Function.comp_apply, if_pos asked, promises]
  -- Just the members in reach have promised, and are asked to accept.
  split
  next => rw [Member.granted, Member.granted, Option.map_map]; rfl
  next other =>
    have away : m.reachable = none := by
      simpa using mt target.2 other
    rw [Member.granted, Member.granted, away]
    rfl

theorem members_promised (schedule : Schedule) (c : Campaign) (p : Proposal) :
    (promised schedule c p).electorate.members =
      c.electorate.members.map (·.granted (.propose p)) := by
  rw [promised, Electorate.served_eq]
  refine List.map_congr_left fun m mem => if_pos ?_
  exact (schedule.perm _ _).mem_iff.2 (List.mem_map_of_mem mem)

/-- A round with nothing in its way is won at once, or finds no value to propose. -/
theorem round_eq_of_clear (schedule : Schedule) (clear : c.Clear p)
    (enough : q.need policy ≤ c.electorate.reachable) :
    Proposer.round (environmentIn schedule) q policy c.electorate.names c =
      match chooseMaster (votes schedule c p) with
      | some v =>
        ((.won p v, { promiseCount := .ofNat c.electorate.reachable }), accepted schedule c p v)
      | none =>
        ((.failed, { promiseCount := .ofNat c.electorate.reachable, phase1NoNonZeroPrio := 1 }),
          promised schedule c p) := by
  have count : (votes schedule c p).length = c.electorate.reachable :=
    Electorate.length_votes clear.distinct (schedule.perm _ _) p
  have undecided : (environmentIn schedule).concluded (promised schedule c p) =
      (false, promised schedule c p) := congrArg (·, promised schedule c p) clear.undecided
  have chosen : (environmentIn schedule).choose (votes schedule c p) (promised schedule c p) =
      (chooseMaster (votes schedule c p), promised schedule c p) := rfl
  rw [round_of_clear schedule clear enough, Proposer.afterPromises, bind_eq_of_eq undecided]
  simp only [Bool.false_eq_true, if_false]
  rw [bind_eq_of_eq chosen]
  cases chooseMaster (votes schedule c p) with
  | none =>
    have counted (n : Int32) : ({ promiseCount := n } : Counters) + { phase1NoNonZeroPrio := 1 } =
        { promiseCount := n, phase1NoNonZeroPrio := 1 } := by
      change Counters.mk _ _ _ _ _ _ _ = _
      simp only [Int32.add_zero, Int32.zero_add]
    rw [count, counted]
    rfl
  | some v =>
    dsimp only
    rw [bind_eq_of_eq undecided]
    simp only [Bool.false_eq_true, if_false]
    rw [bind_eq_of_eq (acceptPhase_of_clear clear enough), count]
    dsimp only
    rw [Counters.add_zero]
    rfl

/-- A proposer that is alone wins in its first round, with the votes of all members in reach,
    which then have all promised and accepted; unless their promises call for no value, when
    they have only promised and the next round begins. -/
theorem run_of_clear (schedule : Schedule) (q : Quorum) (policy : QuorumPolicy) {c : Campaign}
    {p : Proposal} (clear : c.Clear p) (fresh : c.retry.started = false ∧ c.retry.retries = 0)
    (enough : q.need policy ≤ c.electorate.reachable) (fuel : Nat) :
    let run := Proposer.run (environmentIn schedule) q policy c.electorate.names
    let votes := c.electorate.votes p (schedule.order c.electorate.names (.propose p))
    match chooseMaster votes with
    | some v => ∃ c',
        run (fuel + 1) {} c =
          (some (.won p v { promiseCount := .ofNat c.electorate.reachable }), c') ∧
        c'.electorate.members = c.electorate.members.map fun m =>
          { m with reachable := m.reachable.map fun (a, s) =>
            ({ a with promised := some p, accepted := some (p, v) }, s) }
    | none => ∃ c' sent,
        run (fuel + 1) {} c =
          run fuel { promiseCount := .ofNat c.electorate.reachable, phase1NoNonZeroPrio := 1 } c' ∧
        c'.electorate.members = c.electorate.members.map (fun m =>
          { m with reachable := m.reachable.map fun (a, s) =>
            ({ a with promised := some p }, s) }) ∧
        c'.electorate.transcripts = c.electorate.transcripts ++ sent ∧
        ∀ t ∈ sent, t.request = Record.formatRequest c.electorate.group (.propose p) := by
  intro run votes
  let begun : Campaign := { c with retry := { c.retry with started := true } }
  have clear' : begun.Clear p := { clear with }
  -- The first round is free, whatever the limit on retries.
  have goes : (environmentIn schedule).retry c = (true, begun) := by
    have next : c.retry.next = (true, { c.retry with started := true }) := by
      simp only [Retry.next, clear.undecided, fresh.1, Bool.false_eq_true, if_false,
        not_false_eq_true, if_true]
    change ((c.retry.next).1, { c with retry := (c.retry.next).2 }) = _
    rw [next]
  have round := round_eq_of_clear schedule clear' enough
  have same : Campaign.votes schedule begun p = votes := rfl
  rw [same] at round
  simp only [run, Proposer.run]
  rw [bind_eq_of_eq goes]
  simp only [Bool.not_true, Bool.false_eq_true, if_false]
  cases chosen : chooseMaster votes with
  | some v =>
    rw [chosen] at round
    have counted : (environmentIn schedule).retries (accepted schedule begun p v) =
        (0, accepted schedule begun p v) := congrArg (·, accepted schedule begun p v) fresh.2
    refine ⟨accepted schedule begun p v, ?_, members_accepted clear' schedule v⟩
    rw [bind_eq_of_eq round]
    dsimp only
    rw [bind_eq_of_eq counted]
    rw [Counters.zero_add]
    rfl
  | none =>
    rw [chosen] at round
    refine ⟨promised schedule begun p,
      (schedule.order c.electorate.names (.propose p)).map (c.electorate.transcript (.propose p)),
      ?_, members_promised schedule begun p, rfl, ?_⟩
    · rw [bind_eq_of_eq round]
      dsimp only
      rw [Counters.zero_add]
    · intro t mem
      obtain ⟨name, -, rfl⟩ := List.mem_map.1 mem
      rfl

/-! ## Three members, one of them out of reach -/

/-- A member in reach that holds this pair, and would rather have its own value. -/
def holding (name : Octets) (held : Option (Proposal × Token)) : Member where
  name := name
  reachable := some (
    { group := .empty, promised := held.map (·.1), accepted := held },
    { value := .blanked [66], ranking := { vlsn := 7, priority := 1 } })

/-- One of the members has accepted a value before. -/
def alone : Campaign where
  electorate :=
    { group := .empty
      members := [holding [1] none, { name := [2], reachable := none },
        holding [3] (some ({ time := 1, suffix := .empty }, .blanked [65]))] }
  candidate := { upcoming := [{ time := 2, suffix := .empty }] }
  retry := { maxRetries := 0 }

/-- Its value is elected, whatever the other member suggests. -/
theorem run_of_clear_alone :
    let p : Proposal := { time := 2, suffix := .empty }
    let v : Token := .blanked [65]
    let q : Quorum := { groupSize := 3 }
    alone.Clear p ∧ (alone.retry.started = false ∧ alone.retry.retries = 0) ∧
      q.need .simpleMajority ≤ alone.electorate.reachable ∧
      ∃ c', Proposer.run (environmentIn .reverse) q .simpleMajority alone.electorate.names 1 {}
          alone = (some (.won p v { promiseCount := 2 }), c') ∧
        c'.electorate.members = alone.electorate.members.map fun m =>
          { m with reachable := m.reachable.map fun (a, s) =>
            ({ a with promised := some p, accepted := some (p, v) }, s) } := by
  intro p v q
  have clear : alone.Clear p := by
    refine ⟨by decide, rfl, rfl, rfl, rfl, ?_⟩
    simp only [alone, List.forall_mem_cons]
    refine ⟨?_, ?_, ?_, fun m mem => absurd mem List.not_mem_nil⟩
    · rintro a s ⟨⟩
      refine ⟨rfl, ?_⟩
      rintro top ⟨⟩
    · rintro a s ⟨⟩
    · rintro a s ⟨⟩
      refine ⟨rfl, ?_⟩
      rintro top ⟨⟩
      decide
  have fresh : alone.retry.started = false ∧ alone.retry.retries = 0 := ⟨rfl, rfl⟩
  have enough : q.need .simpleMajority ≤ alone.electorate.reachable := by decide
  exact ⟨clear, fresh, enough, run_of_clear .reverse q .simpleMajority clear fresh enough 0⟩

end Campaign

end Replication.Election
