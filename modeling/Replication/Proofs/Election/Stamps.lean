import Mathlib.Data.List.Induction
import Mathlib.Data.List.Nodup
import Replication.Election.Drawing
import Replication.Proofs.Election.Invariant
import Replication.Proofs.Octets.Numerals
import Replication.Proofs.Tables

/-! # Stamps ascend

A stamp is drawn by an exchange for the last one, and what was offered is ahead of that.  So the
stamps of a process ascend in the order of the exchanges, whatever the clock reads and however
stale an offer may be, as long as there are stamps left: the last one is ahead of the clock by no
more than the number of calls.
-/

namespace Replication.Election

/-! ## Offers -/

namespace Draw

variable {last now : UInt64}

/-- An offer is ahead of the stamp that was loaded, unless that is the last of all. -/
theorem lt_candidate (room : last.toNat + 1 < 2 ^ 64) : last < candidate last now := by
  rw [candidate]
  split
  · rw [UInt64.lt_iff_toNat_lt, UInt64.toNat_add, UInt64.toNat_one, Nat.mod_eq_of_lt room]
    exact Nat.lt_succ_self _
  next ahead => exact UInt64.not_le.1 ahead

/-- It is the reading of the clock, or one more than the stamp at most. -/
theorem toNat_candidate_le {bound : Nat} (read : now.toNat ≤ bound) (loaded : last.toNat < bound) :
    (candidate last now).toNat ≤ bound := by
  rw [candidate]
  split
  · rw [UInt64.toNat_add, UInt64.toNat_one]
    exact Nat.le_trans (Nat.mod_le _ _) loaded
  · exact read

end Draw

/-- Of two proposals the one with the smaller stamp comes first, whatever their suffixes. -/
theorem Proposal.lt_of_time_lt {a b : Proposal} (below : a.time < b.time) : a < b := by
  have times : compare a.time b.time = .lt := Std.compare_eq_lt.2 below
  show cmp a b = .lt
  rw [cmp, times]
  rfl

/-! ## Suffixes -/

/-- The suffix of a node has eight digits, which tell the node. -/
theorem Generator.nodeSuffix_eq (node : Int32) : (nodeSuffix node).length = 8 ∧
    Hexadecimal.value? (nodeSuffix node) = some node.toUInt32.toNat := by
  refine ⟨Hexadecimal.length_render _ _, ?_⟩
  have small : node.toUInt32.toNat < 16 ^ 8 := node.toUInt32.toNat_lt
  rw [nodeSuffix, Hexadecimal.value?_render, Nat.mod_eq_of_lt small]

theorem Generator.exists_ofNode (node : Int32) :
    ∃ g, ofNode node = .ok g ∧ g.suffix.text = nodeSuffix node := by
  have plain : separator ∉ nodeSuffix node := Hexadecimal.not_mem_render (by decide) _ _
  refine ⟨⟨⟨nodeSuffix node, plain⟩⟩, ?_, rfl⟩
  rw [ofNode, Token.ofText, Token.ofText?, dif_pos plain]
  rfl

/-- Whatever its kind, a source of a node draws with the suffix of the node. -/
theorem SourceKind.exists_make (kind : SourceKind) (node : Int32) :
    ∃ s, kind.make node = .ok s ∧ s.generator.suffix.text = Generator.nodeSuffix node := by
  obtain ⟨g, made, suffix⟩ := Generator.exists_ofNode node
  cases kind with
  | plain => exact ⟨.plain g, by rw [make, made]; rfl, suffix⟩
  | strategy => exact ⟨.strategy ⟨g⟩, by rw [make, MasterStrategy.ofNode, made]; rfl, suffix⟩

namespace Process

variable {p p' : Process} {a : Action} {actions : List Action} {caller : Nat} {call : Drawing}

/-! ## Steps -/

/-- What an action can come to. -/
inductive Step (p : Process) : Action → Process → Prop where
  | idle {a : Action} (plain : a.node? = none) : Step p a p
  | create {kind : SourceKind} {node : Int32} {source : Source}
      (made : source.generator.suffix.text = Generator.nodeSuffix node) :
      Step p (.create kind node) { p with sources := p.sources ++ [source] }
  | discard {i : Nat} : Step p (.discard i) { p with discarded := i :: p.discarded }
  | load {caller i : Nat} {source : Source} (there : p.sources[i]? = some source)
      (free : p.calls.get? caller = none) :
      Step p (.load caller i)
        { p with
          calls := p.calls.insert caller
            { source := i, generator := source.generator, draw := .loaded p.shared }
          begun := p.begun + 1 }
  | readClock {caller : Nat} {call : Drawing} {now last : UInt64}
      (underway : p.calls.get? caller = some call) (loaded : call.draw = .loaded last) :
      Step p (.readClock caller now)
        { p.proceed caller (.offering last (Draw.candidate last now)) with
          readings := now :: p.readings }
  | retry {caller : Nat} {call : Drawing} {spurious : Bool}
      (underway : p.calls.get? caller = some call) :
      Step p (.exchange caller spurious) (p.proceed caller (.loaded p.shared))
  | draw {caller : Nat} {call : Drawing} {spurious : Bool} {stamp : UInt64}
      (underway : p.calls.get? caller = some call)
      (offered : call.draw = .offering p.shared stamp) :
      Step p (.exchange caller spurious) { p.finish caller call stamp with shared := stamp }

theorem step_spec (p : Process) (a : Action) : Step p a (p.step a) := by
  cases a with
  | create kind node =>
    obtain ⟨source, made, suffix⟩ := kind.exists_make node
    rw [step, made]
    exact .create suffix
  | discard i =>
    rw [step]
    split
    · exact .discard
    · exact .idle rfl
  | load caller i =>
    rw [step]
    split
    next source there free =>
      refine .load ?_ free
      rw [source?] at there
      split at there
      · cases there
      · exact there
    next => exact .idle rfl
  | readClock caller now =>
    rw [step]
    split
    next underway => exact .readClock underway rfl
    next => exact .idle rfl
  | exchange caller spurious =>
    rw [step]
    split
    next last next underway =>
      -- An exchange draws only if the last stamp is still there, and may fail even then.
      by_cases holds : p.shared = last ∧ ¬ spurious
      · obtain ⟨rfl, -⟩ := id holds
        rw [Draw.exchange, if_pos holds]
        exact .draw underway rfl
      · rw [Draw.exchange, if_neg holds]
        exact .retry underway
    next => exact .idle rfl

theorem run_concat (actions : List Action) (a : Action) :
    run (actions ++ [a]) = (run actions).step a :=
  List.foldl_concat ..

/-- What every step keeps holds of every run. -/
theorem run_induction {P : List Action → Process → Prop} (begins : P [] start)
    (goesOn : ∀ actions a p p', P actions p → Step p a p' → P (actions ++ [a]) p')
    (actions : List Action) : P actions (run actions) := by
  induction actions using List.reverseRecOn with
  | nil => exact begins
  | append_singleton actions a ih =>
    rw [run_concat]
    exact goesOn actions a _ _ ih (step_spec _ a)

/-! ## Where proposals come from -/

/-- Whether a suffix is that of the node which a source was created for. -/
def Signs (nodes : List Int32) (source : Nat) (suffix : Token) : Prop :=
  ∃ node, nodes[source]? = some node ∧ suffix.text = Generator.nodeSuffix node

theorem Signs.append {nodes : List Int32} {source : Nat} {suffix : Token}
    (h : Signs nodes source suffix) (more : List Int32) : Signs (nodes ++ more) source suffix := by
  obtain ⟨node, at_, same⟩ := h
  have bound := (List.getElem?_eq_some_iff.1 at_).1
  exact ⟨node, (List.getElem?_append_left bound).trans at_, same⟩

/-- Whether all sources of a process, and all that is drawn from them, have the suffixes of the
    nodes that they were created for. -/
structure Signed (nodes : List Int32) (p : Process) : Prop where
  length : p.sources.length = nodes.length
  sources : ∀ i source, p.sources[i]? = some source → Signs nodes i source.generator.suffix
  calls : ∀ caller call, p.calls.get? caller = some call →
    Signs nodes call.source call.generator.suffix
  drawn : ∀ d ∈ p.drawn, Signs nodes d.source d.proposal.suffix

theorem Signed.create {nodes : List Int32} (h : Signed nodes p) {node : Int32} {source : Source}
    (made : source.generator.suffix.text = Generator.nodeSuffix node) :
    Signed (nodes ++ [node]) { p with sources := p.sources ++ [source] } where
  length := by rw [List.length_append, List.length_append, h.length]; rfl
  sources i other at_ := by
    rcases Contest.getElem?_concat_cases at_ with before | ⟨rfl, rfl⟩
    · exact (h.sources i other before).append _
    · exact ⟨node, by rw [h.length, List.getElem?_concat_length], made⟩
  calls caller call underway := (h.calls caller call underway).append _
  drawn d mem := (h.drawn d mem).append _

theorem Signed.proceed {nodes : List Int32} (h : Signed nodes p) (caller : Nat) (draw : Draw) :
    Signed nodes (p.proceed caller draw) where
  length := h.length
  sources := h.sources
  calls other call underway := by
    rw [Process.proceed, Table.get?_update] at underway
    split at underway
    · obtain ⟨before, found, rfl⟩ := Option.map_eq_some_iff.1 underway
      exact h.calls other before found
    · exact h.calls other call underway
  drawn := h.drawn

theorem Signed.finish {nodes : List Int32} (h : Signed nodes p)
    (underway : p.calls.get? caller = some call) (stamp : UInt64) :
    Signed nodes (p.finish caller call stamp) where
  length := h.length
  sources := h.sources
  calls other call' still := by
    rw [Process.finish, Table.get?_erase] at still
    split at still
    · cases still
    · exact h.calls other call' still
  drawn d mem := by
    rcases List.mem_append.1 mem with before | last
    · exact h.drawn d before
    · rw [List.mem_singleton.1 last]
      exact h.calls caller call underway

theorem Signed.load {nodes : List Int32} (h : Signed nodes p) {i : Nat} {source : Source}
    (there : p.sources[i]? = some source) (draw : Draw) (begun : Nat) :
    Signed nodes
      { p with
        calls := p.calls.insert caller { source := i, generator := source.generator, draw }
        begun } where
  length := h.length
  sources := h.sources
  calls other call underway := by
    rw [Table.get?_insert] at underway
    split at underway
    · cases underway
      exact h.sources i source there
    · exact h.calls other call underway
  drawn := h.drawn

theorem Signed.step {nodes : List Int32} (h : Signed nodes p) (s : Step p a p') :
    Signed (nodes ++ a.node?.toList) p' := by
  have same (plain : a.node? = none) : nodes ++ a.node?.toList = nodes := by
    rw [plain, Option.toList_none, List.append_nil]
  cases s with
  | idle plain =>
    rw [same plain]
    exact h
  | create made => exact h.create made
  | discard =>
    rw [same rfl]
    exact ⟨h.length, h.sources, h.calls, h.drawn⟩
  | load there free =>
    rw [same rfl]
    exact h.load there _ _
  | @readClock caller call now last underway loaded =>
    have read := h.proceed caller (.offering last (Draw.candidate last now))
    rw [same rfl]
    exact ⟨read.length, read.sources, read.calls, read.drawn⟩
  | retry underway =>
    rw [same rfl]
    exact h.proceed _ _
  | @draw caller call spurious stamp underway offered =>
    have drew := h.finish underway stamp
    rw [same rfl]
    exact ⟨drew.length, drew.sources, drew.calls, drew.drawn⟩

theorem signed_run (actions : List Action) : Signed (nodes actions) (run actions) := by
  refine run_induction (P := fun actions p => Signed (nodes actions) p) ?begins ?goesOn actions
  case begins => exact ⟨rfl, nofun, nofun, nofun⟩
  case goesOn =>
    intro actions a p p' h s
    have more : nodes (actions ++ [a]) = nodes actions ++ a.node?.toList := by
      rw [nodes, List.filterMap_append, List.filterMap_cons, List.filterMap_nil]
      cases a.node? <;> rfl
    rw [more]
    exact h.step s

/-! ## How far the last stamp is ahead of the clock -/

/-- Whether no reading of the clock reaches 2^64 together with the number of calls. -/
def Bounded (p : Process) : Prop :=
  ∀ now ∈ p.readings, now.toNat + p.begun < 2 ^ 64

/-- What goes on from a bounded process was bounded before. -/
theorem Step.bounded (s : Step p a p') (bounded : p'.Bounded) : p.Bounded := by
  cases s with
  | idle | create | discard | retry | draw => exact bounded
  | load there free =>
    intro now mem
    have room := bounded now mem
    dsimp only at room
    omega
  | readClock underway loaded => exact fun now mem => bounded now (List.mem_cons_of_mem _ mem)

/-- How offers and stamps depend on the clock: an offer was made at some reading, and the last
    stamp is ahead of the clock by no more than was drawn. -/
structure Paced (p : Process) : Prop where
  offers : ∀ caller call last next, p.calls.get? caller = some call →
    call.draw = .offering last next → ∃ now ∈ p.readings, next = Draw.candidate last now
  counted : p.drawn.length + p.calls.entries.length ≤ p.begun
  close : ∀ bound, (∀ now ∈ p.readings, now.toNat ≤ bound) →
    p.shared.toNat ≤ bound + p.drawn.length

/-- An offer that may hold is made at some reading of the clock, and is not the last stamp that
    there is. -/
theorem Paced.offer (h : Paced p) (bounded : p.Bounded)
    (underway : p.calls.get? caller = some call) {stamp : UInt64}
    (offered : call.draw = .offering p.shared stamp) :
    ∃ now ∈ p.readings, stamp = Draw.candidate p.shared now ∧ p.shared.toNat + 1 < 2 ^ 64 := by
  obtain ⟨now, mem, made⟩ := h.offers caller call _ _ underway offered
  have counted := h.counted
  have some_ : 0 < p.calls.entries.length :=
    List.length_pos_of_mem (Table.get?_eq_some_iff.1 underway)
  have room := bounded now mem
  have close := h.close (2 ^ 64 - 1 - p.begun) fun other mem => by
    have := bounded other mem
    omega
  exact ⟨now, mem, made, by omega⟩

theorem Paced.proceed (h : Paced p) {draw : Draw} {readings : List UInt64}
    (kept : ∀ now ∈ p.readings, now ∈ readings)
    (made : ∀ last next, draw = .offering last next →
      ∃ now ∈ readings, next = Draw.candidate last now) :
    Paced { p.proceed caller draw with readings } where
  offers other call last next underway offering := by
    dsimp only [Process.proceed] at underway ⊢
    rw [Table.get?_update] at underway
    split at underway
    · obtain ⟨before, -, rfl⟩ := Option.map_eq_some_iff.1 underway
      exact made last next offering
    · obtain ⟨now, mem, same⟩ := h.offers other call last next underway offering
      exact ⟨now, kept now mem, same⟩
  counted := by
    dsimp only [Process.proceed]
    rw [Table.length_update]
    exact h.counted
  close bound read := h.close bound fun now mem => read now (kept now mem)

theorem Paced.step (h : Paced p) (s : Step p a p') (bounded : p.Bounded) : Paced p' := by
  cases s with
  | idle => exact h
  | create | discard => exact ⟨h.offers, h.counted, h.close⟩
  | @load caller i source there free =>
    constructor
    case offers =>
      intro other call last next underway offering
      rw [Table.get?_insert] at underway
      split at underway
      · cases underway
        cases offering
      · exact h.offers other call last next underway offering
    case counted =>
      have more := Table.length_insert_le p.calls caller
        { source := i, generator := source.generator, draw := .loaded p.shared }
      have counted := h.counted
      dsimp only
      omega
    case close => exact h.close
  | readClock underway loaded =>
    refine h.proceed (fun _ mem => List.mem_cons_of_mem _ mem) fun last next offering => ?_
    cases offering
    exact ⟨_, List.mem_cons_self, rfl⟩
  | retry underway =>
    have same : ∀ now ∈ p.readings, now ∈ p.readings := fun _ mem => mem
    refine h.proceed same fun last next offering => ?_
    cases offering
  | @draw caller call spurious stamp underway offered =>
    -- The call gives way to the stamp it has drawn, so the count of both does not grow; and the
    -- stamp is its reading, or the one next to the last stamp.
    obtain ⟨now, mem, rfl, room⟩ := h.offer bounded underway offered
    constructor
    case offers =>
      intro other call' last next still offering
      dsimp only [Process.finish] at still ⊢
      rw [Table.get?_erase] at still
      split at still
      · cases still
      · exact h.offers other call' last next still offering
    case counted =>
      have fewer := Table.length_erase_lt underway
      have counted := h.counted
      dsimp only [Process.finish]
      rw [List.length_append, List.length_singleton]
      omega
    case close =>
      intro bound read
      have close := h.close bound read
      dsimp only [Process.finish]
      rw [List.length_append, List.length_singleton]
      exact Draw.toNat_candidate_le (Nat.le_add_right_of_le (read now mem)) (by omega)

/-- Whether all stamps ascend, up to the last one. -/
structure Ascending (p : Process) : Prop where
  drawn : p.drawn.Pairwise fun a b => a.proposal.time < b.proposal.time
  last : ∀ d ∈ p.drawn, d.proposal.time ≤ p.shared

theorem Ascending.step (h : Ascending p) (paced : Paced p) (s : Step p a p')
    (bounded : p.Bounded) : Ascending p' := by
  cases s with
  | idle | create | discard | load | readClock | retry => exact ⟨h.drawn, h.last⟩
  | @draw caller call spurious stamp underway offered =>
    obtain ⟨now, -, rfl, room⟩ := paced.offer bounded underway offered
    have ahead : p.shared < Draw.candidate p.shared now := Draw.lt_candidate room
    constructor
    case drawn =>
      refine List.pairwise_append.2 ⟨h.drawn, List.pairwise_singleton _ _, fun d before e new => ?_⟩
      rw [List.mem_singleton.1 new]
      exact UInt64.lt_of_le_of_lt (h.last d before) ahead
    case last =>
      intro d mem
      rcases List.mem_append.1 mem with before | new
      · exact UInt64.le_of_lt (UInt64.lt_of_le_of_lt (h.last d before) ahead)
      · rw [List.mem_singleton.1 new]
        exact UInt64.le_refl _

theorem ascending_run (actions : List Action) :
    (run actions).Bounded → Paced (run actions) ∧ Ascending (run actions) := by
  refine run_induction (P := fun _ p => p.Bounded → Paced p ∧ Ascending p) ?begins ?goesOn actions
  case begins => exact fun _ => ⟨⟨nofun, Nat.le_refl _, fun _ _ => Nat.zero_le _⟩, .nil, nofun⟩
  case goesOn =>
    intro actions a p p' ih s bounded
    have before := s.bounded bounded
    obtain ⟨paced, ascending⟩ := ih before
    exact ⟨paced.step s before, ascending.step paced s before⟩

/-! ## What is drawn -/

/-- A call that nobody disturbs draws what its generator does on its own. -/
theorem foldl_step_alone {i : Nat} {source : Source} (there : p.source? i = some source)
    (free : p.calls.get? caller = none) (now : UInt64) :
    ([.load caller i, .readClock caller now, .exchange caller false].foldl step p).drawn =
        p.drawn ++ [{ caller, source := i, proposal := (source.generator.next p.shared now).1 }] ∧
      ([.load caller i, .readClock caller now, .exchange caller false].foldl step p).shared =
        (source.generator.next p.shared now).2 := by
  simp [step, proceed, finish, there, free, Draw.readClock, Draw.exchange, Generator.next]

/-- Whatever order their atomic steps come in, the calls of a process draw stamps that ascend in
    the order of their exchanges, so no stamp is drawn twice and each caller is given one proposal
    after the other, as long as no reading of the clock together with the number of calls reaches
    2^64.  All proposals of a source have the suffix of the node that it was created for. -/
theorem draws_ascend (actions : List Action) (bounded : (run actions).Bounded) :
    ((run actions).drawn.Pairwise fun a b => a.proposal.time < b.proposal.time) ∧
      ((run actions).drawn.map (·.proposal.time)).Nodup ∧
      (∀ caller, ((run actions).given caller).Pairwise (· < ·)) ∧
      ∀ d ∈ (run actions).drawn, ∃ node, (nodes actions)[d.source]? = some node ∧
        d.proposal.suffix.text = Generator.nodeSuffix node ∧
        (Generator.nodeSuffix node).length = 8 ∧
        Hexadecimal.value? (Generator.nodeSuffix node) = some node.toUInt32.toNat := by
  have ascending := (ascending_run actions bounded).2.drawn
  refine ⟨ascending, ?distinct, ?ordered, ?signed⟩
  case distinct =>
    exact List.pairwise_map.2 (ascending.imp fun below => UInt64.ne_of_lt below)
  case ordered =>
    intro caller
    refine List.pairwise_map.2 ((ascending.filter _).imp fun below => ?_)
    exact Proposal.lt_of_time_lt below
  case signed =>
    intro d mem
    obtain ⟨node, created, suffix⟩ := (signed_run actions).drawn d mem
    exact ⟨node, created, suffix, Generator.nodeSuffix_eq node⟩

/-- A generator and a strategy are drawn from at once.  The second caller has loaded a stamp that
    is not the last any more when it makes its offer, the clock goes back, and an exchange fails
    for no reason. -/
theorem draws_ascend_behind_clock :
    let actions : List Action := [.create .plain 3, .create .strategy (-1), .load 0 0, .load 1 1,
      .readClock 0 100, .readClock 1 50, .exchange 0 false, .exchange 1 false, .readClock 1 40,
      .exchange 1 true, .readClock 1 100, .exchange 1 false, .discard 0, .load 1 1,
      .readClock 1 100, .exchange 1 false]
    (run actions).Bounded ∧
      (run actions).drawn.map (fun d => (d.source, d.proposal.time)) =
        [(0, 100), (1, 101), (1, 102)] ∧
      ((run actions).given 1).Pairwise (· < ·) := by
  intro actions
  have readings : (run actions).readings = [100, 100, 40, 50, 100] := by decide +kernel
  have begun : (run actions).begun = 3 := by decide +kernel
  have bounded : (run actions).Bounded := by
    rw [Bounded, readings, begun]
    simp
  obtain ⟨-, -, ordered, -⟩ := draws_ascend actions bounded
  exact ⟨bounded, by decide +kernel, ordered 1⟩

end Process

end Replication.Election
