import Replication.Proofs.Scan.Exactness
import Replication.Scan.Answers

/-! # Slices of an answer

Where nothing moves, what is ahead of a resume position is a list that a batch takes the front
of.  So all batches together are the whole answer, however long each of them may be, and what
is ahead of a key does not depend on how the query came to it.
-/

namespace Replication.Scan

open Replication.Placement (History PartitionId PlacementError ShardId Topology)

variable {s : Situation} {t : Topology} {x : ShardId} {query : Query} {nodes : List ShardId}
  {patience place : Nat} {after cursor : Option IndexEntry}

/-! ## Walks -/

namespace Shard

/-- The entries of open partitions behind a resume position. -/
def ahead (s : Shard) (after : Option IndexEntry) : List IndexEntry :=
  s.index.filter fun e => e.partition ∈ s.opened ∧ reached after ≤ e.position

theorem ahead_none (s : Shard) : s.ahead none = s.index.filter (·.partition ∈ s.opened) := by
  simp [ahead]

/-- The next entry is the first one ahead. -/
theorem map_next (s : Shard) (after : Option IndexEntry) :
    (s.next after).map (·.1) = (s.ahead after).head? := by
  rw [next, ahead]
  induction s.index with
  | nil => rfl
  | cons e rest ih =>
    rw [next.go, List.filter_cons]
    by_cases follows : Follows e after
    · rw [dif_pos follows]
      have behind := follows_iff.1 follows
      by_cases opened : e.partition ∈ s.opened
      · simp [opened, behind]
      · simpa [opened] using ih
    · have before : ¬ reached after ≤ e.position := fun behind => follows (follows_iff.2 behind)
      simpa [follows, before] using ih

/-- Behind the next entry there is the rest. -/
theorem ahead_some {s : Shard} {e : IndexEntry} {rest : List IndexEntry}
    (ascending : s.index.Pairwise (· < ·)) (listed : s.ahead after = e :: rest) :
    s.ahead (some e) = rest := by
  have mem : e ∈ s.ahead after := listed ▸ List.mem_cons_self
  have behind : reached after ≤ e.position := (of_decide_eq_true (List.mem_filter.1 mem).2).2
  have narrowed : s.ahead (some e) =
      (s.ahead after).filter fun other => reached (some e) ≤ other.position := by
    rw [ahead, ahead, List.filter_filter]
    refine List.filter_congr fun other _ => ?_
    rw [reached_some]
    grind
  have above := List.pairwise_cons.1 (listed ▸ ascending.filter _ : (e :: rest).Pairwise (· < ·))
  rw [narrowed, listed, List.filter_cons_of_neg (by simp), List.filter_eq_self]
  exact fun other mem => decide_eq_true (IndexEntry.lt_iff_position.1 (above.1 other mem))

end Shard

/-- What a walk comes to where nothing moves: it has taken the front of what was ahead, has not
    exceeded the limit, and stops short of the end only if it has taken something. -/
structure Sliced (s : Shard) (query : Query) (start final : Reading Timeline) (exhausted : Bool)
    (front : List IndexEntry) : Prop where
  still : final.world = start.world
  taken : s.ahead start.resume = front ++ s.ahead final.resume
  results : final.results = start.results ++ front.filter query.admits
  limited : start.results.length ≤ query.batchLimit → final.results.length ≤ query.batchLimit
  ended : exhausted = true → s.ahead final.resume = []
  fed : exhausted = false → start.results.length < query.batchLimit →
    start.reads < query.readLimit → front ≠ []

theorem readFrom_sliced (query : Query) (cursor : Option IndexEntry)
    (accepts : PartitionId → Bool) (reads : Nat) (results : List IndexEntry)
    (ascending : (s.shard x).index.Pairwise (· < ·))
    (asked : ∀ p ∈ (s.shard x).opened, accepts p = true) :
    ∃ exhausted final front,
      readFrom (Timeline.view x) query accepts cursor
        { world := { now := s }, resume := cursor, reads, results } = .ok exhausted final ∧
      Sliced (s.shard x) query { world := { now := s }, resume := cursor, reads, results } final
        exhausted front := by
  -- A walk that stops where it starts has taken nothing.
  have nothing {exhausted : Bool} {start : Reading Timeline}
      (ended : exhausted = true → (s.shard x).ahead start.resume = [])
      (limit : exhausted = false →
        query.batchLimit ≤ start.results.length ∨ query.readLimit ≤ start.reads) :
      Sliced (s.shard x) query start start exhausted [] :=
    ⟨rfl, rfl, by simp, id, ended, fun going => by have := limit going; omega⟩
  induction listed : (s.shard x).ahead cursor generalizing cursor reads results with
  | nil =>
    rw [readFrom_eq]
    split
    next limit => exact ⟨_, _, [], rfl, nothing (fun going => nomatch going) fun _ => limit⟩
    have found := Shard.map_next (s.shard x) cursor
    rw [listed, List.head?_nil, Option.map_eq_none_iff] at found
    dsimp only
    rw [found]
    exact ⟨_, _, [], rfl, nothing (fun _ => listed) fun going => nomatch going⟩
  | cons e rest ih =>
    rw [readFrom_eq]
    split
    next limit => exact ⟨_, _, [], rfl, nothing (fun going => nomatch going) fun _ => limit⟩
    next room =>
      have found := Shard.map_next (s.shard x) cursor
      rw [listed, List.head?_cons, Option.map_eq_some_iff] at found
      obtain ⟨e, found, rfl⟩ := found
      have mem : e.1 ∈ (s.shard x).ahead cursor := listed ▸ List.mem_cons_self
      have opened : e.1.partition ∈ (s.shard x).opened :=
        (of_decide_eq_true (List.mem_filter.1 mem).2).1
      obtain ⟨exhausted, final, front, read, sliced⟩ :=
        ih (some e.1) (reads + 1) (if query.admits e.1 then results ++ [e.1] else results)
          (Shard.ahead_some ascending listed)
      have taken := sliced.taken
      dsimp only at taken room
      refine ⟨exhausted, final, e.1 :: front, ?_, ?_⟩
      · dsimp only
        rw [found]
        dsimp only
        rw [Reading.find, if_pos (asked _ opened)]
        exact read
      · constructor
        case still => exact sliced.still
        case taken => rw [listed, List.cons_append, ← taken, Shard.ahead_some ascending listed]
        case results =>
          rw [sliced.results]
          by_cases admitted : query.admits e.1 = true <;> simp [admitted]
        case limited =>
          refine fun _ => sliced.limited ?_
          have atMost : (if query.admits e.1 then results ++ [e.1] else results).length ≤
              results.length + 1 := by
            split <;> simp
          dsimp only
          omega
        case ended => exact sliced.ended
        case fed => exact fun _ _ _ => List.cons_ne_nil _ _

/-! ## Nodes -/

section Nodes

variable {w : Scanning Timeline}

/-- A loop over computations that change nothing changes nothing. -/
theorem forM_eq_of_idle {α : Type} {f : α → ScanM Timeline PUnit} {l : List α}
    (idle : ∀ a ∈ l, f a w = .ok () w) : l.forM f w = .ok () w := by
  induction l with
  | nil => rfl
  | cons a l ih =>
    exact (bind_eq_of_ok (idle a List.mem_cons_self)).trans
      (ih fun b mem => idle b (List.mem_cons_of_mem _ mem))

/-- Questions that all have one answer. -/
theorem mapM_ask_eq {α β : Type} {f : α → Except PlacementError β} {l : List α} {b : β}
    (same : ∀ a ∈ l, f a = .ok b) :
    l.mapM (fun a => ScanM.ask (f a)) w = .ok (l.map fun _ => b) w := by
  induction l with
  | nil => rfl
  | cons a l ih =>
    rw [List.mapM_cons, same a List.mem_cons_self]
    exact bind_eq_of_ok (x := l.mapM fun a => ScanM.ask (f a))
      (ih fun a' mem => same a' (List.mem_cons_of_mem _ mem))

/-- A look changes nothing. -/
theorem pass_still (still : w.world = { now := s }) : { w with world := w.world.pass } = w := by
  obtain ⟨world, key, stats⟩ := w
  obtain rfl : world = { now := s } := still
  rfl

namespace Situation.Serves

/-- A base scan need not wait. -/
theorem awaitBase_eq (h : s.Serves t) (mem : x ∈ t.shards) (still : w.world = { now := s })
    (patience : Nat) : awaitBase (Timeline.view x) t patience w = .ok t w := by
  have same : t.partitionsOf (Timeline.view x).shard ⊆ (w.world.now.shard x).opened ∧
      (w.world.now.shard x).opened ⊆ t.partitionsOf (Timeline.view x).shard := by
    rw [still]
    exact ⟨fun p home => (h.opened x mem p).2 (mem_partitionsOf.1 home),
      fun p opened => mem_partitionsOf.2 ((h.opened x mem p).1 opened)⟩
  have home : (t.partitionsOf (Timeline.view x).shard).filter
      (· ∉ t.partitionsOf (Timeline.view x).shard) = [] := by simp
  have free : obstacle? (Timeline.view x) t t w = .ok none w := by
    rw [obstacle?, if_neg Int64.lt_irrefl]
    dsimp only
    rw [bind_eq_of_ok (look_opened w), if_neg (not_not.2 same), home, pass_still still]
    rfl
  have heard : ScanM.look (Timeline.view x).localTopology w = .ok t w := by
    rw [look_topology, pass_still still, still, h.heard x mem]
  cases patience <;> rw [awaitBase, bind_eq_of_ok heard, bind_eq_of_ok free] <;> rfl

/-- None of its partitions have left. -/
theorem addDeparted_eq (x : ShardId) : addDeparted (Timeline.view x) t t w = .ok () w := by
  refine forM_eq_of_idle fun p mem => ?_
  have asked : ScanM.ask (t.shardOf p) w = .ok x w := by
    rw [shardOf_eq_ok.2 (mem_partitionsOf.1 mem)]
    rfl
  refine (bind_eq_of_ok asked).trans ?_
  rw [get_bind, if_neg fun left => left.1 rfl]
  rfl

/-- None of them leave. -/
theorem targetsLeft_eq (h : s.Serves t) (mem : x ∈ t.shards) (still : w.world = { now := s }) :
    targetsLeft (Timeline.view x) (t.partitionsOf x) w = .ok false w := by
  have owned : ∀ p ∈ t.partitionsOf x, t.shardOf p = .ok x :=
    fun p home => shardOf_eq_ok.2 (mem_partitionsOf.1 home)
  have opened : ∀ p ∈ t.partitionsOf x, p ∈ (s.shard x).opened :=
    fun p home => (h.opened x mem p).2 (mem_partitionsOf.1 home)
  have stayed : ((t.partitionsOf x).map fun _ => x).any (· ≠ x) = false := by simp
  have open_ : (t.partitionsOf x).any (· ∉ (s.shard x).opened) = false := by simpa using opened
  rw [targetsLeft, bind_eq_of_ok (look_topology w), pass_still still, bind_eq_of_ok (look_opened w),
    pass_still still, still, h.heard x mem, bind_eq_of_ok (mapM_ask_eq owned)]
  change EStateM.Result.ok (((t.partitionsOf x).map fun _ => x).any (· ≠ x) ||
    (t.partitionsOf x).any (· ∉ (s.shard x).opened)) w = _
  rw [stayed, open_]
  rfl

/-- A batch of a shard's own partitions. -/
theorem scanBase_eq (h : s.Serves t) (mem : x ∈ t.shards) (still : w.world = { now := s })
    (pinned : w.key.topology = t.sequence) (plain : w.key.virtualScans = .empty) (query : Query)
    (patience : Nat) :
    ∃ exhausted final front, Sliced (s.shard x) query
        { world := { now := s }, resume := w.key.resume } final exhausted front ∧
      scanBase (Timeline.view x) query patience w =
        .ok { results := final.results, exhausted }
          { w with
            key := { w.key with resume := final.resume }
            stats := { w.stats with batches := w.stats.batches + 1 } } := by
  have recorded : s.history.get w.key.topology = .ok t := pinned ▸ History.get_of_current h.current
  have targets : (t.partitionsOf (Timeline.view x).shard).filter
      (!w.key.virtualScans.contains ·) = t.partitionsOf x := by
    simp [plain, Table.contains_eq_isSome, Timeline.view]
  obtain ⟨exhausted, final, front, read, sliced⟩ := readFrom_sliced query
    w.key.resume (t.partitionsOf x).contains 0 [] (h.ascending x mem) fun p opened => by
      simpa using mem_partitionsOf.2 ((h.opened x mem p).1 opened)
  refine ⟨exhausted, final, front, sliced, ?_⟩
  -- Nothing has ever moved, so there are no virtual scans, and none is made.
  have returned : checkReturned (Timeline.view x) t t w = .ok () w := by
    rw [checkReturned, get_bind, plain]
    rfl
  have batch : readBatch (Timeline.view x) query (t.partitionsOf x).contains w.key.resume
      (fun resume k => { k with resume }) w = .ok { results := final.results, exhausted }
        { w with key := { w.key with resume := final.resume } } := by
    have kept : final.world = w.world := sliced.still.trans still.symm
    rw [readBatch, still, read]
    dsimp only
    rw [kept, still]
  rw [scanBase, get_bind, bind_eq_of_ok (look_history w), pass_still still, still, recorded]
  change scanBaseWithin _ _ _ _ _ w = _
  rw [scanBaseWithin, bind_eq_of_ok (h.awaitBase_eq mem still patience), bind_eq_of_ok returned,
    bind_eq_of_ok (addDeparted_eq x), get_bind]
  dsimp only
  rw [targets, bind_eq_of_ok batch, bind_eq_of_ok (h.targetsLeft_eq mem (by exact still)),
    if_neg Bool.false_ne_true, still]
  rfl

end Situation.Serves

end Nodes

/-! ## Keys -/

/-- The key of a query on a topology that stands at one of its shards. -/
def keyAt (t : Topology) (place : Nat) (resume : Option IndexEntry) : ContinuationKey where
  topology := t.sequence
  shardIndex := Int32.ofNat place
  resume

theorem targets_keyAt (t : Topology) (place : Nat) (resume : Option IndexEntry) :
    (keyAt t place resume).targets t = t.shards.map fun shard => { shard } := by
  simp [ContinuationKey.targets, keyAt, Table.empty]

theorem toInt_ofNat_of_lt (small : place < 2 ^ 31) : (Int32.ofNat place).toInt = place := by
  have size : Int32.size = 2 ^ 32 := rfl
  rw [Int32.toInt_ofNat', Int.bmod_def, size]
  split <;> omega

theorem place_keyAt (small : place < 2 ^ 31) (resume : Option IndexEntry) (targets : List Target) :
    (keyAt t place resume).place targets = .ok place := by
  rw [ContinuationKey.place, if_neg (by simp [keyAt, ContinuationKey.isVirtual])]
  simp [keyAt, toInt_ofNat_of_lt small]

/-- Such a key is read back. -/
theorem parse_keyAt (small : place < 2 ^ 31) (resume : Option IndexEntry) :
    ContinuationKey.parse (keyAt t place resume).write = .ok (keyAt t place resume) := by
  refine ContinuationKey.parse_write (Int32.le_iff_toInt_le.2 ?_)
  simp [keyAt, toInt_ofNat_of_lt small]

/-! ## What is to come -/

/-- The entries that a query has yet to read where it stands. -/
def Situation.left (s : Situation) (t : Topology) (place : Nat) (resume : Option IndexEntry) :
    List IndexEntry :=
  match t.shards.drop place with
  | [] => []
  | x :: later => (s.shard x).ahead resume ++ later.flatMap fun x => (s.shard x).ahead none

theorem left_of_getElem? (at_ : t.shards[place]? = some x) (resume : Option IndexEntry) :
    s.left t place resume = (s.shard x).ahead resume ++ s.left t (place + 1) none := by
  obtain ⟨bound, rfl⟩ := List.getElem?_eq_some_iff.1 at_
  rw [Situation.left, List.drop_eq_getElem_cons bound, Situation.left]
  dsimp only
  cases t.shards.drop (place + 1) <;> rfl

theorem left_of_length_le (beyond : t.shards.length ≤ place) (resume : Option IndexEntry) :
    s.left t place resume = [] := by
  rw [Situation.left, List.drop_of_length_le beyond]

/-- What a query has yet to read at its start is what it asks for. -/
theorem filter_left_zero (h : s.Serves t) (admits : IndexEntry → Bool) :
    (s.left t 0 none).filter admits = s.answer t admits := by
  have whole : s.left t 0 none = t.shards.flatMap fun x => (s.shard x).ahead none := by
    rw [Situation.left, List.drop_zero]
    cases t.shards <;> rfl
  rw [whole, Situation.answer, List.filter_flatMap]
  refine List.flatMap_congr fun x mem => ?_
  rw [Shard.ahead_none, List.filter_filter]
  refine List.filter_congr fun e _ => ?_
  simp [h.opened x mem, Bool.and_comm]

/-! ## Requests -/

section Requests

variable {state : FleetState Timeline} {resume : Option IndexEntry}

theorem moveTo_keyAt (t : Topology) (place next : Nat) (resume : Option IndexEntry) :
    (keyAt t place resume).moveTo next (t.shards.map fun shard => { shard }) =
      keyAt t next none := by
  rw [ContinuationKey.moveTo, List.getElem?_map, Option.map_map]
  cases t.shards[next]? <;> rfl

theorem FleetState.pass_still (still : state.world = { now := s }) :
    { state with world := state.world.pass } = state := by
  obtain ⟨world, stats⟩ := state
  obtain rfl : world = { now := s } := still
  rfl

namespace Situation.Serves

/-- The targets of a query are the shards of the topology. -/
theorem targets_eq (h : s.Serves t) (still : state.world = { now := s }) (place : Nat)
    (resume : Option IndexEntry) :
    (Timeline.fleet nodes patience).targets (keyAt t place resume) state =
      .ok (t.shards.map fun shard => { shard }) state := by
  have recorded : state.world.now.history.get (keyAt t place resume).topology = .ok t := by
    rw [still]
    exact History.get_of_current h.current
  rw [Scan.targets_eq recorded, targets_keyAt, FleetState.pass_still still]

/-- A batch of a shard. -/
theorem scan_eq (h : s.Serves t) (mem : x ∈ t.shards) (served : x ∈ nodes)
    (still : state.world = { now := s }) (query : Query) (patience place : Nat)
    (resume : Option IndexEntry) :
    ∃ exhausted final front state', Sliced (s.shard x) query { world := { now := s }, resume }
        final exhausted front ∧ state'.world = { now := s } ∧
      (Timeline.fleet nodes patience).scan query { shard := x } (keyAt t place resume) state =
        .ok ({ results := final.results, exhausted }, keyAt t place final.resume) state' := by
  let stats := (state.stats.get? x).getD {}
  let w : Scanning Timeline := { world := state.world, key := keyAt t place resume, stats }
  obtain ⟨exhausted, final, front, sliced, read⟩ := h.scanBase_eq mem (w := w) still rfl
    rfl query (Timeline.fleet nodes patience).patience
  refine ⟨exhausted, final, front,
    { state with stats := state.stats.insert x { stats with batches := stats.batches + 1 } },
    sliced, still, ?_⟩
  have node : (Timeline.fleet nodes patience).node? x = some (Timeline.view x) := if_pos served
  rw [Fleet.scan, Fleet.atNode, node]
  dsimp only
  rw [if_neg (by simp [Target.isVirtual])]
  rw [read]
  rfl

/-- A request for a batch of a shard. -/
theorem batchAt_eq (h : s.Serves t) (served : ∀ x ∈ t.shards, x ∈ nodes)
    (still : state.world = { now := s }) (small : place < 2 ^ 31) (at_ : t.shards[place]? = some x)
    (query : Query) (patience : Nat) (resume : Option IndexEntry) :
    ∃ exhausted final front state', Sliced (s.shard x) query { world := { now := s }, resume }
        final exhausted front ∧ state'.world = { now := s } ∧
      (Timeline.fleet nodes patience).batchAt query (keyAt t place resume) state =
        .ok { results := final.results
              continuation := (if exhausted then keyAt t (place + 1) none
                else keyAt t place final.resume).write
              done := exhausted && decide (t.shards.length ≤ place + 1) } state' := by
  have mem := List.mem_of_getElem? at_
  obtain ⟨exhausted, final, front, state', sliced, still', read⟩ :=
    h.scan_eq mem (served x mem) still query patience place resume
  refine ⟨exhausted, final, front, state', sliced, still', ?_⟩
  rw [Fleet.batchAt, bind_eq_of_ok (h.targets_eq still place resume), place_keyAt small]
  have at_' : (t.shards.map fun shard => ({ shard } : Target))[place]? = some { shard := x } := by
    rw [List.getElem?_map, at_, Option.map_some]
  refine (bind_eq_of_ok (x := Fleet.answer (.ok place)) rfl).trans ?_
  rw [at_']
  refine (bind_eq_of_ok read).trans ?_
  cases exhausted with
  | false => rfl
  | true =>
    refine (bind_eq_of_ok (h.targets_eq still' place final.resume)).trans ?_
    rw [moveTo_keyAt, List.length_map]
    rfl

/-- A request behind all shards. -/
theorem batchAt_eq_of_length_le (h : s.Serves t) (still : state.world = { now := s })
    (small : place < 2 ^ 31) (beyond : t.shards.length ≤ place) (resume : Option IndexEntry) :
    (Timeline.fleet nodes patience).batchAt query (keyAt t place resume) state =
      .ok { continuation := (keyAt t place resume).write, done := true } state := by
  rw [Fleet.batchAt, bind_eq_of_ok (h.targets_eq still place resume), place_keyAt small]
  refine (bind_eq_of_ok (x := Fleet.answer (.ok place)) rfl).trans ?_
  rw [List.getElem?_eq_none (by simpa using beyond)]
  rfl

end Situation.Serves

end Requests

/-! ## Drains -/

section Drains

variable {c c' : Client Timeline} {resume : Option IndexEntry} {results : List IndexEntry}
  {run : List (List IndexEntry × Client Timeline)}

/-- Whether a client's next request is for what is left at a shard. -/
structure StandsAt (s : Situation) (t : Topology) (nodes : List ShardId) (patience : Nat)
    (c : Client Timeline) (place : Nat) (resume : Option IndexEntry) : Prop where
  still : c.state.world = { now := s }
  going : c.done = false
  small : place < 2 ^ 31
  key : (Timeline.fleet nodes patience).keyOf c.continuation c.state =
    .ok (keyAt t place resume) c.state

/-- A query starts at the first shard. -/
theorem Situation.Serves.standsAt_nil (h : s.Serves t) (nodes : List ShardId) (patience : Nat)
    (still : c.state.world = { now := s })
    (going : c.done = false) (fresh : c.continuation = []) :
    StandsAt s t nodes patience c 0 none := by
  refine ⟨still, going, by decide, ?_⟩
  have current : c.state.world.now.history.current = .ok t := by
    rw [still]
    exact h.current
  rw [fresh, keyOf_nil current, FleetState.pass_still still]
  rfl

/-- A key is understood as it was handed out.  It names its topology, which is the current one
    in any case. -/
theorem Situation.Serves.standsAt_write (h : s.Serves t) (nodes : List ShardId) (patience : Nat)
    (still : c.state.world = { now := s })
    (going : c.done = false) (small : place < 2 ^ 31)
    (written : c.continuation = (keyAt t place resume).write) :
    StandsAt s t nodes patience c place resume := by
  refine ⟨still, going, small, ?_⟩
  have current : c.state.world.now.history.current = .ok t := by
    rw [still]
    exact h.current
  have read : Fleet.readKey (keyAt t place resume).write = .ok (keyAt t place resume) :=
    parse_keyAt small resume
  rw [written, Fleet.keyOf, read]
  dsimp only
  split
  · rw [bind_eq_of_ok (askHistory_eq current), FleetState.pass_still still]
    rfl
  · rfl

/-- How much is left of a query where it stands, the shards included. -/
def Situation.size (s : Situation) (t : Topology) (place : Nat) (resume : Option IndexEntry) :
    Nat :=
  (s.left t place resume).length + (t.shards.length - place)

/-- A request that leaves a client with a key brings the front of what was left. -/
structure Onward (s : Situation) (t : Topology) (nodes : List ShardId) (patience : Nat)
    (admits : IndexEntry → Bool) (place : Nat) (resume : Option IndexEntry)
    (results : List IndexEntry) (c' : Client Timeline) (place' : Nat)
    (resume' : Option IndexEntry) : Prop where
  stands : StandsAt s t nodes patience c' place' resume'
  key : c'.continuation = (keyAt t place' resume').write
  brought : (s.left t place resume).filter admits =
    results ++ (s.left t place' resume').filter admits
  less : s.size t place' resume' < s.size t place resume

/-- A request never fails.  It brings what is left, or the front of it. -/
theorem StandsAt.next_ok (stands : StandsAt s t nodes patience c place resume) (h : s.Serves t)
    (served : ∀ x ∈ t.shards, x ∈ nodes) (few : t.shards.length ≤ 2 ^ 31)
    (limits : 1 ≤ query.batchLimit ∧ 1 ≤ query.readLimit) :
    ∃ results c', (Timeline.fleet nodes patience).next query c = .ok results c' ∧
      results.length ≤ query.batchLimit ∧
      (c'.done = true ∧ (s.left t place resume).filter query.admits = results ∨
        ∃ place' resume', Onward s t nodes patience query.admits place resume results c' place'
          resume') := by
  have next {b : QueryBatch} {state' : FleetState Timeline}
      (brings : (Timeline.fleet nodes patience).batchAt query (keyAt t place resume) c.state =
        .ok b state') : (Timeline.fleet nodes patience).next query c = .ok b.results
          { state := state', continuation := b.continuation, done := b.done
            batches := c.batches + 1 } := by
    rw [Fleet.next, if_neg (by simp [stands.going]), Fleet.executeBatch,
      bind_eq_of_ok stands.key, brings]
  by_cases beyond : t.shards.length ≤ place
  · refine ⟨_, _, next (h.batchAt_eq_of_length_le stands.still stands.small beyond resume),
      Nat.zero_le _, .inl ⟨rfl, ?_⟩⟩
    rw [left_of_length_le beyond]
    rfl
  obtain ⟨x, at_⟩ : ∃ x, t.shards[place]? = some x :=
    ⟨_, List.getElem?_eq_getElem (Nat.not_le.1 beyond)⟩
  obtain ⟨exhausted, final, front, state', sliced, still', brings⟩ :=
    h.batchAt_eq served stands.still stands.small at_ query patience resume
  have results : final.results = front.filter query.admits := by
    rw [sliced.results]
    rfl
  have taken : (s.shard x).ahead resume = front ++ (s.shard x).ahead final.resume := sliced.taken
  have left := left_of_getElem? (s := s) at_ resume
  refine ⟨_, _, next brings, sliced.limited (Nat.zero_le _), ?_⟩
  cases exhausted with
  | true =>
    -- The shard has nothing behind the batch.
    rw [sliced.ended rfl, List.append_nil] at taken
    by_cases last : t.shards.length ≤ place + 1
    · refine .inl ⟨decide_eq_true last, ?_⟩
      rw [left, left_of_length_le last, List.append_nil, taken, results]
    · have small : place + 1 < 2 ^ 31 := by omega
      refine .inr ⟨place + 1, none,
        h.standsAt_write nodes patience still' (decide_eq_false last) small rfl, rfl, ?_, ?_⟩
      · rw [left, List.filter_append, taken, results]
      · rw [Situation.size, Situation.size, left, List.length_append]
        omega
  | false =>
    have fed : front ≠ [] := sliced.fed rfl limits.1 limits.2
    have rest := left_of_getElem? (s := s) at_ final.resume
    refine .inr ⟨place, final.resume,
      h.standsAt_write nodes patience still' rfl stands.small rfl, rfl, ?_, ?_⟩
    · rw [left, rest, taken, results, List.append_assoc, List.filter_append]
    · have := List.length_pos_iff.2 fed
      rw [Situation.size, Situation.size, left, rest, taken]
      simp only [List.length_append]
      omega

/-- A client that is done asks for nothing more. -/
theorem Fleet.Completes.nil {ω : Type} {fleet : Fleet ω} {c : Client ω} (done : c.done = true) :
    fleet.Completes query c [] where
  drained requests _ := by cases requests <;> simp [Fleet.drain, done]
  ended _ last := nomatch last
  limited _ mem := nomatch mem

theorem Fleet.Completes.cons {ω : Type} {fleet : Fleet ω} {c c' : Client ω}
    {run : List (List IndexEntry × Client ω)} (going : c.done = false)
    (asked : fleet.next query c = .ok results c') (limited : results.length ≤ query.batchLimit)
    (rest : fleet.Completes query c' run) : fleet.Completes query c ((results, c') :: run) where
  drained requests enough := by
    obtain ⟨requests, rfl⟩ := Nat.exists_eq_add_of_le' (Nat.lt_of_lt_of_le Nat.zero_lt_one
      ((Nat.le_add_left 1 run.length).trans enough))
    rw [Fleet.drain, if_neg (by simp [going]), asked]
    exact congrArg _ (rest.drained requests (Nat.le_of_succ_le_succ enough))
  ended last mem := by
    rw [List.getLast?_cons] at mem
    cases listed : run.getLast? with
    | some batch =>
      rw [listed] at mem
      obtain rfl := Option.mem_some_iff.1 mem
      exact rest.ended batch listed
    | none =>
      rw [listed] at mem
      obtain rfl := Option.mem_some_iff.1 mem
      -- A drain of nothing at all is that of a client that is done.
      obtain rfl := List.getLast?_eq_none_iff.1 listed
      have drained := rest.drained 1 (Nat.zero_le _)
      by_contra open_
      change ¬ c'.done = true at open_
      rw [Fleet.drain, if_neg open_] at drained
      cases next : fleet.next query c' <;> simp [next] at drained
  limited batch mem := by
    rcases List.mem_cons.1 mem with rfl | mem
    · exact limited
    · exact rest.limited batch mem

/-- A client comes to an end with all that is left, and each key on the way stands where the
    batches behind it begin. -/
theorem StandsAt.completes (stands : StandsAt s t nodes patience c place resume) (h : s.Serves t)
    (served : ∀ x ∈ t.shards, x ∈ nodes) (few : t.shards.length ≤ 2 ^ 31)
    (limits : 1 ≤ query.batchLimit ∧ 1 ≤ query.readLimit) :
    ∃ run, (Timeline.fleet nodes patience).Completes query c run ∧
      (run.map (·.1)).flatten = (s.left t place resume).filter query.admits ∧
      ∀ front batch back, run = front ++ batch :: back → batch.2.done = false →
        ∃ place' resume', place' < 2 ^ 31 ∧ batch.2.continuation = (keyAt t place' resume').write ∧
          (back.map (·.1)).flatten = (s.left t place' resume').filter query.admits := by
  -- Each answer leaves less to return, or ends the query.
  induction size : s.size t place resume using Nat.strongRecOn generalizing c place resume with
  | _ size ih =>
    subst size
    obtain ⟨results, c', asked, limited, ⟨done, all⟩ | ⟨place', resume', onward⟩⟩ :=
      stands.next_ok h served few limits
    · refine ⟨[(results, c')], .cons stands.going asked limited (.nil done), by simp [all], ?_⟩
      intro front batch back split going
      cases front with
      | nil =>
        obtain ⟨rfl, -⟩ := List.cons.inj split
        rw [done] at going
        cases going
      | cons _ front => simp at split
    · obtain ⟨run, completes, all, keys⟩ := ih _ onward.less onward.stands rfl
      refine ⟨(results, c') :: run, .cons stands.going asked limited completes, ?_, ?_⟩
      · rw [List.map_cons, List.flatten_cons, all, onward.brought]
      · intro front batch back split going
        cases front with
        | nil =>
          obtain ⟨rfl, rfl⟩ := List.cons.inj split
          exact ⟨place', resume', onward.stands.small, onward.key, all⟩
        | cons _ front => exact keys front batch back (List.cons.inj split).2 going

/-- However long its batches may be, a query on a store in which nothing moves returns what it
    asks for shard by shard, in the order of the indexes.  Each key on the way is read back, and
    a query that resumes from it, with limits of its own, returns the rest.  A key has 32 bits
    for the place of a shard, with a sign, and there are to be places enough. -/
theorem drain_eq_answer (s : Situation) (t : Topology) (nodes : List ShardId) (patience : Nat)
    (query : Query) (serves : s.Serves t) (served : ∀ x ∈ t.shards, x ∈ nodes)
    (few : t.shards.length ≤ 2 ^ 31) (limits : 1 ≤ query.batchLimit ∧ 1 ≤ query.readLimit) :
    ∃ run, (Timeline.fleet nodes patience).Completes query
        { state := { world := { now := s } } } run ∧
      (run.map (·.1)).flatten = s.answer t query.admits ∧
      ∀ front batch back, run = front ++ batch :: back → batch.2.done = false →
        ∃ k : ContinuationKey, batch.2.continuation = k.write ∧
          ContinuationKey.parse k.write = .ok k ∧
          ∀ other : Query, other.admits = query.admits →
            1 ≤ other.batchLimit ∧ 1 ≤ other.readLimit →
            ∃ run', (Timeline.fleet nodes patience).Completes other
                { state := { world := { now := s } }, continuation := k.write } run' ∧
              (run'.map (·.1)).flatten = (back.map (·.1)).flatten := by
  obtain ⟨run, completes, all, keys⟩ := (serves.standsAt_nil nodes patience
    (c := { state := { world := { now := s } } }) rfl rfl rfl).completes serves served few limits
  refine ⟨run, completes, all.trans (filter_left_zero serves query.admits), ?_⟩
  intro front batch back split going
  obtain ⟨place, resume, small, key, rest⟩ := keys front batch back split going
  refine ⟨keyAt t place resume, key, parse_keyAt small resume, fun other same limits' => ?_⟩
  let resumed : Client Timeline :=
    { state := { world := { now := s } }, continuation := (keyAt t place resume).write }
  obtain ⟨run', completes', all', -⟩ := (serves.standsAt_write nodes patience (c := resumed) rfl rfl
    small rfl).completes serves served few limits'
  exact ⟨run', completes', by rw [all', same, rest]⟩

/-- A store whose shards have all entries in their indexes. -/
def Situation.copied (t : Topology) (entries : List IndexEntry) : Situation where
  history := { topologies := [t] }
  shard x := { topology := t, opened := t.partitionsOf x, index := entries }

theorem serves_copied {entries : List IndexEntry} (ascending : entries.Pairwise (· < ·)) :
    (Situation.copied t entries).Serves t where
  current := rfl
  heard _ _ := rfl
  opened _ _ _ := mem_partitionsOf
  ascending _ _ := ascending

/-- Batches of one entry each, of two shards that have entries of each other's partitions. -/
theorem drain_eq_answer_copied :
    let t : Topology := { sequence := 1, placement := ⟨[(0, 1), (1, 2)], by decide⟩ }
    let s := Situation.copied t [⟨10, 0⟩, ⟨15, 1⟩, ⟨20, 0⟩]
    let query : Query := { admits := fun _ => true, batchLimit := 1 }
    s.Serves t ∧ (∀ x ∈ t.shards, x ∈ [1, 2]) ∧ t.shards.length ≤ 2 ^ 31 ∧
      ∃ run, (Timeline.fleet [1, 2] 0).Completes query
          { state := { world := { now := s } } } run ∧
        (run.map (·.1)).flatten = [⟨10, 0⟩, ⟨20, 0⟩, ⟨15, 1⟩] := by
  intro t s query
  have serves : s.Serves t := serves_copied (by decide)
  have shards : t.shards = [1, 2] := by cbv
  have served : ∀ x ∈ t.shards, x ∈ [1, 2] := shards ▸ fun _ => id
  have few : t.shards.length ≤ 2 ^ 31 := shards ▸ by norm_num
  obtain ⟨run, completes, all, -⟩ :=
    drain_eq_answer s t [1, 2] 0 query serves served few (by decide)
  exact ⟨serves, served, few, run, completes, all.trans (by cbv)⟩

end Drains

end Replication.Scan
