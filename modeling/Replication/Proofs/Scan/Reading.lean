import Replication.Proofs.Computations
import Replication.Proofs.Scan.Relocations

/-! # What a walk along an index finds

The index may change under a walk, but as long as the partitions that it asks for are open
and complete at every look, it takes just their entries between its first and its last
resume position, each once.
-/

namespace Replication.Scan

open Replication.Placement (PartitionId ShardId)

/-! ## Positions -/

namespace IndexEntry

theorem position_injective {a b : IndexEntry} (h : a.position = b.position) : a = b := by
  obtain ⟨k, p⟩ := a
  obtain ⟨k', p'⟩ := b
  have h₁ := p.toInt_lt
  have h₂ := p.le_toInt
  have h₃ := p'.toInt_lt
  have h₄ := p'.le_toInt
  have h₅ := k.le_toInt
  have h₆ := k'.le_toInt
  simp only [position, Int64.toInt_minValue, Int32.toInt_minValue, UInt32.size] at h
  have keys : k.toInt = k'.toInt := by omega
  have partitions : p.toInt = p'.toInt := by omega
  rw [Int64.toInt_inj.1 keys, Int32.toInt_inj.1 partitions]

/-- Entries are ordered as their positions are. -/
theorem lt_iff_position {a b : IndexEntry} : a < b ↔ a.position < b.position := by
  refine ⟨position_lt_position, fun below => ?_⟩
  have h : a.key < b.key ∨ a.key = b.key ∨ b.key < a.key := by grind
  have h' : a.partition < b.partition ∨ a.partition = b.partition ∨ b.partition < a.partition := by
    grind
  have notAbove : ¬ b < a := fun above => by
    have := position_lt_position above
    omega
  have notSame : a ≠ b := by
    rintro rfl
    omega
  obtain ⟨k, p⟩ := a
  obtain ⟨k', p'⟩ := b
  show k < k' ∨ (k = k' ∧ p < p')
  have notAbove : ¬ (k' < k ∨ (k' = k ∧ p' < p)) := notAbove
  grind

end IndexEntry

/-- How many positions lie up to a resume position. -/
def reached : Option IndexEntry → Nat
  | none => 0
  | some e => e.position + 1

@[simp] theorem reached_none : reached none = 0 := rfl

@[simp] theorem reached_some (e : IndexEntry) : reached (some e) = e.position + 1 := rfl

theorem follows_iff {e : IndexEntry} {after : Option IndexEntry} :
    Follows e after ↔ reached after ≤ e.position := by
  cases after with
  | none => simp [Follows]
  | some last => exact IndexEntry.lt_iff_position

/-! ## Looks -/

namespace Shard

variable {s : Shard} {after : Option IndexEntry}

theorem next_eq_none (h : s.next after = none) :
    ∀ e ∈ s.index, reached after ≤ e.position → e.partition ∉ s.opened := by
  suffices found : ∀ l, next.go s after l = none →
      ∀ e ∈ l, reached after ≤ e.position → e.partition ∉ s.opened from found s.index h
  intro l h
  induction l with
  | nil => exact fun e mem => absurd mem List.not_mem_nil
  | cons first rest ih =>
    intro e mem behind
    rw [next.go] at h
    rcases List.mem_cons.1 mem with rfl | mem
    · rw [dif_pos (follows_iff.2 behind)] at h
      split at h
      · cases h
      next closed => exact closed
    · refine ih ?_ e mem behind
      split at h
      · split at h
        · cases h
        · exact h
      · exact h

theorem mem_of_next {e : { e : IndexEntry // Follows e after }} (h : s.next after = some e) :
    e.1 ∈ s.index := by
  suffices found : ∀ l, next.go s after l = some e → e.1 ∈ l from found s.index h
  intro l h
  induction l with
  | nil => cases h
  | cons first rest ih =>
    rw [next.go] at h
    split at h
    · split at h
      · cases h
        exact List.mem_cons_self
      · exact List.mem_cons_of_mem _ (ih h)
    · exact List.mem_cons_of_mem _ (ih h)

/-- The next entry is the first one of an open partition behind the position. -/
theorem next_eq_some {e : { e : IndexEntry // Follows e after }}
    (ascending : s.index.Pairwise (· < ·)) (h : s.next after = some e) :
    e.1 ∈ s.index ∧ e.1.partition ∈ s.opened ∧
      ∀ other ∈ s.index, reached after ≤ other.position → other.partition ∈ s.opened →
        e.1.position ≤ other.position := by
  suffices found : ∀ l : List IndexEntry, l.Pairwise (· < ·) → next.go s after l = some e →
      e.1 ∈ l ∧ e.1.partition ∈ s.opened ∧
        ∀ other ∈ l, reached after ≤ other.position → other.partition ∈ s.opened →
          e.1.position ≤ other.position from found s.index ascending h
  intro l ascending h
  induction l with
  | nil => cases h
  | cons first rest ih =>
    obtain ⟨above, ascending⟩ := List.pairwise_cons.1 ascending
    -- The first entry is passed over only if it may be.
    have later (passed : reached after ≤ first.position → first.partition ∉ s.opened)
        (h : next.go s after rest = some e) :
        e.1 ∈ first :: rest ∧ e.1.partition ∈ s.opened ∧
          ∀ other ∈ first :: rest, reached after ≤ other.position → other.partition ∈ s.opened →
            e.1.position ≤ other.position := by
      obtain ⟨mem, opened, least⟩ := ih ascending h
      refine ⟨List.mem_cons_of_mem _ mem, opened, fun other mem behind opened => ?_⟩
      rcases List.mem_cons.1 mem with rfl | mem
      · exact absurd opened (passed behind)
      · exact least other mem behind opened
    rw [next.go] at h
    split at h
    next follows =>
      split at h
      next opened =>
        cases h
        refine ⟨List.mem_cons_self, opened, fun other mem _ _ => ?_⟩
        rcases List.mem_cons.1 mem with rfl | mem
        · exact Nat.le_refl _
        · exact Nat.le_of_lt (IndexEntry.lt_iff_position.1 (above other mem))
      next closed => exact later (fun _ => closed) h
    next before => exact later (fun behind => absurd (follows_iff.2 behind) before) h

end Shard

/-! ## Walks -/

section Walks

variable {x : ShardId} {query : Query} {accepts : PartitionId → Bool}

def Reading.find (query : Query) (accepts : PartitionId → Bool) (e : IndexEntry)
    (reading : Reading Timeline) : Reading Timeline :=
  let reading := { reading with world := reading.world.pass }
  if accepts e.partition then reading.take query e else reading

theorem reading_next (cursor : Option IndexEntry) (reading : Reading Timeline) :
    Reading.next (Timeline.view x) cursor reading =
      .ok ((reading.world.now.shard x).next cursor)
        { reading with world := reading.world.pass } := rfl

/-- One step of a walk. -/
theorem readFrom_eq (cursor : Option IndexEntry) (reading : Reading Timeline) :
    readFrom (Timeline.view x) query accepts cursor reading =
      if query.batchLimit ≤ reading.results.length ∨ query.readLimit ≤ reading.reads then
        .ok false reading
      else
        match (reading.world.now.shard x).next cursor with
        | none => .ok true { reading with world := reading.world.pass }
        | some e => readFrom (Timeline.view x) query accepts (some e.1)
            (reading.find query accepts e.1) := by
  rw [readFrom, get_bind]
  split
  · rfl
  rw [bind_eq_of_ok (reading_next cursor reading)]
  cases (reading.world.now.shard x).next cursor with
  | none => rfl
  | some e =>
    simp only [Reading.find]
    split <;> rfl

@[simp] theorem find_world (e : IndexEntry) (reading : Reading Timeline) :
    (reading.find query accepts e).world = reading.world.pass := by
  unfold Reading.find
  dsimp only
  split <;> rfl

/-- A walk always ends, some looks later. -/
theorem readFrom_reaches (query : Query) (accepts : PartitionId → Bool)
    (cursor : Option IndexEntry) (start : Reading Timeline) :
    ∃ exhausted final, readFrom (Timeline.view x) query accepts cursor start = .ok exhausted final ∧
      start.world.Reaches final.world := by
  -- On what is left of the index.
  induction left : entriesBehind cursor using Nat.strongRecOn generalizing cursor start with
  | _ left ih =>
    subst left
    rw [readFrom_eq]
    split
    · exact ⟨false, start, rfl, .refl _⟩
    cases (start.world.now.shard x).next cursor with
    | none => exact ⟨true, _, rfl, .pass _⟩
    | some e =>
      obtain ⟨exhausted, final, read, reaches⟩ :=
        ih _ (entriesBehind_lt e.2) (some e.1) (start.find query accepts e.1) rfl
      refine ⟨exhausted, final, read, ?_⟩
      rw [find_world] at reaches
      exact (Timeline.Reaches.pass _).trans reaches

/-- How far a walk gets, whatever happens to the index meanwhile: it moves forward, over an entry
    that it asks for if it has taken any, and stops short of the end at a limit only. -/
structure Moved (x : ShardId) (query : Query) (accepts : PartitionId → Bool)
    (cursor : Option IndexEntry) (start final : Reading Timeline) (exhausted : Bool) : Prop where
  forward : reached start.resume ≤ reached final.resume
  taken : final.reads = start.reads ∧ final.results = start.results ∨
    ∃ t e, start.world.Reaches t ∧ e ∈ (t.now.shard x).index ∧ accepts e.partition = true ∧
      reached cursor ≤ e.position ∧ e.position < reached final.resume
  limited : exhausted = false →
    query.batchLimit ≤ final.results.length ∨ query.readLimit ≤ final.reads

theorem readFrom_moved {cursor : Option IndexEntry} {start final : Reading Timeline}
    {exhausted : Bool}
    (read : readFrom (Timeline.view x) query accepts cursor start = .ok exhausted final)
    (behind : reached start.resume ≤ reached cursor) :
    Moved x query accepts cursor start final exhausted := by
  -- On what is left of the index.
  induction left : entriesBehind cursor using Nat.strongRecOn generalizing cursor start with
  | _ left ih =>
    subst left
    rw [readFrom_eq] at read
    split at read
    next limit =>
      cases read
      exact ⟨Nat.le_refl _, .inl ⟨rfl, rfl⟩, fun _ => limit⟩
    cases found : (start.world.now.shard x).next cursor with
    | none =>
      rw [found] at read
      cases read
      exact ⟨Nat.le_refl _, .inl ⟨rfl, rfl⟩, fun going => nomatch going⟩
    | some e =>
      rw [found] at read
      dsimp only at read
      have follows := follows_iff.1 e.2
      have mem := Shard.mem_of_next found
      by_cases asked : accepts e.1.partition = true
      · have moved := ih _ (entriesBehind_lt e.2) read
          (by simp [Reading.find, asked, Reading.take]) rfl
        have forward := moved.forward
        simp only [Reading.find, if_pos asked, Reading.take, reached_some] at forward
        refine ⟨by omega, .inr ⟨start.world, e.1, .refl _, mem, asked, follows, by omega⟩,
          moved.limited⟩
      · have same : start.find query accepts e.1 = { start with world := start.world.pass } := by
          rw [Reading.find, if_neg asked]
        rw [same] at read
        have moved := ih _ (entriesBehind_lt e.2) read
          (by rw [reached_some]; dsimp only; omega) rfl
        refine ⟨moved.forward, moved.taken.imp_right ?_, moved.limited⟩
        rintro ⟨t, other, reaches, mem, asked, after, before⟩
        rw [reached_some] at after
        exact ⟨t, other, (Timeline.Reaches.pass _).trans reaches, mem, asked, by omega, before⟩

/-- What a walk comes to: it has found each entry that it asks for between its first and its
    last position, and no other. -/
structure Walked (r : Relocation) (query : Query) (accepts : PartitionId → Bool)
    (cursor : Option IndexEntry) (start final : Reading Timeline) (exhausted : Bool) : Prop where
  forward : reached start.resume ≤ reached final.resume
  all : exhausted = true → ∀ e ∈ r.entries, accepts e.partition = true →
    reached cursor ≤ e.position → e.position < reached final.resume
  found : ∃ more, final.results = start.results ++ more ∧ ∀ e, more.count e =
    if e ∈ r.entries ∧ accepts e.partition = true ∧ query.admits e = true ∧
      reached cursor ≤ e.position ∧ e.position < reached final.resume then 1 else 0

/-- Whether all partitions that are asked for are open at a shard and all there. -/
def Shows (r : Relocation) (x : ShardId) (accepts : PartitionId → Bool) (t : Timeline) : Prop :=
  (t.now.shard x).index.Pairwise (· < ·) ∧
    ∀ p, accepts p = true → p ∈ (t.now.shard x).opened ∧ r.Complete (t.now.shard x) p

section Found

variable {r : Relocation} {cursor : Option IndexEntry} {start final : Reading Timeline}
  {exhausted : Bool}

/-- Entries that are asked for come one after the other. -/
theorem Walked.step {e : IndexEntry} (follows : reached cursor ≤ e.position)
    (walked : Walked r query accepts (some e) (start.find query accepts e) final exhausted)
    (behind : reached start.resume ≤ reached cursor)
    (known : accepts e.partition = true → e ∈ r.entries)
    (least : ∀ other ∈ r.entries, accepts other.partition = true →
      reached cursor ≤ other.position → e.position ≤ other.position) :
    Walked r query accepts cursor start final exhausted := by
  -- What is asked for behind the cursor is the entry itself or behind it.
  have next {other : IndexEntry} (mem : other ∈ r.entries)
      (asked : accepts other.partition = true) :
      reached cursor ≤ other.position ↔ other = e ∨ reached (some e) ≤ other.position := by
    constructor
    · intro after
      have above := least other mem asked after
      rcases Nat.eq_or_lt_of_le above with same | above
      · exact .inl (IndexEntry.position_injective same.symm)
      · exact .inr above
    · rintro (rfl | after)
      · exact follows
      · rw [reached_some] at after
        omega
  obtain ⟨more, results, count⟩ := walked.found
  have forward := walked.forward
  by_cases asked : accepts e.partition = true
  · simp only [Reading.find, if_pos asked, Reading.take, reached_some] at results forward
    constructor
    case forward => omega
    case all =>
      intro done other mem asked after
      rcases (next mem asked).1 after with rfl | after
      · omega
      · exact walked.all done other mem asked after
    case found =>
      refine ⟨(if query.admits e then [e] else []) ++ more, ?_, fun other => ?_⟩
      · rw [results]
        split <;> simp
      rw [List.count_append]
      have known := known asked
      by_cases same : other = e
      · subst same
        have notAgain : more.count other = 0 := by
          rw [count other, if_neg]
          rintro ⟨-, -, -, after, -⟩
          rw [reached_some] at after
          omega
        rw [notAgain]
        by_cases admitted : query.admits other = true
        · rw [if_pos admitted, if_pos ⟨known, asked, admitted, follows, by omega⟩]
          simp
        · rw [if_neg admitted, if_neg (by simp [admitted])]
          rfl
      · have none : (if query.admits e = true then [e] else []).count other = 0 := by
          split <;> simp [Ne.symm same]
        rw [none, Nat.zero_add, count other]
        refine if_congr ?_ rfl rfl
        constructor
        · rintro ⟨mem, asked, admitted, after, before⟩
          exact ⟨mem, asked, admitted, (next mem asked).2 (.inr after), before⟩
        · rintro ⟨mem, asked, admitted, after, before⟩
          exact ⟨mem, asked, admitted, ((next mem asked).1 after).resolve_left same, before⟩
  · simp only [Reading.find, if_neg asked] at results forward
    have passed {other : IndexEntry} (mem : other ∈ r.entries)
        (asked' : accepts other.partition = true) :
        reached cursor ≤ other.position ↔ reached (some e) ≤ other.position := by
      rw [next mem asked']
      refine or_iff_right ?_
      rintro rfl
      exact asked asked'
    constructor
    case forward => exact forward
    case all =>
      exact fun done other mem asked after =>
        walked.all done other mem asked ((passed mem asked).1 after)
    case found =>
      refine ⟨more, results, fun other => (count other).trans (if_congr ?_ rfl rfl)⟩
      constructor
      · rintro ⟨mem, asked, admitted, after, before⟩
        exact ⟨mem, asked, admitted, (passed mem asked).2 after, before⟩
      · rintro ⟨mem, asked, admitted, after, before⟩
        exact ⟨mem, asked, admitted, (passed mem asked).1 after, before⟩

/-- A walk during which everything shows is exact. -/
theorem readFrom_walked
    (read : readFrom (Timeline.view x) query accepts cursor start = .ok exhausted final)
    (behind : reached start.resume ≤ reached cursor)
    (shows_ : ∀ t, start.world.Reaches t → t.Reaches final.world → Shows r x accepts t) :
    Walked r query accepts cursor start final exhausted := by
  induction left : entriesBehind cursor using Nat.strongRecOn generalizing cursor start with
  | _ left ih =>
    subst left
    -- A walk that stops here has found nothing, and asks for nothing before its cursor.
    have nothing {exhausted : Bool} {world : Timeline}
        (all : exhausted = true → ∀ e ∈ r.entries, accepts e.partition = true →
          reached cursor ≤ e.position → e.position < reached start.resume) :
        Walked r query accepts cursor start { start with world } exhausted := by
      refine ⟨Nat.le_refl _, all, [], (List.append_nil _).symm, fun e => ?_⟩
      rw [if_neg]
      · rfl
      · rintro ⟨-, -, -, after, before⟩
        dsimp only at before
        omega
    obtain ⟨exhausted', final', read', reaches⟩ :=
      readFrom_reaches (x := x) query accepts cursor start
    rw [read] at read'
    cases read'
    obtain ⟨ascending, shown⟩ := shows_ start.world (.refl _) reaches
    have listed {e : IndexEntry} (asked : accepts e.partition = true) :
        e ∈ (start.world.now.shard x).index ↔ e ∈ r.entries :=
      (shown e.partition asked).2 e rfl
    rw [readFrom_eq] at read
    split at read
    · cases read
      exact nothing fun done => nomatch done
    cases found : (start.world.now.shard x).next cursor with
    | none =>
      rw [found] at read
      cases read
      refine nothing fun _ e mem asked after => ?_
      have closed := Shard.next_eq_none found e ((listed asked).2 mem) after
      exact absurd (shown e.partition asked).1 closed
    | some e =>
      rw [found] at read
      dsimp only at read
      obtain ⟨mem, opened, least⟩ := Shard.next_eq_some ascending found
      refine .step (follows_iff.1 e.2) (ih _ (entriesBehind_lt e.2) read ?_ ?_ rfl) behind
        (fun asked => (listed asked).1 mem) ?_
      · have after := follows_iff.1 e.2
        unfold Reading.find
        dsimp only
        split
        · exact Nat.le_refl _
        · rw [reached_some]
          dsimp only
          omega
      · intro t after before
        rw [find_world] at after
        exact shows_ t ((Timeline.Reaches.pass _).trans after) before
      · exact fun other mem asked after =>
          least other ((listed asked).2 mem) after (shown other.partition asked).1

end Found

end Walks

end Replication.Scan
