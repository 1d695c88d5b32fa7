import Mathlib.Data.List.Nodup
import Mathlib.Logic.Equiv.Basic
import Replication.Proofs.Log.Cleaning
import Replication.Proofs.Tables

/-! # Who owns a range

A range is registered as long as somebody holds it, and nobody shares it.  Handles may be
made, moved onto each other, given up and discarded in any order, and sources opened and shut
down in between: what the registry tells of the protected files is what the active handles
tell.
-/

namespace Replication.Log

/-! ## Registered and held -/

/-- The number of the range that a handle protects files with. -/
def RangeHandle.id? : RangeHandle → Option Nat
  | .active id => some id
  | _ => none

theorem RangeHandle.isSome_id? (h : RangeHandle) : h.id?.isSome = h.isActive := by
  cases h <;> rfl

theorem RangeHandle.isActive_iff {h : RangeHandle} : h.isActive = true ↔ ∃ id, h = .active id := by
  cases h <;> simp [isActive]

theorem RangeHandle.ne_active {h : RangeHandle} (inactive : h.isActive = false) (id : Nat) :
    h ≠ .active id := by
  rintro rfl
  cases inactive

theorem RangeHandle.id?_eq_some {h : RangeHandle} {id : Nat} :
    h.id? = some id ↔ h = .active id := by
  cases h <;> simp [id?]

namespace FileProtector

variable {p p' : FileProtector}

/-- Whether the registered ranges are those of the active handles among some, with one handle
    each. -/
structure OwnedBy {ω : Type} (p : FileProtector) (held : ω → RangeHandle) : Prop where
  owner : ∀ id, (∃ o, held o = .active id) ↔ ∃ range, p.ranges.get? id = some range
  alone : ∀ o o' id, held o = .active id → held o' = .active id → o = o'
  known : ∀ id range, p.ranges.get? id = some range → id < p.nextId

theorem release_of_inactive {h : RangeHandle} (inactive : h.isActive = false) :
    p.release h = (h, p) := by
  cases h with
  | active id => cases inactive
  | empty | released range => rfl

theorem isActive_release {h : RangeHandle}
    (registered : ∀ id, h = .active id → ∃ range, p.ranges.get? id = some range) :
    (p.release h).1.isActive = false := by
  cases h with
  | empty | released range => rfl
  | active id =>
    obtain ⟨range, found⟩ := registered id rfl
    simp only [release, range?, found]
    rfl

theorem advance_of_inactive {h : RangeHandle} (inactive : h.isActive = false) (file : Int) :
    advance h file p = .error .inactive p := by
  cases h with
  | active id => cases inactive
  | empty | released range => rfl

theorem advance_of_registered {id : Nat} {range : FileRange}
    (registered : p.ranges.get? id = some range) (file : Int) :
    advance (.active id) file p =
      if file < range.start then .error (.movesBack range.name range.start file) p
      else .ok () { p with ranges := p.ranges.insert id { range with start := file } } := by
  rw [advance, get_bind, range?, registered]
  dsimp only
  split <;> rfl

theorem get?_protect (p : FileProtector) (name : Octets) (start : Int) (id : Nat) :
    (p.protect name start).2.ranges.get? id =
      if id = p.nextId then some { name, start } else p.ranges.get? id :=
  Table.get?_insert ..

namespace OwnedBy

variable {ω : Type} {held held' : ω → RangeHandle} {o : ω}

theorem nobody (inactive : ∀ o, (held o).isActive = false) : OwnedBy {} held := by
  refine ⟨fun id => ⟨?_, nofun⟩, fun o _ id active => ?_, nofun⟩
  · rintro ⟨o, active⟩
    exact absurd active (RangeHandle.ne_active (inactive o) id)
  · exact absurd active (RangeHandle.ne_active (inactive o) id)

variable (h : p.OwnedBy held)

include h

theorem registered {id : Nat} (active : held o = .active id) :
    ∃ range, p.ranges.get? id = some range :=
  (h.owner id).1 ⟨o, active⟩

theorem lt_nextId {id : Nat} (active : held o = .active id) : id < p.nextId := by
  obtain ⟨range, found⟩ := h.registered active
  exact h.known id range found

/-- Ranges may move, as long as none comes or goes. -/
theorem of_ids (nextId : p.nextId ≤ p'.nextId)
    (ids : ∀ id, (∃ range, p'.ranges.get? id = some range) ↔ ∃ range, p.ranges.get? id = some range)
    (same : ∀ o, held' o = held o) : p'.OwnedBy held' := by
  obtain rfl : held' = held := funext same
  refine ⟨fun id => (h.owner id).trans (ids id).symm, h.alone, fun id range found => ?_⟩
  obtain ⟨range', found'⟩ := (ids id).1 ⟨range, found⟩
  exact Nat.lt_of_lt_of_le (h.known id range' found') nextId

/-- Who gives a range up no longer protects anything. -/
theorem released (gone : (held' o).isActive = false) (others : ∀ o', o' ≠ o → held' o' = held o') :
    (p.release (held o)).2.OwnedBy held' := by
  have elsewhere {o' : ω} {id : Nat} (active : held' o' = .active id) :
      o' ≠ o ∧ held o' = .active id := by
    have other : o' ≠ o := fun same => RangeHandle.ne_active gone id (same ▸ active)
    exact ⟨other, (others o' other).symm.trans active⟩
  refine ⟨fun id => ?_, fun o₁ o₂ id active active' => ?_, fun id range found => ?_⟩
  · rw [get?_release]
    split
    next own =>
      -- The range has gone, and nobody shared it.
      refine iff_of_false ?_ (by simp)
      rintro ⟨o', active⟩
      exact (elsewhere active).1 (h.alone o' o id (elsewhere active).2 own)
    next foreign =>
      rw [← h.owner id]
      constructor
      · rintro ⟨o', active⟩
        exact ⟨o', (elsewhere active).2⟩
      · rintro ⟨o', active⟩
        have other : o' ≠ o := fun same => foreign (same ▸ active)
        exact ⟨o', (others o' other).trans active⟩
  · exact h.alone o₁ o₂ id (elsewhere active).2 (elsewhere active').2
  · rw [get?_release] at found
    rw [nextId_release]
    split at found
    · cases found
    · exact h.known id range found

/-- A new range takes the place of the one that its owner held before. -/
theorem replaced (name : Octets) (start : Int) (new : held' o = .active p.nextId)
    (others : ∀ o', o' ≠ o → held' o' = held o') :
    ((p.protect name start).2.release (held o)).2.OwnedBy held' := by
  -- Nobody holds the new range yet, and whoever is active afterwards is its owner or was
  -- active before.
  have fresh (o' : ω) : held o' ≠ .active p.nextId := fun active =>
    Nat.lt_irrefl _ (h.lt_nextId active)
  have whose {o' : ω} {id : Nat} (active : held' o' = .active id) :
      o' = o ∧ id = p.nextId ∨ o' ≠ o ∧ held o' = .active id := by
    by_cases same : o' = o
    · subst same
      exact .inl ⟨rfl, RangeHandle.active.inj (active.symm.trans new)⟩
    · exact .inr ⟨same, (others o' same).symm.trans active⟩
  refine ⟨fun id => ?_, fun o₁ o₂ id active active' => ?_, fun id range found => ?_⟩
  · rw [get?_release, get?_protect]
    split
    next own =>
      refine iff_of_false ?_ (by simp)
      rintro ⟨o', active⟩
      rcases whose active with ⟨rfl, rfl⟩ | ⟨other, active⟩
      · exact fresh o' own
      · exact other (h.alone o' o id active own)
    next foreign =>
      by_cases newest : id = p.nextId
      · subst newest
        exact iff_of_true ⟨o, new⟩ ⟨_, if_pos rfl⟩
      · rw [if_neg newest, ← h.owner id]
        constructor
        · rintro ⟨o', active⟩
          exact ⟨o', ((whose active).resolve_left fun own => newest own.2).2⟩
        · rintro ⟨o', active⟩
          have other : o' ≠ o := fun same => foreign (same ▸ active)
          exact ⟨o', (others o' other).trans active⟩
  · rcases whose active with ⟨rfl, rfl⟩ | ⟨-, active₁⟩ <;>
      rcases whose active' with ⟨rfl, same⟩ | ⟨-, active₂⟩
    · rfl
    · exact absurd active₂ (fresh o₂)
    · exact absurd (same ▸ active₁) (fresh o₁)
    · exact h.alone o₁ o₂ id active₁ active₂
  · rw [get?_release, get?_protect] at found
    rw [nextId_release]
    split at found
    · cases found
    · split at found
      next newest =>
        subst newest
        exact Nat.lt_succ_self _
      next => exact Nat.lt_succ_of_lt (h.known id range found)

/-- A range that is handed on takes the place of the one that the taker held before. -/
theorem moved {giver taker : ω} (apart : giver ≠ taker) (taken : held' taker = held giver)
    (given : (held' giver).isActive = false)
    (others : ∀ o', o' ≠ giver → o' ≠ taker → held' o' = held o') :
    (p.release (held taker)).2.OwnedBy held' := by
  classical
  -- The taker gives up what it holds, and the two change places then.
  let held₁ : ω → RangeHandle := Function.update held taker .empty
  have released : (p.release (held taker)).2.OwnedBy held₁ := by
    refine h.released (o := taker) ?_ fun o' other => Function.update_of_ne other _ _
    rw [show held₁ taker = .empty from Function.update_self ..]
    rfl
  have swapped (o' : ω) {id : Nat} :
      held' o' = .active id ↔ held₁ (Equiv.swap giver taker o') = .active id := by
    by_cases isTaker : o' = taker
    · subst isTaker
      rw [Equiv.swap_apply_right, taken, show held₁ giver = held giver from
        Function.update_of_ne apart _ _]
    · by_cases isGiver : o' = giver
      · subst isGiver
        rw [Equiv.swap_apply_left, show held₁ taker = .empty from Function.update_self ..]
        exact iff_of_false (RangeHandle.ne_active given id) nofun
      · rw [Equiv.swap_apply_of_ne_of_ne isGiver isTaker, others o' isGiver isTaker,
          show held₁ o' = held o' from Function.update_of_ne isTaker _ _]
  refine ⟨fun id => ?_, fun o₁ o₂ id active active' => ?_, released.known⟩
  · rw [← released.owner id]
    constructor
    · rintro ⟨o', active⟩
      exact ⟨_, (swapped o').1 active⟩
    · rintro ⟨o', active⟩
      refine ⟨Equiv.swap giver taker o', (swapped _).2 ?_⟩
      rwa [Equiv.swap_apply_self]
  · exact (Equiv.swap giver taker).injective
      (released.alone _ _ id ((swapped o₁).1 active) ((swapped o₂).1 active'))

end OwnedBy

/-! ## What the registry tells -/

/-- The least range tells whether a file is protected. -/
theorem protects_iff_least {p : FileProtector} {file : Int} :
    p.protects file = true ↔ ∃ start, p.least? = some start ∧ start ≤ file := by
  rw [protects, List.any_eq_true]
  constructor
  · rintro ⟨range, mem, le⟩
    have mem' : range.start ∈ p.ranges.values.map (·.start) := List.mem_map_of_mem mem
    obtain ⟨start, least⟩ : ∃ start, p.least? = some start :=
      Option.isSome_iff_exists.1 (List.isSome_min?_of_mem mem')
    refine ⟨start, least, Int.le_trans ?_ (of_decide_eq_true le)⟩
    exact (List.min?_eq_some_iff.1 least).2 _ mem'
  · rintro ⟨start, least, le⟩
    obtain ⟨range, mem, rfl⟩ := List.mem_map.1 (List.min?_eq_some_iff.1 least).1
    exact ⟨range, mem, decide_eq_true le⟩

end FileProtector

/-! ## Owners in an archive -/

namespace Archive

/-- Who may hold a range. -/
inductive Owner where
  | handle (n : Int)
  | source (n : Int)
deriving DecidableEq

def held (a : Archive) : Owner → RangeHandle
  | .handle n => a.handle n
  | .source n => ((a.sources.get? n).map (·.range)).getD .empty

/-- All owners that hold a range now. -/
def holders (a : Archive) : List Owner :=
  (a.handles.keys.map Owner.handle ++ a.sources.keys.map Owner.source).filter fun o =>
    (a.held o).isActive

/-- Whether an owner protects the files from that one on. -/
def HeldFrom (a : Archive) (o : Owner) (start : Int) : Prop :=
  (a.held o).isActive = true ∧ a.protector.startOf (a.held o) = .ok start

variable {a a' : Archive} {o : Owner} {n : Int}

theorem held_of_handle (handles : ∀ m, m ≠ n → a'.handle m = a.handle m)
    (sources : a'.sources = a.sources) (other : o ≠ .handle n) : a'.held o = a.held o := by
  cases o with
  | handle m => exact handles m fun same => other (congrArg _ same)
  | source m => rw [held, held, sources]

theorem held_of_source (handles : a'.handles = a.handles)
    (sources : ∀ m, m ≠ n → a'.sources.get? m = a.sources.get? m) (other : o ≠ .source n) :
    a'.held o = a.held o := by
  cases o with
  | handle m => rw [held, held, handle, handles, handle]
  | source m => rw [held, held, sources m fun same => other (congrArg _ same)]

theorem held_setHandle (a : Archive) (n : Int) (h : RangeHandle) :
    (a.setHandle n h).held (.handle n) = h :=
  (handle_setHandle a n n h).trans (if_pos rfl)

theorem held_setHandle_of_ne (h : RangeHandle) (other : o ≠ .handle n) :
    (a.setHandle n h).held o = a.held o :=
  held_of_handle (fun m apart => (handle_setHandle a n m h).trans (if_neg apart)) rfl other

theorem held_release_of_ne (other : o ≠ .handle n) : (a.release n).held o = a.held o :=
  held_setHandle_of_ne _ other

section Move

variable {giver taker : Int}

theorem handle_move (apart : giver ≠ taker) (n : Int) : (a.move giver taker).handle n =
    if n = giver then .empty else (a.setHandle taker (a.handle giver)).handle n := by
  rw [move, if_neg apart, handle, Table.get?_insert]
  split <;> rfl

theorem protector_move (apart : giver ≠ taker) :
    (a.move giver taker).protector = (a.protector.release (a.held (.handle taker))).2 := by
  rw [move, if_neg apart]
  rfl

theorem held_move_giver (apart : giver ≠ taker) :
    (a.move giver taker).held (.handle giver) = .empty :=
  (handle_move apart giver).trans (if_pos rfl)

theorem held_move_taker (apart : giver ≠ taker) :
    (a.move giver taker).held (.handle taker) = a.held (.handle giver) :=
  (handle_move apart taker).trans ((if_neg apart.symm).trans (held_setHandle a taker _))

theorem held_move_of_ne (notGiver : o ≠ .handle giver) (notTaker : o ≠ .handle taker) :
    (a.move giver taker).held o = a.held o := by
  by_cases same : giver = taker
  · rw [move, if_pos same]
  · refine Eq.trans ?_ (held_setHandle_of_ne (a.handle giver) notTaker)
    refine held_of_handle (fun n other => (handle_move same n).trans (if_neg other)) ?_ notGiver
    rw [move, if_neg same]

end Move

theorem protector_shutDown (a : Archive) (n : Int) :
    (a.shutDown n).protector = (a.protector.release (a.held (.source n))).2 := by
  rw [held]
  unfold shutDown
  split
  next nobody => rw [nobody]; rfl
  next s found => rw [found]; rfl

theorem held_shutDown (other : o ≠ .source n) : (a.shutDown n).held o = a.held o :=
  held_of_source (handles_shutDown a n) (fun _ => get?_sources_shutDown a n) other

theorem isActive_held_shutDown
    (registered : ∀ id, a.held (.source n) = .active id →
      ∃ range, a.protector.ranges.get? id = some range) :
    ((a.shutDown n).held (.source n)).isActive = false := by
  rw [held]
  unfold shutDown
  split
  next nobody => rw [nobody]; rfl
  next s found =>
    rw [get?_restore]
    refine FileProtector.isActive_release fun id active => registered id ?_
    rw [held, found]
    exact active

/-! ## Whatever is done -/

/-- Whether each registered range is held, and by one owner only. -/
def Owned (a : Archive) : Prop := a.protector.OwnedBy a.held

theorem owned_ofLog (log : CommitLog) : Owned { log } :=
  .nobody fun o => by cases o <;> rfl

namespace Owned

variable (h : a.Owned)

include h

theorem of_ids (nextId : a'.protector.nextId = a.protector.nextId)
    (ids : ∀ id, (∃ range, a'.protector.ranges.get? id = some range) ↔
      ∃ range, a.protector.ranges.get? id = some range)
    (same : ∀ o, a'.held o = a.held o) : a'.Owned :=
  FileProtector.OwnedBy.of_ids h (Nat.le_of_eq nextId.symm) ids same

theorem of_same (protector : a'.protector = a.protector) (handles : a'.handles = a.handles)
    (sources : a'.sources = a.sources) : a'.Owned := by
  refine h.of_ids (by rw [protector]) (fun id => by rw [protector]) fun o => ?_
  cases o with
  | handle m => rw [held, held, handle, handles, handle]
  | source m => rw [held, held, sources]

theorem of_protect (o : Owner) (name : Octets) (start : Int)
    (protector : a'.protector = ((a.protector.protect name start).2.release (a.held o)).2)
    (new : a'.held o = .active a.protector.nextId)
    (others : ∀ {o'}, o' ≠ o → a'.held o' = a.held o') : a'.Owned := by
  rw [Owned, protector]
  exact h.replaced name start new fun _ => others

theorem of_release (o : Owner) (protector : a'.protector = (a.protector.release (a.held o)).2)
    (gone : (a'.held o).isActive = false) (others : ∀ {o'}, o' ≠ o → a'.held o' = a.held o') :
    a'.Owned := by
  rw [Owned, protector]
  exact h.released gone fun _ => others

/-! ### Handles -/

theorem protect (n : Int) (name : Octets) (start : Int) : (a.protect n name start).Owned := by
  let a₁ : Archive := { a with protector := (a.protector.protect name start).2 }
  exact h.of_protect (.handle n) name start rfl (held_setHandle a₁ n _)
    (held_setHandle_of_ne (a := a₁) _)

theorem advance (n file : Int) : (endState (Archive.advance n file a)).Owned := by
  rw [endState_advance]
  refine h.of_ids (FileProtector.nextId_advance ..) (fun id => ?_) fun _ => rfl
  rcases FileProtector.advance_cases (a.handle n) file a.protector with
    ⟨id', range, -, found, -, done⟩ | ⟨e, failed⟩
  · rw [done]
    dsimp only [endState]
    rw [Table.get?_insert]
    split
    next same =>
      subst same
      exact iff_of_true ⟨_, rfl⟩ ⟨range, found⟩
    next => rfl
  · rw [failed]
    rfl

theorem isActive_release (n : Int) : ((a.release n).held (.handle n)).isActive = false := by
  have released : (a.release n).held (.handle n) = (a.protector.release (a.handle n)).1 :=
    held_setHandle a n _
  rw [released]
  exact FileProtector.isActive_release fun id active => (h.owner id).1 ⟨.handle n, active⟩

theorem release (n : Int) : (a.release n).Owned :=
  h.of_release (.handle n) rfl (h.isActive_release n) held_release_of_ne

theorem drop (n : Int) : (a.drop n).Owned := by
  have handles (m : Int) :
      (a.drop n).handle m = if m = n then .empty else (a.release n).handle m := by
    rw [handle, Archive.drop, Table.get?_erase]
    split <;> rfl
  refine h.of_release (.handle n) rfl ?_ fun other => ?_
  · rw [held, handles, if_pos rfl]
    rfl
  · refine Eq.trans ?_ (held_release_of_ne other)
    exact held_of_handle (fun m apart => (handles m).trans (if_neg apart)) rfl other

theorem move (giver taker : Int) : (a.move giver taker).Owned := by
  by_cases same : giver = taker
  · rw [Archive.move, if_pos same]
    exact h
  · rw [Owned, protector_move same]
    refine h.moved (fun h => same (Owner.handle.inj h)) (held_move_taker same) ?_
      fun o' => held_move_of_ne
    rw [held_move_giver same]
    rfl

/-! ### Sources -/

theorem shutDown (n : Int) : (a.shutDown n).Owned :=
  h.of_release (.source n) (protector_shutDown a n)
    (isActive_held_shutDown fun _ => h.registered) held_shutDown

theorem dropSource (n : Int) : (a.dropSource n).Owned := by
  have sources (m : Int) : (a.dropSource n).sources.get? m =
      if m = n then none else (a.shutDown n).sources.get? m := Table.get?_erase ..
  refine h.of_release (.source n) (protector_shutDown a n) ?_ fun other => ?_
  · rw [held, sources, if_pos rfl]
    rfl
  · refine Eq.trans ?_ (held_shutDown other)
    exact held_of_source rfl (fun m apart => (sources m).trans (if_neg apart)) other

theorem openSource (n : Int) (feeder : Octets) (vlsn : Int) :
    (endState (Archive.openSource n feeder vlsn a)).Owned := by
  unfold Archive.openSource
  cases opened : Source.ofStart a.log a.protector feeder vlsn with
  | error e => exact h
  | ok c =>
    obtain ⟨active, protector, -⟩ := Source.guarded_ofStart opened
    let a₁ : Archive := { a with protector := c.protector }
    let a₂ : Archive :=
      { a₁.shutDown n with sources := (a₁.shutDown n).sources.insert n c.source }
    have sources (m : Int) : a₂.sources.get? m =
        if m = n then some c.source else (a₁.shutDown n).sources.get? m := Table.get?_insert ..
    change a₂.Owned
    refine h.of_protect (.source n) (.ofAscii "Feeder-" ++ feeder) c.source.cursor.startFile ?_ ?_
      fun other => ?_
    · rw [← protector]
      exact protector_shutDown a₁ n
    · rw [held, sources, if_pos rfl]
      exact active
    · refine Eq.trans ?_ (held_shutDown (a := a₁) other)
      exact held_of_source rfl (fun m apart => (sources m).trans (if_neg apart)) other

theorem fetch (sound : a.Sound) (n vlsn : Int) (wanted : Bool) :
    (endState (Archive.fetch n vlsn wanted a)).Owned := by
  unfold Archive.fetch
  cases found : a.sources.get? n with
  | none => exact h
  | some s =>
    have guarded := sound.guarded n s found
    have fetched := guarded.fetch vlsn wanted
    dsimp only
    -- Before and after, the source is guarded, so its range is registered if it has one.
    have restored (c : Custody) (guarded' : Source.Guarded a.log c)
        (fetched : Source.Fetched ⟨s, a.protector⟩ c) : (a.restore n c).Owned := by
      refine h.of_ids fetched.nextId (fun id => ?_) fun o => ?_
      · by_cases own : s.range = .active id
        · obtain ⟨range, registered, -⟩ := (Source.guarded_active own).1 guarded
          obtain ⟨range', registered', -⟩ :=
            (Source.guarded_active (fetched.range.trans own)).1 guarded'
          exact iff_of_true ⟨range', registered'⟩ ⟨range, registered⟩
        · rw [show (a.restore n c).protector = c.protector from rfl, fetched.others id own]
      · by_cases other : o = .source n
        · subst other
          rw [held, held, get?_restore, found]
          exact fetched.range
        · exact held_of_source rfl
            (fun m apart => (Table.get?_insert ..).trans (if_neg apart)) other
    cases done : Source.fetch a.log vlsn wanted ⟨s, a.protector⟩ with
    | ok r c =>
      rw [done] at fetched
      exact restored c fetched.1 fetched.2
    | error e c =>
      rw [done] at fetched
      exact restored c fetched.1 fetched.2.1

/-! ### Runs -/

theorem step (sound : a.Sound) (action : Action) : (a.step action).Owned := by
  cases action with
  | append r | clean => exact h.of_same rfl rfl rfl
  | markDurable vlsn =>
    change (endState (a.markDurable vlsn)).Owned
    unfold Archive.markDurable
    split
    · exact h.of_same rfl rfl rfl
    · exact h
  | protect n name start => exact h.protect n name start
  | advance n file => exact h.advance n file
  | release n => exact h.release n
  | move giver taker => exact h.move giver taker
  | drop n => exact h.drop n
  | place n vlsn =>
    change (endState (Archive.place n vlsn a)).Owned
    unfold Archive.place
    split
    · exact h.of_same rfl rfl rfl
    · exact h
  | scan n vlsn =>
    change (endState (Archive.scan n vlsn a)).Owned
    unfold Archive.scan
    split
    · exact h
    · split <;> exact h.of_same rfl rfl rfl
  | openSource n feeder vlsn => exact h.openSource n feeder vlsn
  | fetch n vlsn wanted => exact h.fetch sound n vlsn wanted
  | shutDown n => exact h.shutDown n
  | dropSource n => exact h.dropSource n

theorem run (sound : a.Sound) (actions : List Action) : (a.run actions).Owned := by
  induction actions generalizing a with
  | nil => exact h
  | cons action rest ih => exact ih (h.step sound action) (sound.step action)

end Owned

/-! ## What the registry tells -/

theorem heldFrom_iff {start : Int} :
    a.HeldFrom o start ↔ ∃ id range, a.held o = .active id ∧
      a.protector.ranges.get? id = some range ∧ range.start = start := by
  rw [HeldFrom, FileProtector.startOf]
  cases held : a.held o with
  | empty | released range => simp [RangeHandle.isActive]
  | active id =>
    cases found : a.protector.ranges.get? id with
    | none => simp [FileProtector.range?, found]
    | some range => simp [FileProtector.range?, found, RangeHandle.isActive]

theorem mem_holders : o ∈ a.holders ↔ (a.held o).isActive = true := by
  rw [holders, List.mem_filter, and_iff_right_iff_imp, List.mem_append, List.mem_map, List.mem_map]
  intro active
  cases o with
  | handle n =>
    refine .inl ⟨n, Table.mem_keys.2 (Option.ne_none_iff_exists'.1 fun missing => ?_), rfl⟩
    rw [held, handle, missing] at active
    cases active
  | source n =>
    refine .inr ⟨n, Table.mem_keys.2 (Option.ne_none_iff_exists'.1 fun missing => ?_), rfl⟩
    rw [held, missing] at active
    cases active

theorem nodup_holders (a : Archive) : a.holders.Nodup := by
  refine List.Nodup.filter _ (List.Nodup.append ?_ ?_ ?_)
  · exact a.handles.nodup_keys.map fun _ _ => Owner.handle.inj
  · exact a.sources.nodup_keys.map fun _ _ => Owner.source.inj
  · intro o handle source
    obtain ⟨n, -, rfl⟩ := List.mem_map.1 handle
    obtain ⟨m, -, same⟩ := List.mem_map.1 source
    cases same

/-- Whether the registry tells of the protected files what their owners hold. -/
structure Tells (a : Archive) : Prop where
  owned : a.Owned
  holders : a.holders.Nodup ∧ ∀ o, o ∈ a.holders ↔ (a.held o).isActive = true
  count : a.protector.count = a.holders.length
  absent : a.protector.least? = none ↔ ∀ o, (a.held o).isActive = false
  least : ∀ start, a.protector.least? = some start ↔
    (∃ o, a.HeldFrom o start) ∧ ∀ o start', a.HeldFrom o start' → start ≤ start'
  protects : ∀ file, a.protector.protects file = true ↔
    ∃ o start, a.HeldFrom o start ∧ start ≤ file
  protects_least : ∀ file, a.protector.protects file = true ↔
    ∃ start, a.protector.least? = some start ∧ start ≤ file

namespace Owned

variable (h : a.Owned)

include h

theorem mem_starts {start : Int} :
    start ∈ a.protector.ranges.values.map (·.start) ↔ ∃ o, a.HeldFrom o start := by
  simp only [List.mem_map, Table.mem_values, heldFrom_iff]
  constructor
  · rintro ⟨range, ⟨id, registered⟩, same⟩
    obtain ⟨o, active⟩ := (h.owner id).2 ⟨range, registered⟩
    exact ⟨o, id, range, active, registered, same⟩
  · rintro ⟨o, id, range, -, registered, same⟩
    exact ⟨range, ⟨id, registered⟩, same⟩

theorem exists_heldFrom : (∃ start, a.HeldFrom o start) ↔ (a.held o).isActive = true := by
  constructor
  · rintro ⟨start, active, -⟩
    exact active
  · intro active
    obtain ⟨id, active⟩ := RangeHandle.isActive_iff.1 active
    obtain ⟨range, registered⟩ := h.registered active
    exact ⟨range.start, heldFrom_iff.2 ⟨id, range, active, registered, rfl⟩⟩

/-- The holders and the registered ranges are matched with each other. -/
theorem count_eq : a.protector.count = a.holders.length := by
  have ids : a.protector.ranges.keys.Perm (a.holders.filterMap fun o => (a.held o).id?) := by
    refine (List.perm_ext_iff_of_nodup a.protector.ranges.nodup_keys ?_).2 fun id => ?_
    · refine (nodup_holders a).filterMap fun o o' id mem mem' => h.alone o o' id ?_ ?_
      · exact RangeHandle.id?_eq_some.1 mem
      · exact RangeHandle.id?_eq_some.1 mem'
    · rw [Table.mem_keys, ← h.owner, List.mem_filterMap]
      simp only [mem_holders, RangeHandle.id?_eq_some]
      constructor
      · rintro ⟨o, active⟩
        exact ⟨o, RangeHandle.isActive_iff.2 ⟨id, active⟩, active⟩
      · rintro ⟨o, -, active⟩
        exact ⟨o, active⟩
  have all : (a.holders.filterMap fun o => (a.held o).id?).length = a.holders.length := by
    rw [List.length_filterMap_eq_countP, List.countP_eq_length]
    intro o mem
    rw [RangeHandle.isSome_id?]
    exact mem_holders.1 mem
  rw [← all, ← ids.length_eq, Table.keys, List.length_map, FileProtector.count]

theorem tells : a.Tells where
  owned := h
  holders := ⟨nodup_holders a, fun _ => mem_holders⟩
  count := h.count_eq
  absent := by
    rw [FileProtector.least?, List.min?_eq_none_iff, List.eq_nil_iff_forall_not_mem]
    simp only [h.mem_starts, not_exists, ← Bool.not_eq_true, ← h.exists_heldFrom]
    exact forall_comm
  least start := by
    rw [FileProtector.least?, List.min?_eq_some_iff, h.mem_starts]
    simp only [h.mem_starts, forall_exists_index]
    exact and_congr_right fun _ => forall_comm
  protects file := by
    rw [FileProtector.protects, List.any_eq_true]
    constructor
    · rintro ⟨range, mem, le⟩
      obtain ⟨o, held⟩ := h.mem_starts.1 (List.mem_map_of_mem mem)
      exact ⟨o, range.start, held, of_decide_eq_true le⟩
    · rintro ⟨o, start, held, le⟩
      obtain ⟨range, mem, rfl⟩ := List.mem_map.1 (h.mem_starts.2 ⟨o, held⟩)
      exact ⟨range, mem, decide_eq_true le⟩
  protects_least _ := FileProtector.protects_iff_least

end Owned

/-! ## What a request comes to -/

/-- Whether a range of this name is registered on request, which nobody has held before, in the
    place of the one that the handle held, and nothing else changes. -/
structure Protects (a : Archive) (n : Int) (name : Octets) (start : Int) : Prop where
  registered : ∃ id, (a.protect n name start).held (.handle n) = .active id ∧
    (a.protect n name start).protector.ranges.get? id = some { name, start } ∧
    a.protector.ranges.get? id = none ∧ ∀ o, a.held o ≠ .active id
  heldFrom : (a.protect n name start).HeldFrom (.handle n) start
  others : ∀ o, o ≠ .handle n → (a.protect n name start).held o = a.held o ∧
    ∀ start', (a.protect n name start).HeldFrom o start' ↔ a.HeldFrom o start'

/-- Whether the range of a handle moves forward on request, and nothing else does. -/
structure Advances (a : Archive) (n file : Int) : Prop where
  forward : ∀ start, a.HeldFrom (.handle n) start → start ≤ file →
    ∃ a', advance n file a = .ok () a' ∧ a'.HeldFrom (.handle n) file ∧
      ∀ o start, o ≠ .handle n → (a'.HeldFrom o start ↔ a.HeldFrom o start)
  back : ∀ start, a.HeldFrom (.handle n) start → file < start →
    advance n file a = .error (.movesBack (a.protector.nameOf (a.handle n)) start file) a
  inactive : (a.held (.handle n)).isActive = false → advance n file a = .error .inactive a

/-- Whether a range that is handed on stays as it is, and only the one goes that the taker held
    before. -/
structure Moves (a : Archive) (giver taker : Int) : Prop where
  given : giver ≠ taker → (a.move giver taker).held (.handle giver) = .empty
  taken : (a.move giver taker).held (.handle taker) = a.held (.handle giver)
  kept : ∀ start, (a.move giver taker).HeldFrom (.handle taker) start ↔
    a.HeldFrom (.handle giver) start
  others : ∀ o, o ≠ .handle giver → o ≠ .handle taker → (a.move giver taker).held o = a.held o ∧
    ∀ start, (a.move giver taker).HeldFrom o start ↔ a.HeldFrom o start

/-- Whether a release ends the protection through one handle, once and for all, and no other. -/
structure Releases (a : Archive) (n : Int) : Prop where
  inactive : ((a.release n).held (.handle n)).isActive = false
  again : (a.release n).release n = a.release n
  others : ∀ o, o ≠ .handle n → (a.release n).held o = a.held o ∧
    ∀ start, (a.release n).HeldFrom o start ↔ a.HeldFrom o start

/-- Whether a handle that is discarded takes its range with it, and no other. -/
structure Discards (a : Archive) (n : Int) : Prop where
  gone : (a.drop n).held (.handle n) = .empty
  others : ∀ o, o ≠ .handle n → (a.drop n).held o = a.held o ∧
    ∀ start, (a.drop n).HeldFrom o start ↔ a.HeldFrom o start

/-- What an owner holds depends on its own range only. -/
theorem heldFrom_congr {o' : Owner} {start : Int} (same : a'.held o' = a.held o)
    (ranges : ∀ id, a.held o = .active id →
      a'.protector.ranges.get? id = a.protector.ranges.get? id) :
    a'.HeldFrom o' start ↔ a.HeldFrom o start := by
  simp only [heldFrom_iff, same]
  refine exists_congr fun id => exists_congr fun range => and_congr_right fun active => ?_
  rw [ranges id active]

theorem release_of_inactive (gone : (a.handle n).isActive = false) :
    a.release n = { a with handles := a.handles.insert n (a.handle n) } := by
  rw [release, FileProtector.release_of_inactive gone]

namespace Owned

variable (h : a.Owned)

include h

theorem protects (n : Int) (name : Octets) (start : Int) : a.Protects n name start := by
  -- The number is new, so the handle did not stand for it, and nobody else does.
  have unheld (o : Owner) : a.held o ≠ .active a.protector.nextId := fun active =>
    Nat.lt_irrefl _ (h.lt_nextId active)
  have unknown : a.protector.ranges.get? a.protector.nextId = none :=
    Option.eq_none_iff_forall_ne_some.2 fun range found => Nat.lt_irrefl _ (h.known _ range found)
  have active : (a.protect n name start).held (.handle n) = .active a.protector.nextId :=
    (handle_protect a n n name start).trans (if_pos rfl)
  have found : (a.protect n name start).protector.ranges.get? a.protector.nextId =
      some { name, start } := by
    refine (get?_setHandle { a with protector := _ } n _ _).trans
      ((if_neg (unheld (.handle n))).trans ?_)
    exact (FileProtector.get?_protect ..).trans (if_pos rfl)
  have same {o : Owner} (other : o ≠ .handle n) :
      (a.protect n name start).held o = a.held o :=
    held_of_handle (fun m apart => (handle_protect a n m name start).trans (if_neg apart)) rfl other
  refine ⟨⟨_, active, found, unknown, unheld⟩, heldFrom_iff.2 ⟨_, _, active, found, rfl⟩,
    fun o other => ⟨same other, fun start' => heldFrom_congr (same other) fun id held => ?_⟩⟩
  exact get?_protect a n name start (h.lt_nextId held) fun own =>
    other (h.alone o (.handle n) id held own)

theorem advances (n file : Int) : a.Advances n file where
  forward start heldFrom le := by
    obtain ⟨id, range, active, registered, rfl⟩ := heldFrom_iff.1 heldFrom
    have moved := FileProtector.advance_of_registered registered file
    rw [if_neg (Int.not_lt.2 le)] at moved
    refine ⟨_, by rw [Archive.advance, show a.handle n = .active id from active, moved], ?_, ?_⟩
    · exact heldFrom_iff.2 ⟨id, _, active, (Table.get?_insert ..).trans (if_pos rfl), rfl⟩
    · refine fun o start other => heldFrom_congr rfl fun id' active' => ?_
      refine (Table.get?_insert ..).trans (if_neg fun same => other ?_)
      exact h.alone o (.handle n) id (same ▸ active') active
  back start heldFrom lt := by
    obtain ⟨id, range, active, registered, rfl⟩ := heldFrom_iff.1 heldFrom
    have failed := FileProtector.advance_of_registered registered file
    rw [if_pos lt] at failed
    rw [Archive.advance, show a.handle n = .active id from active, failed, FileProtector.nameOf,
      FileProtector.range?, registered]
    rfl
  inactive gone := by
    have failed := FileProtector.advance_of_inactive (p := a.protector) gone file
    rw [Archive.advance, show a.handle n = a.held (.handle n) from rfl, failed]

theorem moves (giver taker : Int) : a.Moves giver taker := by
  by_cases same : giver = taker
  · subst same
    have still : a.move giver giver = a := if_pos rfl
    refine ⟨fun apart => absurd rfl apart, by rw [still], fun _ => by rw [still], ?_⟩
    intro o _ _
    rw [still]
    exact ⟨rfl, fun _ => .rfl⟩
  · -- A range that the taker does not hold is registered as before.
    have ranges {o : Owner} (other : o ≠ .handle taker) (id : Nat)
        (active : a.held o = .active id) :
        (a.move giver taker).protector.ranges.get? id = a.protector.ranges.get? id := by
      rw [protector_move same, FileProtector.get?_release]
      exact if_neg fun own => other (h.alone o (.handle taker) id active own)
    refine ⟨fun _ => held_move_giver same, held_move_taker same, fun start => ?_,
      fun o notGiver notTaker => ?_⟩
    · exact heldFrom_congr (held_move_taker same) (ranges fun h => same (Owner.handle.inj h))
    · exact ⟨held_move_of_ne notGiver notTaker,
        fun start => heldFrom_congr (held_move_of_ne notGiver notTaker) (ranges notTaker)⟩

theorem releases (n : Int) : a.Releases n where
  inactive := h.isActive_release n
  again := by
    have here : (a.release n).handle n = (a.protector.release (a.handle n)).1 :=
      held_setHandle a n _
    rw [release_of_inactive (h.isActive_release n), here]
    exact congrArg (fun handles => { a.release n with handles }) (Table.insert_insert a.handles n _)
  others o other := by
    refine ⟨held_release_of_ne other, fun start => heldFrom_congr (held_release_of_ne other) ?_⟩
    intro id active
    refine (get?_setHandle a n _ id).trans (if_neg fun own => other ?_)
    exact h.alone o (.handle n) id active own

theorem discards (n : Int) : a.Discards n where
  gone := by
    rw [held, handle, Archive.drop, Table.get?_erase, if_pos rfl]
    rfl
  others o other := by
    obtain ⟨same, heldFrom⟩ := (h.releases n).others o other
    have dropped : (a.drop n).held o = (a.release n).held o :=
      held_of_handle (fun m apart => by
        rw [handle, Archive.drop, Table.get?_erase, if_neg apart, handle]) rfl other
    exact ⟨dropped.trans same,
      fun start => (heldFrom_congr dropped fun _ _ => rfl).trans (heldFrom start)⟩

end Owned

/-- Whatever is done with handles and sources, the ranges that are registered are those that
    have an owner, and each has one.  A range is registered at its owner's request, moves forward
    as long as it is registered, and goes with its owner. -/
theorem ranges_owned (log : CommitLog) (actions : List Action) :
    let a := run { log } actions
    a.Tells ∧ (∀ n name start, a.Protects n name start) ∧ (∀ n file, a.Advances n file) ∧
      (∀ giver taker, a.Moves giver taker) ∧ (∀ n, a.Releases n) ∧ (∀ n, a.Discards n) ∧
      ∀ later id range range', a.protector.ranges.get? id = some range →
        (a.run later).protector.ranges.get? id = some range' → range.start ≤ range'.start := by
  intro a
  have sound : a.Sound := (sound_ofLog log).run actions
  have owned : a.Owned := (owned_ofLog log).run (sound_ofLog log) actions
  refine ⟨owned.tells, owned.protects, owned.advances, owned.moves, owned.releases,
    owned.discards, fun later id range range' found found' => ?_⟩
  obtain ⟨before, registered, le⟩ :=
    (sound.later_run later).forward id (owned.known id range found) range' found'
  cases registered.symm.trans found
  exact le

end Archive

end Replication.Log
