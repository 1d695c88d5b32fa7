import Replication.Election.Timestamps
import Replication.Table

/-! # Drawing at the same time

All that draws proposals in one process: generators, and strategies with generators of their
own, which come and go while any number of callers draw from them.  Each `step` is one atomic
step of one caller, so a list of actions is one interleaving, and the clock may read anything at
any time.
-/

namespace Replication.Election

/-! ## 1. Sources -/

/-- The strategy of the election of a master, as far as it draws: from a generator of its
    own. -/
structure MasterStrategy where
  generator : Generator
deriving DecidableEq, Repr

def MasterStrategy.ofNode (node : Int32) : Except TokenError MasterStrategy :=
  (Generator.ofNode node).map MasterStrategy.mk

/-- What can be asked for a proposal. -/
inductive Source where
  | plain (g : Generator)
  | strategy (s : MasterStrategy)
deriving DecidableEq, Repr

def Source.generator : Source → Generator
  | plain g => g
  | strategy s => s.generator

/-- The kinds of sources. -/
inductive SourceKind where
  | plain
  | strategy
deriving DecidableEq, Repr

/-- A source of a node. -/
def SourceKind.make (node : Int32) : SourceKind → Except TokenError Source
  | plain => (Generator.ofNode node).map Source.plain
  | strategy => (MasterStrategy.ofNode node).map Source.strategy

/-! ## 2. Processes -/

/-- A call under way: the source that it was made to, and how far it has come. -/
structure Drawing where
  source : Nat
  generator : Generator
  draw : Draw
deriving DecidableEq, Repr

/-- A proposal with the caller that it was given to, and the source that it came from. -/
structure Drawn where
  caller : Nat
  source : Nat
  proposal : Proposal
deriving DecidableEq, Repr

/-- A process with all the sources that it ever had.  What was drawn stands in the order of the
    exchanges. -/
structure Process where
  shared : UInt64
  sources : List Source
  discarded : List Nat
  /-- The calls under way, by caller. -/
  calls : Table Nat Drawing
  /-- How many calls have begun. -/
  begun : Nat
  /-- What the clock read, the latest first. -/
  readings : List UInt64
  drawn : List Drawn

namespace Process

/-- A process in which nothing was drawn. -/
def start : Process where
  shared := 0
  sources := []
  discarded := []
  calls := .empty
  begun := 0
  readings := []
  drawn := []

/-- A source that is still there. -/
def source? (p : Process) (i : Nat) : Option Source :=
  if i ∈ p.discarded then none else p.sources[i]?

/-- Whether a source is being drawn from. -/
def inUse (p : Process) (i : Nat) : Bool :=
  p.calls.values.any (·.source = i)

/-- What a caller was given, in order. -/
def given (p : Process) (caller : Nat) : List Proposal :=
  (p.drawn.filter (·.caller = caller)).map (·.proposal)

/-! ## 3. Steps -/

/-- What happens next. -/
inductive Action where
  | create (kind : SourceKind) (node : Int32)
  | discard (source : Nat)
  /-- A caller turns to a source, and loads the last stamp. -/
  | load (caller source : Nat)
  | readClock (caller : Nat) (now : UInt64)
  /-- A caller exchanges its offer, which may fail for no reason. -/
  | exchange (caller : Nat) (spurious : Bool)
deriving DecidableEq, Repr

/-- The node of a source that is created. -/
def Action.node? : Action → Option Int32
  | create _ node => some node
  | discard _ | load .. | readClock .. | exchange .. => none

/-- Goes on with a call. -/
def proceed (p : Process) (caller : Nat) (draw : Draw) : Process :=
  { p with calls := p.calls.update caller ({ · with draw }) }

/-- Ends a call with the stamp that it has drawn. -/
def finish (p : Process) (caller : Nat) (call : Drawing) (stamp : UInt64) : Process :=
  { p with
    calls := p.calls.erase caller
    drawn := p.drawn ++
      [{ caller, source := call.source
         proposal := { time := stamp, suffix := call.generator.suffix } }] }

/-- One action.  What cannot happen now leaves everything as it was: no source is discarded
    while it is drawn from, and a caller has one call at a time. -/
def step (p : Process) : Action → Process
  | .create kind node =>
    match kind.make node with
    | .ok source => { p with sources := p.sources ++ [source] }
    | .error _ => p
  | .discard i =>
    if (p.source? i).isSome ∧ ¬ p.inUse i then { p with discarded := i :: p.discarded } else p
  | .load caller i =>
    match p.source? i, p.calls.get? caller with
    | some source, none =>
      { p with
        calls := p.calls.insert caller
          { source := i, generator := source.generator, draw := .loaded p.shared }
        begun := p.begun + 1 }
    | _, _ => p
  | .readClock caller now =>
    match p.calls.get? caller with
    | some { draw := .loaded last, .. } =>
      { p.proceed caller ((Draw.loaded last).readClock now) with readings := now :: p.readings }
    | _ => p
  | .exchange caller spurious =>
    match p.calls.get? caller with
    | some { source, generator, draw := .offering last next } =>
      match (Draw.offering last next).exchange p.shared spurious with
      | (.retry draw, shared) => { p.proceed caller draw with shared }
      | (.drawn stamp, shared) =>
        { p.finish caller { source, generator, draw := .offering last next } stamp with shared }
    | _ => p

def run (actions : List Action) : Process :=
  actions.foldl step start

/-- The nodes of all sources that are created, in order. -/
def nodes (actions : List Action) : List Int32 :=
  actions.filterMap (·.node?)

end Process

end Replication.Election
