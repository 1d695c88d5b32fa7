import Replication.Feeder.Feeding

/-! # Watching a feeder

What a feeder writes to its connection, frame by frame, and what its output loop finds each
time it looks for a shutdown request.
-/

namespace Replication

/-! ## 1. Recorded links -/

/-- An end of a link that records what was written there. -/
def Link.Transport.recorded {σ : Type} (t : Transport σ) : Transport (σ × List Octets) where
  read n := fun (link, frames) =>
    match t.read n link with
    | .ok bytes link => .ok bytes (link, frames)
    | .error e link => .error e (link, frames)
  write bytes := fun (link, frames) =>
    match t.write bytes link with
    | .ok () link => .ok () (link, frames ++ [bytes])
    | .error e link => .error e (link, frames)
  setTimeout milliseconds := fun (link, frames) => (t.setTimeout milliseconds link, frames)
  close := fun (link, frames) => (t.close link, frames)

namespace Feeder

variable {σ ρ : Type}

namespace Feeding

/-- What was written to a connection that is recorded. -/
def written (s : Feeding (σ × List Octets) ρ) : List Octets :=
  s.session.link.2

/-- What the output loop finds if an action has it look for a shutdown request. -/
def look? (s : Feeding σ ρ) : Action → Option Int64
  | .output .. =>
    if s.feeder.output = .requesting ∧ s.feeder.cancelled = false then
      some s.feeder.shutdownRequest
    else none
  | _ => none

end Feeding

/-! ## 2. Watched feeders -/

/-- A feeder at work, and what the looks for a shutdown request have found so far. -/
structure Watched (σ ρ : Type) where
  feeding : Feeding σ ρ
  looks : List Int64 := []

namespace Watched

def step (setup : Setup σ ρ) (w : Watched σ ρ) (a : Feeding.Action) : Watched σ ρ where
  feeding := w.feeding.step setup a
  looks := w.looks ++ (w.feeding.look? a).toList

def run (setup : Setup σ ρ) (w : Watched σ ρ) (actions : List Feeding.Action) : Watched σ ρ :=
  actions.foldl (step setup) w

end Watched

end Feeder

end Replication
