import Replication.Consumer.Life
import Replication.Feeder.Feeding
import Replication.Link.Connection

/-! # A feeder that serves a consumer

Both ends of one connection in one process.  What the consumer takes for its link is a
`Line`: the connection and the feeder at its other end, which goes on while the consumer
waits for bytes.  A thread that finds no bytes stays where it is, so reads do not time out.
-/

namespace Replication.Serving

open Replication.Consumer (Streaming Talk)
open Replication.Feeder (Feeding)
open Replication.Link (Connection LinkError Transport)

variable {ρ τ : Type}

/-! ## 1. Lines -/

/-- What happens at the feeder's end while nobody ends its service. -/
inductive Work where
  | output (heartbeatDue : Bool) (now : Int64)
  | input
  | append (r : Log.Record)
  | markDurable (vlsn : Int)
  | clean
deriving DecidableEq, Repr

/-- The action that some work is. -/
def Work.action : Work → Feeding.Action
  | .output heartbeatDue now => .output heartbeatDue now
  | .input => .input
  | .append r => .append r
  | .markDurable vlsn => .markDurable vlsn
  | .clean => .clean

/-- The feeder's end of a connection, and what happens there before each of the reads to
    come at the other end. -/
structure Line (ρ : Type) where
  feeding : Feeding Connection ρ
  meanwhile : List (List Work) := []

namespace Line

def link (l : Line ρ) : Connection := l.feeding.session.link

def setLink (l : Line ρ) (link : Connection) : Line ρ :=
  { l with feeding := { l.feeding with session := { l.feeding.session with link } } }

/-- Whether both ends are open. -/
def IsOpen (l : Line ρ) : Prop :=
  l.link.opener.closed = false ∧ l.link.accepter.closed = false

instance (l : Line ρ) : Decidable l.IsOpen :=
  inferInstanceAs (Decidable (_ ∧ _))

/-- Whether the loop that would do some work waits for bytes. -/
def Waits (l : Line ρ) (w : Work) : Prop :=
  l.IsOpen ∧ l.link.accepter.incoming = [] ∧
    match w with
    | .output .. => l.feeding.feeder.output = .handshaking
    | .input => l.feeding.feeder.input = .reading
    | _ => False

instance (l : Line ρ) (w : Work) : Decidable (l.Waits w) := by
  unfold Waits
  cases w <;> infer_instance

variable (feeder : Feeder.Setup Connection ρ)

/-- Some work at the feeder's end. -/
def act (l : Line ρ) (w : Work) : Line ρ :=
  if l.Waits w then l else { l with feeding := l.feeding.step feeder w.action }

/-- What happens while the consumer waits for bytes. -/
def pass (l : Line ρ) : Line ρ :=
  match l.meanwhile with
  | [] => l
  | works :: meanwhile => works.foldl (act feeder) { l with meanwhile }

/-- The consumer's end. -/
def transport : Transport (Line ρ) where
  read n l :=
    let l := l.pass feeder
    match Connection.read .opener n l.link with
    | .ok bytes link => .ok bytes (l.setLink link)
    | .error e link => .error e (l.setLink link)
  write bytes l :=
    match Connection.write .opener bytes l.link with
    | .ok () link => .ok () (l.setLink link)
    | .error e link => .error e (l.setLink link)
  setTimeout milliseconds l := l.setLink (l.link.setTimeout .opener milliseconds)
  close l := l.setLink (l.link.close .opener)

end Line

/-! ## 2. Runs -/

/-- What moves next, at either end, while the connection lasts. -/
inductive Move where
  | reader
  | replayer (syncDue : Bool)
  | writer
  | feeder (w : Work)
deriving DecidableEq, Repr

section Runs

variable (feeder : Feeder.Setup Connection ρ) (consumer : Consumer.Setup (Line ρ) τ)

/-- Whether the consumer's reader waits for bytes. -/
def ReaderWaits (s : Streaming (Line ρ) τ) : Prop :=
  s.reader = .reading ∧ s.session.link.IsOpen ∧ s.session.link.link.opener.incoming = []

instance (s : Streaming (Line ρ) τ) : Decidable (ReaderWaits s) :=
  inferInstanceAs (Decidable (_ ∧ _ ∧ _))

def step (t : Talk (Line ρ) τ) : Move → Talk (Line ρ) τ
  | .reader => if ReaderWaits t.streaming then t else t.step consumer (.act .reader)
  | .replayer syncDue => t.step consumer (.act (.replayer syncDue))
  | .writer => t.step consumer (.act .writer)
  | .feeder w => t.step consumer (.link fun l => l.act feeder w)

def run (t : Talk (Line ρ) τ) (moves : List Move) : Talk (Line ρ) τ :=
  moves.foldl (step feeder consumer) t

end Runs

end Replication.Serving
