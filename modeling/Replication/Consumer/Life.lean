import Replication.Consumer.Loop

/-! # The life of a consumer

What a consumer takes off its links and puts on them, from one connection to the next.  A
`Talk` is one connection, and a `Life` is all of them.  A life may do more than `follow`
does, which decides when to try again: here the consumer may connect whenever it has no
connection, and anything may happen to a link at any time.
-/

namespace Replication.Consumer

open Replication.Replay (Ack)
open Replication.Stream (Message Session)

/-! ## 1. Connections -/

/-- A message that went over a link. -/
inductive Passage where
  | read (m : Message)
  | written (m : Message)
deriving DecidableEq, Repr

/-- The message that an action takes off the link or puts on it. -/
def Streaming.passage? {σ τ : Type} (setup : Setup σ τ) (s : Streaming σ τ) :
    Streaming.Action → Option Passage
  | .reader =>
    match s.reader with
    | .reading =>
      if s.consumer.stopped then none
      else
        match Session.receive setup.codec setup.transport s.session with
        | .ok m _ => some (.read m)
        | .error .. => none
    | _ => none
  | .writer =>
    match s.writer with
    | .writing (a :: rest) =>
      let m := (firstResponse setup.groupedAcks a rest).1
      match Session.send setup.codec setup.transport m s.session with
      | .ok .. => some (.written m)
      | .error .. => none
    | _ => none
  | _ => none

/-- What went over a link since the heartbeat of that id, which ended the handshake. -/
structure Dialogue where
  heartbeat : Int64
  read : List Message := []
  written : List Message := []
deriving DecidableEq, Repr

/-- Adds a message to a dialogue. -/
def Dialogue.note (d : Dialogue) : Option Passage → Dialogue
  | some (.read m) => { d with read := d.read ++ [m] }
  | some (.written m) => { d with written := d.written ++ [m] }
  | none => d

/-- A connection that streams, and its dialogue so far. -/
structure Talk (σ τ : Type) where
  streaming : Streaming σ τ
  dialogue : Dialogue

namespace Talk

variable {σ τ : Type}

/-- What happens next on a connection. -/
inductive Move (σ : Type) where
  | act (a : Streaming.Action)
  /-- The link changes, and nobody here did it. -/
  | link (change : σ → σ)

/-- A connection behind its handshake. -/
def start (setup : Setup σ τ) (first : Ack) (a : Attached σ τ) : Talk σ τ where
  streaming := .start setup a first
  dialogue := { heartbeat := first.id }

def step (setup : Setup σ τ) (t : Talk σ τ) : Move σ → Talk σ τ
  | .act a =>
    { streaming := t.streaming.step setup a
      dialogue := t.dialogue.note (t.streaming.passage? setup a) }
  | .link change =>
    let s := t.streaming
    { t with streaming := { s with session := { s.session with link := change s.session.link } } }

def run (setup : Setup σ τ) (t : Talk σ τ) (moves : List (Move σ)) : Talk σ τ :=
  moves.foldl (step setup) t

end Talk

/-! ## 2. Lives -/

/-- A consumer that has a connection or none, and the dialogues of the connections that it
    has had. -/
structure Life (σ τ : Type) where
  past : List Dialogue := []
  now : Consumer τ ⊕ Talk σ τ

namespace Life

variable {σ τ : Type}

/-- What happens next to a consumer. -/
inductive Move (σ : Type) where
  /-- Something happens while there is no connection. -/
  | notice (e : Event)
  /-- The node learns of a master, or follows another one. -/
  | masters (change : Group.MasterStatus → Group.MasterStatus)
  | connect (meanwhile : List Event) (outcome : Except ConnectError σ)
  | talk (m : Talk.Move σ)

/-- All dialogues, the present one last. -/
def dialogues (l : Life σ τ) : List Dialogue :=
  match l.now with
  | .inl _ => l.past
  | .inr t => l.past ++ [t.dialogue]

/-- One move.  A connection ends when its reader has. -/
def step (setup : Setup σ τ) (l : Life σ τ) (move : Move σ) : Life σ τ :=
  match l.now, move with
  | .inl c, .notice e => { l with now := .inl (notice c e) }
  | .inl c, .masters change => { l with now := .inl { c with masters := change c.masters } }
  | .inr t, .masters change =>
    let s := t.streaming
    let c := { s.consumer with masters := change s.consumer.masters }
    { l with now := .inr { t with streaming := { s with consumer := c } } }
  | .inl c, .connect meanwhile outcome =>
    match connect setup meanwhile outcome c with
    | .error report => { l with now := .inl report.consumer }
    | .ok (first, a) => { l with now := .inr (.start setup first a) }
  | .inr t, .talk m =>
    let t := t.step setup m
    if t.streaming.reader = .done then
      { past := l.past ++ [t.dialogue], now := .inl t.streaming.leave }
    else { l with now := .inr t }
  | _, _ => l

def run (setup : Setup σ τ) (l : Life σ τ) (moves : List (Move σ)) : Life σ τ :=
  moves.foldl (step setup) l

end Life

end Replication.Consumer
