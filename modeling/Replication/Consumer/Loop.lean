import Replication.Consumer.Streaming

/-! # Following the master

`follow` opens a connection and streams, and opens the next one after a failure that may
pass.  It ends when a connection is over, when the retries are used up, or when the
master changes; other failures leave it as an error.
-/

namespace Replication.Consumer

open Replication.Group (Master)
open Replication.Replay (Ack)

/-- What may happen to a consumer while it waits. -/
inductive Event where
  | elect (m : Master)
  | stop
deriving DecidableEq, Repr

/-- An attempt to reach a master: what happens meanwhile, what comes of it, and what
    happens in the pause before the next attempt. -/
structure Attempt (σ : Type) where
  meanwhile : List Event := []
  outcome : Except ConnectError σ
  afterwards : List Event := []

/-- How following the master went: the error it left with, the masters it tried to reach,
    the link it had at last, and the consumer after it. -/
structure Report (σ τ : Type) where
  error : Option ConnectionError := none
  reached : List Octets := []
  link : Option σ := none
  consumer : Consumer τ

variable {σ τ : Type}

/-- The consumer after an event. -/
def notice (c : Consumer τ) : Event → Consumer τ
  | .elect m => { c with masters := c.masters.elect m }
  | .stop => { c with stopped := true }

/-- Introduces the consumer to a master over a link that was opened, up to the first
    heartbeat; the acknowledgment of it.  A link on which that fails is closed. -/
def introduce (setup : Setup σ τ) (master : Master) (link : σ) (c : Consumer τ) :
    Except (Report σ τ) (Ack × Attached σ τ) :=
  let link := setup.transport.setTimeout setup.preHeartbeatTimeout link
  if c.stopped then
    .error {
      error := some .stoppedWhileConnecting
      link := some (setup.transport.close link)
      consumer := c }
  else
    match Attached.handshake setup master { consumer := c, session := { link } } with
    | .error e s =>
      .error {
        error := some e
        link := some (setup.transport.close s.session.link)
        consumer := s.consumer }
    | .ok first s => .ok (first, s)

/-- Opens a connection.  What earlier ones left in the queues is dropped. -/
def connect (setup : Setup σ τ) (meanwhile : List Event) (outcome : Except ConnectError σ)
    (c : Consumer τ) : Except (Report σ τ) (Ack × Attached σ τ) :=
  let c := { c with phase := .connecting }
  match c.masters.assertSync with
  | .error e => .error { error := some (.obsoleteMaster e), consumer := c }
  | .ok () =>
    let master := c.masters.node
    let c := meanwhile.foldl notice { c with requests := [], output := [] }
    match outcome with
    | .error e => .error { error := some (.connect e), reached := [master.name], consumer := c }
    | .ok link => (introduce setup master link c).mapError ({ · with reached := [master.name] })

/-- One attempt to connect and stream.  The threads move as `drive` says, and in the end
    the link is closed. -/
def attempt (setup : Setup σ τ) (drive : Streaming σ τ → Streaming σ τ) (a : Attempt σ)
    (c : Consumer τ) : Report σ τ :=
  match connect setup a.meanwhile a.outcome c with
  | .error report => report
  | .ok (first, s) =>
    let s := drive (Streaming.start setup s first)
    { error := s.error?
      reached := [c.masters.node.name]
      link := some (setup.transport.close s.session.link)
      consumer := s.leave }

/-- The report of a consumer that follows nobody any more. -/
def Report.finish (r : Report σ τ) : Report σ τ :=
  { r with consumer := { r.consumer with phase := .closed } }

/-- Makes attempts until one settles the matter.  When none are left, no link can be
    opened. -/
def followFrom (setup : Setup σ τ) (drive : Streaming σ τ → Streaming σ τ) (count : RetryCount)
    (c : Consumer τ) : List (Attempt σ) → Report σ τ
  | [] =>
    if c.stopped then { consumer := c }
    else
      let r := attempt setup drive { outcome := .error (.link (.failed [])) } c
      { r with error := none }
  | a :: rest =>
    if c.stopped then { consumer := c }
    else
      let r := attempt setup drive a c
      match r.error with
      | none => r
      | some (.connect (.passing failure)) =>
        match if r.consumer.masters.InSync then count.after failure else none with
        | none => { r with error := none }
        | some count =>
          -- The group is looked at before the pause and again behind it.
          let woken := a.afterwards.foldl notice r.consumer
          if woken.stopped ∨ ¬ woken.masters.InSync then { r with error := none, consumer := woken }
          else
            let next := followFrom setup drive count woken rest
            { next with reached := r.reached ++ next.reached }
      | some e => if e.isOrdinary then { r with error := none } else r

/-- Follows the group's master, given what attempts to reach it will lead to. -/
def follow (setup : Setup σ τ) (drive : Streaming σ τ → Streaming σ τ)
    (attempts : List (Attempt σ)) (c : Consumer τ) : Report σ τ :=
  (followFrom setup drive {} c attempts).finish

end Replication.Consumer
