import Replication.Feeder.Basic

/-! # A feeder at work

Two loops share the connection: the output loop answers the handshake and ships, the
input loop listens.  Each `step` is one atomic move of one of them, or something that
happens to the log or the feeder from outside, so a list of actions is one interleaving.
-/

namespace Replication.Feeder

open Replication.Log (CommitLog FileProtector Positioned Record)
open Replication.Stream (Message Session StreamError)

/-- A feeder with its log, its connection and its listener. -/
structure Feeding (σ ρ : Type) where
  log : CommitLog
  protector : FileProtector
  session : Session σ
  listener : ρ
  feeder : Feeder

namespace Feeding

variable {σ ρ α : Type}

/-! ## 1. Parts of a move -/

/-- A change of the feeder alone. -/
def update (f : Feeder → Feeder) (s : Feeding σ ρ) : Feeding σ ρ :=
  { s with feeder := f s.feeder }

def onSession (x : EStateM StreamError (Session σ) α) :
    EStateM FeederError (Feeding σ ρ) α := fun s =>
  match x s.session with
  | .ok a session => .ok a { s with session }
  | .error e session => .error (.stream e) { s with session }

def onListener (x : EStateM ListenerError ρ α) : EStateM FeederError (Feeding σ ρ) α := fun s =>
  match x s.listener with
  | .ok a listener => .ok a { s with listener }
  | .error e listener => .error (.listener e) { s with listener }

def send (setup : Setup σ ρ) (m : Message) : EStateM FeederError (Feeding σ ρ) Unit :=
  onSession (Session.send setup.codec setup.transport m)

def setTimeout (setup : Setup σ ρ) (milliseconds : Int) : EStateM FeederError (Feeding σ ρ) Unit :=
  modify fun s => { s with session := s.session.setTimeout setup.transport milliseconds }

/-- Ends both loops and closes the connection. -/
def cancel (setup : Setup σ ρ) (s : Feeding σ ρ) : Feeding σ ρ :=
  { s with
    session := s.session.close setup.transport
    feeder := { s.feeder with cancelled := true, running := false } }

/-- Notes the failure of a loop, unless the feeder was to end anyway.  The first failure
    counts. -/
def fail (setup : Setup σ ρ) (e : FeederError) (s : Feeding σ ρ) : Feeding σ ρ :=
  if s.feeder.cancelled then s
  else (s.update fun f => { f with error := f.error.or (some e) }).cancel setup

/-! ## 2. The output loop -/

/-- Answers the handshake of a consumer. -/
def handshake (setup : Setup σ ρ) : EStateM FeederError (Feeding σ ρ) Unit := do
  let (version, name, type) ← onSession (Session.receiveAs setup.codec setup.transport fun
    | .clientVersion version name _ type => some (version, name, type)
    | _ => none)
  if version ≠ Stream.streamVersion then
    send setup (.incompatibleVersion (incompatibility name version))
    throw (.incompatible name version)
  -- Only a consumer that is let in is known by name from here on.
  modify (·.update ({ · with replicaName := name, replicaType := type }))
  send setup (.serverVersion Stream.streamVersion setup.master.name setup.master.id)
  setTimeout setup setup.replicaTimeout

/-- Asks the consumer to shut down, once. -/
def request (setup : Setup σ ρ) : EStateM FeederError (Feeding σ ρ) Unit := do
  let f := (← get).feeder
  if 0 ≤ f.shutdownRequest ∧ ¬ f.shutdownSent then
    send setup (.shutdownRequest f.shutdownRequest)
    modify (·.update ({ · with shutdownSent := true }))

/-- Sends a heartbeat that tells what is durable. -/
def beat (setup : Setup σ ρ) (now : Int64) : EStateM FeederError (Feeding σ ρ) Unit := do
  let s ← get
  send setup (.heartbeat (Int64.ofNat (s.feeder.heartbeats + 1)) now (Int64.ofNat s.log.durable))
  modify (·.update fun f => { f with heartbeats := f.heartbeats + 1 })

/-- Fetches the record that is shipped next, if it is durable. -/
def fetch : EStateM FeederError (Feeding σ ρ) (Option Positioned) := fun s =>
  let f := s.feeder
  match Log.Source.fetch s.log f.next (f.replicaType ≠ .arbiter)
      { source := f.source, protector := s.protector } with
  | .ok r c =>
    .ok r { s with protector := c.protector, feeder := { f with source := c.source } }
  | .error e c =>
    .error (.source e) { s with protector := c.protector, feeder := { f with source := c.source } }

/-- Ships a record that was fetched. -/
def ship (setup : Setup σ ρ) (r : Positioned) : EStateM FeederError (Feeding σ ρ) Unit := do
  match shipment (← get).feeder.replicaType r with
  | some m =>
    send setup m
    modify (·.update fun f => { f with shipped := f.shipped + 1 })
  | none => pure ()
  modify (·.update ({ · with next := (r.vlsn : Int) + 1 }))

/-- Makes a part of the output loop a move: the loop goes on as its result says, or ends
    with the failure. -/
def outputMove (setup : Setup σ ρ) (x : EStateM FeederError (Feeding σ ρ) OutputLoop)
    (s : Feeding σ ρ) : Feeding σ ρ :=
  match x s with
  | .ok output s => s.update ({ · with output })
  | .error e s => (s.fail setup e).update ({ · with output := .done })

/-- A move of the output loop.  The first heartbeat is always due. -/
def outputStep (setup : Setup σ ρ) (heartbeatDue : Bool) (now : Int64) (s : Feeding σ ρ) :
    Feeding σ ρ :=
  match s.feeder.output with
  | .idle | .done => s
  | .starting => s.outputMove setup do
    setTimeout setup setup.preHeartbeatTimeout
    return .handshaking
  | .handshaking => s.outputMove setup do
    handshake setup
    return .requesting
  -- A request that came during the handshake goes out in front of the first heartbeat.
  | .requesting =>
    if s.feeder.cancelled then s.update ({ · with output := .done })
    else s.outputMove setup do
      request setup
      return .beating
  | .beating => s.outputMove setup do
    if heartbeatDue || s.feeder.heartbeats = 0 then beat setup now
    return .fetching
  | .fetching => s.outputMove setup do
    match ← fetch with
    | some r => return .shipping r
    | none => return .requesting
  | .shipping r => s.outputMove setup do
    ship setup r
    return .requesting

/-! ## 3. The input loop -/

/-- Hands one message of the consumer to the listener. -/
def listen (setup : Setup σ ρ) (m : Message) : EStateM FeederError (Feeding σ ρ) Unit := do
  let name := (← get).feeder.replicaName
  let count (n : Nat) : EStateM FeederError (Feeding σ ρ) Unit :=
    modify (·.update fun f => { f with acks := f.acks + n })
  match m with
  | .heartbeatResponse id highVlsn dtvlsn =>
    onListener (setup.listener.heartbeatResponse name id highVlsn dtvlsn)
  | .ack txn =>
    count 1
    onListener (setup.listener.ack name txn)
  | .groupAck txns =>
    -- The whole group counts, even if the listener fails at one of them.
    count txns.length
    txns.forM fun txn => onListener (setup.listener.ack name txn)
  | .shutdownResponse => onListener (setup.listener.shutdownResponse name)
  | m => throw (.unexpected m.op)

/-- A move of the input loop. -/
def inputStep (setup : Setup σ ρ) (s : Feeding σ ρ) : Feeding σ ρ :=
  match s.feeder.input with
  | .idle | .done => s
  | .waiting =>
    match s.feeder.output with
    | .idle | .starting | .handshaking => s
    | .done => s.update ({ · with input := .done })
    | _ => s.update ({ · with input := .reading })
  | .reading =>
    if s.feeder.cancelled then s.update ({ · with input := .done })
    else
      let move : EStateM FeederError (Feeding σ ρ) Unit := do
        listen setup (← onSession (Session.receive setup.codec setup.transport))
      match move s with
      | .ok () s => s
      | .error e s => (s.fail setup e).update ({ · with input := .done })

/-! ## 4. Control -/

/-- Starts both loops. -/
def start (s : Feeding σ ρ) : Except StartError (Feeding σ ρ) :=
  if s.feeder.output ≠ .idle then .error .running
  else .ok (s.update ({ · with running := true, output := .starting, input := .waiting }))

/-- Has the consumer asked to shut down at that time. -/
def requestShutdown (s : Feeding σ ρ) (time : Int64) : Feeding σ ρ :=
  s.update ({ · with shutdownRequest := time })

/-- Ends both loops and gives up the protection of the source's files. -/
def shutDown (setup : Setup σ ρ) (s : Feeding σ ρ) : Feeding σ ρ :=
  let s := s.cancel setup
  let c := Log.Source.shutDown { source := s.feeder.source, protector := s.protector }
  { s with
    protector := c.protector
    feeder := { s.feeder with source := c.source, output := .idle, input := .idle } }

/-! ## 5. Interleavings -/

/-- What moves next. -/
inductive Action where
  | output (heartbeatDue : Bool) (now : Int64)
  | input
  | append (r : Record)
  | markDurable (vlsn : Int)
  | clean
  | requestShutdown (time : Int64)
  | shutDown
deriving DecidableEq, Repr

/-- One action.  What the log refuses leaves everything as it was. -/
def step (setup : Setup σ ρ) (s : Feeding σ ρ) : Action → Feeding σ ρ
  | .output heartbeatDue now => s.outputStep setup heartbeatDue now
  | .input => s.inputStep setup
  | .append r => { s with log := s.log.append r }
  | .markDurable vlsn =>
    match s.log.markDurable vlsn with
    | .ok log => { s with log }
    | .error _ => s
  | .clean => { s with log := s.log.clean s.protector }
  | .requestShutdown time => s.requestShutdown time
  | .shutDown => s.shutDown setup

def run (setup : Setup σ ρ) (s : Feeding σ ρ) (actions : List Action) : Feeding σ ρ :=
  actions.foldl (step setup) s

end Feeding

end Replication.Feeder
