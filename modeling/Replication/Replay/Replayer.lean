import Replication.Octets.Decimal
import Replication.Replay.Store

/-! # Replaying groups of messages

A replayer hands the records of the stream to the store, keeps the watermarks, and makes
them durable once per group.  What a group acknowledges is known only after that write,
so an acknowledged commit is durable.
-/

namespace Replication.Replay

open Replication.Stream (Message Entry Commit Op)

/-! ## 1. Replayers -/

/-- What the consumer of a stream is. -/
inductive Role where
  /-- It votes and acknowledges, and gets the commits alone, in any order. -/
  | arbiter
  /-- It holds the data, and gets every record in the order of the log. -/
  | replica
deriving DecidableEq, Repr

/-- The watermarks of a consumer, and how much it has done. -/
structure Replayer where
  role : Role
  masterId : Int32 := -1
  term : Int64 := 0
  highVlsn : Int64 := 0
  dtvlsn : Int64 := 0
  /-- How many transactions were acknowledged. -/
  acks : Nat := 0
  /-- How many groups went to stable storage. -/
  groupSyncs : Nat := 0
deriving DecidableEq, Repr

/-- What is written after each group. -/
def Replayer.durableState (r : Replayer) : DurableState :=
  { highVlsn := r.highVlsn, dtvlsn := r.dtvlsn, masterId := r.masterId, term := r.term }

/-- Raises the highest position. -/
def Replayer.raise (r : Replayer) (vlsn : Int64) : Replayer :=
  if r.highVlsn < vlsn then { r with highVlsn := vlsn } else r

/-- Why a group cannot be replayed. -/
inductive ReplayError where
  | store (e : StoreError)
  /-- An arbiter takes commits only. -/
  | entryAtArbiter (type : EntryType) (vlsn : Int64)
  /-- A commit of a replica knows less to be durable than an earlier one did. -/
  | dtvlsnRegressed (dtvlsn next vlsn : Int64)
  | unexpected (op : Op)
deriving DecidableEq, Repr

def ReplayError.message : ReplayError → Octets
  | .store e => e.message
  | .entryAtArbiter type vlsn =>
    .ofAscii "arbiter received a " ++ type.name ++ .ofAscii " entry at vlsn "
      ++ Decimal.render vlsn.toInt
  | .dtvlsnRegressed dtvlsn next vlsn =>
    .ofAscii "dtvlsn regressed from " ++ Decimal.render dtvlsn.toInt ++ .ofAscii " to "
      ++ Decimal.render next.toInt ++ .ofAscii " at vlsn " ++ Decimal.render vlsn.toInt
  | .unexpected op => .ofAscii "unexpected " ++ op.name ++ .ofAscii " in the replication stream"

/-! ## 2. Acknowledgments -/

/-- What is acknowledged. -/
inductive Ack.Kind where
  | txn
  | heartbeat
  | shutdown
deriving DecidableEq, Repr

/-- An acknowledgment of a transaction or heartbeat of that id, with the watermarks of
    that moment. -/
structure Ack where
  kind : Ack.Kind
  id : Int64
  highVlsn : Int64
  dtvlsn : Int64
deriving DecidableEq, Repr

/-- An acknowledgment with the present watermarks. -/
def Replayer.ack (r : Replayer) (kind : Ack.Kind) (id : Int64) : Ack :=
  { kind, id, highVlsn := r.highVlsn, dtvlsn := r.dtvlsn }

/-- What comes of a group: an acknowledgment for each message that wants one, in their
    order, the time of a requested shutdown, and whether the group went to stable
    storage. -/
structure GroupResult where
  acks : List Ack := []
  shutdown : Option Int64 := none
  synced : Bool := false
deriving DecidableEq, Repr

/-! ## 3. Replaying -/

/-- A replayer and its store. -/
structure State (σ : Type) where
  replayer : Replayer
  store : σ

namespace State

variable {σ α : Type}

def onStore (x : EStateM StoreError σ α) : EStateM ReplayError (State σ) α := fun s =>
  match x s.store with
  | .ok a store => .ok a { s with store }
  | .error e store => .error (.store e) { s with store }

/-- A change of the replayer alone. -/
def update (f : Replayer → Replayer) : EStateM ReplayError (State σ) Unit :=
  modify fun s => { s with replayer := f s.replayer }

/-- Picks up the durable state at the start of a connection to a master. -/
def start (st : Store σ) (masterId : Int32) : EStateM ReplayError (State σ) Unit := do
  let state ← onStore st.load
  update fun r =>
    { r with masterId, term := state.term, highVlsn := state.highVlsn, dtvlsn := state.dtvlsn }

/-- Replays a record that is no commit. -/
def replayEntry (st : Store σ) (e : Entry) : EStateM ReplayError (State σ) Unit := do
  match (← get).replayer.role with
  | .arbiter => throw (.entryAtArbiter e.type e.vlsn)
  | .replica =>
    onStore (st.replayEntry e)
    update (·.raise e.vlsn)

/-- Takes the dtvlsn of a commit, and on a replica the commit itself.  An arbiter keeps the
    largest dtvlsn it has seen, a replica insists that it never falls. -/
def takeCommit (st : Store σ) (c : Commit) : EStateM ReplayError (State σ) Unit := do
  let r := (← get).replayer
  let next := c.effectiveDtvlsn
  match r.role with
  | .arbiter => update fun r => if r.dtvlsn < next then { r with dtvlsn := next } else r
  | .replica =>
    if next < r.dtvlsn then throw (.dtvlsnRegressed r.dtvlsn next c.vlsn)
    else
      onStore (st.replayCommit c)
      update ({ · with dtvlsn := next })

/-- The acknowledgment of a commit, if one is wanted. -/
def acknowledge (c : Commit) : EStateM ReplayError (State σ) (Option Ack) := do
  if (← get).replayer.role = .arbiter ∨ c.needsAck then
    update fun r => { r with acks := r.acks + 1 }
    return some ((← get).replayer.ack .txn c.txn)
  else return none

/-- Replays a commit, and acknowledges it. -/
def replayCommit (st : Store σ) (c : Commit) : EStateM ReplayError (State σ) (Option Ack) := do
  -- Position and term are taken even of a commit that is refused then.
  update fun r => { r.raise c.vlsn with term := c.term }
  takeCommit st c
  acknowledge c

/-- Replays one message of a group, after those that gave `g`. -/
def replayMessage (st : Store σ) (g : GroupResult) :
    Message → EStateM ReplayError (State σ) GroupResult
  | .commit c => do
    let ack ← replayCommit st c
    return { g with acks := g.acks ++ ack.toList, synced := g.synced || c.sync = .sync }
  | .heartbeat id _ _ => return { g with acks := g.acks ++ [(← get).replayer.ack .heartbeat id] }
  | .entry e => do
    replayEntry st e
    return g
  -- A request does not end the group: what stands behind it is replayed as well.
  | .shutdownRequest time => return { g with shutdown := some time }
  | m => throw (.unexpected m.op)

/-- Replays a group and makes it durable.  It goes to stable storage when one of its
    commits asks for that, or when that is due anyway. -/
def replayGroup (st : Store σ) (syncDue : Bool) (group : List Message) :
    EStateM ReplayError (State σ) GroupResult := do
  let g ← group.foldlM (replayMessage st) {}
  let synced := g.synced || syncDue
  onStore (st.writeDurable (← get).replayer.durableState synced)
  if synced then update fun r => { r with groupSyncs := r.groupSyncs + 1 }
  return { g with synced }

end State

end Replication.Replay
