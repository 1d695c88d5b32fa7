import Replication.Election.Acceptor
import Replication.Election.Choice
import Replication.Election.Proposer
import Replication.Election.Retry

/-! # An electorate in one process

Acceptors that proposers reach through text records, with faults injected into chosen
exchanges.  Exchanges run one after the other in the order of submission, and all of a
broadcast are run, also those whose replies nobody waits for.  `Campaign.run` is one
election of one proposer against the electorate.
-/

namespace Replication.Election

/-! ## 1. Members and faults -/

/-- A node named as acceptor; one that is out of reach has no acceptor. -/
structure Member where
  name : Octets
  reachable : Option (Acceptor × Suggestion)

/-- What happens to one exchange. -/
structure Fault where
  /-- The election is decided elsewhere meanwhile. -/
  conclude : Bool := false
  /-- The proposer is shut down meanwhile. -/
  shutDown : Bool := false
  /-- The exchange fails with this text. -/
  fail : Option Octets := none
  /-- This text comes back without the acceptor being asked. -/
  reply : Option Octets := none
  /-- The acceptor gets this text in the place of the request. -/
  send : Option Octets := none
  /-- The acceptor's answer is lost. -/
  loseReply : Bool := false

/-- An exchange as it went over the wire. -/
structure Transcript where
  acceptor : Octets
  request : Octets
  reply : Except Octets Octets

/-- The members of a group, the faults by the number of the exchange they befall, and
    the exchanges so far. -/
structure Electorate where
  group : Token
  members : List Member
  faults : List (Nat × Fault) := []
  exchanges : Nat := 0
  transcripts : List Transcript := []

/-- The fault that befalls an exchange, the latest one listed for it. -/
def Electorate.fault (e : Electorate) (number : Nat) : Fault :=
  ((e.faults.reverse.find? (·.1 = number)).map (·.2)).getD {}

/-! ## 2. Candidates -/

/-- A proposer of the electorate: the proposals it uses one after the other, and what
    it has gone through. -/
structure Candidate where
  upcoming : List Proposal
  last : Proposal := { time := 0, suffix := .empty }
  isShutDown : Bool := false
  total : Counters := {}

/-- The next proposal: the first one listed, else the last one with a later time. -/
def Candidate.next (c : Candidate) : Proposal × Candidate :=
  match c.upcoming with
  | p :: rest => (p, { c with upcoming := rest, last := p })
  | [] =>
    let p := { c.last with time := c.last.time + 1 }
    (p, { c with last := p })

/-! ## 3. Campaigns -/

/-- One election of one candidate. -/
structure Campaign where
  electorate : Electorate
  candidate : Candidate
  retry : Retry

namespace Campaign

/-- Hands a record to the member of that name. -/
def ask (name record : Octets) : StateM Campaign (Except Octets Octets) := do
  let members := (← get).electorate.members
  match members.find? (·.name = name) with
  | some { reachable := some (acceptor, suggestion), .. } =>
    match acceptor.processRecord (fun _ => some suggestion) record with
    | .error e _ => return .error e.message
    | .ok reply acceptor =>
      let members := members.map fun m =>
        if m.name = name then { m with reachable := some (acceptor, suggestion) } else m
      modify fun c => { c with electorate := { c.electorate with members } }
      return .ok reply
  | _ => return .error (.ofAscii "cannot reach " ++ name)

/-- Carries a record to the member of that name and its reply back, as far as the
    fault allows. -/
def carry (fault : Fault) (name record : Octets) : StateM Campaign (Except Octets Octets) := do
  match fault.fail, fault.reply with
  | some text, _ => return .error text
  | none, some text => return .ok text
  | none, none =>
    let reply ← ask name (fault.send.getD record)
    if fault.loseReply then return reply.bind fun _ => .error (.ofAscii "reply lost")
    return reply

def exchange (name : Octets) (request : Request) : StateM Campaign (Except Octets Response) := do
  let electorate := (← get).electorate
  let fault := electorate.fault electorate.exchanges
  modify fun c =>
    { electorate := { c.electorate with exchanges := c.electorate.exchanges + 1 }
      candidate := { c.candidate with isShutDown := c.candidate.isShutDown || fault.shutDown }
      retry := if fault.conclude then c.retry.conclude else c.retry }
  let record := Record.formatRequest electorate.group request
  let reply ← carry fault name record
  let (reply, response) : Except Octets Octets × Except Octets Response :=
    match reply with
    | .error e => (.error e.zeroTerminated, .error e.zeroTerminated)
    | .ok text =>
      match Record.parseResponse electorate.group text with
      | .ok response => (.ok text, .ok response)
      | .error e => (.error e.message.zeroTerminated, .error e.message.zeroTerminated)
  modify fun c => { c with electorate :=
    { c.electorate with
      transcripts :=
        c.electorate.transcripts ++ [{ acceptor := name, request := record, reply }] } }
  return response

/-- The exchanges of a broadcast in turn.  Those of a proposer that was shut down are
    not carried out. -/
def broadcast (names : List Octets) (request : Request) : StateM Campaign (List Reply) :=
  names.mapM fun name => do
    let response ←
      if (← get).candidate.isShutDown then pure (.error ExitReason.shutDown.text)
      else exchange name request
    return { acceptor := name, response, cancelled := (← get).candidate.isShutDown }

/-- The electorate as a proposer's environment. -/
def environment : Environment (StateM Campaign) where
  retry := modifyGet fun c => let (go, retry) := c.retry.next; (go, { c with retry })
  retries := return (← get).retry.retries
  concluded := return (← get).retry.concluded
  cancelled := return (← get).candidate.isShutDown
  nextProposal :=
    modifyGet fun c => let (p, candidate) := c.candidate.next; (p, { c with candidate })
  broadcast := broadcast
  choose := fun votes => return chooseMaster votes

/-- As many rounds as the limit on retries can allow, and the refusal after them. -/
def fuel (c : Campaign) : Nat := c.retry.maxRetries.toNatClampNeg + 2

/-- Runs the election and adds its counters to the candidate's total. -/
def run (q : Quorum) (policy : QuorumPolicy) : StateM Campaign (Option Outcome) := do
  let c ← get
  let outcome ←
    Proposer.run environment q policy (c.electorate.members.map (·.name)) c.fuel {}
  match outcome with
  | none => return none
  | some outcome =>
    modify fun c => { c with candidate :=
      { c.candidate with total := c.candidate.total + outcome.counters } }
    return some outcome

end Campaign

end Replication.Election
