import Replication.Election.Record

/-! # Acceptors

An acceptor promises only to proposals above the one it is bound to, and accepts
any proposal at least as high.  Its answer to a promise carries the pair it holds and
the suggestion of its node; when the suggestion fails, the promise stands although no
answer goes out.
-/

namespace Replication.Election

/-- What an acceptor remembers. -/
structure Acceptor where
  group : Token
  promised : Option Proposal := none
  accepted : Option (Proposal × Token) := none
deriving DecidableEq, Repr

/-- The node has nothing to suggest. -/
inductive SuggestionError where
  | noSuggestion
deriving DecidableEq, Repr

def SuggestionError.message : SuggestionError → Octets
  | .noSuggestion => .ofAscii "no suggestion"

/-- What a node suggests to a proposal, if its suggestion does not fail. -/
abbrev Suggest := Proposal → Option Suggestion

namespace Acceptor

/-- Answers a request to promise. -/
def propose (suggest : Suggest) (p : Proposal) : EStateM SuggestionError Acceptor Response :=
  fun a =>
    match a.promised.filter (p ≤ ·) with
    | some higher => .ok (.reject higher) a
    | none =>
      let a := { a with promised := some p }
      match suggest p with
      | none => .error .noSuggestion a
      | some suggestion =>
        .ok (.promise
          { proposal := p, acceptedProposal := a.accepted.map (·.1),
            acceptedValue := a.accepted.map (·.2), suggestion }) a

/-- Answers a request to accept. -/
def accept (p : Proposal) (v : Token) (a : Acceptor) : Response × Acceptor :=
  match a.promised.filter (p < ·) with
  | some higher => (.reject higher, a)
  | none => (.accepted p v, { a with promised := some p, accepted := some (p, v) })

def process (suggest : Suggest) : Request → EStateM SuggestionError Acceptor Response
  | .propose p => propose suggest p
  | .accept p v => fun a => let (response, a) := accept p v a; .ok response a

/-- Answers a record with a record.  A record that cannot be read is answered with a
    complaint and changes nothing. -/
def processRecord (suggest : Suggest) (record : Octets) :
    EStateM SuggestionError Acceptor Octets := do
  let group := (← get).group
  match Record.parseRequest group record with
  | .error e => return Record.formatResponse group (.protocolError e.message.zeroTerminated)
  | .ok request => return Record.formatResponse group (← process suggest request)

end Acceptor

end Replication.Election
