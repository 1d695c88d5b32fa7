import Replication.Election.Acceptor

/-! # Calls of an acceptor

An acceptor is asked with requests and with records, and its node's suggestion may fail at
any time.  A history holds what it was asked, one call after the other, and what came of
each call.
-/

namespace Replication.Election

namespace Acceptor

/-! ## 1. Single calls -/

/-- What is asked of an acceptor: a request, or a record as it has arrived. -/
inductive Call where
  | request (r : Request)
  | record (text : Octets)
deriving DecidableEq, Repr

/-- What an acceptor answers: a response to a request, and a record to a record. -/
inductive Reply where
  | response (m : Response)
  | record (text : Octets)
deriving DecidableEq, Repr

def answer (suggest : Suggest) : Call → EStateM SuggestionError Acceptor Reply
  | .request r => return .response (← process suggest r)
  | .record text => return .record (← processRecord suggest text)

/-! ## 2. Histories -/

/-- One call, with the acceptor before and after it.  There is no reply if the suggestion
    failed. -/
structure Exchange where
  call : Call
  before : Acceptor
  after : Acceptor
  reply : Option Reply
deriving DecidableEq, Repr

def exchange (a : Acceptor) (suggest : Suggest) (call : Call) : Exchange :=
  match answer suggest call a with
  | .ok reply after => { call, before := a, after, reply := some reply }
  | .error _ after => { call, before := a, after, reply := none }

/-- What comes of calls that are made one after the other, each with a suggestion of its
    own. -/
def history (a : Acceptor) : List (Suggest × Call) → List Exchange
  | [] => []
  | (suggest, call) :: rest =>
    let e := a.exchange suggest call
    e :: history e.after rest

namespace Exchange

/-- The request that was made, unless it was a record that cannot be read. -/
def request? (e : Exchange) : Option Request :=
  match e.call with
  | .request r => some r
  | .record text => (Record.parseRequest e.before.group text).toOption

/-- The response that was given, as one who reads the reply finds it. -/
def response? (e : Exchange) : Option Response :=
  match e.reply with
  | some (.response m) => some m
  | some (.record text) => (Record.parseResponse e.before.group text).toOption
  | none => none

/-- Whether the call was a request to promise a proposal, and was granted.  The promise may
    have been lost, which the caller cannot tell. -/
def Promises (e : Exchange) (p : Proposal) : Prop :=
  e.request? = some (.propose p) ∧ (e.reply = none ∨ ∃ m, e.response? = some (.promise m))

/-- Whether the call was a request to accept a proposal, and was granted. -/
def Accepts (e : Exchange) (p : Proposal) : Prop :=
  ∃ v, e.request? = some (.accept p v) ∧ e.response? = some (.accepted p v)

end Exchange

end Acceptor

end Replication.Election
