import Replication.Election.Message
import Replication.Octets.Decimal

/-! # Election records

Messages as single lines of text: a version, the group, the name of the message and
its fields, with bars between them.  Formatting and parsing are inverse to each
other, except that a complaint loses its bars.
-/

namespace Replication.Election

/-! ## 1. Names and errors -/

/-- The kinds of records. -/
inductive RecordOp where
  | propose
  | accept
  | promise
  | accepted
  | reject
  | protocolError
deriving DecidableEq, Repr

namespace RecordOp

/-- The two letters that name a record. -/
def tag : RecordOp → Token
  | propose => ⟨.ofAscii "PR", by decide⟩
  | accept => ⟨.ofAscii "AC", by decide⟩
  | promise => ⟨.ofAscii "PA", by decide⟩
  | accepted => ⟨.ofAscii "AD", by decide⟩
  | reject => ⟨.ofAscii "RJ", by decide⟩
  | protocolError => ⟨.ofAscii "PE", by decide⟩

def requests : List RecordOp := [propose, accept]

def responses : List RecordOp := [promise, accepted, reject, protocolError]

end RecordOp

def recordVersion : Token := ⟨.ofAscii "1", by decide⟩

/-- Why a record could not be read. -/
inductive RecordError where
  /-- The record has no version, group and name. -/
  | malformed (record : Octets)
  | unsupportedVersion (version : Token)
  | foreignGroup (sent own : Token)
  | unexpectedRequest (op : Token)
  | unexpectedResponse (op : Token)
  | fieldCount (op : RecordOp) (expected got : Nat)
  | badProposal (error : ProposalError)
  /-- A promise has an accepted value, but no accepted proposal. -/
  | valueWithoutProposal
  /-- The text of a number field is no number that fits a long. -/
  | badNumber (field text : Octets)
  /-- Something follows the number. -/
  | trailingCharacters (field text : Octets)
  /-- The number does not fit the field. -/
  | outOfRange (field text : Octets)
deriving DecidableEq, Repr

def RecordError.message : RecordError → Octets
  | .malformed record => .ofAscii "malformed election record: " ++ Octets.quoted record
  | .unsupportedVersion version =>
    .ofAscii "unsupported election protocol version " ++ version.text
  | .foreignGroup sent own =>
    .ofAscii "record for group " ++ sent.text ++ .ofAscii " sent to group " ++ own.text
  | .unexpectedRequest op => .ofAscii "unexpected election request op " ++ Octets.quoted op.text
  | .unexpectedResponse op =>
    .ofAscii "unexpected election response op " ++ Octets.quoted op.text
  | .fieldCount op expected got =>
    op.tag.text ++ .ofAscii " expects " ++ Decimal.render expected ++ .ofAscii " fields, got "
      ++ Decimal.render got
  | .badProposal error => error.message
  | .valueWithoutProposal => .ofAscii "promise carries an accepted value without a proposal"
  | .badNumber field text => .ofAscii "bad " ++ field ++ .ofAscii ": " ++ Octets.quoted text
  | .trailingCharacters field text =>
    .ofAscii "trailing characters in " ++ field ++ .ofAscii ": " ++ Octets.quoted text
  | .outOfRange field text => field ++ .ofAscii " out of range: " ++ Octets.quoted text

/-! ## 2. Formatting -/

namespace Record

/-- The record of a group with the given name and fields. -/
def compose (group : Token) (op : RecordOp) (fields : List Octets) : Octets :=
  (fields.map (separator :: ·)).foldl (· ++ ·)
    (Token.join [recordVersion, group, op.tag])

def formatRequest (group : Token) : Request → Octets
  | .propose p => compose group .propose [p.wire]
  | .accept p v => compose group .accept [p.wire, v.text]

/-- The record of a response.  A promise without an accepted proposal has both
    accepted fields empty. -/
def formatResponse (group : Token) : Response → Octets
  | .promise m =>
    let (proposal, value) : Octets × Octets :=
      match m.acceptedProposal with
      | some p => (p.wire, (m.acceptedValue.getD .empty).text)
      | none => ([], [])
    compose group .promise
      [m.proposal.wire, proposal, value, m.suggestion.value.text,
        Decimal.render m.suggestion.ranking.vlsn.toInt,
        Decimal.render m.suggestion.ranking.priority.toInt]
  | .accepted p v => compose group .accepted [p.wire, v.text]
  | .reject p => compose group .reject [p.wire]
  | .protocolError message => compose group .protocolError [(Token.blanked message).text]

/-! ## 3. Parsing -/

/-- Splits a record of the group into the name of its message and the fields. -/
def fields (group : Token) (record : Octets) : Except RecordError (Token × List Token) :=
  match Token.split record with
  | version :: sent :: op :: rest =>
    if version ≠ recordVersion then .error (.unsupportedVersion version)
    else if sent ≠ group then .error (.foreignGroup sent group)
    else .ok (op, rest)
  | _ => .error (.malformed record)

/-- Reads a proposal field. -/
def proposal (t : Token) : Except RecordError Proposal :=
  match Proposal.parse t.text with
  | .ok p => .ok p
  | .error e => .error (.badProposal e)

/-- Reads a 64-bit number, of which the field is named in errors. -/
def long (field : Octets) (t : Token) : Except RecordError Int64 :=
  match Decimal.scan t.text with
  | none => .error (.badNumber field t.text)
  | some (n, []) => .ok (Int64.ofInt n)
  | some (_, _ :: _) => .error (.trailingCharacters field t.text)

/-- Reads a 32-bit number. -/
def int (field : Octets) (t : Token) : Except RecordError Int32 := do
  let n := (← long field t).toInt
  if Int32.minValue.toInt ≤ n ∧ n ≤ Int32.maxValue.toInt then return Int32.ofInt n
  throw (.outOfRange field t.text)

/-- Reads the accepted pair of a promise: both fields are empty, or the first holds a
    proposal. -/
def acceptedPair (p v : Token) : Except RecordError (Option Proposal × Option Token) := do
  if p ≠ .empty then return (some (← proposal p), some v)
  if v ≠ .empty then throw .valueWithoutProposal
  return (none, none)

def parseRequest (group : Token) (record : Octets) : Except RecordError Request := do
  let (op, fields) ← fields group record
  match RecordOp.requests.find? (·.tag = op), fields with
  | some .propose, [p] => return .propose (← proposal p)
  | some .propose, fields => throw (.fieldCount .propose 1 fields.length)
  | some .accept, [p, v] => return .accept (← proposal p) v
  | some .accept, fields => throw (.fieldCount .accept 2 fields.length)
  | _, _ => throw (.unexpectedRequest op)

def parseResponse (group : Token) (record : Octets) : Except RecordError Response := do
  let (op, fields) ← fields group record
  match RecordOp.responses.find? (·.tag = op), fields with
  | some .promise, [p, ap, av, value, vlsn, priority] =>
    let p ← proposal p
    let (acceptedProposal, acceptedValue) ← acceptedPair ap av
    let vlsn ← long (.ofAscii "suggestion vlsn") vlsn
    let priority ← int (.ofAscii "suggestion priority") priority
    return .promise
      { proposal := p, acceptedProposal, acceptedValue,
        suggestion := { value, ranking := { vlsn, priority } } }
  | some .promise, fields => throw (.fieldCount .promise 6 fields.length)
  | some .accepted, [p, v] => return .accepted (← proposal p) v
  | some .accepted, fields => throw (.fieldCount .accepted 2 fields.length)
  | some .reject, [p] => return .reject (← proposal p)
  | some .reject, fields => throw (.fieldCount .reject 1 fields.length)
  | some .protocolError, [message] => return .protocolError message.text
  | some .protocolError, fields => throw (.fieldCount .protocolError 1 fields.length)
  | _, _ => throw (.unexpectedResponse op)

/-! ## 4. What records look like -/

/-- Whether a text is a numeral of a 64-bit number. -/
def IsLong (text : Octets) : Prop :=
  ∃ n, Decimal.Numeral text n ∧ Decimal.InWord n

/-- Whether a text is a numeral of a 32-bit number. -/
def IsInt (text : Octets) : Prop :=
  ∃ n, Decimal.Numeral text n ∧ Int32.minValue.toInt ≤ n ∧ n ≤ Int32.maxValue.toInt

/-- The records of the group that ask for something. -/
inductive IsRequest (group : Token) : Octets → Prop where
  | propose {p : Token} (proposal : Proposal.Spelled p.text) :
    IsRequest group (compose group .propose [p.text])
  | accept {p v : Token} (proposal : Proposal.Spelled p.text) :
    IsRequest group (compose group .accept [p.text, v.text])

/-- The records of the group that answer something.  A promise has both accepted fields
    empty, or an accepted proposal and any value. -/
inductive IsResponse (group : Token) : Octets → Prop where
  | promise {p a av sv n k : Token} (proposal : Proposal.Spelled p.text)
    (pair : a.text = [] ∧ av.text = [] ∨ Proposal.Spelled a.text)
    (vlsn : IsLong n.text) (priority : IsInt k.text) :
    IsResponse group (compose group .promise [p.text, a.text, av.text, sv.text, n.text, k.text])
  | accepted {p v : Token} (proposal : Proposal.Spelled p.text) :
    IsResponse group (compose group .accepted [p.text, v.text])
  | reject {p : Token} (proposal : Proposal.Spelled p.text) :
    IsResponse group (compose group .reject [p.text])
  | protocolError {message : Token} :
    IsResponse group (compose group .protocolError [message.text])

end Record

end Replication.Election
