import Replication.Election.Acceptor

/-! # What may be raised while a record is read

The parsers of records work on plain texts.  They call on functions that complain in ways of
their own: the scanner of numerals, and the constructors of proposals and values, which look
for separators again.  Here every complaint is kept apart, so that it can be told which of
them get out of a parser and which an acceptor would not catch.
-/

namespace Replication.Election

/-- Why the scanner finds no number at the front of a text. -/
inductive NumeralError where
  | noDigits (text : Octets)
  | outOfRange (text : Octets)
deriving DecidableEq, Repr

/-- What may be raised while a record is read or answered. -/
inductive Raised where
  /-- The record is refused. -/
  | refusal (error : RecordError)
  | numeral (error : NumeralError)
  | token (error : TokenError)
  | suggestion (error : SuggestionError)
deriving DecidableEq, Repr

/-- Whether an argument was found unfit, by the scanner or by a constructor. -/
def Raised.isLogic : Raised → Bool
  | numeral _ | token _ => true
  | refusal _ | suggestion _ => false

namespace Reading

/-! ## 1. Fields -/

def value (text : Octets) : Except Raised Token :=
  (Token.ofText text .value).mapError .token

def proposal (text : Octets) : Except Raised Proposal :=
  if text.length < Proposal.timeDigits then throw (.refusal (.badProposal (.tooShort text)))
  else
    match Hexadecimal.value? (text.take Proposal.timeDigits) with
    | none => throw (.refusal (.badProposal (.badHexDigit text)))
    | some time =>
      let suffix := text.drop Proposal.timeDigits
      if separator ∈ suffix then throw (.refusal (.badProposal (.separatorInSuffix text)))
      else (Proposal.make (UInt64.ofNat time) suffix).mapError .token

/-- The number at the front of a text, and what follows it. -/
def numeral (text : Octets) : Except Raised (Int × Octets) :=
  match Decimal.scan text with
  | some found => return found
  | none =>
    let (_, body) := Decimal.splitSign (text.dropWhile Decimal.isBlank)
    throw (.numeral (if body.takeWhile Decimal.isDigit = [] then .noDigits text
      else .outOfRange text))

/-- Reads a 64-bit number.  Arguments found unfit are caught, and the text is refused. -/
def long (field text : Octets) : Except Raised Int64 :=
  tryCatch (do
    let (n, rest) ← numeral text
    if rest ≠ [] then throw (.refusal (.trailingCharacters field text))
    return Int64.ofInt n)
  fun raised =>
    throw (if raised.isLogic then .refusal (.badNumber field text) else raised)

/-- Reads a 32-bit number. -/
def int (field text : Octets) : Except Raised Int32 := do
  let n := (← long field text).toInt
  if Int32.minValue.toInt ≤ n ∧ n ≤ Int32.maxValue.toInt then return Int32.ofInt n
  throw (.refusal (.outOfRange field text))

def acceptedPair (p v : Octets) : Except Raised (Option Proposal × Option Token) := do
  if p ≠ [] then return (some (← proposal p), some (← value v))
  if v ≠ [] then throw (.refusal .valueWithoutProposal)
  return (none, none)

/-! ## 2. Records -/

/-- Splits a record of the group into the name of its message and the texts of the fields. -/
def fields (group : Token) (record : Octets) : Except Raised (Token × List Octets) := do
  let (op, fields) ← (Record.fields group record).mapError .refusal
  return (op, fields.map (·.text))

def request (group : Token) (record : Octets) : Except Raised Request := do
  let (op, fields) ← fields group record
  match RecordOp.requests.find? (·.tag = op), fields with
  | some .propose, [p] => return .propose (← proposal p)
  | some .propose, fields => throw (.refusal (.fieldCount .propose 1 fields.length))
  | some .accept, [p, v] => return .accept (← proposal p) (← value v)
  | some .accept, fields => throw (.refusal (.fieldCount .accept 2 fields.length))
  | _, _ => throw (.refusal (.unexpectedRequest op))

def response (group : Token) (record : Octets) : Except Raised Response := do
  let (op, fields) ← fields group record
  match RecordOp.responses.find? (·.tag = op), fields with
  | some .promise, [p, ap, av, sv, vlsn, priority] =>
    let p ← proposal p
    let (acceptedProposal, acceptedValue) ← acceptedPair ap av
    let sv ← value sv
    let vlsn ← long (.ofAscii "suggestion vlsn") vlsn
    let priority ← int (.ofAscii "suggestion priority") priority
    return .promise
      { proposal := p, acceptedProposal, acceptedValue,
        suggestion := { value := sv, ranking := { vlsn, priority } } }
  | some .promise, fields => throw (.refusal (.fieldCount .promise 6 fields.length))
  | some .accepted, [p, v] => return .accepted (← proposal p) (← value v)
  | some .accepted, fields => throw (.refusal (.fieldCount .accepted 2 fields.length))
  | some .reject, [p] => return .reject (← proposal p)
  | some .reject, fields => throw (.refusal (.fieldCount .reject 1 fields.length))
  | some .protocolError, [message] => return .protocolError message
  | some .protocolError, fields => throw (.refusal (.fieldCount .protocolError 1 fields.length))
  | _, _ => throw (.refusal (.unexpectedResponse op))

end Reading

/-- Answers a record with a record.  Only the refusal of a record is caught and answered with
    a complaint. -/
def Acceptor.answerRecord (suggest : Suggest) (record : Octets) :
    EStateM Raised Acceptor Octets := do
  let group := (← get).group
  match Reading.request group record with
  | .ok request =>
    let response ← (process suggest request).adaptExcept .suggestion
    return Record.formatResponse group response
  | .error (.refusal e) =>
    return Record.formatResponse group (.protocolError e.message.zeroTerminated)
  | .error raised => throw raised

end Replication.Election
