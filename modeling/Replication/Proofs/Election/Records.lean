import Replication.Election.Record
import Replication.Proofs.Computations
import Replication.Proofs.Octets.Numerals

/-! # Election records are read back

A record is cut into just the fields that it was put together from, since none of them
holds a bar, and no field but an accepted value or a complaint is ever empty.  So a message
comes back as it was sent, and only to the group that it was sent to.
-/

namespace Replication.Election

/-! ## Fields -/

namespace Token

/-- A text without bars is one field, together with what stands in front of the next bar. -/
theorem split_text_append {rest : Octets} {later : List Token}
    (cut : split rest = empty :: later) (t : Token) : split (t.text ++ rest) = t :: later := by
  obtain ⟨text, plain⟩ := t
  induction text with
  | nil => exact cut
  | cons b text ih =>
    have noBar : b ≠ separator := fun bar => plain (bar ▸ List.mem_cons_self)
    have behind := ih fun mem => plain (List.mem_cons_of_mem b mem)
    dsimp only at behind
    rw [List.cons_append, split, dif_neg noBar, behind]
    rfl

theorem split_text (t : Token) : split t.text = [t] := by
  have whole : split (t.text ++ []) = [t] := split_text_append rfl t
  rwa [List.append_nil] at whole

/-- A record is cut into the fields that it was put together from. -/
theorem split_join (t : Token) (ts : List Token) : split (join (t :: ts)) = t :: ts := by
  induction ts generalizing t with
  | nil => exact split_text t
  | cons t' ts ih =>
    have cut : split (separator :: join (t' :: ts)) = empty :: t' :: ts := by
      rw [split, dif_pos rfl, ih]
    exact split_text_append cut t

theorem join_cons (t : Token) (ts : List Token) :
    join (t :: ts) = t.text ++ (ts.map fun t => separator :: t.text).flatten := by
  induction ts generalizing t with
  | nil => exact (List.append_nil _).symm
  | cons t' ts ih =>
    rw [join, ih, List.map_cons, List.flatten_cons, List.cons_append]
    exact List.cons_ne_nil t' ts

theorem ofText?_text (t : Token) : ofText? t.text = some t :=
  dif_pos t.plain

end Token

/-- The wire form of a proposal, as a field. -/
def Proposal.field (p : Proposal) : Token where
  text := p.wire
  plain := by
    rw [Proposal.wire, List.mem_append, not_or]
    exact ⟨Hexadecimal.not_mem_render (by decide) _ _, p.suffix.plain⟩

/-- A proposal is read back from its wire form. -/
theorem Proposal.parse_wire (p : Proposal) : Proposal.parse p.wire = .ok p := by
  have length : (Hexadecimal.render timeDigits p.time.toNat).length = timeDigits :=
    Hexadecimal.length_render _ _
  have front : p.wire.take timeDigits = Hexadecimal.render timeDigits p.time.toNat :=
    List.take_left' length
  have back : p.wire.drop timeDigits = p.suffix.text := List.drop_left' length
  have small : p.time.toNat % 16 ^ timeDigits = p.time.toNat :=
    Nat.mod_eq_of_lt (UInt64.toNat_lt p.time)
  rw [parse, if_neg, front, back, Hexadecimal.value?_render, Token.ofText?_text, small]
  · simp only [UInt64.ofNat_toNat]
  · rw [wire, List.length_append, length]
    omega

namespace Record

theorem proposal_field (p : Proposal) : proposal p.field = .ok p := by
  rw [proposal, Proposal.field, Proposal.parse_wire]

/-- The numeral of a number, as a field. -/
def number (n : Int) : Token where
  text := Decimal.render n
  plain := Decimal.not_mem_render (by decide) (by decide) n

theorem long_number (name : Octets) (v : Int64) : long name (number v.toInt) = .ok v := by
  have inWord : Decimal.InWord v.toInt := by
    have low := v.le_toInt
    have high := v.toInt_lt
    simp only [Decimal.InWord, Int64.toInt_minValue, Int64.toInt_maxValue]
    omega
  have read : Decimal.scan (Decimal.render v.toInt ++ []) = some (v.toInt, []) :=
    Decimal.scan_render (by simp) inWord
  rw [List.append_nil] at read
  rw [long, number, read]
  simp only [Int64.ofInt_toInt]

theorem int_number (name : Octets) (v : Int32) : int name (number v.toInt) = .ok v := by
  have low := v.le_toInt
  have high := v.toInt_lt
  have read := long_number name v.toInt64
  rw [Int32.toInt_toInt64] at read
  rw [int, read]
  change (if Int32.minValue.toInt ≤ v.toInt64.toInt ∧ v.toInt64.toInt ≤ Int32.maxValue.toInt then
    _ else _) = _
  rw [Int32.toInt_toInt64, if_pos, Int32.ofInt_toInt]
  · rfl
  · rw [Int32.toInt_minValue, Int32.toInt_maxValue]
    omega

/-- The fields that tell an accepted pair. -/
def pairFields (pair : Option (Proposal × Token)) : Token × Token :=
  match pair with
  | some (p, v) => (p.field, v)
  | none => (.empty, .empty)

/-- The field of a proposal is never empty, so an empty accepted value is still told from
    none. -/
theorem acceptedPair_pairFields (pair : Option (Proposal × Token)) :
    acceptedPair (pairFields pair).1 (pairFields pair).2 =
      .ok (pair.map (·.1), pair.map (·.2)) := by
  cases pair with
  | none => rfl
  | some pair =>
    have nonempty : pair.1.field ≠ .empty := by
      intro same
      have length := congrArg (fun t : Token => t.text.length) same
      simp [Proposal.field, Proposal.wire, Token.empty, Proposal.timeDigits] at length
    rw [acceptedPair, pairFields, if_pos nonempty, proposal_field]
    rfl

/-! ## Records -/

theorem compose_eq_join (group : Token) (op : RecordOp) (ts : List Token) :
    compose group op (ts.map (·.text)) =
      Token.join (recordVersion :: group :: op.tag :: ts) := by
  rw [compose, List.map_map, List.foldl_append_eq_append, List.map_id', Token.join_cons,
    Token.join_cons]
  simp [Function.comp_def]

/-- A group takes the fields of its own records, and refuses those of another group. -/
theorem fields_compose (own group : Token) (op : RecordOp) (ts : List Token) :
    fields own (compose group op (ts.map (·.text))) =
      if group = own then .ok (op.tag, ts) else .error (.foreignGroup group own) := by
  rw [compose_eq_join, fields, Token.split_join]
  dsimp only
  rw [if_neg (not_not_intro rfl)]
  by_cases same : group = own
  · rw [if_pos same, if_neg (not_not_intro same)]
  · rw [if_neg same, if_pos same]

end Record

/-! ## Messages -/

/-- The record of a request: its name and its fields. -/
def Request.content : Request → RecordOp × List Token
  | .propose p => (.propose, [p.field])
  | .accept p v => (.accept, [p.field, v])

/-- Whether the accepted proposal and the accepted value of a promise stand together. -/
def Response.Paired : Response → Prop
  | .promise m => m.acceptedProposal.isSome = m.acceptedValue.isSome
  | _ => True

instance (m : Response) : Decidable m.Paired := by
  cases m <;> unfold Response.Paired <;> infer_instance

/-- What arrives of a response: a complaint has a blank in the place of each bar. -/
def Response.arrived : Response → Response
  | .protocolError message =>
    .protocolError (message.map fun b => if b = separator then 32 else b)
  | m => m

/-- The record of a response: its name and its fields. -/
def Response.content : Response → RecordOp × List Token
  | .promise m =>
    let pair := Record.pairFields (m.acceptedProposal.map (·, m.acceptedValue.getD .empty))
    (.promise, [m.proposal.field, pair.1, pair.2, m.suggestion.value,
      Record.number m.suggestion.ranking.vlsn.toInt,
      Record.number m.suggestion.ranking.priority.toInt])
  | .accepted p v => (.accepted, [p.field, v])
  | .reject p => (.reject, [p.field])
  | .protocolError message => (.protocolError, [.blanked message])

namespace Record

theorem formatRequest_eq_compose (group : Token) (r : Request) :
    formatRequest group r = compose group r.content.1 (r.content.2.map (·.text)) := by
  cases r <;> rfl

theorem formatResponse_eq_compose (group : Token) (m : Response) :
    formatResponse group m = compose group m.content.1 (m.content.2.map (·.text)) := by
  cases m with
  | promise m =>
    obtain ⟨p, accepted, value, suggestion⟩ := m
    cases accepted <;> rfl
  | _ => rfl

/-- The names of the requests tell them apart. -/
theorem find?_requests {op : RecordOp} (known : op ∈ RecordOp.requests) :
    RecordOp.requests.find? (·.tag = op.tag) = some op := by
  revert op
  decide

/-- So do those of the responses. -/
theorem find?_responses {op : RecordOp} (known : op ∈ RecordOp.responses) :
    RecordOp.responses.find? (·.tag = op.tag) = some op := by
  revert op
  decide

theorem parseRequest_formatRequest (group : Token) (r : Request) :
    parseRequest group (formatRequest group r) = .ok r := by
  rw [formatRequest_eq_compose, parseRequest, fields_compose, if_pos rfl, ok_bind]
  cases r with
  | propose p =>
    dsimp only [Request.content]
    rw [find?_requests (by decide)]
    dsimp only
    rw [proposal_field, ok_bind]
    rfl
  | accept p v =>
    dsimp only [Request.content]
    rw [find?_requests (by decide)]
    dsimp only
    rw [proposal_field, ok_bind]
    rfl

/-- The two halves of an accepted pair that is there as a whole or not at all. -/
theorem exists_pair {p : Option Proposal} {v : Option Token} (paired : p.isSome = v.isSome) :
    ∃ pair : Option (Proposal × Token), p = pair.map (·.1) ∧ v = pair.map (·.2) := by
  cases p with
  | none =>
    cases v with
    | none => exact ⟨none, rfl, rfl⟩
    | some v => cases paired
  | some p =>
    cases v with
    | none => cases paired
    | some v => exact ⟨some (p, v), rfl, rfl⟩

theorem parseResponse_formatResponse (group : Token) {m : Response} (paired : m.Paired) :
    parseResponse group (formatResponse group m) = .ok m.arrived := by
  rw [formatResponse_eq_compose, parseResponse, fields_compose, if_pos rfl, ok_bind]
  cases m with
  | promise m =>
    obtain ⟨p, accepted, acceptedValue, value, vlsn, priority⟩ := m
    obtain ⟨pair, rfl, rfl⟩ := exists_pair paired
    have same : (pair.map (·.1)).map (·, (pair.map (·.2)).getD .empty) = pair := by
      cases pair <;> rfl
    dsimp only [Response.content]
    rw [same, find?_responses (by decide)]
    dsimp only
    rw [proposal_field, ok_bind, acceptedPair_pairFields, ok_bind]
    dsimp only
    rw [long_number, ok_bind, int_number, ok_bind]
    rfl
  | accepted p v =>
    dsimp only [Response.content]
    rw [find?_responses (by decide)]
    dsimp only
    rw [proposal_field, ok_bind]
    rfl
  | reject p =>
    dsimp only [Response.content]
    rw [find?_responses (by decide)]
    dsimp only
    rw [proposal_field, ok_bind]
    rfl
  | protocolError message =>
    dsimp only [Response.content]
    rw [find?_responses (by decide)]
    rfl

/-- Nothing but the group of a record decides whether it is foreign. -/
theorem parse_compose_of_foreign {own group : Token} (foreign : group ≠ own) (op : RecordOp)
    (ts : List Token) :
    parseRequest own (compose group op (ts.map (·.text))) = .error (.foreignGroup group own) ∧
      parseResponse own (compose group op (ts.map (·.text))) =
        .error (.foreignGroup group own) := by
  rw [parseRequest, parseResponse, fields_compose, if_neg foreign]
  exact ⟨rfl, rfl⟩

/-! ## The round trip -/

/-- Every request and every response comes back from its record, a complaint without its
    bars, and any other group refuses the record. -/
theorem parse_format (group : Token) :
    (∀ r : Request, parseRequest group (formatRequest group r) = .ok r) ∧
    (∀ m : Response, m.Paired → parseResponse group (formatResponse group m) = .ok m.arrived) ∧
    ∀ own : Token, group ≠ own →
      (∀ r : Request,
        parseRequest own (formatRequest group r) = .error (.foreignGroup group own) ∧
        parseResponse own (formatRequest group r) = .error (.foreignGroup group own)) ∧
      ∀ m : Response,
        parseRequest own (formatResponse group m) = .error (.foreignGroup group own) ∧
        parseResponse own (formatResponse group m) = .error (.foreignGroup group own) := by
  refine ⟨parseRequest_formatRequest group, fun m => parseResponse_formatResponse group,
    fun own foreign => ⟨fun r => ?_, fun m => ?_⟩⟩
  · rw [formatRequest_eq_compose]
    exact parse_compose_of_foreign foreign _ _
  · rw [formatResponse_eq_compose]
    exact parse_compose_of_foreign foreign _ _

/-- A promise that reports an empty value, with the largest time and the least numbers. -/
def extremePromise : Promise where
  proposal := { time := 18446744073709551615, suffix := ⟨.ofAscii "0000000a", by decide⟩ }
  acceptedProposal := some { time := 0, suffix := .empty }
  acceptedValue := some .empty
  suggestion := {
    value := .empty, ranking := { vlsn := Int64.minValue, priority := Int32.minValue } }

/-- The group without a name takes that promise back, and no other group does. -/
theorem parse_format_extremePromise :
    (Response.promise extremePromise).Paired ∧ Token.empty ≠ recordVersion ∧
      parseResponse .empty (formatResponse .empty (.promise extremePromise)) =
        .ok (.promise extremePromise) ∧
      parseResponse recordVersion (formatResponse .empty (.promise extremePromise)) =
        .error (.foreignGroup .empty recordVersion) :=
  have other : Token.empty ≠ recordVersion := by decide
  have back := parse_format .empty
  ⟨rfl, other, back.2.1 _ rfl, ((back.2.2 _ other).2 _).2⟩

end Record

end Replication.Election
