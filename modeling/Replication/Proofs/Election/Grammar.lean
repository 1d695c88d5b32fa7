import Replication.Election.Reading
import Replication.Proofs.Election.Obedience
import Replication.Proofs.Election.WireOrder

/-! # Which records are read

The parsers take just the records of their grammar, and refuse all others: whatever the
scanner and the constructors complain about is either caught or was ruled out before.  So an
acceptor answers every record with one that is read, and complains just about what it could
not read itself.
-/

namespace Replication.Election

/-! ## Fields -/

namespace Token

theorem exists_split (record : Octets) :
    ∃ t ts, split record = t :: ts ∧ join (t :: ts) = record := by
  induction record with
  | nil => exact ⟨empty, [], rfl, rfl⟩
  | cons b rest ih =>
    obtain ⟨t, ts, cut, whole⟩ := ih
    by_cases bar : b = separator
    · refine ⟨empty, t :: ts, by rw [split, dif_pos bar, cut], ?_⟩
      rw [join, whole, bar]
      · rfl
      · exact List.cons_ne_nil t ts
    · refine ⟨cons b bar t, ts, by rw [split, dif_neg bar, cut], ?_⟩
      rw [join_cons] at whole ⊢
      rw [← whole]
      rfl

/-- The fields of a record make it up. -/
theorem join_split (record : Octets) : join (split record) = record := by
  obtain ⟨t, ts, cut, whole⟩ := exists_split record
  rw [cut, whole]

theorem text_eq_nil {t : Token} : t.text = [] ↔ t = .empty := by
  obtain ⟨text, plain⟩ := t
  simp [empty]

end Token

namespace Record

variable {group : Token} {record : Octets}

/-- A record with these fields was put together from them. -/
theorem eq_compose_of_fields {op : RecordOp} {named : Token} {ts : List Token}
    (cut : fields group record = .ok (named, ts)) (tag : op.tag = named) :
    record = compose group op (ts.map (·.text)) := by
  rw [compose_eq_join, ← Token.join_split record]
  rw [fields] at cut
  split at cut
  next version sent op' rest whole =>
    split at cut
    · cases cut
    next current =>
      split at cut
      · cases cut
      next own =>
        cases cut
        rw [whole, tag, not_not.1 current, not_not.1 own]
  next => cases cut

/-! ## What the fields look like -/

theorem exists_proposal {t : Token} : (∃ p, proposal t = .ok p) ↔ Proposal.Spelled t.text := by
  rw [← Proposal.parse_iff_spelled, proposal]
  cases Proposal.parse t.text with
  | ok p => exact iff_of_true ⟨p, rfl⟩ ⟨p, rfl⟩
  | error e => refine iff_of_false ?_ ?_ <;> rintro ⟨p, ⟨⟩⟩

theorem long_of_numeral {t : Token} {n : Int} (field : Octets) (numeral : Decimal.Numeral t.text n)
    (inWord : Decimal.InWord n) : long field t = .ok (Int64.ofInt n) := by
  rw [long, Decimal.scan_of_numeral numeral inWord]

theorem numeral_of_long {t : Token} {field : Octets} {v : Int64} (read : long field t = .ok v) :
    Decimal.Numeral t.text v.toInt ∧ Decimal.InWord v.toInt := by
  rw [long] at read
  split at read
  · cases read
  next n scanned =>
    cases read
    obtain ⟨numeral, inWord⟩ := Decimal.numeral_of_scan scanned
    rw [Int64.toInt_ofInt_of_le inWord.1 (Int.lt_of_le_of_lt inWord.2 (by decide))]
    exact ⟨numeral, inWord⟩
  · cases read

theorem exists_long {t : Token} (field : Octets) : (∃ v, long field t = .ok v) ↔ IsLong t.text :=
  ⟨fun ⟨v, read⟩ => ⟨v.toInt, numeral_of_long read⟩,
    fun ⟨_, numeral, inWord⟩ => ⟨_, long_of_numeral field numeral inWord⟩⟩

theorem exists_int {t : Token} (field : Octets) : (∃ v, int field t = .ok v) ↔ IsInt t.text := by
  rw [int, exists_ok_bind]
  constructor
  · rintro ⟨w, read, v, fits⟩
    dsimp only at fits
    split at fits
    next range => exact ⟨w.toInt, (numeral_of_long read).1, range⟩
    next => cases fits
  · rintro ⟨n, numeral, low, high⟩
    have inWord : Decimal.InWord n := by
      simp only [Decimal.InWord, Int64.toInt_minValue, Int64.toInt_maxValue]
      simp only [Int32.toInt_minValue, Int32.toInt_maxValue] at low high
      omega
    refine ⟨_, long_of_numeral field numeral inWord, Int32.ofInt n, ?_⟩
    rw [Int64.toInt_ofInt_of_le inWord.1 (Int.lt_of_le_of_lt inWord.2 (by decide)),
      if_pos ⟨low, high⟩]
    rfl

theorem exists_acceptedPair {a av : Token} : (∃ pair, acceptedPair a av = .ok pair) ↔
    a.text = [] ∧ av.text = [] ∨ Proposal.Spelled a.text := by
  rw [acceptedPair]
  by_cases missing : a = .empty
  · have short : ¬ Proposal.Spelled a.text := by
      rw [missing]
      exact fun spelled => absurd spelled.long (by decide)
    rw [if_neg (not_not_intro missing), or_iff_left short, and_iff_right (Token.text_eq_nil.2 missing),
      Token.text_eq_nil]
    by_cases absent : av = .empty
    · rw [if_neg (not_not_intro absent)]
      exact iff_of_true ⟨_, rfl⟩ absent
    · rw [if_pos absent]
      refine iff_of_false ?_ absent
      rintro ⟨pair, ⟨⟩⟩
  · rw [if_pos missing, exists_ok_bind, ← exists_proposal, Token.text_eq_nil,
      or_iff_right fun both => missing both.1]
    exact exists_congr fun p => and_iff_left ⟨_, rfl⟩

/-! ## What the records look like -/

theorem fields_own (op : RecordOp) (ts : List Token) :
    fields group (compose group op (ts.map (·.text))) = .ok (op.tag, ts) := by
  rw [fields_compose, if_pos rfl]

/-- A record whose name was found was put together under that name. -/
theorem eq_compose_of_found {ops : List RecordOp} {op : RecordOp} {named : Token}
    {ts : List Token} (cut : fields group record = .ok (named, ts))
    (found : ops.find? (·.tag = named) = some op) :
    record = compose group op (ts.map (·.text)) :=
  eq_compose_of_fields cut (by simpa using List.find?_some found)

theorem parseRequest_iff : (∃ r, parseRequest group record = .ok r) ↔ IsRequest group record := by
  rw [parseRequest, exists_ok_bind]
  constructor
  -- The record is made up of what was cut from it, under the name that was found.
  · rintro ⟨⟨named, ts⟩, cut, read⟩
    dsimp only at read
    split at read
    next p found =>
      obtain ⟨q, hq, -⟩ := exists_ok_bind.1 read
      exact eq_compose_of_found cut found ▸ .propose (exists_proposal.1 ⟨q, hq⟩)
    next => obtain ⟨_, ⟨⟩⟩ := read
    next p v found =>
      obtain ⟨q, hq, -⟩ := exists_ok_bind.1 read
      exact eq_compose_of_found cut found ▸ .accept (exists_proposal.1 ⟨q, hq⟩)
    next => obtain ⟨_, ⟨⟩⟩ := read
    next => obtain ⟨_, ⟨⟩⟩ := read
  -- By the grammar: its fields are cut out again, and each of them is read.
  · intro spelled
    cases spelled with
    | @propose p proposal =>
      refine ⟨_, fields_own .propose [p], ?_⟩
      dsimp only
      rw [find?_requests (by decide)]
      obtain ⟨q, hq⟩ := exists_proposal.2 proposal
      exact exists_ok_bind.2 ⟨q, hq, _, rfl⟩
    | @accept p v proposal =>
      refine ⟨_, fields_own .accept [p, v], ?_⟩
      dsimp only
      rw [find?_requests (by decide)]
      obtain ⟨q, hq⟩ := exists_proposal.2 proposal
      exact exists_ok_bind.2 ⟨q, hq, _, rfl⟩

theorem parseResponse_iff :
    (∃ m, parseResponse group record = .ok m) ↔ IsResponse group record := by
  rw [parseResponse, exists_ok_bind]
  constructor
  · rintro ⟨⟨named, ts⟩, cut, read⟩
    dsimp only at read
    -- By the name that was found: each record is put together again of its fields.
    split at read
    next p a av sv n k found =>
      obtain ⟨q, hq, read⟩ := exists_ok_bind.1 read
      obtain ⟨pair, hpair, read⟩ := exists_ok_bind.1 read
      obtain ⟨vlsn, hvlsn, read⟩ := exists_ok_bind.1 read
      obtain ⟨priority, hpriority, -⟩ := exists_ok_bind.1 read
      exact eq_compose_of_found cut found ▸ .promise (exists_proposal.1 ⟨q, hq⟩)
        (exists_acceptedPair.1 ⟨pair, hpair⟩) ((exists_long _).1 ⟨vlsn, hvlsn⟩)
        ((exists_int _).1 ⟨priority, hpriority⟩)
    next => obtain ⟨_, ⟨⟩⟩ := read
    next p v found =>
      obtain ⟨q, hq, -⟩ := exists_ok_bind.1 read
      exact eq_compose_of_found cut found ▸ .accepted (exists_proposal.1 ⟨q, hq⟩)
    next => obtain ⟨_, ⟨⟩⟩ := read
    next p found =>
      obtain ⟨q, hq, -⟩ := exists_ok_bind.1 read
      exact eq_compose_of_found cut found ▸ .reject (exists_proposal.1 ⟨q, hq⟩)
    next => obtain ⟨_, ⟨⟩⟩ := read
    next message found => exact eq_compose_of_found cut found ▸ .protocolError
    next => obtain ⟨_, ⟨⟩⟩ := read
    next => obtain ⟨_, ⟨⟩⟩ := read
  -- By the grammar: its fields are cut out again, and each of them is read.
  · intro spelled
    cases spelled with
    | @promise p a av sv n k proposal pair vlsn priority =>
      refine ⟨_, fields_own .promise [p, a, av, sv, n, k], ?_⟩
      dsimp only
      rw [find?_responses (by decide)]
      obtain ⟨q, hq⟩ := exists_proposal.2 proposal
      obtain ⟨held, hheld⟩ := exists_acceptedPair.2 pair
      obtain ⟨N, hN⟩ := (exists_long (.ofAscii "suggestion vlsn")).2 vlsn
      obtain ⟨K, hK⟩ := (exists_int (.ofAscii "suggestion priority")).2 priority
      refine exists_ok_bind.2 ⟨q, hq, exists_ok_bind.2 ⟨held, hheld, ?_⟩⟩
      exact exists_ok_bind.2 ⟨N, hN, exists_ok_bind.2 ⟨K, hK, _, rfl⟩⟩
    | @accepted p v proposal =>
      refine ⟨_, fields_own .accepted [p, v], ?_⟩
      dsimp only
      rw [find?_responses (by decide)]
      obtain ⟨q, hq⟩ := exists_proposal.2 proposal
      exact exists_ok_bind.2 ⟨q, hq, _, rfl⟩
    | @reject p proposal =>
      refine ⟨_, fields_own .reject [p], ?_⟩
      dsimp only
      rw [find?_responses (by decide)]
      obtain ⟨q, hq⟩ := exists_proposal.2 proposal
      exact exists_ok_bind.2 ⟨q, hq, _, rfl⟩
    | @protocolError message =>
      refine ⟨_, fields_own .protocolError [message], ?_⟩
      dsimp only
      rw [find?_responses (by decide)]
      exact ⟨_, rfl⟩

end Record

/-! ## What is raised -/

namespace Reading

theorem value_text (t : Token) : value t.text = .ok t := by
  rw [value, Token.ofText, Token.ofText?_text]
  rfl

/-- The constructor of a proposal does not complain: the separator was looked for before. -/
theorem proposal_text (t : Token) : proposal t.text = (Record.proposal t).mapError .refusal := by
  rw [proposal, Record.proposal, Proposal.parse]
  split
  · rfl
  · cases Hexadecimal.value? (t.text.take Proposal.timeDigits) with
    | none => rfl
    | some time =>
      have plain : separator ∉ t.text.drop Proposal.timeDigits :=
        fun mem => t.plain (List.mem_of_mem_drop mem)
      dsimp only
      rw [if_neg plain, Proposal.make, Token.ofText, Token.ofText?, dif_pos plain]
      rfl

/-- What the scanner complains about is caught. -/
theorem long_text (field : Octets) (t : Token) :
    long field t.text = (Record.long field t).mapError .refusal := by
  rw [long, numeral, Record.long]
  cases Decimal.scan t.text with
  | none => rfl
  | some found =>
    obtain ⟨n, rest⟩ := found
    cases rest <;> rfl

theorem int_text (field : Octets) (t : Token) :
    int field t.text = (Record.int field t).mapError .refusal := by
  rw [int, Record.int, mapError_bind, long_text]
  congr 1
  funext v
  dsimp only
  split <;> rfl

theorem acceptedPair_text (a av : Token) :
    acceptedPair a.text av.text = (Record.acceptedPair a av).mapError .refusal := by
  rw [acceptedPair, Record.acceptedPair]
  by_cases missing : a = .empty
  · rw [if_neg (not_not_intro (Token.text_eq_nil.2 missing)), if_neg (not_not_intro missing)]
    by_cases absent : av = .empty
    · rw [if_neg (not_not_intro (Token.text_eq_nil.2 absent)), if_neg (not_not_intro absent)]
      rfl
    · rw [if_pos (mt Token.text_eq_nil.1 absent), if_pos absent]
      rfl
  · rw [if_pos (mt Token.text_eq_nil.1 missing), if_pos missing, mapError_bind, proposal_text,
      value_text]
    rfl

theorem miscounted {α : Type} (op : RecordOp) (expected : Nat) (ts : List Token) :
    (throw (.refusal (.fieldCount op expected (ts.map (·.text)).length)) : Except Raised α) =
      (throw (.fieldCount op expected ts.length) : Except RecordError α).mapError .refusal := by
  rw [List.length_map]
  rfl

/-- Only a refusal gets out of the parser of requests. -/
theorem request_eq (group : Token) (record : Octets) :
    request group record = (Record.parseRequest group record).mapError .refusal := by
  rw [request, Record.parseRequest, fields, mapError_bind, bind_assoc]
  congr 1
  funext cut
  obtain ⟨op, ts⟩ := cut
  rw [pure_bind]
  dsimp only
  -- For each name, by the number of fields: only the right number leads on.
  cases RecordOp.requests.find? (·.tag = op) with
  | none => rfl
  | some known =>
    cases known with
    | propose =>
      rcases ts with _ | ⟨p, _ | ⟨more, ts⟩⟩
      · rfl
      · dsimp only [List.map]
        rw [mapError_bind, proposal_text]
        rfl
      · exact miscounted .propose 1 (p :: more :: ts)
    | accept =>
      rcases ts with _ | ⟨p, _ | ⟨v, _ | ⟨more, ts⟩⟩⟩
      · rfl
      · rfl
      · dsimp only [List.map]
        rw [mapError_bind, proposal_text, value_text]
        rfl
      · exact miscounted .accept 2 (p :: v :: more :: ts)
    | _ => rfl

/-- Nor does anything else get out of the parser of responses. -/
theorem response_eq (group : Token) (record : Octets) :
    response group record = (Record.parseResponse group record).mapError .refusal := by
  rw [response, Record.parseResponse, fields, mapError_bind, bind_assoc]
  congr 1
  funext cut
  obtain ⟨op, ts⟩ := cut
  rw [pure_bind]
  dsimp only
  cases RecordOp.responses.find? (·.tag = op) with
  | none => rfl
  | some known =>
    -- Each name calls for one number of fields, and both parsers refuse any other number with
    -- the same words.
    cases known with
    | promise =>
      rcases ts with _ | ⟨p, _ | ⟨a, _ | ⟨av, _ | ⟨sv, _ | ⟨n, _ | ⟨k, _ | ⟨more, ts⟩⟩⟩⟩⟩⟩⟩
      iterate 6 · rfl
      · dsimp only [List.map]
        rw [mapError_bind, proposal_text, acceptedPair_text, value_text]
        simp only [mapError_bind, long_text, int_text, ok_bind]
        rfl
      · exact miscounted .promise 6 (p :: a :: av :: sv :: n :: k :: more :: ts)
    | accepted =>
      rcases ts with _ | ⟨p, _ | ⟨v, _ | ⟨more, ts⟩⟩⟩
      · rfl
      · rfl
      · dsimp only [List.map]
        rw [mapError_bind, proposal_text, value_text]
        rfl
      · exact miscounted .accepted 2 (p :: v :: more :: ts)
    | reject =>
      rcases ts with _ | ⟨p, _ | ⟨more, ts⟩⟩
      · rfl
      · dsimp only [List.map]
        rw [mapError_bind, proposal_text]
        rfl
      · exact miscounted .reject 1 (p :: more :: ts)
    | protocolError =>
      rcases ts with _ | ⟨message, _ | ⟨more, ts⟩⟩
      · rfl
      · rfl
      · exact miscounted .protocolError 1 (message :: more :: ts)
    | _ => rfl

end Reading

/-! ## What an acceptor answers -/

namespace Acceptor

/-- An acceptor answers as it does when nothing but a refusal can be raised by its parser. -/
theorem answerRecord_eq (suggest : Suggest) (record : Octets) :
    answerRecord suggest record = (processRecord suggest record).adaptExcept .suggestion := by
  funext a
  rw [answerRecord, get_bind, Reading.request_eq]
  cases read : Record.parseRequest a.group record with
  | error e =>
    have answered := processRecord_of_unread suggest read
    simp only [EStateM.adaptExcept, answered]
    rfl
  | ok r =>
    -- Both sides come to the same acceptor; only the failure of a suggestion is named anew.
    have answered := processRecord_of_read suggest read
    cases done : process suggest r a with
    | ok m a' =>
      rw [bind_eq_of_ok done] at answered
      have adapted : (process suggest r).adaptExcept Raised.suggestion a = .ok m a' := by
        simp only [EStateM.adaptExcept, done]
      simp only [EStateM.adaptExcept, answered]
      exact bind_eq_of_ok adapted
    | error e a' =>
      rw [bind_eq_of_error done] at answered
      have adapted : (process suggest r).adaptExcept Raised.suggestion a =
          .error (.suggestion e) a' := by
        simp only [EStateM.adaptExcept, done]
      simp only [EStateM.adaptExcept, answered]
      exact bind_eq_of_error adapted

/-- An acceptor whose suggestions never fail answers every request, and never complains. -/
theorem process_total (suggest : Proposal → Suggestion) (r : Request) (a : Acceptor) :
    ∃ m a', process (fun p => some (suggest p)) r a = .ok m a' ∧ ∀ text, m ≠ .protocolError text := by
  cases r with
  | propose p =>
    rw [process, propose]
    split <;> refine ⟨_, _, rfl, ?_⟩ <;> rintro text ⟨⟩
  | accept p v =>
    rw [process]
    dsimp only
    rw [accept]
    split <;> refine ⟨_, _, rfl, ?_⟩ <;> rintro text ⟨⟩

/-- It answers every record with one that its group reads, and complains just about what it
    cannot read. -/
theorem processRecord_total (a : Acceptor) (suggest : Proposal → Suggestion) (record : Octets) :
    ∃ reply a' m, processRecord (fun p => some (suggest p)) record a = .ok reply a' ∧
      Record.parseResponse a.group reply = .ok m ∧
      ((∃ text, m = .protocolError text) ↔ ¬ ∃ r, Record.parseRequest a.group record = .ok r) := by
  cases read : Record.parseRequest a.group record with
  | error e =>
    let complaint := Response.protocolError e.message.zeroTerminated
    have told : Record.parseResponse a.group (Record.formatResponse a.group complaint) =
        .ok complaint.arrived := Record.parseResponse_formatResponse a.group trivial
    exact ⟨_, a, _, processRecord_of_unread _ read, told, iff_of_true ⟨_, rfl⟩ nofun⟩
  | ok r =>
    obtain ⟨m, a', done, answer⟩ := process_total suggest r a
    have dealt := process_dealt (fun p => some (suggest p)) r a
    rw [done] at dealt
    refine ⟨_, a', m, ?_, parseResponse_of_dealt dealt a.group, iff_of_false ?_ ?_⟩
    · rw [processRecord_of_read _ read, bind_eq_of_ok done]
      rfl
    · exact fun ⟨text, same⟩ => answer text same
    · exact fun unread => unread ⟨r, rfl⟩

end Acceptor

/-! ## Taken together -/

/-- The parsers read just the records of their grammar and raise nothing but refusals; so an
    acceptor whose suggestions do not fail answers every record with one that is read, and
    complains just about what is no request. -/
theorem Record.parsers_exact (group : Token) (record : Octets) :
    Reading.request group record = (parseRequest group record).mapError .refusal ∧
    Reading.response group record = (parseResponse group record).mapError .refusal ∧
    ((∃ r, parseRequest group record = .ok r) ↔ IsRequest group record) ∧
    ((∃ m, parseResponse group record = .ok m) ↔ IsResponse group record) ∧
    ∀ (a : Acceptor) (suggest : Proposal → Suggestion), ∃ reply a' m,
      Acceptor.answerRecord (fun p => some (suggest p)) record a = .ok reply a' ∧
      Acceptor.processRecord (fun p => some (suggest p)) record a = .ok reply a' ∧
      parseResponse a.group reply = .ok m ∧
      ((∃ text, m = .protocolError text) ↔ ¬ ∃ r, parseRequest a.group record = .ok r) := by
  refine ⟨Reading.request_eq group record, Reading.response_eq group record, parseRequest_iff,
    parseResponse_iff, fun a suggest => ?_⟩
  obtain ⟨reply, a', m, answered, told, complains⟩ := a.processRecord_total suggest record
  refine ⟨reply, a', m, ?_, answered, told, complains⟩
  rw [Acceptor.answerRecord_eq]
  simp only [EStateM.adaptExcept, answered]

end Replication.Election
