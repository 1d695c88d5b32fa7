import Replication.Election.Calls
import Replication.Proofs.Election.Memory
import Replication.Proofs.Election.Records

/-! # What an acceptor is bound to

Whatever an acceptor is asked, in requests or in records, and whether or not its suggestions
fail: it is bound to the highest proposal that it has promised or accepted, and to every
earlier one through it.  `outcome_exchange` tells what a call can come to; the rest is
induction on the calls.
-/

namespace Replication.Election.Acceptor

/-! ## Single calls -/

variable {a a' : Acceptor} {e : Exchange}

/-- What a call can come to: a complaint about a record, which changes nothing, or what
    dealing with its request comes to. -/
inductive Exchange.Outcome (e : Exchange) : Prop where
  | complaint (unread : e.request? = none) {message : Octets}
    (told : e.response? = some (.protocolError message)) (unchanged : e.after = e.before)
  | dealt {r : Request} (asked : e.request? = some r)
    (dealt : e.before.Dealt r e.response? e.after) (silent : e.response? = none → e.reply = none)

/-- A response of an acceptor is read back from its record. -/
theorem parseResponse_of_dealt {r : Request} {m : Response} (dealt : a.Dealt r (some m) a')
    (group : Token) :
    Record.parseResponse group (Record.formatResponse group m) = .ok m := by
  have paired : m.Paired := by
    cases dealt with
    | promised s above => exact (Option.isSome_map ..).trans (Option.isSome_map ..).symm
    | accepted | unpromised | unaccepted => trivial
  have arrived : m.arrived = m := by cases dealt <;> rfl
  rw [Record.parseResponse_formatResponse group paired, arrived]

theorem outcome_request (a : Acceptor) (suggest : Suggest) (r : Request) :
    (a.exchange suggest (.request r)).Outcome := by
  have dealt := process_dealt suggest r a
  rw [exchange, answer]
  cases done : process suggest r a with
  | ok m a' =>
    rw [done] at dealt
    rw [bind_eq_of_ok done]
    exact .dealt rfl dealt nofun
  | error failure a' =>
    rw [done] at dealt
    rw [bind_eq_of_error done]
    exact .dealt rfl dealt fun _ => rfl

theorem processRecord_of_unread {text : Octets} {failure : RecordError} (suggest : Suggest)
    (unread : Record.parseRequest a.group text = .error failure) :
    processRecord suggest text a =
      .ok (Record.formatResponse a.group (.protocolError failure.message.zeroTerminated)) a := by
  rw [processRecord, get_bind, unread]
  rfl

theorem processRecord_of_read {text : Octets} {r : Request} (suggest : Suggest)
    (read : Record.parseRequest a.group text = .ok r) :
    processRecord suggest text a =
      (do return Record.formatResponse a.group (← process suggest r)) a := by
  rw [processRecord, get_bind, read]

theorem outcome_record (a : Acceptor) (suggest : Suggest) (text : Octets) :
    (a.exchange suggest (.record text)).Outcome := by
  rw [exchange, answer]
  cases read : Record.parseRequest a.group text with
  | error failure =>
    let complaint := Response.protocolError failure.message.zeroTerminated
    have told : Record.parseResponse a.group (Record.formatResponse a.group complaint) =
        .ok complaint.arrived := Record.parseResponse_formatResponse a.group trivial
    rw [bind_eq_of_ok (processRecord_of_unread suggest read)]
    exact .complaint (congrArg Except.toOption read) (congrArg Except.toOption told) rfl
  | ok r =>
    have asked := congrArg Except.toOption read
    have dealt := process_dealt suggest r a
    have answered := processRecord_of_read suggest read
    -- A failure to suggest leaves the call without an answer, but not the acceptor as it was.
    cases done : process suggest r a with
    | ok m a' =>
      rw [done] at dealt
      rw [bind_eq_of_ok done] at answered
      rw [bind_eq_of_ok answered]
      let e : Exchange := { call := .record text, before := a, after := a'
                            reply := some (.record (Record.formatResponse a.group m)) }
      have told : e.response? = some m :=
        congrArg Except.toOption (parseResponse_of_dealt dealt a.group)
      change e.Outcome
      exact .dealt asked (told ▸ dealt) fun none => nomatch told.symm.trans none
    | error failure a' =>
      rw [done] at dealt
      rw [bind_eq_of_error done] at answered
      rw [bind_eq_of_error answered]
      exact .dealt asked dealt fun _ => rfl

theorem outcome_exchange (a : Acceptor) (suggest : Suggest) (call : Call) :
    (a.exchange suggest call).Outcome := by
  cases call with
  | request r => exact outcome_request a suggest r
  | record text => exact outcome_record a suggest text

/-! ## What a call leaves behind -/

/-- Whether neither the promise nor the acceptance of an acceptor has gone back. -/
structure Advances (a a' : Acceptor) : Prop where
  promised : ∀ p, a.promised = some p → ∃ p', a'.promised = some p' ∧ p ≤ p'
  accepted : ∀ p v, a.accepted = some (p, v) → ∃ p' v', a'.accepted = some (p', v') ∧ p ≤ p'

theorem Advances.refl (a : Acceptor) : a.Advances a :=
  ⟨fun p bound => ⟨p, bound, Std.le_refl p⟩, fun p v holds => ⟨p, v, holds, Std.le_refl p⟩⟩

theorem Advances.trans {a₁ a₂ a₃ : Acceptor} (h : a₁.Advances a₂) (h' : a₂.Advances a₃) :
    a₁.Advances a₃ := by
  constructor
  · intro p bound
    obtain ⟨p', bound', le⟩ := h.promised p bound
    obtain ⟨p'', bound'', le'⟩ := h'.promised p' bound'
    exact ⟨p'', bound'', Std.le_trans le le'⟩
  · intro p v holds
    obtain ⟨p', v', holds', le⟩ := h.accepted p v holds
    obtain ⟨p'', v'', holds'', le'⟩ := h'.accepted p' v' holds'
    exact ⟨p'', v'', holds'', Std.le_trans le le'⟩

/-- Whether an acceptor holds no pair above its promise. -/
def Settled (a : Acceptor) : Prop :=
  ∀ p v, a.accepted = some (p, v) → ∃ top, a.promised = some top ∧ p ≤ top

theorem Settled.bind {p : Proposal} (h : a.Settled)
    (above : ∀ top, a.promised = some top → top < p) :
    Settled { a with promised := some p } ∧ a.Advances { a with promised := some p } := by
  refine ⟨fun p' v holds => ?_, fun top bound => ⟨p, rfl, Std.le_of_lt (above top bound)⟩,
    fun p' v holds => ⟨p', v, holds, Std.le_refl p'⟩⟩
  obtain ⟨top, bound, le⟩ := h p' v holds
  exact ⟨p, rfl, Std.le_trans le (Std.le_of_lt (above top bound))⟩

/-- Dealing with a request leaves an acceptor settled, and no further back. -/
theorem Dealt.settled {r : Request} {response : Option Response} (dealt : a.Dealt r response a')
    (h : a.Settled) : a'.Settled ∧ a.Advances a' := by
  cases dealt with
  | promised s above => exact h.bind above
  | silent above => exact h.bind above
  | unpromised | unaccepted => exact ⟨h, .refl a⟩
  | @accepted p v notBelow =>
    refine ⟨?_, fun top bound => ⟨p, rfl, notBelow top bound⟩, fun p' v' holds => ?_⟩
    · rintro p' v' ⟨⟩
      exact ⟨p, rfl, Std.le_refl p⟩
    · obtain ⟨top, bound, le⟩ := h p' v' holds
      exact ⟨p, v, rfl, Std.le_trans le (notBelow top bound)⟩

/-! ## What a reply tells -/

namespace Dealt

variable {r : Request} {response : Option Response} {p top : Proposal} {v : Token}

theorem promise {m : Promise} (h : a.Dealt r (some (.promise m)) a') :
    r = .propose m.proposal ∧ m.acceptedProposal = a.accepted.map (·.1) ∧
      m.acceptedValue = a.accepted.map (·.2) ∧
      a' = { a with promised := some m.proposal } := by
  cases h with
  | promised s above => exact ⟨rfl, rfl, rfl, rfl⟩

theorem acceptance (h : a.Dealt r (some (.accepted p v)) a') :
    r = .accept p v ∧ a' = { a with promised := some p, accepted := some (p, v) } := by
  cases h with
  | accepted notBelow => exact ⟨rfl, rfl⟩

theorem rejection (h : a.Dealt r (some (.reject top)) a') :
    a.promised = some top ∧ a' = a := by
  cases h with
  | unpromised bound | unaccepted bound => exact ⟨bound, rfl⟩

theorem failure (h : a.Dealt r none a') :
    ∃ p, r = .propose p ∧ a' = { a with promised := some p } := by
  cases h with
  | @silent p above => exact ⟨p, rfl, rfl⟩

/-- A request to promise is granted if nothing as high binds the acceptor. -/
theorem promise_iff (h : a.Dealt (.propose p) response a') :
    (response = none ∨ ∃ m, response = some (.promise m)) ↔
      ∀ top, a.promised = some top → top < p := by
  cases h with
  | promised s above => exact iff_of_true (.inr ⟨_, rfl⟩) above
  | silent above => exact iff_of_true (.inl rfl) above
  | unpromised bound notAbove =>
    refine iff_of_false nofun fun above => ?_
    have lt := above _ bound
    grind

/-- A request to accept is granted if nothing higher binds the acceptor. -/
theorem acceptance_iff (h : a.Dealt (.accept p v) response a') :
    response = some (.accepted p v) ↔ ∀ top, a.promised = some top → top ≤ p := by
  cases h with
  | accepted notBelow => exact iff_of_true rfl notBelow
  | unaccepted bound below =>
    refine iff_of_false nofun fun notBelow => ?_
    have le := notBelow _ bound
    grind

end Dealt

/-- What holds of every single call: what its reply tells of the acceptor, what it leaves
    behind, and which requests are granted. -/
structure Exchange.Lawful (e : Exchange) : Prop where
  advances : e.before.Advances e.after
  settled : e.after.Settled
  /-- A promise reports just the pair that is held. -/
  promise : ∀ m, e.response? = some (.promise m) →
    e.request? = some (.propose m.proposal) ∧
      m.acceptedProposal = e.before.accepted.map (·.1) ∧
      m.acceptedValue = e.before.accepted.map (·.2) ∧
      e.after = { e.before with promised := some m.proposal }
  acceptance : ∀ p v, e.response? = some (.accepted p v) →
    e.request? = some (.accept p v) ∧
      e.after = { e.before with promised := some p, accepted := some (p, v) }
  rejection : ∀ top, e.response? = some (.reject top) →
    e.before.promised = some top ∧ e.after = e.before
  complaint : ∀ message, e.response? = some (.protocolError message) → e.after = e.before
  /-- If the suggestion fails, the promise stands as if it had been lost. -/
  failure : e.reply = none →
    ∃ p, e.request? = some (.propose p) ∧ e.after = { e.before with promised := some p }
  /-- There is no reply that its caller cannot read. -/
  legible : e.response? = none → e.reply = none
  promises : ∀ p, e.Promises p ↔
    e.request? = some (.propose p) ∧ ∀ top, e.before.promised = some top → top < p
  accepts : ∀ p, e.Accepts p ↔
    (∃ v, e.request? = some (.accept p v)) ∧ ∀ top, e.before.promised = some top → top ≤ p

namespace Exchange

theorem response?_of_silent (silent : e.reply = none) : e.response? = none := by
  rw [response?, silent]

/-- A complaint tells nothing but itself. -/
theorem lawful_of_complaint {message : Octets} (settled : e.before.Settled)
    (unread : e.request? = none) (told : e.response? = some (.protocolError message))
    (unchanged : e.after = e.before) : e.Lawful where
  advances := unchanged ▸ .refl e.before
  settled := unchanged ▸ settled
  promise _ h := nomatch told.symm.trans h
  acceptance _ _ h := nomatch told.symm.trans h
  rejection _ h := nomatch told.symm.trans h
  complaint _ _ := unchanged
  failure silent := nomatch told.symm.trans (response?_of_silent silent)
  legible h := nomatch told.symm.trans h
  promises _ := iff_of_false (fun h => nomatch unread.symm.trans h.1)
    fun h => nomatch unread.symm.trans h.1
  accepts _ := iff_of_false (fun ⟨_, h, _⟩ => nomatch unread.symm.trans h)
    fun ⟨⟨_, h⟩, _⟩ => nomatch unread.symm.trans h

theorem lawful_of_dealt {r : Request} (settled : e.before.Settled) (asked : e.request? = some r)
    (dealt : e.before.Dealt r e.response? e.after) (silent : e.response? = none → e.reply = none) :
    e.Lawful where
  advances := (dealt.settled settled).2
  settled := (dealt.settled settled).1
  promise m told := by
    obtain ⟨rfl, proposal, value, after⟩ := (told ▸ dealt).promise
    exact ⟨asked, proposal, value, after⟩
  acceptance p v told := by
    obtain ⟨rfl, after⟩ := (told ▸ dealt).acceptance
    exact ⟨asked, after⟩
  rejection top told := (told ▸ dealt).rejection
  complaint message told := nomatch told ▸ dealt
  failure h := by
    obtain ⟨p, rfl, after⟩ := (response?_of_silent h ▸ dealt).failure
    exact ⟨p, asked, after⟩
  legible := silent
  promises p := by
    refine and_congr_right fun h => ?_
    obtain rfl := Option.some.inj (asked.symm.trans h)
    rw [← dealt.promise_iff]
    exact or_congr_left ⟨response?_of_silent, silent⟩
  accepts p := by
    rw [Accepts, ← exists_and_right]
    refine exists_congr fun v => and_congr_right fun h => ?_
    obtain rfl := Option.some.inj (asked.symm.trans h)
    exact dealt.acceptance_iff

theorem Outcome.lawful (h : e.Outcome) (settled : e.before.Settled) : e.Lawful := by
  cases h with
  | complaint unread told unchanged => exact lawful_of_complaint settled unread told unchanged
  | dealt asked dealt silent => exact lawful_of_dealt settled asked dealt silent

/-- What is granted binds. -/
theorem Lawful.binds {p : Proposal} (h : e.Lawful) (granted : e.Promises p ∨ e.Accepts p) :
    e.after.promised = some p := by
  obtain ⟨asked, silent | ⟨m, told⟩⟩ | ⟨v, asked, told⟩ := granted
  · obtain ⟨p', asked', after⟩ := h.failure silent
    obtain ⟨⟩ := asked.symm.trans asked'
    rw [after]
  · obtain ⟨asked', -, -, after⟩ := h.promise m told
    obtain ⟨⟩ := asked.symm.trans asked'
    rw [after]
  · rw [(h.acceptance p v told).2]

end Exchange

/-! ## Histories -/

theorem lawful_exchange (settled : a.Settled) (suggest : Suggest) (call : Call) :
    (a.exchange suggest call).Lawful :=
  (outcome_exchange a suggest call).lawful (by rw [exchange]; split <;> exact settled)

/-- What holds between a call and any later one: what has been granted binds, whatever has
    been asked in between. -/
structure Exchange.Precedes (e e' : Exchange) : Prop where
  advances : e.after.Advances e'.before
  promises : ∀ p q, e.Promises p ∨ e.Accepts p → e'.Promises q → p < q
  accepts : ∀ p q, e.Promises p ∨ e.Accepts p → e'.Accepts q → p ≤ q

theorem Exchange.Lawful.precedes {e' : Exchange} (h : e.Lawful) (h' : e'.Lawful)
    (advances : e.after.Advances e'.before) : e.Precedes e' where
  advances
  promises p q granted promised := by
    obtain ⟨top, bound, le⟩ := advances.promised p (h.binds granted)
    have lt := ((h'.promises q).1 promised).2 top bound
    exact Std.lt_of_le_of_lt le lt
  accepts p q granted accepted := by
    obtain ⟨top, bound, le⟩ := advances.promised p (h.binds granted)
    have le' := ((h'.accepts q).1 accepted).2 top bound
    exact Std.le_trans le le'

/-- Every call of an acceptor is lawful, and is made when the acceptor is as far as it was at
    the start, or further. -/
theorem lawful_of_mem_history (settled : a.Settled) (calls : List (Suggest × Call)) :
    ∀ e ∈ a.history calls, e.Lawful ∧ a.Advances e.before := by
  induction calls generalizing a with
  | nil => exact fun e mem => absurd mem List.not_mem_nil
  | cons call rest ih =>
    obtain ⟨suggest, call⟩ := call
    have first := lawful_exchange settled suggest call
    have before : (a.exchange suggest call).before = a := by rw [exchange]; split <;> rfl
    intro e mem
    obtain rfl | mem := List.mem_cons.1 mem
    · exact ⟨first, before.symm ▸ .refl a⟩
    · obtain ⟨lawful, advances⟩ := ih first.settled e mem
      exact ⟨lawful, (before ▸ first.advances).trans advances⟩

/-- Whatever an acceptor is asked, and whether or not its suggestions fail: every call is
    lawful, and every call binds all later ones. -/
theorem history_lawful (group : Token) (calls : List (Suggest × Call)) :
    (∀ e ∈ history { group } calls, e.Lawful) ∧
      (history { group } calls).Pairwise Exchange.Precedes := by
  have fresh : Settled { group } := nofun
  generalize ({ group } : Acceptor) = a at fresh
  refine ⟨fun e mem => (lawful_of_mem_history fresh calls e mem).1, ?_⟩
  induction calls generalizing a with
  | nil => exact .nil
  | cons call rest ih =>
    obtain ⟨suggest, call⟩ := call
    have first := lawful_exchange fresh suggest call
    refine .cons (fun e mem => ?_) (ih _ first.settled)
    obtain ⟨lawful, advances⟩ := lawful_of_mem_history first.settled rest e mem
    exact first.precedes lawful advances

end Replication.Election.Acceptor
