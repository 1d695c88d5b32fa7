import Replication.Link.Scripted
import Replication.Proofs.Feeder.Quiet
import Replication.Proofs.Feeder.Shipping

/-! # Nothing is shipped but the log

Whatever happens to the log and to a feeder: among what it has written, the messages that
ship records are just the images of the records from the start of its source up to the last one
that it is done with, in their order.  A move of the output loop is `Quiet`, or it reads the
next record, or it ships the one in hand.
-/

namespace Replication.Feeder

open Replication.Link (ScriptedLink Transport)
open Replication.Log (CommitLog FileProtector Positioned Record Source)
open Replication.Stream (Message Session)

/-! ## Images of records -/

/-- The message that tells a record: a commit asks for an acknowledgment, and all else comes
    with its payload and its before image. -/
def image (r : Positioned) : Message :=
  let vlsn := Int64.ofNat r.vlsn
  let record := r.record
  if record.type = .commit then
    .commit {
      vlsn, txn := record.txn, dtvlsn := record.dtvlsn, term := record.term
      sync := record.sync, needsAck := true, timestamp := record.timestamp }
  else
    .entry {
      vlsn, type := record.type, txn := record.txn, timestamp := record.timestamp
      payload := record.payload, beforeImage := record.beforeImage }

/-- What a client is to get of some records: an arbiter the commits, and any other one all. -/
def images (client : NodeType) (records : List Positioned) : List Message :=
  (if client = .arbiter then records.filter (·.record.type = .commit) else records).map image

theorem shipment_eq (client : NodeType) (r : Positioned) :
    shipment client r =
      if client = .arbiter ∧ r.record.type ≠ .commit then none else some (image r) := by
  obtain ⟨⟨type⟩, position⟩ := r
  cases type <;> cases client <;> rfl

theorem filterMap_shipment (client : NodeType) (records : List Positioned) :
    records.filterMap (shipment client) = images client records := by
  induction records with
  | nil => cases client <;> rfl
  | cons r rest ih =>
    rw [List.filterMap_cons, shipment_eq, ih, images, images]
    by_cases arbiter : client = .arbiter <;> by_cases commit : r.record.type = .commit <;>
      simp [arbiter, commit]

variable {σ ρ α β γ : Type} {t : Transport σ}

namespace Feeding

variable {setup : Setup (σ × List Octets) ρ} {s s' s₁ : Feeding (σ × List Octets) ρ}

/-! ## How far a feeder has come -/

namespace Whereabouts

variable (setup : Setup σ ρ) (shut : Prop) (first n : Nat) (w : Whereabouts)

/-- What ships the records before the position `n`. -/
def shipments : List Message :=
  (w.log.between (first + 1) n).filterMap (shipment w.type)

/-- Whether the source is behind the first `n` records. -/
def Behind : Prop := Source.Behind w.log n ⟨w.source, w.protector⟩

/-- Whether the record at the position `n` has been read, but not shipped: it is still in hand,
    or the feeder was shut down with it in hand, or its message was too large, or the link
    refused it. -/
structure Withheld : Prop where
  read : w.source.cursor.next = n + 2
  durable : n < w.log.durable
  why : (∃ r, w.output = .shipping r ∧ r.position = n) ∨ shut ∨
    ∃ r m, w.log.records[n]? = some r ∧ shipment w.type ⟨r, n⟩ = some m ∧
      (setup.codec.limit < m.body.length ∨
        ∃ link e link', setup.transport.write m.frame link = .error e link')

/-- What has been read, by where the output loop is. -/
inductive Reads : Prop where
  | opening (output : w.output = .starting ∨ w.output = .handshaking) (behind : w.Behind n)
    (still : n = first)
  | serving (output : w.output.isServing = true) (idle : w.output.inHand = none)
    (behind : w.Behind n)
  | hand {r : Positioned} (output : w.output = .shipping r) (position : r.position = n)
    (behind : w.Behind (n + 1)) (durable : n < w.log.durable)
    (same : ∃ record, w.log.records[n]? = some record ∧
      shipment w.type r = shipment w.type ⟨record, n⟩)
  | ended (output : w.output = .idle ∨ w.output = .done)
    (read : w.source.cursor.next = n + 1 ∨ w.Withheld setup shut n)

/-- Whether a feeder is done with just the first `n` records. -/
structure At : Prop where
  next : w.next = n + 1
  first_le : first ≤ n
  within : n ≤ w.log.durable ∨ n = first
  shipped : w.shipped = (w.shipments first n).length
  reads : w.Reads setup shut first n
  blameless : ∀ e, w.error ≠ some (.source e)

variable {setup shut first n w}

theorem shipments_self : w.shipments n n = [] := by
  rw [shipments, CommitLog.between_of_lt (Nat.lt_succ_self n)]
  rfl

theorem shipments_pass {r : Record} (within : first ≤ n) (there : w.log.records[n]? = some r) :
    w.shipments first (n + 1) = w.shipments first n ++ (shipment w.type ⟨r, n⟩).toList :=
  shipments_succ within there

theorem Reads.of_opening (h : w.Reads setup shut first n)
    (opens : w.output = .starting ∨ w.output = .handshaking) : w.Behind n ∧ n = first := by
  cases h with
  | opening _ behind still => exact ⟨behind, still⟩
  | serving serves => rcases opens with output | output <;> rw [output] at serves <;> cases serves
  | hand output => rcases opens with opens | opens <;> cases output.symm.trans opens
  | ended output => grind

theorem Reads.of_serving (h : w.Reads setup shut first n) (serves : w.output.isServing = true)
    (idle : w.output.inHand = none) : w.Behind n := by
  cases h with
  | opening output => rcases output with output | output <;> rw [output] at serves <;> cases serves
  | serving _ _ behind => exact behind
  | hand output => rw [output] at idle; cases idle
  | ended output => rcases output with output | output <;> rw [output] at serves <;> cases serves

theorem Reads.of_shipping {r : Positioned} (h : w.Reads setup shut first n)
    (output : w.output = .shipping r) :
    r.position = n ∧ w.Behind (n + 1) ∧ n < w.log.durable ∧ ∃ record,
      w.log.records[n]? = some record ∧ shipment w.type r = shipment w.type ⟨record, n⟩ := by
  cases h with
  | opening output' => rcases output' with output' | output' <;> cases output'.symm.trans output
  | serving _ idle => rw [output] at idle; cases idle
  | hand output' position behind durable same =>
    cases output'.symm.trans output
    exact ⟨position, behind, durable, same⟩
  | ended output' => rcases output' with output' | output' <;> cases output'.symm.trans output

/-- A loop that has no record in hand goes on. -/
theorem At.serve (h : w.At setup shut first n) (behind : w.Behind n) {output : OutputLoop}
    (serves : output.isServing = true) (idle : output.inHand = none) :
    { w with output }.At setup shut first n :=
  ⟨h.next, h.first_le, h.within, h.shipped, .serving serves idle behind, h.blameless⟩

/-- A loop that has ended. -/
theorem At.finish (h : w.At setup shut first n) (behind : w.Behind n) {error : Option FeederError}
    (blameless : ∀ e, error ≠ some (.source e)) :
    { w with output := .done, error }.At setup shut first n :=
  ⟨h.next, h.first_le, h.within, h.shipped, .ended (.inr rfl) (.inl behind.cursor), blameless⟩

/-- A feeder that is done with one record more. -/
theorem At.pass (h : w.At setup shut first n) (behind : w.Behind (n + 1))
    (durable : n < w.log.durable) {shipped : Nat}
    (counts : shipped = (w.shipments first (n + 1)).length) :
    { w with next := (n + 1 : Nat) + 1, shipped, output := .requesting }.At setup shut first
      (n + 1) :=
  ⟨rfl, Nat.le_succ_of_le h.first_le, .inl durable, counts, .serving rfl rfl behind, h.blameless⟩

/-- A loop that ends with a record in hand. -/
theorem At.drop (h : w.At setup shut first n) (read : w.source.cursor.next = n + 2)
    (durable : n < w.log.durable) {r : Record} {m : Message} (there : w.log.records[n]? = some r)
    (ships : shipment w.type ⟨r, n⟩ = some m)
    (refused : setup.codec.limit < m.body.length ∨
      ∃ link e link', setup.transport.write m.frame link = .error e link')
    {error : Option FeederError} (blameless : ∀ e, error ≠ some (.source e)) :
    { w with output := .done, error }.At setup shut first n :=
  ⟨h.next, h.first_le, h.within, h.shipped, .ended (.inr rfl) (.inr ⟨read, durable,
    .inr (.inr ⟨r, m, there, ships, refused⟩)⟩), blameless⟩

theorem Reads.read (h : w.Reads setup shut first n) :
    w.source.cursor.next = n + 1 ∨ w.Withheld setup shut n := by
  cases h with
  | opening _ behind => exact .inl behind.cursor
  | serving _ _ behind => exact .inl behind.cursor
  | hand output position behind durable =>
    exact .inr ⟨behind.cursor, durable, .inl ⟨_, output, position⟩⟩
  | ended _ read => exact read

/-- A feeder that is shut down keeps its cursor, but nothing in hand. -/
theorem At.stop (h : w.At setup shut first n) (down : shut) {source : Source}
    (cursor : source.cursor = w.source.cursor) (protector : FileProtector) :
    { w with source, protector, output := .idle }.At setup shut first n := by
  refine ⟨h.next, h.first_le, h.within, h.shipped, .ended (.inl rfl) ?_, h.blameless⟩
  rcases h.reads.read with read | withheld
  · exact .inl (cursor ▸ read)
  · exact .inr ⟨cursor ▸ withheld.read, withheld.durable, .inr (.inl down)⟩

/-- A log that grows, and a failure that is not the source's. -/
theorem At.of_extends (h : w.At setup shut first n) {log : CommitLog} {error : Option FeederError}
    (longer : log.Extends w.log) (behind : ∀ {n}, w.Behind n → { w with log }.Behind n)
    (blameless : ∀ e, error ≠ some (.source e)) :
    { w with log, error }.At setup shut first n := by
  refine ⟨h.next, h.first_le, h.within.imp_left (Nat.le_trans · longer.durable),
    h.shipped.trans (congrArg List.length (shipments_of_extends longer h.within)), ?_, blameless⟩
  cases h.reads with
  | opening output front still => exact .opening output (behind front) still
  | serving serves idle front => exact .serving serves idle (behind front)
  | hand output position front inside same =>
    obtain ⟨record, there, same⟩ := same
    exact .hand output position (behind front) (Nat.lt_of_lt_of_le inside longer.durable)
      ⟨record, longer.getElem?_eq there, same⟩
  | ended output read =>
    refine .ended output (read.imp_right fun withheld => ?_)
    obtain ⟨passed, inside, why⟩ := withheld
    refine ⟨passed, Nat.lt_of_lt_of_le inside longer.durable, why.imp_right (.imp_right ?_)⟩
    rintro ⟨r, m, there, ships, refused⟩
    exact ⟨r, m, longer.getElem?_eq there, ships, refused⟩

end Whereabouts

/-- Whether the shipments among what a feeder has written are just those of the first `n`
    records. -/
structure Exact (setup : Setup (σ × List Octets) ρ) (shut : Prop) (first n : Nat)
    (s : Feeding (σ × List Octets) ρ) : Prop where
  stands : s.whereabouts.At setup shut first n
  sent : ∃ ms : List Message, s.written = ms.map Message.frame ∧
    ms.filter isShipment = s.whereabouts.shipments first n

variable {shut : Prop} {first n : Nat}

theorem refused_of_send {setup : Setup σ ρ} {s s' : Feeding σ ρ} {m : Message} {e : FeederError}
    (failed : send setup m s = .error e s') : setup.codec.limit < m.body.length ∨
      ∃ link e link', setup.transport.write m.frame link = .error e link' := by
  refine Decidable.or_iff_not_imp_left.2 fun fits => ?_
  cases written : setup.transport.write m.frame s.session.link with
  | ok u link =>
    rw [send, onSession, Session.send_eq_ok (Nat.not_lt.1 fits) written] at failed
    cases failed
  | error e link => exact ⟨_, _, _, written⟩

/-- What is written besides does not count. -/
theorem aside_sent {view : Feeding (σ × List Octets) ρ → γ} {shipments : List Message}
    (sent : ∃ ms : List Message, s.written = ms.map Message.frame ∧
      ms.filter isShipment = shipments) (aside : Aside view s s') :
    ∃ ms : List Message, s'.written = ms.map Message.frame ∧ ms.filter isShipment = shipments := by
  obtain ⟨ms, written, same⟩ := sent
  obtain ⟨-, more, written', silent⟩ := aside
  refine ⟨ms ++ more, ?_, ?_⟩
  · rw [written', written, List.map_append]
  · rw [List.filter_append, same, silent, List.append_nil]

section Moving

variable (records : setup.transport = t.recorded)

include records

/-- A failure that is not the source's does not make it one. -/
theorem whereabouts_fail {e : FeederError} (other : e.isSource = false)
    (blameless : ∀ e, s.feeder.error ≠ some (.source e)) :
    ∃ error, (s.fail setup e).whereabouts = { s.whereabouts with error } ∧
      (∀ e, error ≠ some (.source e)) ∧ (s.fail setup e).written = s.written := by
  have written := written_fail (s := s) records e
  cases cancelled : s.feeder.cancelled with
  | true =>
    have same : s.fail setup e = s := if_pos cancelled
    exact ⟨s.feeder.error, by rw [same]; rfl, blameless, written⟩
  | false =>
    refine ⟨s.feeder.error.or (some e), ?_, fun e' => ?_, written⟩
    · rw [fail, if_neg (by rw [cancelled]; decide)]
      rfl
    · cases first : s.feeder.error with
      | none =>
        rintro ⟨⟩
        cases other
      | some e =>
        rw [Option.some_or, ← first]
        exact blameless e'

/-- The output loop ends with a failure, having read no more than it is done with. -/
theorem Exact.finish {x : EStateM FeederError (Feeding (σ × List Octets) ρ) OutputLoop}
    {e : FeederError} (failed : x s = .error e s') (other : e.isSource = false)
    (blameless : ∀ e, s'.feeder.error ≠ some (.source e))
    (stands : ∀ error, (∀ e, error ≠ some (.source e)) →
      { s'.whereabouts with output := .done, error }.At setup shut first n)
    (sent : ∃ ms : List Message, s'.written = ms.map Message.frame ∧
      ms.filter isShipment = s'.whereabouts.shipments first n) :
    Exact setup shut first n (s.outputMove setup x) := by
  obtain ⟨error, place, blameless', written⟩ := whereabouts_fail records other blameless
  have moved : s.outputMove setup x = (s'.fail setup e).update ({ · with output := .done }) := by
    rw [Feeding.outputMove, failed]
  have place' : (s.outputMove setup x).whereabouts =
      { s'.whereabouts with output := .done, error } := by
    rw [moved]
    exact congrArg (fun w : Whereabouts => { w with output := .done }) place
  refine ⟨by rw [place']; exact stands error blameless', ?_⟩
  have written' : (s.outputMove setup x).written = s'.written := by
    rw [moved]
    exact written
  rw [place', written']
  exact sent

/-- A quiet part of the output loop leads on to where the loop stands behind it. -/
theorem Exact.outputMove {view : Feeding (σ × List Octets) ρ → γ} (h : Exact setup shut first n s)
    {x : EStateM FeederError (Feeding (σ × List Octets) ρ) Unit} (quiet : Quiet view x)
    {output : OutputLoop}
    (goes : ∀ s', view s' = view s → s'.whereabouts.Behind n ∧
      s'.whereabouts.shipments first n = s.whereabouts.shipments first n ∧
      { s'.whereabouts with output }.At setup shut first n) :
    Exact setup shut first n (s.outputMove setup do x; return output) := by
  cases done : x s with
  | ok u s' =>
    have aside := quiet.of_ok done
    obtain ⟨-, same, stands⟩ := goes s' aside.1
    have sent := aside_sent h.sent aside
    rw [← same] at sent
    rw [outputMove_ok done]
    exact ⟨stands, sent⟩
  | error e s' =>
    obtain ⟨aside, other⟩ := quiet.of_error done
    obtain ⟨behind, same, stands⟩ := goes s' aside.1
    have sent := aside_sent h.sent aside
    rw [← same] at sent
    exact .finish records (bind_eq_of_error done) other stands.blameless
      (fun error blameless => stands.finish behind blameless) sent

/-! ## Steps -/

omit records in
/-- A feeder that stays where it is. -/
theorem Exact.aside (h : Exact setup shut first n s) (aside : Aside whereabouts s s') :
    Exact setup shut first n s' := by
  have sent := aside_sent h.sent aside
  rw [← aside.1] at sent
  exact ⟨aside.1 ▸ h.stands, sent⟩

theorem Exact.starting (h : Exact setup shut first n s) (output : s.feeder.output = .starting)
    (due : Bool) (now : Int64) : Exact setup shut first n (s.outputStep setup due now) := by
  obtain ⟨next, first_le, within, shipped, reads, blameless⟩ := h.stands
  obtain ⟨behind, still⟩ := reads.of_opening (.inl output)
  have quiet : Quiet whereabouts (setTimeout setup setup.preHeartbeatTimeout) :=
    quiet_setTimeout (fun _ _ => rfl) records _
  rw [outputStep, output]
  refine h.outputMove records quiet fun s' same => ?_
  rw [same]
  exact ⟨behind, rfl, next, first_le, within, shipped, .opening (.inr rfl) behind still, blameless⟩

theorem Exact.handshaking (h : Exact setup shut first n s)
    (output : s.feeder.output = .handshaking) (due : Bool) (now : Int64) :
    Exact setup shut first n (s.outputStep setup due now) := by
  obtain ⟨next, first_le, within, shipped, reads, blameless⟩ := h.stands
  obtain ⟨behind, rfl⟩ := reads.of_opening (.inr output)
  -- Nothing has been shipped, so it does not matter who the client turns out to be.
  have nothing (w : Whereabouts) : w.shipments n n = [] := Whereabouts.shipments_self
  rw [outputStep, output]
  refine h.outputMove records (quiet_handshake records) fun s' same => ?_
  have place : s'.whereabouts = { s.whereabouts with type := s'.feeder.replicaType } :=
    congrArg (fun w : Whereabouts => { w with type := s'.feeder.replicaType }) same
  rw [place]
  refine ⟨behind, (nothing _).trans (nothing _).symm, next, first_le, within, ?_,
    .serving rfl rfl behind, blameless⟩
  exact shipped.trans (congrArg List.length ((nothing _).trans (nothing _).symm))

/-- A quiet part of the loop behind the handshake. -/
theorem Exact.serving (h : Exact setup shut first n s) (serves : s.feeder.output.isServing = true)
    (idle : s.feeder.output.inHand = none)
    {x : EStateM FeederError (Feeding (σ × List Octets) ρ) Unit} (quiet : Quiet whereabouts x)
    {output : OutputLoop} (serves' : output.isServing = true) (idle' : output.inHand = none) :
    Exact setup shut first n (s.outputMove setup do x; return output) := by
  have behind := h.stands.reads.of_serving serves idle
  refine h.outputMove records quiet fun s' same => ?_
  rw [same]
  exact ⟨behind, rfl, h.stands.serve behind serves' idle'⟩

omit records in
theorem Exact.fetching (h : Exact setup shut first n s) (output : s.feeder.output = .fetching)
    (due : Bool) (now : Int64) : Exact setup shut first n (s.outputStep setup due now) := by
  have serves : s.feeder.output.isServing = true := by rw [output]; rfl
  have idle : s.feeder.output.inHand = none := by rw [output]; rfl
  have behind := h.stands.reads.of_serving serves idle
  obtain ⟨next, first_le, within, shipped, -, blameless⟩ := h.stands
  by_cases durable : n < s.log.durable
  · obtain ⟨r, record, c, position, there, same, moved, behind'⟩ :=
      outputStep_of_durable output next behind due now durable
    rw [moved]
    exact ⟨⟨next, first_le, within, shipped,
      .hand rfl position behind' durable ⟨record, there, same⟩, blameless⟩, h.sent⟩
  · rw [outputStep_of_waiting output next behind due now (Nat.not_lt.1 durable)]
    exact ⟨h.stands.serve behind rfl rfl, h.sent⟩

theorem Exact.shipping {r : Positioned} (h : Exact setup shut first n s)
    (output : s.feeder.output = .shipping r) (due : Bool) (now : Int64) :
    ∃ n', Exact setup shut first n' (s.outputStep setup due now) := by
  obtain ⟨position, behind, durable, record, there, same⟩ := h.stands.reads.of_shipping output
  have next : (r.vlsn : Int) + 1 = (n + 1 : Nat) + 1 := by rw [Positioned.vlsn, position]
  -- The record in hand is the one behind those shipped, so it makes up for the next shipment.
  have longer := Whereabouts.shipments_pass h.stands.first_le there
  rw [← same] at longer
  obtain ⟨ms, written, sent⟩ := h.sent
  rw [outputStep, output]
  dsimp only
  cases ships : shipment s.feeder.replicaType r with
  | none =>
    have nothing : s.whereabouts.shipments first (n + 1) = s.whereabouts.shipments first n := by
      rw [longer, show shipment s.whereabouts.type r = none from ships]
      exact List.append_nil _
    have counts := h.stands.shipped.trans (congrArg List.length nothing.symm)
    rw [outputMove_ok (ship_of_none ships), next]
    exact ⟨n + 1, h.stands.pass behind durable counts, ms, written, sent.trans nothing.symm⟩
  | some m =>
    have one : s.whereabouts.shipments first (n + 1) =
        s.whereabouts.shipments first n ++ [m] := by
      rw [longer, show shipment s.whereabouts.type r = some m from ships]
      rfl
    cases done : send setup m s with
    | ok u s' =>
      obtain ⟨session, rfl, written', -⟩ := sent_of_send records done
      have counts : s.feeder.shipped + 1 = (s.whereabouts.shipments first (n + 1)).length := by
        rw [one, List.length_append, ← h.stands.shipped]
        rfl
      rw [outputMove_ok (ship_of_sent ships done), next]
      refine ⟨n + 1, h.stands.pass behind durable counts, ms ++ [m], ?_, ?_⟩
      · rw [List.map_append, ← written]
        exact written'
      · rw [List.filter_append, sent, List.filter_cons_of_pos (isShipment_of_shipment ships).1]
        exact one.symm
    | error e s' =>
      -- What was refused stays the one record that was read and is not shipped.
      obtain ⟨aside, other⟩ : Aside whereabouts s s' ∧ e.isSource = false :=
        aside_of_send_error (fun _ _ => rfl) records done
      have kept := h.aside aside
      refine ⟨n, .finish records (bind_eq_of_error (ship_of_unsent ships done)) other
        kept.stands.blameless (fun error blameless => ?_) kept.sent⟩
      rw [aside.1]
      exact h.stands.drop behind.cursor durable there (same.symm.trans ships)
        (refused_of_send done) blameless

theorem Exact.outputStep (h : Exact setup shut first n s) (due : Bool) (now : Int64) :
    ∃ n', Exact setup shut first n' (s.outputStep setup due now) := by
  have serving (output : s.feeder.output.isServing = true) (idle : s.feeder.output.inHand = none)
      {x : EStateM FeederError (Feeding (σ × List Octets) ρ) Unit} (quiet : Quiet whereabouts x)
      {output' : OutputLoop} (serves : output'.isServing = true) (idle' : output'.inHand = none) :
      ∃ n', Exact setup shut first n' (s.outputMove setup do x; return output') :=
    ⟨n, h.serving records output idle quiet serves idle'⟩
  cases output : s.feeder.output with
  | idle | done =>
    rw [Feeding.outputStep, output]
    exact ⟨n, h⟩
  | starting => exact ⟨n, h.starting records output due now⟩
  | handshaking => exact ⟨n, h.handshaking records output due now⟩
  | requesting =>
    rw [output] at serving
    rw [Feeding.outputStep, output]
    dsimp only
    split
    · have place : s.whereabouts.output = .requesting := output
      have behind := h.stands.reads.of_serving (by rw [place]; rfl) (by rw [place]; rfl)
      exact ⟨n, h.stands.finish behind h.stands.blameless, h.sent⟩
    · exact serving rfl rfl (quiet_request records) rfl rfl
  | beating =>
    rw [output] at serving
    rw [Feeding.outputStep, output]
    dsimp only
    split
    · exact serving rfl rfl (quiet_beat records now) rfl rfl
    · exact serving rfl rfl (.pure ()) rfl rfl
  | fetching => exact ⟨n, h.fetching output due now⟩
  | shipping r => exact h.shipping records output due now

/-- The input loop has no part in what is shipped. -/
theorem Exact.inputStep (h : Exact setup shut first n s) :
    Exact setup shut first n (s.inputStep setup) := by
  have unmoved (input : InputLoop) : Exact setup shut first n (s.update ({ · with input })) :=
    ⟨h.stands, h.sent⟩
  rw [Feeding.inputStep]
  split
  · exact h
  · exact h
  · split
    · exact h
    · exact h
    · exact h
    · exact unmoved .done
    · exact unmoved .reading
  · split
    · exact unmoved .done
    · have quiet : Quiet whereabouts (onSession (Session.receive setup.codec setup.transport) >>=
          listen setup) := by
        rw [records]
        exact .bind (quiet_onSession (fun _ _ => rfl) (keeps_receive _ t)) quiet_listen
      dsimp only
      split
      next s' done => exact h.aside (quiet.of_ok done)
      next e s' failed =>
        obtain ⟨aside, other⟩ := quiet.of_error failed
        have kept := h.aside aside
        obtain ⟨error, place, blameless, written⟩ :=
          whereabouts_fail records other kept.stands.blameless
        have place' : ((s'.fail setup e).update ({ · with input := .done })).whereabouts =
            { s'.whereabouts with error } := place
        have stands : { s'.whereabouts with error }.At setup shut first n :=
          kept.stands.of_extends (.refl _) id blameless
        obtain ⟨ms, sent, same⟩ := kept.sent
        exact ⟨place' ▸ stands, ms, written.trans sent, place' ▸ same⟩

theorem Exact.shutDown (h : Exact setup shut first n s) (down : shut) :
    Exact setup shut first n (s.shutDown setup) := by
  obtain ⟨ms, written, sent⟩ := h.sent
  have written' : (s.shutDown setup).written = s.written := written_close records
  let c := Source.shutDown { source := s.feeder.source, protector := s.protector }
  have cursor : c.source.cursor = s.feeder.source.cursor := rfl
  exact ⟨h.stands.stop down cursor c.protector, ms, written'.trans written, sent⟩

omit records in
theorem Exact.of_extends (h : Exact setup shut first n s) {log : CommitLog}
    (longer : log.Extends s.log)
    (behind : ∀ {n}, s.whereabouts.Behind n → { s.whereabouts with log }.Behind n) :
    Exact setup shut first n { s with log } := by
  obtain ⟨ms, written, sent⟩ := h.sent
  exact ⟨h.stands.of_extends longer behind h.stands.blameless, ms, written,
    sent.trans (shipments_of_extends longer h.stands.within)⟩

/-! ## Runs -/

theorem Exact.step (h : Exact setup shut first n s) {a : Action} (known : a = .shutDown → shut) :
    ∃ n', Exact setup shut first n' (s.step setup a) := by
  cases a with
  | output due now => exact h.outputStep records due now
  | input => exact ⟨n, h.inputStep records⟩
  | append r => exact ⟨n, h.of_extends (CommitLog.extends_append r) (·.append r)⟩
  | markDurable vlsn =>
    dsimp only [Feeding.step]
    split
    next log done =>
      exact ⟨n, h.of_extends (CommitLog.extends_markDurable done) (·.markDurable done)⟩
    next => exact ⟨n, h⟩
  | clean => exact ⟨n, h.of_extends (CommitLog.extends_clean s.protector) (·.clean)⟩
  | requestShutdown time => exact ⟨n, h.stands, h.sent⟩
  | shutDown => exact ⟨n, h.shutDown records (known rfl)⟩

theorem Exact.run (h : Exact setup shut first n s) {actions : List Action}
    (known : .shutDown ∈ actions → shut) :
    ∃ n', Exact setup shut first n' (s.run setup actions) := by
  induction actions generalizing s n with
  | nil => exact ⟨n, h⟩
  | cons a rest ih =>
    obtain ⟨n', h'⟩ := h.step records fun shuts => known (shuts ▸ List.mem_cons_self)
    exact ih h' fun later => known (List.mem_cons_of_mem a later)

end Moving

/-- A feeder that has just been started has shipped nothing. -/
theorem exact_start {log : CommitLog} {p : FileProtector} {name : Octets} {vlsn : Int}
    {custody : Log.Custody} {session : Session (σ × List Octets)} {listener : ρ}
    (opened : Source.ofStart log p name vlsn = .ok custody) (silent : session.link.2 = [])
    (started : Feeding.start {
      log, session, listener, protector := custody.protector
      feeder := Feeder.ofSource custody.source } = .ok s) :
    ∃ n : Nat, vlsn = n + 1 ∧ Exact setup shut n n s := by
  obtain ⟨n, rfl, start, behind⟩ := Source.behind_ofStart opened
  cases started
  have nothing (w : Whereabouts) : w.shipments n n = [] := Whereabouts.shipments_self
  refine ⟨n, rfl, ⟨start, Nat.le_refl n, .inr rfl, ?_, .opening (.inl rfl) behind rfl, nofun⟩,
    [], silent, (nothing _).symm⟩
  exact congrArg List.length (nothing _).symm

/-- What a feeder has come to that began at a vlsn, if it has written just those messages. -/
structure Tally (setup : Setup (σ × List Octets) ρ) (shut : Prop) (vlsn last : Nat)
    (ms : List Message) (s : Feeding (σ × List Octets) ρ) : Prop where
  written : s.written = ms.map Message.frame
  /-- What ships records among them are the images of those up to the last one. -/
  shipments : ms.filter isShipment = images s.feeder.replicaType (s.log.between vlsn last)
  shipped : s.feeder.shipped = (ms.filter isShipment).length
  durable : ∀ r ∈ s.log.between vlsn last, r.vlsn ≤ s.log.durable
  next : s.feeder.next = last + 1
  reached : vlsn ≤ last + 1
  /-- The last record is the one that was read last, if that is not withheld. -/
  read : s.feeder.source.cursor.next = last + 1 ∨ s.whereabouts.Withheld setup shut last
  /-- The source never fails, whatever the cleaner does. -/
  sound : ∀ e, s.feeder.error ≠ some (.source e)

theorem Exact.tally (h : Exact setup shut first n s) :
    ∃ ms, Tally setup shut (first + 1) n ms s := by
  obtain ⟨ms, written, sent⟩ := h.sent
  have images := filterMap_shipment s.feeder.replicaType (s.log.between (first + 1) n)
  refine ⟨ms, written, sent.trans images, ?_, fun r mem => ?_, h.stands.next,
    Nat.succ_le_succ h.stands.first_le, h.stands.reads.read, h.stands.blameless⟩
  · exact h.stands.shipped.trans (congrArg List.length sent.symm)
  · obtain ⟨later, before, -⟩ := CommitLog.mem_between.1 mem
    have within : n ≤ s.log.durable ∨ n = first := h.stands.within
    rw [Positioned.vlsn]
    omega

/-- Between two rounds of the output loop everything that was read is shipped, if no record of
    the log is too large, the link takes what is written, and the feeder was not shut down. -/
theorem Tally.read_last {vlsn last : Nat} {ms : List Message}
    (h : Tally setup shut vlsn last ms s) (up : ¬ shut) (idle : s.feeder.output.inHand = none)
    (fits : ∀ (i : Nat) r m, s.log.records[i]? = some r →
      shipment s.feeder.replicaType ⟨r, i⟩ = some m → m.body.length ≤ setup.codec.limit)
    (takes : ∀ bytes link e link', setup.transport.write bytes link ≠ .error e link') :
    s.feeder.source.cursor.next = last + 1 := by
  refine h.read.resolve_right fun withheld => ?_
  obtain ⟨r, output, -⟩ | down | ⟨r, m, there, ships, large | ⟨link, e, link', refused⟩⟩ :=
    withheld.why
  · rw [show s.feeder.output = .shipping r from output] at idle
    cases idle
  · exact up down
  · exact Nat.not_lt.2 (fits last r m there ships) large
  · exact takes _ _ _ _ refused

/-- However the loops of a feeder and the changes of its log interleave: what has been shipped
    is just the log from the start of the source up to the record that was read last. -/
theorem run_ships_exactly {log : CommitLog} {p : FileProtector} {name : Octets} {vlsn : Int}
    {custody : Log.Custody} {session : Session (σ × List Octets)} {listener : ρ}
    (records : setup.transport = t.recorded)
    (opened : Source.ofStart log p name vlsn = .ok custody) (silent : session.link.2 = [])
    (started : Feeding.start {
      log, session, listener, protector := custody.protector
      feeder := Feeder.ofSource custody.source } = .ok s) (actions : List Action) :
    ∃ last ms, Tally setup (.shutDown ∈ actions) vlsn.toNat last ms (s.run setup actions) := by
  obtain ⟨n, rfl, fresh⟩ := exact_start opened silent started
  obtain ⟨last, reached⟩ := fresh.run records id
  exact ⟨last, reached.tally⟩

end Feeding

namespace CleanedBehind

/-- A feeder that answers over a scripted link. -/
def setup : Setup (ScriptedLink × List Octets) Unit where
  master := { name := .ofAscii "master", id := 1 }
  codec := { limit := 64, limit_pos := by decide }
  transport := ScriptedLink.transport.recorded
  listener := {
    heartbeatResponse := fun _ _ _ _ => pure (), ack := fun _ _ => pure ()
    shutdownResponse := fun _ => pure () }
  preHeartbeatTimeout := 0
  replicaTimeout := 0

/-- Two files, of which the first is durable. -/
def log : CommitLog where
  recordsPerFile := 1
  recordsPerFile_pos := Nat.one_pos
  records := [{ txn := 1, payload := [7], beforeImage := [6] }, { type := .commit, txn := 1 }]
  durable := 1
  durable_le := by decide

/-- The source of the feeder, which begins at the first record. -/
def custody : Log.Custody where
  source := {
    start := 1, cursor := { next := 1, startFile := 0, lastFile := 0 }, range := .active 0 }
  protector := (({} : FileProtector).protect (.ofAscii "Feeder-replica") 0).2

/-- The link over which the replica has introduced itself. -/
def session : Session (ScriptedLink × List Octets) where
  link := ({ incoming :=
    (Message.clientVersion Stream.streamVersion (.ofAscii "replica") 2 .electable).frame }, [])

/-- One record is shipped, two more become durable, and the files behind are removed while the
    feeder goes on. -/
def actions : List Feeding.Action :=
  List.replicate 6 (.output false 0) ++ [.append { type := .abort, txn := 2 }, .markDurable 3] ++
    List.replicate 4 (.output false 0) ++ [.clean] ++ List.replicate 4 (.output false 0) ++ [.clean]

end CleanedBehind

open CleanedBehind in
theorem run_ships_exactly_cleaned : ∃ s,
    setup.transport = ScriptedLink.transport.recorded ∧
      Source.ofStart log {} (.ofAscii "replica") 1 = .ok custody ∧ session.link.2 = [] ∧
      Feeding.start {
        log, session, listener := (), protector := custody.protector
        feeder := Feeder.ofSource custody.source } = .ok s ∧
      (s.run setup actions).feeder.shipped = 3 ∧ (s.run setup actions).log.firstFile = 2 ∧
      ∃ last ms, Feeding.Tally setup (.shutDown ∈ actions) 1 last ms (s.run setup actions) := by
  have records : setup.transport = ScriptedLink.transport.recorded := rfl
  have opened : Source.ofStart log {} (.ofAscii "replica") 1 = .ok custody := rfl
  have silent : session.link.2 = [] := rfl
  exact ⟨_, records, opened, silent, rfl, by decide +kernel, by decide +kernel,
    Feeding.run_ships_exactly records opened silent rfl actions⟩

end Replication.Feeder
