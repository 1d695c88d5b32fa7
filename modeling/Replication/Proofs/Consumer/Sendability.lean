import Replication.Feeder.Watched
import Replication.Proofs.Consumer.Coalescing
import Replication.Proofs.Stream.Sizes

/-! # Which batches can be sent

A group of acknowledgments is one message, so the limit that each of them keeps on its own
may be too small for their group.  A batch goes out whole just when the limit has room for
each of its runs, and all batches that the output queue makes do just when it has room for a
run of the longest ids that is as long as such a batch.
-/

namespace Replication

open Replication.Link (Transport)
open Replication.Stream (Codec Message Session)

namespace Stream.Session

/-! ## Sending over a recorded link -/

variable {σ : Type} {c : Codec} {t : Transport σ} {m : Message} {ms front back : List Message}

section Recorded

variable (takes : ∀ bytes link e link', t.write bytes link ≠ .error e link')

include takes

theorem write_recorded_total (bytes : Octets) (l : σ × List Octets) :
    ∃ link, t.recorded.write bytes l = .ok () (link, l.2 ++ [bytes]) := by
  simp only [Transport.recorded]
  cases written : t.write bytes l.1 with
  | ok u link => exact ⟨link, rfl⟩
  | error e link => exact absurd written (takes _ _ _ _)

/-- An end that takes every write takes the frames of all messages that are within the limit. -/
theorem sendAll_recorded (fit : ∀ m ∈ ms, m.body.length ≤ c.limit)
    (s : Session (σ × List Octets)) :
    ∃ s', sendAll c t.recorded ms s = .ok () s' ∧
      s'.link.2 = s.link.2 ++ ms.map Message.frame := by
  induction ms generalizing s with
  | nil => exact ⟨s, rfl, (List.append_nil _).symm⟩
  | cons m ms ih =>
    obtain ⟨link, written⟩ := write_recorded_total takes m.frame s.link
    have sent := send_eq_ok (s := s) (fit m List.mem_cons_self) written
    obtain ⟨s', others, frames⟩ := ih (fun m' mem => fit m' (List.mem_cons_of_mem _ mem))
      { link := (link, s.link.2 ++ [m.frame]), traffic := s.traffic.put m }
    refine ⟨s', ?_, ?_⟩
    · rw [sendAll, bind_eq_of_ok sent, others]
    · rw [frames, List.append_assoc]
      rfl

/-- The first message above the limit is refused, behind those in front of it. -/
theorem sendAll_recorded_large (fit : ∀ m ∈ front, m.body.length ≤ c.limit)
    (large : c.limit < m.body.length) (back : List Message) (s : Session (σ × List Octets)) :
    ∃ s', sendAll c t.recorded (front ++ m :: back) s =
        .error (.codec (.tooLarge m.op m.body.length c.limit)) s' ∧
      s'.link.2 = s.link.2 ++ front.map Message.frame := by
  obtain ⟨s', sent, frames⟩ := sendAll_recorded takes fit s
  refine ⟨s', ?_, frames⟩
  rw [sendAll_append, bind_eq_of_ok sent, sendAll,
    bind_eq_of_error (send_eq_error_of_large large)]

end Recorded

end Stream.Session

namespace Consumer

open Replication.Replay (Ack Store)

variable {σ τ : Type}

/-! ## Room for runs -/

section Room

variable {batch front run back : List Ack} {limit : Nat}

theorem runResponse_of_two_le (many : 2 ≤ run.length) :
    runResponse run = .groupAck (run.map (·.id)) := by
  match run, many with
  | _ :: _ :: _, _ => rfl

open Replication.Wire in
theorem length_body_groupAck (ids : List Int64) :
    (Message.groupAck ids).body.length = 4 + (ids.flatMap putPackedLong).length := by
  simp only [Message.body, putInt, List.length_append, length_bigEndian]

theorem length_body_runResponse_le (run : List Ack) :
    (runResponse run).body.length ≤ 4 + 9 * run.length := by
  unfold runResponse
  split
  next a =>
    have id := Wire.length_putPackedLong_le a.id
    simp only [Message.body, List.length_singleton]
    omega
  next =>
    have ids := Stream.BodyReader.length_flatMap_putPackedLong_le (run.map (·.id))
    rw [List.length_map] at ids
    rw [length_body_groupAck]
    omega

/-- If there is room for each acknowledgment, there is room for all responses just when there is
    room for those to runs. -/
theorem responses_fit_iff (alone : ∀ a ∈ batch, a.response.body.length ≤ limit) :
    (∀ m ∈ responses true batch, m.body.length ≤ limit) ↔
      ∀ front run back, MaximalRun batch front run back →
        (runResponse run).body.length ≤ limit := by
  constructor
  · intro fit front run back maximal
    refine fit _ ?_
    rw [maximal.responses]
    exact List.mem_append_right _ List.mem_cons_self
  · intro fit m mem
    rcases mem_responses mem with ⟨a, there, rfl⟩ | ⟨-, front, run, back, maximal, many, rfl⟩
    · exact alone a there
    · rw [← runResponse_of_two_le many]
      exact fit front run back maximal

/-- Whatever the limit, so many acknowledgments of one id, for each of which there is room, do
    not fit in one group if that many of the longest ids do not. -/
theorem exists_long_id {count : Nat} (many : 3 ≤ count) (positive : 0 < limit)
    (small : limit < 4 + 9 * count) :
    ∃ id : Int64, (Wire.putPackedLong id).length ≤ limit ∧
      limit < 4 + (Wire.putPackedLong id).length * count := by
  -- One byte, two or nine, by the limit: there is room for the id, but not for the group.
  have one : (Wire.putPackedLong 0).length = 1 := by decide +kernel
  have two : (Wire.putPackedLong 120).length = 2 := by decide +kernel
  have nine : (Wire.putPackedLong 9223372036854775807).length = 9 := by decide +kernel
  rcases Nat.lt_or_ge limit 2 with tiny | wide
  · exact ⟨0, by rw [one]; omega, by rw [one]; omega⟩
  · rcases Nat.lt_or_ge limit 9 with narrow | wide
    · exact ⟨120, by rw [two]; omega, by rw [two]; omega⟩
    · exact ⟨9223372036854775807, by rw [nine]; omega, by rw [nine]; omega⟩

theorem maximalRun_replicate {count : Nat} (many : 0 < count) {a : Ack} (txn : a.kind = .txn) :
    MaximalRun (List.replicate count a) [] (List.replicate count a) [] where
  parts := by rw [List.append_nil, List.nil_append]
  nonempty := by simpa using Nat.ne_of_gt many
  txns := fun b mem => (List.eq_of_mem_replicate mem) ▸ txn
  before := nofun
  after := nofun

end Room

/-! ## Batches -/

/-- Whether the output queue of a node with these parameters may make a batch, and its limit
    has room for the response to each acknowledgment on its own. -/
structure Eligible (p : Parameters) (batch : List Ack) : Prop where
  few : (batch.length : Int) ≤ p.outputQueueSize + 1
  alone : ∀ a ∈ batch, (a.response.body.length : Int) ≤ p.maxMessageSize

/-- The setup of a consumer that writes each acknowledgment on its own. -/
def Setup.ungrouped (setup : Setup σ τ) : Setup σ τ :=
  { setup with groupedAcks := false }

theorem Setup.exists_ofParameters {properties : List (Octets × Octets)} {p : Parameters}
    (accepted : Parameters.ofProperties properties = .ok p) (node : Octets) (nodeId : Int32)
    (t : Transport σ) (store : Store τ) :
    ∃ setup, Setup.ofParameters p node nodeId t store = .ok setup ∧
      (setup.codec.limit : Int) = p.maxMessageSize ∧ setup.transport = t ∧
      setup.groupedAcks = p.enableGroupAcks := by
  obtain ⟨c, codec, limit⟩ := Codec.exists_ofLimit (Parameters.maxMessageSize_pos accepted)
  exact ⟨_, by rw [Setup.ofParameters, codec]; rfl, limit, rfl, rfl⟩

namespace Streaming

variable {setup : Setup (σ × List Octets) τ} {t : Transport σ} {p : Parameters}
  {s : Streaming (σ × List Octets) τ} {batch front run back : List Ack}

/-- Whether the writer writes all responses to a batch and is through with it. -/
structure WritesAll (setup : Setup (σ × List Octets) τ) (s : Streaming (σ × List Octets) τ)
    (batch : List Ack) : Prop where
  frames : (s.writeOut setup batch).session.link.2 =
    s.session.link.2 ++ (responses setup.groupedAcks batch).map Message.frame
  writer : (s.writeOut setup batch).writer = .writing []
  error : (s.writeOut setup batch).writeError = s.writeError

/-- Whether the writer writes the responses to the front of a batch and ends, since the limit
    has no room for the run behind it. -/
structure EndsAt (setup : Setup (σ × List Octets) τ) (s : Streaming (σ × List Octets) τ)
    (batch front run : List Ack) : Prop where
  frames : (s.writeOut setup batch).session.link.2 =
    s.session.link.2 ++ (responses setup.groupedAcks front).map Message.frame
  writer : (s.writeOut setup batch).writer = .done
  error : (s.writeOut setup batch).writeError = some (.stream (.codec
    (.tooLarge .groupAck (runResponse run).body.length setup.codec.limit)))

section Recorded

variable (takes : ∀ bytes link e link', t.write bytes link ≠ .error e link')
  (recorded : setup.transport = t.recorded)

include takes recorded

/-- Over an end that takes every write a batch goes out whole just when the limit has room for
    all its responses. -/
theorem writesAll_iff_fit :
    WritesAll setup s batch ↔
      ∀ m ∈ responses setup.groupedAcks batch, m.body.length ≤ setup.codec.limit := by
  constructor
  · intro whole
    -- A writer that is through has sent all, for one that could not has ended.
    cases sent : Session.sendAll setup.codec setup.transport (responses setup.groupedAcks batch)
        s.session with
    | ok u session => exact Session.length_le_of_sendAll sent
    | error e session =>
      have ended := (writeOut_of_error sent).1
      rw [whole.writer] at ended
      cases ended
  · intro fit
    obtain ⟨session, sent, frames⟩ := Session.sendAll_recorded takes fit s.session
    have written := writeOut_of_ok (recorded.symm ▸ sent)
    refine ⟨?_, ?_, ?_⟩
    · rw [written, frames]
    · rw [written]
    · rw [written]
      exact writeError_foldl_wrote _ _

theorem writesAll_ungrouped
    (alone : ∀ a ∈ batch, a.response.body.length ≤ setup.codec.limit) :
    WritesAll setup.ungrouped s batch := by
  have same : setup.ungrouped.transport = t.recorded := recorded
  refine (writesAll_iff_fit takes same).2 fun m mem => ?_
  rw [show responses setup.ungrouped.groupedAcks batch = batch.map Ack.response from
    responses_false batch] at mem
  obtain ⟨a, there, rfl⟩ := List.mem_map.1 mem
  exact alone a there

/-- What goes out whole with grouping leaves the consumer as it would be left without. -/
theorem writeOut_eq_ungrouped
    (alone : ∀ a ∈ batch, a.response.body.length ≤ setup.codec.limit)
    (whole : WritesAll setup s batch) :
    s.writeOut setup batch =
      { s.writeOut setup.ungrouped batch with session := (s.writeOut setup batch).session } := by
  have same : setup.ungrouped.transport = t.recorded := recorded
  have apart : WritesAll setup.ungrouped s batch := writesAll_ungrouped takes recorded alone
  obtain ⟨session, sent, -⟩ := Session.sendAll_recorded takes
    ((writesAll_iff_fit takes recorded).1 whole) s.session
  obtain ⟨session', sent', -⟩ := Session.sendAll_recorded takes
    ((writesAll_iff_fit takes same).1 apart) s.session
  rw [← recorded] at sent
  rw [← same] at sent'
  rw [writeOut_of_ok sent, writeOut_of_ok sent', foldl_wrote_responses, foldl_wrote_responses]

/-- A run without room ends the writer, behind the responses to what stands in front of it. -/
theorem endsAt_of_large (on : setup.groupedAcks = true) (going : s.stop = false)
    (alone : ∀ a ∈ batch, a.response.body.length ≤ setup.codec.limit)
    (maximal : MaximalRun batch front run back)
    (fit : ∀ m ∈ responses true front, m.body.length ≤ setup.codec.limit)
    (large : setup.codec.limit < (runResponse run).body.length) :
    EndsAt setup s batch front run := by
  -- A run of one is answered alone, for which there is room.
  have group : (runResponse run).op = .groupAck := by
    match run, maximal with
    | [], maximal => exact absurd rfl maximal.nonempty
    | [a], maximal =>
      have room := alone a (by rw [maximal.parts]; simp)
      rw [response_of_txn (maximal.txns a List.mem_cons_self)] at room
      exact absurd room (Nat.not_le.2 large)
    | _ :: _ :: _, _ => rfl
  obtain ⟨session, failed, frames⟩ :=
    Session.sendAll_recorded_large takes fit large (responses true back) s.session
  rw [← maximal.responses, ← on, ← recorded] at failed
  obtain ⟨writer, why⟩ := writeOut_of_error failed
  obtain ⟨error, closed⟩ := why going
  refine ⟨?_, writer, ?_⟩
  · rw [closed, on, ← frames, recorded]
    rfl
  · rw [error, group]

/-- With grouping a batch goes out whole just when the limit has room for its runs. -/
theorem writesAll_iff_runs (on : setup.groupedAcks = true)
    (alone : ∀ a ∈ batch, a.response.body.length ≤ setup.codec.limit) :
    WritesAll setup s batch ↔ ∀ front run back, MaximalRun batch front run back →
      (runResponse run).body.length ≤ setup.codec.limit := by
  rw [writesAll_iff_fit takes recorded, on, responses_fit_iff alone]

/-- All batches that the output queue may make go out whole just when the limit has room for as
    many of the longest ids. -/
theorem forall_writesAll_iff (on : setup.groupedAcks = true)
    (limit : (setup.codec.limit : Int) = p.maxMessageSize) (queue : 2 ≤ p.outputQueueSize) :
    (∀ batch, Eligible p batch → WritesAll setup s batch) ↔
      4 + 9 * (p.outputQueueSize + 1) ≤ p.maxMessageSize := by
  have alone {batch : List Ack} (h : Eligible p batch) :
      ∀ a ∈ batch, a.response.body.length ≤ setup.codec.limit := by
    intro a mem
    have room := h.alone a mem
    omega
  constructor
  · intro all
    refine Int.not_lt.1 fun small => ?_
    obtain ⟨count, length⟩ : ∃ count : Nat, (count : Int) = p.outputQueueSize + 1 :=
      ⟨(p.outputQueueSize + 1).toNat, by omega⟩
    have small : setup.codec.limit < 4 + 9 * count := by omega
    -- The largest batch, of one id, is a run of which the response is too large.
    obtain ⟨id, room, large⟩ := exists_long_id (by omega) setup.codec.limit_pos small
    let a : Ack := { kind := .txn, id, highVlsn := 0, dtvlsn := 0 }
    have eligible : Eligible p (List.replicate count a) := by
      refine ⟨by rw [List.length_replicate]; omega, fun b mem => ?_⟩
      rw [List.eq_of_mem_replicate mem, ← limit]
      exact Int.ofNat_le.2 room
    have fits := (writesAll_iff_runs takes recorded on (alone eligible)).1 (all _ eligible) _ _ _
      (maximalRun_replicate (by omega) rfl)
    rw [runResponse_of_two_le (by rw [List.length_replicate]; omega), length_body_groupAck,
      List.map_replicate, List.flatMap_replicate, List.length_flatten, List.map_replicate,
      List.sum_replicate_nat, Nat.mul_comm] at fits
    exact Nat.not_le.2 large fits
  · intro room batch eligible
    refine (writesAll_iff_runs takes recorded on (alone eligible)).2 fun front run back maximal => ?_
    have bound := length_body_runResponse_le run
    have few := eligible.few
    rw [maximal.parts, List.length_append, List.length_append] at few
    omega

end Recorded

/-- Parameters that are accepted and have acknowledgments grouped make a setup of which this
    holds, over an end that takes every write and for each batch that the output queue may make
    and of which each acknowledgment is within the limit.  Ungrouped the batch goes out whole.
    Grouped it does just when each of its runs is within the limit as one message, and then the
    consumer is left as it would be ungrouped; a run that is not ends the writer, behind the
    responses to what stands in front of it.  All such batches go out whole just when the limit
    has room for a group of as many of the longest ids. -/
theorem writes_all_iff_room {properties : List (Octets × Octets)}
    (accepted : Parameters.ofProperties properties = .ok p) (grouped : p.enableGroupAcks = true)
    (takes : ∀ bytes link e link', t.write bytes link ≠ .error e link') (node : Octets)
    (nodeId : Int32) (store : Store τ) :
    ∃ setup, Setup.ofParameters p node nodeId t.recorded store = .ok setup ∧
      ∀ s : Streaming (σ × List Octets) τ,
        (∀ batch, Eligible p batch →
          WritesAll setup.ungrouped s batch ∧
          (WritesAll setup s batch ↔ ∀ front run back, MaximalRun batch front run back →
            ((runResponse run).body.length : Int) ≤ p.maxMessageSize) ∧
          (WritesAll setup s batch → s.writeOut setup batch =
            { s.writeOut setup.ungrouped batch with
              session := (s.writeOut setup batch).session }) ∧
          ∀ front run back, MaximalRun batch front run back →
            (∀ m ∈ responses true front, (m.body.length : Int) ≤ p.maxMessageSize) →
            p.maxMessageSize < (runResponse run).body.length → s.stop = false →
            EndsAt setup s batch front run) ∧
        ((∀ batch, Eligible p batch → WritesAll setup s batch) ↔
          4 + 9 * (p.outputQueueSize + 1) ≤ p.maxMessageSize) := by
  obtain ⟨setup, made, limit, recorded, on⟩ :=
    Setup.exists_ofParameters accepted node nodeId t.recorded store
  rw [grouped] at on
  have queue : 2 ≤ p.outputQueueSize := by
    have positive := Parameters.replicaMessageQueueSize_pos accepted
    rw [Parameters.outputQueueSize]
    omega
  refine ⟨setup, made, fun s => ⟨fun batch eligible => ?_,
    forall_writesAll_iff takes recorded on limit queue⟩⟩
  simp only [← limit, Int.ofNat_le, Int.ofNat_lt]
  have alone : ∀ a ∈ batch, a.response.body.length ≤ setup.codec.limit := by
    intro a mem
    have room := eligible.alone a mem
    omega
  refine ⟨writesAll_ungrouped takes recorded alone, writesAll_iff_runs takes recorded on alone,
    writeOut_eq_ungrouped takes recorded alone, ?_⟩
  intro front run back maximal fit large going
  exact endsAt_of_large takes recorded on going alone maximal fit large

end Streaming

namespace LongIds

open Replication.Replay (MemoryStore)

/-- Properties that ask for groups and for that limit. -/
def properties (limit : String) : List (Octets × Octets) :=
  [(.ofAscii "enableGroupAcks", .ofAscii "true"), (.ofAscii "maxMessageSize", .ofAscii limit)]

theorem sorted_properties (limit : String) :
    ((properties limit).mergeSort fun a b => (compare a.1 b.1).isLE) = properties limit := by
  have order : (compare (Octets.ofAscii "enableGroupAcks") (.ofAscii "maxMessageSize")).isLE := by
    decide +kernel
  exact List.mergeSort_of_pairwise (by simpa [properties] using order)

/-- An end that takes every write. -/
def sink : Transport Unit where
  read _ := throw .closed
  write _ := pure ()
  setTimeout _ := id
  close := id

theorem sink_takes (bytes : Octets) (link : Unit) (e : Link.LinkError) (link' : Unit) :
    sink.write bytes link ≠ .error e link' := nofun

/-- Acknowledgments of three transactions, the ids of which take nine bytes each. -/
def batch : List Ack :=
  [9223372036854775805, 9223372036854775806, 9223372036854775807].map fun id =>
    { kind := .txn, id, highVlsn := 3, dtvlsn := 3 }

/-- A connection on which nothing has been written. -/
def streaming : Streaming (Unit × List Octets) MemoryStore where
  consumer := { replay := { replayer := { role := .replica }, store := {} } }
  session := { link := ((), []) }
  requests := { capacity := 1000 }
  output := { capacity := 2000 }

theorem maximalRun : MaximalRun batch [] batch [] :=
  ⟨rfl, nofun, by decide, nofun, nofun⟩

theorem length_body_response : ∀ a ∈ batch, a.response.body.length = 9 := by
  decide +kernel

theorem length_body_runResponse : (runResponse batch).body.length = 31 := by
  decide +kernel

end LongIds

namespace Streaming

open LongIds
open Replication.Replay (MemoryStore)

/-- A limit of 31 bytes has room for three of the longest ids. -/
theorem writes_all_iff_room_three :
    ∃ p setup, Parameters.ofProperties (properties "31") = .ok p ∧ p.enableGroupAcks = true ∧
      (∀ bytes link e link', sink.write bytes link ≠ .error e link') ∧
      Setup.ofParameters p (.ofAscii "r2") 2 sink.recorded MemoryStore.store = .ok setup ∧
      Eligible p batch ∧ WritesAll setup streaming batch := by
  have accepted : Parameters.ofProperties (properties "31") =
      .ok { enableGroupAcks := true, maxMessageSize := 31 } := by
    rw [Parameters.ofProperties, sorted_properties]
    decide +kernel
  have eligible : Eligible { enableGroupAcks := true, maxMessageSize := 31 } batch := by
    refine ⟨by decide, fun a mem => ?_⟩
    rw [length_body_response a mem]
    decide
  obtain ⟨setup, made, all⟩ := writes_all_iff_room accepted rfl sink_takes (.ofAscii "r2") 2
    MemoryStore.store
  obtain ⟨-, whole, -⟩ := (all streaming).1 batch eligible
  refine ⟨_, setup, accepted, rfl, sink_takes, made, eligible, whole.2 fun front run back h => ?_⟩
  have bound := length_body_runResponse_le run
  have parts := congrArg List.length h.parts
  rw [List.length_append, List.length_append, batch, List.length_map] at parts
  change 3 = front.length + (run.length + back.length) at parts
  change ((runResponse run).body.length : Int) ≤ 31
  omega

/-- One of 30 bytes has room for each of them and none for the group, which ends the writer. -/
theorem group_unsendable :
    ∃ p setup, Parameters.ofProperties (properties "30") = .ok p ∧ p.enableGroupAcks = true ∧
      (∀ bytes link e link', sink.write bytes link ≠ .error e link') ∧
      Setup.ofParameters p (.ofAscii "r2") 2 sink.recorded MemoryStore.store = .ok setup ∧
      Eligible p batch ∧ WritesAll setup.ungrouped streaming batch ∧
      ¬ WritesAll setup streaming batch ∧
      (streaming.writeOut setup batch).session.link.2 = [] ∧
      (streaming.writeOut setup batch).writeError =
        some (.stream (.codec (.tooLarge .groupAck 31 30))) := by
  have accepted : Parameters.ofProperties (properties "30") =
      .ok { enableGroupAcks := true, maxMessageSize := 30 } := by
    rw [Parameters.ofProperties, sorted_properties]
    decide +kernel
  obtain ⟨setup, made, limit, recorded, on⟩ := Setup.exists_ofParameters accepted
    (.ofAscii "r2") 2 sink.recorded MemoryStore.store
  have limit : setup.codec.limit = 30 := Int.ofNat.inj limit
  have alone : ∀ a ∈ batch, a.response.body.length ≤ setup.codec.limit := by
    intro a mem
    rw [length_body_response a mem, limit]
    decide
  have ends : EndsAt setup streaming batch [] batch :=
    endsAt_of_large sink_takes recorded on rfl alone maximalRun
      (by simp) (by rw [length_body_runResponse, limit]; decide)
  refine ⟨_, setup, accepted, rfl, sink_takes, made, ⟨by decide, fun a mem => ?_⟩,
    writesAll_ungrouped sink_takes recorded alone, ?_, ?_, ?_⟩
  · rw [length_body_response a mem]
    decide
  · intro whole
    cases ends.writer.symm.trans whole.writer
  · rw [ends.frames, responses_nil]
    rfl
  · rw [ends.error, length_body_runResponse, limit]

end Streaming

end Consumer

end Replication
