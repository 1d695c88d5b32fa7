import Replication.Proofs.Consumer.Coalescing
import Replication.Proofs.Feeder.Hearing

/-! # Acknowledgments get through however they are written

The writer of a consumer cuts the acknowledgments into batches and may put those of a batch
into groups.  A feeder that takes the messages off the connection tells its listener of each
acknowledgment, in their order, and counts those of transactions: neither the batches nor the
groups show.
-/

namespace Replication

open Replication.Link (Connection)
open Replication.Replay (Ack)
open Replication.Stream (Codec Message Piped Session)

/-- Whether the frame of a message fits: the limit allows its body, and the header can tell the
    size of it, as it can of all bodies that a limit below 2 GiB allows. -/
structure Stream.Codec.Fits (c : Codec) (m : Message) : Prop where
  within : m.body.length ≤ c.limit
  short : m.body.length < 2 ^ 31

theorem Stream.Codec.fits_of_limit {c : Codec} (limit : c.limit < 2 ^ 31) {m : Message}
    (within : m.body.length ≤ c.limit) : c.Fits m :=
  ⟨within, Nat.lt_of_le_of_lt within limit⟩

/-! ## What a message tells -/

/-- What the listener is told of an acknowledgment from the consumer of that name. -/
def Replay.Ack.notice (name : Octets) (a : Ack) : Feeder.Notice :=
  match a.kind with
  | .heartbeat => .heartbeatResponse name a.id a.highVlsn a.dtvlsn
  | .shutdown => .shutdownResponse name
  | .txn => .ack name a.id

namespace Feeder

/-- What the listener is told of a message that answers acknowledgments. -/
def tidings (name : Octets) : Message → List Notice
  | .shutdownResponse => [.shutdownResponse name]
  | m => noticesOf name m

def acknowledged : Message → List Int64
  | .ack txn => [txn]
  | .groupAck txns => txns
  | _ => []

def isAnswer : Message → Bool
  | .shutdownResponse => true
  | m => isResponse m

section Responses

open Consumer (responses responses_nil)

variable {name : Octets}

theorem isAnswer_response (a : Ack) : isAnswer a.response = true := by
  rw [Ack.response]
  cases a.kind <;> rfl

theorem tidings_response (a : Ack) : tidings name a.response = [a.notice name] := by
  rw [Ack.response, Ack.notice]
  cases a.kind <;> rfl

theorem length_acknowledged_response (a : Ack) :
    (acknowledged a.response).length = [a].countP (·.kind = .txn) := by
  rw [Ack.response, List.countP_singleton]
  cases a.kind <;> rfl

theorem isAnswer_of_mem_responses {grouped : Bool} {acks : List Ack} {m : Message}
    (mem : m ∈ responses grouped acks) : isAnswer m = true := by
  rcases Consumer.mem_responses mem with ⟨a, -, rfl⟩ | ⟨-, front, run, back, -, -, rfl⟩
  · exact isAnswer_response a
  · rfl

theorem map_notice_of_txns {run : List Ack} (txns : ∀ a ∈ run, a.kind = .txn) :
    run.map (Ack.notice name) = (run.map (·.id)).map (.ack name) := by
  rw [List.map_map]
  refine List.map_congr_left fun a mem => ?_
  rw [Ack.notice, txns a mem]
  rfl

/-- The responses to a batch tell of its acknowledgments, each in its place. -/
theorem flatMap_tidings_responses (grouped : Bool) (acks : List Ack) :
    (responses grouped acks).flatMap (tidings name) = acks.map (Ack.notice name) := by
  induction acks using Consumer.batch_induction grouped with
  | nil => rw [responses_nil]; rfl
  | cons a rest r first ih =>
    rw [first.responses, List.flatMap_cons, ih]
    cases first with
    | alone =>
      rw [tidings_response, List.map_cons]
      rfl
    | @together b run left on txns ends =>
      rw [← List.cons_append, List.map_append, map_notice_of_txns txns]
      rfl

/-- They acknowledge as many transactions as the batch does. -/
theorem length_acknowledged_responses (grouped : Bool) (acks : List Ack) :
    ((responses grouped acks).flatMap acknowledged).length = acks.countP (·.kind = .txn) := by
  induction acks using Consumer.batch_induction grouped with
  | nil => rw [responses_nil]; rfl
  | cons a rest r first ih =>
    rw [first.responses, List.flatMap_cons, List.length_append, ih]
    cases first with
    | alone =>
      rw [length_acknowledged_response, ← List.countP_append]
      rfl
    | @together b run left on txns ends =>
      have all : (a :: b :: run).countP (·.kind = .txn) = (a :: b :: run).length :=
        List.countP_eq_length.2 fun c mem => decide_eq_true (txns c mem)
      rw [← List.cons_append, List.countP_append, all, acknowledged, List.length_map]

end Responses

structure Listener.TakesAll {ρ : Type} (l : Listener ρ) : Prop extends l.Takes where
  shutdownResponse : ∀ name r, ∃ r', l.shutdownResponse name r = .ok () r'

namespace Feeding

variable {ρ σ : Type} {l : Listener ρ}

section Listening

variable {setup : Setup σ (ρ × List Notice)} (hears : setup.listener = l.recorded)
  (takes : l.TakesAll) {m : Message}

include hears takes

/-- The listener is told of an answer, and the transactions that it acknowledges are counted. -/
theorem listen_answer (answer : isAnswer m = true) (s : Feeding σ (ρ × List Notice)) :
    ∃ listener, listen setup m s = .ok () { s with
        listener, feeder := { s.feeder with
          acks := s.feeder.acks + (acknowledged m).length } } ∧
      listener.2 = s.listener.2 ++ tidings s.feeder.replicaName m := by
  rw [listen, get_bind]
  cases m with
  | heartbeatResponse id highVlsn dtvlsn =>
    dsimp only
    rw [hears]
    exact onListener_recorded_total (takes.heartbeatResponse _ _ _ _) _ s
  | shutdownResponse =>
    dsimp only
    rw [hears]
    exact onListener_recorded_total (takes.shutdownResponse _) _ s
  | ack txn =>
    dsimp only
    rw [modify_bind, hears]
    exact onListener_recorded_total (takes.ack _ txn) _ _
  | groupAck txns =>
    dsimp only
    rw [modify_bind]
    exact forM_ack_total hears takes.toTakes _ txns _
  | _ => cases answer

end Listening

/-! ## Listening -/

section Hearing

variable {setup : Setup Connection (ρ × List Notice)} (hears : setup.listener = l.recorded)
  (takes : l.TakesAll) (accepts : setup.transport = Connection.transport .accepter)
  {s : Feeding Connection (ρ × List Notice)} (reading : s.feeder.input = .reading)
  (going : s.feeder.cancelled = false) {bytes : Octets}

include hears takes accepts reading going

theorem inputStep_answer {m : Message} (answer : isAnswer m = true) (fits : setup.codec.Fits m)
    (piped : Piped s.session.link .opener (m.frame ++ bytes)) :
    ∃ session listener, s.inputStep setup = { s with
        session, listener, feeder := { s.feeder with
          acks := s.feeder.acks + (acknowledged m).length } } ∧
      Piped session.link .opener bytes ∧
      listener.2 = s.listener.2 ++ tidings s.feeder.replicaName m := by
  obtain ⟨session, received, left, -⟩ := piped.receive fits.short fits.within
  rw [show Connection.transport Link.Side.opener.other = setup.transport from accepts.symm]
    at received
  obtain ⟨listener, told, heard⟩ := listen_answer hears takes answer { s with session }
  refine ⟨session, listener, ?_, left, heard⟩
  have moved : (do listen setup (← onSession (Session.receive setup.codec setup.transport)) :
      EStateM FeederError (Feeding Connection (ρ × List Notice)) Unit) s = _ :=
    (bind_eq_of_ok (by rw [onSession, received])).trans told
  rw [inputStep, reading, going]
  dsimp only
  rw [if_neg nofun, moved]

/-- As many moves take off any answers, one after the other. -/
theorem run_input_answers {ms : List Message} (answers : ∀ m ∈ ms, isAnswer m = true)
    (fit : ∀ m ∈ ms, setup.codec.Fits m)
    (piped : Piped s.session.link .opener (ms.flatMap Message.frame)) :
    ∃ session listener, s.run setup (List.replicate ms.length .input) = { s with
        session, listener
        feeder := { s.feeder with
          acks := s.feeder.acks + (ms.flatMap acknowledged).length } } ∧
      Piped session.link .opener [] ∧
      listener.2 = s.listener.2 ++ ms.flatMap (tidings s.feeder.replicaName) := by
  -- The loop stays where it is behind each answer, with the next one in front of it.
  induction ms generalizing s with
  | nil => exact ⟨s.session, s.listener, rfl, piped, (List.append_nil _).symm⟩
  | cons m ms ih =>
    obtain ⟨session, listener, moved, left, heard⟩ := inputStep_answer hears takes accepts reading
      going (answers m List.mem_cons_self) (fit m List.mem_cons_self) piped
    obtain ⟨session', listener', others, left', heard'⟩ := ih
      (s := { s with
        session, listener, feeder := { s.feeder with
          acks := s.feeder.acks + (acknowledged m).length } })
      reading going (fun m' mem => answers m' (List.mem_cons_of_mem _ mem))
      (fun m' mem => fit m' (List.mem_cons_of_mem _ mem)) left
    refine ⟨session', listener', ?_, left', ?_⟩
    · rw [List.length_cons, List.replicate_succ, run, List.foldl_cons, step, moved]
      exact others.trans (by rw [List.flatMap_cons, List.length_append, ← Nat.add_assoc])
    · rw [heard', heard, List.append_assoc, List.flatMap_cons]

end Hearing

end Feeding

end Feeder

namespace Serving

open Replication.Consumer (MaximalRun Streaming responses runResponse)
open Replication.Feeder (Feeding Listener Notice)

/-! ## From the writer to the listener -/

variable {ρ τ : Type}

def messages (consumer : Consumer.Setup Connection τ) (batches : List (List Ack)) :
    List Message :=
  batches.flatMap (responses consumer.groupedAcks)

/-- A feeder whose input loop takes off the connection all that a consumer's writer has made of
    batches. -/
def relay (consumer : Consumer.Setup Connection τ) (feeder : Feeder.Setup Connection ρ)
    (batches : List (List Ack)) (w : Streaming Connection τ) (f : Feeding Connection ρ) :
    Feeding Connection ρ :=
  let link := (w.writeAll consumer batches).session.link
  Feeding.run feeder { f with session := { f.session with link } }
    (List.replicate (messages consumer batches).length .input)

/-- A consumer that writes acknowledgments in batches over a connection on which nothing waits,
    with frames that fit both ends. -/
structure Writes (consumer : Consumer.Setup Connection τ) (feeder : Codec)
    (w : Streaming Connection τ) (acks : List Ack) (batches : List (List Ack)) : Prop where
  opens : consumer.transport = Connection.transport .opener
  fresh : Piped w.session.link .opener []
  cut : batches.flatten = acks
  fit : ∀ m ∈ messages consumer batches, consumer.codec.Fits m ∧ feeder.Fits m

/-- How batches are put on the wire: their responses are sent one by one, no group acknowledges
    less than two transactions, and what is not in a run of two at least goes out on its own, as
    all does without grouping; with it each run that is as long as it can be is one message. -/
structure GoesOut (consumer : Consumer.Setup Connection τ) (w : Streaming Connection τ)
    (batches : List (List Ack)) : Prop where
  sent : Session.sendAll consumer.codec consumer.transport (messages consumer batches) w.session =
    .ok () (w.writeAll consumer batches).session
  error : (w.writeAll consumer batches).writeError = w.writeError
  many : ∀ txns, .groupAck txns ∈ messages consumer batches → 2 ≤ txns.length
  apart : consumer.groupedAcks = false → messages consumer batches =
    batches.flatten.map Ack.response
  lone : ∀ batch ∈ batches, ∀ front a back, MaximalRun batch front [a] back →
    responses consumer.groupedAcks batch = responses consumer.groupedAcks front ++
      .ack a.id :: responses consumer.groupedAcks back
  runs : consumer.groupedAcks = true → ∀ batch ∈ batches, ∀ front run back,
    MaximalRun batch front run back →
      responses true batch = responses true front ++ runResponse run :: responses true back

/-- A feeder that has heard acknowledgments and listens on. -/
structure Heard (f f' : Feeding Connection (ρ × List Notice)) (acks : List Ack) : Prop where
  notices : f'.listener.2 = f.listener.2 ++ acks.map (Ack.notice f.feeder.replicaName)
  count : f'.feeder.acks = f.feeder.acks + acks.countP (·.kind = .txn)
  others : { f'.feeder with acks := f.feeder.acks } = f.feeder
  rest : (f'.session.link.endpoint .accepter).incoming = []

section Runs

variable {consumer : Consumer.Setup Connection τ} {w : Streaming Connection τ} {acks : List Ack}
  {batches : List (List Ack)}

theorem messages_cons (batch : List Ack) (batches : List (List Ack)) :
    messages consumer (batch :: batches) =
      responses consumer.groupedAcks batch ++ messages consumer batches :=
  List.flatMap_cons

theorem flatMap_tidings_messages (name : Octets) :
    (messages consumer batches).flatMap (Feeder.tidings name) =
      batches.flatten.map (Ack.notice name) := by
  induction batches with
  | nil => rfl
  | cons batch batches ih =>
    rw [messages_cons, List.flatMap_append, ih, Feeder.flatMap_tidings_responses,
      List.flatten_cons, List.map_append]

theorem length_acknowledged_messages :
    ((messages consumer batches).flatMap Feeder.acknowledged).length =
      batches.flatten.countP (·.kind = .txn) := by
  induction batches with
  | nil => rfl
  | cons batch batches ih =>
    rw [messages_cons, List.flatMap_append, List.length_append, ih,
      Feeder.length_acknowledged_responses, List.flatten_cons, List.countP_append]

theorem messages_of_ungrouped (alone : consumer.groupedAcks = false) :
    messages consumer batches = batches.flatten.map Ack.response := by
  rw [messages, alone, List.map_flatten, List.flatMap_def]
  congr 2
  exact funext Consumer.responses_false

theorem Writes.goesOut {feeder : Codec} (h : Writes consumer feeder w acks batches) :
    GoesOut consumer w batches := by
  obtain ⟨session, sent, -⟩ := h.fresh.sendAll fun m mem => (h.fit m mem).1.within
  rw [← h.opens] at sent
  obtain ⟨last, error⟩ := Streaming.writeAll_of_ok sent
  refine ⟨last ▸ sent, error, ?_, messages_of_ungrouped, ?_, ?_⟩
  · intro txns mem
    obtain ⟨batch, -, there⟩ := List.mem_flatMap.1 mem
    exact Consumer.two_le_length_of_mem_responses there
  · -- A run of one is answered alone in either way.
    intro batch _ front a back maximal
    cases consumer.groupedAcks with
    | true => exact maximal.responses
    | false =>
      rw [maximal.parts, Consumer.responses_false, Consumer.responses_false,
        Consumer.responses_false, List.map_append, List.map_append,
        ← Consumer.response_of_txn (maximal.txns a List.mem_cons_self)]
      rfl
  · intro _ batch _ front run back maximal
    exact maximal.responses

section Relaying

variable {feeder : Feeder.Setup Connection (ρ × List Notice)} {l : Listener ρ}
  (hears : feeder.listener = l.recorded) (takes : l.TakesAll)
  (accepts : feeder.transport = Connection.transport .accepter)
  {f : Feeding Connection (ρ × List Notice)} (reading : f.feeder.input = .reading)
  (going : f.feeder.cancelled = false)

include hears takes accepts reading going

theorem Writes.heard (h : Writes consumer feeder.codec w acks batches) :
    Heard f (relay consumer feeder batches w f) acks := by
  obtain ⟨session, sent, piped, -⟩ := h.fresh.sendAll fun m mem => (h.fit m mem).1.within
  rw [← h.opens] at sent
  obtain ⟨last, -⟩ := Streaming.writeAll_of_ok sent
  have answers : ∀ m ∈ messages consumer batches, Feeder.isAnswer m = true := by
    intro m mem
    obtain ⟨batch, -, there⟩ := List.mem_flatMap.1 mem
    exact Feeder.isAnswer_of_mem_responses there
  obtain ⟨session', listener, moved, left, heard⟩ := Feeding.run_input_answers hears takes accepts
    (s := { f with session := { f.session with link := session.link } }) reading going answers
    (fun m mem => (h.fit m mem).2) piped
  rw [relay, last]
  dsimp only
  rw [moved, ← h.cut]
  refine ⟨?_, ?_, rfl, left.waiting⟩
  · rw [← flatMap_tidings_messages]
    exact heard
  · rw [← length_acknowledged_messages]

/-- The same acknowledgments, cut into batches in any two ways and grouped or not in either, are
    heard alike: the listener is told of each of them in their order, and as many transactions
    are counted.  On the wire stand no other messages than the responses to the batches, where
    each run that is as long as it can be is one message with grouping, a group of two at least
    or an acknowledgment on its own. -/
theorem relay_preserves_acks {consumer₁ consumer₂ : Consumer.Setup Connection τ}
    {w₁ w₂ : Streaming Connection τ} {batches₁ batches₂ : List (List Ack)}
    (first : Writes consumer₁ feeder.codec w₁ acks batches₁)
    (second : Writes consumer₂ feeder.codec w₂ acks batches₂) :
    (relay consumer₁ feeder batches₁ w₁ f).listener.2 =
        (relay consumer₂ feeder batches₂ w₂ f).listener.2 ∧
      (relay consumer₁ feeder batches₁ w₁ f).feeder.acks =
        (relay consumer₂ feeder batches₂ w₂ f).feeder.acks ∧
      (Heard f (relay consumer₁ feeder batches₁ w₁ f) acks ∧
        Heard f (relay consumer₂ feeder batches₂ w₂ f) acks) ∧
      GoesOut consumer₁ w₁ batches₁ ∧ GoesOut consumer₂ w₂ batches₂ := by
  have heard₁ := first.heard hears takes accepts reading going
  have heard₂ := second.heard hears takes accepts reading going
  exact ⟨heard₁.notices.trans heard₂.notices.symm, heard₁.count.trans heard₂.count.symm,
    ⟨heard₁, heard₂⟩, first.goesOut, second.goesOut⟩

end Relaying

end Runs

namespace TwoCuts

/-- A consumer with a limit that has room for a heartbeat response, and with groups or not. -/
def consumer (groupedAcks : Bool) : Consumer.Setup Connection Replay.MemoryStore where
  node := .ofAscii "replica"
  nodeId := 2
  codec := { limit := 26, limit_pos := by decide }
  transport := Connection.transport .opener
  store := Replay.MemoryStore.store
  requestCapacity := 4
  outputCapacity := 8
  groupSize := 2
  groupedAcks
  preHeartbeatTimeout := 0
  replicaTimeout := 0

/-- A feeder whose listener takes every notification. -/
def listener : Listener Unit where
  heartbeatResponse _ _ _ _ := pure ()
  ack _ _ := pure ()
  shutdownResponse _ := pure ()

def feeder : Feeder.Setup Connection (Unit × List Notice) where
  master := { name := .ofAscii "master", id := 1 }
  codec := { limit := 26, limit_pos := by decide }
  transport := Connection.transport .accepter
  listener := listener.recorded
  preHeartbeatTimeout := 0
  replicaTimeout := 0

/-- A connection on which nothing has been written. -/
def writing : Streaming Connection Replay.MemoryStore where
  consumer := { replay := { replayer := { role := .replica }, store := {} } }
  session := { link := {} }
  requests := { capacity := 4 }
  output := { capacity := 8 }

/-- A feeder that has shaken hands. -/
def feeding : Feeding Connection (Unit × List Notice) where
  log := {
    recordsPerFile := 1, recordsPerFile_pos := Nat.one_pos
    records := [{ type := .commit, txn := 7 }]
    durable := 1, durable_le := by decide }
  protector := {}
  session := { link := {} }
  listener := ((), [])
  feeder := {
    source := { start := 1, cursor := { next := 1, startFile := 0, lastFile := 0 }, range := .empty }
    next := 1
    output := .requesting, input := .reading, running := true
    replicaName := .ofAscii "replica" }

def ack (kind : Ack.Kind) (id : Int64) : Ack :=
  { kind, id, highVlsn := 500, dtvlsn := 4 }

/-- Three transactions, a heartbeat, another transaction and a shutdown. -/
def acks : List Ack :=
  [ack .txn 7, ack .txn 800, ack .txn 9, ack .heartbeat 1, ack .txn 10, ack .shutdown 0]

end TwoCuts

open TwoCuts in
/-- A batch of all of them with groups, and batches that cut the run without. -/
theorem relay_preserves_acks_two_cuts :
    Writes (consumer true) feeder.codec writing acks [acks] ∧
      Writes (consumer false) feeder.codec writing acks [acks.take 2, acks.drop 2] ∧
      (relay (consumer true) feeder [acks] writing feeding).listener.2 =
        acks.map (Ack.notice (.ofAscii "replica")) ∧
      (relay (consumer false) feeder [acks.take 2, acks.drop 2] writing feeding).listener.2 =
        acks.map (Ack.notice (.ofAscii "replica")) ∧
      (relay (consumer true) feeder [acks] writing feeding).feeder.acks = 4 := by
  have fresh : Piped writing.session.link .opener [] := ⟨rfl, rfl, rfl⟩
  have within (m : Message) (small : m.body.length ≤ 26) :
      (consumer true).codec.Fits m ∧ feeder.codec.Fits m :=
    ⟨Codec.fits_of_limit (by decide) small, Codec.fits_of_limit (by decide) small⟩
  have grouped : Writes (consumer true) feeder.codec writing acks [acks] :=
    ⟨rfl, fresh, rfl, fun m mem => within m (by revert m; decide +kernel)⟩
  have apart : Writes (consumer false) feeder.codec writing acks [acks.take 2, acks.drop 2] :=
    ⟨rfl, fresh, rfl, fun m mem => within m (by revert m; decide +kernel)⟩
  have takes : listener.TakesAll :=
    { heartbeatResponse := fun _ _ _ _ r => ⟨r, rfl⟩, ack := fun _ _ r => ⟨r, rfl⟩
      shutdownResponse := fun _ r => ⟨r, rfl⟩ }
  obtain ⟨same, -, ⟨heard, -⟩, -⟩ :=
    relay_preserves_acks (f := feeding) rfl takes rfl rfl rfl grouped apart
  exact ⟨grouped, apart, heard.notices, same.symm.trans heard.notices, heard.count⟩

end Serving

end Replication
