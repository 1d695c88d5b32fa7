import Replication.Proofs.Consumer.Opening
import Replication.Proofs.Serving.Going

/-! # Replication from end to end

Once all that is durable has been processed the consumer has got just the records of the
log, and the feeder's listener just the replies to them, whichever threads moved when and
however the stream was cut into groups.
-/

namespace Replication.Serving

open Replication.Consumer (Attached Dialogue Streaming Talk connect nodeType)
open Replication.Feeder (Beginning Emitted Feeding Listener Notice Spoken)
open Replication.Feeder.Feeding (Sound)
open Replication.Link (Connection)
open Replication.Log (CommitLog Custody FileProtector Positioned Source)
open Replication.Replay (Ack DurableState Store StoreCall call? handed)
open Replication.Stream (Carries Message Session)

section Ends

variable {ρ τ : Type} {feeder : Feeder.Setup Connection (ρ × List Notice)}
  {listener : Listener ρ}
  {consumer : Consumer.Setup (Line (ρ × List Notice)) (τ × List StoreCall)} {store : Store τ}
  {o : Origin} {t : Talk (Line (ρ × List Notice)) (τ × List StoreCall)}

/-! ## How a service begins -/

section Handshake

variable (wired : Wired feeder listener consumer store) {b : Beginning}

include wired

theorem sound_setTimeout {wrote taken : List Message} {part : Octets}
    {l : Line (ρ × List Notice)} (milliseconds : Int)
    (h : Sound feeder b wrote taken part l.feeding) :
    Sound feeder b wrote taken part (consumer.transport.setTimeout milliseconds l).feeding := by
  obtain ⟨n, received, up, down, parts, account⟩ := h
  rw [wired.serves]
  exact ⟨n, received, up, down, parts,
    account.onSession (account.carries.setTimeout .opener milliseconds)⟩

/-- Behind a handshake the greetings are accounted for, unless the line was lost meanwhile. -/
theorem sound_handshake {s₀ s₁ s₂ s₃ : Session (Line (ρ × List Notice))} {hello m m' : Message}
    (spoken : Spoken b [hello])
    (short : hello.body.length ≤ consumer.codec.limit → hello.body.length < 2 ^ 31)
    (framed : Feeding.Framed feeder b s₃.link.feeding.log)
    (sound : Sound feeder b [] [] [] s₀.link.feeding)
    (sent : Session.send consumer.codec consumer.transport hello s₀ = .ok () s₁)
    (answered : Session.receive consumer.codec consumer.transport s₁ = .ok m s₂)
    (beaten : Session.receive consumer.codec consumer.transport s₂ = .ok m' s₃) :
    Sound feeder b [hello] [m, m'] [] s₃.link.feeding ∨
      Line.Lost feeder listener b [hello] s₃.link := by
  have fits := Session.length_le_of_send sent
  have small : ∀ m ∈ [hello], m.body.length < 2 ^ 31 := by
    intro m mem
    obtain rfl := List.mem_singleton.1 mem
    exact short fits
  rw [wired.serves] at sent answered beaten
  have longer : s₃.link.feeding.log.Extends s₂.link.feeding.log :=
    (lasting_extends _).of_receive beaten (.refl _)
  obtain ⟨_, sent', sound⟩ := Line.send_eq_ok sound fits
  cases sent.symm.trans sent'
  -- The feeder goes on during each of the two waits, and may end in either.
  rcases Line.receive_next wired.accepts wired.hears spoken small
    (by rw [answered]; exact framed.of_extends longer) sound answered with sound | lost
  · exact Line.receive_next wired.accepts wired.hears spoken small
      (by rw [beaten]; exact framed) sound beaten
  · exact .inr (Line.lasting_lost.of_receive beaten lost)

end Handshake

/-! ## All that is durable -/

/-- Whether all that is durable has been shipped, replayed and answered, and the answers
    have been heard. -/
structure Processed (t : Talk (Line (ρ × List Notice)) (τ × List StoreCall)) : Prop where
  shipped : ((feeding t).log.durable : Int) < (feeding t).feeder.next
  taken : (feeding t).session.link.opener.incoming = []
  replayed : t.streaming.unreplayed = []
  answered : t.streaming.unwritten = []
  heard : (feeding t).session.link.accepter.incoming = []

instance (t : Talk (Line (ρ × List Notice)) (τ × List StoreCall)) : Decidable (Processed t) :=
  decidable_of_iff (((feeding t).log.durable : Int) < (feeding t).feeder.next ∧
      (feeding t).session.link.opener.incoming = [] ∧ t.streaming.unreplayed = [] ∧
      t.streaming.unwritten = [] ∧ (feeding t).session.link.accepter.incoming = [])
    ⟨fun ⟨shipped, taken, replayed, answered, heard⟩ => ⟨shipped, taken, replayed, answered, heard⟩,
      fun h => ⟨h.shipped, h.taken, h.replayed, h.answered, h.heard⟩⟩

/-- What has come of the durable records: the store of a replica was handed each of them and
    that of an arbiter none, an arbiter knows the largest dtvlsn that they tell, and the
    listener was told the replies to the stream that has shipped them. -/
structure Delivered (node : Octets) (o : Origin)
    (t : Talk (Line (ρ × List Notice)) (τ × List StoreCall)) : Prop where
  handed_replica : o.role = .replica → handed t.streaming.consumer.replay.store.2 =
    o.handed ++ (o.durable (feeding t).log).map handOver
  handed_arbiter : o.role = .arbiter → handed t.streaming.consumer.replay.store.2 = o.handed
  dtvlsn_arbiter : o.role = .arbiter → t.streaming.consumer.replay.replayer.dtvlsn =
    ((o.durable (feeding t).log).filterMap toldDtvlsn?).foldl max o.loaded
  told : ∃ notices beats stream, (feeding t).listener.2 = o.told ++ notices ∧
    Emitted (feeding t).log (nodeType o.role) o.first (feeding t).log.durable beats stream ∧
    notices.map (heard? node) = (stream.filterMap reply?).map some

theorem nil_of_frames {ms : List Message} (nothing : ms.flatMap Message.frame = []) : ms = [] := by
  cases ms with
  | nil => rfl
  | cons m rest => exact absurd (List.append_eq_nil_iff.1 nothing).1 m.frame_ne_nil

/-- No durable record is missing where the next one is not durable. -/
theorem emitted_durable {log : CommitLog} {type : NodeType} {first n beats : Nat}
    {stream : List Message} (h : Emitted log type first n beats stream)
    (within : n ≤ log.durable ∨ n = first) (shipped : log.durable ≤ n) :
    Emitted log type first log.durable beats stream := by
  rcases within with within | rfl
  · rw [Nat.le_antisymm within shipped] at h
    exact h
  · refine ⟨h.beats, ?_, h.only⟩
    rw [h.records, CommitLog.between_of_lt (Nat.lt_succ_self _),
      CommitLog.between_of_lt (Nat.lt_succ_of_le shipped)]

theorem Going.delivered (h : Going feeder consumer o t) (processed : Processed t) :
    Delivered consumer.node o t := by
  obtain ⟨n, now, last, heard, up, down, parts, account, serving⟩ := h.serving
  -- Nothing is on the way between the two ends.
  obtain rfl : up = [] := nil_of_frames (account.carries.up.symm.trans processed.heard)
  obtain rfl : down = [] := nil_of_frames (account.carries.down.symm.trans processed.taken)
  rw [List.append_nil] at parts serving
  obtain ⟨replayed, read, handed, dtvlsn⟩ := h.flowing.replayed
  rw [processed.replayed, List.append_nil] at read
  subst parts read
  -- All that was read was replayed, and all that is due was written.
  have replies := h.inOrder.whole h.steady.writer h.steady.going
  rw [processed.replayed, processed.answered, List.filterMap_nil, List.filterMap_nil,
    List.append_nil, List.append_nil] at replies
  have shipped : (feeding t).log.durable ≤ n := by
    have next := account.place.next
    have shipped := processed.shipped
    omega
  have emitted : Emitted (feeding t).log (nodeType o.role) o.first (feeding t).log.durable
      (feeding t).feeder.heartbeats
      (.heartbeat t.dialogue.heartbeat now last :: t.dialogue.read) :=
    emitted_durable serving.emitted account.place.within shipped
  -- The heartbeat of the handshake is in the stream, but it is not replayed.
  have unmoved : call? o.role (.heartbeat t.dialogue.heartbeat now last) = none := by
    cases o.role <;> rfl
  rw [← List.filterMap_cons_none unmoved] at handed
  refine ⟨fun replica => ?_, fun arbiter => ?_, fun arbiter => ?_,
    _, _, _, serving.told, emitted, ?_⟩
  · rw [handed, calls_of_replica emitted.records replica, Origin.durable]
  · rw [handed, calls_of_arbiter arbiter, List.append_nil]
  · rw [dtvlsn, arbiter, foldl_dtvlsnAfter_arbiter, Origin.durable,
      ← dtvlsns_of_ships emitted.records]
    rfl
  · have due := List.filterMap_congr fun m mem => due_of_streamed (h.streamed m mem)
    rw [Dialogue.due, due] at replies
    exact (heard_flatMap _ _).trans (congrArg (List.map some) replies)

/-! ## Services -/

/-- Where a service begins whose source was opened at a vlsn. -/
def Origin.opening (vlsn : Int) (told : List Notice) (c : Consumer (τ × List StoreCall))
    (loaded : DurableState) : Origin where
  role := c.replay.replayer.role
  first := (vlsn - 1).toNat
  told := told
  handed := Replay.handed c.replay.store.2
  loaded := loaded.dtvlsn

section Services

variable (wired : Wired feeder listener consumer store) {log : CommitLog}
  {protector : FileProtector} {name : Octets} {vlsn : Int} {custody : Custody}
  (opened : Source.ofStart log protector name vlsn = .ok custody) {session : Session Connection}
  (fresh : Carries session.link [] []) {told : ρ × List Notice}
  {served : Feeding Connection (ρ × List Notice)}
  (started : Feeding.start {
    log, session, protector := custody.protector, listener := told
    feeder := Feeder.ofSource custody.source } = .ok served)
  {meanwhile : List (List Work)} {c : Consumer (τ × List StoreCall)} {loaded : DurableState}
  {stored : τ} (loads : store.load c.replay.store.1 = .ok loaded stored) {first : Ack}
  {a : Attached (Line (ρ × List Notice)) (τ × List StoreCall)}
  (connected : connect consumer [] (.ok { feeding := served, meanwhile }) c = .ok (first, a))

include wired

theorem lasting_start {P : Line (ρ × List Notice) → Prop} (lasting : Lasting feeder P)
    (holds : P a.session.link) : P (Talk.start consumer first a).streaming.session.link := by
  change P (consumer.transport.setTimeout consumer.replicaTimeout a.session.link)
  rw [wired.serves]
  exact lasting.setLink holds _

include opened fresh started loads connected

/-- A service that begins goes on, unless a loop of the feeder has ended meanwhile. -/
theorem going_or_broken_start
    (framed : Framed feeder consumer (.opening vlsn told.2 c loaded)
      (feeding (Talk.start consumer first a)).log) :
    Going feeder consumer (.opening vlsn told.2 c loaded) (Talk.start consumer first a) ∨
      Broken feeder listener consumer store (.opening vlsn told.2 c loaded)
        (Talk.start consumer first a) := by
  obtain ⟨s₁, version, node, id, s₂, replay, now, last, sent, answered, load, beaten, inSync,
    going, same⟩ := Consumer.handshake_of_connect connected
  obtain ⟨kind, lasts⟩ := Consumer.connect_ok connected
  obtain ⟨state, stored', loads', dtvlsn, handed⟩ :=
    Replay.State.loaded_of_start (wired.records ▸ load)
  cases loads.symm.trans loads'
  let o : Origin := .opening vlsn told.2 c loaded
  have spoken : Spoken (o.beginning consumer) [consumer.hello o.role] := .cons _ nofun
  have longer : (feeding (Talk.start consumer first a)).log.Extends a.session.link.feeding.log :=
    lasting_start wired (lasting_extends _) (.refl _)
  have sound : Sound feeder (o.beginning consumer) [] [] [] served :=
    Feeder.Feeding.sound_start rfl rfl opened fresh started
  rcases sound_handshake wired spoken (framed.said _ (.inl rfl)) (framed.of_extends longer).sent
    (sound_setTimeout wired _ sound) sent answered beaten with sound | lost
  · left
    have fits := Session.length_le_of_send sent
    rw [sound.greeted] at sound
    have steady : (Talk.start consumer first a).streaming.Steady consumer := by
      refine Streaming.steady_start ?_ ?_ <;> rw [same]
      · exact going
      · exact inSync
    -- Opening has emptied the queues, so the first acknowledgment is all that is on the way.
    have requests : a.consumer.requests = [] := congrArg (·.1) lasts
    have output : a.consumer.output = [] := congrArg (·.2.1) lasts
    have role : a.consumer.replay.replayer.role = o.role := congrArg (·.2.2) lasts
    have flowing := Talk.flowing_start wired.room kind requests output
    have inOrder := Talk.inOrder_start wired.room kind requests output
    rw [role] at flowing inOrder
    rw [same] at flowing
    dsimp only at flowing
    rw [handed, dtvlsn] at flowing
    refine ⟨steady, flowing, inOrder, ?_, nofun, now, last, ?_⟩
    · intro m mem
      obtain rfl := List.mem_singleton.1 mem
      exact ⟨.inl rfl, fits⟩
    · exact sound_setTimeout wired _ sound
  · right
    have lost' : Line.Lost feeder listener (o.beginning consumer) [consumer.hello o.role]
        (Talk.start consumer first a).streaming.session.link :=
      lasting_start wired Line.lasting_lost lost
    exact broken_of_lost (fun m mem => .inl (List.mem_singleton.1 mem)) lost'

/-- Replication from end to end: nothing ends a service that all suits, and of one in which
    nothing has ended and all is processed the durable records are delivered. -/
theorem run_delivers (moves : List Move)
    (ran : run feeder consumer (.start consumer first a) moves = t)
    (framed : Framed feeder consumer (.opening vlsn told.2 c loaded) (feeding t).log) :
    (Suitable feeder listener consumer store (.opening vlsn told.2 c loaded) (feeding t).log →
      t.streaming.AtWork ∧ ¬ (feeding t).Ended) ∧
    (t.streaming.AtWork → ¬ (feeding t).Ended → Processed t →
      Delivered consumer.node (.opening vlsn told.2 c loaded) t) := by
  subst ran
  have start := going_or_broken_start wired opened fresh started loads connected
    (framed.of_extends (extends_run wired _ moves))
  rcases going_or_broken_run wired moves framed start with going | broken
  · exact ⟨fun _ => ⟨going.steady.atWork, going.unended⟩, fun _ _ processed =>
      going.delivered processed⟩
  · refine ⟨fun suitable => absurd suitable broken.2, fun atWork unended => ?_⟩
    exact absurd broken.1 (not_or.2 ⟨not_not.2 atWork, unended⟩)

end Services

end Ends

/-! ## A replica that joins late -/

namespace LateJoin

/-- A listener that takes what it is told. -/
def listener : Listener Unit where
  heartbeatResponse _ _ _ _ := pure ()
  ack _ _ := pure ()
  shutdownResponse _ := pure ()

/-- A store that does what it is asked for. -/
def store : Store Unit where
  load := pure {}
  replayEntry _ := pure ()
  replayCommit _ := pure ()
  writeDurable _ _ := pure ()

/-- The master's end. -/
def feeder : Feeder.Setup Connection (Unit × List Notice) where
  master := { name := .ofAscii "master", id := 1 }
  codec := { limit := 100, limit_pos := by decide }
  transport := Connection.transport .accepter
  listener := listener.recorded
  preHeartbeatTimeout := 0
  replicaTimeout := 0

/-- The replica's end. -/
def consumer : Consumer.Setup (Line (Unit × List Notice)) (Unit × List StoreCall) where
  node := .ofAscii "replica"
  nodeId := 2
  codec := { limit := 100, limit_pos := by decide }
  transport := Line.transport feeder
  store := store.recorded
  requestCapacity := 4
  outputCapacity := 4
  groupSize := 2
  groupedAcks := true
  preHeartbeatTimeout := 0
  replicaTimeout := 0

theorem wired : Wired feeder listener consumer store :=
  ⟨rfl, rfl, rfl, rfl, by decide⟩

/-- Two transactions, of which the first is durable. -/
def log : CommitLog where
  recordsPerFile := 2
  recordsPerFile_pos := by decide
  records := [
    { txn := 1, payload := [10] }, { type := .commit, txn := 1, dtvlsn := 1 },
    { txn := 2, payload := [30], beforeImage := [20] }, { type := .commit, txn := 2 }]
  durable := 2

/-- The replica, which follows the master. -/
def replica : Consumer (Unit × List StoreCall) where
  masters := { group := feeder.master, node := feeder.master }
  replay := { replayer := { role := .replica }, store := ((), []) }

/-- The feeder starts and greets, and then sends a heartbeat. -/
def meanwhile : List (List Work) :=
  [[.output false 0, .output false 0], [], [.output false 0, .output false 0]]

/-- The second transaction becomes durable, and then one thread after the other moves. -/
def moves : List Move :=
  .feeder (.markDurable 4) :: List.replicate 16 (.feeder (.output false 0)) ++
    List.replicate 6 .reader ++ List.replicate 14 (.replayer false) ++
    List.replicate 6 .writer ++ List.replicate 3 (.feeder .input)

/-- The source that was opened at vlsn 2, and the range that protects its file. -/
def custody : Custody where
  source := {
    start := 2, cursor := { next := 2, startFile := 0, lastFile := 0 }, range := .active 0 }
  protector := {
    ranges := .insert .empty 0 { name := .ofAscii "Feeder-replica", start := 0 }, nextId := 1 }

/-- The feeder that was started over it. -/
def served : Feeding Connection (Unit × List Notice) where
  log := log
  protector := custody.protector
  session := { link := {} }
  listener := ((), [])
  feeder := { Feeder.ofSource custody.source with
    running := true, output := .starting, input := .waiting }

/-- Where the service begins. -/
def origin : Origin := .opening 2 [] replica {}

/-- Whether all is processed, and all records fit the codecs and tell no smaller dtvlsn. -/
def Ready (t : Talk (Line (Unit × List Notice)) (Unit × List StoreCall)) : Prop :=
  Processed t ∧ (∀ r ∈ origin.durable (feeding t).log,
    ∀ m ∈ Feeder.shipment (nodeType origin.role) r, m.body.length ≤ 100) ∧
  (origin.loaded :: (origin.durable (feeding t).log).filterMap toldDtvlsn?).Pairwise (· ≤ ·)

instance (t : Talk (Line (Unit × List Notice)) (Unit × List StoreCall)) : Decidable (Ready t) := by
  unfold Ready
  infer_instance

theorem opened : Source.ofStart log {} consumer.node 2 = .ok custody := by
  decide +kernel

theorem ready : ((connect consumer [] (.ok { feeding := served, meanwhile }) replica).toOption.any
    fun opening => Ready (run feeder consumer (.start consumer opening.1 opening.2) moves)) =
      true := by
  decide +kernel

theorem takes : listener.Takes :=
  ⟨fun _ _ _ _ _ => ⟨_, rfl⟩, fun _ _ _ => ⟨_, rfl⟩⟩

theorem works : store.Works :=
  ⟨fun _ _ => ⟨_, rfl⟩, fun _ _ => ⟨_, rfl⟩, fun _ _ _ => ⟨_, rfl⟩⟩

end LateJoin

open LateJoin in
/-- The replica gets a commit, then a record with its before image and a commit without a
    dtvlsn, in two groups, and acknowledges both commits in one message. -/
theorem run_delivers_late_join :
    Wired feeder listener consumer store ∧
    Source.ofStart log {} consumer.node 2 = .ok custody ∧ Carries served.session.link [] [] ∧
    ∃ first a t, connect consumer [] (.ok { feeding := served, meanwhile }) replica =
        .ok (first, a) ∧ run feeder consumer (.start consumer first a) moves = t ∧
      Suitable feeder listener consumer store origin (feeding t).log ∧ t.streaming.AtWork ∧
      ¬ (feeding t).Ended ∧ Processed t ∧ Delivered consumer.node origin t := by
  have ready := ready
  cases connected : connect consumer [] (.ok { feeding := served, meanwhile }) replica with
  | error report =>
    rw [connected] at ready
    cases ready
  | ok opening =>
    obtain ⟨first, a⟩ := opening
    rw [connected, Except.toOption, Option.any_some, decide_eq_true_eq] at ready
    obtain ⟨processed, records, ordered⟩ := ready
    have fresh : Carries served.session.link [] [] := ⟨rfl, rfl, rfl, rfl⟩
    have suitable : Suitable feeder listener consumer store origin
        (feeding (run feeder consumer (.start consumer first a) moves)).log :=
      .of_room takes works (Nat.le_refl 100) (Nat.le_refl 100) (by decide) (by decide) (by decide)
        (fun r mem m ships => records r mem m ships) fun _ => ordered
    have started : Feeding.start {
        log, session := served.session, protector := custody.protector, listener := ((), [])
        feeder := Feeder.ofSource custody.source } = .ok served := rfl
    have loads : store.load replica.replay.store.1 = .ok {} () := rfl
    have delivers := run_delivers wired opened fresh started loads connected moves rfl
      (framed_of_limit (by decide) (by decide) _ _)
    obtain ⟨atWork, unended⟩ := delivers.1 suitable
    exact ⟨wired, opened, fresh, first, a, _, rfl, rfl, suitable, atWork, unended, processed,
      delivers.2 atWork unended processed⟩

end Replication.Serving
