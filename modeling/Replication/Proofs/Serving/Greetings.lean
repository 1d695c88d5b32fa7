import Mathlib.Algebra.Group.Nat.Defs
import Replication.Link.Scripted
import Replication.Proofs.Consumer.Opening
import Replication.Proofs.Feeder.FirstWord

/-! # How a consumer takes the first word

A consumer wants a heartbeat behind the greeting of its feeder.  A feeder that was asked to
shut its consumer down before its first look says so at once, and the consumer takes that
for a breach of protocol.
-/

namespace Replication.Consumer

open Replication.Link (Connection)
open Replication.Replay (Ack DurableState)
open Replication.Stream (Carries Message Session)

variable {σ τ : Type} {setup : Setup σ τ}

/-! ## Handshakes -/

namespace Attached

/-- The last part of a handshake. -/
def awaitBeat (setup : Setup σ τ) : EStateM ConnectionError (Attached σ τ) Ack := do
  let id ← onSession (Session.receiveAs setup.codec setup.transport fun
    | .heartbeat id _ _ => some id
    | _ => none)
  modify fun s => { s with consumer := { s.consumer with heartbeatId := id } }
  return (← get).consumer.replay.replayer.ack .heartbeat id

section

variable {c : Consumer τ} {s s' : Session σ}

theorem awaitBeat_of_heartbeat {id now last : Int64}
    (beaten : Session.receive setup.codec setup.transport s = .ok (.heartbeat id now last) s') :
    ∃ first a', awaitBeat setup { consumer := c, session := s } = .ok first a' ∧ first.id = id := by
  have heard : onSession (τ := τ) (Session.receiveAs setup.codec setup.transport fun
      | .heartbeat id _ _ => some id
      | _ => none) { consumer := c, session := s } = .ok id { consumer := c, session := s' } := by
    rw [onSession, Session.receiveAs, bind_eq_of_ok beaten]
    rfl
  rw [awaitBeat, bind_eq_of_ok heard]
  exact ⟨_, _, rfl, rfl⟩

theorem awaitBeat_of_shutdownRequest {time : Int64}
    (asked : Session.receive setup.codec setup.transport s = .ok (.shutdownRequest time) s') :
    awaitBeat setup { consumer := c, session := s } =
      .error (.stream (.unexpected .shutdownRequest)) { consumer := c, session := s' } := by
  have heard : onSession (τ := τ) (Session.receiveAs setup.codec setup.transport fun
      | .heartbeat id _ _ => some id
      | _ => none) { consumer := c, session := s } =
        .error (.stream (.unexpected .shutdownRequest)) { consumer := c, session := s' } := by
    rw [onSession, Session.receiveAs, bind_eq_of_ok asked]
    rfl
  rw [awaitBeat, bind_eq_of_error heard]

end

/-- A consumer that is greeted, and whose store loads, waits for a heartbeat. -/
theorem handshake_eq {a : Attached σ τ} {s₁ s₂ : Session σ} {master : Group.Master}
    {version id : Int32} {node : Octets} {replay : Replay.State τ}
    (sent : Session.send setup.codec setup.transport
      (setup.hello a.consumer.replay.replayer.role) a.session = .ok () s₁)
    (answered : Session.receive setup.codec setup.transport s₁ =
      .ok (.serverVersion version node id) s₂)
    (loads : Replay.State.start setup.store master.id a.consumer.replay = .ok () replay) :
    handshake setup master a = awaitBeat setup
      { consumer := { a.consumer with phase := .handshake, replay }, session := s₂ } := by
  let a₁ : Attached σ τ := { a with consumer := { a.consumer with phase := .handshake } }
  have greets : onSession (Session.send setup.codec setup.transport
      (setup.hello a.consumer.replay.replayer.role)) a₁ = .ok () { a₁ with session := s₁ } := by
    rw [onSession, sent]
  have heard : onSession (Session.receive setup.codec setup.transport)
      { a₁ with session := s₁ } =
        .ok (.serverVersion version node id) { a₁ with session := s₂ } := by
    rw [onSession, answered]
  have started : onReplay (Replay.State.start setup.store master.id)
      { a₁ with session := s₂ } = .ok () { a₁ with
        consumer := { a₁.consumer with replay }, session := s₂ } := by
    rw [onReplay, loads]
  exact (bind_eq_of_ok greets).trans ((bind_eq_of_ok heard).trans (bind_eq_of_ok started))

end Attached

/-! ## Connections -/

/-- Whether a consumer can open a connection over a link on which those bytes have come for
    it: it follows the group's master, its store loads, and the link is open. -/
structure CanOpen (setup : Setup Connection τ) (c : Consumer τ) (link : Connection)
    (down : Octets) : Prop where
  opens : setup.transport = Connection.transport .opener
  synced : c.masters.InSync
  going : c.stopped = false
  loads : ∃ d a, setup.store.load c.replay.store = .ok d a
  fits : (setup.hello c.replay.replayer.role).body.length ≤ setup.codec.limit
  carries : Carries link [] down

theorem start_of_load {store : Replay.Store τ} {s : Replay.State τ} {d : DurableState} {a : τ}
    (loads : store.load s.store = .ok d a) (masterId : Int32) :
    ∃ replay, Replay.State.start store masterId s = .ok () replay := by
  rw [Replay.State.start, bind_eq_of_ok (Replay.State.onStore_of_ok s loads)]
  exact ⟨_, rfl⟩

namespace CanOpen

variable {setup : Setup Connection τ} {c : Consumer τ} {link : Connection} {down : Octets}

/-- The consumer and its session when the handshake begins. -/
def attaching (setup : Setup Connection τ) (c : Consumer τ) (link : Connection) :
    Attached Connection τ where
  consumer := { c with phase := .connecting, requests := [], output := [] }
  session := { link := setup.transport.setTimeout setup.preHeartbeatTimeout link }

theorem connect_of_ok (h : CanOpen setup c link down) {first : Ack} {a : Attached Connection τ}
    (greeted : Attached.handshake setup c.masters.node (attaching setup c link) = .ok first a) :
    connect setup [] (.ok link) c = .ok (first, a) := by
  have synced : c.masters.assertSync = .ok () := if_pos h.synced
  unfold attaching at greeted
  rw [connect]
  dsimp only [List.foldl_nil]
  rw [synced]
  dsimp only
  rw [introduce, if_neg (by rw [h.going]; decide), greeted]
  rfl

theorem connect_of_error (h : CanOpen setup c link down) {e : ConnectionError}
    {a : Attached Connection τ}
    (failed : Attached.handshake setup c.masters.node (attaching setup c link) = .error e a) :
    ∃ report, connect setup [] (.ok link) c = .error report ∧ report.error = some e := by
  have synced : c.masters.assertSync = .ok () := if_pos h.synced
  unfold attaching at failed
  rw [connect]
  dsimp only [List.foldl_nil]
  rw [synced]
  dsimp only
  rw [introduce, if_neg (by rw [h.going]; decide), failed]
  exact ⟨_, rfl, rfl⟩

/-- A consumer that follows its master ends with what stopped it on its first connection,
    unless a further attempt may help. -/
theorem follow_of_error (h : CanOpen setup c link down) {e : ConnectionError}
    {a : Attached Connection τ} (final : e.isOrdinary = false)
    (failed : Attached.handshake setup c.masters.node (attaching setup c link) = .error e a)
    (impassable : ∀ f, e ≠ .connect (.passing f))
    (drive : Streaming Connection τ → Streaming Connection τ) (others : List (Attempt Connection)) :
    (follow setup drive ({ outcome := .ok link } :: others) c).error = some e := by
  obtain ⟨report, broke, error⟩ := h.connect_of_error failed
  have attempted : attempt setup drive { outcome := .ok link } c = report := by
    rw [attempt, broke]
  -- The error is neither passing nor ordinary, so the first attempt is the last.
  rw [follow, followFrom, if_neg (by rw [h.going]; decide)]
  dsimp only
  rw [attempted, error]
  split
  next none => cases none
  next f same => exact absurd (Option.some.inj same) (impassable f)
  next e' _ same =>
    obtain rfl := Option.some.inj same
    rw [final]
    exact error

/-- The handshake goes as far as the first word of the feeder. -/
theorem handshake_eq {version id : Int32} {node : Octets} {m : Message} {rest : Octets}
    (h : CanOpen setup c link ((Message.serverVersion version node id).frame ++ (m.frame ++ rest)))
    (greeting : (Message.serverVersion version node id).body.length < 2 ^ 31 ∧
      (Message.serverVersion version node id).body.length ≤ setup.codec.limit)
    (word : m.body.length < 2 ^ 31 ∧ m.body.length ≤ setup.codec.limit) :
    ∃ c' s s', Session.receive setup.codec setup.transport s = .ok m s' ∧
      Attached.handshake setup c.masters.node (attaching setup c link) =
        Attached.awaitBeat setup { consumer := c', session := s } := by
  obtain ⟨d, a, loads⟩ := h.loads
  obtain ⟨replay, started⟩ := start_of_load loads c.masters.node.id
  have carries : Carries (attaching setup c link).session.link []
      ((Message.serverVersion version node id).frame ++ (m.frame ++ rest)) := by
    dsimp only [attaching]
    rw [h.opens]
    exact h.carries.setTimeout .opener _
  -- The introduction goes up, and then the greeting and the word come down.
  obtain ⟨s₁, sent, carries₁⟩ := carries.send_up h.fits
  obtain ⟨s₂, answered, carries₂⟩ := carries₁.receive_down greeting.1 greeting.2
  obtain ⟨s₃, received, -⟩ := carries₂.receive_down word.1 word.2
  rw [← h.opens] at sent answered received
  exact ⟨_, s₂, s₃, received, Attached.handshake_eq sent answered started⟩

end CanOpen

end Replication.Consumer

namespace Replication.Serving

open Replication.Consumer (Attached CanOpen ConnectionError connect follow)
open Replication.Feeder (Feeding Opening SaysFirst Watched)
open Replication.Link (Connection ScriptedLink Transport)
open Replication.Stream (Carries Message)

/-! ## Both ends -/

theorem length_body_of_saysFirst {looked : Int64} {m : Message} (worded : SaysFirst looked m) :
    m.body.length < 2 ^ 31 := by
  unfold SaysFirst at worded
  split at worded
  next =>
    subst worded
    simp [Message.body, Wire.putLong, Wire.length_bigEndian]
  next =>
    obtain ⟨now, last, rfl⟩ := worded
    exact Nat.lt_of_le_of_lt (Stream.length_body_heartbeat_le 1 now last) (by decide)

section BothEnds

variable {σ ρ τ : Type} {t : Transport σ} {feeder : Feeder.Setup (σ × List Octets) ρ}
  {s : Feeding (σ × List Octets) ρ} {consumer : Consumer.Setup Connection τ} {c : Consumer τ}
  {link : Connection}

/-- Once a feeder that was just started has sent two messages, its first look for a shutdown
    request tells what becomes of the consumer that gets them: if there was no request yet,
    the consumer opens its connection, and otherwise it ends with a breach of protocol. -/
theorem opening_by_first_look (records : feeder.transport = t.recorded)
    (started : s.standing = (.starting, 0, false, [])) (actions : List Feeding.Action) :
    let w := Watched.run feeder { feeding := s } actions
    2 ≤ w.feeding.written.length → feeder.greeting.body.length < 2 ^ 31 →
    feeder.codec.limit ≤ consumer.codec.limit →
    CanOpen consumer c link w.feeding.written.flatten →
    ∃ looked, w.looks.head? = some looked ∧
      if 0 ≤ looked then
        ∀ drive others, (follow consumer drive ({ outcome := .ok link } :: others) c).error =
          some (.stream (.unexpected .shutdownRequest))
      else ∃ first a, connect consumer [] (.ok link) c = .ok (first, a) ∧ first.id = 1 := by
  intro w spoke short room opens
  -- On the wire stands the greeting, and behind it the word that the first look led to.
  have opening : Opening feeder (Feeding.standing s) [] := started ▸ .waiting (.inl rfl)
  obtain ⟨looked, m, rest, first, written, worded, fits, fits'⟩ :=
    (opening.run (w := { feeding := s }) records actions).of_written spoke
  refine ⟨looked, first, ?_⟩
  rw [written, List.flatten_cons, List.flatten_cons] at opens
  obtain ⟨c', s₂, s₃, received, greeted⟩ := opens.handshake_eq
    ⟨short, Nat.le_trans fits room⟩ ⟨length_body_of_saysFirst worded, Nat.le_trans fits' room⟩
  unfold SaysFirst at worded
  split
  next asked =>
    rw [if_pos asked] at worded
    subst worded
    -- The consumer waits for a heartbeat, and does not know the request for anything else.
    intro drive others
    rw [Attached.awaitBeat_of_shutdownRequest received] at greeted
    exact opens.follow_of_error rfl greeted nofun drive others
  next unasked =>
    rw [if_neg unasked] at worded
    obtain ⟨now, last, rfl⟩ := worded
    obtain ⟨first, a, beaten, id⟩ := Attached.awaitBeat_of_heartbeat received
    exact ⟨first, a, opens.connect_of_ok (greeted.trans beaten), id⟩

end BothEnds

namespace FirstLook

open Replication.Feeder.Feeding (Action)

/-- A feeder with a client at the other end of its link. -/
def feeder : Feeder.Setup (ScriptedLink × List Octets) Unit where
  master := { name := .ofAscii "master", id := 1 }
  codec := { limit := 200, limit_pos := by decide }
  transport := ScriptedLink.transport.recorded
  listener := {
    heartbeatResponse := fun _ _ _ _ => pure (), ack := fun _ _ => pure ()
    shutdownResponse := fun _ => pure () }
  preHeartbeatTimeout := 0
  replicaTimeout := 0

/-- The arbiter's end. -/
def consumer : Consumer.Setup Connection Replay.MemoryStore where
  node := .ofAscii "arbiter"
  nodeId := 2
  codec := feeder.codec
  transport := Connection.transport .opener
  store := Replay.MemoryStore.store
  requestCapacity := 4
  outputCapacity := 4
  groupSize := 2
  groupedAcks := false
  preHeartbeatTimeout := 0
  replicaTimeout := 0

/-- The arbiter, which follows the master. -/
def arbiter : Consumer Replay.MemoryStore where
  masters := { group := feeder.master, node := feeder.master }
  replay := { replayer := { role := .arbiter }, store := {} }

/-- The feeder has been started, and the introduction of the arbiter has come. -/
def served : Feeding (ScriptedLink × List Octets) Unit where
  log := { recordsPerFile := 1, recordsPerFile_pos := by decide, records := [{ txn := 1 }] }
  protector := {}
  session := { link := ({ incoming := (consumer.hello .arbiter).frame }, []) }
  listener := ()
  feeder := {
    Feeder.ofSource {
      start := 1, cursor := { next := 1, startFile := 0, lastFile := 0 }, range := .active 0 } with
    running := true, output := .starting, input := .waiting }

/-- The output loop waits for the introduction, answers it, and looks for a request. -/
def looking : List Action := List.replicate 3 (.output false 0)

/-- A link on which all has come that a feeder has sent. -/
def carrying (w : Watched (ScriptedLink × List Octets) Unit) : Connection :=
  { opener := { incoming := w.feeding.written.flatten } }

end FirstLook

open FirstLook in
/-- The request comes right behind the first look. -/
theorem opening_by_first_look_late :
    let w := Watched.run feeder { feeding := served }
      (looking ++ [.requestShutdown 7, .output false 0])
    feeder.transport = ScriptedLink.transport.recorded ∧
      served.standing = (.starting, 0, false, []) ∧ 2 ≤ w.feeding.written.length ∧
      CanOpen consumer arbiter (carrying w) w.feeding.written.flatten ∧
      w.looks.head? = some (-1) ∧
      ∃ first a, connect consumer [] (.ok (carrying w)) arbiter = .ok (first, a) ∧
        first.id = 1 := by
  intro w
  have started : served.standing = (.starting, 0, false, []) := rfl
  have spoke : 2 ≤ w.feeding.written.length := by decide +kernel
  have opens : CanOpen consumer arbiter (carrying w) w.feeding.written.flatten :=
    ⟨rfl, by decide, rfl, ⟨_, _, rfl⟩, by decide, rfl, rfl, rfl, rfl⟩
  have unasked : w.looks.head? = some (-1) := by decide +kernel
  obtain ⟨looked, first, opened⟩ := opening_by_first_look rfl started _ spoke (by decide)
    (Nat.le_refl _) opens
  obtain rfl : -1 = looked := Option.some.inj (unasked.symm.trans first)
  rw [if_neg (by decide)] at opened
  exact ⟨rfl, started, spoke, opens, unasked, opened⟩

open FirstLook in
/-- A request that is there before the first look ends the consumer with a breach of protocol. -/
theorem follow_of_early_request :
    (follow consumer id [{ outcome := .ok (carrying (Watched.run feeder { feeding := served }
        (.requestShutdown 7 :: looking ++ [.output false 0]))) }] arbiter).error =
      some (.stream (.unexpected .shutdownRequest)) := by
  decide +kernel

end Replication.Serving
