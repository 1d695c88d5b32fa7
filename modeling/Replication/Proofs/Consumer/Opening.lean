import Replication.Proofs.Consumer.Replying

/-! # Opening a connection

A consumer that opens a connection introduces itself, picks up its durable state and waits
for a heartbeat.  What earlier connections have left on the way is dropped.
-/

namespace Replication.Consumer

open Replication.Link (Transport)
open Replication.Replay (Ack Role)
open Replication.Stream (Codec Message Session)

variable {σ τ : Type} {setup : Setup σ τ}

/-- As what a consumer in a role introduces itself. -/
def nodeType : Role → NodeType
  | .arbiter => .arbiter
  | .replica => .electable

/-- How a consumer in a role introduces itself to a feeder. -/
def Setup.hello (setup : Setup σ τ) (role : Role) : Message :=
  .clientVersion Stream.streamVersion setup.node setup.nodeId (nodeType role)

/-! ## The handshake -/

theorem receiveAs_eq_ok {α : Type} {c : Codec} {t : Transport σ} {pick : Message → Option α} {x : α}
    {s s' : Session σ} (done : Session.receiveAs c t pick s = .ok x s') :
    ∃ m, Session.receive c t s = .ok m s' ∧ pick m = some x := by
  obtain ⟨m, s₁, received, done⟩ := bind_eq_ok done
  refine ⟨m, ?_⟩
  unfold Message.expect at done
  cases picked : pick m with
  | some a =>
    rw [picked] at done
    cases done
    exact ⟨received, rfl⟩
  | none =>
    rw [picked] at done
    cases m <;> cases done

namespace Attached

variable {α : Type} {a a' : Attached σ τ}

theorem onSession_eq_ok {x : EStateM Stream.StreamError (Session σ) α} {r : α}
    (done : onSession x a = .ok r a') :
    x a.session = .ok r a'.session ∧ a'.consumer = a.consumer := by
  unfold onSession at done
  split at done
  next worked =>
    cases done
    exact ⟨worked, rfl⟩
  next => cases done

theorem onReplay_eq_ok {x : EStateM Replay.ReplayError (Replay.State τ) α} {r : α}
    (done : onReplay x a = .ok r a') : ∃ replay, x a.consumer.replay = .ok r replay ∧
      a' = { a with consumer := { a.consumer with replay } } := by
  unfold onReplay at done
  split at done
  next replay worked =>
    cases done
    exact ⟨replay, worked, rfl⟩
  next => cases done

/-- What a handshake that ends well has sent and received.  What comes of it is the
    acknowledgment of a heartbeat. -/
theorem handshake_eq_ok {master : Group.Master} {first : Ack}
    (done : handshake setup master a = .ok first a') :
    ∃ s₁ version node id s₂ replay now last,
      Session.send setup.codec setup.transport (setup.hello a.consumer.replay.replayer.role)
        a.session = .ok () s₁ ∧
      Session.receive setup.codec setup.transport s₁ = .ok (.serverVersion version node id) s₂ ∧
      Replay.State.start setup.store master.id a.consumer.replay = .ok () replay ∧
      Session.receive setup.codec setup.transport s₂ =
        .ok (.heartbeat first.id now last) a'.session ∧
      first.kind = .heartbeat ∧
      a'.consumer = { a.consumer with phase := .handshake, replay, heartbeatId := first.id } := by
  obtain ⟨_, a₁, entered, done⟩ := bind_eq_ok done
  cases entered
  rw [get_bind] at done
  -- The introduction is sent, and what answers it is the version of the server.
  obtain ⟨_, a₂, sent, done⟩ := bind_eq_ok done
  obtain ⟨m, a₃, answered, done⟩ := bind_eq_ok done
  obtain ⟨sent, same⟩ := onSession_eq_ok sent
  obtain ⟨answered, same'⟩ := onSession_eq_ok answered
  cases m with
  | serverVersion version node id =>
    obtain ⟨_, a₄, loaded, done⟩ := bind_eq_ok done
    obtain ⟨beat, a₅, beaten, done⟩ := bind_eq_ok done
    rw [modify_bind, get_bind] at done
    obtain ⟨rfl, rfl⟩ := pure_eq_ok done
    obtain ⟨beaten, same''⟩ := onSession_eq_ok beaten
    obtain ⟨m, received, picked⟩ := receiveAs_eq_ok beaten
    obtain ⟨replay, started, rfl⟩ := onReplay_eq_ok loaded
    rw [same', same] at started
    cases m with
    | heartbeat id now last =>
      cases picked
      refine ⟨a₂.session, version, node, _, a₃.session, replay, now, last, sent, answered, started,
        received, rfl, ?_⟩
      dsimp only
      rw [same'', same', same]
      rfl
    | _ => cases picked
  | _ => cases done

end Attached

/-! ## What opening leaves as it was -/

/-- What of a consumer opening a connection leaves as it was. -/
def lasting (c : Consumer τ) : List Message × List Ack × Role :=
  (c.requests, c.output, c.replay.replayer.role)

namespace Attached

variable {α : Type}

theorem keeps_onSession (x : EStateM Stream.StreamError (Session σ) α) :
    Keeps (fun a : Attached σ τ => lasting a.consumer) (onSession x) := by
  intro a
  unfold onSession
  split <;> rfl

theorem keeps_start (store : Replay.Store τ) (masterId : Int32) :
    Keeps (fun a : Attached σ τ => lasting a.consumer)
      (onReplay (Replay.State.start store masterId)) := by
  intro a
  unfold onReplay
  split
  next started =>
    exact congrArg (fun role => (a.consumer.requests, a.consumer.output, role))
      ((Replay.State.keepsRole_start _).of_ok started)
  next failed =>
    exact congrArg (fun role => (a.consumer.requests, a.consumer.output, role))
      ((Replay.State.keepsRole_start _).of_error failed)

theorem keeps_handshake (master : Group.Master) :
    Keeps (fun a : Attached σ τ => lasting a.consumer) (handshake setup master) := by
  refine .bind (.modify fun _ => rfl) fun _ => .bind .get fun a => ?_
  refine .bind (keeps_onSession _) fun _ => .bind (keeps_onSession _) fun m => ?_
  cases m with
  | incompatibleVersion reason => exact .throw _
  | serverVersion version node id =>
    exact .bind (keeps_start _ _) fun _ => .bind (keeps_onSession _) fun _ =>
      .bind (.modify fun _ => rfl) fun _ => .bind .get fun _ => .pure _
  | _ => exact .throw _

end Attached

theorem lasting_notice (c : Consumer τ) (events : List Event) :
    lasting (events.foldl notice c) = lasting c := by
  induction events generalizing c with
  | nil => rfl
  | cons e rest ih =>
    rw [List.foldl_cons, ih]
    cases e <;> rfl

/-! ## Connections -/

section Connect

variable {c : Consumer τ} {first : Ack} {a : Attached σ τ} {report : Report σ τ}

theorem introduce_eq_ok {master : Group.Master} {link : σ}
    (done : introduce setup master link c = .ok (first, a)) :
    c.stopped = false ∧
      Attached.handshake setup master {
        consumer := c
        session := { link := setup.transport.setTimeout setup.preHeartbeatTimeout link } } =
          .ok first a := by
  unfold introduce at done
  dsimp only at done
  split at done
  · cases done
  next going =>
    split at done
    · cases done
    next greeted =>
      cases done
      exact ⟨Bool.eq_false_iff.2 going, greeted⟩

theorem introduce_error {master : Group.Master} {link : σ}
    (failed : introduce setup master link c = .error report) :
    lasting report.consumer = lasting c := by
  unfold introduce at failed
  dsimp only at failed
  split at failed
  · cases failed
    rfl
  · split at failed
    next refused =>
      cases failed
      exact (Attached.keeps_handshake _).of_error refused
    · cases failed

variable {meanwhile : List Event} {outcome : Except ConnectError σ}

/-- A consumer opens a connection only while it follows the group's master, and with empty
    queues. -/
theorem connect_eq_ok (done : connect setup meanwhile outcome c = .ok (first, a)) :
    c.masters.InSync ∧ ∃ link, outcome = .ok link ∧
      introduce setup c.masters.node link (meanwhile.foldl notice
        { c with phase := .connecting, requests := [], output := [] }) = .ok (first, a) := by
  unfold connect at done
  dsimp only at done
  split at done
  · cases done
  next synced =>
    have inSync : c.masters.InSync := by
      unfold Group.MasterStatus.assertSync at synced
      split at synced
      next inSync => exact inSync
      next => cases synced
    refine ⟨inSync, ?_⟩
    split at done
    · cases done
    next link =>
      refine ⟨link, rfl, ?_⟩
      cases greeted : introduce setup c.masters.node link (meanwhile.foldl notice
          { c with phase := .connecting, requests := [], output := [] }) with
      | error report =>
        rw [greeted] at done
        cases done
      | ok opened =>
        rw [greeted] at done
        cases done
        rfl

/-- What went over a link on which a connection was opened while nothing else happened. -/
theorem handshake_of_connect {link : σ} (done : connect setup [] (.ok link) c = .ok (first, a)) :
    ∃ s₁ version node id s₂ replay now last,
      Session.send setup.codec setup.transport (setup.hello c.replay.replayer.role)
        { link := setup.transport.setTimeout setup.preHeartbeatTimeout link } = .ok () s₁ ∧
      Session.receive setup.codec setup.transport s₁ = .ok (.serverVersion version node id) s₂ ∧
      Replay.State.start setup.store c.masters.node.id c.replay = .ok () replay ∧
      Session.receive setup.codec setup.transport s₂ =
        .ok (.heartbeat first.id now last) a.session ∧
      c.masters.InSync ∧ c.stopped = false ∧
      a.consumer = { c with
        phase := .handshake, requests := [], output := [], replay, heartbeatId := first.id } := by
  obtain ⟨inSync, _, line, introduced⟩ := connect_eq_ok done
  cases line
  obtain ⟨going, greeted⟩ := introduce_eq_ok introduced
  obtain ⟨s₁, version, node, id, s₂, replay, now, last, sent, answered, started, beaten, -, same⟩ :=
    Attached.handshake_eq_ok greeted
  exact ⟨s₁, version, node, id, s₂, replay, now, last, sent, answered, started, beaten, inSync,
    going, same⟩

theorem connect_ok (done : connect setup meanwhile outcome c = .ok (first, a)) :
    first.kind = .heartbeat ∧ lasting a.consumer = ([], [], c.replay.replayer.role) := by
  obtain ⟨-, link, -, introduced⟩ := connect_eq_ok done
  obtain ⟨-, greeted⟩ := introduce_eq_ok introduced
  obtain ⟨_, _, _, _, _, _, _, _, -, -, -, -, kind, -⟩ := Attached.handshake_eq_ok greeted
  exact ⟨kind, ((Attached.keeps_handshake _).of_ok greeted).trans (lasting_notice _ _)⟩

theorem connect_error (failed : connect setup meanwhile outcome c = .error report) :
    report.consumer.replay.replayer.role = c.replay.replayer.role := by
  unfold connect at failed
  dsimp only at failed
  split at failed
  · cases failed
    rfl
  · split at failed
    · cases failed
      exact congrArg (·.2.2) (lasting_notice _ _)
    next link =>
      cases greeted : introduce setup c.masters.node link (meanwhile.foldl notice
          { c with phase := .connecting, requests := [], output := [] }) with
      | error report' =>
        rw [greeted] at failed
        cases failed
        have same := (introduce_error greeted).trans (lasting_notice _ _)
        exact congrArg (·.2.2) same
      | ok opened =>
        rw [greeted] at failed
        cases failed

end Connect

end Replication.Consumer
