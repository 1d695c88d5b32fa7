import Replication.Link.Scripted
import Replication.Proofs.Consumer.Opening

/-! # The order of replies

On each connection the replies that were written are the first of those that are due: first
the one to the heartbeat of the handshake, then one for each message read that wants it, in
their order.  While writer and replayer are at work nothing is missing between the replies
that were written and the messages that were read.
-/

namespace Replication.Consumer

open Replication.Replay (Ack Role)
open Replication.Stream (Message Session)

variable {σ τ : Type} {setup : Setup σ τ} {role : Role}

/-! ## One connection -/

namespace Dialogue

variable {d : Dialogue} {m : Message}

theorem replies_written : (d.note (some (.written m))).replies = d.replies ++ repliesOf m := by
  simp [note, replies]

theorem due_read :
    (d.note (some (.read m))).due role = d.due role ++ (Replay.due role m).toList := by
  cases wanted : Replay.due role m <;> simp [note, due, wanted]

end Dialogue

namespace Talk

variable {t : Talk σ τ}

/-- The replies of a connection whose consumer has a role are in order. -/
structure InOrder (role : Role) (t : Talk σ τ) : Prop where
  kept : t.streaming.consumer.replay.replayer.role = role
  written : t.dialogue.replies <+: t.dialogue.due role
  unwritten : t.streaming.writer ≠ .done →
    t.dialogue.replies ++ t.streaming.unwritten.filterMap (·.reply?) <+: t.dialogue.due role
  whole : t.streaming.writer ≠ .done → t.streaming.replayer ≠ .done →
    t.dialogue.replies ++ t.streaming.unwritten.filterMap (·.reply?) ++
      t.streaming.unreplayed.filterMap (Replay.due role) = t.dialogue.due role

theorem InOrder.act (h : t.InOrder role) (action : Streaming.Action) :
    (t.step setup (.act action)).InOrder role := by
  have shift := t.streaming.step_shift setup action
  have writing : (t.streaming.step setup action).writer ≠ .done → t.streaming.writer ≠ .done :=
    fun going done => going (Streaming.writer_done_step done)
  have replaying :
      (t.streaming.step setup action).replayer ≠ .done → t.streaming.replayer ≠ .done :=
    fun going done => going (Streaming.replayer_done_step done)
  rw [step]
  generalize t.streaming.passage? setup action = passage at shift
  generalize t.streaming.step setup action = s' at shift writing replaying
  cases shift with
  | along unwritten unreplayed replay =>
    refine ⟨?_, h.written, ?_, ?_⟩
    · dsimp only
      rw [replay, h.kept]
    · intro going
      dsimp only
      rw [unwritten]
      exact h.unwritten (writing going)
    · intro going going'
      dsimp only
      rw [unwritten, unreplayed]
      exact h.whole (writing going) (replaying going')
  | read unwritten unreplayed replay =>
    refine ⟨?_, ?_, ?_, ?_⟩
    · dsimp only
      rw [replay, h.kept]
    · dsimp only
      rw [Dialogue.due_read]
      exact h.written.trans (List.prefix_append _ _)
    · intro going
      dsimp only
      rw [unwritten, Dialogue.due_read]
      exact (h.unwritten (writing going)).trans (List.prefix_append _ _)
    · intro going going'
      dsimp only
      rw [unwritten, unreplayed, Dialogue.due_read, ← h.whole (writing going) (replaying going'),
        List.filterMap_append, List.append_assoc _ _ (Option.toList _)]
      congr 2
  | @replayed syncDue group g last going done unreplayed unwritten silent unasked =>
    have replies := Replay.State.filterMap_replies_replayGroup done
    have kept := (Replay.State.keepsRole_replayGroup _ _).of_ok done
    -- The acknowledgments of the group take the place of the replies due to it.
    have whole (going' : t.streaming.writer ≠ .done) : t.dialogue.replies ++
        s'.unwritten.filterMap (·.reply?) ++ s'.unreplayed.filterMap (Replay.due role) =
          t.dialogue.due role := by
      rw [← h.whole going' going, unreplayed, unwritten]
      simp only [List.filterMap_append, replies, silent, h.kept, List.append_nil, List.append_assoc]
    exact ⟨kept.trans h.kept, h.written, fun going' => ⟨_, whole (writing going')⟩,
      fun going' _ => whole (writing going')⟩
  | @written a rest behind going before after unreplayed replay =>
    -- What the message replies to is taken off the front of the way.
    have same : (t.dialogue.note (some (.written
        (firstResponse setup.groupedAcks a rest).1))).replies ++ s'.unwritten.filterMap (·.reply?) =
          t.dialogue.replies ++ t.streaming.unwritten.filterMap (·.reply?) := by
      rw [Dialogue.replies_written, before, after, List.filterMap_append, List.filterMap_append,
        ← replies_firstResponse setup.groupedAcks, List.append_assoc, List.append_assoc]
    refine ⟨?_, ?_, fun _ => ?_, fun _ going' => ?_⟩
    · dsimp only
      rw [replay, h.kept]
    · exact (List.prefix_append _ _).trans (same ▸ h.unwritten going)
    · dsimp only
      rw [same]
      exact h.unwritten going
    · dsimp only
      rw [same, unreplayed]
      exact h.whole going (replaying going')
  | replayerDone done unwritten same =>
    refine ⟨same.trans h.kept, h.written, fun going => ?_, fun _ going => absurd done going⟩
    refine List.IsPrefix.trans ?_ (h.unwritten (writing going))
    exact (List.prefix_append_right_inj _).2 (unwritten.filterMap _)
  | writerDone done replay =>
    refine ⟨?_, h.written, fun going => absurd done going, fun going => absurd done going⟩
    dsimp only
    rw [replay, h.kept]

theorem InOrder.step (h : t.InOrder role) (move : Move σ) : (t.step setup move).InOrder role := by
  cases move with
  | act action => exact h.act action
  | link change => exact ⟨h.kept, h.written, h.unwritten, h.whole⟩

section Start

variable {first : Ack} {a : Attached σ τ}

theorem unwritten_start (room : 0 < setup.outputCapacity) (output : a.consumer.output = []) :
    (start setup first a).streaming.unwritten = [first] := by
  have queued : (start setup first a).streaming.output.items = [first] := by
    simp [start, Streaming.start, output, BoundedQueue.ofItems, BoundedQueue.push?, room]
  rw [Streaming.unwritten, queued]
  rfl

theorem unreplayed_start (requests : a.consumer.requests = []) :
    (start setup first a).streaming.unreplayed = [] := by
  simp [start, Streaming.start, Streaming.unreplayed, requests, BoundedQueue.ofItems,
    Replayer.taken, Reader.offered]

/-- A connection starts with the reply to the heartbeat of the handshake, and with nothing
    that earlier connections have left. -/
theorem inOrder_start (room : 0 < setup.outputCapacity) (kind : first.kind = .heartbeat)
    (requests : a.consumer.requests = []) (output : a.consumer.output = []) :
    (start setup first a).InOrder a.consumer.replay.replayer.role := by
  have reply : first.reply? = some (.heartbeat first.id) := by
    rw [Ack.reply?, kind]
  have whole : (start setup first a).dialogue.replies ++
      (start setup first a).streaming.unwritten.filterMap (·.reply?) ++
        (start setup first a).streaming.unreplayed.filterMap
          (Replay.due a.consumer.replay.replayer.role) =
            (start setup first a).dialogue.due a.consumer.replay.replayer.role := by
    rw [unwritten_start room output, unreplayed_start requests]
    simp [start, Dialogue.replies, Dialogue.due, reply]
  exact ⟨rfl, List.nil_prefix, fun _ => ⟨_, whole⟩, fun _ _ => whole⟩

end Start

end Talk

/-! ## All connections -/

namespace Life

variable {l : Life σ τ}

/-- The role of a consumer. -/
def roleNow (l : Life σ τ) : Role :=
  match l.now with
  | .inl c => c.replay.replayer.role
  | .inr t => t.streaming.consumer.replay.replayer.role

/-- The replies of all connections of a consumer that has a role are in order. -/
structure InOrder (role : Role) (l : Life σ τ) : Prop where
  kept : l.roleNow = role
  past : ∀ d ∈ l.past, d.replies <+: d.due role
  present : ∀ t, l.now = .inr t → t.InOrder role

theorem InOrder.dialogues (h : l.InOrder role) : ∀ d ∈ l.dialogues, d.replies <+: d.due role := by
  intro d mem
  unfold Life.dialogues at mem
  split at mem
  · exact h.past d mem
  next t now =>
    rcases List.mem_append.1 mem with before | last
    · exact h.past d before
    · obtain rfl := List.mem_singleton.1 last
      exact (h.present t now).written

theorem InOrder.step (h : l.InOrder role) (room : 0 < setup.outputCapacity) (move : Move σ) :
    (l.step setup move).InOrder role := by
  obtain ⟨past, now⟩ := l
  cases now with
  | inl c =>
    cases move with
    | notice e =>
      refine ⟨?_, h.past, fun _ now => nomatch now⟩
      rw [← h.kept]
      exact congrArg (·.2.2) (lasting_notice c [e])
    | masters change => exact ⟨h.kept, h.past, fun _ now => nomatch now⟩
    | connect meanwhile outcome =>
      unfold Life.step
      dsimp only
      split
      next report failed =>
        exact ⟨(connect_error failed).trans h.kept, h.past, fun _ now => nomatch now⟩
      next first a done =>
        -- Opening empties the queues, so nothing of an earlier connection is on the way.
        obtain ⟨kind, same⟩ := connect_ok done
        have ready := Talk.inOrder_start room kind (congrArg (·.1) same) (congrArg (·.2.1) same)
        have kept : a.consumer.replay.replayer.role = role := (congrArg (·.2.2) same).trans h.kept
        rw [kept] at ready
        refine ⟨ready.kept, h.past, ?_⟩
        rintro t ⟨⟩
        exact ready
    | talk m => exact h
  | inr t =>
    cases move with
    | notice e => exact h
    | masters change =>
      have same := h.present t rfl
      refine ⟨h.kept, h.past, ?_⟩
      rintro t' ⟨⟩
      exact ⟨same.kept, same.written, same.unwritten, same.whole⟩
    | connect meanwhile outcome => exact h
    | talk m =>
      have later : (t.step setup m).InOrder role := (h.present t rfl).step m
      unfold Life.step
      dsimp only
      split
      · refine ⟨later.kept, ?_, fun _ now => nomatch now⟩
        intro d mem
        rcases List.mem_append.1 mem with before | last
        · exact h.past d before
        · obtain rfl := List.mem_singleton.1 last
          exact later.written
      · refine ⟨later.kept, h.past, ?_⟩
        rintro t' ⟨⟩
        exact later

theorem InOrder.run (h : l.InOrder role) (room : 0 < setup.outputCapacity)
    (moves : List (Move σ)) : (l.run setup moves).InOrder role := by
  induction moves generalizing l with
  | nil => exact h
  | cons move moves ih => exact ih (h.step room move)

/-- On every connection that a consumer ever has, the replies written so far are the first
    of those that are due: one to the heartbeat of the handshake, and then one for each
    message read on the same connection that wants it, in their order. -/
theorem replies_prefix_due (setup : Setup σ τ) (room : 0 < setup.outputCapacity) (c : Consumer τ)
    (moves : List (Move σ)) :
    ∀ d ∈ (run setup { now := .inl c } moves).dialogues,
      d.replies <+: d.due c.replay.replayer.role := by
  have fresh : InOrder c.replay.replayer.role ({ now := .inl c } : Life σ τ) :=
    ⟨rfl, fun _ mem => (nomatch mem), fun _ now => nomatch now⟩
  exact (fresh.run room moves).dialogues

end Life

/-! ## A connection behind one that broke -/

namespace Reconnection

open Replication.Link (ScriptedLink)
open Replication.Replay (MemoryStore)

/-- A replica that writes acknowledgments together. -/
def sample : Setup ScriptedLink MemoryStore where
  node := .ofAscii "replica"
  nodeId := 2
  codec := { limit := 1000, limit_pos := by decide }
  transport := ScriptedLink.transport
  store := MemoryStore.store
  requestCapacity := 4
  outputCapacity := 4
  groupSize := 2
  groupedAcks := true
  preHeartbeatTimeout := 0
  replicaTimeout := 0

/-- A replica that is to follow a master. -/
def consumer : Consumer MemoryStore :=
  let master : Group.Master := { name := .ofAscii "master", id := 1 }
  { masters := { group := master, node := master }
    replay := { replayer := { role := .replica }, store := {} } }

/-- A commit that wants an acknowledgment. -/
def commit (txn : Int64) : Message :=
  .commit {
    vlsn := txn, txn, dtvlsn := txn, term := 1, sync := .noSync, needsAck := true, timestamp := 0 }

/-- A master that sends a heartbeat and a commit and hangs up. -/
def link (heartbeat txn : Int64) (writable : Option Nat) : ScriptedLink where
  incoming := [.serverVersion Stream.streamVersion (.ofAscii "master") 1, .heartbeat heartbeat 0 0,
    commit txn].flatMap Message.frame
  ending := some .closed
  writable

/-- Lets the threads move in turn. -/
def turns (count : Nat) : List (Life.Move ScriptedLink) :=
  (List.replicate count
    [.talk (.act .reader), .talk (.act (.replayer false)), .talk (.act .writer)]).flatten

/-- The first connection breaks with the acknowledgment of its commit in the queue. -/
def moves : List (Life.Move ScriptedLink) :=
  .connect [] (.ok (link 1 7 (some 1))) :: turns 14 ++ .connect [] (.ok (link 2 8 none)) :: turns 9

/-- The second connection. -/
def dialogue : Dialogue where
  heartbeat := 2
  read := [commit 8]
  written := [.heartbeatResponse 2 7 7, .ack 8]

end Reconnection

/-- What the first connection left unwritten is not written on the second. -/
theorem Life.replies_prefix_due_reconnection :
    0 < Reconnection.sample.outputCapacity ∧
      Reconnection.dialogue ∈
        (run Reconnection.sample { now := .inl Reconnection.consumer } Reconnection.moves).dialogues ∧
      Reconnection.dialogue.replies <+: Reconnection.dialogue.due .replica := by
  have room : 0 < Reconnection.sample.outputCapacity := by decide
  have mem : Reconnection.dialogue ∈
      (run Reconnection.sample { now := .inl Reconnection.consumer } Reconnection.moves).dialogues := by
    decide +kernel
  exact ⟨room, mem, replies_prefix_due _ room Reconnection.consumer _ _ mem⟩

end Replication.Consumer
