import Replication.Proofs.Computations
import Replication.Replay.Replayer

/-! # Replies to the master

Each heartbeat is replied to, and so is each commit that wants it.  `due` tells this from
the message alone, whatever a replayer knows and however the messages are grouped: the
acknowledgments of a group are the replies that are due to its messages, in their order.
-/

namespace Replication.Replay

open Replication.Stream (Message Entry Commit)

/-! ## Replies -/

/-- What the master hears of a heartbeat or a transaction of that id. -/
inductive Reply where
  | heartbeat (id : Int64)
  | txn (id : Int64)
deriving DecidableEq, Repr

/-- The reply that an acknowledgment makes, which is none for a shutdown. -/
def Ack.reply? (a : Ack) : Option Reply :=
  match a.kind with
  | .heartbeat => some (.heartbeat a.id)
  | .txn => some (.txn a.id)
  | .shutdown => none

def due (role : Role) : Message → Option Reply
  | .heartbeat id _ _ => some (.heartbeat id)
  | .commit c => if role = .arbiter ∨ c.needsAck then some (.txn c.txn) else none
  | _ => none

@[simp] theorem Replayer.role_raise (r : Replayer) (vlsn : Int64) :
    (r.raise vlsn).role = r.role := by
  unfold Replayer.raise
  split <;> rfl

namespace State

variable {σ : Type} {st : Store σ} {role : Role}

/-! ## Roles -/

/-- Whether a computation leaves a replayer in its role, however it ends. -/
def KeepsRole {α : Type} (x : EStateM ReplayError (State σ) α) : Prop :=
  Keeps (·.replayer.role) x

theorem keepsRole_onStore {α : Type} (x : EStateM StoreError σ α) : KeepsRole (onStore x) := by
  intro s
  unfold onStore
  split <;> rfl

theorem keepsRole_update {f : Replayer → Replayer} (kept : ∀ r, (f r).role = r.role) :
    KeepsRole (σ := σ) (update f) := fun _ => kept _

theorem keepsRole_start (masterId : Int32) : KeepsRole (start st masterId) :=
  .bind (keepsRole_onStore _) fun _ => keepsRole_update fun _ => rfl

theorem keepsRole_replayEntry (e : Entry) : KeepsRole (replayEntry st e) := by
  refine .bind .get fun s => ?_
  split
  · exact .throw _
  · exact .bind (keepsRole_onStore _) fun _ => keepsRole_update fun r => r.role_raise e.vlsn

theorem keepsRole_replayCommit (c : Commit) : KeepsRole (replayCommit st c) := by
  refine .bind (keepsRole_update fun r => r.role_raise c.vlsn) fun _ =>
    .bind (.bind .get fun s => ?_) fun _ => .bind .get fun s => ?_
  · dsimp only
    split
    · refine keepsRole_update fun r => ?_
      split <;> rfl
    · split
      · exact .throw _
      · exact .bind (keepsRole_onStore _) fun _ => keepsRole_update fun _ => rfl
  · split
    · exact .bind (keepsRole_update fun _ => rfl) fun _ => .bind .get fun _ => .pure _
    · exact .pure _

theorem keepsRole_replayMessage (g : GroupResult) (m : Message) :
    KeepsRole (replayMessage st g m) := by
  cases m with
  | commit c => exact .bind (keepsRole_replayCommit c) fun _ => .pure _
  | heartbeat id now last => exact .bind .get fun _ => .pure _
  | entry e => exact .bind (keepsRole_replayEntry e) fun _ => .pure _
  | shutdownRequest time => exact .pure _
  | _ => exact .throw _

theorem keepsRole_foldlM (group : List Message) (g : GroupResult) :
    KeepsRole (group.foldlM (replayMessage st) g) := by
  induction group generalizing g with
  | nil => exact .pure _
  | cons m rest ih =>
    rw [List.foldlM_cons]
    exact .bind (keepsRole_replayMessage g m) fun _ => ih _

theorem keepsRole_replayGroup (syncDue : Bool) (group : List Message) :
    KeepsRole (replayGroup st syncDue group) := by
  refine .bind (keepsRole_foldlM group {}) fun g => .bind .get fun _ =>
    .bind (keepsRole_onStore _) fun _ => ?_
  dsimp only
  split
  · exact .bind (keepsRole_update fun _ => rfl) fun _ => .pure _
  · exact .bind (.pure _) fun _ => .pure _

end State

end Replication.Replay
