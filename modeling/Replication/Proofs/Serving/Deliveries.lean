import Mathlib.Data.List.Basic
import Replication.Proofs.Consumer.Steadiness
import Replication.Proofs.Feeder.Account

/-! # What a stream delivers

A stream of heartbeats and records leads to one call of the store for each record that it
ships, and to one reply for each heartbeat and each commit.  This holds of its records
alone, however heartbeats stand between them.
-/

namespace Replication.Serving

open Replication.Feeder (Notice beat? isResponse isShipment noticesOf shipment)
open Replication.Log (Positioned)
open Replication.Replay (Admits Reply Role StoreCall call? dtvlsnAfter)
open Replication.Stream (Message)

/-! ## Records -/

/-- The call that hands a record to the store of a replica. -/
def handOver (r : Positioned) : StoreCall :=
  let vlsn := Int64.ofNat r.vlsn
  let record := r.record
  match record.type with
  | .commit => .commit {
      vlsn, txn := record.txn, dtvlsn := record.dtvlsn, term := record.term
      sync := record.sync, needsAck := true, timestamp := record.timestamp }
  | type => .entry {
      vlsn, type, txn := record.txn, timestamp := record.timestamp
      payload := record.payload, beforeImage := record.beforeImage }

/-- The dtvlsn that a record tells if it is a commit, which is its own position where none
    was tracked. -/
def toldDtvlsn? (r : Positioned) : Option Int64 :=
  match r.record.type with
  | .commit =>
    some (if r.record.dtvlsn = Stream.uninitializedVlsn then Int64.ofNat r.vlsn
      else r.record.dtvlsn)
  | _ => none

/-- The dtvlsn of a commit. -/
def effectiveDtvlsn? : Message → Option Int64
  | .commit c => some c.effectiveDtvlsn
  | _ => none

/-- What is replied to a heartbeat or a commit. -/
def reply? : Message → Option Reply
  | .heartbeat id _ _ => some (.heartbeat id)
  | .commit c => some (.txn c.txn)
  | _ => none

/-- Whether a message may stand in the stream to a consumer in a role: it is a heartbeat or
    it ships a record, and then it wants an acknowledgment. -/
def Streamed (role : Role) : Message → Prop
  | .heartbeat .. => True
  | .commit c => c.needsAck = true
  | .entry _ => role = .replica
  | _ => False

section Shipments

variable {role : Role} {r : Positioned} {m : Message}

theorem streamed_of_shipment (ships : shipment (Consumer.nodeType role) r = some m) :
    Streamed role m := by
  obtain ⟨record, position⟩ := r
  unfold shipment at ships
  cases type : record.type <;> cases role <;> simp only [type, Consumer.nodeType] at ships <;>
    cases ships <;> rfl

theorem call?_shipment (r : Positioned) :
    (shipment (Consumer.nodeType .replica) r).bind (call? .replica) = some (handOver r) := by
  obtain ⟨record, position⟩ := r
  unfold shipment handOver
  cases type : record.type <;> simp only [type, Consumer.nodeType] <;> rfl

theorem effectiveDtvlsn?_shipment (role : Role) (r : Positioned) :
    (shipment (Consumer.nodeType role) r).bind effectiveDtvlsn? = toldDtvlsn? r := by
  obtain ⟨record, position⟩ := r
  unfold shipment toldDtvlsn?
  cases type : record.type <;> cases role <;> simp only [type, Consumer.nodeType] <;> rfl

end Shipments

/-! ## Streams -/

section Streams

variable {role : Role} {stream : List Message} {records : List Positioned}
  (ships : stream.filter isShipment = records.filterMap (shipment (Consumer.nodeType role)))

/-- What is made of shipments alone is made of the records. -/
theorem filterMap_of_ships {α : Type} (f : Message → Option α)
    (other : ∀ m, isShipment m = false → f m = none) :
    stream.filterMap f = (stream.filter isShipment).filterMap f := by
  rw [List.filterMap_filter]
  refine List.filterMap_congr fun m _ => ?_
  cases shipment : isShipment m with
  | false => rw [other m shipment]; rfl
  | true => rfl

include ships in
theorem filterMap_ships {α : Type} (f : Message → Option α)
    (other : ∀ m, isShipment m = false → f m = none) :
    stream.filterMap f =
      records.filterMap fun r => (shipment (Consumer.nodeType role) r).bind f := by
  rw [filterMap_of_ships f other, ships, List.filterMap_filterMap]

theorem call?_of_not_shipment (role : Role) (m : Message) (other : isShipment m = false) :
    call? role m = none := by
  cases role <;> cases m <;> first | rfl | cases other

theorem effectiveDtvlsn?_of_not_shipment (m : Message) (other : isShipment m = false) :
    effectiveDtvlsn? m = none := by
  cases m <;> first | rfl | cases other

include ships in
/-- The store of a replica is handed each record, as it is in the log. -/
theorem calls_of_replica (replica : role = .replica) :
    stream.filterMap (call? role) = records.map handOver := by
  subst replica
  rw [filterMap_ships ships _ (call?_of_not_shipment .replica), ← List.filterMap_eq_map]
  exact List.filterMap_congr fun r _ => call?_shipment r

theorem calls_of_arbiter (arbiter : role = .arbiter) : stream.filterMap (call? role) = [] := by
  subst arbiter
  exact List.filterMap_eq_nil_iff.2 fun m _ => rfl

include ships in
theorem dtvlsns_of_ships : stream.filterMap effectiveDtvlsn? = records.filterMap toldDtvlsn? := by
  rw [filterMap_ships ships _ effectiveDtvlsn?_of_not_shipment]
  exact List.filterMap_congr fun r _ => effectiveDtvlsn?_shipment role r

theorem foldl_dtvlsnAfter_arbiter (stream : List Message) (dtvlsn : Int64) :
    stream.foldl (dtvlsnAfter .arbiter) dtvlsn =
      (stream.filterMap effectiveDtvlsn?).foldl max dtvlsn := by
  induction stream generalizing dtvlsn with
  | nil => rfl
  | cons m rest ih =>
    rw [List.foldl_cons, ih]
    cases m <;> rfl

/-- Nothing that may stand in the stream is refused by an arbiter, and by a replica as long
    as the dtvlsn does not fall. -/
theorem admits_of_streamed {dtvlsn : Int64} (streamed : ∀ m ∈ stream, Streamed role m)
    (ordered : role = .replica →
      (dtvlsn :: stream.filterMap effectiveDtvlsn?).Pairwise (· ≤ ·)) :
    Admits role dtvlsn stream := by
  induction stream generalizing dtvlsn with
  | nil => trivial
  | cons m rest ih =>
    have first := streamed m List.mem_cons_self
    have others := fun m' mem => streamed m' (List.mem_cons_of_mem _ mem)
    cases m with
    | heartbeat id now last => exact ⟨by cases role <;> trivial, ih others ordered⟩
    | entry e =>
      cases first
      exact ⟨trivial, ih others ordered⟩
    | commit c =>
      cases role with
      | arbiter => exact ⟨trivial, ih others nofun⟩
      | replica =>
        -- The dtvlsn of the commit is what the ones behind it are held against.
        have ordered := ordered rfl
        rw [List.filterMap_cons] at ordered
        obtain ⟨below, later⟩ := List.pairwise_cons.1 ordered
        exact ⟨below _ List.mem_cons_self, ih others fun _ => later⟩
    | _ => cases first

theorem due_of_streamed {m : Message} (streamed : Streamed role m) :
    Replay.due role m = reply? m := by
  cases m with
  | commit c => exact if_pos (.inr streamed)
  | heartbeat id now last | entry e => rfl
  | _ => cases streamed

end Streams

/-! ## Notices -/

/-- The reply that the listener is told of, if it is one of the consumer of that name. -/
def heard? (name : Octets) : Notice → Option Reply
  | .heartbeatResponse replica id _ _ => if replica = name then some (.heartbeat id) else none
  | .ack replica txn => if replica = name then some (.txn txn) else none
  | .shutdownResponse _ => none

theorem heard_noticesOf (name : Octets) (m : Message) :
    (noticesOf name m).map (heard? name) = (Consumer.repliesOf m).map some := by
  cases m with
  | heartbeatResponse id highVlsn dtvlsn => simp [noticesOf, Consumer.repliesOf, heard?]
  | ack txn => simp [noticesOf, Consumer.repliesOf, heard?]
  | groupAck txns => simp [noticesOf, Consumer.repliesOf, heard?]
  | _ => rfl

/-- The listener is told of the replies, one by one. -/
theorem heard_flatMap (name : Octets) (written : List Message) :
    (written.flatMap (noticesOf name)).map (heard? name) =
      (written.flatMap Consumer.repliesOf).map some := by
  rw [List.map_flatMap, List.map_flatMap]
  exact List.flatMap_congr fun m _ => heard_noticesOf name m

end Replication.Serving
