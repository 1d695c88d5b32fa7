import Replication.Proofs.Feeder.Hearing
import Replication.Proofs.Log.Sources
import Replication.Proofs.Stream.Frames

/-! # The account of a service

Behind the handshake a feeder sends heartbeats, numbered from one, and the records of the
log from the start of its source on, each as soon as it is durable.  An `Account` ties what
has gone over the connection to where the loops are.
-/

namespace Replication.Feeder

open Replication.Link (Connection)
open Replication.Log (CommitLog Custody Positioned Record Source)
open Replication.Stream (Carries Codec Message Session)

/-! ## What is sent behind the handshake -/

/-- The number of a heartbeat. -/
def beat? : Message → Option Int64
  | .heartbeat id _ _ => some id
  | _ => none

/-- Whether a message ships a record. -/
def isShipment : Message → Bool
  | .entry _ | .commit _ => true
  | _ => false

/-- So many heartbeats, and the records from `first` on before the position `n`, in any
    interleaving. -/
structure Emitted (log : CommitLog) (type : NodeType) (first n beats : Nat)
    (stream : List Message) : Prop where
  beats : stream.filterMap beat? = (List.range beats).map fun i => Int64.ofNat (i + 1)
  records : stream.filter isShipment = (log.between (first + 1) n).filterMap (shipment type)
  only : ∀ m ∈ stream, (beat? m).isSome ∨ isShipment m

theorem isShipment_of_shipment {type : NodeType} {r : Positioned} {m : Message}
    (ships : shipment type r = some m) : isShipment m = true ∧ beat? m = none := by
  unfold shipment at ships
  dsimp only at ships
  split at ships
  · cases ships
    exact ⟨rfl, rfl⟩
  · cases ships
  · cases ships
    exact ⟨rfl, rfl⟩

/-- What ships a record to an arbiter does not tell its before image. -/
theorem shipment_arbiter (r : Record) (position : Nat) :
    shipment .arbiter ⟨{ r with beforeImage := [] }, position⟩ =
      shipment .arbiter ⟨r, position⟩ := by
  obtain ⟨type, _⟩ := r
  cases type <;> rfl

/-- What ships one record more. -/
theorem shipments_succ {log : CommitLog} {type : NodeType} {first n : Nat} {r : Record}
    (within : first ≤ n) (there : log.records[n]? = some r) :
    (log.between (first + 1) (n + 1)).filterMap (shipment type) =
      (log.between (first + 1) n).filterMap (shipment type) ++ (shipment type ⟨r, n⟩).toList := by
  rw [CommitLog.between_succ (by omega) there, List.filterMap_append]
  cases ships : shipment type ⟨r, n⟩ <;> simp [ships]

/-- What ships durable records does not change when the log grows. -/
theorem shipments_of_extends {log log' : CommitLog} {type : NodeType} {first n : Nat}
    (longer : log'.Extends log) (within : n ≤ log.durable ∨ n = first) :
    (log.between (first + 1) n).filterMap (shipment type) =
      (log'.between (first + 1) n).filterMap (shipment type) := by
  rcases within with inside | rfl
  · rw [longer.between_eq _ (Nat.le_trans inside log.durable_le)]
  · rw [CommitLog.between_of_lt (Nat.lt_succ_self n), CommitLog.between_of_lt (Nat.lt_succ_self n)]

namespace Emitted

variable {log : CommitLog} {type : NodeType} {first n beats : Nat} {stream : List Message}

theorem nil : Emitted log type first first 0 [] := by
  refine ⟨rfl, ?_, fun m mem => nomatch mem⟩
  rw [CommitLog.between_of_lt (by omega)]
  rfl

theorem of_extends {log' : CommitLog} (h : Emitted log type first n beats stream)
    (longer : log'.Extends log) (within : n ≤ log.durable ∨ n = first) :
    Emitted log' type first n beats stream := by
  refine ⟨h.beats, ?_, h.only⟩
  rw [h.records, shipments_of_extends longer within]

theorem beat (h : Emitted log type first n beats stream) (now last : Int64) :
    Emitted log type first n (beats + 1)
      (stream ++ [.heartbeat (Int64.ofNat (beats + 1)) now last]) := by
  refine ⟨?_, ?_, ?_⟩
  · rw [List.filterMap_append, h.beats, List.range_succ, List.map_append]
    rfl
  · rw [List.filter_append, h.records]
    exact List.append_nil _
  · intro m mem
    rcases List.mem_append.1 mem with before | last
    · exact h.only m before
    · obtain rfl := List.mem_singleton.1 last
      exact .inl rfl

section Records

variable {r : Record} (h : Emitted log type first n beats stream) (within : first ≤ n)
  (there : log.records[n]? = some r)

include h within there

theorem ship {m : Message} (ships : shipment type ⟨r, n⟩ = some m) :
    Emitted log type first (n + 1) beats (stream ++ [m]) := by
  obtain ⟨kind, silent⟩ := isShipment_of_shipment ships
  refine ⟨?_, ?_, ?_⟩
  · rw [List.filterMap_append, h.beats, List.filterMap_cons, silent]
    exact List.append_nil _
  · rw [List.filter_append, h.records, shipments_succ within there, ships]
    exact congrArg _ (List.filter_cons_of_pos kind)
  · intro m' mem
    rcases List.mem_append.1 mem with before | last
    · exact h.only m' before
    · obtain rfl := List.mem_singleton.1 last
      exact .inr kind

theorem skip (silent : shipment type ⟨r, n⟩ = none) :
    Emitted log type first (n + 1) beats stream := by
  refine ⟨h.beats, ?_, h.only⟩
  rw [h.records, shipments_succ within there, silent]
  exact (List.append_nil _).symm

end Records

end Emitted

/-! ## Where a service stands -/

/-- Where a service begins: the position of the record that is shipped first, what the
    listener was told before, and who the consumer is. -/
structure Beginning where
  first : Nat
  told : List Notice
  name : Octets
  type : NodeType

/-- What a feeder may send: its answer to the introduction of the consumer, heartbeats, and
    what ships the durable records. -/
inductive Beginning.Sends (b : Beginning) (master : Group.Master) (log : CommitLog) :
    Message → Prop where
  | greeting : b.Sends master log (.serverVersion Stream.streamVersion master.name master.id)
  | beat (id now last : Int64) : b.Sends master log (.heartbeat id now last)
  | record {r : Positioned} {m : Message} (durable : r ∈ log.between (b.first + 1) log.durable)
    (ships : shipment b.type r = some m) : b.Sends master log m

theorem Beginning.Sends.of_extends {b : Beginning} {master : Group.Master} {log log' : CommitLog}
    {m : Message} (h : b.Sends master log m) (longer : log'.Extends log) :
    b.Sends master log' m := by
  cases h with
  | greeting => exact .greeting
  | beat id now last => exact .beat id now last
  | record durable ships => exact .record ((longer.between_prefix _).subset durable) ships

/-- Whether the output loop is behind the handshake. -/
def OutputLoop.isServing : OutputLoop → Bool
  | .requesting | .beating | .fetching | .shipping _ => true
  | _ => false

def OutputLoop.inHand : OutputLoop → Option Positioned
  | .shipping r => some r
  | _ => none

/-- What the consumer has written: how it introduces itself, and then responses. -/
inductive Spoken (b : Beginning) : List Message → Prop where
  | nil : Spoken b []
  | cons (id : Int32) {responses : List Message} (only : ∀ m ∈ responses, isResponse m = true) :
    Spoken b (.clientVersion Stream.streamVersion b.name id b.type :: responses)

namespace Feeding

variable {ρ : Type} {l : Listener ρ} {setup : Setup Connection (ρ × List Notice)} {b : Beginning}
  {wrote : List Message}

/-- The record that is next, in front of which the source stands or which is in hand. -/
structure Place (b : Beginning) (s : Feeding Connection (ρ × List Notice)) (n : Nat) : Prop where
  next : s.feeder.next = n + 1
  first_le : b.first ≤ n
  within : n ≤ s.log.durable ∨ n = b.first
  behind : s.feeder.output.inHand = none →
    Source.Behind s.log n ⟨s.feeder.source, s.protector⟩
  shipping : ∀ r, s.feeder.output.inHand = some r →
    Source.Behind s.log (n + 1) ⟨s.feeder.source, s.protector⟩ ∧ n < s.log.durable ∧
      r.position = n ∧ ∃ record, s.log.records[n]? = some record ∧
        shipment b.type r = shipment b.type ⟨record, n⟩

/-- A feeder in front of the handshake. -/
structure Greeting (b : Beginning) (s : Feeding Connection (ρ × List Notice)) (n : Nat) : Prop where
  output : s.feeder.output = .starting ∨ s.feeder.output = .handshaking
  input : s.feeder.input = .waiting
  told : s.listener.2 = b.told
  heartbeats : s.feeder.heartbeats = 0
  first : n = b.first

/-- A feeder behind the handshake, what it has heard since and what it has sent. -/
structure Serving (b : Beginning) (s : Feeding Connection (ρ × List Notice)) (n : Nat)
    (heard stream : List Message) : Prop where
  name : s.feeder.replicaName = b.name
  type : s.feeder.replicaType = b.type
  output : s.feeder.output.isServing = true
  input : s.feeder.input = .waiting ∨ s.feeder.input = .reading
  told : s.listener.2 = b.told ++ heard.flatMap (noticesOf b.name)
  emitted : Emitted s.log b.type b.first n s.feeder.heartbeats stream

/-- What a feeder has received and sent by now. -/
inductive Phase (setup : Setup Connection (ρ × List Notice)) (b : Beginning)
    (s : Feeding Connection (ρ × List Notice)) (n : Nat) : List Message → List Message → Prop where
  | greeting (h : Greeting b s n) : Phase setup b s n [] []
  | serving (id : Int32) {heard stream : List Message} (h : Serving b s n heard stream) :
    Phase setup b s n (.clientVersion Stream.streamVersion b.name id b.type :: heard)
      (.serverVersion Stream.streamVersion setup.master.name setup.master.id :: stream)

/-- What waits on the connection: of what the consumer wrote, that which is not received,
    and of what the feeder sent, that which is not taken, behind the rest of a frame. -/
structure Account (setup : Setup Connection (ρ × List Notice)) (b : Beginning)
    (s : Feeding Connection (ρ × List Notice)) (n : Nat) (received up taken down : List Message)
    (part : Octets) : Prop where
  running : s.feeder.cancelled = false
  unasked : ¬ 0 ≤ s.feeder.shutdownRequest
  place : Place b s n
  phase : Phase setup b s n received (taken ++ down)
  carries : Carries s.session.link (up.flatMap Message.frame) (part ++ down.flatMap Message.frame)
  sized : ∀ m, m ∈ received ∨ m ∈ taken ++ down → m.body.length ≤ setup.codec.limit

/-- Whether all that was written and taken over the connection is accounted for. -/
def Sound (setup : Setup Connection (ρ × List Notice)) (b : Beginning) (wrote taken : List Message)
    (part : Octets) (s : Feeding Connection (ρ × List Notice)) : Prop :=
  ∃ n received up down, received ++ up = wrote ∧ Account setup b s n received up taken down part

/-- What happens to the session alone changes only what waits. -/
theorem Account.onSession {s : Feeding Connection (ρ × List Notice)} {n : Nat}
    {received up taken down up' : List Message} {part part' : Octets}
    (h : Account setup b s n received up taken down part) {session : Session Connection}
    (carries : Carries session.link (up'.flatMap Message.frame)
      (part' ++ down.flatMap Message.frame)) :
    Account setup b { s with session } n received up' taken down part' := by
  refine ⟨h.running, h.unasked, ⟨h.place.next, h.place.first_le, h.place.within, h.place.behind,
    h.place.shipping⟩, ?_, carries, h.sized⟩
  have phase := h.phase
  generalize taken ++ down = sent at phase
  cases phase with
  | greeting g => exact .greeting ⟨g.output, g.input, g.told, g.heartbeats, g.first⟩
  | serving id serving =>
    exact .serving id ⟨serving.name, serving.type, serving.output, serving.input, serving.told,
      serving.emitted⟩

theorem Account.sends {s : Feeding Connection (ρ × List Notice)} {n : Nat}
    {received up taken down : List Message} {part : Octets}
    (h : Account setup b s n received up taken down part) {m : Message}
    (mem : m ∈ taken ++ down) : b.Sends setup.master s.log m := by
  have phase := h.phase
  generalize taken ++ down = sent at phase mem
  cases phase with
  | greeting g => cases mem
  | serving id serving =>
    rcases List.mem_cons.1 mem with rfl | mem
    · exact .greeting
    · rcases serving.emitted.only m mem with beat | ships
      · cases m with
        | heartbeat id now last => exact .beat id now last
        | _ => cases beat
      · have shipped := List.mem_filter.2 ⟨mem, ships⟩
        rw [serving.emitted.records] at shipped
        obtain ⟨r, there, same⟩ := List.mem_filterMap.1 shipped
        obtain ⟨later, before, found⟩ := CommitLog.mem_between.1 there
        -- The place is not behind the durable records, unless it is still the first one.
        have within := h.place.within
        exact .record (CommitLog.mem_between.2 ⟨later, by omega, found⟩) same

/-- The first that is taken is the answer to the introduction. -/
theorem Sound.greeted {s : Feeding Connection (ρ × List Notice)} {m : Message}
    {taken : List Message} {part : Octets} (h : Sound setup b wrote (m :: taken) part s) :
    m = .serverVersion Stream.streamVersion setup.master.name setup.master.id := by
  obtain ⟨n, received, up, down, -, account⟩ := h
  have phase := account.phase
  generalize all : m :: taken ++ down = sent at phase
  cases phase with
  | greeting g => cases all
  | serving id serving => exact (List.cons.inj all).1

/-- Nothing was said when a feeder starts over a source that was opened. -/
theorem sound_start {log : CommitLog} {p : Log.FileProtector} {name : Octets} {vlsn : Int}
    {custody : Custody} {session : Session Connection} {listener : ρ × List Notice}
    {s : Feeding Connection (ρ × List Notice)} (first : b.first = (vlsn - 1).toNat)
    (told : b.told = listener.2) (opened : Source.ofStart log p name vlsn = .ok custody)
    (fresh : Carries session.link [] [])
    (started : Feeding.start {
      log, session, listener, protector := custody.protector
      feeder := Feeder.ofSource custody.source } = .ok s) : Sound setup b [] [] [] s := by
  obtain ⟨n, rfl, start, behind⟩ := Source.behind_ofStart opened
  cases started
  have next : b.first = n := by omega
  have unasked : ¬ (0 : Int64) ≤ -1 := by decide
  refine ⟨n, [], [], [], rfl, rfl, unasked, ?_, ?_, fresh, nofun⟩
  · exact ⟨start, Nat.le_of_eq next, .inr next.symm, fun _ => behind, nofun⟩
  · exact .greeting ⟨.inl rfl, rfl, told.symm, rfl, next.symm⟩

/-- Whether nothing ends the service: the codec has room for all messages of both sides,
    and the listener takes what it is told. -/
structure Suits (setup : Setup Connection (ρ × List Notice)) (l : Listener ρ) (b : Beginning)
    (log : CommitLog) (wrote : List Message) : Prop where
  takes : l.Takes
  sends : ∀ m, b.Sends setup.master log m → m.body.length ≤ setup.codec.limit
  responses : ∀ m ∈ wrote, m.body.length ≤ setup.codec.limit

theorem Suits.of_extends {log log' : CommitLog} (h : Suits setup l b log' wrote)
    (longer : log'.Extends log) : Suits setup l b log wrote :=
  ⟨h.takes, fun m sends => h.sends m (sends.of_extends longer), h.responses⟩

/-- Whether each message that the codec lets through has a size that a header can tell. -/
def Framed (setup : Setup Connection (ρ × List Notice)) (b : Beginning) (log : CommitLog) : Prop :=
  ∀ m, b.Sends setup.master log m → m.body.length ≤ setup.codec.limit → m.body.length < 2 ^ 31

theorem Framed.of_extends {log log' : CommitLog} (h : Framed setup b log')
    (longer : log'.Extends log) : Framed setup b log :=
  fun m sends => h m (sends.of_extends longer)

end Feeding

end Replication.Feeder
