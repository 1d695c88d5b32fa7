import Replication.Proofs.Feeder.Account
import Replication.Proofs.Feeder.Loops

/-! # What a feeder ships

A move of a loop keeps the account of a service, unless the loop ends because a message was
too large or the listener refused it.
-/

namespace Replication.Feeder.Feeding

open Replication.Link (Connection)
open Replication.Log (CommitLog Custody Positioned Record Source)
open Replication.Stream (Carries Message Session)

variable {ρ : Type} {l : Listener ρ} {setup : Setup Connection (ρ × List Notice)} {b : Beginning}
  {s : Feeding Connection (ρ × List Notice)} {n : Nat} {taken : List Message} {part : Octets}

/-! ## Parts of a move -/

section Moves

variable {σ τ : Type} {setup : Setup σ τ} {x : EStateM FeederError (Feeding σ τ) Unit}
  {s s₁ : Feeding σ τ} {output : OutputLoop}

theorem outputMove_ok (done : x s = .ok () s₁) :
    (s.outputMove setup do x; return output) = s₁.update ({ · with output }) := by
  rw [outputMove, bind_eq_of_ok done]
  rfl

theorem ended_outputMove {e : FeederError} (failed : x s = .error e s₁) :
    Ended (s.outputMove setup do x; return output) := by
  rw [outputMove, bind_eq_of_error failed]
  exact .inl rfl

end Moves

section Fetching

variable {σ τ : Type} {setup : Setup σ τ} {s : Feeding σ τ} (output : s.feeder.output = .fetching)
  (next : s.feeder.next = n + 1)
  (behind : Source.Behind s.log n ⟨s.feeder.source, s.protector⟩) (due : Bool) (now : Int64)

include output next behind

theorem outputStep_of_waiting (waiting : s.log.durable ≤ n) :
    s.outputStep setup due now = s.update ({ · with output := .requesting }) := by
  have fetched := behind.fetch_of_waiting (s.feeder.replicaType ≠ .arbiter) waiting
  rw [← next] at fetched
  have nothing : fetch s = .ok none s := by
    unfold fetch
    dsimp only
    rw [fetched]
  rw [outputStep, output]
  dsimp only
  rw [outputMove, bind_eq_of_ok nothing]
  rfl

theorem outputStep_of_durable (durable : n < s.log.durable) :
    ∃ r record c, r.position = n ∧ s.log.records[n]? = some record ∧
      shipment s.feeder.replicaType r = shipment s.feeder.replicaType ⟨record, n⟩ ∧
      s.outputStep setup due now = update (fun f => { f with
        source := c.source, output := .shipping r }) { s with protector := c.protector } ∧
      Source.Behind s.log (n + 1) c := by
  obtain ⟨record, c, there, fetched, behind'⟩ :=
    behind.fetch_of_durable (s.feeder.replicaType ≠ .arbiter) durable
  rw [← next] at fetched
  let r : Positioned :=
    ⟨if s.feeder.replicaType ≠ .arbiter then record else { record with beforeImage := [] }, n⟩
  have got : fetch s = .ok (some r)
      { s with protector := c.protector, feeder := { s.feeder with source := c.source } } := by
    unfold fetch
    dsimp only
    rw [fetched]
    simp only [decide_eq_true_eq, r]
  refine ⟨r, record, c, rfl, there, ?_, ?_, behind'⟩
  · -- An arbiter's record has lost its before image, which its shipment does not tell.
    dsimp only [r]
    split
    next => rfl
    next arbiter =>
      rw [Decidable.not_not.1 arbiter]
      exact shipment_arbiter record n
  · rw [outputStep, output]
    dsimp only
    rw [outputMove, bind_eq_of_ok got]
    rfl

end Fetching

section Shipping

variable {σ τ : Type} {setup : Setup σ τ} {s s₁ : Feeding σ τ} {r : Positioned}

/-- Nothing is sent, but the record counts as passed. -/
theorem ship_of_none (silent : shipment s.feeder.replicaType r = none) :
    ship setup r s = .ok () (s.update ({ · with next := (r.vlsn : Int) + 1 })) := by
  rw [ship, get_bind, silent]
  rfl

variable {m : Message} (ships : shipment s.feeder.replicaType r = some m)

include ships

theorem ship_of_sent (sent : send setup m s = .ok () s₁) :
    ship setup r s = .ok () (s₁.update fun f =>
      { f with shipped := f.shipped + 1, next := (r.vlsn : Int) + 1 }) := by
  rw [ship, get_bind, ships]
  dsimp only
  rw [bind_eq_of_ok sent]
  rfl

theorem ship_of_unsent {e : FeederError} (unsent : send setup m s = .error e s₁) :
    ship setup r s = .error e s₁ := by
  rw [ship, get_bind, ships]
  dsimp only
  rw [bind_eq_of_error unsent]

end Shipping

theorem send_eq_error_of_large {m : Message} (large : setup.codec.limit < m.body.length) :
    ∃ e, send setup m s = .error e s := by
  refine ⟨.stream (.codec (.tooLarge m.op m.body.length setup.codec.limit)), ?_⟩
  rw [send, onSession, Session.send_eq_error_of_large large]

section Sessions

variable (accepts : setup.transport = Connection.transport .accepter) {up down : Octets}
  {m : Message}

include accepts

theorem send_eq_ok (carries : Carries s.session.link up down)
    (fits : m.body.length ≤ setup.codec.limit) :
    ∃ session, send setup m s = .ok () { s with session } ∧
      Carries session.link up (down ++ m.frame) := by
  obtain ⟨session, sent, carries'⟩ := carries.send fits
  refine ⟨session, ?_, carries'⟩
  rw [send, onSession, accepts, sent]

theorem receive_eq_ok (carries : Carries s.session.link (m.frame ++ up) down)
    (short : m.body.length < 2 ^ 31) (fits : m.body.length ≤ setup.codec.limit) :
    ∃ session,
      onSession (Session.receive setup.codec setup.transport) s = .ok m { s with session } ∧
        Carries session.link up down := by
  obtain ⟨session, received, carries'⟩ := carries.receive short fits
  refine ⟨session, ?_, carries'⟩
  rw [onSession, accepts, received]

theorem receive_eq_error_of_large (carries : Carries s.session.link (m.frame ++ up) down)
    (short : m.body.length < 2 ^ 31) (large : setup.codec.limit < m.body.length) :
    ∃ e s', onSession (Session.receive setup.codec setup.transport) s = .error e s' := by
  obtain ⟨e, session, failed⟩ := carries.receive_of_large short large
  refine ⟨.stream e, { s with session }, ?_⟩
  rw [onSession, accepts, failed]

section Handshake

variable {id : Int32}
  (carries : Carries s.session.link
    ((Message.clientVersion Stream.streamVersion b.name id b.type).frame ++ up) down)
  (short : (Message.clientVersion Stream.streamVersion b.name id b.type).body.length < 2 ^ 31)

include carries short

theorem introduction_eq_ok (fits : (Message.clientVersion Stream.streamVersion b.name id
    b.type).body.length ≤ setup.codec.limit) :
    ∃ session, onSession (Session.receiveAs setup.codec setup.transport fun
        | .clientVersion version name _ type => some (version, name, type)
        | _ => none) s = .ok (Stream.streamVersion, b.name, b.type) { s with session } ∧
      Carries session.link up down := by
  obtain ⟨session, received, carries'⟩ := carries.receive short fits
  rw [← accepts] at received
  refine ⟨session, ?_, carries'⟩
  rw [onSession, Session.receiveAs, bind_eq_of_ok received]
  rfl

theorem handshake_eq_ok (fits : (Message.clientVersion Stream.streamVersion b.name id
      b.type).body.length ≤ setup.codec.limit)
    (fits' : (Message.serverVersion Stream.streamVersion setup.master.name
      setup.master.id).body.length ≤ setup.codec.limit) :
    ∃ session, handshake setup s = .ok () (update (fun f => { f with
        replicaName := b.name, replicaType := b.type }) { s with session }) ∧
      Carries session.link up (down ++ (Message.serverVersion Stream.streamVersion
        setup.master.name setup.master.id).frame) := by
  obtain ⟨session, introduced, carries'⟩ := introduction_eq_ok accepts carries short fits
  let s₁ : Feeding Connection (ρ × List Notice) := update (fun f => { f with
    replicaName := b.name, replicaType := b.type }) { s with session }
  obtain ⟨session', sent, carries''⟩ := send_eq_ok (s := s₁) accepts carries' fits'
  refine ⟨session'.setTimeout setup.transport setup.replicaTimeout,
    (bind_eq_of_ok introduced).trans ?_, ?_⟩
  · dsimp only
    rw [if_neg fun other => other rfl, modify_bind, bind_eq_of_ok sent]
    rfl
  · rw [Session.setTimeout, accepts]
    exact carries''.setTimeout .accepter _

theorem handshake_eq_error (large : (Message.clientVersion Stream.streamVersion b.name id
      b.type).body.length ≤ setup.codec.limit →
    setup.codec.limit < (Message.serverVersion Stream.streamVersion setup.master.name
      setup.master.id).body.length) :
    ∃ e s', handshake setup s = .error e s' := by
  by_cases fits : (Message.clientVersion Stream.streamVersion b.name id b.type).body.length ≤
      setup.codec.limit
  · obtain ⟨session, introduced, -⟩ := introduction_eq_ok accepts carries short fits
    let s₁ : Feeding Connection (ρ × List Notice) := update (fun f => { f with
      replicaName := b.name, replicaType := b.type }) { s with session }
    obtain ⟨e, failed⟩ := send_eq_error_of_large (s := s₁) (large fits)
    refine ⟨e, s₁, (bind_eq_of_ok introduced).trans ?_⟩
    dsimp only
    rw [if_neg fun other => other rfl, modify_bind, bind_eq_of_error failed]
  · obtain ⟨e, session, failed⟩ := carries.receive_of_large short (Nat.not_le.1 fits)
    rw [← accepts] at failed
    refine ⟨.stream e, { s with session }, bind_eq_of_error ?_⟩
    rw [onSession, Session.receiveAs, bind_eq_of_error failed]

end Handshake

end Sessions

/-! ## Moves of the output loop -/

/-- A move that has no record in hand, before or after it, leaves the place as it is. -/
theorem Place.move (h : Place b s n) (idle : s.feeder.output.inHand = none)
    {session : Session Connection} {output : OutputLoop} (idle' : output.inHand = none) :
    Place b (update ({ · with output }) { s with session }) n :=
  ⟨h.next, h.first_le, h.within, fun _ => h.behind idle,
    fun _ hand => nomatch idle'.symm.trans hand⟩

theorem Serving.move {heard stream : List Message} (h : Serving b s n heard stream)
    {output : OutputLoop} (serves : output.isServing = true) :
    Serving b (s.update ({ · with output })) n heard stream :=
  ⟨h.name, h.type, serves, h.input, h.told, h.emitted⟩

section Output

variable (accepts : setup.transport = Connection.transport .accepter)
  {received up down : List Message} (h : Account setup b s n received up taken down part)

include h

theorem Account.serving (serves : s.feeder.output.isServing = true) :
    ∃ id heard stream,
      received = .clientVersion Stream.streamVersion b.name id b.type :: heard ∧
      taken ++ down =
        .serverVersion Stream.streamVersion setup.master.name setup.master.id :: stream ∧
      Serving b s n heard stream := by
  have phase := h.phase
  generalize taken ++ down = sent at phase
  cases phase with
  | greeting g =>
    rcases g.output with output | output <;> rw [output] at serves <;> cases serves
  | serving id serving => exact ⟨id, _, _, rfl, rfl, serving⟩

theorem Account.greeting (greets : s.feeder.output = .starting ∨ s.feeder.output = .handshaking) :
    received = [] ∧ taken = [] ∧ down = [] ∧ Greeting b s n := by
  have phase := h.phase
  generalize sent : taken ++ down = all at phase
  cases phase with
  | greeting g =>
    obtain ⟨none, nothing⟩ := List.append_eq_nil_iff.1 sent
    exact ⟨rfl, none, nothing, g⟩
  | serving id serving =>
    have serves := serving.output
    rcases greets with output | output <;> rw [output] at serves <;> cases serves

include accepts in
theorem Account.starting (output : s.feeder.output = .starting) (due : Bool) (now : Int64) :
    Account setup b (s.outputStep setup due now) n received up taken down part := by
  obtain ⟨rfl, rfl, rfl, g⟩ := h.greeting (.inl output)
  have moved : s.outputStep setup due now = update ({ · with output := .handshaking })
      { s with session := s.session.setTimeout setup.transport setup.preHeartbeatTimeout } := by
    rw [outputStep, output]
    exact outputMove_ok rfl
  rw [moved]
  refine ⟨h.running, h.unasked, h.place.move (by rw [output]; rfl) rfl,
    .greeting ⟨.inr rfl, g.input, g.told, g.heartbeats, g.first⟩, ?_, h.sized⟩
  have link : (s.session.setTimeout setup.transport setup.preHeartbeatTimeout).link =
      s.session.link.setTimeout .accepter setup.preHeartbeatTimeout := by
    rw [Session.setTimeout, accepts]
    rfl
  dsimp only [update]
  rw [link]
  exact h.carries.setTimeout _ _

theorem Account.requesting (output : s.feeder.output = .requesting) (due : Bool) (now : Int64) :
    Account setup b (s.outputStep setup due now) n received up taken down part := by
  obtain ⟨id, heard, stream, got, sent, serving⟩ := h.serving (by rw [output]; rfl)
  -- Nobody asks for a shutdown, so nothing is sent here.
  have silent : request setup s = .ok () s := by
    rw [request, get_bind, if_neg fun asked => h.unasked asked.1]
    rfl
  have moved : s.outputStep setup due now = s.update ({ · with output := .beating }) := by
    rw [outputStep, output]
    dsimp only
    rw [if_neg (by rw [h.running]; decide)]
    exact outputMove_ok silent
  rw [moved]
  refine ⟨h.running, h.unasked, h.place.move (by rw [output]; rfl) rfl, ?_, h.carries, h.sized⟩
  rw [got, sent]
  exact .serving id (serving.move rfl)

include accepts in
theorem Account.carries_send {m : Message} (fits : m.body.length ≤ setup.codec.limit) :
    ∃ session, send setup m s = .ok () { s with session } ∧
      Carries session.link (up.flatMap Message.frame)
        (part ++ (down ++ [m]).flatMap Message.frame) := by
  obtain ⟨session, sent, carries⟩ := send_eq_ok accepts h.carries fits
  refine ⟨session, sent, ?_⟩
  rw [List.flatMap_append, List.flatMap_singleton, ← List.append_assoc]
  exact carries

theorem Account.sized_send {m : Message} (fits : m.body.length ≤ setup.codec.limit) :
    ∀ m', m' ∈ received ∨ m' ∈ taken ++ (down ++ [m]) → m'.body.length ≤ setup.codec.limit := by
  intro m' mem
  rw [← List.append_assoc] at mem
  rcases mem with got | sent
  · exact h.sized m' (.inl got)
  · rcases List.mem_append.1 sent with before | last
    · exact h.sized m' (.inr before)
    · obtain rfl := List.mem_singleton.1 last
      exact fits

include accepts in
theorem Account.beating (output : s.feeder.output = .beating) (due : Bool) (now : Int64) :
    (∃ down', Account setup b (s.outputStep setup due now) n received up taken down' part) ∨
      Ended (s.outputStep setup due now) ∧ ¬ Suits setup l b s.log (received ++ up) := by
  obtain ⟨id, heard, stream, got, sent, serving⟩ := h.serving (by rw [output]; rfl)
  have idle : s.feeder.output.inHand = none := by rw [output]; rfl
  rw [outputStep, output]
  dsimp only
  split
  next =>
    let m := Message.heartbeat (Int64.ofNat (s.feeder.heartbeats + 1)) now
      (Int64.ofNat s.log.durable)
    -- A heartbeat that was not sent is not counted.
    by_cases fits : m.body.length ≤ setup.codec.limit
    · left
      obtain ⟨session, done, carries⟩ := h.carries_send accepts fits
      have beaten : beat setup now s = .ok () (update (fun f =>
          { f with heartbeats := f.heartbeats + 1 }) { s with session }) := by
        rw [beat, get_bind, bind_eq_of_ok done]
        rfl
      rw [outputMove_ok beaten]
      refine ⟨down ++ [m], h.running, h.unasked, ?_, ?_, carries, h.sized_send fits⟩
      · exact ⟨h.place.next, h.place.first_le, h.place.within, fun _ => h.place.behind idle,
          fun _ hand => by cases hand⟩
      · rw [got, ← List.append_assoc, sent]
        exact .serving id ⟨serving.name, serving.type, rfl, serving.input, serving.told,
          serving.emitted.beat now _⟩
    · obtain ⟨e, failed⟩ := send_eq_error_of_large (s := s) (Nat.not_le.1 fits)
      have stopped : beat setup now s = .error e s := by
        rw [beat, get_bind, bind_eq_of_error failed]
      exact .inr ⟨ended_outputMove stopped, fun suits => fits (suits.sends m (.beat _ _ _))⟩
  next =>
    refine .inl ⟨down, h.running, h.unasked, h.place.move idle rfl, ?_, h.carries, h.sized⟩
    rw [got, sent]
    exact .serving id (serving.move rfl)

theorem Account.fetching (output : s.feeder.output = .fetching) (due : Bool) (now : Int64) :
    Account setup b (s.outputStep setup due now) n received up taken down part := by
  obtain ⟨id, heard, stream, got, sent, serving⟩ := h.serving (by rw [output]; rfl)
  have idle : s.feeder.output.inHand = none := by rw [output]; rfl
  have next := h.place.next
  have behind := h.place.behind idle
  by_cases durable : n < s.log.durable
  · obtain ⟨r, record, c, position, there, same, moved, behind'⟩ :=
      outputStep_of_durable output next behind due now durable
    rw [moved]
    refine ⟨h.running, h.unasked, ⟨next, h.place.first_le, h.place.within,
      fun idle => (by cases idle), ?_⟩, ?_, h.carries, h.sized⟩
    · intro r' hand
      obtain rfl := Option.some.inj hand
      exact ⟨behind', durable, position, record, there, serving.type ▸ same⟩
    · rw [got, sent]
      exact .serving id ⟨serving.name, serving.type, rfl, serving.input, serving.told,
        serving.emitted⟩
  · rw [outputStep_of_waiting output next behind due now (Nat.not_lt.1 durable)]
    refine ⟨h.running, h.unasked, h.place.move idle rfl, ?_, h.carries, h.sized⟩
    rw [got, sent]
    exact .serving id (serving.move rfl)

include accepts in
theorem Account.shipping {r : Positioned} (output : s.feeder.output = .shipping r) (due : Bool)
    (now : Int64) :
    (∃ n' down', Account setup b (s.outputStep setup due now) n' received up taken down' part) ∨
      Ended (s.outputStep setup due now) ∧ ¬ Suits setup l b s.log (received ++ up) := by
  obtain ⟨id, heard, stream, got, sent, serving⟩ := h.serving (by rw [output]; rfl)
  obtain ⟨behind, durable, position, record, there, same⟩ :=
    h.place.shipping r (by rw [output]; rfl)
  have next : ((r.vlsn : Nat) : Int) + 1 = ((n + 1 : Nat) : Int) + 1 := by
    rw [Positioned.vlsn, position]
  have first_le : b.first ≤ n + 1 := Nat.le_succ_of_le h.place.first_le
  rw [outputStep, output]
  dsimp only
  cases ships : shipment b.type r with
  | none =>
    rw [outputMove_ok (ship_of_none (serving.type ▸ ships))]
    rw [same] at ships
    refine .inl ⟨n + 1, down, h.running, h.unasked, ⟨next, first_le, .inl durable, fun _ => behind,
      fun _ hand => by cases hand⟩, ?_, h.carries, h.sized⟩
    rw [got, sent]
    exact .serving id ⟨serving.name, serving.type, rfl, serving.input, serving.told,
      serving.emitted.skip h.place.first_le there ships⟩
  | some m =>
    by_cases fits : m.body.length ≤ setup.codec.limit
    · left
      obtain ⟨session, done, carries⟩ := h.carries_send accepts fits
      rw [outputMove_ok (ship_of_sent (serving.type ▸ ships) done)]
      rw [same] at ships
      refine ⟨n + 1, down ++ [m], h.running, h.unasked, ⟨next, first_le, .inl durable,
        fun _ => behind, fun _ hand => by cases hand⟩, ?_, carries, h.sized_send fits⟩
      rw [got, ← List.append_assoc, sent]
      exact .serving id ⟨serving.name, serving.type, rfl, serving.input, serving.told,
        serving.emitted.ship h.place.first_le there ships⟩
    · obtain ⟨e, failed⟩ := send_eq_error_of_large (s := s) (Nat.not_le.1 fits)
      have stopped := ship_of_unsent (serving.type ▸ ships) failed
      rw [same] at ships
      -- The record in hand is durable, so a codec that suits has room for it.
      refine .inr ⟨ended_outputMove stopped, fun suits => fits (suits.sends m (.record ?_ ships))⟩
      exact CommitLog.mem_between.2 ⟨h.place.first_le, durable, there⟩

theorem Account.waiting (arrived : s.session.link.accepter.incoming ≠ []) :
    ∃ m rest, up = m :: rest := by
  cases up with
  | nil => exact absurd h.carries.up arrived
  | cons m rest => exact ⟨m, rest, rfl⟩

include accepts in
theorem Account.handshaking (output : s.feeder.output = .handshaking)
    (arrived : s.session.link.accepter.incoming ≠ []) (spoken : Spoken b (received ++ up))
    (short : ∀ m ∈ received ++ up, m.body.length < 2 ^ 31) (due : Bool) (now : Int64) :
    (∃ received' up' down', received' ++ up' = received ++ up ∧
      Account setup b (s.outputStep setup due now) n received' up' taken down' part) ∨
      Ended (s.outputStep setup due now) ∧ ¬ Suits setup l b s.log (received ++ up) := by
  obtain ⟨rfl, rfl, rfl, g⟩ := h.greeting (.inr output)
  obtain ⟨m, rest, rfl⟩ := h.waiting arrived
  cases spoken with
  | cons id only =>
    rw [outputStep, output]
    dsimp only
    have short := short _ List.mem_cons_self
    -- Each side tells its name, and either name may be too long for a message.
    by_cases fits : (Message.clientVersion Stream.streamVersion b.name id b.type).body.length ≤
        setup.codec.limit ∧ (Message.serverVersion Stream.streamVersion setup.master.name
          setup.master.id).body.length ≤ setup.codec.limit
    · obtain ⟨session, greeted, carries⟩ :=
        handshake_eq_ok accepts h.carries short fits.1 fits.2
      rw [outputMove_ok greeted]
      refine .inl ⟨[_], rest, [_], rfl, h.running, h.unasked, ⟨h.place.next, h.place.first_le,
        h.place.within, fun _ => h.place.behind (by rw [output]; rfl), fun _ hand => by cases hand⟩,
        .serving id ⟨rfl, rfl, rfl, .inl g.input, ?_, ?_⟩, ?_, ?_⟩
      · exact g.told.trans (List.append_nil _).symm
      · have none : Emitted s.log b.type b.first n s.feeder.heartbeats [] := by
          rw [g.heartbeats, g.first]
          exact .nil
        exact none
      · rw [List.flatMap_nil, List.append_nil] at carries
        rw [List.flatMap_singleton]
        exact carries
      · rintro m (got | sent)
        · obtain rfl := List.mem_singleton.1 got
          exact fits.1
        · obtain rfl := List.mem_singleton.1 sent
          exact fits.2
    · obtain ⟨e, s', failed⟩ := handshake_eq_error accepts h.carries short
        fun fits' => Nat.not_le.1 fun fits'' => fits ⟨fits', fits''⟩
      refine .inr ⟨ended_outputMove failed, fun suits => fits ⟨?_, suits.sends _ .greeting⟩⟩
      exact suits.responses _ List.mem_cons_self

end Output

/-! ## Moves of the input loop -/

section Reading

variable {σ τ : Type} {setup : Setup σ τ} {s s₁ s₂ : Feeding σ τ}
  (input : s.feeder.input = .reading) (running : s.feeder.cancelled = false)

include input running

theorem inputStep_ok {m : Message}
    (received : onSession (Session.receive setup.codec setup.transport) s = .ok m s₁)
    (told : listen setup m s₁ = .ok () s₂) : s.inputStep setup = s₂ := by
  rw [inputStep, input]
  dsimp only
  rw [if_neg (by rw [running]; decide), bind_eq_of_ok received, told]

theorem ended_inputStep {e : FeederError}
    (failed : (onSession (Session.receive setup.codec setup.transport) >>= listen setup) s =
      .error e s₁) : Ended (s.inputStep setup) := by
  rw [inputStep, input]
  dsimp only
  rw [if_neg (by rw [running]; decide)]
  rw [failed]
  exact .inr rfl

end Reading

section Input

variable (accepts : setup.transport = Connection.transport .accepter)
  (hears : setup.listener = l.recorded) {received up down : List Message}
  (h : Account setup b s n received up taken down part)

include h

theorem Account.awaiting (input : s.feeder.input = .waiting) :
    Account setup b (s.inputStep setup) n received up taken down part := by
  have phase := h.phase
  rw [inputStep, input]
  generalize sent : taken ++ down = all at phase
  cases phase with
  | greeting g => rcases g.output with output | output <;> rw [output] <;> exact h
  | @serving id heard stream serving =>
    have reads : Account setup b (s.update ({ · with input := .reading })) n
        (.clientVersion Stream.streamVersion b.name id b.type :: heard) up taken down part := by
      refine ⟨h.running, h.unasked, ⟨h.place.next, h.place.first_le, h.place.within, h.place.behind,
        h.place.shipping⟩, ?_, h.carries, h.sized⟩
      rw [sent]
      exact .serving id ⟨serving.name, serving.type, serving.output, .inr rfl, serving.told,
        serving.emitted⟩
    have serves := serving.output
    cases output : s.feeder.output with
    | requesting | beating | fetching | shipping r => exact reads
    | _ =>
      rw [output] at serves
      cases serves

include accepts hears in
theorem Account.reading (input : s.feeder.input = .reading)
    (arrived : s.session.link.accepter.incoming ≠ []) (spoken : Spoken b (received ++ up))
    (short : ∀ m ∈ received ++ up, m.body.length < 2 ^ 31) :
    (∃ received' up', received' ++ up' = received ++ up ∧
      Account setup b (s.inputStep setup) n received' up' taken down part) ∨
      Ended (s.inputStep setup) ∧ ¬ Suits setup l b s.log (received ++ up) := by
  obtain ⟨m, rest, rfl⟩ := h.waiting arrived
  have mem : m ∈ received ++ m :: rest := List.mem_append_right _ List.mem_cons_self
  have phase := h.phase
  generalize sent : taken ++ down = all at phase
  cases phase with
  | greeting g => rw [g.input] at input; cases input
  | @serving id heard stream serving =>
    have response : isResponse m = true := by
      cases spoken with
      | cons _ only => exact only m (List.mem_append_right _ List.mem_cons_self)
    by_cases fits : m.body.length ≤ setup.codec.limit
    · obtain ⟨session, got, carries⟩ := receive_eq_ok accepts h.carries (short m mem) fits
      -- The response has left the link by now, so the loop ends if the listener refuses it.
      cases result : listen setup m { s with session } with
      | ok u s' =>
        rw [inputStep_ok input h.running got result]
        obtain ⟨told, heard'⟩ := listen_ok hears response result
        obtain ⟨listener, acks, rfl⟩ := told
        refine .inl ⟨.clientVersion Stream.streamVersion b.name id b.type :: (heard ++ [m]), rest,
          by simp, h.running, h.unasked, ⟨h.place.next, h.place.first_le, h.place.within,
            h.place.behind, h.place.shipping⟩, ?_, carries, ?_⟩
        case refine_2 =>
          rintro m' (got | sent)
          · rcases List.mem_cons.1 got with rfl | later
            · exact h.sized _ (.inl List.mem_cons_self)
            · rcases List.mem_append.1 later with before | last
              · exact h.sized m' (.inl (List.mem_cons_of_mem _ before))
              · obtain rfl := List.mem_singleton.1 last
                exact fits
          · exact h.sized m' (.inr sent)
        rw [sent]
        refine .serving id ⟨serving.name, serving.type, serving.output, serving.input, ?_,
          serving.emitted⟩
        have name : s.feeder.replicaName = b.name := serving.name
        rw [List.flatMap_append, List.flatMap_singleton, ← List.append_assoc, ← serving.told,
          ← name]
        exact heard'
      | error e s' =>
        refine .inr ⟨ended_inputStep input h.running ((bind_eq_of_ok got).trans result), ?_⟩
        intro suits
        obtain ⟨s'', took⟩ := listen_total hears suits.takes response { s with session }
        cases result.symm.trans took
    · obtain ⟨e, s₁, failed⟩ := receive_eq_error_of_large accepts h.carries (short m mem)
        (Nat.not_le.1 fits)
      exact .inr ⟨ended_inputStep input h.running (bind_eq_of_error failed),
        fun suits => fits (suits.responses m mem)⟩

end Input

/-! ## A step of a loop -/

section Steps

variable (accepts : setup.transport = Connection.transport .accepter)
  (hears : setup.listener = l.recorded) {received up down : List Message}
  (h : Account setup b s n received up taken down part) (spoken : Spoken b (received ++ up))
  (short : ∀ m ∈ received ++ up, m.body.length < 2 ^ 31)

include accepts h spoken short

theorem Account.outputStep (ready : s.feeder.output = .handshaking →
      s.session.link.accepter.incoming ≠ []) (due : Bool) (now : Int64) :
    Sound setup b (received ++ up) taken part (s.outputStep setup due now) ∨
      Ended (s.outputStep setup due now) ∧ ¬ Suits setup l b s.log (received ++ up) := by
  cases output : s.feeder.output with
  | idle | done =>
    have moved : s.outputStep setup due now = s := by rw [Feeding.outputStep, output]
    rw [moved]
    exact .inl ⟨n, received, up, down, rfl, h⟩
  | starting => exact .inl ⟨n, received, up, down, rfl, h.starting accepts output due now⟩
  | handshaking =>
    rcases h.handshaking accepts output (ready output) spoken short due now with
      ⟨received', up', down', same, account⟩ | lost
    · exact .inl ⟨n, received', up', down', same, account⟩
    · exact .inr lost
  | requesting => exact .inl ⟨n, received, up, down, rfl, h.requesting output due now⟩
  | beating =>
    rcases h.beating accepts output due now with ⟨down', account⟩ | lost
    · exact .inl ⟨n, received, up, down', rfl, account⟩
    · exact .inr lost
  | fetching => exact .inl ⟨n, received, up, down, rfl, h.fetching output due now⟩
  | shipping r =>
    rcases h.shipping accepts output due now with ⟨n', down', account⟩ | lost
    · exact .inl ⟨n', received, up, down', rfl, account⟩
    · exact .inr lost

include hears in
theorem Account.inputStep (ready : s.feeder.input = .reading →
      s.session.link.accepter.incoming ≠ []) :
    Sound setup b (received ++ up) taken part (s.inputStep setup) ∨
      Ended (s.inputStep setup) ∧ ¬ Suits setup l b s.log (received ++ up) := by
  cases input : s.feeder.input with
  | idle | done =>
    have moved : s.inputStep setup = s := by rw [Feeding.inputStep, input]
    rw [moved]
    exact .inl ⟨n, received, up, down, rfl, h⟩
  | waiting => exact .inl ⟨n, received, up, down, rfl, h.awaiting input⟩
  | reading =>
    rcases h.reading accepts hears input (ready input) spoken short with
      ⟨received', up', same, account⟩ | lost
    · exact .inl ⟨n, received', up', down, same, account⟩
    · exact .inr lost

end Steps

/-! ## Changes of the log -/

section Changes

variable {received up down : List Message}

/-- A log that grows keeps what is in hand. -/
theorem Account.of_extends (h : Account setup b s n received up taken down part) {log : CommitLog}
    (longer : log.Extends s.log)
    (behind : ∀ {n c}, Source.Behind s.log n c → c.protector = s.protector → Source.Behind log n c) :
    Account setup b { s with log } n received up taken down part := by
  refine ⟨h.running, h.unasked, ⟨h.place.next, h.place.first_le, ?_, ?_, ?_⟩, ?_, h.carries,
    h.sized⟩
  · exact h.place.within.imp_left fun within => Nat.le_trans within longer.durable
  · exact fun idle => behind (h.place.behind idle) rfl
  · intro r hand
    obtain ⟨behind', before, position, record, there, same⟩ := h.place.shipping r hand
    exact ⟨behind behind' rfl, Nat.lt_of_lt_of_le before longer.durable, position, record,
      longer.getElem?_eq there, same⟩
  · have phase := h.phase
    generalize taken ++ down = sent at phase
    cases phase with
    | greeting g => exact .greeting ⟨g.output, g.input, g.told, g.heartbeats, g.first⟩
    | serving id serving =>
      exact .serving id ⟨serving.name, serving.type, serving.output, serving.input, serving.told,
        serving.emitted.of_extends longer h.place.within⟩

theorem Account.append (h : Account setup b s n received up taken down part) (r : Record) :
    Account setup b { s with log := s.log.append r } n received up taken down part :=
  h.of_extends (CommitLog.extends_append r) fun behind _ => behind.append r

theorem Account.markDurable (h : Account setup b s n received up taken down part) {vlsn : Int}
    {log : CommitLog} (done : s.log.markDurable vlsn = .ok log) :
    Account setup b { s with log } n received up taken down part :=
  h.of_extends (CommitLog.extends_markDurable done) fun behind _ => behind.markDurable done

theorem Account.clean (h : Account setup b s n received up taken down part) :
    Account setup b { s with log := s.log.clean s.protector } n received up taken down part :=
  h.of_extends (CommitLog.extends_clean s.protector) fun behind same => same ▸ behind.clean

end Changes

end Replication.Feeder.Feeding
