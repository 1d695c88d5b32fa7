import Replication.Feeder.Watched
import Replication.Proofs.Feeder.Account
import Replication.Proofs.Feeder.Loops

/-! # What a feeder writes beside the records

Over a recorded link each message that is sent adds its frame to what was written, and
nothing else does.  Most parts of a move are `Quiet`: they ship no record, they leave the
feeder where it is in the log, and if they fail it is not the source's fault.
-/

namespace Replication.Feeder

open Replication.Link (Transport)
open Replication.Log (CommitLog FileProtector Source)
open Replication.Stream (Codec Message Session)

variable {σ ρ α β γ : Type} {t : Transport σ}

/-! ## Recorded links -/

section Recorded

variable {l l' : σ × List Octets} {bytes : Octets}

theorem keeps_read (t : Transport σ) (n : Nat) : Keeps Prod.snd (t.recorded.read n) := by
  intro l
  simp only [Transport.recorded]
  cases t.read n l.1 <;> rfl

theorem write_recorded_ok (done : t.recorded.write bytes l = .ok () l') :
    l'.2 = l.2 ++ [bytes] := by
  simp only [Transport.recorded] at done
  cases wrote : t.write bytes l.1 with
  | ok u link =>
    rw [wrote] at done
    cases done
    rfl
  | error e link =>
    rw [wrote] at done
    cases done

theorem write_recorded_error {e : Link.LinkError}
    (failed : t.recorded.write bytes l = .error e l') :
    l'.2 = l.2 := by
  simp only [Transport.recorded] at failed
  cases wrote : t.write bytes l.1 with
  | ok u link =>
    rw [wrote] at failed
    cases failed
  | error e' link =>
    rw [wrote] at failed
    cases failed
    rfl

end Recorded

section Sessions

variable {c : Codec} {m : Message} {s s' : Session (σ × List Octets)}

theorem keeps_onLink {x : EStateM Link.LinkError (σ × List Octets) α} (kept : Keeps Prod.snd x) :
    Keeps (fun s : Session (σ × List Octets) => s.link.2) (Session.onLink x) := by
  intro s
  unfold Session.onLink
  cases done : x s.link with
  | ok a link => exact kept.of_ok done
  | error e link => exact kept.of_error done

theorem keeps_liftCodec (x : Except Stream.CodecError α) :
    Keeps (fun s : Session (σ × List Octets) => s.link.2) (Session.liftCodec x) := by
  cases x with
  | ok a => exact .pure a
  | error e => exact .throw _

/-- What is received is not written. -/
theorem keeps_receive (c : Codec) (t : Transport σ) :
    Keeps (fun s : Session (σ × List Octets) => s.link.2) (Session.receive c t.recorded) := by
  refine .bind (keeps_onLink (keeps_read t _)) fun bytes =>
    .bind (keeps_liftCodec _) fun header => ?_
  dsimp only
  split
  · exact .bind (.pure _) fun _ => .bind (keeps_liftCodec _) fun m =>
      .bind (.modify fun _ => rfl) fun _ => .pure m
  · exact .bind (keeps_onLink (keeps_read t _)) fun _ => .bind (keeps_liftCodec _) fun m =>
      .bind (.modify fun _ => rfl) fun _ => .pure m

theorem send_recorded_ok (done : Session.send c t.recorded m s = .ok () s') :
    s'.link.2 = s.link.2 ++ [m.frame] ∧ m.body.length ≤ c.limit := by
  have fits := Session.length_le_of_send done
  refine ⟨?_, fits⟩
  cases wrote : t.recorded.write m.frame s.link with
  | ok u link =>
    rw [Session.send_eq_ok fits wrote] at done
    cases done
    exact write_recorded_ok wrote
  | error e link =>
    have encoded : Session.liftCodec (c.encode m) s = .ok m.frame s := by
      rw [Codec.encode, if_pos fits]
      rfl
    have broke := Session.onLink_eq_error wrote
    rw [Session.send, bind_eq_of_ok encoded, bind_eq_of_error broke] at done
    cases done

theorem send_recorded_error {e : Stream.StreamError}
    (failed : Session.send c t.recorded m s = .error e s') : s'.link.2 = s.link.2 := by
  rcases bind_eq_error failed with refused | ⟨frame, s₁, encoded, failed⟩
  · exact (keeps_liftCodec _).of_error refused
  · rcases bind_eq_error failed with broke | ⟨u, s₂, wrote, failed⟩
    · rw [← (keeps_liftCodec _).of_ok encoded]
      unfold Session.onLink at broke
      cases written : t.recorded.write frame s₁.link with
      | ok u link =>
        rw [written] at broke
        cases broke
      | error e link =>
        rw [written] at broke
        cases broke
        exact write_recorded_error written
    · cases failed

theorem keeps_receiveAs (c : Codec) (t : Transport σ) (pick : Message → Option α) :
    Keeps (fun s : Session (σ × List Octets) => s.link.2)
      (Session.receiveAs c t.recorded pick) := by
  refine .bind (keeps_receive c t) fun m => ?_
  cases m.expect pick with
  | ok a => exact .pure a
  | error e => exact .throw e

end Sessions

def FeederError.isSource : FeederError → Bool
  | .source _ => true
  | _ => false

namespace Feeding

variable {setup : Setup (σ × List Octets) ρ} {s s' s₁ : Feeding (σ × List Octets) ρ}

/-! ## What a feeder has written -/

section Written

variable (records : setup.transport = t.recorded)

include records

theorem sent_of_send {m : Message} (done : send setup m s = .ok () s') :
    ∃ session, s' = { s with session } ∧ session.link.2 = s.written ++ [m.frame] ∧
      m.body.length ≤ setup.codec.limit := by
  rw [send, records, onSession] at done
  split at done
  next u session sent =>
    cases done
    exact ⟨session, rfl, send_recorded_ok sent⟩
  next => cases done

theorem written_close : (s.session.close setup.transport).link.2 = s.session.link.2 := by
  rw [Session.close, records]
  rfl

theorem written_fail (e : FeederError) : (s.fail setup e).written = s.written := by
  unfold fail
  split
  · rfl
  · exact written_close records

end Written

/-! ## Moves that ship nothing -/

/-- Where a feeder is in the log, and what it has to show for it. -/
structure Whereabouts where
  log : CommitLog
  protector : FileProtector
  source : Source
  next : Int
  output : OutputLoop
  type : NodeType
  shipped : Nat
  error : Option FeederError

def whereabouts (s : Feeding σ ρ) : Whereabouts where
  log := s.log
  protector := s.protector
  source := s.feeder.source
  next := s.feeder.next
  output := s.feeder.output
  type := s.feeder.replicaType
  shipped := s.feeder.shipped
  error := s.feeder.error

/-- The same, whoever the client is. -/
def approach (s : Feeding σ ρ) : Whereabouts := { s.whereabouts with type := .electable }

/-- Whether a feeder stays where it is, up to what is not seen of it, and writes no more than
    messages that ship nothing. -/
def Aside (view : Feeding (σ × List Octets) ρ → γ) (s s' : Feeding (σ × List Octets) ρ) : Prop :=
  view s' = view s ∧
    ∃ ms : List Message, s'.written = s.written ++ ms.map Message.frame ∧ ms.filter isShipment = []

theorem Aside.of_written {view : Feeding (σ × List Octets) ρ → γ} (seen : view s' = view s)
    (written : s'.written = s.written) : Aside view s s' :=
  ⟨seen, [], written.trans (List.append_nil _).symm, rfl⟩

theorem Aside.trans {view : Feeding (σ × List Octets) ρ → γ} (h : Aside view s s₁)
    (h' : Aside view s₁ s') : Aside view s s' := by
  obtain ⟨seen, ms, written, silent⟩ := h
  obtain ⟨seen', ms', written', silent'⟩ := h'
  refine ⟨seen'.trans seen, ms ++ ms', ?_, ?_⟩
  · rw [written', written, List.map_append, List.append_assoc]
  · rw [List.filter_append, silent, silent']
    rfl

/-- Whether a part of a move does no more than that, and does not find fault with the source. -/
def Quiet (view : Feeding (σ × List Octets) ρ → γ)
    (x : EStateM FeederError (Feeding (σ × List Octets) ρ) α) : Prop :=
  ∀ s, match x s with
    | .ok _ s' => Aside view s s'
    | .error e s' => Aside view s s' ∧ e.isSource = false

namespace Quiet

variable {view : Feeding (σ × List Octets) ρ → γ}

theorem of_ok {x : EStateM FeederError (Feeding (σ × List Octets) ρ) α} (h : Quiet view x) {a : α}
    (done : x s = .ok a s') : Aside view s s' := by
  have quiet := h s
  rwa [done] at quiet

theorem of_error {x : EStateM FeederError (Feeding (σ × List Octets) ρ) α} (h : Quiet view x)
    {e : FeederError} (failed : x s = .error e s') : Aside view s s' ∧ e.isSource = false := by
  have quiet := h s
  rwa [failed] at quiet

theorem pure (a : α) :
    Quiet view (pure a : EStateM FeederError (Feeding (σ × List Octets) ρ) α) :=
  fun _ => .of_written rfl rfl

theorem get : Quiet view (get : EStateM FeederError (Feeding (σ × List Octets) ρ) _) :=
  fun _ => .of_written rfl rfl

theorem throw {e : FeederError} (other : e.isSource = false) :
    Quiet view (throw e : EStateM FeederError (Feeding (σ × List Octets) ρ) α) :=
  fun _ => ⟨.of_written rfl rfl, other⟩

theorem modify {f : Feeding (σ × List Octets) ρ → Feeding (σ × List Octets) ρ}
    (seen : ∀ s, view (f s) = view s) (written : ∀ s, (f s).written = s.written) :
    Quiet view (modify f : EStateM FeederError _ Unit) :=
  fun s => .of_written (seen s) (written s)

theorem bind {x : EStateM FeederError (Feeding (σ × List Octets) ρ) α}
    {f : α → EStateM FeederError (Feeding (σ × List Octets) ρ) β} (first : Quiet view x)
    (next : ∀ a, Quiet view (f a)) : Quiet view (x >>= f) := by
  intro s
  cases done : x s with
  | ok a s₁ =>
    have aside := first.of_ok done
    rw [bind_eq_of_ok done]
    cases ended : f a s₁ with
    | ok b s' => exact aside.trans ((next a).of_ok ended)
    | error e s' =>
      obtain ⟨aside', other⟩ := (next a).of_error ended
      exact ⟨aside.trans aside', other⟩
  | error e s₁ =>
    rw [bind_eq_of_error done]
    exact first.of_error done

/-- What is written stays written. -/
theorem stays {x : EStateM FeederError (Feeding (σ × List Octets) ρ) α} (h : Quiet view x)
    (base : List Octets) : Stays (fun s => base <+: s.written) x := by
  intro s front
  cases done : x s with
  | ok a s' =>
    obtain ⟨-, ms, written, -⟩ := h.of_ok done
    exact front.trans ⟨_, written.symm⟩
  | error e s' =>
    obtain ⟨⟨-, ms, written, -⟩, -⟩ := h.of_error done
    exact front.trans ⟨_, written.symm⟩

end Quiet

section Parts

variable {view : Feeding (σ × List Octets) ρ → γ}
  (seen : ∀ s session, view { s with session } = view s)

include seen

/-- What happens to the session is quiet if nothing is written there. -/
theorem quiet_onSession {x : EStateM Stream.StreamError (Session (σ × List Octets)) α}
    (kept : Keeps (fun s => s.link.2) x) : Quiet view (onSession x) := by
  intro s
  unfold onSession
  cases done : x s.session with
  | ok a session => exact .of_written (seen s session) (kept.of_ok done)
  | error e session => exact ⟨.of_written (seen s session) (kept.of_error done), rfl⟩

variable (records : setup.transport = t.recorded)

include records

theorem quiet_setTimeout (milliseconds : Int) : Quiet view (setTimeout setup milliseconds) := by
  refine .modify (fun s => seen s _) fun s => ?_
  change (s.session.setTimeout setup.transport milliseconds).link.2 = _
  rw [Session.setTimeout, records]
  rfl

/-- A message that is not sent is not written. -/
theorem aside_of_send_error {m : Message} {e : FeederError}
    (failed : send setup m s = .error e s') :
    Aside view s s' ∧ e.isSource = false := by
  rw [send, records, onSession] at failed
  split at failed
  next => cases failed
  next e' session unsent =>
    cases failed
    exact ⟨.of_written (seen s session) (send_recorded_error unsent), rfl⟩

theorem quiet_send {m : Message} (silent : isShipment m = false) : Quiet view (send setup m) := by
  intro s
  cases done : send setup m s with
  | ok u s' =>
    obtain ⟨session, rfl, written, -⟩ := sent_of_send records done
    exact ⟨seen s session, [m], written, List.filter_cons_of_neg (by rw [silent]; decide)⟩
  | error e s' => exact aside_of_send_error seen records done

end Parts

section Moves

variable (records : setup.transport = t.recorded)

include records

/-- The handshake settles who the client is. -/
theorem quiet_handshake : Quiet approach (handshake setup) := by
  have seen (s : Feeding (σ × List Octets) ρ) (session : Session (σ × List Octets)) :
      approach { s with session } = approach s := rfl
  have answered := Quiet.bind (quiet_send seen records (m := .serverVersion Stream.streamVersion
    setup.master.name setup.master.id) rfl) fun _ => quiet_setTimeout seen records
      setup.replicaTimeout
  have heard (pick : Message → Option (Int32 × Octets × NodeType)) : Quiet approach
      (onSession (ρ := ρ) (Session.receiveAs setup.codec setup.transport pick)) :=
    quiet_onSession seen (by rw [records]; exact keeps_receiveAs _ t _)
  refine .bind (heard _) fun ⟨version, name, type⟩ => ?_
  dsimp only
  split
  · exact .bind (quiet_send seen records rfl) fun _ => .bind (.throw rfl) fun _ =>
      .bind (.modify (fun _ => rfl) fun _ => rfl) fun _ => answered
  · exact .bind (.modify (fun _ => rfl) fun _ => rfl) fun _ => answered

theorem quiet_request : Quiet whereabouts (request setup) := by
  refine .bind .get fun s => ?_
  dsimp only
  split
  · exact .bind (quiet_send (fun _ _ => rfl) records rfl) fun _ =>
      .modify (fun _ => rfl) fun _ => rfl
  · exact .pure _

theorem quiet_beat (now : Int64) : Quiet whereabouts (beat setup now) :=
  .bind .get fun _ => .bind (quiet_send (fun _ _ => rfl) records rfl) fun _ =>
    .modify (fun _ => rfl) fun _ => rfl

omit records in
theorem quiet_onListener (x : EStateM ListenerError ρ α) :
    Quiet whereabouts (onListener (σ := σ × List Octets) x) := by
  intro s
  unfold onListener
  cases x s.listener with
  | ok a listener => exact .of_written rfl rfl
  | error e listener => exact ⟨.of_written rfl rfl, rfl⟩

omit records in
theorem quiet_listen (m : Message) : Quiet whereabouts (listen setup m) := by
  refine .bind .get fun s => ?_
  cases m with
  | heartbeatResponse id highVlsn dtvlsn => exact quiet_onListener _
  | ack txn => exact .bind (.modify (fun _ => rfl) fun _ => rfl) fun _ => quiet_onListener _
  | groupAck txns =>
    refine .bind (.modify (fun _ => rfl) fun _ => rfl) fun _ => ?_
    induction txns with
    | nil => exact .pure _
    | cons txn rest ih => exact .bind (quiet_onListener _) fun _ => ih
  | shutdownResponse => exact quiet_onListener _
  | _ => exact .throw rfl

end Moves

end Feeding

end Replication.Feeder
