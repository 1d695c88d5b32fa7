import Replication.Proofs.Feeder.Quiet

/-! # The first word behind the greeting

What a feeder sends first behind its answer to the handshake is settled by the first look
of its output loop: a heartbeat if nobody has asked for a shutdown by then, and else the
shutdown request, with the first heartbeat behind it.
-/

namespace Replication.Feeder

open Replication.Link (Transport)
open Replication.Stream (Message Session)

variable {σ ρ α : Type} {t : Transport σ}

namespace Feeding

variable {setup : Setup (σ × List Octets) ρ} {s s' : Feeding (σ × List Octets) ρ} {m : Message}

/-! ## What stays as it was -/

/-- Where the output loop is in its work, and what it has written. -/
def standing (s : Feeding (σ × List Octets) ρ) : OutputLoop × Nat × Bool × List Octets :=
  (s.feeder.output, s.feeder.heartbeats, s.feeder.shutdownSent, s.written)

theorem standing_onSession {x : EStateM Stream.StreamError (Session (σ × List Octets)) α}
    (kept : Keeps (fun s : Session (σ × List Octets) => s.link.2) x) :
    Keeps (standing (ρ := ρ)) (onSession x) := by
  intro s
  unfold onSession
  have same := kept s.session
  cases done : x s.session with
  | ok a session =>
    rw [done] at same
    exact congrArg (fun w => (s.feeder.output, s.feeder.heartbeats, s.feeder.shutdownSent, w)) same
  | error e session =>
    rw [done] at same
    exact congrArg (fun w => (s.feeder.output, s.feeder.heartbeats, s.feeder.shutdownSent, w)) same

section

variable (records : setup.transport = t.recorded)

include records

theorem standing_cancel : standing (s.cancel setup) = standing s := by
  have same := written_close (s := s) records
  exact congrArg (fun w => (s.feeder.output, s.feeder.heartbeats, s.feeder.shutdownSent, w)) same

theorem standing_fail (e : FeederError) : standing (s.fail setup e) = standing s := by
  unfold fail
  split
  · rfl
  · exact standing_cancel records

/-- The input loop has no part in what is sent. -/
theorem standing_inputStep : standing (s.inputStep setup) = standing s := by
  unfold inputStep
  split
  · rfl
  · rfl
  · split <;> rfl
  · split
    · rfl
    · have kept : Keeps standing (onSession (Session.receive setup.codec setup.transport) >>=
          listen setup) := by
        rw [records]
        exact .bind (standing_onSession (keeps_receive _ t)) fun m =>
          keeps_listen (fun _ _ _ => rfl) m
      dsimp only
      split
      next done => exact kept.of_ok done
      next e s₁ failed => exact (standing_fail records e).trans (kept.of_error failed)

/-! ## What is written stays written -/

theorem unsent_of_send {e : FeederError} (failed : send setup m s = .error e s') :
    standing s' = standing s := by
  rw [send, records, onSession] at failed
  split at failed
  next => cases failed
  next e' session unsent =>
    cases failed
    exact congrArg (fun w => (s.feeder.output, s.feeder.heartbeats, s.feeder.shutdownSent, w))
      (send_recorded_error unsent)

variable {base : List Octets}

theorem stays_send (m : Message) : Stays (fun s => base <+: written (ρ := ρ) s) (send setup m) := by
  intro s front
  cases done : send setup m s with
  | ok u s' =>
    obtain ⟨session, rfl, sent, -⟩ := sent_of_send records done
    change base <+: session.link.2
    rw [sent]
    exact front.trans (List.prefix_append _ _)
  | error e s' =>
    have same := congrArg (·.2.2.2) (unsent_of_send records done)
    exact (show written s' = written s from same) ▸ front

omit records in
theorem stays_fetch :
    Stays (fun s => base <+: written s) (fetch (σ := σ × List Octets) (ρ := ρ)) := by
  intro s front
  unfold fetch
  dsimp only
  split <;> exact front

theorem stays_ship (r : Log.Positioned) : Stays (fun s => base <+: written s) (ship setup r) := by
  refine .bind (fun _ front => front) fun s => ?_
  dsimp only
  split
  · exact .bind (stays_send records _) fun _ => .bind (.modify fun _ front => front) fun _ =>
      .modify fun _ front => front
  · exact .modify fun _ front => front

theorem standing_outputMove (x : EStateM FeederError (Feeding (σ × List Octets) ρ) OutputLoop)
    (s : Feeding (σ × List Octets) ρ) :
    standing (s.outputMove setup x) =
      match x s with
      | .ok output s' => (output, (standing s').2)
      | .error _ s' => (.done, (standing s').2) := by
  unfold outputMove
  cases x s with
  | ok output s' => rfl
  | error e s' => exact congrArg (fun st => (OutputLoop.done, st.2)) (standing_fail records e)

theorem outputMove_of_ok {x : EStateM FeederError (Feeding (σ × List Octets) ρ) Unit}
    {output : OutputLoop} (done : x s = .ok () s') :
    standing (s.outputMove setup do x; return output) = (output, (standing s').2) := by
  rw [standing_outputMove records, bind_eq_of_ok done]
  rfl

theorem outputMove_of_error {x : EStateM FeederError (Feeding (σ × List Octets) ρ) Unit}
    {output : OutputLoop} {e : FeederError} (failed : x s = .error e s') :
    standing (s.outputMove setup do x; return output) = (.done, (standing s').2) := by
  rw [standing_outputMove records, bind_eq_of_error failed]

theorem prefix_outputMove {x : EStateM FeederError (Feeding (σ × List Octets) ρ) OutputLoop}
    (stays : Stays (fun s => base <+: written s) x) (front : base <+: s.written) :
    base <+: (s.outputMove setup x).written := by
  have kept := stays s front
  have same := congrArg (·.2.2.2) (standing_outputMove records x s)
  cases done : x s with
  | ok output s' =>
    rw [done] at kept same
    exact (show (s.outputMove setup x).written = s'.written from same) ▸ kept
  | error e s' =>
    rw [done] at kept same
    exact (show (s.outputMove setup x).written = s'.written from same) ▸ kept

theorem prefix_outputStep (due : Bool) (now : Int64) (front : base <+: s.written) :
    base <+: (s.outputStep setup due now).written := by
  have quiet {γ : Type} {view : Feeding (σ × List Octets) ρ → γ}
      {x : EStateM FeederError (Feeding (σ × List Octets) ρ) Unit} (quiet : Quiet view x)
      (output : OutputLoop) : base <+: (s.outputMove setup do x; return output).written :=
    prefix_outputMove records (.bind (quiet.stays base) fun _ => .pure _) front
  unfold outputStep
  split
  · exact front
  · exact front
  · have set : Quiet whereabouts (setTimeout setup setup.preHeartbeatTimeout) :=
      quiet_setTimeout (fun _ _ => rfl) records _
    exact quiet set .handshaking
  · exact quiet (quiet_handshake records) .requesting
  · split
    · exact front
    · exact quiet (quiet_request records) .beating
  · split
    · exact quiet (quiet_beat records now) .fetching
    · exact front
  · refine prefix_outputMove records (.bind stays_fetch fun r => ?_) front
    cases r <;> exact .pure _
  · exact prefix_outputMove records (.bind (stays_ship records _) fun _ => .pure _) front

end

end Feeding

/-! ## The stages of an opening -/

/-- What a feeder says first behind its greeting, if its first look found that request. -/
def SaysFirst (looked : Int64) (m : Message) : Prop :=
  if 0 ≤ looked then m = .shutdownRequest looked else ∃ now last, m = .heartbeat 1 now last

/-- How a feeder answers the introduction of a consumer. -/
def Setup.greeting (setup : Setup σ ρ) : Message :=
  .serverVersion Stream.streamVersion setup.master.name setup.master.id

/-- How far a feeder has come that writes its first two messages: where its output loop
    stands, and what its looks have found. -/
inductive Opening (setup : Setup σ ρ) :
    OutputLoop × Nat × Bool × List Octets → List Int64 → Prop where
  | waiting {output : OutputLoop} (opens : output = .starting ∨ output = .handshaking) :
    Opening setup (output, 0, false, []) []
  | greeted (fits : setup.greeting.body.length ≤ setup.codec.limit) :
    Opening setup (.requesting, 0, false, [setup.greeting.frame]) []
  | unasked {looked : Int64} (fits : setup.greeting.body.length ≤ setup.codec.limit)
    (none : ¬ 0 ≤ looked) : Opening setup (.beating, 0, false, [setup.greeting.frame]) [looked]
  | spoken {output : OutputLoop} {beats : Nat} {asked : Bool} {frames : List Octets}
    {looked : Int64} {looks : List Int64} {m : Message}
    (front : [setup.greeting.frame, m.frame] <+: frames) (worded : SaysFirst looked m)
    (fits : setup.greeting.body.length ≤ setup.codec.limit ∧ m.body.length ≤ setup.codec.limit) :
    Opening setup (output, beats, asked, frames) (looked :: looks)
  | shut {output : OutputLoop} {beats : Nat} {asked : Bool} {frames : List Octets}
    {looks : List Int64} (ended : output = .idle ∨ output = .done) (few : frames.length ≤ 1) :
    Opening setup (output, beats, asked, frames) looks

namespace Opening

open Feeding

variable {setup : Setup (σ × List Octets) ρ} {s s' : Feeding (σ × List Octets) ρ}
  {looks : List Int64}

theorem mk_of_standing {output : OutputLoop} {beats : Nat} {asked : Bool} {frames : List Octets}
    (stands : standing s = (output, beats, asked, frames)) :
    s.feeder.output = output ∧ s.feeder.heartbeats = beats ∧ s.feeder.shutdownSent = asked ∧
      s.written = frames := by
  cases stands
  exact ⟨rfl, rfl, rfl, rfl⟩

/-- A loop that was shut down says nothing more. -/
theorem idle {output : OutputLoop} {rest : Nat × Bool × List Octets}
    (h : Opening setup (output, rest) looks) : Opening setup (.idle, rest) looks := by
  cases h with
  | waiting opens => exact .shut (.inl rfl) (Nat.zero_le _)
  | greeted fits => exact .shut (.inl rfl) (Nat.le_refl _)
  | unasked fits none => exact .shut (.inl rfl) (Nat.le_refl _)
  | spoken front worded fits => exact .spoken front worded fits
  | shut ended few => exact .shut (.inl rfl) few

section Steps

variable (records : setup.transport = t.recorded) (due : Bool) (now : Int64)

include records

theorem starting (stands : standing s = (.starting, 0, false, [])) :
    Opening setup (standing (s.outputStep setup due now)) [] := by
  obtain ⟨output, -⟩ := mk_of_standing stands
  rw [outputStep, output]
  dsimp only
  let s' := { s with session := s.session.setTimeout setup.transport setup.preHeartbeatTimeout }
  have set : setTimeout setup setup.preHeartbeatTimeout s = .ok () s' := rfl
  have same : standing s' = standing s := by
    dsimp only [s']
    rw [records]
    rfl
  rw [outputMove_of_ok records set, same, stands]
  exact .waiting (.inr rfl)

theorem greeted_of_handshake (done : handshake setup s = .ok () s') :
    setup.greeting.body.length ≤ setup.codec.limit ∧
      standing s' = (s.feeder.output, s.feeder.heartbeats, s.feeder.shutdownSent,
        s.written ++ [setup.greeting.frame]) := by
  obtain ⟨⟨version, name, type⟩, s₁, heard, done⟩ := bind_eq_ok done
  have same : standing s₁ = standing s := by
    rw [records] at heard
    exact (standing_onSession (keeps_receiveAs _ t _)).of_ok heard
  obtain ⟨output, beats, asked, frames⟩ := mk_of_standing same
  dsimp only at done
  split at done
  next =>
    -- A client of another version is turned away.
    obtain ⟨_, s₂, -, done⟩ := bind_eq_ok done
    cases done
  next =>
    rw [modify_bind] at done
    obtain ⟨_, s₂, sent, done⟩ := bind_eq_ok done
    obtain ⟨session, rfl, wrote, fits⟩ := sent_of_send records sent
    cases done
    refine ⟨fits, ?_⟩
    have written : (session.setTimeout setup.transport setup.replicaTimeout).link.2 =
        s.written ++ [setup.greeting.frame] := by
      rw [Session.setTimeout, records]
      exact wrote.trans (congrArg (· ++ _) frames)
    exact Prod.ext output (Prod.ext beats (Prod.ext asked written))

theorem few_of_handshake_error {e : FeederError} (silent : s.written = [])
    (failed : handshake setup s = .error e s') : s'.written.length ≤ 1 := by
  have unsent {m : Message} {e : FeederError} {s₁ s₂ : Feeding (σ × List Octets) ρ}
      (silent : s₁.written = []) (failed : send setup m s₁ = .error e s₂) : s₂.written = [] :=
    (congrArg (·.2.2.2) (unsent_of_send records failed)).trans silent
  rcases bind_eq_error failed with unheard | ⟨⟨version, name, type⟩, s₁, heard, failed⟩
  · rw [records] at unheard
    have same := (standing_onSession (keeps_receiveAs _ t _)).of_error unheard
    have nothing : s'.written = [] := (congrArg (·.2.2.2) same).trans silent
    exact nothing ▸ Nat.zero_le 1
  · have silent : s₁.written = [] := by
      rw [records] at heard
      have same := (standing_onSession (keeps_receiveAs _ t _)).of_ok heard
      exact (congrArg (·.2.2.2) same).trans silent
    dsimp only at failed
    split at failed
    next =>
      rcases bind_eq_error failed with failed | ⟨_, s₂, sent, failed⟩
      · exact unsent silent failed ▸ Nat.zero_le 1
      · -- A client of another version gets the refusal, and nothing behind it.
        obtain ⟨session, rfl, wrote, -⟩ := sent_of_send records sent
        cases failed
        change session.link.2.length ≤ 1
        rw [wrote, silent]
        exact Nat.le_refl 1
    next =>
      rw [modify_bind] at failed
      rcases bind_eq_error failed with failed | ⟨_, s₂, -, failed⟩
      · have named (f : Feeder → Feeder) : (s₁.update f).written = [] := silent
        exact unsent (named _) failed ▸ Nat.zero_le 1
      · cases failed

theorem handshaking (stands : standing s = (.handshaking, 0, false, [])) :
    Opening setup (standing (s.outputStep setup due now)) [] := by
  obtain ⟨output, beats, asked, silent⟩ := mk_of_standing stands
  rw [outputStep, output]
  dsimp only
  cases done : handshake setup s with
  | ok u s' =>
    obtain ⟨fits, after⟩ := greeted_of_handshake records done
    rw [outputMove_of_ok records done, after, beats, asked, silent]
    exact .greeted fits
  | error e s' =>
    rw [outputMove_of_error records done]
    exact .shut (.inr rfl) (few_of_handshake_error records silent done)

theorem greeted_step (fits : setup.greeting.body.length ≤ setup.codec.limit)
    (stands : standing s = (.requesting, 0, false, [setup.greeting.frame])) :
    Opening setup (standing (s.outputStep setup due now)) (s.look? (.output due now)).toList := by
  obtain ⟨output, beats, unsent, frames⟩ := mk_of_standing stands
  rw [outputStep, output, look?]
  dsimp only
  cases cancelled : s.feeder.cancelled with
  | true =>
    have stands' : standing (s.update ({ · with output := .done })) =
        (.done, 0, false, [setup.greeting.frame]) :=
      congrArg (fun st => (OutputLoop.done, st.2)) stands
    rw [if_pos rfl, stands', if_neg (by simp)]
    exact .shut (.inr rfl) (Nat.le_refl _)
  | false =>
    rw [if_neg (by simp), if_pos ⟨output, rfl⟩]
    -- This is the first look, and it decides which message comes behind the greeting.
    by_cases asked : 0 ≤ s.feeder.shutdownRequest
    · -- The request goes out, or the loop ends with the greeting alone.
      let m : Message := .shutdownRequest s.feeder.shutdownRequest
      have asks : 0 ≤ s.feeder.shutdownRequest ∧ ¬ s.feeder.shutdownSent :=
        ⟨asked, by rw [unsent]; decide⟩
      cases sent : send setup m s with
      | ok u s' =>
        obtain ⟨session, rfl, wrote, fits'⟩ := sent_of_send records sent
        have done : request setup s =
            .ok () (update ({ · with shutdownSent := true }) { s with session }) := by
          rw [request, get_bind, if_pos asks]
          exact bind_eq_of_ok sent
        rw [outputMove_of_ok records done]
        refine .spoken (m := m) ?_ (by rw [SaysFirst, if_pos asked]) ⟨fits, fits'⟩
        change _ <+: session.link.2
        rw [wrote, frames]
        exact List.prefix_refl _
      | error e s' =>
        have failed : request setup s = .error e s' := by
          rw [request, get_bind, if_pos asks]
          exact bind_eq_of_error sent
        rw [outputMove_of_error records failed, unsent_of_send records sent, stands]
        exact .shut (.inr rfl) (Nat.le_refl _)
    · have silent : request setup s = .ok () s := by
        rw [request, get_bind, if_neg fun h => asked h.1]
        rfl
      rw [outputMove_of_ok records silent, stands]
      exact .unasked fits asked

theorem unasked_step {looked : Int64} (fits : setup.greeting.body.length ≤ setup.codec.limit)
    (none : ¬ 0 ≤ looked) (stands : standing s = (.beating, 0, false, [setup.greeting.frame])) :
    Opening setup (standing (s.outputStep setup due now)) [looked] := by
  obtain ⟨output, beats, -, frames⟩ := mk_of_standing stands
  rw [outputStep, output]
  dsimp only
  -- The first heartbeat is always due.
  rw [if_pos (by rw [beats]; simp)]
  let m : Message := .heartbeat 1 now (Int64.ofNat s.log.durable)
  have first : Message.heartbeat (Int64.ofNat (s.feeder.heartbeats + 1)) now
      (Int64.ofNat s.log.durable) = m := by
    rw [beats]
    rfl
  cases sent : send setup m s with
  | ok u s' =>
    obtain ⟨session, rfl, wrote, fits'⟩ := sent_of_send records sent
    let counted := update (fun f => { f with heartbeats := f.heartbeats + 1 }) { s with session }
    have done : beat setup now s = .ok () counted := by
      rw [beat, get_bind, first]
      exact bind_eq_of_ok sent
    rw [outputMove_of_ok records done]
    refine .spoken (m := m) ?_ (by rw [SaysFirst, if_neg none]; exact ⟨now, _, rfl⟩) ⟨fits, fits'⟩
    change _ <+: session.link.2
    rw [wrote, frames]
    exact List.prefix_refl _
  | error e s' =>
    have failed : beat setup now s = .error e s' := by
      rw [beat, get_bind, first]
      exact bind_eq_of_error sent
    rw [outputMove_of_error records failed, unsent_of_send records sent, stands]
    exact .shut (.inr rfl) (Nat.le_refl _)

omit records in
/-- A loop that does something else does not look. -/
theorem look?_of_not_requesting (busy : s.feeder.output ≠ .requesting) :
    s.look? (.output due now) = none :=
  if_neg fun looks => busy looks.1

theorem outputStep (h : Opening setup (standing s) looks) :
    Opening setup (standing (s.outputStep setup due now))
      (looks ++ (s.look? (.output due now)).toList) := by
  generalize stands : standing s = st at h
  cases h with
  | waiting opens =>
    have output := (mk_of_standing stands).1
    rcases opens with rfl | rfl
    · rw [look?_of_not_requesting due now (by rw [output]; decide)]
      exact starting records due now stands
    · rw [look?_of_not_requesting due now (by rw [output]; decide)]
      exact handshaking records due now stands
  | greeted fits => exact greeted_step records due now fits stands
  | unasked fits none =>
    rw [look?_of_not_requesting due now (by rw [(mk_of_standing stands).1]; decide)]
    exact unasked_step records due now fits none stands
  | spoken front worded fits =>
    obtain ⟨-, -, -, rfl⟩ := mk_of_standing stands
    exact .spoken (prefix_outputStep records due now front) worded fits
  | shut ended few =>
    obtain ⟨output, -⟩ := mk_of_standing stands
    have idle : s.outputStep setup due now = s := by
      rcases ended with rfl | rfl <;> rw [Feeding.outputStep, output]
    rw [idle, stands]
    exact .shut ended few

theorem step {w : Watched (σ × List Octets) ρ} (h : Opening setup (standing w.feeding) w.looks)
    (a : Action) :
    Opening setup (standing (w.step setup a).feeding) (w.step setup a).looks := by
  have unmoved {s' : Feeding (σ × List Octets) ρ} (same : standing s' = standing w.feeding) :
      Opening setup (standing s') (w.looks ++ []) := by
    rw [same, List.append_nil]
    exact h
  cases a with
  | output due now => exact h.outputStep records due now
  | input => exact unmoved (standing_inputStep records)
  | append r => exact unmoved rfl
  | markDurable vlsn =>
    refine unmoved ?_
    dsimp only [Watched.step, Feeding.step]
    split <;> rfl
  | clean => exact unmoved rfl
  | requestShutdown time => exact unmoved rfl
  | shutDown =>
    have stopped : standing (w.feeding.shutDown setup) = (.idle, (standing w.feeding).2) :=
      congrArg (fun st => (OutputLoop.idle, st.2)) (standing_cancel (s := w.feeding) records)
    change Opening setup (standing (w.feeding.shutDown setup)) (w.looks ++ [])
    rw [stopped, List.append_nil]
    exact idle h

theorem run {w : Watched (σ × List Octets) ρ} (h : Opening setup (standing w.feeding) w.looks)
    (actions : List Action) :
    Opening setup (standing (w.run setup actions).feeding) (w.run setup actions).looks := by
  induction actions generalizing w with
  | nil => exact h
  | cons a rest ih => exact ih (h.step records a)

end Steps

/-- Once a feeder has written two messages, its first look tells which they are. -/
theorem of_written {w : Watched (σ × List Octets) ρ}
    (h : Opening setup (standing w.feeding) w.looks) (spoke : 2 ≤ w.feeding.written.length) :
    ∃ looked m rest, w.looks.head? = some looked ∧
      w.feeding.written = setup.greeting.frame :: m.frame :: rest ∧ SaysFirst looked m ∧
      setup.greeting.body.length ≤ setup.codec.limit ∧ m.body.length ≤ setup.codec.limit := by
  generalize stands : standing w.feeding = st at h
  obtain ⟨-, -, -, frames⟩ := mk_of_standing stands
  generalize w.looks = looks at h
  cases h with
  | waiting | greeted | unasked => simp [frames] at spoke
  | spoken front worded fits =>
    obtain ⟨rest, rfl⟩ := front
    exact ⟨_, _, rest, rfl, frames, worded, fits⟩
  | shut ended few =>
    rw [frames] at spoke
    exact absurd (Nat.le_trans spoke few) (by decide)

end Opening

end Replication.Feeder
