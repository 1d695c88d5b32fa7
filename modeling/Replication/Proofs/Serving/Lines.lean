import Replication.Proofs.Feeder.Shipping
import Replication.Proofs.Serving.Lasting

/-! # Messages over a line

What the consumer takes off a line is what the feeder has put on it, message by message,
though the feeder goes on between the two reads that a message takes.  A line is lost when a
loop of the feeder has ended.
-/

namespace Replication.Serving

open Replication.Feeder (Beginning Feeding Listener Notice Spoken)
open Replication.Feeder.Feeding (Account Framed Sound Suits)
open Replication.Link (Connection LinkError)
open Replication.Stream (Carries Codec Message Session)

namespace Line

variable {ρ : Type} {feeder : Feeder.Setup Connection (ρ × List Notice)} {listener : Listener ρ}
  {b : Beginning} {line : Line (ρ × List Notice)} {wrote taken : List Message} {part : Octets}

/-! ## Lost lines -/

/-- Whether a loop of the feeder has ended, which it does only for cause. -/
def Lost (feeder : Feeder.Setup Connection (ρ × List Notice)) (listener : Listener ρ)
    (b : Beginning) (wrote : List Message) (line : Line (ρ × List Notice)) : Prop :=
  line.feeding.Ended ∧ ¬ Suits feeder listener b line.feeding.log wrote

theorem lasting_lost : Lasting feeder (Lost feeder listener b wrote) :=
  ⟨fun lost w => ⟨ended_act lost.1 w, fun suits => lost.2 (suits.of_extends (extends_act w))⟩,
    fun lost _ => lost, fun lost _ => lost⟩

/-! ## The feeder at work -/

section Work

variable (accepts : feeder.transport = Connection.transport .accepter)
  (hears : feeder.listener = listener.recorded) (spoken : Spoken b wrote)
  (short : ∀ m ∈ wrote, m.body.length < 2 ^ 31)

include accepts hears spoken short

theorem sound_act (h : Sound feeder b wrote taken part line.feeding) (w : Work) :
    Sound feeder b wrote taken part (line.act feeder w).feeding ∨
      Lost feeder listener b wrote (line.act feeder w) := by
  obtain ⟨n, received, up, down, rfl, account⟩ := h
  unfold act
  split
  next => exact .inl ⟨n, received, up, down, rfl, account⟩
  next going =>
    -- A loop that would wait for bytes has not moved, so a loop that reads finds some.
    have isOpen : line.IsOpen := ⟨account.carries.opener, account.carries.accepter⟩
    cases w with
    | output due now =>
      rcases account.outputStep (l := listener) accepts spoken short
        (fun output empty => going ⟨isOpen, empty, output⟩) due now with sound | ⟨ended, unsuited⟩
      · exact .inl sound
      · exact .inr ⟨ended, fun suits => unsuited ((Feeding.outputStep_frame due now).2 ▸ suits)⟩
    | input =>
      rcases account.inputStep accepts hears spoken short
        (fun input empty => going ⟨isOpen, empty, input⟩) with sound | ⟨ended, unsuited⟩
      · exact .inl sound
      · exact .inr ⟨ended, fun suits => unsuited (Feeding.inputStep_frame.2 ▸ suits)⟩
    | append r => exact .inl ⟨n, received, up, down, rfl, account.append r⟩
    | markDurable vlsn =>
      dsimp only [Work.action, Feeding.step]
      split
      next done => exact .inl ⟨n, received, up, down, rfl, account.markDurable done⟩
      next => exact .inl ⟨n, received, up, down, rfl, account⟩
    | clean => exact .inl ⟨n, received, up, down, rfl, account.clean⟩

theorem sound_pass (h : Sound feeder b wrote taken part line.feeding) :
    Sound feeder b wrote taken part (line.pass feeder).feeding ∨
      Lost feeder listener b wrote (line.pass feeder) := by
  unfold pass
  split
  next => exact .inl h
  next works meanwhile _ =>
    suffices all : ∀ (works : List Work) (line : Line (ρ × List Notice)),
        Sound feeder b wrote taken part line.feeding →
          Sound feeder b wrote taken part (works.foldl (act feeder) line).feeding ∨
            Lost feeder listener b wrote (works.foldl (act feeder) line) from
      all works { line with meanwhile } h
    intro works
    induction works with
    | nil => exact fun _ h => .inl h
    | cons w works ih =>
      intro line h
      rcases sound_act accepts hears spoken short h w with sound | lost
      · exact ih _ sound
      · exact .inr (lasting_lost.acts lost works)

end Work

/-! ## Reading -/

/-- A message that waits is taken, though its bytes are still to be read. -/
theorem sound_shift {m : Message} {received up rest : List Message} {n : Nat}
    (account : Account feeder b line.feeding n received up taken (m :: rest) []) :
    Account feeder b line.feeding n received up (taken ++ [m]) rest m.frame := by
  refine ⟨account.running, account.unasked, account.place, ?_, account.carries, ?_⟩
  · rw [List.append_assoc]
    exact account.phase
  · rw [List.append_assoc]
    exact account.sized

theorem sound_take {bytes : Octets}
    (h : Sound feeder b wrote taken (bytes ++ part) line.feeding) :
    ∃ link, Connection.read .opener bytes.length line.link = .ok bytes link ∧
      Sound feeder b wrote taken part (line.setLink link).feeding := by
  obtain ⟨n, received, up, down, parts, account⟩ := h
  have carries := account.carries
  rw [List.append_assoc] at carries
  obtain ⟨link, read, carries'⟩ := carries.read
  exact ⟨link, read, n, received, up, down, parts, account.onSession carries'⟩

section Session

variable {c : Codec} {s : Session (Line (ρ × List Notice))}

theorem read_eq_ok {bytes : Octets} {link : Connection}
    (read : Connection.read .opener bytes.length (line.pass feeder).link = .ok bytes link) :
    (transport feeder).read bytes.length line = .ok bytes ((line.pass feeder).setLink link) := by
  unfold transport
  dsimp only
  rw [read]

theorem receive_nothing (nothing : (s.link.pass feeder).link.opener.incoming = []) :
    ∃ e s', Session.receive c (transport feeder) s = .error (.link e) s' := by
  have few : ((s.link.pass feeder).link.endpoint .opener).incoming.length < Stream.headerSize := by
    change List.length (s.link.pass feeder).link.opener.incoming < Stream.headerSize
    rw [nothing]
    decide
  obtain ⟨e, conn, failed⟩ := Connection.read_eq_error .opener few
  have read : (transport feeder).read Stream.headerSize s.link =
      .error e ((s.link.pass feeder).setLink conn) := by
    unfold transport
    dsimp only
    rw [failed]
  exact ⟨e, _, Session.receive_eq_error_of_link read⟩

section Receive

variable {m : Message} (short : m.body.length < 2 ^ 31)

include short

theorem lost_receive_body {l₁ : Line (ρ × List Notice)} (fits : m.body.length ≤ c.limit)
    (header : (transport feeder).read Stream.headerSize s.link = .ok m.header l₁)
    (body : m.body.length ≠ 0) (lost : Lost feeder listener b wrote (l₁.pass feeder)) :
    Lost feeder listener b wrote (endState (Session.receive c (transport feeder) s)).link := by
  rw [Session.receive, bind_eq_of_ok (Session.onLink_eq_ok header),
    bind_eq_of_ok (Session.liftCodec_decodeHeader short fits _)]
  dsimp only
  rw [if_neg body]
  exact Stays.behind (P := fun s : Session (Line (ρ × List Notice)) =>
      Lost feeder listener b wrote s.link)
    (lasting_lost.read_pass (s := { s with link := l₁ }) _ lost)
    fun _ => .bind (Lasting.stays_liftCodec _) fun _ =>
      .bind (.modify fun _ lost => lost) fun _ => .pure _

section Front

variable (accepts : feeder.transport = Connection.transport .accepter)
  (hears : feeder.listener = listener.recorded) (spoken : Spoken b wrote)
  (small : ∀ m ∈ wrote, m.body.length < 2 ^ 31)

include accepts hears spoken small

/-- The message whose frame is in front is received, or too large, or the line is lost. -/
theorem receive_front
    (h : Sound feeder b wrote taken m.frame (s.link.pass feeder).feeding) :
    (∃ s', Session.receive c (transport feeder) s = .ok m s' ∧
        Sound feeder b wrote taken [] s'.link.feeding) ∨
      (c.limit < m.body.length ∧
        ∃ e s', Session.receive c (transport feeder) s = .error (.codec e) s') ∨
      Lost feeder listener b wrote (endState (Session.receive c (transport feeder) s)).link := by
  rw [Message.frame_eq] at h
  obtain ⟨link, read, sound⟩ := sound_take h
  rw [Message.length_header] at read
  have header : (transport feeder).read Stream.headerSize s.link =
      .ok m.header ((s.link.pass feeder).setLink link) := by
    rw [← Message.length_header m] at read ⊢
    exact read_eq_ok read
  by_cases fits : m.body.length ≤ c.limit
  · by_cases empty : m.body.length = 0
    · -- An empty body takes no second read, so nothing happens in between.
      left
      rw [List.eq_nil_of_length_eq_zero empty] at sound
      have done : Session.receive c (transport feeder) s =
          .ok m { link := (s.link.pass feeder).setLink link, traffic := s.traffic.took m } :=
        Session.receive_eq_ok short fits header (by rw [if_pos empty])
      exact ⟨_, done, sound⟩
    · rcases sound_pass accepts hears spoken small sound with sound | lost
      · left
        rw [← List.append_nil m.body] at sound
        obtain ⟨link', read', sound'⟩ := sound_take sound
        have done := Session.receive_eq_ok short fits header
          (by rw [if_neg empty]; exact read_eq_ok read')
        exact ⟨_, done, sound'⟩
      · exact .inr (.inr (lost_receive_body short fits header empty lost))
  · obtain ⟨e, failed⟩ := Session.receive_eq_error_of_large short (Nat.not_le.1 fits) header
    exact .inr (.inl ⟨Nat.not_le.1 fits, e, _, failed⟩)

end Front

end Receive

section Arrivals

variable (accepts : feeder.transport = Connection.transport .accepter)
  (hears : feeder.listener = listener.recorded) (spoken : Spoken b wrote)
  (small : ∀ m ∈ wrote, m.body.length < 2 ^ 31)
  (framed : Framed feeder b
    (endState (Session.receive c (transport feeder) s)).link.feeding.log)
  (h : Sound feeder b wrote taken [] s.link.feeding)

include accepts hears spoken small framed h

/-- When bytes wait, a message is received, or too large, or the line is lost meanwhile. -/
theorem receive_arrived (arrived : s.link.link.opener.incoming ≠ []) :
    ∃ m, Sound feeder b wrote (taken ++ [m]) m.frame s.link.feeding ∧
      ((∃ s', Session.receive c (transport feeder) s = .ok m s' ∧
          Sound feeder b wrote (taken ++ [m]) [] s'.link.feeding) ∨
        (c.limit < m.body.length ∧
          ∃ e s', Session.receive c (transport feeder) s = .error (.codec e) s') ∨
        Lost feeder listener b wrote (endState (Session.receive c (transport feeder) s)).link) := by
  obtain ⟨n, received, up, down, parts, account⟩ := h
  cases down with
  | nil => exact absurd account.carries.down arrived
  | cons m rest =>
    have mem : m ∈ taken ++ m :: rest := List.mem_append_right _ List.mem_cons_self
    have before : Framed feeder b s.link.feeding.log :=
      framed.of_extends ((lasting_extends _).receive c s (.refl _))
    have short := before m (account.sends mem) (account.sized m (.inr mem))
    have front : Sound feeder b wrote (taken ++ [m]) m.frame s.link.feeding :=
      ⟨n, received, up, rest, parts, sound_shift account⟩
    refine ⟨m, front, ?_⟩
    rw [← List.append_nil m.frame] at front
    rcases sound_pass accepts hears spoken small front with sound | lost
    · rw [List.append_nil] at sound
      exact receive_front short accepts hears spoken small sound
    · exact .inr (.inr (lasting_lost.receive_pass lost))

/-- A message that is received is the next one that was sent. -/
theorem receive_next {m : Message} {s' : Session (Line (ρ × List Notice))}
    (done : Session.receive c (transport feeder) s = .ok m s') :
    Sound feeder b wrote (taken ++ [m]) [] s'.link.feeding ∨
      Lost feeder listener b wrote s'.link := by
  rcases sound_pass accepts hears spoken small h with sound | lost
  · obtain ⟨n, received, up, down, parts, account⟩ := sound
    cases down with
    | nil =>
      -- Nothing has come while the consumer waited, so it has not received a message.
      have nothing : (s.link.pass feeder).link.opener.incoming = [] := account.carries.down
      obtain ⟨e, s'', failed⟩ := receive_nothing (c := c) nothing
      cases done.symm.trans failed
    | cons m' rest =>
      have mem : m' ∈ taken ++ m' :: rest := List.mem_append_right _ List.mem_cons_self
      have before : Framed feeder b (s.link.pass feeder).feeding.log :=
        framed.of_extends ((lasting_extends _).receive_pass (.refl _))
      have short := before m' (account.sends mem) (account.sized m' (.inr mem))
      have front : Sound feeder b wrote (taken ++ [m']) m'.frame (s.link.pass feeder).feeding :=
        ⟨n, received, up, rest, parts, sound_shift account⟩
      rcases receive_front (c := c) short accepts hears spoken small front with
        ⟨s'', done', sound⟩ | ⟨-, e, s'', failed⟩ | lost
      · cases done.symm.trans done'
        exact .inl sound
      · cases done.symm.trans failed
      · rw [done] at lost
        exact .inr lost
  · have lost' := lasting_lost.receive_pass (c := c) lost
    rw [done] at lost'
    exact .inr lost'

end Arrivals

/-! ## Writing -/

theorem send_eq_ok {m : Message} (h : Sound feeder b wrote taken [] s.link.feeding)
    (fits : m.body.length ≤ c.limit) :
    ∃ s', Session.send c (transport feeder) m s = .ok () s' ∧
      Sound feeder b (wrote ++ [m]) taken [] s'.link.feeding := by
  obtain ⟨n, received, up, down, rfl, account⟩ := h
  obtain ⟨link, written, carries⟩ := account.carries.write m.frame
  have write : (transport feeder).write m.frame s.link = .ok () (s.link.setLink link) := by
    have written' : Connection.write .opener m.frame s.link.link = .ok () link := written
    unfold transport
    dsimp only
    rw [written']
  have sent := Session.send_eq_ok fits write
  refine ⟨_, sent, n, received, up ++ [m], down, (List.append_assoc _ _ _).symm, ?_⟩
  refine account.onSession ?_
  rw [List.flatMap_append, List.flatMap_singleton]
  exact carries

end Session

/-! ## What is taken -/

theorem sends_of_taken {m : Message} {f : Feeding Connection (ρ × List Notice)}
    (h : Sound feeder b wrote taken part f) (mem : m ∈ taken) :
    b.Sends feeder.master f.log m := by
  obtain ⟨n, received, up, down, -, account⟩ := h
  exact account.sends (List.mem_append_left _ mem)

end Line

end Replication.Serving
