import Replication.Proofs.Stream.Frames

/-! # A bad frame does not put the stream out of step

Each read takes one frame off the link, also where the body is no message or where the message
is not the one that was due, so the next read starts where the next frame does.  What counts
are the frames whose bodies are messages.  A header that announces no frame costs its own
bytes and no more.
-/

namespace Replication.Stream

open Replication.Link (Connection Side Transport)
open Replication.Link.Connection (endpoint_setEndpoint setEndpoint_endpoint setEndpoint_setEndpoint)
open Replication.Wire

variable {σ α : Type}

/-! ## One read -/

/-- What a read for a message that is due makes of a frame. -/
def RawFrame.answer (pick : Message → Option α) (f : RawFrame) : Except StreamError α :=
  match f.message with
  | .ok m => m.expect pick
  | .error e => .error (.codec e)

namespace Session

variable {c : Codec}

theorem receiveAs_some (c : Codec) (t : Transport σ) : receiveAs c t some = receive c t := by
  funext s
  cases done : receive c t s with
  | ok m s' => exact bind_eq_of_ok done
  | error e s' => exact bind_eq_of_error done

/-- A message that is not the one that was due has left the link all the same. -/
theorem receiveAs_eq_endWith {t : Transport σ} {s s' : Session σ} {f : RawFrame}
    (pick : Message → Option α) (done : receive c t s = endWith (f.message.mapError .codec) s') :
    receiveAs c t pick s = endWith (f.answer pick) s' := by
  rw [RawFrame.answer]
  cases read : f.message with
  | error e =>
    rw [read] at done
    exact bind_eq_of_error done
  | ok m =>
    rw [read] at done
    rw [receiveAs, bind_eq_of_ok done]
    dsimp only
    cases m.expect pick <;> rfl

/-! ## Reads one after the other -/

section Reads

variable (side : Side) {s : Session Connection} {frames : List RawFrame}
  {reads : List (Message → Option α)} {rest : Octets}

theorem inTurn_receiveAs (fit : ∀ f ∈ frames, f.body.length ≤ c.limit)
    (enough : reads.length ≤ frames.length) (isOpen : (s.link.endpoint side).closed = false)
    (incoming : (s.link.endpoint side).incoming = frames.flatMap RawFrame.bytes ++ rest) :
    inTurn (reads.map (receiveAs c (Connection.transport side))) s =
      (List.zipWith RawFrame.answer reads frames,
        { link := s.link.setEndpoint side { s.link.endpoint side with
            incoming := (frames.drop reads.length).flatMap RawFrame.bytes ++ rest }
          traffic := (frames.take reads.length).foldl Traffic.saw s.traffic }) := by
  -- By induction on the reads.  The session changes with each of them, and what waits at its
  -- end is always a number of frames and then the same rest.
  induction reads generalizing frames s with
  | nil =>
    have same : { s.link.endpoint side with incoming := frames.flatMap RawFrame.bytes ++ rest } =
        s.link.endpoint side := by rw [← incoming]
    rw [List.length_nil, List.drop_zero, same, setEndpoint_endpoint]
    rfl
  | cons pick reads ih =>
    obtain ⟨f, frames, rfl⟩ := List.exists_cons_of_length_pos (Nat.lt_of_lt_of_le (by simp) enough)
    rw [List.flatMap_cons, List.append_assoc] at incoming
    -- The first read leaves the same end whatever it answers.
    have first := receiveAs_eq_endWith pick
      (receive_raw side (fit f List.mem_cons_self) isOpen incoming)
    let e := { s.link.endpoint side with incoming := frames.flatMap RawFrame.bytes ++ rest }
    have there : (s.link.setEndpoint side e).endpoint side = e := endpoint_setEndpoint e
    have others := ih (s := { link := s.link.setEndpoint side e, traffic := s.traffic.saw f })
      (fun g mem => fit g (List.mem_cons_of_mem _ mem)) (Nat.le_of_succ_le_succ enough)
      (by rw [there]; exact isOpen) (by rw [there])
    rw [there, setEndpoint_setEndpoint] at others
    rw [List.map_cons, inTurn_cons first, others]
    rfl

end Reads

end Session

theorem foldl_saw (frames : List RawFrame) (t : Traffic) :
    frames.foldl Traffic.saw t = { t with
      messagesRead := t.messagesRead + (frames.filter RawFrame.isMessage).length
      bytesRead := t.bytesRead +
        ((frames.filter RawFrame.isMessage).flatMap RawFrame.bytes).length } := by
  induction frames generalizing t with
  | nil => rfl
  | cons f frames ih =>
    rw [List.foldl_cons, ih, Traffic.saw]
    cases whole : f.isMessage with
    | true => simp [whole]; omega
    | false => simp [whole]

/-- However many reads there are, each takes the next frame and no more: it answers with the
    frame's message, if that is due, or with what is wrong with it, and the frames behind it
    wait as they did.  What has been counted are the frames whose bodies are messages.  A
    header with a size that is not allowed or an op that is not known is taken by itself. -/
theorem Session.reads_keep_step (c : Codec) (side : Side) :
    (∀ (α : Type) (frames : List RawFrame) (reads : List (Message → Option α)) (rest : Octets)
      (s : Session Connection), (∀ f ∈ frames, f.body.length ≤ c.limit) →
      reads.length ≤ frames.length → (s.link.endpoint side).closed = false →
      (s.link.endpoint side).incoming = frames.flatMap RawFrame.bytes ++ rest →
      ∃ s', inTurn (reads.map (receiveAs c (Connection.transport side))) s =
          (List.zipWith RawFrame.answer reads frames, s') ∧
        s'.link = s.link.setEndpoint side { s.link.endpoint side with
          incoming := (frames.drop reads.length).flatMap RawFrame.bytes ++ rest } ∧
        s'.traffic = { s.traffic with
          messagesRead := s.traffic.messagesRead +
            ((frames.take reads.length).filter RawFrame.isMessage).length
          bytesRead := s.traffic.bytesRead +
            (((frames.take reads.length).filter RawFrame.isMessage).flatMap
              RawFrame.bytes).length }) ∧
    receiveAs c (Connection.transport side) some = receive c (Connection.transport side) ∧
    ∀ (α : Type) (pick : Message → Option α) (id : Int16) (size : Int32) (rest : Octets)
      (s : Session Connection),
      (size.toInt < 0 ∨ c.limit < size.toInt ∨ ∀ op : Op, op.id ≠ id) →
      (s.link.endpoint side).closed = false →
      (s.link.endpoint side).incoming = putShort id ++ putInt size ++ rest →
      receiveAs c (Connection.transport side) pick s = .error (.codec (c.headerError id size))
        { s with link :=
          s.link.setEndpoint side { s.link.endpoint side with incoming := rest } } := by
  refine ⟨?_, receiveAs_some c _, ?_⟩
  · intro α frames reads rest s fit enough isOpen incoming
    refine ⟨_, inTurn_receiveAs side fit enough isOpen incoming, rfl, ?_⟩
    exact foldl_saw _ _
  · intro α pick id size rest s bad isOpen incoming
    exact bind_eq_of_error (receive_connection_of_header side bad isOpen incoming)

namespace Jumble

/-- A codec for bodies of at most eight bytes. -/
def codec : Codec where
  limit := 8
  limit_pos := by decide

/-- Acknowledgments, of which the first has a byte too many, and messages of other ops. -/
def frames : List RawFrame :=
  [⟨.ack, [1, 2], by decide⟩, ⟨.ack, [5], by decide⟩, ⟨.protocolError, [0, 0, 0, 0], by decide⟩,
    ⟨.shutdownResponse, [], by decide⟩, ⟨.ack, [9], by decide⟩]

/-- The frames, and one more byte behind them. -/
def full : Session Connection where
  link := { accepter := { incoming := frames.flatMap RawFrame.bytes ++ [7] } }

/-- A header of an acknowledgment that would have less than no body, and a byte behind it. -/
def negative : Session Connection where
  link := { accepter := { incoming := putShort 5 ++ putInt (-1) ++ [7] } }

/-- Wants an acknowledgment. -/
def acknowledged : Message → Option Int64
  | .ack txn => some txn
  | _ => none

end Jumble

/-- Four reads for an acknowledgment take four frames and leave the fifth. -/
theorem Session.reads_keep_step_jumble :
    (∀ f ∈ Jumble.frames, f.body.length ≤ Jumble.codec.limit) ∧
      (∃ s', inTurn (List.replicate 4
          (receiveAs Jumble.codec (Connection.transport .accepter) Jumble.acknowledged))
          Jumble.full =
        ([.error (.codec (.trailing .ack 1)), .ok 5, .error (.remote []),
          .error (.unexpected .shutdownResponse)], s') ∧
        s'.link.accepter.incoming = [0, 5, 0, 0, 0, 1, 9, 7] ∧
        s'.traffic.messagesRead = 3 ∧ s'.traffic.bytesRead = 23) ∧
      ∃ s', receiveAs Jumble.codec (Connection.transport .accepter) Jumble.acknowledged
          Jumble.negative = .error (.codec (.sizeOutside 5 (-1) 8)) s' ∧
        s'.link.accepter.incoming = [7] := by
  obtain ⟨reads, -, headers⟩ := reads_keep_step Jumble.codec .accepter
  have fit : ∀ f ∈ Jumble.frames, f.body.length ≤ Jumble.codec.limit := by decide
  obtain ⟨s', read, link, traffic⟩ := reads Int64 Jumble.frames
    (List.replicate 4 Jumble.acknowledged) [7] Jumble.full fit (by decide) rfl rfl
  refine ⟨fit, ⟨s', read, ?_, ?_, ?_⟩, _, headers Int64 Jumble.acknowledged 5 (-1) [7]
    Jumble.negative (.inl (by decide)) rfl rfl, rfl⟩
  · rw [link]
    rfl
  · rw [traffic]
    rfl
  · rw [traffic]
    rfl

end Replication.Stream
