import Replication.Proofs.Stream.Relaying

/-! # Messages come back as they were sent

The fields of a body tell where it ends, so a body that was cut off or that goes on is no
message.  Frames that are sent one after the other are taken off the link one by one, and
what was written behind them waits untouched.
-/

namespace Replication.Stream

open Replication.Link (Connection Side Transport)
open Replication.Link.Connection (endpoint_setEndpoint write_eq_ok)
open Replication.Wire

/-! ## Bodies -/

section Bodies

variable {m : Message} (short : m.body.length < 2 ^ 31)

include short

theorem decode_body : Codec.decode m.op.id m.body = .ok m := by
  rw [Codec.decode_id]
  exact Codec.decodeBody_body m short

theorem decode_part {part more : Octets} (parts : part ++ more = m.body) (cut : more ≠ []) :
    ∃ e, Codec.decode m.op.id part = .error e := by
  have spells : Spells m.op.readBody m.body m := fun rest => readBody_body m short rest
  obtain ⟨e, s', failed⟩ := (renews_readBody m.op).fails_of_part spells parts cut
  refine ⟨.body e, ?_⟩
  rw [Codec.decode_id, Codec.decodeBody, failed]

theorem decode_longer {more : Octets} (longer : more ≠ []) :
    ∃ e, Codec.decode m.op.id (m.body ++ more) = .error e := by
  refine ⟨.trailing m.op more.length, ?_⟩
  obtain ⟨b, bytes, rfl⟩ := List.exists_cons_of_ne_nil longer
  rw [Codec.decode_id, Codec.decodeBody, readBody_body m short]

end Bodies

/-! ## Frames one after the other -/

namespace Session

variable {σ : Type}

/-- Puts messages on the link, one after the other. -/
def sendAll (c : Codec) (t : Transport σ) : List Message → EStateM StreamError (Session σ) Unit
  | [] => return ()
  | m :: ms => do
    send c t m
    sendAll c t ms

/-- Takes so many messages off the link. -/
def receiveMany (c : Codec) (t : Transport σ) :
    Nat → EStateM StreamError (Session σ) (List Message)
  | 0 => return []
  | n + 1 => do
    let m ← receive c t
    return m :: (← receiveMany c t n)

variable {c : Codec} {t : Transport σ}

theorem sendAll_append (ms ms' : List Message) :
    sendAll c t (ms ++ ms') = sendAll c t ms >>= fun _ => sendAll c t ms' := by
  induction ms with
  | nil => rfl
  | cons m ms ih => rw [List.cons_append, sendAll, sendAll, ih, bind_assoc]

/-- Messages that were all sent were all within the limit. -/
theorem length_le_of_sendAll {ms : List Message} {s s' : Session σ}
    (done : sendAll c t ms s = .ok () s') : ∀ m ∈ ms, m.body.length ≤ c.limit := by
  induction ms generalizing s with
  | nil => exact nofun
  | cons m ms ih =>
    obtain ⟨u, s₁, first, others⟩ := bind_eq_ok done
    exact List.forall_mem_cons.2 ⟨length_le_of_send first, ih others⟩

end Session

theorem foldl_put (ms : List Message) (t : Traffic) :
    ms.foldl Traffic.put t = { t with
      messagesWritten := t.messagesWritten + ms.length
      bytesWritten := t.bytesWritten + (ms.flatMap Message.frame).length } := by
  induction ms generalizing t with
  | nil => rfl
  | cons m ms ih => simp [ih, Traffic.put]; omega

theorem foldl_took (ms : List Message) (t : Traffic) :
    ms.foldl Traffic.took t = { t with
      messagesRead := t.messagesRead + ms.length
      bytesRead := t.bytesRead + (ms.flatMap Message.frame).length } := by
  induction ms generalizing t with
  | nil => rfl
  | cons m ms ih => simp [ih, Traffic.took]; omega

/-- A connection with both ends open, where these bytes have been written at one end and
    wait at the other one. -/
structure Piped (conn : Connection) (side : Side) (bytes : Octets) : Prop where
  here : (conn.endpoint side).closed = false
  there : (conn.endpoint side.other).closed = false
  waiting : (conn.endpoint side.other).incoming = bytes

namespace Piped

variable {conn : Connection} {side : Side} {bytes : Octets} {c : Codec} {s : Session Connection}
  {m : Message} {ms : List Message}

theorem setEndpoint (h : Piped conn side bytes) {e : Link.Endpoint} (isOpen : e.closed = false) :
    Piped (conn.setEndpoint side.other e) side e.incoming := by
  have kept : (conn.setEndpoint side.other e).endpoint side = conn.endpoint side := by
    cases side <;> rfl
  refine ⟨?_, ?_, ?_⟩
  · rw [kept]
    exact h.here
  · rw [endpoint_setEndpoint]
    exact isOpen
  · rw [endpoint_setEndpoint]

theorem write (h : Piped conn side bytes) (more : Octets) :
    ∃ conn', Connection.write side more conn = .ok () conn' ∧
      Piped conn' side (bytes ++ more) := by
  refine ⟨_, write_eq_ok h.here h.there, ?_⟩
  rw [← h.waiting]
  exact h.setEndpoint h.there

theorem send (h : Piped s.link side bytes) (fits : m.body.length ≤ c.limit) :
    ∃ s', Session.send c (Connection.transport side) m s = .ok () s' ∧
      Piped s'.link side (bytes ++ m.frame) ∧ s'.traffic = s.traffic.put m := by
  refine ⟨_, send_connection side fits h.here h.there, ?_, rfl⟩
  rw [← h.waiting]
  exact h.setEndpoint h.there

theorem receive (h : Piped s.link side (m.frame ++ bytes)) (short : m.body.length < 2 ^ 31)
    (fits : m.body.length ≤ c.limit) :
    ∃ s', Session.receive c (Connection.transport side.other) s = .ok m s' ∧
      Piped s'.link side bytes ∧ s'.traffic = s.traffic.took m :=
  ⟨_, receive_connection side.other short fits h.there h.waiting, h.setEndpoint h.there, rfl⟩

theorem sendAll (h : Piped s.link side bytes) (fit : ∀ m ∈ ms, m.body.length ≤ c.limit) :
    ∃ s', Session.sendAll c (Connection.transport side) ms s = .ok () s' ∧
      Piped s'.link side (bytes ++ ms.flatMap Message.frame) ∧
      s'.traffic = ms.foldl Traffic.put s.traffic := by
  induction ms generalizing s bytes with
  | nil =>
    refine ⟨s, rfl, ?_, rfl⟩
    rw [List.flatMap_nil, List.append_nil]
    exact h
  | cons m ms ih =>
    obtain ⟨s₁, sent, piped, traffic⟩ := h.send (fit m List.mem_cons_self)
    obtain ⟨s', others, piped', traffic'⟩ :=
      ih piped fun m' mem => fit m' (List.mem_cons_of_mem _ mem)
    refine ⟨s', ?_, ?_, ?_⟩
    · rw [Session.sendAll, bind_eq_of_ok sent, others]
    · rw [List.flatMap_cons, ← List.append_assoc]
      exact piped'
    · rw [traffic', traffic, List.foldl_cons]

theorem receiveMany (limit : c.limit < 2 ^ 31) (fit : ∀ m ∈ ms, m.body.length ≤ c.limit)
    (h : Piped s.link side (ms.flatMap Message.frame ++ bytes)) :
    ∃ s', Session.receiveMany c (Connection.transport side.other) ms.length s = .ok ms s' ∧
      Piped s'.link side bytes ∧ s'.traffic = ms.foldl Traffic.took s.traffic := by
  induction ms generalizing s with
  | nil => exact ⟨s, rfl, h, rfl⟩
  | cons m ms ih =>
    have fits := fit m List.mem_cons_self
    rw [List.flatMap_cons, List.append_assoc] at h
    obtain ⟨s₁, received, piped, traffic⟩ := h.receive (Nat.lt_of_le_of_lt fits limit) fits
    obtain ⟨s', others, piped', traffic'⟩ :=
      ih (fun m' mem => fit m' (List.mem_cons_of_mem _ mem)) piped
    refine ⟨s', ?_, piped', ?_⟩
    · rw [List.length_cons, Session.receiveMany, bind_eq_of_ok received, bind_eq_of_ok others]
      rfl
    · rw [traffic', traffic, List.foldl_cons]

end Piped

/-- Whatever a codec of less than 2 GiB has room for is written, and read back from its
    body, from nothing less and from nothing more.  Messages that were sent over a fresh
    connection, with any bytes behind them, are received in their order, each side counts
    the same, and just the bytes behind them are left. -/
theorem Codec.round_trip (c : Codec) (limit : c.limit < 2 ^ 31) :
    (∀ m : Message, m.body.length ≤ c.limit →
      (∃ header, header.length = headerSize ∧ c.encode m = .ok (header ++ m.body)) ∧
      decode m.op.id m.body = .ok m ∧
      (∀ part, part <+: m.body → part ≠ m.body → ∃ e, decode m.op.id part = .error e) ∧
      ∀ more, more ≠ [] → ∃ e, decode m.op.id (m.body ++ more) = .error e) ∧
    ∀ (ms : List Message), (∀ m ∈ ms, m.body.length ≤ c.limit) →
      ∀ (side : Side) (writer : Session Connection) (reader : Traffic) (more : Octets),
        Piped writer.link side [] →
        ∃ writer' link reader',
          Session.sendAll c (Connection.transport side) ms writer = .ok () writer' ∧
          Connection.write side more writer'.link = .ok () link ∧
          Session.receiveMany c (Connection.transport side.other) ms.length
            { link, traffic := reader } = .ok ms reader' ∧
          (reader'.link.endpoint side.other).incoming = more ∧
          ∃ messages bytes,
            writer'.traffic = { writer.traffic with
              messagesWritten := writer.traffic.messagesWritten + messages
              bytesWritten := writer.traffic.bytesWritten + bytes } ∧
            reader'.traffic = { reader with
              messagesRead := reader.messagesRead + messages
              bytesRead := reader.bytesRead + bytes } := by
  constructor
  · intro m fits
    have short : m.body.length < 2 ^ 31 := Nat.lt_of_le_of_lt fits limit
    refine ⟨⟨m.header, m.length_header, ?_⟩, decode_body short, ?_,
      fun more longer => decode_longer short longer⟩
    · rw [encode, if_pos fits]
      rfl
    · rintro part ⟨more, parts⟩ other
      apply decode_part short parts
      rintro rfl
      exact other (by rw [← parts, List.append_nil])
  · intro ms fit side writer reader more piped
    -- All frames and the bytes behind them wait at the other end before it reads any.
    obtain ⟨writer', sent, waiting, put⟩ := piped.sendAll fit
    rw [List.nil_append] at waiting
    obtain ⟨link, written, waiting'⟩ := waiting.write more
    obtain ⟨reader', received, left, took⟩ :=
      Piped.receiveMany (s := { link, traffic := reader }) limit fit waiting'
    refine ⟨writer', link, reader', sent, written, received, left.waiting, ms.length,
      (ms.flatMap Message.frame).length, ?_, ?_⟩
    · rw [put, foldl_put]
    · rw [took, foldl_took]

namespace Crossing

/-- A codec that just has room for the second of the messages below. -/
def codec : Codec where
  limit := 21
  limit_pos := by decide

/-- Messages with short and long packed numbers, an empty string and an empty body. -/
def messages : List Message :=
  [.groupAck [0, -120, 9223372036854775807],
    .entry {
      vlsn := -3, type := .abort, txn := 119, timestamp := -1
      payload := [], beforeImage := [0, 255] },
    .shutdownResponse]

end Crossing

/-- Three messages cross a connection with one byte behind them, and the second one is not
    read off a body without its last byte. -/
theorem Codec.round_trip_crossing :
    Crossing.codec.limit < 2 ^ 31 ∧
      (∀ m ∈ Crossing.messages, m.body.length ≤ Crossing.codec.limit) ∧
      Piped {} .opener [] ∧
      (∀ m ∈ Crossing.messages[1]?,
        ∃ e, decode m.op.id m.body.dropLast = .error e) ∧
      ∃ writer link reader,
        Session.sendAll Crossing.codec (Connection.transport .opener) Crossing.messages
          { link := {} } = .ok () writer ∧
        Connection.write .opener [7] writer.link = .ok () link ∧
        Session.receiveMany Crossing.codec (Connection.transport .accepter) 3 { link } =
          .ok Crossing.messages reader ∧
        reader.link.accepter.incoming = [7] ∧
        reader.traffic.bytesRead = writer.traffic.bytesWritten := by
  have limit : Crossing.codec.limit < 2 ^ 31 := by decide
  have fit : ∀ m ∈ Crossing.messages, m.body.length ≤ Crossing.codec.limit := by
    decide +kernel
  have fresh : Piped {} .opener [] := ⟨rfl, rfl, rfl⟩
  obtain ⟨bodies, lists⟩ := round_trip Crossing.codec limit
  refine ⟨limit, fit, fresh, ?_, ?_⟩
  · -- The entry ends with its images, so it lacks a byte of the second one.
    rintro m ⟨⟩
    obtain ⟨-, -, parts, -⟩ := bodies _ (fit _ (List.mem_cons_of_mem _ List.mem_cons_self))
    exact parts _ (List.dropLast_prefix _) (by decide +kernel)
  · obtain ⟨writer, link, reader, sent, written, received, left, messages, bytes, put, took⟩ :=
      lists _ fit .opener { link := {} } {} [7] fresh
    refine ⟨writer, link, reader, sent, written, received, left, ?_⟩
    rw [put, took]

end Replication.Stream
