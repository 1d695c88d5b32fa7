import Replication.Proofs.Link.Pipes
import Replication.Proofs.Stream.Bodies
import Replication.Stream.Session

/-! # Frames are taken off as they were put on

What one end of a connection sends is a frame, and a frame at the front of what waits at
the other end is taken off whole: the message comes out, and the bytes behind it stay.
-/

namespace Replication.Stream

open Replication.Link (Connection LinkError Side Transport)
open Replication.Link.Connection (endpoint_setEndpoint read_eq_ok setEndpoint_setEndpoint
  write_eq_ok)
open Replication.Wire

/-! ## Headers -/

/-- The bytes of a message's header. -/
def Message.header (m : Message) : Octets :=
  putShort m.op.id ++ putInt (Int32.ofNat m.body.length)

theorem Message.frame_eq (m : Message) : m.frame = m.header ++ m.body := rfl

@[simp] theorem Message.length_header (m : Message) : m.header.length = headerSize := by
  simp [header, putShort, putInt, headerSize]

theorem Message.drop_frame (m : Message) : m.frame.drop headerSize = m.body := by
  rw [frame_eq, List.drop_left' m.length_header]

theorem Message.frame_ne_nil (m : Message) : m.frame ≠ [] := by
  have length := m.length_header
  rw [frame_eq]
  intro empty
  rw [(List.append_eq_nil_iff.1 empty).1] at length
  cases length

/-- What is made of a header: its size is looked at first, and then its op. -/
theorem Codec.decodeHeader_put (c : Codec) (id : Int16) (size : Int32) :
    c.decodeHeader (putShort id ++ putInt size) =
      if size.toInt < 0 ∨ c.limit < size.toInt then .error (.sizeOutside id size c.limit)
      else match Op.ofId? id with
        | none => .error (.unknownOp id)
        | some op => .ok { op, size := size.toInt.toNat } := by
  have front : (putShort id ++ putInt size).take 2 = putShort id :=
    List.take_left' (by simp [putShort])
  have back : (putShort id ++ putInt size).drop 2 = putInt size :=
    List.drop_left' (by simp [putShort])
  rw [decodeHeader, front, back, ofNat_putShort, ofNat_putInt]
  by_cases outside : size.toInt < 0 ∨ c.limit < size.toInt
  · rw [if_pos outside, if_pos outside]
    rfl
  · rw [if_neg outside, if_neg outside]
    cases Op.ofId? id <;> rfl

theorem Op.mem_all (op : Op) : op ∈ Op.all := by
  cases op <;> decide

theorem Op.ofId?_eq_none_iff {id : Int16} : Op.ofId? id = none ↔ ∀ op : Op, op.id ≠ id := by
  simp [Op.ofId?, List.find?_eq_none, Op.mem_all]

/-- What is wrong with a header that announces no frame of a codec. -/
def Codec.headerError (c : Codec) (id : Int16) (size : Int32) : CodecError :=
  if size.toInt < 0 ∨ c.limit < size.toInt then .sizeOutside id size c.limit else .unknownOp id

theorem Codec.decodeHeader_eq_error (c : Codec) {id : Int16} {size : Int32}
    (bad : size.toInt < 0 ∨ c.limit < size.toInt ∨ ∀ op : Op, op.id ≠ id) :
    c.decodeHeader (putShort id ++ putInt size) = .error (c.headerError id size) := by
  rw [c.decodeHeader_put, headerError]
  by_cases outside : size.toInt < 0 ∨ c.limit < size.toInt
  · rw [if_pos outside, if_pos outside]
  · -- A size that is allowed leaves the op to be at fault.
    have unknown : Op.ofId? id = none :=
      Op.ofId?_eq_none_iff.2 ((or_assoc.2 bad).resolve_left outside)
    rw [if_neg outside, if_neg outside, unknown]

/-- The size of a body that is short enough is told as it is. -/
theorem toInt_ofNat_length {body : Octets} (short : body.length < 2 ^ 31) :
    (Int32.ofNat body.length).toInt = body.length := by
  rw [← Int32.ofInt_eq_ofNat, Int32.toInt_ofInt_of_le (by omega) (by omega)]

/-! ## Frames of any bytes -/

/-- A frame of a known op, whose size field tells the size of its body, which may be no body
    of the op. -/
structure RawFrame where
  op : Op
  body : Octets
  short : body.length < 2 ^ 31

namespace RawFrame

/-- The bytes in front of the body. -/
def header (f : RawFrame) : Octets :=
  putShort f.op.id ++ putInt (Int32.ofNat f.body.length)

def bytes (f : RawFrame) : Octets :=
  f.header ++ f.body

/-- The message of the frame, or what is wrong with the body. -/
def message (f : RawFrame) : Except CodecError Message :=
  Codec.decodeBody f.op f.body

def isMessage (f : RawFrame) : Bool :=
  f.message.isOk

@[simp] theorem length_header (f : RawFrame) : f.header.length = headerSize := by
  simp [header, putShort, putInt, headerSize]

/-- A header announces its frame, if the limit allows the body. -/
theorem decodeHeader_header {c : Codec} (f : RawFrame) (fits : f.body.length ≤ c.limit) :
    c.decodeHeader f.header = .ok { op := f.op, size := f.body.length } := by
  rw [header, c.decodeHeader_put, toInt_ofNat_length f.short, Op.ofId?_id, if_neg (by omega)]
  rfl

@[simp] theorem length_bytes (f : RawFrame) : f.bytes.length = headerSize + f.body.length := by
  rw [bytes, List.length_append, length_header]

end RawFrame

/-- The frame of a message, which is not too long for its size field. -/
def Message.rawFrame (m : Message) (short : m.body.length < 2 ^ 31) : RawFrame where
  op := m.op
  body := m.body
  short := short

theorem Message.message_rawFrame (m : Message) (short : m.body.length < 2 ^ 31) :
    (m.rawFrame short).message = .ok m :=
  Codec.decodeBody_body m short

/-! ## Sessions -/

/-- The traffic of a session that has taken one more message off its link. -/
def Traffic.took (t : Traffic) (m : Message) : Traffic :=
  { t with messagesRead := t.messagesRead + 1, bytesRead := t.bytesRead + m.frame.length }

/-- The traffic of a session that has put one more message on its link. -/
def Traffic.put (t : Traffic) (m : Message) : Traffic :=
  { t with
    messagesWritten := t.messagesWritten + 1
    bytesWritten := t.bytesWritten + m.frame.length }

/-- The traffic of a session that has taken one more frame off its link: it counts if it is a
    message. -/
def Traffic.saw (t : Traffic) (f : RawFrame) : Traffic :=
  if f.isMessage then
    { t with messagesRead := t.messagesRead + 1, bytesRead := t.bytesRead + f.bytes.length }
  else t

namespace Traffic

variable {f : RawFrame} (t : Traffic)

theorem saw_of_ok {m : Message} (read : f.message = .ok m) :
    t.saw f = { t with
      messagesRead := t.messagesRead + 1, bytesRead := t.bytesRead + f.bytes.length } := by
  rw [saw, RawFrame.isMessage, read]
  rfl

theorem saw_of_error {e : CodecError} (read : f.message = .error e) : t.saw f = t := by
  rw [saw, RawFrame.isMessage, read]
  rfl

theorem saw_rawFrame (m : Message) (short : m.body.length < 2 ^ 31) :
    t.saw (m.rawFrame short) = t.took m :=
  t.saw_of_ok (m.message_rawFrame short)

end Traffic

theorem Message.length_frame (m : Message) : m.frame.length = headerSize + m.body.length := by
  rw [frame_eq, List.length_append, length_header]

namespace Session

variable {σ : Type} {c : Codec} {t : Transport σ} {s : Session σ} {l₁ l₂ : σ} {m : Message}

theorem onLink_eq_ok {α : Type} {x : EStateM LinkError σ α} {a : α} {link : σ}
    (done : x s.link = .ok a link) : onLink x s = .ok a { s with link } := by
  rw [onLink, done]

theorem onLink_eq_error {α : Type} {x : EStateM LinkError σ α} {e : LinkError} {link : σ}
    (failed : x s.link = .error e link) : onLink x s = .error (.link e) { s with link } := by
  rw [onLink, failed]

theorem liftCodec_decodeHeader (short : m.body.length < 2 ^ 31) (fits : m.body.length ≤ c.limit)
    (s : Session σ) :
    liftCodec (c.decodeHeader m.header) s = .ok { op := m.op, size := m.body.length } s := by
  have announced : c.decodeHeader m.header = .ok { op := m.op, size := m.body.length } :=
    (m.rawFrame short).decodeHeader_header fits
  rw [announced]
  rfl

theorem liftCodec_eq_endWith {α : Type} (x : Except CodecError α) (s : Session σ) :
    liftCodec x s = endWith (x.mapError .codec) s := by
  cases x <;> rfl

/-- Behind the bytes of a frame only its body decides, and it counts if it is a message. -/
theorem decode_eq_endWith (f : RawFrame) (next : Message → EStateM StreamError (Session σ) Message)
    (counts : ∀ m, next m s = .ok m { s with traffic := { s.traffic with
      messagesRead := s.traffic.messagesRead + 1
      bytesRead := s.traffic.bytesRead + headerSize + f.body.length } }) :
    (liftCodec (Codec.decodeBody f.op f.body) >>= next) s =
      endWith (f.message.mapError .codec) { s with traffic := s.traffic.saw f } := by
  have decoded : liftCodec (Codec.decodeBody f.op f.body) s =
      endWith (f.message.mapError .codec) s := liftCodec_eq_endWith _ _
  cases read : f.message with
  | error e =>
    rw [read] at decoded
    rw [bind_eq_of_error decoded, s.traffic.saw_of_error read]
    rfl
  | ok m =>
    rw [read] at decoded
    rw [bind_eq_of_ok decoded, counts m, s.traffic.saw_of_ok read, f.length_bytes,
      ← Nat.add_assoc]
    rfl

/-- A frame that is read in two parts has left the link, and counts if it is a message. -/
theorem receive_eq_endWith {f : RawFrame} (fits : f.body.length ≤ c.limit)
    (header : t.read headerSize s.link = .ok f.header l₁)
    (body : if f.body.length = 0 then l₂ = l₁ else t.read f.body.length l₁ = .ok f.body l₂) :
    receive c t s = endWith (f.message.mapError .codec)
      { link := l₂, traffic := s.traffic.saw f } := by
  have announced : liftCodec (c.decodeHeader f.header) { s with link := l₁ } =
      .ok { op := f.op, size := f.body.length } { s with link := l₁ } := by
    rw [f.decodeHeader_header fits]
    rfl
  rw [receive, bind_eq_of_ok (onLink_eq_ok header), bind_eq_of_ok announced]
  -- The link is not asked for an empty body.
  by_cases empty : f.body.length = 0
  · rw [if_pos empty] at body
    subst body
    simp only [if_pos empty, pure_bind]
    rw [← List.eq_nil_of_length_eq_zero empty]
    exact decode_eq_endWith f _ fun _ => rfl
  · rw [if_neg empty] at body
    simp only [if_neg empty]
    rw [bind_eq_of_ok (onLink_eq_ok body)]
    exact decode_eq_endWith f _ fun _ => rfl

/-- A frame that is read in two parts gives its message. -/
theorem receive_eq_ok (short : m.body.length < 2 ^ 31) (fits : m.body.length ≤ c.limit)
    (header : t.read headerSize s.link = .ok m.header l₁)
    (body : if m.body.length = 0 then l₂ = l₁ else t.read m.body.length l₁ = .ok m.body l₂) :
    receive c t s = .ok m { link := l₂, traffic := s.traffic.took m } := by
  have done : receive c t s = endWith ((m.rawFrame short).message.mapError .codec)
      { link := l₂, traffic := s.traffic.saw (m.rawFrame short) } :=
    receive_eq_endWith fits header body
  rwa [m.message_rawFrame, s.traffic.saw_rawFrame] at done

theorem receive_eq_error_of_link {e : LinkError} (failed : t.read headerSize s.link = .error e l₁) :
    receive c t s = .error (.link e) { s with link := l₁ } := by
  rw [receive, bind_eq_of_error (onLink_eq_error failed)]

theorem receive_eq_error_of_header {id : Int16} {size : Int32}
    (bad : size.toInt < 0 ∨ c.limit < size.toInt ∨ ∀ op : Op, op.id ≠ id)
    (header : t.read headerSize s.link = .ok (putShort id ++ putInt size) l₁) :
    receive c t s = .error (.codec (c.headerError id size)) { s with link := l₁ } := by
  rw [receive, bind_eq_of_ok (onLink_eq_ok header), c.decodeHeader_eq_error bad]
  -- The link is not asked for a body.
  exact bind_eq_of_error rfl

theorem receive_eq_error_of_large (short : m.body.length < 2 ^ 31)
    (large : c.limit < m.body.length) (header : t.read headerSize s.link = .ok m.header l₁) :
    ∃ e, receive c t s = .error (.codec e) { s with link := l₁ } := by
  have outside : c.limit < (Int32.ofNat m.body.length).toInt := by
    rw [toInt_ofNat_length short]
    omega
  exact ⟨_, receive_eq_error_of_header (.inr (.inl outside)) header⟩

theorem send_eq_ok (fits : m.body.length ≤ c.limit) {link : σ}
    (written : t.write m.frame s.link = .ok () link) :
    send c t m s = .ok () { link, traffic := s.traffic.put m } := by
  have encoded : liftCodec (c.encode m) s = .ok m.frame s := by
    rw [Codec.encode, if_pos fits]
    rfl
  rw [send, bind_eq_of_ok encoded, bind_eq_of_ok (onLink_eq_ok written)]
  rfl

theorem send_eq_error_of_large (large : c.limit < m.body.length) :
    send c t m s = .error (.codec (.tooLarge m.op m.body.length c.limit)) s := by
  have refused : liftCodec (c.encode m) s =
      .error (.codec (.tooLarge m.op m.body.length c.limit)) s := by
    rw [Codec.encode, if_neg (Nat.not_le.2 large)]
    rfl
  rw [send, bind_eq_of_error refused]

theorem length_le_of_send {s' : Session σ} (done : send c t m s = .ok () s') :
    m.body.length ≤ c.limit := by
  refine Nat.not_lt.1 fun large => ?_
  rw [send_eq_error_of_large large] at done
  cases done

end Session

/-! ## Connections -/

section Connections

variable {c : Codec} {s : Session Connection} {m : Message} (side : Side)

/-- A frame in front is taken off, whatever its body is. -/
theorem receive_raw {f : RawFrame} (fits : f.body.length ≤ c.limit) {rest : Octets}
    (isOpen : (s.link.endpoint side).closed = false)
    (incoming : (s.link.endpoint side).incoming = f.bytes ++ rest) :
    Session.receive c (Connection.transport side) s = endWith (f.message.mapError .codec)
      { link := s.link.setEndpoint side { s.link.endpoint side with incoming := rest }
        traffic := s.traffic.saw f } := by
  rw [RawFrame.bytes, List.append_assoc] at incoming
  have header := read_eq_ok isOpen incoming
  rw [f.length_header] at header
  refine Session.receive_eq_endWith fits header ?_
  split
  next empty => rw [List.eq_nil_of_length_eq_zero empty, List.nil_append]
  next =>
    let e := s.link.endpoint side
    have body : Connection.read side f.body.length
        (s.link.setEndpoint side { e with incoming := f.body ++ rest }) = .ok f.body _ :=
      read_eq_ok (by rw [endpoint_setEndpoint]; exact isOpen) (by rw [endpoint_setEndpoint])
    rw [endpoint_setEndpoint, setEndpoint_setEndpoint] at body
    exact body

theorem receive_connection (short : m.body.length < 2 ^ 31) (fits : m.body.length ≤ c.limit)
    {rest : Octets} (isOpen : (s.link.endpoint side).closed = false)
    (incoming : (s.link.endpoint side).incoming = m.frame ++ rest) :
    Session.receive c (Connection.transport side) s = .ok m
      { link := s.link.setEndpoint side { s.link.endpoint side with incoming := rest }
        traffic := s.traffic.took m } := by
  have done := receive_raw side (f := m.rawFrame short) fits isOpen incoming
  rwa [m.message_rawFrame, s.traffic.saw_rawFrame] at done

/-- A header that announces no frame is taken off by itself. -/
theorem receive_connection_of_header {id : Int16} {size : Int32} {rest : Octets}
    (bad : size.toInt < 0 ∨ c.limit < size.toInt ∨ ∀ op : Op, op.id ≠ id)
    (isOpen : (s.link.endpoint side).closed = false)
    (incoming : (s.link.endpoint side).incoming = putShort id ++ putInt size ++ rest) :
    Session.receive c (Connection.transport side) s = .error (.codec (c.headerError id size))
      { s with link :=
        s.link.setEndpoint side { s.link.endpoint side with incoming := rest } } := by
  have length : (putShort id ++ putInt size).length = headerSize := by
    simp [putShort, putInt, headerSize]
  refine Session.receive_eq_error_of_header bad ?_
  rw [← length]
  exact read_eq_ok isOpen incoming

theorem receive_connection_of_large (short : m.body.length < 2 ^ 31)
    (large : c.limit < m.body.length) {rest : Octets}
    (isOpen : (s.link.endpoint side).closed = false)
    (incoming : (s.link.endpoint side).incoming = m.frame ++ rest) :
    ∃ e link, Session.receive c (Connection.transport side) s = .error (.codec e)
      { s with link } := by
  rw [Message.frame_eq, List.append_assoc] at incoming
  have header := read_eq_ok isOpen incoming
  rw [Message.length_header] at header
  obtain ⟨e, failed⟩ := Session.receive_eq_error_of_large short large
    (t := Connection.transport side) header
  exact ⟨e, _, failed⟩

theorem send_connection (fits : m.body.length ≤ c.limit)
    (here : (s.link.endpoint side).closed = false)
    (there : (s.link.endpoint side.other).closed = false) :
    Session.send c (Connection.transport side) m s = .ok ()
      { link := s.link.setEndpoint side.other { s.link.endpoint side.other with
          incoming := (s.link.endpoint side.other).incoming ++ m.frame }
        traffic := s.traffic.put m } :=
  Session.send_eq_ok fits (write_eq_ok here there)

end Connections

/-! ## What is under way -/

/-- A connection with both ends open, and the bytes that wait at the accepter's end and at
    the opener's. -/
structure Carries (conn : Connection) (up down : Octets) : Prop where
  opener : conn.opener.closed = false
  accepter : conn.accepter.closed = false
  up : conn.accepter.incoming = up
  down : conn.opener.incoming = down

namespace Carries

variable {conn : Connection} {up down : Octets}

theorem setTimeout (h : Carries conn up down) (side : Side) (milliseconds : Int) :
    Carries (conn.setTimeout side milliseconds) up down := by
  cases side <;> exact ⟨h.opener, h.accepter, h.up, h.down⟩

theorem read {bytes : Octets} (h : Carries conn up (bytes ++ down)) :
    ∃ conn', Connection.read .opener bytes.length conn = .ok bytes conn' ∧
      Carries conn' up down :=
  ⟨_, read_eq_ok h.opener h.down, h.opener, h.accepter, h.up, rfl⟩

theorem write (h : Carries conn up down) (bytes : Octets) :
    ∃ conn', Connection.write .opener bytes conn = .ok () conn' ∧
      Carries conn' (up ++ bytes) down := by
  refine ⟨_, write_eq_ok h.opener h.accepter, h.opener, h.accepter, ?_, h.down⟩
  exact congrArg (· ++ bytes) h.up

variable {c : Codec} {s : Session Connection} {m : Message}

theorem receive (h : Carries s.link (m.frame ++ up) down) (short : m.body.length < 2 ^ 31)
    (fits : m.body.length ≤ c.limit) :
    ∃ s', Session.receive c (Connection.transport .accepter) s = .ok m s' ∧
      Carries s'.link up down := by
  have done := receive_connection .accepter short fits h.accepter h.up
  exact ⟨_, done, h.opener, h.accepter, rfl, h.down⟩

theorem receive_of_large (h : Carries s.link (m.frame ++ up) down) (short : m.body.length < 2 ^ 31)
    (large : c.limit < m.body.length) :
    ∃ e s', Session.receive c (Connection.transport .accepter) s = .error e s' := by
  obtain ⟨e, link, failed⟩ := receive_connection_of_large .accepter short large h.accepter h.up
  exact ⟨_, _, failed⟩

theorem send (h : Carries s.link up down) (fits : m.body.length ≤ c.limit) :
    ∃ s', Session.send c (Connection.transport .accepter) m s = .ok () s' ∧
      Carries s'.link up (down ++ m.frame) := by
  have done := send_connection .accepter fits h.accepter h.opener
  refine ⟨_, done, h.opener, h.accepter, h.up, ?_⟩
  exact congrArg (· ++ m.frame) h.down

/-! The same at the other end. -/

theorem receive_down (h : Carries s.link up (m.frame ++ down)) (short : m.body.length < 2 ^ 31)
    (fits : m.body.length ≤ c.limit) :
    ∃ s', Session.receive c (Connection.transport .opener) s = .ok m s' ∧
      Carries s'.link up down := by
  have done := receive_connection .opener short fits h.opener h.down
  exact ⟨_, done, h.opener, h.accepter, h.up, rfl⟩

theorem send_up (h : Carries s.link up down) (fits : m.body.length ≤ c.limit) :
    ∃ s', Session.send c (Connection.transport .opener) m s = .ok () s' ∧
      Carries s'.link (up ++ m.frame) down := by
  have done := send_connection .opener fits h.opener h.accepter
  refine ⟨_, done, h.opener, h.accepter, ?_, h.down⟩
  exact congrArg (· ++ m.frame) h.up

end Carries

end Replication.Stream
