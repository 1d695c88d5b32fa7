import Mathlib.Control.Monad.Basic
import Replication.Proofs.Parameters.Ranges
import Replication.Proofs.Stream.RoundTrip

/-! # What sizes are told

The header tells the size of a body, and a body tells those of its strings and byte arrays and
the number of ids in a group, all in four bytes with a sign.  Such a field tells a size modulo
2^32, and tells it as it is below 2^31.  Only the limit of the codec keeps bodies below that,
so the sizes of all frames are told as they are just when the limit is below 2^31.
-/

namespace Replication.Stream

open Replication.Link (Connection)
open Replication.Wire

/-! ## Size fields -/

/-- The integer that is read off the four bytes behind so many others. -/
def sizeAt (text : Octets) (offset : Nat) : Int :=
  (Int32.ofNat (ofBigEndian ((text.drop offset).take 4))).toInt

/-- The fields of an entry in front of its byte arrays. -/
def Entry.lead (e : Entry) : Octets :=
  putPackedLong e.vlsn ++ [e.type.ordinal] ++ putPackedLong e.txn ++ putLong e.timestamp

/-- Where in a body the sizes of its parts are told, and what they are. -/
def Message.partSizes : Message → List (Nat × Nat)
  | .entry e =>
    [(e.lead.length, e.payload.length),
      (e.lead.length + 4 + e.payload.length, e.beforeImage.length)]
  | .groupAck txns => [(0, txns.length)]
  | .clientVersion _ node _ _ | .serverVersion _ node _ => [(4, node.length)]
  | .incompatibleVersion reason | .protocolError reason => [(0, reason.length)]
  | _ => []

/-- Where in its frame the sizes of a message are told, and what they are. -/
def Message.sizes (m : Message) : List (Nat × Nat) :=
  (2, m.body.length) :: m.partSizes.map fun (offset, size) => (headerSize + offset, size)

/-- Whether bytes tell the sizes of a message as they are. -/
def Message.TellsSizes (m : Message) (frame : Octets) : Prop :=
  ∀ offset size, (offset, size) ∈ m.sizes → sizeAt frame offset = size

/-- A size that was written is read modulo 2^32. -/
theorem sizeAt_append {front back : Octets} {offset : Nat} (place : front.length = offset)
    (size : Nat) :
    sizeAt (front ++ (putInt (Int32.ofNat size) ++ back)) offset = Int.bmod size (2 ^ 32) := by
  have field : (putInt (Int32.ofNat size) ++ back).take 4 = putInt (Int32.ofNat size) :=
    List.take_left' (by simp [putInt])
  rw [sizeAt, List.drop_left' place, field, ofNat_putInt, Int32.toInt_ofNat']
  rfl

/-- It is told as it is if the sign is not in the way. -/
theorem bmod_eq_self_iff {size : Nat} : Int.bmod size (2 ^ 32) = size ↔ size < 2 ^ 31 := by
  rw [Int.bmod_eq_iff (by decide)]
  omega

namespace Message

variable {m : Message} {offset size : Nat}

theorem length_putInt (v : Int32) : (putInt v).length = 4 := length_bigEndian 4 _

/-- Behind each place in a body there is a size that was written. -/
theorem exists_of_mem_partSizes (mem : (offset, size) ∈ m.partSizes) :
    ∃ front back, m.body = front ++ (putInt (Int32.ofNat size) ++ back) ∧
      front.length = offset := by
  cases m with
  | entry e =>
    rcases List.mem_cons.1 mem with first | second
    · cases first
      exact ⟨e.lead, e.payload ++ putCounted e.beforeImage, by
        simp only [body, Entry.lead, putCounted, List.append_assoc], rfl⟩
    · cases List.mem_singleton.1 second
      refine ⟨e.lead ++ putCounted e.payload, e.beforeImage, ?_, ?_⟩
      · simp only [body, Entry.lead, putCounted, List.append_assoc]
      · rw [List.length_append, putCounted, List.length_append, length_putInt, Nat.add_assoc]
  | groupAck txns =>
    cases List.mem_singleton.1 mem
    exact ⟨[], _, rfl, rfl⟩
  | clientVersion version node id type =>
    cases List.mem_singleton.1 mem
    refine ⟨putInt version, node ++ putInt id ++ [type.ordinal], ?_, length_putInt version⟩
    simp only [body, putCounted, List.append_assoc]
  | serverVersion version node id =>
    cases List.mem_singleton.1 mem
    refine ⟨putInt version, node ++ putInt id, ?_, length_putInt version⟩
    simp only [body, putCounted, List.append_assoc]
  | incompatibleVersion reason | protocolError reason =>
    cases List.mem_singleton.1 mem
    exact ⟨[], reason, rfl, rfl⟩
  | _ => cases mem

theorem le_length_body_of_mem_partSizes (mem : (offset, size) ∈ m.partSizes) :
    size ≤ m.body.length := by
  cases m with
  | entry e =>
    have payload := length_le_length_putCounted e.payload
    have beforeImage := length_le_length_putCounted e.beforeImage
    simp only [body, List.length_append]
    rcases List.mem_cons.1 mem with first | second
    · cases first
      omega
    · cases List.mem_singleton.1 second
      omega
  | groupAck txns =>
    have ids := BodyReader.length_le_length_flatMap txns
    cases List.mem_singleton.1 mem
    simp only [body, List.length_append]
    omega
  | clientVersion version node id type | serverVersion version node id =>
    have string := length_le_length_putCounted node
    cases List.mem_singleton.1 mem
    simp only [body, List.length_append]
    omega
  | incompatibleVersion reason | protocolError reason =>
    cases List.mem_singleton.1 mem
    exact length_le_length_putCounted reason
  | _ => cases mem

/-- What is read where a frame tells a size. -/
theorem sizeAt_frame (mem : (offset, size) ∈ m.sizes) :
    sizeAt m.frame offset = Int.bmod size (2 ^ 32) := by
  rcases List.mem_cons.1 mem with whole | part
  · cases whole
    rw [frame, List.append_assoc]
    exact sizeAt_append (by simp [putShort]) _
  · obtain ⟨⟨place, size'⟩, mem', same⟩ := List.mem_map.1 part
    cases same
    obtain ⟨front, back, split, length⟩ := exists_of_mem_partSizes mem'
    rw [frame_eq, split, ← List.append_assoc]
    exact sizeAt_append (by rw [List.length_append, length_header, length]) _

/-- All sizes of a frame are told as they are just when that of the body is. -/
theorem tellsSizes_iff (m : Message) : m.TellsSizes m.frame ↔ m.body.length < 2 ^ 31 := by
  constructor
  · intro told
    have whole : (2, m.body.length) ∈ m.sizes := List.mem_cons_self
    rw [← bmod_eq_self_iff, ← sizeAt_frame whole]
    exact told _ _ whole
  · -- No part is larger than the body, so one bound does for all.
    intro short offset size mem
    have small : size ≤ m.body.length := by
      rcases List.mem_cons.1 mem with whole | part
      · cases whole
        exact Nat.le_refl _
      · obtain ⟨⟨place, size'⟩, mem', same⟩ := List.mem_map.1 part
        cases same
        exact le_length_body_of_mem_partSizes mem'
    rw [sizeAt_frame mem, bmod_eq_self_iff]
    exact Nat.lt_of_le_of_lt small short

theorem take_frame (m : Message) : m.frame.take headerSize = m.header := by
  rw [frame_eq, List.take_left' m.length_header]

end Message

/-! ## Codecs of accepted limits -/

namespace Codec

variable {c : Codec} {m : Message} {frame : Octets}

theorem encode_eq_ok_iff : c.encode m = .ok frame ↔ m.body.length ≤ c.limit ∧ m.frame = frame := by
  rw [encode]
  by_cases fits : m.body.length ≤ c.limit
  · simp [fits]
  · simp [fits]

theorem exists_ofLimit {limit : Int} (positive : 0 < limit) :
    ∃ c : Codec, ofLimit limit = .ok c ∧ (c.limit : Int) = limit := by
  obtain ⟨n, rfl⟩ : ∃ n : Nat, limit = .ofNat (n + 1) :=
    ⟨limit.toNat - 1, by simp only [Int.ofNat_eq_natCast]; omega⟩
  exact ⟨_, rfl, rfl⟩

/-- A header announces its message just when it tells the size of the body. -/
theorem decodeHeader_take_frame_iff (fits : m.body.length ≤ c.limit) :
    c.decodeHeader (m.frame.take headerSize) = .ok { op := m.op, size := m.body.length } ↔
      m.body.length < 2 ^ 31 := by
  rw [m.take_frame]
  constructor
  · intro announced
    rw [Message.header, c.decodeHeader_put, Op.ofId?_id] at announced
    split at announced
    · cases announced
    next inside =>
      -- What is read has a sign, so no size from 2^31 on is read as it is.
      have told : (Int32.ofNat m.body.length).toInt.toNat = m.body.length :=
        congrArg Header.size (Except.ok.inj announced)
      have below := Int32.toInt_lt (Int32.ofNat m.body.length)
      omega
  · exact fun short => (m.rawFrame short).decodeHeader_header fits

/-- A message that says nothing at length. -/
def filler (length : Nat) : Message :=
  .incompatibleVersion (List.replicate length 0)

@[simp] theorem length_body_filler (length : Nat) :
    (filler length).body.length = 4 + length := by
  rw [filler, Message.body, putCounted, List.length_append, List.length_replicate,
    Message.length_putInt]

/-- Whatever limit is accepted, there is a codec of it.  In a frame that it encodes, each size
    is told modulo 2^32: as it is just when the body is below 2^31, which is also when the
    header announces the message, and such a frame is read back whatever follows it.  All
    frames tell their sizes just when the limit is below 2^31. -/
theorem sizes_of_encoded {properties : List (Octets × Octets)} {p : Parameters}
    (accepted : Parameters.ofProperties properties = .ok p) :
    ∃ c : Codec, ofLimit p.maxMessageSize = .ok c ∧
      (∀ m frame, c.encode m = .ok frame →
        (∀ offset size, (offset, size) ∈ m.sizes →
          sizeAt frame offset = Int.bmod size (2 ^ 32)) ∧
        (m.TellsSizes frame ↔ m.body.length < 2 ^ 31) ∧
        (c.decodeHeader (frame.take headerSize) = .ok { op := m.op, size := m.body.length } ↔
          m.body.length < 2 ^ 31) ∧
        (m.body.length < 2 ^ 31 → ∀ side (s : Session Connection) more,
          Piped s.link side (frame ++ more) →
            ∃ s', Session.receive c (Connection.transport side.other) s = .ok m s' ∧
              Piped s'.link side more)) ∧
      ((∀ m frame, c.encode m = .ok frame → m.TellsSizes frame) ↔
        p.maxMessageSize < 2 ^ 31) := by
  obtain ⟨c, codec, limit⟩ := exists_ofLimit (Parameters.maxMessageSize_pos accepted)
  refine ⟨c, codec, ?_, ?_⟩
  · intro m frame encoded
    obtain ⟨fits, rfl⟩ := encode_eq_ok_iff.1 encoded
    refine ⟨fun _ _ => m.sizeAt_frame, m.tellsSizes_iff, decodeHeader_take_frame_iff fits, ?_⟩
    intro short side s more piped
    obtain ⟨s', received, left, -⟩ := piped.receive short fits
    exact ⟨s', received, left⟩
  · constructor
    · -- A filler that just is within a larger limit does not tell its size.
      intro told
      refine Int.not_le.1 fun large => ?_
      have encoded : c.encode (filler (2 ^ 31 - 4)) = .ok (filler (2 ^ 31 - 4)).frame :=
        encode_eq_ok_iff.2 ⟨by rw [length_body_filler]; omega, rfl⟩
      have short := (Message.tellsSizes_iff _).1 (told _ _ encoded)
      rw [length_body_filler] at short
      omega
    · intro small m frame encoded
      obtain ⟨fits, rfl⟩ := encode_eq_ok_iff.1 encoded
      exact m.tellsSizes_iff.2 (by omega)

/-- Fillers of up to 1 KiB tell their sizes and are read back. -/
theorem sizes_of_encoded_kibibyte :
    ∃ p c, Parameters.ofProperties [(.ofAscii "maxMessageSize", .ofAscii "1024")] = .ok p ∧
      ofLimit p.maxMessageSize = .ok c ∧
      (filler 1020).TellsSizes (filler 1020).frame ∧
      sizeAt (filler 1020).frame 2 = 1024 ∧
      ∃ s, Session.receive c (Connection.transport .accepter)
        { link := { accepter := { incoming := (filler 1020).frame } } } =
          .ok (filler 1020) s := by
  have accepted : Parameters.ofProperties [(.ofAscii "maxMessageSize", .ofAscii "1024")] =
      .ok { maxMessageSize := 1024 } := by
    decide +kernel
  obtain ⟨c, codec, frames, -⟩ := sizes_of_encoded accepted
  have limit : c.limit = 1024 := by
    cases codec
    rfl
  have encoded : c.encode (filler 1020) = .ok (filler 1020).frame :=
    encode_eq_ok_iff.2 ⟨Nat.le_of_eq (by rw [length_body_filler, limit]), rfl⟩
  have short : (filler 1020).body.length < 2 ^ 31 := by
    rw [length_body_filler]
    decide
  obtain ⟨places, tells, -, received⟩ := frames _ _ encoded
  obtain ⟨s, read, -⟩ := received short .opener
    { link := { accepter := { incoming := (filler 1020).frame } } } []
    ⟨rfl, rfl, (List.append_nil _).symm⟩
  refine ⟨_, c, accepted, codec, tells.2 short, ?_, s, read⟩
  rw [places 2 (filler 1020).body.length List.mem_cons_self, length_body_filler]
  decide

/-- A limit of 2 GiB is accepted, and a filler that is just within it is encoded; its header
    tells a negative size, which the reader of the same limit refuses. -/
theorem not_tellsSizes_of_encoded :
    ∃ p c frame,
      Parameters.ofProperties [(.ofAscii "maxMessageSize", .ofAscii "2147483648")] = .ok p ∧
      ofLimit p.maxMessageSize = .ok c ∧
      c.encode (filler 2147483644) = .ok frame ∧
      (2, 2147483648) ∈ (filler 2147483644).sizes ∧ sizeAt frame 2 = -2147483648 ∧
      ¬(filler 2147483644).TellsSizes frame ∧
      c.decodeHeader (frame.take headerSize) =
        .error (.sizeOutside 1002 (-2147483648) 2147483648) := by
  have accepted : Parameters.ofProperties [(.ofAscii "maxMessageSize", .ofAscii "2147483648")] =
      .ok { maxMessageSize := 2147483648 } := by
    decide +kernel
  have length : (filler 2147483644).body.length = 2147483648 := length_body_filler _
  have place : (2, 2147483648) ∈ (filler 2147483644).sizes := by
    rw [Message.sizes, length]
    exact List.mem_cons_self
  have told : sizeAt (filler 2147483644).frame 2 = -2147483648 := by
    rw [Message.sizeAt_frame place]
    decide
  refine ⟨_, { limit := 2147483648, limit_pos := by decide }, _, accepted, rfl,
    encode_eq_ok_iff.2 ⟨Nat.le_of_eq length, rfl⟩, place, told, ?_, ?_⟩
  · intro tells
    have same := (tells _ _ place).symm.trans told
    cases same
  · rw [Message.take_frame, Message.header, decodeHeader_put, length]
    rfl

end Codec

end Replication.Stream
