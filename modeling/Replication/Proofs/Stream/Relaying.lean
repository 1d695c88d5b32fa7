import Replication.Proofs.Stream.Frames
import Replication.Proofs.Wire.Spelling

/-! # Messages that are taken in and passed on

Many bodies are the same message: packed longs have longer forms, and any byte but zero is
true.  A message that was read off a body is written anew without growing, and is read off what was
written, so that a second turn changes nothing.
-/

namespace Replication.Stream

open Replication.Wire

/-! ## Parts of a body -/

namespace BodyReader

variable {α : Type}

theorem eq_ok_of_lift {r : Wire.Reader α} {s s' : Octets} {a : α}
    (read : (liftM r : BodyReader α) s = .ok a s') : r s = .ok a s' := by
  dsimp only [liftM, monadLift, MonadLift.monadLift] at read
  split at read
  next done =>
    cases read
    exact done
  next => cases read

theorem spells_lift {r : Wire.Reader α} {text : Octets} {a : α} (h : Spells r text a) :
    Spells (liftM r : BodyReader α) text a := fun rest => lift_eq_ok (h rest)

theorem renews_lift {r : Wire.Reader α} {before : Octets} {write : α → Octets}
    (h : Renews before r write) : Renews before (liftM r : BodyReader α) write := by
  intro s s' a read
  obtain ⟨text, written, split, spells, same, renewed, size⟩ := h _ _ _ (eq_ok_of_lift read)
  exact ⟨text, written, split, spells_lift spells, same, spells_lift renewed, size⟩

theorem renews_member (e : Enumeration) {ofOrdinal? : UInt8 → Option α} {ordinal : α → UInt8}
    (known : ∀ a, ofOrdinal? (ordinal a) = some a) :
    Renews [] (member e ofOrdinal?) (fun a => [ordinal a]) := by
  intro s s' a read
  obtain ⟨b, s₁, first, done⟩ := bind_eq_ok read
  obtain rfl := Reader.byte_eq_ok (eq_ok_of_lift first)
  cases named : ofOrdinal? b with
  | none =>
    rw [named] at done
    cases done
  | some a' =>
    rw [named] at done
    obtain ⟨rfl, rfl⟩ := pure_eq_ok done
    exact ⟨[b], [ordinal a'], rfl, fun rest => member_cons named rest, rfl,
      fun rest => member_cons (known a') rest, Nat.le_refl 1⟩

theorem renews_packedLongs (n : Nat) :
    Renews [] (packedLongs n) (List.flatMap putPackedLong) := by
  induction n with
  | zero => exact .pure rfl
  | succ n ih =>
    exact .bind (renews_lift Reader.renews_packedLong) fun _ => .bind ih fun _ => .pure rfl

theorem length_packedLongs (n : Nat) : Gives (fun vs => vs.length = n) (packedLongs n) := by
  induction n with
  | zero => exact .pure rfl
  | succ n ih =>
    exact .bind .any fun _ _ => .bind ih fun _ length => .pure (congrArg (· + 1) length)

/-- The ids are as many as their number tells, and each takes a byte, so there is room for
    them whatever follows. -/
theorem renews_countedPackedLongs :
    Renews [] countedPackedLongs
      fun vs => putInt (Int32.ofNat vs.length) ++ vs.flatMap putPackedLong := by
  intro s s' vs read
  obtain ⟨count, s₁, first, behind⟩ := bind_eq_ok read
  obtain ⟨countText, rfl, spells, size⟩ := Reader.settles_int (eq_ok_of_lift first)
  rw [bind_eq_of_ok (remaining_eq s₁)] at behind
  obtain ⟨allowed, longs⟩ := guard_eq_ok behind
  obtain ⟨text, written, rfl, spells', same, -, size'⟩ := renews_packedLongs _ _ _ _ longs
  obtain rfl : vs.flatMap putPackedLong = written := same
  have length := length_packedLongs _ _ _ _ longs
  have few := length_le_length_flatMap vs
  have bound := count.toInt_lt
  refine ⟨countText ++ text, putInt (Int32.ofNat vs.length) ++ vs.flatMap putPackedLong,
    by rw [List.append_assoc], ?_, rfl, fun rest => ?_, ?_⟩
  -- Whatever follows them, the ids alone are bytes enough for their number to pass.
  · refine Spells.bind (spells_lift spells) fun rest => ?_
    rw [bind_eq_of_ok (remaining_eq _), if_neg]
    · exact spells' rest
    · rw [List.length_append]
      omega
  · rw [List.append_assoc]
    exact countedPackedLongs_put (by omega) rest
  · rw [putInt, length_bigEndian] at size
    rw [putInt, List.length_append, List.length_append, length_bigEndian]
    omega

end BodyReader

/-! ## Bodies -/

open BodyReader Wire.Reader in
/-- Each part of a body is renewed, so the body is. -/
theorem renews_readBody (op : Op) : Renews [] op.readBody Message.body := by
  have bool := renews_lift renews_bool
  have int := renews_lift renews_int
  have long := renews_lift renews_long
  have packed := renews_lift renews_packedLong
  have string := renews_lift (renews_counted .string)
  have bytes := renews_lift (renews_counted .byteArray)
  cases op with
  | heartbeat => exact .bind long fun _ => .bind long fun _ => .bind packed fun _ => .pure rfl
  | heartbeatResponse =>
    exact .bind long fun _ => .bind packed fun _ => .bind packed fun _ => .pure rfl
  | entry =>
    exact .bind packed fun _ => .bind (renews_member _ EntryType.ofOrdinal?_ordinal) fun _ =>
      .bind packed fun _ => .bind long fun _ => .bind bytes fun _ => .bind bytes fun _ => .pure rfl
  | commit =>
    exact .bind packed fun _ => .bind packed fun _ => .bind packed fun _ => .bind long fun _ =>
      .bind (renews_member _ SyncPolicy.ofOrdinal?_ordinal) fun _ => .bind bool fun _ =>
        .bind long fun _ => .pure rfl
  | ack => exact .bind packed fun _ => .pure rfl
  | groupAck => exact .bind renews_countedPackedLongs fun _ => .pure rfl
  | shutdownRequest => exact .bind long fun _ => .pure rfl
  | shutdownResponse => exact .pure rfl
  | clientVersion =>
    exact .bind int fun _ => .bind string fun _ => .bind int fun _ =>
      .bind (renews_member _ NodeType.ofOrdinal?_ordinal) fun _ => .pure rfl
  | serverVersion =>
    exact .bind int fun _ => .bind string fun _ => .bind int fun _ => .pure rfl
  | incompatibleVersion | protocolError => exact .bind string fun _ => .pure rfl

/-- The message that is read is one of the op. -/
theorem op_readBody (op : Op) : Gives (fun m => m.op = op) op.readBody := by
  cases op <;> repeat' first | exact .pure rfl | refine .bind .any fun _ _ => ?_

theorem Op.id_of_ofId? {id : Int16} {op : Op} (known : Op.ofId? id = some op) : op.id = id := by
  rw [ofId?] at known
  have found := List.find?_some known
  exact of_decide_eq_true found

namespace Codec

theorem decodeBody_eq_ok {op : Op} {body : Octets} {m : Message}
    (decoded : decodeBody op body = .ok m) : op.readBody body = .ok m [] := by
  unfold decodeBody at decoded
  split at decoded
  · cases decoded
  next read =>
    cases decoded
    exact read
  · cases decoded

theorem op_of_decodeBody {op : Op} {body : Octets} {m : Message}
    (decoded : decodeBody op body = .ok m) : m.op = op :=
  op_readBody op _ _ _ (decodeBody_eq_ok decoded)

/-- What is written for a message that was read is not longer than what it was read off, and
    is read as the same message. -/
theorem decodeBody_anew {op : Op} {body : Octets} {m : Message}
    (decoded : decodeBody op body = .ok m) :
    m.body.length ≤ body.length ∧ decodeBody op m.body = .ok m := by
  obtain ⟨text, written, split, -, same, renewed, size⟩ :=
    renews_readBody op _ _ _ (decodeBody_eq_ok decoded)
  obtain rfl : m.body = written := same
  have again := renewed []
  rw [List.append_nil] at split again
  rw [split]
  refine ⟨size, ?_⟩
  rw [decodeBody, again]

theorem decode_id (op : Op) (body : Octets) : decode op.id body = decodeBody op body := by
  rw [decode, Op.ofId?_id]

/-- What becomes of a body that is taken in and passed on: the frame of its message. -/
def relay (c : Codec) (id : Int16) (body : Octets) : Except CodecError Octets := do
  c.encode (← decode id body)

theorem relay_eq_ok {c : Codec} {id : Int16} {body : Octets} {m : Message}
    (decoded : decode id body = .ok m) (fits : m.body.length ≤ c.limit) :
    c.relay id body = .ok m.frame := by
  rw [relay, decoded, ok_bind, encode, if_pos fits]

/-- A body is no message, or one of the op that was asked for.  If the body has room then, so
    has the message's own body, which is not longer and is the same message again, so that
    to pass the message on once more changes nothing. -/
theorem decode_normalises (c : Codec) (id : Int16) (body : Octets) :
    (∃ e, decode id body = .error e) ∨
      ∃ m, decode id body = .ok m ∧ m.op.id = id ∧
        (body.length ≤ c.limit →
          ∃ frame, c.encode m = .ok frame ∧ frame.drop headerSize = m.body ∧
            m.body.length ≤ body.length ∧ frame.length ≤ headerSize + body.length ∧
            decode id m.body = .ok m ∧
            c.relay id body = .ok frame ∧ c.relay id (frame.drop headerSize) = .ok frame) := by
  cases known : Op.ofId? id with
  | none => exact .inl ⟨.unknownOp id, by rw [decode, known]⟩
  | some op =>
    obtain rfl := Op.id_of_ofId? known
    simp only [decode_id]
    cases decoded : decodeBody op body with
    | error e => exact .inl ⟨e, rfl⟩
    | ok m =>
      -- The limit allows what is written anew as it allowed what was read.
      obtain ⟨size, again⟩ := decodeBody_anew decoded
      refine .inr ⟨m, rfl, congrArg Op.id (op_of_decodeBody decoded), fun room => ?_⟩
      have fits : m.body.length ≤ c.limit := Nat.le_trans size room
      refine ⟨m.frame, by rw [encode, if_pos fits], m.drop_frame, size, ?_, again,
        relay_eq_ok ((decode_id op body).trans decoded) fits, ?_⟩
      · rw [m.length_frame]
        exact Nat.add_le_add_left size headerSize
      · rw [m.drop_frame]
        exact relay_eq_ok ((decode_id op m.body).trans again) fits

end Codec

namespace Longhand

/-- A codec that just has room for the body below. -/
def codec : Codec where
  limit := 16
  limit_pos := by decide

/-- A group acknowledgment of two ids, one in a form that is too long and one in a form that
    says more than a word holds. -/
def body : Octets :=
  [0, 0, 0, 2] ++ [121, 1, 0] ++ (127 :: List.replicate 8 255)

end Longhand

/-- It is passed on in seven bytes behind the header, and then in the same ones. -/
theorem Codec.decode_normalises_longhand :
    Longhand.body.length ≤ Longhand.codec.limit ∧
      ∃ frame, decode 6 Longhand.body = .ok (.groupAck [120, 118]) ∧
        Longhand.codec.encode (.groupAck [120, 118]) = .ok frame ∧
        frame.drop headerSize = [0, 0, 0, 2, 120, 1, 118] ∧
        Longhand.codec.relay 6 Longhand.body = .ok frame ∧
        Longhand.codec.relay 6 (frame.drop headerSize) = .ok frame := by
  have room : Longhand.body.length ≤ Longhand.codec.limit := by decide
  have read : decode 6 Longhand.body = .ok (.groupAck [120, 118]) := rfl
  obtain ⟨e, failed⟩ | ⟨m, decoded, -, anew⟩ := decode_normalises Longhand.codec 6 Longhand.body
  · rw [read] at failed
    cases failed
  · rw [read] at decoded
    cases decoded
    obtain ⟨frame, encoded, own, -, -, -, first, second⟩ := anew room
    have short : (Message.groupAck [120, 118]).body = [0, 0, 0, 2, 120, 1, 118] := by
      decide +kernel
    exact ⟨room, frame, read, encoded, own.trans short, first, second⟩

end Replication.Stream
