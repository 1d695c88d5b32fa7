import Replication.Proofs.Wire.Packed
import Replication.Stream.Codec

/-! # Bodies are read back

The reader of an op undoes what the writer of its messages did, whatever follows.  The
fields do it one by one; only lengths and counts need the body to be shorter than their
four bytes can tell.
-/

namespace Replication.Stream

open Replication.Wire

/-! ## Fields of a body -/

namespace BodyReader

variable {α β : Type} {s s' : Octets}

theorem lift_eq_ok {r : Wire.Reader α} {a : α} (read : r s = .ok a s') :
    (liftM r : BodyReader α) s = .ok a s' := by
  dsimp only [liftM, monadLift, MonadLift.monadLift]
  rw [read]

theorem member_cons {e : Enumeration} {ofOrdinal? : UInt8 → Option α} {ordinal : UInt8} {a : α}
    (known : ofOrdinal? ordinal = some a) (rest : Octets) :
    member e ofOrdinal? (ordinal :: rest) = .ok a rest := by
  rw [member, bind_eq_of_ok (lift_eq_ok (Reader.byte_cons rest ordinal)), known]
  rfl

section Binds

variable (rest : Octets)

@[simp] theorem bool_bind (b : Bool) (f : Bool → BodyReader β) :
    (liftM Reader.bool >>= f) (putBool b ++ rest) = f b rest :=
  bind_eq_of_ok (lift_eq_ok (Reader.bool_putBool rest b))

@[simp] theorem int_bind (v : Int32) (f : Int32 → BodyReader β) :
    (liftM Reader.int >>= f) (putInt v ++ rest) = f v rest :=
  bind_eq_of_ok (lift_eq_ok (Reader.int_putInt rest v))

@[simp] theorem long_bind (v : Int64) (f : Int64 → BodyReader β) :
    (liftM Reader.long >>= f) (putLong v ++ rest) = f v rest :=
  bind_eq_of_ok (lift_eq_ok (Reader.long_putLong rest v))

@[simp] theorem packedLong_bind (v : Int64) (f : Int64 → BodyReader β) :
    (liftM Reader.packedLong >>= f) (putPackedLong v ++ rest) = f v rest :=
  bind_eq_of_ok (lift_eq_ok (Reader.packedLong_putPackedLong rest v))

@[simp] theorem string_bind {t : Octets} (fits : t.length < 2 ^ 31) (f : Octets → BodyReader β) :
    (liftM Reader.string >>= f) (putCounted t ++ rest) = f t rest :=
  bind_eq_of_ok (lift_eq_ok (Reader.counted_putCounted rest .string fits))

@[simp] theorem byteArray_bind {t : Octets} (fits : t.length < 2 ^ 31) (f : Octets → BodyReader β) :
    (liftM Reader.byteArray >>= f) (putCounted t ++ rest) = f t rest :=
  bind_eq_of_ok (lift_eq_ok (Reader.counted_putCounted rest .byteArray fits))

@[simp] theorem entryType_bind (e : EntryType) (f : EntryType → BodyReader β) :
    (member .entryType EntryType.ofOrdinal? >>= f) (e.ordinal :: rest) = f e rest :=
  bind_eq_of_ok (member_cons (EntryType.ofOrdinal?_ordinal e) rest)

@[simp] theorem syncPolicy_bind (p : SyncPolicy) (f : SyncPolicy → BodyReader β) :
    (member .syncPolicy SyncPolicy.ofOrdinal? >>= f) (p.ordinal :: rest) = f p rest :=
  bind_eq_of_ok (member_cons (SyncPolicy.ofOrdinal?_ordinal p) rest)

@[simp] theorem nodeType_bind (n : NodeType) (f : NodeType → BodyReader β) :
    (member .nodeType NodeType.ofOrdinal? >>= f) (n.ordinal :: rest) = f n rest :=
  bind_eq_of_ok (member_cons (NodeType.ofOrdinal?_ordinal n) rest)

end Binds

/-! ## Lists of packed longs -/

theorem packedLongs_flatMap (vs : List Int64) (rest : Octets) :
    packedLongs vs.length (vs.flatMap putPackedLong ++ rest) = .ok vs rest := by
  induction vs with
  | nil => rfl
  | cons v vs ih =>
    rw [List.length_cons, packedLongs, List.flatMap_cons, List.append_assoc, packedLong_bind,
      bind_eq_of_ok ih]
    rfl

theorem length_flatMap_putPackedLong_le (vs : List Int64) :
    (vs.flatMap putPackedLong).length ≤ 9 * vs.length := by
  induction vs with
  | nil => exact Nat.le_refl 0
  | cons v vs ih =>
    have first := length_putPackedLong_le v
    rw [List.flatMap_cons, List.length_append, List.length_cons]
    omega

theorem length_le_length_flatMap (vs : List Int64) :
    vs.length ≤ (vs.flatMap putPackedLong).length := by
  induction vs with
  | nil => exact Nat.le_refl 0
  | cons v vs ih =>
    have first := length_putPackedLong_pos v
    rw [List.flatMap_cons, List.length_append, List.length_cons]
    omega

theorem remaining_eq (s : Octets) : (liftM Reader.remaining : BodyReader Nat) s = .ok s.length s :=
  rfl

theorem countedPackedLongs_put {vs : List Int64} (fits : vs.length < 2 ^ 31) (rest : Octets) :
    countedPackedLongs (putInt (Int32.ofNat vs.length) ++ (vs.flatMap putPackedLong ++ rest)) =
      .ok vs rest := by
  have few := length_le_length_flatMap vs
  have count : (Int32.ofNat vs.length).toInt = vs.length := by
    rw [← Int32.ofInt_eq_ofNat, Int32.toInt_ofInt_of_le (by omega) (by omega)]
  rw [countedPackedLongs, int_bind, bind_eq_of_ok (remaining_eq _), count, if_neg]
  · exact packedLongs_flatMap vs rest
  · rw [List.length_append]
    omega

end BodyReader

/-! ## Bodies -/

theorem length_body_heartbeat_le (id now last : Int64) :
    (Message.heartbeat id now last).body.length ≤ 25 := by
  have packed := length_putPackedLong_le last
  simp only [Message.body, putLong, List.length_append, length_bigEndian]
  omega

theorem length_le_length_putCounted (t : Octets) : t.length ≤ (putCounted t).length := by
  rw [putCounted, List.length_append]
  exact Nat.le_add_left _ _

open BodyReader in
theorem readBody_body (m : Message) (fits : m.body.length < 2 ^ 31) (rest : Octets) :
    m.op.readBody (m.body ++ rest) = .ok m rest := by
  -- Only a field of counted length needs the bound, which the length of the body gives.
  cases m with
  | entry e =>
    have payload := length_le_length_putCounted e.payload
    have beforeImage := length_le_length_putCounted e.beforeImage
    simp only [Message.body, List.length_append] at fits
    simp only [Message.op, Op.readBody, Message.body, List.append_assoc, List.cons_append,
      List.nil_append, packedLong_bind, long_bind, entryType_bind]
    rw [byteArray_bind _ (by omega), byteArray_bind _ (by omega)]
    rfl
  | groupAck txns =>
    have few := length_le_length_flatMap txns
    simp only [Message.body, List.length_append] at fits
    simp only [Message.op, Op.readBody, Message.body, List.append_assoc]
    rw [bind_eq_of_ok (countedPackedLongs_put (by omega) rest)]
    rfl
  | clientVersion version node id type =>
    have bound := length_le_length_putCounted node
    simp only [Message.body, List.length_append] at fits
    simp only [Message.op, Op.readBody, Message.body, List.append_assoc, List.cons_append,
      List.nil_append, int_bind]
    rw [string_bind _ (by omega), int_bind, nodeType_bind]
    rfl
  | serverVersion version node id =>
    have bound := length_le_length_putCounted node
    simp only [Message.body, List.length_append] at fits
    simp only [Message.op, Op.readBody, Message.body, List.append_assoc, int_bind]
    rw [string_bind _ (by omega), int_bind]
    rfl
  | incompatibleVersion reason =>
    have bound := length_le_length_putCounted reason
    simp only [Message.body] at fits
    simp only [Message.op, Op.readBody, Message.body]
    rw [string_bind _ (by omega)]
    rfl
  | protocolError reason =>
    have bound := length_le_length_putCounted reason
    simp only [Message.body] at fits
    simp only [Message.op, Op.readBody, Message.body]
    rw [string_bind _ (by omega)]
    rfl
  | shutdownResponse => rfl
  | _ =>
    simp only [Message.op, Op.readBody, Message.body, List.append_assoc, List.cons_append,
      List.nil_append, packedLong_bind, long_bind, bool_bind, syncPolicy_bind]
    rfl

theorem Codec.decodeBody_body (m : Message) (fits : m.body.length < 2 ^ 31) :
    Codec.decodeBody m.op m.body = .ok m := by
  have read := readBody_body m fits []
  rw [List.append_nil] at read
  rw [Codec.decodeBody, read]

end Replication.Stream
