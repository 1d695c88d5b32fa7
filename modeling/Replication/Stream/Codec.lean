import Replication.Stream.Body

/-! # Frames

A frame is a header and a body: the op in two bytes, the size of the body in four, both
most significant byte first, then the body.  A codec refuses bodies above its limit in
both directions.
-/

namespace Replication.Stream

/-! ## 1. Codecs and their errors -/

/-- The bytes of a header. -/
def headerSize : Nat := 6

/-- The version of the stream that nodes agree on before anything else. -/
def streamVersion : Int32 := 1

/-- The header and body of a message, whatever its size. -/
def Message.frame (m : Message) : Octets :=
  Wire.putShort m.op.id ++ Wire.putInt (Int32.ofNat m.body.length) ++ m.body

/-- The largest body that is written or read. -/
structure Codec where
  limit : Nat
  limit_pos : 0 < limit

/-- A codec was asked for that could carry nothing. -/
inductive LimitError where
  | notPositive
deriving DecidableEq, Repr

def LimitError.message : LimitError → Octets
  | .notPositive => .ofAscii "max message size must be positive"

/-- Why a frame cannot be written, or bytes are no frame. -/
inductive CodecError where
  /-- The body of a message to write is above the limit. -/
  | tooLarge (op : Op) (size limit : Nat)
  /-- The size in a header is negative or above the limit. -/
  | sizeOutside (op : Int16) (size : Int32) (limit : Nat)
  | unknownOp (op : Int16)
  | body (e : BodyError)
  /-- Bytes are left behind the last field. -/
  | trailing (op : Op) (count : Nat)
deriving DecidableEq, Repr

def CodecError.message : CodecError → Octets
  | .tooLarge op size limit =>
    op.name ++ .ofAscii " body of " ++ Decimal.render size
      ++ .ofAscii " bytes exceeds the limit of " ++ Decimal.render limit
  | .sizeOutside op size limit =>
    .ofAscii "op " ++ Decimal.render op.toInt ++ .ofAscii " body size " ++ Decimal.render size.toInt
      ++ .ofAscii " outside [0, " ++ Decimal.render limit ++ .ofAscii "]"
  | .unknownOp op => .ofAscii "unknown op " ++ Decimal.render op.toInt
  | .body e => e.message
  | .trailing op count =>
    op.name ++ .ofAscii " has " ++ Decimal.render count ++ .ofAscii " trailing bytes"

namespace Codec

/-- The codec of a limit, which has to be positive. -/
def ofLimit : (limit : Int) → Except LimitError Codec
  | .ofNat (n + 1) => .ok { limit := n + 1, limit_pos := Nat.succ_pos n }
  | _ => .error .notPositive

/-! ## 2. Writing and reading frames -/

/-- The frame of a message whose body the limit allows. -/
def encode (c : Codec) (m : Message) : Except CodecError Octets :=
  if m.body.length ≤ c.limit then .ok m.frame else .error (.tooLarge m.op m.body.length c.limit)

/-- The message of a body, which has to be used up. -/
def decodeBody (op : Op) (body : Octets) : Except CodecError Message :=
  match op.readBody body with
  | .error e _ => .error (.body e)
  | .ok m [] => .ok m
  | .ok _ rest => .error (.trailing op rest.length)

/-- The message of an op number and a body. -/
def decode (id : Int16) (body : Octets) : Except CodecError Message :=
  match Op.ofId? id with
  | none => .error (.unknownOp id)
  | some op => decodeBody op body

/-- The message of a whole frame. -/
def ofFrame (frame : Octets) : Except CodecError Message :=
  decode (Int16.ofNat (Wire.ofBigEndian (frame.take 2))) (frame.drop headerSize)

/-- What a header announces: the op and the size of its body. -/
structure Header where
  op : Op
  size : Nat
deriving DecidableEq, Repr

/-- Reads the bytes of a header.  A bad size is reported before an unknown op. -/
def decodeHeader (c : Codec) (header : Octets) : Except CodecError Header := do
  let id := Int16.ofNat (Wire.ofBigEndian (header.take 2))
  let size := Int32.ofNat (Wire.ofBigEndian (header.drop 2))
  if size.toInt < 0 ∨ c.limit < size.toInt then throw (.sizeOutside id size c.limit)
  match Op.ofId? id with
  | none => throw (.unknownOp id)
  | some op => return { op, size := size.toInt.toNat }

end Codec

end Replication.Stream
