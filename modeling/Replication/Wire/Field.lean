import Replication.Wire.Reader

/-! # Fields

The typed pieces of which every binary record is made, and how each is written.
`Field.write` and `Field.Kind.read` are inverse to each other: a field that was
written is read back by a reader of its kind.
-/

namespace Replication.Wire

/-! ## 1. Writing -/

/-- A flag, as one byte. -/
def putBool (b : Bool) : Octets :=
  [if b then 1 else 0]

/-- A signed integer of two bytes. -/
def putShort (v : Int16) : Octets :=
  bigEndian 2 v.toUInt16.toNat

/-- A signed integer of four bytes. -/
def putInt (v : Int32) : Octets :=
  bigEndian 4 v.toUInt32.toNat

/-- A signed integer of eight bytes. -/
def putLong (v : Int64) : Octets :=
  bigEndian 8 v.toUInt64.toNat

/-- A packed long: the value itself from -119 to 119, else a lead byte of the sign
    and the number of bytes of the distance to that range, which follow. -/
def putPackedLong (v : Int64) : Octets :=
  let n := v.toInt
  if -119 ≤ n ∧ n ≤ 119 then [(Int8.ofInt n).toUInt8]
  else
    let magnitude := littleEndian (n.natAbs - 119)
    let lead : Int := 119 + magnitude.length
    (Int8.ofInt (if n < 0 then -lead else lead)).toUInt8 :: magnitude

/-- A byte string behind its length. -/
def putCounted (s : Octets) : Octets :=
  putInt (Int32.ofNat s.length) ++ s

/-! ## 2. Fields and their kinds -/

/-- A typed value on the wire. -/
inductive Field where
  | byte (b : UInt8)
  | bool (b : Bool)
  | short (v : Int16)
  | int (v : Int32)
  | long (v : Int64)
  | packedLong (v : Int64)
  | string (s : Octets)
  | byteArray (s : Octets)
deriving DecidableEq, Repr

def Field.write : Field → Octets
  | .byte b => [b]
  | .bool b => putBool b
  | .short v => putShort v
  | .int v => putInt v
  | .long v => putLong v
  | .packedLong v => putPackedLong v
  | .string s => putCounted s
  | .byteArray s => putCounted s

/-- The type of a field, which its reader has to know. -/
inductive Field.Kind where
  | byte
  | bool
  | short
  | int
  | long
  | packedLong
  | string
  | byteArray
deriving DecidableEq, Repr

def Field.Kind.all : List Field.Kind :=
  [.byte, .bool, .short, .int, .long, .packedLong, .string, .byteArray]

def Field.kind : Field → Field.Kind
  | .byte _ => .byte
  | .bool _ => .bool
  | .short _ => .short
  | .int _ => .int
  | .long _ => .long
  | .packedLong _ => .packedLong
  | .string _ => .string
  | .byteArray _ => .byteArray

def Field.Kind.read : Field.Kind → Reader Field
  | .byte => return .byte (← Reader.byte)
  | .bool => return .bool (← Reader.bool)
  | .short => return .short (← Reader.short)
  | .int => return .int (← Reader.int)
  | .long => return .long (← Reader.long)
  | .packedLong => return .packedLong (← Reader.packedLong)
  | .string => return .string (← Reader.string)
  | .byteArray => return .byteArray (← Reader.byteArray)

/-- The bytes of fields written one after the other. -/
def writeAll (fields : List Field) : Octets :=
  fields.flatMap Field.write

end Replication.Wire
