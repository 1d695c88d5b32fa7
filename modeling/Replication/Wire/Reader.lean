import Replication.Octets.Decimal
import Replication.Wire.Integer

/-! # Reading fields

A reader consumes bytes from the front of a text.  When it fails it leaves the
text where the failure found it: the bytes of a field that is not there whole stay
unread, but a length read in front of it stays read.
-/

namespace Replication.Wire

/-- What a reader was about to take when the text ended. -/
inductive Item where
  | byte
  | short
  | int
  | long
  | packedLong
  | string
  | byteArray
deriving DecidableEq, Repr

def Item.name : Item → Octets
  | .byte => .ofAscii "byte"
  | .short => .ofAscii "short"
  | .int => .ofAscii "int"
  | .long => .ofAscii "long"
  | .packedLong => .ofAscii "packed long"
  | .string => .ofAscii "string"
  | .byteArray => .ofAscii "byte array"

/-- Why a field could not be read. -/
inductive ReadError where
  /-- Fewer bytes are left than the item takes. -/
  | truncated (item : Item) (need have_ : Nat)
  /-- The lead byte of a packed long announces more bytes than a long has. -/
  | badPackedLength (length : Nat)
  /-- A length field is negative. -/
  | negativeLength (item : Item) (length : Int)
deriving DecidableEq, Repr

def ReadError.message : ReadError → Octets
  | .truncated item need have_ =>
    .ofAscii "truncated buffer reading " ++ item.name ++ .ofAscii ": need "
      ++ Decimal.render need ++ .ofAscii " have " ++ Decimal.render have_
  | .badPackedLength length => .ofAscii "bad packed long length " ++ Decimal.render length
  | .negativeLength item length =>
    .ofAscii "negative " ++ item.name ++ .ofAscii " length " ++ Decimal.render length

/-- A computation that takes bytes from the front of a text. -/
abbrev Reader := EStateM ReadError Octets

namespace Reader

/-- The next `n` bytes, which belong to `item`. -/
def take (item : Item) (n : Nat) : Reader Octets := fun s =>
  if s.length < n then .error (.truncated item n s.length) s
  else .ok (s.take n) (s.drop n)

/-- How many bytes are left. -/
def remaining : Reader Nat := fun s => .ok s.length s

def byte : Reader UInt8 := do
  return UInt8.ofNat (ofBigEndian (← take .byte 1))

/-- One byte, of which every value but zero is true. -/
def bool : Reader Bool := do
  return (← byte) != 0

/-- A signed integer of two bytes. -/
def short : Reader Int16 := do
  return Int16.ofNat (ofBigEndian (← take .short 2))

/-- A signed integer of four bytes. -/
def int : Reader Int32 := do
  return Int32.ofNat (ofBigEndian (← take .int 4))

/-- A signed integer of eight bytes. -/
def long : Reader Int64 := do
  return Int64.ofNat (ofBigEndian (← take .long 8))

/-- A packed long.  A lead byte from -119 to 119 is the value itself; beyond that
    it tells the sign and how many bytes of magnitude follow, and the value is the
    magnitude moved out by 119, as a 64-bit word. -/
def packedLong : Reader Int64 := do
  let lead := (← byte).toInt8.toInt
  if -119 ≤ lead ∧ lead ≤ 119 then return Int64.ofInt lead
  let length := if lead < 0 then (-lead - 119).toNat else (lead - 119).toNat
  if 8 < length then throw (.badPackedLength length)
  let magnitude := Int64.ofNat (ofLittleEndian (← take .packedLong length))
  return if lead < 0 then -magnitude - 119 else magnitude + 119

/-- Bytes behind their number. -/
def counted (item : Item) : Reader Octets := do
  let length := (← int).toInt
  if length < 0 then throw (.negativeLength item length)
  take item length.toNat

/-- A byte string, as text. -/
def string : Reader Octets := counted .string

/-- A byte string, as data. -/
def byteArray : Reader Octets := counted .byteArray

end Reader

end Replication.Wire
