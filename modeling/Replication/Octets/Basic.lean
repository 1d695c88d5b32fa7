/-! # Octet strings

Names, suffixes, values, payloads and frames are strings of bytes.  They are
lists, so that every codec is a function by recursion on its input, and they are
compared by unsigned byte: `compare` on `Octets` is the lexicographic order, in
which a proper initial segment comes first.
-/

namespace Replication

/-- A string of bytes. -/
abbrev Octets := List UInt8

namespace Octets

instance : Std.IsLinearOrder Octets := inferInstance
instance : Std.LawfulOrderLT Octets := inferInstance

/-- The bytes of an ASCII text. -/
def ofAscii (s : String) : Octets :=
  s.toList.map Char.toUInt8

/-- A text between single quotes, as diagnostics show a piece of input. -/
def quoted (s : Octets) : Octets :=
  ofAscii "'" ++ s ++ ofAscii "'"

/-- A diagnostic as it is handed on, which is as a zero-terminated text: what stands in front
    of its first zero byte. -/
def zeroTerminated (s : Octets) : Octets :=
  s.takeWhile (· ≠ 0)

end Octets

end Replication
