import Replication.Octets.Basic

/-! # Hexadecimal numerals

Fixed-width numerals in base sixteen.  Writing uses lower case; reading takes
digits of either case.
-/

namespace Replication.Hexadecimal

/-- The lower case digit of `d`, for `d` below sixteen. -/
def digit (d : Nat) : UInt8 :=
  if d < 10 then UInt8.ofNat (48 + d) else UInt8.ofNat (87 + d)

/-- The last `width` digits of `n`. -/
def render : (width : Nat) → Nat → Octets
  | 0, _ => []
  | width + 1, n => render width (n / 16) ++ [digit (n % 16)]

/-- The value of a digit of either case. -/
def digit? (b : UInt8) : Option Nat :=
  if 48 ≤ b ∧ b ≤ 57 then some (b.toNat - 48)
  else if 97 ≤ b ∧ b ≤ 102 then some (b.toNat - 87)
  else if 65 ≤ b ∧ b ≤ 70 then some (b.toNat - 55)
  else none

/-- The number that a string of digits denotes, if all its bytes are digits. -/
def value? (ds : Octets) : Option Nat :=
  (ds.mapM digit?).map (·.foldl (fun acc d => 16 * acc + d) 0)

/-! ## Spelling -/

/-- The digits of either case. -/
def alphabet : Octets :=
  .ofAscii "0123456789abcdefABCDEF"

/-- A digit in lower case. -/
def lower (b : UInt8) : UInt8 :=
  if 65 ≤ b ∧ b ≤ 70 then b + 32 else b

end Replication.Hexadecimal
