import Replication.Octets.Basic

/-! # Decimal numerals

`Decimal.render` writes an integer with the fewest digits and a minus sign in
front of negative ones.  `Decimal.scan` reads the longest numeral at the front of
a text: blanks and one sign may precede the digits, and a numeral outside the
range of a 64-bit word is no numeral at all.
-/

namespace Replication.Decimal

/-! ## 1. Writing -/

/-- The ASCII digit of `d`, for `d` below ten. -/
def digit (d : Nat) : UInt8 :=
  UInt8.ofNat (48 + d)

/-- The digits of `n`, most significant first, without leading zeros. -/
def digits (n : Nat) : Octets :=
  if n < 10 then [digit n] else digits (n / 10) ++ [digit (n % 10)]

/-- The numeral of `n`. -/
def render : Int → Octets
  | .ofNat n => digits n
  | .negSucc n => 45 :: digits (n + 1)

/-! ## 2. Reading -/

/-- Blank, tab, line feed, vertical tab, form feed or carriage return. -/
def isBlank (b : UInt8) : Bool :=
  b == 32 || (9 ≤ b && b ≤ 13)

/-- One of the ten ASCII digits. -/
def isDigit (b : UInt8) : Bool :=
  48 ≤ b && b ≤ 57

/-- The number that a string of digits denotes. -/
def value (ds : Octets) : Nat :=
  ds.foldl (fun acc d => 10 * acc + (d.toNat - 48)) 0

/-- Takes one sign off the front: whether it is a minus, and what follows. -/
def splitSign : Octets → Bool × Octets
  | 45 :: rest => (true, rest)
  | 43 :: rest => (false, rest)
  | s => (false, s)

/-- The integers that a 64-bit word holds. -/
def InWord (n : Int) : Prop :=
  Int64.minValue.toInt ≤ n ∧ n ≤ Int64.maxValue.toInt

instance (n : Int) : Decidable (InWord n) :=
  inferInstanceAs (Decidable (_ ∧ _))

/-- The numeral at the front of a text and the text behind it; `none` if there is
    no digit, or if the number does not fit a 64-bit word. -/
def scan (s : Octets) : Option (Int × Octets) :=
  let (negative, body) := splitSign (s.dropWhile isBlank)
  let ds := body.takeWhile isDigit
  let n : Int := if negative then -(value ds : Int) else value ds
  if ds ≠ [] ∧ InWord n then some (n, body.dropWhile isDigit) else none

/-- The number that a text denotes, if the whole text is one numeral. -/
def parse (s : Octets) : Option Int :=
  match scan s with
  | some (n, []) => some n
  | _ => none

/-! ## 3. Spelling -/

/-- What a numeral looks like: blanks, at most one sign, and the digits of the number. -/
inductive Numeral : Octets → Int → Prop where
  | unsigned {blanks ds : Octets} (blank : ∀ b ∈ blanks, isBlank b) (digit : ∀ d ∈ ds, isDigit d)
    (nonempty : ds ≠ []) : Numeral (blanks ++ ds) (value ds)
  | plus {blanks ds : Octets} (blank : ∀ b ∈ blanks, isBlank b) (digit : ∀ d ∈ ds, isDigit d)
    (nonempty : ds ≠ []) : Numeral (blanks ++ 43 :: ds) (value ds)
  | minus {blanks ds : Octets} (blank : ∀ b ∈ blanks, isBlank b) (digit : ∀ d ∈ ds, isDigit d)
    (nonempty : ds ≠ []) : Numeral (blanks ++ 45 :: ds) (-value ds)

end Replication.Decimal
