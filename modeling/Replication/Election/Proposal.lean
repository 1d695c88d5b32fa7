import Replication.Election.Token
import Replication.Octets.Hexadecimal

/-! # Proposals

A proposal is a time stamp with a suffix that tells nodes apart.  Proposals are
ordered by time, then by the bytes of the suffix.  On the wire a proposal is
sixteen hexadecimal digits and the suffix, so that the order of proposals is the
order of their wire forms.
-/

namespace Replication.Election

/-- The number of a round: when it was drawn, and by whom. -/
structure Proposal where
  time : UInt64
  suffix : Token
deriving DecidableEq, Repr

/-- Why a text is no proposal. -/
inductive ProposalError where
  | tooShort (wire : Octets)
  | badHexDigit (wire : Octets)
  | separatorInSuffix (wire : Octets)
deriving DecidableEq, Repr

def ProposalError.message : ProposalError → Octets
  | .tooShort wire => .ofAscii "proposal too short: " ++ Octets.quoted wire
  | .badHexDigit wire => .ofAscii "bad hex digit in proposal: " ++ Octets.quoted wire
  | .separatorInSuffix wire =>
    .ofAscii "proposal contains the field separator: " ++ Octets.quoted wire

namespace Proposal

/-! ## 1. The wire form -/

/-- The number of hexadecimal digits of the time. -/
def timeDigits : Nat := 16

/-- The wire form: the time in hexadecimal, then the suffix. -/
def wire (p : Proposal) : Octets :=
  Hexadecimal.render timeDigits p.time.toNat ++ p.suffix.text

def make (time : UInt64) (suffix : Octets) : Except TokenError Proposal :=
  (Token.ofText suffix .proposalSuffix).map fun suffix => { time, suffix }

/-- Reads a wire form. -/
def parse (wire : Octets) : Except ProposalError Proposal :=
  if wire.length < timeDigits then .error (.tooShort wire)
  else
    match Hexadecimal.value? (wire.take timeDigits), Token.ofText? (wire.drop timeDigits) with
    | none, _ => .error (.badHexDigit wire)
    | some _, none => .error (.separatorInSuffix wire)
    | some time, some suffix => .ok { time := UInt64.ofNat time, suffix }

/-- What a wire form looks like: the digits of a time, in either case, and no separator behind
    them. -/
structure Spelled (wire : Octets) : Prop where
  long : timeDigits ≤ wire.length
  digits : ∀ b ∈ wire.take timeDigits, b ∈ Hexadecimal.alphabet
  plain : separator ∉ wire.drop timeDigits

/-- A wire form with its time in lower case. -/
def lowered (wire : Octets) : Octets :=
  (wire.take timeDigits).map Hexadecimal.lower ++ wire.drop timeDigits

/-! ## 2. The order -/

/-- Compares the times, and the suffixes of equal times. -/
def cmp (a b : Proposal) : Ordering :=
  (compare a.time b.time).then (compare a.suffix.text b.suffix.text)

instance : Ord Proposal := ⟨cmp⟩
instance : LT Proposal := ltOfOrd
instance : LE Proposal := leOfOrd

instance : Std.TransOrd Proposal :=
  inferInstanceAs (Std.TransCmp
    (compareLex (compareOn Proposal.time) (compareOn fun p => p.suffix.text)))

instance : Std.LawfulEqOrd Proposal where
  compare_self := Std.ReflCmp.compare_self
  eq_of_compare {a b} h := by
    obtain ⟨times, texts⟩ := Ordering.then_eq_eq.1 h
    obtain ⟨time, ⟨text, plain⟩⟩ := a
    obtain ⟨time', ⟨text', plain'⟩⟩ := b
    cases Std.LawfulEqOrd.eq_of_compare times
    cases Std.LawfulEqOrd.eq_of_compare texts
    rfl

instance : Std.LawfulOrderOrd Proposal where
  isLE_compare _ _ := Iff.rfl
  isGE_compare a b := by
    show (compare a b).isGE ↔ (compare b a).isLE
    rw [Std.OrientedOrd.eq_swap (a := b)]
    cases compare a b <;> simp

/-- Of two proposals one comes first, so of two elections one is the later one. -/
instance : Std.IsLinearOrder Proposal := .of_ord

instance : Std.LawfulOrderLT Proposal :=
  .of_ord _ fun _ _ => Iff.rfl

end Proposal

end Replication.Election
