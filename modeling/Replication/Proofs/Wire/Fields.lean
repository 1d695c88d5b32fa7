import Mathlib.Algebra.Group.Nat.Defs
import Replication.Proofs.Computations
import Replication.Wire.Field

/-! # Fields are read back

Each reader takes just what the writer of its kind wrote, whatever follows.  A counted
string has to fit its length field.
-/

namespace Replication.Wire

theorem ofNat_putShort (v : Int16) : Int16.ofNat (ofBigEndian (putShort v)) = v := by
  have bound : v.toUInt16.toNat % capacity 2 = v.toUInt16.toNat :=
    Nat.mod_eq_of_lt (UInt16.toNat_lt _)
  rw [putShort, ofBigEndian_bigEndian, bound, ← UInt16.toInt16_ofNat', UInt16.ofNat_toNat,
    Int16.toInt16_toUInt16]

theorem ofNat_putInt (v : Int32) : Int32.ofNat (ofBigEndian (putInt v)) = v := by
  have bound : v.toUInt32.toNat % capacity 4 = v.toUInt32.toNat :=
    Nat.mod_eq_of_lt (UInt32.toNat_lt _)
  rw [putInt, ofBigEndian_bigEndian, bound, ← UInt32.toInt32_ofNat', UInt32.ofNat_toNat,
    Int32.toInt32_toUInt32]

namespace Reader

variable (rest : Octets)

theorem take_append (item : Item) (s : Octets) :
    take item s.length (s ++ rest) = .ok s rest := by
  rw [take, if_neg (by rw [List.length_append]; omega), List.take_left, List.drop_left]

theorem take_eq_ok {item : Item} {n : Nat} {s s' text : Octets}
    (read : take item n s = .ok text s') : s = text ++ s' ∧ text.length = n := by
  rw [take] at read
  split at read
  · cases read
  next enough =>
    cases read
    refine ⟨(List.take_append_drop n s).symm, ?_⟩
    rw [List.length_take]
    omega

@[simp] theorem byte_cons (b : UInt8) : byte (b :: rest) = .ok b rest := by
  have taken : take .byte 1 (b :: rest) = .ok [b] rest := take_append rest .byte [b]
  rw [byte, bind_eq_of_ok taken]
  have same : UInt8.ofNat (ofBigEndian [b]) = b := by simp [ofBigEndian]
  rw [same]
  rfl

theorem byte_eq_ok {s s' : Octets} {b : UInt8} (read : byte s = .ok b s') : s = b :: s' := by
  obtain ⟨text, s₁, taken, done⟩ := bind_eq_ok read
  obtain ⟨rfl, length⟩ := take_eq_ok taken
  obtain ⟨b', rfl⟩ := List.length_eq_one_iff.1 length
  have again := byte_cons s₁ b'
  rw [List.singleton_append, again] at read
  cases read
  rfl

theorem bool_putBool (b : Bool) : bool (putBool b ++ rest) = .ok b rest := by
  rw [bool, putBool, List.singleton_append, bind_eq_of_ok (byte_cons rest _)]
  cases b <;> rfl

/-! ## Integers of a fixed width -/

theorem take_bigEndian (item : Item) (width n : Nat) :
    take item width (bigEndian width n ++ rest) = .ok (bigEndian width n) rest := by
  have taken := take_append rest item (bigEndian width n)
  rwa [length_bigEndian] at taken

theorem short_putShort (v : Int16) : short (putShort v ++ rest) = .ok v rest := by
  rw [short, putShort, bind_eq_of_ok (take_bigEndian rest _ _ _)]
  exact congrArg (EStateM.Result.ok · rest) (ofNat_putShort v)

theorem int_putInt (v : Int32) : int (putInt v ++ rest) = .ok v rest := by
  rw [int, putInt, bind_eq_of_ok (take_bigEndian rest _ _ _)]
  exact congrArg (EStateM.Result.ok · rest) (ofNat_putInt v)

theorem long_putLong (v : Int64) : long (putLong v ++ rest) = .ok v rest := by
  have bound : v.toUInt64.toNat % capacity 8 = v.toUInt64.toNat :=
    Nat.mod_eq_of_lt (UInt64.toNat_lt _)
  rw [long, putLong, bind_eq_of_ok (take_bigEndian rest _ _ _), ofBigEndian_bigEndian,
    bound, ← UInt64.toInt64_ofNat', UInt64.ofNat_toNat, Int64.toInt64_toUInt64]
  rfl

/-! ## Strings -/

/-- A string is read back if its length fits the length field. -/
theorem counted_putCounted (item : Item) {s : Octets} (fits : s.length < 2 ^ 31) :
    counted item (putCounted s ++ rest) = .ok s rest := by
  have length : (Int32.ofNat s.length).toInt = s.length := by
    rw [← Int32.ofInt_eq_ofNat, Int32.toInt_ofInt_of_le (by omega) (by omega)]
  rw [counted, putCounted, List.append_assoc, bind_eq_of_ok (int_putInt _ _)]
  simp only [length, Int.toNat_natCast]
  rw [if_neg (by omega)]
  exact take_append rest item s

end Reader

end Replication.Wire
