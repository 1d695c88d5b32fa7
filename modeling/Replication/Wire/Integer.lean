import Replication.Octets.Basic

/-! # Integers as bytes

Fixed-width integers travel most significant byte first.  The tail of a packed
long travels least significant byte first, in as few bytes as hold it, but at
least one.  Both readers undo their writer up to the width written.
-/

namespace Replication.Wire

/-! ## 1. Most significant byte first -/

/-- The last `width` bytes of `n`, most significant first. -/
def bigEndian : (width : Nat) → Nat → Octets
  | 0, _ => []
  | width + 1, n => bigEndian width (n / 256) ++ [UInt8.ofNat n]

/-- The number whose bytes, most significant first, are given. -/
def ofBigEndian (bs : Octets) : Nat :=
  bs.foldl (fun acc b => 256 * acc + b.toNat) 0

@[simp] theorem length_bigEndian (width n : Nat) : (bigEndian width n).length = width := by
  induction width generalizing n with
  | zero => rfl
  | succ width ih => simp [bigEndian, ih]

theorem ofBigEndian_append_singleton (bs : Octets) (b : UInt8) :
    ofBigEndian (bs ++ [b]) = 256 * ofBigEndian bs + b.toNat := by
  simp [ofBigEndian]

/-- How many numbers a width tells apart. -/
def capacity : (width : Nat) → Nat
  | 0 => 1
  | width + 1 => 256 * capacity width

/-- Reading back what was written gives the number, less what the width cut off. -/
theorem ofBigEndian_bigEndian (width n : Nat) :
    ofBigEndian (bigEndian width n) = n % capacity width := by
  induction width generalizing n with
  | zero => simp [bigEndian, ofBigEndian, capacity, Nat.mod_one]
  | succ width ih =>
    rw [bigEndian, ofBigEndian_append_singleton, ih, UInt8.toNat_ofNat', capacity, Nat.mod_mul]
    omega

/-! ## 2. Least significant byte first -/

/-- The bytes of `n`, least significant first, without leading zero bytes. -/
def littleEndian (n : Nat) : Octets :=
  if n < 256 then [UInt8.ofNat n] else UInt8.ofNat n :: littleEndian (n / 256)

/-- The number whose bytes, least significant first, are given. -/
def ofLittleEndian : Octets → Nat
  | [] => 0
  | b :: bs => b.toNat + 256 * ofLittleEndian bs

theorem ofLittleEndian_littleEndian (n : Nat) : ofLittleEndian (littleEndian n) = n := by
  fun_induction littleEndian n with
  | case1 n h => simp [ofLittleEndian, UInt8.toNat_ofNat']; omega
  | case2 n h ih => simp [ofLittleEndian, UInt8.toNat_ofNat', ih]; omega

end Replication.Wire
