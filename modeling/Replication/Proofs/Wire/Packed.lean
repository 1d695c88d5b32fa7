import Mathlib.Algebra.Group.Int.Defs
import Replication.Proofs.Wire.Fields

/-! # What a packed long says

A packed long is a byte from -119 to 119, or a lead byte that tells the sign and the number of
bytes of a magnitude, which follow.  So it says an integer.  Its reader takes just these texts,
and reads that integer as a word of 64 bits: the forms of nine bytes can say more than a word
holds.
-/

namespace Replication.Wire

/-- The texts of packed longs, and the integers that they say. -/
inductive PackedForm : Octets → Int → Prop where
  | short {n : Int} (inside : -119 ≤ n ∧ n ≤ 119) : PackedForm [(Int8.ofInt n).toUInt8] n
  | positive (bs : Octets) (shortest : 0 < bs.length) (longest : bs.length ≤ 8) :
    PackedForm ((Int8.ofInt (119 + bs.length)).toUInt8 :: bs) (ofLittleEndian bs + 119)
  | negative (bs : Octets) (shortest : 0 < bs.length) (longest : bs.length ≤ 8) :
    PackedForm ((Int8.ofInt (-(119 + bs.length))).toUInt8 :: bs) (-ofLittleEndian bs - 119)

/-! ## Magnitudes -/

theorem ofLittleEndian_lt (bs : Octets) : ofLittleEndian bs < 256 ^ bs.length := by
  induction bs with
  | nil => exact Nat.one_pos
  | cons b bs ih =>
    have byte := b.toNat_lt
    rw [ofLittleEndian, List.length_cons, Nat.pow_succ']
    omega

theorem length_littleEndian_pos (n : Nat) : 0 < (littleEndian n).length := by
  rw [littleEndian]
  split <;> simp

theorem length_littleEndian_le (width : Nat) {n : Nat} (h : n < 256 ^ (width + 1)) :
    (littleEndian n).length ≤ width + 1 := by
  induction width generalizing n with
  | zero =>
    rw [littleEndian, if_pos (by simpa using h)]
    simp
  | succ width ih =>
    rw [littleEndian]
    split
    · simp
    · have shorter := ih (n := n / 256) (Nat.div_lt_of_lt_mul (by rw [Nat.pow_succ] at h; omega))
      rw [List.length_cons]
      omega

/-! ## Reading -/

namespace Reader

/-- A lead byte beyond the short forms tells the sign of a magnitude and how long it is. -/
theorem packedLong_magnitude {lead : Int} {bs : Octets} (width : lead.natAbs = 119 + bs.length)
    (shortest : 0 < bs.length) (longest : bs.length ≤ 8) (rest : Octets) :
    packedLong ((Int8.ofInt lead).toUInt8 :: bs ++ rest) =
      .ok (if lead < 0 then -Int64.ofNat (ofLittleEndian bs) - 119
        else Int64.ofNat (ofLittleEndian bs) + 119) rest := by
  have taken : take .packedLong bs.length (bs ++ rest) = .ok bs rest :=
    take_append rest .packedLong bs
  have value : (Int8.ofInt lead).toInt = lead := Int8.toInt_ofInt_of_le (by omega) (by omega)
  have length : (if lead < 0 then (-lead - 119).toNat else (lead - 119).toNat) = bs.length := by
    split <;> omega
  rw [packedLong, List.cons_append, bind_eq_of_ok (byte_cons _ _), Int8.toInt8_toUInt8, value,
    if_neg (by omega)]
  simp only [length, if_neg (show ¬ 8 < bs.length by omega)]
  rw [bind_eq_of_ok taken]
  rfl

/-- What follows a lead byte beyond the short forms, if it is not too long. -/
theorem magnitude_eq_ok {width : Nat} {e : ReadError} {next : PUnit → Reader Int64}
    {value : Octets → Int64} {s s' : Octets} {v : Int64}
    (read : (if 8 < width then throw e >>= next
      else take .packedLong width >>= fun bs => pure (value bs)) s = .ok v s') :
    ∃ bs, s = bs ++ s' ∧ bs.length = width ∧ width ≤ 8 := by
  obtain ⟨notLong, read⟩ := guard_eq_ok read
  obtain ⟨bs, s₁, taken, done⟩ := bind_eq_ok read
  obtain ⟨rfl, length⟩ := take_eq_ok taken
  obtain ⟨-, rfl⟩ := pure_eq_ok done
  exact ⟨bs, rfl, length, Nat.not_lt.1 notLong⟩

/-- Nothing else is read as a packed long. -/
theorem exists_packedForm {s s' : Octets} {v : Int64} (read : packedLong s = .ok v s') :
    ∃ text n, PackedForm text n ∧ s = text ++ s' := by
  obtain ⟨lead, s₁, first, done⟩ := bind_eq_ok read
  obtain rfl := byte_eq_ok first
  -- The lead byte is the one that a writer puts in front of so many bytes.
  have written {n : Int} (value : n = lead.toInt8.toInt) : (Int8.ofInt n).toUInt8 = lead := by
    rw [value, Int8.ofInt_toInt, UInt8.toUInt8_toInt8]
  have lowest := lead.toInt8.le_toInt
  dsimp only at done
  split at done
  next inside =>
    obtain ⟨-, rfl⟩ := pure_eq_ok done
    have form := PackedForm.short inside
    rw [written rfl] at form
    exact ⟨_, _, form, rfl⟩
  next outside =>
    split at done
    next negative =>
      obtain ⟨bs, rfl, length, few⟩ := magnitude_eq_ok done
      have form := PackedForm.negative bs (by omega) (by omega)
      rw [written (by omega)] at form
      exact ⟨_, _, form, rfl⟩
    next positive =>
      obtain ⟨bs, rfl, length, few⟩ := magnitude_eq_ok done
      have form := PackedForm.positive bs (by omega) (by omega)
      rw [written (by omega)] at form
      exact ⟨_, _, form, rfl⟩

end Reader

namespace PackedForm

variable {text : Octets} {n : Int}

/-- Each form is read, whatever follows: what it says, as a word. -/
theorem read (form : PackedForm text n) (rest : Octets) :
    Reader.packedLong (text ++ rest) = .ok (Int64.ofInt n) rest := by
  cases form with
  | short inside =>
    have lead : (Int8.ofInt n).toInt = n := Int8.toInt_ofInt_of_le (by omega) (by omega)
    rw [Reader.packedLong, List.singleton_append, bind_eq_of_ok (Reader.byte_cons rest _),
      Int8.toInt8_toUInt8, lead, if_pos inside]
    rfl
  | positive bs shortest longest =>
    have width : (119 + bs.length : Int).natAbs = 119 + bs.length := by omega
    rw [Reader.packedLong_magnitude width shortest longest rest, if_neg (by omega),
      Int64.ofInt_add, Int64.ofInt_eq_ofNat]
    rfl
  | negative bs shortest longest =>
    have width : (-(119 + bs.length) : Int).natAbs = 119 + bs.length := by omega
    rw [Reader.packedLong_magnitude width shortest longest rest, if_pos (by omega),
      Int64.ofInt_sub, Int64.ofInt_neg, Int64.ofInt_eq_ofNat]
    rfl

/-- The range of words is only left with nine bytes. -/
theorem fits_of_length_lt (form : PackedForm text n) (few : text.length < 9) :
    -2 ^ 63 ≤ n ∧ n < 2 ^ 63 := by
  cases form with
  | short inside => omega
  | positive bs shortest longest | negative bs shortest longest =>
    -- Seven bytes of magnitude stay far enough from the ends to add the offset.
    have below := ofLittleEndian_lt bs
    rw [List.length_cons] at few
    have bound : 256 ^ bs.length ≤ 256 ^ 7 := Nat.pow_le_pow_right (by decide) (by omega)
    omega

/-- What is written for a word says that word. -/
theorem put (v : Int64) : PackedForm (putPackedLong v) v.toInt := by
  have low := v.le_toInt
  have high := v.toInt_lt
  rw [putPackedLong]
  split
  case isTrue inside => exact .short inside
  case isFalse outside =>
    -- The offset is taken off before the magnitude is written, so eight bytes are enough for
    -- the lowest word too.
    have shortest := length_littleEndian_pos (v.toInt.natAbs - 119)
    have longest : (littleEndian (v.toInt.natAbs - 119)).length ≤ 8 :=
      length_littleEndian_le 7 (by omega)
    split
    case isTrue negative =>
      have form := PackedForm.negative _ shortest longest
      have value : -((v.toInt.natAbs - 119 : Nat) : Int) - 119 = v.toInt := by omega
      rwa [ofLittleEndian_littleEndian, value] at form
    case isFalse positive =>
      have form := PackedForm.positive _ shortest longest
      have value : ((v.toInt.natAbs - 119 : Nat) : Int) + 119 = v.toInt := by omega
      rwa [ofLittleEndian_littleEndian, value] at form

end PackedForm

theorem Reader.packedLong_putPackedLong (rest : Octets) (v : Int64) :
    packedLong (putPackedLong v ++ rest) = .ok v rest := by
  rw [(PackedForm.put v).read rest, Int64.ofInt_toInt]

/-! ## Sizes -/

/-- A number takes as many bytes behind the lead byte as the distance to the short forms. -/
theorem length_putPackedLong_le_succ (width : Nat) {v : Int64}
    (near : v.toInt.natAbs - 119 < 256 ^ (width + 1)) :
    (putPackedLong v).length ≤ width + 2 := by
  rw [putPackedLong]
  split
  · rw [List.length_singleton]
    omega
  · exact Nat.succ_le_succ (length_littleEndian_le width near)

theorem length_putPackedLong_of_short {v : Int64} (short : -119 ≤ v.toInt ∧ v.toInt ≤ 119) :
    (putPackedLong v).length = 1 := by
  rw [putPackedLong, if_pos short, List.length_singleton]

theorem length_putPackedLong_pos (v : Int64) : 0 < (putPackedLong v).length := by
  rw [putPackedLong]
  split <;> simp

theorem length_putPackedLong_le (v : Int64) : (putPackedLong v).length ≤ 9 := by
  have low := v.le_toInt
  have high := v.toInt_lt
  exact length_putPackedLong_le_succ 7 (by omega)

theorem PackedForm.length_put_le {text : Octets} {n : Int} (form : PackedForm text n) :
    (putPackedLong (Int64.ofInt n)).length ≤ text.length := by
  by_cases few : text.length < 9
  · have inRange := form.fits_of_length_lt few
    have value : (Int64.ofInt n).toInt = n := Int64.toInt_ofInt_of_le inRange.1 inRange.2
    cases form with
    | short inside =>
      exact Nat.le_of_eq (length_putPackedLong_of_short (by rw [value]; exact inside))
    | positive bs shortest longest | negative bs shortest longest =>
      obtain ⟨width, length⟩ := Nat.exists_eq_add_one_of_ne_zero (Nat.ne_of_gt shortest)
      have below := ofLittleEndian_lt bs
      rw [length] at below
      rw [List.length_cons, length]
      exact length_putPackedLong_le_succ width (by rw [value]; omega)
  · -- A number that has wrapped around is a word like any other.
    have most := length_putPackedLong_le (Int64.ofInt n)
    omega

/-! ## What is read of what is said -/

namespace Reader

/-- A packed long is read off its forms and off nothing else, whatever follows.  What is read
    is congruent to what the form says, and is that itself just where a word holds it, as
    words do for all forms of less than nine bytes. -/
theorem packedLong_reads_said (s : Octets) :
    (∀ v s', packedLong s = .ok v s' → ∃ text n, PackedForm text n ∧ s = text ++ s') ∧
    ∀ text n rest, PackedForm text n → s = text ++ rest →
      ∃ v : Int64, packedLong s = .ok v rest ∧
        v.toInt = n.bmod (2 ^ 64) ∧
        (v.toInt = n ↔ -2 ^ 63 ≤ n ∧ n < 2 ^ 63) ∧
        (text.length < 9 → v.toInt = n) := by
  refine ⟨fun v s' read => exists_packedForm read, ?_⟩
  rintro text n rest form rfl
  have exact_of_fits (inRange : -2 ^ 63 ≤ n ∧ n < 2 ^ 63) : (Int64.ofInt n).toInt = n :=
    Int64.toInt_ofInt_of_le inRange.1 inRange.2
  refine ⟨Int64.ofInt n, form.read rest, Int64.toInt_ofInt, ⟨fun same => ?_, exact_of_fits⟩,
    fun few => exact_of_fits (form.fits_of_length_lt few)⟩
  have low := (Int64.ofInt n).le_toInt
  have high := (Int64.ofInt n).toInt_lt
  omega

/-- The longest form of the highest magnitude, and the next shorter one. -/
theorem packedLong_reads_said_highest :
    (∃ text n, PackedForm text n ∧ 127 :: List.replicate 8 255 = text ++ []) ∧
      (∃ v : Int64, packedLong (127 :: List.replicate 8 255) = .ok v [] ∧
        v.toInt = 118 ∧ v.toInt ≠ 2 ^ 64 + 118) ∧
      ∃ v : Int64, packedLong (126 :: List.replicate 7 255) = .ok v [] ∧
        v.toInt = 2 ^ 56 + 118 := by
  have longest : PackedForm (127 :: List.replicate 8 255) (2 ^ 64 + 118) :=
    .positive (List.replicate 8 255) (by decide) (by decide)
  have shorter : PackedForm (126 :: List.replicate 7 255) (2 ^ 56 + 118) :=
    .positive (List.replicate 7 255) (by decide) (by decide)
  obtain ⟨forms, values⟩ := packedLong_reads_said (127 :: List.replicate 8 255)
  obtain ⟨v, read, value, outside, -⟩ := values _ _ [] longest rfl
  obtain ⟨v', read', -, -, same⟩ := (packedLong_reads_said _).2 _ _ [] shorter rfl
  refine ⟨forms _ _ read, ⟨v, read, value, fun within => ?_⟩, v', read', same (by decide)⟩
  exact absurd (outside.1 within).2 (by decide)

/-- The form of the highest magnitude says more than a word holds, and is read as 118. -/
theorem packedLong_wraps_around :
    PackedForm (127 :: List.replicate 8 255) (2 ^ 64 + 118) ∧
      ¬ (2 ^ 64 + 118 : Int) < 2 ^ 63 ∧
      packedLong (127 :: List.replicate 8 255) = .ok 118 [] :=
  ⟨.positive (List.replicate 8 255) (by decide) (by decide), by decide, rfl⟩

end Reader

end Replication.Wire
