import Mathlib.Algebra.Group.Nat.Defs
import Replication.Octets.Decimal
import Replication.Octets.Hexadecimal

/-! # Numerals are read back

A hexadecimal numeral keeps the last digits of its number, and a decimal numeral is read
back whole, whatever follows that is not a digit.
-/

namespace Replication

/-! ## Hexadecimal numerals -/

namespace Hexadecimal

theorem digit?_digit {d : Nat} (small : d < 16) : digit? (digit d) = some d := by
  revert d
  decide

@[simp] theorem length_render (width n : Nat) : (render width n).length = width := by
  induction width generalizing n with
  | zero => rfl
  | succ width ih => rw [render, List.length_append, ih, List.length_singleton]

theorem value?_append_singleton (ds : Octets) (b : UInt8) :
    value? (ds ++ [b]) = (value? ds).bind fun n => (digit? b).map (16 * n + ·) := by
  rw [value?, value?, List.mapM_append]
  cases ds.mapM digit? with
  | none => rfl
  | some digits =>
    cases last : digit? b with
    | none => simp [last]
    | some d => simp [last]

/-- A numeral tells as many digits as it has room for. -/
theorem value?_render (width n : Nat) : value? (render width n) = some (n % 16 ^ width) := by
  induction width generalizing n with
  | zero => rw [Nat.pow_zero, Nat.mod_one]; rfl
  | succ width ih =>
    have last : n % 16 < 16 := Nat.mod_lt _ (by decide)
    rw [render, value?_append_singleton, ih, digit?_digit last, Nat.pow_succ']
    simp only [Option.bind_some, Option.map_some, Option.some.injEq]
    rw [Nat.mod_mul, Nat.add_comm]

/-- The digits are those of the ASCII alphabet. -/
theorem digit_ne {b : UInt8} (other : digit? b = none) {d : Nat} (small : d < 16) :
    digit d ≠ b := by
  rintro rfl
  rw [digit?_digit small] at other
  cases other

theorem not_mem_render {b : UInt8} (other : digit? b = none) (width n : Nat) :
    b ∉ render width n := by
  induction width generalizing n with
  | zero => exact List.not_mem_nil
  | succ width ih =>
    rw [render, List.mem_append, List.mem_singleton]
    rintro (before | rfl)
    · exact ih _ before
    · exact digit_ne other (Nat.mod_lt n (by decide)) rfl

end Hexadecimal

/-! ## Decimal numerals -/

namespace Decimal

theorem toNat_digit {d : Nat} (small : d < 10) : (digit d).toNat = 48 + d := by
  rw [digit, UInt8.toNat_ofNat']
  omega

theorem isDigit_digit {d : Nat} (small : d < 10) : isDigit (digit d) = true := by
  revert d
  decide

/-- No digit is skipped as a blank or taken for a sign. -/
theorem plain_of_isDigit {b : UInt8} (digit : isDigit b = true) :
    isBlank b = false ∧ b ≠ 45 ∧ b ≠ 43 := by
  rw [isDigit, Bool.and_eq_true, decide_eq_true_eq, decide_eq_true_eq] at digit
  refine ⟨?_, ?_, ?_⟩
  · rw [isBlank]
    grind
  · rintro rfl
    exact absurd digit.1 (by decide)
  · rintro rfl
    exact absurd digit.1 (by decide)

theorem isDigit_of_mem_digits {n : Nat} : ∀ b ∈ digits n, isDigit b = true := by
  fun_induction digits n with
  | case1 n small =>
    intro b mem
    rw [List.mem_singleton.1 mem]
    exact isDigit_digit small
  | case2 n large ih =>
    intro b mem
    rcases List.mem_append.1 mem with before | last
    · exact ih b before
    · rw [List.mem_singleton.1 last]
      exact isDigit_digit (Nat.mod_lt n (by decide))

theorem digits_ne_nil (n : Nat) : digits n ≠ [] := by
  rw [digits]
  split <;> simp

theorem value_append_singleton (ds : Octets) (d : UInt8) :
    value (ds ++ [d]) = 10 * value ds + (d.toNat - 48) := by
  rw [value, List.foldl_append]
  rfl

theorem value_digits (n : Nat) : value (digits n) = n := by
  fun_induction digits n with
  | case1 n small =>
    have digit := toNat_digit small
    simp only [value, List.foldl_cons, List.foldl_nil]
    omega
  | case2 n large ih =>
    have digit := toNat_digit (Nat.mod_lt n (show 0 < 10 by decide))
    rw [value_append_singleton, ih]
    omega

/-- A numeral without a sign starts with a digit, so nothing is skipped in front of it. -/
theorem splitSign_digits (n : Nat) (rest : Octets) :
    splitSign ((digits n ++ rest).dropWhile isBlank) = (false, digits n ++ rest) := by
  obtain ⟨b, ds, same⟩ := List.exists_cons_of_ne_nil (digits_ne_nil n)
  have digit : isDigit b = true := isDigit_of_mem_digits b (same ▸ List.mem_cons_self)
  obtain ⟨full, noMinus, noPlus⟩ := plain_of_isDigit digit
  rw [same, List.cons_append, List.dropWhile_cons_of_neg (by rw [full]; decide)]
  unfold splitSign
  split
  next minus => exact absurd (List.cons.inj minus).1 noMinus
  next plus => exact absurd (List.cons.inj plus).1 noPlus
  next => rfl

variable {rest : Octets} (ends : ∀ b ∈ rest.head?, isDigit b = false)

include ends

theorem takeWhile_digits (n : Nat) :
    (digits n ++ rest).takeWhile isDigit = digits n ∧
      (digits n ++ rest).dropWhile isDigit = rest := by
  have stop : rest.takeWhile isDigit = [] ∧ rest.dropWhile isDigit = rest := by
    cases rest with
    | nil => exact ⟨rfl, rfl⟩
    | cons b rest =>
      have other : ¬ isDigit b = true := by rw [ends b rfl]; decide
      exact ⟨List.takeWhile_cons_of_neg other, List.dropWhile_cons_of_neg other⟩
  constructor
  · rw [List.takeWhile_append_of_pos isDigit_of_mem_digits, stop.1, List.append_nil]
  · rw [List.dropWhile_append_of_pos isDigit_of_mem_digits, stop.2]

/-- A numeral is read back, with what follows it left. -/
theorem scan_render {n : Int} (inWord : InWord n) : scan (render n ++ rest) = some (n, rest) := by
  cases n with
  | ofNat n =>
    obtain ⟨taken, left⟩ := takeWhile_digits ends n
    rw [render, scan, splitSign_digits]
    simp only [taken, left, value_digits, Bool.false_eq_true, if_false]
    exact if_pos ⟨digits_ne_nil n, inWord⟩
  | negSucc n =>
    obtain ⟨taken, left⟩ := takeWhile_digits ends (n + 1)
    have signed : splitSign ((render (.negSucc n) ++ rest).dropWhile isBlank) =
        (true, digits (n + 1) ++ rest) := rfl
    rw [scan, signed]
    simp only [taken, left, value_digits, if_true]
    exact if_pos ⟨digits_ne_nil (n + 1), inWord⟩

omit ends

/-- Neither a bar nor any other byte but digits and the minus sign stands in a numeral. -/
theorem not_mem_render {b : UInt8} (other : isDigit b = false) (noMinus : b ≠ 45) (n : Int) :
    b ∉ render n := by
  have notAmong (n : Nat) : b ∉ digits n := by
    intro mem
    rw [isDigit_of_mem_digits b mem] at other
    cases other
  cases n with
  | ofNat n => exact notAmong n
  | negSucc n => exact List.not_mem_cons_of_ne_of_not_mem noMinus (notAmong (n + 1))

end Decimal

end Replication
