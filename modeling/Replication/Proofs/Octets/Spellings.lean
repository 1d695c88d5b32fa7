import Mathlib.Data.List.Induction
import Mathlib.Data.List.TakeWhile
import Replication.Proofs.Octets.Numerals

/-! # What spells a numeral

A string of digits of either case spells a number, and writing the number gives the digits
back in lower case.  Numerals of the same width are ordered as their numbers, because the
digits are ordered as their values.
-/

namespace Replication

namespace Hexadecimal

/-! ## Digits -/

theorem forall_byte {P : UInt8 → Prop} (h : ∀ n : Fin 256, P (UInt8.ofNat n)) (b : UInt8) :
    P b := by
  have here := h ⟨b.toNat, b.toNat_lt⟩
  rwa [UInt8.ofNat_toNat] at here

theorem isSome_digit? (b : UInt8) : (digit? b).isSome ↔ b ∈ alphabet := by
  revert b
  exact forall_byte (by decide +kernel)

theorem digit_of_digit? (b : UInt8) : ∀ d ∈ digit? b, d < 16 ∧ digit d = lower b := by
  revert b
  exact forall_byte (by decide +kernel)

theorem compare_digit : ∀ d < 16, ∀ e < 16, compare (digit d) (digit e) = compare d e := by
  decide +kernel

/-! ## Reading -/

theorem isSome_value? (ds : Octets) : (value? ds).isSome ↔ ∀ b ∈ ds, b ∈ alphabet := by
  induction ds using List.reverseRecOn with
  | nil => exact iff_of_true rfl fun _ mem => absurd mem List.not_mem_nil
  | append_singleton ds b ih =>
    rw [List.forall_mem_append, ← ih, List.forall_mem_singleton, ← isSome_digit?,
      value?_append_singleton]
    cases value? ds with
    | none => simp
    | some n => simp

/-- A number is below what its numeral has room for, and is written as it was read, but in
    lower case. -/
theorem render_of_value? {ds : Octets} {n : Nat} (read : value? ds = some n) :
    n < 16 ^ ds.length ∧ render ds.length n = ds.map lower := by
  induction ds using List.reverseRecOn generalizing n with
  | nil =>
    cases read
    exact ⟨Nat.one_pos, rfl⟩
  | append_singleton ds b ih =>
    rw [value?_append_singleton] at read
    obtain ⟨front, hfront, last⟩ := Option.bind_eq_some_iff.1 read
    obtain ⟨d, hd, rfl⟩ := Option.map_eq_some_iff.1 last
    obtain ⟨below, written⟩ := ih hfront
    obtain ⟨small, same⟩ := digit_of_digit? b d hd
    have quotient : (16 * front + d) / 16 = front := by omega
    have remainder : (16 * front + d) % 16 = d := by omega
    rw [List.length_append, List.length_singleton, Nat.pow_succ']
    refine ⟨by omega, ?_⟩
    rw [render, quotient, remainder, written, same, List.map_append, List.map_singleton]

/-! ## The order of numerals -/

/-- Of two texts whose fronts are of the same length, the fronts decide first. -/
theorem compare_append {α : Type} [Ord α] {s t : List α} (same : s.length = t.length)
    (s' t' : List α) : compare (s ++ s') (t ++ t') = (compare s t).then (compare s' t') := by
  induction s generalizing t with
  | nil =>
    obtain rfl := List.length_eq_zero_iff.1 same.symm
    rw [List.compare_nil_nil]
    rfl
  | cons a s ih =>
    obtain ⟨b, t, rfl⟩ := List.exists_cons_of_length_eq_add_one same.symm
    rw [List.cons_append, List.cons_append, List.compare_cons_cons, List.compare_cons_cons,
      ih (Nat.succ.inj same), Ordering.then_assoc]

/-- The leading digits of a number decide before its last one. -/
theorem compare_then {c d a b : Nat} (ha : a < 16) (hb : b < 16) :
    (compare c d).then (compare a b) = compare (a + 16 * c) (b + 16 * d) := by
  obtain less | rfl | more := Nat.lt_trichotomy c d
  · have behind : a + 16 * c < b + 16 * d := by omega
    rw [Nat.compare_eq_lt.2 less, Nat.compare_eq_lt.2 behind]
    rfl
  · have shifted : a < b ↔ a + 16 * c < b + 16 * c := by omega
    have same : a = b ↔ a + 16 * c = b + 16 * c := by omega
    rw [Nat.compare_eq_eq.2 rfl, Ordering.eq_then, Nat.compare_eq_ite_lt, Nat.compare_eq_ite_lt]
    grind
  · have behind : b + 16 * d < a + 16 * c := by omega
    rw [Nat.compare_eq_gt.2 more, Nat.compare_eq_gt.2 behind]
    rfl

theorem compare_render (width n m : Nat) :
    compare (render width n) (render width m) = compare (n % 16 ^ width) (m % 16 ^ width) := by
  induction width generalizing n m with
  | zero => rw [Nat.pow_zero, Nat.mod_one, Nat.mod_one]; rfl
  | succ width ih =>
    have hn : n % 16 < 16 := Nat.mod_lt n (by decide)
    have hm : m % 16 < 16 := Nat.mod_lt m (by decide)
    rw [render, render, compare_append (by simp only [length_render]), ih,
      List.compare_cons_cons, List.compare_nil_nil, Ordering.then_eq, compare_digit _ hn _ hm,
      compare_then hn hm, Nat.pow_succ', Nat.mod_mul, Nat.mod_mul]

end Hexadecimal

namespace Decimal

/-! ## Numerals with blanks and signs -/

theorem dropWhile_blanks {blanks rest : Octets} (blank : ∀ b ∈ blanks, isBlank b)
    (stop : ∀ b ∈ rest.head?, isBlank b = false) :
    (blanks ++ rest).dropWhile isBlank = rest := by
  rw [List.dropWhile_append_of_pos blank]
  cases rest with
  | nil => rfl
  | cons b rest => exact List.dropWhile_cons_of_neg (by rw [stop b rfl]; decide)

/-- Digits are taken for neither a blank nor a sign. -/
theorem splitSign_of_digits {ds : Octets} (digit : ∀ d ∈ ds, isDigit d) :
    (∀ b ∈ ds.head?, isBlank b = false) ∧ splitSign ds = (false, ds) := by
  cases ds with
  | nil => exact ⟨nofun, rfl⟩
  | cons d ds =>
    obtain ⟨full, noMinus, noPlus⟩ := plain_of_isDigit (digit d List.mem_cons_self)
    refine ⟨fun b head => Option.some.inj head ▸ full, ?_⟩
    unfold splitSign
    split
    next minus => exact absurd (List.cons.inj minus).1 noMinus
    next plus => exact absurd (List.cons.inj plus).1 noPlus
    next => rfl

/-- A text is read from its blanks, its sign and its digits. -/
theorem scan_of_splitSign {s ds : Octets} {negative : Bool}
    (cut : splitSign (s.dropWhile isBlank) = (negative, ds)) (digit : ∀ d ∈ ds, isDigit d)
    (nonempty : ds ≠ []) (inWord : InWord (if negative then -(value ds : Int) else value ds)) :
    scan s = some (if negative then -(value ds : Int) else value ds, []) := by
  have taken : ds.takeWhile isDigit = ds := List.takeWhile_eq_self_iff.2 digit
  have left : ds.dropWhile isDigit = [] := List.dropWhile_eq_nil_iff.2 digit
  rw [scan, cut]
  simp only [taken, left]
  exact if_pos ⟨nonempty, inWord⟩

theorem scan_of_numeral {s : Octets} {n : Int} (numeral : Numeral s n) (inWord : InWord n) :
    scan s = some (n, []) := by
  cases numeral with
  | unsigned blank digit nonempty =>
    obtain ⟨stop, unsigned⟩ := splitSign_of_digits digit
    have cut := (congrArg splitSign (dropWhile_blanks blank stop)).trans unsigned
    exact scan_of_splitSign cut digit nonempty inWord
  | @plus blanks ds blank digit nonempty =>
    have stop : ∀ b ∈ (43 :: ds).head?, isBlank b = false := by rintro b ⟨⟩; decide
    have cut := congrArg splitSign (dropWhile_blanks blank stop)
    exact scan_of_splitSign cut digit nonempty inWord
  | @minus blanks ds blank digit nonempty =>
    have stop : ∀ b ∈ (45 :: ds).head?, isBlank b = false := by rintro b ⟨⟩; decide
    have cut := congrArg splitSign (dropWhile_blanks blank stop)
    exact scan_of_splitSign cut digit nonempty inWord

theorem numeral_of_scan {s : Octets} {n : Int} (read : scan s = some (n, [])) :
    Numeral s n ∧ InWord n := by
  have blank : ∀ b ∈ s.takeWhile isBlank, isBlank b := fun b mem => List.mem_takeWhile_imp mem
  have whole : s.takeWhile isBlank ++ s.dropWhile isBlank = s := List.takeWhile_append_dropWhile
  rw [scan] at read
  cases cut : splitSign (s.dropWhile isBlank) with
  | mk negative body =>
    rw [cut] at read
    simp only [Option.ite_none_right_eq_some, Option.some.injEq, Prod.mk.injEq] at read
    obtain ⟨⟨nonempty, inWord⟩, rfl, left⟩ := read
    have digit : ∀ d ∈ body, isDigit d := List.dropWhile_eq_nil_iff.1 left
    rw [List.takeWhile_eq_self_iff.2 digit] at nonempty inWord ⊢
    refine ⟨?_, inWord⟩
    rw [← whole]
    -- The three forms of a numeral are the three ways in which a sign is split off.
    unfold splitSign at cut
    split at cut
    next minus =>
      cases cut
      rw [minus]
      exact .minus blank digit nonempty
    next plus =>
      cases cut
      rw [plus]
      exact .plus blank digit nonempty
    next =>
      cases cut
      exact .unsigned blank digit nonempty

/-- A text denotes the numbers of 64 bits of which it is a numeral. -/
theorem parse_eq_some_iff {s : Octets} {n : Int} :
    parse s = some n ↔ Numeral s n ∧ InWord n := by
  constructor
  · intro parsed
    unfold parse at parsed
    split at parsed
    next m read =>
      cases parsed
      exact numeral_of_scan read
    next => cases parsed
  · rintro ⟨numeral, inWord⟩
    rw [parse, scan_of_numeral numeral inWord]

end Decimal

end Replication
