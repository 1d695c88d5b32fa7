import Mathlib.Order.Defs.Unbundled
import Replication.Proofs.Election.Records
import Replication.Proofs.Octets.Spellings

/-! # The order of proposals is the order of their wire forms

The time is written with a fixed number of digits, and digits are ordered as their values, so
two wire forms compare as the times, then as the suffixes.  A text is read as a proposal if it
looks like a wire form, in whatever case its digits are, and the proposal is written with the
digits in lower case.
-/

namespace Replication.Election.Proposal

/-! ## The order -/

theorem compare_time (a b : Proposal) :
    compare (Hexadecimal.render timeDigits a.time.toNat)
      (Hexadecimal.render timeDigits b.time.toNat) = compare a.time b.time := by
  have small (p : Proposal) : p.time.toNat % 16 ^ timeDigits = p.time.toNat :=
    Nat.mod_eq_of_lt p.time.toNat_lt
  rw [Hexadecimal.compare_render, small, small, UInt64.compare_eq_toNat_compare_toNat]

/-- Proposals compare as their wire forms do. -/
theorem cmp_eq_compare_wire (a b : Proposal) : cmp a b = compare a.wire b.wire := by
  have same : (Hexadecimal.render timeDigits a.time.toNat).length =
      (Hexadecimal.render timeDigits b.time.toNat).length := by simp only [Hexadecimal.length_render]
  rw [cmp, wire, wire, Hexadecimal.compare_append same, compare_time]

theorem cmp_eq_iff (a b : Proposal) : cmp a b = .eq ↔ a = b :=
  (Std.compare_eq_iff_eq : compare a b = .eq ↔ a = b)

theorem cmp_gt_iff (a b : Proposal) : cmp a b = .gt ↔ cmp b a = .lt :=
  (Std.OrientedCmp.gt_iff_lt : compare a b = .gt ↔ compare b a = .lt)

/-- Of two proposals that differ, just one comes first. -/
theorem isStrictTotalOrder_cmp : IsStrictTotalOrder Proposal fun a b => cmp a b = .lt where
  trichotomous a b notBefore notBehind := by
    cases order : cmp a b with
    | lt => exact absurd order notBefore
    | eq => exact (cmp_eq_iff a b).1 order
    | gt => exact absurd ((cmp_gt_iff a b).1 order) notBehind
  irrefl a before := nomatch ((cmp_eq_iff a a).2 rfl).symm.trans before
  trans a b c before behind := by
    change compare a c = .lt
    exact Std.TransCmp.lt_trans before behind

/-! ## Reading -/

theorem isSome_ofText? (text : Octets) : (Token.ofText? text).isSome ↔ separator ∉ text := by
  rw [Token.ofText?]
  by_cases plain : separator ∉ text
  · rw [dif_pos plain]
    exact iff_of_true rfl plain
  · rw [dif_neg plain]
    exact iff_of_false Bool.false_ne_true plain

/-- A text that looks like a wire form is read, and written again with its time in lower
    case. -/
theorem parse_of_spelled {w : Octets} (spelled : Spelled w) :
    ∃ a, parse w = .ok a ∧ a.wire = lowered w := by
  obtain ⟨time, htime⟩ := Option.isSome_iff_exists.1
    ((Hexadecimal.isSome_value? (w.take timeDigits)).2 spelled.digits)
  obtain ⟨suffix, hsuffix⟩ := Option.isSome_iff_exists.1 ((isSome_ofText? _).2 spelled.plain)
  have length : (w.take timeDigits).length = timeDigits := List.length_take_of_le spelled.long
  obtain ⟨below, written⟩ := Hexadecimal.render_of_value? htime
  rw [length] at below written
  have whole : (UInt64.ofNat time).toNat = time := UInt64.toNat_ofNat_of_lt' below
  have text : suffix.text = w.drop timeDigits := by
    obtain ⟨_, found⟩ := Option.dite_none_right_eq_some.1 hsuffix
    exact congrArg Token.text (Option.some.inj found).symm
  refine ⟨{ time := UInt64.ofNat time, suffix }, ?_, ?_⟩
  · rw [parse, if_neg (Nat.not_lt.2 spelled.long), htime, hsuffix]
  · rw [wire, whole, written, text, lowered]

/-- Nothing else is read. -/
theorem spelled_of_parse {w : Octets} {a : Proposal} (read : parse w = .ok a) : Spelled w := by
  rw [parse] at read
  split at read
  · cases read
  next long =>
    split at read
    · cases read
    · cases read
    next time suffix htime hsuffix =>
      exact {
        long := Nat.not_lt.1 long
        digits := (Hexadecimal.isSome_value? _).1 (Option.isSome_of_eq_some htime)
        plain := (isSome_ofText? _).1 (Option.isSome_of_eq_some hsuffix) }

theorem parse_iff_spelled {w : Octets} : (∃ a, parse w = .ok a) ↔ Spelled w :=
  ⟨fun ⟨_, read⟩ => spelled_of_parse read, fun spelled =>
    let ⟨a, read, _⟩ := parse_of_spelled spelled
    ⟨a, read⟩⟩

theorem wire_of_parse {w : Octets} {a : Proposal} (read : parse w = .ok a) :
    a.wire = lowered w := by
  obtain ⟨a', read', written⟩ := parse_of_spelled (spelled_of_parse read)
  obtain rfl := Except.ok.inj (read.symm.trans read')
  exact written

/-! ## Both -/

/-- Wire forms are read back, they are ordered as the proposals, and this is a strict total
    order; and a text is read just if it looks like a wire form, and is then one but for the
    case of its digits. -/
theorem order_of_wire :
    (∀ a : Proposal, parse a.wire = .ok a) ∧
    (∀ a b : Proposal, cmp a b = compare a.wire b.wire) ∧
    IsStrictTotalOrder Proposal (fun a b => cmp a b = .lt) ∧
    (∀ a b : Proposal, cmp a b = .gt ↔ cmp b a = .lt) ∧
    (∀ a b : Proposal, cmp a b = .eq ↔ a = b) ∧
    ∀ w : Octets, ((∃ a, parse w = .ok a) ↔ Spelled w) ∧
      ∀ a, parse w = .ok a → a.wire = lowered w :=
  ⟨parse_wire, cmp_eq_compare_wire, isStrictTotalOrder_cmp, cmp_gt_iff, cmp_eq_iff,
    fun _ => ⟨parse_iff_spelled, fun _ => wire_of_parse⟩⟩

/-- A wire form with digits of either case, in front of a byte beyond ASCII. -/
def mixedCase : Octets := Octets.ofAscii "00000000DeadbeeF" ++ [255]

/-- It is written in lower case, with the suffix as it was. -/
theorem order_of_wire_mixedCase :
    ∃ a, parse mixedCase = .ok a ∧ a.wire = Octets.ofAscii "00000000deadbeef" ++ [255] := by
  obtain ⟨-, -, -, -, -, reads⟩ := order_of_wire
  have digits : (mixedCase.take timeDigits).all Hexadecimal.alphabet.contains = true := rfl
  have spelled : Spelled mixedCase := {
    long := by decide
    digits := fun b mem => List.contains_iff_mem.1 (List.all_eq_true.1 digits b mem)
    plain := by decide }
  obtain ⟨a, read⟩ := (reads mixedCase).1.2 spelled
  exact ⟨a, read, (reads mixedCase).2 a read⟩

end Replication.Election.Proposal
