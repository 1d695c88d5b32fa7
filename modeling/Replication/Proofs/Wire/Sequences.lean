import Replication.Proofs.Wire.Spelling

/-! # Fields one after the other

Fields that were written one after the other are read back by readers of their kinds, and
what follows them is left.  Where the text ends before its time, the fields that are there
whole are read and the next read fails.  No read, however it ends, goes beyond the text that it
was given.
-/

namespace Replication.Wire

/-- Whether a field can be written: a string has to fit its length field. -/
def Field.Fits : Field → Prop
  | .string s | .byteArray s => s.length < 2 ^ 31
  | _ => True

/-! ## One field -/

theorem Field.spells_write (f : Field) (fits : f.Fits) : Spells f.kind.read f.write f := by
  intro rest
  cases f with
  | byte b => exact bind_eq_of_ok (Reader.byte_cons rest b)
  | bool b => exact bind_eq_of_ok (Reader.bool_putBool rest b)
  | short v => exact bind_eq_of_ok (Reader.short_putShort rest v)
  | int v => exact bind_eq_of_ok (Reader.int_putInt rest v)
  | long v => exact bind_eq_of_ok (Reader.long_putLong rest v)
  | packedLong v => exact bind_eq_of_ok (Reader.packedLong_putPackedLong rest v)
  | string s => exact bind_eq_of_ok (Reader.counted_putCounted rest .string fits)
  | byteArray s => exact bind_eq_of_ok (Reader.counted_putCounted rest .byteArray fits)

theorem Field.Kind.renews_read (k : Field.Kind) : Renews [] k.read Field.write := by
  cases k with
  | byte => exact .bind Reader.renews_byte fun _ => .pure rfl
  | bool => exact .bind Reader.renews_bool fun _ => .pure rfl
  | short => exact .bind Reader.renews_short fun _ => .pure rfl
  | int => exact .bind Reader.renews_int fun _ => .pure rfl
  | long => exact .bind Reader.renews_long fun _ => .pure rfl
  | packedLong => exact .bind Reader.renews_packedLong fun _ => .pure rfl
  | string | byteArray => exact .bind (Reader.renews_counted _) fun _ => .pure rfl

/-! ## Readers stay inside their text -/

section Inside

variable (text : Octets)

theorem Reader.inside_take (item : Item) (n : Nat) : Stays (· <:+ text) (take item n) := by
  intro s inside
  rw [take]
  split
  · exact inside
  · exact (List.drop_suffix n s).trans inside

theorem Reader.inside_byte : Stays (· <:+ text) byte :=
  .bind (inside_take text _ _) fun _ => .pure _

theorem Reader.inside_int : Stays (· <:+ text) int :=
  .bind (inside_take text _ _) fun _ => .pure _

theorem Reader.inside_packedLong : Stays (· <:+ text) packedLong := by
  refine Stays.bind (inside_byte text) fun lead => ?_
  dsimp only
  refine Stays.ite (.pure _) (Stays.ite ?_ ?_)
  · exact .bind (.throw _) fun _ => .bind (inside_take text _ _) fun _ => .pure _
  · exact .bind (inside_take text _ _) fun _ => .pure _

theorem Reader.inside_counted (item : Item) : Stays (· <:+ text) (counted item) := by
  apply Stays.bind (inside_int text)
  intro length
  exact .ite (.bind (.throw _) fun _ => inside_take text _ _) (inside_take text _ _)

theorem Field.Kind.inside_read (k : Field.Kind) : Stays (· <:+ text) k.read := by
  cases k with
  | byte => exact .bind (Reader.inside_byte text) fun _ => .pure _
  | bool =>
    exact .bind (.bind (Reader.inside_byte text) fun _ => .pure _) fun _ => .pure _
  | short | long =>
    exact .bind (.bind (Reader.inside_take text _ _) fun _ => .pure _) fun _ => .pure _
  | int => exact .bind (Reader.inside_int text) fun _ => .pure _
  | packedLong => exact .bind (Reader.inside_packedLong text) fun _ => .pure _
  | string | byteArray => exact .bind (Reader.inside_counted text _) fun _ => .pure _

end Inside

/-! ## Sequences -/

theorem writeAll_cons (f : Field) (fields : List Field) :
    writeAll (f :: fields) = f.write ++ writeAll fields :=
  List.flatMap_cons

section Sequences

variable {fields : List Field} (fit : ∀ f ∈ fields, f.Fits)

include fit

theorem inTurn_writeAll (rest : Octets) :
    inTurn (fields.map (·.kind.read)) (writeAll fields ++ rest) = (fields.map .ok, rest) := by
  induction fields with
  | nil => rfl
  | cons f fields ih =>
    have others := ih fun g mem => fit g (List.mem_cons_of_mem _ mem)
    have first := f.spells_write (fit f List.mem_cons_self) (writeAll fields ++ rest)
    rw [List.map_cons, writeAll_cons, List.append_assoc, inTurn_cons (r := .ok f) first, others,
      List.map_cons]

/-- The text ends inside of one of the fields, of which the readers before it see nothing. -/
theorem inTurn_part {part more : Octets} (parts : part ++ more = writeAll fields)
    (cut : more ≠ []) :
    ∃ front f back e others, fields = front ++ f :: back ∧
      (inTurn (fields.map (·.kind.read)) part).1 = front.map .ok ++ .error e :: others := by
  -- By induction on the fields: either the first one is there whole, and the rest of the text
  -- is part of the others, or the text ends inside of it.
  induction fields generalizing part with
  | nil => exact absurd (List.append_eq_nil_iff.1 parts).2 cut
  | cons f fields ih =>
    have spells := f.spells_write (fit f List.mem_cons_self)
    rw [writeAll_cons] at parts
    by_cases whole : f.write <+: part
    · obtain ⟨part', rfl⟩ := whole
      rw [List.append_assoc] at parts
      obtain ⟨front, g, back, e, others, split, read⟩ :=
        ih (fun g mem => fit g (List.mem_cons_of_mem _ mem)) (List.append_cancel_left parts)
      refine ⟨f :: front, g, back, e, others, by rw [split]; rfl, ?_⟩
      rw [List.map_cons, inTurn_cons (r := .ok f) (spells part'), read]
      rfl
    · obtain ⟨missing, split⟩ : part <+: f.write :=
        (List.prefix_or_prefix_of_prefix ⟨more, parts⟩ ⟨writeAll fields, rfl⟩).resolve_right whole
      have lacks : missing ≠ [] := by
        rintro rfl
        exact whole ⟨[], by rw [← split, List.append_nil, List.append_nil]⟩
      obtain ⟨e, s', failed⟩ := f.kind.renews_read.fails_of_part spells split lacks
      refine ⟨[], f, fields, e, (inTurn (fields.map (·.kind.read)) s').1, rfl, ?_⟩
      rw [List.map_cons, inTurn_cons (r := .error e) failed]
      rfl

end Sequences

/-- Fields that were written are read back in turn, and just what follows them is left.  Off
    a text that ends before they do, the fields in front are read and the next read fails.
    Wherever reads have left the reader, however they ended, it is at an end piece of its
    text, and a read that goes well from there makes its field of bytes that are there,
    whatever follows them. -/
theorem fields_read_back :
    (∀ fields : List Field, (∀ f ∈ fields, f.Fits) →
      (∀ rest,
        inTurn (fields.map (·.kind.read)) (writeAll fields ++ rest) = (fields.map .ok, rest) ∧
          Reader.remaining rest = .ok rest.length rest) ∧
      ∀ part, part <+: writeAll fields → part ≠ writeAll fields →
        ∃ front f back e others, fields = front ++ f :: back ∧
          (inTurn (fields.map (·.kind.read)) part).1 = front.map .ok ++ .error e :: others) ∧
    ∀ (kinds : List Field.Kind) (text : Octets),
      (inTurn (kinds.map (·.read)) text).2 <:+ text ∧
      ∀ k f s', Field.Kind.read k (inTurn (kinds.map (·.read)) text).2 = .ok f s' →
        ∃ taken, (inTurn (kinds.map (·.read)) text).2 = taken ++ s' ∧ Spells k.read taken f := by
  refine ⟨fun fields fit => ⟨fun rest => ?_, ?_⟩, fun kinds text => ⟨?_, fun k f s' read => ?_⟩⟩
  · exact ⟨inTurn_writeAll fit rest, rfl⟩
  · rintro part ⟨more, parts⟩ other
    refine inTurn_part fit parts ?_
    rintro rfl
    exact other (by rw [← parts, List.append_nil])
  · refine Stays.inTurn (P := (· <:+ text)) ?_ (List.suffix_refl text)
    intro x mem
    obtain ⟨k, -, rfl⟩ := List.mem_map.1 mem
    exact k.inside_read text
  · obtain ⟨taken, -, split, spells, -⟩ := k.renews_read _ _ _ read
    exact ⟨taken, split, spells⟩

/-- A field of each kind, with the words that are farthest from the short packed longs and
    those that are next to them. -/
def assorted : List Field :=
  [.byte 255, .bool true, .short (-2), .int (-2147483648), .long (-2),
    .packedLong (-9223372036854775808), .packedLong 9223372036854775807, .packedLong (-120),
    .packedLong 119, .string [], .byteArray [9, 8]]

/-- They are read back with a byte behind them, and not without their last byte.  Three bytes
    are no long but still a byte, which is read behind the long that was not there. -/
theorem fields_read_back_assorted :
    (∀ f ∈ assorted, f.Fits) ∧
      inTurn (assorted.map (·.kind.read)) (writeAll assorted ++ [7]) = (assorted.map .ok, [7]) ∧
      (∃ front f back e others, assorted = front ++ f :: back ∧
        (inTurn (assorted.map (·.kind.read)) (writeAll assorted).dropLast).1 =
          front.map .ok ++ .error e :: others) ∧
      (inTurn [Field.Kind.long.read] [0, 0, 0]).2 <:+ [0, 0, 0] ∧
      ∃ taken, [0, 0, 0] = taken ++ [0, 0] ∧ Spells Field.Kind.byte.read taken (.byte 0) := by
  obtain ⟨sequences, reads⟩ := fields_read_back
  have fit : ∀ f ∈ assorted, f.Fits := by
    simp [assorted, Field.Fits]
  obtain ⟨whole, parts⟩ := sequences assorted fit
  obtain ⟨inside, later⟩ := reads [.long] [0, 0, 0]
  exact ⟨fit, (whole [7]).1, parts _ (List.dropLast_prefix _) (by decide +kernel), inside,
    later .byte (.byte 0) [0, 0] rfl⟩

end Replication.Wire
