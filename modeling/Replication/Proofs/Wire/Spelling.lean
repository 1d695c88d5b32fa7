import Replication.Proofs.Wire.Packed

/-! # Texts that spell a value

A reader settles what it makes of a text by what it takes of it: the text that it has taken
spells the same value in front of anything else.  Some values have several spellings, of
which the writer's is never the longer one.
-/

namespace Replication.Wire

variable {ε α β : Type}

/-! ## Spellings -/

/-- Whether a reader takes just this text for the value, whatever follows. -/
def Spells (x : EStateM ε Octets α) (text : Octets) (a : α) : Prop :=
  ∀ rest, x (text ++ rest) = .ok a rest

/-- Whether a reader takes nothing but spellings, and none that is shorter than the
    writer's. -/
def Settles (x : EStateM ε Octets α) (write : α → Octets) : Prop :=
  ∀ {s s' : Octets} {a : α}, x s = .ok a s' →
    ∃ text, s = text ++ s' ∧ Spells x text a ∧ (write a).length ≤ text.length

theorem Spells.pure (a : α) : Spells (pure a : EStateM ε Octets α) [] a := fun _ => rfl

theorem Spells.bind {x : EStateM ε Octets α} {f : α → EStateM ε Octets β} {text text' : Octets}
    {a : α} {b : β} (first : Spells x text a) (next : Spells (f a) text' b) :
    Spells (x >>= f) (text ++ text') b := by
  intro rest
  rw [List.append_assoc, bind_eq_of_ok (first _)]
  exact next rest

/-! ## Values that can be written anew -/

/-- Whether a reader takes nothing but spellings, behind each of which the writer can start
    afresh: what it writes, behind what comes `before`, spells the same and is not longer. -/
def Renews (before : Octets) (x : EStateM ε Octets α) (write : α → Octets) : Prop :=
  ∀ s s' a, x s = .ok a s' →
    ∃ text written, s = text ++ s' ∧ Spells x text a ∧ write a = before ++ written ∧
      Spells x written a ∧ written.length ≤ text.length

namespace Renews

variable {before : Octets} {x : EStateM ε Octets α} {write : α → Octets}

theorem pure {a : α} (same : write a = before) :
    Renews before (pure a : EStateM ε Octets α) write := by
  intro s s' b read
  obtain ⟨rfl, rfl⟩ := pure_eq_ok read
  exact ⟨[], [], rfl, .pure a, by rw [same, List.append_nil], .pure a, Nat.le_refl 0⟩

/-- The parts are written anew one behind the other. -/
theorem bind {f : α → EStateM ε Octets β} {write' : β → Octets} (first : Renews [] x write)
    (next : ∀ a, Renews (before ++ write a) (f a) write') : Renews before (x >>= f) write' := by
  intro s s' b read
  obtain ⟨a, s₁, start, done⟩ := bind_eq_ok read
  obtain ⟨text, written, rfl, spells, same, renewed, size⟩ := first _ _ _ start
  obtain rfl : write a = written := same
  obtain ⟨text', written', rfl, spells', same', renewed', size'⟩ := next a _ _ _ done
  refine ⟨text ++ text', write a ++ written', by rw [List.append_assoc], spells.bind spells', ?_,
    renewed.bind renewed', ?_⟩
  · rw [same', List.append_assoc]
  · rw [List.length_append, List.length_append]
    omega

theorem of_settles (settles : Settles x write) (undone : ∀ a, Spells x (write a) a) :
    Renews [] x write := by
  intro s s' a read
  obtain ⟨text, split, spells, size⟩ := settles read
  exact ⟨text, write a, split, spells, rfl, undone a, size⟩

/-- Nothing is read off part of a spelling: the same would be read off the whole, of which
    all is needed. -/
theorem fails_of_part (renews : Renews before x write) {whole part more : Octets} {a : α}
    (spells : Spells x whole a) (parts : part ++ more = whole) (cut : more ≠ []) :
    ∃ e s', x part = .error e s' := by
  cases done : x part with
  | error e s' => exact ⟨e, s', rfl⟩
  | ok b s' =>
    obtain ⟨text, -, rfl, spells', -⟩ := renews _ _ _ done
    have read := spells' (s' ++ more)
    have all := spells []
    rw [← parts, List.append_nil, List.append_assoc, read] at all
    obtain ⟨-, nothing⟩ := EStateM.Result.ok.inj all
    exact absurd (List.append_eq_nil_iff.1 nothing).2 cut

end Renews

/-! ## Readers -/

namespace Reader

theorem settles_fixed {item : Item} {width : Nat} {value : Octets → α} {write : α → Octets}
    (length : ∀ a, (write a).length = width) :
    Settles (take item width >>= fun bs => pure (value bs)) write := by
  intro s s' a read
  obtain ⟨bs, s₁, taken, done⟩ := bind_eq_ok read
  obtain ⟨rfl, rfl⟩ := take_eq_ok taken
  obtain ⟨rfl, rfl⟩ := pure_eq_ok done
  refine ⟨bs, rfl, fun rest => ?_, Nat.le_of_eq (length _)⟩
  rw [bind_eq_of_ok (take_append rest item bs)]
  rfl

theorem settles_byte : Settles byte ([·]) := settles_fixed fun _ => List.length_singleton

theorem settles_int : Settles int putInt := settles_fixed fun _ => length_bigEndian 4 _

theorem settles_bool : Settles bool putBool := by
  intro s s' b read
  obtain ⟨lead, s₁, first, done⟩ := bind_eq_ok read
  obtain ⟨rfl, rfl⟩ := pure_eq_ok done
  refine ⟨[lead], byte_eq_ok first, fun rest => ?_, Nat.le_refl 1⟩
  rw [bool, List.singleton_append, bind_eq_of_ok (byte_cons rest lead)]
  rfl

theorem settles_packedLong : Settles packedLong putPackedLong := by
  intro s s' v read
  obtain ⟨text, n, form, rfl⟩ := exists_packedForm read
  have said := form.read s'
  rw [read] at said
  cases said
  exact ⟨text, rfl, form.read, form.length_put_le⟩

theorem renews_byte : Renews [] byte ([·]) :=
  .of_settles settles_byte fun b rest => byte_cons rest b

theorem renews_bool : Renews [] bool putBool :=
  .of_settles settles_bool fun b rest => bool_putBool rest b

theorem renews_short : Renews [] short putShort :=
  .of_settles (settles_fixed fun _ => length_bigEndian 2 _) fun v rest => short_putShort rest v

theorem renews_int : Renews [] int putInt :=
  .of_settles settles_int fun v rest => int_putInt rest v

theorem renews_long : Renews [] long putLong :=
  .of_settles (settles_fixed fun _ => length_bigEndian 8 _) fun v rest => long_putLong rest v

theorem renews_packedLong : Renews [] packedLong putPackedLong :=
  .of_settles settles_packedLong fun v rest => packedLong_putPackedLong rest v

/-- A string that was read is not longer than its length field could tell. -/
theorem renews_counted (item : Item) : Renews [] (counted item) putCounted := by
  intro s s' t read
  obtain ⟨v, s₁, first, behind⟩ := bind_eq_ok read
  obtain ⟨lengthText, rfl, spells, size⟩ := settles_int first
  obtain ⟨notNegative, taken⟩ := guard_eq_ok behind
  obtain ⟨rfl, length⟩ := take_eq_ok taken
  have bound := v.toInt_lt
  have fits : t.length < 2 ^ 31 := by omega
  refine ⟨lengthText ++ t, putCounted t, by rw [List.append_assoc], spells.bind fun rest => ?_,
    rfl, fun rest => counted_putCounted rest item fits, ?_⟩
  · rw [if_neg notNegative, ← length]
    exact take_append rest item t
  · rw [putInt, length_bigEndian] at size
    rw [putCounted, putInt, List.length_append, List.length_append, length_bigEndian]
    omega

end Reader

end Replication.Wire
