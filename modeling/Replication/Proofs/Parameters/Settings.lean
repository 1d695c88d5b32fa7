import Replication.Parameters
import Replication.Proofs.Octets.Spellings

/-! # What texts set parameters to

`Parameter.Reads` tells what a text sets a parameter to, and `Parameters.Refuses` why it sets
none: `assign` sets the parameter of a name as the text reads, or fails for such a reason.
-/

namespace Replication

/-! ## Settings -/

/-- The value of an integer parameter; a flag has none. -/
def Parameters.integer? (ps : Parameters) : Parameter → Option Int
  | .replicaMessageQueueSize => some ps.replicaMessageQueueSize
  | .heartbeatIntervalMs => some ps.heartbeatIntervalMs
  | .preHeartbeatTimeoutMs => some ps.preHeartbeatTimeoutMs
  | .replicaTimeoutMs => some ps.replicaTimeoutMs
  | .networkRetries => some ps.networkRetries
  | .serviceUnavailableRetries => some ps.serviceUnavailableRetries
  | .connectRetrySleepMs => some ps.connectRetrySleepMs
  | .maxGroupTxns => some ps.maxGroupTxns
  | .fsyncIntervalMs => some ps.fsyncIntervalMs
  | .enableGroupAcks => none
  | .maxMessageSize => some ps.maxMessageSize
  | .electionReadTimeoutMs => some ps.electionReadTimeoutMs
  | .feederWaitNs => some ps.feederWaitNs
  | .scanWaitTimeoutMs => some ps.scanWaitTimeoutMs
  | .scanWaitPollMs => some ps.scanWaitPollMs

/-- Whether an integer is one that a parameter may be set to. -/
def Parameter.Admits (p : Parameter) (n : Int) : Prop :=
  match p.domain with
  | .integer least greatest => least ≤ n ∧ n ≤ greatest
  | .flag => False

instance (p : Parameter) (n : Int) : Decidable (p.Admits n) :=
  match domain : p.domain with
  | .integer least greatest =>
    decidable_of_iff (least ≤ n ∧ n ≤ greatest) (by rw [Parameter.Admits, domain])
  | .flag => .isFalse (by rw [Parameter.Admits, domain]; exact id)

/-- What a parameter may be set to. -/
inductive Setting where
  | integer (n : Int)
  | flag (b : Bool)
deriving DecidableEq, Repr

/-- The words that spell a flag. -/
def Setting.words : Bool → List Octets
  | true => [.ofAscii "true", .ofAscii "1"]
  | false => [.ofAscii "false", .ofAscii "0"]

namespace Parameters

def setting (ps : Parameters) (p : Parameter) : Setting :=
  match ps.integer? p with
  | some n => .integer n
  | none => .flag ps.enableGroupAcks

def put (ps : Parameters) (p : Parameter) : Setting → Parameters
  | .integer n => ps.setInteger n p
  | .flag b => { ps with enableGroupAcks := b }

end Parameters

/-- What a text sets a parameter to: an integer in its range by a numeral, a flag by a word. -/
inductive Parameter.Reads (p : Parameter) (text : Octets) : Setting → Prop where
  | integer {n : Int} (numeral : Decimal.Numeral text n) (admits : p.Admits n) :
      p.Reads text (.integer n)
  | flag {b : Bool} (domain : p.domain = .flag) (word : text ∈ Setting.words b) :
      p.Reads text (.flag b)

/-- Whether there is a parameter of that name, and the text sets it to something. -/
def Parameters.Admissible (name text : Octets) : Prop :=
  ∃ (p : Parameter) (v : Setting), p.name = name ∧ p.Reads text v

/-- The name of the property that was refused. -/
def ParameterError.property : ParameterError → Octets
  | .unknown name => name
  | .malformed p _ | .below p _ _ | .above p _ _ => p.name

/-- Why a property cannot be admitted. -/
inductive Parameters.Refuses (name text : Octets) : ParameterError → Prop where
  | unknown (nobody : ∀ p : Parameter, p.name ≠ name) : Refuses name text (.unknown name)
  | numberless {p : Parameter} {least greatest : Int} (named : p.name = name)
      (domain : p.domain = .integer least greatest)
      (none : ∀ n, Decimal.InWord n → ¬ Decimal.Numeral text n) :
      Refuses name text (.malformed p text)
  | wordless {p : Parameter} (named : p.name = name) (domain : p.domain = .flag)
      (none : ∀ b, text ∉ Setting.words b) : Refuses name text (.malformed p text)
  | below {p : Parameter} {least greatest n : Int} (named : p.name = name)
      (domain : p.domain = .integer least greatest) (numeral : Decimal.Numeral text n)
      (inWord : Decimal.InWord n) (low : n < least) : Refuses name text (.below p least text)
  | above {p : Parameter} {least greatest n : Int} (named : p.name = name)
      (domain : p.domain = .integer least greatest) (numeral : Decimal.Numeral text n)
      (inWord : Decimal.InWord n) (high : greatest < n) :
      Refuses name text (.above p greatest text)

/-! ## Names and texts -/

namespace Parameter

theorem ofName?_name (p : Parameter) : ofName? p.name = some p := by
  cases p <;> decide

theorem ofName?_eq_some_iff {name : Octets} {p : Parameter} :
    ofName? name = some p ↔ p.name = name := by
  constructor
  · intro found
    have matched := List.find?_some found
    exact beq_iff_eq.1 matched
  · rintro rfl
    exact p.ofName?_name

theorem name_injective : Function.Injective name := by
  intro p q same
  have found := p.ofName?_name
  rw [same, q.ofName?_name] at found
  exact (Option.some.inj found).symm

theorem domain_bounds {p : Parameter} {least greatest : Int}
    (integer : p.domain = .integer least greatest) :
    0 ≤ least ∧ greatest ≤ if p.isLong then maxLongCount else maxCount := by
  cases p <;> cases integer <;> decide

/-- No parameter admits a negative integer, or one that it has no room for. -/
theorem Admits.bounds {p : Parameter} {n : Int} (admits : p.Admits n) :
    0 ≤ n ∧ n ≤ if p.isLong then maxLongCount else maxCount := by
  unfold Admits at admits
  split at admits
  next least greatest integer =>
    obtain ⟨low, high⟩ := domain_bounds integer
    exact ⟨Int.le_trans low admits.1, Int.le_trans admits.2 high⟩
  next => exact admits.elim

/-- A parameter keeps what it admits as it is. -/
theorem Admits.kept {p : Parameter} {n : Int} (admits : p.Admits n) : p.kept n = n := by
  obtain ⟨low, high⟩ := admits.bounds
  unfold Parameter.kept
  split at high
  next long =>
    rw [if_pos long]
    exact Int64.toInt_ofInt_of_le (by omega) (Int.lt_of_le_of_lt high (by decide))
  next short =>
    rw [if_neg short]
    exact Int32.toInt_ofInt_of_le (by omega) (Int.lt_of_le_of_lt high (by decide))

/-- What a parameter admits is a number of 64 bits. -/
theorem Admits.inWord {p : Parameter} {n : Int} (admits : p.Admits n) : Decimal.InWord n := by
  obtain ⟨low, high⟩ := admits.bounds
  have room : (if p.isLong then maxLongCount else maxCount) ≤ maxLongCount := by
    split <;> decide
  have lowest : Int64.minValue.toInt ≤ 0 := by decide
  exact ⟨Int.le_trans lowest low, Int.le_trans high room⟩

theorem not_admits_of_flag {p : Parameter} (domain : p.domain = .flag) (n : Int) :
    ¬ p.Admits n := by
  rw [Admits, domain]
  exact id

theorem admits_iff {p : Parameter} {least greatest : Int}
    (domain : p.domain = .integer least greatest) (n : Int) :
    p.Admits n ↔ least ≤ n ∧ n ≤ greatest := by
  rw [Admits, domain]

theorem parse_of_numeral {text : Octets} {n : Int} {p : Parameter}
    (numeral : Decimal.Numeral text n) (admits : p.Admits n) : Decimal.parse text = some n :=
  Decimal.parse_eq_some_iff.2 ⟨numeral, admits.inWord⟩

theorem parseFlag_eq_some_iff {text : Octets} {b : Bool} :
    parseFlag text = some b ↔ text ∈ Setting.words b := by
  -- The words for true are looked at first, so none of them may stand for false.
  have apart : ∀ word ∈ Setting.words false, word ∉ Setting.words true := by decide
  simp only [Setting.words, List.mem_cons, List.not_mem_nil, or_false] at apart
  unfold parseFlag
  cases b with
  | true => grind [Setting.words]
  | false => grind [Setting.words]

theorem parseInteger_eq_ok {p : Parameter} {least greatest n : Int} {text : Octets}
    (done : p.parseInteger least greatest text = .ok n) :
    Decimal.parse text = some n ∧ least ≤ n ∧ n ≤ greatest := by
  unfold parseInteger at done
  split at done
  · cases done
  next parsed =>
    split at done
    · cases done
    next low =>
      split at done
      · cases done
      next high =>
        cases done
        exact ⟨parsed, Int.not_lt.1 low, Int.not_lt.1 high⟩

/-- A text that sets an integer parameter denotes a number in its range. -/
theorem Reads.exists_parse {p : Parameter} {text : Octets} {v : Setting} {least greatest : Int}
    (reads : p.Reads text v) (domain : p.domain = .integer least greatest) :
    ∃ n, Decimal.parse text = some n ∧ least ≤ n ∧ n ≤ greatest := by
  cases reads with
  | integer numeral admits =>
    exact ⟨_, parse_of_numeral numeral admits, (admits_iff domain _).1 admits⟩
  | flag none => cases domain.symm.trans none

/-- A text sets a parameter to one thing at most. -/
theorem Reads.unique {p : Parameter} {text : Octets} {v w : Setting} (first : p.Reads text v)
    (second : p.Reads text w) : v = w := by
  cases first with
  | integer numeral admits =>
    cases second with
    | integer numeral' admits' =>
      have same := (parse_of_numeral numeral admits).symm.trans (parse_of_numeral numeral' admits')
      exact congrArg Setting.integer (Option.some.inj same)
    | flag domain => exact absurd admits (not_admits_of_flag domain _)
  | flag domain word =>
    cases second with
    | integer numeral admits => exact absurd admits (not_admits_of_flag domain _)
    | flag _ word' =>
      have same := (parseFlag_eq_some_iff.2 word).symm.trans (parseFlag_eq_some_iff.2 word')
      exact congrArg Setting.flag (Option.some.inj same)

end Parameter

namespace Parameters

/-! ## One property -/

variable {ps ps' : Parameters} {p : Parameter} {name text : Octets} {e : ParameterError}

/-- Setting a parameter sets no other one. -/
theorem integer?_setInteger (ps : Parameters) (n : Int) (p q : Parameter) :
    (ps.setInteger n p).integer? q = if p = q then (ps.integer? q).map fun _ => n
      else ps.integer? q := by
  cases p <;> cases q <;> rfl

theorem exists_integer? {n : Int} (admits : p.Admits n) (ps : Parameters) :
    ∃ m, ps.integer? p = some m := by
  cases p
  case enableGroupAcks => exact admits.elim
  all_goals exact ⟨_, rfl⟩

theorem enableGroupAcks_setInteger (ps : Parameters) (n : Int) (p : Parameter) :
    (ps.setInteger n p).enableGroupAcks = ps.enableGroupAcks := by
  cases p <;> rfl

/-- Setting a parameter as a text says sets no other one. -/
theorem setting_put {v : Setting} (reads : p.Reads text v) (q : Parameter) :
    (ps.put p v).setting q = if p = q then v else ps.setting q := by
  cases reads with
  | integer numeral admits =>
    obtain ⟨m, held⟩ := exists_integer? admits ps
    simp only [put, setting, integer?_setInteger, enableGroupAcks_setInteger]
    by_cases same : p = q
    · subst same
      simp only [if_pos, held, Option.map_some]
    · simp only [if_neg same]
  | flag domain word =>
    cases p
    case enableGroupAcks => cases q <;> rfl
    all_goals cases domain

theorem reads_of_assign (done : ps.assign name text = .ok ps') :
    ∃ p v, p.name = name ∧ p.Reads text v ∧ ps' = ps.put p v := by
  unfold assign at done
  split at done
  · cases done
  next p known =>
    refine ⟨p, ?_⟩
    have named := Parameter.ofName?_eq_some_iff.1 known
    split at done
    next least greatest domain =>
      cases parsed : p.parseInteger least greatest text with
      | error e =>
        rw [parsed] at done
        cases done
      | ok n =>
        rw [parsed] at done
        cases done
        obtain ⟨spelled, range⟩ := Parameter.parseInteger_eq_ok parsed
        have admits := (Parameter.admits_iff domain n).2 range
        refine ⟨.integer n, named, .integer (Decimal.parse_eq_some_iff.1 spelled).1 admits, ?_⟩
        exact congrArg (ps.setInteger · p) admits.kept
    next domain =>
      split at done
      · cases done
      next b spelled =>
        cases done
        exact ⟨.flag b, named, .flag domain (Parameter.parseFlag_eq_some_iff.1 spelled), rfl⟩

theorem refuses_of_assign (failed : ps.assign name text = .error e) : Refuses name text e := by
  unfold assign at failed
  split at failed
  next unknown =>
    cases failed
    refine .unknown fun p named => ?_
    rw [Parameter.ofName?_eq_some_iff.2 named] at unknown
    cases unknown
  next p known =>
    have named := Parameter.ofName?_eq_some_iff.1 known
    split at failed
    next least greatest domain =>
      unfold Parameter.parseInteger at failed
      split at failed
      next spelled =>
        cases failed
        refine .numberless named domain fun n inWord numeral => ?_
        rw [Decimal.parse_eq_some_iff.2 ⟨numeral, inWord⟩] at spelled
        cases spelled
      next n spelled =>
        obtain ⟨numeral, inWord⟩ := Decimal.parse_eq_some_iff.1 spelled
        split at failed
        next low =>
          cases failed
          exact .below named domain numeral inWord low
        next =>
          split at failed
          next high =>
            cases failed
            exact .above named domain numeral inWord high
          next => cases failed
    next domain =>
      split at failed
      next spelled =>
        cases failed
        refine .wordless named domain fun b word => ?_
        rw [Parameter.parseFlag_eq_some_iff.2 word] at spelled
        cases spelled
      next => cases failed

theorem Refuses.property (refuses : Refuses name text e) : e.property = name := by
  cases refuses with
  | unknown => rfl
  | numberless named | wordless named | below named | above named => exact named

/-- What is refused cannot be admitted. -/
theorem Refuses.not_admissible (refuses : Refuses name text e) : ¬ Admissible name text := by
  rintro ⟨q, v, rfl, reads⟩
  cases refuses with
  | unknown nobody => exact nobody q rfl
  | numberless named domain none =>
    obtain rfl := Parameter.name_injective named
    obtain ⟨n, spelled, -⟩ := reads.exists_parse domain
    obtain ⟨numeral, inWord⟩ := Decimal.parse_eq_some_iff.1 spelled
    exact none n inWord numeral
  | wordless named domain none =>
    obtain rfl := Parameter.name_injective named
    cases reads with
    | integer _ admits => exact Parameter.not_admits_of_flag domain _ admits
    | flag _ word => exact none _ word
  | below named domain numeral inWord low =>
    obtain rfl := Parameter.name_injective named
    obtain ⟨n, spelled, range⟩ := reads.exists_parse domain
    cases spelled.symm.trans (Decimal.parse_eq_some_iff.2 ⟨numeral, inWord⟩)
    omega
  | above named domain numeral inWord high =>
    obtain rfl := Parameter.name_injective named
    obtain ⟨n, spelled, range⟩ := reads.exists_parse domain
    cases spelled.symm.trans (Decimal.parse_eq_some_iff.2 ⟨numeral, inWord⟩)
    omega

end Parameters

end Replication
