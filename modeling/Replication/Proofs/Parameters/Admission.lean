import Replication.Consumer.Basic
import Replication.Proofs.Parameters.Ranges
import Replication.Proofs.Stream.Sizes
import Replication.Queue.Bounded

/-! # What parameters admit

Properties are accepted just when each of them names a parameter and spells a value that this
parameter may be set to.  The parameters in force then hold these values, and the defaults
elsewhere, and a consumer with room in its queues can be set up from them.  Otherwise the
refusal is about the first property in byte order that cannot be admitted, and tells why.
-/

namespace Replication

namespace Parameters

variable {ps ps' : Parameters} {e : ParameterError}

/-! ## All properties -/

variable {properties : List (Octets × Octets)}

/-- Every property that is set names a parameter, which has the value in the end; no other
    parameter changes. -/
theorem settled_of_foldlM (distinct : (properties.map Prod.fst).Nodup)
    (done : properties.foldlM (fun ps property => ps.assign property.1 property.2) ps = .ok ps') :
    (∀ name text, (name, text) ∈ properties →
      ∃ p : Parameter, p.name = name ∧ p.Reads text (ps'.setting p)) ∧
    ∀ p : Parameter, p.name ∉ properties.map Prod.fst → ps'.setting p = ps.setting p := by
  induction properties generalizing ps with
  | nil =>
    cases done
    exact ⟨fun _ _ mem => absurd mem List.not_mem_nil, fun _ _ => rfl⟩
  | cons property properties ih =>
    obtain ⟨name, text⟩ := property
    rw [List.map_cons, List.nodup_cons] at distinct
    rw [List.foldlM_cons] at done
    cases first : ps.assign name text with
    | error e =>
      rw [first] at done
      cases done
    | ok ps₁ =>
      rw [first] at done
      obtain ⟨p, v, rfl, reads, rfl⟩ := reads_of_assign first
      obtain ⟨later, kept⟩ := ih distinct.2 done
      refine ⟨fun name' text' mem => ?_, fun q absent => ?_⟩
      · obtain same | mem := List.mem_cons.1 mem
        · -- No later property has this name.
          cases same
          have held := (kept p distinct.1).trans (setting_put reads p)
          rw [if_pos rfl] at held
          exact ⟨p, rfl, held ▸ reads⟩
        · exact later name' text' mem
      · rw [List.map_cons, List.mem_cons, not_or] at absent
        obtain ⟨other, absent⟩ := absent
        have apart : p ≠ q := fun same => other (same ▸ rfl)
        rw [kept q absent, setting_put reads, if_neg apart]

/-- Properties are set one after the other up to the first that cannot be admitted. -/
theorem refused_of_foldlM
    (failed : properties.foldlM (fun ps property => ps.assign property.1 property.2) ps =
      .error e) :
    ∃ front name text back, properties = front ++ (name, text) :: back ∧
      Refuses name text e ∧ ∀ property ∈ front, Admissible property.1 property.2 := by
  induction properties generalizing ps with
  | nil => cases failed
  | cons property properties ih =>
    obtain ⟨name, text⟩ := property
    rw [List.foldlM_cons] at failed
    cases first : ps.assign name text with
    | error e' =>
      rw [first] at failed
      cases failed
      exact ⟨[], name, text, properties, rfl, refuses_of_assign first,
        fun _ mem => absurd mem List.not_mem_nil⟩
    | ok ps₁ =>
      rw [first] at failed
      obtain ⟨p, v, named, reads, -⟩ := reads_of_assign first
      obtain ⟨front, name', text', back, rfl, refuses, admissible⟩ := ih failed
      exact ⟨(name, text) :: front, name', text', back, rfl, refuses,
        List.forall_mem_cons.2 ⟨⟨p, v, named, reads⟩, admissible⟩⟩

/-- The properties are looked at in the byte order of their names. -/
theorem pairwise_mergeSort_names (properties : List (Octets × Octets)) :
    (properties.mergeSort fun a b => (compare a.1 b.1).isLE).Pairwise
      fun a b => (compare a.1 b.1).isLE := by
  refine List.pairwise_mergeSort (fun a b c => Std.TransCmp.isLE_trans) (fun a b => ?_) properties
  have swap : compare b.1 a.1 = (compare a.1 b.1).swap := Std.OrientedCmp.eq_swap
  rw [swap]
  cases compare a.1 b.1 <;> rfl

theorem settled_of_ofProperties (distinct : (properties.map Prod.fst).Nodup)
    (accepted : ofProperties properties = .ok ps) :
    (∀ name text, (name, text) ∈ properties →
      ∃ p : Parameter, p.name = name ∧ p.Reads text (ps.setting p)) ∧
    ∀ p : Parameter, p.name ∉ properties.map Prod.fst → ps.setting p = setting {} p := by
  have same := List.mergeSort_perm properties fun a b => (compare a.1 b.1).isLE
  have names := same.map Prod.fst
  obtain ⟨named, others⟩ := settled_of_foldlM (names.nodup_iff.2 distinct) accepted
  exact ⟨fun name text mem => named name text (same.mem_iff.2 mem),
    fun p absent => others p (names.mem_iff.not.2 absent)⟩

/-- A refusal is about the first property, in the byte order of the names, that cannot be
    admitted. -/
theorem refused_of_ofProperties (refused : ofProperties properties = .error e) :
    ∃ text, (e.property, text) ∈ properties ∧ Refuses e.property text e ∧
      ∀ name text', (name, text') ∈ properties → ¬ Admissible name text' →
        (compare e.property name).isLE := by
  obtain ⟨front, name, text, back, parts, refuses, admissible⟩ := refused_of_foldlM refused
  have ordered := pairwise_mergeSort_names properties
  have same := List.mergeSort_perm properties fun a b => (compare a.1 b.1).isLE
  rw [parts] at ordered same
  obtain rfl := refuses.property
  refine ⟨text, same.mem_iff.1 (by simp), refuses, fun name' text' mem bad => ?_⟩
  have mem := same.mem_iff.2 mem
  rw [List.mem_append, List.mem_cons] at mem
  obtain early | here | late := mem
  · -- What stands in front of the refused property was set.
    exact absurd (admissible _ early) bad
  · cases here
    exact Std.ReflCmp.isLE_rfl
  · exact (List.pairwise_cons.1 (List.pairwise_append.1 ordered).2.1).1 _ late

/-- Properties are accepted just when each can be admitted. -/
theorem exists_ofProperties_iff (distinct : (properties.map Prod.fst).Nodup) :
    (∃ ps, ofProperties properties = .ok ps) ↔
      ∀ name text, (name, text) ∈ properties → Admissible name text := by
  constructor
  · rintro ⟨ps, accepted⟩ name text mem
    obtain ⟨p, named, reads⟩ := (settled_of_ofProperties distinct accepted).1 name text mem
    exact ⟨p, _, named, reads⟩
  · intro admissible
    cases made : ofProperties properties with
    | ok ps => exact ⟨ps, rfl⟩
    | error e =>
      obtain ⟨text, mem, refuses, -⟩ := refused_of_ofProperties made
      exact absurd (admissible _ _ mem) refuses.not_admissible

/-! ## The queues -/

/-- Whether a consumer can be set up from some parameters: the codec takes their limit, and each
    queue its capacity. -/
def Equips (ps : Parameters) : Prop :=
  ∀ (σ τ : Type) (node : Octets) (nodeId : Int32) (transport : Link.Transport σ)
    (store : Replay.Store τ),
    ∃ setup, Consumer.Setup.ofParameters ps node nodeId transport store = .ok setup ∧
      (setup.codec.limit : Int) = ps.maxMessageSize ∧
      (∃ requests : BoundedQueue Stream.Message,
        BoundedQueue.ofCapacity setup.requestCapacity = .ok requests ∧
          (requests.capacity : Int) = ps.replicaMessageQueueSize) ∧
      ∃ output : BoundedQueue Replay.Ack,
        BoundedQueue.ofCapacity setup.outputCapacity = .ok output ∧
          (output.capacity : Int) = ps.outputQueueSize

theorem exists_ofCapacity {α : Type} {n : Int} (positive : 0 < n) :
    ∃ q : BoundedQueue α, BoundedQueue.ofCapacity n.toNat = .ok q ∧ (q.capacity : Int) = n := by
  have room : n.toNat ≠ 0 := by omega
  exact ⟨{ capacity := n.toNat }, if_neg room, Int.toNat_of_nonneg (Int.le_of_lt positive)⟩

theorem equips_of_ofProperties (accepted : ofProperties properties = .ok ps) : ps.Equips := by
  intro σ τ node nodeId transport store
  obtain ⟨codec, made, limit⟩ := Stream.Codec.exists_ofLimit (maxMessageSize_pos accepted)
  have positive := replicaMessageQueueSize_pos accepted
  have twice : 0 < ps.outputQueueSize := by rw [outputQueueSize]; omega
  exact ⟨_, by rw [Consumer.Setup.ofParameters, made]; rfl, limit, exists_ofCapacity positive,
    exists_ofCapacity twice⟩

/-- Twice the size of the request queue is a 32-bit count. -/
theorem outputQueueSize_of_ofProperties (accepted : ofProperties properties = .ok ps) :
    ps.outputQueueSize ≤ Parameter.maxCount ∧
      (2 * Int32.ofInt ps.replicaMessageQueueSize).toInt = ps.outputQueueSize := by
  obtain ⟨low, high⟩ := inRange_ofProperties accepted .replicaMessageQueueSize _ rfl
  have half : Parameter.maxCount / 2 = 1073741823 := by decide
  have whole : Parameter.maxCount = 2147483647 := by decide
  have two : Int32.toInt 2 = 2 := by decide
  rw [half] at high
  rw [outputQueueSize, whole, Int32.toInt_mul, two,
    Int32.toInt_ofInt_of_le (by omega) (by omega)]
  exact ⟨by omega, Int.bmod_eq_of_le (by omega) (by omega)⟩

end Parameters

/-! ## What a refusal says -/

namespace ParameterError

/-- The text of a refusal names the property behind words that have no zero byte. -/
theorem exists_message (e : ParameterError) :
    ∃ front back, front.zeroTerminated = front ∧ e.message = front ++ (e.property ++ back) := by
  cases e with
  | unknown name =>
    refine ⟨.ofAscii "unknown replication parameter: ", [], rfl, ?_⟩
    rw [message, property, List.append_nil]
  | malformed p text =>
    refine ⟨.ofAscii "bad value for ", .ofAscii ": " ++ Octets.quoted text, rfl, ?_⟩
    simp only [message, property, List.append_assoc]
  | below p least text =>
    refine ⟨[], .ofAscii " must be >= " ++ Decimal.render least ++ .ofAscii ", got " ++ text,
      rfl, ?_⟩
    simp only [message, property, List.append_assoc, List.nil_append]
  | above p greatest text =>
    refine ⟨[], .ofAscii " must be <= " ++ Decimal.render greatest ++ .ofAscii ", got " ++ text,
      rfl, ?_⟩
    simp only [message, property, List.append_assoc, List.nil_append]

/-- The text of a refusal holds the name of the property, also as it is handed on. -/
theorem property_infix_message (e : ParameterError) :
    e.property <:+: e.message ∧ e.property.zeroTerminated <:+: e.message.zeroTerminated := by
  obtain ⟨front, back, clean, parts⟩ := e.exists_message
  have whole : e.property <:+: e.property ++ back := (List.prefix_append _ back).isInfix
  have shown : e.property.zeroTerminated <:+: (e.property ++ back).zeroTerminated := by
    rw [Octets.zeroTerminated, Octets.zeroTerminated, List.takeWhile_append]
    split
    next clean =>
      rw [(List.takeWhile_prefix _).eq_of_length clean]
      exact (List.prefix_append _ _).isInfix
    next => exact List.infix_rfl
  have skipped : (front ++ (e.property ++ back)).zeroTerminated =
      front ++ (e.property ++ back).zeroTerminated :=
    List.takeWhile_append.trans (if_pos (congrArg List.length clean))
  rw [parts, skipped]
  exact ⟨List.infix_append_of_infix_right whole, List.infix_append_of_infix_right shown⟩

end ParameterError

/-! ## What is accepted -/

namespace Parameters

/-- Properties are accepted just when each of them names a parameter and spells a value for it.
    The parameters in force then have these values and the defaults elsewhere, and a consumer
    can be set up from them; twice the size of its request queue still is a 32-bit count.  A
    refusal names the first property that cannot be admitted, and tells why. -/
theorem ofProperties_admits {properties : List (Octets × Octets)}
    (distinct : (properties.map Prod.fst).Nodup) :
    ((∃ ps, ofProperties properties = .ok ps) ↔
      ∀ name text, (name, text) ∈ properties → Admissible name text) ∧
    (∀ ps, ofProperties properties = .ok ps →
      (∀ name text, (name, text) ∈ properties →
        ∃ p : Parameter, p.name = name ∧ ∀ v, p.Reads text v ↔ ps.setting p = v) ∧
      (∀ p : Parameter, p.name ∉ properties.map Prod.fst → ps.setting p = setting {} p) ∧
      0 < ps.replicaMessageQueueSize ∧
      0 < ps.outputQueueSize ∧ ps.outputQueueSize = 2 * ps.replicaMessageQueueSize ∧
      ps.outputQueueSize ≤ Parameter.maxCount ∧
      (2 * Int32.ofInt ps.replicaMessageQueueSize).toInt = ps.outputQueueSize ∧
      ps.Equips) ∧
    ∀ e, ofProperties properties = .error e →
      (∃ text, (e.property, text) ∈ properties ∧ Refuses e.property text e) ∧
      (∀ name text, (name, text) ∈ properties → ¬ Admissible name text →
        (compare e.property name).isLE) ∧
      e.property <:+: e.message ∧ e.property.zeroTerminated <:+: e.message.zeroTerminated := by
  refine ⟨exists_ofProperties_iff distinct, fun ps accepted => ?_, fun e refused => ?_⟩
  · obtain ⟨named, others⟩ := settled_of_ofProperties distinct accepted
    obtain ⟨count, product⟩ := outputQueueSize_of_ofProperties accepted
    have positive := replicaMessageQueueSize_pos accepted
    have twice : 0 < ps.outputQueueSize := by rw [outputQueueSize]; omega
    refine ⟨fun name text mem => ?_, others, positive, twice, rfl, count, product,
      equips_of_ofProperties accepted⟩
    obtain ⟨p, same, reads⟩ := named name text mem
    exact ⟨p, same, fun v => ⟨reads.unique, fun held => held ▸ reads⟩⟩
  · obtain ⟨text, mem, refuses, first⟩ := refused_of_ofProperties refused
    exact ⟨⟨text, mem, refuses⟩, first, e.property_infix_message⟩

/-- The largest queue, behind a blank and a sign, and a flag that is written as a digit. -/
def largest : List (Octets × Octets) :=
  [(.ofAscii "replicaMessageQueueSize", .ofAscii " +1073741823"),
    (.ofAscii "enableGroupAcks", .ofAscii "1")]

/-- The largest queue is accepted, and what is not named keeps its default. -/
theorem ofProperties_admits_largest :
    (largest.map Prod.fst).Nodup ∧
      ∃ ps, ofProperties largest = .ok ps ∧
        ps.setting .replicaMessageQueueSize = .integer 1073741823 ∧
        ps.setting .enableGroupAcks = .flag true ∧ ps.setting .maxGroupTxns = .integer 100 ∧
        ps.outputQueueSize = 2147483646 ∧ ps.Equips := by
  have distinct : (largest.map Prod.fst).Nodup := by decide
  have queue : Parameter.replicaMessageQueueSize.Reads (.ofAscii " +1073741823")
      (.integer 1073741823) :=
    .integer (Decimal.parse_eq_some_iff.1 (by decide)).1 (by decide)
  have flag : Parameter.enableGroupAcks.Reads (.ofAscii "1") (.flag true) := .flag rfl (by decide)
  obtain ⟨accepts, holds, -⟩ := ofProperties_admits distinct
  obtain ⟨ps, accepted⟩ := accepts.2 fun name text mem => by
    obtain same | mem := List.mem_cons.1 mem
    · cases same
      exact ⟨_, _, rfl, queue⟩
    · cases List.mem_singleton.1 mem
      exact ⟨_, _, rfl, flag⟩
  obtain ⟨named, others, -, -, twice, -, -, equips⟩ := holds ps accepted
  have held : ∀ q text v, (Parameter.name q, text) ∈ largest → q.Reads text v →
      ps.setting q = v := by
    intro q text v mem reads
    obtain ⟨p, same, settled⟩ := named _ _ mem
    obtain rfl := Parameter.name_injective same
    exact (settled v).1 reads
  have size := held _ _ _ List.mem_cons_self queue
  refine ⟨distinct, ps, accepted, size,
    held _ _ _ (List.mem_cons_of_mem _ List.mem_cons_self) flag, others _ (by decide), ?_, equips⟩
  have count : ps.replicaMessageQueueSize = 1073741823 := Setting.integer.inj size
  rw [twice, count]
  rfl

end Parameters

end Replication
