import Replication.Proofs.Parameters.Settings

/-! # Parameters are in range

Whatever properties a node's parameters are read from, each integer among them lies in the
range of its parameter: the defaults do, and a property that is admitted keeps it so.
-/

namespace Replication

namespace Parameters

/-- Whether all integers among some parameters are ones that they may be set to. -/
def InRange (ps : Parameters) : Prop :=
  ∀ p n, ps.integer? p = some n → p.Admits n

theorem inRange_default : InRange {} := by
  intro p n value
  cases p <;> cases value <;> decide

theorem InRange.setInteger {ps : Parameters} (h : ps.InRange) {p : Parameter} {n : Int}
    (admits : p.Admits n) : (ps.setInteger n p).InRange := by
  intro q m value
  rw [integer?_setInteger] at value
  split at value
  next same =>
    obtain ⟨_, -, rfl⟩ := Option.map_eq_some_iff.1 value
    exact same ▸ admits
  next => exact h q m value

theorem InRange.assign {ps ps' : Parameters} (h : ps.InRange) {name text : Octets}
    (done : ps.assign name text = .ok ps') : ps'.InRange := by
  obtain ⟨p, v, -, reads, rfl⟩ := reads_of_assign done
  cases reads with
  | integer numeral admits => exact h.setInteger admits
  | flag domain word =>
    -- A flag is none of the integers.
    exact fun q n value => h q n (by cases q <;> exact value)

theorem InRange.foldlM {ps ps' : Parameters} (h : ps.InRange) {properties : List (Octets × Octets)}
    (done : properties.foldlM (fun ps property => ps.assign property.1 property.2) ps = .ok ps') :
    ps'.InRange := by
  induction properties generalizing ps with
  | nil =>
    cases done
    exact h
  | cons property properties ih =>
    rw [List.foldlM_cons] at done
    cases first : ps.assign property.1 property.2 with
    | error e =>
      rw [first] at done
      cases done
    | ok ps₁ =>
      rw [first] at done
      exact ih (h.assign first) done

variable {properties : List (Octets × Octets)} {p : Parameters}
  (accepted : ofProperties properties = .ok p)

include accepted

theorem inRange_ofProperties : p.InRange :=
  inRange_default.foldlM accepted

theorem maxMessageSize_pos : 0 < p.maxMessageSize :=
  (inRange_ofProperties accepted .maxMessageSize _ rfl).1

theorem replicaMessageQueueSize_pos : 0 < p.replicaMessageQueueSize :=
  (inRange_ofProperties accepted .replicaMessageQueueSize _ rfl).1

end Parameters

end Replication
