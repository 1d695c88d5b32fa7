import Replication.Election.Tenure
import Replication.Proofs.Election.Victories

/-! # What others do to a call

Whatever others do while a proposer is called, the call goes on with the retries that it has, and
neither a conclusion nor a shutdown is undone.  Every question of the proposer is answered in
such a way; only whether another round may start takes a retry.
-/

namespace Replication.Election

/-! ## What is not undone -/

variable {ε ω α : Type}

/-- Whether the same call goes on: its retries are those that there were, and neither the
    conclusion of the election nor a shutdown was undone. -/
structure Tenure.Continues (t t' : Tenure ω) : Prop where
  limit : t'.retry.maxRetries = t.retry.maxRetries
  started : t'.retry.started = t.retry.started
  retries : t'.retry.retries = t.retry.retries
  total : t'.total = t.total
  concluded : t.retry.concluded = true → t'.retry.concluded = true
  shutDown : t.isShutDown = true → t'.isShutDown = true

namespace Tenure.Continues

variable {t t' t'' : Tenure ω}

theorem refl (t : Tenure ω) : t.Continues t := ⟨rfl, rfl, rfl, rfl, id, id⟩

theorem trans (h : t.Continues t') (h' : t'.Continues t'') : t.Continues t'' where
  limit := h'.limit.trans h.limit
  started := h'.started.trans h.started
  retries := h'.retries.trans h.retries
  total := h'.total.trans h.total
  concluded was := h'.concluded (h.concluded was)
  shutDown was := h'.shutDown (h.shutDown was)

/-- A proposer that is not shut down in the end never was. -/
theorem running (h : t.Continues t') (running : t'.isShutDown = false) : t.isShutDown = false :=
  Bool.eq_false_iff.2 fun was => Bool.false_ne_true (running.symm.trans (h.shutDown was))

end Tenure.Continues

/-- Whether others have ended what a proposer does. -/
def Tenure.Interfered (t : Tenure ω) : Prop :=
  t.isShutDown = true ∨ t.retry.concluded = true

theorem Tenure.not_interfered_iff {t : Tenure ω} :
    ¬ t.Interfered ↔ t.isShutDown = false ∧ t.retry.concluded = false := by
  simp [Interfered]

namespace Outside

variable (o : Outside ε ω)

theorem interfere_total (t : Tenure ω) : ∃ t', o.interfere t = .ok () t' ∧ t.Continues t' := by
  refine ⟨_, rfl, ⟨?_, ?_, ?_, rfl, fun was => ?_, fun was => ?_⟩⟩
  all_goals dsimp only
  · split <;> rfl
  · split <;> rfl
  · split <;> rfl
  · split
    · rfl
    · exact was
  · rw [was, Bool.true_or]

/-- A question that looks at the tenure behind an interference. -/
theorem look_total (f : Tenure ω → α) (t : Tenure ω) :
    ∃ t', (do o.interfere; return f (← get) : EStateM ε (Tenure ω) α) t = .ok (f t') t' ∧
      t.Continues t' := by
  obtain ⟨t', done, continues⟩ := o.interfere_total t
  exact ⟨t', bind_eq_of_ok done, continues⟩

variable {o} {r r' : Recorded (Tenure ω)}

theorem recorded_look_total (o : Outside ε ω) (f : Tenure ω → α) (r : Recorded (Tenure ω)) :
    ∃ t, r.world.Continues t ∧
      recording (fun _ => []) (do o.interfere; return f (← get)) r =
        .ok (f t) { r with world := t } := by
  obtain ⟨t, done, continues⟩ := o.look_total f r.world
  refine ⟨t, continues, ?_⟩
  simp only [recording, done, List.append_nil]

theorem retries_total (o : Outside ε ω) (r : Recorded (Tenure ω)) :
    ∃ t, r.world.Continues t ∧
      o.surroundings.environment.retries r = .ok t.retry.retries { r with world := t } :=
  o.recorded_look_total (·.retry.retries) r

end Outside

end Replication.Election
