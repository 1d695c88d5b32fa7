import Replication.Proofs.Consumer.Replying

/-! # How a connection ends

The reader ends a connection, and goes from one stage of the end to the next.  When the link
broke it waits for the replayer and then for the writer before it tells anybody to end at
once; so the writer is there as long as the replayer is.
-/

namespace Replication.Consumer

namespace Streaming

variable {σ τ : Type} {setup : Setup σ τ} {s s' : Streaming σ τ} {action : Action}

/-! ## The stages -/

/-- Whether the link broke and the other threads have ended. -/
def Drained (s : Streaming σ τ) : Prop :=
  s.consumer.phase = .softDrain ∧ s.replayer = .done ∧ s.writer = .done

/-- How far the end of a connection has come, by the place of the reader. -/
def Staged (s : Streaming σ τ) : Prop :=
  -- The reader goes through its places in this order, and never back.
  match s.reader with
  | .reading | .offering _ =>
    s.consumer.phase = .streaming ∧ s.exit = .none ∧ s.stop = false
  | .joining => s.consumer.phase = .softDrain ∧ s.exit = .soft ∧ s.stop = false
  | .draining =>
    s.consumer.phase = .softDrain ∧ s.exit = .soft ∧ s.stop = false ∧ s.replayer = .done
  | .leaving =>
    s.exit ≠ .immediate ∧ s.stop = false ∧ (s.consumer.phase = .streaming ∨ s.Drained)
  | .joiningLast | .stopping | .done => s.consumer.phase = .immediateExit ∨ s.Drained

theorem Drained.step (h : s.Drained)
    (phase : (s.step setup action).consumer.phase = s.consumer.phase) :
    (s.step setup action).Drained :=
  ⟨phase.trans h.1, replayer_done_step h.2.1, writer_done_step h.2.2⟩

/-- Only the reader ends a connection. -/
theorem Footprint.control (h : s.Footprint action s') (others : action ≠ .reader) :
    s'.reader = s.reader ∧ s'.consumer.phase = s.consumer.phase ∧ s'.exit = s.exit ∧
      s'.drain = s.drain ∧ s'.stop = s.stop := by
  cases h with
  | reader => exact absurd rfl others
  | _ => exact ⟨rfl, rfl, rfl, rfl, rfl⟩

theorem Staged.step_others (h : s.Staged) (others : action ≠ .reader) :
    (s.step setup action).Staged := by
  obtain ⟨reader, phase, exit, -, stop⟩ := (s.step_footprint setup action).control others
  unfold Staged at h ⊢
  rw [reader]
  cases place : s.reader with
  | reading | offering m | joining =>
    rw [place] at h
    exact ⟨phase.trans h.1, exit.trans h.2.1, stop.trans h.2.2⟩
  | draining =>
    rw [place] at h
    exact ⟨phase.trans h.1, exit.trans h.2.1, stop.trans h.2.2.1, replayer_done_step h.2.2.2⟩
  | leaving =>
    rw [place] at h
    exact ⟨exit ▸ h.1, stop.trans h.2.1, h.2.2.imp phase.trans fun drained => drained.step phase⟩
  | joiningLast | stopping | done =>
    rw [place] at h
    exact Or.imp phase.trans (fun drained => drained.step phase) h

theorem Staged.readerStep (h : s.Staged) : (s.readerStep setup).Staged := by
  unfold Streaming.readerStep
  unfold Staged at h
  cases place : s.reader with
  | reading =>
    rw [place] at h
    have leave : s.exit ≠ .immediate := by rw [h.2.1]; exact nofun
    dsimp only
    unfold read
    -- Of all that may come of reading, only a failure of the link leads to the drain.
    split
    · exact ⟨leave, h.2.2, .inl h.1⟩
    · split
      · exact h
      · exact ⟨rfl, rfl, h.2.2⟩
      · exact ⟨leave, h.2.2, .inl h.1⟩
  | offering m =>
    rw [place] at h
    dsimp only
    split
    · exact h
    · split
      · exact ⟨by rw [h.2.1]; exact nofun, h.2.2, .inl h.1⟩
      · rw [Staged, place]
        exact h
  | joining =>
    rw [place] at h
    dsimp only
    split
    next ended => exact ⟨h.1, h.2.1, h.2.2, ended⟩
    next =>
      rw [Staged, place]
      exact h
  | draining =>
    rw [place] at h
    dsimp only
    split
    next ended =>
      exact ⟨by rw [h.2.1]; exact nofun, h.2.2.1, .inr ⟨h.1, h.2.2.2, ended⟩⟩
    next =>
      rw [Staged, place]
      exact h
  | leaving =>
    rw [place] at h
    -- From here on the phase alone tells whether the queues were drained.
    rcases h.2.2 with streaming | drained
    · exact .inl (if_neg (by rw [streaming]; exact nofun))
    · exact .inr ⟨if_pos drained.1, drained.2⟩
  | joiningLast | stopping =>
    rw [place] at h
    dsimp only
    split
    · exact h
    · rw [Staged, place]
      exact h
  | done =>
    dsimp only
    rw [Staged, place]
    rw [place] at h
    exact h

theorem Staged.step (h : s.Staged) (action : Action) : (s.step setup action).Staged := by
  by_cases own : action = .reader
  · subst own
    exact h.readerStep
  · exact h.step_others own

-- While the queues are drained nobody is told to end at once, nor to stop.
theorem Staged.of_immediate (h : s.Staged) (exit : s.exit = .immediate) :
    s.consumer.phase = .immediateExit ∨ s.Drained := by
  unfold Staged at h
  split at h
  case h_1 | h_2 => cases h.2.1.symm.trans exit
  case h_3 | h_4 => cases h.2.1.symm.trans exit
  case h_5 => exact absurd exit h.1
  all_goals exact h

theorem Staged.of_stop (h : s.Staged) (stop : s.stop = true) :
    s.consumer.phase = .immediateExit ∨ s.Drained := by
  unfold Staged at h
  split at h
  case h_1 | h_2 => cases h.2.2.symm.trans stop
  case h_3 => cases h.2.2.symm.trans stop
  case h_4 => cases h.2.2.1.symm.trans stop
  case h_5 => cases h.2.1.symm.trans stop
  all_goals exact h

theorem Staged.immediateExit_step (h : s.Staged) (ending : s.consumer.phase = .immediateExit)
    (action : Action) : (s.step setup action).consumer.phase = .immediateExit := by
  by_cases own : action = .reader
  · subst own
    change (s.readerStep setup).consumer.phase = .immediateExit
    unfold Streaming.readerStep
    unfold Staged at h
    cases place : s.reader with
    | reading | offering m | joining | draining =>
      rw [place] at h
      cases h.1.symm.trans ending
    | leaving =>
      rw [place] at h
      exact if_neg (by rw [ending]; exact nofun)
    | joiningLast | stopping =>
      dsimp only
      split <;> exact ending
    | done => exact ending
  · exact ((s.step_footprint setup action).control own).2.1.trans ending

/-! ## Excuses -/

/-- Why the writer may have ended with acknowledgments left in its queue. -/
def WriteExcused (s : Streaming σ τ) : Prop :=
  s.writeError.isSome ∨ s.consumer.phase = .immediateExit

/-- Why the replayer may have ended with messages left in its queue. -/
def ReplayExcused (s : Streaming σ τ) : Prop :=
  (∃ e, s.replayError = some e ∧ e ≠ .writerGone) ∨ s.consumer.stopped = true ∨ s.WriteExcused

theorem Footprint.stopped (h : s.Footprint action s') (stopped : s.consumer.stopped = true) :
    s'.consumer.stopped = true := by
  cases h with
  | stop => rfl
  | _ => exact stopped

theorem Footprint.writing (h : s.Footprint action s') (others : action ≠ .writer) :
    s'.writer = s.writer ∧ s'.writeError = s.writeError := by
  cases h with
  | writer => exact absurd rfl others
  | _ => exact ⟨rfl, rfl⟩

theorem writeError_writerStep (error : s.writeError.isSome) :
    (s.writerStep setup).writeError.isSome := by
  unfold writerStep
  cases s.writer with
  | polling =>
    dsimp only
    split <;> exact error
  | writing acks =>
    cases acks with
    | nil => exact error
    | cons a rest =>
      dsimp only
      unfold write
      dsimp only
      split
      · rw [writeError_wrote]
        exact error
      · split
        · exact error
        · rfl
  | _ => exact error

theorem Staged.writeExcused_step (h : s.Staged) (setup : Setup σ τ) (action : Action)
    (excused : s.WriteExcused) : (s.step setup action).WriteExcused := by
  refine excused.imp (fun error => ?_) (h.immediateExit_step · action)
  by_cases own : action = .writer
  · subst own
    exact writeError_writerStep error
  · rw [((s.step_footprint setup action).writing own).2]
    exact error

theorem Staged.replayExcused_step (h : s.Staged) (setup : Setup σ τ)
    (others : action = .reader ∨ action = .writer) (excused : s.ReplayExcused) :
    (s.step setup action).ReplayExcused := by
  have footprint := s.step_footprint setup action
  refine excused.imp ?_ (Or.imp footprint.stopped (h.writeExcused_step setup action))
  generalize s.step setup action = s' at footprint ⊢
  rcases others with rfl | rfl <;> cases footprint <;> exact id

/-! ## The writer outlasts the replayer -/

/-- Whether the writer is there as long as the replayer is, or is excused. -/
structure Attended (s : Streaming σ τ) : Prop where
  drain : s.drain = true → s.replayer = .done
  writer : s.writer = .done → s.replayer = .done ∨ s.WriteExcused

theorem drain_reader (drain : (s.readerStep setup).drain = true) :
    s.drain = true ∨ s.replayer = .done := by
  revert drain
  unfold readerStep
  cases s.reader with
  | reading =>
    dsimp only
    unfold read
    split
    · exact .inl
    · split <;> exact .inl
  | offering m =>
    dsimp only
    split
    · exact .inl
    · split <;> exact .inl
  | joining =>
    dsimp only
    split
    next ended => exact fun _ => .inr ended
    next => exact .inl
  | leaving | done => exact .inl
  | _ =>
    dsimp only
    split <;> exact .inl

theorem writer_ends (staged : s.Staged) (going : s.writer ≠ .done)
    (ended : (s.writerStep setup).writer = .done) :
    s.drain = true ∨ (s.writerStep setup).WriteExcused := by
  -- It is told to stop only when it is done, unless the connection ends at once.
  have stopping (stop : s.stop = true) : s.consumer.phase = .immediateExit :=
    (staged.of_stop stop).resolve_right fun drained => going drained.2.2
  -- So it has been told to drain its queue, or its end is excused.
  revert ended
  unfold writerStep
  cases place : s.writer with
  | checking =>
    dsimp only
    split
    next stop => exact fun _ => .inr (.inr (stopping stop))
    next => exact nofun
  | polling =>
    dsimp only
    split <;> exact nofun
  | starved =>
    dsimp only
    split
    next drain => exact fun _ => .inl drain
    next => exact nofun
  | holding a => exact nofun
  | writing acks =>
    cases acks with
    | nil => exact nofun
    | cons a rest =>
      dsimp only
      unfold write
      dsimp only
      split
      · exact nofun
      · split
        next stop => exact fun _ => .inr (.inr (stopping stop))
        next => exact fun _ => .inr (.inl rfl)
  | done => exact absurd place going

theorem Attended.step (h : s.Attended) (staged : s.Staged) (action : Action) :
    (s.step setup action).Attended := by
  have footprint := s.step_footprint setup action
  constructor
  · intro drain
    by_cases own : action = .reader
    · subst own
      exact replayer_done_step (drain_reader drain |>.elim h.drain id)
    · exact replayer_done_step (h.drain ((footprint.control own).2.2.2.1 ▸ drain))
  · intro ended
    have before (own : s.writer = .done) :
        (s.step setup action).replayer = .done ∨ (s.step setup action).WriteExcused :=
      (h.writer own).imp replayer_done_step (staged.writeExcused_step setup action)
    -- Told to drain, it may end at once: the replayer has ended before.
    by_cases own : action = .writer
    · subst own
      by_cases going : s.writer = .done
      · exact before going
      · refine (writer_ends staged going ended).imp_left fun drain => ?_
        exact replayer_done_step (h.drain drain)
    · exact before ((footprint.writing own).1 ▸ ended)

end Streaming

end Replication.Consumer
