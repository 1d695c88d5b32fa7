/-! # Computations with state and errors

What a computation comes to when its parts are known, and what its parts came to when its
end is known.
-/

namespace Replication

variable {ε σ α β : Type}

/-- A computation goes on with the result of its first part. -/
theorem bind_eq_of_ok {x : EStateM ε σ α} {f : α → EStateM ε σ β} {s s' : σ} {a : α}
    (h : x s = .ok a s') : (x >>= f) s = f a s' := by
  simp only [bind, EStateM.bind, h]

theorem bind_eq_of_error {x : EStateM ε σ α} {f : α → EStateM ε σ β} {s s' : σ} {e : ε}
    (h : x s = .error e s') : (x >>= f) s = .error e s' := by
  simp only [bind, EStateM.bind, h]

/-- The same of a computation without a state. -/
theorem ok_bind {a : α} {f : α → Except ε β} : (Except.ok a >>= f) = f a := rfl

theorem exists_ok_bind {x : Except ε α} {f : α → Except ε β} :
    (∃ b, (x >>= f) = .ok b) ↔ ∃ a, x = .ok a ∧ ∃ b, f a = .ok b := by
  cases x with
  | ok a => exact ⟨fun goes => ⟨a, rfl, goes⟩, fun ⟨_, same, goes⟩ => Except.ok.inj same ▸ goes⟩
  | error e => exact iff_of_false nofun nofun

/-- It does not matter whether errors are renamed before or behind a part. -/
theorem mapError_bind {ε' : Type} {g : ε → ε'} {x : Except ε α} {f : α → Except ε β} :
    (x >>= f).mapError g = x.mapError g >>= fun a => (f a).mapError g := by
  cases x <;> rfl

/-- The same of a computation that cannot fail. -/
theorem bind_eq_of_eq {x : StateM σ α} {f : α → StateM σ β} {s s' : σ} {a : α}
    (h : x s = (a, s')) : (x >>= f) s = f a s' := by
  simp only [bind, StateT.bind, h]

/-- A computation that ends well has gone well in all its parts. -/
theorem bind_eq_ok {x : EStateM ε σ α} {f : α → EStateM ε σ β} {s s' : σ} {b : β}
    (h : (x >>= f) s = .ok b s') : ∃ a s₁, x s = .ok a s₁ ∧ f a s₁ = .ok b s' := by
  simp only [bind, EStateM.bind] at h
  split at h
  next a s₁ first => exact ⟨a, s₁, first, h⟩
  next => cases h

/-- One that fails has failed in its first part or behind it. -/
theorem bind_eq_error {x : EStateM ε σ α} {f : α → EStateM ε σ β} {s s' : σ} {e : ε}
    (h : (x >>= f) s = .error e s') :
    x s = .error e s' ∨ ∃ a s₁, x s = .ok a s₁ ∧ f a s₁ = .error e s' := by
  simp only [bind, EStateM.bind] at h
  split at h
  next a s₁ first => exact .inr ⟨a, s₁, first, h⟩
  next e' s₁ failed =>
    cases h
    exact .inl failed

/-- One that has gone on has passed its guard. -/
theorem guard_eq_ok {refused : Prop} [Decidable refused] {e : ε} {f : α → EStateM ε σ β}
    {x : EStateM ε σ β} {s s' : σ} {b : β}
    (h : (if refused then throw e >>= f else x) s = .ok b s') : ¬ refused ∧ x s = .ok b s' := by
  by_cases stop : refused
  · rw [if_pos stop] at h
    cases h
  · rw [if_neg stop] at h
    exact ⟨stop, h⟩

theorem pure_eq_ok {a b : α} {s s' : σ} (h : (pure a : EStateM ε σ α) s = .ok b s') :
    a = b ∧ s = s' := by
  cases h
  exact ⟨rfl, rfl⟩

/-- The state that a computation leaves, however it ends. -/
def endState : EStateM.Result ε σ α → σ
  | .ok _ s => s
  | .error _ s => s

/-- What a computation comes to, apart from the state. -/
def outcome : EStateM.Result ε σ α → Except ε α
  | .ok a _ => .ok a
  | .error e _ => .error e

/-- The end of a computation that comes to this and leaves that state. -/
def endWith (r : Except ε α) (s : σ) : EStateM.Result ε σ α :=
  match r with
  | .ok a => .ok a s
  | .error e => .error e s

theorem get_bind {f : σ → EStateM ε σ β} {s : σ} : (get >>= f) s = f s s := rfl

theorem modify_bind {g : σ → σ} {f : Unit → EStateM ε σ β} {s : σ} :
    (modify g >>= f) s = f () (g s) := rfl

/-! ## What stays as it was -/

/-- Whether a computation leaves what is seen of the state as it was, however it ends. -/
def Keeps {γ : Type} (view : σ → γ) (x : EStateM ε σ α) : Prop :=
  ∀ s, view (endState (x s)) = view s

namespace Keeps

variable {γ : Type} {view : σ → γ} {x : EStateM ε σ α}

theorem pure (a : α) : Keeps view (pure a : EStateM ε σ α) := fun _ => rfl

theorem throw (e : ε) : Keeps view (throw e : EStateM ε σ α) := fun _ => rfl

theorem get : Keeps view (get : EStateM ε σ σ) := fun _ => rfl

theorem modify {f : σ → σ} (kept : ∀ s, view (f s) = view s) :
    Keeps view (modify f : EStateM ε σ Unit) := kept

theorem bind {f : α → EStateM ε σ β} (first : Keeps view x) (next : ∀ a, Keeps view (f a)) :
    Keeps view (x >>= f) := by
  intro s
  have kept := first s
  cases done : x s with
  | ok a s₁ =>
    rw [done] at kept
    rw [bind_eq_of_ok done, next a s₁]
    exact kept
  | error e s₁ =>
    rw [done] at kept
    rw [bind_eq_of_error done]
    exact kept

theorem of_ok {s s' : σ} {a : α} (h : Keeps view x) (done : x s = .ok a s') : view s' = view s := by
  have kept := h s
  rwa [done] at kept

theorem of_error {s s' : σ} {e : ε} (h : Keeps view x) (failed : x s = .error e s') :
    view s' = view s := by
  have kept := h s
  rwa [failed] at kept

end Keeps

/-! ## What is not lost -/

/-- Whether what holds of the state when a computation starts holds when it ends, however
    it ends. -/
def Stays (P : σ → Prop) (x : EStateM ε σ α) : Prop :=
  ∀ s, P s → P (endState (x s))

namespace Stays

variable {P : σ → Prop} {x : EStateM ε σ α}

theorem pure (a : α) : Stays P (pure a : EStateM ε σ α) := fun _ h => h

theorem throw (e : ε) : Stays P (throw e : EStateM ε σ α) := fun _ h => h

theorem modify {f : σ → σ} (kept : ∀ s, P s → P (f s)) :
    Stays P (modify f : EStateM ε σ Unit) := kept

theorem of_ok {s s' : σ} {a : α} (h : Stays P x) (holds : P s) (done : x s = .ok a s') :
    P s' := by
  have kept := h s holds
  rwa [done] at kept

/-- What holds behind the first part of a computation holds at its end. -/
theorem behind {f : α → EStateM ε σ β} {s : σ} (h : P (endState (x s)))
    (next : ∀ a, Stays P (f a)) : P (endState ((x >>= f) s)) := by
  cases done : x s with
  | ok a s₁ =>
    rw [done] at h
    rw [bind_eq_of_ok done]
    exact next a s₁ h
  | error e s₁ =>
    rw [done] at h
    rw [bind_eq_of_error done]
    exact h

theorem bind {f : α → EStateM ε σ β} (first : Stays P x) (next : ∀ a, Stays P (f a)) :
    Stays P (x >>= f) := fun s h => behind (first s h) next

theorem ite {c : Prop} [Decidable c] {y : EStateM ε σ α} (yes : Stays P x) (no : Stays P y) :
    Stays P (if c then x else y) := by
  split
  · exact yes
  · exact no

theorem foldlM {f : β → α → EStateM ε σ β} (each : ∀ b a, Stays P (f b a)) (as : List α) (b : β) :
    Stays P (as.foldlM f b) := by
  induction as generalizing b with
  | nil => exact pure b
  | cons a as ih => exact bind (each b a) ih

end Stays

/-! ## What is given -/

/-- Whether all that a computation gives has a property. -/
def Gives (P : α → Prop) (x : EStateM ε σ α) : Prop :=
  ∀ s s' a, x s = .ok a s' → P a

namespace Gives

variable {P : α → Prop} {Q : β → Prop} {x : EStateM ε σ α}

theorem any : Gives (fun _ => True) x := fun _ _ _ _ => trivial

theorem pure {a : α} (holds : P a) : Gives P (pure a : EStateM ε σ α) := by
  intro s s' b done
  obtain ⟨rfl, -⟩ := pure_eq_ok done
  exact holds

theorem bind {f : α → EStateM ε σ β} (first : Gives P x) (next : ∀ a, P a → Gives Q (f a)) :
    Gives Q (x >>= f) := by
  intro s s' b done
  obtain ⟨a, s₁, start, done⟩ := bind_eq_ok done
  exact next a (first _ _ _ start) _ _ _ done

end Gives

/-! ## One after the other -/

/-- Computations one after the other, each of which starts from the state that the one before
    it has left, however that one ended: what they come to, and the state at the end. -/
def inTurn : List (EStateM ε σ α) → σ → List (Except ε α) × σ
  | [], s => ([], s)
  | x :: xs, s =>
    let later := inTurn xs (endState (x s))
    (outcome (x s) :: later.1, later.2)

theorem inTurn_cons {x : EStateM ε σ α} {s s' : σ} {r : Except ε α} (done : x s = endWith r s')
    (xs : List (EStateM ε σ α)) :
    inTurn (x :: xs) s = (r :: (inTurn xs s').1, (inTurn xs s').2) := by
  rw [inTurn, done]
  cases r <;> rfl

theorem Stays.inTurn {P : σ → Prop} {xs : List (EStateM ε σ α)} (each : ∀ x ∈ xs, Stays P x)
    {s : σ} (holds : P s) : P (inTurn xs s).2 := by
  induction xs generalizing s with
  | nil => exact holds
  | cons x xs ih =>
    exact ih (fun y mem => each y (List.mem_cons_of_mem _ mem)) (each x List.mem_cons_self s holds)

end Replication
