import Replication.Link.Ledger
import Replication.Proofs.Computations

/-! # Pipes between two ends

What is written at one end of a connection is read at the other one: the same bytes, in the
same order, until the reading end closes.
-/

namespace Replication.Link

/-! ## Operations -/

namespace Connection

variable {side : Side} {conn : Connection}

@[simp] theorem endpoint_setEndpoint (e : Endpoint) :
    (conn.setEndpoint side e).endpoint side = e := by
  cases side <;> rfl

@[simp] theorem setEndpoint_setEndpoint (e e' : Endpoint) :
    (conn.setEndpoint side e).setEndpoint side e' = conn.setEndpoint side e' := by
  cases side <;> rfl

@[simp] theorem setEndpoint_endpoint : conn.setEndpoint side (conn.endpoint side) = conn := by
  cases side <;> rfl

theorem read_eq_ok {bytes rest : Octets} (isOpen : (conn.endpoint side).closed = false)
    (incoming : (conn.endpoint side).incoming = bytes ++ rest) :
    Connection.read side bytes.length conn =
      .ok bytes (conn.setEndpoint side { conn.endpoint side with incoming := rest }) := by
  unfold Connection.read
  dsimp only
  cases bytes with
  | nil =>
    have same : { conn.endpoint side with incoming := rest } = conn.endpoint side := by
      rw [List.nil_append] at incoming
      rw [← incoming]
    rw [if_pos (by rfl), same, setEndpoint_endpoint]
  | cons b bytes =>
    rw [if_neg (by simp), if_pos ⟨isOpen, by rw [incoming, List.length_append]; omega⟩, incoming,
      List.take_left, List.drop_left]

/-- A read that does not find enough fails, and takes all that is there. -/
theorem read_eq_shortage {n : Nat} (positive : 0 < n) (few :
    (conn.endpoint side).closed = true ∨ (conn.endpoint side).incoming.length < n) :
    Connection.read side n conn =
      .error ((conn.shortage side).labelled (conn.endpoint side).peerName)
        (conn.setEndpoint side { conn.endpoint side with incoming := [] }) := by
  unfold Connection.read
  dsimp only
  rw [if_neg (by omega), if_neg]
  rintro ⟨isOpen, enough⟩
  rcases few with shut | few
  · rw [shut] at isOpen
    cases isOpen
  · omega

theorem read_eq_error (side : Side) {n : Nat} (few : (conn.endpoint side).incoming.length < n) :
    ∃ e conn', Connection.read side n conn = .error e conn' :=
  ⟨_, _, read_eq_shortage (by omega) (.inr few)⟩

/-- A read that succeeds returns the bytes in front, and leaves the others. -/
theorem take_of_read {n : Nat} {bytes : Octets} {conn' : Connection}
    (read : Connection.read side n conn = .ok bytes conn') :
    bytes.length = n ∧ bytes = (conn.endpoint side).incoming.take n ∧
      (conn'.endpoint side).incoming = (conn.endpoint side).incoming.drop n := by
  unfold Connection.read at read
  dsimp only at read
  split at read
  next none =>
    subst none
    cases read
    exact ⟨rfl, rfl, rfl⟩
  · split at read
    next enough =>
      cases read
      refine ⟨List.length_take_of_le enough.2, rfl, ?_⟩
      rw [endpoint_setEndpoint]
    next => cases read

/-- A read removes bytes from the front, and changes nothing else. -/
theorem endState_read (side : Side) (n : Nat) (conn : Connection) :
    ∃ k ≤ (conn.endpoint side).incoming.length, endState (Connection.read side n conn) =
      conn.setEndpoint side { conn.endpoint side with
        incoming := (conn.endpoint side).incoming.drop k } := by
  by_cases none : n = 0
  · refine ⟨0, Nat.zero_le _, ?_⟩
    rw [none, List.drop_zero, setEndpoint_endpoint]
    rfl
  by_cases few : (conn.endpoint side).closed = true ∨ (conn.endpoint side).incoming.length < n
  · refine ⟨_, Nat.le_refl _, ?_⟩
    rw [read_eq_shortage (Nat.pos_of_ne_zero none) few, List.drop_length]
    rfl
  · obtain ⟨isOpen, enough⟩ := not_or.1 few
    refine ⟨n, Nat.not_lt.1 enough, ?_⟩
    have read := read_eq_ok (Bool.not_eq_true _ ▸ isOpen) (List.take_append_drop n _).symm
    rw [List.length_take, Nat.min_eq_left (Nat.not_lt.1 enough)] at read
    rw [read]
    rfl

theorem write_eq_ok {bytes : Octets} (here : (conn.endpoint side).closed = false)
    (there : (conn.endpoint side.other).closed = false) :
    Connection.write side bytes conn =
      .ok () (conn.setEndpoint side.other { conn.endpoint side.other with
        incoming := (conn.endpoint side.other).incoming ++ bytes }) := by
  have isOpen : conn.isOpen side = true := by
    unfold Connection.isOpen
    cases conn.medium with
    | memory => cases side <;> simp_all [Connection.endpoint, Side.other]
    | socket => simp [here]
  unfold Connection.write
  dsimp only
  rw [if_pos (.inl isOpen)]

/-- In one process the close of either end ends the writes of both. -/
theorem write_eq_error (side : Side) {shut : Side} (memory : conn.medium = .memory)
    (closed : (conn.endpoint shut).closed = true) (bytes : Octets) :
    Connection.write side bytes conn =
      .error (LinkError.writeAfterClose.labelled (conn.endpoint side).peerName) conn := by
  have notOpen : conn.isOpen side = false := by
    unfold Connection.isOpen
    rw [memory]
    cases shut <;> simp_all [Connection.endpoint]
  unfold Connection.write
  dsimp only
  rw [if_neg (by simp [notOpen, memory])]

theorem endpoint_setEndpoint_eq (side side' : Side) (e : Endpoint) :
    (conn.setEndpoint side e).endpoint side' = if side' = side then e else conn.endpoint side' := by
  cases side <;> cases side' <;> rfl

/-- An end that is replaced without being closed leaves both as open as they were. -/
theorem closed_setEndpoint {e : Endpoint} (same : e.closed = (conn.endpoint side).closed)
    (side' : Side) :
    ((conn.setEndpoint side e).endpoint side').closed = (conn.endpoint side').closed := by
  rw [endpoint_setEndpoint_eq]
  split
  next here => rw [same, here]
  next => rfl

@[simp] theorem medium_setEndpoint (e : Endpoint) :
    (conn.setEndpoint side e).medium = conn.medium := by
  cases side <;> rfl

end Connection

/-! ## Accounts -/

variable {e : Endpoint} {taken sent : Octets} {names : Side → Option Octets} {l : Ledger}
  {side : Side}

/-- Whether the account of an end is in order. -/
structure InOrder (e : Endpoint) (taken sent : Octets) : Prop where
  balance : e.closed = false → taken ++ e.incoming = sent
  dropped : e.closed = true → e.incoming = [] ∧ taken <+: sent

namespace InOrder

theorem read (h : InOrder e taken sent) (k : Nat) :
    InOrder { e with incoming := e.incoming.drop k } (taken ++ e.incoming.take k) sent where
  balance isOpen := by
    rw [List.append_assoc, List.take_append_drop]
    exact h.balance isOpen
  dropped shut := by
    obtain ⟨nothing, front⟩ := h.dropped shut
    simpa [nothing] using front

theorem write (h : InOrder e taken sent) (isOpen : e.closed = false) (bytes : Octets) :
    InOrder { e with incoming := e.incoming ++ bytes } taken (sent ++ bytes) where
  balance _ := by
    rw [← List.append_assoc, h.balance isOpen]
  dropped shut := by
    rw [show e.closed = true from shut] at isOpen
    cases isOpen

/-- What was taken is the front of what was sent, whether the end is closed or not. -/
theorem front (h : InOrder e taken sent) : taken <+: sent := by
  cases shut : e.closed with
  | false => exact ⟨_, h.balance shut⟩
  | true => exact (h.dropped shut).2

theorem close (h : InOrder e taken sent) :
    InOrder { e with closed := true, incoming := [] } taken sent where
  balance isOpen := nomatch isOpen
  dropped _ := ⟨rfl, h.front⟩

theorem setTimeout (h : InOrder e taken sent) (milliseconds : Int) :
    InOrder { e with timeout := milliseconds } taken sent :=
  ⟨h.balance, h.dropped⟩

end InOrder

namespace Ledger

/-- What acts keep of a connection within one process. -/
structure Kept (names : Side → Option Octets) (l : Ledger) : Prop where
  memory : l.connection.medium = .memory
  named : ∀ side, (l.connection.endpoint side).peerName = names side
  inOrder : ∀ side, InOrder (l.connection.endpoint side) (l.taken side) (l.sent side)

namespace Kept

/-- It is enough to see to the end where something happens. -/
theorem replace (h : Kept names l) (side : Side) (inOrder : InOrder e taken sent)
    (named : e.peerName = names side) :
    Kept names {
      connection := l.connection.setEndpoint side e
      taken := Function.update l.taken side taken, sent := Function.update l.sent side sent } where
  memory := by rw [Connection.medium_setEndpoint, h.memory]
  named side' := by
    rw [Connection.endpoint_setEndpoint_eq]
    split
    next same => rw [named, same]
    next => exact h.named side'
  inOrder side' := by
    dsimp only
    rw [Connection.endpoint_setEndpoint_eq, Function.update_apply, Function.update_apply]
    split
    · exact inOrder
    · exact h.inOrder side'

end Kept

/-- What a read enters is what it has removed. -/
theorem act_read (l : Ledger) (side : Side) (n : Nat) :
    ∃ k, l.act (.read side n) = {
      connection := l.connection.setEndpoint side { l.connection.endpoint side with
        incoming := (l.pending side).drop k }
      taken := Function.update l.taken side (l.taken side ++ (l.pending side).take k)
      sent := l.sent } := by
  obtain ⟨k, few, state⟩ := Connection.endState_read side n l.connection
  have few : k ≤ (l.pending side).length := few
  refine ⟨k, ?_⟩
  have entered : l.act (.read side n) =
      l.enterRead side (endState (Connection.read side n l.connection)) := by
    rw [act]
    cases Connection.read side n l.connection <;> rfl
  rw [entered, state, enterRead, Connection.endpoint_setEndpoint]
  dsimp only
  rw [List.length_drop, ← pending, Nat.sub_sub_self few]

theorem act_write (side : Side)
    (isOpen : ∀ some_, (l.connection.endpoint some_).closed = false) (bytes : Octets) :
    l.act (.write side bytes) = {
      connection := l.connection.setEndpoint side.other { l.connection.endpoint side.other with
        incoming := l.pending side.other ++ bytes }
      taken := l.taken
      sent := Function.update l.sent side.other (l.sent side.other ++ bytes) } := by
  rw [act, Connection.write_eq_ok (isOpen _) (isOpen _)]
  rfl

namespace Kept

theorem act (h : Kept names l) (a : Act) : Kept names (l.act a) := by
  cases a with
  | read side n =>
    obtain ⟨k, after⟩ := l.act_read side n
    have kept := h.replace side ((h.inOrder side).read k) (h.named side)
    rw [Function.update_eq_self] at kept
    rw [after]
    exact kept
  | write side bytes =>
    by_cases isOpen : ∀ some_, (l.connection.endpoint some_).closed = false
    · rw [act_write side isOpen]
      have kept := h.replace side.other ((h.inOrder side.other).write (isOpen _) bytes)
        (h.named side.other)
      rwa [Function.update_eq_self] at kept
    -- It does not matter which end has closed.
    · obtain ⟨shut, closed⟩ := not_forall.1 isOpen
      rw [Ledger.act, Connection.write_eq_error side h.memory (Bool.not_eq_false _ ▸ closed)]
      exact h
  | close side =>
    have kept := h.replace side (h.inOrder side).close (h.named side)
    rw [Function.update_eq_self, Function.update_eq_self] at kept
    exact kept
  | setTimeout side milliseconds =>
    have kept := h.replace side ((h.inOrder side).setTimeout milliseconds) (h.named side)
    rw [Function.update_eq_self, Function.update_eq_self] at kept
    exact kept

theorem run (h : Kept names l) (acts : List Act) : Kept names (l.run acts) := by
  induction acts generalizing l with
  | nil => exact h
  | cons a acts ih => exact ih (h.act a)

/-- Nothing but its close closes an end, and nothing opens it again. -/
theorem closed_act (h : Kept names l) (a : Act) :
    (l.act a).closed side = true ↔ l.closed side = true ∨ a = .close side := by
  -- All acts but a close replace at most one end, and leave its flag.
  have still {a : Act} {side' : Side} {e : Endpoint} (other : a ≠ .close side)
      (replaced : (l.act a).connection = l.connection.setEndpoint side' e)
      (same : e.closed = (l.connection.endpoint side').closed) :
      (l.act a).closed side = true ↔ l.closed side = true ∨ a = .close side := by
    rw [closed, replaced, Connection.closed_setEndpoint same]
    exact (or_iff_left other).symm
  cases a with
  | read side' n =>
    obtain ⟨k, after⟩ := l.act_read side' n
    exact still nofun (congrArg (·.connection) after) (by rfl)
  | write side' bytes =>
    by_cases isOpen : ∀ some_, (l.connection.endpoint some_).closed = false
    · exact still nofun (congrArg (·.connection) (act_write side' isOpen bytes)) (by rfl)
    · obtain ⟨shut, closed⟩ := not_forall.1 isOpen
      rw [Ledger.act, Connection.write_eq_error side' h.memory (Bool.not_eq_false _ ▸ closed)]
      exact (or_iff_left nofun).symm
  | close side' =>
    unfold closed
    rw [Ledger.act, Connection.close, Connection.endpoint_setEndpoint_eq]
    split
    next same => exact iff_of_true rfl (.inr (congrArg _ same.symm))
    next other => exact (or_iff_left fun same => other (Act.close.inj same).symm).symm
  | setTimeout side' milliseconds => exact still nofun rfl rfl

theorem closed_run (h : Kept names l) (acts : List Act) :
    (l.run acts).closed side = true ↔ l.closed side = true ∨ .close side ∈ acts := by
  induction acts generalizing l with
  | nil => exact (or_iff_left List.not_mem_nil).symm
  | cons a acts ih =>
    change ((l.act a).run acts).closed side = true ↔ _
    rw [ih (h.act a), h.closed_act, List.mem_cons, or_assoc, eq_comm (a := a)]

/-- Where an end is closed nothing is sent any more. -/
theorem sent_act (h : Kept names l) (shut : l.closed side = true) (a : Act) :
    (l.act a).sent = l.sent := by
  cases a with
  | read side' n =>
    obtain ⟨k, after⟩ := l.act_read side' n
    rw [after]
  | write side' bytes => rw [Ledger.act, Connection.write_eq_error side' h.memory shut]
  | close side' | setTimeout side' milliseconds => rfl

theorem sent_run (h : Kept names l) (shut : l.closed side = true) (acts : List Act) :
    (l.run acts).sent = l.sent := by
  induction acts generalizing l with
  | nil => rfl
  | cons a acts ih =>
    exact (ih (h.act a) ((h.closed_act a).2 (.inl shut))).trans (h.sent_act shut a)

/-- What waits at an open end is what was sent to it behind what was taken. -/
theorem length_pending (h : Kept names l) (isOpen : l.closed side = false) :
    (l.sent side).length = (l.taken side).length + (l.pending side).length := by
  rw [← (h.inOrder side).balance isOpen, List.length_append]
  rfl

theorem next (h : Kept names l) {n : Nat} {bytes : Octets} {connection : Connection}
    (read : Connection.read side n l.connection = .ok bytes connection) :
    bytes.length = n ∧ l.taken side ++ bytes <+: l.sent side ∧
      (l.act (.read side n)).taken side = l.taken side ++ bytes := by
  obtain ⟨length, front, rest⟩ := Connection.take_of_read read
  refine ⟨length, ?_, ?_⟩
  · cases shut : l.closed side with
    | false =>
      rw [← (h.inOrder side).balance shut, front]
      exact (List.prefix_append_right_inj _).2 (List.take_prefix _ _)
    | true =>
      -- Only a read of no bytes succeeds here.
      obtain ⟨nothing, sent⟩ := (h.inOrder side).dropped shut
      rwa [front, nothing, List.take_nil, List.append_nil]
  · have removed : (l.pending side).length - (connection.endpoint side).incoming.length = n := by
      have enough := congrArg List.length front
      rw [List.length_take] at enough
      rw [rest, List.length_drop, pending]
      omega
    rw [Ledger.act, read]
    dsimp only [enterRead]
    rw [Function.update_self, removed, pending, ← front]

theorem shortage_eq (h : Kept names l) (isOpen : l.closed side = false) :
    l.connection.shortage side = if l.closed side.other then .closed
      else .noData (l.connection.endpoint side).timeout := by
  unfold closed at isOpen ⊢
  rw [Connection.shortage, isOpen, h.memory]
  rfl

theorem reliable (h : Kept names l) : Reliable names l where
  balance side := (h.inOrder side).balance
  closes side := by cases side <;> exact ⟨rfl, rfl, rfl, rfl, rfl, rfl⟩
  waits side milliseconds := by cases side <;> rfl
  dropped side := (h.inOrder side).dropped
  next _ _ _ _ read := h.next read
  drains side n isOpen enough := by
    have pending := h.length_pending isOpen
    have waiting : n ≤ (l.pending side).length := by omega
    have read := Connection.read_eq_ok isOpen (List.take_append_drop n (l.pending side)).symm
    rw [List.length_take, Nat.min_eq_left waiting] at read
    exact ⟨_, _, read⟩
  ends side n isOpen few := by
    have pending := h.length_pending isOpen
    have short : (l.pending side).length < n := by omega
    have failed := Connection.read_eq_shortage (by omega) (.inr short)
    rw [h.shortage_eq isOpen, h.named side] at failed
    exact ⟨_, failed⟩
  shut side n shut positive := by
    have shortage : l.connection.shortage side = .closed := if_pos shut
    have nothing := ((h.inOrder side).dropped shut).1
    rw [Connection.read_eq_shortage positive (.inl shut), shortage, h.named side, ← nothing]
    exact congrArg _ Connection.setEndpoint_endpoint
  accepted side bytes opener accepter := by
    cases side with
    | opener => exact ⟨_, Connection.write_eq_ok opener accepter⟩
    | accepter => exact ⟨_, Connection.write_eq_ok accepter opener⟩
  refused side shut side' bytes := by
    rw [Connection.write_eq_error side' h.memory shut, h.named side']
  final side shut acts := ⟨(h.closed_run acts).2 (.inl shut), h.sent_run shut acts⟩

end Kept

/-- A new connection carries nothing. -/
theorem kept_pair (names : Side → Option Octets) :
    Kept names { connection := .pair names } where
  memory := rfl
  named side := by cases side <;> rfl
  inOrder side := by cases side <;> exact ⟨fun _ => rfl, fun shut => nomatch shut⟩

/-- Whatever is done at the ends of a connection within one process, and whether they have names
    or not: what was written at one end comes out at the other one until that closes, and where
    an end has closed nothing more is written.  An end has closed just if it was asked to. -/
theorem pair_reliable (names : Side → Option Octets) (acts : List Act) :
    let l := Ledger.run { connection := .pair names } acts
    l.Reliable names ∧ ∀ side, l.closed side = true ↔ .close side ∈ acts := by
  have kept := kept_pair names
  refine ⟨(kept.run acts).reliable, fun side => (kept.closed_run acts).trans (or_iff_right ?_)⟩
  cases side <;> exact Bool.false_ne_true

/-! ## A close with bytes under way -/

/-- Each end has written to the other one, which has read a part of it. -/
def exchange : List Act :=
  [.write .opener [1, 2, 3], .read .accepter 1, .write .accepter [7, 8], .read .opener 1]

/-- The opener closes then: what it has not read is dropped, and the accepter still gets what was
    written to it, and then an error at once. -/
theorem pair_reliable_exchange :
    let l := Ledger.run { connection := .pair fun _ => none } (exchange ++ [.close .opener])
    l.closed .opener = true ∧ l.closed .accepter = false ∧ l.pending .opener = [] ∧
      l.taken .opener = [7] ∧ l.sent .opener = [7, 8] ∧
      (∃ connection, Connection.read .accepter 2 l.connection = .ok [2, 3] connection) ∧
      (∃ connection, Connection.read .accepter 3 l.connection = .error .closed connection) ∧
      Connection.write .accepter [] l.connection = .error .writeAfterClose l.connection := by
  intro l
  obtain ⟨reliable, closed⟩ := pair_reliable (fun _ => none) (exchange ++ [.close .opener])
  have shut : l.closed .opener = true := (closed .opener).2 (by decide)
  have isOpen : l.closed .accepter = false := Bool.eq_false_iff.2 fun shut =>
    absurd ((closed .accepter).1 shut) (by decide)
  obtain ⟨connection, failed⟩ := reliable.ends .accepter 3 isOpen (by decide)
  exact ⟨shut, isOpen, (reliable.dropped .opener shut).1, rfl, rfl, ⟨_, rfl⟩,
    ⟨connection, failed⟩, reliable.refused .opener shut .accepter []⟩

end Ledger

end Replication.Link
