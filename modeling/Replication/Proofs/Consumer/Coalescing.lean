import Replication.Consumer.Streaming
import Replication.Proofs.Stream.RoundTrip

/-! # Acknowledgments that go out together

A response answers one acknowledgment, or with grouping all of a run of acknowledged
transactions.  A batch falls into such runs, each as long as it can be, and what stands
between them, so its responses are put together from those of its parts; and writing a batch
is sending its responses.
-/

namespace Replication

open Replication.Stream (Message Session)

/-- The message that answers an acknowledgment on its own. -/
def Replay.Ack.response (a : Replay.Ack) : Message :=
  match a.kind with
  | .heartbeat => .heartbeatResponse a.id a.highVlsn a.dtvlsn
  | .shutdown => .shutdownResponse
  | .txn => .ack a.id

namespace Consumer

open Replication.Replay (Ack)

/-! ## One response -/

section OneResponse

variable {grouped : Bool} {a : Ack} {rest back : List Ack} {r : Message × List Ack}

/-- What answers the first of some acknowledgments, and which are left behind it. -/
inductive Answering (grouped : Bool) (a : Ack) : List Ack → Message × List Ack → Prop where
  | alone {rest : List Ack}
    (ends : grouped = true → a.kind = .txn → ∀ b ∈ rest.head?, b.kind ≠ .txn) :
    Answering grouped a rest (a.response, rest)
  | together {b : Ack} {run left : List Ack} (on : grouped = true)
    (txns : ∀ c ∈ a :: b :: run, c.kind = .txn) (ends : ∀ c ∈ left.head?, c.kind ≠ .txn) :
    Answering grouped a (b :: run ++ left) (.groupAck ((a :: b :: run).map (·.id)), left)

theorem response_of_txn (txn : a.kind = .txn) : a.response = .ack a.id := by
  rw [Ack.response, txn]

theorem takeWhile_run {run left : List Ack} (txns : ∀ c ∈ run, c.kind = .txn)
    (ends : ∀ c ∈ left.head?, c.kind ≠ .txn) :
    (run ++ left).takeWhile (·.kind = .txn) = run := by
  rw [List.takeWhile_append_of_pos fun c mem => decide_eq_true (txns c mem)]
  cases left with
  | nil => rw [List.takeWhile_nil, List.append_nil]
  | cons c left =>
    have other := ends c rfl
    rw [List.takeWhile_cons_of_neg (by simpa using other), List.append_nil]

theorem Answering.eq (h : Answering grouped a rest r) : firstResponse grouped a rest = r := by
  cases h with
  | alone ends =>
    rw [firstResponse, Ack.response]
    cases kind : a.kind with
    | heartbeat | shutdown => rfl
    | txn =>
      cases grouped with
      | false => rfl
      | true =>
        have none : rest.takeWhile (·.kind = .txn) = [] :=
          @takeWhile_run [] rest (List.forall_mem_nil _) (ends rfl kind)
        dsimp only
        rw [if_pos rfl, none]
  | @together b run left on txns ends =>
    have kind := txns a List.mem_cons_self
    have whole : (b :: run ++ left).takeWhile (·.kind = .txn) = b :: run :=
      takeWhile_run (fun c mem => txns c (List.mem_cons_of_mem _ mem)) ends
    rw [firstResponse, kind, on]
    dsimp only
    rw [if_pos rfl, whole]
    dsimp only
    rw [List.drop_left]
    rfl

theorem firstResponse_answering (grouped : Bool) (a : Ack) (rest : List Ack) :
    Answering grouped a rest (firstResponse grouped a rest) := by
  by_cases lone : grouped = true → a.kind = .txn → ∀ b ∈ rest.head?, b.kind ≠ .txn
  · have alone : Answering grouped a rest (a.response, rest) := .alone lone
    rwa [alone.eq]
  · -- Another transaction stands behind this one, so there is a run of two at least.
    obtain ⟨on, kind, b, head, txn⟩ :
        grouped = true ∧ a.kind = .txn ∧ ∃ b, rest.head? = some b ∧ b.kind = .txn := by
      simpa using lone
    obtain ⟨tail, rfl⟩ : ∃ tail, rest = b :: tail := List.head?_eq_some_iff.1 head
    have parts := List.takeWhile_append_dropWhile (p := fun c : Ack => decide (c.kind = .txn))
      (l := tail)
    have txns : ∀ c ∈ tail.takeWhile fun c => decide (c.kind = .txn), c.kind = .txn :=
      fun c mem => of_decide_eq_true (List.all_eq_true.1 List.all_takeWhile c mem)
    have ends : ∀ c ∈ (tail.dropWhile fun c => decide (c.kind = .txn)).head?, c.kind ≠ .txn := by
      intro c first
      have stops := List.head?_dropWhile_not (fun c : Ack => decide (c.kind = .txn)) tail
      rw [first] at stops
      exact of_decide_eq_false stops
    generalize tail.takeWhile (fun c => decide (c.kind = .txn)) = run at parts txns
    generalize tail.dropWhile (fun c => decide (c.kind = .txn)) = left at parts ends
    subst parts
    have together : Answering grouped a (b :: run ++ left) _ := .together on
      (List.forall_mem_cons.2 ⟨kind, List.forall_mem_cons.2 ⟨txn, txns⟩⟩) ends
    rw [List.cons_append] at together
    rwa [together.eq]

/-- What comes behind the end of a run, or behind something else, does not matter. -/
theorem Answering.append (h : Answering grouped a rest r)
    (parted : ∀ b ∈ (a :: rest).getLast?, b.kind ≠ .txn) (back : List Ack) :
    Answering grouped a (rest ++ back) (r.1, r.2 ++ back) := by
  cases h with
  | alone ends =>
    refine .alone fun on txn => ?_
    cases rest with
    | nil => exact absurd txn (parted a rfl)
    | cons b rest => exact ends on txn
  | @together b run left on txns ends =>
    rw [List.append_assoc]
    refine .together on txns ?_
    -- A run up to the end could go on in what comes behind, but then it is not parted.
    cases left with
    | nil =>
      rw [List.append_nil] at parted
      have last := List.getLast?_eq_some_getLast (List.cons_ne_nil a (b :: run))
      exact absurd (txns _ (List.getLast_mem _)) (parted _ last)
    | cons c left => exact ends

theorem Answering.getLast?_left (h : Answering grouped a rest r) {b : Ack}
    (last : b ∈ r.2.getLast?) : b ∈ (a :: rest).getLast? := by
  have suffix : r.2 <:+ a :: rest := by
    cases h with
    | alone => exact List.suffix_cons _ _
    | together => exact ⟨_, List.cons_append⟩
  obtain ⟨front, parts⟩ := suffix
  rw [← parts, List.getLast?_append, Option.mem_def.1 last]
  rfl

end OneResponse

/-! ## The responses to a batch -/

section Batches

variable {grouped : Bool} {a : Ack} {acks batch front run back : List Ack}

@[simp] theorem responses_nil (grouped : Bool) : responses grouped [] = [] := by
  rw [responses]

theorem responses_cons (grouped : Bool) (a : Ack) (rest : List Ack) :
    responses grouped (a :: rest) =
      (firstResponse grouped a rest).1 :: responses grouped (firstResponse grouped a rest).2 := by
  rw [responses]

theorem Answering.responses {rest : List Ack} {r : Message × List Ack}
    (first : Answering grouped a rest r) :
    Consumer.responses grouped (a :: rest) = r.1 :: Consumer.responses grouped r.2 := by
  rw [responses_cons, first.eq]

/-- What holds of no acknowledgments, and of a batch if it holds of what its first response
    leaves, holds of all batches. -/
@[elab_as_elim]
theorem batch_induction (grouped : Bool) {motive : List Ack → Prop} (nil : motive [])
    (cons : ∀ a rest r, Answering grouped a rest r → motive r.2 → motive (a :: rest))
    (batch : List Ack) : motive batch := by
  induction batch using responses.induct grouped with
  | case1 => exact nil
  | case2 a rest ih => exact cons a rest _ (firstResponse_answering grouped a rest) ih

/-- Without grouping each acknowledgment is answered on its own. -/
theorem responses_false (acks : List Ack) : responses false acks = acks.map Ack.response := by
  induction acks with
  | nil => rw [responses_nil, List.map_nil]
  | cons a rest ih =>
    have alone : Answering false a rest (a.response, rest) := .alone nofun
    rw [alone.responses, ih, List.map_cons]

/-- The responses to a batch that is cut where no run is. -/
theorem responses_append (parted : ∀ a ∈ front.getLast?, a.kind ≠ .txn) (back : List Ack) :
    responses grouped (front ++ back) = responses grouped front ++ responses grouped back := by
  induction front using batch_induction grouped with
  | nil => rw [List.nil_append, responses_nil, List.nil_append]
  | cons a rest r first ih =>
    rw [List.cons_append, first.responses, (first.append parted back).responses,
      ih fun b last => parted b (first.getLast?_left last)]
    rfl

/-- The message that answers a run of acknowledged transactions. -/
def runResponse : List Ack → Message
  | [a] => .ack a.id
  | run => .groupAck (run.map (·.id))

theorem responses_run (nonempty : run ≠ []) (txns : ∀ a ∈ run, a.kind = .txn)
    (after : ∀ a ∈ back.head?, a.kind ≠ .txn) :
    responses true (run ++ back) = runResponse run :: responses true back := by
  cases run with
  | nil => exact absurd rfl nonempty
  | cons a run =>
    rw [List.cons_append]
    cases run with
    | nil =>
      have alone : Answering true a back (a.response, back) := .alone fun _ _ => after
      rw [List.nil_append, alone.responses, response_of_txn (txns a List.mem_cons_self)]
      rfl
    | cons b run =>
      have together : Answering true a (b :: run ++ back) _ := .together rfl txns after
      rw [together.responses]
      rfl

/-- A run of acknowledged transactions in a batch that is as long as it can be, and what
    stands in front of it and behind it. -/
structure MaximalRun (batch front run back : List Ack) : Prop where
  parts : batch = front ++ (run ++ back)
  nonempty : run ≠ []
  txns : ∀ a ∈ run, a.kind = .txn
  before : ∀ a ∈ front.getLast?, a.kind ≠ .txn
  after : ∀ a ∈ back.head?, a.kind ≠ .txn

namespace MaximalRun

/-- With grouping a run is answered by one message, in its place. -/
theorem responses (h : MaximalRun batch front run back) :
    Consumer.responses true batch =
      Consumer.responses true front ++ runResponse run :: Consumer.responses true back := by
  rw [h.parts, responses_append h.before, responses_run h.nonempty h.txns h.after]

/-- It is one of the longer batch, if it was cut where no run is. -/
theorem behind (h : MaximalRun batch front run back) (first : List Ack)
    (parted : ∀ a ∈ first.getLast?, a.kind = .txn → ∀ b ∈ batch.head?, b.kind ≠ .txn) :
    MaximalRun (first ++ batch) (first ++ front) run back where
  parts := by rw [h.parts, List.append_assoc]
  nonempty := h.nonempty
  txns := h.txns
  after := h.after
  before := by
    -- Only with nothing in front of it can a run have begun in what is put there.
    intro a last
    cases front with
    | cons b front =>
      rw [List.getLast?_append, List.getLast?_eq_some_getLast (List.cons_ne_nil b front)] at last
      cases last
      exact h.before _ (List.getLast?_eq_some_getLast _)
    | nil =>
      rw [List.append_nil] at last
      intro txn
      obtain ⟨b, run, rfl⟩ := List.exists_cons_of_ne_nil h.nonempty
      have starts : b ∈ batch.head? := by
        rw [h.parts]
        rfl
      exact parted a last txn b starts (h.txns b List.mem_cons_self)

end MaximalRun

/-- A response answers one acknowledgment, or with grouping a run of two at least. -/
theorem mem_responses {m : Message} (mem : m ∈ responses grouped acks) :
    (∃ a ∈ acks, m = a.response) ∨
      grouped = true ∧ ∃ front run back, MaximalRun acks front run back ∧ 2 ≤ run.length ∧
        m = .groupAck (run.map (·.id)) := by
  induction acks using batch_induction grouped with
  | nil => cases responses_nil grouped ▸ mem
  | cons a rest r first ih =>
    rw [first.responses] at mem
    rcases List.mem_cons.1 mem with here | later
    · cases first with
      | alone => exact .inl ⟨a, List.mem_cons_self, here⟩
      | @together b run left on txns ends =>
        refine .inr ⟨on, [], a :: b :: run, left, ⟨rfl, nofun, txns, nofun, ends⟩, ?_, here⟩
        simp
    -- What the rest answers stays a maximal run if nothing of this part belongs to it.
    · rcases ih later with ⟨b, there, same⟩ | ⟨on, front, run, back, maximal, many, same⟩
      · refine .inl ⟨b, ?_, same⟩
        cases first with
        | alone => exact List.mem_cons_of_mem _ there
        | together => simp [there]
      · refine .inr ⟨on, ?_⟩
        cases first with
        | alone ends =>
          refine ⟨_, run, back, maximal.behind [a] ?_, many, same⟩
          intro c last txn
          cases last
          exact ends on txn
        | @together b run' left on txns ends =>
          exact ⟨_, run, back, maximal.behind (a :: b :: run') fun _ _ _ => ends, many,
            same⟩

/-- No group is written for less than two acknowledgments. -/
theorem two_le_length_of_mem_responses {txns : List Int64}
    (mem : .groupAck txns ∈ responses grouped acks) : 2 ≤ txns.length := by
  rcases mem_responses mem with ⟨a, -, same⟩ | ⟨-, front, run, back, -, many, same⟩
  · rw [Ack.response] at same
    cases kind : a.kind <;> rw [kind] at same <;> cases same
  · cases same
    rwa [List.length_map]

end Batches

namespace Streaming

/-! ## Writing a batch -/

variable {σ τ : Type} {setup : Setup σ τ} {s : Streaming σ τ} {session : Session σ}

theorem run_writer_done (done : s.writer = .done) (n : Nat) :
    run setup s (List.replicate n .writer) = s := by
  have stays : s.step setup .writer = s := by
    rw [step, writerStep, done]
  induction n with
  | zero => rfl
  | succ n ih =>
    rw [List.replicate_succ, run, List.foldl_cons, stays]
    exact ih

/-- The writer with a batch in its hands, as many moves later as the batch has responses. -/
def writeOut (setup : Setup σ τ) (s : Streaming σ τ) (batch : List Ack) : Streaming σ τ :=
  run setup { s with writer := .writing batch }
    (List.replicate (responses setup.groupedAcks batch).length .writer)

@[simp] theorem writeOut_nil (setup : Setup σ τ) (s : Streaming σ τ) :
    s.writeOut setup [] = { s with writer := .writing [] } := by
  rw [writeOut, responses_nil]
  rfl

section Wrote

variable (s : Streaming σ τ)

theorem session_wrote (m : Message) : (s.wrote m).session = s.session := by
  cases m <;> rfl

theorem stop_wrote (m : Message) : (s.wrote m).stop = s.stop := by
  cases m <;> rfl

/-- What is noted of a message has nothing to do with the link or the writer's place. -/
theorem wrote_with (m : Message) (session : Session σ) (writer : Writer) :
    { s.wrote m with session, writer } = { s with session, writer }.wrote m := by
  cases m <;> rfl

theorem foldl_wrote_with (ms : List Message) (session : Session σ) (writer : Writer) :
    { ms.foldl wrote s with session, writer } = ms.foldl wrote { s with session, writer } := by
  induction ms generalizing s with
  | nil => rfl
  | cons m ms ih => rw [List.foldl_cons, List.foldl_cons, ih, wrote_with]

theorem writeError_foldl_wrote (ms : List Message) :
    (ms.foldl wrote s).writeError = s.writeError := by
  induction ms generalizing s with
  | nil => rfl
  | cons m ms ih =>
    rw [List.foldl_cons, ih]
    cases m <;> rfl

end Wrote

section FirstResponse

variable {a : Ack} {rest : List Ack} {r : Message × List Ack}
  (first : Answering setup.groupedAcks a rest r)

include first

theorem writeOut_cons :
    s.writeOut setup (a :: rest) =
      run setup ({ s with writer := .writing (a :: rest) }.write setup a rest)
        (List.replicate (responses setup.groupedAcks r.2).length .writer) := by
  rw [writeOut, first.responses, List.length_cons, List.replicate_succ]
  rfl

/-- The rest of a batch is written like a batch of its own. -/
theorem writeOut_cons_of_ok
    (sent : Session.send setup.codec setup.transport r.1 s.session = .ok () session) :
    s.writeOut setup (a :: rest) = ({ s with session }.wrote r.1).writeOut setup r.2 := by
  rw [writeOut_cons first, write, first.eq]
  dsimp only
  rw [sent, writeOut]
  cases r.1 <;> rfl

/-- The writer ends when a response cannot be sent, and unless it was to stop anyway it closes
    the link and reports why. -/
theorem writeOut_cons_of_error {e : Stream.StreamError}
    (failed : Session.send setup.codec setup.transport r.1 s.session = .error e session) :
    s.writeOut setup (a :: rest) =
      if s.stop then { s with session, writer := .done }
      else
        { s with
          session := session.close setup.transport
          writeError := some (.stream e)
          writer := .done } := by
  rw [writeOut_cons first, write, first.eq]
  dsimp only
  rw [failed]
  dsimp only
  exact run_writer_done (by split <;> rfl) _

end FirstResponse

/-- A batch is written by sending its responses, one after the other. -/
theorem writeOut_of_ok {batch : List Ack}
    (sent : Session.sendAll setup.codec setup.transport (responses setup.groupedAcks batch)
      s.session = .ok () session) :
    s.writeOut setup batch =
      { (responses setup.groupedAcks batch).foldl wrote s with
        session, writer := .writing [] } := by
  induction batch using batch_induction setup.groupedAcks generalizing s with
  | nil =>
    rw [responses_nil] at sent
    cases sent
    rw [writeOut_nil, responses_nil]
    rfl
  | cons a rest r first ih =>
    rw [first.responses, Session.sendAll] at sent
    obtain ⟨u, session₁, one, others⟩ := bind_eq_ok sent
    -- What is noted of the first response comes before the others, and has no part in the link.
    rw [writeOut_cons_of_ok first one, ih (by rw [session_wrote]; exact others), first.responses,
      List.foldl_cons, foldl_wrote_with, foldl_wrote_with, wrote_with, wrote_with]

theorem foldl_wrote_of_txns {acks : List Ack} (txns : ∀ a ∈ acks, a.kind = .txn)
    (s : Streaming σ τ) : (acks.map Ack.response).foldl wrote s = s := by
  induction acks with
  | nil => rfl
  | cons a acks ih =>
    rw [List.map_cons, List.foldl_cons, response_of_txn (txns a List.mem_cons_self)]
    exact ih fun b mem => txns b (List.mem_cons_of_mem _ mem)

/-- What is noted of a batch does not depend on how its acknowledgments go out. -/
theorem foldl_wrote_responses (grouped : Bool) (batch : List Ack) (s : Streaming σ τ) :
    (responses grouped batch).foldl wrote s = (batch.map Ack.response).foldl wrote s := by
  induction batch using batch_induction grouped generalizing s with
  | nil => rw [responses_nil, List.map_nil]
  | cons a rest r first ih =>
    rw [first.responses, List.foldl_cons, ih]
    cases first with
    | alone => rfl
    | @together b run left on txns ends =>
      rw [← List.cons_append, List.map_append, List.foldl_append, foldl_wrote_of_txns txns]
      rfl

/-- One that cannot be sent ends the writer. -/
theorem writeOut_of_error {batch : List Ack} {e : Stream.StreamError}
    (failed : Session.sendAll setup.codec setup.transport (responses setup.groupedAcks batch)
      s.session = .error e session) :
    (s.writeOut setup batch).writer = .done ∧
      (s.stop = false →
        (s.writeOut setup batch).writeError = some (.stream e) ∧
          (s.writeOut setup batch).session = session.close setup.transport) := by
  induction batch using batch_induction setup.groupedAcks generalizing s with
  | nil =>
    rw [responses_nil] at failed
    cases failed
  | cons a rest r first ih =>
    rw [first.responses, Session.sendAll] at failed
    rcases bind_eq_error failed with one | ⟨u, session₁, one, others⟩
    · rw [writeOut_cons_of_error first one]
      cases s.stop with
      | false => exact ⟨rfl, fun _ => ⟨rfl, rfl⟩⟩
      | true => exact ⟨rfl, fun going => Bool.noConfusion going⟩
    · have later := ih (s := { s with session := session₁ }.wrote r.1)
        (by rw [session_wrote]; exact others)
      rw [writeOut_cons_of_ok first one]
      rwa [stop_wrote] at later

def writeAll (setup : Setup σ τ) (s : Streaming σ τ) (batches : List (List Ack)) :
    Streaming σ τ :=
  batches.foldl (writeOut setup) s

/-- They are written by sending the responses to all of them. -/
theorem writeAll_of_ok {batches : List (List Ack)}
    (sent : Session.sendAll setup.codec setup.transport
      (batches.flatMap (responses setup.groupedAcks)) s.session = .ok () session) :
    (s.writeAll setup batches).session = session ∧
      (s.writeAll setup batches).writeError = s.writeError := by
  induction batches generalizing s with
  | nil =>
    cases sent
    exact ⟨rfl, rfl⟩
  | cons batch batches ih =>
    rw [List.flatMap_cons, Session.sendAll_append] at sent
    obtain ⟨u, session₁, first, others⟩ := bind_eq_ok sent
    have written := writeOut_of_ok first
    obtain ⟨last, error⟩ := ih (s := s.writeOut setup batch) (by rw [written]; exact others)
    refine ⟨last, error.trans ?_⟩
    rw [written]
    exact writeError_foldl_wrote _ _

end Streaming

end Consumer

end Replication
