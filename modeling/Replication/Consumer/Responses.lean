import Replication.Replay.Replayer

/-! # Responses

How acknowledgments become messages.  Each is answered on its own and in its place; with
grouping a run of acknowledged transactions goes out as one message.
-/

namespace Replication.Consumer

open Replication.Stream (Message)
open Replication.Replay (Ack)

/-- The message that answers an acknowledgment and maybe some behind it, and the
    acknowledgments that are left. -/
def firstResponse (grouped : Bool) (a : Ack) (rest : List Ack) : Message × List Ack :=
  match a.kind with
  | .heartbeat => (.heartbeatResponse a.id a.highVlsn a.dtvlsn, rest)
  | .shutdown => (.shutdownResponse, rest)
  | .txn =>
    let run := if grouped then rest.takeWhile (·.kind = .txn) else []
    match run with
    | [] => (.ack a.id, rest)
    | _ => (.groupAck (a.id :: run.map (·.id)), rest.drop run.length)

theorem length_firstResponse (grouped : Bool) (a : Ack) (rest : List Ack) :
    (firstResponse grouped a rest).2.length ≤ rest.length := by
  simp only [firstResponse]
  cases a.kind <;> simp
  split <;> simp

/-- The messages that answer acknowledgments. -/
def responses (grouped : Bool) : List Ack → List Message
  | [] => []
  | a :: rest =>
    (firstResponse grouped a rest).1 :: responses grouped (firstResponse grouped a rest).2
termination_by acks => acks.length
decreasing_by
  have := length_firstResponse grouped a rest
  simp
  omega

end Replication.Consumer
