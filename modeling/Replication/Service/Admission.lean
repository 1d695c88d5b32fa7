import Replication.Link.Connection
import Replication.Service.Dispatcher

/-! # Admission

A dispatcher's work on a new link as far as the moment at which a handler gets it, and both
halves of the handshake put together: a client at one end of a link that asks for a service, and
a dispatcher at the other one.
-/

namespace Replication.Service

open Replication.Link (Connection Transport)

/-! ## 1. Up to the handler -/

/-- What comes of a new link: a handler is to get it, or the dispatcher has done with it. -/
inductive Admission (σ : Type) where
  | admitted (handler : Handler σ) (link : σ)
  | dismissed (d : Dispatcher σ) (link : σ)

namespace Dispatcher

variable {σ : Type} (d : Dispatcher σ) (t : Transport σ)

/-- Takes a new link as far as its handler, whose reads may take their time. -/
def letIn (link : σ) : Admission σ :=
  match readServiceName t (t.setTimeout d.patience link) with
  | .error (.link _) link => .dismissed d (t.close link)
  | .error (.badLength _) link => .dismissed d.reject (t.close (settle (respond t .invalid) link))
  | .ok service link =>
    match d.handlers.get? service with
    | none => .dismissed d.reject (t.close (settle (respond t .unknownService) link))
    | some handler =>
      match respond t .ok link with
      | .error _ link => .dismissed d (t.close link)
      | .ok () link => .admitted handler (t.setTimeout 0 link)

/-- Lets a handler have its link. -/
def handOver : Admission σ → Dispatcher σ × σ
  | .admitted handler link =>
    match handler link with
    | .ok () link => (d, link)
    | .error _ link => (d, t.close link)
  | .dismissed d link => (d, link)

/-- Nothing else happens to a new link. -/
theorem dispatch_eq_handOver (link : σ) : d.dispatch t link = d.handOver t (d.letIn t link) := by
  unfold dispatch letIn
  cases readServiceName t (t.setTimeout d.patience link) with
  | error e link => cases e <;> rfl
  | ok service link =>
    dsimp only
    cases d.handlers.get? service with
    | none => rfl
    | some handler =>
      dsimp only
      cases respond t .ok link <;> rfl

end Dispatcher

/-! ## 2. Both halves -/

/-- How a client and a dispatcher have come to terms. -/
structure Meeting where
  /-- What the client's half of the handshake has come to. -/
  outcome : Except HandshakeError Unit
  dispatcher : Dispatcher Connection
  /-- The handler that gets the link, if one does. -/
  handler : Option (Handler Connection)
  /-- The link when the client has written all. -/
  link : Connection

end Replication.Service
