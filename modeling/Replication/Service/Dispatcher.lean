import Replication.Service.Handshake
import Replication.Table

/-! # Dispatchers

A node's services come and go.  `Dispatcher.dispatch` reads which service a new link is
for and hands it to the service's handler; a link for no service is told why and closed.
-/

namespace Replication.Service

open Replication.Link (LinkError Transport)

/-- A handler could not take a link. -/
structure HandlerError where
  reason : Octets
deriving DecidableEq, Repr

/-- What a service does with a link that asked for it. -/
abbrev Handler (σ : Type) := EStateM HandlerError σ Unit

/-- The services of a node, how many requests found none, and how long a client may take
    to name its service, in milliseconds. -/
structure Dispatcher (σ : Type) where
  handlers : Table Octets (Handler σ) := .empty
  rejected : Nat := 0
  patience : Int := 5000

/-- A service of that name is there already. -/
structure RegistrationError where
  service : Octets
deriving DecidableEq, Repr

def RegistrationError.message (e : RegistrationError) : Octets :=
  .ofAscii "service " ++ e.service ++ .ofAscii " is already registered"

/-- Why a request cannot be read. -/
inductive RequestError where
  | link (e : LinkError)
  | badLength (length : Int)
deriving DecidableEq, Repr

/-- The greatest length of a service's name. -/
def maxServiceName : Int := 256

/-- The name of the service that a link is for. -/
def readServiceName {σ : Type} (t : Transport σ) : EStateM RequestError σ Octets := do
  let bytes ← (t.read 4).adaptExcept .link
  let length := (Int32.ofNat (Wire.ofBigEndian bytes)).toInt
  if length ≤ 0 ∨ maxServiceName < length then throw (.badLength length)
  (t.read length.toNat).adaptExcept .link

namespace Dispatcher

variable {σ : Type}

def register (d : Dispatcher σ) (service : Octets) (h : Handler σ) :
    Except RegistrationError (Dispatcher σ) :=
  if d.handlers.contains service then .error { service }
  else .ok { d with handlers := d.handlers.insert service h }

/-- Takes a service away. -/
def cancel (d : Dispatcher σ) (service : Octets) : Dispatcher σ :=
  { d with handlers := d.handlers.erase service }

def isRegistered (d : Dispatcher σ) (service : Octets) : Bool :=
  d.handlers.contains service

/-- The dispatcher after one more request that found no service. -/
def reject (d : Dispatcher σ) : Dispatcher σ :=
  { d with rejected := d.rejected + 1 }

/-- The state that an operation leaves behind, whether it fails or not. -/
def settle {ε α : Type} (x : EStateM ε σ α) (link : σ) : σ :=
  match x link with
  | .ok _ link | .error _ link => link

/-- Tells a client the verdict. -/
def respond (t : Transport σ) (v : Verdict) : EStateM LinkError σ Unit :=
  t.write [v.ordinal]

/-- Takes a new link.  A link that fails is closed, and so is one whose handler fails. -/
def dispatch (d : Dispatcher σ) (t : Transport σ) (link : σ) : Dispatcher σ × σ :=
  match readServiceName t (t.setTimeout d.patience link) with
  -- Nobody is left to be told where the link itself fails, and the request does not count.
  | .error (.link _) link => (d, t.close link)
  | .error (.badLength _) link => (d.reject, t.close (settle (respond t .invalid) link))
  | .ok service link =>
    match d.handlers.get? service with
    | none => (d.reject, t.close (settle (respond t .unknownService) link))
    | some handler =>
      match respond t .ok link with
      | .error _ link => (d, t.close link)
      | .ok () link =>
        match handler (t.setTimeout 0 link) with
        | .ok () link => (d, link)
        | .error _ link => (d, t.close link)

end Dispatcher

end Replication.Service
