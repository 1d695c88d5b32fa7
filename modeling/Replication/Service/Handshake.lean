import Replication.Link.Transport
import Replication.Wire.Field

/-! # The service handshake

Whoever connects to a node names the service that it wants, as a byte string behind its
length, and the node answers with one byte.  `handshake` is the client's half.
-/

namespace Replication.Service

open Replication.Link (LinkError Transport)

/-! ## 1. Verdicts -/

/-- What a node says to a request. -/
inductive Verdict where
  | ok
  | busy
  | unknownService
  | invalid
deriving DecidableEq, Repr

/-- The byte that stands for a verdict. -/
def Verdict.ordinal : Verdict → UInt8
  | .ok => 1
  | .busy => 2
  | .unknownService => 3
  | .invalid => 4

/-- The verdict that a byte stands for. -/
def Verdict.ofOrdinal? : UInt8 → Option Verdict
  | 1 => some .ok
  | 2 => some .busy
  | 3 => some .unknownService
  | 4 => some .invalid
  | _ => none

def Verdict.name : Verdict → Octets
  | .ok => .ofAscii "OK"
  | .busy => .ofAscii "BUSY"
  | .unknownService => .ofAscii "UNKNOWN_SERVICE"
  | .invalid => .ofAscii "INVALID"

theorem Verdict.ofOrdinal?_ordinal (v : Verdict) : ofOrdinal? v.ordinal = some v := by
  cases v <;> rfl

/-! ## 2. The client's half -/

/-- Why a client is not let in. -/
inductive HandshakeError where
  | link (e : LinkError)
  | badVerdict (b : UInt8)
  | refused (service : Octets) (v : Verdict)
deriving DecidableEq, Repr

def HandshakeError.message : HandshakeError → Octets
  | .link e => e.message
  | .badVerdict b => .ofAscii "bad service response " ++ Decimal.render b.toNat
  | .refused service v =>
    .ofAscii "service " ++ service ++ .ofAscii " refused: " ++ v.name

variable {σ α : Type}

def onLink (x : EStateM LinkError σ α) : EStateM HandshakeError σ α :=
  x.adaptExcept .link

def ask (t : Transport σ) (service : Octets) : EStateM HandshakeError σ Unit :=
  onLink (t.write (Wire.putCounted service))

def awaitVerdict (t : Transport σ) (service : Octets) : EStateM HandshakeError σ Unit := do
  let b := (← onLink (t.read 1)).headD 0
  match Verdict.ofOrdinal? b with
  | some .ok => return ()
  | some v => throw (.refused service v)
  | none => throw (.badVerdict b)

/-- Asks for a service; without an error, its handler has taken the link. -/
def handshake (t : Transport σ) (service : Octets) : EStateM HandshakeError σ Unit := do
  ask t service
  awaitVerdict t service

end Replication.Service
