import Replication.Link.Transport
import Replication.Stream.Codec

/-! # Messages over a link

`Session.receive` takes one frame from a link and `Session.send` puts one on it, each
counting what went through.  A frame whose body is no message has left the link all
the same, so the next one is read from its start.
-/

namespace Replication.Stream

open Link (LinkError Transport)

/-! ## 1. Errors -/

/-- Why a message did not get through. -/
inductive StreamError where
  | link (e : LinkError)
  | codec (e : CodecError)
  /-- The other side reports that it was talked to in the wrong way. -/
  | remote (reason : Octets)
  /-- A message of another op was due. -/
  | unexpected (op : Op)
deriving DecidableEq, Repr

def StreamError.message : StreamError → Octets
  | .link e => e.message
  | .codec e => e.message
  | .remote reason => .ofAscii "remote protocol error: " ++ reason
  | .unexpected op => .ofAscii "unexpected message " ++ op.name

/-- What a message that is due carries; a message of another kind is an error. -/
def Message.expect {α : Type} (pick : Message → Option α) (m : Message) : Except StreamError α :=
  match pick m, m with
  | some a, _ => .ok a
  | none, .protocolError reason => .error (.remote reason)
  | none, m => .error (.unexpected m.op)

/-! ## 2. Sessions -/

/-- How many messages and bytes went through, headers included. -/
structure Traffic where
  messagesRead : Nat := 0
  bytesRead : Nat := 0
  messagesWritten : Nat := 0
  bytesWritten : Nat := 0
deriving DecidableEq, Repr

/-- A link and the traffic over it. -/
structure Session (σ : Type) where
  link : σ
  traffic : Traffic := {}

namespace Session

variable {σ α : Type}

def onLink (x : EStateM LinkError σ α) : EStateM StreamError (Session σ) α := fun s =>
  match x s.link with
  | .ok a link => .ok a { s with link }
  | .error e link => .error (.link e) { s with link }

/-- The result of an encoding or decoding, in a session. -/
def liftCodec (x : Except CodecError α) : EStateM StreamError (Session σ) α :=
  match x with
  | .ok a => pure a
  | .error e => throw (.codec e)

def setTimeout (t : Transport σ) (milliseconds : Int) (s : Session σ) : Session σ :=
  { s with link := t.setTimeout milliseconds s.link }

def close (t : Transport σ) (s : Session σ) : Session σ :=
  { s with link := t.close s.link }

/-- Takes the next message from the link. -/
def receive (c : Codec) (t : Transport σ) : EStateM StreamError (Session σ) Message := do
  let header ← liftCodec (c.decodeHeader (← onLink (t.read headerSize)))
  let body ← if header.size = 0 then pure [] else onLink (t.read header.size)
  let m ← liftCodec (Codec.decodeBody header.op body)
  modify fun s => { s with traffic :=
    { s.traffic with
      messagesRead := s.traffic.messagesRead + 1
      bytesRead := s.traffic.bytesRead + headerSize + header.size } }
  return m

/-- Puts a message on the link. -/
def send (c : Codec) (t : Transport σ) (m : Message) : EStateM StreamError (Session σ) Unit := do
  let frame ← liftCodec (c.encode m)
  onLink (t.write frame)
  modify fun s => { s with traffic :=
    { s.traffic with
      messagesWritten := s.traffic.messagesWritten + 1
      bytesWritten := s.traffic.bytesWritten + frame.length } }

/-- Takes the next message from the link, which has to be one that `pick` wants. -/
def receiveAs (c : Codec) (t : Transport σ) (pick : Message → Option α) :
    EStateM StreamError (Session σ) α := do
  match (← receive c t).expect pick with
  | .ok a => return a
  | .error e => throw e

end Session

end Replication.Stream
