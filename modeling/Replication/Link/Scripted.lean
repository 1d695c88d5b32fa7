import Replication.Link.Transport

/-! # Links that follow a script

A link whose other side has said what it is going to say, and which keeps what is done at
this side of it.
-/

namespace Replication.Link

/-- One end of a link whose other side follows a script. -/
structure ScriptedLink where
  /-- The name of the node across, if diagnostics show it. -/
  peerName : Option Octets := none
  incoming : Octets := []
  /-- How reading ends behind the last byte, if no more bytes will come. -/
  ending : Option LinkError := none
  /-- How many writes still succeed, if not all do. -/
  writable : Option Nat := none
  written : List Octets := []
  timeouts : List Int := []
  closed : Bool := false

namespace ScriptedLink

/-- Takes bytes that are there whole, unless the link is closed. -/
def read (n : Nat) : EStateM LinkError ScriptedLink Octets := fun l =>
  if l.closed then .error (LinkError.closed.labelled l.peerName) l
  else if l.incoming.length < n then
    .error ((l.ending.getD .closed).labelled l.peerName) { l with incoming := [] }
  else .ok (l.incoming.take n) { l with incoming := l.incoming.drop n }

/-- Keeps what is written, also after the close, until writes begin to fail. -/
def write (frame : Octets) : EStateM LinkError ScriptedLink Unit := fun l =>
  match l.writable with
  | some 0 => .error ((LinkError.failed (.ofAscii "write failed")).labelled l.peerName) l
  | writable =>
    .ok () { l with written := l.written ++ [frame], writable := writable.map (· - 1) }

def deliver (l : ScriptedLink) (bytes : Octets) : ScriptedLink :=
  { l with incoming := l.incoming ++ bytes }

def transport : Transport ScriptedLink where
  read := read
  write := write
  setTimeout milliseconds l := { l with timeouts := l.timeouts ++ [milliseconds] }
  close l := { l with closed := true }

end ScriptedLink

end Replication.Link
