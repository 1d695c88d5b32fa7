import Replication.Link.Error

/-! # Transports

What a protocol needs of its end of a link: to take bytes off it and to put bytes on it,
to say how long to wait for bytes, and to close it.
-/

namespace Replication.Link

/-- What can be done at one end of a link whose state is `σ`. -/
structure Transport (σ : Type) where
  /-- Takes exactly that many bytes. -/
  read : Nat → EStateM LinkError σ Octets
  write : Octets → EStateM LinkError σ Unit
  /-- Sets how many milliseconds a read waits; none above zero means for ever. -/
  setTimeout : Int → σ → σ
  close : σ → σ

end Replication.Link
