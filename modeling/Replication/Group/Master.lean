import Replication.Octets.Basic

/-! # Masters

The master that was elected for the group, and the one that this node streams from.
They differ after an election until the node reconnects.
-/

namespace Replication.Group

/-- A node as master.  Numbers below zero stand for no node. -/
structure Master where
  name : Octets := []
  id : Int32 := -1
deriving DecidableEq, Repr

/-- The two masters that a node knows of. -/
structure MasterStatus where
  group : Master := {}
  node : Master := {}
deriving DecidableEq, Repr

/-- The node follows a master that the group no longer has. -/
structure ObsoleteMaster where
  node : Octets
  group : Octets
deriving DecidableEq, Repr

def ObsoleteMaster.message (e : ObsoleteMaster) : Octets :=
  .ofAscii "node master " ++ e.node ++ .ofAscii " is obsolete, group master is " ++ e.group

namespace MasterStatus

/-- Notes the outcome of an election. -/
def elect (s : MasterStatus) (m : Master) : MasterStatus := { s with group := m }

def sync (s : MasterStatus) : MasterStatus := { s with node := s.group }

/-- Lets the node follow nobody. -/
def unsync (s : MasterStatus) : MasterStatus := { s with node := {} }

/-- Whether the node follows the group's master, and there is one. -/
def InSync (s : MasterStatus) : Prop := 0 ≤ s.node.id ∧ s.node = s.group

instance (s : MasterStatus) : Decidable s.InSync :=
  inferInstanceAs (Decidable (_ ∧ _))

/-- Fails unless the node follows the group's master. -/
def assertSync (s : MasterStatus) : Except ObsoleteMaster Unit :=
  if s.InSync then .ok () else .error { node := s.node.name, group := s.group.name }

end MasterStatus

end Replication.Group
