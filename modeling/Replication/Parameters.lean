import Replication.Octets.Decimal

/-! # Replication parameters

The fifteen tunable values of a replication node.  Each has a default and a range;
`Parameters.ofProperties` reads them from named texts, looking at the names in
byte order, and refuses the first name it does not know or value it cannot admit.
-/

namespace Replication

/-! ## 1. The parameters -/

/-- The values in force on a node.  Times are in milliseconds unless the name says
    otherwise. -/
structure Parameters where
  /-- Messages that may wait for replay. -/
  replicaMessageQueueSize : Int := 1000
  heartbeatIntervalMs : Int := 1000
  /-- How long a connection may stay silent before its first heartbeat. -/
  preHeartbeatTimeoutMs : Int := 60000
  /-- How long a connection may stay silent afterwards. -/
  replicaTimeoutMs : Int := 30000
  networkRetries : Int := 2
  serviceUnavailableRetries : Int := 10
  connectRetrySleepMs : Int := 1000
  /-- Messages replayed under one durable write. -/
  maxGroupTxns : Int := 100
  fsyncIntervalMs : Int := 1000
  enableGroupAcks : Bool := false
  maxMessageSize : Int := 8388608
  electionReadTimeoutMs : Int := 5000
  feederWaitNs : Int := 100000000
  scanWaitTimeoutMs : Int := 5000
  scanWaitPollMs : Int := 10
deriving DecidableEq, Repr

/-- Acknowledgments that may wait to be sent: twice the messages that may wait. -/
def Parameters.outputQueueSize (p : Parameters) : Int := 2 * p.replicaMessageQueueSize

/-- The names under which the parameters are set. -/
inductive Parameter where
  | replicaMessageQueueSize
  | heartbeatIntervalMs
  | preHeartbeatTimeoutMs
  | replicaTimeoutMs
  | networkRetries
  | serviceUnavailableRetries
  | connectRetrySleepMs
  | maxGroupTxns
  | fsyncIntervalMs
  | enableGroupAcks
  | maxMessageSize
  | electionReadTimeoutMs
  | feederWaitNs
  | scanWaitTimeoutMs
  | scanWaitPollMs
deriving DecidableEq, Repr

namespace Parameter

def all : List Parameter :=
  [replicaMessageQueueSize, heartbeatIntervalMs, preHeartbeatTimeoutMs, replicaTimeoutMs,
    networkRetries, serviceUnavailableRetries, connectRetrySleepMs, maxGroupTxns,
    fsyncIntervalMs, enableGroupAcks, maxMessageSize, electionReadTimeoutMs, feederWaitNs,
    scanWaitTimeoutMs, scanWaitPollMs]

def name : Parameter → Octets
  | replicaMessageQueueSize => .ofAscii "replicaMessageQueueSize"
  | heartbeatIntervalMs => .ofAscii "heartbeatIntervalMs"
  | preHeartbeatTimeoutMs => .ofAscii "preHeartbeatTimeoutMs"
  | replicaTimeoutMs => .ofAscii "replicaTimeoutMs"
  | networkRetries => .ofAscii "networkRetries"
  | serviceUnavailableRetries => .ofAscii "serviceUnavailableRetries"
  | connectRetrySleepMs => .ofAscii "connectRetrySleepMs"
  | maxGroupTxns => .ofAscii "maxGroupTxns"
  | fsyncIntervalMs => .ofAscii "fsyncIntervalMs"
  | enableGroupAcks => .ofAscii "enableGroupAcks"
  | maxMessageSize => .ofAscii "maxMessageSize"
  | electionReadTimeoutMs => .ofAscii "electionReadTimeoutMs"
  | feederWaitNs => .ofAscii "feederWaitNs"
  | scanWaitTimeoutMs => .ofAscii "scanWaitTimeoutMs"
  | scanWaitPollMs => .ofAscii "scanWaitPollMs"

def ofName? (n : Octets) : Option Parameter :=
  all.find? fun p => p.name == n

/-- What a parameter may be set to. -/
inductive Domain where
  /-- The integers between two bounds, both included. -/
  | integer (least greatest : Int)
  /-- A flag. -/
  | flag
deriving DecidableEq, Repr

/-- The greatest value of a 32-bit count. -/
def maxCount : Int := Int32.maxValue.toInt

/-- The greatest value of a 64-bit count. -/
def maxLongCount : Int := Int64.maxValue.toInt

/-- The values that each parameter admits.  The queue size stops at half the range,
    since the output queue is twice as large. -/
def domain : Parameter → Domain
  | replicaMessageQueueSize => .integer 1 (maxCount / 2)
  | heartbeatIntervalMs | preHeartbeatTimeoutMs | replicaTimeoutMs | maxGroupTxns
  | electionReadTimeoutMs | scanWaitPollMs => .integer 1 maxCount
  | networkRetries | serviceUnavailableRetries | connectRetrySleepMs | fsyncIntervalMs
  | scanWaitTimeoutMs => .integer 0 maxCount
  | maxMessageSize => .integer 1 maxLongCount
  | feederWaitNs => .integer 0 maxLongCount
  | enableGroupAcks => .flag

/-- Whether a parameter is kept as a 64-bit count; the other integers are 32-bit counts. -/
def isLong (p : Parameter) : Bool :=
  p = .maxMessageSize ∨ p = .feederWaitNs

/-- What is kept of an integer that a parameter is set to. -/
def kept (p : Parameter) (n : Int) : Int :=
  if p.isLong then (Int64.ofInt n).toInt else (Int32.ofInt n).toInt

end Parameter

/-! ## 2. Reading them from properties -/

/-- Why a property was refused. -/
inductive ParameterError where
  /-- No parameter has this name. -/
  | unknown (name : Octets)
  /-- The text is no value of the parameter's type. -/
  | malformed (p : Parameter) (text : Octets)
  /-- The value lies below the range. -/
  | below (p : Parameter) (least : Int) (text : Octets)
  /-- The value lies above the range. -/
  | above (p : Parameter) (greatest : Int) (text : Octets)
deriving DecidableEq, Repr

def ParameterError.message : ParameterError → Octets
  | .unknown name => .ofAscii "unknown replication parameter: " ++ name
  | .malformed p text =>
    .ofAscii "bad value for " ++ p.name ++ .ofAscii ": " ++ Octets.quoted text
  | .below p least text =>
    p.name ++ .ofAscii " must be >= " ++ Decimal.render least ++ .ofAscii ", got " ++ text
  | .above p greatest text =>
    p.name ++ .ofAscii " must be <= " ++ Decimal.render greatest ++ .ofAscii ", got " ++ text

/-- A flag is written as a word or as a digit. -/
def parseFlag (text : Octets) : Option Bool :=
  if text = .ofAscii "true" ∨ text = .ofAscii "1" then some true
  else if text = .ofAscii "false" ∨ text = .ofAscii "0" then some false
  else none

/-- Reads an integer between the given bounds for a parameter. -/
def Parameter.parseInteger (p : Parameter) (least greatest : Int) (text : Octets) :
    Except ParameterError Int :=
  match Decimal.parse text with
  | none => .error (.malformed p text)
  | some n =>
    if n < least then .error (.below p least text)
    else if greatest < n then .error (.above p greatest text)
    else .ok n

namespace Parameters

/-- Sets an integer parameter; a flag is left alone. -/
def setInteger (ps : Parameters) (n : Int) : Parameter → Parameters
  | .replicaMessageQueueSize => { ps with replicaMessageQueueSize := n }
  | .heartbeatIntervalMs => { ps with heartbeatIntervalMs := n }
  | .preHeartbeatTimeoutMs => { ps with preHeartbeatTimeoutMs := n }
  | .replicaTimeoutMs => { ps with replicaTimeoutMs := n }
  | .networkRetries => { ps with networkRetries := n }
  | .serviceUnavailableRetries => { ps with serviceUnavailableRetries := n }
  | .connectRetrySleepMs => { ps with connectRetrySleepMs := n }
  | .maxGroupTxns => { ps with maxGroupTxns := n }
  | .fsyncIntervalMs => { ps with fsyncIntervalMs := n }
  | .enableGroupAcks => ps
  | .maxMessageSize => { ps with maxMessageSize := n }
  | .electionReadTimeoutMs => { ps with electionReadTimeoutMs := n }
  | .feederWaitNs => { ps with feederWaitNs := n }
  | .scanWaitTimeoutMs => { ps with scanWaitTimeoutMs := n }
  | .scanWaitPollMs => { ps with scanWaitPollMs := n }

/-- Sets one named property. -/
def assign (ps : Parameters) (name text : Octets) : Except ParameterError Parameters :=
  match Parameter.ofName? name with
  | none => .error (.unknown name)
  | some p =>
    match p.domain with
    | .integer least greatest =>
      (p.parseInteger least greatest text).map fun n => ps.setInteger (p.kept n) p
    | .flag =>
      match parseFlag text with
      | none => .error (.malformed p text)
      | some b => .ok { ps with enableGroupAcks := b }

/-- The defaults, changed by properties that are looked at in the byte order of
    their names. -/
def ofProperties (properties : List (Octets × Octets)) : Except ParameterError Parameters :=
  (properties.mergeSort fun a b => (compare a.1 b.1).isLE).foldlM
    (fun ps property => ps.assign property.1 property.2) {}

end Parameters

end Replication
