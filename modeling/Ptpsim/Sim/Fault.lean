/-
# Fault injection

Rules that mutate the answers to selected operations. Every rule counts the
operations it matches; it is armed after `skip` of them and stays armed for
`count`, or forever. At most one rule applies to an operation: the first armed
one.
-/
import Mathlib.Data.List.Basic
import Mathlib.Data.Option.Basic

namespace Ptpsim.Sim

def maxDelayMs : UInt64 := 60000

def maxReplacementBytes : ℕ := 4096

/-- Which operations a rule is for. -/
structure FaultSelector where
  operation : UInt16
  params : Option (List UInt32) := none
  skip : UInt32 := 0
  count : Option UInt32 := none
deriving DecidableEq

/-- When a connection is closed. -/
inductive FaultStage where
  | command
  | data
  | response
deriving DecidableEq

/-- The phase a delay or a loss is in. -/
inductive DataOrResponse where
  | data
  | response
deriving DecidableEq

/-- How packets are framed on a channel. -/
inductive WireFraming where
  | standard
  | compressed
  | usb
deriving DecidableEq

/-- What a fault does to an answer. -/
inductive FaultMutation where
  | failResponse (response : UInt16)
  | close (stage : FaultStage)
  | delay (stage : DataOrResponse) (ms : UInt64)
  | suppress (stage : DataOrResponse)
  | truncateData (keep : UInt64)
  | replaceData (bytes : List UInt8)
  | replaceTransactionId (transactionId : UInt32)
  | dataFraming (framing : WireFraming)
  | propertyReadback (value : Int64)
deriving DecidableEq

namespace FaultMutation

/-- The name a fault is reported by. -/
def kind : FaultMutation → String
  | failResponse _ => "failResponse"
  | close _ => "close"
  | delay _ _ => "delay"
  | suppress _ => "suppress"
  | truncateData _ => "truncateData"
  | replaceData _ => "replaceData"
  | replaceTransactionId _ => "replaceTransactionId"
  | dataFraming _ => "dataFraming"
  | propertyReadback _ => "propertyReadback"

/-- A delay or a replacement payload that is too large. -/
inductive Invalid where
  | delay (ms : UInt64)
  | replacement (length : ℕ)
deriving DecidableEq

/-- Bounds what a fault may ask for. -/
def validate : FaultMutation → Except Invalid Unit
  | delay _ ms => if ms > maxDelayMs then .error (.delay ms) else .ok ()
  | replaceData bytes =>
    if bytes.length > maxReplacementBytes then .error (.replacement bytes.length) else .ok ()
  | _ => .ok ()

end FaultMutation

/-- A fault to install. -/
structure FaultSpec where
  selector : FaultSelector
  mutation : FaultMutation
deriving DecidableEq

/-- An installed fault and its counts. -/
structure FaultRule where
  id : UInt64
  selector : FaultSelector
  mutation : FaultMutation
  seen : UInt32 := 0
  applied : UInt32 := 0
deriving DecidableEq

/-- The last operation a fault was applied to. -/
structure FaultApplication where
  id : UInt64
  operation : UInt16
  params : List UInt32
  kind : String
deriving DecidableEq

/-- What a fault does to the wire. -/
inductive WirePlan where
  | none
  | closeBeforeData
  | closeBeforeResponse
  | delayData (ms : UInt64)
  | delayResponse (ms : UInt64)
  | suppressData
  | suppressResponse
  | replaceTransactionId (transactionId : UInt32)
  | dataFraming (framing : WireFraming)
deriving DecidableEq

/-- The part of a fault the wire carries out. -/
def wirePlan : FaultMutation → WirePlan
  | .close .data => .closeBeforeData
  | .close .response => .closeBeforeResponse
  | .delay .data ms => .delayData ms
  | .delay .response ms => .delayResponse ms
  | .suppress .data => .suppressData
  | .suppress .response => .suppressResponse
  | .replaceTransactionId transactionId => .replaceTransactionId transactionId
  | .dataFraming framing => .dataFraming framing
  | _ => .none

/-- The fault an operation meets. -/
structure AppliedFault where
  id : UInt64
  kind : String
  wire : WirePlan
deriving DecidableEq

/-- The faults in the order of installation. -/
structure FaultSet where
  nextId : UInt64 := 1
  rules : List FaultRule := []
  lastApplied : Option FaultApplication := none
  appliedMutation : Option FaultMutation := none

def saturatingSucc32 (n : UInt32) : UInt32 := if n = 0xffffffff then n else n + 1

def saturatingSucc64 (n : UInt64) : UInt64 := if n = 0xffffffffffffffff then n else n + 1

/-- Past `skip`, and within `count` of it. -/
def armed (selector : FaultSelector) (seenBefore : UInt32) : Bool :=
  if seenBefore < selector.skip then false
  else selector.count.all fun count => decide (seenBefore - selector.skip < count)

/-- `skip.saturating_add(count)` of the matches have been seen. -/
def exhausted (selector : FaultSelector) (seen : UInt32) : Bool :=
  selector.count.any fun count =>
    decide (min (selector.skip.toNat + count.toNat) 0xffffffff ≤ seen.toNat)

namespace FaultRule

/-- The operation and, if given, its parameters. -/
def selects (rule : FaultRule) (code : UInt16) (params : List UInt32) : Bool :=
  rule.selector.operation = code && rule.selector.params.all fun expected => expected = params

/-- Counts an operation the rule selects. -/
def see (rule : FaultRule) (code : UInt16) (params : List UInt32) : FaultRule :=
  if rule.selects code params then { rule with seen := saturatingSucc32 rule.seen } else rule

end FaultRule

/-- A rule as `list` reports it. -/
structure FaultView where
  id : UInt64
  selector : FaultSelector
  mutation : FaultMutation
  seen : UInt32
  applied : UInt32
  exhausted : Bool
deriving DecidableEq

namespace FaultSet

variable (s : FaultSet)

/-- The rules as a client sees them. -/
def list : List FaultView :=
  s.rules.map fun rule => ⟨rule.id, rule.selector, rule.mutation, rule.seen, rule.applied,
    exhausted rule.selector rule.seen⟩

/-- Installs under a new id, if valid. -/
def tryInsert (spec : FaultSpec) : Except FaultMutation.Invalid (UInt64 × FaultSet) := do
  spec.mutation.validate
  return (s.nextId, { s with
    nextId := saturatingSucc64 s.nextId
    rules :=
      s.rules ++ [{ id := s.nextId, selector := spec.selector, mutation := spec.mutation }] })

/-- Whether there was such a rule. -/
def remove (id : UInt64) : Bool × FaultSet :=
  let rules := s.rules.filter fun rule => rule.id ≠ id
  let removed := decide (s.rules.length ≠ rules.length)
  (removed, { s with
    rules := rules
    lastApplied := if removed && s.lastApplied.any fun fault => fault.id = id then none
      else s.lastApplied })

/-- Ids are not given out again. -/
def clear : FaultSet :=
  { s with rules := [], lastApplied := none, appliedMutation := none }

/-- Every matching rule counts the operation; the first that was armed before
applies. -/
def apply (code : UInt16) (params : List UInt32) : Option AppliedFault × FaultSet :=
  let rules := s.rules.map fun rule => rule.see code params
  match s.rules.findIdx? fun rule => rule.selects code params && armed rule.selector rule.seen with
  | none => (none, { s with rules := rules, appliedMutation := none })
  | some index =>
    match rules[index]? with
    | none => (none, { s with rules := rules, appliedMutation := none })
    | some rule =>
      (some ⟨rule.id, rule.mutation.kind, wirePlan rule.mutation⟩, { s with
        rules := rules.set index { rule with applied := saturatingSucc32 rule.applied }
        lastApplied := some ⟨rule.id, code, params, rule.mutation.kind⟩
        appliedMutation := some rule.mutation })

/-- Taken at most once. -/
def takeAppliedMutation : Option FaultMutation × FaultSet :=
  (s.appliedMutation, { s with appliedMutation := none })

end FaultSet

end Ptpsim.Sim
