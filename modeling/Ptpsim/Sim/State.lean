/-
# The camera state

The mutable state of the simulated camera: the session flag, the workflow
phase, the detected mode, the property values with the transitions that are
still to settle, the queued events, and the sequence gates. Maps are functions
into options.
-/
import Mathlib.Logic.Function.Basic
import Ptpsim.Sim.GateMatch

namespace Ptpsim.Sim

open Ptpsim.Core Config

/-- The phases of a camera's workflow. -/
inductive Phase where
  | disconnected
  | sessionOpen
  | imageImport
  | queuedReceive
  | liveView
  | streaming
  | closed
deriving DecidableEq

namespace Phase

def fromStateName (name : String) : Option Phase :=
  if name = "disconnected" then some disconnected
  else if name = "sessionOpen" ∨ name = "session_open" ∨ name = "session-open" then some sessionOpen
  else if name = "imageImport" ∨ name = "image_import" ∨ name = "image-import" then some imageImport
  else if name = "queuedReceive" ∨ name = "queued_receive" ∨ name = "queued-receive" then
    some queuedReceive
  else if name = "liveView" ∨ name = "live_view" ∨ name = "live-view" then some liveView
  else if name = "streaming" then some streaming
  else if name = "closed" then some closed
  else none

def ofWorkflow : WorkflowPhase → Phase
  | .sessionOpen => sessionOpen
  | .imageImport => imageImport
  | .liveView => liveView
  | .streaming => streaming

end Phase

/-! ### Sequence gates -/

/-- The gates satisfied in the current session, and how far each sequence has
come, by gate name and sequence index. -/
structure SequenceGates where
  satisfied : String → Bool := fun _ => false
  progress : String → ℕ → Option ℕ := fun _ _ => none

namespace SequenceGates

variable (g : SequenceGates) (name : String)

def gateSatisfied : Bool := g.satisfied name

def satisfyGate : SequenceGates :=
  { g with satisfied := Function.update g.satisfied name true }

/-- Forgets the gate and the progress of all its sequences. -/
def clearGate : SequenceGates where
  satisfied := Function.update g.satisfied name false
  progress := Function.update g.progress name fun _ => none

def resetGates (_ : SequenceGates) : SequenceGates := {}

def gateProgress (sequence : ℕ) : ℕ :=
  (g.progress name sequence).getD 0

def setGateProgress (sequence progress : ℕ) : SequenceGates :=
  { g with
    progress := Function.update g.progress name
      (Function.update (g.progress name) sequence (if progress = 0 then none else some progress)) }

@[simp] theorem gateSatisfied_empty (name : String) : gateSatisfied {} name = false := rfl

@[simp] theorem gateProgress_empty (name : String) (i : ℕ) : gateProgress {} name i = 0 := rfl

variable (g : SequenceGates) (name other : String)

@[simp] theorem gateSatisfied_satisfyGate :
    (g.satisfyGate name).gateSatisfied other =
      if other = name then true else g.gateSatisfied other :=
  Function.update_apply ..

@[simp] theorem gateProgress_satisfyGate (i : ℕ) :
    (g.satisfyGate name).gateProgress other i = g.gateProgress other i := rfl

@[simp] theorem gateSatisfied_clearGate :
    (g.clearGate name).gateSatisfied other =
      if other = name then false else g.gateSatisfied other :=
  Function.update_apply ..

@[simp] theorem gateProgress_clearGate (i : ℕ) :
    (g.clearGate name).gateProgress other i =
      if other = name then 0 else g.gateProgress other i := by
  unfold gateProgress clearGate
  by_cases hn : other = name <;> simp [hn]

@[simp] theorem gateSatisfied_setGateProgress (i p : ℕ) :
    (g.setGateProgress name i p).gateSatisfied other = g.gateSatisfied other := rfl

@[simp] theorem gateProgress_setGateProgress (i j p : ℕ) :
    (g.setGateProgress name i p).gateProgress other j =
      if other = name ∧ j = i then p else g.gateProgress other j := by
  unfold gateProgress setGateProgress
  by_cases hn : other = name
  · subst hn
    by_cases hi : j = i
    · by_cases hp : p = 0 <;> simp [hi, hp]
    · simp [hi]
  · simp [hn]

end SequenceGates

/-! ### The state -/

structure QueuedEvent where
  code : UInt16
  params : List UInt32
deriving DecidableEq

/-- A value on its way: visible after `remaining` more polls. -/
structure PendingTransition where
  value : PropValue
  remaining : UInt32
deriving DecidableEq

/-- What changes in a camera. -/
structure CameraState where
  sessionOpen : Bool := false
  phase : Phase := .disconnected
  activeMode : Option String := none
  props : UInt16 → Option PropValue := fun _ => none
  pending : UInt16 → Option PendingTransition := fun _ => none
  events : List QueuedEvent := []
  gates : SequenceGates := {}

namespace CameraState

/-- The value a property starts with: its initial value, else the first value
of its descriptor. -/
def seed (prop : Property) : Option PropValue :=
  let datatype := datatypeOf prop.ptype
  match prop.initialValue with
  | some value => typedDescriptorValue datatype value
  | none => do
    let first ← (← prop.descriptor).values.head?
    typedDescriptorValue datatype first

def fromManifest (manifest : CameraManifest) : CameraState where
  props := manifest.properties.foldl (fun props (key, prop) =>
    match parseHexCode key, seed prop with
    | some code, some value => Function.update props code (some value)
    | _, _ => props) fun _ => none

variable (s : CameraState) (code : UInt16)

def insertProp (value : PropValue) : CameraState :=
  { s with props := Function.update s.props code (some value) }

/-- Arms an effect: at once, or after that many polls, in the place of any
transition under way. -/
def armEffect (value : PropValue) (settleAfterPolls : UInt32) : CameraState :=
  if settleAfterPolls = 0 then
    { s with
      props := Function.update s.props code (some value)
      pending := Function.update s.pending code none }
  else { s with pending := Function.update s.pending code (some ⟨value, settleAfterPolls⟩) }

/-- One poll of the property. -/
def resolvePending : CameraState :=
  match s.pending code with
  | none => s
  | some p =>
    if p.remaining.toNat - 1 = 0 then
      { s with
        props := Function.update s.props code (some p.value)
        pending := Function.update s.pending code none }
    else
      { s with
        pending := Function.update s.pending code (some { p with remaining := p.remaining - 1 }) }

/-- Takes the first queued event with the code. -/
def takeEvent : Bool × CameraState :=
  match s.events.findIdx? fun e => e.code = code with
  | some i => (true, { s with events := s.events.eraseIdx i })
  | none => (false, s)

def drainEvents : List QueuedEvent × CameraState :=
  (s.events, { s with events := [] })

/-- The mode path of the property profiles: the detected mode, else a guess
from the phase. -/
def manifestModePath : String :=
  s.activeMode.getD <| match s.phase with
    | .sessionOpen | .liveView | .streaming => "shooting/stills"
    | .imageImport => "image-transfer"
    | _ => ""

/-- The integer values the predicates observe. -/
def observedView : PropView := fun code => (s.props code).bind valueToI64

end CameraState

/-! ### Property descriptions -/

def propForm (datatype : UInt16) (descriptor : Option Descriptor) : PropForm :=
  match descriptor with
  | none => .none
  | some d =>
    if d.form = "enum" then .enum (d.values.filterMap (typedDescriptorValue datatype))
    else if d.form = "range" then
      match d.values with
      | [.int min, .int max, .int step] =>
        .range (typed datatype min) (typed datatype max) (typed datatype step)
      | _ => .none
    else .none

def buildPropDesc (manifest : CameraManifest) (s : CameraState) (code : UInt16) :
    Option DevicePropDesc := do
  let prop ← manifest.property code
  let datatype := datatypeOf prop.ptype
  let current := (s.props code).getD (defaultPropValue datatype)
  return {
    code := code
    datatype := datatype
    getSet := if prop.access = some .readWrite then 1 else 0
    factoryDefault := current
    current := current
    form := propForm datatype prop.descriptor }

end Ptpsim.Sim
