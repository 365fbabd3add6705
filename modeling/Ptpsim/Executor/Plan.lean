/-
# Plans of the PTP executor

A plan is a list of steps with their codes resolved: the loader maps the steps
of a manifest to them, all of a list or none of it (`mapSteps`). Conditions,
loops, awaits and retries carry lists of their own, so that a step has a place
in the plan that is a path through the lists around it (`Path`). Every report
and every error of the executor names the place it is about.
-/
import Ptpsim.Config.Manifest
import Ptpsim.Core.Codes

namespace Ptpsim.Executor

open Ptpsim.Core Config

/-! ### Steps -/

structure CaptureResponseFallbackInfo where
  value : UInt64
  whenResponseCodes : List UInt16
deriving DecidableEq

/-- A value to keep, with its fallback. -/
structure CaptureInfo where
  bind : String
  source : CaptureSource
  fallback : Option CaptureResponseFallbackInfo := none
deriving DecidableEq

/-- What an await waits for. -/
inductive FfiAwaitSource where
  | poll (prop : UInt16)
  | event (code : UInt16) (thenPoll : Option UInt16)
deriving DecidableEq

/-- The property that is polled, if the source has one. -/
def FfiAwaitSource.polled : FfiAwaitSource → Option UInt16
  | poll prop => some prop
  | event _ thenPoll => thenPoll

/-- The two kinds of loop are steps of their own here. -/
inductive EntryStep where
  | setProp (prop : UInt16) (value : Int64) (tolerant : Bool)
  | setPropRuntime (prop : UInt16) (slot : String) (ifMissing : MissingRuntimeValue)
      (tolerant : Bool)
  | getProp (prop : UInt16) (captures : List CaptureInfo) (tolerant : Bool)
  | readEcho (prop : UInt16) (captures : List CaptureInfo) (tolerant : Bool)
  | sendOp (op : UInt16) (params : List StepParam) (captures : List CaptureInfo)
      («repeat» : UInt32) (tolerant : Bool)
  | openChannel (role : SocketRole) (tolerant : Bool)
  | reopenSession (tolerant : Bool)
  | closeSession (transportClose tolerant : Bool)
  | awaitUntil (source : FfiAwaitSource) («until» : Predicate) (onEach : List EntryStep)
      (captures : List CaptureInfo) (timeoutMs intervalMs : UInt32) (tolerant : Bool)
  | retry (steps fallbackSteps : List EntryStep) (whenResponseCodes : List UInt16)
      (whenFailureClasses : List RetryFailureClass) (maxAttempts retryDelayMs : UInt32)
      (tolerant : Bool)
  | forEach (collection bind : String) (body : List EntryStep) (tolerant : Bool)
  | chunk (total : String) (size : ChunkSize) (offsetBind lengthBind : String)
      (body : List EntryStep) (tolerant : Bool)
  | ifThen (slot : String) (equals : UInt64) (thenSteps : List EntryStep) (tolerant : Bool)
  | ifElse (slot : String) (equals : UInt64) (thenSteps elseSteps : List EntryStep)
      (tolerant : Bool)

inductive Verb where
  | setProp
  | getProp
  | readEcho
  | sendOp
  | openChannel
  | reopenSession
  | closeSession
  | awaitUntil
  | retry
  | loop
  | «if»
deriving DecidableEq

def stepVerb : EntryStep → Verb
  | .setProp .. | .setPropRuntime .. => .setProp
  | .getProp .. => .getProp
  | .readEcho .. => .readEcho
  | .sendOp .. => .sendOp
  | .openChannel .. => .openChannel
  | .reopenSession .. => .reopenSession
  | .closeSession .. => .closeSession
  | .awaitUntil .. => .awaitUntil
  | .retry .. => .retry
  | .forEach .. | .chunk .. => .loop
  | .ifThen .. | .ifElse .. => .if

/-- A condition is never tolerant, whatever its flag says. -/
def stepTolerant : EntryStep → Bool
  | .setProp _ _ tolerant | .setPropRuntime _ _ _ tolerant | .getProp _ _ tolerant
  | .readEcho _ _ tolerant | .sendOp _ _ _ _ tolerant | .openChannel _ tolerant
  | .reopenSession tolerant | .closeSession _ tolerant | .awaitUntil _ _ _ _ _ _ tolerant
  | .retry _ _ _ _ _ _ tolerant | .forEach _ _ _ tolerant | .chunk _ _ _ _ _ tolerant => tolerant
  | .ifThen .. | .ifElse .. => false

/-! ### Values of a run -/

/-- A value of the scope of a run. -/
inductive ActionValue where
  | u64 (value : UInt64)
  | string (value : String)
deriving DecidableEq

def actionValueU64 : ActionValue → Option UInt64
  | .u64 value => some value
  | .string _ => none

abbrev Scope := String → Option ActionValue

/-- The operation and the property that a step is reported with. -/
def stepCodes (step : EntryStep) (runtimeParams : Scope) : Option UInt16 × Option UInt16 :=
  match step with
  | .setProp prop .. => (some Op.setDevicePropValue, some prop)
  | .setPropRuntime prop slot ifMissing _ =>
    if ifMissing ≠ .skip ∨ (runtimeParams slot).isSome then
      (some Op.setDevicePropValue, some prop)
    else (none, none)
  | .getProp prop .. | .readEcho prop .. => (some Op.getDevicePropValue, some prop)
  | .sendOp op .. => (some op, none)
  | .openChannel .. => (none, none)
  | .reopenSession .. => (some Op.openSession, none)
  | .closeSession .. => (some Op.closeSession, none)
  | .awaitUntil (.poll prop) .. => (some Op.getDevicePropValue, some prop)
  | .awaitUntil (.event _ thenPoll) .. =>
    (thenPoll.map fun _ => Op.getDevicePropValue, thenPoll)
  | .retry .. | .forEach .. | .chunk .. | .ifThen .. | .ifElse .. => (none, none)

/-! ### Places -/

/-- A list of steps inside a step. -/
inductive Branch where
  | steps
  | fallback
  | onEach
  | forEach (index : ℕ)
  | chunk (index : ℕ)
  | then
  | else
  /-- The body of a loop, apart from any of its rounds. -/
  | body
deriving DecidableEq

/-- One part of a path: into a list, or to a step of it. -/
inductive PathPart where
  | branch (branch : Branch)
  | step (index : ℕ) (verb : Verb)
deriving DecidableEq

abbrev Path := List PathPart

def Verb.text : Verb → String
  | setProp => "setProp"
  | getProp => "getProp"
  | readEcho => "readEcho"
  | sendOp => "sendOp"
  | openChannel => "openChannel"
  | reopenSession => "reopenSession"
  | closeSession => "closeSession"
  | awaitUntil => "awaitUntil"
  | retry => "retry"
  | loop => "loop"
  | «if» => "if"

def Branch.text : Branch → String
  | steps => "steps"
  | fallback => "fallback"
  | onEach => "onEach"
  | forEach index => "forEach[" ++ toString index ++ "]"
  | chunk index => "chunk[" ++ toString index ++ "]"
  | .then => "then"
  | .else => "else"
  | body => "body"

def PathPart.text : PathPart → String
  | branch b => b.text
  | step index verb => "[" ++ toString index ++ "]." ++ verb.text

/-- The path as it is reported, such as `steps[3].retry.steps[0].getProp`. -/
def renderPath : Path → String
  | [] => ""
  | [part] => part.text
  | part :: .branch b :: rest => part.text ++ "." ++ renderPath (.branch b :: rest)
  | part :: rest => part.text ++ renderPath rest

def Path.step (path : Path) (index : ℕ) (step : EntryStep) : Path :=
  path ++ [.step index (stepVerb step)]

def Path.into (here : Path) (branch : Branch) : Path := here ++ [.branch branch]

/-! ### From the manifest -/

def mapCapture (c : Capture) : Option CaptureInfo :=
  match c.fallback with
  | none => some ⟨c.bind, c.source, none⟩
  | some fallback => do
    let codes ← fallback.whenResponseCodes.mapM parseHexCode
    return ⟨c.bind, c.source, some ⟨fallback.value, codes⟩⟩

def mapSetProp (prop : String) (value : Option SetPropValue) (tolerant : Bool) :
    Option EntryStep := do
  let prop ← parseHexCode prop
  return match value with
    | none => .setProp prop 0 tolerant
    | some (.literal value) => .setProp prop value tolerant
    | some (.runtime slot ifMissing) => .setPropRuntime prop slot ifMissing tolerant

def mapAwaitSource : AwaitSource → Option FfiAwaitSource
  | .poll prop => .poll <$> parseHexCode prop
  | .event code thenPoll => do
    let code ← parseHexCode code
    match thenPoll with
    | some prop => return .event code (some (← parseHexCode prop))
    | none => return .event code none

mutual
/-- A predicate crosses over if all its leaves name a property. -/
def predicateMaps : Predicate → Bool
  | .all ps | .any ps => predicatesMap ps
  | .not p => predicateMaps p
  | .leaf l => (parseHexCode l.prop).isSome

def predicatesMap : List Predicate → Bool
  | [] => true
  | p :: ps => predicateMaps p && predicatesMap ps
end

mutual
def mapSteps : List Config.Step → Option (List EntryStep)
  | [] => some []
  | step :: rest => do
    let step ← mapStep step
    let rest ← mapSteps rest
    return step :: rest

/-- The first action of the step that is there. -/
def mapStep : Config.Step → Option EntryStep
  | { setProp := some prop, value, tolerant, .. } => mapSetProp prop value tolerant
  | { getProp := some prop, captures, tolerant, .. } => do
    return .getProp (← parseHexCode prop) (← captures.mapM mapCapture) tolerant
  | { readEcho := some prop, captures, tolerant, .. } => do
    return .readEcho (← parseHexCode prop) (← captures.mapM mapCapture) tolerant
  | { sendOp := some op, params, captures, «repeat» := count, tolerant, .. } => do
    return .sendOp (← parseHexCode op) params (← captures.mapM mapCapture) count tolerant
  | { openChannel := some role, tolerant, .. } => some (.openChannel role tolerant)
  | { reopenSession := some _, tolerant, .. } => some (.reopenSession tolerant)
  | { closeSession := some close, tolerant, .. } =>
    some (.closeSession close.transportClose tolerant)
  | { awaitUntil := some ⟨source, condition, onEach, timeoutMs, intervalMs⟩,
      captures, tolerant, .. } => do
    let source ← mapAwaitSource source
    if predicateMaps condition then
      let onEach ← mapSteps onEach
      return .awaitUntil source condition onEach (← captures.mapM mapCapture) timeoutMs intervalMs
        tolerant
    else none
  | { retry := some ⟨steps, fallback, codes, classes, maxAttempts, retryDelayMs⟩,
      tolerant, .. } => do
    let steps ← mapSteps steps
    let fallback ← mapFallback fallback
    let codes ← codes.mapM parseHexCode
    return .retry steps fallback codes classes maxAttempts retryDelayMs tolerant
  | { loop := some (.forEach collection bind body), tolerant, .. } => do
    return .forEach collection bind (← mapSteps body) tolerant
  | { loop := some (.chunk total size offsetBind lengthBind body), tolerant, .. } => do
    return .chunk total size offsetBind lengthBind (← mapSteps body) tolerant
  | { ifStep := some ⟨slot, value, thenSteps, elseSteps⟩, tolerant, .. } => do
    let thenSteps ← mapSteps thenSteps
    if elseSteps.isEmpty then return .ifThen slot value thenSteps tolerant
    else return .ifElse slot value thenSteps (← mapSteps elseSteps) tolerant
  | _ => none

/-- A fallback that is left out has no steps. -/
def mapFallback : Option (List Config.Step) → Option (List EntryStep)
  | none => some []
  | some steps => mapSteps steps
end

end Ptpsim.Executor
