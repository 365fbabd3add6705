/-
# Sequence gates: matchers and their compilation

A gate sequence is a list of matchers compiled from the entry and action steps
of a manifest, from the step that starts a gate to the step that completes it;
a channel sequence is the wire prefix of an `openChannel` step. A matcher says
which requests it recognises.
-/
import Ptpsim.Core.Container
import Ptpsim.Sim.Values

namespace Ptpsim.Sim

open Ptpsim.Core Config

/-- What a step looks like on the wire. -/
inductive GateMatcher where
  | setProp (prop : UInt16) (value : Option Int64)
  | getProp (prop : UInt16)
  | sendOp (op : UInt16) (params : List UInt32)
  | successfulOperation (op : UInt16)
deriving DecidableEq

/-- A compiled sequence of a gate. Only sequences with a step are compiled. -/
structure GateSequence where
  name : String
  steps : List GateMatcher
  steps_ne_nil : steps ≠ []
deriving DecidableEq

variable (manifest : CameraManifest) (connection : String)

def gateMatchForManifest (matcher : GateMatcher) (req : OperationRequest)
    (dataIn : Option (List UInt8)) : Bool :=
  match matcher with
  | .getProp prop => req.code = Op.getDevicePropValue && req.params.head? = some prop.toUInt32
  | .setProp prop value =>
    if req.code ≠ Op.setDevicePropValue ∨ req.params.head? ≠ some prop.toUInt32 then false
    else
      match dataIn with
      | none => false
      | some bytes =>
        match value with
        | none => true
        | some expected =>
          let datatype := datatypeOf ((manifest.property prop).bind (·.ptype))
          match PropValue.decode datatype (Reader.new bytes) with
          | .ok (v, _) => valueToI64 v = some expected
          | .error _ => false
  | .sendOp op params => req.code = op && req.params = params
  | .successfulOperation op => req.code = op

/-! ### Compilation -/

def literalParams (params : List StepParam) : Option (List UInt32) :=
  params.mapM fun p => match p with
    | .literal v => some v
    | .runtime .. => none

def matcherForStep (step : Step) : Option GateMatcher :=
  if !step.isSequenceGateMatchable then none
  else
    match step.setProp, step.getProp, step.sendOp with
    | some prop, _, _ =>
      match step.value with
      | none => (parseHexCode prop).map fun code => .setProp code none
      | some (.literal value) => (parseHexCode prop).map fun code => .setProp code (some value)
      | some (.runtime ..) => none
    | none, some prop, _ => (parseHexCode prop).map .getProp
    | none, none, some op => do
      let code ← parseHexCode op
      let params ← literalParams step.params
      return .sendOp code params
    | none, none, none => none

/-- The gates that have been started, with the steps since then; a step that
cannot be matched spoils the sequence until the gate is started again. -/
abbrev ActiveGates := String → Option (Option (List GateMatcher))

/-- The active gates after a step, the one it starts included. -/
def ActiveGates.step (active : ActiveGates) (starts : Option String)
    (matcher : Option GateMatcher) : ActiveGates := fun gate =>
  if starts = some gate then some (matcher.map fun m => [m])
  else (active gate).map fun sequence => do
    let steps ← sequence
    let m ← matcher
    return steps ++ [m]

/-- Adds a sequence unless it is there already. -/
def addSequence (out : List GateSequence) (name : String) (steps : List GateMatcher) :
    List GateSequence :=
  if h : steps ≠ [] then
    if ⟨name, steps, h⟩ ∈ out then out else out ++ [⟨name, steps, h⟩]
  else out

/-- The sequences a step adds when it completes a gate, and the gates that
stay active. -/
def completeGate (step : Step) (active : ActiveGates) (out : List GateSequence) :
    ActiveGates × List GateSequence :=
  match step.completesGate with
  | none => (active, out)
  | some gate =>
    (fun g => if g = gate then none else active g,
      match active gate with
      | some (some sequence) => addSequence out gate sequence
      | _ => out)

mutual
def collectSteps (steps : List Step) (active : ActiveGates) (out : List GateSequence) :
    List GateSequence :=
  match steps with
  | [] => out
  | step :: rest =>
    -- the steps of a retry block are compiled on their own
    let out := collectStep step out
    let active := active.step step.startsGate (matcherForStep step)
    let (active, out) := completeGate step active out
    collectSteps rest active out

def collectStep (step : Step) (out : List GateSequence) : List GateSequence :=
  match step with
  | { retry, .. } => collectRetry retry out

def collectRetry (retry : Option (StepRetry Step)) (out : List GateSequence) :
    List GateSequence :=
  match retry with
  | none => out
  | some block => collectBlock block out

def collectBlock (block : StepRetry Step) (out : List GateSequence) : List GateSequence :=
  match block with
  | { steps, fallback, .. } =>
    collectFallback fallback (collectSteps steps (fun _ => none) out)

def collectFallback (fallback : Option (List Step)) (out : List GateSequence) :
    List GateSequence :=
  match fallback with
  | none => out
  | some steps => collectSteps steps (fun _ => none) out
end

def collectGateSequences (steps : List Step) (out : List GateSequence) : List GateSequence :=
  collectSteps steps (fun _ => none) out

/-- The gate sequences of a mode entry. -/
def collectEntry (execution : ModeEntryExecution) (out : List GateSequence) :
    List GateSequence :=
  match execution with
  | .ptp steps => collectGateSequences steps out
  | .reestablishConnection exitSteps => collectGateSequences exitSteps out
  | .userInstruction _ => out

def compileGateSequences : List GateSequence :=
  manifest.connections.foldl (fun out (_, connection) =>
    let out := connection.entries.foldl (fun out entry =>
      collectEntry entry.execution out) out
    connection.actions.foldl (fun out (_, action) =>
      match action.initiator with
      | some initiator => collectGateSequences initiator.steps out
      | none => out) out) []

def channelGateName (role : SocketRole) : String :=
  "channel-ready:" ++ connection ++ ":" ++ roleName role

/-- `causalPrefix` holds the wire steps since the last step that cannot be
matched or whose failure is tolerated. -/
def collectChannelFrom (connection : String) (bindings : Option SocketBindings) :
    List Step → List GateMatcher → List GateSequence → List GateSequence
  | [], _, out => out
  | step :: rest, causalPrefix, out =>
    match step.openChannel with
    | some role =>
      if bindings.any fun b => (b.availableAfter role).isSome then
        collectChannelFrom connection bindings rest causalPrefix out
      else
        collectChannelFrom connection bindings rest causalPrefix
          (addSequence out (channelGateName connection role) causalPrefix)
    | none =>
      if step.tolerant then collectChannelFrom connection bindings rest [] out
      else
        match matcherForStep step with
        | some matcher =>
          collectChannelFrom connection bindings rest
            (causalPrefix ++ List.replicate (max step.repeat.toNat 1) matcher) out
        | none => collectChannelFrom connection bindings rest [] out

def collectChannelSequences (bindings : Option SocketBindings) (steps : List Step)
    (out : List GateSequence) : List GateSequence :=
  collectChannelFrom connection bindings steps [] out

/-- The gates of the sockets that become available after one operation. -/
def availabilitySequences (bindings : Option SocketBindings) : List GateSequence :=
  [SocketRole.event, SocketRole.liveView].filterMap fun role => do
    let operation ← (← bindings).availableAfter role
    let op ← parseHexCode operation
    return ⟨channelGateName connection role, [.successfulOperation op], by simp⟩

def compileChannelSequences : List GateSequence :=
  manifest.connections.foldl (fun out (name, connection) =>
    let out := out ++ availabilitySequences name connection.bindings
    let out := connection.entries.foldl (fun out entry =>
      match entry.execution with
      | .ptp steps => collectChannelSequences name connection.bindings steps out
      | _ => out) out
    connection.actions.foldl (fun out (_, action) =>
      match action.initiator with
      | some initiator => collectChannelSequences name connection.bindings initiator.steps out
      | none => out) out) []

mutual
/-- The matchers of the steps, `none` if one of them cannot be matched. -/
def matchersOf (steps : List Step) : Option (List GateMatcher) :=
  match steps with
  | [] => some []
  | step :: rest => do
    let first ← matchersOfStep step
    return first ++ (← matchersOf rest)

def matchersOfStep (step : Step) : Option (List GateMatcher) :=
  match step with
  | { setProp, sendOp, retry := some block, .. } =>
    -- a step with an operation of its own and a retry block has no order
    if setProp.isSome || sendOp.isSome then none else matchersOfBlock block
  | step => (matcherForStep step).map fun m => [m]

def matchersOfBlock (block : StepRetry Step) : Option (List GateMatcher) :=
  match block with
  | { steps, fallback, .. } =>
    if fallback.isSome then none
    else (matchersOf steps).filter fun ms => !ms.isEmpty
end

def matcherSequenceForSteps (steps : List Step) : Option (List GateMatcher) :=
  (matchersOf steps).filter fun ms => !ms.isEmpty

def actionSendsOp (action : Action) (code : UInt16) : Bool :=
  action.initiator.any fun binding =>
    binding.steps.any fun step => step.sendOp.bind parseHexCode = some code

/-! ### Membership -/

theorem mem_foldl_iff {α β : Type} {f : List α → β → List α} {a : α} {P : β → Prop}
    (hs : ∀ out b, a ∈ f out b ↔ a ∈ out ∨ P b) (bs : List β) (out : List α) :
    a ∈ bs.foldl f out ↔ a ∈ out ∨ ∃ b ∈ bs, P b := by
  induction bs generalizing out with
  | nil => simp
  | cons b bs ih =>
    rw [List.foldl_cons, ih, hs, or_assoc]
    simp

theorem mem_addSequence {out : List GateSequence} {name : String} {steps : List GateMatcher}
    {s : GateSequence} :
    s ∈ addSequence out name steps ↔ s ∈ out ∨ s.name = name ∧ s.steps = steps := by
  unfold addSequence
  by_cases hnil : steps ≠ []
  · have heq : s = ⟨name, steps, hnil⟩ ↔ s.name = name ∧ s.steps = steps := by
      rcases s with ⟨sname, ssteps, hs⟩
      simp
    rw [dif_pos hnil]
    split
    · refine ⟨.inl, fun h => h.elim id fun hsa => ?_⟩
      rwa [heq.mpr hsa]
    · rw [List.mem_append, List.mem_singleton, heq]
  · rw [dif_neg hnil]
    rw [ne_eq, not_not] at hnil
    exact ⟨.inl, fun h => h.elim id fun hsa => absurd (hsa.2.trans hnil) s.steps_ne_nil⟩

end Ptpsim.Sim
