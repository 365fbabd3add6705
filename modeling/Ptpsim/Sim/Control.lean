/-
# The control surface of the engine

Everything that changes an engine besides operations: binding a connection,
the end of a transport, overlays, faults, the object queues, responder
mutations, stream completions, events and the auxiliary descriptors.
-/
import Ptpsim.Sim.Dispatch

namespace Ptpsim.Sim

open Ptpsim.Core Config Store

/-- Why a control request is refused. -/
inductive ControlError where
  | propertyNotInManifest (code : UInt16)
  | noEnumDescriptor (code : UInt16)
  | enumValueMismatch (code : UInt16) (value : DescriptorValue) (datatype : UInt16)
  | enumWithoutValues (code : UInt16)
  | noCurrentValue (code : UInt16)
  | currentValueMismatch (code : UInt16) (current : PropValue) (datatype : UInt16)
  | currentValueNotInEnum (code : UInt16) (current : PropValue)
  | queueNotConfigured
  | queueForOtherConnection (configured requested : String)
  | queueNotShutterDriven (connection : String)
  | noLiveViewStream (connection : String)
  | connectionNotPresent (connection : String)
  | doesNotEnumerate (connection : String)
  | noShutterAction (connection : String)
  | noObjectsAvailableTrigger (connection : String)
  | noInitiatorBinding (connection : String)
  | enqueueCountExceedsMax (count : UInt32) (connection : String) (max : UInt32)
  | shutterNotLiteral (connection : String)
  | auxBudgetNotConfigured
  | emfile
  | noManagedConnection
deriving DecidableEq

/-- A change of a property, checked against its type when it was prepared. -/
structure PreparedPropertyTransition where
  target : UInt16
  initial : Option Int64
  terminal : Int64
  settleAfterPolls : UInt32

/-- What a responder action does to the engine. -/
inductive PreparedResponderMutation where
  | enqueueObjects (count : UInt32) (affected : ℕ)
  | propertyTransition (transition : PreparedPropertyTransition)

namespace Engine

/-! ### Connections and transports -/

variable (e : Engine) (connection : String) (code : UInt16) (count : UInt32)

def bindConnection : Engine := { e with connection := connection }

/-- The lifecycle notes of the service: personas, listeners and transports. -/
def noteLifecycle (transition : ConnectionLifecycleTransition) : Engine :=
  { e with lifecycle := recordLifecycle e.lifecycle transition }

/-- The transport that owned the session ended without `CloseSession`. -/
def transportLost : Engine := (e.noteLifecycle .proxyTransportLost).clearSession

def clearSessionAfterTransportEnd : Engine := e.clearSession

/-- Whether the auxiliary socket of the role may be used. -/
def channelReady (role : SocketRole) : Bool :=
  let gate := channelGateName e.connection role
  !(e.gateSequences.any fun sequence => sequence.name = gate) || e.state.gates.gateSatisfied gate

/-! ### Overlays and faults -/

def applyStateOverlay (overlay : StateOverlay) :
    Except OverlayError (AppliedStateOverlay × Engine) := do
  let staged ← stage e.manifest overlay
  let active := staged.cameraInitiatedTransferActive.getD e.cameraInitiatedTransferActive
  let used := match overlay.auxDescriptorBudget with
    | some budget => if e.auxDescriptorUsed > budget then budget else e.auxDescriptorUsed
    | none => e.auxDescriptorUsed
  let reset := overlay.auxReset.getD false
  return (staged.applied, { e with
    state := staged.write e.state
    cameraInitiatedTransferActive := active
    cameraInitiatedPreModeProbeArmed := active && e.cameraInitiatedPreModeProbeArmed
    apOneShotLatch := overlay.apActShortLatch.getD e.apOneShotLatch
    apHeldTerm := overlay.apHeldTerm.getD e.apHeldTerm
    auxDescriptorBudget := overlay.auxDescriptorBudget.or e.auxDescriptorBudget
    auxDescriptorUsed := if reset then 0 else used
    auxManagedUsed := if reset then 0 else e.auxManagedUsed })

def installFault (fault : FaultSpec) : Except FaultMutation.Invalid (UInt64 × Engine) := do
  let (id, faults) ← e.faults.tryInsert fault
  return (id, { e with faults := faults })

def removeFault (id : UInt64) : Bool × Engine :=
  let (removed, faults) := e.faults.remove id
  (removed, { e with faults := faults })

def clearFaults : Engine :=
  { e with faults := e.faults.clear, appliedFault := none }

def takeAppliedFault : Option AppliedFault × Engine :=
  (e.appliedFault, { e with appliedFault := none })

/-! ### Refusals and descriptors -/

def apShouldRefuse : Option (UInt16 × UInt16) × Engine :=
  if e.apHeldTerm then (some (0x0080, 2), e)
  else if e.apOneShotLatch then (some (0x0080, 2), { e with apOneShotLatch := false })
  else (none, e)

def auxOrphanLeak : Except ControlError Engine :=
  match e.auxDescriptorBudget with
  | none => .error .auxBudgetNotConfigured
  | some budget =>
    if e.auxDescriptorUsed ≥ budget then .error .emfile
    else .ok { e with auxDescriptorUsed := e.auxDescriptorUsed + 1 }

def auxManagedOpen : Except ControlError (UInt64 × Engine) :=
  match e.auxDescriptorBudget with
  | none => .error .auxBudgetNotConfigured
  | some budget =>
    if e.auxDescriptorUsed ≥ budget then .error .emfile
    else .ok ((e.auxDescriptorUsed + 1).toUInt64, { e with
      auxDescriptorUsed := e.auxDescriptorUsed + 1
      auxManagedUsed := e.auxManagedUsed + 1 })

def auxManagedClose : Except ControlError Engine :=
  if e.auxManagedUsed = 0 then .error .noManagedConnection
  else .ok { e with
    auxManagedUsed := e.auxManagedUsed - 1
    auxDescriptorUsed := if e.auxDescriptorUsed = 0 then 0 else e.auxDescriptorUsed - 1 }

def auxResetState : Engine :=
  { e with auxDescriptorUsed := 0, auxManagedUsed := 0 }

/-! ### Properties -/

/-- The typed values of an enum descriptor. -/
def enumValues (datatype : UInt16) (values : List DescriptorValue) :
    Except ControlError (List PropValue) :=
  values.mapM fun value => match typedDescriptorValue datatype value with
    | some v => .ok v
    | none => .error (.enumValueMismatch code value datatype)

/-- The value after the current one in the property's enum, the first after
the last. -/
def nextEnumValue : Except ControlError PropValue :=
  match e.manifest.property code with
  | none => .error (.propertyNotInManifest code)
  | some prop =>
    match prop.descriptor.filter fun d => d.form = "enum" with
    | none => .error (.noEnumDescriptor code)
    | some descriptor => do
      let datatype := datatypeOf prop.ptype
      let values ← enumValues code datatype descriptor.values
      if values.isEmpty then throw (.enumWithoutValues code)
      match e.state.props code with
      | none => throw (.noCurrentValue code)
      | some current =>
        if current.datatypeCode ≠ datatype then throw (.currentValueMismatch code current datatype)
        match values.findIdx? fun value => value = current with
        | none => throw (.currentValueNotInEnum code current)
        | some index =>
          match values[(index + 1) % values.length]? with
          | none => throw (.enumWithoutValues code)
          | some next => return next

def advancePropertyToNextEnum : Except ControlError (PropValue × Engine) := do
  let next ← e.nextEnumValue code
  return (next, { e with state := e.state.armEffect code next 0 })

/-! ### The standard object queue -/

/-- The queue of the connection, for the control requests that name it. -/
def queueFor : Except ControlError TransferQueue :=
  match e.transferQueue with
  | none => .error .queueNotConfigured
  | some queue =>
    if queue.connection ≠ connection then
      .error (.queueForOtherConnection queue.connection connection)
    else .ok queue

def enqueueStandardObjects : Except ControlError (ℕ × Engine) :=
  match e.transferQueue with
  | none => .error .queueNotConfigured
  | some queue =>
    let (added, queue) := queue.enqueueCount count
    .ok (added, { e with transferQueue := some queue })

def pendingStandardObjectEnqueue : Except ControlError ℕ :=
  match e.transferQueue with
  | none => .error .queueNotConfigured
  | some queue => .ok (min count.toNat (queue.handles.length - queue.nextIndex))

def preseedStandardObjectQueue : Except ControlError (ℕ × Engine) := do
  let queue ← e.queueFor connection
  let (added, queue) := queue.enqueueCount count
  return (added, { e with transferQueue := some queue })

def preseedShutterBusyResponses (attempts : UInt32) : Except ControlError Engine := do
  let queue ← e.queueFor connection
  if queue.shutterSequence.isNone then throw (.queueNotShutterDriven connection)
  return { e with transferQueue := some { queue with shutterBusyResponsesRemaining := attempts } }

def preseedStaleLiveViewStream : Except ControlError Engine :=
  if e.connectionModelsLiveViewStream connection then
    .ok { e with liveViewStreamConnection := some connection }
  else .error (.noLiveViewStream connection)

/-- The largest number of objects a shutter action announces. -/
def objectsAvailableMax (shutter : Action) : Option UInt32 :=
  (shutter.triggers.filterMap (·.objectsAvailable)).foldl (fun best images => match best with
    | none => some images.max
    | some b => some (max b images.max)) none

/-- The wire sequence of the connection's shutter action, which must be able
to make that many objects available. -/
def shutterSequenceFor (connectionId : String) (connection : Connection) (count : UInt32) :
    Except ControlError (List GateMatcher) :=
  match connection.action .shutter with
  | none => .error (.noShutterAction connectionId)
  | some shutter =>
    match objectsAvailableMax shutter, shutter.initiator with
    | none, _ => .error (.noObjectsAvailableTrigger connectionId)
    | some _, none => .error (.noInitiatorBinding connectionId)
    | some max, some initiator =>
      if count > max then .error (.enqueueCountExceedsMax count connectionId max)
      else
        match matcherSequenceForSteps initiator.steps with
        | none => .error (.shutterNotLiteral connectionId)
        | some sequence => .ok sequence

def configureStandardObjectQueue (connectionId : String) (count : UInt32) :
    Except ControlError Engine :=
  match e.manifest.connection connectionId with
  | none => .error (.connectionNotPresent connectionId)
  | some connection =>
    let enumerates := (connection.action .enumerateObjects).any fun action =>
      actionSendsOp action Op.getObjectHandles
    let handles := standardObjectQueueHandles e.manifest e.store
    if !enumerates then
      if count = 0 then .ok e else .error (.doesNotEnumerate connectionId)
    else if count = 0 then
      .ok { e with transferQueue := some (.startupSeeded connectionId handles) }
    else do
      let sequence ← shutterSequenceFor connectionId connection count
      return { e with transferQueue := some (.shutterSeeded connectionId handles count sequence) }

/-! ### Responder mutations -/

/-- Writes a prepared transition. -/
def applyTransition (manifest : CameraManifest) (t : PreparedPropertyTransition) (s : CameraState) :
    CameraState :=
  let ptype := (manifest.property t.target).bind (·.ptype)
  let s := match t.initial.bind (propertyTransitionValue ptype) with
    | some value => s.insertProp t.target value
    | none => s
  match propertyTransitionValue ptype t.terminal with
  | some value => s.armEffect t.target value t.settleAfterPolls
  | none => s

def applyResponderMutation (prepared : PreparedResponderMutation) : Except ControlError Engine :=
  match prepared with
  | .enqueueObjects count _ =>
    match e.transferQueue with
    | none => .error .queueNotConfigured
    | some queue =>
      let (added, queue) := queue.enqueueCount count
      .ok { e with
        transferQueue := some queue
        state := announceObjects e.manifest (if added > 0 then queue.latest added else []) e.state }
  | .propertyTransition transition =>
    .ok { e with state := applyTransition e.manifest transition e.state }

/-! ### Streams and events -/

/-- A range of the head of the camera-initiated queue has been written. -/
def completeStream (completion : StreamCompletion) : Bool × Engine :=
  match e.cameraInitiatedQueue with
  | none => (false, e)
  | some queue =>
    let (advanced, queue) := queue.complete completion
    (advanced, { e with
      cameraInitiatedQueue := some queue
      state := if advanced then syncCameraInitiatedCounts e.manifest (some queue) e.state
        else e.state })

def takeEvent (e : Engine) (code : UInt16) : Bool × Engine :=
  let (found, state) := e.state.takeEvent code
  (found, { e with state := state })

def drainEvents (e : Engine) : List QueuedEvent × Engine :=
  let (events, state) := e.state.drainEvents
  (events, { e with state := state })

end Engine
end Ptpsim.Sim
