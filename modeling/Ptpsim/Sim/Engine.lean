/-
# The responder engine

The state of the generic PTP responder and the questions it answers about
itself: which dispositions are in effect, whether an operation is available,
what a property is served as, what the camera-initiated queue offers. Nothing
here changes the engine, except for the mode refresh that follows a property
write; `Ptpsim.Sim.Dispatch` and `Ptpsim.Sim.Control` hold the transitions.
-/
import Ptpsim.Config.Lifecycle
import Ptpsim.Sim.CameraQueue
import Ptpsim.Sim.Fault
import Ptpsim.Sim.ObjectQueue
import Ptpsim.Sim.Overlay

namespace Ptpsim.Sim

open Ptpsim.Core Config Primitives Store

def storageId : UInt32 := 0x00010001

/-- The vendor response to arming a live view behind pending objects or an
unfinished stream. -/
def liveViewArmingBlocked : UInt16 := 0xa002

/-- The answer to one operation. A silent camera writes nothing and keeps the
socket open. -/
inductive Reply where
  | response (response : OperationResponse)
  | data (data : List UInt8) (response : OperationResponse)
  | dataStream (source : ByteSource) (response : OperationResponse)
      (completion : Option StreamCompletion)
  | noResponse
  | close
deriving DecidableEq

namespace Reply

def ok (tid : UInt32) : Reply := .response ⟨Resp.ok, tid, []⟩

variable (tid : UInt32)

def err (code : UInt16) : Reply := .response ⟨code, tid, []⟩

def ofData (bytes : List UInt8) : Reply := .data bytes ⟨Resp.ok, tid, []⟩

def ofStream (source : ByteSource) : Reply :=
  .dataStream source ⟨Resp.ok, tid, []⟩ none

def isOk : Reply → Bool
  | response r | data _ r | dataStream _ r _ => r.code = Resp.ok
  | noResponse | close => false

/-- The completion a reply hands to the transport. -/
def completion? : Reply → Option StreamCompletion
  | dataStream _ _ completion => completion
  | _ => none

end Reply

/-- The simulated camera. -/
structure Engine where
  manifest : CameraManifest
  gateSequences : List GateSequence
  store : MediaStore
  state : CameraState
  lifecycle : ConnectionLifecycleTracker := {}
  connection : String := "app"
  transferQueue : Option TransferQueue := none
  liveViewStreamConnection : Option String := none
  cameraInitiatedQueue : Option CameraInitiatedQueue := none
  cameraInitiatedTransferActive : Bool := false
  cameraInitiatedPreModeProbeArmed : Bool := false
  faults : FaultSet := {}
  appliedFault : Option AppliedFault := none
  apOneShotLatch : Bool := false
  apHeldTerm : Bool := false
  auxDescriptorBudget : Option UInt32 := none
  auxDescriptorUsed : UInt32 := 0
  auxManagedUsed : UInt32 := 0

/-- Records a transition; the sequence space of a tracker is not exhausted in
a run. -/
def recordLifecycle (tracker : ConnectionLifecycleTracker)
    (transition : ConnectionLifecycleTransition) : ConnectionLifecycleTracker :=
  match tracker.apply transition with
  | .ok next => next
  | .error _ => tracker

/-! ### Objects -/

variable (manifest : CameraManifest) (store : MediaStore)

def mediaFormat (format : UInt16) : Option MediaFormat :=
  manifest.media.bind fun media => entryForCode media.formats format

/-- The stills of the card, the objects of the camera-initiated queue. -/
def cameraInitiatedMediaHandles : List UInt32 :=
  store.handles.filter fun handle =>
    match store.objectInfo handle with
    | .error _ => false
    | .ok info =>
      info.objectFormat ≠ Format.association &&
        (mediaFormat manifest info.objectFormat).any fun f => f.isPhotosCompatible && !f.isMovie

def storeFileHandles : List UInt32 :=
  store.handles.filter fun handle =>
    match store.objectInfo handle with
    | .error _ => false
    | .ok info => info.objectFormat ≠ Format.association

def objectFormatIsMovie (format : UInt16) : Bool :=
  (mediaFormat manifest format).any (·.isMovie)

def standardObjectQueueHandles : List UInt32 :=
  (storeFileHandles store).filter fun handle =>
    match store.objectInfo handle with
    | .error _ => false
    | .ok info => !objectFormatIsMovie manifest info.objectFormat

/-- The state with the published number of queued objects brought up to
date. -/
def syncCameraInitiatedCounts (queue : Option CameraInitiatedQueue) (s : CameraState) :
    CameraState :=
  match manifest.cameraInitiatedTransfer.bind fun t =>
    parseHexCode t.receive.count.member, queue with
  | some code, some q =>
    let count := min q.remaining 0xffffffff
    let datatype := datatypeOf ((manifest.property code).bind (·.ptype))
    s.insertProp code (typed datatype (Int64.ofNat count))
  | _, _ => s

namespace Engine

/-- An engine with the given gate sequences; `new` compiles them from the
manifest. -/
def newWith (gateSequences : List GateSequence) (manifest : CameraManifest) (store : MediaStore) :
    Engine :=
  let queue := manifest.cameraInitiatedTransfer.map fun _ =>
    CameraInitiatedQueue.new (cameraInitiatedMediaHandles manifest store)
  { manifest := manifest
    gateSequences := gateSequences
    store := store
    state := syncCameraInitiatedCounts manifest queue (CameraState.fromManifest manifest)
    cameraInitiatedQueue := queue }

def new (manifest : CameraManifest) (store : MediaStore) : Engine :=
  newWith (compileGateSequences manifest ++ compileChannelSequences manifest) manifest store

variable (e : Engine) (tid : UInt32) (code : UInt16) (req : OperationRequest)

def objectHandleAvailable (handle : UInt32) : Bool :=
  e.transferQueue.all fun queue => queue.contains handle

def enumeratedObjectHandles : List UInt32 :=
  match e.transferQueue with
  | some queue => queue.availableHandles
  | none => storeFileHandles e.store

/-! ### Gates, dispositions and availability -/

def operationGateReply : Option Reply :=
  ((e.manifest.operation code).bind (·.requiresGate)).bind fun req =>
    if e.state.gates.gateSatisfied req.name then none else some .noResponse

def propertyGateReply : Option Reply :=
  ((e.manifest.property code).bind (·.requiresGate)).bind fun req =>
    if e.state.gates.gateSatisfied req.name then none else some .noResponse

def propertyIsValueless : Bool :=
  (e.manifest.property code).any fun prop =>
    prop.isValueless e.connection e.state.activeMode e.state.observedView

def propertyIsWriteSilent : Bool :=
  (e.manifest.property code).any fun prop =>
    prop.isWriteSilentRefusal e.connection e.state.activeMode e.state.observedView

def operationIsSilent : Bool :=
  (e.manifest.operation code).any fun op =>
    op.isSilentRefusal e.connection e.state.activeMode e.state.observedView

def isPropertyAccessOp : Bool :=
  code = Op.getDevicePropDesc || code = Op.getDevicePropValue || code = Op.setDevicePropValue

/-- The response that refuses a cataloged operation, `none` if it may
proceed. The property operations are not gated by the mode. -/
def operationAvailabilityError : Option UInt16 :=
  if (e.manifest.operation code).isNone then none
  else
    let availability := match e.state.activeMode with
      | some mode =>
        if isPropertyAccessOp code then
          e.manifest.operationAvailablePredetect e.connection code e.state.observedView
        else e.manifest.operationAvailable e.connection mode code e.state.observedView
      | none => e.manifest.operationAvailablePredetect e.connection code e.state.observedView
    match availability with
    | .available => none
    | .blocked => some Resp.generalError
    | .wrongMode | .wrongConnection | .unavailable => some Resp.operationNotSupported

/-! ### Properties -/

def computedPropertyReply : Option Reply :=
  ((e.manifest.property code).bind (·.computed)).map fun computed =>
    let handles := e.enumeratedObjectHandles
    Reply.ofData tid <| encodedBytes <| match computed with
      | .objectCount => Writer.u32 (UInt32.ofNat handles.length)
      | .objectHandles => Writer.ptpArray handles Writer.u32

/-- The records of a composite property: the members' current values, a
literal of the manifest, or a zero. -/
def recordStreamRecords (payload : Payload) : List (UInt16 × PropValue) :=
  let valueWidth := payload.recordWidths.2.2
  payload.members.filterMap fun member => do
    let code ← parseHexCode member.memberCode
    if e.propertyIsValueless code then none
    else
      let encoding := member.encoding valueWidth
      let stored := (e.state.props code).filter (acceptsValue encoding)
      let value := (stored.or (member.simulatorValue.map recordLiteral)).filter
        (acceptsValue encoding)
      return (code, value.getD (recordValueZero encoding))

def recordStreamProperty (payload : Payload) : Except RecordStreamError (List UInt8) := do
  let (countWidth, codeWidth, valueWidth) := payload.recordWidths
  let layout ← RecordStreamLayout.new countWidth codeWidth valueWidth
  let descriptor ← RecordStreamDescriptor.new layout <| payload.members.filterMap fun member =>
    (parseHexCode member.memberCode).map fun code => (code, member.encoding valueWidth)
  typedRecordStream (e.recordStreamRecords payload) descriptor

def deviceInfo : DeviceInfo where
  standardVersion := 100
  vendorExtensionId := 0x000000ff
  model := e.manifest.camera.model
  manufacturer := e.manifest.camera.manufacturer
  deviceVersion := e.manifest.camera.firmware
  serialNumber := (entryFor e.manifest.camera.identities "serialNumber").getD ""
  operationsSupported := (e.manifest.operations.filterMap fun kv => parseHexCode kv.1).filter
    fun code => code = Op.openSession || code = Op.closeSession || code = Op.getDeviceInfo ||
      (e.operationAvailabilityError code).isNone
  devicePropertiesSupported := (e.manifest.properties.filterMap fun kv => parseHexCode kv.1).filter
    fun code => !e.propertyIsValueless code

/-! ### Live view -/

def liveViewAction (connection : String) : Option Action :=
  (e.manifest.connection connection).bind fun c => c.action .startLiveView

def connectionModelsLiveViewStream (connection : String) : Bool :=
  (e.liveViewAction connection).any fun action => actionSendsOp action Op.initiateOpenCapture

def matchesLiveViewArmingWrite (value : Int64) : Bool :=
  ((e.liveViewAction e.connection).bind (·.initiator)).any fun initiator =>
    initiator.steps.any fun step =>
      step.setProp.bind parseHexCode = some code &&
        step.value.bind SetPropValue.asLiteral = some value

def pendingQueueBlocksLiveViewArming : Bool :=
  e.transferQueue.any fun queue => queue.connection = e.connection && queue.available ≠ ∅

def staleStreamBlocksLiveViewArming : Bool :=
  e.liveViewStreamConnection = some e.connection

/-! ### The detected mode -/

def declaredPhase (manifest : CameraManifest) (mode : Option String) : Option Phase :=
  (mode.bind fun path => (entryFor manifest.modes path).bind (·.phase)).map Phase.ofWorkflow

/-- Whether the mode is the one the camera-initiated transfer receives in. -/
def receivesIn (mode : Option String) : Bool :=
  mode.any fun mode => e.manifest.cameraInitiatedTransfer.any fun transfer =>
    transfer.handoff.connection = e.connection && transfer.receive.mode = mode

def featureModeOf (transferActive : Bool) (declared : Option Phase) : Option FeatureMode :=
  if transferActive || declared = some .imageImport then some .imageTransfer
  else if declared = some .liveView || declared = some .streaming then some .liveView
  else none

def currentFeature (tracker : ConnectionLifecycleTracker) : Option FeatureMode :=
  match tracker.snapshot.feature with
  | .confirmed (.active mode) => some mode
  | _ => none

def recordFeatureMode (tracker : ConnectionLifecycleTracker) (mode : Option FeatureMode) :
    ConnectionLifecycleTracker :=
  recordLifecycle tracker <| match mode with
    | some mode => .featureEntered mode
    | none => .featureExited

/-- The phase after the mode has been detected anew, before a mode's declared
phase is looked at. -/
def phaseAfterDetect (transferActive : Bool) : Phase :=
  if transferActive then .queuedReceive
  else if e.state.phase = .queuedReceive then .sessionOpen
  else e.state.phase

/-- Detects the mode from the current property values. A change of mode moves
the phase to the one the new mode declares, and leaving a mode that declares
the import phase resets the gates. -/
def refreshDetectedMode : Engine :=
  let detected := e.manifest.detectMode e.state.observedView
  let transferActive := e.receivesIn detected
  let previousDeclared := declaredPhase e.manifest e.state.activeMode
  let newDeclared := declaredPhase e.manifest detected
  let changed := decide (e.state.activeMode ≠ detected)
  let phase := e.phaseAfterDetect transferActive
  let featureMode := featureModeOf transferActive newDeclared
  { e with
    state := { e.state with
      activeMode := detected
      phase := if changed && !transferActive then newDeclared.getD phase else phase
      gates := if changed && previousDeclared = some .imageImport &&
          newDeclared ≠ some .imageImport then e.state.gates.resetGates else e.state.gates }
    lifecycle := if changed && currentFeature e.lifecycle ≠ featureMode then
      recordFeatureMode e.lifecycle featureMode else e.lifecycle }

/-! ### The camera-initiated transfer -/

/-- What an index selects in the queue. -/
inductive QueueTarget where
  | none
  | head (handle : UInt32)
  | invalid
deriving DecidableEq

def cameraQueueHead : QueueTarget :=
  match e.cameraInitiatedQueue.bind CameraInitiatedQueue.headHandle with
  | some handle => .head handle
  | none => .invalid

def cameraInitiatedMetadataTarget (transfer : CameraInitiatedTransfer) (index : UInt32) :
    QueueTarget :=
  if !e.cameraInitiatedTransferActive || transfer.handoff.connection ≠ e.connection then .none
  else
    let phase := match e.state.phase with
      | .sessionOpen =>
        if e.cameraInitiatedPreModeProbeArmed then
          some CameraInitiatedMetadataPhase.afterCountBeforeModeEntry
        else none
      | .queuedReceive => some .afterModeEntry
      | _ => none
    match phase with
    | none => .none
    | some phase =>
      if transfer.receive.headIndex ≠ index then .invalid
      else if transfer.receive.metadata.phases.contains phase then e.cameraQueueHead
      else .invalid

def cameraInitiatedDataTarget (transfer : CameraInitiatedTransfer) (index : UInt32) : QueueTarget :=
  if !e.cameraInitiatedTransferActive || e.state.phase ≠ .queuedReceive then .none
  else if transfer.receive.headIndex ≠ index then .invalid
  else e.cameraQueueHead

def objectInfoReply (handle : UInt32) : Reply :=
  match e.store.objectInfo handle with
  | .error _ => .err tid Resp.invalidObjectHandle
  | .ok info =>
    match Writer.intoVec info.encode with
    | .error _ => .err tid Resp.generalError
    | .ok bytes => .ofData tid bytes

def cameraInitiatedMetadataReply (target : QueueTarget) : Reply :=
  match target with
  | .head handle => e.objectInfoReply tid handle
  | _ => .err tid Resp.invalidObjectHandle

/-- Request parameter `i`, zero if it is missing. -/
def param (i : ℕ) : UInt32 := (req.params[i]?).getD 0

/-- The 64-bit offset of a partial read, low half first. -/
def partialOffset : UInt64 :=
  (param req 1).toUInt64 ||| ((param req 3).toUInt64 <<< 32)

/-- The number of bytes a partial read reports. -/
def returnedLen (source : ByteSource) : UInt32 := UInt32.ofNat (min source.len.toNat 0xffffffff)

def cameraInitiatedDataReply (target : QueueTarget) : Reply :=
  match target with
  | .head handle =>
    match e.store.readRange handle (partialOffset req) (param req 2) with
    | .error _ => .err req.transactionId Resp.invalidObjectHandle
    | .ok source =>
      let completion := e.cameraInitiatedQueue.bind fun queue =>
        match e.store.objectSize handle with
        | .error _ => none
        | .ok size => some ⟨queue.generation, handle, partialOffset req, source.len, size⟩
      .dataStream source ⟨Resp.ok, req.transactionId, [returnedLen source]⟩ completion
  | _ => .err req.transactionId Resp.invalidObjectHandle

end Engine
end Ptpsim.Sim
