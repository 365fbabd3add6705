/-
# Operation dispatch

How the engine answers one operation. `route` takes the request through the
session check, the gates, the shutter and camera-initiated interceptions,
availability and silent refusal to the handler of the operation. What comes
out is either an answer that is returned as it is, or one that is completed
first: if it is OK, the sequence gates and the shutter sequence advance and
the operation's effects and events are applied (`applySuccessfulOperation`).
Faults are applied around the dispatch.
-/
import Ptpsim.Sim.Engine

namespace Ptpsim.Sim

open Ptpsim.Core Config Primitives Store

/-! ### Advancing the gates -/

/-- Stores the progress of a sequence, or satisfies its gate if it is
complete. -/
def advanceGateProgress (g : SequenceGates) (sequence : GateSequence) (index progress : ℕ) :
    SequenceGates :=
  if progress ≥ sequence.steps.length then
    (g.satisfyGate sequence.name).setGateProgress sequence.name index 0
  else g.setGateProgress sequence.name index progress

/-- One sequence sees one operation. A sequence that is not continued falls
back to its start, and one that starts clears its gate. -/
def advanceSequence (fits : GateMatcher → Bool) (index : ℕ) (sequence : GateSequence)
    (g : SequenceGates) : SequenceGates :=
  if g.gateSatisfied sequence.name then g
  else
    let progress := g.gateProgress sequence.name index
    if 0 < progress ∧ (sequence.steps[progress]?).any fits then
      advanceGateProgress g sequence index (progress + 1)
    else
      let g := if 0 < progress then g.setGateProgress sequence.name index 0 else g
      if sequence.steps.head?.any fits then
        advanceGateProgress (g.clearGate sequence.name) sequence index 1
      else g

/-- The sequences from `index` on, one after the other. -/
def advanceFrom (fits : GateMatcher → Bool) : ℕ → List GateSequence → SequenceGates → SequenceGates
  | _, [], g => g
  | index, sequence :: rest, g =>
    advanceFrom fits (index + 1) rest (advanceSequence fits index sequence g)

def advanceSequenceGates (fits : GateMatcher → Bool) (sequences : List GateSequence)
    (g : SequenceGates) : SequenceGates :=
  advanceFrom fits 0 sequences g

/-! ### Effects and events -/

variable (params : List UInt32) (manifest : CameraManifest)

/-- The effect's target, value and delay, `none` if its target code or its
request parameter is missing. -/
def effectArming (effect : OpEffect) : Option (UInt16 × Int64 × UInt32) := do
  let target ← parseHexCode effect.setProp
  match effect.fromParam with
  | none => return (target, effect.value, effect.settleAfterPolls)
  | some src =>
    let raw ← params[src.index]?
    let value := (raw.toUInt64 >>> src.shift.toUInt64) &&& src.mask.getD 0xffffffffffffffff
    return (target, value.toInt64, effect.settleAfterPolls)

def applyOpEffects (code : UInt16) (params : List UInt32) (s : CameraState) : CameraState :=
  match manifest.operation code with
  | none => s
  | some op =>
    (op.effects.filterMap (effectArming params)).foldl (fun s (target, value, settle) =>
      let datatype := datatypeOf ((manifest.property target).bind (·.ptype))
      s.armEffect target (typed datatype value) settle) s

def emitParamValue : EmitParam → Option UInt32
  | .requestParam index => params[index]?
  | .literal value => some value

def emitEvent : OperationEmit → Option QueuedEvent
  | .bare hex => (parseHexCode hex).map fun code => ⟨code, []⟩
  | .detailed hex emitParams => do
    let code ← parseHexCode hex
    let resolved ← emitParams.mapM (emitParamValue params)
    return ⟨code, resolved⟩

def applyOpEmits (code : UInt16) (params : List UInt32) (s : CameraState) : CameraState :=
  match manifest.operation code with
  | none => s
  | some op => { s with events := s.events ++ op.emits.filterMap (emitEvent params) }

/-- Whether the manifest declares the object-added event. -/
def declaresObjectAdded : Bool :=
  manifest.events.any fun key => key.toList.map Char.toLower = "0x4002".toList

/-- Announces the handles, if the camera has the event for it. -/
def announceObjects (handles : List UInt32) (s : CameraState) : CameraState :=
  if declaresObjectAdded manifest then
    { s with events := s.events ++ handles.map fun handle => ⟨0x4002, [handle]⟩ }
  else s

/-- The entry that a vendor step moves a property to, up or down its descriptor. -/
def stepTarget (prop : Property) (direction : UInt32) (current : Option PropValue) :
    Option DescriptorValue :=
  let values := (prop.descriptor.map Descriptor.values).getD []
  let index := (current.bind fun current => values.findIdx? fun value =>
    typedDescriptorValue (datatypeOf prop.ptype) value = some current).getD 0
  values[if direction ≠ 0 then min (index + 1) (values.length - 1) else index - 1]?

namespace Engine

variable (e : Engine) (tid : UInt32) (manifest : CameraManifest) (req : OperationRequest)
  (code : UInt16) (dataIn : Option (List UInt8)) (reply : Reply)

/-- The requests the manifest's matchers recognise. -/
def gateMatch (matcher : GateMatcher) : Bool :=
  gateMatchForManifest e.manifest matcher req dataIn

def isCameraInitiatedCountRead : Bool :=
  e.manifest.cameraInitiatedTransfer.any fun transfer =>
    e.cameraInitiatedTransferActive && transfer.handoff.connection = e.connection &&
      e.state.phase = .sessionOpen &&
      transfer.receive.metadata.phases.contains .afterCountBeforeModeEntry &&
      req.code = Op.getDevicePropValue &&
      (parseHexCode transfer.receive.count.property).map UInt16.toUInt32 = req.params.head?

/-- What follows an operation that was answered OK. A silent operation
advances the gates and the shutter sequence, but has no effects and emits no
events. -/
def applySuccessfulOperation (silent : Bool) : Engine :=
  let gates := advanceSequenceGates (e.gateMatch req dataIn) e.gateSequences e.state.gates
  let state := { e.state with gates := gates }
  let state := if silent then state
    else applyOpEmits e.manifest req.code req.params
      (applyOpEffects e.manifest req.code req.params state)
  let shutter := e.transferQueue.map fun queue => queue.followShutter (e.gateMatch req dataIn)
  { e with
    cameraInitiatedPreModeProbeArmed :=
      e.isCameraInitiatedCountRead req || e.cameraInitiatedPreModeProbeArmed
    state := match shutter with
      | some (added, _) => announceObjects e.manifest added state
      | none => state
    transferQueue := shutter.map (·.2) }

/-! ### Property operations -/

/-- What a property write does: it is refused, silently dropped, or stored. -/
inductive WriteOutcome where
  | refused (code : UInt16)
  | dropped
  | stored (value : PropValue)

def normalizedPropertyWrite (datatype : UInt16) (value : PropValue) : PropValue :=
  match valueToI64 value with
  | none => value
  | some raw =>
    let row := (e.manifest.valueProfileFor code e.connection e.state.manifestModePath).bind
      fun profile => profile.rowForWrite raw
    match row with
    | none => value
    | some row => typed datatype (row.writeStoreRaw.getD row.raw)

/-- What a write will do. -/
def writeOutcome : WriteOutcome :=
  match e.manifest.property code with
  | none => .refused Resp.devicePropNotSupported
  | some prop =>
    if prop.access ≠ some .readWrite then .refused Resp.accessDenied
    else if e.propertyIsValueless code then .refused Resp.devicePropNotSupported
    else
      match dataIn with
      | none => .refused Resp.invalidParameter
      | some bytes =>
        match PropValue.decode (datatypeOf prop.ptype) (Reader.new bytes) with
        | .error _ => .refused Resp.invalidParameter
        | .ok (value, _) =>
          let blocked := (valueToI64 value).any fun raw =>
            e.matchesLiveViewArmingWrite code raw &&
              (e.pendingQueueBlocksLiveViewArming || e.staleStreamBlocksLiveViewArming)
          if blocked then .refused liveViewArmingBlocked
          else if e.propertyIsWriteSilent code then .dropped
          else .stored (e.normalizedPropertyWrite code (datatypeOf prop.ptype) value)

def setProp : Reply × Engine :=
  match e.writeOutcome code dataIn with
  | .refused response => (.err tid response, e)
  | .dropped => (.ok tid, e)
  | .stored value =>
    (.ok tid, refreshDetectedMode { e with state := e.state.insertProp code value })

/-- The members of a composite property. -/
def memberCodes : List UInt16 :=
  match (e.manifest.property code).bind (·.payload) with
  | none => []
  | some payload => payload.members.filterMap fun member => parseHexCode member.memberCode

/-- A read polls the pending transitions of the property and its members. -/
def pollProperty : Engine :=
  { e with
    state := (e.memberCodes code).foldl CameraState.resolvePending (e.state.resolvePending code) }

def propertyValueReply : Reply :=
  match (e.manifest.property code).bind (·.payload) with
  | some payload =>
    match e.recordStreamProperty payload with
    | .ok bytes => .ofData tid bytes
    | .error _ => .err tid Resp.generalError
  | none =>
    match e.computedPropertyReply tid code with
    | some reply => reply
    | none =>
      match e.state.props code, e.manifest.property code with
      | some v, _ => .ofData tid (encodedBytes v.encode)
      | none, some prop =>
        .ofData tid (encodedBytes (defaultPropValue (datatypeOf prop.ptype)).encode)
      | none, none => .err tid Resp.devicePropNotSupported

/-! ### Manifest operations -/

/-- The value a vendor step moves a property to. -/
def vendorStepValue (direction : UInt32) (s : CameraState) : Option PropValue := do
  let prop ← manifest.property code
  let target ← stepTarget prop direction (s.props code)
  typedDescriptorValue (datatypeOf prop.ptype) target

def vendorStep (direction : UInt32) (s : CameraState) : CameraState :=
  match vendorStepValue manifest code direction s with
  | some value => s.insertProp code value
  | none => s

def objectSizeOp (op : Operation) (params : List UInt32) : Reply :=
  match op.objectSize with
  | none => .err tid Resp.generalError
  | some handler =>
    if handler.requiredParams.any fun p => params[p.index]? ≠ some p.equals then
      .err tid Resp.invalidParameter
    else
      match params[handler.handleParam]? with
      | none => .err tid Resp.invalidParameter
      | some handle =>
        match e.store.objectSize handle with
        | .error _ => .err tid Resp.invalidObjectHandle
        | .ok size =>
          .ofData tid <| match handler.encoding with
            | .u32Le => leBytes 4 size.toUInt32.toNat
            | .u64Le => leBytes 8 size.toNat

def propertyStepOp (op : Operation) (params : List UInt32) : Reply × Engine :=
  match op.property.bind parseHexCode with
  | none => (.err tid Resp.generalError, e)
  | some code =>
    if e.propertyIsWriteSilent code then (.ok tid, e)
    else if e.propertyIsValueless code then (.err tid Resp.devicePropNotSupported, e)
    else
      (.ok tid, { e with state := vendorStep e.manifest code (params.head?.getD 0) e.state })

def dispatchManifestOp (params : List UInt32) : Reply × Engine :=
  match e.operationAvailabilityError code, e.manifest.operation code with
  | some response, _ => (.err tid response, e)
  | none, none => (.err tid Resp.operationNotSupported, e)
  | none, some op =>
    match op.handler with
    | some .propertyStep => e.propertyStepOp tid op params
    | some .objectSize => (e.objectSizeOp tid op params, e)
    | none => (.ok tid, e)

/-! ### The handlers -/

/-- How the handling of an operation ends: with an answer that is returned at
once, or with one whose success is still to be applied. -/
inductive Handling where
  | returned (reply : Reply)
  | completed (reply : Reply)

def clearSession : Engine :=
  { e with
    state := { e.state with
      gates := e.state.gates.resetGates
      activeMode := none
      sessionOpen := false
      phase := .closed }
    cameraInitiatedPreModeProbeArmed := false }

def openSession : Handling × Engine :=
  let tid := req.transactionId
  if e.state.sessionOpen then (.returned (.err tid Resp.sessionAlreadyOpen), e)
  else if param req 0 = 0 then (.returned (.err tid Resp.invalidParameter), e)
  else
    (.completed (.ok tid), { e with
      state := { e.state with
        gates := e.state.gates.resetGates
        activeMode := none
        sessionOpen := true
        phase := .sessionOpen }
      cameraInitiatedPreModeProbeArmed := false
      lifecycle := recordLifecycle e.lifecycle .ptpSessionOpened })

def closeSession : Handling × Engine :=
  (.completed (.ok req.transactionId),
    clearSession { e with lifecycle := recordLifecycle e.lifecycle .ptpSessionClosed })

def getObjectInfo : Handling :=
  if !e.objectHandleAvailable (param req 0) then
    .returned (.err req.transactionId Resp.invalidObjectHandle)
  else .completed (e.objectInfoReply req.transactionId (param req 0))

def getThumb : Handling :=
  .completed <|
    if !e.objectHandleAvailable (param req 0) then .err req.transactionId Resp.invalidObjectHandle
    else
      match e.store.thumbnail (param req 0) with
      | .ok source => .ofStream req.transactionId source
      | .error _ => .err req.transactionId Resp.invalidObjectHandle

def getPartialObject : Handling :=
  .completed <|
    match e.store.readRange (param req 0) (partialOffset req) (param req 2) with
    | .ok source =>
      .dataStream source ⟨Resp.ok, req.transactionId, [returnedLen source]⟩ none
    | .error _ => .err req.transactionId Resp.invalidObjectHandle

def getObject : Handling :=
  if !e.objectHandleAvailable (param req 0) then
    .returned (.err req.transactionId Resp.invalidObjectHandle)
  else
    let size := match e.store.objectSize (param req 0) with
      | .ok size => size
      | .error _ => 0
    let len := UInt32.ofNat (min size.toNat sizeCeiling)
    match e.store.readRange (param req 0) 0 len with
    | .ok source => .completed (.ofStream req.transactionId source)
    | .error _ => .completed (.err req.transactionId Resp.invalidObjectHandle)

def deleteObject : Handling × Engine :=
  let tid := req.transactionId
  match e.transferQueue with
  | some queue =>
    let (drained, queue) := queue.drain (param req 0)
    (.completed (if drained then .ok tid else .err tid Resp.invalidObjectHandle),
      { e with transferQueue := some queue })
  | none =>
    (.completed (match e.store.objectInfo (param req 0) with
      | .ok _ => .ok tid
      | .error _ => .err tid Resp.invalidObjectHandle), e)

def getDevicePropDesc : Handling :=
  let tid := req.transactionId
  let code := (param req 0).toUInt16
  match e.propertyGateReply code with
  | some reply => .returned reply
  | none =>
    if e.propertyIsValueless code || (e.operationAvailabilityError code).isSome then
      .returned (.err tid Resp.devicePropNotSupported)
    else
      match buildPropDesc e.manifest e.state code with
      | some desc => .completed (.ofData tid (encodedBytes desc.encode))
      | none => .completed (.err tid Resp.devicePropNotSupported)

/-- While an object queue is configured, a computed property is answered
before anything else happens. -/
def getDevicePropValue : Handling × Engine :=
  let tid := req.transactionId
  let code := (param req 0).toUInt16
  match e.propertyGateReply code with
  | some reply => (.returned reply, e)
  | none =>
    match if e.transferQueue.isSome then e.computedPropertyReply tid code else none with
    | some reply => (.returned reply, e)
    | none =>
      if e.propertyIsValueless code then (.returned (.err tid Resp.devicePropNotSupported), e)
      else (.completed ((e.pollProperty code).propertyValueReply tid code), e.pollProperty code)

def terminateOpenCapture : Handling × Engine :=
  (.completed (.ok req.transactionId), { e with
    liveViewStreamConnection := if e.liveViewStreamConnection = some e.connection then none
      else e.liveViewStreamConnection })

def initiateOpenCapture : Handling × Engine :=
  if e.state.phase = .liveView ∨ e.state.phase = .streaming then
    (.completed (.ok req.transactionId), { e with
      state := { e.state with phase := .streaming }
      liveViewStreamConnection := if e.connectionModelsLiveViewStream e.connection then
        some e.connection else e.liveViewStreamConnection })
  else (.completed (.err req.transactionId Resp.generalError), e)

/-- The operation, by its code. -/
def handle : Handling × Engine :=
  let tid := req.transactionId
  if req.code = Op.openSession then e.openSession req
  else if req.code = Op.closeSession then e.closeSession req
  else if req.code = Op.getDeviceInfo then
    (.completed (.ofData tid (encodedBytes e.deviceInfo.encode)), e)
  else if req.code = Op.getStorageIds then
    (.completed (.ofData tid (encodedBytes (Writer.ptpArray [storageId] Writer.u32))), e)
  else if req.code = Op.getObjectHandles then
    (.completed
      (.ofData tid (encodedBytes (Writer.ptpArray e.enumeratedObjectHandles Writer.u32))), e)
  else if req.code = Op.getObjectInfo then (e.getObjectInfo req, e)
  else if req.code = Op.getThumb then (e.getThumb req, e)
  else if req.code = Op.getPartialObject then (e.getPartialObject req, e)
  else if req.code = Op.getObject then (e.getObject req, e)
  else if req.code = Op.deleteObject then e.deleteObject req
  else if req.code = Op.getDevicePropDesc then (e.getDevicePropDesc req, e)
  else if req.code = Op.getDevicePropValue then e.getDevicePropValue req
  else if req.code = Op.setDevicePropValue then
    let (reply, e) := e.setProp tid (param req 0).toUInt16 dataIn
    (.completed reply, e)
  else if req.code = Op.terminateOpenCapture ∧ e.connectionModelsLiveViewStream e.connection then
    e.terminateOpenCapture req
  else if req.code = Op.initiateOpenCapture then e.initiateOpenCapture req
  else
    let (reply, e) := e.dispatchManifestOp tid req.code req.params
    (.completed reply, e)

/-! ### Routing -/

/-- A request that cannot be the metadata probe before the mode entry disarms
it. -/
def prepareCameraInitiatedPreModeProbe : Engine :=
  let keeps := e.manifest.cameraInitiatedTransfer.any fun transfer =>
    e.cameraInitiatedTransferActive && transfer.handoff.connection = e.connection &&
      e.state.phase = .sessionOpen &&
      transfer.receive.metadata.phases.contains .afterCountBeforeModeEntry &&
      parseHexCode transfer.receive.metadata.operation = some req.code
  { e with cameraInitiatedPreModeProbeArmed := keeps && e.cameraInitiatedPreModeProbeArmed }

/-- A capture under way keeps the shutter busy for the seeded number of
repeated requests. -/
def shutterBusyReply : Option (Reply × Engine) := do
  let queue ← e.transferQueue
  let sequence ← queue.shutterSequence
  let captureInFlight := (sequence.take queue.shutterProgress).any fun matcher => match matcher with
    | .sendOp op _ => op = Op.initiateCapture
    | _ => false
  if req.code = Op.initiateCapture ∧ queue.connection = e.connection ∧
      queue.shutterBusyResponsesRemaining ≠ 0 ∧ captureInFlight then
    some (.err req.transactionId Resp.deviceBusy, { e with
      transferQueue := some { queue with
        shutterBusyResponsesRemaining := queue.shutterBusyResponsesRemaining - 1 } })
  else none

def cameraInitiatedMetadataOperation (transfer : CameraInitiatedTransfer) :
    Option (Reply × Engine) :=
  let target := e.cameraInitiatedMetadataTarget transfer (param req 0)
  if parseHexCode transfer.receive.metadata.operation = some req.code ∧ target ≠ .none then
    some (e.cameraInitiatedMetadataReply req.transactionId target, { e with
      cameraInitiatedPreModeProbeArmed :=
        e.cameraInitiatedPreModeProbeArmed && e.state.phase ≠ .sessionOpen })
  else none

def cameraInitiatedDataOperation (transfer : CameraInitiatedTransfer) : Option (Reply × Engine) :=
  let target := e.cameraInitiatedDataTarget transfer (param req 0)
  if parseHexCode transfer.receive.data.operation = some req.code ∧ target ≠ .none then
    some (e.cameraInitiatedDataReply req target, e)
  else none

def cameraInitiatedOperationReply : Option (Reply × Engine) := do
  let transfer ← e.manifest.cameraInitiatedTransfer
  (e.cameraInitiatedMetadataOperation req transfer).or (e.cameraInitiatedDataOperation req transfer)

/-- The operations a camera answers whatever its catalog says. -/
def isBootstrapOp : Bool :=
  code = Op.openSession || code = Op.closeSession || code = Op.getDeviceInfo

/-- The way of a request up to the point where its success is applied.
`silent` is the silent-refusal decision, taken before anything changes. -/
def route (silent : Bool) : Handling × Engine :=
  let tid := req.transactionId
  if !e.state.sessionOpen && req.code ≠ Op.openSession && req.code ≠ Op.getDeviceInfo then
    (.returned (.err tid Resp.sessionNotOpen), e)
  else
    match e.operationGateReply req.code with
    | some reply => (.returned reply, e)
    | none =>
      match e.shutterBusyReply req with
      | some (reply, e) => (.returned reply, e)
      | none =>
        match e.cameraInitiatedOperationReply req with
        | some (reply, e) => (.completed reply, e)
        | none =>
          match if isBootstrapOp req.code then none else e.operationAvailabilityError req.code with
          | some response => (.returned (.err tid response), e)
          | none => if silent then (.returned (.ok tid), e) else e.handle req dataIn

/-- Answers an operation. -/
def dispatchOperation : Reply × Engine :=
  let silent := e.operationIsSilent req.code
  match (e.prepareCameraInitiatedPreModeProbe req).route req dataIn silent with
  | (.returned reply, e) => (reply, e)
  | (.completed reply, e) =>
    (reply, if reply.isOk then e.applySuccessfulOperation req dataIn silent else e)

/-! ### Faults -/

def truncateSource (source : ByteSource) (keep : UInt64) : ByteSource :=
  let len := min keep.toNat source.len.toNat
  match source with
  | .memory bytes => .memory (bytes.take len)
  | .fileRange path offset _ => .fileRange path offset (UInt64.ofNat len)
  | .generated _ seed => .generated (UInt64.ofNat len) seed

def truncateReplyData (keep : UInt64) : Reply :=
  match reply with
  | .data bytes response => .data (bytes.take (min keep.toNat bytes.length)) response
  | .dataStream source response _ => .dataStream (truncateSource source keep) response none
  | other => other

def replaceReplyData (bytes : List UInt8) : Reply :=
  match reply with
  | .data _ response => .data bytes response
  | .dataStream _ response _ => .data bytes response
  | other => other

/-- Another value in the place of the one a property read returned. -/
def replacePropertyReadback (value : Int64) : Reply :=
  let replaced := do
    let raw ← if req.code = Op.getDevicePropValue then req.params.head? else none
    let code ← if raw.toNat < 65536 then some raw.toUInt16 else none
    let prop ← manifest.property code
    propertyTransitionValue prop.ptype value
  match replaced, reply with
  | some v, .data bytes response =>
    match Writer.intoVec v.encode with
    | .ok encoded => .data encoded response
    | .error _ => .data bytes response
  | _, _ => reply

/-- What a fault makes of an answer. -/
def mutateReply (mutation : FaultMutation) (reply : Reply) : Reply :=
  match mutation, reply with
  | .suppress .response, .response _ => .noResponse
  | .truncateData keep, reply => truncateReplyData reply keep
  | .replaceData bytes, reply => replaceReplyData reply bytes
  | .propertyReadback value, reply => replacePropertyReadback manifest req reply value
  | _, reply => reply

/-- The answer of a fault that keeps the operation from being dispatched. -/
def preempted : FaultMutation → Option Reply
  | .failResponse response => some (.err tid response)
  | .close .command => some .close
  | _ => none

/-- The fault that applies to the operation is taken: what is reported of it,
and what it does. -/
def takeFault : (Option AppliedFault × Option FaultMutation) × Engine :=
  let (applied, faults) := e.faults.apply req.code req.params
  let (mutation, faults) := faults.takeAppliedMutation
  ((applied, mutation), { e with faults := faults })

/-- Handles one operation, with the fault that applies to it. -/
def onOperation : Reply × Engine :=
  let ((applied, mutation), e) := e.takeFault req
  let (reply, e) := match mutation.bind (preempted req.transactionId) with
    | some reply => (reply, e)
    | none => e.dispatchOperation req dataIn
  let reply := match mutation with
    | some mutation => mutateReply e.manifest req mutation reply
    | none => reply
  (reply, { e with appliedFault := applied })

/-- The same with a tracker of the caller in the place of the engine's. -/
def onOperationWithConnectionLifecycle (tracker : ConnectionLifecycleTracker)
    (req : OperationRequest) (dataIn : Option (List UInt8)) :
    (Reply × ConnectionLifecycleTracker) × Engine :=
  let (reply, e') := onOperation { e with lifecycle := tracker } req dataIn
  ((reply, e'.lifecycle), { e' with lifecycle := e.lifecycle })

end Engine
end Ptpsim.Sim
