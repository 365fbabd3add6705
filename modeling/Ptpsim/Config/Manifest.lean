/-
# The camera manifest

The part of the manifest the simulator reads: the operation and property
catalogs with their dispositions, effects and emits, the modes with their
detect predicates, the connections with the entry and action steps, the media
formats and the camera-initiated transfer. A map of the manifest is the list
of its entries in key order.
-/
import Ptpsim.Config.Predicate
import Ptpsim.Primitives.RecordStream

namespace Ptpsim.Config

open Primitives (RecordValueEncoding)

/-! ### Operations -/

/-- An operation or property is answered only once the named gate is
satisfied; until then the camera writes no response. -/
structure GateRequirement where
  name : String

inductive OperationKind where
  | executable
  | advertisedOnly
deriving DecidableEq

inductive OperationHandler where
  | propertyStep
  | objectSize
deriving DecidableEq

inductive ScalarEncoding where
  | u32Le
  | u64Le
deriving DecidableEq

/-- A guard on one request parameter. -/
structure ParamEquals where
  index : ℕ
  equals : UInt32

/-- How an operation answers with an object's size. -/
structure ObjectSizeHandler where
  handleParam : ℕ
  encoding : ScalarEncoding
  requiredParams : List ParamEquals := []

/-- Where an effect takes its value from: a shifted and masked request
parameter. -/
structure ParamSource where
  index : ℕ
  shift : UInt32 := 0
  mask : Option UInt64 := none

/-- A property an operation sets. -/
structure OpEffect where
  setProp : String
  value : Int64 := 0
  settleAfterPolls : UInt32 := 0
  fromParam : Option ParamSource := none

/-- A parameter of an emitted event. -/
inductive EmitParam where
  | requestParam (requestParam : ℕ)
  | literal (literal : UInt32)

/-- An event an operation emits. -/
inductive OperationEmit where
  | bare (code : String)
  | detailed (code : String) (params : List EmitParam)

/-- Where a disposition applies. An empty list covers every connection or
mode. -/
structure DispositionScope where
  connections : List String := []
  modes : List String := []
  «when» : Option Predicate := none

/-- The operation is answered OK and does nothing (`silentRefusal`, the only
kind there is for operations). -/
structure OperationDisposition extends DispositionScope

/-- An operation of the camera. -/
structure Operation where
  kind : OperationKind := .executable
  handler : Option OperationHandler := none
  property : Option String := none
  objectSize : Option ObjectSizeHandler := none
  modes : List String := []
  connections : List String := []
  requires : Option Predicate := none
  requiresGate : Option GateRequirement := none
  effects : List OpEffect := []
  emits : List OperationEmit := []
  dispositions : List OperationDisposition := []

/-! ### Properties -/

/-- Who may read or write a property. -/
inductive PropertyAccess where
  | readOnly
  | readWrite
deriving DecidableEq

/-- A quantity of the engine a property serves instead of a stored value. -/
inductive ComputedValue where
  | objectCount
  | objectHandles
deriving DecidableEq

/-- How a property fails to answer. -/
inductive PropertyDispositionKind where
  | valueless
  | silentRefusal
deriving DecidableEq

/-- A disposition, and where it applies. -/
structure PropertyDisposition extends DispositionScope where
  disposition : PropertyDispositionKind

/-- A value a descriptor lists. -/
inductive DescriptorValue where
  | int (value : Int64)
  | str (value : String)
deriving DecidableEq

/-- A property's form and its values. -/
structure Descriptor where
  form : String
  values : List DescriptorValue := []

/-- The widths of a record stream's fields. -/
structure RecordLayout where
  codeWidth : UInt8
  valueWidth : UInt8

inductive RecordValueLiteral where
  | unsigned (value : UInt32)
  | signed (value : Int32)
  | string (value : String)

/-- A record member with its own width or value. -/
structure RecordMemberDetail where
  code : String
  encoding : RecordValueEncoding
  simulatorValue : Option RecordValueLiteral := none

/-- A member of a record-stream property. -/
inductive RecordMember where
  | code (code : String)
  | detailed (detail : RecordMemberDetail)

namespace RecordMember

/-- The member's property code, as text. -/
def memberCode : RecordMember → String
  | code c => c
  | detailed d => d.code

/-- The encoding of the member's values. -/
def encoding (defaultWidth : ℕ) : RecordMember → RecordValueEncoding
  | code _ => .fixed defaultWidth
  | detailed d => d.encoding

/-- The value the simulator starts it with. -/
def simulatorValue : RecordMember → Option RecordValueLiteral
  | code _ => none
  | detailed d => d.simulatorValue

end RecordMember

/-- A property whose value is a stream of its members' records. -/
structure Payload where
  countWidth : Option UInt8 := none
  record : Option RecordLayout := none
  members : List RecordMember := []

/-- The widths of count, code and value. -/
def Payload.recordWidths (p : Payload) : ℕ × ℕ × ℕ :=
  ((p.countWidth.getD 2).toNat, ((p.record.map RecordLayout.codeWidth).getD 2).toNat,
    ((p.record.map RecordLayout.valueWidth).getD 4).toNat)

/-- A raw value, its aliases and what a write stores. -/
structure PropertyValueProfileRow where
  raw : Int64
  aliases : List Int64 := []
  writeStoreRaw : Option Int64 := none

/-- A property's values by connection and mode. -/
structure PropertyValueProfile where
  connection : Option String := none
  mode : Option String := none
  rows : List PropertyValueProfileRow := []

/-- A property of the camera. -/
structure Property where
  ptype : Option String := none
  access : Option PropertyAccess := none
  initialValue : Option DescriptorValue := none
  descriptor : Option Descriptor := none
  payload : Option Payload := none
  computed : Option ComputedValue := none
  valueProfiles : List PropertyValueProfile := []
  requiresGate : Option GateRequirement := none
  dispositions : List PropertyDisposition := []

/-! ### Modes, media and the camera-initiated transfer -/

inductive WorkflowPhase where
  | sessionOpen
  | imageImport
  | liveView
  | streaming
deriving DecidableEq

/-- How a mode is detected, and its phase. -/
structure Mode where
  detect : Option Predicate := none
  phase : Option WorkflowPhase := none

/-- What an object format holds. -/
structure MediaFormat where
  isMovie : Bool := false
  isPhotosCompatible : Bool := false

/-- The media formats of the camera. -/
structure Media where
  formats : List (String × MediaFormat) := []

inductive CameraInitiatedMetadataPhase where
  | afterCountBeforeModeEntry
  | afterModeEntry
deriving DecidableEq

/-- The connection a transfer is handed to. -/
structure CameraInitiatedHandoff where
  connection : String

/-- A member of a record-stream property. -/
structure RecordMemberRef where
  property : String
  member : String

/-- The operation that describes the head. -/
structure CameraInitiatedMetadata where
  operation : String
  phases : List CameraInitiatedMetadataPhase := []

/-- The operation that reads the head. -/
structure CameraInitiatedData where
  operation : String

/-- How the receiver empties the queue. -/
structure CameraInitiatedReceive where
  mode : String
  count : RecordMemberRef
  headIndex : UInt32
  metadata : CameraInitiatedMetadata
  data : CameraInitiatedData

/-- A transfer the camera starts itself. -/
structure CameraInitiatedTransfer where
  handoff : CameraInitiatedHandoff
  receive : CameraInitiatedReceive

/-! ### Steps, actions and connections -/

/-- The channels of a connection. -/
inductive SocketRole where
  | command
  | event
  | liveView
deriving DecidableEq

/-- The role as it appears in messages and gate names. -/
def roleName : SocketRole → String
  | .command => "Command"
  | .event => "Event"
  | .liveView => "LiveView"

/-- What a missing runtime value does. -/
inductive MissingRuntimeValue where
  | error
  | skip
deriving DecidableEq

/-- The value a `setProp` step writes. -/
inductive SetPropValue where
  | literal (value : Int64)
  | runtime (name : String) (ifMissing : MissingRuntimeValue := .error)
deriving DecidableEq

def SetPropValue.asLiteral : SetPropValue → Option Int64
  | literal value => some value
  | runtime _ _ => none

/-- A parameter of a `sendOp` step. -/
inductive StepParam where
  | literal (value : UInt32)
  | runtime (name : String) (shift : UInt32 := 0) (mask : Option UInt64 := none)
deriving DecidableEq

/-- Where a capture reads its value. -/
inductive CaptureSource where
  | objectInfoCompressedSize
  | propValue
  | u32Le
  | u64Le
  | ptpU32Array
  | transactionId
deriving DecidableEq

/-- A literal that is bound instead of a value the camera refuses to give. -/
structure CaptureResponseFallback where
  value : UInt64
  whenResponseCodes : List String

/-- A value a step keeps under a name. -/
structure Capture where
  bind : String
  source : CaptureSource
  fallback : Option CaptureResponseFallback := none

/-- The failures a retry repeats on. -/
inductive RetryFailureClass where
  | decode
deriving DecidableEq

/-- A retry block: the steps to run again, and those to run when the attempts
are used up. -/
structure StepRetry (σ : Type) where
  steps : List σ
  fallback : Option (List σ) := none
  whenResponseCodes : List String := []
  whenFailureClasses : List RetryFailureClass := []
  maxAttempts : UInt32 := 1
  retryDelayMs : UInt32 := 0

/-- What an await observes: a property that it polls, or an event, with a
property to poll from then on. -/
inductive AwaitSource where
  | poll (prop : String)
  | event (code : String) (thenPoll : Option String)
deriving DecidableEq

/-- A wait, with the steps of each round. -/
structure AwaitUntil (σ : Type) where
  source : AwaitSource
  «until» : Predicate
  onEach : List σ := []
  timeoutMs : UInt32 := 0
  intervalMs : UInt32 := 0

/-- The size of a loop's windows. -/
inductive ChunkSize where
  | literal (value : UInt32)
  | runtime (name : String)
deriving DecidableEq

/-- A pass over a captured collection, or over an object window by window. -/
inductive Loop (σ : Type) where
  | forEach (collection bind : String) (body : List σ)
  | chunk (total : String) (size : ChunkSize) (offsetBind lengthBind : String) (body : List σ)

/-- The steps a loop repeats. -/
def Loop.body {σ : Type} : Loop σ → List σ
  | forEach _ _ body => body
  | chunk _ _ _ _ body => body

/-- A choice between two lists of steps. -/
structure IfStep (σ : Type) where
  slot : String := ""
  equals : UInt64 := 0
  thenSteps : List σ := []
  elseSteps : List σ := []

/-- How a step closes the session. -/
structure CloseSession where
  transportClose : Bool := false
deriving DecidableEq

/-- A step: one verb and its modifiers. -/
structure Step where
  setProp : Option String := none
  getProp : Option String := none
  readEcho : Option String := none
  sendOp : Option String := none
  openChannel : Option SocketRole := none
  /-- A marker with no fields of its own. -/
  reopenSession : Option Unit := none
  closeSession : Option CloseSession := none
  value : Option SetPropValue := none
  params : List StepParam := []
  captures : List Capture := []
  startsGate : Option String := none
  completesGate : Option String := none
  tolerant : Bool := false
  «repeat» : UInt32 := 1
  awaitUntil : Option (AwaitUntil Step) := none
  retry : Option (StepRetry Step) := none
  loop : Option (Loop Step) := none
  ifStep : Option (IfStep Step) := none

/-- Whether the responder can recognise the step on the wire: its parameters
are not left to the run. -/
def Step.isSequenceGateMatchable (s : Step) : Bool :=
  if s.setProp.isSome || s.getProp.isSome then true
  else s.sendOp.isSome && s.params.all fun p => match p with
    | .literal _ => true
    | .runtime .. => false

inductive ActionVerb where
  | shutter
  | enumerateObjects
  | getObjectInfo
  | getThumb
  | getObject
  | deleteObject
  | completeObjectTransfer
  | autofocusLock
  | autofocusRelease
  | importObjects
  | readDeviceInfo
  | startLiveView
  | pollLiveView
  | stopLiveView
  | keepalive
deriving DecidableEq

/-- How many objects a trigger offers. -/
structure ObjectsAvailable where
  max : UInt32

/-- What a trigger of an action does. -/
structure ActionEffect where
  objectsAvailable : Option ObjectsAvailable := none

/-- The initiator's steps of an action. -/
structure ActionInitiator where
  steps : List Step := []

/-- An action of a connection. -/
structure Action where
  initiator : Option ActionInitiator := none
  triggers : List ActionEffect := []

inductive ModeEntryExecution where
  | ptp (steps : List Step)
  | reestablishConnection (exitSteps : List Step)
  | userInstruction (instruction : String)

/-- How a mode is entered. -/
structure ModeEntry where
  execution : ModeEntryExecution

/-- A socket of a connection, with the operation that makes it available if it
is not there from the start. -/
structure SocketBinding where
  port : UInt16 := 0
  availableAfter : Option String := none

/-- The sockets of a connection. -/
structure SocketBindings where
  command : SocketBinding
  event : Option SocketBinding := none
  liveView : Option SocketBinding := none

def SocketBindings.bindingFor (b : SocketBindings) : SocketRole → Option SocketBinding
  | .command => some b.command
  | .event => b.event
  | .liveView => b.liveView

def SocketBindings.portFor (b : SocketBindings) (role : SocketRole) : Option UInt16 :=
  (b.bindingFor role).map (·.port)

def SocketBindings.availableAfter (b : SocketBindings) (role : SocketRole) : Option String :=
  (b.bindingFor role).bind (·.availableAfter)

/-- A connection the camera offers. -/
structure Connection where
  bindings : Option SocketBindings := none
  entries : List ModeEntry := []
  actions : List (ActionVerb × Action) := []

def Connection.action (c : Connection) (verb : ActionVerb) : Option Action :=
  (c.actions.find? fun kv => kv.1 = verb).map (·.2)

/-- Who opens and closes the session of a connection. -/
inductive SessionOwnership where
  | initiatorOwned
  | daemonAttached
deriving DecidableEq

/-- Who the camera says it is. -/
structure CameraIdentity where
  manufacturer : String
  model : String
  firmware : String
  identities : List (String × String) := []

/-- A camera as its manifest describes it. -/
structure CameraManifest where
  camera : CameraIdentity
  cameraInitiatedTransfer : Option CameraInitiatedTransfer := none
  operations : List (String × Operation) := []
  properties : List (String × Property) := []
  media : Option Media := none
  /-- The codes of the declared events. -/
  events : List String := []
  modes : List (String × Mode) := []
  connections : List (String × Connection) := []

end Ptpsim.Config
