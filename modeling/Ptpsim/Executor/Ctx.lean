/-
# The context of a PTP run

The executor owns the order of the steps and the policy on failures; the wire,
the clock and the sink for outputs belong to the host (`Host`), which may
answer a call in any way at all, and may also let a clock run out while the
call waits. Everything that the run asks for, reports and decides is kept in
the order in which it happens (`PtpCtx.trace`).

This module has the calls of the executor to its host and what it makes of
single answers: exchanges over frames or over typed transactions, captures
into the scope, parameters out of it.
-/
import Ptpsim.Config.Activities
import Ptpsim.Executor.IssueFrames
import Ptpsim.Executor.Plan
import Ptpsim.Executor.StepOperation
import Ptpsim.Lib.Interrupt
import Ptpsim.Sim.PropertyReads

namespace Ptpsim.Executor

open Codec Ptpsim.Core Config Primitives
open Interrupt hiding Exec
open Sim (WireFraming)

def defaultOpTimeoutMs : UInt32 := 10000
def defaultStepTimeoutMs : UInt32 := 60000
def defaultPollIntervalMs : UInt32 := 200
def maxForeachIters : ℕ := 100000
def maxChunkIters : ℕ := 4096

/-! ### Failures -/

/-- What a retry may ask about a failure. -/
inductive FailureClass where
  | response
  | deadline
  | transport
  /-- An OK response whose payload cannot be decoded. -/
  | decode
  | other
deriving DecidableEq

/-- What a clock was set for. -/
inductive Timed where
  | step
  | await
  | transport
deriving DecidableEq

/-- Why a collection cannot be read from a payload. -/
inductive ArrayError where
  | countMissing
  | tooMany (count : ℕ)
  | trailing (excess : ℕ)
  | short (expected count got : ℕ)
deriving DecidableEq

/-- Why a payload cannot be decoded. -/
inductive PayloadError where
  | scalar (e : DecodeError)
  | string (e : DecodeError)
  | objectInfo (e : DecodeError)
  | array (e : ArrayError)
  | records (e : RecordStreamError)
deriving DecidableEq

/-- The reason of a failure, with its data. -/
inductive Detail where
  | deadline (timed : Timed) (ms : UInt32)
  | transport (e : TransportError)
  | issue (e : IssueError)
  | response
  | undecodable (prop : Option UInt16) (e : PayloadError)
  | noScalarWidth (prop : UInt16)
  | tooWide (e : ValueTooWide)
  | runtimeValue (message : String)
  | slotUnbound (slot : String)
  | slotExceedsU32 (slot : String)
  | ifSlot (slot : String)
  | collectionUnbound (collection : String)
  | collectionTooLong
  | chunkTotal
  | chunkSizeSlot (slot : String)
  | chunkSizeZero
  | chunkWindows
  | sessionForbidden
  | frameTransportRequired
  | transportClose (message : String)
  | eventFrame (e : DecodeError)
  | eventMismatch (code : UInt16)
  | thenPollRequired
  | awaitCapture
  | predicateRejected
  | mixedCaptures
  | recordStreamCapture
  | capturePropValue
  | captureObjectInfo
  | captureGetProp
  | diagnostics (prop : UInt16) (skipped : List RecordStreamDiagnostic)
deriving DecidableEq

/-- A failure and the step it stops. -/
structure StepError where
  step : Path
  detail : Detail
  cls : FailureClass
  txMeta : Option TxMeta := none
deriving DecidableEq

/-- A failure of no class of its own. -/
def StepError.other (here : Path) (detail : Detail) : StepError := ⟨here, detail, .other, none⟩

def StepError.decodeFailure (here : Path) (prop : Option UInt16) (e : PayloadError) : StepError :=
  ⟨here, .undecodable prop e, .decode, none⟩

/-- The camera refuses. -/
def responseError (here : Path) (txMeta : TxMeta) : StepError :=
  ⟨here, .response, .response, some txMeta⟩

/-- A timeout counts as a deadline. -/
def transportStepError (here : Path) (e : TransportError) : StepError :=
  match e with
  | .timeout _ => ⟨here, .transport e, .deadline, none⟩
  | _ => ⟨here, .transport e, .transport, none⟩

/-- The clock has run out, or has failed itself. -/
def clockError (here : Path) (timed : Timed) (ms : UInt32) : Except TransportError Unit → StepError
  | .ok () => ⟨here, .deadline timed ms, .deadline, none⟩
  | .error e => transportStepError here e

/-! ### Reports -/

/-- How far a step has come. -/
inductive StepOutcome where
  | started
  | succeeded
  | tolerated
  | failed
deriving DecidableEq

/-- What is told of a step. -/
structure StepReport where
  stepPath : Path
  verb : Verb
  operation : Option UInt16
  property : Option UInt16
  responseCode : Option UInt16
  transactionId : Option UInt32
  tolerant : Bool
  outcome : StepOutcome
  error : Option Detail
  attempts : ℕ
  /-- The id and the version of the activity the step belongs to. -/
  activity : Option (String × UInt32)
deriving DecidableEq

inductive StepFailureKind where
  | deadlineExceeded
  | other
deriving DecidableEq

/-- One retry of an activity. -/
structure ActivityRetry where
  ordinal : ℕ
  limit : ℕ
  failure : StepFailureKind
deriving DecidableEq

/-- The retries of an activity. -/
structure ActivitySummary where
  retryCount : ℕ
  lastRetry : Option ActivityRetry
deriving DecidableEq

/-- What is told of an activity. -/
inductive ActivityEvent where
  | started (id : String) (version : UInt32)
  | retrying (id : String) (version : UInt32) (retry : ActivityRetry)
  | succeeded (id : String) (version : UInt32) (summary : ActivitySummary)
  | failed (id : String) (version : UInt32) (summary : ActivitySummary) (failure : StepFailureKind)
  | cancelled (id : String) (version : UInt32) (summary : ActivitySummary)
deriving DecidableEq

/-- The activity of the current step. -/
structure ActiveActivity where
  descriptor : ActivityDescriptor
  retryCount : ℕ := 0
  lastRetry : Option ActivityRetry := none
deriving DecidableEq

def ActiveActivity.summary (a : ActiveActivity) : ActivitySummary := ⟨a.retryCount, a.lastRetry⟩

/-! ### The host -/

/-- How a session was reopened. -/
structure SessionOpenResult where
  transactionId : UInt32
  responseCode : UInt16
deriving DecidableEq

/-- A transaction the daemon carried out. -/
structure TransactionResult where
  responseCode : UInt16
  params : List UInt32
  dataIn : Option (List UInt8)
deriving DecidableEq

/-- The calls of the two transports, host-owned frames and daemon-owned
transactions. -/
inductive Request where
  | reserveTransactionId
  | sendCommandFrame (frame : List UInt8)
  | nextCommandFrame
  | nextEventFrame (eventCode : UInt16)
  | openChannel (role : SocketRole)
  | closeCommandChannel (transportCloseFrame : Option (List UInt8))
  | reopenCommandSession
  | execute (operation : UInt16) (params : List UInt32) (dataOut : Option (List UInt8))
      (timeoutMs : UInt32)
  | nextEvent (eventCode : UInt16)
  | sleep (ms : UInt32)
deriving DecidableEq

/-- What the host returns for a request. -/
@[reducible] def Request.Reply : Request → Type
  | reserveTransactionId => UInt32
  | nextCommandFrame | nextEventFrame _ => List UInt8
  | reopenCommandSession => SessionOpenResult
  | execute .. => TransactionResult
  | nextEvent _ => UInt16
  | sendCommandFrame _ | openChannel _ | closeCommandChannel _ | sleep _ => Unit

/-- A return, or a clock that runs out first. -/
abbrev HostAnswer (α : Type) := Interrupt.Answered (Except TransportError Unit) α

/-- The world a run talks to. -/
structure Host (τ : Type) where
  answer : (r : Request) → τ → HostAnswer (Except TransportError r.Reply) × τ
  write : DataOutput → τ → HostAnswer (Except String Unit) × τ

/-! ### The context -/

/-- Who frames the transactions. -/
inductive TxnBackend where
  | frame
  | transaction
deriving DecidableEq

/-- Whether events are sure to arrive. -/
inductive EventDelivery where
  | reliable
  | bestEffort
  | none
deriving DecidableEq

/-- What the manifest says about the connection. -/
structure PlanConnection where
  sessionOwnership : Option SessionOwnership := none
  commandFraming : Option WireFraming := none
  eventFraming : Option WireFraming := none
  eventDelivery : Option EventDelivery := none

/-- What does not change during a run. `encodeText` encodes a text for a string
property, `transportClose` is the connection's close frame, and `rounds` bounds
the polls of an await. -/
structure Setup where
  manifest : CameraManifest
  encodeText : UInt16 → String → Except String (List UInt8)
  transportClose : Except String (Option (List UInt8))
  backend : TxnBackend
  connection : PlanConnection
  activities : List ActivityDescriptor
  runtimeParams : Scope
  outputSink : Bool
  rounds : ℕ

namespace Setup

/-- A daemon does its own framing, so that one without any will do. -/
def commandFraming (s : Setup) : WireFraming := s.connection.commandFraming.getD .standard

def eventFraming (s : Setup) : WireFraming := s.connection.eventFraming.getD s.commandFraming

def eventDelivery (s : Setup) : EventDelivery := s.connection.eventDelivery.getD .reliable

end Setup

/-- What happens in a run: a call and its answer, an output, a failure, a step's
going on after one, a report, an activity, an attempt of a retry, and the
elements of a loop. -/
inductive Event where
  | request (r : Request) (answer : HostAnswer (Except TransportError r.Reply))
  | output (o : DataOutput) (answer : HostAnswer (Except String Unit))
  | failed (e : StepError)
  | resumed (step : EntryStep) (here : Path) (e : StepError)
  | report (r : StepReport)
  | activity (e : ActivityEvent)
  | attempt (here : Path) (number : ℕ)
  | element (here : Path) (values : List UInt64) (index : ℕ)
  | elementDone (here : Path) (index : ℕ)
  | elementFailed (here : Path) (index : ℕ)

/-- What a run knows and has done. -/
structure PtpCtx (τ : Type) where
  host : τ
  trace : List Event := []
  activeActivity : Option ActiveActivity := none
  observed : PropView := fun _ => none
  bindings : Scope := fun _ => none
  collections : String → Option (List UInt64) := fun _ => none
  outputs : List DataOutput := []
  stepsRun : ℕ := 0
  controlAttempts : Option ℕ := none
  deferredTolerance : Option StepError := none

/-- Runs that fail with a `StepError`. -/
abbrev Exec (τ : Type) := Interrupt.Exec StepError (Except TransportError Unit) (PtpCtx τ)

namespace PtpCtx

variable {τ : Type} (c : PtpCtx τ)

/-- Appends to the trace. -/
def record (e : Event) : PtpCtx τ := { c with trace := c.trace ++ [e] }

def observe (code : UInt16) (value : Int64) : PtpCtx τ :=
  { c with observed := Function.update c.observed code (some value) }

def bindSlot (slot : String) (value : ActionValue) : PtpCtx τ :=
  { c with bindings := Function.update c.bindings slot (some value) }

/-- The slot as it was before a loop bound it. -/
def restore (slot : String) (previous : Option ActionValue) : PtpCtx τ :=
  { c with bindings := Function.update c.bindings slot previous }

def bindCollection (slot : String) (values : List UInt64) : PtpCtx τ :=
  { c with collections := Function.update c.collections slot (some values) }

end PtpCtx

section Calls

variable {τ : Type} (setup : Setup) (host : Host τ)

def emit (e : Event) : Exec τ PUnit := modify fun c => c.record e

/-- Fails, and leaves it in the trace. -/
def fail {α : Type} (e : StepError) : Exec τ α := do
  emit (.failed e)
  throw (.failed e)

def orFail {ε α : Type} (error : ε → StepError) : Except ε α → Exec τ α
  | .ok a => pure a
  | .error e => fail (error e)

/-- A panic unwinds: nothing on the way out looks at it. -/
def orPanic {ε α : Type} : Except ε α → Exec τ α
  | .ok a => pure a
  | .error _ => throw (.halted true)

/-- Asks the host. -/
def call (r : Request) : Exec τ (Except TransportError r.Reply) := fun c =>
  let (answer, next) := host.answer r c.host
  let c := { c.record (.request r answer) with host := next }
  match answer with
  | .reply a => .ok a c
  | .clock level result => .error (.dropped level result) c

/-- Hands an output to the sink. -/
def writeOutput (o : DataOutput) : Exec τ (Except String Unit) := fun c =>
  let (answer, next) := host.write o c.host
  let c := { c.record (.output o answer) with host := next }
  match answer with
  | .reply a => .ok a c
  | .clock level result => .error (.dropped level result) c

/-- A call against a clock of its own. -/
def transportDeadline (r : Request) (timeoutMs : UInt32) (here : Path) : Exec τ r.Reply :=
  race (do orFail (transportStepError here) (← call host r))
    fun clock => fail (clockError here .transport timeoutMs clock)

/-! ### Exchanges -/

variable (here : Path) (operation prop : UInt16) (payload : List UInt8)

def sendFrame (frame : List UInt8) : Exec τ Unit :=
  transportDeadline host (.sendCommandFrame frame) defaultOpTimeoutMs here

def issueFailure (e : IssueError) : StepError := .other here (.issue e)

/-- Not every encoding error is one of the step. -/
def encoded : Except Service.WireError (List UInt8) → Exec τ (List UInt8)
  | .ok frame => pure frame
  | .error .panicked => throw (.halted true)
  | .error e => fail (issueFailure here (.encode e))

def sendPacket (packet : PtpIpPacket) : Exec τ Unit := do
  let frame ← encoded here (frameEncode setup.commandFraming packet)
  sendFrame host here frame

/-- The data phase, in one frame or two. -/
def sendData (tid : UInt32) (payload : List UInt8) : Exec τ Unit :=
  match setup.commandFraming with
  | .standard => do
    sendPacket setup host here (.startData ⟨tid, UInt64.ofNat payload.length⟩)
    sendPacket setup host here (.endData ⟨tid, payload⟩)
  | .compressed | .usb => do
    let data ← encoded here (buildData setup.commandFraming operation tid payload)
    sendFrame host here data

/-- The receive loop, with the number of frames it may still take. -/
def receive (here : Path) (tid : UInt32) : ℕ → DataPhase → Exec τ Answer
  | 0, _ => fail (issueFailure here (.other "command frame limit exceeded"))
  | n + 1, s => do
    let frame ← transportDeadline host .nextCommandFrame defaultOpTimeoutMs here
    let packet ← orFail (issueFailure here ∘ .decode) (frameDecode setup.commandFraming frame)
    match ← orFail (issueFailure here) (onPacket setup.commandFraming tid s packet) with
    | .more s => receive here tid n s
    | .done response => pure ⟨response, s.payload, s.hadData⟩

/-- The output goes to the sink, or is collected if there is none. -/
def putOutput (txMeta : TxMeta) (output : DataOutput) : Exec τ Unit :=
  if setup.outputSink then do
    orFail (fun message => ⟨here, .issue (.sink message), .other, some txMeta⟩)
      (← writeOutput host output)
  else modify fun c => { c with outputs := c.outputs ++ [output] }

/-- An answer with data or parameters is an output. -/
def putAnswer (txMeta : TxMeta) (payload : List UInt8) (params : List UInt32) (present : Bool) :
    Exec τ WireReply :=
  if present || !params.isEmpty then do
    let output := ⟨renderPath here, txMeta.operation, txMeta.transactionId, payload, params⟩
    putOutput setup host here txMeta output
    pure ⟨txMeta, payload, some output⟩
  else pure ⟨txMeta, payload, none⟩

/-- `issue_frames`: the exchange over frames. -/
def exchangeFrames (params : List UInt32) (dataOut : Option (List UInt8))
    (property : Option UInt16) :
    Exec τ WireReply := do
  let tid ← transportDeadline host .reserveTransactionId defaultOpTimeoutMs here
  sendPacket setup host here
    (.operationRequest ⟨if dataOut.isSome then 2 else 1, operation, tid, params⟩)
  match dataOut with
  | some payload => sendData setup host here operation tid payload
  | none => pure ()
  let answer ← receive setup host here tid maxCommandFrames {}
  putAnswer setup host here ⟨operation, property, answer.response.code, tid⟩ answer.payload
    answer.response.params answer.hadData

/-- The exchange over a typed transaction. -/
def exchangeTyped (params : List UInt32) (dataOut : Option (List UInt8))
    (property : Option UInt16) :
    Exec τ WireReply := do
  let result ← transportDeadline host (.execute operation params dataOut defaultOpTimeoutMs)
    defaultOpTimeoutMs here
  let payload := result.dataIn.getD []
  putAnswer setup host here ⟨operation, property, result.responseCode, 0⟩ payload result.params
    (!payload.isEmpty)

/-- Sends an operation and takes its answer. -/
def issue (params : List UInt32) (dataOut : Option (List UInt8)) (property : Option UInt16) :
    Exec τ WireReply :=
  match setup.backend with
  | .frame => exchangeFrames setup host here operation params dataOut property
  | .transaction => exchangeTyped setup host here operation params dataOut property

/-- Session and channel steps need the frame transport, and a connection that
does not forbid them. -/
def frameTransport : Exec τ Unit :=
  if setup.connection.sessionOwnership = some .daemonAttached then
    fail (.other here .sessionForbidden)
  else if setup.backend = .transaction then fail (.other here .frameTransportRequired)
  else pure ()

/-- Only an OK response goes on. -/
def requireOkReply (reply : WireReply) : Exec τ WireReply :=
  if reply.txMeta.responseCode = Resp.ok then pure reply
  else fail (responseError here reply.txMeta)

def requireOk (reply : WireReply) : Exec τ TxMeta :=
  (·.txMeta) <$> requireOkReply here reply

/-- A tolerant step goes on, and is reported as tolerated later. -/
def requireOkOrTolerate (step : EntryStep) (here : Path) (reply : WireReply) : Exec τ TxMeta :=
  if reply.txMeta.responseCode = Resp.ok then pure reply.txMeta
  else if stepTolerant step then do
    let error := responseError here reply.txMeta
    emit (.failed error)
    emit (.resumed step here error)
    modify fun c => { c with deferredTolerance := some error }
    pure reply.txMeta
  else fail (responseError here reply.txMeta)

/-- Waits for one event, which must be `code`. -/
def awaitEvent (code : UInt16) (here : Path) : Exec τ Unit :=
  match setup.backend with
  | .frame => do
    let frame ← transportDeadline host (.nextEventFrame code) defaultOpTimeoutMs here
    let packet ← orFail (fun e => .other here (.eventFrame e))
      (frameDecode setup.eventFraming frame)
    match packet with
    | .event event =>
      if event.code = code then pure () else fail (.other here (.eventMismatch code))
    | _ => fail (.other here (.eventMismatch code))
  | .transaction => do
    let event ← transportDeadline host (.nextEvent code) defaultOpTimeoutMs here
    if event = code then pure () else fail (.other here (.eventMismatch code))

/-! ### Payloads -/

/-- A scalar at the start of `payload`. -/
def decodeScalar (width : ValueWidth) (payload : List UInt8) : Except DecodeError Int64 :=
  match width with
  | .u8 => (Reader.u8 (Reader.new payload)).map fun r => r.1.toUInt64.toInt64
  | .u16 => (Reader.u16 (Reader.new payload)).map fun r => r.1.toUInt64.toInt64
  | .u32 => (Reader.u32 (Reader.new payload)).map fun r => r.1.toUInt64.toInt64
  | .i16 => (Reader.u16 (Reader.new payload)).map fun r => r.1.toInt16.toInt64
  | .i32 => (Reader.u32 (Reader.new payload)).map fun r => r.1.toInt32.toInt64

/-- The words of four bytes; what is left over at the end is dropped. -/
def wordsOf : List UInt8 → List UInt64
  | a :: b :: c :: d :: rest => UInt64.ofNat (leNat [a, b, c, d]) :: wordsOf rest
  | _ => []

/-- A count and that many words, exactly. -/
def decodeU32Array : Except ArrayError (List UInt64) :=
  if payload.length < 4 then .error .countMissing
  else
    let count := leNat (payload.take 4)
    let expected := 4 + count * 4
    if maxForeachIters < count then .error (.tooMany count)
    else if expected < payload.length then .error (.trailing (payload.length - expected))
    else if payload.length ≠ expected then .error (.short expected count payload.length)
    else .ok (wordsOf (payload.drop 4))

def propertyPayload : Option Payload :=
  (setup.manifest.property prop).bind (·.payload)

def isStringProperty : Bool :=
  (setup.manifest.property prop).any fun p => p.ptype = some "str"

/-- The records of a payload; the parser may panic. -/
def parseRecordStream (bytes : List UInt8) (payload : Payload) :
    Except Panic (Except PayloadError DecodedRecordStream) :=
  match Sim.Engine.streamDescriptor payload with
  | .error e => .ok (.error (.records e))
  | .ok descriptor => (parseTypedRecordStream bytes descriptor).map (·.mapError .records)

/-- A record's value as an observation; an unsigned value beyond the range of
an observation is left out. -/
def ptpValueI64 : PropValue → Option Int64
  | .u64 value => if value.toNat < 2 ^ 63 then some value.toInt64 else none
  | value => Sim.valueToI64 value

/-- The scalar a property's payload holds. -/
def decodeProperty : Exec τ Int64 :=
  match propertyValueWidth setup.manifest prop with
  | none => fail (.other here (.noScalarWidth prop))
  | some width =>
    orFail (fun e => .decodeFailure here (some prop) (.scalar e)) (decodeScalar width payload)

def observeRecords (c : PtpCtx τ) (records : List (UInt16 × PropValue)) : PtpCtx τ :=
  records.foldl (fun c record =>
    match ptpValueI64 record.2 with
    | some value => c.observe record.1 value
    | none => c) c

/-- What a read leaves in `observed`. -/
def observeProperty : Exec τ Unit :=
  match propertyPayload setup prop with
  | some layout => do
    let decoded ← orFail (StepError.decodeFailure here none)
      (← orPanic (parseRecordStream payload layout))
    modify fun c => observeRecords c decoded.records
    if decoded.diagnostics.isEmpty then pure ()
    else modify fun c =>
      { c with deferredTolerance := some (.other here (.diagnostics prop decoded.diagnostics)) }
  | none => do
    let value ← decodeProperty setup here prop payload
    modify fun c => c.observe prop value

/-! ### Captures -/

/-- Binds one array under every capture. -/
def bindCollections (here : Path) (values : List UInt64) : List CaptureInfo → Exec τ Unit
  | [] => pure ()
  | capture :: rest =>
    if capture.source ≠ .ptpU32Array then fail (.other here .mixedCaptures)
    else do
      modify fun c => c.bindCollection capture.bind values
      bindCollections here values rest

/-- Binds one value under every capture. -/
def bindValues (here : Path) (value : ActionValue) : List CaptureInfo → Exec τ Unit
  | [] => pure ()
  | capture :: rest =>
    if capture.source ≠ .propValue then fail (.other here .captureGetProp)
    else do
      modify fun c => c.bindSlot capture.bind value
      bindValues here value rest

/-- A text, or a scalar that is also observed. -/
def captureValue : Exec τ ActionValue :=
  if isStringProperty setup prop then do
    let value ← orFail (fun e => .decodeFailure here (some prop) (.string e))
      ((Reader.ptpString (Reader.new payload)).map (·.1))
    pure (.string value)
  else do
    let value ← decodeProperty setup here prop payload
    modify fun c => c.observe prop value
    pure (.u64 value.toUInt64)

/-- What a `getProp` reads out of its payload. -/
def captureProperty (captures : List CaptureInfo) (payload : List UInt8) : Exec τ Unit :=
  if captures.any fun capture => capture.source = .ptpU32Array then do
    let values ← orFail (fun e => .decodeFailure here (some prop) (.array e))
      (decodeU32Array payload)
    bindCollections here values captures
  else if (propertyPayload setup prop).isSome then
    if !captures.isEmpty then fail (.other here .recordStreamCapture)
    else observeProperty setup here prop payload
  else if captures.isEmpty && (propertyValueWidth setup.manifest prop).isNone &&
      !isStringProperty setup prop then pure ()
  else do
    let value ← captureValue setup here prop payload
    bindValues here value captures

/-- The literals of the captures, if every one of them has one for the
response. -/
def captureFallbacks (captures : List CaptureInfo) (responseCode : UInt16) :
    Option (List (String × UInt64)) :=
  (captures.mapM fun (capture : CaptureInfo) =>
    (capture.fallback.filter fun fallback =>
      fallback.whenResponseCodes.contains responseCode).map fun fallback =>
        (capture.bind, fallback.value)).filter fun values => !values.isEmpty

def bindAll (values : List (String × UInt64)) (c : PtpCtx τ) : PtpCtx τ :=
  values.foldl (fun c value => c.bindSlot value.1 (.u64 value.2)) c

/-- What a capture reads out of a reply. -/
def scalarCapture (tid : UInt32) (payload : List UInt8) : CaptureSource → Exec τ UInt64
  | .objectInfoCompressedSize =>
    if operation ≠ Op.getObjectInfo then fail (.other here .captureObjectInfo)
    else do
      let info ← orFail (fun e => .decodeFailure here none (.objectInfo e))
        (ObjectInfo.decode payload)
      pure info.objectCompressedSize.toUInt64
  | .u32Le => orFail (fun e => .decodeFailure here none (.scalar e))
      ((Reader.u32 (Reader.new payload)).map fun r => r.1.toUInt64)
  | .u64Le => orFail (fun e => .decodeFailure here none (.scalar e))
      ((Reader.u64 (Reader.new payload)).map (·.1))
  | .transactionId => pure tid.toUInt64
  | .propValue | .ptpU32Array => fail (.other here .capturePropValue)

/-- Collections are bound at once, scalars when all captures have been
read. -/
def applyCapturesFrom (here : Path) (operation : UInt16) (tid : UInt32) (payload : List UInt8) :
    List CaptureInfo → List (String × UInt64) → Exec τ Unit
  | [], values => modify (bindAll values)
  | capture :: rest, values =>
    if capture.source = .ptpU32Array then do
      let collection ← orFail (fun e => .decodeFailure here none (.array e))
        (decodeU32Array payload)
      modify fun c => c.bindCollection capture.bind collection
      applyCapturesFrom here operation tid payload rest values
    else do
      let value ← scalarCapture here operation tid payload capture.source
      applyCapturesFrom here operation tid payload rest (values ++ [(capture.bind, value)])

def applyCaptures (tid : UInt32) (captures : List CaptureInfo) (payload : List UInt8) :
    Exec τ Unit :=
  applyCapturesFrom here operation tid payload captures []

/-! ### Parameters -/

/-- A shift by more bits than there are leaves nothing. -/
def transformRuntimeValue (value : UInt64) (shift : UInt32) (mask : Option UInt64) : UInt64 :=
  let shifted := if shift.toNat < 64 then value >>> shift.toUInt64 else 0
  match mask with
  | some mask => shifted &&& mask
  | none => shifted

/-- A literal, or a slot that must fit a word. -/
def resolveParam (bindings : Scope) (here : Path) : StepParam → Except StepError UInt32
  | .literal value => .ok value
  | .runtime slot shift mask =>
    match ((bindings slot).or (setup.runtimeParams slot)).bind actionValueU64 with
    | none => .error (.other here (.slotUnbound slot))
    | some raw =>
      let value := transformRuntimeValue raw shift mask
      if value.toNat < 2 ^ 32 then .ok value.toUInt32
      else .error (.other here (.slotExceedsU32 slot))

def resolveParams (params : List StepParam) : Exec τ (List UInt32) := do
  let c ← get
  orFail id (params.mapM (resolveParam setup c.bindings here))

/-- The bytes a runtime value is written as. -/
def encodeRuntimePropertyValue (value : ActionValue) : Except String (List UInt8) :=
  match setup.manifest.property prop with
  | none => .error "property is undeclared"
  | some property =>
    match value with
    | .u64 value =>
      if property.ptype = some "str" then .error "property requires a string value"
      else
        match propertyValueWidth setup.manifest prop with
        | none => .error "property has no scalar width"
        | some width =>
          if value.toNat < 2 ^ 63 then
            (encodeValue value.toInt64 width).mapError fun _ => "value out of range"
          else .error "property value exceeds i64"
    | .string text =>
      if property.ptype ≠ some "str" then .error "property requires a numeric value"
      else setup.encodeText prop text

end Calls

end Ptpsim.Executor
