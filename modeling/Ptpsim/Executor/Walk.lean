/-
# A run of the PTP executor

The executor walks the steps of a plan one after the other and goes into the
lists inside them. Around every step stand two reports, and against every step
but an await runs a clock. A step that fails ends the walk, unless the step or
one around it has a reason to go on: tolerance, a retry that selects the
failure, a fallback.

The walk is by recursion on the plan; how often a list is run is up to the
construct that it belongs to, which gets the walk of the list as a computation
(`retryFrom`, `forEachFrom`, `chunkFrom`, `awaitRounds`).
-/
import Ptpsim.Executor.Ctx

namespace Ptpsim.Executor

open Ptpsim.Core Config
open Interrupt hiding Exec

/-! ### Activities -/

namespace PtpCtx

variable {τ : Type} (c : PtpCtx τ)

def activityCorrelation : Option (String × UInt32) :=
  c.activeActivity.map fun a => (a.descriptor.id, a.descriptor.version)

def finishActivity (terminal : ActiveActivity → ActivityEvent) : PtpCtx τ :=
  match c.activeActivity with
  | some a => { c.record (.activity (terminal a)) with activeActivity := none }
  | none => c

def finishActivitySuccess : PtpCtx τ :=
  c.finishActivity fun a => .succeeded a.descriptor.id a.descriptor.version a.summary

def activityFailure (e : StepError) : StepFailureKind :=
  if e.cls = .deadline then .deadlineExceeded else .other

def finishActivityFailure (e : StepError) (c : PtpCtx τ) : PtpCtx τ :=
  c.finishActivity fun a =>
    .failed a.descriptor.id a.descriptor.version a.summary (activityFailure e)

/-- A run that is given up drops the activity with it. -/
def cancelActivity : PtpCtx τ :=
  c.finishActivity fun a => .cancelled a.descriptor.id a.descriptor.version a.summary

def startActivity (d : ActivityDescriptor) (c : PtpCtx τ) : PtpCtx τ :=
  { c.finishActivitySuccess.record (.activity (.started d.id d.version)) with
    activeActivity := some ⟨d, 0, none⟩ }

def retryActivity (ordinal limit : ℕ) (e : StepError) (c : PtpCtx τ) : PtpCtx τ :=
  match c.activeActivity with
  | some a =>
    let retry := ⟨ordinal, limit, activityFailure e⟩
    { c.record (.activity (.retrying a.descriptor.id a.descriptor.version retry)) with
      activeActivity := some ⟨a.descriptor, min (a.retryCount + 1) 0xffffffff, some retry⟩ }
  | none => c

end PtpCtx

def ActivityDescriptor.startsAt (d : ActivityDescriptor) (index : UInt32) : Bool :=
  match d.binding with
  | .executorSpan _ startStep _ => startStep = index
  | .host => false

def ActivityDescriptor.endsAfter (d : ActivityDescriptor) (index : UInt32) : Bool :=
  match d.binding with
  | .executorSpan _ _ endStepExclusive => endStepExclusive = index + 1
  | .host => false

section Walk

variable {τ : Type} (setup : Setup) (host : Host τ) (index : ℕ) (step : EntryStep) (here : Path)
  (activity : Option (String × UInt32)) (prop : UInt16)

def activityForStart : Option ActivityDescriptor :=
  setup.activities.find? fun d => ActivityDescriptor.startsAt d (UInt32.ofNat index)

/-- Before the top-level step with the number. -/
def enterActivity (c : PtpCtx τ) : PtpCtx τ :=
  match activityForStart setup index with
  | some d => c.startActivity d
  | none => c

/-- After the top-level step with the number. -/
def leaveActivity (c : PtpCtx τ) : PtpCtx τ :=
  if c.activeActivity.any fun a =>
      ActivityDescriptor.endsAfter a.descriptor (UInt32.ofNat index) then
    c.finishActivitySuccess
  else c

/-! ### One step and its reports -/

def startedReport : StepReport where
  stepPath := here
  verb := stepVerb step
  operation := (stepCodes step setup.runtimeParams).1
  property := (stepCodes step setup.runtimeParams).2
  responseCode := none
  transactionId := none
  tolerant := stepTolerant step
  outcome := .started
  error := none
  attempts := 0
  activity := activity

def terminalReport (outcome : StepOutcome) (error : Option Detail) (attempts : ℕ)
    (txMeta : Option TxMeta) : StepReport where
  stepPath := here
  verb := stepVerb step
  operation := (txMeta.map (·.operation)).or (stepCodes step setup.runtimeParams).1
  property := (txMeta.bind (·.property)).or (stepCodes step setup.runtimeParams).2
  responseCode := txMeta.map (·.responseCode)
  transactionId := txMeta.map (·.transactionId)
  tolerant := stepTolerant step
  outcome := outcome
  error := error
  attempts := attempts
  activity := activity

/-- Every step but an await runs against a clock; an await has a budget of its
own. -/
def withStepClock (body : Exec τ (Option TxMeta)) : Exec τ (Option TxMeta) :=
  match step with
  | .awaitUntil .. => body
  | _ => race body fun clock => fail (clockError here .step defaultStepTimeoutMs clock)

def takeDeferredTolerance : Exec τ (Option StepError) := do
  let c ← get
  modify fun c => { c with deferredTolerance := none }
  pure c.deferredTolerance

/-- The attempts of a retry, which it leaves behind for its report. -/
def takeControlAttempts : Exec τ ℕ :=
  match step with
  | .retry .. => do
    let c ← get
    modify fun c => { c with controlAttempts := none }
    pure (c.controlAttempts.getD 0)
  | _ => pure 0

def countStep : Exec τ PUnit := modify fun c => { c with stepsRun := c.stepsRun + 1 }

def concludeStep (result : Except StepError (Option TxMeta)) : Exec τ (Option TxMeta) := do
  let deferred ← takeDeferredTolerance
  let attempts ← takeControlAttempts step
  match result with
  | .ok txMeta =>
    match deferred with
    | none => do
      countStep
      emit (.report (terminalReport setup step here activity .succeeded none attempts txMeta))
      pure txMeta
    | some e => do
      countStep
      emit (.report (terminalReport setup step here activity .tolerated (some e.detail) attempts
        (e.txMeta.or txMeta)))
      pure (e.txMeta.or txMeta)
  | .error e =>
    if stepTolerant step ∧ e.cls = .response then do
      emit (.resumed step here e)
      countStep
      emit (.report (terminalReport setup step here activity .tolerated (some e.detail) attempts
        e.txMeta))
      pure e.txMeta
    else do
      emit (.report (terminalReport setup step here activity .failed (some e.detail) attempts
        e.txMeta))
      throw (.failed e)

/-- Reports a step before and after its body. -/
def reportStep (body : Exec τ (Option TxMeta)) : Exec τ (Option TxMeta) := do
  let activity := (← get).activityCorrelation
  emit (.report (startedReport setup step here activity))
  modify fun c => { c with controlAttempts := none, deferredTolerance := none }
  let result ← attempt (withStepClock step here body)
  concludeStep setup step here activity result

/-! ### Steps with exchanges -/

def setProperty (value : Int64) (here : Path) : Exec τ (Option TxMeta) :=
  match propertyValueWidth setup.manifest prop with
  | none => fail (.other here (.noScalarWidth prop))
  | some width => do
    let payload ← orFail (fun e => .other here (.tooWide e)) (encodeValue value width)
    let reply ← issue setup host here Op.setDevicePropValue [prop.toUInt32] (some payload)
      (some prop)
    some <$> requireOk here reply

def setPropertyRuntime (slot : String) (ifMissing : MissingRuntimeValue) (here : Path) :
    Exec τ (Option TxMeta) :=
  match setup.runtimeParams slot with
  | none =>
    match ifMissing with
    | .skip => pure none
    | .error => fail (.other here (.slotUnbound slot))
  | some value => do
    let payload ← orFail (fun message => .other here (.runtimeValue message))
      (encodeRuntimePropertyValue setup prop value)
    let reply ← issue setup host here Op.setDevicePropValue [prop.toUInt32] (some payload)
      (some prop)
    some <$> requireOk here reply

def readProperty : Exec τ WireReply :=
  issue setup host here Op.getDevicePropValue [prop.toUInt32] none (some prop)

variable (captures : List CaptureInfo)

def getProperty (here : Path) : Exec τ (Option TxMeta) := do
  let reply ← readProperty setup host here prop
  if reply.txMeta.responseCode ≠ Resp.ok then
    match captureFallbacks captures reply.txMeta.responseCode with
    | some values => do
      let error := responseError here reply.txMeta
      emit (.failed error)
      emit (.resumed step here error)
      modify (bindAll values)
      pure (some reply.txMeta)
    | none => fail (responseError here reply.txMeta)
  else do
    captureProperty setup here prop captures reply.payload
    pure (some reply.txMeta)

def echoProperty (here : Path) : Exec τ (Option TxMeta) := do
  let read ← requireOkReply here (← readProperty setup host here prop)
  captureProperty setup here prop captures read.payload
  let write ← issue setup host here Op.setDevicePropValue [prop.toUInt32] (some read.payload)
    (some prop)
  some <$> requireOk here write

/-- The operation as often as is still to do. -/
def sendOperation (step : EntryStep) (op : UInt16) (params : List UInt32)
    (captures : List CaptureInfo) (here : Path) : ℕ → Option TxMeta → Exec τ (Option TxMeta)
  | 0, last => pure last
  | n + 1, _ => do
    let reply ← issue setup host here op params none none
    if reply.txMeta.responseCode = Resp.ok then do
      applyCaptures here op reply.txMeta.transactionId captures reply.payload
      sendOperation step op params captures here n (some reply.txMeta)
    else do
      let txMeta ← requireOkOrTolerate step here reply
      sendOperation step op params captures here n (some txMeta)

def closeFrame : Exec τ (Option (List UInt8)) :=
  orFail (fun message => .other here (.transportClose message)) setup.transportClose

def openChannel (role : SocketRole) (here : Path) : Exec τ (Option TxMeta) := do
  frameTransport setup here
  transportDeadline host (.openChannel role) defaultOpTimeoutMs here
  pure none

def closeSession (step : EntryStep) (transportClose : Bool) (here : Path) :
    Exec τ (Option TxMeta) := do
  frameTransport setup here
  let reply ← issue setup host here Op.closeSession [] none none
  let txMeta ← requireOkOrTolerate step here reply
  let frame ← if transportClose then closeFrame setup here else pure none
  transportDeadline host (.closeCommandChannel frame) defaultOpTimeoutMs here
  pure (some txMeta)

def reopenSession : Exec τ (Option TxMeta) := do
  frameTransport setup here
  let reply ← issue setup host here Op.closeSession [] none none
  let _ ← requireOkOrTolerate step here reply
  let frame ← closeFrame setup here
  transportDeadline host (.closeCommandChannel frame) defaultOpTimeoutMs here
  let opened ← transportDeadline host .reopenCommandSession defaultOpTimeoutMs here
  let reopened := ⟨⟨Op.openSession, none, opened.responseCode, opened.transactionId⟩, [], none⟩
  some <$> requireOkOrTolerate step here reopened

/-! ### Steps with lists of their own -/

def saturatingAdd (a b : UInt32) : UInt32 := UInt32.ofNat (min (a.toNat + b.toNat) 0xffffffff)

def pause (ms : UInt32) (here : Path) : Exec τ Unit :=
  transportDeadline host (.sleep ms) (saturatingAdd ms defaultOpTimeoutMs) here

/-- Of all failures a retry selects responses it lists and, if it says so,
payloads that cannot be decoded. -/
def retrySelects (codes : List UInt16) (classes : List RetryFailureClass) (e : StepError) : Bool :=
  match e.cls with
  | .response => e.txMeta.any fun m => codes.contains m.responseCode
  | .decode => classes.contains .decode
  | .deadline | .transport | .other => false

/-- After the attempt with the number, when there is no other. -/
def retryGivesUp (selects : StepError → Bool) (hasFallback : Bool)
    (fallback : Exec τ (Option TxMeta)) (number : ℕ) (e : StepError) : Exec τ (Option TxMeta) := do
  modify fun c => { c with controlAttempts := some (number - 1) }
  if selects e && hasFallback then do
    emit (.resumed step here e)
    fallback
  else throw (.failed e)

/-- The attempt with the number, and what follows when it fails. -/
def retryAttempt (primary : Exec τ (Option TxMeta)) (failed : StepError → Exec τ (Option TxMeta))
    (number : ℕ) : Exec τ (Option TxMeta) := do
  emit (.attempt here number)
  match ← attempt primary with
  | .ok txMeta => do
    modify fun c => { c with controlAttempts := some (number - 1) }
    pure txMeta
  | .error e => failed e

/-- The attempt with the number and, after it, as many more as are left. -/
def retryFrom (step : EntryStep) (here : Path) (selects : StepError → Bool) (limit : ℕ)
    (delayMs : UInt32) (primary : Exec τ (Option TxMeta)) (hasFallback : Bool)
    (fallback : Exec τ (Option TxMeta)) : ℕ → ℕ → Exec τ (Option TxMeta)
  | 0, number =>
    retryAttempt here primary (retryGivesUp step here selects hasFallback fallback number) number
  | left + 1, number =>
    retryAttempt here primary (fun e =>
      if selects e then do
        emit (.resumed step here e)
        modify (PtpCtx.retryActivity (number + 1) limit e)
        if 0 < delayMs then pause host delayMs here
        retryFrom step here selects limit delayMs primary hasFallback fallback left (number + 1)
      else retryGivesUp step here selects hasFallback fallback number e) number

def retrySteps (codes : List UInt16) (classes : List RetryFailureClass)
    (maxAttempts delayMs : UInt32) (primary : Exec τ (Option TxMeta)) (hasFallback : Bool)
    (fallback : Exec τ (Option TxMeta)) : Exec τ (Option TxMeta) :=
  let limit := max maxAttempts.toNat 1
  retryFrom host step here (retrySelects codes classes) limit delayMs primary hasFallback fallback
    (limit - 1) 1

/-- The elements from number `index` on; the slot is put back after each
one. -/
def forEachFrom (here : Path) (bind : String) (all : List UInt64)
    (body : ℕ → Exec τ (Option TxMeta)) : List UInt64 → ℕ → Option TxMeta → Exec τ (Option TxMeta)
  | [], _, last => pure last
  | value :: rest, index, _ => do
    let previous := (← get).bindings bind
    modify fun c => c.bindSlot bind (.u64 value)
    emit (.element here all index)
    let result ← attempt (body index)
    modify fun c => c.restore bind previous
    match result with
    | .ok txMeta => do
      emit (.elementDone here index)
      forEachFrom here bind all body rest (index + 1) txMeta
    | .error e => do
      emit (.elementFailed here index)
      throw (.failed e)

def forEachStep (collection bind : String) (body : ℕ → Exec τ (Option TxMeta)) :
    Exec τ (Option TxMeta) := do
  match (← get).collections collection with
  | none => fail (.other here (.collectionUnbound collection))
  | some values =>
    if maxForeachIters < values.length then fail (.other here .collectionTooLong)
    else forEachFrom here bind values body values 0 none

/-- The windows from `offset` on, as long as there may be another one. -/
def chunkFrom (here : Path) (total window : UInt64) (offsetBind lengthBind : String)
    (body : ℕ → Exec τ (Option TxMeta)) : ℕ → UInt64 → ℕ → Option TxMeta → Exec τ (Option TxMeta)
  | 0, offset, _, last =>
    if offset < total then fail (.other here .chunkWindows) else pure last
  | left + 1, offset, index, last =>
    if offset < total then do
      let length := min (total - offset) window
      let oldOffset := (← get).bindings offsetBind
      modify fun c => c.bindSlot offsetBind (.u64 offset)
      let oldLength := (← get).bindings lengthBind
      modify fun c => c.bindSlot lengthBind (.u64 length)
      let result ← attempt (body index)
      modify fun c => (c.restore offsetBind oldOffset).restore lengthBind oldLength
      match result with
      | .ok txMeta =>
        chunkFrom here total window offsetBind lengthBind body left (offset + length) (index + 1)
          txMeta
      | .error e => throw (.failed e)
    else pure last

def slotU64 (slot : String) (error : StepError) : Exec τ UInt64 := do
  match ((← get).bindings slot).bind actionValueU64 with
  | some value => pure value
  | none => fail error

def chunkWindow : ChunkSize → Exec τ UInt64
  | .literal value => pure value.toUInt64
  | .runtime slot => slotU64 slot (.other here (.chunkSizeSlot slot))

/-- Runs the body once for each window. -/
def chunkStep (total : String) (size : ChunkSize) (offsetBind lengthBind : String)
    (body : ℕ → Exec τ (Option TxMeta)) : Exec τ (Option TxMeta) := do
  let total ← slotU64 total (.other here .chunkTotal)
  let window ← chunkWindow here size
  if window = 0 then fail (.other here .chunkSizeZero)
  else chunkFrom here total window offsetBind lengthBind body maxChunkIters 0 0 none

def ifStep (slot : String) (equals : UInt64) (thenSteps elseSteps : Exec τ (Option TxMeta)) :
    Exec τ (Option TxMeta) := do
  let actual ← slotU64 slot (.other here (.ifSlot slot))
  if actual = equals then thenSteps else elseSteps

/-- An event that is lost on a connection that may lose events is made up for
by polling. -/
def awaitFirst : FfiAwaitSource → Exec τ Unit
  | .poll _ => pure ()
  | .event code thenPoll => do
    match ← attempt (awaitEvent setup host code here) with
    | .ok () => pure ()
    | .error e =>
      if setup.eventDelivery = .bestEffort ∧ e.cls = .deadline then do
        emit (.resumed step here e)
        if thenPoll.isNone then fail (.other here .thenPollRequired)
      else throw (.failed e)

/-- The condition holds: the value that was polled last is captured. -/
def awaitDone : Option (UInt16 × WireReply) → Exec τ (Option TxMeta)
  | some (prop, reply) => do
    captureProperty setup here prop captures reply.payload
    pure (some reply.txMeta)
  | none =>
    if captures.isEmpty then pure none else fail (.other here .awaitCapture)

def awaitPoll : Option UInt16 → Exec τ (Option (UInt16 × WireReply))
  | some prop => do
    let reply ← requireOkReply here (← readProperty setup host here prop)
    observeProperty setup here prop reply.payload
    pure (some (prop, reply))
  | none => pure none

def awaitRounds (here : Path) (polled : Option UInt16) (condition : Predicate)
    (captures : List CaptureInfo) (intervalMs : UInt32) (onEach : Exec τ (Option TxMeta)) :
    ℕ → Exec τ (Option TxMeta)
  | 0 => throw (.halted false)
  | n + 1 => do
    let last ← awaitPoll setup host here polled
    let c ← get
    if condition.eval c.observed then awaitDone setup here captures last
    else if polled.isNone then fail (.other here .predicateRejected)
    else do
      let _ ← onEach
      pause host (if intervalMs = 0 then defaultPollIntervalMs else intervalMs) here
      awaitRounds here polled condition captures intervalMs onEach n

def awaitStep (source : FfiAwaitSource) (condition : Predicate) (captures : List CaptureInfo)
    (timeoutMs intervalMs : UInt32) (onEach : Exec τ (Option TxMeta)) : Exec τ (Option TxMeta) :=
  race (do
      awaitFirst setup host step here source
      awaitRounds setup host here source.polled condition captures intervalMs onEach setup.rounds)
    fun clock => fail (clockError here .await (max timeoutMs 1) clock)

/-! ### The walk -/

mutual
/-- The steps from number `index` on. Activities belong to the top level. -/
def walkFrom (topLevel : Bool) :
    List EntryStep → Path → ℕ → Option TxMeta → Exec τ (Option TxMeta)
  | [], _, _, last => pure last
  | step :: rest, path, index, _ => do
    if topLevel then modify (enterActivity setup index)
    let here := path.step index step
    match ← attempt (reportStep setup step here (runStepOnce step here)) with
    | .ok txMeta => do
      if topLevel then modify (leaveActivity index)
      walkFrom topLevel rest path (index + 1) txMeta
    | .error e => do
      if topLevel then modify (PtpCtx.finishActivityFailure e)
      throw (.failed e)

def runStepOnce : EntryStep → Path → Exec τ (Option TxMeta)
  | .setProp prop value _, here => setProperty setup host prop value here
  | .setPropRuntime prop slot ifMissing _, here =>
    setPropertyRuntime setup host prop slot ifMissing here
  | .getProp prop captures tolerant, here =>
    getProperty setup host (.getProp prop captures tolerant) prop captures here
  | .readEcho prop captures _, here => echoProperty setup host prop captures here
  | .sendOp op params captures count tolerant, here => do
    let resolved ← resolveParams setup here params
    sendOperation setup host (.sendOp op params captures count tolerant) op resolved captures here
      (max count.toNat 1) none
  | .openChannel role _, here => openChannel setup host role here
  | .reopenSession tolerant, here => reopenSession setup host (.reopenSession tolerant) here
  | .closeSession transportClose tolerant, here =>
    closeSession setup host (.closeSession transportClose tolerant) transportClose here
  | .awaitUntil source condition onEach captures timeoutMs intervalMs tolerant, here =>
    awaitStep setup host
      (.awaitUntil source condition onEach captures timeoutMs intervalMs tolerant) here source
      condition captures timeoutMs intervalMs (walkFrom false onEach (here.into .onEach) 0 none)
  | .retry steps fallback codes classes maxAttempts delayMs tolerant, here =>
    retrySteps host (.retry steps fallback codes classes maxAttempts delayMs tolerant) here codes
      classes maxAttempts delayMs (walkFrom false steps (here.into .steps) 0 none)
      (!fallback.isEmpty) (walkFrom false fallback (here.into .fallback) 0 none)
  | .forEach collection bind body _, here =>
    forEachStep here collection bind fun index =>
      walkFrom false body (here.into (.forEach index)) 0 none
  | .chunk total size offsetBind lengthBind body _, here =>
    chunkStep here total size offsetBind lengthBind fun index =>
      walkFrom false body (here.into (.chunk index)) 0 none
  | .ifThen slot equals thenSteps _, here =>
    ifStep here slot equals (walkFrom false thenSteps (here.into .then) 0 none) (pure none)
  | .ifElse slot equals thenSteps elseSteps _, here =>
    ifStep here slot equals (walkFrom false thenSteps (here.into .then) 0 none)
      (walkFrom false elseSteps (here.into .else) 0 none)
end

def runStep : Exec τ (Option TxMeta) :=
  reportStep setup step here (runStepOnce setup host step here)

/-! ### The whole run -/

inductive PlanError where
  | unsupported (message : String)
  | step (here : Path) (message : String)
deriving DecidableEq

mutual
/-- A check of every step, before anything is run. -/
def checkFrom (check : EntryStep → Path → Except PlanError Unit) :
    List EntryStep → Path → ℕ → Except PlanError Unit
  | [], _, _ => .ok ()
  | step :: rest, path, index => do
    check step (path.step index step)
    checkInside check step (path.step index step)
    checkFrom check rest path (index + 1)

def checkInside (check : EntryStep → Path → Except PlanError Unit) :
    EntryStep → Path → Except PlanError Unit
  | .awaitUntil _ _ onEach _ _ _ _, here => checkFrom check onEach (here.into .onEach) 0
  | .retry steps fallback _ _ _ _ _, here => do
    checkFrom check steps (here.into .steps) 0
    checkFrom check fallback (here.into .fallback) 0
  | .forEach _ _ body _, here => checkFrom check body (here.into .body) 0
  | .chunk _ _ _ _ body _, here => checkFrom check body (here.into .body) 0
  | .ifThen _ _ thenSteps _, here => checkFrom check thenSteps (here.into .then) 0
  | .ifElse _ _ thenSteps elseSteps _, here => do
    checkFrom check thenSteps (here.into .then) 0
    checkFrom check elseSteps (here.into .else) 0
  | _, _ => .ok ()
end

def checkRuntimeSetProp : Except PlanError Unit :=
  match step with
  | .setPropRuntime prop slot ifMissing _ =>
    match setup.runtimeParams slot with
    | some value =>
      match encodeRuntimePropertyValue setup prop value with
      | .ok _ => .ok ()
      | .error message => .error (.step here message)
    | none =>
      if ifMissing = .skip then .ok ()
      else .error (.step here ("runtime slot " ++ slot ++ " is unbound"))
  | _ => .ok ()

def stepCaptures : EntryStep → List CaptureInfo
  | .getProp _ captures _ | .readEcho _ captures _ | .sendOp _ _ captures _ _
  | .awaitUntil _ _ _ captures _ _ _ => captures
  | _ => []

def checkTransactionIdCaptures : Except PlanError Unit :=
  if (stepCaptures step).any fun capture => capture.source = .transactionId then
    .error (.unsupported (renderPath here ++
      ": transactionId capture requires the host-owned frame transport"))
  else .ok ()

def topPath : Path := [.branch .steps]

/-- Whether the plan can be run over the transport at all. -/
def preflight (steps : List EntryStep) : Except PlanError Unit := do
  match setup.connection.sessionOwnership, setup.backend with
  | some .daemonAttached, .frame =>
    .error (.unsupported "session.ownership daemonAttached cannot enter a frame-based entry point")
  | some .initiatorOwned, .transaction =>
    .error (.unsupported "session.ownership initiatorOwned cannot enter a transaction entry point")
  | _, _ => .ok ()
  match setup.backend, setup.connection.commandFraming with
  | .transaction, _ => checkFrom checkTransactionIdCaptures steps topPath 0
  | .frame, none => .error (.unsupported "connection has no command framing")
  | .frame, some _ => .ok ()
  checkFrom (checkRuntimeSetProp setup) steps topPath 0

/-- How a run ends. A run that the host gives up has no result. -/
inductive RunEnd where
  | finished
  | refused (e : PlanError)
  | failed (e : StepError)
  | abandoned
  | panicked
  | pending
deriving DecidableEq

def PtpCtx.initial (t : τ) : PtpCtx τ := { host := t, bindings := setup.runtimeParams }

/-- The context is dropped at the end, and with it an activity that has not
come to an end. -/
def runSteps (steps : List EntryStep) (t : τ) : RunEnd × PtpCtx τ :=
  match preflight setup steps with
  | .error e => (.refused e, .initial setup t)
  | .ok () =>
    match walkFrom setup host true steps topPath 0 none (.initial setup t) with
    | .ok _ c => (.finished, c.finishActivitySuccess)
    | .error (.failed e) c => (.failed e, c.cancelActivity)
    | .error (.dropped _ _) c => (.abandoned, c.cancelActivity)
    | .error (.halted true) c => (.panicked, c.cancelActivity)
    | .error (.halted false) c => (.pending, c)

end Walk

/-! ### A connection to run on -/

/-- A connection over a daemon, of a camera that nothing is known of. -/
def plainSetup : Setup where
  manifest := { camera := ⟨"Maker", "Model", "1.00", []⟩ }
  encodeText _ _ := .error "no text"
  transportClose := .ok none
  backend := .transaction
  connection := {}
  activities := []
  runtimeParams _ := none
  outputSink := false
  rounds := 8

/-- A daemon that is busy for the first `n` operations. -/
def busyHost (n : ℕ) : Host ℕ where
  answer
    | .execute .., t => (.reply (.ok ⟨if t < n then 0x2019 else Resp.ok, [], none⟩), t + 1)
    | .sleep _, t => (.reply (.ok ()), t)
    | .reserveTransactionId, t | .sendCommandFrame _, t | .nextCommandFrame, t
    | .nextEventFrame _, t | .openChannel _, t | .closeCommandChannel _, t
    | .reopenCommandSession, t | .nextEvent _, t => (.reply (.error .notConnected), t)
  write _ t := (.reply (.ok ()), t)

/-- The retry goes on after the busy reply. -/
example : (runSteps plainSetup (busyHost 1)
    [.retry [.sendOp 0x1001 [] [] 1 false] [] [0x2019] [] 2 0 false] 0).1 = .finished := by
  decide +kernel

end Ptpsim.Executor
