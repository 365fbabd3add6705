/-
# What operations and control requests leave alone

Most of an engine never changes (`Keeps`): its manifest, its gate sequences,
its card. The camera-initiated queue does not change under operations either,
and the session, the mode and the gates not under most control requests
(`KeepsSession`, `Untouched`).

The gates move in two ways only. Routing an operation resets them if a session
was opened or closed or the import mode was left (`Routed`), and an operation
that is answered OK advances them, unless it is one of the two kinds that are
answered at once (`dispatchOperation_cases`): a silent refusal, or a computed
property served from a configured queue.
-/
import Ptpsim.Lib.Fallible
import Ptpsim.Sim.Control

namespace Ptpsim.Sim

open Ptpsim.Core Config Fallible

/-! ### What is left alone -/

/-- The session, the mode and the gates are the same. -/
structure KeepsSession (s s' : CameraState) : Prop where
  sessionOpen : s'.sessionOpen = s.sessionOpen
  activeMode : s'.activeMode = s.activeMode
  gates : s'.gates = s.gates

namespace KeepsSession

variable (manifest : CameraManifest) (s : CameraState) (code : UInt16)

theorem refl : KeepsSession s s := ⟨rfl, rfl, rfl⟩

theorem trans {s₁ s₂ s₃ : CameraState} (h : KeepsSession s₁ s₂) (h' : KeepsSession s₂ s₃) :
    KeepsSession s₁ s₃ :=
  ⟨h'.sessionOpen.trans h.sessionOpen, h'.activeMode.trans h.activeMode, h'.gates.trans h.gates⟩

theorem foldl {α : Type} {f : CameraState → α → CameraState}
    (hf : ∀ s a, KeepsSession s (f s a)) (s : CameraState) (as : List α) :
    KeepsSession s (as.foldl f s) := by
  induction as generalizing s with
  | nil => exact refl s
  | cons a as ih => exact (hf s a).trans (ih (f s a))

theorem armEffect (value : PropValue) (settle : UInt32) :
    KeepsSession s (s.armEffect code value settle) := by
  unfold CameraState.armEffect
  split <;> exact ⟨rfl, rfl, rfl⟩

theorem resolvePending : KeepsSession s (s.resolvePending code) := by
  unfold CameraState.resolvePending
  split
  · exact refl s
  · split <;> exact ⟨rfl, rfl, rfl⟩

theorem applyOpEffects (manifest : CameraManifest) (code : UInt16) (params : List UInt32)
    (s : CameraState) : KeepsSession s (applyOpEffects manifest code params s) := by
  unfold Sim.applyOpEffects
  split
  · exact refl s
  · exact foldl (fun s _ => armEffect s _ _ _) s _

theorem applyOpEmits (manifest : CameraManifest) (code : UInt16) (params : List UInt32)
    (s : CameraState) : KeepsSession s (applyOpEmits manifest code params s) := by
  unfold Sim.applyOpEmits
  split <;> exact ⟨rfl, rfl, rfl⟩

theorem announceObjects (manifest : CameraManifest) (handles : List UInt32) (s : CameraState) :
    KeepsSession s (announceObjects manifest handles s) := by
  unfold Sim.announceObjects
  split <;> exact ⟨rfl, rfl, rfl⟩

theorem vendorStep (direction : UInt32) (s : CameraState) :
    KeepsSession s (Engine.vendorStep manifest code direction s) := by
  unfold Engine.vendorStep
  split <;> exact ⟨rfl, rfl, rfl⟩

theorem applyTransition (t : PreparedPropertyTransition) (s : CameraState) :
    KeepsSession s (Engine.applyTransition manifest t s) := by
  have hi (value : PropValue) : KeepsSession s (s.insertProp t.target value) := ⟨rfl, rfl, rfl⟩
  unfold Engine.applyTransition
  dsimp only
  cases t.initial.bind (propertyTransitionValue ((manifest.property t.target).bind (·.ptype))) with
  | none =>
    split
    · exact armEffect _ _ _ _
    · exact .refl s
  | some value =>
    split
    · exact (hi value).trans (armEffect _ _ _ _)
    · exact hi value

theorem syncCameraInitiatedCounts (manifest : CameraManifest) (queue : Option CameraInitiatedQueue)
    (s : CameraState) : KeepsSession s (syncCameraInitiatedCounts manifest queue s) := by
  unfold Sim.syncCameraInitiatedCounts
  split <;> exact ⟨rfl, rfl, rfl⟩

theorem takeEvent : KeepsSession s (s.takeEvent code).2 := by
  unfold CameraState.takeEvent
  split <;> exact ⟨rfl, rfl, rfl⟩

end KeepsSession

/-- What an engine is set up with stays the same, and so does its
camera-initiated queue. -/
structure Keeps (e e' : Engine) : Prop where
  manifest : e'.manifest = e.manifest
  gateSequences : e'.gateSequences = e.gateSequences
  store : e'.store = e.store
  cameraInitiatedQueue : e'.cameraInitiatedQueue = e.cameraInitiatedQueue

namespace Keeps

theorem refl (e : Engine) : Keeps e e := ⟨rfl, rfl, rfl, rfl⟩

theorem trans {e₁ e₂ e₃ : Engine} (h : Keeps e₁ e₂) (h' : Keeps e₂ e₃) : Keeps e₁ e₃ :=
  ⟨h'.manifest.trans h.manifest, h'.gateSequences.trans h.gateSequences, h'.store.trans h.store,
    h'.cameraInitiatedQueue.trans h.cameraInitiatedQueue⟩

end Keeps

/-- Neither the session nor the gates nor the camera-initiated queue are
touched. -/
structure Untouched (e e' : Engine) : Prop extends Keeps e e' where
  session : KeepsSession e.state e'.state

theorem Untouched.refl (e : Engine) : Untouched e e := ⟨.refl e, .refl e.state⟩

variable {e e' : Engine}

theorem Untouched.of_state (h : Keeps e e') (hs : e'.state = e.state) : Untouched e e' :=
  ⟨h, hs ▸ .refl e.state⟩

/-- Neither the camera state nor a queue is touched. -/
structure Idle (e e' : Engine) : Prop extends Keeps e e' where
  state : e'.state = e.state
  transferQueue : e'.transferQueue = e.transferQueue

theorem Idle.refl (e : Engine) : Idle e e := ⟨.refl e, rfl, rfl⟩

theorem Idle.untouched (h : Idle e e') : Untouched e e' := .of_state h.toKeeps h.state

/-! ### The handlers -/

/-- A mode that declares the import phase is left for one that does not. -/
def leavesImport (manifest : CameraManifest) (previous next : Option String) : Bool :=
  Engine.declaredPhase manifest previous = some .imageImport &&
    Engine.declaredPhase manifest next ≠ some .imageImport

/-- Whether the way from `e` to `next` resets the gates: a session has been
opened or closed, or the import mode has been left. -/
def Engine.resetsGates (e next : Engine) : Bool :=
  e.state.sessionOpen != next.state.sessionOpen ||
    leavesImport e.manifest e.state.activeMode next.state.activeMode

/-- What routing an operation can do to an engine. -/
structure Routed (e e' : Engine) : Prop extends Keeps e e' where
  gates : e'.state.gates = if e.resetsGates e' then {} else e.state.gates

theorem resetsGates_of_keeps (h : KeepsSession e.state e'.state) : e.resetsGates e' = false := by
  rw [Engine.resetsGates, h.sessionOpen, h.activeMode]
  simp [leavesImport]

theorem Untouched.routed (h : Untouched e e') : Routed e e' :=
  ⟨h.toKeeps, by rw [resetsGates_of_keeps h.session, h.session.gates]; rfl⟩

theorem Routed.refl (e : Engine) : Routed e e := (Untouched.refl e).routed

namespace Engine

variable {e : Engine} {req : OperationRequest} {dataIn : Option (List UInt8)}

theorem openSession_routed : Routed e (e.openSession req).2 := by
  unfold openSession
  split
  · exact .refl e
  split
  · exact .refl e
  · refine ⟨⟨rfl, rfl, rfl, rfl⟩, ?_⟩
    simp_all [resetsGates, SequenceGates.resetGates]

theorem closeSession_routed (hopen : e.state.sessionOpen = true) :
    Routed e (e.closeSession req).2 := by
  refine ⟨⟨rfl, rfl, rfl, rfl⟩, ?_⟩
  simp [closeSession, clearSession, resetsGates, hopen, SequenceGates.resetGates]

theorem deleteObject_untouched : Untouched e (e.deleteObject req).2 := by
  unfold deleteObject
  split <;> exact ⟨⟨rfl, rfl, rfl, rfl⟩, ⟨rfl, rfl, rfl⟩⟩

theorem getDevicePropValue_untouched : Untouched e (e.getDevicePropValue req).2 := by
  unfold getDevicePropValue
  dsimp only
  repeat' split
  case h_2.isFalse =>
    exact ⟨⟨rfl, rfl, rfl, rfl⟩,
      (KeepsSession.resolvePending _ _).trans (.foldl KeepsSession.resolvePending _ _)⟩
  all_goals exact .refl e

theorem refreshDetectedMode_routed : Routed e e.refreshDetectedMode := by
  refine ⟨⟨rfl, rfl, rfl, rfl⟩, ?_⟩
  have hr : e.resetsGates e.refreshDetectedMode =
      leavesImport e.manifest e.state.activeMode (e.manifest.detectMode e.state.observedView) := by
    simp [resetsGates, refreshDetectedMode]
  rw [hr]
  by_cases hs : e.state.activeMode = e.manifest.detectMode e.state.observedView
  · simp [refreshDetectedMode, leavesImport, ← hs]
  · simp [refreshDetectedMode, leavesImport, hs, SequenceGates.resetGates]

variable {tid : UInt32} {code : UInt16} {params : List UInt32} {e' : Engine} {c : StreamCompletion}

theorem setProp_routed : Routed e (e.setProp tid code dataIn).2 := by
  unfold setProp
  split
  · exact .refl e
  · exact .refl e
  · exact ⟨⟨rfl, rfl, rfl, rfl⟩, refreshDetectedMode_routed.gates⟩

theorem terminateOpenCapture_untouched : Untouched e (e.terminateOpenCapture req).2 :=
  ⟨⟨rfl, rfl, rfl, rfl⟩, ⟨rfl, rfl, rfl⟩⟩

theorem initiateOpenCapture_untouched : Untouched e (e.initiateOpenCapture req).2 := by
  unfold initiateOpenCapture
  split
  · exact ⟨⟨rfl, rfl, rfl, rfl⟩, ⟨rfl, rfl, rfl⟩⟩
  · exact .refl e

theorem propertyStepOp_untouched {op : Operation} :
    Untouched e (e.propertyStepOp tid op params).2 := by
  unfold propertyStepOp
  repeat' split
  all_goals first | exact .refl e | exact ⟨⟨rfl, rfl, rfl, rfl⟩, .vendorStep _ _ _ _⟩

theorem dispatchManifestOp_untouched : Untouched e (e.dispatchManifestOp tid code params).2 := by
  unfold dispatchManifestOp
  repeat' split
  all_goals first | exact .refl e | exact propertyStepOp_untouched

/-- The handlers, by the code of the request. The operations that only read
the engine are told apart by whether their answer may be returned early. -/
theorem handle_cases {P : Handling × Engine → Prop}
    (hopen : req.code = Op.openSession → P (e.openSession req))
    (hclose : req.code = Op.closeSession → P (e.closeSession req))
    (hdata : ∀ bytes, P (.completed (.ofData req.transactionId bytes), e))
    (hinfo : P (e.getObjectInfo req, e)) (hthumb : P (e.getThumb req, e))
    (hrange : P (e.getPartialObject req, e)) (hobject : P (e.getObject req, e))
    (hdelete : req.code = Op.deleteObject → P (e.deleteObject req))
    (hdesc : P (e.getDevicePropDesc req, e))
    (hvalue : req.code = Op.getDevicePropValue → P (e.getDevicePropValue req))
    (hset : req.code = Op.setDevicePropValue →
      P (.completed (e.setProp req.transactionId (param req 0).toUInt16 dataIn).1,
        (e.setProp req.transactionId (param req 0).toUInt16 dataIn).2))
    (hterminate : P (e.terminateOpenCapture req)) (hinitiate : P (e.initiateOpenCapture req))
    (hmanifest : P (.completed (e.dispatchManifestOp req.transactionId req.code req.params).1,
      (e.dispatchManifestOp req.transactionId req.code req.params).2)) :
    P (e.handle req dataIn) := by
  refine iteInduction hopen fun _ => ?_
  refine iteInduction hclose fun _ => ?_
  refine iteInduction (fun _ => hdata _) fun _ => ?_
  refine iteInduction (fun _ => hdata _) fun _ => ?_
  refine iteInduction (fun _ => hdata _) fun _ => ?_
  refine iteInduction (fun _ => hinfo) fun _ => ?_
  refine iteInduction (fun _ => hthumb) fun _ => ?_
  refine iteInduction (fun _ => hrange) fun _ => ?_
  refine iteInduction (fun _ => hobject) fun _ => ?_
  refine iteInduction hdelete fun _ => ?_
  refine iteInduction (fun _ => hdesc) fun _ => ?_
  refine iteInduction hvalue fun _ => ?_
  refine iteInduction hset fun _ => ?_
  refine iteInduction (fun _ => hterminate) fun _ => ?_
  exact iteInduction (fun _ => hinitiate) fun _ => hmanifest

theorem handle_getDevicePropValue (h : req.code = Op.getDevicePropValue) :
    e.handle req dataIn = e.getDevicePropValue req := by
  unfold handle
  rw [h]
  rfl

theorem handle_getDevicePropDesc (h : req.code = Op.getDevicePropDesc) :
    e.handle req dataIn = (e.getDevicePropDesc req, e) := by
  unfold handle
  rw [h]
  rfl

theorem handle_setDevicePropValue (h : req.code = Op.setDevicePropValue) :
    e.handle req dataIn =
      (.completed (e.setProp req.transactionId (param req 0).toUInt16 dataIn).1,
        (e.setProp req.transactionId (param req 0).toUInt16 dataIn).2) := by
  unfold handle
  rw [h]
  rfl

theorem handle_deleteObject (h : req.code = Op.deleteObject) :
    e.handle req dataIn = e.deleteObject req := by
  unfold handle
  rw [h]
  rfl

/-- The operations that can open or close a session or change the mode. -/
def movesSession (code : UInt16) : Bool :=
  code = Op.openSession || code = Op.closeSession || code = Op.setDevicePropValue

theorem handle_snd {P : Engine → Prop} (hs : ∀ e', Untouched e e' → P e')
    (hopen : req.code = Op.openSession → P (e.openSession req).2)
    (hclose : req.code = Op.closeSession → P (e.closeSession req).2)
    (hset : req.code = Op.setDevicePropValue →
      P (e.setProp req.transactionId (param req 0).toUInt16 dataIn).2) :
    P (e.handle req dataIn).2 := by
  have hr : P e := hs e (.refl e)
  apply handle_cases (P := fun r => P r.2)
  case hopen => exact hopen
  case hclose => exact hclose
  case hset => exact hset
  case hdelete => exact fun _ => hs _ deleteObject_untouched
  case hvalue => exact fun _ => hs _ getDevicePropValue_untouched
  case hterminate => exact hs _ terminateOpenCapture_untouched
  case hinitiate => exact hs _ initiateOpenCapture_untouched
  case hmanifest => exact hs _ dispatchManifestOp_untouched
  -- the others only read the engine
  all_goals first | exact hr | exact fun _ => hr

theorem handle_routed (hopen : req.code = Op.closeSession → e.state.sessionOpen = true) :
    Routed e (e.handle req dataIn).2 := by
  apply handle_snd (P := Routed e)
  · exact fun e' h => h.routed
  · exact fun _ => openSession_routed
  · exact fun hclose => closeSession_routed (hopen hclose)
  · exact fun _ => setProp_routed

theorem handle_untouched (hc : movesSession req.code = false) :
    Untouched e (e.handle req dataIn).2 := by
  simp only [movesSession, Bool.or_eq_false_iff, decide_eq_false_iff_not] at hc
  apply handle_snd (P := Untouched e)
  · exact fun e' h => h
  · exact fun hopen => absurd hopen hc.1.1
  · exact fun hclose => absurd hclose hc.1.2
  · exact fun hset => absurd hset hc.2

/-! ### Routing -/

/-- The engine is the same, up to the latch of the metadata probe and the
number of busy answers left. -/
def Bypassed (e e' : Engine) : Prop :=
  ∃ armed busy, e' = { e with
    cameraInitiatedPreModeProbeArmed := armed
    transferQueue := e.transferQueue.map fun q => { q with shutterBusyResponsesRemaining := busy } }

theorem Bypassed.latch (e : Engine) (armed : Bool) :
    Bypassed e { e with cameraInitiatedPreModeProbeArmed := armed } := by
  cases hq : e.transferQueue with
  | none => exact ⟨armed, 0, by rw [hq]; rfl⟩
  | some q => exact ⟨armed, q.shutterBusyResponsesRemaining, by rw [hq]; rfl⟩

theorem Bypassed.refl (e : Engine) : Bypassed e e :=
  Bypassed.latch e e.cameraInitiatedPreModeProbeArmed

theorem Bypassed.untouched (h : Bypassed e e') : Untouched e e' := by
  obtain ⟨armed, busy, rfl⟩ := h
  exact .of_state ⟨rfl, rfl, rfl, rfl⟩ rfl

theorem shutterBusyReply_eq {reply : Reply} (h : e.shutterBusyReply req = some (reply, e')) :
    reply = .err req.transactionId Resp.deviceBusy ∧ Bypassed e e' := by
  unfold shutterBusyReply at h
  simp only [Option.bind_eq_bind, Option.bind_eq_some_iff, Option.ite_none_right_eq_some,
    Option.some.injEq, Prod.mk.injEq] at h
  obtain ⟨queue, hq, sequence, -, -, rfl, rfl⟩ := h
  exact ⟨rfl, e.cameraInitiatedPreModeProbeArmed, queue.shutterBusyResponsesRemaining - 1, by
    rw [hq]; rfl⟩

/-- A completion that the engine issues for the head of its queue. -/
def Issues (e : Engine) (c : StreamCompletion) : Prop :=
  ∃ q, e.cameraInitiatedQueue = some q ∧ c.generation = q.generation ∧
    q.headHandle = some c.handle ∧ e.store.objectSize c.handle = .ok c.objectSize

/-- The answers that are built for a request by its handler. -/
inductive Plain (tid : UInt32) : Reply → Prop
  | response (code : UInt16) : Plain tid (.err tid code)
  | data (bytes : List UInt8) : Plain tid (.ofData tid bytes)
  | stream (source : Store.ByteSource) : Plain tid (.ofStream tid source)
  | range (source : Store.ByteSource) :
      Plain tid (.dataStream source ⟨Resp.ok, tid, [returnedLen source]⟩ none)
  | noResponse : Plain tid .noResponse

theorem Plain.completion {reply : Reply} (h : Plain tid reply) : reply.completion? = none := by
  cases h <;> rfl

theorem objectInfoReply_isPlain {handle : UInt32} : Plain tid (e.objectInfoReply tid handle) := by
  unfold objectInfoReply
  repeat' split
  all_goals constructor

theorem cameraInitiatedMetadataReply_isPlain {target : QueueTarget} :
    Plain tid (e.cameraInitiatedMetadataReply tid target) := by
  unfold cameraInitiatedMetadataReply
  split
  · exact objectInfoReply_isPlain
  · exact .response _

theorem cameraQueueHead_eq {handle : UInt32} (h : e.cameraQueueHead = .head handle) :
    ∃ q, e.cameraInitiatedQueue = some q ∧ q.headHandle = some handle := by
  unfold cameraQueueHead at h
  split at h
  · rename_i head hh
    cases h
    exact Option.bind_eq_some_iff.mp hh
  · cases h

theorem cameraInitiatedDataTarget_eq {transfer : CameraInitiatedTransfer} {index handle : UInt32}
    (h : e.cameraInitiatedDataTarget transfer index = .head handle) :
    e.cameraQueueHead = .head handle := by
  unfold cameraInitiatedDataTarget at h
  repeat' split at h
  all_goals first | exact h | cases h

theorem cameraInitiatedDataReply_completion {transfer : CameraInitiatedTransfer} {index : UInt32}
    (h : (e.cameraInitiatedDataReply req
      (e.cameraInitiatedDataTarget transfer index)).completion? = some c) : e.Issues c := by
  unfold cameraInitiatedDataReply at h
  split at h
  · rename_i handle ht
    obtain ⟨q, hq, hh⟩ := cameraQueueHead_eq (cameraInitiatedDataTarget_eq ht)
    split at h
    · cases h
    · simp only [Reply.completion?, hq, Option.bind_some] at h
      split at h
      · cases h
      · rename_i size hs
        cases h
        exact ⟨q, hq, rfl, hh, hs⟩
  · cases h

theorem cameraInitiatedOperationReply_eq {reply : Reply}
    (h : e.cameraInitiatedOperationReply req = some (reply, e')) :
    Bypassed e e' ∧ ∀ c, reply.completion? = some c → e.Issues c := by
  obtain ⟨transfer, -, h⟩ := Option.bind_eq_some_iff.mp h
  rcases Option.or_eq_some_iff.mp h with h | ⟨-, h⟩
  · simp only [cameraInitiatedMetadataOperation, Option.ite_none_right_eq_some, Option.some.injEq,
      Prod.mk.injEq] at h
    obtain ⟨-, rfl, rfl⟩ := h
    refine ⟨.latch e _, fun c hc => ?_⟩
    rw [cameraInitiatedMetadataReply_isPlain.completion] at hc
    cases hc
  · simp only [cameraInitiatedDataOperation, Option.ite_none_right_eq_some, Option.some.injEq,
      Prod.mk.injEq] at h
    obtain ⟨-, rfl, rfl⟩ := h
    exact ⟨.refl e, fun c hc => cameraInitiatedDataReply_completion hc⟩

theorem gateReply_eq {requirement : Option GateRequirement} {g : SequenceGates} {reply : Reply}
    (h : (requirement.bind fun req =>
      if g.gateSatisfied req.name then none else some Reply.noResponse) = some reply) :
    reply = .noResponse := by
  obtain ⟨req, -, h⟩ := Option.bind_eq_some_iff.mp h
  split at h <;> cases h
  rfl

theorem operationGateReply_eq {reply : Reply} (h : e.operationGateReply code = some reply) :
    reply = .noResponse :=
  gateReply_eq h

theorem propertyGateReply_eq {reply : Reply} (h : e.propertyGateReply code = some reply) :
    reply = .noResponse :=
  gateReply_eq h

theorem operationAvailabilityError_ne_ok {response : UInt16}
    (h : e.operationAvailabilityError code = some response) : response ≠ Resp.ok := by
  unfold operationAvailabilityError at h
  split at h
  · cases h
  · dsimp only at h
    split at h
    · cases h
    all_goals
      cases h
      decide

variable {silent : Bool}

/-- The ways of a request: refused before it is looked at, intercepted,
silently refused, or handled. -/
theorem route_cases {P : Handling × Engine → Prop}
    (hclosed : P (.returned (.err req.transactionId Resp.sessionNotOpen), e))
    (hgate : P (.returned .noResponse, e))
    (hbusy : ∀ e', Bypassed e e' → P (.returned (.err req.transactionId Resp.deviceBusy), e'))
    (hcamera : ∀ reply e', e.cameraInitiatedOperationReply req = some (reply, e') →
      P (.completed reply, e'))
    (hunavailable : ∀ response, response ≠ Resp.ok →
      P (.returned (.err req.transactionId response), e))
    (hsilent : e.cameraInitiatedOperationReply req = none → silent = true →
      P (.returned (.ok req.transactionId), e))
    (hhandle : (req.code = Op.closeSession → e.state.sessionOpen = true) →
      e.cameraInitiatedOperationReply req = none → silent = false → P (e.handle req dataIn)) :
    P (e.route req dataIn silent) := by
  refine iteInduction (fun _ => hclosed) fun hse => ?_
  split
  · rename_i reply hr
    rw [operationGateReply_eq hr]
    exact hgate
  split
  · rename_i reply e' hr
    obtain ⟨rfl, hb⟩ := shutterBusyReply_eq hr
    exact hbusy e' hb
  split
  · rename_i reply e' hr
    exact hcamera reply e' hr
  rename_i hn
  split
  · rename_i response hre
    rw [Option.ite_none_left_eq_some] at hre
    exact hunavailable response (operationAvailabilityError_ne_ok hre.2)
  · refine iteInduction (fun hs => hsilent hn hs) fun hs => ?_
    refine hhandle (fun hc => ?_) hn (by simpa using hs)
    by_contra hopen
    simp [hc, hopen, Op.closeSession, Op.openSession, Op.getDeviceInfo] at hse

theorem route_snd {P : Engine → Prop} (hs : ∀ e', Untouched e e' → P e')
    (hhandle : (req.code = Op.closeSession → e.state.sessionOpen = true) →
      P (e.handle req dataIn).2) : P (e.route req dataIn silent).2 := by
  have hr : P e := hs e (.refl e)
  apply route_cases (P := fun r => P r.2)
  case hbusy => exact fun e' hb => hs e' hb.untouched
  case hcamera =>
    intro reply e' hre
    obtain ⟨hb, -⟩ := cameraInitiatedOperationReply_eq hre
    exact hs e' hb.untouched
  case hhandle => exact fun hopen _ _ => hhandle hopen
  case hunavailable => exact fun _ _ => hr
  case hsilent => exact fun _ _ => hr
  all_goals exact hr

variable (e req dataIn) in
theorem route_routed (silent : Bool) : Routed e (e.route req dataIn silent).2 :=
  route_snd (fun _ h => h.routed) handle_routed

variable (e req dataIn) in
theorem route_untouched (silent : Bool) (hc : movesSession req.code = false) :
    Untouched e (e.route req dataIn silent).2 :=
  route_snd (fun _ h => h) fun _ => handle_untouched hc

/-- The answer, whichever way the handling ends. -/
def Handling.reply : Handling → Reply
  | returned reply | completed reply => reply

theorem getObjectInfo_isPlain : Plain req.transactionId (e.getObjectInfo req).reply := by
  unfold getObjectInfo
  split
  · exact .response _
  · exact objectInfoReply_isPlain

theorem getThumb_isPlain : Plain req.transactionId (e.getThumb req).reply := by
  unfold getThumb
  repeat' split
  all_goals constructor

theorem getPartialObject_isPlain : Plain req.transactionId (e.getPartialObject req).reply := by
  unfold getPartialObject
  split <;> constructor

theorem getObject_isPlain : Plain req.transactionId (e.getObject req).reply := by
  unfold getObject
  dsimp only
  repeat' split
  all_goals constructor

theorem deleteObject_isPlain : Plain req.transactionId (e.deleteObject req).1.reply := by
  unfold deleteObject
  repeat' split
  all_goals constructor

theorem getDevicePropDesc_isPlain : Plain req.transactionId (e.getDevicePropDesc req).reply := by
  unfold getDevicePropDesc
  dsimp only
  split
  · rename_i reply hr
    rw [propertyGateReply_eq hr]
    exact .noResponse
  · repeat' split
    all_goals constructor

theorem computedPropertyReply_eq {reply : Reply}
    (h : e.computedPropertyReply tid code = some reply) :
    ∃ bytes, reply = .ofData tid bytes := by
  obtain ⟨-, -, rfl⟩ := Option.map_eq_some_iff.mp h
  exact ⟨_, rfl⟩

theorem propertyValueReply_isPlain : Plain tid (e.propertyValueReply tid code) := by
  unfold propertyValueReply
  split
  · split <;> constructor
  · split
    · rename_i reply hr
      obtain ⟨bytes, rfl⟩ := computedPropertyReply_eq hr
      exact .data _
    · split <;> constructor

theorem getDevicePropValue_isPlain :
    Plain req.transactionId (e.getDevicePropValue req).1.reply := by
  unfold getDevicePropValue
  dsimp only
  split
  · rename_i reply hr
    rw [propertyGateReply_eq hr]
    exact .noResponse
  split
  · rename_i reply hr
    rw [Option.ite_none_right_eq_some] at hr
    obtain ⟨bytes, rfl⟩ := computedPropertyReply_eq hr.2
    exact .data _
  split
  · exact .response _
  · exact propertyValueReply_isPlain

theorem dispatchManifestOp_isPlain : Plain tid (e.dispatchManifestOp tid code params).1 := by
  unfold dispatchManifestOp propertyStepOp objectSizeOp
  repeat' split
  all_goals constructor

theorem handle_isPlain : Plain req.transactionId (e.handle req dataIn).1.reply := by
  apply handle_cases (P := fun r => Plain req.transactionId r.1.reply)
  case hopen =>
    intro _
    unfold openSession
    repeat' split
    all_goals constructor
  case hclose => exact fun _ => .response _
  case hdata => exact fun bytes => .data bytes
  case hinfo => exact getObjectInfo_isPlain
  case hthumb => exact getThumb_isPlain
  case hrange => exact getPartialObject_isPlain
  case hobject => exact getObject_isPlain
  case hdelete => exact fun _ => deleteObject_isPlain
  case hdesc => exact getDevicePropDesc_isPlain
  case hvalue => exact fun _ => getDevicePropValue_isPlain
  case hset =>
    intro _
    unfold setProp
    split <;> exact .response _
  case hterminate => exact .response _
  case hinitiate =>
    unfold initiateOpenCapture
    split <;> exact .response _
  case hmanifest => exact dispatchManifestOp_isPlain

/-- No handler issues a completion; only the camera-initiated transfer
does. -/
theorem handle_completion : (e.handle req dataIn).1.reply.completion? = none :=
  handle_isPlain.completion

theorem route_completion (h : (e.route req dataIn silent).1.reply.completion? = some c) :
    e.Issues c := by
  revert h
  apply route_cases (P := fun r => r.1.reply.completion? = some c → e.Issues c)
  case hcamera =>
    intro reply e' hr
    obtain ⟨-, hi⟩ := cameraInitiatedOperationReply_eq hr
    exact hi c
  case hhandle =>
    intro _ _ _ h
    rw [handle_completion] at h
    cases h
  case hbusy => exact fun _ _ h => nomatch h
  case hunavailable => exact fun _ _ h => nomatch h
  case hsilent => exact fun _ _ h => nomatch h
  all_goals exact fun h => nomatch h

/-! ### Answers that are returned at once -/

/-- The operation is silently refused: it is answered OK and nothing else
happens. The camera-initiated transfer comes first. -/
def silentlyRefused (e : Engine) (req : OperationRequest) : Bool :=
  e.operationIsSilent req.code &&
    ((e.prepareCameraInitiatedPreModeProbe req).cameraInitiatedOperationReply req).isNone

/-- The operation reads a computed property while an object queue is
configured. -/
def servedFromQueue (e : Engine) (req : OperationRequest) : Bool :=
  req.code = Op.getDevicePropValue && e.transferQueue.isSome &&
    ((e.manifest.property (param req 0).toUInt16).bind (·.computed)).isSome &&
    ((e.prepareCameraInitiatedPreModeProbe req).cameraInitiatedOperationReply req).isNone

/-- The handler's part of `servedFromQueue`. -/
def servesComputed (e : Engine) (req : OperationRequest) : Prop :=
  req.code = Op.getDevicePropValue ∧ e.transferQueue.isSome = true ∧
    ((e.manifest.property (param req 0).toUInt16).bind (·.computed)).isSome = true

theorem isOk_err (h : code ≠ Resp.ok) : (Reply.err tid code).isOk ≠ true := by
  simpa [Reply.err, Reply.isOk] using h

theorem getDevicePropValue_returned (hc : req.code = Op.getDevicePropValue) {reply : Reply}
    (h : (e.getDevicePropValue req).1 = .returned reply) (hok : reply.isOk = true) :
    e.servesComputed req := by
  unfold getDevicePropValue at h
  dsimp only at h
  split at h
  · rename_i reply' hr
    cases h
    rw [propertyGateReply_eq hr] at hok
    cases hok
  split at h
  · rename_i reply' hr
    rw [Option.ite_none_right_eq_some] at hr
    obtain ⟨computed, hco, -⟩ := Option.map_eq_some_iff.mp hr.2
    exact ⟨hc, hr.1, by rw [hco]; rfl⟩
  split at h
  · cases h
    exact absurd hok (isOk_err (by decide))
  · cases h

theorem getDevicePropValue_served (hs : e.servesComputed req) :
    ∃ reply, (e.getDevicePropValue req).1 = .returned reply := by
  obtain ⟨-, hq, hc⟩ := hs
  obtain ⟨computed, hc⟩ := Option.isSome_iff_exists.mp hc
  unfold getDevicePropValue
  dsimp only
  split
  · exact ⟨_, rfl⟩
  · simp [hq, computedPropertyReply, hc]

/-- A handler returns OK early only for a computed property that is served
from the configured queue. -/
theorem handle_returned {reply : Reply} (h : (e.handle req dataIn).1 = .returned reply)
    (hok : reply.isOk = true) : e.servesComputed req := by
  have herr {code : UInt16} (hc : code ≠ Resp.ok)
      (h : Handling.returned (.err req.transactionId code) = .returned reply) :
      e.servesComputed req := by
    cases h
    exact absurd hok (isOk_err hc)
  revert h
  apply handle_cases (P := fun r => r.1 = .returned reply → e.servesComputed req)
  case hvalue => exact fun hc h => getDevicePropValue_returned hc h hok
  case hopen =>
    intro _
    unfold openSession
    split
    · exact herr (by decide)
    split
    · exact herr (by decide)
    · rintro ⟨⟩
  case hinfo =>
    unfold getObjectInfo
    split
    · exact herr (by decide)
    · rintro ⟨⟩
  case hobject =>
    unfold getObject
    split
    · exact herr (by decide)
    · dsimp only
      split <;> rintro ⟨⟩
  case hdesc =>
    unfold getDevicePropDesc
    dsimp only
    split
    · rename_i reply' hr
      rw [propertyGateReply_eq hr]
      rintro ⟨⟩
      cases hok
    split
    · exact herr (by decide)
    · split <;> rintro ⟨⟩
  case hdelete =>
    intro _
    unfold deleteObject
    split <;> rintro ⟨⟩
  case hinitiate =>
    unfold initiateOpenCapture
    split <;> rintro ⟨⟩
  case hclose => exact fun _ h => nomatch h
  case hset => exact fun _ h => nomatch h
  case hdata => exact fun _ h => nomatch h
  all_goals exact fun h => nomatch h

theorem handle_served (hs : e.servesComputed req) :
    ∃ reply, (e.handle req dataIn).1 = .returned reply := by
  rw [handle_getDevicePropValue hs.1]
  exact getDevicePropValue_served hs

variable (e req dataIn) in
/-- An answer that is OK is completed unless the operation is silently refused
or served from the configured queue. -/
theorem route_isOk (silent : Bool) (hok : (e.route req dataIn silent).1.reply.isOk = true) :
    (∃ reply, (e.route req dataIn silent).1 = .completed reply) ↔
      ¬ (e.cameraInitiatedOperationReply req = none ∧ (silent = true ∨ e.servesComputed req)) := by
  revert hok
  apply route_cases (P := fun r => r.1.reply.isOk = true → ((∃ reply, r.1 = .completed reply) ↔
    ¬ (e.cameraInitiatedOperationReply req = none ∧ (silent = true ∨ e.servesComputed req))))
  case hclosed => exact fun hok => absurd hok (isOk_err (by decide))
  case hgate => exact fun hok => nomatch hok
  case hbusy => exact fun _ _ hok => absurd hok (isOk_err (by decide))
  case hcamera =>
    intro reply e' hr _
    simp [hr]
  case hunavailable => exact fun response hne hok => absurd hok (isOk_err hne)
  case hsilent =>
    intro hn hsilent _
    simp [hn, hsilent]
  case hhandle =>
    intro _ hn hsilent hok
    by_cases hs : e.servesComputed req
    · obtain ⟨reply, hr⟩ : ∃ reply, (e.handle req dataIn).1 = .returned reply := handle_served hs
      simp [hr, hn, hs]
    · simp only [hn, hsilent, Bool.false_eq_true, hs, or_self, and_false,
        not_false_eq_true, iff_true]
      -- an answer returned early would have been served from the queue
      cases hh : (e.handle req dataIn).1 with
      | returned reply =>
        rw [hh] at hok
        exact absurd (handle_returned hh hok) hs
      | completed reply => exact ⟨reply, rfl⟩

/-! ### Operations -/

theorem applySuccessfulOperation_keeps :
    Keeps e (e.applySuccessfulOperation req dataIn silent) := ⟨rfl, rfl, rfl, rfl⟩

theorem applySuccessfulOperation_state (e : Engine) (req : OperationRequest)
    (dataIn : Option (List UInt8)) (silent : Bool) : KeepsSession
      { e.state with
        gates := advanceSequenceGates (e.gateMatch req dataIn) e.gateSequences e.state.gates }
      (e.applySuccessfulOperation req dataIn silent).state := by
  have he : ∀ s, KeepsSession s (if silent then s
      else applyOpEmits e.manifest req.code req.params
        (applyOpEffects e.manifest req.code req.params s)) := by
    intro s
    split
    · exact .refl s
    · exact (KeepsSession.applyOpEffects _ _ _ s).trans (.applyOpEmits _ _ _ _)
  unfold applySuccessfulOperation
  dsimp only
  split
  · exact (he _).trans (.announceObjects _ _ _)
  · exact he _

/-- The operation reaches the gate sequences: it is answered OK, and neither
silently refused nor served from the configured queue. -/
def reachesGates (e : Engine) (req : OperationRequest) (dataIn : Option (List UInt8)) : Bool :=
  (e.dispatchOperation req dataIn).1.isOk && !e.silentlyRefused req && !e.servedFromQueue req

theorem unreached_iff :
    ((e.prepareCameraInitiatedPreModeProbe req).cameraInitiatedOperationReply req = none ∧
      (e.operationIsSilent req.code = true ∨ e.servesComputed req)) ↔
    e.silentlyRefused req = true ∨ e.servedFromQueue req = true := by
  simp only [silentlyRefused, servedFromQueue, servesComputed, Bool.and_eq_true,
    Option.isNone_iff_eq_none, decide_eq_true_eq]
  tauto

/-- The way of the operation up to the point where its success is applied. -/
def routed (e : Engine) (req : OperationRequest) (dataIn : Option (List UInt8)) :
    Handling × Engine :=
  (e.prepareCameraInitiatedPreModeProbe req).route req dataIn (e.operationIsSilent req.code)

variable (e req dataIn) in
theorem dispatchOperation_eq : e.dispatchOperation req dataIn =
      ((e.routed req dataIn).1.reply, if e.reachesGates req dataIn then
        (e.routed req dataIn).2.applySuccessfulOperation req dataIn (e.operationIsSilent req.code)
      else (e.routed req dataIn).2) := by
  have hi : (e.routed req dataIn).1.reply.isOk = true →
      ((∃ reply, (e.routed req dataIn).1 = .completed reply) ↔
        ¬ (e.silentlyRefused req = true ∨ e.servedFromQueue req = true)) := fun hok =>
    (route_isOk (e.prepareCameraInitiatedPreModeProbe req) req dataIn
      (e.operationIsSilent req.code) hok).trans (not_congr unreached_iff)
  cases hr : e.routed req dataIn with
  | mk handling e₁ =>
    rw [hr] at hi
    unfold routed at hr
    simp only [reachesGates, dispatchOperation, hr]
    cases handling with
    | returned reply => grind [Handling.reply]
    | completed reply => grind [Handling.reply]

variable (e req dataIn) in
/-- **What an operation does to the session.** Routing it leaves the rest of
the engine alone. -/
theorem dispatchOperation_cases : ∃ e₁, Routed e e₁ ∧
    (movesSession req.code = false → KeepsSession e.state e₁.state) ∧
    (e.dispatchOperation req dataIn).2 = if e.reachesGates req dataIn then
      e₁.applySuccessfulOperation req dataIn (e.operationIsSilent req.code) else e₁ := by
  have hr : Routed (e.prepareCameraInitiatedPreModeProbe req) (e.routed req dataIn).2 :=
    route_routed (e.prepareCameraInitiatedPreModeProbe req) req dataIn
      (e.operationIsSilent req.code)
  have hs : movesSession req.code = false →
      KeepsSession e.state (e.routed req dataIn).2.state := fun hc =>
    (route_untouched (e.prepareCameraInitiatedPreModeProbe req) req dataIn
      (e.operationIsSilent req.code) hc).session
  refine ⟨(e.routed req dataIn).2, ⟨⟨hr.manifest, hr.gateSequences, hr.store,
    hr.cameraInitiatedQueue⟩, hr.gates⟩, hs, ?_⟩
  rw [dispatchOperation_eq]

variable (e req dataIn) in
theorem dispatchOperation_keeps : Keeps e (e.dispatchOperation req dataIn).2 := by
  obtain ⟨e₁, hr, -, heq⟩ := dispatchOperation_cases e req dataIn
  rw [heq]
  split
  · exact hr.toKeeps.trans applySuccessfulOperation_keeps
  · exact hr.toKeeps

variable (e req dataIn) in
/-- The gates after an operation: reset if the session or the import mode
ended, then advanced if the operation reaches them. -/
theorem dispatchOperation_gates {g : SequenceGates}
    (hg : g = if e.resetsGates (e.dispatchOperation req dataIn).2 then {} else e.state.gates) :
    (e.dispatchOperation req dataIn).2.state.gates = if e.reachesGates req dataIn then
      advanceSequenceGates (e.gateMatch req dataIn) e.gateSequences g else g := by
  obtain ⟨e₁, hr, -, heq⟩ := dispatchOperation_cases e req dataIn
  rw [heq] at hg ⊢
  split
  · rename_i hre
    rw [if_pos hre] at hg
    have hs := applySuccessfulOperation_state e₁ req dataIn (e.operationIsSilent req.code)
    have hm : e₁.gateMatch req dataIn = e.gateMatch req dataIn := by
      unfold gateMatch
      rw [hr.manifest]
    have hres : e.resetsGates (e₁.applySuccessfulOperation req dataIn
        (e.operationIsSilent req.code)) = e.resetsGates e₁ := by
      rw [resetsGates, resetsGates, hs.sessionOpen, hs.activeMode]
    rw [hs.gates, hm, hr.gateSequences, hg, hres, ← hr.gates]
  · rename_i hre
    rw [if_neg hre] at hg
    rw [hg, hr.gates]

variable (e req dataIn) in
theorem dispatchOperation_resets (h : e.resetsGates (e.dispatchOperation req dataIn).2 = true) :
    movesSession req.code = true := by
  by_contra hc
  rw [Bool.not_eq_true] at hc
  obtain ⟨e₁, -, hs, heq⟩ := dispatchOperation_cases e req dataIn
  have hsa : (e.dispatchOperation req dataIn).2.state.sessionOpen = e.state.sessionOpen ∧
      (e.dispatchOperation req dataIn).2.state.activeMode = e.state.activeMode := by
    rw [heq]
    split
    · have hst := applySuccessfulOperation_state e₁ req dataIn (e.operationIsSilent req.code)
      exact ⟨hst.sessionOpen.trans (hs hc).sessionOpen, hst.activeMode.trans (hs hc).activeMode⟩
    · exact ⟨(hs hc).sessionOpen, (hs hc).activeMode⟩
  rw [resetsGates, hsa.1, hsa.2] at h
  simp [leavesImport] at h

theorem dispatchOperation_completion (h : (e.dispatchOperation req dataIn).1.completion? = some c) :
    e.Issues c := by
  rw [dispatchOperation_eq] at h
  have hi : (e.prepareCameraInitiatedPreModeProbe req).Issues c := route_completion h
  exact hi

/-! ### Operations under faults -/

/-- A fault answers the operation before it is dispatched. -/
def preemption (e : Engine) (req : OperationRequest) : Option Reply :=
  (e.takeFault req).1.2.bind (preempted req.transactionId)

/-- The engine that dispatches the operation, its fault taken. -/
def faced (e : Engine) (req : OperationRequest) : Engine := (e.takeFault req).2

theorem faced_keeps : Keeps e (e.faced req) := ⟨rfl, rfl, rfl, rfl⟩

/-- The dispatcher's answer to an operation and the engine after it; a fault
that preempts it leaves the engine alone. -/
def dispatched (e : Engine) (req : OperationRequest) (dataIn : Option (List UInt8)) :
    Reply × Engine :=
  match e.preemption req with
  | some reply => (reply, e.faced req)
  | none => (e.faced req).dispatchOperation req dataIn

variable (e req dataIn) in
theorem onOperation_eq :
    e.onOperation req dataIn =
      ((match (e.takeFault req).1.2 with
        | some mutation =>
          mutateReply (e.dispatched req dataIn).2.manifest req mutation (e.dispatched req dataIn).1
        | none => (e.dispatched req dataIn).1),
      { (e.dispatched req dataIn).2 with appliedFault := (e.takeFault req).1.1 }) := by
  rfl

theorem dispatched_keeps : Keeps e (e.dispatched req dataIn).2 := by
  unfold dispatched
  split
  · exact faced_keeps
  · exact faced_keeps.trans (dispatchOperation_keeps _ _ _)

theorem preempted_completion {mutation : FaultMutation} {reply : Reply}
    (h : preempted tid mutation = some reply) : reply.completion? = none := by
  cases mutation with
  | failResponse response =>
    cases h
    rfl
  | close stage =>
    cases stage <;> cases h
    rfl
  | _ => cases h

theorem dispatched_completion (h : (e.dispatched req dataIn).1.completion? = some c) :
    e.Issues c := by
  unfold dispatched at h
  split at h
  · rename_i reply hr
    obtain ⟨mutation, -, hpre⟩ := Option.bind_eq_some_iff.mp hr
    rw [preempted_completion hpre] at h
    cases h
  · obtain ⟨q, hq, hi⟩ := dispatchOperation_completion h
    exact ⟨q, faced_keeps.cameraInitiatedQueue ▸ hq, hi⟩

/-- A fault may take a completion off a reply, but never puts one on. -/
theorem mutateReply_completion {manifest : CameraManifest} {mutation : FaultMutation}
    {reply : Reply} (h : (mutateReply manifest req mutation reply).completion? = some c) :
    reply.completion? = some c := by
  cases mutation with
  | truncateData keep => cases reply <;> first | exact h | cases h
  | replaceData bytes => cases reply <;> first | exact h | cases h
  | suppress stage => cases stage <;> cases reply <;> exact h
  | propertyReadback value =>
    have h : (replacePropertyReadback manifest req reply value).completion? = some c := h
    unfold replacePropertyReadback at h
    dsimp only at h
    split at h
    · split at h <;> cases h
    · exact h
  | _ => exact h

theorem onOperation_completion (h : (e.onOperation req dataIn).1.completion? = some c) :
    e.Issues c := by
  rw [onOperation_eq] at h
  split at h
  · exact dispatched_completion (mutateReply_completion h)
  · exact dispatched_completion h

end Engine

/-! ### The control surface -/

namespace Engine

variable {e next : Engine}

theorem installFault_idle {fault : FaultSpec} {id : UInt64}
    (h : e.installFault fault = .ok (id, next)) : Idle e next := by
  obtain ⟨r, -, h⟩ := bind_eq_ok_iff.mp h
  cases h
  exact ⟨⟨rfl, rfl, rfl, rfl⟩, rfl, rfl⟩

theorem auxOrphanLeak_idle (h : e.auxOrphanLeak = .ok next) : Idle e next := by
  unfold auxOrphanLeak at h
  repeat' split at h
  all_goals cases h
  exact ⟨⟨rfl, rfl, rfl, rfl⟩, rfl, rfl⟩

theorem auxManagedOpen_idle {descriptor : UInt64}
    (h : e.auxManagedOpen = .ok (descriptor, next)) : Idle e next := by
  unfold auxManagedOpen at h
  repeat' split at h
  all_goals cases h
  exact ⟨⟨rfl, rfl, rfl, rfl⟩, rfl, rfl⟩

theorem auxManagedClose_idle (h : e.auxManagedClose = .ok next) : Idle e next := by
  unfold auxManagedClose at h
  split at h <;> cases h
  exact ⟨⟨rfl, rfl, rfl, rfl⟩, rfl, rfl⟩

theorem apShouldRefuse_idle : Idle e e.apShouldRefuse.2 := by
  unfold apShouldRefuse
  repeat' split
  all_goals exact ⟨⟨rfl, rfl, rfl, rfl⟩, rfl, rfl⟩

theorem advancePropertyToNextEnum_untouched {code : UInt16} {value : PropValue}
    (h : e.advancePropertyToNextEnum code = .ok (value, next)) : Untouched e next := by
  obtain ⟨r, -, h⟩ := bind_eq_ok_iff.mp h
  cases h
  exact ⟨⟨rfl, rfl, rfl, rfl⟩, .armEffect e.state code value 0⟩

theorem applyResponderMutation_untouched {prepared : PreparedResponderMutation}
    (h : e.applyResponderMutation prepared = .ok next) : Untouched e next := by
  cases prepared with
  | enqueueObjects count affected =>
    unfold applyResponderMutation at h
    dsimp only at h
    split at h <;> cases h
    exact ⟨⟨rfl, rfl, rfl, rfl⟩, .announceObjects _ _ _⟩
  | propertyTransition transition =>
    cases h
    exact ⟨⟨rfl, rfl, rfl, rfl⟩, .applyTransition _ _ _⟩

variable {connection : String} {count : UInt32}

theorem preseedStaleLiveViewStream_idle (h : e.preseedStaleLiveViewStream connection = .ok next) :
    Idle e next := by
  unfold preseedStaleLiveViewStream at h
  split at h <;> cases h
  exact ⟨⟨rfl, rfl, rfl, rfl⟩, rfl, rfl⟩

/-- The next handles of the object queue are made available. -/
def Enqueues (e : Engine) (count : UInt32) (added : ℕ) (next : Engine) : Prop :=
  ∃ queue, e.transferQueue = some queue ∧ added = (queue.enqueueCount count).1 ∧
    next = { e with transferQueue := some (queue.enqueueCount count).2 }

theorem enqueueStandardObjects_enqueues {added : ℕ}
    (h : e.enqueueStandardObjects count = .ok (added, next)) : e.Enqueues count added next := by
  unfold enqueueStandardObjects at h
  split at h
  · cases h
  · rename_i queue hq
    cases h
    exact ⟨queue, hq, rfl, rfl⟩

theorem queueFor_eq {queue : TransferQueue} (h : e.queueFor connection = .ok queue) :
    e.transferQueue = some queue := by
  unfold queueFor at h
  repeat' split at h
  all_goals cases h
  assumption

theorem preseedStandardObjectQueue_enqueues {added : ℕ}
    (h : e.preseedStandardObjectQueue connection count = .ok (added, next)) :
    e.Enqueues count added next := by
  obtain ⟨queue, hq, h⟩ := bind_eq_ok_iff.mp h
  cases h
  exact ⟨queue, queueFor_eq hq, rfl, rfl⟩

theorem preseedShutterBusyResponses_eq {attempts : UInt32}
    (h : e.preseedShutterBusyResponses connection attempts = .ok next) :
    ∃ queue, e.transferQueue = some queue ∧ next = { e with
      transferQueue := some { queue with shutterBusyResponsesRemaining := attempts } } := by
  obtain ⟨queue, hq, h⟩ := bind_eq_ok_iff.mp h
  split at h <;> cases h
  exact ⟨queue, queueFor_eq hq, rfl⟩

theorem configureStandardObjectQueue_eq
    (h : e.configureStandardObjectQueue connection count = .ok next) :
    next = e ∨
      next = { e with transferQueue := some (.startupSeeded connection
        (standardObjectQueueHandles e.manifest e.store)) } ∧ count = 0 ∨
      ∃ sequence, next = { e with transferQueue := some (.shutterSeeded connection
        (standardObjectQueueHandles e.manifest e.store) count sequence) } := by
  unfold configureStandardObjectQueue at h
  split at h
  · cases h
  dsimp only at h
  split at h
  · split at h <;> cases h
    exact .inl rfl
  split at h
  · rename_i hc
    cases h
    exact .inr (.inl ⟨rfl, hc⟩)
  · obtain ⟨sequence, -, h⟩ := bind_eq_ok_iff.mp h
    cases h
    exact .inr (.inr ⟨sequence, rfl⟩)

end Engine

end Ptpsim.Sim
