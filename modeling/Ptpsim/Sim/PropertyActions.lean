/-
# What the engine does to its properties

The property values of a camera and the transitions on their way are a store
with deferred writes (`CameraState.deferred`). On that store every call to the
engine is a list of actions (`Engine.propActions`). The list depends on the
engine before the call only, so that a whole run is one list too
(`run_deferred`). An operation gets to its handler if nothing answers it before
(`Engine.reachesHandler`); if it does not, hardly anything of the engine
changes (`Bypassed`).
-/
import Ptpsim.Lib.Deferred
import Ptpsim.Sim.Run

namespace Ptpsim.Sim

open Ptpsim.Core Config Option Function CameraState Deferred.Store

abbrev PropAction := Deferred.Action UInt16 PropValue

/-! ### The state as a store -/

namespace CameraState

variable (s : CameraState)

def deferred : Deferred.Store UInt16 PropValue where
  values := s.props
  pending code := (s.pending code).map fun p => ⟨p.value, p.remaining.toNat⟩

theorem pending_update (pending : UInt16 → Option PendingTransition) (code : UInt16)
    (p : Option PendingTransition) :
    (fun c => (Function.update pending code p c).map fun p =>
        (⟨p.value, p.remaining.toNat⟩ : Deferred.Transition PropValue)) =
      Function.update (fun c => (pending c).map fun p => ⟨p.value, p.remaining.toNat⟩) code
        (p.map fun p => ⟨p.value, p.remaining.toNat⟩) := by
  funext c
  by_cases hc : c = code
  · rw [hc, update_self, update_self]
  · rw [update_of_ne hc, update_of_ne hc]

theorem deferred_armEffect (code : UInt16) (value : PropValue) (n : UInt32) :
    (s.armEffect code value n).deferred = s.deferred.apply (.arm code value n.toNat) := by
  have hz : n = 0 ↔ n.toNat = 0 := by rw [← UInt32.toNat_inj, UInt32.toNat_zero]
  by_cases hn : n = 0
  · rw [armEffect, if_pos hn, Deferred.Store.apply, if_pos (hz.mp hn)]
    exact Deferred.Store.ext rfl (pending_update s.pending code none)
  · rw [armEffect, if_neg hn, Deferred.Store.apply, if_neg fun h => hn (hz.mpr h)]
    exact Deferred.Store.ext rfl (pending_update s.pending code (some ⟨value, n⟩))

theorem deferred_resolvePending (code : UInt16) :
    (s.resolvePending code).deferred = s.deferred.apply (.poll code) := by
  unfold resolvePending Deferred.Store.apply
  cases hp : s.pending code with
  | none => simp [deferred, hp]
  | some p =>
    simp only [deferred, hp, map_some]
    by_cases hl : p.remaining.toNat - 1 = 0
    · rw [if_pos hl, if_pos (by omega)]
      exact Deferred.Store.ext rfl (pending_update s.pending code none)
    · have hsub : (p.remaining - 1).toNat = p.remaining.toNat - 1 :=
        UInt32.toNat_sub_of_le _ _ (UInt32.le_iff_toNat_le.mpr (by
          rw [UInt32.toNat_one]
          omega))
      rw [if_neg hl, if_neg (by omega)]
      refine Deferred.Store.ext rfl ?_
      rw [pending_update]
      simp [hsub]

theorem deferred_foldl {α : Type} {f : CameraState → α → CameraState} {g : α → PropAction}
    (hf : ∀ s a, (f s a).deferred = s.deferred.apply (g a)) (s : CameraState) (as : List α) :
    (as.foldl f s).deferred = s.deferred.replay (as.map g) := by
  induction as generalizing s with
  | nil => rfl
  | cons a as ih => rw [List.foldl_cons, ih, hf, List.map_cons, replay_cons]

theorem polled_eq (codes : List UInt16) :
    codes.foldl resolvePending s = { s with
      props := (codes.foldl resolvePending s).props
      pending := (codes.foldl resolvePending s).pending } := by
  have hp : ∀ (s : CameraState) (code : UInt16), s.resolvePending code = { s with
      props := (s.resolvePending code).props
      pending := (s.resolvePending code).pending } := by
    intro s code
    unfold resolvePending
    split
    · rfl
    · split <;> rfl
  induction codes generalizing s with
  | nil => rfl
  | cons code codes ih => rw [List.foldl_cons, ih, hp s code]

end CameraState

/-! ### The pieces -/

variable (manifest : CameraManifest)

/-- The type a manifest declares for a property code. -/
def declaredType (code : UInt16) : UInt16 :=
  datatypeOf ((manifest.property code).bind (·.ptype))

/-- The effects of an operation. -/
def effectActions (code : UInt16) (params : List UInt32) : List PropAction :=
  match manifest.operation code with
  | none => []
  | some op => (op.effects.filterMap (effectArming params)).map fun (target, value, settle) =>
      .arm target (typed (declaredType manifest target) value) settle.toNat

variable (manifest : CameraManifest) (code : UInt16) (params : List UInt32) (s : CameraState)

theorem deferred_applyOpEffects : (applyOpEffects manifest code params s).deferred =
      s.deferred.replay (effectActions manifest code params) := by
  unfold applyOpEffects effectActions
  cases manifest.operation code with
  | none => rfl
  | some op =>
    apply deferred_foldl
    intro s arming
    exact s.deferred_armEffect _ _ _

theorem deferred_applyOpEmits : (applyOpEmits manifest code params s).deferred = s.deferred := by
  unfold applyOpEmits
  split <;> rfl

theorem deferred_announceObjects (handles : List UInt32) (s : CameraState) :
    (announceObjects manifest handles s).deferred = s.deferred := by
  unfold announceObjects
  split <;> rfl

/-- The published number of queued objects. -/
def countActions (queue : Option CameraInitiatedQueue) : List PropAction :=
  match manifest.cameraInitiatedTransfer.bind fun t =>
    parseHexCode t.receive.count.member, queue with
  | some code, some q =>
    [.set code (typed (declaredType manifest code) (Int64.ofNat (min q.remaining 0xffffffff)))]
  | _, _ => []

theorem deferred_syncCameraInitiatedCounts (queue : Option CameraInitiatedQueue) (s : CameraState) :
    (syncCameraInitiatedCounts manifest queue s).deferred =
      s.deferred.replay (countActions manifest queue) := by
  unfold syncCameraInitiatedCounts countActions
  cases manifest.cameraInitiatedTransfer.bind fun t => parseHexCode t.receive.count.member with
  | none => rfl
  | some code => cases queue <;> rfl

/-- The transition of a responder action, its values typed. -/
def transitionActions (t : PreparedPropertyTransition) : List PropAction :=
  let value := propertyTransitionValue ((manifest.property t.target).bind (·.ptype))
  ((t.initial.bind value).map (.set t.target)).toList ++
    ((value t.terminal).map fun v => .arm t.target v t.settleAfterPolls.toNat).toList

theorem deferred_applyTransition (t : PreparedPropertyTransition) (s : CameraState) :
    (Engine.applyTransition manifest t s).deferred =
      s.deferred.replay (transitionActions manifest t) := by
  unfold Engine.applyTransition transitionActions
  dsimp only
  cases t.initial.bind (propertyTransitionValue ((manifest.property t.target).bind (·.ptype))) <;>
    cases propertyTransitionValue ((manifest.property t.target).bind (·.ptype)) t.terminal <;>
    first | rfl | exact deferred_armEffect _ _ _ _

namespace Engine

theorem deferred_vendorStep (manifest : CameraManifest) (code : UInt16) (direction : UInt32)
    (s : CameraState) : (vendorStep manifest code direction s).deferred =
      s.deferred.replay ((vendorStepValue manifest code direction s).map (.set code)).toList := by
  unfold vendorStep
  cases vendorStepValue manifest code direction s <;> rfl

variable (e : Engine) (code : UInt16)

/-- A read gets to the value of the property, and polls it and its
members. -/
def readsValue : Bool :=
  (e.propertyGateReply code).isNone &&
    !(e.transferQueue.isSome && ((e.manifest.property code).bind (·.computed)).isSome) &&
    !e.propertyIsValueless code

/-- The codes a read of the property polls. -/
def polledCodes : List UInt16 :=
  if e.readsValue code then code :: e.memberCodes code else []

theorem getDevicePropValue_snd (e : Engine) (req : OperationRequest) :
    (e.getDevicePropValue req).2 = { e with
      state := (e.polledCodes (param req 0).toUInt16).foldl resolvePending e.state } := by
  unfold getDevicePropValue polledCodes readsValue computedPropertyReply
  dsimp only
  cases e.propertyGateReply (param req 0).toUInt16 with
  | some reply => rfl
  | none =>
    cases e.transferQueue.isSome <;>
      cases (e.manifest.property (param req 0).toUInt16).bind (·.computed) <;>
      cases e.propertyIsValueless (param req 0).toUInt16 <;> rfl

theorem getDevicePropValue_reads {e : Engine} {req : OperationRequest}
    (h : e.readsValue (param req 0).toUInt16 = true) :
    (e.getDevicePropValue req).1.reply = (e.pollProperty (param req 0).toUInt16).propertyValueReply
      req.transactionId (param req 0).toUInt16 := by
  simp only [readsValue, Bool.and_eq_true, Bool.not_eq_true', isNone_iff_eq_none] at h
  obtain ⟨⟨hg, hs⟩, hv⟩ := h
  have hc : (if e.transferQueue.isSome then
      e.computedPropertyReply req.transactionId (param req 0).toUInt16 else none) = none := by
    rcases Bool.and_eq_false_iff.mp hs with hq | hp
    · simp [hq]
    · rw [isSome_eq_false_iff, isNone_iff_eq_none] at hp
      simp [computedPropertyReply, hp]
  simp only [getDevicePropValue, hg, hc, hv, Bool.false_eq_true, if_false]
  rfl

/-- The value a property write stores. -/
def storedValue (dataIn : Option (List UInt8)) : Option PropValue :=
  match e.writeOutcome code dataIn with
  | .stored value => some value
  | _ => none

theorem setProp_snd (e : Engine) (tid : UInt32) (code : UInt16) (dataIn : Option (List UInt8)) :
    (e.setProp tid code dataIn).2 = (e.storedValue code dataIn).elim e fun value =>
      refreshDetectedMode { e with state := e.state.insertProp code value } := by
  unfold setProp storedValue
  cases e.writeOutcome code dataIn <;> rfl

/-- The property a manifest operation steps, if it gets to step one. -/
def steppedProperty : Option UInt16 :=
  match e.operationAvailabilityError code, e.manifest.operation code with
  | none, some op =>
    if op.handler = some .propertyStep then
      (op.property.bind parseHexCode).filter fun target =>
        !e.propertyIsWriteSilent target && !e.propertyIsValueless target
    else none
  | _, _ => none

theorem dispatchManifestOp_snd (e : Engine) (tid : UInt32) (code : UInt16)
    (params : List UInt32) : (e.dispatchManifestOp tid code params).2 =
      (e.steppedProperty code).elim e fun target =>
        { e with state := vendorStep e.manifest target (params.head?.getD 0) e.state } := by
  unfold dispatchManifestOp steppedProperty
  cases e.operationAvailabilityError code with
  | some response => rfl
  | none =>
    cases e.manifest.operation code with
    | none => rfl
    | some op =>
      dsimp only
      cases op.handler with
      | none => rfl
      | some handler =>
        cases handler with
        | objectSize => rfl
        | propertyStep =>
          unfold propertyStepOp
          cases op.property.bind parseHexCode with
          | none => rfl
          | some target =>
            cases hs : e.propertyIsWriteSilent target <;>
              cases hv : e.propertyIsValueless target <;>
              simp [hs, hv, Option.filter]

/-! ### Operations -/

/-- The operations with a handler of their own, the two that touch property
values apart. -/
def isStandardOp : Bool :=
  code = Op.openSession || code = Op.closeSession || code = Op.getDeviceInfo ||
    code = Op.getStorageIds || code = Op.getObjectHandles || code = Op.getObjectInfo ||
    code = Op.getThumb || code = Op.getPartialObject || code = Op.getObject ||
    code = Op.deleteObject || code = Op.getDevicePropDesc ||
    (code = Op.terminateOpenCapture && e.connectionModelsLiveViewStream e.connection) ||
    code = Op.initiateOpenCapture

def handleActions (req : OperationRequest) (dataIn : Option (List UInt8)) : List PropAction :=
  if e.isStandardOp req.code then []
  else if req.code = Op.getDevicePropValue then
    (e.polledCodes (param req 0).toUInt16).map .poll
  else if req.code = Op.setDevicePropValue then
    ((e.storedValue (param req 0).toUInt16 dataIn).map (.set (param req 0).toUInt16)).toList
  else (e.steppedProperty req.code).elim [] fun target =>
    ((vendorStepValue e.manifest target (req.params.head?.getD 0) e.state).map
      (.set target)).toList

variable {e : Engine} {req : OperationRequest} {dataIn : Option (List UInt8)}

theorem handle_declared (ho : e.isStandardOp req.code = false)
    (hv : req.code ≠ Op.getDevicePropValue) (hset : req.code ≠ Op.setDevicePropValue) :
    e.handle req dataIn =
      (.completed (e.dispatchManifestOp req.transactionId req.code req.params).1,
        (e.dispatchManifestOp req.transactionId req.code req.params).2) := by
  simp only [isStandardOp, Bool.or_eq_false_iff, decide_eq_false_iff_not,
    Bool.and_eq_false_imp, decide_eq_true_eq] at ho
  obtain ⟨⟨⟨⟨⟨⟨⟨⟨⟨⟨⟨⟨hop, hc⟩, hi⟩, hids⟩, hh⟩, hoi⟩, hth⟩, hp⟩, hob⟩, hd⟩, hde⟩, ht⟩, hin⟩ := ho
  have ht : ¬ (req.code = Op.terminateOpenCapture ∧
      e.connectionModelsLiveViewStream e.connection = true) := by
    rintro ⟨hco, hm⟩
    simp [ht hco] at hm
  unfold handle
  simp only [hop, hc, hi, hids, hh, hoi, hth, hp, hob, hd, hde, hv, hset, ht, hin, if_false]

theorem handle_declared_reply (ho : e.isStandardOp req.code = false)
    (hv : req.code ≠ Op.getDevicePropValue) (hset : req.code ≠ Op.setDevicePropValue)
    (ha : isBootstrapOp req.code = true ∨ e.operationAvailabilityError req.code = none)
    {op : Operation} (hop : e.manifest.operation req.code = some op) :
    (e.handle req dataIn).1.reply = match op.handler with
      | some .propertyStep => (e.propertyStepOp req.transactionId op req.params).1
      | some .objectSize => e.objectSizeOp req.transactionId op req.params
      | none => .ok req.transactionId := by
  have hb : isBootstrapOp req.code = false := by
    simp only [isStandardOp, Bool.or_eq_false_iff] at ho
    simp [isBootstrapOp, ho]
  have ha := ha.resolve_left (by simp [hb])
  rw [handle_declared ho hv hset]
  simp only [Handling.reply, dispatchManifestOp, ha, hop]
  rcases op.handler with _ | _ | _ <;> rfl

/-- The store after the handler is the one its actions lead to. -/
def Replays (e : Engine) (req : OperationRequest) (dataIn : Option (List UInt8))
    (r : Handling × Engine) : Prop :=
  r.2.state.deferred = e.state.deferred.replay (e.handleActions req dataIn)

theorem handle_deferred : Replays e req dataIn (e.handle req dataIn) := by
  -- the handlers that leave the properties alone
  have hs : ∀ {r : Handling × Engine}, e.isStandardOp req.code = true →
      r.2.state.deferred = e.state.deferred → Replays e req dataIn r := by
    intro r hop hr
    rw [Replays, hr, handleActions, if_pos hop]
    rfl
  refine iteInduction (fun h => hs (by rw [h]; rfl) ?_) fun hope => ?_
  · unfold openSession
    split
    · rfl
    · split <;> rfl
  refine iteInduction (fun h => hs (by rw [h]; rfl) rfl) fun hc => ?_
  refine iteInduction (fun h => hs (by rw [h]; rfl) rfl) fun hi => ?_
  refine iteInduction (fun h => hs (by rw [h]; rfl) rfl) fun hids => ?_
  refine iteInduction (fun h => hs (by rw [h]; rfl) rfl) fun hh => ?_
  refine iteInduction (fun h => hs (by rw [h]; rfl) rfl) fun hoi => ?_
  refine iteInduction (fun h => hs (by rw [h]; rfl) rfl) fun hth => ?_
  refine iteInduction (fun h => hs (by rw [h]; rfl) rfl) fun hp => ?_
  refine iteInduction (fun h => hs (by rw [h]; rfl) rfl) fun hob => ?_
  refine iteInduction (fun h => hs (by rw [h]; rfl) ?_) fun hd => ?_
  · unfold deleteObject
    split <;> rfl
  refine iteInduction (fun h => hs (by rw [h]; rfl) rfl) fun hde => ?_
  refine iteInduction (fun h => ?_) fun hv => ?_
  · have ho : e.isStandardOp Op.getDevicePropValue = false := rfl
    rw [Replays, getDevicePropValue_snd, handleActions, h, ho, if_neg Bool.false_ne_true,
      if_pos rfl]
    exact deferred_foldl deferred_resolvePending e.state _
  refine iteInduction (fun h => ?_) fun hset => ?_
  · show (e.setProp req.transactionId (param req 0).toUInt16 dataIn).2.state.deferred = _
    have ho : e.isStandardOp Op.setDevicePropValue = false := rfl
    rw [setProp_snd, handleActions, h, ho, if_neg Bool.false_ne_true, if_neg (by decide),
      if_pos rfl]
    cases e.storedValue (param req 0).toUInt16 dataIn <;> rfl
  refine iteInduction (fun h => hs (by simp [isStandardOp, h]) rfl) fun ht => ?_
  refine iteInduction (fun h => hs (by simp [isStandardOp, h]) ?_) fun hin => ?_
  · unfold initiateOpenCapture
    split <;> rfl
  show (e.dispatchManifestOp req.transactionId req.code req.params).2.state.deferred = _
  have ho : e.isStandardOp req.code = false := by
    simp only [isStandardOp, hope, hc, hi, hids, hh, hoi, hth, hp,
      hob, hd, hde, hin, decide_false, Bool.false_or, Bool.or_false]
    simpa using ht
  rw [dispatchManifestOp_snd, handleActions, ho, if_neg Bool.false_ne_true, if_neg hv, if_neg hset]
  cases e.steppedProperty req.code with
  | none => rfl
  | some target => exact deferred_vendorStep _ _ _ _

/-! ### Routing -/

/-- Nothing answers the operation before its handler: the session is open, the
gate satisfied, no queue takes it, the catalog offers it, and it is not
silently refused. -/
def reachesHandler (e : Engine) (req : OperationRequest) (silent : Bool) : Bool :=
  (e.state.sessionOpen || req.code = Op.openSession || req.code = Op.getDeviceInfo) &&
    (e.operationGateReply req.code).isNone && (e.shutterBusyReply req).isNone &&
    (e.cameraInitiatedOperationReply req).isNone &&
    (isBootstrapOp req.code || (e.operationAvailabilityError req.code).isNone) && !silent

variable (e req dataIn) in
/-- **An operation is handled, or it passes the engine by.** -/
theorem route_reaches (silent : Bool) :
    (e.reachesHandler req silent = true ∧ e.route req dataIn silent = e.handle req dataIn) ∨
      (e.reachesHandler req silent = false ∧ Bypassed e (e.route req dataIn silent).2) := by
  unfold route reachesHandler
  by_cases hs :
      (!e.state.sessionOpen && req.code ≠ Op.openSession && req.code ≠ Op.getDeviceInfo) = true
  · simp only [Bool.and_eq_true, Bool.not_eq_true', decide_eq_true_eq] at hs
    simp [hs, Bypassed.refl]
  rw [if_neg hs]
  have ho : (e.state.sessionOpen || decide (req.code = Op.openSession) ||
      decide (req.code = Op.getDeviceInfo)) = true := by
    by_contra hcl
    apply hs
    simpa [Bool.or_eq_true, not_or, and_assoc] using hcl
  rw [ho]
  split
  · rename_i hg
    simp [hg, Bypassed.refl]
  rename_i hg
  split
  · rename_i hb
    simp [hg, hb, (shutterBusyReply_eq hb).2]
  rename_i hb
  split
  · rename_i hc
    simp [hg, hb, hc, (cameraInitiatedOperationReply_eq hc).1]
  rename_i hc
  split
  · rename_i response hr
    rw [ite_none_left_eq_some] at hr
    simp [hg, hb, hc, hr, Bypassed.refl]
  rename_i ha
  have ha : (isBootstrapOp req.code || (e.operationAvailabilityError req.code).isNone) = true := by
    by_cases hbo : isBootstrapOp req.code = true
    · rw [hbo, Bool.true_or]
    · rw [if_neg hbo] at ha
      rw [ha]
      simp
  cases silent with
  | true => simp [Bypassed.refl]
  | false => simp [hg, hb, hc, ha]

/-! ### Dispatch -/

/-- The engine as a handler finds it. -/
abbrev probed (e : Engine) (req : OperationRequest) : Engine :=
  e.prepareCameraInitiatedPreModeProbe req

/-- The operation is handled. -/
def handles (e : Engine) (req : OperationRequest) : Bool :=
  (e.probed req).reachesHandler req (e.operationIsSilent req.code)

/-- The operation has its effects. -/
def takesEffect (e : Engine) (req : OperationRequest) (dataIn : Option (List UInt8)) : Bool :=
  e.reachesGates req dataIn && !e.operationIsSilent req.code

def dispatchActions (e : Engine) (req : OperationRequest) (dataIn : Option (List UInt8)) :
    List PropAction :=
  (if e.handles req then (e.probed req).handleActions req dataIn else []) ++
    if e.takesEffect req dataIn then effectActions e.manifest req.code req.params else []

theorem routed_deferred : (e.routed req dataIn).2.state.deferred = e.state.deferred.replay
    (if e.handles req then (e.probed req).handleActions req dataIn else []) := by
  rcases route_reaches (e.probed req) req dataIn (e.operationIsSilent req.code) with
    ⟨hr, hro⟩ | ⟨hr, armed, busy, hro⟩
  · rw [handles, if_pos hr, routed, hro]
    exact handle_deferred
  · rw [handles, hr, if_neg Bool.false_ne_true, routed, hro]
    rfl

theorem applySuccessfulOperation_deferred {silent : Bool} :
    (e.applySuccessfulOperation req dataIn silent).state.deferred = e.state.deferred.replay
      (if silent then [] else effectActions e.manifest req.code req.params) := by
  unfold applySuccessfulOperation
  dsimp only
  have he : ∀ s : CameraState, (if silent then s
      else applyOpEmits e.manifest req.code req.params
        (applyOpEffects e.manifest req.code req.params s)).deferred = s.deferred.replay
      (if silent then [] else effectActions e.manifest req.code req.params) := by
    intro s
    cases silent with
    | true => rfl
    | false =>
      rw [if_neg Bool.false_ne_true, if_neg Bool.false_ne_true, deferred_applyOpEmits,
        deferred_applyOpEffects]
  split
  · rw [deferred_announceObjects]
    exact he _
  · exact he _

theorem dispatchOperation_deferred : (e.dispatchOperation req dataIn).2.state.deferred =
    e.state.deferred.replay (e.dispatchActions req dataIn) := by
  have hm : (e.routed req dataIn).2.manifest = e.manifest :=
    (route_routed (e.probed req) req dataIn (e.operationIsSilent req.code)).manifest
  rw [dispatchOperation_eq, dispatchActions, takesEffect, replay_append,
    ← routed_deferred]
  cases e.reachesGates req dataIn with
  | false => rfl
  | true =>
    rw [if_pos rfl, applySuccessfulOperation_deferred, hm]
    cases e.operationIsSilent req.code <;> rfl

/-- An operation that a fault preempts does nothing. -/
def operationActions (e : Engine) (req : OperationRequest) (dataIn : Option (List UInt8)) :
    List PropAction :=
  if (e.preemption req).isSome then [] else (e.faced req).dispatchActions req dataIn

theorem dispatched_deferred : (e.dispatched req dataIn).2.state.deferred =
    e.state.deferred.replay (e.operationActions req dataIn) := by
  unfold dispatched operationActions
  cases e.preemption req with
  | some reply => rfl
  | none => exact dispatchOperation_deferred

/-- Neither a fault nor anything else answers the operation before its
handler. -/
def handled (e : Engine) (req : OperationRequest) : Bool :=
  (e.preemption req).isNone && (e.faced req).handles req

/-- The engine as the handler of the operation finds it; its state and its
manifest are the engine's own. -/
abbrev handling (e : Engine) (req : OperationRequest) : Engine := (e.faced req).probed req

theorem dispatched_handled (h : e.handled req = true) :
    (e.dispatched req dataIn).1 = ((e.handling req).handle req dataIn).1.reply := by
  obtain ⟨hpre, hh⟩ := Bool.and_eq_true_iff.mp h
  have hpre : e.preemption req = none := isNone_iff_eq_none.mp hpre
  unfold dispatched
  rw [hpre]
  rw [dispatchOperation_eq]
  rcases route_reaches (e.handling req) req dataIn ((e.faced req).operationIsSilent req.code) with
    ⟨-, hr⟩ | ⟨hnot, -⟩
  · rw [routed, hr]
  · rw [handles, hnot] at hh
    cases hh

theorem handled_available (h : e.handled req = true) :
    isBootstrapOp req.code = true ∨ (e.handling req).operationAvailabilityError req.code =
      none := by
  simp only [handled, handles, reachesHandler, Bool.and_eq_true, Bool.or_eq_true,
    isNone_iff_eq_none] at h
  exact h.2.1.2

/-! ### Calls and runs -/

/-- The properties an overlay sets. -/
def overlayActions (manifest : CameraManifest) (overlay : StateOverlay) : List PropAction :=
  match stage manifest overlay with
  | .ok staged => staged.props.map fun (code, value) => .set code value
  | .error _ => []

def nextEnumActions (e : Engine) (code : UInt16) : List PropAction :=
  match e.nextEnumValue code with
  | .ok value => [.arm code value 0]
  | .error _ => []

/-- A stream that completes the head of the camera-initiated queue publishes
the new count. -/
def completionActions (e : Engine) (c : StreamCompletion) : List PropAction :=
  match e.cameraInitiatedQueue with
  | none => []
  | some queue =>
    if (queue.complete c).1 then countActions e.manifest (some (queue.complete c).2) else []

/-- What a call does to the properties. -/
def propActions (e : Engine) (call : Call) : List PropAction :=
  match call with
  | .operation req dataIn | .operationWith _ req dataIn =>
    (e.facing call).operationActions req dataIn
  | .completeStream c => e.completionActions c
  | .applyStateOverlay overlay => overlayActions e.manifest overlay
  | .advancePropertyToNextEnum code => e.nextEnumActions code
  | .applyResponderMutation (.propertyTransition transition) =>
    transitionActions e.manifest transition
  | _ => []

theorem deferred_write (staged : StagedOverlay) (s : CameraState) :
    (staged.write s).deferred =
      s.deferred.replay (staged.props.map fun (code, value) => .set code value) := by
  have hp : ∀ (props : List (UInt16 × PropValue)) (values : UInt16 → Option PropValue),
      Deferred.Store.mk (props.foldl (fun values (code, value) =>
          Function.update values code (some value)) values) s.deferred.pending =
        replay ⟨values, s.deferred.pending⟩
          (props.map fun (code, value) => .set code value) := by
    intro props
    induction props with
    | nil => exact fun _ => rfl
    | cons prop props ih => exact fun values => ih _
  exact hp staged.props s.props

theorem completeStream_deferred (c : StreamCompletion) :
    (e.completeStream c).2.state.deferred = e.state.deferred.replay (e.completionActions c) := by
  unfold completeStream completionActions
  cases e.cameraInitiatedQueue with
  | none => rfl
  | some queue =>
    dsimp only
    cases (queue.complete c).1 with
    | false => rfl
    | true => exact deferred_syncCameraInitiatedCounts _ _ _

theorem applyStateOverlay_deferred (overlay : StateOverlay) :
    (settled e ((e.applyStateOverlay overlay).map (·.2))).state.deferred =
      e.state.deferred.replay (overlayActions e.manifest overlay) := by
  unfold applyStateOverlay overlayActions
  cases stage e.manifest overlay with
  | error _ => rfl
  | ok staged => exact deferred_write staged e.state

theorem advancePropertyToNextEnum_deferred (code : UInt16) :
    (settled e ((e.advancePropertyToNextEnum code).map (·.2))).state.deferred =
      e.state.deferred.replay (e.nextEnumActions code) := by
  unfold advancePropertyToNextEnum nextEnumActions
  cases e.nextEnumValue code with
  | error _ => rfl
  | ok value => exact e.state.deferred_armEffect code value 0

theorem applyResponderMutation_deferred (prepared : PreparedResponderMutation) :
    (settled e (e.applyResponderMutation prepared)).state.deferred =
      e.state.deferred.replay (e.propActions (.applyResponderMutation prepared)) := by
  cases prepared with
  | propertyTransition transition => exact deferred_applyTransition _ _ _
  | enqueueObjects count affected =>
    unfold applyResponderMutation
    cases e.transferQueue with
    | none => rfl
    | some queue => exact deferred_announceObjects _ _ _

/-- **A call replays its actions.** -/
theorem step_deferred (e : Engine) (call : Call) : (e.step call).2.state.deferred =
    e.state.deferred.replay (e.propActions call) := by
  induction call using Call.byKind with
  | idle call hi =>
    rw [(step_idle hi).state]
    cases call <;> first | rfl | cases hi
  | queueRequest call hq =>
    obtain ⟨queue, hn⟩ : Requeued e (e.step call).2 := step_requeued hq
    rw [hn]
    cases call <;> first | rfl | cases hq
  | operation req dataIn =>
    exact dispatched_deferred
  | operationWith tracker req dataIn =>
    exact dispatched_deferred
  | completeStream c => exact completeStream_deferred c
  | applyStateOverlay overlay => exact applyStateOverlay_deferred overlay
  | advancePropertyToNextEnum code => exact advancePropertyToNextEnum_deferred code
  | applyResponderMutation prepared => exact applyResponderMutation_deferred prepared
  | transportLost => rfl
  | clearSessionAfterTransportEnd => rfl
  | takeEvent code =>
    show ((e.state.takeEvent code).2).deferred = _
    unfold CameraState.takeEvent
    split <;> rfl
  | drainEvents => rfl

/-- What a run does to the properties. -/
def journal : Engine → List Call → List PropAction
  | _, [] => []
  | e, call :: calls => e.propActions call ++ journal (e.step call).2 calls

theorem run_deferred (e : Engine) (calls : List Call) :
    (Machine.run step e calls).state.deferred = e.state.deferred.replay (e.journal calls) := by
  induction calls generalizing e with
  | nil => rfl
  | cons call calls ih =>
    rw [Machine.run, ih, step_deferred, journal, replay_append]

end Engine
end Ptpsim.Sim
