/-
# Properties without a value

A manifest can declare a property valueless on a connection, in a mode or for
some values of other properties. While it is, the engine does not serve it. It
decides this in six places (`AccessKind`), and two of them are ahead of the
check (`Overlooks`): while an object queue is configured a computed property is
read before anyone asks whether it has a value, and a step of a property that
refuses writes silently is answered OK first. Everywhere else the property stays
hidden (`valueless_hidden`).

The answer meant is the one of the dispatcher. An operation that the
camera-initiated transfer takes for one of its own is answered by the transfer,
whatever its code.
-/
import Ptpsim.Sim.ObjectQueueRun
import Ptpsim.Sim.PropertyReads

namespace Ptpsim.Sim

open Ptpsim.Core Config Primitives

/-! ### Which operations are answered OK -/

namespace Engine

/-- Nothing answers the operation before the camera-initiated transfer is
asked. -/
def reachesTransfer (e : Engine) (req : OperationRequest) : Bool :=
  (e.state.sessionOpen || req.code = Op.openSession || req.code = Op.getDeviceInfo) &&
    (e.operationGateReply req.code).isNone && (e.shutterBusyReply req).isNone

/-- The camera-initiated transfer takes the operation for one of its own and
answers it OK. -/
def transferServes (e : Engine) (req : OperationRequest) : Bool :=
  (e.preemption req).isNone && (e.handling req).reachesTransfer req &&
    ((e.handling req).cameraInitiatedOperationReply req).any (·.1.isOk)

variable {e : Engine} {req : OperationRequest} {dataIn : Option (List UInt8)} {code : UInt16}

theorem reachesHandler_eq : e.reachesHandler req false = (e.reachesTransfer req &&
    (e.cameraInitiatedOperationReply req).isNone &&
    (isBootstrapOp req.code || (e.operationAvailabilityError req.code).isNone)) := by
  simp [reachesHandler, reachesTransfer]

/-- An operation that is not silently refused is answered OK by the transfer
or by its handler. -/
theorem route_isOk_iff : (e.route req dataIn false).1.reply.isOk = true ↔
    e.reachesTransfer req = true ∧ (e.cameraInitiatedOperationReply req).any (·.1.isOk) = true ∨
      e.reachesHandler req false = true ∧ (e.handle req dataIn).1.reply.isOk = true := by
  rw [reachesHandler_eq]
  unfold route reachesTransfer
  by_cases hs :
      (!e.state.sessionOpen && req.code ≠ Op.openSession && req.code ≠ Op.getDeviceInfo) = true
  · have hc : (e.state.sessionOpen || decide (req.code = Op.openSession) ||
        decide (req.code = Op.getDeviceInfo)) = false := by simpa [and_assoc] using hs
    have hr : ¬ (Reply.err req.transactionId Resp.sessionNotOpen).isOk = true :=
      isOk_err (by decide)
    rw [if_pos hs]
    simp [hc, Handling.reply, hr]
  rw [if_neg hs]
  have ho : (e.state.sessionOpen || decide (req.code = Op.openSession) ||
      decide (req.code = Op.getDeviceInfo)) = true := by
    by_contra hc
    apply hs
    simpa [and_assoc] using hc
  rw [ho]
  rcases hg : e.operationGateReply req.code with _ | reply
  swap
  · simp [operationGateReply_eq hg, Handling.reply, Reply.isOk]
  rcases hbu : e.shutterBusyReply req with _ | ⟨reply, e'⟩
  swap
  · have hr : ¬ (Reply.err req.transactionId Resp.deviceBusy).isOk = true := isOk_err (by decide)
    simp [(shutterBusyReply_eq hbu).1, Handling.reply, hr]
  rcases hca : e.cameraInitiatedOperationReply req with _ | ⟨reply, e'⟩
  swap
  · simp [Handling.reply]
  by_cases hb : isBootstrapOp req.code = true
  · simp [hb]
  rcases ha : e.operationAvailabilityError req.code with _ | response
  · simp [hb]
  · have hr : ¬ (Reply.err req.transactionId response).isOk = true :=
      isOk_err (operationAvailabilityError_ne_ok ha)
    simp [hb, Handling.reply, hr]

theorem answersOk_iff (hs : e.operationIsSilent req.code = false) :
    e.answersOk (req, dataIn) = true ↔ e.transferServes req = true ∨
      e.handled req = true ∧ ((e.handling req).handle req dataIn).1.reply.isOk = true := by
  have hs : (e.faced req).operationIsSilent req.code = false := hs
  simp only [answersOk, transferServes, handled, handles, dispatchOperation_eq, routed, hs,
    Bool.and_eq_true, route_isOk_iff]
  tauto

end Engine

/-! ### The places that decide -/

/-- How a property is touched or shown. -/
inductive AccessKind where
  | value
  | desc
  | write
  | step
  | listing
  | member

/-- The request accesses the property. A record stream shows its members, and
the device info lists every property. -/
inductive Accesses (e : Engine) (req : OperationRequest) (code : UInt16) : AccessKind → Prop
  | value (hcode : req.code = Op.getDevicePropValue)
      (hparam : (Engine.param req 0).toUInt16 = code) : Accesses e req code .value
  | desc (hcode : req.code = Op.getDevicePropDesc)
      (hparam : (Engine.param req 0).toUInt16 = code) : Accesses e req code .desc
  | write (hcode : req.code = Op.setDevicePropValue)
      (hparam : (Engine.param req 0).toUInt16 = code) : Accesses e req code .write
  | step {op : Operation} (hother : e.isStandardOp req.code = false)
      (hvalue : req.code ≠ Op.getDevicePropValue) (hset : req.code ≠ Op.setDevicePropValue)
      (hop : e.manifest.operation req.code = some op) (hkind : op.handler = some .propertyStep)
      (htarget : op.property.bind parseHexCode = some code) : Accesses e req code .step
  | listing (hcode : req.code = Op.getDeviceInfo) : Accesses e req code .listing
  | member {payload : Payload} (hcode : req.code = Op.getDevicePropValue)
      (hpayload : (e.manifest.property (Engine.param req 0).toUInt16).bind (·.payload) =
        some payload)
      (hmember : code ∈ e.memberCodes (Engine.param req 0).toUInt16) : Accesses e req code .member

namespace Engine

/-- The engine an access is judged by. A record stream is built after its read
has polled the members. -/
def judged (e : Engine) (req : OperationRequest) : AccessKind → Engine
  | .member => (e.handling req).pollProperty (param req 0).toUInt16
  | _ => e

end Engine

/-- The request does not get to see the property. -/
def Hidden (e : Engine) (req : OperationRequest) (dataIn : Option (List UInt8)) (code : UInt16) :
    AccessKind → Prop
  | .value | .desc | .write | .step => e.answersOk (req, dataIn) = false
  | .listing => e.handled req = true → ∃ info : DeviceInfo,
      (e.dispatched req dataIn).1 = .ofData req.transactionId (encodedBytes info.encode) ∧
      code ∉ info.devicePropertiesSupported
  | .member => e.handled req = true → e.readsValue (Engine.param req 0).toUInt16 = true →
      ∀ payload, (e.manifest.property (Engine.param req 0).toUInt16).bind (·.payload) =
        some payload →
      (e.dispatched req dataIn).1 = .err req.transactionId Resp.generalError ∨
      ∃ d records bytes, (e.dispatched req dataIn).1 = .ofData req.transactionId bytes ∧
        Engine.streamDescriptor payload = .ok d ∧ typedRecordStream records d = .ok bytes ∧
        code ∉ records.map Prod.fst

/-- The handler answers OK ahead of the check: a computed property while a
queue is configured, and a step that is refused silently. -/
def Overlooks (e : Engine) (code : UInt16) : AccessKind → Prop
  | .value => e.propertyGateReply code = none ∧ e.transferQueue.isSome = true ∧
      ((e.manifest.property code).bind (·.computed)).isSome = true
  | .step => e.propertyIsWriteSilent code = true
  | _ => False

/-- Neither the transfer nor a handler ahead of the check serves the
request. -/
def Checked (e : Engine) (req : OperationRequest) (code : UInt16) : AccessKind → Prop
  | .listing | .member => True
  | kind => e.transferServes req = false ∧ ¬ (e.handled req = true ∧ Overlooks e code kind)

/-! ### The handlers -/

namespace Engine

variable {e : Engine} {req : OperationRequest} {dataIn : Option (List UInt8)} {code : UInt16}
  {tid : UInt32} {kind : AccessKind}

theorem not_isOk_unsupported :
    ¬ (Reply.err tid Resp.devicePropNotSupported).isOk = true := isOk_err (by decide)

theorem getDevicePropValue_valueless (h : e.propertyIsValueless (param req 0).toUInt16 = true) :
    (e.getDevicePropValue req).1.reply.isOk = true ↔ Overlooks e (param req 0).toUInt16 .value := by
  unfold getDevicePropValue Overlooks
  dsimp only
  rcases hg : e.propertyGateReply (param req 0).toUInt16 with _ | reply
  · by_cases hq : e.transferQueue.isSome = true
    · rw [if_pos hq, computedPropertyReply]
      rcases (e.manifest.property (param req 0).toUInt16).bind (·.computed) with _ | computed
      · simp [h, Handling.reply, not_isOk_unsupported]
      · simp [hq, Handling.reply, Reply.ofData, Reply.isOk]
    · simp [h, hq, Handling.reply, not_isOk_unsupported]
  · simp [propertyGateReply_eq hg, Handling.reply, Reply.isOk]

theorem getDevicePropDesc_valueless (h : e.propertyIsValueless (param req 0).toUInt16 = true) :
    ¬ (e.getDevicePropDesc req).reply.isOk = true := by
  unfold getDevicePropDesc
  dsimp only
  rcases hg : e.propertyGateReply (param req 0).toUInt16 with _ | reply
  · simp [h, Handling.reply, not_isOk_unsupported]
  · simp [propertyGateReply_eq hg, Handling.reply, Reply.isOk]

theorem setProp_valueless (h : e.propertyIsValueless code = true) :
    ¬ (e.setProp tid code dataIn).1.isOk = true := by
  have hd : ¬ (Reply.err tid Resp.accessDenied).isOk = true := isOk_err (by decide)
  unfold setProp writeOutcome
  rcases e.manifest.property code with _ | prop
  · exact not_isOk_unsupported
  · by_cases ha : prop.access = some .readWrite
    · simp [ha, h, not_isOk_unsupported]
    · simp [ha, hd]

theorem propertyStepOp_valueless {op : Operation} {params : List UInt32}
    (ht : op.property.bind parseHexCode = some code) (h : e.propertyIsValueless code = true) :
    (e.propertyStepOp tid op params).1.isOk = true ↔ e.propertyIsWriteSilent code = true := by
  unfold propertyStepOp
  rw [ht]
  by_cases hs : e.propertyIsWriteSilent code = true
  · simp [hs, Reply.ok, Reply.isOk]
  · simp [hs, h, not_isOk_unsupported]

theorem handle_valueless (ha : Accesses e req code kind) (ho : kind ≠ .listing ∧ kind ≠ .member)
    (hav : isBootstrapOp req.code = true ∨ e.operationAvailabilityError req.code = none)
    (h : e.propertyIsValueless code = true) :
    (e.handle req dataIn).1.reply.isOk = true ↔ Overlooks e code kind := by
  cases ha with
  | value hc hp =>
    rw [handle_getDevicePropValue hc, ← hp]
    exact getDevicePropValue_valueless (hp ▸ h)
  | desc hc hp =>
    rw [handle_getDevicePropDesc hc]
    exact iff_of_false (getDevicePropDesc_valueless (hp ▸ h)) id
  | write hc hp =>
    rw [handle_setDevicePropValue hc]
    exact iff_of_false (setProp_valueless (hp ▸ h)) id
  | step hot hv hset hop hk ht =>
    rw [handle_declared_reply hot hv hset hav hop, hk]
    exact propertyStepOp_valueless ht h
  | listing => exact absurd rfl ho.1
  | member => exact absurd rfl ho.2

theorem deviceInfo_valueless (h : e.propertyIsValueless code = true) :
    code ∉ e.deviceInfo.devicePropertiesSupported := by
  simp [deviceInfo, h]

theorem recordStreamRecords_valueless (h : e.propertyIsValueless code = true) (payload : Payload) :
    code ∉ (e.recordStreamRecords payload).map Prod.fst := by
  intro hmem
  obtain ⟨⟨recordCode, value⟩, hr, rfl⟩ := List.mem_map.mp hmem
  have hs := (mem_recordStreamRecords.mp hr).1
  rw [h] at hs
  cases hs

theorem accesses_handling (h : Accesses e req code kind) :
    Accesses (e.handling req) req code kind := by
  cases h with
  | value hc hp => exact .value hc hp
  | desc hc hp => exact .desc hc hp
  | write hc hp => exact .write hc hp
  | step ho hv hset hop hk ht => exact .step ho hv hset hop hk ht
  | listing hc => exact .listing hc
  | member hc hpa hm => exact .member hc hpa hm

theorem hidden_operation (ha : Accesses e req code kind) (ho : kind ≠ .listing ∧ kind ≠ .member)
    (hs : e.operationIsSilent req.code = false) (h : e.propertyIsValueless code = true) :
    e.answersOk (req, dataIn) = false ↔
      e.transferServes req = false ∧ ¬ (e.handled req = true ∧ Overlooks e code kind) := by
  have hha : e.handled req = true →
      (((e.handling req).handle req dataIn).1.reply.isOk = true ↔ Overlooks e code kind) :=
    fun hh => handle_valueless (e := e.handling req) (accesses_handling ha) ho
      (handled_available hh) h
  rw [← Bool.not_eq_true, answersOk_iff hs, ← Bool.not_eq_true, not_or]
  refine and_congr_right fun _ => not_congr (and_congr_right fun hh => hha hh)

theorem hidden_listing (hc : req.code = Op.getDeviceInfo)
    (h : e.propertyIsValueless code = true) : Hidden e req dataIn code .listing := by
  intro hh
  refine ⟨e.deviceInfo, ?_, deviceInfo_valueless h⟩
  rw [dispatched_handled hh]
  unfold handle
  rw [hc]
  rfl

theorem hidden_member (hc : req.code = Op.getDevicePropValue)
    (h : (e.judged req .member).propertyIsValueless code = true) :
    Hidden e req dataIn code .member := by
  intro hh hr payload hp
  rw [dispatched_handled hh, handle_getDevicePropValue hc,
    getDevicePropValue_reads (e := e.handling req) hr]
  rcases propertyValueReply_stream (e := e.judged req .member) req.transactionId hp with
    hf | ⟨d, bytes, hb, hd, hs⟩
  · exact .inl hf
  · exact .inr ⟨d, _, bytes, hb, hd, hs, recordStreamRecords_valueless h payload⟩

end Engine

/-- **A property without a value stays hidden.** Whatever the state of the
engine, an operation on it that is not silently refused is not answered OK
exactly if neither the transfer nor a handler ahead of the check serves it;
the device info does not list it, and no record stream shows it. -/
theorem valueless_hidden (e : Engine) (req : OperationRequest) (dataIn : Option (List UInt8))
    (code : UInt16) (kind : AccessKind) (haccess : Accesses e req code kind)
    (hvalueless : (e.judged req kind).propertyIsValueless code = true)
    (hsilent : e.operationIsSilent req.code = false) :
    Hidden e req dataIn code kind ↔ Checked e req code kind := by
  cases kind with
  | listing =>
    rcases haccess with ⟨⟩ | ⟨⟩ | ⟨⟩ | ⟨⟩ | ⟨hc⟩ | ⟨⟩
    exact iff_of_true (Engine.hidden_listing hc hvalueless) trivial
  | member =>
    rcases haccess with ⟨⟩ | ⟨⟩ | ⟨⟩ | ⟨⟩ | ⟨⟩ | ⟨hc, -, -⟩
    exact iff_of_true (Engine.hidden_member hc hvalueless) trivial
  | _ => exact Engine.hidden_operation haccess (by simp) hsilent hvalueless

/-- A camera whose aperture has no value and cannot be set in exposure program
3, with a record stream and a step over the aperture, and a count of objects
without a value. -/
def absentManifest : CameraManifest :=
  { shutterManifest with
    operations := [("0x100e", {}),
      ("0x9050", { handler := some .propertyStep, property := some "0x5007" })]
    properties := [
      ("0x500e", { ptype := some "u16", initialValue := some (.int 3) }),
      ("0x5007", {
        ptype := some "u16"
        access := some .readWrite
        initialValue := some (.int 4)
        dispositions := [
          { disposition := .silentRefusal,
            when := some (.leaf { prop := "0x500e", eq := some 3 }) },
          { disposition := .valueless,
            when := some (.leaf { prop := "0x500e", eq := some 3 }) }] }),
      ("0xd20f",
        { computed := some .objectCount, dispositions := [{ disposition := .valueless }] }),
      ("0xd212", { payload := some { members := [.code "0x500e", .code "0x5007"] } })] }

/-- The session is open, and one still is on offer. -/
def absent : Engine :=
  Machine.run Engine.step (Engine.new absentManifest twoStills)
    (preseeded ++ [request Op.openSession [1]])

def setAperture : OperationRequest := ⟨1, Op.setDevicePropValue, 2, [0x5007]⟩

theorem valueless_hidden_aperture :
    absent.propertyIsValueless 0x5007 = true ∧
      absent.answersOk (setAperture, some [5, 0]) = false := by
  have hv : absent.propertyIsValueless 0x5007 = true := by decide +kernel
  have hc : absent.transferServes setAperture = false := by decide +kernel
  refine ⟨hv, ?_⟩
  exact (valueless_hidden absent setAperture (some [5, 0]) 0x5007 .write (.write rfl rfl) hv
    (by decide +kernel)).mpr ⟨hc, fun h => h.2⟩

/-- The count of objects is read and the aperture is stepped with OK, though
neither has a value. -/
theorem absent_property_served :
    absent.propertyIsValueless 0xd20f = true ∧ absent.propertyIsValueless 0x5007 = true ∧
      (absent.dispatched ⟨1, Op.getDevicePropValue, 2, [0xd20f]⟩ none).1 =
        .ofData 2 [1, 0, 0, 0] ∧
      (absent.dispatched ⟨1, 0x9050, 3, [1]⟩ none).1 = .ok 3 := by
  refine ⟨?_, ?_, ?_, ?_⟩
  · decide +kernel
  · decide +kernel
  · decide +kernel
  · decide +kernel

end Ptpsim.Sim
