/-
# Refused operations

An operation that is refused, that fails or that is met with silence leaves
the camera as it was, and so does one that is silently refused with OK
(`refused_only_polls`). What may differ afterwards is the bookkeeping of the
faults, the latch of the metadata probe and the number of busy answers left;
and a read that gets as far as the value of a property polls it and its members,
and may still fail (`failed_read_polls`).

The answer meant is the one of the dispatcher. A fault can withhold the answer
OK of an operation that has been carried out.
-/
import Ptpsim.Sim.PropertyActions

namespace Ptpsim.Sim

open Ptpsim.Core Config

namespace Engine

variable {e : Engine} {req : OperationRequest} {dataIn : Option (List UInt8)}

/-! ### Handlers -/

theorem openSession_refused (h : (e.openSession req).1.reply.isOk = false) :
    (e.openSession req).2 = e := by
  unfold openSession at h ⊢
  split_ifs at h ⊢
  · rfl
  · rfl
  · cases h

theorem deleteObject_refused (h : (e.deleteObject req).1.reply.isOk = false) :
    (e.deleteObject req).2 = e := by
  unfold deleteObject at h ⊢
  split
  · rename_i queue hq
    simp only [hq, Handling.reply] at h
    -- a handle that is on offer is deleted with OK
    have hnot : param req 0 ∉ queue.available := by
      intro hmem
      simp [TransferQueue.drain, hmem, Reply.ok, Reply.isOk] at h
    simp [TransferQueue.drain, hnot, ← hq]
  · rfl

theorem setProp_refused {tid : UInt32} {code : UInt16}
    (h : (e.setProp tid code dataIn).1.isOk = false) : (e.setProp tid code dataIn).2 = e := by
  unfold setProp at h ⊢
  cases ho : e.writeOutcome code dataIn with
  | refused response => rfl
  | dropped => rfl
  | stored value =>
    rw [ho] at h
    cases h

theorem initiateOpenCapture_refused (h : (e.initiateOpenCapture req).1.reply.isOk = false) :
    (e.initiateOpenCapture req).2 = e := by
  unfold initiateOpenCapture at h ⊢
  split at h
  · cases h
  · rename_i hp
    rw [if_neg hp]

theorem dispatchManifestOp_refused {tid : UInt32} {code : UInt16} {params : List UInt32}
    (h : (e.dispatchManifestOp tid code params).1.isOk = false) :
    (e.dispatchManifestOp tid code params).2 = e := by
  unfold dispatchManifestOp at h ⊢
  split
  · rfl
  · rfl
  · rename_i op ha hop
    simp only [ha, hop] at h
    split
    · rename_i hh
      simp only [hh] at h
      unfold propertyStepOp at h ⊢
      split
      · rfl
      · rename_i target ht
        simp only [ht] at h
        split_ifs at h ⊢
        · rfl
        · rfl
        · -- a step is answered OK
          cases h
    · rfl
    · rfl

/-- The codes the handler of an operation polls. -/
def handlerPolls (e : Engine) (req : OperationRequest) : List UInt16 :=
  if req.code = Op.getDevicePropValue then e.polledCodes (param req 0).toUInt16 else []

/-- A handler that does not answer OK has polled, at most. -/
theorem handle_refused (h : (e.handle req dataIn).1.reply.isOk = false) :
    (e.handle req dataIn).2 = { e with
      state := (e.handlerPolls req).foldl CameraState.resolvePending e.state } := by
  by_cases hvalue : req.code = Op.getDevicePropValue
  · rw [handle_getDevicePropValue hvalue, getDevicePropValue_snd, handlerPolls, if_pos hvalue]
  · rw [handlerPolls, if_neg hvalue]
    revert h
    apply handle_cases (P := fun r => r.1.reply.isOk = false → r.2 = e)
    case hopen => exact fun _ => openSession_refused
    case hclose => exact fun _ h => nomatch h
    case hdelete => exact fun _ => deleteObject_refused
    case hvalue => exact fun hc => absurd hc hvalue
    case hset => exact fun _ => setProp_refused
    case hterminate => exact fun h => nomatch h
    case hinitiate => exact initiateOpenCapture_refused
    case hmanifest => exact dispatchManifestOp_refused
    -- the others only read the engine
    case hdata => exact fun _ _ => rfl
    all_goals exact fun _ => rfl

/-! ### Operations -/

/-- The codes an operation polls. -/
def polls (e : Engine) (req : OperationRequest) : List UInt16 :=
  if e.handled req then e.handlerPolls req else []

/-- The engine is the same but for the bookkeeping of the faults, the latch of
the metadata probe, the busy answers left, and one poll of each of the
properties. -/
def OnlyPolls (e : Engine) (req : OperationRequest) (codes : List UInt16) (e' : Engine) : Prop :=
  let polled := codes.foldl CameraState.resolvePending e.state
  ∃ armed busy, e' = { e with
    faults := (e.takeFault req).2.faults
    appliedFault := (e.takeFault req).1.1
    cameraInitiatedPreModeProbeArmed := armed
    transferQueue := e.transferQueue.map fun q => { q with shutterBusyResponsesRemaining := busy }
    state := { e.state with props := polled.props, pending := polled.pending } }

/-- A fault withholds the answer OK of an operation that was carried out. -/
def Withholds (e : Engine) (req : OperationRequest) (dataIn : Option (List UInt8)) : Prop :=
  (e.takeFault req).1.2 = some (.suppress .response) ∧ (e.dispatched req dataIn).1.isOk = true

theorem routed_refused (h : e.silentlyRefused req = true ∨
      (e.routed req dataIn).1.reply.isOk = false) :
    ∃ armed busy, (e.routed req dataIn).2 = { e with
      cameraInitiatedPreModeProbeArmed := armed
      transferQueue := e.transferQueue.map fun q => { q with shutterBusyResponsesRemaining := busy }
      state := (if e.handles req then e.handlerPolls req else []).foldl
        CameraState.resolvePending e.state } := by
  rcases route_reaches (e.probed req) req dataIn (e.operationIsSilent req.code) with
    ⟨hr, hro⟩ | ⟨hr, armed, busy, hro⟩
  · -- the handler has been reached, so that the operation is not silent
    have hre : (e.routed req dataIn).1.reply.isOk = false := by
      rcases h with hs | hre
      · rw [silentlyRefused, Bool.and_eq_true] at hs
        simp [reachesHandler, hs.1] at hr
      · exact hre
    rw [routed, hro] at hre
    obtain ⟨armed, busy, hsa⟩ := Bypassed.latch e (e.probed req).cameraInitiatedPreModeProbeArmed
    have hq : e.transferQueue =
        e.transferQueue.map fun q => { q with shutterBusyResponsesRemaining := busy } :=
      congrArg Engine.transferQueue hsa
    refine ⟨(e.probed req).cameraInitiatedPreModeProbeArmed, busy, ?_⟩
    rw [routed, hro, handle_refused hre, handles, if_pos hr, ← hq]
    rfl
  · refine ⟨armed, busy, ?_⟩
    rw [routed, hro, handles, hr, if_neg Bool.false_ne_true]
    rfl

theorem dispatched_refused (h : (e.faced req).silentlyRefused req = true ∨
      (e.dispatched req dataIn).1.isOk = false) : e.OnlyPolls req (e.polls req)
      { (e.dispatched req dataIn).2 with appliedFault := (e.takeFault req).1.1 } := by
  unfold OnlyPolls
  dsimp only
  rw [← CameraState.polled_eq, polls, handled]
  unfold dispatched at h ⊢
  cases hpre : e.preemption req with
  | some reply =>
    obtain ⟨armed, busy, hs⟩ := Bypassed.refl (e.faced req)
    refine ⟨armed, busy, ?_⟩
    rw [hs]
    rfl
  | none =>
    simp only [hpre] at h ⊢
    rw [dispatchOperation_eq] at h ⊢
    have hu : (e.faced req).reachesGates req dataIn = false := by
      rw [reachesGates, dispatchOperation_eq]
      rcases h with h | h <;> simp [h]
    obtain ⟨armed, busy, hr⟩ := routed_refused h
    refine ⟨armed, busy, ?_⟩
    rw [hu, if_neg Bool.false_ne_true, hr]
    rfl

/-- A fault does not turn OK into a refusal but by withholding the answer. -/
theorem mutateReply_isOk {manifest : CameraManifest} {mutation : FaultMutation} {reply : Reply}
    (h : mutation ≠ .suppress .response) :
    (mutateReply manifest req mutation reply).isOk = reply.isOk := by
  cases mutation with
  | truncateData keep => cases reply <;> rfl
  | replaceData bytes => cases reply <;> rfl
  | suppress stage =>
    cases stage with
    | data => cases reply <;> rfl
    | response => exact absurd rfl h
  | propertyReadback value =>
    show (replacePropertyReadback manifest req reply value).isOk = reply.isOk
    unfold replacePropertyReadback
    dsimp only
    split
    · split <;> rfl
    · rfl
  | _ => rfl

variable (e req dataIn) in
theorem onOperation_refused
    (h : (e.faced req).silentlyRefused req = true ∨
      (e.onOperation req dataIn).1.isOk = false ∧ ¬ e.Withholds req dataIn) :
    e.OnlyPolls req (e.polls req) (e.onOperation req dataIn).2 := by
  rw [onOperation_eq] at h ⊢
  apply dispatched_refused
  refine h.imp_right fun ⟨hw, hwi⟩ => ?_
  by_contra hok
  rw [Bool.not_eq_false] at hok
  split at hw
  · rename_i mutation hm
    rw [mutateReply_isOk fun heq => hwi ⟨heq ▸ hm, hok⟩, hok] at hw
    cases hw
  · rw [hok] at hw
    cases hw

end Engine

/-- **A refused operation changes nothing.** Whatever the state of the engine,
an operation that is silently refused, or whose answer is not OK unless a
fault withholds it, only polls. -/
theorem refused_only_polls (e : Engine) (call : Call) (req : OperationRequest)
    (dataIn : Option (List UInt8)) (reply : Reply)
    (hcall : call.exchange = some (req, dataIn)) (hreply : (e.step call).1 = .reply reply)
    (hrefused : ((e.facing call).faced req).silentlyRefused req = true ∨
      reply.isOk = false ∧ ¬ (e.facing call).Withholds req dataIn) :
    e.OnlyPolls req ((e.facing call).polls req) (e.step call).2 := by
  cases call <;> cases hcall
  case operation =>
    cases hreply
    exact e.onOperation_refused req dataIn hrefused
  case operationWith tracker =>
    cases hreply
    obtain ⟨armed, busy, hs⟩ :=
      { e with lifecycle := tracker }.onOperation_refused req dataIn hrefused
    refine ⟨armed, busy, ?_⟩
    show { ({ e with lifecycle := tracker }.onOperation req dataIn).2 with
      lifecycle := e.lifecycle } = _
    rw [hs]
    rfl

/-- A camera whose number starts out too large for the record of it that the
composite property has, with an operation that moves it to 5 on the second
read. -/
def compositeManifest : CameraManifest where
  camera := ⟨"", "", "", []⟩
  operations :=
    [("0x9001", { effects := [{ setProp := "0xd209", value := 5, settleAfterPolls := 2 }] })]
  properties := [("0xd209", { ptype := some "u16", initialValue := some (.int 300) }),
    ("0xd212", { payload := some {
      members := [.detailed { code := "0xd209", encoding := .fixed 1 }] } })]

/-- The operation has been carried out, nothing has been read yet. -/
def armedComposite : Engine :=
  Machine.run Engine.step (Engine.new compositeManifest emptyCard)
    [request Op.openSession [1], request 0x9001 []]

def readComposite : OperationRequest := ⟨1, Op.getDevicePropValue, 1, [0xd212]⟩

theorem refused_only_polls_composite :
    armedComposite.polls readComposite = [0xd212, 0xd209] ∧
      armedComposite.OnlyPolls readComposite [0xd212, 0xd209]
        (armedComposite.step (.operation readComposite none)).2 := by
  have hp : armedComposite.polls readComposite = [0xd212, 0xd209] := by decide +kernel
  have hre : (armedComposite.step (.operation readComposite none)).1 =
      .reply (armedComposite.onOperation readComposite none).1 := rfl
  have hr : (armedComposite.onOperation readComposite none).1.isOk = false := by
    decide +kernel
  have hsh : ¬ armedComposite.Withholds readComposite none := by
    rintro ⟨hs, -⟩
    cases hs
  refine ⟨hp, ?_⟩
  have ho := refused_only_polls armedComposite (.operation readComposite none) readComposite
    none _ rfl hre (.inr ⟨hr, hsh⟩)
  rwa [show armedComposite.facing (.operation readComposite none) = armedComposite from rfl,
    hp] at ho

/-- The read fails, and the transition of the member is one poll closer. -/
theorem failed_read_polls :
    (armedComposite.onOperation readComposite none).1 = .err 1 Resp.generalError ∧
      armedComposite.state.pending 0xd209 = some ⟨.u16 5, 2⟩ ∧
      (armedComposite.onOperation readComposite none).2.state.pending 0xd209 =
        some ⟨.u16 5, 1⟩ := by
  refine ⟨?_, ?_, ?_⟩
  · decide +kernel
  · decide +kernel
  · decide +kernel

end Ptpsim.Sim
