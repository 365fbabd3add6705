/-
# What an operation records of the session

An operation opens the session, closes it, or moves from one feature to
another, and it records in the lifecycle which of these it did, in the one
tracker it was handed. At most one transition is recorded by an operation, and
a session is opened only where there is none, and closed only where there is
one (`onOperation_records`).
-/
import Ptpsim.Sim.Frame

namespace Ptpsim.Sim

open Ptpsim.Core Config

/-- Whether a session is open before and after transitions that one operation
records. -/
inductive SessionEffect : Bool → List ConnectionLifecycleTransition → Bool → Prop
  | nothing (isOpen : Bool) : SessionEffect isOpen [] isOpen
  | opened : SessionEffect false [.ptpSessionOpened] true
  | closed : SessionEffect true [.ptpSessionClosed] false
  | entered (isOpen : Bool) (mode : FeatureMode) :
      SessionEffect isOpen [.featureEntered mode] isOpen
  | exited (isOpen : Bool) : SessionEffect isOpen [.featureExited] isOpen

/-- The session moves as the transitions recorded on the way say. -/
def Records (e e' : Engine) : Prop :=
  ∃ transitions, SessionEffect e.state.sessionOpen transitions e'.state.sessionOpen ∧
    e'.lifecycle = transitions.foldl recordLifecycle e.lifecycle

namespace Records

variable {e e₁ e₂ : Engine}

theorem same (hs : e₁.state.sessionOpen = e.state.sessionOpen)
    (hl : e₁.lifecycle = e.lifecycle) : Records e e₁ :=
  ⟨[], hs ▸ .nothing _, hl⟩

theorem refl (e : Engine) : Records e e := same rfl rfl

theorem of_untouched (h : Untouched e e₁) (hl : e₁.lifecycle = e.lifecycle) :
    Records e e₁ :=
  same h.session.sessionOpen hl

theorem before (h : Records e₁ e₂) (hs : e₁.state.sessionOpen = e.state.sessionOpen)
    (hl : e₁.lifecycle = e.lifecycle) : Records e e₂ := by
  unfold Records at h
  rwa [hs, hl] at h

theorem after (h : Records e e₁) (hs : e₂.state.sessionOpen = e₁.state.sessionOpen)
    (hl : e₂.lifecycle = e₁.lifecycle) : Records e e₂ := by
  unfold Records at h ⊢
  rwa [hs, hl]

end Records

namespace Engine

variable {e : Engine} {req : OperationRequest} {dataIn : Option (List UInt8)}

theorem openSession_records : Records e (e.openSession req).2 := by
  unfold openSession
  split
  · exact .refl e
  rename_i hc
  split
  · exact .refl e
  · refine ⟨[.ptpSessionOpened], ?_, rfl⟩
    rw [Bool.not_eq_true _ |>.mp hc]
    exact .opened

theorem closeSession_records (ho : e.state.sessionOpen = true) :
    Records e (e.closeSession req).2 := by
  refine ⟨[.ptpSessionClosed], ?_, rfl⟩
  rw [ho]
  exact .closed

theorem refreshDetectedMode_records : Records e e.refreshDetectedMode := by
  have hl : e.refreshDetectedMode.lifecycle = e.lifecycle ∨
      ∃ mode, e.refreshDetectedMode.lifecycle = recordFeatureMode e.lifecycle mode := by
    simp only [refreshDetectedMode]
    split
    · exact .inr ⟨_, rfl⟩
    · exact .inl rfl
  rcases hl with hs | ⟨_ | mode, hm⟩
  · exact .same rfl hs
  · exact ⟨[.featureExited], .exited _, hm⟩
  · exact ⟨[.featureEntered mode], .entered _ mode, hm⟩

theorem setProp_records {tid : UInt32} {code : UInt16} :
    Records e (e.setProp tid code dataIn).2 := by
  unfold setProp
  split
  · exact .refl e
  · exact .refl e
  · exact refreshDetectedMode_records.before rfl rfl

theorem deleteObject_lifecycle : (e.deleteObject req).2.lifecycle = e.lifecycle := by
  unfold deleteObject
  split <;> rfl

theorem getDevicePropValue_lifecycle : (e.getDevicePropValue req).2.lifecycle = e.lifecycle := by
  unfold getDevicePropValue
  dsimp only
  repeat' split
  all_goals rfl

theorem initiateOpenCapture_lifecycle : (e.initiateOpenCapture req).2.lifecycle = e.lifecycle := by
  unfold initiateOpenCapture
  split <;> rfl

theorem propertyStepOp_lifecycle {tid : UInt32} {op : Operation} {params : List UInt32} :
    (e.propertyStepOp tid op params).2.lifecycle = e.lifecycle := by
  unfold propertyStepOp
  repeat' split
  all_goals rfl

theorem dispatchManifestOp_lifecycle {tid : UInt32} {code : UInt16} {params : List UInt32} :
    (e.dispatchManifestOp tid code params).2.lifecycle = e.lifecycle := by
  unfold dispatchManifestOp
  repeat' split
  all_goals first | rfl | exact propertyStepOp_lifecycle

theorem handle_records (hopen : req.code = Op.closeSession → e.state.sessionOpen = true) :
    Records e (e.handle req dataIn).2 := by
  apply handle_cases (P := fun r => Records e r.2)
  case hopen => exact fun _ => openSession_records
  case hclose => exact fun hclose => closeSession_records (hopen hclose)
  case hset => exact fun _ => setProp_records
  case hdelete => exact fun _ => .of_untouched deleteObject_untouched deleteObject_lifecycle
  case hvalue =>
    exact fun _ => .of_untouched getDevicePropValue_untouched getDevicePropValue_lifecycle
  case hterminate => exact .of_untouched terminateOpenCapture_untouched rfl
  case hinitiate => exact .of_untouched initiateOpenCapture_untouched initiateOpenCapture_lifecycle
  case hmanifest => exact .of_untouched dispatchManifestOp_untouched dispatchManifestOp_lifecycle
  -- the others only read the engine
  all_goals first | exact .refl e | exact fun _ => .refl e

variable (e req dataIn) in
theorem route_records (silent : Bool) : Records e (e.route req dataIn silent).2 := by
  have hb {e' : Engine} (h : Bypassed e e') : Records e e' := by
    obtain ⟨armed, busy, rfl⟩ := h
    exact .same rfl rfl
  apply route_cases (P := fun r => Records e r.2)
  case hbusy => exact fun e' h => hb h
  case hcamera =>
    intro reply e' hr
    exact hb (cameraInitiatedOperationReply_eq hr).1
  case hhandle => exact fun ho _ _ => handle_records ho
  case hunavailable => exact fun _ _ => .refl e
  case hsilent => exact fun _ _ => .refl e
  all_goals exact .refl e

variable (e req dataIn) in
theorem dispatchOperation_records : Records e (e.dispatchOperation req dataIn).2 := by
  have hr : Records e (e.routed req dataIn).2 :=
    (route_records (e.prepareCameraInitiatedPreModeProbe req) req dataIn _).before rfl rfl
  rw [dispatchOperation_eq]
  split
  · exact hr.after (applySuccessfulOperation_state _ _ _ _).sessionOpen rfl
  · exact hr

variable (e req dataIn) in
/-- **What an operation records.** At most one transition: a session that is
opened where there was none, one that is closed, or another feature. -/
theorem onOperation_records : Records e (e.onOperation req dataIn).2 := by
  have hd : Records e (e.dispatched req dataIn).2 := by
    unfold dispatched
    split
    · exact .same rfl rfl
    · exact (dispatchOperation_records (e.faced req) req dataIn).before rfl rfl
  exact hd.after rfl rfl

theorem onOperationWithConnectionLifecycle_records (e : Engine)
    (tracker : ConnectionLifecycleTracker) (req : OperationRequest)
    (dataIn : Option (List UInt8)) :
    let result := e.onOperationWithConnectionLifecycle tracker req dataIn
    ∃ transitions,
      SessionEffect e.state.sessionOpen transitions result.2.state.sessionOpen ∧
        result.1.2 = transitions.foldl recordLifecycle tracker :=
  onOperation_records { e with lifecycle := tracker } req dataIn

theorem completeStream_sessionOpen (c : StreamCompletion) :
    (e.completeStream c).2.state.sessionOpen = e.state.sessionOpen := by
  unfold completeStream
  split
  · rfl
  · dsimp only
    split
    · exact (KeepsSession.syncCameraInitiatedCounts _ _ _).sessionOpen
    · rfl

end Engine
end Ptpsim.Sim
