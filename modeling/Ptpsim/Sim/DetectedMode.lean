/-
# The detected mode

The engine detects the mode anew when a property write is stored, and forgets
it when a session opens or closes or an overlay sets the phase; nothing else
touches it (`step_activeMode`). The other writers of properties leave it as it
is: vendor steps, the effects of operations and their settling, responder
transitions, overlays of properties alone, the published object count. So the
detected mode is the one of the values as the last stored write left them
(`detected_at_last_write`).
-/
import Ptpsim.Sim.PropertyReads

namespace Ptpsim.Sim

open Ptpsim.Core Config Deferred

/-- The integer values of a store, as the predicates observe them. -/
def observed (s : Deferred.Store UInt16 PropValue) : PropView :=
  fun code => (s.values code).bind valueToI64

theorem observedView_eq (s : CameraState) : s.observedView = observed s.deferred := rfl

/-! ### One call -/

namespace Engine

variable {e : Engine} {req : OperationRequest} {dataIn : Option (List UInt8)}

/-- The property write of a handler that is stored. -/
def handlerWrite (e : Engine) (req : OperationRequest) (dataIn : Option (List UInt8)) :
    Option (UInt16 × PropValue) :=
  if req.code = Op.setDevicePropValue then
    (e.storedValue (param req 0).toUInt16 dataIn).map fun v => ((param req 0).toUInt16, v)
  else none

/-- The property write of an operation that is stored. -/
def operationWrite (e : Engine) (req : OperationRequest) (dataIn : Option (List UInt8)) :
    Option (UInt16 × PropValue) :=
  if e.handled req then (e.handling req).handlerWrite req dataIn else none

/-- The property write of a call that is stored. -/
def storedWrite (e : Engine) : Call → Option (UInt16 × PropValue)
  | .operation req dataIn => e.operationWrite req dataIn
  | .operationWith tracker req dataIn => { e with lifecycle := tracker }.operationWrite req dataIn
  | _ => none

/-- What a call that stores no write does to the detected mode. -/
def KeepsMode (s s' : CameraState) : Prop := s'.activeMode = none ∨ s'.activeMode = s.activeMode

theorem KeepsMode.of_keeps {s s' : CameraState} (h : KeepsSession s s') : KeepsMode s s' :=
  .inr h.activeMode

/-- What an operation does to the mode, before its success is applied. -/
def Detects (e : Engine) (write : Option (UInt16 × PropValue)) (s : CameraState) : Prop :=
  match write with
  | some (code, v) =>
    s.activeMode = e.manifest.detectMode (observed (e.state.deferred.apply (.set code v)))
  | none => KeepsMode e.state s

theorem setProp_detects {tid : UInt32} {code : UInt16} :
    Detects e ((e.storedValue code dataIn).map fun v => (code, v))
      (e.setProp tid code dataIn).2.state := by
  rw [setProp_snd]
  cases e.storedValue code dataIn with
  | none => exact .inr rfl
  | some v => rfl

variable (e req dataIn) in
theorem handle_detects : Detects e (e.handlerWrite req dataIn) (e.handle req dataIn).2.state := by
  unfold handlerWrite
  by_cases hset : req.code = Op.setDevicePropValue
  · rw [if_pos hset, handle_setDevicePropValue hset]
    exact setProp_detects
  · rw [if_neg hset]
    apply handle_snd (P := fun e' => KeepsMode e.state e'.state)
    · exact fun e' h => .of_keeps h.session
    · intro _
      unfold openSession
      split
      · exact .inr rfl
      · split
        · exact .inr rfl
        · exact .inl rfl
    · exact fun _ => .inl rfl
    · exact fun h => absurd h hset

variable (e req dataIn) in
theorem routed_detects :
    Detects e (if e.handles req then (e.probed req).handlerWrite req dataIn else none)
      (e.routed req dataIn).2.state := by
  rcases route_reaches (e.probed req) req dataIn (e.operationIsSilent req.code) with
    ⟨hr, hro⟩ | ⟨hr, armed, busy, hro⟩
  · rw [routed, hro, handles, if_pos hr]
    exact handle_detects (e.probed req) req dataIn
  · rw [routed, hro, handles, hr, if_neg Bool.false_ne_true]
    exact .inr rfl

theorem Detects.of_keeps {write : Option (UInt16 × PropValue)} {s s' : CameraState}
    (h : Detects e write s) (hm : s'.activeMode = s.activeMode) : Detects e write s' := by
  cases write with
  | none =>
    show s'.activeMode = none ∨ s'.activeMode = e.state.activeMode
    rwa [hm]
  | some w =>
    show s'.activeMode = _
    rw [hm]
    exact h

variable (e req dataIn) in
theorem dispatchOperation_detects :
    Detects e (if e.handles req then (e.probed req).handlerWrite req dataIn else none)
      (e.dispatchOperation req dataIn).2.state := by
  apply (routed_detects e req dataIn).of_keeps
  rw [dispatchOperation_eq]
  split
  · exact (applySuccessfulOperation_state _ req dataIn _).activeMode
  · rfl

variable (e req dataIn) in
theorem dispatched_detects :
    Detects e (e.operationWrite req dataIn) (e.dispatched req dataIn).2.state := by
  unfold dispatched operationWrite handled
  cases e.preemption req with
  | some reply => exact .inr rfl
  | none => exact dispatchOperation_detects (e.faced req) req dataIn

theorem completeStream_activeMode (c : StreamCompletion) :
    (e.completeStream c).2.state.activeMode = e.state.activeMode := by
  unfold completeStream
  split
  · rfl
  · dsimp only
    split
    · exact (KeepsSession.syncCameraInitiatedCounts _ _ _).activeMode
    · rfl

theorem applyStateOverlay_activeMode (overlay : StateOverlay) :
    KeepsMode e.state (settled e ((e.applyStateOverlay overlay).map (·.2))).state := by
  unfold applyStateOverlay
  cases stage e.manifest overlay with
  | error _ => exact .inr rfl
  | ok staged =>
    by_cases hp : staged.phase.isSome = true
    · exact .inl (if_pos hp)
    · exact .inr (if_neg hp)

/-- **A stored write detects the mode**, and all other calls keep or forget
it. -/
theorem step_activeMode (e : Engine) (call : Call) :
    Detects e (e.storedWrite call) (e.step call).2.state := by
  cases call with
  | operation req dataIn =>
    exact dispatched_detects e req dataIn
  | operationWith tracker req dataIn =>
    exact dispatched_detects { e with lifecycle := tracker } req dataIn
  | completeStream c => exact .inr (completeStream_activeMode c)
  | applyStateOverlay overlay => exact applyStateOverlay_activeMode overlay
  | transportLost => exact .inl rfl
  | clearSessionAfterTransportEnd => exact .inl rfl
  | _ => exact .inr (step_untouched rfl).session.activeMode

/-! ### The last write of a run -/

theorem operationWrite_actions {code : UInt16} {v : PropValue}
    (h : e.operationWrite req dataIn = some (code, v)) :
    ∃ rest, e.operationActions req dataIn = .set code v :: rest := by
  obtain ⟨hh, h⟩ := Option.ite_none_right_eq_some.mp h
  obtain ⟨hset, h⟩ := Option.ite_none_right_eq_some.mp h
  obtain ⟨w, hs, hw⟩ := Option.map_eq_some_iff.mp h
  obtain ⟨rfl, rfl⟩ := Prod.mk.inj hw
  obtain ⟨hpre, hha⟩ := Bool.and_eq_true_iff.mp hh
  have ho : (e.handling req).isStandardOp Op.setDevicePropValue = false := rfl
  have ha : (e.handling req).handleActions req dataIn = [.set (param req 0).toUInt16 w] := by
    rw [handleActions, hset, ho, if_neg Bool.false_ne_true, if_neg (by decide), if_pos rfl, hs]
    rfl
  have hpre : (e.preemption req).isSome = false := by simpa using hpre
  rw [operationActions, hpre, if_neg Bool.false_ne_true, dispatchActions, if_pos hha, ha]
  exact ⟨_, rfl⟩

theorem storedWrite_actions {call : Call} {code : UInt16} {v : PropValue}
    (h : e.storedWrite call = some (code, v)) :
    ∃ rest, e.propActions call = .set code v :: rest := by
  cases call with
  | operation req dataIn => exact operationWrite_actions h
  | operationWith tracker req dataIn => exact operationWrite_actions h
  | _ => cases h

end Engine

/-- The store as the last stored write left it, and what has been done to it
since. -/
structure LastWrite where
  written : Deferred.Store UInt16 PropValue
  since : List PropAction

namespace Engine

/-- A stored write starts anew, any other call adds its actions. -/
def noteWrite (e : Engine) (call : Call) (last : Option LastWrite) : Option LastWrite :=
  match e.storedWrite call with
  | some (code, v) => some ⟨e.state.deferred.apply (.set code v), (e.propActions call).tail⟩
  | none => last.map fun w => { w with since := w.since ++ e.propActions call }

/-- The last stored write of a run. -/
def lastWrite (e : Engine) (calls : List Call) : Option LastWrite :=
  (Machine.run (Machine.recorded step noteWrite) (e, none) calls).2

/-- What holds of the engine and the last write along a run. -/
structure Detected (manifest : CameraManifest) (e : Engine) (last : Option LastWrite) : Prop where
  manifest_eq : e.manifest = manifest
  deferred_eq : ∀ w, last = some w → e.state.deferred = w.written.replay w.since
  mode : e.state.activeMode = none ∨
    ∃ w, last = some w ∧ e.state.activeMode = manifest.detectMode (observed w.written)

theorem detected_step {manifest : CameraManifest} {e : Engine} {last : Option LastWrite}
    (h : Detected manifest e last) (call : Call) :
    Detected manifest (e.step call).2 (e.noteWrite call last) := by
  have hm := step_activeMode e call
  have hma : (e.step call).2.manifest = manifest := (step_setup e call).1.trans h.manifest_eq
  cases hwr : e.storedWrite call with
  | some w =>
    -- the write detects the mode, and what follows it in the call comes after
    obtain ⟨rest, ha⟩ := storedWrite_actions hwr
    have hn : e.noteWrite call last = some ⟨e.state.deferred.apply (.set w.1 w.2), rest⟩ := by
      rw [noteWrite, hwr, ha]
      rfl
    rw [hwr] at hm
    refine ⟨hma, fun w' hw' => ?_, .inr ⟨_, hn, ?_⟩⟩
    · rw [hn] at hw'
      cases hw'
      rw [step_deferred, ha]
      rfl
    · rw [← h.manifest_eq]
      exact hm
  | none =>
    have hn : e.noteWrite call last =
        last.map fun w => { w with since := w.since ++ e.propActions call } := by
      rw [noteWrite, hwr]
    rw [hwr] at hm
    refine ⟨hma, fun w' hw' => ?_, ?_⟩
    · rw [hn] at hw'
      obtain ⟨w, hw, rfl⟩ := Option.map_eq_some_iff.mp hw'
      rw [step_deferred, h.deferred_eq w hw, Store.replay_append]
    · rcases hm with hno | hs
      · exact .inl hno
      rcases h.mode with hno | ⟨w, hw, hd⟩
      · exact .inl (hs.trans hno)
      · refine .inr ⟨_, by rw [hn, hw]; rfl, ?_⟩
        exact hs.trans hd

theorem detected_run (manifest : CameraManifest) (store : Ptpsim.Store.MediaStore)
    (calls : List Call) : Detected manifest (Machine.run step (new manifest store) calls)
      ((new manifest store).lastWrite calls) := by
  have hnew : Detected manifest (new manifest store) none :=
    ⟨rfl, fun _ hw => (nomatch hw), .inl (KeepsSession.syncCameraInitiatedCounts _ _ _).activeMode⟩
  have hrun : Detected manifest
      (Machine.run (Machine.recorded step noteWrite) (new manifest store, none) calls).1
      (Machine.run (Machine.recorded step noteWrite) (new manifest store, none) calls).2 :=
    Machine.run_invariant (Machine.recorded step noteWrite)
      (P := fun eg => Detected manifest eg.1 eg.2) (fun eg call h => detected_step h call) _ calls
      hnew
  rwa [Machine.run_recorded] at hrun

end Engine

/-- **The mode of the last stored write.** In every run the detected mode is
absent, or the one detected from the values the last stored write left; and
then it is the one detected from the current values, unless a property that a
detect predicate reads has been given a value since. -/
theorem detected_at_last_write (manifest : CameraManifest) (store : Ptpsim.Store.MediaStore)
    (calls : List Call) :
    let e := Machine.run Engine.step (Engine.new manifest store) calls
    e.state.activeMode = none ∨
      ∃ w, (Engine.new manifest store).lastWrite calls = some w ∧
        e.state.deferred = w.written.replay w.since ∧
        e.state.activeMode = manifest.detectMode (observed w.written) ∧
        (w.written.disturbs manifest.detectReads w.since = false →
          e.state.activeMode = manifest.detectMode e.state.observedView) := by
  intro e
  have hrun := Engine.detected_run manifest store calls
  rcases hrun.mode with hn | ⟨w, hw, hde⟩
  · exact .inl hn
  have hd : e.state.deferred = w.written.replay w.since := hrun.deferred_eq w hw
  refine .inr ⟨w, hw, hd, hde, fun hq => ?_⟩
  have hv : manifest.detectMode (observed w.written) =
    manifest.detectMode e.state.observedView := by
    apply manifest.detectMode_congr
    intro code hc
    rw [observedView_eq, hd, observed, observed, Store.values_of_not_disturbs hc _ _ hq]
  rw [← hv]
  exact hde

/-- A camera whose selector property decides the mode. -/
def selectorManifest : CameraManifest where
  camera := ⟨"", "", "", []⟩
  properties := [("0xdf01", { ptype := some "u16", access := some .readWrite })]
  modes := [("import", { detect := some (.leaf { prop := "0xdf01", eq := some 1 }) }),
    ("shooting", { detect := some (.leaf { prop := "0xdf01", eq := some 22 }) })]

/-- An overlay of the selector leaves the mode of the write before it. -/
theorem overlay_keeps_mode :
    let e := Machine.run Engine.step (Engine.new selectorManifest emptyCard)
      [request Op.openSession [1],
        .operation ⟨1, Op.setDevicePropValue, 1, [0xdf01]⟩ (some [22, 0]),
        .applyStateOverlay { props := [("0xdf01", .integer 1)] }]
    e.state.activeMode = some "shooting" ∧
      selectorManifest.detectMode e.state.observedView = some "import" := by
  decide +kernel

end Ptpsim.Sim
