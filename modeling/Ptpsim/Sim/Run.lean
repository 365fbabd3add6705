/-
# Runs of the engine

A run is a list of calls to the engine: operations and everything the control
surface offers. The camera-initiated queue moves only when a stream completes
(`step_keeps`), and the gates only under operations, overlays and the end of a
session (`step_gates`).
-/
import Ptpsim.Lib.Machine
import Ptpsim.Sim.Frame

namespace Ptpsim.Sim

open Ptpsim.Core Config Fallible

/-- A call that changes the engine. -/
inductive Call where
  | operation (req : OperationRequest) (dataIn : Option (List UInt8))
  | operationWith (tracker : ConnectionLifecycleTracker) (req : OperationRequest)
      (dataIn : Option (List UInt8))
  | completeStream (completion : StreamCompletion)
  | applyStateOverlay (overlay : StateOverlay)
  | transportLost
  | clearSessionAfterTransportEnd
  | bindConnection (connection : String)
  | noteLifecycle (transition : ConnectionLifecycleTransition)
  | installFault (fault : FaultSpec)
  | removeFault (id : UInt64)
  | clearFaults
  | takeAppliedFault
  | apShouldRefuse
  | auxOrphanLeak
  | auxManagedOpen
  | auxManagedClose
  | auxResetState
  | advancePropertyToNextEnum (code : UInt16)
  | applyResponderMutation (prepared : PreparedResponderMutation)
  | enqueueStandardObjects (count : UInt32)
  | preseedStandardObjectQueue (connection : String) (count : UInt32)
  | preseedShutterBusyResponses (connection : String) (attempts : UInt32)
  | preseedStaleLiveViewStream (connection : String)
  | configureStandardObjectQueue (connection : String) (count : UInt32)
  | takeEvent (code : UInt16)
  | drainEvents

/-- What a caller gets to see of a call, as far as the runs below are about
it. -/
inductive Output where
  | reply (reply : Reply)
  | advanced (advanced : Bool)
  | done

/-- A request with the data that came with it. -/
abbrev Exchange := OperationRequest × Option (List UInt8)

/-- The operation of a call. -/
def Call.exchange : Call → Option Exchange
  | operation req dataIn | operationWith _ req dataIn => some (req, dataIn)
  | _ => none

/-- The control requests that touch neither the session nor the gates nor the
camera-initiated queue. -/
def Call.isAside : Call → Bool
  | operation _ _ | operationWith _ _ _ | completeStream _ | applyStateOverlay _ => false
  | transportLost | clearSessionAfterTransportEnd => false
  | _ => true

/-- The requests that touch neither the camera state nor a queue. -/
def Call.isIdle : Call → Bool
  | bindConnection _ | noteLifecycle _ | installFault _ | removeFault _ | clearFaults => true
  | takeAppliedFault | apShouldRefuse | auxOrphanLeak | auxManagedOpen | auxManagedClose => true
  | auxResetState | preseedStaleLiveViewStream _ => true
  | _ => false

/-- The requests that touch nothing but the object queue. -/
def Call.isQueueRequest : Call → Bool
  | enqueueStandardObjects _ | preseedStandardObjectQueue _ _ => true
  | preseedShutterBusyResponses _ _ | configureStandardObjectQueue _ _ => true
  | _ => false

/-- The calls by what they touch: nothing, the object queue alone, or one kind
at a time. -/
@[elab_as_elim]
theorem Call.byKind {P : Call → Prop} (idle : ∀ call : Call, call.isIdle = true → P call)
    (queueRequest : ∀ call : Call, call.isQueueRequest = true → P call)
    (operation : ∀ req dataIn, P (.operation req dataIn))
    (operationWith : ∀ tracker req dataIn, P (.operationWith tracker req dataIn))
    (completeStream : ∀ completion, P (.completeStream completion))
    (applyStateOverlay : ∀ overlay, P (.applyStateOverlay overlay))
    (transportLost : P .transportLost)
    (clearSessionAfterTransportEnd : P .clearSessionAfterTransportEnd)
    (advancePropertyToNextEnum : ∀ code, P (.advancePropertyToNextEnum code))
    (applyResponderMutation : ∀ prepared, P (.applyResponderMutation prepared))
    (takeEvent : ∀ code, P (.takeEvent code)) (drainEvents : P .drainEvents) (call : Call) :
    P call := by
  cases call with
  | operation req dataIn => exact operation req dataIn
  | operationWith tracker req dataIn => exact operationWith tracker req dataIn
  | completeStream completion => exact completeStream completion
  | applyStateOverlay overlay => exact applyStateOverlay overlay
  | transportLost => exact transportLost
  | clearSessionAfterTransportEnd => exact clearSessionAfterTransportEnd
  | advancePropertyToNextEnum code => exact advancePropertyToNextEnum code
  | applyResponderMutation prepared => exact applyResponderMutation prepared
  | takeEvent code => exact takeEvent code
  | drainEvents => exact drainEvents
  | enqueueStandardObjects _ => exact queueRequest _ rfl
  | preseedStandardObjectQueue _ _ => exact queueRequest _ rfl
  | preseedShutterBusyResponses _ _ => exact queueRequest _ rfl
  | configureStandardObjectQueue _ _ => exact queueRequest _ rfl
  | _ => exact idle _ rfl

/-- The engine after a call that may fail; a failed call changes nothing. -/
def settled {ε : Type} (e : Engine) (result : Except ε Engine) : Engine :=
  match result with
  | .ok next => next
  | .error _ => e

namespace Engine

variable (e : Engine) (x : Exchange)

/-- One call to the camera. -/
def step : Call → Output × Engine
  | .operation req dataIn => ((.reply (e.onOperation req dataIn).1), (e.onOperation req dataIn).2)
  | .operationWith tracker req dataIn =>
    let result := e.onOperationWithConnectionLifecycle tracker req dataIn
    (.reply result.1.1, result.2)
  | .completeStream completion =>
    (.advanced (e.completeStream completion).1, (e.completeStream completion).2)
  | .applyStateOverlay overlay => (.done, settled e ((e.applyStateOverlay overlay).map (·.2)))
  | .transportLost => (.done, e.transportLost)
  | .clearSessionAfterTransportEnd => (.done, e.clearSessionAfterTransportEnd)
  | .bindConnection connection => (.done, e.bindConnection connection)
  | .noteLifecycle transition => (.done, e.noteLifecycle transition)
  | .installFault fault => (.done, settled e ((e.installFault fault).map (·.2)))
  | .removeFault id => (.done, (e.removeFault id).2)
  | .clearFaults => (.done, e.clearFaults)
  | .takeAppliedFault => (.done, e.takeAppliedFault.2)
  | .apShouldRefuse => (.done, e.apShouldRefuse.2)
  | .auxOrphanLeak => (.done, settled e e.auxOrphanLeak)
  | .auxManagedOpen => (.done, settled e (e.auxManagedOpen.map (·.2)))
  | .auxManagedClose => (.done, settled e e.auxManagedClose)
  | .auxResetState => (.done, e.auxResetState)
  | .advancePropertyToNextEnum code =>
    (.done, settled e ((e.advancePropertyToNextEnum code).map (·.2)))
  | .applyResponderMutation prepared => (.done, settled e (e.applyResponderMutation prepared))
  | .enqueueStandardObjects count =>
    (.done, settled e ((e.enqueueStandardObjects count).map (·.2)))
  | .preseedStandardObjectQueue connection count =>
    (.done, settled e ((e.preseedStandardObjectQueue connection count).map (·.2)))
  | .preseedShutterBusyResponses connection attempts =>
    (.done, settled e (e.preseedShutterBusyResponses connection attempts))
  | .preseedStaleLiveViewStream connection =>
    (.done, settled e (e.preseedStaleLiveViewStream connection))
  | .configureStandardObjectQueue connection count =>
    (.done, settled e (e.configureStandardObjectQueue connection count))
  | .takeEvent code => (.done, (e.takeEvent code).2)
  | .drainEvents => (.done, e.drainEvents.2)

/-- Whether the call resets the gates. -/
def resets (call : Call) : Bool :=
  match call with
  | .operation _ _ | .operationWith _ _ _ => e.resetsGates (e.step call).2
  | .applyStateOverlay overlay => (e.applyStateOverlay overlay).isOk && overlay.phase.isSome
  | .transportLost | .clearSessionAfterTransportEnd => true
  | _ => false

/-- The gates an operation of the call finds: they may have been reset
first. -/
def gatesAfterReset (call : Call) : SequenceGates :=
  if e.resets call then {} else e.state.gates

/-- The engine as an operation of the call finds it. -/
def facing : Call → Engine
  | .operationWith tracker _ _ => { e with lifecycle := tracker }
  | _ => e

/-- The operation is dispatched and answered OK. What a fault then makes of
the answer on the wire does not matter. -/
def answersOk : Bool :=
  (e.preemption x.1).isNone && ((e.faced x.1).dispatchOperation x.1 x.2).1.isOk

/-- The operation is answered OK and not silently refused. -/
def accepts : Bool :=
  e.answersOk x && !(e.faced x.1).silentlyRefused x.1

/-- The operation is accepted, and not served from a configured queue. -/
def advances : Bool :=
  e.accepts x && !(e.faced x.1).servedFromQueue x.1

/-- What the history becomes with a call: the operations since the last gate
reset that count, the one that caused the reset included. -/
def note (counts : Engine → Exchange → Bool) (e : Engine) (call : Call) (hist : List Exchange) :
    List Exchange :=
  (if e.resets call then [] else hist) ++ (call.exchange.filter (counts (e.facing call))).toList

/-- The operations that count since the last gate reset of a run. -/
def history (counts : Engine → Exchange → Bool) (e : Engine) (calls : List Call) : List Exchange :=
  (Machine.run (Machine.recorded step (note counts)) (e, []) calls).2

end Engine

theorem settled_of {ε : Type} {P : Engine → Prop} {e : Engine} {result : Except ε Engine}
    (hr : P e) (h : ∀ next, result = .ok next → P next) : P (settled e result) := by
  cases result with
  | ok next => exact h next rfl
  | error _ => exact hr

theorem settled_map {ε α : Type} {P : Engine → Prop} {e : Engine}
    {result : Except ε (α × Engine)} (hr : P e)
    (h : ∀ a next, result = .ok (a, next) → P next) : P (settled e (result.map (·.2))) := by
  cases result with
  | ok r => exact h r.1 r.2 rfl
  | error _ => exact hr

/-! ### One call -/

namespace Engine

variable {e : Engine}

theorem applyStateOverlay_eq {overlay : StateOverlay} {applied : AppliedStateOverlay}
    {next : Engine} (h : e.applyStateOverlay overlay = .ok (applied, next)) :
    Keeps e next ∧ next.state.gates = if overlay.phase.isSome then {} else e.state.gates := by
  obtain ⟨staged, hs, h⟩ := bind_eq_ok_iff.mp h
  cases h
  refine ⟨⟨rfl, rfl, rfl, rfl⟩, ?_⟩
  -- a phase that was given has been staged
  obtain ⟨phase, hp, hs⟩ := bind_eq_ok_iff.mp hs
  obtain ⟨props, -, hs⟩ := bind_eq_ok_iff.mp hs
  cases hs
  show (if phase.isSome then e.state.gates.resetGates else e.state.gates) = _
  have hso : phase.isSome = overlay.phase.isSome := by
    unfold stagePhase at hp
    split at hp
    · rename_i hno
      cases hp
      rw [hno]
      rfl
    · rename_i name hn
      split at hp <;> cases hp
      rw [hn]
      rfl
  rw [hso]
  rfl

variable {call : Call} {x : Exchange}

theorem step_idle (h : call.isIdle = true) : Idle e (e.step call).2 := by
  cases call with
  | bindConnection _ => exact ⟨⟨rfl, rfl, rfl, rfl⟩, rfl, rfl⟩
  | noteLifecycle _ => exact ⟨⟨rfl, rfl, rfl, rfl⟩, rfl, rfl⟩
  | installFault _ => exact settled_map (.refl e) fun _ _ => installFault_idle
  | removeFault _ => exact ⟨⟨rfl, rfl, rfl, rfl⟩, rfl, rfl⟩
  | clearFaults => exact ⟨⟨rfl, rfl, rfl, rfl⟩, rfl, rfl⟩
  | takeAppliedFault => exact ⟨⟨rfl, rfl, rfl, rfl⟩, rfl, rfl⟩
  | apShouldRefuse => exact apShouldRefuse_idle
  | auxOrphanLeak => exact settled_of (.refl e) fun _ => auxOrphanLeak_idle
  | auxManagedOpen => exact settled_map (.refl e) fun _ _ => auxManagedOpen_idle
  | auxManagedClose => exact settled_of (.refl e) fun _ => auxManagedClose_idle
  | auxResetState => exact ⟨⟨rfl, rfl, rfl, rfl⟩, rfl, rfl⟩
  | preseedStaleLiveViewStream _ =>
    exact settled_of (.refl e) fun _ => preseedStaleLiveViewStream_idle
  | _ => cases h

/-- Nothing but the object queue is touched. -/
def Requeued (e next : Engine) : Prop := ∃ queue, next = { e with transferQueue := queue }

theorem Requeued.refl (e : Engine) : Requeued e e := ⟨e.transferQueue, rfl⟩

theorem Enqueues.requeued {count : UInt32} {added : ℕ} {next : Engine}
    (h : e.Enqueues count added next) : Requeued e next := by
  obtain ⟨queue, -, -, rfl⟩ := h
  exact ⟨_, rfl⟩

theorem step_requeued (h : call.isQueueRequest = true) : Requeued e (e.step call).2 := by
  have hr : Requeued e e := .refl e
  cases call with
  | enqueueStandardObjects _ =>
    exact settled_map hr fun _ _ hn => (enqueueStandardObjects_enqueues hn).requeued
  | preseedStandardObjectQueue _ _ =>
    exact settled_map hr fun _ _ hn => (preseedStandardObjectQueue_enqueues hn).requeued
  | preseedShutterBusyResponses _ _ =>
    refine settled_of (P := Requeued e) hr fun next hn => ?_
    obtain ⟨queue, -, rfl⟩ := preseedShutterBusyResponses_eq hn
    exact ⟨_, rfl⟩
  | configureStandardObjectQueue _ _ =>
    refine settled_of (P := Requeued e) hr fun next hn => ?_
    rcases configureStandardObjectQueue_eq hn with rfl | ⟨rfl, -⟩ | ⟨sequence, rfl⟩
    · exact hr
    · exact ⟨_, rfl⟩
    · exact ⟨_, rfl⟩
  | _ => cases h

theorem step_untouched (h : call.isAside = true) : Untouched e (e.step call).2 := by
  induction call using Call.byKind with
  | idle call hi => exact (step_idle hi).untouched
  | queueRequest call hq =>
    obtain ⟨queue, hn⟩ : Requeued e (e.step call).2 := step_requeued hq
    rw [hn]
    exact .of_state ⟨rfl, rfl, rfl, rfl⟩ rfl
  | advancePropertyToNextEnum _ =>
    exact settled_map (.refl e) fun _ _ => advancePropertyToNextEnum_untouched
  | applyResponderMutation _ => exact settled_of (.refl e) fun _ => applyResponderMutation_untouched
  | takeEvent code => exact ⟨⟨rfl, rfl, rfl, rfl⟩, .takeEvent e.state code⟩
  | drainEvents => exact ⟨⟨rfl, rfl, rfl, rfl⟩, ⟨rfl, rfl, rfl⟩⟩
  | _ => cases h

/-- An operation call is its dispatch, up to the fault report and the
lifecycle. -/
theorem step_operation (h : call.exchange = some x) :
    Keeps e (e.step call).2 ∧
      (e.step call).2.state = ((e.facing call).dispatched x.1 x.2).2.state := by
  cases call <;> cases h
  case operation req dataIn =>
    show Keeps e (e.onOperation req dataIn).2 ∧ _
    have hk : Keeps e (e.dispatched req dataIn).2 := dispatched_keeps
    exact ⟨⟨hk.manifest, hk.gateSequences, hk.store, hk.cameraInitiatedQueue⟩, rfl⟩
  case operationWith tracker req dataIn =>
    have hk : Keeps { e with lifecycle := tracker }
        ({ e with lifecycle := tracker }.dispatched req dataIn).2 := dispatched_keeps
    exact ⟨⟨hk.manifest, hk.gateSequences, hk.store, hk.cameraInitiatedQueue⟩, rfl⟩

/-- Only the completion of a stream touches the camera-initiated queue. -/
theorem step_keeps (h : ∀ c, call ≠ .completeStream c) : Keeps e (e.step call).2 := by
  cases call with
  | operation req dataIn => exact (step_operation rfl).1
  | operationWith tracker req dataIn => exact (step_operation rfl).1
  | completeStream c => exact absurd rfl (h c)
  | applyStateOverlay overlay =>
    show Keeps e (settled e ((e.applyStateOverlay overlay).map (·.2)))
    cases hr : e.applyStateOverlay overlay with
    | error _ => exact .refl e
    | ok r => exact (applyStateOverlay_eq hr).1
  | transportLost => exact ⟨rfl, rfl, rfl, rfl⟩
  | clearSessionAfterTransportEnd => exact ⟨rfl, rfl, rfl, rfl⟩
  | _ => exact (step_untouched rfl).toKeeps

theorem completeStream_setup (c : StreamCompletion) :
    (e.completeStream c).2.manifest = e.manifest ∧
      (e.completeStream c).2.gateSequences = e.gateSequences ∧
      (e.completeStream c).2.store = e.store ∧
      (e.completeStream c).2.state.gates = e.state.gates := by
  unfold completeStream
  split
  · exact ⟨rfl, rfl, rfl, rfl⟩
  · refine ⟨rfl, rfl, rfl, ?_⟩
    dsimp only
    split
    · exact (KeepsSession.syncCameraInitiatedCounts _ _ _).gates
    · rfl

/-- What the engine is set up with never changes. -/
theorem step_setup (e : Engine) (call : Call) :
    (e.step call).2.manifest = e.manifest ∧ (e.step call).2.gateSequences = e.gateSequences ∧
      (e.step call).2.store = e.store := by
  by_cases hst : ∃ c, call = .completeStream c
  · obtain ⟨c, rfl⟩ := hst
    obtain ⟨hm, hs, hsto, -⟩ := completeStream_setup (e := e) c
    exact ⟨hm, hs, hsto⟩
  · have hk : Keeps e (e.step call).2 := step_keeps fun c hc => hst ⟨c, hc⟩
    exact ⟨hk.manifest, hk.gateSequences, hk.store⟩

theorem run_manifest (e : Engine) (calls : List Call) :
    (Machine.run step e calls).manifest = e.manifest :=
  Machine.run_invariant step (P := fun e' => e'.manifest = e.manifest)
    (fun e' call h => (step_setup e' call).1.trans h) e calls rfl

/-! ### The gates after a call -/

theorem newWith_gates (sequences : List GateSequence) (manifest : CameraManifest)
    (store : Store.MediaStore) : (newWith sequences manifest store).state.gates = {} :=
  (KeepsSession.syncCameraInitiatedCounts _ _ _).gates

theorem dispatched_gates (e : Engine) (x : Exchange) {g : SequenceGates}
    (hg : g = if e.resetsGates (e.dispatched x.1 x.2).2 then {} else e.state.gates) :
    (e.dispatched x.1 x.2).2.state.gates = if e.advances x then
      advanceSequenceGates (e.gateMatch x.1 x.2) e.gateSequences g else g := by
  unfold dispatched at hg ⊢
  unfold advances accepts answersOk
  cases hpre : e.preemption x.1 with
  | some reply =>
    rw [hpre] at hg
    have hr : e.resetsGates (e.faced x.1) = false := resetsGates_of_keeps (.refl e.state)
    rw [hg, hr]
    rfl
  | none =>
    rw [hpre] at hg
    exact dispatchOperation_gates (e.faced x.1) x.1 x.2 hg

theorem facing_eq (e : Engine) (call : Call) : (e.facing call).state = e.state ∧
    (e.facing call).manifest = e.manifest ∧ (e.facing call).gateSequences = e.gateSequences := by
  cases call <;> exact ⟨rfl, rfl, rfl⟩

theorem resets_operation (h : call.exchange = some x) :
    e.resets call = (e.facing call).resetsGates ((e.facing call).dispatched x.1 x.2).2 := by
  obtain ⟨-, hst⟩ := step_operation (e := e) h
  obtain ⟨hs, hm, -⟩ := e.facing_eq call
  have hr : e.resets call = e.resetsGates (e.step call).2 := by
    cases call <;> first | rfl | cases h
  rw [hr, resetsGates, resetsGates, hst, hs, hm]

theorem movesSession_of_resets (h : call.exchange = some x) (hr : e.resets call = true) :
    movesSession x.1.code = true := by
  rw [resets_operation h, dispatched] at hr
  cases hpre : (e.facing call).preemption x.1 with
  | some reply =>
    rw [hpre] at hr
    have hs : (e.facing call).resetsGates ((e.facing call).faced x.1) = false :=
      resetsGates_of_keeps (.refl _)
    rw [hs] at hr
    cases hr
  | none =>
    rw [hpre] at hr
    exact dispatchOperation_resets ((e.facing call).faced x.1) x.1 x.2 hr

/-- **The gates move under operations only**, apart from resets. -/
theorem step_gates (e : Engine) (call : Call) :
    (e.step call).2.state.gates = match call.exchange.filter (e.facing call).advances with
      | some x =>
        advanceSequenceGates (e.gateMatch x.1 x.2) e.gateSequences (e.gatesAfterReset call)
      | none => e.gatesAfterReset call := by
  cases hx : call.exchange with
  | some x =>
    obtain ⟨-, hst⟩ := step_operation (e := e) hx
    obtain ⟨hs, hm, hseq⟩ := e.facing_eq call
    have hg : e.gatesAfterReset call =
        if (e.facing call).resetsGates ((e.facing call).dispatched x.1 x.2).2 then {}
        else (e.facing call).state.gates := by
      rw [gatesAfterReset, resets_operation hx, hs]
    have hma : (e.facing call).gateMatch x.1 x.2 = e.gateMatch x.1 x.2 := by
      unfold gateMatch
      rw [hm]
    rw [hst, dispatched_gates (e.facing call) x hg, hma, hseq, Option.filter_some]
    split <;> rfl
  | none =>
    cases call with
    | operation req dataIn => cases hx
    | operationWith tracker req dataIn => cases hx
    | completeStream c => exact (completeStream_setup c).2.2.2
    | applyStateOverlay overlay =>
      show (settled e ((e.applyStateOverlay overlay).map (·.2))).state.gates =
        if (e.applyStateOverlay overlay).isOk && overlay.phase.isSome then {} else e.state.gates
      cases hr : e.applyStateOverlay overlay with
      | error _ => rfl
      | ok r => exact (applyStateOverlay_eq hr).2
    | transportLost => rfl
    | clearSessionAfterTransportEnd => rfl
    | _ => exact (step_untouched rfl).session.gates

end Engine

/-! ### Small cameras -/

def emptyCard : Store.MediaStore where
  entries := []
  rafThumbnail := fun _ => .error .noPreview
  ordered := by simp

/-- A still of three bytes and an empty one. -/
def twoStills : Store.MediaStore where
  entries := [⟨1, ["DSCF0001.JPG"], 0, false, 3, Format.exifJpeg⟩,
    ⟨2, ["DSCF0002.JPG"], 0, false, 0, Format.exifJpeg⟩]
  rafThumbnail := fun _ => .error .noPreview
  ordered := by decide

/-- A camera that offers its stills to an app. -/
def receiveManifest : CameraManifest where
  camera := ⟨"", "", "", []⟩
  cameraInitiatedTransfer := some
    { handoff := ⟨"app"⟩
      receive :=
        { mode := "receive"
          count := ⟨"0xd222", "0xd222"⟩
          headIndex := 1
          metadata := { operation := "0x1008" }
          data := { operation := "0x101b" } } }
  media := some { formats := [("0x3801", { isPhotosCompatible := true })] }

def request (code : UInt16) (params : List UInt32) : Call := .operation ⟨1, code, 1, params⟩ none

end Ptpsim.Sim
