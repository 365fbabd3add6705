/-
# The standard object queue over whole runs

The object queue is a conveyor of the card's transferable handles
(`TransferQueue.Conveys`): deleting an object takes its handle, and a shutter
release, a responder action, a preseed or an enqueue releases the next ones.
Every call to the engine is one turn of that conveyor (`Engine.queueTurn`),
unless it configures the queue anew (`object_queue_conserves`).

A shutter release and a responder action announce the handles they make
available, each with one event, and nothing else does
(`preseed_not_announced`).
-/
import Ptpsim.Lib.Conveyor
import Ptpsim.Sim.PropertyActions

namespace Ptpsim.Sim

open Ptpsim.Core Config Fallible List

/-! ### The queue as a conveyor -/

namespace TransferQueue

/-- The queue has got as far as the conveyor of its handles. -/
structure Conveys (q : TransferQueue) (c : Conveyor UInt32) : Prop where
  conserves : c.Conserves q.handles
  waiting : c.waiting = q.handles.drop q.nextIndex
  offered : c.offered = q.available
  taken : c.taken.length = q.completed
  bound : q.nextIndex ≤ q.handles.length

theorem Conveys.congr {q q' : TransferQueue} {c : Conveyor UInt32} (h : q.Conveys c)
    (hh : q'.handles = q.handles) (ha : q'.available = q.available)
    (hi : q'.nextIndex = q.nextIndex) (hc : q'.completed = q.completed) :
    q'.Conveys c :=
  ⟨hh ▸ h.conserves, by rw [hh, hi, h.waiting], by rw [ha, h.offered],
    by rw [hc, h.taken], by rw [hh, hi]; exact h.bound⟩

variable {q : TransferQueue} {c : Conveyor UInt32}

theorem Conveys.enqueue (h : q.Conveys c) (aloud : Bool) (n : ℕ) :
    (enqueueLoop n q).Conveys (c.release aloud n) := by
  have hw := h.waiting
  have hb := h.bound
  rw [enqueueLoop_eq]
  refine ⟨h.conserves.release aloud n, ?_, ?_, h.taken, ?_⟩
  · show c.waiting.drop n = q.handles.drop (q.nextIndex + min n (q.handles.length - q.nextIndex))
    rw [hw, drop_drop]
    rcases Nat.le_total n (q.handles.length - q.nextIndex) with hn | hn
    · rw [Nat.min_eq_left hn]
    · rw [Nat.min_eq_right hn, drop_eq_nil_of_le (by omega), drop_eq_nil_of_le (by omega)]
  · show c.offered ∪ (c.waiting.take n).toFinset = _
    rw [h.offered, hw]
  · show q.nextIndex + min n (q.handles.length - q.nextIndex) ≤ q.handles.length
    omega

theorem Conveys.added (h : q.Conveys c) (count : UInt32) :
    (q.enqueueCount count).1 = min count.toNat (q.handles.length - q.nextIndex) := by
  have hc := h.conserves.card_release count.toNat
  rw [h.offered, h.waiting, length_drop] at hc
  show (enqueueLoop count.toNat q).available.card - q.available.card = _
  rw [enqueueLoop_eq]
  dsimp only
  omega

theorem Conveys.announced (h : q.Conveys c) (count : UInt32) :
    (if (q.enqueueCount count).1 > 0 then (q.enqueueCount count).2.latest (q.enqueueCount count).1
      else []) = c.waiting.take count.toNat := by
  have hs : (q.enqueueCount count).2.latest (q.enqueueCount count).1 =
      c.waiting.take count.toNat := by
    rw [h.added, h.waiting]
    show (enqueueLoop count.toNat q).latest _ = _
    rw [enqueueLoop_eq]
    unfold latest
    dsimp only
    rw [drop_take, Nat.add_sub_cancel_right, Nat.add_sub_cancel_left, take_eq_take_iff, length_drop]
    omega
  split
  · exact hs
  · -- nothing was left to release
    rename_i hz
    rw [← hs, Nat.eq_zero_of_not_pos hz]
    unfold latest
    rw [Nat.sub_zero, drop_eq_nil_of_le (length_take_le _ _)]

theorem Conveys.drain (h : q.Conveys c) (handle : UInt32) :
    (q.drain handle).2.Conveys (c.take handle) := by
  have ht := h.conserves.take handle
  unfold TransferQueue.drain
  unfold Conveyor.take at ht ⊢
  rw [h.offered] at ht ⊢
  by_cases hmem : handle ∈ q.available
  · simp only [if_pos hmem] at ht ⊢
    exact ⟨ht, h.waiting, rfl, by simp [h.taken], h.bound⟩
  · simp only [if_neg hmem] at ht ⊢
    exact h

/-- The number of handles a step of the shutter sequence asks for. -/
def shutterCount (q : TransferQueue) (fits : GateMatcher → Bool) : ℕ :=
  match q.shutterSequence with
  | none => 0
  | some sequence =>
    let progress := if (sequence[q.shutterProgress]?).any fits then q.shutterProgress + 1
      else if sequence.head?.any fits then 1 else 0
    if progress ≥ sequence.length then q.enqueuePerShutter.toNat else 0

theorem Conveys.followShutter (h : q.Conveys c) (fits : GateMatcher → Bool) :
    (q.followShutter fits).1 = c.waiting.take (q.shutterCount fits) ∧
      (q.followShutter fits).2.Conveys (c.release true (q.shutterCount fits)) := by
  unfold TransferQueue.followShutter shutterCount
  cases q.shutterSequence with
  | none =>
    rw [c.release_zero true]
    exact ⟨take_zero.symm, h⟩
  | some sequence =>
    dsimp only
    generalize (if (sequence[q.shutterProgress]?).any fits then q.shutterProgress + 1
      else if sequence.head?.any fits then 1 else 0) = progress
    have hco : ∀ progress, TransferQueue.Conveys
        { q with shutterSequence := some sequence, shutterProgress := progress } c :=
      fun _ => h.congr rfl rfl rfl rfl
    by_cases hc : progress ≥ sequence.length
    · rw [if_pos hc, if_pos hc]
      exact ⟨(hco 0).announced q.enqueuePerShutter, (hco 0).enqueue true _⟩
    · rw [if_neg hc, if_neg hc, c.release_zero true]
      exact ⟨take_zero.symm, hco progress⟩

end TransferQueue

/-! ### Operations -/

variable (manifest : CameraManifest)

/-- The announcement of the handles, if the camera has the event for it. -/
def objectAdded (handles : List UInt32) : List QueuedEvent :=
  if declaresObjectAdded manifest then handles.map fun handle => ⟨0x4002, [handle]⟩ else []

theorem objectAdded_nil : objectAdded manifest [] = [] := by
  unfold objectAdded
  split <;> rfl

theorem announceObjects_events (handles : List UInt32)
    (s : CameraState) :
    (announceObjects manifest handles s).events = s.events ++ objectAdded manifest handles := by
  unfold announceObjects objectAdded
  split <;> simp

namespace Engine

variable {e : Engine} {req : OperationRequest} {dataIn : Option (List UInt8)}
  {c : Conveyor UInt32}

/-- The queue, if there is one, has got as far as the conveyor. -/
def Conveys (e : Engine) (c : Conveyor UInt32) : Prop :=
  ∀ q, e.transferQueue = some q → q.Conveys c

theorem conveys_of_some {q : TransferQueue} (hq : e.transferQueue = some q) (h : q.Conveys c) :
    e.Conveys c := by
  intro q' hq'
  obtain rfl : q = q' := Option.some.inj (hq.symm.trans hq')
  exact h

/-- Neither the object queue nor the events are touched. -/
structure KeepsQueue (e e' : Engine) : Prop where
  transferQueue : e'.transferQueue = e.transferQueue
  events : e'.state.events = e.state.events

theorem KeepsQueue.refl (e : Engine) : KeepsQueue e e := ⟨rfl, rfl⟩

variable (manifest : CameraManifest) (code : UInt16)

theorem vendorStep_events (direction : UInt32) (s : CameraState) :
    (vendorStep manifest code direction s).events = s.events := by
  unfold vendorStep
  split <;> rfl

theorem handle_keepsQueue (hc : req.code ≠ Op.deleteObject) :
    KeepsQueue e (e.handle req dataIn).2 := by
  apply handle_cases (P := fun r => KeepsQueue e r.2)
  case hopen =>
    intro _
    unfold openSession
    split
    · exact .refl e
    · split <;> exact ⟨rfl, rfl⟩
  case hclose => exact fun _ => ⟨rfl, rfl⟩
  case hdelete => exact fun hdelete => absurd hdelete hc
  case hvalue =>
    intro _
    rw [getDevicePropValue_snd, CameraState.polled_eq]
    exact ⟨rfl, rfl⟩
  case hset =>
    intro _
    rw [setProp_snd]
    cases e.storedValue (param req 0).toUInt16 dataIn <;> exact ⟨rfl, rfl⟩
  case hterminate => exact ⟨rfl, rfl⟩
  case hinitiate =>
    unfold initiateOpenCapture
    split <;> exact ⟨rfl, rfl⟩
  case hmanifest =>
    rw [dispatchManifestOp_snd]
    cases e.steppedProperty req.code with
    | none => exact .refl e
    | some target => exact ⟨rfl, vendorStep_events _ _ _ _⟩
  case hdata => exact fun _ => .refl e
  all_goals exact .refl e

/-- The handle an operation deletes, if it gets to its handler. -/
def handlerTake (e : Engine) (req : OperationRequest) : Option UInt32 :=
  if e.handles req && req.code = Op.deleteObject then some (param req 0) else none

theorem handle_delete (hc : req.code = Op.deleteObject) (h : e.Conveys c) :
    (e.handle req dataIn).2.Conveys (c.take (param req 0)) ∧
      (e.handle req dataIn).2.state.events = e.state.events := by
  rw [handle_deleteObject hc]
  unfold deleteObject
  split
  · rename_i queue hqu
    refine ⟨fun q hq => ?_, rfl⟩
    cases hq
    exact (h queue hqu).drain (param req 0)
  · rename_i hn
    exact ⟨fun q hq => (nomatch hn.symm.trans hq), rfl⟩

theorem routed_conveys (h : e.Conveys c) (req : OperationRequest) (dataIn : Option (List UInt8)) :
    (e.routed req dataIn).2.Conveys ((e.handlerTake req).elim c c.take) ∧
      (e.routed req dataIn).2.state.events = e.state.events := by
  have hp : (e.probed req).Conveys c := h
  rcases route_reaches (e.probed req) req dataIn (e.operationIsSilent req.code) with
    ⟨hr, hro⟩ | ⟨hr, armed, busy, hro⟩
  · rw [routed, hro, handlerTake, handles, hr, Bool.true_and]
    by_cases hc : req.code = Op.deleteObject
    · rw [decide_eq_true hc, if_pos rfl]
      exact handle_delete hc hp
    · have hk : KeepsQueue (e.probed req) ((e.probed req).handle req dataIn).2 :=
        handle_keepsQueue hc
      rw [decide_eq_false hc, if_neg Bool.false_ne_true]
      exact ⟨fun q hq => hp q (hk.transferQueue ▸ hq), hk.events⟩
  · rw [routed, hro, handlerTake, handles, hr]
    refine ⟨fun q hq => ?_, rfl⟩
    -- only the number of busy answers left has changed
    obtain ⟨q₀, hq₀, rfl⟩ := Option.map_eq_some_iff.mp hq
    exact (hp q₀ hq₀).congr rfl rfl rfl rfl

/-- The events the manifest has an operation emit. -/
def operationEmits (manifest : CameraManifest) (req : OperationRequest) : List QueuedEvent :=
  (manifest.operation req.code).elim [] fun op => op.emits.filterMap (emitEvent req.params)

theorem armEffect_events (s : CameraState) (code : UInt16) (value : PropValue) (settle : UInt32) :
    (s.armEffect code value settle).events = s.events := by
  unfold CameraState.armEffect
  split <;> rfl

theorem applyOpEffects_events (params : List UInt32) (s : CameraState) :
    (applyOpEffects manifest code params s).events = s.events := by
  unfold applyOpEffects
  split
  · rfl
  · refine List.foldlRecOn _ _ (motive := fun s' : CameraState => s'.events = s.events) rfl ?_
    intro s' hs' arming _
    exact (armEffect_events s' _ _ _).trans hs'

theorem applyOpEmits_events (req : OperationRequest) (s : CameraState) :
    (applyOpEmits manifest req.code req.params s).events =
      s.events ++ operationEmits manifest req := by
  unfold applyOpEmits operationEmits
  cases manifest.operation req.code with
  | none => exact (append_nil _).symm
  | some op => rfl

/-- The number of handles the operation has the shutter release. -/
def shutterRelease (e : Engine) (req : OperationRequest) (dataIn : Option (List UInt8)) : ℕ :=
  e.transferQueue.elim 0 fun q => q.shutterCount (e.gateMatch req dataIn)

theorem applySuccessfulOperation_conveys (h : e.Conveys c) (req : OperationRequest)
    (dataIn : Option (List UInt8)) (silent : Bool) :
    (e.applySuccessfulOperation req dataIn silent).Conveys
        (c.release true (e.shutterRelease req dataIn)) ∧
      (e.applySuccessfulOperation req dataIn silent).state.events = e.state.events ++
        (if silent then [] else operationEmits e.manifest req) ++
        objectAdded e.manifest (c.waiting.take (e.shutterRelease req dataIn)) := by
  have he : ∀ s : CameraState, (if silent then s else applyOpEmits e.manifest req.code
      req.params (applyOpEffects e.manifest req.code req.params s)).events =
      s.events ++ if silent then [] else operationEmits e.manifest req := by
    intro s
    cases silent with
    | true => exact (append_nil _).symm
    | false => rw [if_neg Bool.false_ne_true, if_neg Bool.false_ne_true, applyOpEmits_events,
        applyOpEffects_events]
  unfold applySuccessfulOperation shutterRelease Conveys
  cases hqu : e.transferQueue with
  | none =>
    refine ⟨fun q hq => (nomatch hq), ?_⟩
    rw [Option.elim_none, take_zero, objectAdded_nil, append_nil]
    exact he _
  | some queue =>
    obtain ⟨hadded, hc⟩ := (h queue hqu).followShutter (e.gateMatch req dataIn)
    refine ⟨fun q hq => ?_, ?_⟩
    · cases hq
      exact hc
    · simp only [Option.map_some, Option.elim_some, announceObjects_events, he, hadded]

/-- What an operation does to the queue. -/
def dispatchTurn (e : Engine) (req : OperationRequest) (dataIn : Option (List UInt8)) :
    Conveyor.Turn UInt32 where
  take := e.handlerTake req
  count :=
    if e.reachesGates req dataIn then (e.routed req dataIn).2.shutterRelease req dataIn else 0

/-- The events an operation emits on its own account. -/
def dispatchEmissions (e : Engine) (req : OperationRequest) (dataIn : Option (List UInt8)) :
    List QueuedEvent :=
  if e.takesEffect req dataIn then operationEmits e.manifest req else []

theorem dispatchOperation_conveys (h : e.Conveys c) :
    (e.dispatchOperation req dataIn).2.Conveys (c.turn (e.dispatchTurn req dataIn)) ∧
      (e.dispatchOperation req dataIn).2.state.events = e.state.events ++
        e.dispatchEmissions req dataIn ++
        objectAdded e.manifest (c.calls (e.dispatchTurn req dataIn)) := by
  have hm : (e.routed req dataIn).2.manifest = e.manifest :=
    (route_routed (e.probed req) req dataIn (e.operationIsSilent req.code)).manifest
  have hw : ((e.handlerTake req).elim c c.take).waiting = c.waiting := by
    cases e.handlerTake req with
    | none => rfl
    | some handle => exact c.waiting_take handle
  obtain ⟨hc, he⟩ := routed_conveys h req dataIn
  rw [dispatchOperation_eq, dispatchTurn, dispatchEmissions, takesEffect, Conveyor.turn,
    Conveyor.calls, if_pos rfl]
  cases e.reachesGates req dataIn with
  | false => simpa [Conveyor.release_zero, he, objectAdded_nil] using hc
  | true =>
    rw [if_pos rfl, if_pos rfl, Bool.true_and]
    obtain ⟨ha, hq⟩ := applySuccessfulOperation_conveys hc req dataIn (e.operationIsSilent req.code)
    refine ⟨ha, ?_⟩
    rw [hq, he, hm, hw]
    cases e.operationIsSilent req.code <;> rfl

def operationTurn (e : Engine) (req : OperationRequest) (dataIn : Option (List UInt8)) :
    Conveyor.Turn UInt32 :=
  if (e.preemption req).isSome then {} else (e.faced req).dispatchTurn req dataIn

def operationEmissions (e : Engine) (req : OperationRequest) (dataIn : Option (List UInt8)) :
    List QueuedEvent :=
  if (e.preemption req).isSome then [] else (e.faced req).dispatchEmissions req dataIn

theorem dispatched_conveys (h : e.Conveys c) :
    (e.dispatched req dataIn).2.Conveys (c.turn (e.operationTurn req dataIn)) ∧
      (e.dispatched req dataIn).2.state.events = e.state.events ++
        e.operationEmissions req dataIn ++
        objectAdded e.manifest (c.calls (e.operationTurn req dataIn)) := by
  unfold dispatched operationTurn operationEmissions
  cases e.preemption req with
  | some reply =>
    dsimp only [Option.isSome_some]
    rw [if_pos rfl, if_pos rfl, c.turn_empty]
    refine ⟨h, ?_⟩
    rw [c.calls_empty, objectAdded_nil, append_nil, append_nil]
    rfl
  | none => exact dispatchOperation_conveys (e := e.faced req) h

/-! ### Calls -/

/-- The connection enumerates objects the standard way, so that it has a
queue to configure. -/
def enumeratesObjects (e : Engine) (connection : String) : Bool :=
  ((e.manifest.connection connection).bind (·.action .enumerateObjects)).any fun action =>
    actionSendsOp action Op.getObjectHandles

/-- The conveyor of a queue that is configured anew: what it starts out with
has been released quietly. -/
def seeds (e : Engine) : Call → Option (Conveyor UInt32)
  | .configureStandardObjectQueue connection count =>
    if e.enumeratesObjects connection then
      (e.configureStandardObjectQueue connection count).toOption.bind fun next =>
        next.transferQueue.map fun q => (Conveyor.start q.handles).release false q.nextIndex
    else none
  | _ => none

/-- What a call does to the queue it finds. -/
def queueTurn (e : Engine) (call : Call) : Conveyor.Turn UInt32 :=
  match call with
  | .operation req dataIn | .operationWith _ req dataIn =>
    (e.facing call).operationTurn req dataIn
  | .applyResponderMutation (.enqueueObjects count _) => { count := count.toNat }
  | .enqueueStandardObjects count => { aloud := false, count := count.toNat }
  | .preseedStandardObjectQueue connection count =>
    if (e.queueFor connection).isOk then { aloud := false, count := count.toNat } else {}
  | _ => {}

/-- The record of the queue since it was configured. -/
def noteQueue (e : Engine) (call : Call) (c : Conveyor UInt32) : Conveyor UInt32 :=
  (e.seeds call).getD (c.turn (e.queueTurn call))

/-- The events that are still queued when a call queues its own. -/
def keptEvents (e : Engine) : Call → List QueuedEvent
  | .takeEvent code => (e.state.takeEvent code).2.events
  | .drainEvents => []
  | _ => e.state.events

/-- The events a call emits on its own account. -/
def emissions (e : Engine) (call : Call) : List QueuedEvent :=
  match call with
  | .operation req dataIn | .operationWith _ req dataIn =>
    (e.facing call).operationEmissions req dataIn
  | _ => []

theorem nodup_standardObjectQueueHandles (store : Store.MediaStore) :
    (standardObjectQueueHandles manifest store).Nodup :=
  (store.nodup_handles.filter _).filter _

/-- A configured queue starts out with all of its handles on offer, or with
none. -/
theorem configureStandardObjectQueue_conveys {connection : String} {count : UInt32} {next : Engine}
    (he : e.enumeratesObjects connection = true)
    (h : e.configureStandardObjectQueue connection count = .ok next) :
    ∃ q, next.transferQueue = some q ∧
      q.handles = standardObjectQueueHandles e.manifest e.store ∧
      q.Conveys ((Conveyor.start q.handles).release false q.nextIndex) := by
  have hn := nodup_standardObjectQueueHandles e.manifest e.store
  have hs := Conveyor.Conserves.start hn
  unfold configureStandardObjectQueue at h
  split at h
  · cases h
  rename_i conn hc
  unfold enumeratesObjects at he
  rw [hc, Option.bind_some] at he
  simp only [he, Bool.not_true, Bool.false_eq_true, if_false] at h
  split at h
  · cases h
    refine ⟨_, rfl, rfl, hs.release false _, rfl, ?_, rfl, Nat.le_refl _⟩
    simp [Conveyor.release, Conveyor.start, TransferQueue.startupSeeded]
  · obtain ⟨sequence, -, h⟩ := bind_eq_ok_iff.mp h
    cases h
    refine ⟨_, rfl, rfl, hs.release false _, rfl, ?_, rfl, Nat.zero_le _⟩
    simp [Conveyor.release, Conveyor.start, TransferQueue.shutterSeeded]

variable {call : Call}

theorem seeds_eq {c' : Conveyor UInt32} (h : e.seeds call = some c') :
    ∃ connection count next q, call = .configureStandardObjectQueue connection count ∧
      e.enumeratesObjects connection = true ∧
      e.configureStandardObjectQueue connection count = .ok next ∧ next.transferQueue = some q ∧
      c' = (Conveyor.start q.handles).release false q.nextIndex := by
  cases call with
  | configureStandardObjectQueue connection count =>
    unfold seeds at h
    rw [Option.ite_none_right_eq_some] at h
    obtain ⟨he, h⟩ := h
    obtain ⟨next, hn, h⟩ := Option.bind_eq_some_iff.mp h
    obtain ⟨q, hq, rfl⟩ := Option.map_eq_some_iff.mp h
    refine ⟨connection, count, next, q, rfl, he, ?_, hq, rfl⟩
    generalize e.configureStandardObjectQueue connection count = result at hn
    cases result <;> cases hn
    rfl
  | _ => cases h

theorem seeds_conveys {c' : Conveyor UInt32} (h : e.seeds call = some c') :
    (e.step call).2.Conveys c' := by
  obtain ⟨connection, count, next, q, rfl, he, hok, hq, rfl⟩ := seeds_eq h
  obtain ⟨q', hq', -, hc⟩ := configureStandardObjectQueue_conveys he hok
  obtain rfl := Option.some.inj (hq.symm.trans hq')
  have hs : (e.step (.configureStandardObjectQueue connection count)).2 = next := by
    show settled e (e.configureStandardObjectQueue connection count) = next
    rw [hok]
    rfl
  rw [hs]
  exact conveys_of_some hq hc

theorem configure_unseeded {connection : String} {count : UInt32}
    (h : e.seeds (.configureStandardObjectQueue connection count) = none) :
    settled e (e.configureStandardObjectQueue connection count) = e := by
  unfold seeds at h
  dsimp only at h
  by_cases he : e.enumeratesObjects connection = true
  · rw [if_pos he] at h
    cases hr : e.configureStandardObjectQueue connection count with
    | error _ => rfl
    | ok next =>
      obtain ⟨q, hq, -, -⟩ := configureStandardObjectQueue_conveys he hr
      simp [hr, Except.toOption, hq] at h
  · unfold configureStandardObjectQueue
    split
    · rfl
    · rename_i conn hc
      unfold enumeratesObjects at he
      rw [hc, Option.bind_some, Bool.not_eq_true] at he
      simp only [he, Bool.not_false, if_true]
      split <;> rfl

end Engine

/-- The calls that announce what they make available. -/
def Call.announces : Call → Bool
  | operation _ _ | operationWith _ _ _ | applyResponderMutation _ => true
  | _ => false

/-- The requests that touch neither the object queue nor the events. -/
def Call.isOffQueue : Call → Bool
  | completeStream _ | applyStateOverlay _ | transportLost | clearSessionAfterTransportEnd => true
  | advancePropertyToNextEnum _ | applyResponderMutation (.propertyTransition _) => true
  | call => call.isIdle

namespace Engine

variable {e : Engine} {c : Conveyor UInt32} {call : Call}

theorem isOffQueue_of_idle (h : call.isIdle = true) : call.isOffQueue = true := by
  cases call <;> first | rfl | cases h

theorem not_isOffQueue (h : call.isQueueRequest = true) : ¬ call.isOffQueue = true := by
  cases call <;> first | exact Bool.false_ne_true | cases h

theorem step_keepsQueue (h : call.isOffQueue = true) : KeepsQueue e (e.step call).2 := by
  induction call using Call.byKind with
  | idle call hi =>
    have hs : Idle e (e.step call).2 := step_idle hi
    exact ⟨hs.transferQueue, by rw [hs.state]⟩
  | completeStream completion =>
    show KeepsQueue e (e.completeStream completion).2
    unfold completeStream
    split
    · exact .refl e
    · refine ⟨rfl, ?_⟩
      dsimp only
      split
      · unfold syncCameraInitiatedCounts
        split <;> rfl
      · rfl
  | applyStateOverlay overlay =>
    refine settled_map (.refl e) fun applied next hn => ?_
    obtain ⟨staged, -, hn⟩ := bind_eq_ok_iff.mp hn
    cases hn
    exact ⟨rfl, rfl⟩
  | transportLost => exact ⟨rfl, rfl⟩
  | clearSessionAfterTransportEnd => exact ⟨rfl, rfl⟩
  | advancePropertyToNextEnum code =>
    refine settled_map (.refl e) fun value next hn => ?_
    obtain ⟨r, -, hn⟩ := bind_eq_ok_iff.mp hn
    cases hn
    exact ⟨rfl, armEffect_events e.state code value 0⟩
  | applyResponderMutation prepared =>
    cases prepared with
    | enqueueObjects _ _ => cases h
    | propertyTransition transition =>
      refine ⟨rfl, ?_⟩
      show (applyTransition e.manifest transition e.state).events = _
      unfold applyTransition
      dsimp only
      cases transition.initial.bind (propertyTransitionValue
          ((e.manifest.property transition.target).bind (·.ptype))) <;>
        cases propertyTransitionValue ((e.manifest.property transition.target).bind (·.ptype))
          transition.terminal <;>
        first | rfl | exact armEffect_events _ _ _ _
  | queueRequest call hr => exact absurd h (not_isOffQueue hr)
  | _ => cases h

theorem queueTurn_offQueue (h : call.isOffQueue = true) :
    e.queueTurn call = {} ∧ e.seeds call = none := by
  cases call with
  | applyResponderMutation prepared =>
    cases prepared with
    | enqueueObjects _ _ => cases h
    | propertyTransition _ => exact ⟨rfl, rfl⟩
  | _ => first | exact ⟨rfl, rfl⟩ | cases h

theorem conveys_empty {e' : Engine} (h : e.Conveys c)
    (hqu : e'.transferQueue = e.transferQueue) : e'.Conveys (c.turn {}) := by
  intro q hq
  rw [c.turn_empty]
  exact h q (hqu ▸ hq)

theorem Enqueues.conveys {e' : Engine} {count : UInt32} {added : ℕ}
    (he : e.Enqueues count added e') (h : e.Conveys c) :
    e'.Conveys (c.turn { aloud := false, count := count.toNat }) := by
  obtain ⟨queue, hq, -, rfl⟩ := he
  exact conveys_of_some rfl ((h queue hq).enqueue false count.toNat)

theorem queueRequest_conveys (hre : call.isQueueRequest = true) (h : e.Conveys c)
    (hs : e.seeds call = none) : (e.step call).2.Conveys (c.turn (e.queueTurn call)) := by
  cases call with
  | enqueueStandardObjects count =>
    show (settled e ((e.enqueueStandardObjects count).map (·.2))).Conveys _
    cases hr : e.enqueueStandardObjects count with
    | ok r => exact (enqueueStandardObjects_enqueues hr).conveys h
    | error _ =>
      -- there is no queue
      intro q hq
      have hq : e.transferQueue = some q := hq
      simp [enqueueStandardObjects, hq] at hr
  | preseedStandardObjectQueue connection count =>
    show (settled e ((e.preseedStandardObjectQueue connection count).map (·.2))).Conveys
      (c.turn (if (e.queueFor connection).isOk then _ else _))
    cases hfor : e.queueFor connection with
    | error reason =>
      rw [preseedStandardObjectQueue, hfor]
      exact conveys_empty h rfl
    | ok queue =>
      rw [preseedStandardObjectQueue, hfor]
      exact conveys_of_some rfl ((h queue (queueFor_eq hfor)).enqueue false count.toNat)
  | preseedShutterBusyResponses connection attempts =>
    refine settled_of (P := fun e' => e'.Conveys (c.turn {})) (conveys_empty h rfl) ?_
    intro next hn
    obtain ⟨queue, hqu, rfl⟩ := preseedShutterBusyResponses_eq hn
    rw [c.turn_empty]
    exact conveys_of_some rfl ((h queue hqu).congr rfl rfl rfl rfl)
  | configureStandardObjectQueue connection count =>
    show (settled e (e.configureStandardObjectQueue connection count)).Conveys (c.turn {})
    rw [configure_unseeded hs]
    exact conveys_empty h rfl
  | _ => cases hre

/-- **Every call is one turn of the conveyor.** -/
theorem conveys_step (h : e.Conveys c) (call : Call) :
    (e.step call).2.Conveys (e.noteQueue call c) := by
  unfold noteQueue
  cases hs : e.seeds call with
  | some c' => exact seeds_conveys hs
  | none =>
    by_cases hoff : call.isOffQueue = true
    · rw [(queueTurn_offQueue hoff).1]
      exact conveys_empty h (step_keepsQueue hoff).transferQueue
    induction call using Call.byKind with
    | queueRequest call hr => exact queueRequest_conveys hr h hs
    | operation req dataIn =>
      intro q hq
      exact (dispatched_conveys h).1 q hq
    | operationWith tracker req dataIn =>
      intro q hq
      exact (dispatched_conveys (e := { e with lifecycle := tracker }) h).1 q hq
    | applyResponderMutation prepared =>
      cases prepared with
      | propertyTransition _ => exact absurd rfl hoff
      | enqueueObjects count affected =>
        show (settled e (e.applyResponderMutation _)).Conveys _
        unfold applyResponderMutation
        cases hqu : e.transferQueue with
        | none => exact fun q hq => nomatch hqu.symm.trans hq
        | some queue => exact conveys_of_some rfl ((h queue hqu).enqueue true count.toNat)
    | takeEvent code => exact conveys_empty h rfl
    | drainEvents => exact conveys_empty h rfl
    | idle call hi => exact absurd (isOffQueue_of_idle hi) hoff
    | _ => exact absurd rfl hoff

variable (e c) in
/-- Operations and responder actions release aloud, the others quietly. -/
theorem queueTurn_aloud (call : Call) :
    if call.announces then (e.queueTurn call).aloud = true
      else c.calls (e.queueTurn call) = [] := by
  have ho : ∀ (e : Engine) (req : OperationRequest) (dataIn : Option (List UInt8)),
      (e.operationTurn req dataIn).aloud = true := by
    intro e req dataIn
    unfold operationTurn
    split <;> rfl
  cases call with
  | operation req dataIn => exact ho e req dataIn
  | operationWith tracker req dataIn => exact ho { e with lifecycle := tracker } req dataIn
  | applyResponderMutation prepared => cases prepared <;> rfl
  | preseedStandardObjectQueue connection count =>
    show c.calls (if (e.queueFor connection).isOk then _ else _) = []
    split
    · rfl
    · exact c.calls_empty
  | enqueueStandardObjects _ => rfl
  | _ => exact c.calls_empty

/-- **What a call leaves in the event queue.** The handles it calls out are
announced, and no others. -/
theorem step_events {q : TransferQueue} (hq : e.transferQueue = some q) (h : q.Conveys c)
    (call : Call) : (e.step call).2.state.events = e.keptEvents call ++ e.emissions call ++
      objectAdded e.manifest (c.calls (e.queueTurn call)) := by
  have hc : e.Conveys c := conveys_of_some hq h
  have hn : ∀ events : List QueuedEvent,
      events = events ++ [] ++ objectAdded e.manifest (c.calls {}) := by
    intro events
    rw [c.calls_empty, objectAdded_nil, append_nil, append_nil]
  by_cases hoff : call.isOffQueue = true
  · rw [(queueTurn_offQueue hoff).1, (step_keepsQueue hoff).events]
    cases call <;> first | exact hn _ | cases hoff
  induction call using Call.byKind with
  | queueRequest call hr =>
    -- these make no announcements
    obtain ⟨queue, hne⟩ : Requeued e (e.step call).2 := step_requeued hr
    have hqu : c.calls (e.queueTurn call) = [] := by
      have ha := e.queueTurn_aloud c call
      cases call <;> first | exact ha | cases hr
    rw [hqu, hne, objectAdded_nil, append_nil]
    cases call <;> first | exact (append_nil _).symm | cases hr
  | operation req dataIn =>
    exact (dispatched_conveys hc).2
  | operationWith tracker req dataIn =>
    exact (dispatched_conveys (e := { e with lifecycle := tracker }) hc).2
  | applyResponderMutation prepared =>
    cases prepared with
    | propertyTransition _ => exact absurd rfl hoff
    | enqueueObjects count affected =>
      show (settled e (e.applyResponderMutation _)).state.events = e.state.events ++ [] ++
        objectAdded e.manifest (c.waiting.take count.toNat)
      unfold applyResponderMutation
      rw [hq, ← h.announced count, append_nil]
      exact announceObjects_events _ _ _
  | takeEvent code => exact hn _
  | drainEvents => exact hn _
  | idle call hi => exact absurd (isOffQueue_of_idle hi) hoff
  | _ => exact absurd rfl hoff

/-! ### Runs -/

/-- The record of the object queue after a run. -/
def queueRecord (e : Engine) (calls : List Call) : Conveyor UInt32 :=
  (Machine.run (Machine.recorded step noteQueue) (e, .start []) calls).2

theorem conveys_run (manifest : CameraManifest) (store : Store.MediaStore) (calls : List Call) :
    (Machine.run step (Engine.new manifest store) calls).Conveys
      ((Engine.new manifest store).queueRecord calls) := by
  have hrun := Machine.run_invariant (Machine.recorded step noteQueue)
    (P := fun ec => ec.1.Conveys ec.2) (fun ec call h => conveys_step h call)
    (Engine.new manifest store, .start []) calls (fun q hq => nomatch hq)
  rwa [Machine.run_recorded] at hrun

theorem queueRecord_concat (e : Engine) (calls : List Call) (call : Call) :
    e.queueRecord (calls ++ [call]) =
      (Machine.run step e calls).noteQueue call (e.queueRecord calls) := by
  unfold queueRecord
  rw [Machine.run_append]
  show noteQueue (Machine.run (Machine.recorded step noteQueue) (e, .start []) calls).1 _ _ = _
  rw [Machine.run_recorded]

end Engine

/-- Every handle of the queue is in one place, and was released once if it no
longer waits; `c` is the record of what was deleted and released since the
queue was configured. -/
structure QueueSound (e : Engine) (c : Conveyor UInt32) (q : TransferQueue) : Prop where
  distinct : q.handles.Nodup
  counts : q.completed + q.available.card = q.nextIndex
  bound : q.nextIndex ≤ q.handles.length
  enqueued : ∀ handle ∈ q.available, handle ∈ q.handles.take q.nextIndex
  deleted : c.taken.length = q.completed
  gone : ∀ handle ∈ c.taken, handle ∉ q.available
  preflight : ∀ count, e.pendingStandardObjectEnqueue count =
    .ok ((q.enqueueCount count).2.available \ q.available).card
  once : (c.called ++ c.quiet).Perm (q.handles.take q.nextIndex)

/-- What a call makes available is released by it, and what it calls out it
announces. `c` and `c'` are the records before and after it. -/
structure QueueStep (e : Engine) (call : Call) (q : TransferQueue) (c c' : Conveyor UInt32) :
    Prop where
  released : e.seeds call = none → ∀ q', (e.step call).2.transferQueue = some q' → ∀ handle,
    handle ∈ c'.called.drop c.called.length ++ c'.quiet.drop c.quiet.length ↔
      handle ∈ q'.available ∧ handle ∉ q.available
  aloud : if call.announces then c'.quiet.drop c.quiet.length = []
    else c'.called.drop c.called.length = []
  announced : (e.step call).2.state.events = e.keptEvents call ++ e.emissions call ++
    objectAdded e.manifest (c'.called.drop c.called.length)

namespace Engine

variable {e : Engine} {c : Conveyor UInt32} {q : TransferQueue}

theorem queueSound_of_conveys (hq : e.transferQueue = some q) (h : q.Conveys c) :
    QueueSound e c q := by
  have hf : q.handles = q.handles.take q.nextIndex ++ c.waiting := by
    rw [h.waiting, take_append_drop]
  have hs := h.conserves.stock_front hf
  refine ⟨h.conserves.nodup, ?_, h.bound, ?_, h.taken, ?_, ?_, h.conserves.releases_front hf⟩
  · have hc := congrArg Multiset.card hs
    rw [Multiset.card_add, Multiset.coe_card, Multiset.coe_card, length_take,
      Nat.min_eq_left h.bound, h.taken, h.offered] at hc
    exact hc
  · intro handle hmem
    have hmem : handle ∈ (c.taken : Multiset UInt32) + c.offered.val :=
      Multiset.mem_add.mpr (.inr (h.offered ▸ hmem))
    rw [hs] at hmem
    exact hmem
  · intro handle hmem
    rw [← h.offered]
    exact h.conserves.not_offered hmem
  · intro count
    have hsub : q.available ⊆ (q.enqueueCount count).2.available := by
      show q.available ⊆ (TransferQueue.enqueueLoop count.toNat q).available
      rw [TransferQueue.enqueueLoop_eq]
      exact Finset.subset_union_left
    unfold pendingStandardObjectEnqueue
    rw [hq, Finset.card_sdiff_of_subset hsub]
    show Except.ok _ = Except.ok (q.enqueueCount count).1
    rw [h.added]

theorem seeds_called {call : Call} {c' : Conveyor UInt32} (h : e.seeds call = some c') :
    call.announces = false ∧ e.queueTurn call = {} ∧ c'.called = [] := by
  obtain ⟨connection, count, next, q, rfl, -, -, -, rfl⟩ := seeds_eq h
  exact ⟨rfl, rfl, rfl⟩

theorem queueStep_of_conveys (hq : e.transferQueue = some q) (h : q.Conveys c) (call : Call) :
    QueueStep e call q c (e.noteQueue call c) := by
  have hco : e.Conveys c := conveys_of_some hq h
  have he := step_events hq h call
  have hal := e.queueTurn_aloud c call
  have ha := conveys_step hco call
  unfold noteQueue at ha ⊢
  cases hs : e.seeds call with
  | some c' =>
    -- a new queue has called nothing out
    obtain ⟨han, ht, hc⟩ := seeds_called hs
    rw [ht, c.calls_empty] at he
    rw [Option.getD_some]
    refine ⟨fun hn => (nomatch hs.symm.trans hn), ?_, ?_⟩
    · rw [han, hc]
      exact drop_nil
    · rw [he, hc, drop_nil]
  | none =>
    rw [hs] at ha
    rw [Option.getD_none] at ha ⊢
    have hc : (c.turn (e.queueTurn call)).called.drop c.called.length =
        c.calls (e.queueTurn call) := by
      rw [c.called_turn, drop_left]
    have hqu : (c.turn (e.queueTurn call)).quiet.drop c.quiet.length =
        if (e.queueTurn call).aloud then [] else c.waiting.take (e.queueTurn call).count := by
      rw [c.quiet_turn, drop_left]
    refine ⟨fun _ q' hq' handle => ?_, ?_, ?_⟩
    · have hf := h.conserves.fresh_iff (e.queueTurn call) handle
      rw [(ha q' hq').offered, h.offered] at hf
      rw [hc, hqu, ← hf, Conveyor.calls]
      split <;> simp
    · rw [hc, hqu]
      by_cases han : call.announces = true
      · rw [if_pos han] at hal ⊢
        rw [if_pos hal]
      · rw [if_neg han] at hal ⊢
        exact hal
    · rw [hc]
      exact he

end Engine

/-- **The object queue loses nothing and announces nothing twice.** In every
run the handles of a configured queue are accounted for, and every further
call announces exactly the handles it makes available, if it is an operation or
a responder action, and none otherwise. -/
theorem object_queue_conserves (manifest : CameraManifest) (store : Store.MediaStore)
    (calls : List Call) (q : TransferQueue)
    (hq : (Machine.run Engine.step (Engine.new manifest store) calls).transferQueue = some q) :
    let e := Machine.run Engine.step (Engine.new manifest store) calls
    let c := (Engine.new manifest store).queueRecord calls
    QueueSound e c q ∧ ∀ call, QueueStep e call q c
      ((Engine.new manifest store).queueRecord (calls ++ [call])) := by
  intro e c
  have hc : q.Conveys c := Engine.conveys_run manifest store calls q hq
  refine ⟨Engine.queueSound_of_conveys hq hc, fun call => ?_⟩
  rw [Engine.queueRecord_concat]
  exact Engine.queueStep_of_conveys hq hc call

/-- A camera that offers one more still after each release of the shutter. -/
def shutterManifest : CameraManifest where
  camera := ⟨"", "", "", []⟩
  operations := [("0x100e", {})]
  events := ["0x4002"]
  connections := [("usb",
    { actions := [
        (.enumerateObjects, { initiator := some { steps := [{ sendOp := some "0x1007" }] } }),
        (.shutter,
          { initiator := some { steps := [{ sendOp := some "0x100e" }] }
            triggers := [{ objectsAvailable := some ⟨1⟩ }] })] })]

/-- The camera starts out with one still on offer. -/
def preseeded : List Call :=
  [.configureStandardObjectQueue "usb" 1, .preseedStandardObjectQueue "usb" 1]

/-- The still is deleted after the shutter has been released. -/
def shutterRun : List Call :=
  preseeded ++
    [request Op.openSession [1], request Op.initiateCapture [], request Op.deleteObject [1]]

def afterShutter : Engine :=
  Machine.run Engine.step (Engine.new shutterManifest twoStills) shutterRun

theorem object_queue_conserves_twoStills :
    let c := (Engine.new shutterManifest twoStills).queueRecord shutterRun
    (c.called, c.quiet, c.taken) = ([2], [1], [1]) ∧
      ∃ q, afterShutter.transferQueue = some q ∧ q.available = {2} ∧
        QueueSound afterShutter c q ∧ ∀ call, QueueStep afterShutter call q c
          ((Engine.new shutterManifest twoStills).queueRecord (shutterRun ++ [call])) := by
  intro c
  have hr : (c.called, c.quiet, c.taken) = ([2], [1], [1]) := by decide +kernel
  have hs : afterShutter.transferQueue.map (·.available) = some {2} := by decide +kernel
  obtain ⟨q, hq, ha⟩ := Option.map_eq_some_iff.mp hs
  obtain ⟨hso, hst⟩ := object_queue_conserves shutterManifest twoStills shutterRun q hq
  exact ⟨hr, q, hq, ha, hso, hst⟩

/-- The still that is preseeded is on offer, and has not been announced. -/
theorem preseed_not_announced :
    let e := Machine.run Engine.step (Engine.new shutterManifest twoStills) preseeded
    declaresObjectAdded shutterManifest = true ∧
      e.transferQueue.map (·.available) = some {1} ∧ e.state.events = [] := by
  refine ⟨?_, ?_, ?_⟩
  · decide +kernel
  · decide +kernel
  · decide +kernel

end Ptpsim.Sim
