/-
# Which objects an operation may read

With an object queue configured, an object is on offer as long as the queue
lists its handle, and GetObjectHandles lists those. GetObjectInfo, GetThumb and
GetObject ask the queue before they read the object. GetPartialObject and the
object-size operations of the manifest do not: they serve every object of the
card, on offer or not (`object_visibility`, `withheld_object_read`).

What is on offer is on the card, whatever has been enqueued and deleted
(`listed_stored`), so an operation that does ask the queue fails for a listed
handle only if the card cannot produce what was asked for.
-/
import Ptpsim.Sim.ObjectQueueRun

namespace Ptpsim.Sim

open Ptpsim.Core Config Store MediaStore Engine

/-! ### What is on offer is on the card -/

namespace Engine

variable {e : Engine} {c : Conveyor UInt32} {handle : UInt32}

/-- The conveyor of the queue has only handles of the card. -/
def StoredOn (store : MediaStore) (ec : Engine × Conveyor UInt32) : Prop :=
  ec.1.store = store ∧ ec.1.Conveys ec.2 ∧ ∀ handle, ec.2.Has handle → handle ∈ store.handles

theorem seeds_has {call : Call} {c' : Conveyor UInt32} (h : e.seeds call = some c')
    (hhas : c'.Has handle) : handle ∈ e.store.handles := by
  obtain ⟨connection, count, next, q, -, he, hok, hq, rfl⟩ := seeds_eq h
  obtain ⟨q', hq', hh, -⟩ := configureStandardObjectQueue_conveys he hok
  obtain rfl := Option.some.inj (hq.symm.trans hq')
  have hw : handle ∈ q.handles := by
    rcases Conveyor.has_release hhas with hmem | hmem | hmem
    · cases hmem
    · cases hmem
    · exact hmem
  rw [hh] at hw
  simp only [standardObjectQueueHandles, storeFileHandles, List.mem_filter] at hw
  exact hw.1.1

theorem storedOn_step {store : MediaStore} (ec : Engine × Conveyor UInt32) (call : Call)
    (h : StoredOn store ec) : StoredOn store (Machine.recorded step noteQueue ec call).2 := by
  obtain ⟨hst, hc, hhas⟩ := h
  refine ⟨(step_setup ec.1 call).2.2.trans hst, conveys_step hc call, fun handle hn => ?_⟩
  change (ec.1.noteQueue call ec.2).Has handle at hn
  unfold noteQueue at hn
  rcases hs : ec.1.seeds call with _ | c'
  · rw [hs] at hn
    exact hhas handle (Conveyor.has_turn hn)
  · rw [hs] at hn
    rw [← hst]
    exact seeds_has hs hn

theorem storedOn_run (manifest : CameraManifest) (store : MediaStore) (calls : List Call) :
    StoredOn store (Machine.run Engine.step (Engine.new manifest store) calls,
      (Engine.new manifest store).queueRecord calls) := by
  have hrun := Machine.run_invariant (Machine.recorded step noteQueue) storedOn_step
    (Engine.new manifest store, .start []) calls
    ⟨rfl, fun q hq => (nomatch hq),
      fun handle hhas => by simp [Conveyor.Has, Conveyor.start] at hhas⟩
  have hfst := Machine.run_recorded step noteQueue (Engine.new manifest store) (.start []) calls
  unfold StoredOn at hrun ⊢
  rwa [hfst] at hrun

theorem listed_iff {q : TransferQueue} (hq : e.transferQueue = some q) (hc : e.Conveys c) :
    handle ∈ e.enumeratedObjectHandles ↔ e.objectHandleAvailable handle = true := by
  have hco := (hc q hq).conserves
  have hsub : handle ∈ q.available → handle ∈ q.handles := by
    intro hmem
    rw [← (hc q hq).offered] at hmem
    have hs : handle ∈ (c.taken : Multiset UInt32) + c.offered.val + c.waiting :=
      Multiset.mem_add.mpr (.inl (Multiset.mem_add.mpr (.inr hmem)))
    rwa [hco.stock] at hs
  simp only [enumeratedObjectHandles, objectHandleAvailable, hq, TransferQueue.availableHandles,
    TransferQueue.contains, List.mem_filter, decide_eq_true_eq, Option.all_some]
  exact ⟨fun h => h.2, fun h => ⟨hsub h, h⟩⟩

theorem listed_stored {store : MediaStore} (h : StoredOn store (e, c)) {q : TransferQueue}
    (hq : e.transferQueue = some q) (hl : handle ∈ e.enumeratedObjectHandles) :
    handle ∈ e.store.handles := by
  obtain ⟨hs, hc, hhas⟩ := h
  have ha := (listed_iff hq hc).mp hl
  simp only [objectHandleAvailable, hq, Option.all_some, TransferQueue.contains,
    decide_eq_true_eq, ← (hc q hq).offered] at ha
  rw [hs]
  exact hhas handle (.inr (.inl ha))

end Engine

/-! ### The operations that read an object -/

inductive ObjectOperation where
  | info
  | thumb
  | whole
  | part
  | size

/-- The request reads the object with the handle. An object-size operation of
the manifest names the parameter that holds it. -/
inductive Reads (e : Engine) (req : OperationRequest) : ObjectOperation → UInt32 → Prop
  | info (hcode : req.code = Op.getObjectInfo) : Reads e req .info (Engine.param req 0)
  | thumb (hcode : req.code = Op.getThumb) : Reads e req .thumb (Engine.param req 0)
  | whole (hcode : req.code = Op.getObject) : Reads e req .whole (Engine.param req 0)
  | part (hcode : req.code = Op.getPartialObject) : Reads e req .part (Engine.param req 0)
  | size {op : Operation} {handler : ObjectSizeHandler} {handle : UInt32}
      (hother : e.isStandardOp req.code = false) (hvalue : req.code ≠ Op.getDevicePropValue)
      (hset : req.code ≠ Op.setDevicePropValue) (hop : e.manifest.operation req.code = some op)
      (hkind : op.handler = some .objectSize) (hsize : op.objectSize = some handler)
      (hparams : ∀ p ∈ handler.requiredParams, req.params[p.index]? = some p.equals)
      (hhandle : req.params[handler.handleParam]? = some handle) : Reads e req .size handle

/-- The object is read if the engine lists its handle, and the handle is
refused as invalid otherwise. -/
def Visible (e : Engine) (handle tid : UInt32) (reply : Reply) : Prop :=
  (reply.isOk = true ↔ handle ∈ e.enumeratedObjectHandles) ∧
    (handle ∉ e.enumeratedObjectHandles → reply = .err tid Resp.invalidObjectHandle)

/-- The card has what is asked for; for the operations that do not ask the
queue, the object is on offer or not on the card at all. -/
def Servable (e : Engine) (handle : UInt32) : ObjectOperation → Prop
  | .info => handle ∈ e.enumeratedObjectHandles →
      ∃ info bytes, e.store.objectInfo handle = .ok info ∧ Writer.intoVec info.encode = .ok bytes
  | .thumb => handle ∈ e.enumeratedObjectHandles → ∃ source, e.store.thumbnail handle = .ok source
  | .whole => True
  | .part | .size => handle ∈ e.enumeratedObjectHandles ∨ handle ∉ e.store.handles

namespace Engine

variable {e : Engine} {req : OperationRequest} {dataIn : Option (List UInt8)} {handle tid : UInt32}

theorem visible_guarded (hl : handle ∈ e.enumeratedObjectHandles ↔
      e.objectHandleAvailable handle = true) (stored : Reply) :
    Visible e handle tid (if !e.objectHandleAvailable handle then
        .err tid Resp.invalidObjectHandle else stored) ↔
      (handle ∈ e.enumeratedObjectHandles → stored.isOk = true) := by
  have hr : ¬ (Reply.err tid Resp.invalidObjectHandle).isOk = true := isOk_err (by decide)
  unfold Visible
  by_cases hmem : handle ∈ e.enumeratedObjectHandles
  · simp [hmem, hl.mp hmem]
  · have hnot : e.objectHandleAvailable handle = false := by simpa using hl.not.mp hmem
    simp [hmem, hnot, hr]

theorem visible_unguarded (hs : handle ∈ e.enumeratedObjectHandles → handle ∈ e.store.handles)
    {reply : Reply} (hok : handle ∈ e.store.handles → reply.isOk = true)
    (hr : handle ∉ e.store.handles → reply = .err tid Resp.invalidObjectHandle) :
    Visible e handle tid reply ↔ handle ∈ e.enumeratedObjectHandles ∨ handle ∉ e.store.handles := by
  have hnot : ¬ (Reply.err tid Resp.invalidObjectHandle).isOk = true := isOk_err (by decide)
  unfold Visible
  by_cases hmem : handle ∈ e.enumeratedObjectHandles
  · simp [hmem, hok (hs hmem)]
  · by_cases hc : handle ∈ e.store.handles
    · simp [hmem, hc, hok hc]
    · simp [hmem, hc, hr hc, hnot]

theorem objectInfoReply_isOk : (e.objectInfoReply tid handle).isOk = true ↔
    ∃ info bytes, e.store.objectInfo handle = .ok info ∧
      Writer.intoVec info.encode = .ok bytes := by
  unfold objectInfoReply
  rcases e.store.objectInfo handle with _ | info
  · simp [Reply.err, Reply.isOk, Resp.invalidObjectHandle, Resp.ok]
  · rcases hb : Writer.intoVec info.encode with _ | bytes
    · simp [hb, Reply.err, Reply.isOk, Resp.generalError, Resp.ok]
    · simp [hb, Reply.ofData, Reply.isOk]

theorem readRange_of_mem {store : MediaStore} (h : handle ∈ store.handles) (offset : UInt64)
    (len : UInt32) : ∃ source, store.readRange handle offset len = .ok source := by
  obtain ⟨entry, he⟩ := mem_handles_iff.mp h
  unfold readRange
  rw [he]
  exact ⟨_, rfl⟩

/-! ### The handlers -/

theorem getObjectInfo_visible (hl : param req 0 ∈ e.enumeratedObjectHandles ↔
      e.objectHandleAvailable (param req 0) = true) :
    Visible e (param req 0) req.transactionId (e.getObjectInfo req).reply ↔
      Servable e (param req 0) .info := by
  have hr : (e.getObjectInfo req).reply = if !e.objectHandleAvailable (param req 0) then
      .err req.transactionId Resp.invalidObjectHandle
      else e.objectInfoReply req.transactionId (param req 0) := by
    unfold getObjectInfo
    split <;> rfl
  rw [hr, visible_guarded hl, objectInfoReply_isOk]
  rfl

theorem getThumb_visible (hl : param req 0 ∈ e.enumeratedObjectHandles ↔
      e.objectHandleAvailable (param req 0) = true) :
    Visible e (param req 0) req.transactionId (e.getThumb req).reply ↔
      Servable e (param req 0) .thumb := by
  have hr : ∃ stored : Reply, (e.getThumb req).reply =
      (if !e.objectHandleAvailable (param req 0) then
        .err req.transactionId Resp.invalidObjectHandle else stored) ∧
      (stored.isOk = true ↔ ∃ source, e.store.thumbnail (param req 0) = .ok source) := by
    unfold getThumb
    rcases e.store.thumbnail (param req 0) with _ | source
    · exact ⟨_, rfl, by simp [Reply.err, Reply.isOk, Resp.invalidObjectHandle, Resp.ok]⟩
    · exact ⟨_, rfl, by simp [Reply.ofStream, Reply.isOk]⟩
  obtain ⟨stored, hr, hok⟩ := hr
  rw [hr, visible_guarded hl, hok]
  rfl

theorem getObject_visible (hl : param req 0 ∈ e.enumeratedObjectHandles ↔
      e.objectHandleAvailable (param req 0) = true)
    (hst : param req 0 ∈ e.enumeratedObjectHandles → param req 0 ∈ e.store.handles) :
    Visible e (param req 0) req.transactionId (e.getObject req).reply := by
  have hr : ∃ stored : Reply, (e.getObject req).reply =
      (if !e.objectHandleAvailable (param req 0) then
        .err req.transactionId Resp.invalidObjectHandle else stored) ∧
      (param req 0 ∈ e.enumeratedObjectHandles → stored.isOk = true) := by
    unfold getObject
    dsimp only
    generalize UInt32.ofNat _ = len
    rcases hra : e.store.readRange (param req 0) 0 len with _ | source
    · refine ⟨.err req.transactionId Resp.invalidObjectHandle, by split <;> rfl, fun hmem => ?_⟩
      obtain ⟨source, hs⟩ := readRange_of_mem (hst hmem) 0 len
      rw [hra] at hs
      cases hs
    · exact ⟨.ofStream req.transactionId source, by split <;> rfl, fun _ => rfl⟩
  obtain ⟨stored, hr, hok⟩ := hr
  rw [hr, visible_guarded hl]
  exact hok

theorem getPartialObject_visible
    (hst : param req 0 ∈ e.enumeratedObjectHandles → param req 0 ∈ e.store.handles) :
    Visible e (param req 0) req.transactionId (e.getPartialObject req).reply ↔
      Servable e (param req 0) .part := by
  refine visible_unguarded hst (fun hmem => ?_) fun hmem => ?_
  · obtain ⟨source, hs⟩ := readRange_of_mem hmem (partialOffset req) (param req 2)
    unfold getPartialObject
    rw [hs]
    rfl
  · unfold getPartialObject readRange
    rw [entry_of_not_mem hmem]
    rfl

theorem objectSizeOp_visible {op : Operation} {handler : ObjectSizeHandler}
    (hs : op.objectSize = some handler)
    (hp : ∀ p ∈ handler.requiredParams, req.params[p.index]? = some p.equals)
    (hh : req.params[handler.handleParam]? = some handle)
    (hst : handle ∈ e.enumeratedObjectHandles → handle ∈ e.store.handles) :
    Visible e handle req.transactionId (e.objectSizeOp req.transactionId op req.params) ↔
      Servable e handle .size := by
  have hmet : ¬ (handler.requiredParams.any fun p => req.params[p.index]? ≠ some p.equals) =
    true := by
    simpa using hp
  unfold objectSizeOp
  rw [hs]
  simp only [if_neg hmet, hh]
  refine visible_unguarded hst (fun hmem => ?_) fun hmem => ?_
  · obtain ⟨entry, he⟩ := mem_handles_iff.mp hmem
    rw [objectSize_of_entry he]
    rfl
  · rw [objectSize, entry_of_not_mem hmem]
    rfl

theorem reads_handling {op : ObjectOperation} (h : Reads e req op handle) :
    Reads (e.handling req) req op handle := by
  cases h with
  | info hc => exact .info hc
  | thumb hc => exact .thumb hc
  | whole hc => exact .whole hc
  | part hc => exact .part hc
  | size ho hv hset hop hk hs hp hh =>
    exact .size ho hv hset hop hk hs hp hh

theorem handle_visible {op : ObjectOperation} (hr : Reads e req op handle)
    (hl : handle ∈ e.enumeratedObjectHandles ↔ e.objectHandleAvailable handle = true)
    (hs : handle ∈ e.enumeratedObjectHandles → handle ∈ e.store.handles)
    (ha : isBootstrapOp req.code = true ∨ e.operationAvailabilityError req.code = none) :
    Visible e handle req.transactionId (e.handle req dataIn).1.reply ↔ Servable e handle op := by
  cases hr with
  | info hc =>
    have hh : e.handle req dataIn = (e.getObjectInfo req, e) := by
      unfold handle
      rw [hc]
      rfl
    rw [hh]
    exact getObjectInfo_visible hl
  | thumb hc =>
    have hh : e.handle req dataIn = (e.getThumb req, e) := by
      unfold handle
      rw [hc]
      rfl
    rw [hh]
    exact getThumb_visible hl
  | whole hc =>
    have hh : e.handle req dataIn = (e.getObject req, e) := by
      unfold handle
      rw [hc]
      rfl
    rw [hh]
    exact iff_of_true (getObject_visible hl hs) trivial
  | part hc =>
    have hh : e.handle req dataIn = (e.getPartialObject req, e) := by
      unfold handle
      rw [hc]
      rfl
    rw [hh]
    exact getPartialObject_visible hs
  | @size op handler _ ho hv hset hop hk hsi hp hh =>
    rw [handle_declared_reply ho hv hset ha hop, hk]
    exact objectSizeOp_visible hsi hp hh hs

end Engine

/-- **Visibility of objects.** In every state reached with a queue configured,
a request that gets to its handler reads an object exactly if its handle is
listed, and is refused otherwise, if the operation asks the queue and the card
has what is asked for; if it does not ask the queue, exactly if the object is
on offer or unknown. -/
theorem object_visibility (manifest : CameraManifest) (store : MediaStore) (calls : List Call)
    (req : OperationRequest) (dataIn : Option (List UInt8)) (op : ObjectOperation)
    (handle : UInt32) :
    let e := Machine.run Engine.step (Engine.new manifest store) calls
    e.transferQueue.isSome = true → e.handled req = true → Reads e req op handle →
      (Visible e handle req.transactionId (e.dispatched req dataIn).1 ↔ Servable e handle op) := by
  intro e hqu hh hr
  obtain ⟨q, hq⟩ := Option.isSome_iff_exists.mp hqu
  have hs := storedOn_run manifest store calls
  rw [dispatched_handled hh]
  -- the handler finds the queue, the card and the manifest of the engine
  exact handle_visible (e := e.handling req) (reads_handling hr)
    (listed_iff (e := e) hq hs.2.1)
    (fun hmem => listed_stored (e := e) hs hq hmem) (handled_available hh)

/-- The camera with the shutter, and an operation that tells an object's
size. -/
def sizedManifest : CameraManifest :=
  { shutterManifest with operations := [("0x100e", {}),
      ("0x9801", { handler := some .objectSize, objectSize := some ⟨0, .u32Le, []⟩ })] }

def offeredRun : List Call := preseeded ++ [request Op.openSession [1]]

def offered : Engine := Machine.run Engine.step (Engine.new sizedManifest twoStills) offeredRun

theorem object_visibility_offered :
    offered.enumeratedObjectHandles = [1] ∧
      Visible offered 1 2 (offered.dispatched ⟨1, Op.getObject, 2, [1]⟩ none).1 := by
  refine ⟨by decide +kernel, ?_⟩
  have hv := object_visibility sizedManifest twoStills offeredRun
    ⟨1, Op.getObject, 2, [1]⟩ none .whole 1 (by decide +kernel) (by decide +kernel) (.whole rfl)
  exact hv.mpr trivial

/-- The engine after the object on offer has been deleted. -/
def withheld : Engine :=
  Machine.run Engine.step (Engine.new sizedManifest twoStills)
    (offeredRun ++ [request Op.deleteObject [1]])

/-- A deleted object is no longer listed and cannot be read as a whole, but a
part of it and its size can. -/
theorem withheld_object_read :
    withheld.transferQueue.isSome = true ∧ withheld.enumeratedObjectHandles = [] ∧
    (withheld.onOperation ⟨1, Op.getObject, 2, [1]⟩ none).1 = .err 2 Resp.invalidObjectHandle ∧
    (withheld.onOperation ⟨1, Op.getPartialObject, 3, [1, 0, 3]⟩ none).1 =
      .dataStream (.fileRange ["DSCF0001.JPG"] 0 3) ⟨Resp.ok, 3, [3]⟩ none ∧
    (withheld.onOperation ⟨1, 0x9801, 4, [1]⟩ none).1 = .ofData 4 [3, 0, 0, 0] := by
  refine ⟨?_, ?_, ?_, ?_, ?_⟩ <;> decide +kernel

end Ptpsim.Sim
