/-
# The camera-initiated queue over whole runs

A run hands completions out with the data replies and takes them back in any
order, as often as the transport likes. Beside the engine we keep a log of
what was handed out, what was returned and which handles have left the queue
(`QueueLog`). The invariant ties the two together (`QueueInv`): the generation
counts the heads, every completion is one for the head of its generation, and
the delivered ranges cover the bytes that were returned under the current
generation.
-/
import Ptpsim.Sim.Run

namespace Ptpsim.Sim

open Ptpsim.Core Config Store Coverage List CameraInitiatedQueue Engine

/-! ### The log -/

def Output.completion? : Output → Option StreamCompletion
  | reply r => r.completion?
  | _ => none

/-- The completion a call hands back. -/
def Call.completion? : Call → Option StreamCompletion
  | completeStream c => some c
  | _ => none

/-- Whether the call moves the head on. -/
def Output.movesHead : Output → Bool
  | advanced b => b
  | _ => false

/-- What has happened to the queue: completions handed out, those of them
before the head last moved on, completions handed back, and handles that have
left. -/
structure QueueLog where
  issued : List StreamCompletion := []
  outdated : List StreamCompletion := []
  returned : List StreamCompletion := []
  departed : List UInt32 := []

def QueueLog.note (e : Engine) (call : Call) (log : QueueLog) : QueueLog :=
  let output := (e.step call).1
  { issued := log.issued ++ output.completion?.toList
    outdated := if output.movesHead then log.issued else log.outdated
    returned := log.returned ++ call.completion?.toList
    departed := log.departed ++
      if output.movesHead then (e.cameraInitiatedQueue.bind (·.headHandle)).toList else [] }

/-- The engine with its log after the calls. -/
def logged (e : Engine) (calls : List Call) : Engine × QueueLog :=
  Machine.run (Machine.recorded Engine.step QueueLog.note) (e, {}) calls

/-- The calls hand back only what was handed out before. -/
def Genuine (e : Engine) (calls : List Call) : Prop :=
  Machine.Along (Machine.recorded Engine.step QueueLog.note)
    (fun el call => ∀ c ∈ call.completion?, c ∈ el.2.issued) (e, {}) calls

instance (e : Engine) (calls : List Call) : Decidable (Genuine e calls) := by
  unfold Genuine
  infer_instance

/-- The byte lies in a range that was handed back under the generation. -/
def Acknowledged (returned : List StreamCompletion) (generation : UInt64) (b : ℕ) : Prop :=
  ∃ c ∈ returned, c.generation = generation ∧ c.offset.toNat ≤ b ∧
    b < c.offset.toNat + c.len.toNat

/-! ### The invariant -/

/-- The queue of a card, and what its log says. -/
structure QueueInv (store : MediaStore) (handles : List UInt32) (q : CameraInitiatedQueue)
    (log : QueueLog) : Prop where
  handles_eq : q.handles = handles
  head_le : q.head ≤ handles.length
  generation : q.generation.toNat = q.head
  normal : Normal q.delivered
  issued : ∀ c ∈ log.issued, c.generation.toNat ≤ q.head ∧
    handles[c.generation.toNat]? = some c.handle ∧ store.objectSize c.handle = .ok c.objectSize
  outdated : ∀ c ∈ log.outdated, c.generation.toNat < q.head
  returned : ∀ c ∈ log.returned, c ∈ log.issued
  covered : ∀ b, b ∈ cover q.delivered ↔ ∃ c ∈ log.returned, c.generation = q.generation ∧
    c.offset.toNat ≤ b ∧ b < c.offset.toNat + c.len.toNat ∧ b < c.objectSize.toNat
  departed : log.departed = handles.take q.head

namespace QueueInv

variable {store : MediaStore} {handles : List UInt32} {q : CameraInitiatedQueue} {log : QueueLog}

variable (store handles) in
theorem new :
    QueueInv store handles (.new handles) {} where
  handles_eq := rfl
  head_le := Nat.zero_le _
  generation := rfl
  normal := .nil
  issued := by simp
  outdated := by simp
  returned := by simp
  covered := by simp [CameraInitiatedQueue.new]
  departed := rfl

variable {c : StreamCompletion} (h : QueueInv store handles q log)

include h

theorem headHandle (hc : c ∈ log.issued) (hgen : c.generation = q.generation) :
    q.headHandle = some c.handle := by
  obtain ⟨-, hh, -⟩ := h.issued c hc
  rw [hgen, h.generation] at hh
  rw [CameraInitiatedQueue.headHandle, h.handles_eq, hh]

theorem generation_ne (hc : c ∈ log.outdated) : c.generation ≠ q.generation := by
  intro hgen
  have hlt := h.outdated c hc
  rw [hgen, h.generation] at hlt
  exact lt_irrefl _ hlt

theorem issue (hgen : c.generation = q.generation)
    (hh : q.headHandle = some c.handle) (hs : store.objectSize c.handle = .ok c.objectSize) :
    QueueInv store handles q { log with issued := log.issued ++ [c] } where
  __ := h
  returned := fun c' hc' => mem_append_left _ (h.returned c' hc')
  issued := by
    intro c' hc'
    rcases mem_append.mp hc' with hc' | hc'
    · exact h.issued c' hc'
    · cases mem_singleton.mp hc'
      rw [hgen, h.generation]
      refine ⟨le_rfl, ?_, hs⟩
      rw [← h.handles_eq]
      exact hh

theorem returned_concat (hc : c ∈ log.issued) :
    ∀ c' ∈ log.returned ++ [c], c' ∈ log.issued :=
  forall_mem_append.mpr ⟨h.returned, forall_mem_singleton.mpr hc⟩

theorem returnStale (hc : c ∈ log.issued) (hgen : c.generation ≠ q.generation) :
    QueueInv store handles q { log with returned := log.returned ++ [c] } where
  __ := h
  returned := h.returned_concat hc
  covered := by
    intro b
    rw [h.covered b]
    simp [or_and_right, exists_or, hgen]

theorem returnCurrent (hc : c ∈ log.issued) (hgen : c.generation = q.generation) :
    QueueInv store handles
      { q with delivered := deliver q.delivered c.offset c.len c.objectSize }
      { log with returned := log.returned ++ [c] } where
  __ := h
  normal := normal_deliver h.normal _ _ _
  returned := h.returned_concat hc
  covered := by
    intro b
    rw [cover_deliver h.normal, Set.mem_union, h.covered b, Set.mem_Ico,
      lt_min_iff]
    simp [or_and_right, exists_or, hgen]

theorem advance (hlen : handles.length < 2 ^ 64)
    (hc : c ∈ log.issued) (hgen : c.generation = q.generation) :
    QueueInv store handles
      { q with head := q.head + 1, generation := q.generation + 1, delivered := [] }
      { log with
        outdated := log.issued
        returned := log.returned ++ [c]
        departed := log.departed ++ [c.handle] } := by
  have hh : handles[q.head]? = some c.handle := by
    rw [← h.handles_eq]
    exact h.headHandle hc hgen
  have hlt : q.head < handles.length := (List.getElem?_eq_some_iff.mp hh).1
  have hgen' : (q.generation + 1).toNat = q.head + 1 := by
    rw [UInt64.toNat_add, h.generation]
    exact Nat.mod_eq_of_lt (by show q.head + 1 < 2 ^ 64; omega)
  have hr := h.returned_concat hc
  refine
    { handles_eq := h.handles_eq
      head_le := hlt
      generation := hgen'
      normal := .nil
      issued := fun c' hc' => ?_
      outdated := fun c' hc' => Nat.lt_succ_of_le (h.issued c' hc').1
      returned := hr
      covered := fun b => ?_
      departed := ?_ }
  · obtain ⟨hle, hre⟩ := h.issued c' hc'
    exact ⟨Nat.le_succ_of_le hle, hre⟩
  · -- nothing that came back is of the new generation
    simp only [cover_nil, Set.mem_empty_iff_false, false_iff]
    rintro ⟨c', hc', hnew, -⟩
    have hle := (h.issued c' (hr c' hc')).1
    rw [hnew, hgen'] at hle
    omega
  · rw [h.departed, take_add_one, hh]
    rfl

/-- **A completion comes back**, whatever it was issued for. -/
theorem complete (hlen : handles.length < 2 ^ 64) (hc : c ∈ log.issued) :
    QueueInv store handles (q.complete c).2
      { log with
        outdated := if (q.complete c).1 then log.issued else log.outdated
        returned := log.returned ++ [c]
        departed := log.departed ++ if (q.complete c).1 then q.headHandle.toList else [] } := by
  by_cases hgen : c.generation = q.generation
  · have hh := h.headHandle hc hgen
    rw [complete_current hgen hh, acknowledge_snd]
    split
    · rw [hh]
      exact h.advance hlen hc hgen
    · rw [append_nil]
      exact h.returnCurrent hc hgen
  · rw [complete_stale hgen]
    simp only [Bool.false_eq_true, if_false, append_nil]
    exact h.returnStale hc hgen

/-- The head moves on exactly when the bytes of its object have come back
under its generation. -/
theorem complete_advances_iff (hc : c ∈ log.issued) :
    (q.complete c).1 = true ↔ c.generation = q.generation ∧ ∃ handle size,
      q.headHandle = some handle ∧ store.objectSize handle = .ok size ∧
      ∀ b < size.toNat, Acknowledged (log.returned ++ [c]) q.generation b := by
  by_cases hgen : c.generation = q.generation
  · have hh := h.headHandle hc hgen
    obtain ⟨-, -, hs⟩ := h.issued c hc
    -- all completions of the generation are for the head and know its size
    have hby : ∀ b < c.objectSize.toNat,
        b ∈ cover (deliver q.delivered c.offset c.len c.objectSize) ↔
          Acknowledged (log.returned ++ [c]) q.generation b := by
      intro b hb
      have hco := (h.returnCurrent hc hgen).covered b
      rw [hco]
      constructor
      · rintro ⟨c', hc', hgen', hlo, hhi, -⟩
        exact ⟨c', hc', hgen', hlo, hhi⟩
      · rintro ⟨c', hc', hgen', hlo, hhi⟩
        have hi := h.returned_concat hc c' hc'
        have hha : c'.handle = c.handle := by
          have := (h.headHandle hi hgen').symm.trans hh
          exact Option.some.inj this
        have hs' : c'.objectSize = c.objectSize := by
          have hs' := (h.issued c' hi).2.2
          rw [hha, hs] at hs'
          exact (Except.ok.inj hs').symm
        exact ⟨c', hc', hgen', hlo, hhi, hs' ▸ hb⟩
    rw [complete_current hgen hh,
      acknowledge_advances_iff h.normal]
    constructor
    · intro hsub
      exact ⟨hgen, c.handle, c.objectSize, hh, hs, fun b hb =>
        (hby b hb).mp (hsub ⟨Nat.zero_le b, hb⟩)⟩
    · rintro ⟨-, handle, size, hha, hs', hack⟩ b ⟨-, hb⟩
      cases hh.symm.trans hha
      cases hs.symm.trans hs'
      exact (hby b hb).mpr (hack b hb)
  · rw [complete_stale hgen]
    simp [hgen]

end QueueInv

/-! ### Runs -/

namespace Engine

variable {e : Engine} {q : CameraInitiatedQueue}

theorem completeStream_eq (hq : e.cameraInitiatedQueue = some q) (c : StreamCompletion) :
    (e.completeStream c).1 = (q.complete c).1 ∧
      (e.completeStream c).2.cameraInitiatedQueue = some (q.complete c).2 := by
  unfold completeStream
  rw [hq]
  exact ⟨rfl, rfl⟩

theorem completeStream_stale (hq : e.cameraInitiatedQueue = some q) {c : StreamCompletion}
    (hgen : c.generation ≠ q.generation) : e.completeStream c = (false, e) := by
  unfold completeStream
  rw [hq]
  dsimp only
  rw [complete_stale hgen, ← hq]
  rfl

end Engine

/-- What an operation call hands out is for the head of the queue. -/
theorem step_completion {e : Engine} {call : Call} {c : StreamCompletion}
    (h : (e.step call).1.completion? = some c) : e.Issues c := by
  cases call with
  | operation req dataIn => exact onOperation_completion h
  | operationWith tracker req dataIn =>
    have hi : ({ e with lifecycle := tracker } : Engine).Issues c := onOperation_completion h
    exact hi
  | _ => cases h

theorem movesHead_eq {e : Engine} {call : Call} (h : ∀ c, call ≠ .completeStream c) :
    (e.step call).1.movesHead = false ∧ call.completion? = none := by
  cases call with
  | completeStream c => exact absurd rfl (h c)
  | _ => exact ⟨rfl, rfl⟩

/-- The invariant of a run: every queue the engine has agrees with the log. -/
def LogInv (store : MediaStore) (handles : List UInt32) (el : Engine × QueueLog) : Prop :=
  el.1.store = store ∧ ∀ q, el.1.cameraInitiatedQueue = some q → QueueInv store handles q el.2

theorem logInv_step {store : MediaStore} {handles : List UInt32} (hlen : handles.length < 2 ^ 64)
    (el : Engine × QueueLog) (call : Call) (hca : ∀ c ∈ call.completion?, c ∈ el.2.issued)
    (h : LogInv store handles el) :
    LogInv store handles (Machine.recorded Engine.step QueueLog.note el call).2 := by
  obtain ⟨e, log⟩ := el
  obtain ⟨hs, hinv⟩ := h
  refine ⟨(e.step_setup call).2.2.trans hs, ?_⟩
  show ∀ q, (e.step call).2.cameraInitiatedQueue = some q →
    QueueInv store handles q (QueueLog.note e call log)
  intro q' hq'
  by_cases hst : ∃ c, call = .completeStream c
  · obtain ⟨c, rfl⟩ := hst
    have hc : c ∈ log.issued := hca c rfl
    cases hq : e.cameraInitiatedQueue with
    | none =>
      have hno : (e.completeStream c).2.cameraInitiatedQueue = none := by
        unfold completeStream
        rw [hq]
        exact hq
      rw [show (e.step (.completeStream c)).2 = (e.completeStream c).2 from rfl, hno] at hq'
      cases hq'
    | some q =>
      obtain ⟨ha, hqu⟩ := completeStream_eq hq c
      cases hqu.symm.trans hq'
      have hn := (hinv q hq).complete hlen hc
      rw [← ha] at hn
      have hlog : QueueLog.note e (.completeStream c) log =
          { issued := log.issued ++ []
            outdated := if (e.completeStream c).1 then log.issued else log.outdated
            returned := log.returned ++ [c]
            departed := log.departed ++ if (e.completeStream c).1 then
              (e.cameraInitiatedQueue.bind (·.headHandle)).toList else [] } := rfl
      rw [hlog, hq, append_nil]
      exact hn
  · have hne : ∀ c, call ≠ .completeStream c := fun c hc => hst ⟨c, hc⟩
    have hk : Keeps e (e.step call).2 := step_keeps hne
    rw [hk.cameraInitiatedQueue] at hq'
    obtain ⟨hm, hco⟩ := movesHead_eq (e := e) hne
    have hlog : QueueLog.note e call log =
        { log with issued := log.issued ++ (e.step call).1.completion?.toList } := by
      simp [QueueLog.note, hm, hco]
    rw [hlog]
    cases hi : (e.step call).1.completion? with
    | none =>
      rw [Option.toList_none, append_nil]
      exact hinv q' hq'
    | some c =>
      obtain ⟨q, hq, hgen, hh, hsi⟩ := step_completion hi
      cases hq.symm.trans hq'
      exact (hinv q' hq').issue hgen hh (hs ▸ hsi)

theorem length_cameraInitiatedMediaHandles_lt (manifest : CameraManifest) (store : MediaStore) :
    (cameraInitiatedMediaHandles manifest store).length < 2 ^ 64 := by
  calc (cameraInitiatedMediaHandles manifest store).length ≤ store.handles.length :=
        length_filter_le _ _
    _ < 2 ^ 64 := store.length_handles_lt

theorem logInv_run (sequences : List GateSequence) (manifest : CameraManifest) (store : MediaStore)
    (calls : List Call) (h : Genuine (newWith sequences manifest store) calls) :
    LogInv store (cameraInitiatedMediaHandles manifest store)
      (logged (newWith sequences manifest store) calls) := by
  apply h.run_invariant (P := LogInv store (cameraInitiatedMediaHandles manifest store))
  · exact fun el call hc hinv =>
      logInv_step (length_cameraInitiatedMediaHandles_lt manifest store) el call hc hinv
  · refine ⟨rfl, fun q hq => ?_⟩
    obtain ⟨transfer, -, rfl⟩ := Option.map_eq_some_iff.mp hq
    exact .new store _

/-- **The head moves on when its object has arrived**, in every run that hands
back only what was handed out: exactly at the completion after which the bytes
of the head object have all come back under the current generation, and at no
other call. The handles leave in order, each once, and a completion that was
handed out before the head last moved on changes nothing. -/
theorem head_advances_when_acknowledged (sequences : List GateSequence)
    (manifest : CameraManifest) (store : MediaStore) (calls : List Call)
    (hgenuine : Genuine (Engine.newWith sequences manifest store) calls)
    (e : Engine) (log : QueueLog)
    (hrun : logged (Engine.newWith sequences manifest store) calls = (e, log))
    (q : CameraInitiatedQueue) (hq : e.cameraInitiatedQueue = some q) :
    (∀ c ∈ log.issued, (e.completeStream c).1 = true ↔ c.generation = q.generation ∧
      ∃ handle size, q.headHandle = some handle ∧ store.objectSize handle = .ok size ∧
        ∀ b < size.toNat, Acknowledged (log.returned ++ [c]) q.generation b) ∧
    (∀ c, ∃ q', (e.completeStream c).2.cameraInitiatedQueue = some q' ∧ q'.handles = q.handles ∧
      q'.head = if (e.completeStream c).1 then q.head + 1 else q.head) ∧
    (∀ call, (∀ c, call ≠ .completeStream c) →
      (e.step call).2.cameraInitiatedQueue = some q) ∧
    (∀ c ∈ log.outdated, e.completeStream c = (false, e)) ∧
    log.departed ++ q.handles.drop q.head = cameraInitiatedMediaHandles manifest store ∧
    (cameraInitiatedMediaHandles manifest store).Nodup := by
  have hlog := logInv_run sequences manifest store calls hgenuine
  rw [hrun] at hlog
  have hinv : QueueInv store (cameraInitiatedMediaHandles manifest store) q log := hlog.2 q hq
  refine ⟨fun c hc => ?_, fun c => ?_, fun call hca => ?_, fun c hc => ?_, ?_, ?_⟩
  · rw [(completeStream_eq hq c).1]
    exact hinv.complete_advances_iff hc
  · obtain ⟨ha, hqu⟩ := completeStream_eq hq c
    rw [ha]
    exact ⟨(q.complete c).2, hqu, q.complete_moves c⟩
  · have hk : Keeps e (e.step call).2 := step_keeps hca
    rw [hk.cameraInitiatedQueue, hq]
  · exact completeStream_stale hq (hinv.generation_ne hc)
  · rw [hinv.departed, hinv.handles_eq, take_append_drop]
  · exact store.nodup_handles.filter _

/-! Of a card with a still of three bytes and an empty one, the first is read
in two overlapping ranges that come back in the wrong order. -/

def receiveRun : List Call :=
  [.applyStateOverlay
      { phase := some "queuedReceive"
        sessionOpen := some true
        cameraInitiatedTransferActive := some true },
    .operation ⟨1, Op.getPartialObject, 1, [1, 0, 2]⟩ none,
    .operation ⟨1, Op.getPartialObject, 2, [1, 1, 5]⟩ none,
    .completeStream ⟨0, 1, 1, 2, 3⟩,
    .completeStream ⟨0, 1, 0, 2, 3⟩,
    .operation ⟨1, Op.getPartialObject, 3, [1, 0, 9]⟩ none]

def received : Engine × QueueLog := logged (Engine.newWith [] receiveManifest twoStills) receiveRun

/-- The first still has left; its late completion is dropped, and the empty
still leaves at once. -/
theorem head_advances_when_acknowledged_twoStills :
    Genuine (Engine.newWith [] receiveManifest twoStills) receiveRun ∧
      received.2.departed ++ [2] = cameraInitiatedMediaHandles receiveManifest twoStills ∧
      (received.1.completeStream ⟨0, 1, 0, 2, 3⟩).1 = false ∧
      (received.1.completeStream ⟨1, 2, 0, 0, 0⟩).1 = true := by
  have hg : Genuine (newWith [] receiveManifest twoStills) receiveRun := by
    decide +kernel
  obtain ⟨ha, -, -, hs, hl, -⟩ := head_advances_when_acknowledged [] receiveManifest
    twoStills receiveRun hg received.1 received.2 rfl ⟨[1, 2], 1, 1, []⟩ (by decide +kernel)
  refine ⟨hg, hl, ?_, ?_⟩
  · rw [hs ⟨0, 1, 0, 2, 3⟩ (by decide +kernel)]
  · refine (ha ⟨1, 2, 0, 0, 0⟩ (by decide +kernel)).mpr ⟨rfl, 2, 0, rfl, rfl, fun b hb => ?_⟩
    exact absurd hb (Nat.not_lt_zero b)

end Ptpsim.Sim
