/-
# Shutter releases in a run of operations

The object queue follows the operations that succeed, one number being all
that it remembers of them, and enqueues when it comes to the end of the shutter
sequence. So it finds the occurrences of the sequence from left to right if the
sequence does not overlap with itself in the middle of a match, and misses some
otherwise (`shutter_enqueues_iff`).
-/
import Ptpsim.Lib.SequenceMatch
import Ptpsim.Sim.Run

namespace Ptpsim.Sim

open Ptpsim.Core Config SequenceMatch TransferQueue

namespace TransferQueue

/-- The handles of the next shutter release, if there is one. -/
def nextRelease (q : TransferQueue) (release : Bool) : List UInt32 :=
  if release then (q.handles.drop q.nextIndex).take q.enqueuePerShutter.toNat else []

/-- The queue has become `q'`, with one shutter enqueue or with none. -/
structure Becomes (q q' : TransferQueue) (release : Bool) : Prop where
  handles : q'.handles = q.handles
  perShutter : q'.enqueuePerShutter = q.enqueuePerShutter
  nextIndex : q'.nextIndex = q.nextIndex + (q.nextRelease release).length
  available : q'.available = q.available ∪ (q.nextRelease release).toFinset

theorem becomes_enqueueCount (q : TransferQueue) :
    q.Becomes (enqueueCount { q with shutterProgress := 0 } q.enqueuePerShutter).2 true := by
  unfold enqueueCount
  rw [enqueueLoop_eq]
  refine ⟨rfl, rfl, ?_, rfl⟩
  simp only [nextRelease, if_true, List.length_take, List.length_drop]

end TransferQueue

namespace Engine

/-- Whether an operation fits a step of a sequence. -/
def fitsStep (manifest : CameraManifest) (matcher : GateMatcher) (x : Exchange) : Bool :=
  gateMatchForManifest manifest matcher x.1 x.2

/-- An operation that succeeds and reaches the queue. -/
def succeed (e : Engine) (x : Exchange) : Engine :=
  e.applySuccessfulOperation x.1 x.2 (e.operationIsSilent x.1.code)

/-- At each operation of the run the queue enqueues if there is a mark, and is
left as it was otherwise. -/
def EnqueuesAt (e : Engine) : List Exchange → List Bool → Prop
  | [], [] => True
  | x :: xs, mark :: marks =>
    (∃ q q', e.transferQueue = some q ∧ (e.succeed x).transferQueue = some q' ∧
      q.Becomes q' mark) ∧ (e.succeed x).EnqueuesAt xs marks
  | _, _ => False

/-- The queue has seen that many steps of its sequence. -/
def Follows (e : Engine) (sequence : List GateMatcher) (progress : ℕ) : Prop :=
  ∃ q, e.transferQueue = some q ∧ q.shutterSequence = some sequence ∧ q.shutterProgress = progress

variable {e : Engine} {sequence : List GateMatcher} {progress : ℕ}

/-- One operation, which the queue follows as the library's follower does. -/
theorem Follows.operation (h : e.Follows sequence progress) (x : Exchange) :
    let next := follow (fitsStep e.manifest) sequence progress x
    (∃ q q', e.transferQueue = some q ∧ (e.succeed x).transferQueue = some q' ∧
      q.Becomes q' (sequence.length ≤ next)) ∧
      (e.succeed x).Follows sequence (if sequence.length ≤ next then 0 else next) := by
  obtain ⟨q, hq, hs, rfl⟩ := h
  intro next
  have hn : (e.succeed x).transferQueue = some (q.followShutter (e.gateMatch x.1 x.2)).2 := by
    simp only [succeed, applySuccessfulOperation, hq, Option.map_some]
  have hf : (q.followShutter (e.gateMatch x.1 x.2)).2 = if sequence.length ≤ next then
      (enqueueCount { q with shutterProgress := 0 } q.enqueuePerShutter).2
      else { q with shutterProgress := next } := by
    unfold followShutter
    rw [hs]
    exact apply_ite Prod.snd ..
  rw [hf] at hn
  by_cases hend : sequence.length ≤ next
  · rw [if_pos hend] at hn ⊢
    refine ⟨⟨q, _, hq, hn, by simpa [hend] using q.becomes_enqueueCount⟩, _, hn, ?_⟩
    unfold enqueueCount
    rw [enqueueLoop_eq]
    exact ⟨hs, rfl⟩
  · rw [if_neg hend] at hn ⊢
    refine ⟨⟨q, _, hq, hn, rfl, rfl, ?_, ?_⟩, _, hn, hs, rfl⟩ <;> simp [nextRelease, hend]

theorem Follows.enqueuesAt : ∀ (run : List Exchange) {e : Engine} {progress : ℕ},
    e.Follows sequence progress →
    e.EnqueuesAt run (completions (fitsStep e.manifest) sequence progress run)
  | [], _, _, _ => trivial
  | x :: xs, e, progress, h => by
    obtain ⟨hq, hn⟩ := h.operation x
    have hr := hn.enqueuesAt xs
    unfold completions
    by_cases hend : sequence.length ≤ follow (fitsStep e.manifest) sequence progress x
    · rw [if_pos hend] at hr ⊢
      exact ⟨by simpa [hend] using hq, hr⟩
    · rw [if_neg hend] at hr ⊢
      exact ⟨by simpa [hend] using hq, hr⟩

/-- With a handle for every operation, the marks can be told from the queue. -/
theorem EnqueuesAt.unique : ∀ {run : List Exchange} {e : Engine} {q : TransferQueue}
    {marks marks' : List Bool}, e.transferQueue = some q → q.enqueuePerShutter = 1 →
    q.nextIndex + run.length ≤ q.handles.length →
    e.EnqueuesAt run marks → e.EnqueuesAt run marks' → marks = marks'
  | [], _, _, [], [], _, _, _, _, _ => rfl
  | x :: xs, e, q, mark :: marks, mark' :: marks', hq, hone, hleft, h, h' => by
    obtain ⟨⟨q₁, q₂, h₁, h₂, hb⟩, hr⟩ := h
    obtain ⟨⟨q₁', q₂', h₁', h₂', hb'⟩, hr'⟩ := h'
    obtain rfl := Option.some.inj (hq.symm.trans h₁)
    obtain rfl := Option.some.inj (hq.symm.trans h₁')
    obtain rfl := Option.some.inj (h₂.symm.trans h₂')
    rw [List.length_cons] at hleft
    have hlen : ∀ release, (q.nextRelease release).length = release.toNat := by
      rintro (_ | _)
      · rfl
      · simp only [nextRelease, if_true, hone, List.length_take, List.length_drop, UInt32.toNat_one]
        exact Nat.min_eq_left (by omega)
    have hi := hb.nextIndex
    have hi' := hb'.nextIndex
    rw [hlen] at hi hi'
    obtain rfl : mark = mark' := by
      have hn : mark.toNat = mark'.toNat := by omega
      cases mark <;> cases mark' <;> first | rfl | cases hn
    have hm : mark.toNat ≤ 1 := Bool.toNat_le mark
    rw [EnqueuesAt.unique h₂ (hb.perShutter.trans hone) (by rw [hb.handles]; omega) hr hr']

end Engine

/-- An engine whose queue waits for the sequence, to enqueue one handle. -/
def awaitingShutter (manifest : CameraManifest) (handles : List UInt32)
    (sequence : List GateMatcher) : Engine :=
  { Engine.new manifest emptyCard with
    transferQueue := some (.shutterSeeded "usb" handles 1 sequence) }

/-- **Shutter releases.** Take a shutter action and the sequence it compiles
to. In every run of every queue that is configured with the sequence, one
shutter enqueue takes place at the end of each occurrence of the sequence, each
the earliest that begins after the one before, and at no other operation, if
and only if no match of the sequence that breaks off at an operation holds the
beginning of another match that goes on with it. -/
theorem shutter_enqueues_iff (manifest : CameraManifest) (steps : List Step)
    (sequence : List GateMatcher) (hcompiled : matcherSequenceForSteps steps = some sequence) :
    (∀ e : Engine, e.manifest = manifest → e.Follows sequence 0 → ∀ run,
      e.EnqueuesAt run (occurrences (Engine.fitsStep manifest) sequence [] run)) ↔
      ¬ Overlaps (Engine.fitsStep manifest) sequence := by
  have hne : sequence ≠ [] := by
    obtain ⟨-, hs⟩ := Option.filter_eq_some_iff.mp hcompiled
    simpa using hs
  rw [← completions_eq_iff hne]
  constructor
  · intro h run
    -- a queue with a handle for every operation of the run tells the marks apart
    have hf : (awaitingShutter manifest (run.map fun _ => 1) sequence).Follows sequence 0 :=
      ⟨_, rfl, rfl, rfl⟩
    exact (hf.enqueuesAt run).unique rfl rfl (by simp [shutterSeeded]) (h _ rfl hf run)
  · rintro h e rfl hf run
    rw [← h run]
    exact hf.enqueuesAt run

/-- A shutter action of three operations, of which two are the same. -/
def twiceThenOnce : List Step :=
  [{ sendOp := some "0x1004" }, { sendOp := some "0x1004" }, { sendOp := some "0x1007" }]

/-- The first operation of the action. -/
def storageIds : Exchange := (⟨1, Op.getStorageIds, 1, []⟩, none)

/-- The last operation of the action. -/
def objectHandles : Exchange := (⟨1, Op.getObjectHandles, 1, []⟩, none)

/-- The third operation of the run could be the first or the second step; the
queue takes it as the first. So nothing is enqueued where the sequence ends. -/
theorem overlap_not_enqueued :
    let manifest := { camera := ⟨"", "", "", []⟩ }
    let run := [storageIds, storageIds, storageIds, objectHandles]
    ∃ sequence, matcherSequenceForSteps twiceThenOnce = some sequence ∧
      (awaitingShutter manifest [1, 2] sequence).Follows sequence 0 ∧
      ((run.foldl Engine.succeed (awaitingShutter manifest [1, 2] sequence)).transferQueue.map
        fun q => (q.nextIndex, q.availableHandles)) = some (0, []) ∧
      occurrences (Engine.fitsStep manifest) sequence [] run = [false, false, false, true] := by
  refine ⟨_, rfl, ⟨_, rfl, rfl, rfl⟩, ?_, ?_⟩
  · decide +kernel
  · decide +kernel

/-- One operation, which cannot overlap with itself, is seen twice. -/
theorem shutter_enqueues_iff_single :
    let e := awaitingShutter { camera := ⟨"", "", "", []⟩ } [1, 2] [.sendOp Op.getObjectHandles []]
    e.EnqueuesAt [objectHandles, storageIds, objectHandles] [true, false, true] := by
  refine (shutter_enqueues_iff { camera := ⟨"", "", "", []⟩ } [{ sendOp := some "0x1007" }]
    [.sendOp Op.getObjectHandles []] (by decide +kernel)).mpr ?_ _ rfl ⟨_, rfl, rfl, rfl⟩
    [objectHandles, storageIds, objectHandles]
  rintro ⟨w, x, ys, m, -, -, -, hl, -⟩
  exact absurd hl (by simp)

end Ptpsim.Sim
