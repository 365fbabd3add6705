/-
# Sequence gates over whole runs

The history of a run is the list of the operations since the last gate reset
that count, the one that caused the reset included. A gate is satisfied only
if the history contains one of its sequences (`satisfied_gate_saw_sequence`);
silent refusals and computed properties served from a configured queue are
answered OK, but never reach the counters.

Conversely a gate is satisfied as soon as the history ends with one of its
sequences, as long as the counters can follow the operations
(`gate_satisfied_of_followed`, `overlap_missed`).
-/
import Ptpsim.Sim.GateProgress
import Ptpsim.Sim.Run

namespace Ptpsim.Sim

open Ptpsim.Core Config Store SequenceMatch Option Engine Machine

/-- The operation fits the matcher. -/
def fits (manifest : CameraManifest) (matcher : GateMatcher) (x : Exchange) : Bool :=
  gateMatchForManifest manifest matcher x.1 x.2

/-! ### A gated mode entry

Two cameras whose mode entry lists the storages and then the objects. -/

/-- A camera with these entry steps and operations. -/
def entryManifest (steps : List Config.Step) (operations : List (String × Operation)) :
    CameraManifest where
  camera := ⟨"", "", "", []⟩
  operations := operations
  connections := [("app", { entries := [⟨.ptp steps⟩] })]

/-- The entry asks for the storages once; the vendor operation is silently
refused. -/
def entryOnce : CameraManifest := entryManifest
  [{ sendOp := some "0x1004", startsGate := some "import" },
    { sendOp := some "0x1007", completesGate := some "import" }]
  [("0x9001", { dispositions := [{}] })]

/-- The entry asks for the storages twice. -/
def entryTwice : CameraManifest := entryManifest
  [{ sendOp := some "0x1004", startsGate := some "import" },
    { sendOp := some "0x1004" },
    { sendOp := some "0x1007", completesGate := some "import" }] []

/-- A session that sends these operations. -/
def session (codes : List UInt16) : List Call :=
  request Op.openSession [1] :: codes.map fun code => request code []

/-- The engine of the camera after the session. -/
def afterSession (manifest : CameraManifest) (codes : List UInt16) : Engine :=
  Machine.run Engine.step (Engine.new manifest emptyCard) (session codes)

/-! ### Only sequences satisfy gates -/

/-- What an engine is set up with, along a run. -/
def SetUp (sequences : List GateSequence) (manifest : CameraManifest) (e : Engine) : Prop :=
  e.manifest = manifest ∧ e.gateSequences = sequences

variable {e : Engine}

theorem SetUp.step {sequences : List GateSequence} {manifest : CameraManifest}
    (h : SetUp sequences manifest e) (call : Call) : SetUp sequences manifest (e.step call).2 := by
  obtain ⟨hm, hs, -⟩ := e.step_setup call
  exact ⟨hm.trans h.1, hs.trans h.2⟩

theorem SetUp.run {sequences : List GateSequence} {manifest : CameraManifest}
    (h : SetUp sequences manifest e) (calls : List Call) :
    SetUp sequences manifest (Machine.run Engine.step e calls) :=
  run_invariant Engine.step (fun _ call h => h.step call) e calls h

variable {sequences : List GateSequence} {manifest : CameraManifest}

theorem sound_step {hist : List Exchange} (hset : SetUp sequences manifest e)
    (h : Sound (fits manifest) sequences hist e.state.gates) (call : Call) :
    Sound (fits manifest) sequences (Engine.note advances e call hist)
      (e.step call).2.state.gates := by
  have hr : Sound (fits manifest) sequences (if e.resets call then [] else hist)
      (e.gatesAfterReset call) := by
    unfold gatesAfterReset
    split
    · exact .empty
    · exact h
  rw [step_gates, Engine.note]
  cases call.exchange.filter (e.facing call).advances with
  | none =>
    rw [toList_none, List.append_nil]
    exact hr
  | some x =>
    have hn := hr.advance x
    rw [← hset.1, ← hset.2] at hn ⊢
    exact hn

/-- A run from cleared gates keeps the counters sound. -/
theorem sound_run (hset : SetUp sequences manifest e) (hc : e.state.gates = {})
    (calls : List Call) : Sound (fits manifest) sequences
      (history advances e calls) (Machine.run Engine.step e calls).state.gates := by
  have hs : Sound (fits manifest) sequences [] e.state.gates := by
    rw [hc]
    exact .empty
  have hrun := run_invariant (recorded Engine.step (Engine.note advances))
    (P := fun eh => SetUp sequences manifest eh.1 ∧
      Sound (fits manifest) sequences eh.2 eh.1.state.gates)
    (fun eh call h => ⟨h.1.step call, sound_step h.1 h.2 call⟩) (e, []) calls ⟨hset, hs⟩
  rw [← run_recorded Engine.step (Engine.note advances) _ []]
  exact hrun.2

/-- **A satisfied gate has seen one of its sequences** since the last reset,
among the operations that reach the counters. -/
theorem satisfied_gate_saw_sequence (sequences : List GateSequence) (manifest : CameraManifest)
    (store : MediaStore) (calls : List Call) (name : String)
    (hsat : (Machine.run Engine.step (Engine.newWith sequences manifest store)
      calls).state.gates.gateSatisfied name = true) :
    ∃ s ∈ sequences, s.name = name ∧ Contains (fits manifest)
      (Engine.history Engine.advances (Engine.newWith sequences manifest store) calls) s.steps := by
  have hset : SetUp sequences manifest (newWith sequences manifest store) := ⟨rfl, rfl⟩
  have hs := sound_run hset (newWith_gates sequences manifest store) calls
  exact hs.satisfied name hsat

/-- The entry satisfies its gate, and has been seen. -/
theorem satisfied_gate_saw_sequence_entry :
    (afterSession entryOnce
      [Op.getStorageIds, 0x9001, Op.getObjectHandles]).state.gates.gateSatisfied
      "import" = true ∧
    ∃ s ∈ (Engine.new entryOnce emptyCard).gateSequences, s.name = "import" ∧
      Contains (fits entryOnce) (Engine.history Engine.advances (Engine.new entryOnce emptyCard)
        (session [Op.getStorageIds, 0x9001, Op.getObjectHandles])) s.steps := by
  have hsat : (afterSession entryOnce
      [Op.getStorageIds, 0x9001, Op.getObjectHandles]).state.gates.gateSatisfied "import" =
        true := by
    decide +kernel
  exact ⟨hsat, satisfied_gate_saw_sequence _ entryOnce emptyCard _ "import" hsat⟩

/-- The silently refused operation between the two steps is answered OK, so
among all operations answered OK the sequence is interrupted. -/
theorem silent_refusal_interrupts :
    (afterSession entryOnce
      [Op.getStorageIds, 0x9001, Op.getObjectHandles]).state.gates.gateSatisfied
      "import" = true ∧
    ∀ s ∈ (Engine.new entryOnce emptyCard).gateSequences, s.name = "import" →
      ¬ Contains (fits entryOnce) (Engine.history Engine.answersOk (Engine.new entryOnce emptyCard)
        (session [Op.getStorageIds, 0x9001, Op.getObjectHandles])) s.steps := by
  decide +kernel

/-! ### Sequences satisfy gates if they can be followed -/

/-- The counters of the gate can follow the operation of the call, also if it
resets the gates; and an operation that does not reach them is no event. -/
def Follows (name : String) (e : Engine) (call : Call) : Prop :=
  ∀ x ∈ call.exchange,
    Followable (e.gateMatch x.1 x.2) e.gateSequences e.state.gates name ∧
    (Engine.movesSession x.1.code = true →
      Followable (e.gateMatch x.1 x.2) e.gateSequences {} name) ∧
    (((e.facing call).faced x.1).servedFromQueue x.1 = true →
      e.state.gates.gateSatisfied name = true ∨
        eventsFrom (e.gateMatch x.1 x.2) e.state.gates name 0 e.gateSequences = 0)

instance (name : String) (e : Engine) (call : Call) : Decidable (Follows name e call) := by
  unfold Follows
  infer_instance

theorem movesSession_of_served {req : OperationRequest} (h : e.servedFromQueue req = true) :
    movesSession req.code = false := by
  have hc : req.code = Op.getDevicePropValue := by
    simp only [servedFromQueue, Bool.and_eq_true, decide_eq_true_eq] at h
    exact h.1.1.1
  rw [hc]
  rfl

theorem tracked_step {hist : List Exchange} {name : String} (hset : SetUp sequences manifest e)
    (h : Tracked (fits manifest) sequences name hist e.state.gates) (call : Call)
    (hfo : Follows name e call) :
    Tracked (fits manifest) sequences name (Engine.note accepts e call hist)
      (e.step call).2.state.gates := by
  obtain ⟨rfl, rfl⟩ := hset
  have hr : Tracked (fits e.manifest) e.gateSequences name
      (if e.resets call then [] else hist) (e.gatesAfterReset call) := by
    unfold gatesAfterReset
    split
    · exact .empty {}
    · exact h
  rw [step_gates, Engine.note]
  cases hx : call.exchange with
  | none => simpa using hr
  | some x =>
    obtain ⟨hf, hmo, hs⟩ := hfo x hx
    cases hac : (e.facing call).accepts x with
    | false =>
      have ha : (e.facing call).advances x = false := by
        simp [advances, hac]
      rw [filter_some_neg hac, filter_some_neg ha, toList_none, List.append_nil]
      exact hr
    | true =>
      rw [filter_some_pos hac, toList_some]
      cases ha : (e.facing call).advances x with
      | true =>
        rw [filter_some_pos ha]
        refine hr.advance ?_
        unfold gatesAfterReset
        split
        · rename_i hre
          exact hmo (movesSession_of_resets hx hre)
        · exact hf
      | false =>
        -- it was served from the queue, and changed nothing
        have hq : ((e.facing call).faced x.1).servedFromQueue x.1 = true := by
          simpa [advances, hac] using ha
        have hre : e.resets call = false := by
          by_contra hre
          have hm := movesSession_of_resets hx (by simpa using hre)
          rw [movesSession_of_served hq] at hm
          cases hm
        rw [filter_some_neg ha]
        rw [gatesAfterReset, hre] at hr ⊢
        exact hr.pass (hs hq)

/-- A run keeps a gate tracked as long as it can be followed. -/
theorem tracked_run {name : String} (hset : SetUp sequences manifest e) (calls : List Call)
    (hfo : Machine.Along Engine.step (Follows name) e calls) :
    Tracked (fits manifest) sequences name (history accepts e calls)
      (Machine.run Engine.step e calls).state.gates := by
  have hs : Tracked (fits manifest) sequences name [] e.state.gates := .empty _
  have hr := Machine.Along.recorded Engine.step (Engine.note accepts) e [] calls hfo
  have hrun := Machine.Along.run_invariant
    (recorded Engine.step (Engine.note accepts))
    (P := fun eh => SetUp sequences manifest eh.1 ∧
      Tracked (fits manifest) sequences name eh.2 eh.1.state.gates)
    (fun eh call hf h => ⟨h.1.step call, tracked_step h.1 h.2 call hf⟩)
    (e, []) calls hr ⟨hset, hs⟩
  rw [← run_recorded Engine.step (Engine.note accepts) _ []]
  exact hrun.2

/-- **A gate that can be followed is satisfied in time**: in every run whose
operations the counters of the gate can follow, as soon as the operations that
are answered OK and not silently refused end with one of its sequences. -/
theorem gate_satisfied_of_followed (sequences : List GateSequence) (manifest : CameraManifest)
    (store : MediaStore) (calls : List Call) (name : String)
    (hfollows : Machine.Along Engine.step (Follows name)
      (Engine.newWith sequences manifest store) calls)
    (s : GateSequence) (hs : s ∈ sequences) (hname : s.name = name)
    (hend : EndsWith (fits manifest)
      (Engine.history Engine.accepts (Engine.newWith sequences manifest store) calls) s.steps) :
    (Machine.run Engine.step (Engine.newWith sequences manifest store)
      calls).state.gates.gateSatisfied name = true := by
  have hset : SetUp sequences manifest (newWith sequences manifest store) := ⟨rfl, rfl⟩
  exact (tracked_run hset calls hfollows).satisfied hs hname hend

/-- The entry of `entryOnce` can be followed. -/
theorem gate_satisfied_of_followed_entry :
    Machine.Along Engine.step (Follows "import") (Engine.new entryOnce emptyCard)
      (session [Op.getStorageIds, Op.getStorageIds, Op.getObjectHandles]) ∧
    (afterSession entryOnce
      [Op.getStorageIds, Op.getStorageIds, Op.getObjectHandles]).state.gates.gateSatisfied
        "import" = true := by
  have hf : Machine.Along Engine.step (Follows "import") (Engine.new entryOnce emptyCard)
      (session [Op.getStorageIds, Op.getStorageIds, Op.getObjectHandles]) := by
    decide +kernel
  refine ⟨hf, ?_⟩
  exact gate_satisfied_of_followed _ entryOnce emptyCard _ "import" hf
    ⟨"import", [.sendOp 0x1004 [], .sendOp 0x1007 []], by simp⟩ (by decide +kernel) rfl
    (by decide +kernel)

/-- The entry of `entryTwice` after one request for the storages too many: the
last three operations are the sequence, and the gate is not satisfied. The
counter stood at the second step when the third request came, and fell back to
the first. -/
theorem overlap_missed :
    (∃ s ∈ (Engine.new entryTwice emptyCard).gateSequences, s.name = "import" ∧
      EndsWith (fits entryTwice) (Engine.history Engine.accepts (Engine.new entryTwice emptyCard)
        (session [Op.getStorageIds, Op.getStorageIds, Op.getStorageIds, Op.getObjectHandles]))
        s.steps) ∧
    (afterSession entryTwice [Op.getStorageIds, Op.getStorageIds, Op.getStorageIds,
      Op.getObjectHandles]).state.gates.gateSatisfied "import" = false := by
  decide +kernel

end Ptpsim.Sim
