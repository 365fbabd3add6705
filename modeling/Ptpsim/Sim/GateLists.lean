/-
# Running a list that completes a gate

The marks of a step list say where a gate starts and where it is complete. The
compiler turns the steps in between into a sequence of the gate if each of
them has a matcher (`mem_compileGateSequences`). Running the list then
satisfies the gate, as long as every operation from the starting step on
reaches the counters, none of them resets the gates, and nothing else starts
the gate's sequences in between (`marked_list_satisfies_gate`); otherwise it may
leave its gate open with every operation answered OK
(`marked_list_leaves_gate_open`).
-/
import Ptpsim.Executor.StepOperation

namespace Ptpsim.Sim

open Ptpsim.Core Config Store SequenceMatch Executor List Engine

/-! ### Marks -/

/-- The gate is under way since the first step of the list. -/
def Underway (name : String) (steps : List Config.Step) : Prop :=
  (∃ first rest, steps = first :: rest ∧ first.startsGate = some name ∧
    ∀ step ∈ rest, step.startsGate ≠ some name) ∧
  ∀ step ∈ steps, step.completesGate ≠ some name

theorem underway_singleton {name : String} {step : Config.Step}
    (hs : step.startsGate = some name) (hc : step.completesGate ≠ some name) :
    Underway name [step] :=
  ⟨⟨step, [], rfl, hs, by simp⟩, by simpa using hc⟩

theorem underway_concat {name : String} {steps : List Config.Step} {step : Config.Step} :
    Underway name (steps ++ [step]) ↔ step.completesGate ≠ some name ∧
      (step.startsGate = some name ∧ steps = [] ∨
        step.startsGate ≠ some name ∧ Underway name steps) := by
  constructor
  · rintro ⟨⟨first, rest, hst, hs, hr⟩, hc⟩
    refine ⟨hc step (by simp), ?_⟩
    rcases eq_nil_or_concat rest with rfl | ⟨init, last, rfl⟩
    · obtain ⟨rfl, hl⟩ := append_inj' (hst.trans (nil_append [first]).symm) rfl
      obtain rfl : step = first := singleton_inj.mp hl
      exact .inl ⟨hs, rfl⟩
    · rw [concat_eq_append] at hst hr
      obtain ⟨rfl, hl⟩ := append_inj' (hst.trans (cons_append ..).symm) rfl
      obtain rfl : step = last := singleton_inj.mp hl
      refine .inr ⟨hr step (by simp), ⟨first, init, rfl, hs, ?_⟩, ?_⟩
      · exact fun other ho => hr other (by simp [ho])
      · exact fun other ho => hc other (mem_append_left _ ho)
  · rintro ⟨hc, ⟨hs, rfl⟩ | ⟨hs, ⟨first, rest, rfl, hf, hr⟩, hot⟩⟩
    · exact underway_singleton hs hc
    · refine ⟨⟨first, rest ++ [step], rfl, hf, ?_⟩, ?_⟩
      · intro other ho
        rcases mem_append.mp ho with ho | ho
        · exact hr other ho
        · rwa [mem_singleton.mp ho]
      · intro other ho
        rcases mem_append.mp ho with ho | ho
        · exact hot other ho
        · rwa [mem_singleton.mp ho]

/-- A list with the marks of a gate: the marked steps end with the one that
completes it, and begin with the one that started it last. -/
structure MarkedList (name : String) where
  earlier : List Config.Step
  before : List Config.Step
  last : Config.Step
  after : List Config.Step
  completes : last.completesGate = some name
  starts : last.startsGate = some name ∧ before = [] ∨
    last.startsGate ≠ some name ∧ Underway name before

namespace MarkedList

variable {name : String} (l : MarkedList name)

/-- The steps from the one that starts the gate to the one that completes
it. -/
def marked : List Config.Step := l.before ++ [l.last]

def steps : List Config.Step := l.earlier ++ l.marked ++ l.after

/-- The marked steps between the first and the last. -/
def between : List Config.Step := l.before.tail

end MarkedList

/-! ### What is compiled -/

variable (active : ActiveGates) (step : Config.Step)

/-- The gates under way after one more step. -/
def ActiveGates.after : ActiveGates := fun gate =>
  if step.completesGate = some gate then none
  else active.step step.startsGate (matcherForStep step) gate

theorem completeGate_fst (step : Config.Step) (active : ActiveGates) (out : List GateSequence) :
    (completeGate step (active.step step.startsGate (matcherForStep step)) out).1 =
      active.after step := by
  unfold completeGate ActiveGates.after
  rcases step.completesGate with _ | completed
  · rfl
  · simp [eq_comm]

/-- The step completes the gate of the sequence, which has just come to an
end. -/
def Completes (s : GateSequence) : Prop :=
  step.completesGate = some s.name ∧
    active.step step.startsGate (matcherForStep step) s.name = some (some s.steps)

variable {s : GateSequence} {manifest : CameraManifest}

theorem mem_completeGate {step : Config.Step} {active : ActiveGates} {out : List GateSequence} :
    s ∈ (completeGate step (active.step step.startsGate (matcherForStep step)) out).2 ↔
      s ∈ out ∨ Completes active step s := by
  unfold completeGate Completes
  rcases step.completesGate with _ | gate
  · simp
  · dsimp only
    rcases ha : active.step step.startsGate (matcherForStep step) gate with _ | (_ | steps)
    · refine ⟨.inl, fun h => h.elim id ?_⟩
      rintro ⟨hg, hs⟩
      rw [← Option.some.inj hg, ha] at hs
      cases hs
    · refine ⟨.inl, fun h => h.elim id ?_⟩
      rintro ⟨hg, hs⟩
      rw [← Option.some.inj hg, ha] at hs
      cases hs
    · rw [mem_addSequence]
      refine or_congr_right ⟨?_, ?_⟩
      · rintro ⟨rfl, hs⟩
        exact ⟨rfl, by rw [ha, hs]⟩
      · rintro ⟨hg, hs⟩
        obtain rfl := Option.some.inj hg
        rw [ha] at hs
        exact ⟨rfl, (Option.some.inj (Option.some.inj hs)).symm⟩

/-- A step of the list completes the sequence. -/
def Adds (steps : List Config.Step) (s : GateSequence) : Prop :=
  ∃ before step after, steps = before ++ step :: after ∧
    Completes (before.foldl ActiveGates.after active) step s

theorem adds_cons {active : ActiveGates} {step : Config.Step} {rest : List Config.Step} :
    Adds active (step :: rest) s ↔ Completes active step s ∨ Adds (active.after step) rest s := by
  constructor
  · rintro ⟨before, last, after, hs, hc⟩
    rcases before with _ | ⟨first, before⟩
    · obtain ⟨rfl, -⟩ := List.cons.inj hs
      exact .inl hc
    · obtain ⟨rfl, hr⟩ := List.cons.inj hs
      exact .inr ⟨before, last, after, hr, hc⟩
  · rintro (hc | ⟨before, last, after, rfl, hc⟩)
    · exact ⟨[], step, rest, rfl, hc⟩
    · exact ⟨step :: before, last, after, rfl, hc⟩

/-- The list is one of the two in the retry block of the step. -/
def InBlock (list : List Config.Step) : Prop :=
  ∃ block, step.retry = some block ∧ (list = block.steps ∨ block.fallback = some list)

/-- The list stands in a retry block of the step, at any depth. -/
inductive HeldBy : Config.Step → List Config.Step → Prop
  | direct {step : Config.Step} {list : List Config.Step} (h : InBlock step list) : HeldBy step list
  | deeper {step inner : Config.Step} {list body : List Config.Step} (h : InBlock step list)
      (hmem : inner ∈ list) (hinner : HeldBy inner body) : HeldBy step body

/-- A list inside the step completes the sequence. -/
def AddsInside (s : GateSequence) : Prop :=
  ∃ inner, HeldBy step inner ∧ Adds (fun _ => none) inner s

theorem addsInside_iff {step : Config.Step} : AddsInside step s ↔
    ∃ list, InBlock step list ∧
      (Adds (fun _ => none) list s ∨ ∃ inner ∈ list, AddsInside inner s) := by
  constructor
  · rintro ⟨body, hh, ha⟩
    cases hh with
    | direct h => exact ⟨body, h, .inl ha⟩
    | deeper h hmem hi => exact ⟨_, h, .inr ⟨_, hmem, body, hi, ha⟩⟩
  · rintro ⟨list, h, ha | ⟨inner, hmem, body, hi, ha⟩⟩
    · exact ⟨list, .direct h, ha⟩
    · exact ⟨body, .deeper h hmem hi, ha⟩

section Collect

variable {s : GateSequence}

mutual
theorem mem_collectSteps (steps : List Config.Step) (active : ActiveGates)
    (out : List GateSequence) : s ∈ collectSteps steps active out ↔
      s ∈ out ∨ Adds active steps s ∨ ∃ step ∈ steps, AddsInside step s := by
  match steps with
  | [] => simp [collectSteps, Adds]
  | step :: rest =>
    rw [collectSteps]
    simp only
    rw [mem_collectSteps rest, completeGate_fst, mem_completeGate, mem_collectStep step, adds_cons]
    simp only [mem_cons, exists_eq_or_imp]
    tauto

theorem mem_collectStep (step : Config.Step) (out : List GateSequence) :
    s ∈ collectStep step out ↔ s ∈ out ∨ AddsInside step s := by
  rw [addsInside_iff]
  match step with
  | { retry := none, .. } => simp [collectStep, collectRetry, InBlock]
  | { retry := some { steps, fallback := none, .. }, .. } =>
    rw [collectStep, collectRetry, collectBlock, collectFallback, mem_collectSteps steps]
    simp [InBlock]
  | { retry := some { steps, fallback := some body, .. }, .. } =>
    rw [collectStep, collectRetry, collectBlock, collectFallback, mem_collectSteps body,
      mem_collectSteps steps]
    simp [InBlock, or_and_right, exists_or, or_assoc]
end

end Collect

theorem mem_collectGateSequences {steps : List Config.Step} {out : List GateSequence} :
    s ∈ collectGateSequences steps out ↔
      s ∈ out ∨ Adds (fun _ => none) steps s ∨ ∃ step ∈ steps, AddsInside step s :=
  mem_collectSteps steps _ out

/-- The step list of a mode entry; the steps of one that goes through another
connection are those of the exit. -/
def entrySteps (entry : ModeEntry) : Option (List Config.Step) :=
  match entry.execution with
  | .ptp steps => some steps
  | .reestablishConnection exitSteps => some exitSteps
  | .userInstruction _ => none

/-- The step lists of the manifest's entries and actions. -/
def gateLists (manifest : CameraManifest) : List (List Config.Step) :=
  manifest.connections.flatMap fun c =>
    c.2.entries.filterMap entrySteps ++ c.2.actions.filterMap fun a => a.2.initiator.map (·.steps)

/-- The lists that the gates of a manifest are compiled from: those of its
entries and actions, and the lists in their retry blocks. -/
def Gated (manifest : CameraManifest) (steps : List Config.Step) : Prop :=
  steps ∈ gateLists manifest ∨
    ∃ outer ∈ gateLists manifest, ∃ step ∈ outer, HeldBy step steps

theorem mem_compileGateSequences :
    s ∈ compileGateSequences manifest ↔
      ∃ steps, Gated manifest steps ∧ Adds (fun _ => none) steps s := by
  -- what one list adds, its retry blocks included
  let adds (steps : List Config.Step) : Prop :=
    Adds (fun _ => none) steps s ∨ ∃ step ∈ steps, AddsInside step s
  have hl : s ∈ compileGateSequences manifest ↔ ∃ steps ∈ gateLists manifest, adds steps := by
    unfold compileGateSequences gateLists
    refine (mem_foldl_iff (P := fun c : String × Connection =>
      ∃ steps ∈ c.2.entries.filterMap entrySteps ++
        c.2.actions.filterMap fun a => a.2.initiator.map (·.steps), adds steps) ?_ _ _).trans ?_
    · rintro out ⟨name, connection⟩
      refine (mem_foldl_iff (P := fun action : ActionVerb × Action =>
        ∃ steps ∈ action.2.initiator.map (·.steps), adds steps) ?_ _ _).trans ?_
      · rintro out ⟨verb, action⟩
        rcases hi : action.initiator with _ | initiator
        · simp [hi]
        · simp [hi, mem_collectGateSequences, adds]
      · rw [mem_foldl_iff (P := fun entry : ModeEntry => ∃ steps ∈ entrySteps entry, adds steps)]
        · simp only [mem_append, mem_filterMap, Option.mem_def]
          grind
        · intro out entry
          unfold collectEntry entrySteps
          rcases entry.execution with steps | exitSteps | instruction
          · simp [mem_collectGateSequences, adds]
          · simp [mem_collectGateSequences, adds]
          · simp
    · simp
      grind
  rw [hl]
  constructor
  · rintro ⟨steps, hst, ha | ⟨step, hs, inner, hh, ha⟩⟩
    · exact ⟨steps, .inl hst, ha⟩
    · exact ⟨inner, .inr ⟨steps, hst, step, hs, hh⟩, ha⟩
  · rintro ⟨inner, hin | ⟨outer, ho, step, hs, hh⟩, ha⟩
    · exact ⟨inner, hin, .inl ha⟩
    · exact ⟨outer, ho, .inr ⟨step, hs, inner, hh, ha⟩⟩

theorem mapM_concat {α β : Type} (f : α → Option β) (as : List α) (a : α) :
    (as ++ [a]).mapM f = do
      let bs ← as.mapM f
      let b ← f a
      return bs ++ [b] := by
  rw [mapM_append, mapM_cons, mapM_nil]
  rcases as.mapM f with _ | bs
  · rfl
  · rcases f a with _ | b
    · rfl
    · rfl

theorem mapM_singleton {α β : Type} (f : α → Option β) (a : α) :
    ([] ++ [a]).mapM f = (f a).map fun b => [b] := by
  rw [mapM_concat]
  rcases f a with _ | b
  · rfl
  · rfl

/-- The gates under way after the steps of a list, with what their steps are
compiled to. -/
theorem underway_iff {name : String} (steps : List Config.Step)
    (sequence : Option (List GateMatcher)) :
    (steps.foldl ActiveGates.after fun _ => none) name = some sequence ↔
      ∃ earlier segment, steps = earlier ++ segment ∧ Underway name segment ∧
        segment.mapM matcherForStep = sequence := by
  induction steps using List.reverseRecOn generalizing sequence with
  | nil =>
    refine iff_of_false (by simp) ?_
    rintro ⟨earlier, segment, hnil, ⟨⟨first, rest, rfl, -⟩, -⟩, -⟩
    simp at hnil
  | append_singleton steps step ih =>
    rw [foldl_append, foldl_cons, foldl_nil, ActiveGates.after]
    have hsp : (∃ earlier segment, steps ++ [step] = earlier ++ segment ∧
        Underway name segment ∧ segment.mapM matcherForStep = sequence) ↔
        ∃ earlier segment, steps = earlier ++ segment ∧ Underway name (segment ++ [step]) ∧
          (segment ++ [step]).mapM matcherForStep = sequence := by
      constructor
      · rintro ⟨earlier, segment, hst, hu, hmap⟩
        rcases eq_nil_or_concat segment with rfl | ⟨init, last, rfl⟩
        · obtain ⟨⟨first, rest, hnil, -⟩, -⟩ := hu
          cases hnil
        · rw [concat_eq_append] at hst hu hmap
          rw [← append_assoc] at hst
          obtain ⟨rfl, hl⟩ := append_inj' hst rfl
          obtain rfl : step = last := singleton_inj.mp hl
          exact ⟨earlier, init, rfl, hu, hmap⟩
      · rintro ⟨earlier, segment, rfl, hu, hmap⟩
        exact ⟨earlier, segment ++ [step], by rw [append_assoc], hu, hmap⟩
    rw [hsp]
    simp only [underway_concat]
    by_cases hc : step.completesGate = some name
    · simp [hc]
    · rw [if_neg hc, ActiveGates.step]
      by_cases hs : step.startsGate = some name
      · rw [if_pos hs, Option.some.injEq]
        constructor
        · rintro rfl
          exact ⟨steps, [], by simp, ⟨hc, .inl ⟨hs, rfl⟩⟩, mapM_singleton ..⟩
        · rintro ⟨earlier, segment, rfl, ⟨-, ⟨-, rfl⟩ | ⟨hnot, -⟩⟩, rfl⟩
          · exact (mapM_singleton ..).symm
          · exact absurd hs hnot
      · rw [if_neg hs, Option.map_eq_some_iff]
        constructor
        · rintro ⟨before, hb, rfl⟩
          obtain ⟨earlier, segment, rfl, hu, rfl⟩ := (ih before).mp hb
          exact ⟨earlier, segment, rfl, ⟨hc, .inr ⟨hs, hu⟩⟩, mapM_concat ..⟩
        · rintro ⟨earlier, segment, rfl, ⟨-, ⟨hnot, -⟩ | ⟨-, hu⟩⟩, rfl⟩
          · exact absurd hnot hs
          · exact ⟨_, (ih _).mpr ⟨earlier, segment, rfl, hu, rfl⟩, (mapM_concat ..).symm⟩

open MarkedList

/-- **Marks compile to a sequence** if each of the marked steps has a
matcher. -/
theorem adds_iff_marked {steps : List Config.Step} :
    Adds (fun _ => none) steps s ↔ ∃ l : MarkedList s.name, l.steps = steps ∧
      l.marked.mapM matcherForStep = some s.steps := by
  constructor
  · rintro ⟨before, last, after, rfl, hc, ha⟩
    rw [ActiveGates.step] at ha
    by_cases hs : last.startsGate = some s.name
    · rw [if_pos hs, Option.some.injEq] at ha
      refine ⟨⟨before, [], last, after, hc, .inl ⟨hs, rfl⟩⟩, ?_, ?_⟩
      · simp [MarkedList.steps, marked]
      · rw [marked, mapM_singleton, ← ha]
    · rw [if_neg hs, Option.map_eq_some_iff] at ha
      obtain ⟨sequence, hse, hl⟩ := ha
      obtain ⟨earlier, segment, rfl, hu, rfl⟩ := (underway_iff before sequence).mp hse
      refine ⟨⟨earlier, segment, last, after, hc, .inr ⟨hs, hu⟩⟩, ?_, ?_⟩
      · simp [MarkedList.steps, marked]
      · rw [marked, mapM_concat, ← hl]
  · rintro ⟨⟨earlier, before, last, after, hc, hs⟩, rfl, hmap⟩
    refine ⟨earlier ++ before, last, after, by simp [MarkedList.steps, marked], hc, ?_⟩
    rw [ActiveGates.step]
    rcases hs with ⟨hs, rfl⟩ | ⟨hs, hu⟩
    · rw [if_pos hs, ← hmap, marked, mapM_singleton]
    · rw [if_neg hs, (underway_iff (earlier ++ before) _).mpr ⟨earlier, before, rfl, hu, rfl⟩,
        Option.map_some, ← hmap, marked, mapM_concat]

/-! ### Running a list -/

/-- The operations of a step. One that has a matcher is issued as often as its
repeat count says; what a step of another kind sends is left open. -/
def Performs (manifest : CameraManifest) (step : Config.Step) (xs : List Exchange) : Prop :=
  (matcherForStep step).isSome = true → xs.length = max step.repeat.toNat 1 ∧
    ∀ x ∈ xs, ∃ o ∈ stepOperation manifest step, o.Is x

instance (manifest : CameraManifest) (step : Config.Step) (xs : List Exchange) :
    Decidable (Performs manifest step xs) := by
  unfold Performs
  infer_instance

/-- The operations of a marked list, step by step, up to the step that
completes the gate. -/
structure Performance (manifest : CameraManifest) {name : String} (l : MarkedList name) where
  earlier : List (List Exchange)
  marked : List (List Exchange)
  issues_earlier : List.Forall₂ (Performs manifest) l.earlier earlier
  issues_marked : List.Forall₂ (Performs manifest) l.marked marked

namespace Performance

variable {manifest : CameraManifest} {name : String} {l : MarkedList name}
  (p : Performance manifest l)

def operations : List Exchange := p.earlier.flatten ++ p.marked.flatten

/-- The operations before the last one of the starting step. -/
def lead : List Exchange := p.earlier.flatten ++ (p.marked.headD []).dropLast

/-- The last operation of the starting step. -/
def start : Option Exchange := (p.marked.headD []).getLast?

/-- The operations of the marked steps after the starting one. -/
def follow : List Exchange := p.marked.tail.flatten

end Performance

def send (x : Exchange) : Call := .operation x.1 x.2

/-- The operation of the call reaches the counters, and it starts sequence `i`
and none of the gate's sequences after it. -/
def Begins (i : ℕ) (s : GateSequence) (e : Engine) (call : Call) : Prop :=
  ∀ x ∈ call.exchange, (e.facing call).advances x = true ∧
    continues (e.gateMatch x.1 x.2) (e.gatesAfterReset call) i s = false ∧
    StartsNoneFrom (e.gateMatch x.1 x.2) e.gateSequences s.name (i + 1)

/-- The call does not reset the gates, and unless the gate is satisfied
already, its operation reaches the counters and starts no other sequence of
the gate. -/
def GoesOn (i : ℕ) (s : GateSequence) (e : Engine) (call : Call) : Prop :=
  e.resets call = false ∧ (e.state.gates.gateSatisfied s.name = true ∨
    ∀ x ∈ call.exchange, (e.facing call).advances x = true ∧
      StartsNoOther (e.gateMatch x.1 x.2) e.state.gates e.gateSequences s.name i)

instance (i : ℕ) (s : GateSequence) (e : Engine) (call : Call) : Decidable (Begins i s e call) := by
  unfold Begins
  infer_instance

instance (i : ℕ) (s : GateSequence) (e : Engine) (call : Call) : Decidable (GoesOn i s e call) := by
  unfold GoesOn
  infer_instance

/-- Nothing keeps the counter of the sequence from following the operations
of the marked steps, from the last one of the starting step on. -/
def Undisturbed {manifest : CameraManifest} {name : String} {l : MarkedList name} (i : ℕ)
    (s : GateSequence) (e : Engine) (p : Performance manifest l) : Prop :=
  (∀ x ∈ p.start, Begins i s (Machine.run Engine.step e (p.lead.map send)) (send x)) ∧
    Machine.Along Engine.step (GoesOn i s)
      (Machine.run Engine.step e ((p.lead ++ p.start.toList).map send)) (p.follow.map send)

instance {manifest : CameraManifest} {name : String} {l : MarkedList name} (i : ℕ)
    (s : GateSequence) (e : Engine) (p : Performance manifest l) :
    Decidable (Undisturbed i s e p) := by
  unfold Undisturbed
  infer_instance

section Run

variable {manifest : CameraManifest} {sequences : List GateSequence} {i : ℕ} {s : GateSequence}
  {e : Engine}

/-- Where the counter of the sequence stands: the gate is satisfied, or the
first `k` steps have been seen. -/
def At (i : ℕ) (s : GateSequence) (k : ℕ) (e : Engine) : Prop :=
  e.state.gates.gateSatisfied s.name = true ∨
    0 < k ∧ k < s.steps.length ∧ e.state.gates.gateProgress s.name i = k

theorem step_gates_send {x : Exchange} (ha : (e.facing (send x)).advances x = true) :
    (e.step (send x)).2.state.gates = advanceSequenceGates (e.gateMatch x.1 x.2) e.gateSequences
      (e.gatesAfterReset (send x)) := by
  have hf : (send x).exchange.filter (e.facing (send x)).advances = some x :=
    Option.filter_some_pos ha
  rw [step_gates, hf]

theorem begins_step (hset : SetUp sequences manifest e) (hi : sequences[i]? = some s)
    {m : GateMatcher} (hm : s.steps[0]? = some m) {x : Exchange} (hf : fits manifest m x = true)
    (hb : Begins i s e (send x)) : At i s 1 (e.step (send x)).2 := by
  obtain ⟨rfl, rfl⟩ := hset
  obtain ⟨ha, hc, hl⟩ := hb x rfl
  have hst : starts (e.gateMatch x.1 x.2) s = true := starts_iff.mpr ⟨m, hm, hf⟩
  unfold At
  rw [step_gates_send ha]
  rcases advance_starts hi hst hc hl with hsat | ⟨hs, hone⟩
  · exact .inl hsat
  · exact .inr ⟨Nat.one_pos, hs, hone⟩

theorem satisfied_step {name : String} {call : Call} (hr : e.resets call = false)
    (h : e.state.gates.gateSatisfied name = true) :
    (e.step call).2.state.gates.gateSatisfied name = true := by
  have hk : e.gatesAfterReset call = e.state.gates := by
    rw [gatesAfterReset, hr]
    rfl
  rw [step_gates, hk]
  cases call.exchange.filter (e.facing call).advances with
  | none => exact h
  | some x => exact advanceFrom_mono _ h

theorem goesOn_step (hset : SetUp sequences manifest e) (hi : sequences[i]? = some s) {k : ℕ}
    (hat : At i s k e) {m : GateMatcher} (hm : s.steps[k]? = some m) {x : Exchange}
    (hf : fits manifest m x = true) (hg : GoesOn i s e (send x)) :
    At i s (k + 1) (e.step (send x)).2 := by
  obtain ⟨rfl, rfl⟩ := hset
  obtain ⟨hr, hg⟩ := hg
  rcases hat with hsat | ⟨hpos, hlt, hp⟩
  · exact .inl (satisfied_step hr hsat)
  rcases hg with hsat | hg
  · exact .inl (satisfied_step hr hsat)
  obtain ⟨ha, ho⟩ := hg x rfl
  have hk : e.gatesAfterReset (send x) = e.state.gates := by
    rw [gatesAfterReset, hr]
    rfl
  have hc : continues (e.gateMatch x.1 x.2) e.state.gates i s = true := by
    rw [continues_iff, hp]
    exact ⟨hpos, m, hm, hf⟩
  unfold At
  rw [step_gates_send ha, hk]
  rcases advance_continues hi hc ho with hsat | ⟨hs, hn⟩
  · exact .inl hsat
  · rw [hp] at hs hn
    exact .inr ⟨Nat.succ_pos k, hs, hn⟩

theorem satisfied_run {name : String} (calls : List Call) {C : Engine → Call → Prop}
    (hC : ∀ e call, C e call → e.resets call = false) (ha : Machine.Along Engine.step C e calls)
    (h : e.state.gates.gateSatisfied name = true) :
    (Machine.run Engine.step e calls).state.gates.gateSatisfied name = true :=
  Machine.Along.run_invariant Engine.step (fun e call hc h => satisfied_step (hC e call hc) h)
    e calls ha h

/-- **The counter follows the rest of the sequence**, and then stays at the
end. -/
theorem follows_run (hi : sequences[i]? = some s) (extra : List Exchange) (ys : List Exchange)
    {k : ℕ} (hset : SetUp sequences manifest e) (hat : At i s k e)
    (hys : Matches (fits manifest) (s.steps.drop k) ys)
    (hg : Machine.Along Engine.step (GoesOn i s) e ((ys ++ extra).map send)) :
    (Machine.run Engine.step e ((ys ++ extra).map send)).state.gates.gateSatisfied s.name =
      true := by
  induction ys generalizing e k with
  | nil =>
    have hnil : s.steps.drop k = [] := forall₂_nil_right_iff.mp hys
    have hlen : s.steps.length ≤ k := drop_eq_nil_iff.mp hnil
    rcases hat with hsat | ⟨-, hlt, -⟩
    · exact satisfied_run _ (fun e call h => h.1) hg hsat
    · omega
  | cons y ys ih =>
    obtain ⟨m, ms, hfi, hr, hd⟩ := forall₂_cons_right_iff.mp hys
    have hm : s.steps[k]? = some m := by
      rw [← List.head?_drop, hd]
      rfl
    have hn : s.steps.drop (k + 1) = ms := by
      rw [← tail_drop, hd]
      rfl
    obtain ⟨hf, hl⟩ := hg
    refine ih (hset.step (send y)) (goesOn_step hset hi hat hm hfi hf) ?_ hl
    rw [hn]
    exact hr

end Run

theorem performs_fits {step : Config.Step} {m : GateMatcher} {xs : List Exchange}
    (hm : matcherForStep step = some m) (h : Performs manifest step xs) :
    xs.length = max step.repeat.toNat 1 ∧ ∀ x ∈ xs, fits manifest m x = true := by
  obtain ⟨hlen, hxs⟩ := h (by simp [hm])
  refine ⟨hlen, fun x hx => ?_⟩
  obtain ⟨o, ho, his⟩ := hxs x hx
  exact stepOperation_fits hm ho his

/-- The operations of steps that are not repeated, the last one apart, fit
their matchers one by one, with what the last step repeats left over. -/
theorem issued_matches (steps : List Config.Step)
    {xss : List (List Exchange)} (hi : List.Forall₂ (Performs manifest) steps xss)
    {ms : List GateMatcher} (hms : steps.mapM matcherForStep = some ms)
    (hr : ∀ step ∈ steps.dropLast, step.repeat ≤ 1) :
    ∃ ys extra, xss.flatten = ys ++ extra ∧ Matches (fits manifest) ms ys := by
  induction hi generalizing ms with
  | nil =>
    cases hms
    exact ⟨[], [], rfl, .nil⟩
  | @cons step xs steps xss hs hst ih =>
    rw [mapM_cons] at hms
    obtain ⟨m, hm, hms⟩ := Option.bind_eq_some_iff.mp hms
    obtain ⟨ms', hms', hc⟩ := Option.bind_eq_some_iff.mp hms
    obtain rfl := Option.some.inj hc
    obtain ⟨hlen, hf⟩ := performs_fits hm hs
    obtain ⟨y, rest, rfl⟩ : ∃ y rest, xs = y :: rest := by
      rcases xs with _ | ⟨y, rest⟩
      · rw [length_nil] at hlen
        omega
      · exact ⟨y, rest, rfl⟩
    have hy : fits manifest m y = true := hf y mem_cons_self
    rcases steps with _ | ⟨next, steps⟩
    · cases hms'
      cases hst
      exact ⟨[y], rest, by simp, .cons hy .nil⟩
    · -- not the last step, so it has sent one operation
      have ho : step.repeat ≤ 1 := hr step (by simp)
      have hre : rest = [] := by
        have hnat : step.repeat.toNat ≤ 1 := UInt32.le_iff_toNat_le.mp ho
        rw [length_cons] at hlen
        exact length_eq_zero_iff.mp (by omega)
      obtain ⟨ys, extra, hfl, hma⟩ := ih hms' fun other hot =>
        hr other (by simpa using .inr hot)
      refine ⟨y :: ys, extra, ?_, .cons hy hma⟩
      rw [flatten_cons, hfl, hre]
      rfl

/-- **Running a marked list satisfies its gate.** -/
theorem marked_list_satisfies_gate {manifest : CameraManifest} {name : String}
    (l : MarkedList name) (hgated : Gated manifest l.steps) {matchers : List GateMatcher}
    (hcompiled : l.marked.mapM matcherForStep = some matchers)
    (hrepeat : ∀ step ∈ l.between, step.repeat ≤ 1) (store : MediaStore) :
    ∃ i s, (Engine.new manifest store).gateSequences[i]? = some s ∧ s.name = name ∧
      s.steps = matchers ∧ ∀ (calls : List Call) (p : Performance manifest l),
        Undisturbed i s (Machine.run Engine.step (Engine.new manifest store) calls) p →
        (Machine.run Engine.step (Engine.new manifest store)
          (calls ++ p.operations.map send)).state.gates.gateSatisfied name = true := by
  -- the marked steps and their matchers, one by one
  obtain ⟨first, rest, hma⟩ : ∃ first rest, l.marked = first :: rest := by
    rcases hc : l.marked with _ | ⟨first, rest⟩
    · simp [marked] at hc
    · exact ⟨first, rest, rfl⟩
  have hbet : rest.dropLast = l.between := by
    rw [between]
    rw [marked] at hma
    rcases hb : l.before with _ | ⟨_, before⟩
    · rw [hb] at hma
      obtain ⟨-, rfl⟩ := List.cons.inj hma
      rfl
    · rw [hb] at hma
      obtain ⟨-, rfl⟩ := List.cons.inj hma
      exact dropLast_concat
  rw [hma, mapM_cons] at hcompiled
  obtain ⟨m, hm, hcompiled⟩ := Option.bind_eq_some_iff.mp hcompiled
  obtain ⟨ms, hms, hc⟩ := Option.bind_eq_some_iff.mp hcompiled
  obtain rfl := Option.some.inj hc
  have hmem : (⟨name, m :: ms, by simp⟩ : GateSequence) ∈
      (Engine.new manifest store).gateSequences := by
    refine mem_append_left _ (mem_compileGateSequences.mpr
      ⟨l.steps, hgated, adds_iff_marked.mpr ⟨l, rfl, ?_⟩⟩)
    rw [hma, mapM_cons, hm, hms]
    rfl
  obtain ⟨i, hi⟩ := mem_iff_getElem?.mp hmem
  refine ⟨i, _, hi, rfl, rfl, fun calls p hu => ?_⟩
  have hset : SetUp (Engine.new manifest store).gateSequences manifest
    (Engine.new manifest store) :=
    ⟨rfl, rfl⟩
  -- the operations of the starting step, and those that follow
  have his := p.issues_marked
  rw [hma] at his
  obtain ⟨xs, xss, hfi, hr, hxss⟩ := forall₂_cons_left_iff.mp his
  obtain ⟨hlen, hfit⟩ := performs_fits hm hfi
  obtain ⟨pre, x, rfl⟩ : ∃ pre x, xs = pre ++ [x] := by
    rcases eq_nil_or_concat xs with rfl | ⟨pre, x, rfl⟩
    · rw [length_nil] at hlen
      omega
    · exact ⟨pre, x, concat_eq_append ..⟩
  have hs : p.start = some x := by simp [Performance.start, hxss]
  have hl : p.lead = p.earlier.flatten ++ pre := by simp [Performance.lead, hxss]
  have hf : p.follow = xss.flatten := by simp [Performance.follow, hxss]
  have ho : p.operations = (p.lead ++ [x]) ++ p.follow := by
    simp [Performance.operations, hl, hf, hxss]
  obtain ⟨ys, extra, hfl, hmat⟩ := issued_matches rest hr hms
    (fun step hst => hrepeat step (hbet ▸ hst))
  obtain ⟨hbe, hg⟩ := hu
  rw [hs] at hbe hg
  rw [Option.toList_some, hf, hfl] at hg
  rw [Machine.run_append, ho, hf, hfl, map_append, Machine.run_append]
  have hset' : SetUp (Engine.new manifest store).gateSequences manifest
      (Machine.run Engine.step (Machine.run Engine.step (Engine.new manifest store) calls)
        (p.lead.map send)) := (hset.run calls).run _
  have hat := begins_step hset' hi (m := m) rfl (hfit x (by simp)) (hbe x rfl)
  have hrun : ∀ e : Engine, Machine.run Engine.step e ((p.lead ++ [x]).map send) =
      ((Machine.run Engine.step e (p.lead.map send)).step (send x)).2 := by
    intro e
    rw [map_append, Machine.run_append]
    rfl
  rw [hrun] at hg ⊢
  exact follows_run hi extra ys (hset'.step (send x)) hat hmat hg

/-- A request without a data phase. -/
def bare (code : UInt16) (params : List UInt32) : Exchange := (⟨1, code, 1, params⟩, none)

/-- A step that sends an operation. -/
def sends (op : String) : Config.Step := { sendOp := some op }

/-- An entry that is marked from an operation to the request for the
objects. -/
def importList (earlier : List Config.Step) (first : String) (between : List Config.Step)
    (h : ∀ step ∈ between, step.startsGate = none ∧ step.completesGate = none) :
    MarkedList "import" where
  earlier := earlier
  before := { sends first with startsGate := some "import" } :: between
  last := { sends "0x1007" with completesGate := some "import" }
  after := []
  completes := rfl
  starts := by
    refine .inr ⟨by simp [sends], ⟨_, _, rfl, rfl, ?_⟩, ?_⟩
    · intro step hstep
      simp [(h step hstep).1]
    · intro step hstep
      rcases mem_cons.mp hstep with rfl | hstep
      · simp [sends]
      · simp [(h step hstep).2]

/-- The entry of `entryOnce`: it asks for the storages and then for the
objects. -/
def entryOnceList : MarkedList "import" := importList [] "0x1004" [] (by simp)

def entryOncePerformance : Performance entryOnce entryOnceList where
  earlier := []
  marked := [[bare Op.getStorageIds []], [bare Op.getObjectHandles []]]
  issues_earlier := .nil
  issues_marked := by decide +kernel

theorem marked_list_satisfies_gate_entry :
    (Machine.run Engine.step (Engine.new entryOnce emptyCard) ([request Op.openSession [1]] ++
      entryOncePerformance.operations.map send)).state.gates.gateSatisfied "import" = true := by
  have hg : Gated entryOnce entryOnceList.steps := .inl (by simp [gateLists, entryOnce,
    entryManifest, entrySteps, entryOnceList, importList, sends, MarkedList.steps, marked])
  have hc : entryOnceList.marked.mapM matcherForStep =
      some [.sendOp 0x1004 [], .sendOp 0x1007 []] := by decide +kernel
  obtain ⟨i, s, hi, hn, hs, hrun⟩ := marked_list_satisfies_gate entryOnceList hg hc
    (by simp [between, entryOnceList, importList]) emptyCard
  have hone : (Engine.new entryOnce emptyCard).gateSequences =
      [⟨"import", [.sendOp 0x1004 [], .sendOp 0x1007 []], by simp⟩] := by decide +kernel
  rw [hone] at hi
  obtain rfl : i = 0 := by
    have hlt := (List.getElem?_eq_some_iff.mp hi).1
    simpa using hlt
  obtain rfl := Option.some.inj hi
  exact hrun [request Op.openSession [1]] entryOncePerformance (by decide +kernel)

/-! ### Lists that leave their gate open -/

theorem advanceFrom_idle {f : GateMatcher → Bool} {sequences : List GateSequence}
    (h : ∀ s ∈ sequences, starts f s = false) (k : ℕ) : advanceFrom f k sequences {} = {} := by
  induction sequences generalizing k with
  | nil => rfl
  | cons s sequences ih =>
    have hh : advanceSequence f k s {} = {} := by
      have hs := h s mem_cons_self
      unfold starts at hs
      simp [advanceSequence, hs]
    rw [advanceFrom, hh]
    exact ih (fun t ht => h t (mem_cons_of_mem _ ht)) (k + 1)

/-- The engine of a camera with a session. -/
def inSession (manifest : CameraManifest) : Engine :=
  Machine.run Engine.step (Engine.new manifest emptyCard) [request Op.openSession [1]]

/-- The list is run from cleared gates with every operation answered OK, and
its gate is not satisfied. -/
structure LeavesOpen (manifest : CameraManifest) {name : String} (l : MarkedList name)
    (p : Performance manifest l) : Prop where
  gated : Gated manifest l.steps
  compiled : (l.marked.mapM matcherForStep).isSome = true
  cleared : (inSession manifest).state.gates = {}
  answered : Machine.Along Engine.step (fun e call => ∀ x ∈ call.exchange, e.answersOk x = true)
    (inSession manifest) (p.operations.map send)
  unsatisfied : (Machine.run Engine.step (inSession manifest)
    (p.operations.map send)).state.gates.gateSatisfied name = false

theorem inSession_cleared
    (h : ∀ s ∈ (Engine.new manifest emptyCard).gateSequences,
      starts ((Engine.new manifest emptyCard).gateMatch ⟨1, Op.openSession, 1, [1]⟩ none) s =
        false) :
    (inSession manifest).state.gates = {} := by
  have hs : (Engine.new manifest emptyCard).gatesAfterReset (request Op.openSession [1]) = {} := by
    unfold gatesAfterReset
    split
    · rfl
    · exact newWith_gates _ manifest emptyCard
  show ((Engine.new manifest emptyCard).step (request Op.openSession [1])).2.state.gates = {}
  rw [step_gates, hs]
  split
  · rename_i x hx
    obtain rfl : (⟨1, Op.openSession, 1, [1]⟩, none) = x :=
      Option.some.inj (Option.eq_some_of_filter_eq_some hx)
    exact advanceFrom_idle h 0
  · rfl

/-- The entry closes the session on its way and opens a new one. -/
def resessionList : MarkedList "import" := importList [] "0x1004"
  [sends "0x1003", { sends "0x1002" with params := [.literal 1] }] (by simp [sends])

/-- The entry starts with an operation that the camera silently refuses. -/
def refusedList : MarkedList "import" := importList [] "0x9001" [] (by simp)

/-- The entry asks for the device info twice. -/
def repeatedList : MarkedList "import" := importList [] "0x1004"
  [{ sends "0x1001" with «repeat» := 2 }] (by simp [sends])

/-- The entry asks for the storages three times, and marks the second. -/
def overlappingList : MarkedList "import" := importList [sends "0x1004"] "0x1004" [sends "0x1004"]
  (by simp [sends])

/-- A camera with the list as its entry; the vendor operation is silently
refused. -/
def listManifest (l : MarkedList "import") : CameraManifest :=
  entryManifest l.steps [("0x9001", { dispositions := [{}] })]

def resession : Performance (listManifest resessionList) resessionList where
  earlier := []
  marked := [[bare Op.getStorageIds []], [bare Op.closeSession []], [bare Op.openSession [1]],
    [bare Op.getObjectHandles []]]
  issues_earlier := .nil
  issues_marked := by decide +kernel

def refused : Performance (listManifest refusedList) refusedList where
  earlier := []
  marked := [[bare 0x9001 []], [bare Op.getObjectHandles []]]
  issues_earlier := .nil
  issues_marked := by decide +kernel

def repeated : Performance (listManifest repeatedList) repeatedList where
  earlier := []
  marked := [[bare Op.getStorageIds []], [bare Op.getDeviceInfo [], bare Op.getDeviceInfo []],
    [bare Op.getObjectHandles []]]
  issues_earlier := .nil
  issues_marked := by decide +kernel

def overlapping : Performance (listManifest overlappingList) overlappingList where
  earlier := [[bare Op.getStorageIds []]]
  marked := [[bare Op.getStorageIds []], [bare Op.getStorageIds []], [bare Op.getObjectHandles []]]
  issues_earlier := by decide +kernel
  issues_marked := by decide +kernel

theorem gated_listManifest (l : MarkedList "import") : Gated (listManifest l) l.steps :=
  .inl (by simp [gateLists, listManifest, entryManifest, entrySteps])

/-- **Lists that leave their gate open.** The first two do by design: a new
session starts with cleared gates, and a silently refused operation does not
count. -/
theorem marked_list_leaves_gate_open :
    LeavesOpen (listManifest resessionList) resessionList resession ∧
    LeavesOpen (listManifest refusedList) refusedList refused ∧
    LeavesOpen (listManifest repeatedList) repeatedList repeated ∧
    LeavesOpen (listManifest overlappingList) overlappingList overlapping := by
  refine ⟨⟨gated_listManifest _, ?_, inSession_cleared ?_, ?_, ?_⟩,
    ⟨gated_listManifest _, ?_, inSession_cleared ?_, ?_, ?_⟩,
    ⟨gated_listManifest _, ?_, inSession_cleared ?_, ?_, ?_⟩,
    ⟨gated_listManifest _, ?_, inSession_cleared ?_, ?_, ?_⟩⟩
  all_goals decide +kernel

end Ptpsim.Sim
