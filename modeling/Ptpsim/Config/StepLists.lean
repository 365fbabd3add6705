/-
# Step lists that the loader accepts

The loader goes through the PTP step lists of a manifest once and refuses
those that an executor could not run. Most of its rules are about single
steps. One is about lists: a loop over a collection is accepted only where the
collection has been captured for certain, so the check carries along the names
of the collections that are bound wherever the step is reached
(`requireStepsFrom`). What a loop or an await binds inside is not counted on
afterwards; of the two lists of a condition, or of a retry and its fallback,
only what both bind.
-/
import Ptpsim.Config.OpenChannels
import Ptpsim.Lib.Fallible
import Mathlib.Data.Finset.Basic

namespace Ptpsim.Config

open Fallible

/-- A step has exactly one verb. -/
def Step.isWellFormed (s : Step) : Bool :=
  [s.setProp.isSome, s.getProp.isSome, s.readEcho.isSome, s.sendOp.isSome, s.openChannel.isSome,
    s.reopenSession.isSome, s.closeSession.isSome, s.awaitUntil.isSome, s.retry.isSome,
    s.loop.isSome, s.ifStep.isSome].countP id == 1

def AwaitSource.hasPolledValue : AwaitSource → Bool
  | poll _ => true
  | event _ thenPoll => thenPoll.isSome

/-! ### Captures -/

variable (step : Step) (stepPath : String)

def requireAwaitCaptures : Except ManifestError Unit :=
  match step.awaitUntil with
  | none => .ok ()
  | some { source, .. } =>
    if step.captures.isEmpty then .ok ()
    else if !source.hasPolledValue then
      .error (.contract (stepPath ++ ".captures require awaitUntil poll or event thenPoll"))
    else if step.captures.any fun capture => capture.source ≠ .propValue then
      .error (.contract (stepPath ++ ".captures on awaitUntil support only propValue"))
    else .ok ()

/-- The response codes of a fallback, with those that were there before. -/
def requireFallbackCodes (stepPath : String) :
    List String → List UInt16 → Except ManifestError Unit
  | [], _ => .ok ()
  | code :: rest, seen =>
    match parseHexCode code with
    | none => .error (.contract (stepPath ++ ".captures fallback has invalid response code '" ++
        code ++ "'"))
    | some value =>
      if value = 0x2001 then
        .error (.contract (stepPath ++ ".captures fallback cannot select the OK response"))
      else if seen.contains value then
        .error (.contract (stepPath ++ ".captures fallback repeats response code '" ++ code ++ "'"))
      else requireFallbackCodes stepPath rest (value :: seen)

def requireCaptureFallback (capture : Capture) : Except ManifestError Unit :=
  match capture.fallback with
  | none => .ok ()
  | some fallback =>
    if step.getProp.isNone ∨ capture.source ≠ .propValue then
      .error (.contract (stepPath ++ ".captures fallback requires getProp propValue"))
    else if step.tolerant then
      .error (.contract (stepPath ++ ".captures fallback must not be tolerant"))
    else if fallback.whenResponseCodes.isEmpty then
      .error (.contract (stepPath ++ ".captures fallback whenResponseCodes must not be empty"))
    else requireFallbackCodes stepPath fallback.whenResponseCodes []

def requireTransactionIdCapture (ownership : Option SessionOwnership) (step : Step)
    (stepPath : String) (capture : Capture) : Except ManifestError Unit :=
  if capture.source ≠ .transactionId then .ok ()
  else if ownership = some .daemonAttached then
    .error (.contract (stepPath ++
      " transactionId capture is invalid when session.ownership is daemonAttached"))
  else if step.sendOp.isNone then
    .error (.contract (stepPath ++ " transactionId capture requires sendOp"))
  else if step.repeat ≠ 1 then
    .error (.contract (stepPath ++ " transactionId capture requires an unrepeated sendOp"))
  else if step.tolerant then
    .error (.contract (stepPath ++ " transactionId capture must not be tolerant"))
  else if (trim capture.bind.toList).isEmpty then
    .error (.contract (stepPath ++ " transactionId capture bind must not be empty"))
  else .ok ()

/-- A capture of a collection, with the names that the step has bound
before. -/
def requireArrayCapture (binds : Finset String) (capture : Capture) :
    Except ManifestError (Finset String) :=
  if capture.source ≠ .ptpU32Array then .ok binds
  else if step.getProp.isNone ∧ step.sendOp.isNone then
    .error (.contract (stepPath ++ " ptpU32Array capture requires getProp or sendOp"))
  else if step.tolerant then
    .error (.contract (stepPath ++ " ptpU32Array capture must not be tolerant"))
  else if (trim capture.bind.toList).isEmpty then
    .error (.contract (stepPath ++ " ptpU32Array capture bind must not be empty"))
  else if capture.bind ∈ binds then
    .error (.contract (stepPath ++ " repeats ptpU32Array capture bind '" ++ capture.bind ++ "'"))
  else .ok (insert capture.bind binds)

def requireCapturesFrom (ownership : Option SessionOwnership) (step : Step) (stepPath : String) :
    List Capture → Finset String → Except ManifestError (Finset String)
  | [], binds => .ok binds
  | capture :: rest, binds => do
    requireCaptureFallback step stepPath capture
    requireTransactionIdCapture ownership step stepPath capture
    let binds ← requireArrayCapture step stepPath binds capture
    requireCapturesFrom ownership step stepPath rest binds

/-! ### Loops inside a list -/

mutual
def containsPtpLoop : List Step → Bool
  | [] => false
  | step :: rest => stepContainsLoop step || containsPtpLoop rest

def stepContainsLoop : Step → Bool
  | { retry, awaitUntil, loop, ifStep, .. } =>
    loop.isSome || retryContainsLoop retry || awaitContainsLoop awaitUntil ||
      ifContainsLoop ifStep

def retryContainsLoop : Option (StepRetry Step) → Bool
  | none => false
  | some { steps, fallback, .. } => containsPtpLoop steps || fallbackContainsLoop fallback

def fallbackContainsLoop : Option (List Step) → Bool
  | none => false
  | some steps => containsPtpLoop steps

def awaitContainsLoop : Option (AwaitUntil Step) → Bool
  | none => false
  | some { onEach, .. } => containsPtpLoop onEach

def ifContainsLoop : Option (IfStep Step) → Bool
  | none => false
  | some { thenSteps, elseSteps, .. } => containsPtpLoop thenSteps || containsPtpLoop elseSteps
end

/-! ### The check -/

/-- The first code that is none. -/
def requireRetryCodes (stepPath : String) : List String → Except ManifestError Unit
  | [] => .ok ()
  | code :: rest =>
    if (parseHexCode code).isNone then
      .error (.contract (stepPath ++ ".retry has invalid response code '" ++ code ++ "'"))
    else requireRetryCodes stepPath rest

/-- The rules for a retry that do not depend on what is bound. -/
def requireRetryShape (retry : StepRetry Step) (stepPath : String) : Except ManifestError Unit :=
  if retry.steps.isEmpty then
    .error (.contract (stepPath ++ ".retry steps must not be empty"))
  else if retry.fallback.any (·.isEmpty) then
    .error (.contract (stepPath ++ ".retry fallback must not be empty"))
  else if retry.whenResponseCodes.isEmpty ∧ retry.whenFailureClasses.isEmpty then
    .error (.contract (stepPath ++
      ".retry must select at least one of whenResponseCodes/whenFailureClasses"))
  else if retry.maxAttempts = 0 then
    .error (.contract (stepPath ++ ".retry maxAttempts must be at least one"))
  else if containsPtpLoop retry.steps then
    .error (.contract (stepPath ++
      ".retry must not contain loop; put retry inside the per-element body"))
  else if fallbackContainsLoop retry.fallback then
    .error (.contract (stepPath ++ ".retry fallback must not contain loop"))
  else requireRetryCodes stepPath retry.whenResponseCodes

mutual
/-- The steps from number `index` on; `bound` are the collections that are
bound when the first of them is reached, and the result those that are bound
after the last. -/
def requireStepsFrom (ownership : Option SessionOwnership) :
    List Step → String → ℕ → Finset String → Except ManifestError (Finset String)
  | [], _, _, bound => .ok bound
  | step :: rest, path, index, bound => do
    let bound ← requireStep ownership step (path ++ ".steps[" ++ toString index ++ "]") bound
    requireStepsFrom ownership rest path (index + 1) bound

def requireStep (ownership : Option SessionOwnership) :
    Step → String → Finset String → Except ManifestError (Finset String)
  | ⟨setProp, getProp, readEcho, sendOp, openChannel, reopenSession, closeSession, value, params,
      captures, startsGate, completesGate, tolerant, count, awaitUntil, retry, loop, ifStep⟩,
      stepPath, bound => do
    let step : Step :=
      ⟨setProp, getProp, readEcho, sendOp, openChannel, reopenSession, closeSession,
      value, params, captures, startsGate, completesGate, tolerant, count, awaitUntil, retry, loop,
      ifStep⟩
    if !step.isWellFormed then
      .error (.contract (stepPath ++ " must contain exactly one action"))
    else do
      requireAwaitCaptures step stepPath
      let binds ← requireCapturesFrom ownership step stepPath captures ∅
      let bound ← requireRetrySteps ownership tolerant retry stepPath (bound ∪ binds)
      requireOnEach ownership awaitUntil stepPath bound
      requireLoopSteps ownership loop stepPath bound
      requireConditional ownership ifStep stepPath bound

def requireRetrySteps (ownership : Option SessionOwnership) (tolerant : Bool) :
    Option (StepRetry Step) → String → Finset String → Except ManifestError (Finset String)
  | none, _, bound => .ok bound
  | some ⟨steps, fallback, codes, classes, maxAttempts, retryDelayMs⟩, stepPath, bound => do
    requireRetryShape ⟨steps, fallback, codes, classes, maxAttempts, retryDelayMs⟩ stepPath
    let afterSteps ← requireStepsFrom ownership steps (stepPath ++ ".retry") 0 bound
    let afterRetry ← requireFallbackSteps ownership fallback stepPath bound afterSteps
    if tolerant && afterRetry ≠ bound then
      .error (.contract (stepPath ++ ".retry captures a collection and must not be tolerant"))
    else .ok afterRetry

/-- What the steps of the retry and its fallback both bind. -/
def requireFallbackSteps (ownership : Option SessionOwnership) :
    Option (List Step) → String → Finset String → Finset String →
      Except ManifestError (Finset String)
  | none, _, _, afterSteps => .ok afterSteps
  | some steps, stepPath, bound, afterSteps => do
    let afterFallback ← requireStepsFrom ownership steps (stepPath ++ ".retry.fallback") 0 bound
    .ok (afterSteps ∩ afterFallback)

def requireOnEach (ownership : Option SessionOwnership) :
    Option (AwaitUntil Step) → String → Finset String → Except ManifestError Unit
  | none, _, _ => .ok ()
  | some { onEach, .. }, stepPath, bound => do
    let _ ← requireStepsFrom ownership onEach (stepPath ++ ".awaitUntil") 0 bound
    .ok ()

def requireLoopSteps (ownership : Option SessionOwnership) :
    Option (Loop Step) → String → Finset String → Except ManifestError Unit
  | none, _, _ => .ok ()
  | some (.forEach collection _ body), stepPath, bound =>
    if collection ∉ bound then
      .error (.contract (stepPath ++ ".loop forEach collection '" ++ collection ++
        "' is not definitely bound"))
    else do
      let _ ← requireStepsFrom ownership body (stepPath ++ ".loop") 0 bound
      .ok ()
  | some (.chunk _ _ _ _ body), stepPath, bound => do
    let _ ← requireStepsFrom ownership body (stepPath ++ ".loop") 0 bound
    .ok ()

def requireConditional (ownership : Option SessionOwnership) :
    Option (IfStep Step) → String → Finset String → Except ManifestError (Finset String)
  | none, _, bound => .ok bound
  | some { thenSteps, elseSteps, .. }, stepPath, bound => do
    let afterThen ← requireStepsFrom ownership thenSteps (stepPath ++ ".if.then") 0 bound
    let afterElse ← requireStepsFrom ownership elseSteps (stepPath ++ ".if.else") 0 bound
    .ok (afterThen ∩ afterElse)
end

/-- The lists of mode entries and actions are checked from nothing bound. -/
def requireValidPtpSteps (steps : List Step) (path : String)
    (ownership : Option SessionOwnership) : Except ManifestError Unit := do
  let _ ← requireStepsFrom ownership steps path 0 ∅
  .ok ()

/-! ### What the check asks of a step -/

theorem pairwise_of_countP {l : List Bool} (h : l.countP id ≤ 1) :
    l.Pairwise fun a b => a = true → b = false := by
  induction l with
  | nil => exact .nil
  | cons a l ih =>
    rw [List.countP_cons] at h
    refine List.pairwise_cons.mpr ⟨fun b hb ha => ?_, ih (by omega)⟩
    rw [Bool.eq_false_iff]
    intro hb'
    have hpos : 0 < l.countP id := List.countP_pos_iff.mpr ⟨b, hb, hb'⟩
    rw [id_eq, if_pos ha] at h
    omega

variable {ownership : Option SessionOwnership} {step : Step} {stepPath : String}

theorem requireStep_ok {bound after : Finset String}
    (h : requireStep ownership step stepPath bound = .ok after) :
    step.isWellFormed = true ∧ ∃ binds between,
      requireCapturesFrom ownership step stepPath step.captures ∅ = .ok binds ∧
      requireRetrySteps ownership step.tolerant step.retry stepPath (bound ∪ binds) = .ok between ∧
      requireOnEach ownership step.awaitUntil stepPath between = .ok () ∧
      requireLoopSteps ownership step.loop stepPath between = .ok () ∧
      requireConditional ownership step.ifStep stepPath between = .ok after := by
  cases step
  unfold requireStep at h
  simp only [guard_eq_ok_iff, bind_eq_ok_iff] at h
  obtain ⟨hf, _, -, binds, hc, between, hr, _, ho, _, hl, hif⟩ := h
  exact ⟨by simpa using hf, binds, between, hc, hr, ho, hl, hif⟩

/-- A collection is captured only by a step that binds it or fails for good. -/
structure Capture.IsDefinite (step : Step) (capture : Capture) : Prop where
  fallback : capture.fallback = none
  tolerant : step.tolerant = false
  action : step.getProp.isSome = true ∨ step.sendOp.isSome = true

theorem requireCapture_ok {capture : Capture} {binds after : Finset String}
    (hf : requireCaptureFallback step stepPath capture = .ok ())
    (ha : requireArrayCapture step stepPath binds capture = .ok after) :
    (capture.source = .ptpU32Array → capture.IsDefinite step) ∧
      ∀ name ∈ after, name ∈ binds ∨ capture.source = .ptpU32Array ∧ capture.bind = name := by
  unfold requireArrayCapture at ha
  split at ha
  case isTrue hs =>
    cases ha
    exact ⟨fun h => absurd h hs, fun name hn => .inl hn⟩
  case isFalse hs =>
    have hs : capture.source = .ptpU32Array := not_not.mp hs
    simp only [guard_eq_ok_iff] at ha
    obtain ⟨hac, ht, -, -, ⟨⟩⟩ := ha
    refine ⟨fun _ => ⟨?_, by simpa using ht, ?_⟩, fun name hn => ?_⟩
    · unfold requireCaptureFallback at hf
      cases hno : capture.fallback with
      | none => rfl
      | some fallback => simp [hno, hs] at hf
    · cases hget : step.getProp with
      | some prop => exact .inl rfl
      | none =>
        cases hse : step.sendOp with
        | some op => exact .inr rfl
        | none => simp [hget, hse] at hac
    · exact (Finset.mem_insert.mp hn).elim (fun h => .inr ⟨hs, h.symm⟩) .inl

theorem requireCapturesFrom_ok : ∀ {captures : List Capture} {binds after : Finset String},
    requireCapturesFrom ownership step stepPath captures binds = .ok after →
    (∀ capture ∈ captures, capture.source = .ptpU32Array → capture.IsDefinite step) ∧
      ∀ name ∈ after, name ∈ binds ∨
        ∃ capture ∈ captures, capture.source = .ptpU32Array ∧ capture.bind = name
  | [], binds, after, h => by
    cases h
    exact ⟨by simp, fun name hn => .inl hn⟩
  | capture :: rest, binds, after, h => by
    obtain ⟨_, hf, h⟩ := bind_eq_ok_iff.mp h
    obtain ⟨_, -, h⟩ := bind_eq_ok_iff.mp h
    obtain ⟨between, ha, h⟩ := bind_eq_ok_iff.mp h
    obtain ⟨hd, hna⟩ := requireCapture_ok hf ha
    obtain ⟨hr, hl⟩ := requireCapturesFrom_ok h
    refine ⟨List.forall_mem_cons.mpr ⟨hd, hr⟩, fun name hn => ?_⟩
    rcases hl name hn with hn | ⟨capture', hmem, hb⟩
    · exact (hna name hn).imp id fun hb => ⟨capture, List.mem_cons_self .., hb⟩
    · exact .inr ⟨capture', List.mem_cons_of_mem _ hmem, hb⟩

/-- A retry that is accepted runs no loop again. -/
theorem requireRetryShape_ok {retry : StepRetry Step}
    (h : requireRetryShape retry stepPath = .ok ()) :
    containsPtpLoop retry.steps = false ∧ fallbackContainsLoop retry.fallback = false := by
  simp only [requireRetryShape, guard_eq_ok_iff] at h
  obtain ⟨-, -, -, -, hs, hf, -⟩ := h
  exact ⟨by simpa using hs, by simpa using hf⟩

end Ptpsim.Config
