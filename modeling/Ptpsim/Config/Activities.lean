/-
# Activities of a plan

An activity is a named stretch of a plan's top-level steps, for a host to show
its progress. The loader takes the activities of a plan only if their spans
follow one another from the first step on and cover them all.

Key theorems: `requireValidExecutorActivities_partitions`.
-/
import Ptpsim.Config.OpenChannels

namespace Ptpsim.Config

inductive ActivitySequence where
  | steps
  | postExitReadiness
deriving DecidableEq

/-- What an activity is bound to; of the bindings to the host only that they
are none of the executor's is kept. -/
inductive ActivityBinding where
  | executorSpan (sequence : ActivitySequence) (startStep endStepExclusive : UInt32)
  | host
deriving DecidableEq

inductive ActivityDisplayRole where
  | connecting
  | waitingForCamera
  | confirmingPairing
  | preparingConnection
  | startingNetwork
  | joiningNetwork
  | openingSession
  | unknown (token : String)
deriving DecidableEq

/-- An activity and the steps it covers. -/
structure ActivityDescriptor where
  id : String
  version : UInt32
  displayRole : ActivityDisplayRole := .connecting
  title : Option String := none
  defaultExpectedDurationMs : UInt32 := 1
  interactionRequired : Bool := false
  binding : ActivityBinding
deriving DecidableEq

def validIdSegment (segment : List Char) : Bool :=
  !segment.isEmpty && segment.all fun c => c.isAlphanum || c == '-' || c == '_'

/-- At least two segments between dots, all of them made of letters, digits,
hyphens and underscores. -/
def validActivityId (id : String) : Bool :=
  match id.toList.splitOn '.' with
  | first :: second :: rest =>
    validIdSegment first && validIdSegment second && rest.all validIdSegment
  | _ => false

/-- The activities from number `index` on, which have to go on at step
`next`; the result is where the last span ends. -/
def requireSpansFrom (path : String) :
    List ActivityDescriptor → ℕ → List String → UInt32 → Except ManifestError UInt32
  | [], _, _, next => .ok next
  | descriptor :: rest, index, ids, next =>
    let here := path ++ "[" ++ toString index ++ "]"
    if !validActivityId descriptor.id || ids.contains descriptor.id then
      .error (.contract (here ++ ".id must be unique with at least two dot-delimited segments"))
    else if descriptor.version = 0 ∨ descriptor.defaultExpectedDurationMs = 0 then
      .error (.contract (here ++ " version and defaultExpectedDurationMs must be > 0"))
    else if descriptor.title.any fun title => (trim title.toList).isEmpty then
      .error (.contract (here ++ ".title must not be empty"))
    else
      match descriptor.binding with
      | .host => .error (.contract (here ++ " must use executorSpan"))
      | .executorSpan sequence startStep endStepExclusive =>
        if sequence ≠ .steps then
          .error (.contract (here ++ ".executorSpan.sequence must be steps"))
        else if startStep ≠ next ∨ endStepExclusive ≤ startStep then
          .error (.contract (here ++ ".executorSpan must continue ordered coverage at step " ++
            toString next))
        else requireSpansFrom path rest (index + 1) (descriptor.id :: ids) endStepExclusive

def requireValidExecutorActivities (activities : List ActivityDescriptor) (stepCount : ℕ)
    (path : String) : Except ManifestError Unit := do
  let next ← requireSpansFrom path activities 0 [] 0
  if !activities.isEmpty && next.toNat != stepCount then
    .error (.contract (path ++ " covers " ++ toString next ++ " of " ++ toString stepCount ++
      " top-level steps"))
  else .ok ()

/-! ### What is accepted -/

/-- The spans follow one another from `next` to `last`. -/
def Partitions : List ActivityDescriptor → ℕ → ℕ → Prop
  | [], next, last => next = last
  | descriptor :: rest, next, last => ∃ startStep endStepExclusive : UInt32,
      descriptor.binding = .executorSpan .steps startStep endStepExclusive ∧
      startStep.toNat = next ∧ startStep < endStepExclusive ∧
      Partitions rest endStepExclusive.toNat last

theorem requireSpansFrom_partitions {path : String} : ∀ {activities : List ActivityDescriptor}
    {index : ℕ} {ids : List String} {next last : UInt32},
    requireSpansFrom path activities index ids next = .ok last →
      Partitions activities next.toNat last.toNat
  | [], _, _, _, _, h => by
    cases h
    rfl
  | descriptor :: rest, index, ids, next, last, h => by
    simp only [requireSpansFrom, Fallible.guard_eq_ok_iff] at h
    obtain ⟨-, -, -, h⟩ := h
    split at h
    · cases h
    · rename_i sequence startStep endStepExclusive hb
      simp only [Fallible.guard_eq_ok_iff, not_or, not_not, UInt32.not_le] at h
      obtain ⟨hst, ⟨rfl, hlt⟩, h⟩ := h
      exact ⟨startStep, endStepExclusive, by rw [hb, hst], rfl, hlt, requireSpansFrom_partitions h⟩

/-- The spans of accepted activities cover the steps of the plan. -/
theorem requireValidExecutorActivities_partitions {activities : List ActivityDescriptor}
    {stepCount : ℕ}
    {path : String} (h : requireValidExecutorActivities activities stepCount path = .ok ()) :
    activities = [] ∨ Partitions activities 0 stepCount := by
  unfold requireValidExecutorActivities at h
  rcases hs : requireSpansFrom path activities 0 [] 0 with e | next
  · rw [hs] at h
    cases h
  · rw [hs] at h
    have ht := requireSpansFrom_partitions hs
    by_cases he : activities = []
    · exact .inl he
    · by_cases hc : next.toNat = stepCount
      · rw [hc] at ht
        exact .inr ht
      · have hr : (!activities.isEmpty && next.toNat != stepCount) = true := by
          simp [he, hc]
        simp only [bind, Except.bind, hr, if_true] at h
        cases h

end Ptpsim.Config
