/-
# Conflicting capability records

The capability records of all observation bundles are collected under a text
that joins kind, code and context with colons, and a line is rejected if two
records under its text contradict each other. The texts of a context may
contain colons themselves, so the records under one text can be of different
scopes. The rejection is the one the scope calls for where the texts tell the
scopes apart, and only there (`exact_scope_rejections_iff`).
-/
import Mathlib.Data.Finset.Insert
import Mathlib.Data.List.Pairwise
import Mathlib.Data.Set.Function

namespace Ptpsim.Config.Observation

open List

/-- Where a fact was observed. -/
structure ExecutionContext where
  connection : String
  mode : String
  state : String
deriving DecidableEq

structure CapabilityValueProfile (ρ : Type) where
  connection : Option String
  mode : Option String
  rows : ρ

/-- What a record says about a property. Descriptors and rows are only
compared. -/
structure PropertyFacts (δ ρ : Type) where
  supported : Bool
  propertyType : Option String := none
  access : Option String := none
  descriptor : Option δ := none
  labels : List (String × String) := []
  valueProfiles : List (CapabilityValueProfile ρ) := []

/-- What a capability fact is about. -/
inductive CapabilitySubject (δ ρ : Type) where
  | identity (deviceVersion : String)
  | operation (code : String) (supported : Bool)
  | property (code : String) (facts : PropertyFacts δ ρ)

/-- One capability fact. -/
structure CapabilityRecord (δ ρ : Type) where
  context : ExecutionContext
  subject : CapabilitySubject δ ρ

/-- A line, with its record if that is one of a capability. -/
structure ParsedLine (δ ρ : Type) where
  value : Option (CapabilityRecord δ ρ)
  errors : Finset (String × String) := ∅

variable {δ ρ : Type}

def ParsedLine.reject (line : ParsedLine δ ρ) (error : String × String) : ParsedLine δ ρ :=
  { line with errors := insert error line.errors }

/-! ### Records that contradict each other -/

def optionConflicts {α : Type} [DecidableEq α] : Option α → Option α → Bool
  | some left, some right => left ≠ right
  | _, _ => false

variable [DecidableEq δ] [DecidableEq ρ]

/-- What both comparisons of properties look at. -/
def PropertyFacts.conflict (left right : PropertyFacts δ ρ) : Bool :=
  optionConflicts left.propertyType right.propertyType ||
    optionConflicts left.access right.access ||
    optionConflicts left.descriptor right.descriptor ||
    left.labels.any (fun label => (right.labels.lookup label.1).any (· ≠ label.2)) ||
    left.valueProfiles.any fun l => right.valueProfiles.any fun r =>
      l.connection = r.connection && l.mode = r.mode && l.rows ≠ r.rows

def capabilitySubjectsConflict : CapabilitySubject δ ρ → CapabilitySubject δ ρ → Bool
  | .identity left, .identity right => left ≠ right
  | .operation _ left, .operation _ right => left ≠ right
  | .property _ left, .property _ right => left.supported ≠ right.supported || left.conflict right
  | _, _ => true

def capabilitySubjectsConflictAcrossScopes : CapabilitySubject δ ρ → CapabilitySubject δ ρ → Bool
  | .operation _ _, .operation _ _ => false
  | .property _ left, .property _ right => left.conflict right
  | _, _ => true

/-! ### The validation -/

/-- What a record is about: its kind and code. -/
inductive Topic where
  | identity
  | operation (code : String)
  | property (code : String)
deriving DecidableEq

def Topic.text : Topic → String
  | identity => "identity:camera"
  | operation code => s!"operation:{code}"
  | property code => s!"property:{code}"

structure CapabilityScope where
  topic : Topic
  context : ExecutionContext
deriving DecidableEq

def CapabilityScope.key (s : CapabilityScope) : String :=
  s!"{s.topic.text}:{s.context.connection}:{s.context.mode}:{s.context.state}"

def CapabilitySubject.topic : CapabilitySubject δ ρ → Topic
  | identity _ => .identity
  | operation code _ => .operation code
  | property code _ => .property code

def CapabilityRecord.scope (r : CapabilityRecord δ ρ) : CapabilityScope :=
  ⟨r.subject.topic, r.context⟩

/-- An entry conflicts with a later one. -/
def anyPair {α : Type} (conflict : α → α → Bool) : List α → Bool
  | [] => false
  | left :: entries => entries.any (conflict left) || anyPair conflict entries

def exactConflict : String × String := ("O400", "conflicting capability fact in one exact scope")

def globalConflict : String × String :=
  ("O401", "capability facts conflict across scopes that the manifest cannot represent")

/-- The entries under the text of a record are those with the same text, in the
order of the lines. -/
def validateLine (records : List (CapabilityRecord δ ρ)) (line : ParsedLine δ ρ) : ParsedLine δ ρ :=
  match line.value with
  | none => line
  | some record =>
    let line := if anyPair (fun l r => capabilitySubjectsConflict l.subject r.subject)
        (records.filter fun r => r.scope.key = record.scope.key)
      then line.reject exactConflict else line
    if record.subject.topic ≠ .identity ∧ anyPair (fun l r => l.context ≠ r.context &&
          capabilitySubjectsConflictAcrossScopes l.subject r.subject)
        (records.filter fun r => r.subject.topic ≠ .identity &&
          r.subject.topic.text = record.subject.topic.text)
      then line.reject globalConflict else line

variable (bundles : List (List (ParsedLine δ ρ)))

def recordsOf : List (CapabilityRecord δ ρ) :=
  bundles.flatten.filterMap ParsedLine.value

def validateConflicts : List (List (ParsedLine δ ρ)) :=
  bundles.map (·.map (validateLine (recordsOf bundles)))

/-! ### Which lines are rejected -/

theorem anyPair_iff {α : Type} {conflict : α → α → Bool} : ∀ {entries : List α},
    anyPair conflict entries = true ↔ ∃ l r, [l, r] <+ entries ∧ conflict l r = true
  | [] => by simp [anyPair]
  | left :: entries => by
    simp only [anyPair, Bool.or_eq_true, any_eq_true, anyPair_iff, cons_sublist_cons',
      singleton_sublist]
    constructor
    · rintro (⟨r, hr, h⟩ | ⟨l, r, hs, h⟩)
      · exact ⟨left, r, .inr ⟨rfl, hr⟩, h⟩
      · exact ⟨l, r, .inl hs, h⟩
    · rintro ⟨l, r, hs | ⟨rfl, hr⟩, h⟩
      · exact .inr ⟨l, r, hs, h⟩
      · exact .inl ⟨r, hr, h⟩

/-- Two of the records contradict each other. -/
def Contradictory (records : List (CapabilityRecord δ ρ)) : Prop :=
  ∃ l r, [l, r] <+ records ∧ capabilitySubjectsConflict l.subject r.subject = true

/-- A line of a capability is rejected for its scope exactly if two records of
that scope contradict each other. -/
def ExactScopes : Prop :=
  Forall₂ (fun line line' => ∀ record, line.value = some record → exactConflict ∉ line.errors →
    (exactConflict ∈ line'.errors ↔
      Contradictory ((recordsOf bundles).filter (·.scope = record.scope))))
    bundles.flatten (validateConflicts bundles).flatten

theorem rejected_iff {records : List (CapabilityRecord δ ρ)} {line : ParsedLine δ ρ}
    {record : CapabilityRecord δ ρ} (hv : line.value = some record)
    (hn : exactConflict ∉ line.errors) :
    exactConflict ∈ (validateLine records line).errors ↔
      Contradictory (records.filter (·.scope.key = record.scope.key)) := by
  have hp : Contradictory (records.filter (·.scope.key = record.scope.key)) ↔
    anyPair (fun l r : CapabilityRecord δ ρ => capabilitySubjectsConflict l.subject r.subject) _ =
      true := anyPair_iff.symm
  have hne : exactConflict ≠ globalConflict := by decide
  rw [hp]
  simp only [validateLine, hv]
  split <;> split <;> simp_all [ParsedLine.reject]

theorem exactScopes_iff {bundles : List (List (ParsedLine δ ρ))} : ExactScopes bundles ↔
    ∀ line ∈ bundles.flatten, ∀ record, line.value = some record → exactConflict ∉ line.errors →
      (Contradictory ((recordsOf bundles).filter (·.scope.key = record.scope.key)) ↔
        Contradictory ((recordsOf bundles).filter (·.scope = record.scope))) := by
  rw [ExactScopes, validateConflicts, ← map_flatten, forall₂_map_right_iff, forall₂_same]
  refine forall₂_congr fun line _ => forall₃_congr fun record hv hn => ?_
  rw [rejected_iff hv hn]

/-- A record of the scope, one of two that contradict each other. -/
def sample (s : CapabilityScope) (first : Bool) : CapabilityRecord δ ρ where
  context := s.context
  subject := match s.topic with
    | .identity => .identity (if first then "1" else "2")
    | .operation code => .operation code first
    | .property code => .property code { supported := first }

omit [DecidableEq δ] [DecidableEq ρ] in
theorem sample_scope (s : CapabilityScope) (first : Bool) :
    (sample s first : CapabilityRecord δ ρ).scope = s := by
  obtain ⟨_ | code | code, context⟩ := s
  all_goals rfl

theorem sample_conflict (s s' : CapabilityScope) : capabilitySubjectsConflict
    (sample s true : CapabilityRecord δ ρ).subject (sample s' false).subject = true := by
  obtain ⟨_ | code | code, context⟩ := s
  all_goals
    obtain ⟨_ | code' | code', context'⟩ := s'
    all_goals rfl

/-- **Rejections by scope.** Whatever the bundles with records of these scopes
are, a record is rejected for its scope exactly if two of that scope contradict
each other, just if the joined texts of the scopes are different. -/
theorem exact_scope_rejections_iff (δ ρ : Type) [DecidableEq δ] [DecidableEq ρ]
    (scopes : Set CapabilityScope) :
    (∀ bundles : List (List (ParsedLine δ ρ)), (∀ r ∈ recordsOf bundles, r.scope ∈ scopes) →
      ExactScopes bundles) ↔ scopes.InjOn CapabilityScope.key := by
  constructor
  · intro h s hs s' hs' hk
    by_contra hne
    let records : List (CapabilityRecord δ ρ) := [sample s true, sample s' false]
    have hr : ∀ r ∈ records, r.scope ∈ scopes := by simp [records, sample_scope, hs, hs']
    have hi := exactScopes_iff.mp (h [records.map fun r => ⟨some r, ∅⟩] hr) _ mem_cons_self _ rfl
      (by simp)
    have hall : records <+ records.filter
        (·.scope.key = (sample s true : CapabilityRecord δ ρ).scope.key) := by
      rw [filter_eq_self.mpr (by simp [records, sample_scope, hk])]
    obtain ⟨l, r, hsub, -⟩ := hi.mp ⟨_, _, hall, sample_conflict s s'⟩
    have hlen := hsub.length_le
    simp [recordsOf, records, sample_scope, Ne.symm hne] at hlen
  · intro hinj bundles hr
    refine exactScopes_iff.mpr fun line hm record hv _ => ?_
    have hmem : record ∈ recordsOf bundles := mem_filterMap.mpr ⟨line, hm, hv⟩
    rw [filter_congr fun r h => decide_eq_decide.mpr (hinj.eq_iff (hr r h) (hr record hmem))]

/-- The version of a body in one connection, and that of another body. -/
def colonBundle : List (List (ParsedLine Unit Unit)) :=
  [[⟨some ⟨⟨"usb:tether", "play", "idle"⟩, .identity "1.0"⟩, ∅⟩,
    ⟨some ⟨⟨"usb", "tether:play", "idle"⟩, .identity "2.0"⟩, ∅⟩]]

/-- The two records are of different scopes, and both are rejected. -/
theorem colon_scopes_rejected :
    (validateConflicts colonBundle).flatten.map (·.errors) = [{exactConflict}, {exactConflict}] ∧
      ¬ ExactScopes colonBundle := by
  refine ⟨by decide, fun h => ?_⟩
  have hi := exactScopes_iff.mp h _ mem_cons_self _ rfl (by decide)
  obtain ⟨l, r, hs, -⟩ := hi.mp ⟨_, _, Sublist.refl _, rfl⟩
  exact absurd hs.length_le (show ¬ 2 ≤ _ by decide)

end Ptpsim.Config.Observation
