/-
# Why a query answered as it did

Beside the evaluation of a predicate there is one that records every leaf it
comes by, without stopping early, and beside the availability query one that
says which check decided. They are written separately from the plain ones, and
give the same answers.
-/
import Ptpsim.Config.Query

namespace Ptpsim.Config

open CameraManifest List Predicate

/-! ### Predicates -/

structure LeafEval where
  prop : String
  observed : Option Int64
  effective : Option Int64
  test : String
  passed : Bool
deriving DecidableEq

structure PredicateOutcome where
  passed : Bool
  leaves : List LeafEval
  summary : String
deriving DecidableEq

/-- The digits of a number as a test shows it; a negative one by its bits. -/
def lowerHex (x : Int64) : String := String.ofList (Nat.toDigits 16 x.toUInt64.toNat)

/-- The comparators of a leaf, as a text. -/
def Leaf.test (l : Leaf) : String :=
  let shown (name : String) (x : Option Int64) : List String :=
    (x.map fun x => name ++ " 0x" ++ lowerHex x).toList
  ", ".intercalate (shown "mask" l.mask ++ shown "eq" l.eq ++ shown "ne" l.ne ++ shown "lt" l.lt ++
    shown "gt" l.gt)

def Leaf.explain (l : Leaf) (view : PropView) : LeafEval :=
  let observed := (parseHexCode l.prop).bind view
  let effective := observed.map fun v => match l.mask with
    | some m => v &&& m
    | none => v
  { prop := l.prop
    observed := observed
    effective := effective
    test := l.test
    passed := match effective with
      | none => false
      | some v =>
        l.eq.all (fun x => decide (v = x)) && l.ne.all (fun x => decide (v ≠ x)) &&
          l.lt.all (fun x => decide (v < x)) && l.gt.all (fun x => decide (x < v)) }

mutual
/-- Every leaf is recorded, also one that can change nothing any more. -/
def collect (view : PropView) : Predicate → List LeafEval → Bool × List LeafEval
  | .all ps, leaves => collectAll view ps true leaves
  | .any ps, leaves => collectAny view ps false leaves
  | .not p, leaves =>
    let (passed, leaves) := collect view p leaves
    (!passed, leaves)
  | .leaf l, leaves => ((l.explain view).passed, leaves ++ [l.explain view])

def collectAll (view : PropView) : List Predicate → Bool → List LeafEval → Bool × List LeafEval
  | [], r, leaves => (r, leaves)
  | p :: ps, r, leaves =>
    let (passed, leaves) := collect view p leaves
    collectAll view ps (passed && r) leaves

def collectAny (view : PropView) : List Predicate → Bool → List LeafEval → Bool × List LeafEval
  | [], r, leaves => (r, leaves)
  | p :: ps, r, leaves =>
    let (passed, leaves) := collect view p leaves
    collectAny view ps (passed || r) leaves
end

def Predicate.summary : Predicate → String
  | .all ps => "all of " ++ toString ps.length
  | .any ps => "any of " ++ toString ps.length
  | .not _ => "not(...)"
  | .leaf _ => "leaf"

def Predicate.explain (p : Predicate) (view : PropView) : PredicateOutcome :=
  let (passed, leaves) := collect view p []
  { passed := passed, leaves := leaves, summary := p.summary }

/-! ### Availability -/

/-- The reason for an answer, with what its text mentions. -/
inductive Reason where
  | notDefined (code : UInt16)
  | advertisedOnly
  | connections (valid : List String) (connection : String)
  | modes (valid : List String) (mode : String)
  | prerequisiteUnmet
  | available
deriving DecidableEq

/-- An answer and the checks behind it. -/
structure ResolutionTrace where
  connection : String
  mode : String
  op : UInt16
  outcome : Availability
  connectionOk : Bool
  modeOk : Bool
  requires : Option PredicateOutcome
  reason : Reason
deriving DecidableEq

def CameraManifest.operationAvailableExplained (m : CameraManifest) (connection modePath : String)
    (code : UInt16) (observed : PropView) : Availability × ResolutionTrace :=
  match m.operation code with
  | none =>
    (.unavailable, ⟨connection, modePath, code, .unavailable, false, false, none, .notDefined code⟩)
  | some op =>
    if op.kind = .advertisedOnly then
      (.unavailable,
        ⟨connection, modePath, code, .unavailable, false, false, none, .advertisedOnly⟩)
    else
      let connectionOk := op.connections.isEmpty || op.connections.contains connection
      let modeOk := modeMatches op.modes modePath
      let requires := op.requires.map fun p => p.explain observed
      let (availability, reason) : Availability × Reason :=
        if !connectionOk then (.wrongConnection, .connections op.connections connection)
        else if !modeOk then (.wrongMode, .modes op.modes modePath)
        else if requires.any fun r => !r.passed then (.blocked, .prerequisiteUnmet)
        else (.available, .available)
      (availability,
        ⟨connection, modePath, code, availability, connectionOk, modeOk, requires, reason⟩)

/-! ### The answers are the same -/

mutual
/-- The leaves of a predicate, from left to right. -/
def Predicate.leaves : Predicate → List Leaf
  | .all ps | .any ps => Predicate.leavesOf ps
  | .not p => p.leaves
  | .leaf l => [l]

def Predicate.leavesOf : List Predicate → List Leaf
  | [] => []
  | p :: ps => p.leaves ++ Predicate.leavesOf ps
end

theorem Leaf.explain_passed (l : Leaf) (view : PropView) :
    (l.explain view).passed = l.eval view := by
  unfold Leaf.explain Leaf.eval
  rcases parseHexCode l.prop with _ | code
  · rfl
  · rcases ho : view code with _ | observed
    · simp [ho]
    · rcases l.mask with _ | m <;> simp [ho]

mutual
/-- The value is the plain one, and the leaves are recorded in order. -/
theorem collect_eq (view : PropView) : ∀ (p : Predicate) (leaves : List LeafEval),
    collect view p leaves = (p.eval view, leaves ++ p.leaves.map (·.explain view))
  | .all ps, leaves => by
    rw [collect, collectAll_eq view ps, Bool.and_true, Predicate.eval, Predicate.leaves]
  | .any ps, leaves => by
    rw [collect, collectAny_eq view ps, Bool.or_false, Predicate.eval, Predicate.leaves]
  | .not p, leaves => by
    rw [collect, collect_eq view p, Predicate.eval, Predicate.leaves]
  | .leaf l, leaves => by
    rw [collect, l.explain_passed, Predicate.eval, Predicate.leaves]
    rfl

theorem collectAll_eq (view : PropView) :
    ∀ (ps : List Predicate) (r : Bool) (leaves : List LeafEval), collectAll view ps r leaves =
      (evalAll view ps && r, leaves ++ (leavesOf ps).map (·.explain view))
  | [], r, leaves => by
    rw [collectAll, evalAll, leavesOf, Bool.true_and, map_nil, append_nil]
  | p :: ps, r, leaves => by
    rw [collectAll, collect_eq view p]
    dsimp only
    rw [collectAll_eq view ps, evalAll, leavesOf, map_append,
      append_assoc, ← Bool.and_assoc, Bool.and_comm (p.eval view)]

theorem collectAny_eq (view : PropView) :
    ∀ (ps : List Predicate) (r : Bool) (leaves : List LeafEval), collectAny view ps r leaves =
      (evalAny view ps || r, leaves ++ (leavesOf ps).map (·.explain view))
  | [], r, leaves => by
    rw [collectAny, evalAny, leavesOf, Bool.false_or, map_nil, append_nil]
  | p :: ps, r, leaves => by
    rw [collectAny, collect_eq view p]
    dsimp only
    rw [collectAny_eq view ps, evalAny, leavesOf, map_append,
      append_assoc, ← Bool.or_assoc, Bool.or_comm (p.eval view)]
end

theorem Predicate.explain_eq (p : Predicate) (view : PropView) :
    p.explain view = ⟨p.eval view, p.leaves.map (·.explain view), p.summary⟩ := by
  rw [explain, collect_eq, nil_append]

theorem operationAvailableExplained_fst (m : CameraManifest) (connection modePath : String)
    (code : UInt16) (observed : PropView) :
    (m.operationAvailableExplained connection modePath code observed).1 =
      m.operationAvailable connection modePath code observed := by
  unfold operationAvailableExplained operationAvailable
    evaluateAvailability
  rcases m.operation code with _ | op
  · rfl
  · by_cases hk : op.kind = .advertisedOnly
    · simp only [hk, if_true]
    · have hr : (op.requires.map fun p => p.explain observed).any (fun r => !r.passed) =
          op.requires.any fun req => !req.eval observed := by
        rcases op.requires with _ | p
        · rfl
        · simp only [Option.map_some, Option.any_some, explain_eq]
      simp only [hk, if_false, Bool.not_or, Option.any_some, hr]
      repeat' split
      all_goals rfl

/-- **The explanations agree with the plain queries.** A predicate of any depth
is explained as met exactly if it holds; the explanation has every leaf, in
order, with the leaf's own value; and the explained availability is the plain
one, with the value of the prerequisite. -/
theorem explained_agrees :
    (∀ (p : Predicate) (view : PropView),
      ((p.explain view).passed = true ↔ p.eval view = true) ∧
        (p.explain view).leaves.map (fun e => (e.prop, e.passed)) =
          p.leaves.map fun l => (l.prop, l.eval view)) ∧
    ∀ (m : CameraManifest) (connection mode : String) (code : UInt16) (view : PropView),
      (m.operationAvailableExplained connection mode code view).1 =
          m.operationAvailable connection mode code view ∧
        (m.operationAvailableExplained connection mode code view).2.outcome =
          m.operationAvailable connection mode code view := by
  refine ⟨fun p view => ?_, fun m connection mode code view => ⟨?_, ?_⟩⟩
  · rw [p.explain_eq]
    refine ⟨Iff.rfl, ?_⟩
    rw [map_map]
    exact map_congr_left fun l _ => congrArg (Prod.mk l.prop) (l.explain_passed view)
  · exact operationAvailableExplained_fst m connection mode code view
  · rw [← operationAvailableExplained_fst]
    unfold operationAvailableExplained
    split
    · rfl
    split <;> rfl

end Ptpsim.Config
