/-
# Manifest codes and predicates

A manifest writes its PTP codes as hexadecimal strings (`parseHexCode`), and
the conditions of modes, operations and dispositions in a closed predicate
grammar: a leaf compares one observed property value, `all`, `any` and `not`
combine leaves. Evaluation is total; a property that was not observed meets no
leaf.
-/
import Mathlib.Data.List.Basic

namespace Ptpsim.Config

/-! ### Hexadecimal codes -/

/-- The characters `str::trim` strips, the Unicode `White_Space` property. -/
def isWhitespace (c : Char) : Bool :=
  let n := c.toNat
  (9 ≤ n && n ≤ 13) || n == 0x20 || n == 0x85 || n == 0xa0 || n == 0x1680 ||
    (0x2000 ≤ n && n ≤ 0x200a) || n == 0x2028 || n == 0x2029 || n == 0x202f || n == 0x205f ||
    n == 0x3000

def trim (cs : List Char) : List Char :=
  ((cs.dropWhile isWhitespace).reverse.dropWhile isWhitespace).reverse

def hexDigit (c : Char) : Option ℕ :=
  if '0' ≤ c ∧ c ≤ '9' then some (c.toNat - '0'.toNat)
  else if 'a' ≤ c ∧ c ≤ 'f' then some (c.toNat - 'a'.toNat + 10)
  else if 'A' ≤ c ∧ c ≤ 'F' then some (c.toNat - 'A'.toNat + 10)
  else none

/-- The digits of `u16::from_str_radix(_, 16)`, after its optional sign. -/
def hexDigits (cs : List Char) : Option ℕ :=
  cs.foldlM (fun acc c => do
    let d ← hexDigit c
    if acc * 16 + d < 65536 then some (acc * 16 + d) else none) 0

def fromStrRadix16 (cs : List Char) : Option UInt16 :=
  let digits := match cs with
    | '+' :: rest => rest
    | _ => cs
  if digits.isEmpty then none else (hexDigits digits).map UInt16.ofNat

/-- The code of a key such as `"0x101b"`, `none` if the key is malformed. -/
def parseHexCode (s : String) : Option UInt16 :=
  match trim s.toList with
  | '0' :: 'x' :: hex => fromStrRadix16 hex
  | '0' :: 'X' :: hex => fromStrRadix16 hex
  | hex => fromStrRadix16 hex

/-! ### Predicates -/

/-- Observed property values, by property code. -/
abbrev PropView := UInt16 → Option Int64

/-- A leaf compares the value of one property, masked first. -/
structure Leaf where
  prop : String
  mask : Option Int64 := none
  eq : Option Int64 := none
  ne : Option Int64 := none
  lt : Option Int64 := none
  gt : Option Int64 := none
deriving DecidableEq

/-- A condition on property values. -/
inductive Predicate where
  | all (all : List Predicate)
  | any (any : List Predicate)
  | not (not : Predicate)
  | leaf (leaf : Leaf)

/-- Every comparator that is present must hold. -/
def Leaf.eval (l : Leaf) (view : PropView) : Bool :=
  match parseHexCode l.prop with
  | none => false
  | some code =>
    match view code with
    | none => false
    | some observed =>
      let v := match l.mask with
        | some m => observed &&& m
        | none => observed
      l.eq.all (fun x => decide (v = x)) && l.ne.all (fun x => decide (v ≠ x)) &&
        l.lt.all (fun x => decide (v < x)) && l.gt.all (fun x => decide (x < v))

mutual
/-- Whether `view` satisfies the predicate. -/
def Predicate.eval (view : PropView) : Predicate → Bool
  | .all ps => Predicate.evalAll view ps
  | .any ps => Predicate.evalAny view ps
  | .not p => !p.eval view
  | .leaf l => l.eval view

def Predicate.evalAll (view : PropView) : List Predicate → Bool
  | [] => true
  | p :: ps => p.eval view && Predicate.evalAll view ps

def Predicate.evalAny (view : PropView) : List Predicate → Bool
  | [] => false
  | p :: ps => p.eval view || Predicate.evalAny view ps
end

/-! ### What a predicate reads -/

def Leaf.reads (l : Leaf) (code : UInt16) : Bool := parseHexCode l.prop = some code

mutual
def Predicate.reads (code : UInt16) : Predicate → Bool
  | .all ps | .any ps => Predicate.anyReads code ps
  | .not p => p.reads code
  | .leaf l => l.reads code

def Predicate.anyReads (code : UInt16) : List Predicate → Bool
  | [] => false
  | p :: ps => p.reads code || Predicate.anyReads code ps
end

theorem Leaf.eval_congr {view view' : PropView} (l : Leaf)
    (h : ∀ code, l.reads code = true → view code = view' code) : l.eval view = l.eval view' := by
  unfold Leaf.eval
  cases hc : parseHexCode l.prop with
  | none => rfl
  | some code =>
    dsimp only
    rw [h code (decide_eq_true hc)]

open Predicate

mutual
theorem Predicate.eval_congr {view view' : PropView} : ∀ p : Predicate,
    (∀ code, p.reads code = true → view code = view' code) → p.eval view = p.eval view'
  | .all ps, h => by
    unfold Predicate.eval
    exact (evalAll_congr ps h).1
  | .any ps, h => by
    unfold Predicate.eval
    exact (evalAll_congr ps h).2
  | .not p, h => by
    unfold Predicate.eval
    rw [p.eval_congr h]
  | .leaf l, h => by
    unfold Predicate.eval
    exact l.eval_congr h

theorem Predicate.evalAll_congr {view view' : PropView} : ∀ ps : List Predicate,
    (∀ code, anyReads code ps = true → view code = view' code) →
    evalAll view ps = evalAll view' ps ∧
      evalAny view ps = evalAny view' ps
  | [], _ => by
    unfold evalAll evalAny
    exact ⟨rfl, rfl⟩
  | p :: ps, h => by
    have hp : p.eval view = p.eval view' := p.eval_congr fun code hc => h code (by
      rw [anyReads, hc, Bool.true_or])
    have hps := evalAll_congr ps fun code hc => h code (by
      rw [anyReads, hc, Bool.or_true])
    unfold evalAll evalAny
    rw [hp, hps.1, hps.2]
    exact ⟨rfl, rfl⟩
end

end Ptpsim.Config
