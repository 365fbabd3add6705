/-
# Firmware versions

A version is a dotted list of numbers. Two versions are compared number by
number, the shorter one with zeros at its end. A text that does not parse has no
order, and is only in the ranges it is a bound of. Behind the comparison stands
a linear order: sequences of numbers, compared at their first difference.
-/
import Mathlib.Data.List.GetD
import Mathlib.Order.Compare
import Mathlib.Order.PiLex
import Ptpsim.Primitives.PcssMessages

namespace Ptpsim.Config

open List

inductive VersionScheme
  | dottedInt

/-- `parse::<u64>`, which allows a plus sign. -/
def parseComponent (text : List Char) : Option ℕ :=
  let digits := match text with
    | '+' :: rest => rest
    | _ => text
  Primitives.parseDecimal (2 ^ 64) digits

/-- The parts of `text` under a scheme. -/
def parseVersion (text : List Char) : VersionScheme → Option (List ℕ)
  | .dottedInt =>
    let text := trim text
    if text.isEmpty then none
    else (text.splitOn '.').mapM fun component => parseComponent (trim component)

/-- The loop from component `i` on, with `n` components to go. -/
def compareFrom (va vb : List ℕ) : ℕ → ℕ → Ordering
  | 0, _ => .eq
  | n + 1, i =>
    match compare (va.getD i 0) (vb.getD i 0) with
    | .eq => compareFrom va vb n (i + 1)
    | other => other

/-- The order of two versions, if both parse. -/
def compareVersions (a b : List Char) (scheme : VersionScheme) : Option Ordering := do
  let va ← parseVersion a scheme
  let vb ← parseVersion b scheme
  some (compareFrom va vb (max va.length vb.length) 0)

def inRange (v : List Char) (min max : Option (List Char)) (scheme : VersionScheme) : Bool :=
  if (parseVersion v scheme).isNone then
    -- A version without an order is in the range if it is one of its bounds.
    min = some v ∨ max = some v
  else
    let aboveMin := match min with
      | none => true
      | some lo =>
        compareVersions v lo scheme = some .gt ∨ compareVersions v lo scheme = some .eq ∨ lo = v
    let belowMax := match max with
      | none => true
      | some hi => compareVersions v hi scheme = some .lt
    aboveMin && belowMax

/-- A text that is a version. -/
structure Version (scheme : VersionScheme) where
  text : List Char
  components : List ℕ
  parsed : parseVersion text scheme = some components

namespace Version

variable {scheme : VersionScheme} (v w : Version scheme)

/-- The components with the zeros behind them, ordered by their first difference. -/
def key : Lex (ℕ → ℕ) := toLex fun i => v.components.getD i 0

theorem compareFrom_compares (va vb : List ℕ) (n : ℕ) : ∀ i,
    (∀ j < i, va.getD j 0 = vb.getD j 0) → (∀ j, i + n ≤ j → va.getD j 0 = vb.getD j 0) →
      (compareFrom va vb n i).Compares (toLex fun j => va.getD j 0 : Lex (ℕ → ℕ))
        (toLex fun j => vb.getD j 0) := by
  induction n with
  | zero =>
    intro i hlt hge
    refine congrArg toLex (funext fun j => ?_)
    exact (Nat.lt_or_ge j i).elim (hlt j) (hge j)
  | succ n ih =>
    intro i hlt hge
    rw [compareFrom]
    rcases hc : compare (va.getD i 0) (vb.getD i 0)
    · exact ⟨i, hlt, compare_lt_iff_lt.mp hc⟩
    · refine ih (i + 1) (fun j hj => ?_) fun j hj => hge j (by omega)
      rcases Nat.lt_succ_iff_lt_or_eq.mp hj with hj | rfl
      · exact hlt j hj
      · exact compare_eq_iff_eq.mp hc
    · exact ⟨i, fun j hj => (hlt j hj).symm, compare_gt_iff_gt.mp hc⟩

/-- Two versions compare as their keys do. -/
theorem compares : ∃ o, compareVersions v.text w.text scheme = some o ∧ o.Compares v.key w.key := by
  refine ⟨_, by rw [compareVersions, v.parsed, w.parsed]; rfl,
    compareFrom_compares _ _ _ _ (by simp) fun j hj => ?_⟩
  rw [getD_eq_default _ _ (by omega), getD_eq_default _ _ (by omega)]

theorem compareVersions_iff (o : Ordering) :
    compareVersions v.text w.text scheme = some o ↔ o.Compares v.key w.key := by
  obtain ⟨o', ho', hc⟩ := v.compares w
  rw [ho', Option.some_inj]
  exact ⟨fun h => h ▸ hc, fun h => hc.inj h⟩

instance : LE (Version scheme) where
  le v w := compareVersions v.text w.text scheme = some .lt ∨
    compareVersions v.text w.text scheme = some .eq

instance : DecidableLE (Version scheme) := fun _ _ => inferInstanceAs (Decidable (_ ∨ _))

theorem le_iff : v ≤ w ↔ v.key ≤ w.key := by
  rw [le_iff_lt_or_eq]
  exact or_congr (v.compareVersions_iff w .lt) (v.compareVersions_iff w .eq)

theorem key_eq_iff : v.key = w.key ↔
    ∃ m n, v.components ++ List.replicate m 0 = w.components ++ List.replicate n 0 := by
  have hz : ∀ (l : List ℕ) (m i : ℕ), (l ++ List.replicate m 0).getD i 0 = l.getD i 0 := by
    intro l m i
    rcases Nat.lt_or_ge i l.length with hi | hi
    · exact getD_append _ _ _ _ hi
    · rw [getD_append_right _ _ _ _ hi, getD_eq_default _ _ hi]
      simp only [getD_eq_getElem?_getD, List.getElem?_replicate]
      split <;> rfl
  constructor
  · intro h
    refine ⟨w.components.length - v.components.length, v.components.length - w.components.length,
      ext_getElem (by simp; omega) fun i h₁ h₂ => ?_⟩
    rw [← getD_eq_getElem _ 0 h₁, ← getD_eq_getElem _ 0 h₂, hz, hz]
    exact congrFun (toLex_inj.mp h) i
  · rintro ⟨m, n, h⟩
    refine congrArg toLex (funext fun i => ?_)
    rw [← hz _ m, h, hz]

theorem inRange_iff (min max : Option (Version scheme)) :
    inRange v.text (min.map text) (max.map text) scheme ↔
      (∀ lo ∈ min, lo.key ≤ v.key) ∧ ∀ hi ∈ max, v.key < hi.key := by
  have hlo : ∀ lo : Version scheme, (compareVersions v.text lo.text scheme = some .gt ∨
      compareVersions v.text lo.text scheme = some .eq ∨ lo.text = v.text) ↔ lo.key ≤ v.key := by
    intro lo
    rw [v.compareVersions_iff lo, v.compareVersions_iff lo, le_iff_lt_or_eq]
    have ht : lo.text = v.text → lo.key = v.key := by
      intro h
      have hp := lo.parsed
      rw [h, v.parsed, Option.some_inj] at hp
      rw [key, key, hp]
    exact or_congr Iff.rfl ⟨fun h => h.elim Eq.symm ht, fun h => .inl h.symm⟩
  have hhi : ∀ hi : Version scheme, compareVersions v.text hi.text scheme = some .lt ↔
      v.key < hi.key := fun hi => v.compareVersions_iff hi .lt
  cases min <;> cases max <;> simp [inRange, v.parsed, hlo, hhi]

/-- The bound before `bounds[i]`. -/
def lowerBound (bounds : List (Version scheme)) : ℕ → Option (Version scheme)
  | 0 => none
  | i + 1 => bounds[i]?

/-- The ranges that bounds cut out: one below each bound, and one above them all. -/
def InPart (bounds : List (Version scheme)) (i : ℕ) : Prop :=
  i ≤ bounds.length ∧
    inRange v.text ((lowerBound bounds i).map text) (bounds[i]?.map text) scheme

variable {v} {bounds : List (Version scheme)} {i j : ℕ}

theorem exists_inPart (v : Version scheme) (bounds : List (Version scheme)) :
    ∃ i, v.InPart bounds i := by
  -- The first bound above the version ends the range it is in.
  let above : Version scheme → Bool := fun b => compareVersions v.text b.text scheme = some .lt
  have habove : ∀ b, above b ↔ v.key < b.key := fun b =>
    decide_eq_true_iff.trans (v.compareVersions_iff b .lt)
  refine ⟨bounds.findIdx above, findIdx_le_length,
    (v.inRange_iff _ _).mpr ⟨fun lo hlo => ?_, fun hi hhi => ?_⟩⟩
  · cases hf : bounds.findIdx above with
    | zero =>
      rw [hf] at hlo
      cases hlo
    | succ i =>
      rw [hf] at hlo
      obtain ⟨hl, rfl⟩ := List.getElem?_eq_some_iff.mp hlo
      have hn := not_of_lt_findIdx (show i < bounds.findIdx above by omega)
      exact not_lt.mp fun h => Bool.eq_false_iff.mp hn ((habove _).mpr h)
  · obtain ⟨hl, rfl⟩ := List.getElem?_eq_some_iff.mp hhi
    exact (habove _).mp (findIdx_getElem (w := hl))

theorem InPart.not_lt (hb : bounds.Pairwise (· ≤ ·)) (hi : v.InPart bounds i)
    (hj : v.InPart bounds j) : ¬ i < j := by
  intro hij
  obtain ⟨j, rfl⟩ := Nat.exists_eq_add_of_lt hij
  have hl : i + j < bounds.length := hj.1
  have hlow := ((v.inRange_iff _ _).mp hj.2).1 _ (List.getElem?_eq_getElem hl)
  have hhigh := ((v.inRange_iff _ _).mp hi.2).2 _ (List.getElem?_eq_getElem (by omega))
  have hle : bounds[i].key ≤ bounds[i + j].key := by
    rcases j with _ | j
    · exact le_rfl
    · exact (le_iff _ _).mp (pairwise_iff_getElem.mp hb _ _ _ _ (by omega))
  exact absurd (hhigh.trans_le hle) hlow.not_gt

end Version

/-- Versions are totally preordered, equal where only zeros at the end differ,
and every version is in exactly one of the ranges that bounds in order cut out. -/
theorem versions_ordered (scheme : VersionScheme) :
    (∀ v w : Version scheme, v ≤ w ∨ w ≤ v) ∧
    (∀ v w : Version scheme, compareVersions w.text v.text scheme =
      (compareVersions v.text w.text scheme).map Ordering.swap) ∧
    (∀ u v w : Version scheme, u ≤ v → v ≤ w → u ≤ w) ∧
    (∀ v w : Version scheme, compareVersions v.text w.text scheme = some .eq ↔
      ∃ m n, v.components ++ List.replicate m 0 = w.components ++ List.replicate n 0) ∧
    ∀ bounds : List (Version scheme), bounds.Pairwise (· ≤ ·) → ∀ v : Version scheme,
      ∃! i, v.InPart bounds i := by
  refine ⟨fun v w => ?_, fun v w => ?_, fun u v w => ?_, fun v w => ?_, fun bounds hb v => ?_⟩
  · simp only [Version.le_iff]
    exact le_total _ _
  · obtain ⟨o, ho, hc⟩ := v.compares w
    rw [ho]
    exact (w.compareVersions_iff v _).mpr (Ordering.compares_swap.mpr hc)
  · simp only [Version.le_iff]
    exact le_trans
  · rw [v.compareVersions_iff w, ← v.key_eq_iff w]
    rfl
  · obtain ⟨i, hi⟩ := v.exists_inPart bounds
    exact ⟨i, hi, fun j hj =>
      le_antisymm (not_lt.mp (hi.not_lt hb hj)) (not_lt.mp (hj.not_lt hb hi))⟩

theorem versions_ordered_bounds :
    ∃! i, (⟨"1.10".toList, [1, 10], by decide⟩ : Version .dottedInt).InPart
    [⟨"1.2".toList, [1, 2], by decide⟩, ⟨"2".toList, [2], by decide⟩,
      ⟨"2.0".toList, [2, 0], by decide⟩] i :=
  (versions_ordered .dottedInt).2.2.2.2 _ (by decide) _

end Ptpsim.Config
