/-
# Merging half-open ranges

Ranges `[a, b)` over a linear order, kept as a list in which every range
starts strictly after the end of the one before (`Normal`). `merge` brings a
list sorted by its starts into that form in one pass, extending the last range
or starting a new one, and `add` puts one more range into a normal list by
sorting it in and merging again. Neither changes the points that are covered
(`cover_merge`, `cover_add`).

In a normal list the gaps are real: whether `[lo, hi)` is covered can be read
off the first range alone (`Ico_subset_cover_iff`).
-/
import Mathlib.Data.List.Sort
import Mathlib.Data.Prod.Lex
import Mathlib.Order.Interval.Set.LinearOrder

namespace Ptpsim.Coverage

open List

variable {α : Type} [LinearOrder α]

/-- The points of the ranges. -/
def cover (rs : List (α × α)) : Set α := {x | ∃ r ∈ rs, x ∈ Set.Ico r.1 r.2}

/-- The ranges are not empty, and each starts strictly after the one before
has ended. -/
structure Normal (rs : List (α × α)) : Prop where
  nonempty : ∀ r ∈ rs, r.1 < r.2
  apart : rs.Pairwise fun r s => r.2 < s.1

/-- The order of the ranges as pairs. -/
def Before (r s : α × α) : Prop := toLex r ≤ toLex s

instance : DecidableRel (Before (α := α)) :=
  fun r s => inferInstanceAs (Decidable (toLex r ≤ toLex s))

instance : Std.Total (Before (α := α)) := ⟨fun r s => le_total (toLex r) (toLex s)⟩

instance : IsTrans (α × α) Before := ⟨fun _ _ _ => le_trans⟩

variable {r : α × α} {rs : List (α × α)}

theorem Before.start_le {s : α × α} (h : Before r s) : r.1 ≤ s.1 := by
  rcases Prod.Lex.le_iff.mp h with h | h
  · exact le_of_lt h
  · exact le_of_eq h.1

/-- One pass over ranges sorted by their starts, `last` being the range that
is still open. -/
def mergeInto (last : α × α) : List (α × α) → List (α × α)
  | [] => [last]
  | r :: rs =>
    if r.1 ≤ last.2 then mergeInto (last.1, max last.2 r.2) rs else last :: mergeInto r rs

def merge : List (α × α) → List (α × α)
  | [] => []
  | r :: rs => mergeInto r rs

/-- The ranges with one more. -/
def add (rs : List (α × α)) (r : α × α) : List (α × α) :=
  merge ((rs ++ [r]).insertionSort Before)

/-! ### The covered points -/

@[simp] theorem cover_nil : cover ([] : List (α × α)) = ∅ := by
  simp [cover]

variable (r rs) in
@[simp] theorem cover_cons : cover (r :: rs) = Set.Ico r.1 r.2 ∪ cover rs := by
  ext x
  simp [cover]

theorem cover_append (rs ss : List (α × α)) : cover (rs ++ ss) = cover rs ∪ cover ss := by
  induction rs with
  | nil => simp
  | cons r rs ih => rw [cons_append, cover_cons, cover_cons, ih, Set.union_assoc]

theorem cover_perm {ss : List (α × α)} (h : rs.Perm ss) : cover rs = cover ss := by
  simp only [cover, h.mem_iff]

theorem cover_mergeInto (rs : List (α × α)) (last : α × α) (hl : last.1 ≤ last.2)
    (hso : ∀ r ∈ rs, last.1 ≤ r.1) (hrs : rs.Pairwise fun r s => r.1 ≤ s.1)
    (hne : ∀ r ∈ rs, r.1 ≤ r.2) :
    cover (mergeInto last rs) = Set.Ico last.1 last.2 ∪ cover rs := by
  induction rs generalizing last with
  | nil => rw [mergeInto, cover_cons]
  | cons r rs ih =>
    obtain ⟨hr, hrs⟩ := pairwise_cons.mp hrs
    have hlr : last.1 ≤ r.1 := hso r mem_cons_self
    have hr2 : r.1 ≤ r.2 := hne r mem_cons_self
    have hne' : ∀ s ∈ rs, s.1 ≤ s.2 := fun s hs => hne s (mem_cons_of_mem r hs)
    rw [mergeInto, cover_cons]
    split
    · -- the range starts inside the open one or where it ends
      rename_i hle
      have hext : Set.Ico last.1 (max last.2 r.2) = Set.Ico last.1 last.2 ∪ Set.Ico r.1 r.2 := by
        rw [Set.Ico_union_Ico' hle (le_trans hlr hr2), min_eq_left hlr]
      rw [ih (last.1, max last.2 r.2) (le_trans hl (le_max_left _ _))
        (fun s hs => hso s (mem_cons_of_mem r hs)) hrs hne', hext, Set.union_assoc]
    · rw [cover_cons, ih r hr2 hr hrs hne']

theorem cover_merge (rs : List (α × α)) (hrs : rs.Pairwise fun r s => r.1 ≤ s.1)
    (hne : ∀ r ∈ rs, r.1 ≤ r.2) : cover (merge rs) = cover rs := by
  cases rs with
  | nil => rfl
  | cons r rs =>
    obtain ⟨hr, hrs⟩ := pairwise_cons.mp hrs
    rw [merge, cover_mergeInto rs r (hne r mem_cons_self) hr hrs
      (fun s hs => hne s (mem_cons_of_mem r hs)), cover_cons]

/-! ### The normal form -/

theorem start_mergeInto (rs : List (α × α)) (last : α × α) (hso : ∀ r ∈ rs, last.1 ≤ r.1)
    (hrs : rs.Pairwise fun r s => r.1 ≤ s.1) :
    ∀ m ∈ mergeInto last rs, last.1 ≤ m.1 := by
  induction rs generalizing last with
  | nil => simp [mergeInto]
  | cons r rs ih =>
    obtain ⟨hr, hrs⟩ := pairwise_cons.mp hrs
    rw [mergeInto]
    split
    · exact ih _ (fun s hs => hso s (mem_cons_of_mem r hs)) hrs
    · intro m hm
      rcases mem_cons.mp hm with rfl | hm
      · exact le_rfl
      · exact le_trans (hso r mem_cons_self) (ih r hr hrs m hm)

theorem Normal.mergeInto (rs : List (α × α)) (last : α × α) (hl : last.1 < last.2)
    (hso : ∀ r ∈ rs, last.1 ≤ r.1) (hrs : rs.Pairwise fun r s => r.1 ≤ s.1)
    (hne : ∀ r ∈ rs, r.1 < r.2) : Normal (mergeInto last rs) := by
  induction rs generalizing last with
  | nil => exact ⟨by simpa [Coverage.mergeInto] using hl, by simp [Coverage.mergeInto]⟩
  | cons r rs ih =>
    obtain ⟨hr, hrs⟩ := pairwise_cons.mp hrs
    have hne' : ∀ s ∈ rs, s.1 < s.2 := fun s hs => hne s (mem_cons_of_mem r hs)
    rw [Coverage.mergeInto]
    split
    · exact ih _ (lt_of_lt_of_le hl (le_max_left _ _))
        (fun s hs => hso s (mem_cons_of_mem r hs)) hrs hne'
    · rename_i hgt
      have hn := ih r (hne r mem_cons_self) hr hrs hne'
      refine ⟨fun m hm => ?_, pairwise_cons.mpr ⟨fun m hm => ?_, hn.apart⟩⟩
      · rcases mem_cons.mp hm with rfl | hm
        · exact hl
        · exact hn.nonempty m hm
      · exact lt_of_lt_of_le (not_le.mp hgt) (start_mergeInto rs r hr hrs m hm)

theorem Normal.merge (rs : List (α × α)) (hrs : rs.Pairwise fun r s => r.1 ≤ s.1)
    (hne : ∀ r ∈ rs, r.1 < r.2) : Normal (merge rs) := by
  cases rs with
  | nil => exact ⟨by simp [Coverage.merge], by simp [Coverage.merge]⟩
  | cons r rs =>
    obtain ⟨hr, hrs⟩ := pairwise_cons.mp hrs
    exact Normal.mergeInto rs r (hne r mem_cons_self) hr hrs
      (fun s hs => hne s (mem_cons_of_mem r hs))

theorem Normal.nil : Normal ([] : List (α × α)) := ⟨by simp, by simp⟩

theorem sorted_starts (rs : List (α × α)) :
    (rs.insertionSort Before).Pairwise fun r s => r.1 ≤ s.1 :=
  (pairwise_insertionSort Before rs).imp Before.start_le

theorem mem_sorted {s : α × α} (h : s ∈ (rs ++ [r]).insertionSort Before) : s ∈ rs ∨ s = r := by
  have := (perm_insertionSort Before (rs ++ [r])).mem_iff.mp h
  simpa using this

theorem nonempty_sorted (h : Normal rs) (hr : r.1 < r.2) :
    ∀ s ∈ (rs ++ [r]).insertionSort Before, s.1 < s.2 := by
  intro s hs
  rcases mem_sorted hs with hs | rfl
  · exact h.nonempty s hs
  · exact hr

theorem Normal.add (h : Normal rs) (hr : r.1 < r.2) :
    Normal (add rs r) :=
  Normal.merge _ (sorted_starts _) (nonempty_sorted h hr)

theorem cover_add (h : Normal rs) (hr : r.1 < r.2) :
    cover (add rs r) = cover rs ∪ Set.Ico r.1 r.2 := by
  calc cover (add rs r) = cover ((rs ++ [r]).insertionSort Before) :=
        cover_merge _ (sorted_starts _) fun s hs => le_of_lt (nonempty_sorted h hr s hs)
    _ = cover (rs ++ [r]) := cover_perm (perm_insertionSort Before _)
    _ = cover rs ∪ Set.Ico r.1 r.2 := by rw [cover_append, cover_cons, cover_nil, Set.union_empty]

/-- **One range decides.** Among ranges that start at `lo` or later, `[lo, hi)`
is covered if and only if the first range starts at `lo` and reaches `hi`. -/
theorem Ico_subset_cover_iff {lo hi : α} (h : Normal rs)
    (hlo : ∀ r ∈ rs, lo ≤ r.1) (hlt : lo < hi) :
    Set.Ico lo hi ⊆ cover rs ↔ ∃ r, rs.head? = some r ∧ r.1 = lo ∧ hi ≤ r.2 := by
  cases rs with
  | nil =>
    simp only [cover_nil, List.head?_nil, reduceCtorEq, false_and, exists_false, iff_false]
    intro hsub
    exact hsub ⟨le_rfl, hlt⟩
  | cons r rs =>
    obtain ⟨ha, -⟩ := pairwise_cons.mp h.apart
    simp only [List.head?_cons, Option.some.injEq, exists_eq_left']
    constructor
    · intro hsub
      -- a point that is not in the first range lies in one that starts later
      have hf : ∀ x, lo ≤ x → x < hi → x ≤ r.2 → r.1 ≤ x ∧ x < r.2 := by
        intro x hx1 hx2 hxr
        rw [cover_cons] at hsub
        rcases hsub ⟨hx1, hx2⟩ with hx | ⟨s, hs, hsx, -⟩
        · exact hx
        · exact absurd (lt_of_lt_of_le (ha s hs) hsx) (not_lt.mpr hxr)
      have hr : r.1 < r.2 := h.nonempty r mem_cons_self
      have hle : lo ≤ r.2 := le_trans (hlo r mem_cons_self) (le_of_lt hr)
      have hst : r.1 = lo := le_antisymm (hf lo le_rfl hlt hle).1 (hlo r mem_cons_self)
      refine ⟨hst, ?_⟩
      by_contra hgt
      exact lt_irrefl r.2 (hf r.2 hle (not_le.mp hgt) le_rfl).2
    · rintro ⟨rfl, hhi⟩ x ⟨hx1, hx2⟩
      rw [cover_cons]
      exact .inl ⟨hx1, lt_of_lt_of_le hx2 hhi⟩

end Ptpsim.Coverage
