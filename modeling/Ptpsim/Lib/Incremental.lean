/-
# Parsers that are rerun on a growing buffer

A reader that does not know where a message ends collects what comes in and
runs its parser on all of it after every read. How the input was cut into reads
cannot be seen in the result if a verdict on a buffer is the verdict on every
longer buffer, up to the limit of what may be buffered, and a full buffer gets
one (`IsFinal`): the verdict is then the one on the first `limit` elements of
the stream.

The end of a message head is found by searching for a pattern (`position`).
-/
import Mathlib.Data.List.Basic
import Mathlib.Data.List.Infix

namespace Ptpsim.Incremental

open List Option

variable {α ε β : Type}

/-- The verdicts of a parser are final up to a limit, and a buffer of that
size gets one. -/
structure IsFinal (parse : List α → Except ε (Option β)) (limit : ℕ) : Prop where
  append : ∀ p q, (p ++ q).length ≤ limit → parse p ≠ .ok none → parse (p ++ q) = parse p
  full : ∀ p, p.length = limit → parse p ≠ .ok none

namespace IsFinal

variable {parse : List α → Except ε (Option β)} {limit : ℕ}

/-- A verdict on a beginning that may be buffered is the verdict on the
stream. -/
theorem take_limit (h : IsFinal parse limit) {p : List α} (hp : p.length ≤ limit)
    (hv : parse p ≠ .ok none) (q : List α) : parse ((p ++ q).take limit) = parse p := by
  rw [take_append, take_of_length_le hp]
  refine h.append p _ ?_ hv
  rw [length_append, length_take]
  omega

/-- What follows a stream that has got a verdict does not change it. -/
theorem take_append (h : IsFinal parse limit) {p : List α}
    (hv : parse (p.take limit) ≠ .ok none) (q : List α) :
    parse ((p ++ q).take limit) = parse (p.take limit) := by
  have hcut : p ++ q = p.take limit ++ (p.drop limit ++ q) := by
    rw [← append_assoc, take_append_drop]
  rw [hcut]
  exact h.take_limit (length_take_le limit p) hv _

theorem length_lt (h : IsFinal parse limit) {p : List α} (hp : p.length ≤ limit)
    (hm : parse p = .ok none) : p.length < limit := by
  rcases Nat.lt_or_eq_of_le hp with hlt | heq
  · exact hlt
  · exact absurd hm (h.full p heq)

end IsFinal

/-! ### Searching for a pattern -/

variable [DecidableEq α]

/-- Where the pattern first stands in a list. -/
def position (pattern : List α) : List α → Option ℕ
  | [] => if pattern = [] then some 0 else none
  | x :: xs => if pattern <+: x :: xs then some 0 else (position pattern xs).map (· + 1)

theorem position_le {pattern : List α} : ∀ {xs : List α} {i : ℕ}, position pattern xs = some i →
    i + pattern.length ≤ xs.length
  | [], i, h => by
    by_cases hnil : pattern = []
    · simp only [position, hnil, if_true, Option.some.injEq] at h
      simp [hnil, ← h]
    · simp [position, hnil] at h
  | x :: xs, i, h => by
    by_cases hh : pattern <+: x :: xs
    · simp only [position, if_pos hh, Option.some.injEq] at h
      rw [← h, Nat.zero_add]
      exact hh.length_le
    · simp only [position, if_neg hh, map_eq_some_iff] at h
      obtain ⟨j, hj, rfl⟩ := h
      have := position_le hj
      rw [length_cons]
      omega

/-- A pattern that has been found is found at the same place in a longer
list. -/
theorem position_append {pattern : List α} (hne : pattern ≠ []) : ∀ {xs : List α} {i : ℕ},
    position pattern xs = some i → ∀ ys, position pattern (xs ++ ys) = some i
  | [], i, h, ys => by simp [position, hne] at h
  | x :: xs, i, h, ys => by
    rw [cons_append, position]
    by_cases hh : pattern <+: x :: xs
    · have hl : pattern <+: x :: (xs ++ ys) := hh.trans (prefix_append (x :: xs) ys)
      rw [if_pos hl]
      simpa [position, if_pos hh] using h
    · simp only [position, if_neg hh, map_eq_some_iff] at h
      obtain ⟨j, hj, rfl⟩ := h
      have hnot : ¬ pattern <+: x :: (xs ++ ys) := by
        -- the pattern fits into `xs`, so it would stand at the front of `x :: xs`
        intro hl
        have hle := position_le hj
        refine hh (prefix_of_prefix_length_le hl (prefix_append (x :: xs) ys) ?_)
        rw [length_cons]
        omega
      rw [if_neg hnot, position_append hne hj ys]
      rfl

/-- A pattern that was not there can only come in across the end. -/
theorem position_append_of_none {pattern : List α} : ∀ {xs : List α},
    position pattern xs = none → ∀ {ys : List α} {i : ℕ}, position pattern (xs ++ ys) = some i →
    xs.length < i + pattern.length
  | [], h, ys, i, _ => by
    have hne : pattern ≠ [] := by
      rintro rfl
      simp [position] at h
    have := length_pos_iff.mpr hne
    rw [length_nil]
    omega
  | x :: xs, h, ys, i, hi => by
    have hnot : ¬ pattern <+: x :: xs := by
      intro hh
      simp [position, hh] at h
    rw [cons_append, position] at hi
    by_cases hl : pattern <+: x :: (xs ++ ys)
    · rw [if_pos hl, Option.some.injEq] at hi
      rw [← hi, Nat.zero_add]
      by_contra hle
      exact hnot (prefix_of_prefix_length_le hl (prefix_append (x :: xs) ys) (Nat.not_lt.mp hle))
    · rw [if_neg hl, map_eq_some_iff] at hi
      obtain ⟨j, hj, rfl⟩ := hi
      rw [position, if_neg hnot, map_eq_none_iff] at h
      have := position_append_of_none h hj
      rw [length_cons]
      omega

end Ptpsim.Incremental
