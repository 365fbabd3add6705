/-
# Matching a history against a sequence of steps

A history is a list of inputs, oldest first; a step says which inputs fit it.
A history ends with a sequence if its last inputs fit the steps one by one
(`EndsWith`), and contains it if some stretch of consecutive inputs does
(`Contains`). A matcher that follows a sequence counts the prefixes it ends with
(`endsWith_take_succ`).

A follower that only keeps the number of steps it has seen finds the
occurrences from left to right, as long as no match that breaks off holds the
beginning of another one (`completions_eq_iff`).
-/
import Mathlib.Data.List.Forall2
import Mathlib.Data.List.Infix

namespace Ptpsim.SequenceMatch

open List Option

variable {μ ι : Type} (fits : μ → ι → Bool)

/-- The inputs fit the steps one by one. -/
def Matches (steps : List μ) (xs : List ι) : Prop :=
  List.Forall₂ (fun m x => fits m x = true) steps xs

/-- The last inputs of the history fit the steps. -/
def EndsWith (hist : List ι) (steps : List μ) : Prop :=
  ∃ old xs, hist = old ++ xs ∧ Matches fits steps xs

/-- Some consecutive inputs of the history fit the steps. -/
def Contains (hist : List ι) (steps : List μ) : Prop :=
  ∃ old xs new, hist = old ++ xs ++ new ∧ Matches fits steps xs

instance (steps : List μ) (xs : List ι) : Decidable (Matches fits steps xs) :=
  inferInstanceAs (Decidable (List.Forall₂ _ steps xs))

instance (hist : List ι) (steps : List μ) : Decidable (EndsWith fits hist steps) :=
  decidable_of_iff (∃ xs ∈ hist.tails, Matches fits steps xs) <| by
    simp only [mem_tails, EndsWith, List.IsSuffix]
    constructor
    · rintro ⟨xs, ⟨old, rfl⟩, hm⟩
      exact ⟨old, xs, rfl, hm⟩
    · rintro ⟨old, xs, rfl, hm⟩
      exact ⟨xs, ⟨old, rfl⟩, hm⟩

instance (hist : List ι) (steps : List μ) : Decidable (Contains fits hist steps) :=
  decidable_of_iff (∃ h ∈ hist.inits, EndsWith fits h steps) <| by
    simp only [mem_inits, EndsWith, Contains, List.IsPrefix]
    constructor
    · rintro ⟨h, ⟨new, rfl⟩, old, xs, rfl, hm⟩
      exact ⟨old, xs, new, rfl, hm⟩
    · rintro ⟨old, xs, new, rfl, hm⟩
      exact ⟨old ++ xs, ⟨new, rfl⟩, old, xs, rfl, hm⟩

variable {fits}

theorem EndsWith.nil (hist : List ι) : EndsWith fits hist [] :=
  ⟨hist, [], (append_nil hist).symm, .nil⟩

variable {hist : List ι} {steps : List μ}

/-- A history ends with one more step exactly when it ended with the others
and the last input fits the step. -/
theorem endsWith_concat {x : ι} {m : μ} :
    EndsWith fits (hist ++ [x]) (steps ++ [m]) ↔ EndsWith fits hist steps ∧ fits m x = true := by
  constructor
  · rintro ⟨old, xs, hxs, hm⟩
    -- read from the right, the last input stands against the last step
    rw [Matches, ← forall₂_reverse_iff, reverse_concat] at hm
    obtain ⟨y, ys, hy, hys, hrev⟩ := forall₂_cons_left_iff.mp hm
    rw [reverse_eq_cons_iff] at hrev
    rw [hrev, ← append_assoc] at hxs
    obtain ⟨rfl, hx⟩ := append_inj' hxs rfl
    cases hx
    refine ⟨⟨old, ys.reverse, rfl, ?_⟩, hy⟩
    rwa [Matches, ← forall₂_reverse_iff, reverse_reverse]
  · rintro ⟨⟨old, xs, rfl, hm⟩, hx⟩
    exact ⟨old, xs ++ [x], append_assoc .., rel_append hm (.cons hx .nil)⟩

theorem endsWith_take_succ {x : ι} {k : ℕ} {m : μ} (hm : steps[k]? = some m) :
    EndsWith fits (hist ++ [x]) (steps.take (k + 1)) ↔
      EndsWith fits hist (steps.take k) ∧ fits m x = true := by
  rw [take_add_one, hm, toList_some, endsWith_concat]

theorem endsWith_nil_iff : EndsWith fits [] steps ↔ steps = [] := by
  constructor
  · rintro ⟨old, xs, h, hm⟩
    obtain ⟨-, rfl⟩ := append_eq_nil_iff.mp h.symm
    exact forall₂_nil_right_iff.mp hm
  · rintro rfl
    exact .nil []

theorem EndsWith.contains (h : EndsWith fits hist steps) :
    Contains fits hist steps := by
  obtain ⟨old, xs, rfl, hm⟩ := h
  exact ⟨old, xs, [], (append_nil _).symm, hm⟩

theorem Contains.append (h : Contains fits hist steps) (more : List ι) :
    Contains fits (hist ++ more) steps := by
  obtain ⟨old, xs, new, rfl, hm⟩ := h
  exact ⟨old, xs, new ++ more, append_assoc .., hm⟩

/-! ### Following a sequence -/

section Following

variable (fits) (steps : List μ)

/-- Reading from left to right, an input is marked if the inputs since the
last mark end with the steps. -/
def occurrences : List ι → List ι → List Bool
  | _, [] => []
  | since, x :: xs =>
    if EndsWith fits (since ++ [x]) steps then true :: occurrences [] xs
    else false :: occurrences (since ++ [x]) xs

/-- The steps followed after one more input. A miss starts the sequence over,
with this input or without it. -/
def follow (progress : ℕ) (x : ι) : ℕ :=
  if (steps[progress]?).any (fits · x) then progress + 1
  else if steps.head?.any (fits · x) then 1 else 0

/-- The inputs with which a follower comes to the end of the sequence. -/
def completions : ℕ → List ι → List Bool
  | _, [] => []
  | progress, x :: xs =>
    if steps.length ≤ follow fits steps progress x then true :: completions 0 xs
    else false :: completions (follow fits steps progress x) xs

/-- A match of the first steps that breaks off at an input `x` can hold the
beginning of another one, which goes on with `x`. -/
def Overlaps : Prop :=
  ∃ w x ys m, Matches fits (steps.take w.length) w ∧ steps[w.length]? = some m ∧ fits m x = false ∧
    ys.length + 2 ≤ steps.length ∧ EndsWith fits (w ++ x :: ys) steps

end Following

variable {steps : List μ} {since w : List ι} {x : ι} {p : ℕ}

theorem EndsWith.append {later : List μ} {ys : List ι} (h : EndsWith fits since steps)
    (hl : Matches fits later ys) : EndsWith fits (since ++ ys) (steps ++ later) := by
  obtain ⟨old, xs, rfl, hm⟩ := h
  exact ⟨old, xs ++ ys, append_assoc .., rel_append hm hl⟩

theorem EndsWith.of_append {old : List ι} (h : EndsWith fits (old ++ w) steps)
    (hl : steps.length ≤ w.length) : EndsWith fits w steps := by
  obtain ⟨old', xs, hs, hm⟩ := h
  have hxs : xs.length = steps.length := hm.length_eq.symm
  have hsu : xs <:+ w := suffix_of_suffix_length_le ⟨old', hs.symm⟩ (suffix_append old w) (by omega)
  obtain ⟨front, rfl⟩ := hsu
  exact ⟨front, xs, rfl, hm⟩

/-- The inputs end with the first `p` steps, and if the sequence can be matched
at all, with no longer beginning of it. -/
structure Tracks (fits : μ → ι → Bool) (steps : List μ) (since : List ι) (p : ℕ) : Prop where
  bound : p ≤ steps.length
  ends : EndsWith fits since (steps.take p)
  longest : (∃ ys, Matches fits steps ys) →
    ∀ k ≤ steps.length, EndsWith fits since (steps.take k) → k ≤ p

theorem tracks_nil : Tracks fits steps [] 0 where
  bound := Nat.zero_le _
  ends := .nil []
  longest _ k hk he := by
    rw [endsWith_nil_iff, take_eq_nil_iff] at he
    rcases he with rfl | rfl
    · exact le_rfl
    · exact hk

theorem endsWith_take_concat {k : ℕ} (hk : k < steps.length) :
    EndsWith fits (since ++ [x]) (steps.take (k + 1)) ↔
      EndsWith fits since (steps.take k) ∧ (steps[k]?).any (fits · x) = true := by
  have hm : steps[k]? = some steps[k] := List.getElem?_eq_getElem hk
  rw [endsWith_take_succ hm, hm, any_some]

theorem Tracks.follow (hno : ¬ Overlaps fits steps) (h : Tracks fits steps since p)
    (hp : p < steps.length) : Tracks fits steps (since ++ [x]) (follow fits steps p x) := by
  by_cases hn : (steps[p]?).any (fits · x) = true
  · rw [SequenceMatch.follow, if_pos hn]
    refine ⟨hp, (endsWith_take_concat hp).mpr ⟨h.ends, hn⟩, fun hs k hk he => ?_⟩
    cases k with
    | zero => exact Nat.zero_le _
    | succ k =>
      exact Nat.succ_le_succ (h.longest hs k (by omega) ((endsWith_take_concat hk).mp he).1)
  · have hlo : (∃ ys, Matches fits steps ys) → ∀ k < steps.length,
        EndsWith fits (since ++ [x]) (steps.take (k + 1)) → k = 0 := by
      rintro ⟨ys, hys⟩ k hk he
      by_contra hne
      obtain ⟨hb, hfi⟩ := (endsWith_take_concat hk).mp he
      have hkp : k ≠ p := by
        rintro rfl
        exact hn hfi
      have hle := h.longest ⟨ys, hys⟩ k hk.le hb
      -- the match that breaks off holds the longer one, which could be completed
      obtain ⟨old, w, rfl, hw⟩ := h.ends
      have hl : w.length = p := by
        rw [← hw.length_eq, length_take]
        omega
      rw [append_assoc] at he
      have hi : EndsWith fits (w ++ [x]) (steps.take (k + 1)) :=
        he.of_append (by simp only [length_take, length_append, hl]; omega)
      have hwh := hi.append (forall₂_drop (k + 1) hys)
      rw [take_append_drop, append_assoc] at hwh
      have hla : ys.length = steps.length := hys.length_eq.symm
      refine hno ⟨w, x, ys.drop (k + 1), steps[p], by rwa [hl], ?_, ?_, ?_, hwh⟩
      · rw [hl, List.getElem?_eq_getElem hp]
      · rw [List.getElem?_eq_getElem hp, any_some] at hn
        simpa using hn
      · rw [length_drop]
        omega
    rw [SequenceMatch.follow, if_neg hn, List.head?_eq_getElem?]
    by_cases hf : (steps[0]?).any (fits · x) = true
    · rw [if_pos hf]
      refine ⟨by omega, (endsWith_take_concat (by omega)).mpr ⟨.nil since, hf⟩, ?_⟩
      intro hs k hk he
      cases k with
      | zero => exact Nat.zero_le _
      | succ k => exact Nat.succ_le_succ (hlo hs k hk he).le
    · rw [if_neg hf]
      refine ⟨Nat.zero_le _, .nil _, fun hs k hk he => ?_⟩
      cases k with
      | zero => exact le_rfl
      | succ k =>
        obtain rfl := hlo hs k hk he
        exact absurd ((endsWith_take_concat hk).mp he).2 hf

/-- The follower finds every occurrence. -/
theorem completions_eq_occurrences (hne : steps ≠ []) (hno : ¬ Overlaps fits steps) :
    ∀ (xs since : List ι) (p : ℕ), p < steps.length → Tracks fits steps since p →
      completions fits steps p xs = occurrences fits steps since xs
  | [], _, _, _, _ => rfl
  | x :: xs, since, p, hp, h => by
    have hn := h.follow (x := x) hno hp
    unfold completions occurrences
    by_cases hend : steps.length ≤ follow fits steps p x
    · have he : EndsWith fits (since ++ [x]) steps := by
        have he := hn.ends
        rwa [take_of_length_le hend] at he
      rw [if_pos hend, if_pos he, completions_eq_occurrences hne hno xs [] 0
        (length_pos_iff.mpr hne) tracks_nil]
    · have he : ¬ EndsWith fits (since ++ [x]) steps := by
        intro he
        have hs : ∃ ys, Matches fits steps ys := by
          obtain ⟨-, ys, -, hys⟩ := he
          exact ⟨ys, hys⟩
        exact hend (hn.longest hs _ le_rfl (by rwa [take_length]))
      rw [if_neg hend, if_neg he, completions_eq_occurrences hne hno xs _ _ (by omega) hn]

/-! An overlap is missed. -/

theorem follow_le (p : ℕ) (x : ι) : follow fits steps p x ≤ p + 1 := by
  unfold follow
  split_ifs <;> omega

theorem not_mem_completions : ∀ (ys : List ι) (p : ℕ), p + ys.length < steps.length →
    true ∉ completions fits steps p ys
  | [], _, _ => not_mem_nil
  | y :: ys, p, h => by
    rw [length_cons] at h
    have hle : follow fits steps p y ≤ p + 1 := follow_le p y
    rw [completions, if_neg (by omega), mem_cons]
    exact not_or.mpr ⟨Bool.false_ne_true.symm, not_mem_completions ys _ (by omega)⟩

theorem completions_match (rest : List ι) : ∀ (w : List ι) (p : ℕ), p + w.length < steps.length →
    Matches fits ((steps.drop p).take w.length) w →
    completions fits steps p (w ++ rest) =
      w.map (fun _ => false) ++ completions fits steps (p + w.length) rest
  | [], p, _, _ => rfl
  | x :: w, p, h, hm => by
    rw [length_cons] at h hm
    have hp : p < steps.length := by omega
    rw [drop_eq_getElem_cons hp, take_succ_cons] at hm
    obtain ⟨hx, hw⟩ := forall₂_cons.mp hm
    have hn : follow fits steps p x = p + 1 := by
      rw [follow, List.getElem?_eq_getElem hp, any_some, if_pos hx]
    rw [cons_append, completions, hn, if_neg (by omega),
      completions_match rest w (p + 1) (by omega) hw, length_cons]
    congr 3
    omega

theorem mem_occurrences : ∀ (xs since : List ι), xs ≠ [] → EndsWith fits (since ++ xs) steps →
    true ∈ occurrences fits steps since xs
  | [], _, hne, _ => absurd rfl hne
  | x :: xs, since, _, h => by
    unfold occurrences
    split
    · exact mem_cons_self
    case isFalse hnot =>
      refine mem_cons_of_mem _ (mem_occurrences xs _ ?_ ?_)
      · rintro rfl
        exact hnot h
      · rwa [append_assoc]

/-- The follower marks the ends of the occurrences just if no match that breaks
off holds the beginning of another one. -/
theorem completions_eq_iff (hne : steps ≠ []) :
    (∀ xs, completions fits steps 0 xs = occurrences fits steps [] xs) ↔ ¬ Overlaps fits steps := by
  refine ⟨?_, fun hno xs => completions_eq_occurrences hne hno xs [] 0
    (length_pos_iff.mpr hne) tracks_nil⟩
  rintro h ⟨w, x, ys, m, hw, hm, hx, hys, he⟩
  have hs : w.length < steps.length := (List.getElem?_eq_some_iff.mp hm).1
  have ho : follow fits steps w.length x ≤ 1 := by
    rw [follow, hm, any_some, hx]
    split_ifs <;> simp_all
  have hmi : true ∉ completions fits steps 0 (w ++ x :: ys) := by
    rw [completions_match (x :: ys) w 0 (by omega) hw, Nat.zero_add, completions, if_neg (by omega)]
    have hr : true ∉ completions fits steps (follow fits steps w.length x) ys :=
      not_mem_completions ys _ (by omega)
    simp [hr]
  rw [h] at hmi
  exact hmi (mem_occurrences _ [] (by simp) he)

end Ptpsim.SequenceMatch
