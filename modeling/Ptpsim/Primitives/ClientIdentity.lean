/-
# The client name

A host goes by one short name at the radio and on the network. The name it is
given is normalised: runs of letters and digits, in lower case, with one dash
between two runs, cut at 18 characters. A name with no letter or digit gives
way to a fixed one, which is not of that shape itself.
-/
import Mathlib.Data.List.Induction

namespace Ptpsim.Primitives

open List

def maxNameChars : ℕ := 18

def fallbackName : List Char := "client application".toList

/-- The name so far, and whether a separator has been met since its end. -/
def joinChar (s : List Char × Bool) (c : Char) : List Char × Bool :=
  if c.isAlphanum then
    ((if s.2 ∧ s.1 ≠ [] then s.1 ++ ['-'] else s.1) ++ [c.toLower], false)
  else (s.1, true)

def trimDashes (cs : List Char) : List Char :=
  ((cs.dropWhile (· = '-')).reverse.dropWhile (· = '-')).reverse

def normalizeClientName (raw : List Char) : List Char :=
  let joined := (raw.foldl joinChar ([], false)).1
  let trimmed := trimDashes (joined.take maxNameChars)
  if trimmed = [] then fallbackName else trimmed

def isNameChar (c : Char) : Bool := c.isAlphanum && c.toLower = c

/-- Runs of lower-case letters and digits, with one dash between two runs. -/
inductive IsName : List Char → Prop
  | first {c : Char} (hc : isNameChar c) : IsName [c]
  | next {cs : List Char} {c : Char} (h : IsName cs) (hc : isNameChar c) : IsName (cs ++ [c])
  | dash {cs : List Char} {c : Char} (h : IsName cs) (hc : isNameChar c) : IsName (cs ++ ['-', c])

variable {cs raw : List Char} {c : Char}

theorem isNameChar_toLower (h : c.isAlphanum) : isNameChar c.toLower := by
  have hall : ∀ n < 123, (Char.ofNat n).isAlphanum → isNameChar (Char.ofNat n).toLower := by decide
  have hlt : c.toNat < 123 := by
    have hr : ((decide (c.val ≥ 'A'.val ∧ c.val ≤ 'Z'.val) || c.val ≥ 'a'.val && c.val ≤ 'z'.val) ||
      c.val ≥ '0'.val && c.val ≤ '9'.val) = true := h
    simp [UInt32.le_iff_toNat_le] at hr
    omega
  simpa using hall c.toNat hlt (by simpa using h)

theorem ne_dash (h : isNameChar c) : c ≠ '-' := by
  rintro rfl
  cases h

theorem joinChar_nameChar (s : List Char × Bool) (h : isNameChar c) :
    joinChar s c = ((if s.2 ∧ s.1 ≠ [] then s.1 ++ ['-'] else s.1) ++ [c], false) := by
  obtain ⟨ha, hl⟩ := Bool.and_eq_true_iff.mp h
  rw [joinChar, if_pos ha, of_decide_eq_true hl]

namespace IsName

theorem ne_nil (h : IsName cs) : cs ≠ [] := by
  cases h <;> simp

theorem head (h : IsName cs) : ∃ c rest, cs = c :: rest ∧ isNameChar c := by
  induction h with
  | first hc => exact ⟨_, [], rfl, hc⟩
  | next h hc ih | dash h hc ih =>
    obtain ⟨c, rest, rfl, hc'⟩ := ih
    exact ⟨c, _, rfl, hc'⟩

theorem last (h : IsName cs) : ∃ init c, cs = init ++ [c] ∧ isNameChar c := by
  cases h with
  | first hc => exact ⟨[], _, rfl, hc⟩
  | next h hc => exact ⟨_, _, rfl, hc⟩
  | @dash cs c h hc => exact ⟨cs ++ ['-'], c, by simp, hc⟩

/-- A cut may leave a dash at the end. Trimming takes it and nothing else. -/
theorem trimDashes_append (h : IsName cs) (k : ℕ) :
    trimDashes (cs ++ List.replicate k '-') = cs := by
  obtain ⟨c, rest, hcs, hc⟩ := h.head
  obtain ⟨init, l, hl, hlc⟩ := h.last
  have hd : (cs ++ List.replicate k '-').dropWhile (· = '-') = cs ++ List.replicate k '-' := by
    simp [hcs, ne_dash hc]
  rw [trimDashes, hd, hl]
  simp [ne_dash hlc]

theorem take (h : IsName cs) {n : ℕ} (hn : 0 < n) :
    ∃ ds k, IsName ds ∧ cs.take n = ds ++ List.replicate k '-' := by
  have hwhole : ∀ {cs}, IsName cs → cs.length ≤ n →
      ∃ ds k, IsName ds ∧ cs.take n = ds ++ List.replicate k '-' :=
    fun h hl => ⟨_, 0, h, by simp [take_of_length_le hl]⟩
  induction h with
  | first hc => exact hwhole (.first hc) hn
  | @next cs c h hc ih =>
    rcases Nat.lt_or_ge cs.length n with hl | hl
    · exact hwhole (h.next hc) (by simp; omega)
    · rwa [take_append_of_le_length hl]
  | @dash cs c h hc ih =>
    rcases Nat.lt_trichotomy n (cs.length + 1) with hl | rfl | hl
    · rwa [take_append_of_le_length (by omega)]
    · exact ⟨cs, 1, h, by simp [take_append, take_of_length_le]⟩
    · exact hwhole (h.dash hc) (by simp; omega)

theorem foldl_joinChar (h : IsName cs) : cs.foldl joinChar ([], false) = (cs, false) := by
  induction h with
  | first hc => simp [joinChar_nameChar _ hc]
  | next h hc ih => simp [ih, joinChar_nameChar _ hc]
  | @dash cs c h hc ih =>
    have hd : joinChar (cs, false) '-' = (cs, true) := rfl
    simp [ih, hd, joinChar_nameChar _ hc, h.ne_nil]

end IsName

/-- What the scan has joined is a name, from the first letter or digit on. -/
theorem foldl_joinChar_name (raw : List Char) :
    (raw.any Char.isAlphanum → IsName (raw.foldl joinChar ([], false)).1) ∧
      (¬ raw.any Char.isAlphanum → (raw.foldl joinChar ([], false)).1 = []) := by
  induction raw using List.reverseRecOn with
  | nil => simp
  | append_singleton raw c ih =>
    rw [foldl_append, any_append]
    generalize raw.foldl joinChar ([], false) = s at ih
    by_cases hc : c.isAlphanum
    · by_cases hr : raw.any Char.isAlphanum
      · have hn := ih.1 hr
        by_cases hs : s.2 <;>
          simp [joinChar, hc, hs, hn.ne_nil, hn.next, hn.dash, isNameChar_toLower hc]
      · simp [joinChar, hc, ih.2 hr, IsName.first (isNameChar_toLower hc)]
    · simpa [joinChar, hc] using ih

theorem normalizeClientName_of_name (h : IsName (raw.foldl joinChar ([], false)).1) :
    IsName (normalizeClientName raw) ∧ (normalizeClientName raw).length ≤ maxNameChars := by
  obtain ⟨ds, k, hds, hk⟩ := h.take (n := maxNameChars) (by decide)
  have hn : normalizeClientName raw = ds := by
    simp only [normalizeClientName, hk, hds.trimDashes_append, if_neg hds.ne_nil]
  have hlen := length_take_le maxNameChars (raw.foldl joinChar ([], false)).1
  rw [hk, length_append] at hlen
  exact ⟨hn ▸ hds, hn ▸ by omega⟩

theorem IsName.normalize (h : IsName cs) (hl : cs.length ≤ maxNameChars) :
    normalizeClientName cs = cs := by
  have ht := h.trimDashes_append 0
  rw [replicate_zero, append_nil] at ht
  simp only [normalizeClientName, h.foldl_joinChar, take_of_length_le hl, ht, if_neg h.ne_nil]

/-- A raw name with a letter or a digit is brought to a name of at most 18
characters, which stays as it is; any other becomes the fixed name. -/
theorem normalizeClientName_normal (raw : List Char) :
    1 ≤ (normalizeClientName raw).length ∧ (normalizeClientName raw).length ≤ 18 ∧
      (raw.any Char.isAlphanum → IsName (normalizeClientName raw) ∧
        normalizeClientName (normalizeClientName raw) = normalizeClientName raw) ∧
      (¬ raw.any Char.isAlphanum → normalizeClientName raw = fallbackName) := by
  obtain ⟨hname, hnone⟩ := foldl_joinChar_name raw
  by_cases h : raw.any Char.isAlphanum
  · obtain ⟨hn, hl⟩ := normalizeClientName_of_name (hname h)
    exact ⟨length_pos_iff.mpr hn.ne_nil, hl, fun _ => ⟨hn, hn.normalize hl⟩, absurd h⟩
  · have hf : normalizeClientName raw = fallbackName := by
      simp only [normalizeClientName, hnone h]
      rfl
    rw [hf]
    exact ⟨by decide, by decide, fun ha => absurd ha h, fun _ => rfl⟩

/-- The fixed name is not of the shape that names are brought to. -/
theorem normalizeClientName_fallback_twice :
    normalizeClientName (normalizeClientName []) ≠ normalizeClientName [] := by
  decide

end Ptpsim.Primitives
