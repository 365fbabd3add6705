/-
# Fixed fields

A record of fixed layout keeps its fields at fixed offsets: what was written
between two offsets is read back from there (`slice_append`), and the slices
at consecutive offsets make up the whole (`slice_append_slice`). Text in such
a field is a number of 16-bit units, little-endian, with zeros behind them to
the end of the field.
-/
import Mathlib.Data.List.Basic
import Ptpsim.Lib.Bytes

namespace Ptpsim.FixedFields

open List

/-! ### Slices -/

section Slice

variable {α : Type} {xs before field after : List α} {start stop : ℕ}

/-- `xs[start..stop]` -/
def slice (xs : List α) (start stop : ℕ) : List α := (xs.drop start).take (stop - start)

theorem length_slice (h : stop ≤ xs.length) : (slice xs start stop).length = stop - start := by
  unfold slice
  rw [length_take, length_drop]
  omega

theorem slice_append (hb : before.length = start) (hf : field.length = stop - start) :
    slice (before ++ field ++ after) start stop = field := by
  unfold slice
  rw [append_assoc, ← hb, drop_left, hb, ← hf, take_left]

theorem slice_here (h : field.length = stop) : slice (field ++ after) 0 stop = field := by
  unfold slice
  rw [drop_zero, Nat.sub_zero, ← h, take_left]

theorem slice_append_slice {middle : ℕ} (h : start ≤ middle) (h' : middle ≤ stop) :
    slice xs start middle ++ slice xs middle stop = slice xs start stop := by
  unfold slice
  have hd : xs.drop middle = (xs.drop start).drop (middle - start) := by
    rw [drop_drop]
    congr 1
    omega
  have hl : stop - start = middle - start + (stop - middle) := by omega
  rw [hd, hl, take_add]

theorem drop_eq_slice (h : xs.length = stop) : xs.drop start = slice xs start stop := by
  unfold slice
  rw [take_of_length_le (by rw [length_drop, h])]

end Slice

/-! ### Units -/

def unitBytes (us : List UInt16) : List UInt8 := us.flatMap fun u => leBytes 2 u.toNat

/-- The units of the bytes, two by two. -/
def pairs : List UInt8 → List UInt16
  | a :: b :: rest => UInt16.ofNat (leNat [a, b]) :: pairs rest
  | _ => []

/-- The units in a field of `width` of them. -/
def padded (width : ℕ) (us : List UInt16) : List UInt8 :=
  unitBytes us ++ List.replicate (2 * (width - us.length)) 0

theorem length_unitBytes : ∀ us : List UInt16, (unitBytes us).length = 2 * us.length
  | [] => rfl
  | u :: us => by
    have ih := length_unitBytes us
    unfold unitBytes at ih ⊢
    rw [flatMap_cons, length_append, length_leBytes, ih, length_cons]
    omega

theorem length_padded {width : ℕ} {us : List UInt16} (h : us.length ≤ width) :
    (padded width us).length = 2 * width := by
  rw [padded, length_append, length_unitBytes, length_replicate]
  omega

theorem pairs_unitBytes (rest : List UInt8) : ∀ us : List UInt16,
    pairs (unitBytes us ++ rest) = us ++ pairs rest
  | [] => rfl
  | u :: us => by
    have hw : leNat (leBytes 2 u.toNat) = u.toNat := leNat_leBytes u.toNat_lt
    change UInt16.ofNat (leNat (leBytes 2 u.toNat)) :: pairs (unitBytes us ++ rest) = _
    rw [hw, UInt16.ofNat_toNat, pairs_unitBytes rest us]
    rfl

theorem pairs_zeros : ∀ n : ℕ, pairs (List.replicate (2 * n) 0) = List.replicate n 0
  | 0 => rfl
  | n + 1 => by
    have hs : List.replicate (2 * (n + 1)) (0 : UInt8) = 0 :: 0 :: List.replicate (2 * n) 0 := rfl
    rw [hs, pairs, pairs_zeros n]
    rfl

theorem pairs_padded (width : ℕ) (us : List UInt16) :
    pairs (padded width us) = us ++ List.replicate (width - us.length) 0 := by
  rw [padded, pairs_unitBytes, pairs_zeros]

theorem leNat_pair_lt (a b : UInt8) : leNat [a, b] < 65536 :=
  lt_of_lt_of_eq (leNat_lt [a, b]) (by norm_num)

theorem unitBytes_pairs : ∀ (n : ℕ) (bs : List UInt8), bs.length = 2 * n → unitBytes (pairs bs) = bs
  | 0, bs, h => by
    obtain rfl : bs = [] := length_eq_zero_iff.mp (by omega)
    rfl
  | n + 1, [], h => by simp at h
  | n + 1, [_], h => by simp at h; omega
  | n + 1, a :: b :: rest, h => by
    have hlt := leNat_pair_lt a b
    have hw : (UInt16.ofNat (leNat [a, b])).toNat = leNat [a, b] := UInt16.toNat_ofNat_of_lt' hlt
    have hr := unitBytes_pairs n rest (by simp at h; omega)
    have hc : unitBytes (pairs (a :: b :: rest)) =
        leBytes 2 (UInt16.ofNat (leNat [a, b])).toNat ++ unitBytes (pairs rest) := rfl
    have hp : leBytes 2 (leNat [a, b]) = [a, b] := leBytes_leNat [a, b]
    rw [hc, hw, hr, hp]
    rfl

theorem pairs_take : ∀ (n : ℕ) (bs : List UInt8), pairs (bs.take (2 * n)) = (pairs bs).take n
  | 0, _ => rfl
  | n + 1, [] => rfl
  | n + 1, [_] => rfl
  | n + 1, a :: b :: rest => by
    have ht : (a :: b :: rest).take (2 * (n + 1)) = a :: b :: rest.take (2 * n) := rfl
    rw [ht, pairs, pairs_take n rest]
    rfl

theorem pairs_drop : ∀ (n : ℕ) (bs : List UInt8), pairs (bs.drop (2 * n)) = (pairs bs).drop n
  | 0, _ => rfl
  | n + 1, [] => rfl
  | n + 1, [_] => rfl
  | n + 1, a :: b :: rest => by
    have hd : (a :: b :: rest).drop (2 * (n + 1)) = rest.drop (2 * n) := rfl
    rw [hd, pairs_drop n rest]
    rfl

/-! ### The first zero unit -/

variable {width : ℕ} {us : List UInt16}

theorem findIdx?_padded (hz : 0 ∉ us) (h : us.length < width) :
    (pairs (padded width us)).findIdx? (· == 0) = some us.length := by
  obtain ⟨n, hn⟩ : ∃ n, width - us.length = n + 1 := ⟨width - us.length - 1, by omega⟩
  rw [pairs_padded, hn, List.findIdx?_append]
  have hno : us.findIdx? (· == 0) = none := by
    rw [List.findIdx?_eq_none_iff]
    intro u hu
    simp only [beq_eq_false_iff_ne]
    rintro rfl
    exact hz hu
  rw [hno]
  simp [replicate_succ, List.findIdx?_cons]

theorem take_padded : (padded width us).take (2 * us.length) = unitBytes us := by
  rw [padded, take_left' (length_unitBytes us)]

theorem drop_padded {n : ℕ} (h : 2 * us.length ≤ n) : ∀ b ∈ (padded width us).drop n, b = 0 := by
  intro b hb
  rw [padded, drop_append, drop_of_length_le (by rw [length_unitBytes]; exact h), nil_append] at hb
  exact eq_of_mem_replicate (mem_of_mem_drop hb)

/-- A field that has only zeros behind its first zero unit is that of the text
before it. -/
theorem padded_of_terminated {bs : List UInt8} {terminator : ℕ} (hl : bs.length = 2 * width)
    (hf : (pairs bs).findIdx? (· == 0) = some terminator)
    (ht : ∀ b ∈ bs.drop ((terminator + 1) * 2), b = 0) :
    bs = padded width (pairs (bs.take (terminator * 2))) ∧
      0 ∉ pairs (bs.take (terminator * 2)) ∧ terminator < width ∧
      (pairs (bs.take (terminator * 2))).length = terminator := by
  obtain ⟨hbo, hz, hbe⟩ := List.findIdx?_eq_some_iff_getElem.mp hf
  have hun := unitBytes_pairs width bs hl
  have hp : (pairs bs).length = width := by
    have h := congrArg List.length hun
    rw [length_unitBytes] at h
    omega
  have hlt : terminator < width := hp ▸ hbo
  have hc : ((pairs bs).take terminator).length = terminator := by
    rw [length_take]
    omega
  -- the units from the first zero on are zeros
  have hbt : bs.drop (2 * (terminator + 1)) =
      List.replicate (2 * (width - (terminator + 1))) 0 := by
    rw [eq_replicate_iff, length_drop, Nat.mul_comm 2 (terminator + 1)]
    exact ⟨by omega, ht⟩
  have hze : (pairs bs).drop terminator = List.replicate (width - terminator) 0 := by
    have hs : width - terminator = width - (terminator + 1) + 1 := by omega
    rw [drop_eq_getElem_cons hbo, ← pairs_drop, hbt, pairs_zeros, hs, replicate_succ]
    congr 1
    simpa using hz
  rw [Nat.mul_comm, pairs_take]
  refine ⟨?_, ?_, hlt, hc⟩
  · calc bs = unitBytes (pairs bs) := hun.symm
      _ = unitBytes (pairs (padded width ((pairs bs).take terminator))) := by
        rw [pairs_padded, hc, ← hze, take_append_drop]
      _ = padded width ((pairs bs).take terminator) :=
        unitBytes_pairs width _ (length_padded (by omega))
  · intro hmem
    obtain ⟨i, hi, hget⟩ := mem_iff_getElem.mp hmem
    rw [length_take] at hi
    rw [getElem_take] at hget
    have := hbe i (by omega)
    simp [hget] at this

end Ptpsim.FixedFields
