/-
# UTF-16

The UTF-16 code units of a list of characters, and the strict decoder that
refuses an unpaired surrogate. Decoding the code units of a text gives the
text back (`decode_encode`), and what is decoded has just these code units
(`encode_of_decode`).

Key theorems: `Utf16.decode_encode`, `Utf16.encode_of_decode`.
-/
import Mathlib.Data.List.Basic

namespace Ptpsim.Utf16

/-- The code units of one character: itself in the basic plane, a surrogate
pair above it. -/
def encodeChar (c : Char) : List UInt16 :=
  if c.toNat < 0x10000 then [UInt16.ofNat c.toNat]
  else
    [UInt16.ofNat (0xd800 + (c.toNat - 0x10000) / 0x400),
      UInt16.ofNat (0xdc00 + (c.toNat - 0x10000) % 0x400)]

def encode (cs : List Char) : List UInt16 := cs.flatMap encodeChar

def isSurrogate (u : UInt16) : Bool := 0xd800 ≤ u.toNat && u.toNat < 0xe000

def isLowSurrogate (u : UInt16) : Bool := 0xdc00 ≤ u.toNat && u.toNat < 0xe000

/-- The character of a surrogate pair. -/
def pairChar (hi lo : UInt16) : Char :=
  Char.ofNat (0x10000 + (hi.toNat - 0xd800) * 0x400 + (lo.toNat - 0xdc00))

/-- Strict decoding: an unpaired surrogate is refused. -/
def decode : List UInt16 → Option (List Char)
  | [] => some []
  | [u] => if isSurrogate u then none else some [Char.ofNat u.toNat]
  | u :: v :: us =>
    if isSurrogate u then
      if isLowSurrogate u then none
      else if isLowSurrogate v then (decode us).map (pairChar u v :: ·)
      else none
    else (decode (v :: us)).map (Char.ofNat u.toNat :: ·)

theorem toNat_ofNat {n : ℕ} (h : n < 0x10000) : (UInt16.ofNat n).toNat = n := by
  rw [UInt16.toNat_ofNat', Nat.mod_eq_of_lt h]

theorem decode_cons_scalar {u : UInt16} (h : isSurrogate u = false) :
    ∀ us, decode (u :: us) = (decode us).map (Char.ofNat u.toNat :: ·)
  | [] => by simp [decode, h]
  | v :: us => by simp [decode, h]

theorem decode_cons_pair {u v : UInt16} (hs : isSurrogate u = true) (hu : isLowSurrogate u = false)
    (hv : isLowSurrogate v = true) (us : List UInt16) :
    decode (u :: v :: us) = (decode us).map (pairChar u v :: ·) := by
  simp [decode, hs, hu, hv]

theorem decode_encodeChar (c : Char) (us : List UInt16) :
    decode (encodeChar c ++ us) = (decode us).map (c :: ·) := by
  have hv : c.toNat < 0xd800 ∨ (0xdfff < c.toNat ∧ c.toNat < 0x110000) := c.valid
  unfold encodeChar
  by_cases h : c.toNat < 0x10000
  · rw [if_pos h, List.singleton_append]
    have hs : isSurrogate (UInt16.ofNat c.toNat) = false := by
      simp only [isSurrogate, toNat_ofNat h, Bool.and_eq_false_iff, decide_eq_false_iff_not]
      omega
    rw [decode_cons_scalar hs, toNat_ofNat h, Char.ofNat_toNat]
  · rw [if_neg h]
    -- the offset into the supplementary planes has twenty bits
    obtain ⟨n, hn⟩ : ∃ n, c.toNat = 0x10000 + n := ⟨c.toNat - 0x10000, by omega⟩
    have hhi : 0xd800 + (c.toNat - 0x10000) / 0x400 < 0x10000 := by omega
    have hlo : 0xdc00 + (c.toNat - 0x10000) % 0x400 < 0x10000 := by omega
    have hp : pairChar (UInt16.ofNat (0xd800 + (c.toNat - 0x10000) / 0x400))
        (UInt16.ofNat (0xdc00 + (c.toNat - 0x10000) % 0x400)) = c := by
      have hsum : 0x10000 + (0xd800 + (c.toNat - 0x10000) / 0x400 - 0xd800) * 0x400 +
          (0xdc00 + (c.toNat - 0x10000) % 0x400 - 0xdc00) = c.toNat := by omega
      rw [pairChar, toNat_ofNat hhi, toNat_ofNat hlo, hsum, Char.ofNat_toNat]
    simp only [List.cons_append, List.nil_append]
    rw [decode_cons_pair _ _ _, hp]
    · simp only [isSurrogate, toNat_ofNat hhi, Bool.and_eq_true, decide_eq_true_eq]; omega
    · simp only [isLowSurrogate, toNat_ofNat hhi, Bool.and_eq_false_iff, decide_eq_false_iff_not]
      omega
    · simp only [isLowSurrogate, toNat_ofNat hlo, Bool.and_eq_true, decide_eq_true_eq]; omega

/-- Decoding the code units of a text gives the text back. -/
theorem decode_encode : ∀ cs : List Char, decode (encode cs) = some cs
  | [] => rfl
  | c :: cs => by
    have ih := decode_encode cs
    unfold encode at ih ⊢
    rw [List.flatMap_cons, decode_encodeChar, ih, Option.map_some]

theorem toNat_ofNat_char {n : ℕ} (h : n < 0xd800 ∨ (0xdfff < n ∧ n < 0x110000)) :
    (Char.ofNat n).toNat = n := by
  have hv : n.isValidChar := h
  rw [Char.ofNat, dif_pos hv]
  rfl

theorem encodeChar_scalar {u : UInt16} (h : isSurrogate u = false) :
    encodeChar (Char.ofNat u.toNat) = [u] := by
  have hlt := u.toNat_lt
  have hr : u.toNat < 0xd800 ∨ 0xe000 ≤ u.toNat := by
    simp only [isSurrogate, Bool.and_eq_false_iff, decide_eq_false_iff_not] at h
    omega
  have hnat : (Char.ofNat u.toNat).toNat = u.toNat := toNat_ofNat_char (by omega)
  rw [encodeChar, hnat, if_pos (by omega), UInt16.ofNat_toNat]

theorem encodeChar_pairChar {u v : UInt16} (hs : isSurrogate u = true)
    (hu : isLowSurrogate u = false) (hv : isLowSurrogate v = true) :
    encodeChar (pairChar u v) = [u, v] := by
  have hhi : 0xd800 ≤ u.toNat ∧ u.toNat < 0xdc00 := by
    simp only [isSurrogate, isLowSurrogate, Bool.and_eq_true, decide_eq_true_eq,
      Bool.and_eq_false_iff, decide_eq_false_iff_not] at hs hu
    omega
  have hlo : 0xdc00 ≤ v.toNat ∧ v.toNat < 0xe000 := by
    simpa only [isLowSurrogate, Bool.and_eq_true, decide_eq_true_eq] using hv
  have hnat : (pairChar u v).toNat =
      0x10000 + (u.toNat - 0xd800) * 0x400 + (v.toNat - 0xdc00) := toNat_ofNat_char (by omega)
  have hh : 0xd800 + ((pairChar u v).toNat - 0x10000) / 0x400 = u.toNat := by omega
  have hlow : 0xdc00 + ((pairChar u v).toNat - 0x10000) % 0x400 = v.toNat := by omega
  rw [encodeChar, if_neg (by omega), hh, hlow, UInt16.ofNat_toNat, UInt16.ofNat_toNat]

/-- What is decoded has just these code units. -/
theorem encode_of_decode : ∀ {us : List UInt16} {cs : List Char}, decode us = some cs →
    encode cs = us
  | [], cs, h => by
    cases h
    rfl
  | [u], cs, h => by
    simp only [decode] at h
    split at h
    · cases h
    case isFalse hs =>
      cases h
      exact (List.append_nil _).trans (encodeChar_scalar (by simpa using hs))
  | u :: v :: us, cs, h => by
    simp only [decode] at h
    split at h
    case isTrue hs =>
      split at h
      · cases h
      case isFalse hu =>
        split at h
        case isTrue hv =>
          obtain ⟨rest, hr, rfl⟩ := Option.map_eq_some_iff.mp h
          change encodeChar (pairChar u v) ++ encode rest = _
          rw [encodeChar_pairChar hs (by simpa using hu) hv, encode_of_decode hr]
          rfl
        · cases h
    case isFalse hs =>
      obtain ⟨rest, hr, rfl⟩ := Option.map_eq_some_iff.mp h
      change encodeChar (Char.ofNat u.toNat) ++ encode rest = _
      rw [encodeChar_scalar (by simpa using hs), encode_of_decode hr]
      rfl

theorem zero_mem_encode {cs : List Char} : 0 ∈ encode cs ↔ '\x00' ∈ cs := by
  have hch : ∀ c : Char, 0 ∈ encodeChar c ↔ '\x00' = c := by
    intro c
    have hv : c.toNat < 0xd800 ∨ (0xdfff < c.toNat ∧ c.toNat < 0x110000) := c.valid
    have hz : ∀ n, n < 0x10000 → ((0 : UInt16) = UInt16.ofNat n ↔ n = 0) := by
      intro n hn
      rw [← UInt16.toNat_inj, toNat_ofNat hn]
      exact eq_comm
    have hnul : '\x00' = c ↔ c.toNat = 0 := by
      rw [eq_comm, ← Char.toNat_inj]
      rfl
    rw [hnul, encodeChar]
    split
    case isTrue h => rw [List.mem_singleton, hz _ h]
    case isFalse h =>
      rw [List.mem_pair, hz _ (by omega), hz _ (by omega)]
      omega
  unfold encode
  rw [List.mem_flatMap]
  constructor
  · rintro ⟨c, hc, hz⟩
    rw [(hch c).mp hz]
    exact hc
  · exact fun h => ⟨_, h, (hch _).mpr rfl⟩

end Ptpsim.Utf16
