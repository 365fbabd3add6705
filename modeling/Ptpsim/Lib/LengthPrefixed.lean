/-
# Streams of length-prefixed frames

A frame begins with a four-byte little-endian word that counts all its bytes,
the word included. Lengths below eight or above a limit are not frames. A
stream is cut at its length words (`split`); the cut ends where the stream
ends, between two frames or inside one, or at a word that is no length.
-/
import Ptpsim.Lib.Bytes

namespace Ptpsim.LengthPrefixed

/-- How the cut of a stream ends. -/
inductive SplitEnd where
  | closed
  | partialPrefix
  | badLength
  | partialBody
deriving DecidableEq, Repr

/-- The length a stream or a frame declares. -/
def declared (bytes : List UInt8) : ℕ := leNat (bytes.take 4)

/-- The lengths a frame may have. -/
def Fits (limit length : ℕ) : Prop := 8 ≤ length ∧ length ≤ limit

instance (limit length : ℕ) : Decidable (Fits limit length) := inferInstanceAs (Decidable (_ ∧ _))

/-- A whole frame and nothing else. -/
structure IsFrame (limit : ℕ) (bytes : List UInt8) : Prop where
  fits : Fits limit (declared bytes)
  length_eq : bytes.length = declared bytes

/-- The frames of a stream, in order, and how the cut ends. -/
def split (limit : ℕ) (bytes : List UInt8) : List (List UInt8) × SplitEnd :=
  if bytes.length = 0 then ([], .closed)
  else if bytes.length < 4 then ([], .partialPrefix)
  else if _hfits : ¬ Fits limit (declared bytes) then ([], .badLength)
  else if _hbody : bytes.length < declared bytes then ([], .partialBody)
  else
    let rest := split limit (bytes.drop (declared bytes))
    (bytes.take (declared bytes) :: rest.1, rest.2)
termination_by bytes.length
decreasing_by
  have := (not_not.mp _hfits).1
  rw [List.length_drop]
  omega

theorem split_nil (limit : ℕ) : split limit [] = ([], .closed) := by
  rw [split]
  rfl

variable {limit : ℕ} {bytes : List UInt8}

theorem split_partialPrefix (hpos : bytes ≠ []) (hlt : bytes.length < 4) :
    split limit bytes = ([], .partialPrefix) := by
  have hlen : bytes.length ≠ 0 := fun h => hpos (List.length_eq_zero_iff.mp h)
  rw [split, if_neg hlen, if_pos hlt]

theorem split_badLength (hlen : 4 ≤ bytes.length)
    (hf : ¬ Fits limit (declared bytes)) : split limit bytes = ([], .badLength) := by
  rw [split, if_neg (by omega), if_neg (by omega), dif_pos hf]

theorem split_partialBody (hlen : 4 ≤ bytes.length)
    (hf : Fits limit (declared bytes)) (hlt : bytes.length < declared bytes) :
    split limit bytes = ([], .partialBody) := by
  rw [split, if_neg (by omega), if_neg (by omega), dif_neg (not_not.mpr hf), dif_pos hlt]

theorem declared_append (hlen : 4 ≤ bytes.length) (rest : List UInt8) :
    declared (bytes ++ rest) = declared bytes := by
  unfold declared
  rw [List.take_append_of_le_length hlen]

theorem IsFrame.four_le {frame : List UInt8} (h : IsFrame limit frame) : 4 ≤ frame.length := by
  have hf := h.fits.1
  have hlen := h.length_eq
  omega

theorem split_frame_append {frame : List UInt8} (h : IsFrame limit frame) (rest : List UInt8) :
    split limit (frame ++ rest) = (frame :: (split limit rest).1, (split limit rest).2) := by
  have hlen := h.four_le
  have hd : declared (frame ++ rest) = frame.length := by
    rw [declared_append hlen, ← h.length_eq]
  have hf : Fits limit (declared (frame ++ rest)) := by
    rw [declared_append hlen]
    exact h.fits
  have ht : (frame ++ rest).length = frame.length + rest.length := List.length_append
  rw [split, if_neg (by omega), if_neg (by omega), dif_neg (not_not.mpr hf), dif_neg (by omega), hd]
  simp

theorem split_eq_of_frames : ∀ (frames : List (List UInt8)) (rest : List UInt8),
    (∀ frame ∈ frames, IsFrame limit frame) →
    split limit (frames.flatten ++ rest) = (frames ++ (split limit rest).1, (split limit rest).2)
  | [], rest, _ => by simp
  | frame :: frames, rest, h => by
    have hfi := h frame List.mem_cons_self
    have ho := split_eq_of_frames frames rest fun f hf => h f (List.mem_cons_of_mem _ hf)
    rw [List.flatten_cons, List.append_assoc, split_frame_append hfi, ho]
    rfl

/-- A stream of whole frames is cut into them. -/
theorem split_flatten {frames : List (List UInt8)} (h : ∀ frame ∈ frames, IsFrame limit frame) :
    split limit frames.flatten = (frames, .closed) := by
  have hs := split_eq_of_frames frames [] h
  rwa [List.append_nil, split_nil, List.append_nil] at hs

theorem flatten_of_closed {frames : List (List UInt8)}
    (h : split limit bytes = (frames, .closed)) : frames.flatten = bytes := by
  fun_induction split limit bytes generalizing frames
  case case5 ih =>
    obtain ⟨rfl, hr⟩ := Prod.mk.inj h
    rw [List.flatten_cons, ih (Prod.ext rfl hr), List.take_append_drop]
  all_goals grind

end Ptpsim.LengthPrefixed
