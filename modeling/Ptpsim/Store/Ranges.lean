/-
# Reading in pieces

A source can be read at once or chunk by chunk, and an object in ranges. Every
chunk is a window of what the source has (`readChunk_of_read`), so windows that
follow one another give the bytes in order, whatever their sizes are, and once
they reach the end of the source nothing is left out. The same holds for the
ranges of an object whose file is as long as it was when the card was scanned.
-/
import Ptpsim.Store.MediaStore

namespace Ptpsim.Store

open List

namespace ByteSource

/-- All the bytes at once. A file that ends early gives what it has. -/
def read (disk : Disk) : ByteSource → Except MediaError (List UInt8)
  | memory bytes => .ok bytes
  | fileRange path offset len =>
    match disk path with
    | none => .error .io
    | some file => .ok ((file.drop offset.toNat).take len.toNat)
  | generated len seed => .ok ((List.range len.toNat).map (generatedByte seed))

/-- Chunks of the given sizes, each read where the one before it ends. -/
def readChunks (disk : Disk) (source : ByteSource) : ℕ → List ℕ → Except MediaError (List UInt8)
  | _, [] => .ok []
  | offset, size :: sizes => do
    let chunk ← source.readChunk disk offset size
    let rest ← readChunks disk source (offset + size) sizes
    return chunk ++ rest

variable {disk : Disk} {source : ByteSource} {bytes : List UInt8}

theorem take_window {n offset max : ℕ} (h : bytes.length ≤ n) :
    (bytes.drop offset).take (min (n - offset) max) = (bytes.drop offset).take max := by
  rw [Nat.min_comm, ← take_take]
  congr 1
  exact take_of_length_le (by rw [length_drop]; omega)

/-- What is read is the content. -/
theorem content_of_read (h : source.read disk = .ok bytes) : source.content disk = bytes := by
  rcases source with stored | ⟨path, offset, len⟩ | ⟨len, seed⟩
  · exact Except.ok.inj h
  · unfold read at h
    rcases hf : disk path with _ | file
    · simp only [hf] at h
      cases h
    · simp only [hf] at h
      rw [content, hf]
      exact Except.ok.inj h
  · exact Except.ok.inj h

theorem length_le_of_read (hfi : source.Fits) (h : source.read disk = .ok bytes) :
    bytes.length ≤ source.len.toNat :=
  content_of_read h ▸ content_length_le hfi

theorem readChunk_of_read (hfi : source.Fits) (h : source.read disk = .ok bytes)
    (chunkOffset max : ℕ) :
    source.readChunk disk chunkOffset max = .ok ((bytes.drop chunkOffset).take max) := by
  have hl := length_le_of_read hfi h
  unfold readChunk
  split
  case isTrue hs =>
    rcases hs with hend | rfl
    · rw [drop_eq_nil_of_le (hl.trans hend), take_nil]
    · rw [take_zero]
  case isFalse hg =>
    rcases source with stored | ⟨path, offset, len⟩ | ⟨len, seed⟩
    · cases h
      exact congrArg Except.ok (take_window hl)
    · unfold read at h
      rcases hf : disk path with _ | file
      · simp only [hf] at h
        cases h
      · simp only [hf] at h ⊢
        cases h
        rw [← take_window hl, drop_take, drop_drop, take_take]
        simp only [ByteSource.len]
        congr 2
        omega
    · cases h
      rw [← take_window hl, ← map_drop, ← map_take, range_eq_range', drop_range']
      simp only [ByteSource.len]
      simp

theorem readChunks_of_read (hf : source.Fits) (h : source.read disk = .ok bytes) :
    ∀ (sizes : List ℕ) (offset : ℕ),
      source.readChunks disk offset sizes = .ok ((bytes.drop offset).take sizes.sum)
  | [], offset => by simp [readChunks]
  | size :: sizes, offset => by
    rw [readChunks, readChunk_of_read hf h, readChunks_of_read hf h sizes (offset + size),
      sum_cons, take_add, drop_drop]
    rfl

/-- A file that cannot be opened fails the first chunk that asks for
something. -/
theorem readChunks_missing {path : Path} (hf : disk path = none) (start len : UInt64) :
    ∀ (sizes : List ℕ) (offset : ℕ), offset < len.toNat → 0 < sizes.sum →
      (fileRange path start len).readChunks disk offset sizes = .error .io
  | [], _, _, hsum => absurd hsum (by simp)
  | 0 :: sizes, offset, ho, hsum => by
    have hr := readChunks_missing hf start len sizes offset ho (by simpa using hsum)
    have hn : (fileRange path start len).readChunk disk offset 0 = .ok [] := if_pos (.inr rfl)
    rw [readChunks, Nat.add_zero, hn, hr]
    rfl
  | (size + 1) :: sizes, offset, ho, _ => by
    have hg : ¬ ((fileRange path start len).len.toNat ≤ offset ∨ size + 1 = 0) := by
      simp only [ByteSource.len]
      omega
    rw [readChunks, readChunk, if_neg hg]
    simp only [hf]
    rfl

theorem read_error {e : MediaError} (h : source.read disk = .error e) :
    e = .io ∧ ∃ path start len, source = .fileRange path start len ∧ disk path = none := by
  rcases source with stored | ⟨path, start, len⟩ | ⟨len, seed⟩
  · cases h
  · unfold read at h
    rcases hf : disk path with _ | file
    · simp only [hf] at h
      cases h
      exact ⟨rfl, path, start, len, rfl, hf⟩
    · simp only [hf] at h
      cases h
  · cases h

end ByteSource

namespace MediaStore

variable {disk : Disk} {s : MediaStore}

/-- Ranges of the given lengths, each read where the one before it ends. -/
def readRanges (disk : Disk) (s : MediaStore) (handle : UInt32) :
    ℕ → List UInt32 → Except MediaError (List UInt8)
  | _, [] => .ok []
  | offset, len :: lens => do
    let source ← s.readRange handle (UInt64.ofNat offset) len
    let bytes ← source.read disk
    let rest ← readRanges disk s handle (offset + len.toNat) lens
    return bytes ++ rest

theorem readRange_read {handle : UInt32} {e : Entry} {file : List UInt8}
    (he : s.entry handle = .ok e) (hf : disk e.path = some file)
    (hs : file.length = e.size.toNat) (offset : UInt64) (len : UInt32) :
    ∃ source, s.readRange handle offset len = .ok source ∧
      source.read disk = .ok ((file.drop offset.toNat).take len.toNat) := by
  have hlen : (UInt64.ofNat (min len.toNat (e.size.toNat - offset.toNat))).toNat =
      min len.toNat (e.size.toNat - offset.toNat) := by
    have := len.toNat_lt
    exact UInt64.toNat_ofNat_of_lt' (by rw [UInt64.size]; omega)
  refine ⟨.fileRange e.path offset (UInt64.ofNat (min len.toNat (e.size.toNat - offset.toNat))),
    ?_, ?_⟩
  · rw [readRange, he]
    rfl
  · unfold ByteSource.read
    simp only [hf, hlen]
    rw [Nat.min_comm, ByteSource.take_window hs.le]

theorem readRanges_of_file {handle : UInt32} {e : Entry} {file : List UInt8}
    (he : s.entry handle = .ok e) (hf : disk e.path = some file)
    (hs : file.length = e.size.toNat) :
    ∀ (lens : List UInt32) (offset : ℕ),
      offset + (lens.map UInt32.toNat).sum ≤ e.size.toNat →
      s.readRanges disk handle offset lens =
        .ok ((file.drop offset).take (lens.map UInt32.toNat).sum)
  | [], offset, _ => by simp [readRanges]
  | len :: lens, offset, hen => by
    rw [map_cons, sum_cons] at hen
    have hsm := e.size.toNat_lt
    have ho : (UInt64.ofNat offset).toNat = offset :=
      UInt64.toNat_ofNat_of_lt' (by rw [UInt64.size]; omega)
    obtain ⟨source, hra, hr⟩ := readRange_read he hf hs (UInt64.ofNat offset) len
    rw [ho] at hr
    rw [readRanges, hra, map_cons, sum_cons, take_add, drop_drop]
    have hre := readRanges_of_file he hf hs lens (offset + len.toNat) (by omega)
    rw [hre]
    change (source.read disk >>= fun bytes => Except.ok (bytes ++ _)) = _
    rw [hr]
    rfl

end MediaStore

/-- **Pieces make up the whole.** Chunks of any sizes that follow one another
and reach the end of a source are the source read at once; and so are the
ranges of an object over any partition of it, as long as its file does not
change. A source of no bytes whose file cannot be opened has no chunk that
fails. -/
theorem pieces_concatenate (disk : Disk) :
    (∀ source : ByteSource, source.Fits → ∀ sizes : List ℕ, source.len.toNat ≤ sizes.sum →
      (∀ bytes, source.read disk = .ok bytes → source.readChunks disk 0 sizes = .ok bytes) ∧
        (0 < source.len.toNat → source.readChunks disk 0 sizes = source.read disk)) ∧
    ∀ (s : MediaStore) (handle : UInt32) (e : Entry) (file : List UInt8),
      s.entry handle = .ok e → disk e.path = some file → file.length = e.size.toNat →
      ∀ lens : List UInt32, (lens.map UInt32.toNat).sum = e.size.toNat →
        s.readRanges disk handle 0 lens = .ok file := by
  constructor
  · intro source hfi sizes hs
    have hok : ∀ bytes, source.read disk = .ok bytes →
        source.readChunks disk 0 sizes = .ok bytes := by
      intro bytes hr
      have hl := ByteSource.length_le_of_read hfi hr
      rw [ByteSource.readChunks_of_read hfi hr sizes 0, drop_zero, take_of_length_le (hl.trans hs)]
    refine ⟨hok, fun hso => ?_⟩
    rcases hr : source.read disk with e | bytes
    · obtain ⟨rfl, path, start, len, rfl, hf⟩ := ByteSource.read_error hr
      exact ByteSource.readChunks_missing hf start len sizes 0 hso (hso.trans_le hs)
    · exact hok bytes hr
  · intro s handle e file he hf hsi lens hle
    rw [MediaStore.readRanges_of_file he hf hsi lens 0 (by omega), drop_zero,
      take_of_length_le (by omega)]

/-- A window of a file that ends before it does, in chunks of two bytes; and an
object in two ranges, one of which is empty. -/
theorem pieces_concatenate_short :
    let disk : Disk := fun path => if path = ["A.JPG"] then some [1, 2, 3, 4, 5] else none
    let card : MediaStore :=
      { entries := [⟨1, ["A.JPG"], 0, false, 5, 0x3801⟩]
        rafThumbnail := fun _ => .error .noPreview
        ordered := by decide }
    (ByteSource.fileRange ["A.JPG"] 1 9).readChunks disk 0 [2, 2, 2, 2, 2] = .ok [2, 3, 4, 5] ∧
      card.readRanges disk 1 0 [3, 0, 2] = .ok [1, 2, 3, 4, 5] := by
  intro disk card
  obtain ⟨hc, hr⟩ := pieces_concatenate disk
  exact ⟨(hc (.fileRange ["A.JPG"] 1 9) trivial [2, 2, 2, 2, 2] (by decide)).1 [2, 3, 4, 5] rfl,
    hr card 1 _ [1, 2, 3, 4, 5] rfl rfl rfl [3, 0, 2] (by decide)⟩

end Ptpsim.Store
