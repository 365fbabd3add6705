/-
# The media store

The objects of a card, by handle: their sizes, formats and parents, the
`ObjectInfo` they report, and bounded sources for their bytes. A range that is
asked for is clamped to the object (`readRange_len`); a file's bytes are read
when the source is streamed, so a source is only a path with a window.
-/
import Mathlib.Data.FinEnum
import Ptpsim.Core.Codes
import Ptpsim.Core.Dataset

namespace Ptpsim.Store

open Ptpsim.Core List

namespace Fmt

def raf : UInt16 := 0xb103
def mov : UInt16 := 0x300d
def heif : UInt16 := 0x3818

end Fmt

/-- The largest size the 32-bit size field of `ObjectInfo` can report. -/
def sizeCeiling : ℕ := 0xffffffff

/-- The components of a file's path. -/
abbrev Path := List String

inductive MediaError where
  | io
  | unknownHandle (handle : UInt32)
  | rootEscape (path : Path)
  | noPreview
deriving DecidableEq

inductive ByteSource where
  | memory (bytes : List UInt8)
  | fileRange (path : Path) (offset len : UInt64)
  | generated (len seed : UInt64)
deriving DecidableEq

def ByteSource.len : ByteSource → UInt64
  | memory bytes => UInt64.ofNat bytes.length
  | fileRange _ _ len => len
  | generated len _ => len

structure Entry where
  handle : UInt32
  path : Path
  parent : UInt32
  isDir : Bool
  size : UInt64
  format : UInt16
deriving DecidableEq

/-- The objects in handle order. What a RAF file yields as a thumbnail depends
on the file's bytes, which the store does not hold. -/
structure MediaStore where
  entries : List Entry
  rafThumbnail : Path → Except MediaError ByteSource
  ordered : (entries.map Entry.handle).Pairwise (· < ·)

namespace MediaStore

variable (s : MediaStore) (handle : UInt32)

def entry : Except MediaError Entry :=
  match s.entries.find? fun e => e.handle = handle with
  | some e => .ok e
  | none => .error (.unknownHandle handle)

/-- All handles, as the default query lists them. -/
def handles : List UInt32 := s.entries.map Entry.handle

def objectInfo : Except MediaError ObjectInfo := do
  let e ← s.entry handle
  return {
    storageId := 0x00010001
    objectFormat := e.format
    objectCompressedSize := UInt32.ofNat (min e.size.toNat sizeCeiling)
    parentObject := e.parent
    associationType := if e.isDir then 1 else 0
    filename := e.path.getLast?.getD "" }

def objectSize : Except MediaError UInt64 := do
  return (← s.entry handle).size

def readRange (offset : UInt64) (len : UInt32) : Except MediaError ByteSource := do
  let e ← s.entry handle
  return .fileRange e.path offset (UInt64.ofNat (min len.toNat (e.size.toNat - offset.toNat)))

def thumbnail : Except MediaError ByteSource := do
  let e ← s.entry handle
  if e.format = Fmt.raf then s.rafThumbnail e.path
  else if e.format = Format.exifJpeg then return .fileRange e.path 0 e.size
  else return .generated 0 0

/-! ### Handles are distinct, and ranges stay inside their object -/

theorem nodup_handles (s : MediaStore) : s.handles.Nodup := s.ordered.imp fun h => UInt32.ne_of_lt h

theorem length_handles_lt (s : MediaStore) : s.handles.length < 2 ^ 64 := by
  calc s.handles.length ≤ Fintype.card UInt32 := s.nodup_handles.length_le_card
    _ < 2 ^ 64 := by rw [← FinEnum.card_eq_fintypeCard, FinEnum.card_UInt32]; norm_num

variable {s : MediaStore}

theorem entry_of_not_mem {handle : UInt32} (h : handle ∉ s.handles) :
    s.entry handle = .error (.unknownHandle handle) := by
  have hn : s.entries.find? (fun e => e.handle = handle) = none := by
    rw [List.find?_eq_none]
    intro e hmem heq
    exact h (mem_map.mpr ⟨e, hmem, by simpa using heq⟩)
  unfold entry
  rw [hn]

theorem entry_of_mem {e : Entry} (h : e ∈ s.entries) : s.entry e.handle = .ok e := by
  obtain ⟨e', hf⟩ : ∃ e', (s.entries.find? fun e' => e'.handle = e.handle) = some e' :=
    Option.isSome_iff_exists.mp (List.find?_isSome.mpr ⟨e, h, by simp⟩)
  have he : e'.handle = e.handle := by simpa using List.find?_some hf
  rw [entry, hf, inj_on_of_nodup_map s.nodup_handles (List.mem_of_find?_eq_some hf) h he]

theorem mem_handles_iff {handle : UInt32} : handle ∈ s.handles ↔ ∃ e, s.entry handle = .ok e := by
  constructor
  · intro hmem
    obtain ⟨e, hmem, heq⟩ := mem_map.mp hmem
    have hs : (s.entries.find? fun e => e.handle = handle).isSome = true :=
      List.find?_isSome.mpr ⟨e, hmem, by simpa using heq⟩
    obtain ⟨e', he'⟩ := Option.isSome_iff_exists.mp hs
    exact ⟨e', by rw [entry, he']⟩
  · rintro ⟨e, he⟩
    by_contra hmem
    rw [entry_of_not_mem hmem] at he
    cases he

theorem objectSize_of_entry {handle : UInt32} {e : Entry} (h : s.entry handle = .ok e) :
    s.objectSize handle = .ok e.size := by
  rw [objectSize, h]
  rfl

end MediaStore

/-! ### Reading a source -/

/-- What the files hold while a source is read; nothing for one that cannot be
opened. -/
abbrev Disk := Path → Option (List UInt8)

namespace ByteSource

def generatedByte (seed : UInt64) (i : ℕ) : UInt8 := (UInt64.ofNat i * 2654435761 + seed).toUInt8

/-- At most `max` bytes from `chunkOffset` on. A file that ends early gives
what it has. -/
def readChunk (disk : Disk) (source : ByteSource) (chunkOffset max : ℕ) :
    Except MediaError (List UInt8) :=
  if source.len.toNat ≤ chunkOffset ∨ max = 0 then .ok []
  else
    let want := min (source.len.toNat - chunkOffset) max
    match source with
    | memory bytes => .ok ((bytes.drop chunkOffset).take want)
    | fileRange path offset _ =>
      match disk path with
      | none => .error .io
      | some file => .ok ((file.drop (offset.toNat + chunkOffset)).take want)
    | generated _ seed => .ok ((List.range' chunkOffset want).map (generatedByte seed))

/-- All the bytes a source stands for. -/
def content (disk : Disk) : ByteSource → List UInt8
  | memory bytes => bytes
  | fileRange path offset len => (((disk path).getD []).drop offset.toNat).take len.toNat
  | generated len seed => (List.range len.toNat).map (generatedByte seed)

/-- Bytes in memory are no more than a `usize` can count. -/
def Fits : ByteSource → Prop
  | memory bytes => bytes.length < 2 ^ 64
  | _ => True

variable {disk : Disk} {source : ByteSource} {chunkOffset max : ℕ}

theorem fits_of_content (h : (source.content disk).length < 2 ^ 64) : source.Fits := by
  cases source <;> first | exact h | trivial

/-- Before the end of the content a chunk is a piece of it. -/
theorem readChunk_content (ho : chunkOffset < (source.content disk).length)
    (hlen : chunkOffset < source.len.toNat) (hmax : 0 < max) :
    source.readChunk disk chunkOffset max = .ok (((source.content disk).drop chunkOffset).take
      (min (source.len.toNat - chunkOffset) max)) := by
  have hg : ¬ (source.len.toNat ≤ chunkOffset ∨ max = 0) := by omega
  unfold readChunk
  rw [if_neg hg]
  rcases source with bytes | ⟨path, offset, len⟩ | ⟨len, seed⟩
  · rfl
  · rcases hf : disk path with _ | file
    · simp [content, hf] at ho
    · have hle : min (len.toNat - chunkOffset) max ≤ len.toNat - chunkOffset := Nat.min_le_left _ _
      simp only [hf, content, Option.getD_some, ByteSource.len, drop_take, drop_drop,
        take_take, Nat.min_eq_left hle]
  · have hle : min (len.toNat - chunkOffset) max ≤ len.toNat - chunkOffset := Nat.min_le_left _ _
    simp only [content, ByteSource.len, ← map_drop, ← map_take, Except.ok.injEq]
    rw [range_eq_range', drop_range', take_range'_of_length_ge hle]
    simp

theorem readChunk_end (ho : (source.content disk).length ≤ chunkOffset) :
    source.readChunk disk chunkOffset max = .ok [] ∨
      source.readChunk disk chunkOffset max = .error .io := by
  unfold readChunk
  by_cases hs : source.len.toNat ≤ chunkOffset ∨ max = 0
  · exact .inl (if_pos hs)
  · rw [if_neg hs]
    rcases source with bytes | ⟨path, offset, len⟩ | ⟨len, seed⟩
    · have hnil : bytes.drop chunkOffset = [] := drop_eq_nil_of_le ho
      simp [hnil]
    · rcases hf : disk path with _ | file
      · exact .inr (by simp only [hf])
      · -- the file ends before the window does
        have hsh : file.length ≤ offset.toNat + chunkOffset := by
          simp only [content, hf, Option.getD_some, length_take, length_drop] at ho
          have hlen : ¬ len.toNat ≤ chunkOffset := fun h => hs (.inl h)
          omega
        have hnil : file.drop (offset.toNat + chunkOffset) = [] := drop_eq_nil_of_le hsh
        simp [hf, hnil]
    · have hlen : ¬ len.toNat ≤ chunkOffset := fun h => hs (.inl h)
      simp only [content, length_map, length_range] at ho
      exact absurd ho hlen

theorem content_length_le (hf : source.Fits) :
    (source.content disk).length ≤ source.len.toNat := by
  rcases source with bytes | ⟨path, offset, len⟩ | ⟨len, seed⟩
  · rw [content, ByteSource.len, UInt64.toNat_ofNat_of_lt' hf]
  · exact length_take_le _ _
  · simp [content, ByteSource.len]

end ByteSource
end Ptpsim.Store
