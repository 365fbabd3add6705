/-
# Chunk windows with a source-wide checksum

A source is cut into windows of a fixed size. An ordinary frame is the
window's index, its length, the window and a zero trailer; the last window
goes under the sentinel index with the 16-bit sum of the whole source, once
inside the declared body and once as the trailer. `encodeWindow` selects and
encodes one window, and `SourceSum16Decoder` takes the frames in again.

A push either accepts the frame or leaves the decoder as it was
(`push_cases`), and an accepted frame is determined by the decoder and the
payload up to its trailer (`check_ok_iff`), which the Restore direction checks
too. `Allocator` is what `try_reserve_exact` does.
-/
import Ptpsim.Lib.Bytes
import Ptpsim.Lib.Fallible
import Ptpsim.Lib.Machine

namespace Ptpsim.Primitives

open List Option

def maxChunkWindows : ℕ := 4096

def sentinel : UInt64 := 65535

inductive ChunkChecksum where
  | sourceSum16Le
deriving DecidableEq, Repr

inductive Direction where
  | backup
  | restore
deriving DecidableEq, Repr

inductive ChunkError where
  | emptySource
  | layout
  | index
  | limit
  | headerEncoding
  | shortFrame
  | shortBody
  | truncatedBody
  | windowLength
  | sequence
  | checksum
  | trailer
  | afterSentinel
  | missingSentinel
  | size
deriving DecidableEq, Repr

/-- The wrapping 16-bit sum of the bytes. -/
def sourceSum16 (source : List UInt8) : UInt16 :=
  source.foldl (fun sum byte => sum + byte.toUInt16) 0

/-- The window sizes the checksum layout admits. -/
def WindowSize (size : ℕ) : Prop := 2 ≤ size ∧ size ≤ 4294967293

instance (size : ℕ) : Decidable (WindowSize size) :=
  inferInstanceAs (Decidable (2 ≤ size ∧ size ≤ 4294967293))

/-! ### The encoder -/

/-- The fixed header layout of the checksum policy. -/
def checksumHeader (index declared : UInt64) : List UInt8 :=
  leBytes 2 index.toUInt16.toNat ++ leBytes 4 declared.toUInt32.toNat

/-- The ordinal of the window an index selects; `full` is the ordinal of the
last one. -/
def windowOrdinal (index sentinel : UInt64) (full : ℕ) : Except ChunkError ℕ :=
  if index = sentinel then .ok full
  else if index.toNat ≥ full then .error .index
  else .ok index.toNat

/-- The frame of the window that starts at `ordinal * size`. -/
def frameWindow (source : List UInt8) (size ordinal : ℕ) (index : UInt64) (finalWindow : Bool)
    (checksum : Option ChunkChecksum) (header : UInt64 → UInt64 → Option (List UInt8)) :
    Except ChunkError (List UInt8) :=
  let payload := (source.drop (ordinal * size)).take size
  let sum := if checksum.isSome && finalWindow then sourceSum16 source else 0
  let declared := UInt64.ofNat (payload.length + if checksum.isSome && finalWindow then 2 else 0)
  match header index declared with
  | none => .error .headerEncoding
  | some frame =>
    if checksum.isSome ∧ (index > 65535 ∨ declared > 4294967295 ∨
        frame ≠ checksumHeader index declared) then .error .layout
    else
      .ok (frame ++ payload ++
        if checksum.isSome then
          (if finalWindow then leBytes 2 sum.toNat else []) ++ leBytes 2 sum.toNat
        else [])

def encodeWindow (source : List UInt8) (size : ℕ) (index sentinel : UInt64)
    (checksum : Option ChunkChecksum) (header : UInt64 → UInt64 → Option (List UInt8)) :
    Except ChunkError (List UInt8) :=
  if checksum.isSome ∧ (¬ WindowSize size ∨ sentinel ≠ Primitives.sentinel) then .error .layout
  else if source.isEmpty ∧ checksum.isSome then .error .emptySource
  else
    let size := max size 1
    let full := (source.length - 1) / size
    if full ≥ maxChunkWindows then .error .limit
    else
      match windowOrdinal index sentinel full with
      | .error e => .error e
      | .ok ordinal =>
        frameWindow source size ordinal index (decide (index = sentinel)) checksum header

/-! ### The decoder -/

/-- What `try_reserve_exact` does: given the capacity, the length and the
additional bytes asked for, the new capacity, or `none` when memory is
refused. -/
structure Allocator where
  reserve : ℕ → ℕ → ℕ → Option ℕ
  reserve_ge : ∀ capacity len additional capacity',
    reserve capacity len additional = some capacity' → len + additional ≤ capacity'

/-- Memory without a bound. -/
def Allocator.unbounded : Allocator where
  reserve := fun _ len additional => some (len + additional)
  reserve_ge := fun _ _ _ _ h => Nat.le_of_eq (Option.some.inj h)

/-- Requests that keep the buffer within `bound` bytes are granted. -/
def Allocator.Grants (alloc : Allocator) (bound : ℕ) : Prop :=
  ∀ capacity len additional, len + additional ≤ bound →
    (alloc.reserve capacity len additional).isSome = true

/-- A decoder and the bytes it has taken. -/
structure SourceSum16Decoder where
  direction : Direction
  window : ℕ
  maxSourceSize : ℕ
  expectedSize : Option ℕ
  source : List UInt8
  capacity : ℕ
  sum : UInt16
  windows : ℕ
  finalSeen : Bool
deriving DecidableEq, Repr

/-- A frame that passed every check. -/
structure Accepted where
  payload : List UInt8
  size : ℕ
  sum : UInt16
  finalWindow : Bool
deriving DecidableEq, Repr

namespace SourceSum16Decoder

def new (direction : Direction) (window maxSourceSize : ℕ) (expectedSize : Option ℕ) :
    Except ChunkError SourceSum16Decoder :=
  if ¬ WindowSize window then .error .layout
  else if expectedSize.any (fun size => decide (size > maxSourceSize)) then .error .limit
  else .ok {
    direction, window, maxSourceSize, expectedSize
    source := []
    capacity := 0
    sum := 0
    windows := 0
    finalSeen := false }

variable (d : SourceSum16Decoder)

/-- The checks on the declared body, split into payload and observed sum. -/
def checkBody (payload trailer : List UInt8) (observed : UInt16)
    (finalWindow : Bool) : Except ChunkError Accepted :=
  if payload.length > d.window ∨ (¬ finalWindow ∧ payload.length ≠ d.window) then
    .error .windowLength
  else
    let size := d.source.length + payload.length
    if size > d.maxSourceSize then .error .limit
    else
      let sum := d.sum + sourceSum16 payload
      if finalWindow ∧ sum ≠ observed then .error .checksum
      else if d.direction = .restore ∧ trailer ≠ leBytes 2 observed.toNat then .error .trailer
      else if payload.isEmpty then .error .emptySource
      else if d.expectedSize.any (fun expected =>
          decide (size > expected) || (finalWindow && decide (size ≠ expected))) then .error .size
      else .ok ⟨payload, size, sum, finalWindow⟩

/-- Everything `push` checks before it asks for memory. -/
def check (raw : List UInt8) : Except ChunkError Accepted :=
  if d.finalSeen then .error .afterSentinel
  else if d.windows ≥ maxChunkWindows then .error .limit
  else if raw.length < 8 then .error .shortFrame
  else
    let index := leNat (raw.take 2)
    let declared := leNat ((raw.drop 2).take 4)
    if declared < 2 then .error .shortBody
    else if raw.length < 6 + declared then .error .truncatedBody
    else
      let body := (raw.drop 6).take declared
      let trailer := raw.drop (6 + declared)
      if index = 65535 then
        d.checkBody (body.take (body.length - 2)) trailer
          (UInt16.ofNat (leNat (body.drop (body.length - 2)))) true
      else if index ≠ d.windows then .error .sequence
      else d.checkBody body trailer 0 false

/-- The capacity a push asks for when the buffer is too small. -/
def growth (size : ℕ) : ℕ :=
  min (max (d.capacity * 2) size) d.maxSourceSize

/-- The accepted frame is taken in. -/
def extend (a : Accepted) (capacity : ℕ) : SourceSum16Decoder :=
  { d with
    source := d.source ++ a.payload
    capacity
    sum := a.sum
    windows := d.windows + 1
    finalSeen := a.finalWindow }

/-- The answer to a frame and the decoder after it. -/
def push (alloc : Allocator) (d : SourceSum16Decoder) (raw : List UInt8) :
    Except ChunkError Unit × SourceSum16Decoder :=
  match d.check raw with
  | .error e => (.error e, d)
  | .ok a =>
    if a.size > d.capacity then
      match alloc.reserve d.capacity d.source.length (d.growth a.size - d.source.length) with
      | none => (.error .limit, d)
      | some capacity => (.ok (), d.extend a capacity)
    else (.ok (), d.extend a d.capacity)

def finish : Except ChunkError (List UInt8) :=
  if ¬ d.finalSeen then .error .missingSentinel else .ok d.source

end SourceSum16Decoder

/-! ### What a push accepts -/

/-- A frame's header word and what follows it. -/
def withHeader (index declared : ℕ) (rest : List UInt8) : List UInt8 :=
  leBytes 2 index ++ (leBytes 4 declared ++ rest)

theorem withHeader_eq {raw : List UInt8} (h : 6 ≤ raw.length) :
    withHeader (leNat (raw.take 2)) (leNat ((raw.drop 2).take 4)) (raw.drop 6) = raw := by
  have h2 := leBytes_leNat (raw.take 2)
  have h4 := leBytes_leNat ((raw.drop 2).take 4)
  rw [length_take, Nat.min_eq_left (by omega)] at h2
  rw [length_take, length_drop, Nat.min_eq_left (by omega)] at h4
  rw [withHeader, h2, h4, show raw.drop 6 = (raw.drop 2).drop 4 by rw [drop_drop],
    take_append_drop, take_append_drop]

section header

variable {index declared : ℕ} {rest : List UInt8}

theorem withHeader_index (h : index < 65536) :
    leNat ((withHeader index declared rest).take 2) = index := by
  rw [withHeader, take_left' (length_leBytes 2 index), leNat_leBytes h]

theorem withHeader_declared (h : declared < 4294967296) :
    leNat (((withHeader index declared rest).drop 2).take 4) = declared := by
  rw [withHeader, drop_left' (length_leBytes 2 index),
    take_left' (length_leBytes 4 declared), leNat_leBytes h]

theorem withHeader_drop (n : ℕ) : (withHeader index declared rest).drop (6 + n) = rest.drop n := by
  rw [withHeader, ← append_assoc, ← drop_drop, drop_left' (by simp)]

theorem length_withHeader : (withHeader index declared rest).length = 6 + rest.length := by
  simp [withHeader]
  omega

end header

namespace SourceSum16Decoder

/-- The conditions a payload meets, whatever bytes it came in. -/
structure Admits (d : SourceSum16Decoder) (a : Accepted) : Prop where
  not_final : d.finalSeen = false
  windows_lt : d.windows < maxChunkWindows
  nonempty : a.payload ≠ []
  length_le : a.payload.length ≤ d.window
  full : a.finalWindow = false → a.payload.length = d.window
  size_eq : a.size = d.source.length + a.payload.length
  size_le : a.size ≤ d.maxSourceSize
  sum_eq : a.sum = d.sum + sourceSum16 a.payload
  expected : ∀ e, d.expectedSize = some e → a.size ≤ e ∧ (a.finalWindow = true → a.size = e)

/-- The frame of an accepted payload, up to its trailer. -/
def frame (d : SourceSum16Decoder) (a : Accepted) (trailer : List UInt8) : List UInt8 :=
  if a.finalWindow then
    withHeader 65535 (a.payload.length + 2) (a.payload ++ (leBytes 2 a.sum.toNat ++ trailer))
  else withHeader d.windows a.payload.length (a.payload ++ trailer)

/-- The trailer of the Restore direction. -/
def trailerOf (a : Accepted) : List UInt8 := leBytes 2 (if a.finalWindow then a.sum.toNat else 0)

variable {a : Accepted} {d : SourceSum16Decoder} {alloc : Allocator}

variable (d) in
theorem checkBody_ok_iff (ho : d.finalSeen = false) (hwin : d.windows < maxChunkWindows)
    {payload trailer : List UInt8} {observed : UInt16} {fin : Bool} :
    d.checkBody payload trailer observed fin = .ok a ↔
      d.Admits a ∧ a.payload = payload ∧ a.finalWindow = fin ∧ (fin = true → a.sum = observed) ∧
        (d.direction = .restore → trailer = leBytes 2 observed.toNat) := by
  have hexp : ¬ d.expectedSize.any (fun expected =>
        decide (d.source.length + payload.length > expected) ||
          (fin && decide (d.source.length + payload.length ≠ expected))) = true ↔
      ∀ e, d.expectedSize = some e → d.source.length + payload.length ≤ e ∧
        (fin = true → d.source.length + payload.length = e) := by
    cases d.expectedSize <;> simp
  unfold checkBody
  simp only [Fallible.guard_eq_ok_iff, Except.ok.injEq, hexp, not_or, not_and, not_not, gt_iff_lt,
    Nat.not_lt, List.isEmpty_iff, Bool.not_eq_true]
  constructor
  · rintro ⟨⟨hlen, hfull⟩, hmax, hsum, htr, hne, he, rfl⟩
    exact ⟨⟨ho, hwin, hne, hlen, hfull, rfl, hmax, rfl, he⟩, rfl, rfl, hsum, htr⟩
  · rintro ⟨ha, rfl, rfl, hsum, htr⟩
    rw [← ha.size_eq, ← ha.sum_eq]
    exact ⟨⟨ha.length_le, ha.full⟩, ha.size_le, hsum, htr, ha.nonempty, ha.expected, rfl⟩

theorem observed_toNat {bs : List UInt8} (h : bs.length = 2) :
    leBytes 2 (UInt16.ofNat (leNat bs)).toNat = bs := by
  have hlt := leNat_lt bs
  rw [h] at hlt
  have hmod : leNat bs % 2 ^ 16 = leNat bs := Nat.mod_eq_of_lt hlt
  rw [UInt16.toNat_ofNat', hmod, ← h, leBytes_leNat]

theorem check_withHeader (ho : d.finalSeen = false) (hwin : d.windows < maxChunkWindows)
    {index declared : ℕ} {rest : List UInt8} (hi : index < 65536) (h2 : 2 ≤ declared)
    (h32 : declared < 4294967296) (hlen : declared ≤ rest.length) :
    d.check (withHeader index declared rest) =
      if index = 65535 then
        d.checkBody ((rest.take declared).take (declared - 2)) (rest.drop declared)
          (UInt16.ofNat (leNat ((rest.take declared).drop (declared - 2)))) true
      else if index ≠ d.windows then .error .sequence
      else d.checkBody (rest.take declared) (rest.drop declared) 0 false := by
  have hb : (rest.take declared).length = declared := by
    rw [length_take]
    omega
  have hd : (withHeader index declared rest).drop 6 = rest := withHeader_drop 0
  unfold check
  rw [if_neg (by simp [ho]), if_neg (by omega), if_neg (by rw [length_withHeader]; omega)]
  simp only [withHeader_index hi, withHeader_declared h32, withHeader_drop, hd, hb]
  rw [if_neg (by omega), if_neg (by rw [length_withHeader]; omega)]

/-- **What a check accepts.** The accepted frames are exactly the frames of
admissible payloads, with the checked trailer in the Restore direction. -/
theorem check_ok_iff (hw : WindowSize d.window) {raw : List UInt8} : d.check raw = .ok a ↔
      d.Admits a ∧ ∃ trailer, raw = d.frame a trailer ∧
        (d.direction = .restore → trailer = trailerOf a) := by
  obtain ⟨hw2, hwm⟩ := hw
  constructor
  · intro h
    unfold check at h
    simp only [Fallible.guard_eq_ok_iff] at h
    obtain ⟨ho, hwin, h8, hde, htru, h⟩ := h
    have ho : d.finalSeen = false := by simpa using ho
    have h6 : 6 ≤ raw.length := by omega
    have hraw := withHeader_eq h6
    generalize leNat ((raw.drop 2).take 4) = declared at *
    have hr : raw.drop 6 = (raw.drop 6).take declared ++ raw.drop (6 + declared) := by
      rw [← drop_drop, take_append_drop]
    have hb : ((raw.drop 6).take declared).length = declared := by
      rw [length_take, length_drop]
      omega
    generalize (raw.drop 6).take declared = body at *
    generalize raw.drop (6 + declared) = trailer at *
    rw [hr] at hraw
    split at h
    · rename_i hi
      rw [checkBody_ok_iff d ho (by omega)] at h
      obtain ⟨ha, hp, hf, hsum, htr⟩ := h
      refine ⟨ha, trailer, ?_, fun hd => ?_⟩
      · -- the body is the payload and the observed sum
        have ht : (body.drop (body.length - 2)).length = 2 := by
          rw [length_drop]
          omega
        have hbo : body = a.payload ++ leBytes 2 a.sum.toNat := by
          rw [hp, hsum rfl, observed_toNat ht, take_append_drop]
        have hpl : a.payload.length + 2 = declared := by
          rw [hp, length_take]
          omega
        rw [frame, if_pos hf, ← hraw, hbo, hpl, hi, append_assoc]
      · rw [htr hd, trailerOf, if_pos hf, hsum rfl]
    · rw [Fallible.guard_eq_ok_iff] at h
      obtain ⟨hseq, h⟩ := h
      rw [checkBody_ok_iff d ho (by omega)] at h
      obtain ⟨ha, hp, hf, -, htr⟩ := h
      refine ⟨ha, trailer, ?_, fun hd => ?_⟩
      · rw [frame, if_neg (by simp [hf]), ← hraw, hp, hb, not_not.mp hseq]
      · rw [htr hd, trailerOf, if_neg (by simp [hf])]
        rfl
  · rintro ⟨ha, trailer, rfl, htr⟩
    have hlen := ha.length_le
    have hwin := ha.windows_lt
    have h4096 : maxChunkWindows = 4096 := rfl
    cases hf : a.finalWindow with
    | true =>
      have hta : (a.payload ++ (leBytes 2 a.sum.toNat ++ trailer)).take (a.payload.length + 2) =
          a.payload ++ leBytes 2 a.sum.toNat := by
        rw [← append_assoc, take_left' (by simp)]
      have hdr : (a.payload ++ (leBytes 2 a.sum.toNat ++ trailer)).drop (a.payload.length + 2) =
          trailer := by
        rw [← append_assoc, drop_left' (by simp)]
      have hobs : UInt16.ofNat (leNat (leBytes 2 a.sum.toNat)) = a.sum := by
        rw [leNat_leBytes a.sum.toNat_lt, UInt16.ofNat_toNat]
      rw [frame, if_pos hf, check_withHeader ha.not_final hwin (by omega) (by omega) (by omega)
        (by simp), if_pos rfl, checkBody_ok_iff d ha.not_final hwin, hta, hdr,
        Nat.add_sub_cancel, take_left, drop_left, hobs]
      exact ⟨ha, rfl, hf, fun _ => rfl, fun hd => by rw [htr hd, trailerOf, if_pos hf]⟩
    | false =>
      have hfu := ha.full hf
      rw [frame, if_neg (by simp [hf]), check_withHeader ha.not_final hwin (by omega) (by omega)
        (by omega) (by simp), if_neg (by omega), if_neg (not_not.mpr rfl),
        checkBody_ok_iff d ha.not_final hwin, take_left, drop_left]
      refine ⟨ha, rfl, hf, nofun, fun hd => ?_⟩
      rw [htr hd, trailerOf, if_neg (by simp [hf])]
      rfl

/-! ### Pushes -/

/-- What a push can do: refuse the frame and stay as it was, or take in a
frame that passed the checks. -/
theorem push_cases (alloc : Allocator) (d : SourceSum16Decoder) (raw : List UInt8) :
    (∃ e, d.push alloc raw = (.error e, d)) ∨
    (∃ a capacity, d.check raw = .ok a ∧ d.push alloc raw = (.ok (), d.extend a capacity)) := by
  unfold push
  cases hc : d.check raw with
  | error e => exact Or.inl ⟨e, rfl⟩
  | ok a =>
    simp only
    split
    · cases alloc.reserve d.capacity d.source.length (d.growth a.size - d.source.length) with
      | none => exact Or.inl ⟨.limit, rfl⟩
      | some capacity => exact Or.inr ⟨a, capacity, rfl, rfl⟩
    · exact Or.inr ⟨a, d.capacity, rfl, rfl⟩

theorem push_of_check (hg : alloc.Grants d.maxSourceSize) (hlen : d.source.length ≤ d.maxSourceSize)
    {raw : List UInt8} (hc : d.check raw = .ok a) :
    ∃ capacity, d.push alloc raw = (.ok (), d.extend a capacity) := by
  unfold push
  simp only [hc]
  split
  · have hle : d.source.length + (d.growth a.size - d.source.length) ≤ d.maxSourceSize := by
      have : d.growth a.size ≤ d.maxSourceSize := Nat.min_le_right _ _
      omega
    obtain ⟨capacity, hr⟩ := isSome_iff_exists.mp (hg d.capacity _ _ hle)
    exact ⟨capacity, by rw [hr]⟩
  · exact ⟨d.capacity, rfl⟩

/-! ### Runs of pushes -/

theorem new_ok {direction : Direction} {window maxSourceSize : ℕ} {expectedSize : Option ℕ}
    (h : new direction window maxSourceSize expectedSize = .ok d) :
    WindowSize window ∧ (∀ e, expectedSize = some e → e ≤ maxSourceSize) ∧
      d = ⟨direction, window, maxSourceSize, expectedSize, [], 0, 0, 0, false⟩ := by
  unfold new at h
  simp only [Fallible.guard_eq_ok_iff, Except.ok.injEq] at h
  obtain ⟨hw, he, rfl⟩ := h
  refine ⟨not_not.mp hw, fun e hs => ?_, rfl⟩
  simpa [hs] using he

/-- What holds of every decoder reached from a new one. -/
structure Inv (d : SourceSum16Decoder) : Prop where
  window_size : WindowSize d.window
  sum_eq : d.sum = sourceSum16 d.source
  length_le : d.source.length ≤ d.maxSourceSize
  length_le_expected : ∀ e, d.expectedSize = some e → d.source.length ≤ e
  /-- before the sentinel, every window is full -/
  full : d.finalSeen = false → d.source.length = d.windows * d.window

theorem Inv.window_pos (h : d.Inv) : 0 < d.window := Nat.lt_of_succ_lt h.window_size.1

theorem sourceSum16_append (xs ys : List UInt8) :
    sourceSum16 (xs ++ ys) = sourceSum16 xs + sourceSum16 ys := by
  have hf : ∀ (bs : List UInt8) (c : UInt16),
      bs.foldl (fun sum byte => sum + byte.toUInt16) c = c + sourceSum16 bs := by
    intro bs
    induction bs with
    | nil =>
      intro c
      exact (UInt16.add_zero c).symm
    | cons b bs ih =>
      intro c
      have hc : sourceSum16 (b :: bs) = b.toUInt16 + sourceSum16 bs := by
        rw [sourceSum16, foldl_cons, ih, UInt16.zero_add]
      rw [foldl_cons, ih, hc, UInt16.add_assoc]
  rw [sourceSum16, foldl_append, hf]
  rfl

theorem inv_new {direction : Direction} {window maxSourceSize : ℕ} {expectedSize : Option ℕ}
    (h : new direction window maxSourceSize expectedSize = .ok d) :
    d.Inv := by
  obtain ⟨hw, he, rfl⟩ := new_ok h
  exact ⟨hw, rfl, Nat.zero_le _, fun e _ => Nat.zero_le _, fun _ => by simp⟩

theorem inv_extend (hd : d.Inv) (ha : d.Admits a) (capacity : ℕ) : (d.extend a capacity).Inv := by
  have hlen : a.size = (d.source ++ a.payload).length := by
    rw [length_append, ha.size_eq]
  refine ⟨hd.window_size, ?_, hlen ▸ ha.size_le, fun e he => hlen ▸ (ha.expected e he).1,
    fun hf => ?_⟩
  · show a.sum = sourceSum16 (d.source ++ a.payload)
    rw [sourceSum16_append, ha.sum_eq, hd.sum_eq]
  · show (d.source ++ a.payload).length = (d.windows + 1) * d.window
    rw [length_append, hd.full ha.not_final, ha.full hf, Nat.succ_mul]

theorem inv_push (hd : d.Inv) (raw : List UInt8) : (d.push alloc raw).2.Inv := by
  rcases push_cases alloc d raw with ⟨e, hp⟩ | ⟨a, capacity, hc, hp⟩
  · rwa [hp]
  · rw [hp]
    exact inv_extend hd ((check_ok_iff hd.window_size).1 hc).1 capacity

/-- What the constructor fixed. -/
def SameConfig (d d' : SourceSum16Decoder) : Prop :=
  d'.direction = d.direction ∧ d'.window = d.window ∧ d'.maxSourceSize = d.maxSourceSize ∧
    d'.expectedSize = d.expectedSize

theorem sameConfig_push {d₀ : SourceSum16Decoder} (h : SameConfig d₀ d) (raw : List UInt8) :
    SameConfig d₀ (d.push alloc raw).2 := by
  rcases push_cases alloc d raw with ⟨e, hp⟩ | ⟨a, capacity, -, hp⟩
  · rwa [hp]
  · rw [hp]
    exact h

/-- Whether a frame was accepted. -/
def isOk (r : Except ChunkError Unit) : Bool :=
  match r with
  | .ok _ => true
  | .error _ => false

theorem push_refused (alloc : Allocator) (d : SourceSum16Decoder) (raw : List UInt8)
    (h : isOk (d.push alloc raw).1 = false) : (d.push alloc raw).2 = d := by
  rcases push_cases alloc d raw with ⟨e, hp⟩ | ⟨a, capacity, -, hp⟩
  · rw [hp]
  · rw [hp] at h
    cases h

end SourceSum16Decoder

open SourceSum16Decoder Machine

/-- **Rejected frames leave no trace, and the stored source is sound.** For
every sequence of byte strings pushed into a new decoder: whatever is pushed
or finished afterwards is answered as if only the accepted ones had been
pushed; and in the state reached the sum is that of the stored bytes, their
number exceeds neither the maximum nor the expected size, and a further frame
that is accepted without ending the transfer adds exactly one window. -/
theorem chunk_decoder_invariants (alloc : Allocator) (direction : Direction)
    (window maxSourceSize : ℕ) (expectedSize : Option ℕ) (d : SourceSum16Decoder)
    (hnew : SourceSum16Decoder.new direction window maxSourceSize expectedSize = .ok d)
    (frames : List (List UInt8)) :
    (∀ more, outputs (push alloc) (run (push alloc) d frames) more =
        outputs (push alloc) (run (push alloc) d (accepted (push alloc) isOk d frames)) more ∧
      (run (push alloc) d (frames ++ more)).finish =
        (run (push alloc) d (accepted (push alloc) isOk d frames ++ more)).finish) ∧
    (run (push alloc) d frames).sum = sourceSum16 (run (push alloc) d frames).source ∧
    (run (push alloc) d frames).source.length ≤ maxSourceSize ∧
    (∀ e, expectedSize = some e → (run (push alloc) d frames).source.length ≤ e) ∧
    (∀ raw, ((run (push alloc) d frames).push alloc raw).1 = .ok () →
      ((run (push alloc) d frames).push alloc raw).2.finalSeen = false →
      ∃ payload, payload.length = window ∧
        ((run (push alloc) d frames).push alloc raw).2.source =
          (run (push alloc) d frames).source ++ payload) := by
  have hinv := run_invariant (P := Inv) (push alloc) (fun s i hs => inv_push hs i) d frames
    (inv_new hnew)
  obtain ⟨-, hwin, hmax, hexp⟩ := run_invariant (P := SameConfig d) (push alloc)
    (fun s i hs => sameConfig_push hs i) d frames ⟨rfl, rfl, rfl, rfl⟩
  have hrun := run_accepted (push_refused alloc) d frames
  obtain ⟨-, -, rfl⟩ := new_ok hnew
  refine ⟨fun more => ⟨by rw [hrun], by rw [run_append, run_append, hrun]⟩, hinv.sum_eq,
    Nat.le_trans hinv.length_le (Nat.le_of_eq hmax),
    fun e he => hinv.length_le_expected e (hexp.trans he), ?_⟩
  intro raw hok hf
  rcases push_cases alloc (run (push alloc) _ frames) raw with ⟨e, hp⟩ | ⟨a, capacity, hc, hp⟩
  · rw [hp] at hok
    cases hok
  · rw [hp] at hf ⊢
    have ha := ((check_ok_iff hinv.window_size).1 hc).1
    exact ⟨a.payload, (ha.full hf).trans hwin, rfl⟩

/-- A short frame is refused, then a transfer of two bytes is accepted. -/
theorem chunk_decoder_invariants_twoBytes :
    (run (push .unbounded) ⟨.restore, 120, 4096, none, [], 0, 0, 0, false⟩
      [[1, 2], [0xff, 0xff, 4, 0, 0, 0, 0x80, 0xff, 0x7f, 0x01, 0x7f, 0x01]]).sum =
        sourceSum16 [0x80, 0xff] :=
  (chunk_decoder_invariants .unbounded .restore 120 4096 none _ rfl
    [[1, 2], [0xff, 0xff, 4, 0, 0, 0, 0x80, 0xff, 0x7f, 0x01, 0x7f, 0x01]]).2.1

/-! ### The encoder's frames -/

/-- The ordinal of the last window. -/
def lastWindow (source : List UInt8) (size : ℕ) : ℕ := (source.length - 1) / size

def windowAt (source : List UInt8) (size ordinal : ℕ) : List UInt8 :=
  (source.drop (ordinal * size)).take size

def ordinaryFrame (source : List UInt8) (size ordinal : ℕ) : List UInt8 :=
  withHeader ordinal (windowAt source size ordinal).length
    (windowAt source size ordinal ++ leBytes 2 0)

def finalFrame (source : List UInt8) (size : ℕ) : List UInt8 :=
  let payload := windowAt source size (lastWindow source size)
  let sum := leBytes 2 (sourceSum16 source).toNat
  withHeader 65535 (payload.length + 2) (payload ++ (sum ++ sum))

/-- The frames from the window `ordinal` on. -/
def framesFrom (source : List UInt8) (size ordinal : ℕ) : List (List UInt8) :=
  (List.range' ordinal (lastWindow source size - ordinal)).map (ordinaryFrame source size) ++
    [finalFrame source size]

variable {source : List UInt8} {ordinal : ℕ} {header : UInt64 → UInt64 → Option (List UInt8)}
  {size : ℕ}

theorem framesFrom_succ (h : ordinal < lastWindow source size) :
    framesFrom source size ordinal =
      ordinaryFrame source size ordinal :: framesFrom source size (ordinal + 1) := by
  unfold framesFrom
  rw [show lastWindow source size - ordinal = lastWindow source size - (ordinal + 1) + 1 by omega,
    List.range'_succ, map_cons, cons_append]

/-- A header encoder with the fixed layout of the checksum policy. -/
def ChecksumLayout (header : UInt64 → UInt64 → Option (List UInt8)) : Prop :=
  ∀ index declared, index ≤ 65535 → declared ≤ 4294967295 →
    header index declared = some (checksumHeader index declared)

/-- The indices a transfer goes through: the ordinals of the full windows,
then the sentinel. -/
def windowIndices (source : List UInt8) (size : ℕ) : List UInt64 :=
  (List.range (lastWindow source size)).map UInt64.ofNat ++ [sentinel]

/-- The checksum encoder's frames of a whole transfer. -/
def encodeAll (source : List UInt8) (size : ℕ)
    (header : UInt64 → UInt64 → Option (List UInt8)) : Except ChunkError (List (List UInt8)) :=
  (windowIndices source size).mapM fun index =>
    encodeWindow source size index sentinel (some .sourceSum16Le) header

theorem windowAt_length_le (source : List UInt8) (size ordinal : ℕ) :
    (windowAt source size ordinal).length ≤ size := by
  rw [windowAt, length_take]
  exact Nat.min_le_left _ _

theorem succ_mul_le (hs : 0 < size) (h : ordinal < lastWindow source size) :
    (ordinal + 1) * size ≤ source.length - 1 :=
  (Nat.le_div_iff_mul_le hs).mp h

theorem lastWindow_mul_lt (hne : source ≠ []) : lastWindow source size * size < source.length := by
  have hpos : 0 < source.length := length_pos_iff.mpr hne
  have := Nat.div_mul_le_self (source.length - 1) size
  unfold lastWindow
  omega

theorem lt_succ_lastWindow_mul (hs : 0 < size) :
    source.length ≤ (lastWindow source size + 1) * size := by
  have := Nat.lt_mul_div_succ (source.length - 1) hs
  rw [Nat.mul_comm] at this
  unfold lastWindow
  omega

theorem windowAt_length_full (hs : 0 < size) (h : ordinal < lastWindow source size) :
    (windowAt source size ordinal).length = size := by
  have := succ_mul_le hs h
  rw [Nat.succ_mul] at this
  rw [windowAt, length_take, length_drop]
  omega

theorem take_windowAt (source : List UInt8) (size ordinal : ℕ) :
    source.take (ordinal * size) ++ windowAt source size ordinal =
      source.take ((ordinal + 1) * size) := by
  rw [windowAt, ← take_add, Nat.succ_mul]

theorem frameWindow_of_header {index declared : UInt64} {fin : Bool} {head : List UInt8}
    {checksum : Option ChunkChecksum} (hd : declared = UInt64.ofNat
      ((windowAt source size ordinal).length + if checksum.isSome && fin then 2 else 0))
    (hh : header index declared = some head) (hl : checksum.isSome →
      index ≤ 65535 ∧ declared ≤ 4294967295 ∧ head = checksumHeader index declared) :
    frameWindow source size ordinal index fin checksum header =
      .ok (head ++ windowAt source size ordinal ++ if checksum.isSome then
        (if fin then leBytes 2 (sourceSum16 source).toNat else []) ++
          leBytes 2 (if fin then (sourceSum16 source).toNat else 0) else []) := by
  have hno : ¬ (checksum.isSome ∧ (index > 65535 ∨ declared > 4294967295 ∨
      head ≠ checksumHeader index declared)) := by
    rintro ⟨hc, h⟩
    obtain ⟨hi, hde, hch⟩ := hl hc
    exact h.elim (UInt64.not_lt.mpr hi) (Or.rec (UInt64.not_lt.mpr hde) fun hn => hn hch)
  simp only [frameWindow, ← windowAt.eq_def, ← hd, hh, if_neg hno]
  cases checksum <;> cases fin <;> rfl

theorem frameWindow_checksum {index : UInt64} (hh : ChecksumLayout header) (hs : WindowSize size)
    (hi : index ≤ 65535) (fin : Bool) :
    frameWindow source size ordinal index fin (some .sourceSum16Le) header =
      .ok (withHeader index.toNat ((windowAt source size ordinal).length + if fin then 2 else 0)
        (windowAt source size ordinal ++
          ((if fin then leBytes 2 (sourceSum16 source).toNat else []) ++
            leBytes 2 (if fin then (sourceSum16 source).toNat else 0)))) := by
  have hlen := windowAt_length_le source size ordinal
  obtain ⟨-, hmax⟩ := hs
  obtain ⟨n, hn⟩ : ∃ n, n = (windowAt source size ordinal).length + if fin then 2 else 0 := ⟨_, rfl⟩
  have hle : n ≤ 4294967295 := by
    cases fin <;> simp at hn <;> omega
  have h64 : (UInt64.ofNat n).toNat = n := by
    rw [UInt64.toNat_ofNat', Nat.mod_eq_of_lt (by omega)]
  have hd : UInt64.ofNat n ≤ 4294967295 := by
    rw [UInt64.le_iff_toNat_le, h64]
    exact hle
  have hi16 : index.toUInt16.toNat = index.toNat := Nat.mod_eq_of_lt (Nat.lt_succ_of_le hi)
  have hn32 : (UInt64.ofNat n).toUInt32.toNat = n := by
    rw [UInt64.toNat_toUInt32, h64, Nat.mod_eq_of_lt (by omega)]
  rw [frameWindow_of_header (by rw [hn]; rfl) (hh _ _ hi hd) fun _ => ⟨hi, hd, rfl⟩, ← hn,
    checksumHeader, hi16, hn32, withHeader]
  simp

/-- An admissible layout frames the window that the index selects. -/
theorem encodeWindow_eq {index last : UInt64} {checksum : Option ChunkChecksum} {w : ℕ}
    (hc : checksum.isSome → WindowSize size ∧ last = sentinel) (hw : max size 1 = w)
    (hne : source ≠ []) (hlim : lastWindow source w < maxChunkWindows)
    (hord : windowOrdinal index last (lastWindow source w) = .ok ordinal) :
    encodeWindow source size index last checksum header =
      frameWindow source w ordinal index (decide (index = last)) checksum header := by
  unfold encodeWindow
  rw [if_neg (by rintro ⟨h, hs | hs⟩; exacts [hs (hc h).1, hs (hc h).2]),
    if_neg fun h => hne (isEmpty_iff.mp h.1)]
  simp only [hw]
  rw [← lastWindow.eq_def, if_neg (by omega), hord]

theorem windowOrdinal_ofNat {last : UInt64} {full : ℕ} (ho : ordinal < full)
    (hl : full ≤ last.toNat) :
    (UInt64.ofNat ordinal).toNat = ordinal ∧ UInt64.ofNat ordinal ≠ last ∧
      windowOrdinal (UInt64.ofNat ordinal) last full = .ok ordinal := by
  have hn : (UInt64.ofNat ordinal).toNat = ordinal := by
    have := last.toNat_lt
    rw [UInt64.toNat_ofNat', Nat.mod_eq_of_lt (by omega)]
  have hne : UInt64.ofNat ordinal ≠ last := by
    rintro rfl
    omega
  exact ⟨hn, hne, by rw [windowOrdinal, if_neg hne, hn, if_neg (by omega)]⟩

theorem WindowSize.max_one (hs : WindowSize size) : max size 1 = size :=
  Nat.max_eq_left (Nat.one_le_of_lt hs.1)

theorem encodeWindow_ordinary (hh : ChecksumLayout header) (hs : WindowSize size)
    (hne : source ≠ []) (hlim : lastWindow source size < maxChunkWindows)
    (ho : ordinal < lastWindow source size) :
    encodeWindow source size (UInt64.ofNat ordinal) sentinel (some .sourceSum16Le) header =
      .ok (ordinaryFrame source size ordinal) := by
  have h4096 : maxChunkWindows = 4096 := rfl
  obtain ⟨hn, hse, hord⟩ := windowOrdinal_ofNat ho
    (show _ ≤ sentinel.toNat by show _ ≤ 65535; omega)
  have hle : UInt64.ofNat ordinal ≤ 65535 := by
    rw [UInt64.le_iff_toNat_le, hn]
    exact (by omega : ordinal ≤ 65535)
  rw [encodeWindow_eq (fun _ => ⟨hs, rfl⟩) hs.max_one hne hlim hord, decide_eq_false hse,
    frameWindow_checksum hh hs hle, hn]
  simp [ordinaryFrame]

theorem encodeWindow_final (hh : ChecksumLayout header) (hs : WindowSize size) (hne : source ≠ [])
    (hlim : lastWindow source size < maxChunkWindows) :
    encodeWindow source size sentinel sentinel (some .sourceSum16Le) header =
      .ok (finalFrame source size) := by
  have hord : windowOrdinal sentinel sentinel (lastWindow source size) =
      .ok (lastWindow source size) := by rw [windowOrdinal, if_pos rfl]
  rw [encodeWindow_eq (fun _ => ⟨hs, rfl⟩) hs.max_one hne hlim hord, decide_eq_true rfl,
    frameWindow_checksum hh hs (by decide)]
  rfl

/-- The encoder's output for a whole source. -/
theorem encodeAll_ok (hh : ChecksumLayout header) (hs : WindowSize size) (hne : source ≠ [])
    (hlim : lastWindow source size < maxChunkWindows) :
    encodeAll source size header = .ok (framesFrom source size 0) := by
  have hord : ∀ i ∈ List.range (lastWindow source size),
      encodeWindow source size (UInt64.ofNat i) sentinel (some .sourceSum16Le) header =
        .ok (ordinaryFrame source size i) :=
    fun i hi => encodeWindow_ordinary hh hs hne hlim (mem_range.mp hi)
  unfold encodeAll windowIndices framesFrom
  rw [mapM_append, mapM_map]
  have := Fallible.mapM_eq_ok_iff.mpr (forall₂_map_right_iff.mpr (forall₂_same.mpr hord))
  simp only [Function.comp_def] at this ⊢
  rw [this]
  simp only [mapM_cons, encodeWindow_final hh hs hne hlim, mapM_nil]
  rw [Nat.sub_zero, range_eq_range']
  rfl

/-! ### Whole transfers -/

/-- The decoder has taken in the windows of `source` before `ordinal`, and
its limits admit the rest. -/
structure At (source : List UInt8) (ordinal : ℕ) (d : SourceSum16Decoder) : Prop where
  inv : d.Inv
  not_final : d.finalSeen = false
  windows_eq : d.windows = ordinal
  source_eq : d.source = source.take (ordinal * d.window)
  le_max : source.length ≤ d.maxSourceSize
  expected : d.expectedSize = none ∨ d.expectedSize = some source.length

section transfer

variable {source : List UInt8} {ordinal : ℕ} {d : SourceSum16Decoder}

/-- The next full window as it is taken in, and the rest of the source. -/
def fullWindow (source : List UInt8) (ordinal : ℕ) (d : SourceSum16Decoder) : Accepted :=
  ⟨windowAt source d.window ordinal, d.source.length + d.window,
    d.sum + sourceSum16 (windowAt source d.window ordinal), false⟩

def restWindow (source : List UInt8) (d : SourceSum16Decoder) : Accepted :=
  ⟨windowAt source d.window (lastWindow source d.window), source.length, sourceSum16 source, true⟩

theorem At.admits_ordinary (h : At source ordinal d)
    (hlim : lastWindow source d.window < maxChunkWindows)
    (ho : ordinal < lastWindow source d.window) : d.Admits (fullWindow source ordinal d) := by
  have hs := h.inv.window_pos
  have hf := windowAt_length_full hs ho
  have hle := succ_mul_le hs ho
  have hlen : d.source.length = ordinal * d.window := by
    rw [h.inv.full h.not_final, h.windows_eq]
  rw [Nat.succ_mul] at hle
  refine ⟨h.not_final, by rw [h.windows_eq]; omega, ?_, Nat.le_of_eq hf, fun _ => hf,
    congrArg _ hf.symm, ?_, rfl, fun e he => ?_⟩
  · exact length_pos_iff.mp (hf ▸ hs)
  · have := h.le_max
    simp only [fullWindow]
    omega
  · obtain rfl : source.length = e := by simpa [he, eq_comm] using h.expected
    exact ⟨by simp only [fullWindow]; omega, nofun⟩

theorem take_append_last (source : List UInt8) {size : ℕ} (hs : 0 < size) :
    source.take (lastWindow source size * size) ++ windowAt source size (lastWindow source size) =
      source := by
  rw [take_windowAt, take_of_length_le (lt_succ_lastWindow_mul hs)]

theorem At.admits_final (h : At source (lastWindow source d.window) d) (hne : source ≠ [])
    (hlim : lastWindow source d.window < maxChunkWindows) : d.Admits (restWindow source d) := by
  have hs := h.inv.window_pos
  have hlt : lastWindow source d.window * d.window < source.length := lastWindow_mul_lt hne
  have hle : source.length ≤ (lastWindow source d.window + 1) * d.window :=
    lt_succ_lastWindow_mul hs
  rw [Nat.succ_mul] at hle
  have hlen : d.source.length = lastWindow source d.window * d.window := by
    rw [h.inv.full h.not_final, h.windows_eq]
  have hpay : (windowAt source d.window (lastWindow source d.window)).length =
      source.length - lastWindow source d.window * d.window := by
    rw [windowAt, length_take, length_drop]
    omega
  refine ⟨h.not_final, by rw [h.windows_eq]; omega, ?_, windowAt_length_le .., nofun, ?_, h.le_max,
    ?_, fun e he => ?_⟩
  · exact length_pos_iff.mp (hpay ▸ by omega)
  · simp only [restWindow, hpay]
    omega
  · rw [h.inv.sum_eq, restWindow, ← sourceSum16_append, h.source_eq, take_append_last source hs]
  · obtain rfl : source.length = e := by simpa [he, eq_comm] using h.expected
    exact ⟨Nat.le_refl _, fun _ => rfl⟩

variable {alloc : Allocator}

/-- The remaining frames are accepted one by one, and the source comes
back. -/
theorem At.transfer (hne : source ≠ []) : ∀ (k : ℕ) (ordinal : ℕ)
    (d : SourceSum16Decoder), At source ordinal d → alloc.Grants d.maxSourceSize →
    lastWindow source d.window < maxChunkWindows → ordinal + k = lastWindow source d.window →
    (∀ o ∈ outputs (push alloc) d (framesFrom source d.window ordinal), o = .ok ()) ∧
      (run (push alloc) d (framesFrom source d.window ordinal)).finish = .ok source
  | 0, ordinal, d, h, hg, hlim, hk => by
    rw [Nat.add_zero] at hk
    subst hk
    have ha := h.admits_final hne hlim
    have hc := (check_ok_iff h.inv.window_size).2 ⟨ha, _, rfl, fun _ => rfl⟩
    obtain ⟨capacity, hp⟩ := push_of_check hg h.inv.length_le hc
    have hfr : framesFrom source d.window (lastWindow source d.window) =
        [d.frame (restWindow source d) (trailerOf (restWindow source d))] := by
      simp [framesFrom, finalFrame, frame, trailerOf, restWindow]
    rw [hfr]
    simp only [outputs, run, hp]
    refine ⟨fun o ho => mem_singleton.mp ho, ?_⟩
    show (Except.ok (d.source ++ windowAt source d.window _) : Except ChunkError _) = .ok source
    rw [h.source_eq, take_append_last source h.inv.window_pos]
  | k + 1, ordinal, d, h, hg, hlim, hk => by
    have ho : ordinal < lastWindow source d.window := by omega
    have ha := h.admits_ordinary hlim ho
    have hc := (check_ok_iff h.inv.window_size).2 ⟨ha, _, rfl, fun _ => rfl⟩
    obtain ⟨capacity, hp⟩ := push_of_check hg h.inv.length_le hc
    have hf : d.frame (fullWindow source ordinal d) (trailerOf (fullWindow source ordinal d)) =
        ordinaryFrame source d.window ordinal := by
      simp [frame, trailerOf, ordinaryFrame, fullWindow, h.windows_eq]
    rw [hf] at hp
    have hn : At source (ordinal + 1) (d.extend (fullWindow source ordinal d) capacity) := by
      refine ⟨inv_extend h.inv ha capacity, rfl, ?_, ?_, h.le_max, h.expected⟩
      · show d.windows + 1 = ordinal + 1
        rw [h.windows_eq]
      · show d.source ++ windowAt source d.window ordinal = source.take ((ordinal + 1) * d.window)
        rw [h.source_eq, take_windowAt]
    obtain ⟨hout, hfin⟩ := At.transfer hne k (ordinal + 1) _ hn hg hlim
      (by show ordinal + 1 + k = lastWindow source d.window; omega)
    rw [framesFrom_succ ho]
    simp only [outputs, run, hp]
    exact ⟨forall_mem_cons.mpr ⟨rfl, hout⟩, hfin⟩

theorem push_after_final (hf : d.finalSeen = true) (raw : List UInt8) :
    (d.push alloc raw).1 ≠ .ok () := by
  have hc : d.check raw = .error .afterSentinel := by rw [check, if_pos hf]
  rcases push_cases alloc d raw with ⟨e, hp⟩ | ⟨a, capacity, hok, -⟩
  · rw [hp]
    exact nofun
  · rw [hc] at hok
    cases hok

/-- **Canonicity.** Frames that a Restore decoder accepts and finishes are
the encoder's frames of the returned source, from the decoder's window on. -/
theorem restore_canonical (source : List UInt8) :
    ∀ (frames : List (List UInt8)) (d : SourceSum16Decoder), d.Inv → d.finalSeen = false →
      d.direction = .restore → (∀ o ∈ outputs (push alloc) d frames, o = .ok ()) →
      (run (push alloc) d frames).finish = .ok source →
      source ≠ [] ∧ lastWindow source d.window < maxChunkWindows ∧
        d.windows ≤ lastWindow source d.window ∧
        d.source = source.take (d.windows * d.window) ∧
        frames = framesFrom source d.window d.windows
  | [], d, _, ho, _, _, hfin => by
    simp only [run, finish, ho] at hfin
    cases hfin
  | f :: fs, d, hinv, ho, hr, hall, hfin => by
    have hs := hinv.window_pos
    simp only [outputs, run, forall_mem_cons] at hall hfin
    rcases push_cases alloc d f with ⟨e, hp⟩ | ⟨a, capacity, hc, hp⟩
    · rw [hp] at hall
      cases hall.1
    obtain ⟨ha, trailer, hf, htr⟩ := (check_ok_iff hinv.window_size).1 hc
    have htr := htr hr
    have hlen := hinv.full ho
    have hpos : 0 < a.payload.length := length_pos_iff.mpr ha.nonempty
    have hple := ha.length_le
    rw [hp] at hall hfin
    cases hfw : a.finalWindow with
    | true =>
      -- the transfer ends here: no further frame is accepted
      have hend : (d.extend a capacity).finalSeen = true := hfw
      cases fs with
      | cons g gs => exact absurd (hall.2 _ (mem_cons_self ..)) (push_after_final hend g)
      | nil =>
        have hsrc : source = d.source ++ a.payload := by
          simp only [run, finish, hend, not_true_eq_false, if_false, Except.ok.injEq] at hfin
          exact hfin.symm
        have hl : lastWindow source d.window = d.windows := by
          rw [lastWindow, hsrc, length_append, hlen]
          rw [show d.windows * d.window + a.payload.length - 1 =
            a.payload.length - 1 + d.windows * d.window by omega, Nat.add_mul_div_right _ _ hs,
            Nat.div_eq_of_lt (by omega), Nat.zero_add]
        have ht : source.take (d.windows * d.window) = d.source := by
          rw [hsrc, ← hlen, take_left]
        have hwin : windowAt source d.window d.windows = a.payload := by
          rw [windowAt, hsrc, ← hlen, drop_left, take_of_length_le hple]
        have hsum : a.sum = sourceSum16 source := by
          rw [ha.sum_eq, hinv.sum_eq, ← sourceSum16_append, hsrc]
        refine ⟨?_, by rw [hl]; exact ha.windows_lt, Nat.le_of_eq hl.symm, ht.symm, ?_⟩
        · rw [hsrc]
          exact fun h => ha.nonempty (append_eq_nil_iff.mp h).2
        · rw [hf, htr, frame, if_pos hfw, trailerOf, if_pos hfw]
          simp [framesFrom, finalFrame, hl, hwin, hsum]
    | false =>
      obtain ⟨hne, hlim, hle, hsrc, hfs⟩ := restore_canonical source fs (d.extend a capacity)
        (inv_extend hinv ha capacity) hfw hr hall.2 hfin
      have hle : d.windows + 1 ≤ lastWindow source d.window := hle
      have hsrc : d.source ++ a.payload = source.take ((d.windows + 1) * d.window) := hsrc
      have hmul := succ_mul_le hs hle
      rw [Nat.succ_mul] at hmul
      have ht : d.source = source.take (d.windows * d.window) := by
        have h1 : (d.source ++ a.payload).take d.source.length = d.source := take_left
        rw [hsrc, take_take, hlen, Nat.succ_mul, Nat.min_eq_left (by omega)] at h1
        exact h1.symm
      have hwin : a.payload = windowAt source d.window d.windows := by
        have h1 : (d.source ++ a.payload).drop d.source.length = a.payload := drop_left
        rw [← h1, hsrc, hlen, ← take_windowAt, drop_left' (by
          rw [length_take]; omega)]
      refine ⟨hne, hlim, by omega, ht, ?_⟩
      rw [framesFrom_succ hle, hfs, hf, htr, frame, if_neg (by simp [hfw]), trailerOf,
        if_neg (by simp [hfw]), hwin]
      rfl

end transfer

/-- **The checksum framing is exact.** For every window size and every
non-empty source of at most 4096 windows, in both directions: the frames of
the checksum encoder are accepted one by one by a new decoder whose limits
admit the source, and `finish` returns the source. In the Restore direction
every frame sequence that a new decoder accepts and finishes is the encoder's
output for the returned source. -/
theorem chunk_transfer_exact (header : UInt64 → UInt64 → Option (List UInt8))
    (hh : ChecksumLayout header) (alloc : Allocator) (window maxSourceSize : ℕ)
    (expectedSize : Option ℕ) :
    (∀ (direction : Direction) (source : List UInt8) (d : SourceSum16Decoder),
      WindowSize window → source ≠ [] → lastWindow source window < maxChunkWindows →
      alloc.Grants maxSourceSize → source.length ≤ maxSourceSize →
      (expectedSize = none ∨ expectedSize = some source.length) →
      SourceSum16Decoder.new direction window maxSourceSize expectedSize = .ok d →
      ∃ frames, encodeAll source window header = .ok frames ∧
        (∀ o ∈ outputs (push alloc) d frames, o = .ok ()) ∧
        (run (push alloc) d frames).finish = .ok source) ∧
    (∀ (d : SourceSum16Decoder) (frames : List (List UInt8)) (source : List UInt8),
      SourceSum16Decoder.new .restore window maxSourceSize expectedSize = .ok d →
      (∀ o ∈ outputs (push alloc) d frames, o = .ok ()) →
      (run (push alloc) d frames).finish = .ok source →
      encodeAll source window header = .ok frames) := by
  constructor
  · intro direction source d hs hne hlim hg hmax hexp hnew
    have hinv := inv_new hnew
    obtain ⟨-, -, rfl⟩ := new_ok hnew
    refine ⟨framesFrom source window 0, encodeAll_ok hh hs hne hlim, ?_⟩
    exact At.transfer hne (lastWindow source window) 0 _
      ⟨hinv, rfl, rfl, by simp, hmax, hexp⟩ hg hlim (Nat.zero_add _)
  · intro d frames source hnew hall hfin
    have hinv := inv_new hnew
    obtain ⟨hs, -, rfl⟩ := new_ok hnew
    obtain ⟨hne, hlim, -, -, rfl⟩ := restore_canonical source frames _ hinv rfl rfl hall hfin
    exact encodeAll_ok hh hs hne hlim

/-- Five bytes in windows of two, and three frames that a decoder accepts. -/
theorem chunk_transfer_exact_threeFrames :
    (∃ frames, encodeAll [1, 2, 3, 4, 5] 2 (fun i n => some (checksumHeader i n)) = .ok frames ∧
      (∀ o ∈ outputs (push .unbounded) ⟨.backup, 2, 64, none, [], 0, 0, 0, false⟩ frames,
        o = .ok ()) ∧
      (run (push .unbounded) ⟨.backup, 2, 64, none, [], 0, 0, 0, false⟩ frames).finish =
        .ok [1, 2, 3, 4, 5]) ∧
    encodeAll [1, 2, 3, 4, 5] 2 (fun i n => some (checksumHeader i n)) =
      .ok [[0, 0, 2, 0, 0, 0, 1, 2, 0, 0], [1, 0, 2, 0, 0, 0, 3, 4, 0, 0],
        [0xff, 0xff, 3, 0, 0, 0, 5, 15, 0, 15, 0]] :=
  have transfer := chunk_transfer_exact (fun i n => some (checksumHeader i n)) (fun _ _ _ _ => rfl)
    .unbounded 2 64 none
  ⟨transfer.1 .backup _ _ (by decide) (by decide) (by decide) (fun _ _ _ _ => rfl) (by decide)
    (.inl rfl) rfl, transfer.2 _ _ _ rfl (by decide) rfl⟩

end Ptpsim.Primitives
