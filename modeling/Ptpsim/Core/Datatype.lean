/-
# The byte cursor and the PTP wire datatypes

`Reader` is the little-endian cursor of `ptp-core`: a buffer and a position
inside it. `Writer` is the append-only output buffer. Over them stand the
datatypes every other codec is built from: fixed-width integers, the counted
UTF-16 string with its trailing NUL, and the `u32`-counted array.

The unread part of a reader (`Reader.unread`) is its view in the sense of
`Codec`. The array reader refuses a count beyond the bytes that are left before
it reads any element; it is stable all the same, because each element takes
at least one byte (`Advances`).
-/
import Ptpsim.Lib.Bytes
import Ptpsim.Lib.Codec
import Ptpsim.Lib.Utf16

namespace Ptpsim.Core

open Codec List

/-- Why bytes do not decode. -/
inductive DecodeError where
  | unexpectedEof (offset needed : ℕ)
  | invalidString (reason : String)
  | lengthMismatch (declared actual : ℕ)
  | unknownPacketType (type : UInt32)
  | trailingBytes (remaining : ℕ)
  | arrayTooLong (count : UInt32)
deriving DecidableEq, Repr

/-- Why a value does not encode. -/
inductive EncodeError where
  | stringTooLong (units : ℕ)
deriving DecidableEq, Repr

/-- Sanity ceiling on a decoded array count. -/
def maxElements : UInt32 := 16777216

/-! ### The reader -/

/-- A cursor over a byte slice; the position never leaves the buffer. -/
structure Reader where
  buf : List UInt8
  pos : ℕ
  pos_le : pos ≤ buf.length

abbrev Decoder := StateT Reader (Except DecodeError)

namespace Reader

def new (buf : List UInt8) : Reader := ⟨buf, 0, Nat.zero_le _⟩

def remaining (r : Reader) : ℕ := r.buf.length - r.pos

/-- The bytes the cursor has not passed yet. -/
def unread (r : Reader) : List UInt8 := r.buf.drop r.pos

/-- A complete dataset or packet consumed the entire input. -/
def finish : Decoder Unit := fun r =>
  match r.remaining with
  | 0 => .ok ((), r)
  | n + 1 => .error (.trailingBytes (n + 1))

/-- The next `n` bytes. -/
def take (n : ℕ) : Decoder (List UInt8) := fun r =>
  if h : r.remaining < n then .error (.unexpectedEof r.pos (n - r.remaining))
  else .ok (r.unread.take n, ⟨r.buf, r.pos + n, by
    have := r.pos_le
    unfold remaining at h
    omega⟩)

/-- The number of the next `k` bytes, read little-endian. -/
def word (k : ℕ) : Decoder ℕ := leNat <$> take k

def u8 : Decoder UInt8 := UInt8.ofNat <$> word 1

def i8 : Decoder Int8 := UInt8.toInt8 <$> u8

def u16 : Decoder UInt16 := UInt16.ofNat <$> word 2

def i16 : Decoder Int16 := UInt16.toInt16 <$> u16

def u32 : Decoder UInt32 := UInt32.ofNat <$> word 4

def i32 : Decoder Int32 := UInt32.toInt32 <$> u32

def u64 : Decoder UInt64 := UInt64.ofNat <$> word 8

def i64 : Decoder Int64 := UInt64.toInt64 <$> u64

def bytes (n : ℕ) : Decoder (List UInt8) := take n

/-- Read the rest of the buffer. -/
def rest : Decoder (List UInt8) := fun r => .ok (r.unread, ⟨r.buf, r.buf.length, le_rfl⟩)

/-- A string's code units without the trailing NUL terminator, if present. -/
def dropTerminator (units : List UInt16) : List UInt16 :=
  if units.getLast? = some 0 then units.dropLast else units

/-- PTP string: a `u8` count of code units including the trailing NUL, then
the units. A count of 0 is the empty string. -/
def ptpString : Decoder String := do
  let count ← u8
  if count = 0 then pure ""
  else
    let units ← times u16 count.toNat
    match Utf16.decode (dropTerminator units) with
    | some cs => pure (String.ofList cs)
    | none => throw (.invalidString "not valid UTF-16")

/-- A count that exceeds the available bytes fails before any element is
decoded. -/
def ensure (n : ℕ) : Decoder Unit := fun r =>
  if r.remaining < n then .error (.unexpectedEof r.pos (n - r.remaining)) else .ok ((), r)

/-- PTP array: a `u32` element count, then the elements decoded by `f`. -/
def ptpArray {α : Type} (f : Decoder α) : Decoder (List α) := do
  let count ← u32
  if count > maxElements then throw (.arrayTooLong count)
  else
    ensure count.toNat
    times f count.toNat

/-- A decoder of a whole buffer: the value, then the end of the input. -/
def whole {α : Type} (p : Decoder α) (bytes : List UInt8) : Except DecodeError α :=
  StateT.run' (do
    let value ← p
    finish
    pure value) (new bytes)

end Reader

/-! ### The writer -/

/-- The append-only output buffer. -/
abbrev Writer := List UInt8

/-- A failing encoder keeps what it wrote before the failure. -/
abbrev Encoder := EStateM EncodeError Writer Unit

namespace Writer

def bytes (bs : List UInt8) : Encoder := fun w => .ok () (w ++ bs)

def word (k n : ℕ) : Encoder := bytes (leBytes k n)

def u8 (v : UInt8) : Encoder := word 1 v.toNat

def i8 (v : Int8) : Encoder := u8 v.toUInt8

def u16 (v : UInt16) : Encoder := word 2 v.toNat

def i16 (v : Int16) : Encoder := u16 v.toUInt16

def u32 (v : UInt32) : Encoder := word 4 v.toNat

def i32 (v : Int32) : Encoder := u32 v.toUInt32

def u64 (v : UInt64) : Encoder := word 8 v.toNat

def i64 (v : Int64) : Encoder := u64 v.toUInt64

/-- Backfill a `u32` written before. -/
def patchU32 (offset : ℕ) (v : UInt32) (w : Writer) : Writer :=
  w.take offset ++ leBytes 4 v.toNat ++ w.drop (offset + 4)

/-- PTP string; the empty string writes a single zero count byte. -/
def ptpString (s : String) : Encoder :=
  if s.isEmpty then u8 0
  else
    let units := Utf16.encode s.toList
    let count := units.length + 1
    if count > 255 then throw (.stringTooLong count)
    else do
      u8 (UInt8.ofNat count)
      writeAll u16 units
      u16 0

def ptpArray {α : Type} (items : List α) (f : α → Encoder) : Encoder := do
  u32 (UInt32.ofNat items.length)
  writeAll f items

/-- What an encoder leaves in a new writer. -/
def intoVec (m : Encoder) : Except EncodeError (List UInt8) :=
  match m [] with
  | .ok () w => .ok w
  | .error e _ => .error e

theorem succeeds_word (k n : ℕ) : Succeeds (word k n) := fun _ => ⟨_, rfl⟩

theorem intoVec_of_succeeds {m : Encoder} (h : Succeeds m) : ∃ bs, intoVec m = .ok bs := by
  obtain ⟨bs, hbs⟩ := h []
  exact ⟨bs, by simp only [intoVec, hbs]⟩

theorem intoVec_ok {m : Encoder} {bs : List UInt8} (h : intoVec m = .ok bs) : m [] = .ok () bs := by
  unfold intoVec at h
  cases hm : m [] with
  | ok u w => simpa [hm] using h
  | error e w => simp [hm] at h

end Writer

/-! ### Reading fixed-width fields -/

open Reader

theorem Reader.length_unread (r : Reader) : r.unread.length = r.remaining := by
  simp [unread, remaining]

@[simp] theorem Reader.unread_new (bs : List UInt8) : (Reader.new bs).unread = bs := rfl

theorem Reader.finish_ok_iff (r r' : Reader) : finish r = .ok ((), r') ↔
    r.unread = [] ∧ r = r' := by
  rw [← length_eq_zero_iff, length_unread]
  unfold finish
  split <;> simp_all

variable {r : Reader} {bs : List UInt8} {n : ℕ} {α : Type} {f p : Decoder α}

theorem finish_unread_nil (h : r.unread = []) : finish r = .ok ((), r) :=
  (finish_ok_iff r r).2 ⟨h, rfl⟩

variable {r' : Reader} {k : ℕ} {v : α}

theorem Reader.take_ok (h : Reader.take n r = .ok (bs, r')) :
    n ≤ r.remaining ∧ bs = r.unread.take n ∧ r'.unread = r.unread.drop n ∧ r'.buf = r.buf ∧
      r'.pos = r.pos + n := by
  unfold Reader.take at h
  split at h
  · simp at h
  · rename_i hn
    obtain ⟨rfl, rfl⟩ := h
    exact ⟨Nat.le_of_not_lt hn, rfl, by simp [unread, drop_drop], rfl, rfl⟩

theorem Reader.u32_ok {v : UInt32} (h : Reader.u32 r = .ok (v, r')) :
    4 ≤ r.remaining ∧ v.toNat = leNat (r.unread.take 4) ∧ r'.unread = r.unread.drop 4 := by
  obtain ⟨n, hn, rfl⟩ := map_ok h
  obtain ⟨bs, hb, rfl⟩ := map_ok hn
  obtain ⟨h4, rfl, hu, -, -⟩ := take_ok hb
  have hl : (r.unread.take 4).length = 4 := by
    rw [length_take, length_unread]
    omega
  have hlt := leNat_lt (r.unread.take 4)
  rw [hl] at hlt
  refine ⟨h4, ?_, hu⟩
  exact Nat.mod_eq_of_lt hlt

theorem Reader.u16_ok {v : UInt16} (h : Reader.u16 r = .ok (v, r')) :
    2 ≤ r.unread.length ∧ v = UInt16.ofNat (leNat (r.unread.take 2)) := by
  obtain ⟨n, hn, rfl⟩ := map_ok h
  obtain ⟨bs, hbs, rfl⟩ := map_ok hn
  obtain ⟨h2, rfl, -⟩ := take_ok hbs
  rw [length_unread]
  exact ⟨h2, rfl⟩

theorem consumes_take (xs : List UInt8) : Consumes unread (Reader.take xs.length) xs xs := by
  intro r tail h
  have hr : r.remaining = xs.length + tail.length := by
    rw [← length_unread, h, length_append]
  unfold Reader.take
  rw [dif_neg (by omega)]
  refine ⟨_, by rw [h, take_left], ?_⟩
  have : r.unread.drop xs.length = tail := by rw [h, drop_left]
  simpa [unread, drop_drop] using this

theorem stable_take (n : ℕ) : Stable unread (Reader.take n) := by
  intro r bs r' h
  obtain ⟨hn, rfl, hu, -, -⟩ := take_ok h
  have hl : (r.unread.take n).length = n := by
    rw [length_take, length_unread]
    omega
  refine ⟨r.unread.take n, by rw [hu, take_append_drop], ?_⟩
  have := consumes_take (r.unread.take n)
  rwa [hl] at this

theorem stable_word (k : ℕ) : Stable unread (Reader.word k) := (stable_take k).map _

theorem roundTrips_bytes (bs : List UInt8) :
    RoundTrips unread (Writer.bytes bs) (Reader.take bs.length) bs := by
  intro w w' h
  simp only [Writer.bytes, EStateM.Result.ok.injEq, true_and] at h
  exact ⟨bs, h.symm, consumes_take bs⟩

theorem roundTrips_word (h : n < 256 ^ k) :
    RoundTrips unread (Writer.word k n) (Reader.word k) n := by
  have := (roundTrips_bytes (leBytes k n)).map leNat
  rwa [length_leBytes, leNat_leBytes h] at this

theorem roundTrips_field {g : ℕ → α} (hn : n < 256 ^ k) (hg : g n = v) :
    RoundTrips unread (Writer.word k n) (g <$> Reader.word k) v :=
  hg ▸ (roundTrips_word hn).map g

theorem roundTrips_u8 (v : UInt8) : RoundTrips unread (Writer.u8 v) Reader.u8 v :=
  roundTrips_field v.toNat_lt UInt8.ofNat_toNat

theorem roundTrips_u16 (v : UInt16) : RoundTrips unread (Writer.u16 v) Reader.u16 v :=
  roundTrips_field v.toNat_lt UInt16.ofNat_toNat

theorem roundTrips_u32 (v : UInt32) : RoundTrips unread (Writer.u32 v) Reader.u32 v :=
  roundTrips_field v.toNat_lt UInt32.ofNat_toNat

theorem roundTrips_u64 (v : UInt64) : RoundTrips unread (Writer.u64 v) Reader.u64 v :=
  roundTrips_field v.toNat_lt UInt64.ofNat_toNat

theorem roundTrips_i8 (v : Int8) : RoundTrips unread (Writer.i8 v) Reader.i8 v := by
  have := (roundTrips_u8 v.toUInt8).map UInt8.toInt8
  rwa [Int8.toInt8_toUInt8] at this

theorem roundTrips_i16 (v : Int16) : RoundTrips unread (Writer.i16 v) Reader.i16 v := by
  have := (roundTrips_u16 v.toUInt16).map UInt16.toInt16
  rwa [Int16.toInt16_toUInt16] at this

theorem roundTrips_i32 (v : Int32) : RoundTrips unread (Writer.i32 v) Reader.i32 v := by
  have := (roundTrips_u32 v.toUInt32).map UInt32.toInt32
  rwa [Int32.toInt32_toUInt32] at this

theorem roundTrips_i64 (v : Int64) : RoundTrips unread (Writer.i64 v) Reader.i64 v := by
  have := (roundTrips_u64 v.toUInt64).map UInt64.toInt64
  rwa [Int64.toInt64_toUInt64] at this

theorem consumes_u8 (v : UInt8) : Consumes unread Reader.u8 (leBytes 1 v.toNat) v :=
  (roundTrips_u8 v).consumes rfl

theorem consumes_u16 (v : UInt16) : Consumes unread Reader.u16 (leBytes 2 v.toNat) v :=
  (roundTrips_u16 v).consumes rfl

theorem consumes_u32 (v : UInt32) : Consumes unread Reader.u32 (leBytes 4 v.toNat) v :=
  (roundTrips_u32 v).consumes rfl

theorem stable_u8 : Stable unread Reader.u8 := (stable_word 1).map _
theorem stable_u16 : Stable unread Reader.u16 := (stable_word 2).map _
theorem stable_u32 : Stable unread Reader.u32 := (stable_word 4).map _
theorem stable_u64 : Stable unread Reader.u64 := (stable_word 8).map _
theorem stable_i8 : Stable unread Reader.i8 := stable_u8.map _
theorem stable_i16 : Stable unread Reader.i16 := stable_u16.map _
theorem stable_i32 : Stable unread Reader.i32 := stable_u32.map _
theorem stable_i64 : Stable unread Reader.i64 := stable_u64.map _

theorem spends_word (k : ℕ) : Spends unread (Reader.word k) k := by
  refine Spends.map leNat fun r bs r' h => ?_
  obtain ⟨hle, -, hr, -, -⟩ := take_ok h
  rw [hr, length_drop]
  rw [← length_unread] at hle
  omega

theorem spends_u16 : Spends unread Reader.u16 2 := (spends_word 2).map _
theorem spends_u32 : Spends unread Reader.u32 4 := (spends_word 4).map _
theorem spends_u64 : Spends unread Reader.u64 8 := (spends_word 8).map _

theorem advances_word (hk : 0 < k) : Advances unread (Reader.word k) := by
  refine Advances.map _ fun r bs r' h => ?_
  obtain ⟨hn, -, hu, -, -⟩ := take_ok h
  rw [hu, length_drop, length_unread]
  omega

theorem advances_u16 : Advances unread Reader.u16 := (advances_word (by norm_num)).map _

/-! ### Strings -/

theorem Reader.dropTerminator_concat (units : List UInt16) :
    dropTerminator (units ++ [0]) = units := by
  simp [dropTerminator]

theorem stable_ptpString : Stable unread ptpString := by
  refine stable_u8.bind fun count => ?_
  split
  · exact Stable.pure _
  · refine (stable_u16.times _).bind fun units => ?_
    split
    · exact Stable.pure _
    · exact Stable.throw _

theorem roundTrips_units (units : List UInt16) :
    RoundTrips unread (do writeAll Writer.u16 units; Writer.u16 0)
      (times Reader.u16 (units.length + 1)) (units ++ [0]) := by
  have := RoundTrips.writeAll (g := id) (units ++ [0]) fun u _ => roundTrips_u16 u
  rwa [writeAll_concat, map_id, length_append] at this

theorem roundTrips_counted {units : List UInt16} {cs : List Char} (hlen : units.length + 1 ≤ 255)
    (hd : Utf16.decode units = some cs) :
    RoundTrips unread (do
      Writer.u8 (UInt8.ofNat (units.length + 1))
      writeAll Writer.u16 units
      Writer.u16 0) ptpString (String.ofList cs) := by
  have hn : (UInt8.ofNat (units.length + 1)).toNat = units.length + 1 := by
    rw [UInt8.toNat_ofNat', Nat.mod_eq_of_lt (by omega)]
  have h0 : UInt8.ofNat (units.length + 1) ≠ 0 := fun h => by
    rw [h] at hn
    simp at hn
  refine (roundTrips_u8 _).bind ?_
  rw [if_neg h0, hn]
  refine (roundTrips_units units).andThen ?_
  rw [dropTerminator_concat, hd]
  exact Consumes.pure _

/-- A string comes back whatever it contains: the writer always adds one
terminator and the reader drops exactly one. -/
theorem roundTrips_ptpString (s : String) :
    RoundTrips unread (Writer.ptpString s) ptpString s := by
  unfold Writer.ptpString
  by_cases he : s.isEmpty = true
  · rw [if_pos he, String.isEmpty_iff.mp he]
    exact (roundTrips_u8 0).andThen (Consumes.pure "")
  · rw [if_neg he]
    simp only
    split
    · intro w w' h
      cases h
    · rename_i hc
      have h := roundTrips_counted (Nat.le_of_not_lt hc) (Utf16.decode_encode s.toList)
      rwa [String.ofList_toList] at h

/-! ### Arrays -/

theorem Reader.ensure_ok (h : ensure n r = .ok ((), r')) : n ≤ r.remaining ∧ r' = r := by
  unfold ensure at h
  split at h
  · simp at h
  · rename_i hn
    simp only [Except.ok.injEq, Prod.mk.injEq, true_and] at h
    exact ⟨Nat.le_of_not_lt hn, h.symm⟩

/-- The guard before the elements asks for no more than the elements take. -/
theorem consumes_ensure_times {xs : List UInt8} {vs : List α} (ha : Advances unread f)
    (hc : Consumes unread (times f n) xs vs) :
    Consumes unread (do ensure n; times f n) xs vs := by
  intro r tail h
  obtain ⟨r', hr, hv⟩ := hc r tail h
  have hlen := ha.times n r vs r' hr
  have hrem : ¬ r.remaining < n := by
    rw [← length_unread]
    omega
  refine ⟨r', ?_, hv⟩
  rw [bind_apply, ensure, if_neg hrem]
  exact hr

theorem stable_ptpArray (hf : Stable unread f) (ha : Advances unread f) :
    Stable unread (ptpArray f) := by
  refine stable_u32.bind fun count => ?_
  split
  · exact Stable.throw _
  · intro r vs r' h
    obtain ⟨u, r₁, h₁, h₂⟩ := bind_ok h
    obtain ⟨-, rfl⟩ := ensure_ok h₁
    obtain ⟨xs, hx, hc⟩ := hf.times count.toNat r₁ vs r' h₂
    exact ⟨xs, hx, consumes_ensure_times ha hc⟩

theorem roundTrips_ptpArray {g : α → Encoder} {items : List α} (ha : Advances unread f)
    (hlen : items.length ≤ 16777216) (h : ∀ x ∈ items, RoundTrips unread (g x) f x) :
    RoundTrips unread (Writer.ptpArray items g) (ptpArray f) items := by
  have hn : (UInt32.ofNat items.length).toNat = items.length := by
    rw [UInt32.toNat_ofNat', Nat.mod_eq_of_lt (by omega)]
  have hmax : ¬ UInt32.ofNat items.length > maxElements := by
    rw [gt_iff_lt, UInt32.lt_iff_toNat_lt, hn]
    exact Nat.not_lt.mpr hlen
  refine (roundTrips_u32 _).bind ?_
  rw [if_neg hmax, hn]
  intro w w' hw
  obtain ⟨bs, hbs, hb⟩ := RoundTrips.writeAll (g := id) items h w w' hw
  exact ⟨bs, hbs, consumes_ensure_times ha (by rwa [map_id] at hb)⟩

/-! ### Whole buffers -/

theorem Reader.whole_ok (h : Reader.whole p bs = .ok v) :
    ∃ r, p (Reader.new bs) = .ok (v, r) ∧ r.unread = [] := by
  obtain ⟨r, hr⟩ := run'_ok h
  obtain ⟨u, r₁, h₁, h₂⟩ := bind_ok hr
  obtain ⟨⟨⟩, r₂, h₃, h₄⟩ := bind_ok h₂
  cases h₄
  obtain ⟨hnil, rfl⟩ := (finish_ok_iff r₁ r).1 h₃
  exact ⟨r₁, h₁, hnil⟩

theorem Reader.whole_of_exhausts (h : Exhausts unread p bs v) :
    Reader.whole p bs = .ok v := by
  obtain ⟨r, hr, hnil⟩ := h (Reader.new bs) rfl
  refine run'_of_ok (?_ : _ = Except.ok (v, r))
  rw [bind_apply, hr]
  simp only [bind_apply, finish_unread_nil hnil]
  rfl

/-- A stable decoder followed by `finish` accepts a prefix-free set. -/
theorem Reader.whole_prefixFree (hp : Stable unread p) : PrefixFree (Reader.whole p) := by
  intro xs ys v u hpre hx hy
  obtain ⟨r, hr, hrn⟩ := whole_ok hx
  obtain ⟨t, ht, htn⟩ := whole_ok hy
  exact hp.prefix_eq hr hrn ht htn hpre

theorem exact_of_roundTrips {m : Encoder} (h : RoundTrips unread m p v)
    (hp : Stable unread p) (hbs : Writer.intoVec m = .ok bs) :
    Exact (Reader.whole p) bs v := by
  have hc := h.consumes (Writer.intoVec_ok hbs)
  exact Exact.of_prefixFree (whole_prefixFree hp) (whole_of_exhausts hc.exhausts)

end Ptpsim.Core
