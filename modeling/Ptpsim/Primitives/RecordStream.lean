/-
# Manifest-resolved record streams

A record stream is a count, then that many records of a property code and a
value, every field at the width the manifest declares: fixed unsigned, signed,
or a PTP string. `typedRecordStream` assembles one. `parseTypedRecordStream`
first walks it strictly (`walkDeclaredOnly`); at the first undeclared member it
hands the payload to a bounded search over the widths 1, 2 and 4 for every
undeclared member (`ReframeSearch.walk`), which keeps the complete walk with
the fewest undeclared members. The error path of the search unwraps the first
undeclared code with `expect`, so the result type has a panic beside the
`Result` of the source.
-/
import Ptpsim.Core.Dataset

namespace Ptpsim.Primitives

open Ptpsim.Core Codec List

/-- Payload-local wire encoding of a record member. -/
inductive RecordValueEncoding where
  | fixed (width : ℕ)
  | signed (width : ℕ)
  | ptpString
deriving DecidableEq, Repr

inductive RecordStreamError where
  | unsupportedWidths (count code value : ℕ)
  | overflow (field : String) (value : UInt64) (width : ℕ)
  | negativeFixedValue (code : UInt16) (value : Int64) (width : ℕ)
  | signedOverflow (code : UInt16) (value : ℤ) (width : ℕ)
  | undeclaredMember (code : UInt16)
  | duplicateMember (code : UInt16)
  | valueTypeMismatch (code : UInt16) (encoding : RecordValueEncoding)
  | decode (e : DecodeError)
  | encode (e : EncodeError)
deriving DecidableEq, Repr

/-- A failed `expect`. -/
structure Panic where
  message : String
deriving DecidableEq, Repr

/-! ### Layouts and descriptors -/

/-- The integer widths the carrier types can represent. -/
def IntWidth (width : ℕ) : Prop := width = 1 ∨ width = 2 ∨ width = 4

instance (width : ℕ) : Decidable (IntWidth width) :=
  inferInstanceAs (Decidable (width = 1 ∨ width = 2 ∨ width = 4))

/-- Field widths of a record-stream payload. -/
structure RecordStreamLayout where
  countWidth : ℕ
  codeWidth : ℕ
  valueWidth : ℕ
  count_ok : IntWidth countWidth
  code_ok : codeWidth = 1 ∨ codeWidth = 2
  value_ok : IntWidth valueWidth

namespace RecordStreamLayout

/-- The tight format of `0xD212`: u16 count, u16 code, u32 value. -/
def d212 : RecordStreamLayout := ⟨2, 2, 4, by decide, by decide, by decide⟩

def new (countWidth codeWidth valueWidth : ℕ) : Except RecordStreamError RecordStreamLayout :=
  if h : IntWidth countWidth ∧ (codeWidth = 1 ∨ codeWidth = 2) ∧ IntWidth valueWidth then
    .ok ⟨countWidth, codeWidth, valueWidth, h.1, h.2.1, h.2.2⟩
  else .error (.unsupportedWidths countWidth codeWidth valueWidth)

end RecordStreamLayout

/-- An integer member has a width that the reader honours. -/
def RecordValueEncoding.Supported : RecordValueEncoding → Prop
  | .fixed width => IntWidth width
  | .signed width => IntWidth width
  | .ptpString => True

/-- The width of an integer member that is not supported. -/
def RecordValueEncoding.unsupportedWidth : RecordValueEncoding → Option ℕ
  | .fixed width => if IntWidth width then none else some width
  | .signed width => if IntWidth width then none else some width
  | .ptpString => none

theorem RecordValueEncoding.supported_of_none {e : RecordValueEncoding}
    (h : e.unsupportedWidth = none) : e.Supported := by
  cases e with
  | fixed width => simpa [unsupportedWidth, Supported] using h
  | signed width => simpa [unsupportedWidth, Supported] using h
  | ptpString => trivial

/-- A record-stream descriptor: what its constructor checks of every member
is part of it. -/
structure RecordStreamDescriptor where
  layout : RecordStreamLayout
  members : UInt16 → Option RecordValueEncoding
  code_fits : ∀ code e, members code = some e → layout.codeWidth = 1 → code ≤ 255
  supported : ∀ code e, members code = some e → e.Supported

namespace RecordStreamDescriptor

def empty (layout : RecordStreamLayout) : RecordStreamDescriptor where
  layout := layout
  members := fun _ => none
  code_fits := nofun
  supported := nofun

/-- One round of the constructor's loop. -/
def insert (d : RecordStreamDescriptor) (member : UInt16 × RecordValueEncoding) :
    Except RecordStreamError RecordStreamDescriptor :=
  if hcode : d.layout.codeWidth = 1 ∧ member.1 > 255 then
    .error (.overflow "prop code" member.1.toUInt64 d.layout.codeWidth)
  else
    match hw : member.2.unsupportedWidth with
    | some width => .error (.unsupportedWidths d.layout.countWidth d.layout.codeWidth width)
    | none =>
      if (d.members member.1).isSome then .error (.duplicateMember member.1)
      else .ok {
        layout := d.layout
        members := fun code => if code = member.1 then some member.2 else d.members code
        code_fits := fun code e h h1 => by
          by_cases heq : code = member.1
          · exact heq ▸ UInt16.not_lt.mp fun hlt => hcode ⟨h1, hlt⟩
          · exact d.code_fits code e (by simpa [heq] using h) h1
        supported := fun code e h => by
          by_cases heq : code = member.1
          · have : member.2 = e := by simpa [heq] using h
            exact this ▸ RecordValueEncoding.supported_of_none hw
          · exact d.supported code e (by simpa [heq] using h) }

def new (layout : RecordStreamLayout) (members : List (UInt16 × RecordValueEncoding)) :
    Except RecordStreamError RecordStreamDescriptor :=
  members.foldlM insert (empty layout)

end RecordStreamDescriptor

/-! ### Assembling -/

abbrev RecordEncoder := EStateM RecordStreamError (List UInt8) Unit

/-- Largest value a `width`-byte field can carry. -/
def maxFor (width : ℕ) : ℕ := 2 ^ (width * 8) - 1

def writeLe (value : UInt64) (width : ℕ) : RecordEncoder := put ((leBytes 8 value.toNat).take width)

inductive NumericValue where
  | unsigned (v : UInt64)
  | negative (v : Int64)
  | notNumeric
deriving DecidableEq, Repr

def signedNumericValue (value : Int64) : NumericValue :=
  if value < 0 then .negative value else .unsigned value.toUInt64

def numericValue : PropValue → NumericValue
  | .i8 v => signedNumericValue v.toInt64
  | .u8 v => .unsigned v.toUInt64
  | .i16 v => signedNumericValue v.toInt64
  | .u16 v => .unsigned v.toUInt64
  | .i32 v => signedNumericValue v.toInt64
  | .u32 v => .unsigned v.toUInt64
  | .i64 v => signedNumericValue v
  | .u64 v => .unsigned v
  | .str _ => .notNumeric

/-- The empty string is written as a lone terminator here, not as a zero
count. -/
def writePtpString (value : String) : RecordEncoder :=
  if value.isEmpty then put [1, 0, 0]
  else
    match Writer.intoVec (Writer.ptpString value) with
    | .ok bs => put bs
    | .error e => throw (.encode e)

/-- A signed field, range-checked as an `i128`. -/
def writeSigned (code : UInt16) (width : ℕ) (value : ℤ) : RecordEncoder :=
  if -2 ^ (width * 8 - 1) ≤ value ∧ value ≤ 2 ^ (width * 8 - 1) - 1 then
    writeLe (Int64.ofInt value).toUInt64 width
  else throw (.signedOverflow code value width)

def writeRecordValue (code : UInt16) (encoding : RecordValueEncoding) (value : PropValue) :
    RecordEncoder :=
  match encoding with
  | .fixed width =>
    match numericValue value with
    | .unsigned v =>
      if v.toNat > maxFor width then throw (.overflow "value" v width) else writeLe v width
    | .negative v => throw (.negativeFixedValue code v width)
    | .notNumeric => throw (.valueTypeMismatch code encoding)
  | .signed width =>
    match numericValue value with
    | .unsigned v => writeSigned code width v.toNat
    | .negative v => writeSigned code width v.toInt
    | .notNumeric => throw (.valueTypeMismatch code encoding)
  | .ptpString =>
    match value with
    | .str s => writePtpString s
    | _ => throw (.valueTypeMismatch code encoding)

def writeRecord (d : RecordStreamDescriptor) (record : UInt16 × PropValue) : RecordEncoder :=
  match d.members record.1 with
  | none => throw (.undeclaredMember record.1)
  | some encoding => do
    writeLe record.1.toUInt64 d.layout.codeWidth
    writeRecordValue record.1 encoding record.2

def writeStream (records : List (UInt16 × PropValue)) (d : RecordStreamDescriptor) :
    RecordEncoder :=
  if records.length > maxFor d.layout.countWidth then
    throw (.overflow "record count" (UInt64.ofNat records.length) d.layout.countWidth)
  else do
    writeLe (UInt64.ofNat records.length) d.layout.countWidth
    writeAll (writeRecord d) records

/-- The output buffer is local, so a failure returns the error alone. -/
def typedRecordStream (records : List (UInt16 × PropValue)) (d : RecordStreamDescriptor) :
    Except RecordStreamError (List UInt8) :=
  match writeStream records d [] with
  | .ok () out => .ok out
  | .error e _ => .error e

/-! ### Reading -/

inductive RecordStreamDiagnostic where
  | skippedUndeclaredMember (code : UInt16) (value : UInt32)
deriving DecidableEq, Repr

/-- The records, and what was left out. -/
structure DecodedRecordStream where
  records : List (UInt16 × PropValue)
  diagnostics : List RecordStreamDiagnostic
deriving DecidableEq, Repr

def readLe (width : ℕ) : Decoder UInt64 :=
  match width with
  | 1 => UInt8.toUInt64 <$> Reader.u8
  | 2 => UInt16.toUInt64 <$> Reader.u16
  | _ => UInt32.toUInt64 <$> Reader.u32

/-- The decoder a member's encoding selects. -/
def recordValue : RecordValueEncoding → Decoder PropValue
  | .fixed width => (fun v : UInt64 => .u32 v.toUInt32) <$> readLe width
  | .signed width =>
    match width with
    | 1 => .i8 <$> Reader.i8
    | 2 => .i16 <$> Reader.i16
    | _ => .i32 <$> Reader.i32
  | .ptpString => .str <$> Reader.ptpString

def readRecordValue (encoding : RecordValueEncoding) (reader : Reader) :
    Except RecordStreamError (PropValue × Reader) :=
  match recordValue encoding reader with
  | .ok r => .ok r
  | .error e => .error (.decode e)

/-- The loop of the strict walk; `none` at the first undeclared member. -/
def walkDeclaredFrom (d : RecordStreamDescriptor) :
    ℕ → List (UInt16 × PropValue) → Reader → Option (Except RecordStreamError DecodedRecordStream)
  | 0, out, _ => some (.ok ⟨out, []⟩)
  | n + 1, out, reader =>
    match readLe d.layout.codeWidth reader with
    | .error e => some (.error (.decode e))
    | .ok (code, reader) =>
      match d.members code.toUInt16 with
      | none => none
      | some encoding =>
        match readRecordValue encoding reader with
        | .error e => some (.error e)
        | .ok (value, reader) => walkDeclaredFrom d n (out ++ [(code.toUInt16, value)]) reader

def walkDeclaredOnly (body : List UInt8) (d : RecordStreamDescriptor) (count : ℕ) :
    Option (Except RecordStreamError DecodedRecordStream) :=
  walkDeclaredFrom d count [] (Reader.new body)

/-- Fixed widths an undeclared member may re-frame at, narrowest first. -/
def undeclaredReframeWidths : List ℕ := [1, 2, 4]

/-- Bound on re-frame search states. -/
def reframeStateBudget : ℕ := 4096

/-- One complete re-framed walk over the payload. -/
structure CandidateWalk where
  records : List (UInt16 × PropValue) := []
  diagnostics : List RecordStreamDiagnostic := []
  undeclared : ℕ := 0
deriving DecidableEq, Repr

/-- The search's budget and best walk. -/
structure ReframeSearch where
  best : Option CandidateWalk := none
  tie : Bool := false
  states : ℕ := 0
  exhausted : Bool := false
  firstUndeclared : Option UInt16 := none
deriving DecidableEq, Repr

/-- A read from the start of a slice, with the slice after it. -/
def readFrom {α : Type} (p : Decoder α) (body : List UInt8) : Option (α × List UInt8) :=
  match p (Reader.new body) with
  | .ok (v, reader) => some (v, reader.unread)
  | .error _ => none

def CandidateWalk.push (walk : CandidateWalk) (code : UInt16) (value : PropValue) :
    CandidateWalk :=
  { walk with records := walk.records ++ [(code, value)] }

def CandidateWalk.skip (walk : CandidateWalk) (code : UInt16) (value : UInt32) :
    CandidateWalk :=
  { walk with
    undeclared := walk.undeclared + 1
    diagnostics := walk.diagnostics ++ [.skippedUndeclaredMember code value] }

namespace ReframeSearch

/-- A branch that can no longer beat the best walk, nor add information to an
established tie. -/
def hopeless (s : ReframeSearch) (walk : CandidateWalk) : Bool :=
  match s.best with
  | none => false
  | some best =>
    decide (walk.undeclared > best.undeclared) || (s.tie && walk.undeclared == best.undeclared)

/-- A walk over all records; it counts only if the payload is used up. -/
def complete (s : ReframeSearch) (body : List UInt8) (walk : CandidateWalk) : ReframeSearch :=
  if ¬ body.isEmpty then s
  else
    match s.best with
    | none => { s with best := some walk }
    | some best =>
      if walk.undeclared < best.undeclared then { s with best := some walk, tie := false }
      else { s with tie := true }

/-- Every path that sets this shares the walk up to the first undeclared
member. -/
def meet (s : ReframeSearch) (code : UInt16) : ReframeSearch :=
  if s.firstUndeclared.isNone then { s with firstUndeclared := some code } else s

/-- The recursive search; `remaining` is `count - index`. -/
def walk (d : RecordStreamDescriptor) (remaining : ℕ) (body : List UInt8) (w : CandidateWalk)
    (s : ReframeSearch) : ReframeSearch :=
  if s.states ≥ reframeStateBudget then { s with exhausted := true }
  else if s.hopeless w then { s with states := s.states + 1 }
  else
    let s := { s with states := s.states + 1 }
    match remaining with
    | 0 => s.complete body w
    | remaining + 1 =>
      match readFrom (readLe d.layout.codeWidth) body with
      | none => s
      | some (code, afterCode) =>
        match d.members code.toUInt16 with
        | some encoding =>
          match readFrom (recordValue encoding) afterCode with
          | none => s
          | some (value, rest) => walk d remaining rest (w.push code.toUInt16 value) s
        | none =>
          undeclaredReframeWidths.foldl (fun s width =>
            match readFrom (readLe width) afterCode with
            | none => s
            | some (value, rest) =>
              walk d remaining rest (w.skip code.toUInt16 value.toUInt32) s)
            (s.meet code.toUInt16)

end ReframeSearch

def reframeUndeclared (body : List UInt8) (d : RecordStreamDescriptor) (count : ℕ) :
    Except Panic (Except RecordStreamError DecodedRecordStream) :=
  let search := ReframeSearch.walk d count body {} {}
  match search.best, !search.tie && !search.exhausted with
  | some walk, true => .ok (.ok ⟨walk.records, walk.diagnostics⟩)
  | _, _ =>
    match search.firstUndeclared with
    | some code => .ok (.error (.undeclaredMember code))
    | none => .error ⟨"re-frame search only runs after an undeclared member was seen"⟩

/-- The declared walk, or else a search. -/
def parseTypedRecordStream (bytes : List UInt8) (d : RecordStreamDescriptor) :
    Except Panic (Except RecordStreamError DecodedRecordStream) :=
  match readLe d.layout.countWidth (Reader.new bytes) with
  | .error e => .ok (.error (.decode e))
  | .ok (count, reader) =>
    match walkDeclaredOnly reader.unread d count.toNat with
    | some outcome => .ok outcome
    | none => reframeUndeclared reader.unread d count.toNat

/-! ### Written records are read back -/

/-- `v'` is `v` in the carrier type of the encoding: fixed values are carried
as `u32`, signed values at the member's width, strings as they are. -/
def ReadsAs : RecordValueEncoding → PropValue → PropValue → Prop
  | .fixed _, v, v' => ∃ n : UInt32, v' = .u32 n ∧ intValue v = some (n.toNat : ℤ)
  | .signed width, v, v' =>
    (width = 1 ∧ ∃ n : Int8, v' = .i8 n ∧ intValue v = some n.toInt) ∨
    (width = 2 ∧ ∃ n : Int16, v' = .i16 n ∧ intValue v = some n.toInt) ∨
    (width = 4 ∧ ∃ n : Int32, v' = .i32 n ∧ intValue v = some n.toInt)
  | .ptpString, v, v' => v' = v ∧ ∃ s, v = .str s

theorem toNat_toUInt64_of_nonneg {v : Int64} (h : ¬ v < 0) : (v.toUInt64.toNat : ℤ) = v.toInt := by
  have h0 : ¬ v.toBitVec.toInt < 0 := by
    rw [Int64.lt_iff_toInt_lt] at h
    exact h
  show (v.toBitVec.toNat : ℤ) = v.toBitVec.toInt
  rw [BitVec.toInt_eq_toNat_cond] at h0 ⊢
  split at h0
  · rename_i hc
    rw [if_pos hc]
  · omega

/-- `numericValue` classifies the integer value by its sign. -/
inductive Classifies (v : PropValue) : NumericValue → Prop where
  | unsigned (n : UInt64) (h : intValue v = some (n.toNat : ℤ)) : Classifies v (.unsigned n)
  | negative (n : Int64) (h : intValue v = some n.toInt) : Classifies v (.negative n)
  | notNumeric (h : intValue v = none) : Classifies v .notNumeric

theorem classifies_signed {v : PropValue} {n : Int64} (h : intValue v = some n.toInt) :
    Classifies v (signedNumericValue n) := by
  unfold signedNumericValue
  by_cases h0 : n < 0
  · rw [if_pos h0]
    exact .negative n h
  · rw [if_neg h0]
    exact .unsigned _ (by rw [h, toNat_toUInt64_of_nonneg h0])

theorem classifies_numericValue : ∀ v : PropValue, Classifies v (numericValue v)
  | .i8 v => classifies_signed (by rw [intValue, Int8.toInt_toInt64])
  | .u8 v => .unsigned _ (by rw [intValue, UInt8.toNat_toUInt64])
  | .i16 v => classifies_signed (by rw [intValue, Int16.toInt_toInt64])
  | .u16 v => .unsigned _ (by rw [intValue, UInt16.toNat_toUInt64])
  | .i32 v => classifies_signed (by rw [intValue, Int32.toInt_toInt64])
  | .u32 v => .unsigned _ (by rw [intValue, UInt32.toNat_toUInt64])
  | .i64 _ => classifies_signed rfl
  | .u64 v => .unsigned v rfl
  | .str _ => .notNumeric rfl

theorem IntWidth.le_eight {width : ℕ} (h : IntWidth width) : width ≤ 8 := by
  rcases h with rfl | rfl | rfl <;> decide

theorem consumes_readLe {width : ℕ} (hw : IntWidth width) {v : UInt64}
    (hv : v.toNat ≤ maxFor width) :
    Consumes Reader.unread (readLe width) ((leBytes 8 v.toNat).take width) v := by
  rcases hw with rfl | rfl | rfl
  · have h8 : v.toNat < 2 ^ 8 := Nat.lt_of_le_of_lt hv (by decide)
    have hc := (consumes_u8 v.toUInt8).map UInt8.toUInt64
    rw [UInt64.toNat_toUInt8, Nat.mod_eq_of_lt h8] at hc
    rwa [show v.toUInt8.toUInt64 = v from UInt64.toNat_inj.mp (by simp; omega)] at hc
  · have h16 : v.toNat < 2 ^ 16 := Nat.lt_of_le_of_lt hv (by decide)
    have hc := (consumes_u16 v.toUInt16).map UInt16.toUInt64
    rw [UInt64.toNat_toUInt16, Nat.mod_eq_of_lt h16] at hc
    rwa [show v.toUInt16.toUInt64 = v from UInt64.toNat_inj.mp (by simp; omega)] at hc
  · have h32 : v.toNat < 2 ^ 32 := Nat.lt_of_le_of_lt hv (by decide)
    have hc := (consumes_u32 v.toUInt32).map UInt32.toUInt64
    rw [UInt64.toNat_toUInt32, Nat.mod_eq_of_lt h32] at hc
    rwa [show v.toUInt32.toUInt64 = v from UInt64.toNat_inj.mp (by simp; omega)] at hc

/-- The low bytes of the sign-extended word are the word at the field's
width. -/
theorem consumes_signed {width : ℕ} (hw : IntWidth width) {v : ℤ}
    (hlo : -2 ^ (width * 8 - 1) ≤ v) (hhi : v ≤ 2 ^ (width * 8 - 1) - 1) {value : PropValue}
    (hv : intValue value = some v) : ∃ v',
      Consumes Reader.unread (recordValue (.signed width))
        ((leBytes 8 (Int64.ofInt v).toUInt64.toNat).take width) v' ∧
      ReadsAs (.signed width) value v' := by
  rw [take_leBytes _ hw.le_eight, ← leBytes_mod]
  have hwo : (Int64.ofInt v).toUInt64.toNat = (v % (2 ^ 64 : ℕ)).toNat := BitVec.toNat_ofInt v
  rw [hwo]
  rcases hw with rfl | rfl | rfl
  · have hn : (Int8.ofInt v).toInt = v := Int8.toInt_ofInt_of_le (by omega) (by omega)
    have hb : (v % (2 ^ 64 : ℕ)).toNat % 256 ^ 1 = (Int8.ofInt v).toUInt8.toNat := by
      have : (Int8.ofInt v).toUInt8.toNat = (v % (2 ^ 8 : ℕ)).toNat := BitVec.toNat_ofInt v
      omega
    refine ⟨.i8 (Int8.ofInt v), ?_, Or.inl ⟨rfl, _, rfl, by rw [hv, hn]⟩⟩
    rw [hb]
    exact ((roundTrips_i8 (Int8.ofInt v)).consumes rfl).map PropValue.i8
  · have hn : (Int16.ofInt v).toInt = v := Int16.toInt_ofInt_of_le (by omega) (by omega)
    have hb : (v % (2 ^ 64 : ℕ)).toNat % 256 ^ 2 = (Int16.ofInt v).toUInt16.toNat := by
      have : (Int16.ofInt v).toUInt16.toNat = (v % (2 ^ 16 : ℕ)).toNat := BitVec.toNat_ofInt v
      omega
    refine ⟨.i16 (Int16.ofInt v), ?_, Or.inr (Or.inl ⟨rfl, _, rfl, by rw [hv, hn]⟩)⟩
    rw [hb]
    exact ((roundTrips_i16 (Int16.ofInt v)).consumes rfl).map PropValue.i16
  · have hn : (Int32.ofInt v).toInt = v := Int32.toInt_ofInt_of_le (by omega) (by omega)
    have hb : (v % (2 ^ 64 : ℕ)).toNat % 256 ^ 4 = (Int32.ofInt v).toUInt32.toNat := by
      have : (Int32.ofInt v).toUInt32.toNat = (v % (2 ^ 32 : ℕ)).toNat := BitVec.toNat_ofInt v
      omega
    refine ⟨.i32 (Int32.ofInt v), ?_, Or.inr (Or.inr ⟨rfl, _, rfl, by rw [hv, hn]⟩)⟩
    rw [hb]
    exact ((roundTrips_i32 (Int32.ofInt v)).consumes rfl).map PropValue.i32

theorem roundTrips_writePtpString (s : String) :
    RoundTrips Reader.unread (writePtpString s) Reader.ptpString s := by
  unfold writePtpString
  by_cases he : s.isEmpty = true
  · rw [if_pos he, String.isEmpty_iff.mp he]
    have h := @roundTrips_counted [] [] (by decide) rfl
    have hc : Consumes Reader.unread Reader.ptpString [1, 0, 0] "" := h.consumes rfl
    exact RoundTrips.put hc
  · rw [if_neg he]
    cases hw : Writer.intoVec (Writer.ptpString s) with
    | error e =>
      intro w w' h
      cases h
    | ok bs => exact RoundTrips.put ((roundTrips_ptpString s).consumes (Writer.intoVec_ok hw))

/-- What is written of a value is a word its member's decoder reads to the
same value in the carrier type. -/
theorem writeRecordValue_ok {code : UInt16} {encoding : RecordValueEncoding} {value : PropValue}
    {w w' : List UInt8} (hs : encoding.Supported)
    (h : writeRecordValue code encoding value w = .ok () w') :
    ∃ xs v', w' = w ++ xs ∧ Consumes Reader.unread (recordValue encoding) xs v' ∧
      ReadsAs encoding value v' := by
  have hcl := classifies_numericValue value
  cases encoding with
  | fixed width =>
    unfold writeRecordValue at h
    generalize numericValue value = num at hcl h
    cases hcl with
    | unsigned n hn =>
      simp only at h
      split at h
      · cases h
      · rename_i hmax
        cases h
        have hle : n.toNat ≤ maxFor width := Nat.le_of_not_lt hmax
        have h32 : n.toNat < 2 ^ 32 := by
          refine Nat.lt_of_le_of_lt hle ?_
          rcases hs with rfl | rfl | rfl <;> decide
        refine ⟨_, _, rfl, (consumes_readLe hs hle).map _, n.toUInt32, rfl, ?_⟩
        rw [hn, UInt64.toNat_toUInt32, Nat.mod_eq_of_lt h32]
    | negative n hn => cases h
    | notNumeric hn => cases h
  | signed width =>
    -- both signs end in the range check of the integer value
    have hsi : ∀ v : ℤ, intValue value = some v → writeSigned code width v w = .ok () w' →
        ∃ xs v', w' = w ++ xs ∧ Consumes Reader.unread (recordValue (.signed width)) xs v' ∧
          ReadsAs (.signed width) value v' := by
      intro v hv hw
      unfold writeSigned at hw
      split at hw
      · rename_i hr
        cases hw
        obtain ⟨v', hc, hcar⟩ := consumes_signed hs hr.1 hr.2 hv
        exact ⟨_, v', rfl, hc, hcar⟩
      · cases hw
    unfold writeRecordValue at h
    generalize numericValue value = num at hcl h
    cases hcl with
    | unsigned n hn => exact hsi n.toNat hn h
    | negative n hn => exact hsi n.toInt hn h
    | notNumeric hn => cases h
  | ptpString =>
    cases value with
    | str s =>
      obtain ⟨xs, hxs, hc⟩ := roundTrips_writePtpString s w w' h
      exact ⟨xs, _, hxs, hc.map PropValue.str, rfl, s, rfl⟩
    | _ => cases h

theorem RecordStreamDescriptor.code_le_maxFor (d : RecordStreamDescriptor) {code : UInt16}
    {e : RecordValueEncoding} (h : d.members code = some e) :
    code.toUInt64.toNat ≤ maxFor d.layout.codeWidth := by
  have hlt := code.toNat_lt
  rcases hw : d.layout.code_ok with h1 | h2
  · have := d.code_fits code e h h1
    rw [h1]
    exact this
  · rw [h2]
    exact Nat.le_of_lt_succ hlt

theorem RecordStreamLayout.codeWidth_int (l : RecordStreamLayout) : IntWidth l.codeWidth := by
  rcases l.code_ok with h | h
  · exact Or.inl h
  · exact Or.inr (Or.inl h)

/-- The decoded record carries the written one. -/
def SameRecord (d : RecordStreamDescriptor) (record decoded : UInt16 × PropValue) : Prop :=
  decoded.1 = record.1 ∧ ∃ e, d.members record.1 = some e ∧ ReadsAs e record.2 decoded.2

/-- The strict walk reads written records back, in front of any suffix. -/
theorem walkDeclaredFrom_written (d : RecordStreamDescriptor) :
    ∀ (records : List (UInt16 × PropValue)) (w w' : List UInt8),
      writeAll (writeRecord d) records w = .ok () w' →
      ∃ xs decoded, w' = w ++ xs ∧ List.Forall₂ (SameRecord d) records decoded ∧
        ∀ (r : Reader) (tail : List UInt8) (out : List (UInt16 × PropValue)),
          r.unread = xs ++ tail →
          walkDeclaredFrom d records.length out r = some (.ok ⟨out ++ decoded, []⟩)
  | [], w, w', h => by
    cases h
    exact ⟨[], [], (append_nil w).symm, .nil, fun r tail out _ => by
      rw [append_nil]; rfl⟩
  | (code, value) :: records, w, w', h => by
    obtain ⟨w₁, h₁, h₂⟩ := bind_write_ok h
    unfold writeRecord at h₁
    cases he : d.members code with
    | none =>
      rw [he] at h₁
      cases h₁
    | some e =>
      rw [he] at h₁
      obtain ⟨w₀, h₀, hv⟩ := bind_write_ok h₁
      cases h₀
      obtain ⟨xs, v', rfl, hxs, hcar⟩ := writeRecordValue_ok (d.supported code e he) hv
      obtain ⟨ys, decoded, rfl, hall, hw⟩ := walkDeclaredFrom_written d records _ w' h₂
      have hc := consumes_readLe d.layout.codeWidth_int (d.code_le_maxFor he)
      refine ⟨(leBytes 8 code.toUInt64.toNat).take d.layout.codeWidth ++ (xs ++ ys),
        (code, v') :: decoded, by simp only [append_assoc], ?_, ?_⟩
      · exact .cons ⟨rfl, e, he, hcar⟩ hall
      intro r tail out hr
      rw [append_assoc, append_assoc] at hr
      obtain ⟨r₁, e₁, hr₁⟩ := hc r _ hr
      obtain ⟨r₂, e₂, hr₂⟩ := hxs r₁ _ hr₁
      have hb : code.toUInt64.toUInt16 = code := by simp
      simp only [length_cons, walkDeclaredFrom, e₁, hb, he, readRecordValue, e₂]
      rw [hw r₂ tail _ hr₂, append_assoc]
      rfl

/-- **Round trip.** Whatever follows the encoded stream, the decoder returns
the records written, each in its carrier type, and no diagnostics. -/
theorem parse_typedRecordStream (d : RecordStreamDescriptor) (records : List (UInt16 × PropValue))
    (bs : List UInt8) (h : typedRecordStream records d = .ok bs) (tail : List UInt8) :
    ∃ decoded, parseTypedRecordStream (bs ++ tail) d = .ok (.ok ⟨decoded, []⟩) ∧
      List.Forall₂ (SameRecord d) records decoded := by
  unfold typedRecordStream writeStream at h
  split at h
  case h_2 => cases h
  case h_1 out hw =>
    cases h
    split at hw
    · cases hw
    rename_i hco
    obtain ⟨w₁, h₁, h₂⟩ := bind_write_ok hw
    cases h₁
    obtain ⟨xs, decoded, hbs, hall, hwa⟩ := walkDeclaredFrom_written d records _ _ h₂
    refine ⟨decoded, ?_, hall⟩
    have hlt : records.length < 2 ^ 64 := by
      refine Nat.lt_of_le_of_lt (Nat.le_of_not_lt hco) ?_
      rcases d.layout.count_ok with hw | hw | hw <;> rw [hw] <;> decide
    have hn : (UInt64.ofNat records.length).toNat = records.length := by
      rw [UInt64.toNat_ofNat', Nat.mod_eq_of_lt hlt]
    have hc := consumes_readLe d.layout.count_ok (v := UInt64.ofNat records.length)
      (by rw [hn]; exact Nat.le_of_not_lt hco)
    obtain ⟨r, hr, hru⟩ := hc (Reader.new (bs ++ tail)) (xs ++ tail)
      (by rw [Reader.unread_new, hbs, nil_append, append_assoc])
    unfold parseTypedRecordStream
    rw [hr]
    simp only [hn, walkDeclaredOnly]
    rw [hwa (Reader.new r.unread) tail [] hru, nil_append]

/-- One member of each kind, with one byte after the stream. -/
theorem parse_typedRecordStream_mixed : ∃ d,
    RecordStreamDescriptor.new .d212 [(0x5001, .fixed 2), (0xd001, .signed 1), (0xd002, .ptpString)]
      = .ok d ∧
    ∃ decoded, parseTypedRecordStream
      ([3, 0, 1, 0x50, 7, 0, 1, 0xd0, 254, 2, 0xd0, 2, 65, 0, 0, 0] ++ [9]) d =
        .ok (.ok ⟨decoded, []⟩) := by
  obtain ⟨d, hd, henc⟩ : ∃ d,
      RecordStreamDescriptor.new .d212
        [(0x5001, .fixed 2), (0xd001, .signed 1), (0xd002, .ptpString)] = .ok d ∧
      typedRecordStream [(0x5001, .u8 7), (0xd001, .i32 (-2)), (0xd002, .str "A")] d =
        .ok [3, 0, 1, 0x50, 7, 0, 1, 0xd0, 254, 2, 0xd0, 2, 65, 0, 0, 0] := ⟨_, rfl, rfl⟩
  obtain ⟨decoded, h, -⟩ := parse_typedRecordStream d _ _ henc [9]
  exact ⟨d, hd, decoded, h⟩

end Ptpsim.Primitives
