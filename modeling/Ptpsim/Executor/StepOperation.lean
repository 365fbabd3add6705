/-
# The operation of a step

What the executor sends for a step that writes a value of the manifest's own,
reads a property, or sends an operation with literal parameters. A value is
written at the scalar width of its property, and only if it is in range; the
simulator then reads the same value back (`encodeValue_decodes`). So the
operation fits the matcher that the simulator compiles for the step
(`stepOperation_fits`).
-/
import Ptpsim.Primitives.RecordStream
import Ptpsim.Sim.GateRun

namespace Ptpsim.Executor

open Codec Ptpsim.Core Config

/-! ### Values at a width -/

inductive ValueWidth where
  | u8
  | u16
  | u32
  | i16
  | i32
deriving DecidableEq

def ValueWidth.bytes : ValueWidth → ℕ
  | u8 => 1
  | u16 | i16 => 2
  | u32 | i32 => 4

def ValueWidth.isSigned : ValueWidth → Bool
  | i16 | i32 => true
  | _ => false

/-- The value is out of range for the width. -/
structure ValueTooWide where
  value : Int64
  width : ℕ
  signed : Bool
deriving DecidableEq

def encodeValue (value : Int64) (width : ValueWidth) : Except ValueTooWide (List UInt8) :=
  let tooWide := ⟨value, width.bytes, width.isSigned⟩
  match width with
  | .u8 =>
    if Sim.inRange value 0 255 then .ok (leBytes 1 value.toUInt64.toUInt8.toNat)
    else .error tooWide
  | .u16 =>
    if Sim.inRange value 0 65535 then .ok (leBytes 2 value.toUInt64.toUInt16.toNat)
    else .error tooWide
  | .u32 =>
    if Sim.inRange value 0 4294967295 then .ok (leBytes 4 value.toUInt64.toUInt32.toNat)
    else .error tooWide
  | .i16 =>
    if Sim.inRange value (-32768) 32767 then .ok (leBytes 2 value.toInt16.toUInt16.toNat)
    else .error tooWide
  | .i32 =>
    if Sim.inRange value (-2147483648) 2147483647 then .ok (leBytes 4 value.toInt32.toUInt32.toNat)
    else .error tooWide

/-- The width of a type, for the scalar types that a step can write. -/
def scalarWidth (ptype : Option String) : Option ValueWidth :=
  if ptype = some "u8" then some .u8
  else if ptype = some "u16" then some .u16
  else if ptype = some "u32" then some .u32
  else if ptype = some "i16" then some .i16
  else if ptype = some "i32" then some .i32
  else none

def propertyValueWidth (m : CameraManifest) (prop : UInt16) : Option ValueWidth :=
  (m.property prop).bind fun p => scalarWidth p.ptype

/-- The datatype of a width. -/
def ValueWidth.datatype : ValueWidth → UInt16
  | u8 => DatatypeCode.uint8
  | u16 => DatatypeCode.uint16
  | u32 => DatatypeCode.uint32
  | i16 => DatatypeCode.int16
  | i32 => DatatypeCode.int32

variable {width : ValueWidth} {value : Int64}

theorem datatypeOf_of_scalarWidth {ptype : Option String} (h : scalarWidth ptype = some width) :
    Sim.datatypeOf ptype = width.datatype := by
  unfold scalarWidth at h
  split at h
  · rename_i hty
    cases h
    rw [hty]
    rfl
  split at h
  · rename_i hty
    cases h
    rw [hty]
    rfl
  split at h
  · rename_i hty
    cases h
    rw [hty]
    rfl
  split at h
  · rename_i hty
    cases h
    rw [hty]
    rfl
  split at h
  · rename_i hty
    cases h
    rw [hty]
    rfl
  · cases h

theorem toUInt64_of_inRange {hi : ℤ} (h : Sim.inRange value 0 hi = true) :
    (value.toUInt64.toNat : ℤ) = value.toInt ∧ value.toInt ≤ hi := by
  simp only [Sim.inRange, Bool.and_eq_true, decide_eq_true_eq] at h
  refine ⟨Primitives.toNat_toUInt64_of_nonneg ?_, h.2⟩
  rw [Int64.lt_iff_toInt_lt]
  exact not_lt.mpr h.1

theorem toInt_of_inRange {lo hi : ℤ} (h : Sim.inRange value lo hi = true) :
    lo ≤ value.toInt ∧ value.toInt ≤ hi := by
  simpa [Sim.inRange] using h

/-- **A value that is written is read back.** -/
theorem encodeValue_decodes {bytes : List UInt8} (h : encodeValue value width = .ok bytes) :
    ∃ v r, PropValue.decode width.datatype (Reader.new bytes) = .ok (v, r) ∧
      Sim.valueToI64 v = some value := by
  have hre : ∀ {v : PropValue}, Consumes Reader.unread (PropValue.decode width.datatype) bytes v →
      Sim.valueToI64 v = some value → ∃ v r,
        PropValue.decode width.datatype (Reader.new bytes) = .ok (v, r) ∧
          Sim.valueToI64 v = some value := by
    intro v hc hv
    obtain ⟨r, hr, -⟩ := hc (Reader.new bytes) [] (by simp)
    exact ⟨v, r, hr, hv⟩
  have hu : ∀ {w : UInt64}, w.toNat = value.toUInt64.toNat → some w.toInt64 = some value := by
    intro w hw
    rw [UInt64.toNat_inj.mp hw, Int64.toInt64_toUInt64]
  cases width
  all_goals
    simp only [encodeValue] at h
    split at h
    case isFalse => cases h
    rename_i hra
    cases h
  case u8 =>
    obtain ⟨hnat, hle⟩ := toUInt64_of_inRange hra
    exact hre ((consumes_u8 value.toUInt64.toUInt8).map PropValue.u8) (hu (by simp; omega))
  case u16 =>
    obtain ⟨hnat, hle⟩ := toUInt64_of_inRange hra
    exact hre ((consumes_u16 value.toUInt64.toUInt16).map PropValue.u16) (hu (by simp; omega))
  case u32 =>
    obtain ⟨hnat, hle⟩ := toUInt64_of_inRange hra
    exact hre ((consumes_u32 value.toUInt64.toUInt32).map PropValue.u32) (hu (by simp; omega))
  case i16 =>
    obtain ⟨hlo, hhi⟩ := toInt_of_inRange hra
    refine hre (((roundTrips_i16 value.toInt16).consumes rfl).map PropValue.i16) (congrArg some ?_)
    rw [← Int64.toInt_inj, Int16.toInt_toInt64, Int64.toInt_toInt16]
    exact Int.bmod_eq_of_le (by omega) (by omega)
  case i32 =>
    obtain ⟨hlo, hhi⟩ := toInt_of_inRange hra
    refine hre (((roundTrips_i32 value.toInt32).consumes rfl).map PropValue.i32) (congrArg some ?_)
    rw [← Int64.toInt_inj, Int32.toInt_toInt64, Int64.toInt_toInt32]
    exact Int.bmod_eq_of_le (by omega) (by omega)

/-! ### The operation -/

/-- An operation to be sent, without its transaction id. -/
structure StepOperation where
  code : UInt16
  params : List UInt32
  dataOut : Option (List UInt8) := none
deriving DecidableEq

/-- The request and its data phase are those of the operation. -/
def StepOperation.Is (o : StepOperation) (x : Sim.Exchange) : Prop :=
  x.1.code = o.code ∧ x.1.params = o.params ∧ x.2 = o.dataOut

instance (o : StepOperation) (x : Sim.Exchange) : Decidable (o.Is x) := by
  unfold StepOperation.Is
  infer_instance

/-- The value a step writes; one that is bound at run time is left open. -/
def literalValue : Option SetPropValue → Option Int64
  | none => some 0
  | some (.literal value) => some value
  | some (.runtime ..) => none

/-- The operation the executor issues for a step with nothing bound at run
time, if it issues one. -/
def stepOperation (m : CameraManifest) (step : Step) : Option StepOperation :=
  match step.setProp, step.getProp, step.sendOp with
  | some prop, _, _ => do
    let prop ← parseHexCode prop
    let value ← literalValue step.value
    let width ← propertyValueWidth m prop
    let payload ← (encodeValue value width).toOption
    return ⟨Op.setDevicePropValue, [prop.toUInt32], some payload⟩
  | none, some prop, _ => do
    let prop ← parseHexCode prop
    return ⟨Op.getDevicePropValue, [prop.toUInt32], none⟩
  | none, none, some op => do
    let op ← parseHexCode op
    let params ← Sim.literalParams step.params
    return ⟨op, params, none⟩
  | none, none, none => none

theorem write_fits {m : CameraManifest} {prop : UInt16} {value : Option SetPropValue}
    {literal : Int64} {payload : List UInt8} {x : Sim.Exchange}
    (hv : literalValue value = some literal) (hw : propertyValueWidth m prop = some width)
    (he : encodeValue literal width = .ok payload)
    (hx : StepOperation.Is ⟨Op.setDevicePropValue, [prop.toUInt32], some payload⟩ x) :
    Sim.fits m (.setProp prop (value.bind SetPropValue.asLiteral)) x = true := by
  obtain ⟨hc, hpa, hd⟩ := hx
  simp only [Sim.fits, Sim.gateMatchForManifest, hc, hpa, hd,
    List.head?_cons, ne_eq, not_true_eq_false, or_self, if_false]
  rcases value with _ | (value | slot)
  · rfl
  · obtain rfl : value = literal := Option.some.inj hv
    obtain ⟨p, hp, hs⟩ := Option.bind_eq_some_iff.mp hw
    obtain ⟨v, r, hde, hb⟩ := encodeValue_decodes he
    have ht : Sim.datatypeOf ((m.property prop).bind (·.ptype)) = width.datatype := by
      rw [hp]
      exact datatypeOf_of_scalarWidth hs
    simp [SetPropValue.asLiteral, ht, hde, hb]
  · cases hv

/-- **The operation of a step fits its matcher.** -/
theorem stepOperation_fits {m : CameraManifest} {step : Step} {matcher : Sim.GateMatcher}
    {o : StepOperation} {x : Sim.Exchange} (hm : Sim.matcherForStep step = some matcher)
    (ho : stepOperation m step = some o) (hx : o.Is x) : Sim.fits m matcher x = true := by
  unfold Sim.matcherForStep at hm
  unfold stepOperation at ho
  split at hm
  · cases hm
  rcases hset : step.setProp with _ | prop
  · rcases hget : step.getProp with _ | prop
    · rcases hs : step.sendOp with _ | op
      · simp [hset, hget, hs] at ho
      · simp only [hset, hget, hs, Option.bind_eq_bind, Option.bind_eq_some_iff, Option.pure_def,
          Option.some.injEq] at hm ho
        obtain ⟨code, hc, params, hp, rfl⟩ := hm
        obtain ⟨code', hc', params', hp', rfl⟩ := ho
        obtain rfl : code = code' := Option.some.inj (hc.symm.trans hc')
        obtain rfl : params = params' := Option.some.inj (hp.symm.trans hp')
        obtain ⟨hxc, hxp, -⟩ := hx
        simp [Sim.fits, Sim.gateMatchForManifest, hxc, hxp]
    · simp only [hset, hget, Option.map_eq_some_iff, Option.bind_eq_bind, Option.bind_eq_some_iff,
        Option.pure_def, Option.some.injEq] at hm ho
      obtain ⟨code, hc, rfl⟩ := hm
      obtain ⟨code', hc', rfl⟩ := ho
      obtain rfl : code = code' := Option.some.inj (hc.symm.trans hc')
      obtain ⟨hxc, hxp, -⟩ := hx
      simp [Sim.fits, Sim.gateMatchForManifest, hxc, hxp]
  · simp only [hset, Option.bind_eq_bind, Option.bind_eq_some_iff, Option.pure_def,
      Option.some.injEq] at hm ho
    obtain ⟨code, hc, literal, hl, width, hw, payload, hpa, rfl⟩ := ho
    have he : encodeValue literal width = .ok payload := by
      rcases hr : encodeValue literal width with e | bytes
      · simp [hr, Except.toOption] at hpa
      · simpa [hr, Except.toOption] using hpa
    have hf := write_fits hl hw he hx
    rcases hv : step.value with _ | (value | slot)
    · simp only [hv, hc, Option.map_some, Option.some.injEq] at hm hf
      rw [← hm]
      exact hf
    · simp only [hv, hc, Option.map_some, Option.some.injEq] at hm hf
      rw [← hm]
      exact hf
    · simp [hv] at hm

end Ptpsim.Executor
