/-
# State overlays

A control request that sets parts of the camera state directly: the phase, the
session flag, the transfer flag and property values. The whole overlay is
checked and converted before anything is written, so a bad value leaves the
state as it was.
-/
import Ptpsim.Sim.State

namespace Ptpsim.Sim

open Ptpsim.Core Config

/-- A JSON value as far as overlays read it: a number without a fraction, any
other number, a string, or something else. -/
inductive JsonValue where
  | integer (n : ℤ)
  | real (text : String)
  | string (s : String)
  | other
deriving DecidableEq

inductive ValueError where
  | unsupportedNumber
  | expectedNumeric
  | expectedString
  | invalidNumber (text : String)
  | outside (raw min max : ℤ)
  | unsupportedType (ptype : String)
deriving DecidableEq

inductive OverlayError where
  | unknownPhase (phase : String)
  | invalidCode (key : String)
  | notInManifest (key : String)
  | property (key : String) (error : ValueError)
deriving DecidableEq

/-- A change to the state, from outside. -/
structure StateOverlay where
  phase : Option String := none
  sessionOpen : Option Bool := none
  cameraInitiatedTransferActive : Option Bool := none
  props : List (String × JsonValue) := []
  apActShortLatch : Option Bool := none
  apHeldTerm : Option Bool := none
  auxDescriptorBudget : Option UInt32 := none
  auxReset : Option Bool := none

structure AppliedStateOverlay where
  props : ℕ
  phase : Bool
  sessionOpen : Bool
  cameraInitiatedTransferActive : Bool
  apActShortLatch : Bool
  apHeldTerm : Bool
  auxDescriptorBudget : Bool
  auxReset : Bool
deriving DecidableEq

/-! ### Numbers -/

def digitOf (radix : ℕ) (c : Char) : Option ℕ :=
  (hexDigit c).filter fun d => d < radix

/-- `i128::from_str_radix`. A number outside `i128` is outside every property
type too, so its size is left to the range check. -/
def fromStrRadix (radix : ℕ) (cs : List Char) : Option ℤ :=
  let (sign, digits) : ℤ × List Char := match cs with
    | '-' :: rest => (-1, rest)
    | '+' :: rest => (1, rest)
    | _ => (1, cs)
  if digits.isEmpty then none
  else do
    let n ← digits.foldlM (fun acc c => (digitOf radix c).map fun d => acc * radix + d) (0 : ℕ)
    return sign * n

def parseNumericString (text : String) : Except ValueError ℤ :=
  let parsed := match text.toList with
    | '0' :: 'x' :: hex => fromStrRadix 16 hex
    | '0' :: 'X' :: hex => fromStrRadix 16 hex
    | cs => fromStrRadix 10 cs
  match parsed with
  | some n => .ok n
  | none => .error (.invalidNumber text)

def rawNumber : JsonValue → Except ValueError ℤ
  | .integer n => if -2 ^ 63 ≤ n ∧ n < 2 ^ 64 then .ok n else .error .unsupportedNumber
  | .real _ => .error .unsupportedNumber
  | .string s => parseNumericString s
  | .other => .error .expectedNumeric

def checkedNumeric (value : JsonValue) (min max : ℤ) : Except ValueError ℤ := do
  let raw ← rawNumber value
  if raw < min ∨ raw > max then throw (.outside raw min max) else return raw

def propValueFromJson (ptype : Option String) (value : JsonValue) : Except ValueError PropValue :=
  if ptype = some "i8" then
    (checkedNumeric value (-128) 127).map fun v => .i8 (Int8.ofInt v)
  else if ptype = some "i16" then
    (checkedNumeric value (-32768) 32767).map fun v => .i16 (Int16.ofInt v)
  else if ptype = some "i32" then
    (checkedNumeric value (-2 ^ 31) (2 ^ 31 - 1)).map fun v => .i32 (Int32.ofInt v)
  else if ptype = some "i64" then
    (checkedNumeric value (-2 ^ 63) (2 ^ 63 - 1)).map fun v => .i64 (Int64.ofInt v)
  else if ptype = some "u8" then
    (checkedNumeric value 0 255).map fun v => .u8 (UInt8.ofNat v.toNat)
  else if ptype = some "u16" ∨ ptype = none then
    (checkedNumeric value 0 65535).map fun v => .u16 (UInt16.ofNat v.toNat)
  else if ptype = some "u32" then
    (checkedNumeric value 0 (2 ^ 32 - 1)).map fun v => .u32 (UInt32.ofNat v.toNat)
  else if ptype = some "u64" then
    (checkedNumeric value 0 (2 ^ 64 - 1)).map fun v => .u64 (UInt64.ofNat v.toNat)
  else if ptype = some "str" then
    match value with
    | .string s => .ok (.str s)
    | _ => .error .expectedString
  else .error (.unsupportedType (ptype.getD ""))

/-! ### Staging and applying -/

/-- An overlay whose parts have been converted. -/
structure StagedOverlay where
  phase : Option Phase
  sessionOpen : Option Bool
  cameraInitiatedTransferActive : Option Bool
  props : List (UInt16 × PropValue)
  applied : AppliedStateOverlay

def stagePhase : Option String → Except OverlayError (Option Phase)
  | none => .ok none
  | some name =>
    match Phase.fromStateName name with
    | some phase => .ok (some phase)
    | none => .error (.unknownPhase name)

def stageProp (manifest : CameraManifest) (entry : String × JsonValue) :
    Except OverlayError (UInt16 × PropValue) :=
  match parseHexCode entry.1 with
  | none => .error (.invalidCode entry.1)
  | some code =>
    match manifest.property code with
    | none => .error (.notInManifest entry.1)
    | some prop =>
      match propValueFromJson prop.ptype entry.2 with
      | .ok value => .ok (code, value)
      | .error e => .error (.property entry.1 e)

/-- Checks all before any of it applies. -/
def stage (manifest : CameraManifest) (overlay : StateOverlay) :
    Except OverlayError StagedOverlay := do
  let phase ← stagePhase overlay.phase
  let props ← overlay.props.mapM (stageProp manifest)
  return {
    phase := phase
    sessionOpen := overlay.sessionOpen
    cameraInitiatedTransferActive := overlay.cameraInitiatedTransferActive
    props := props
    applied := {
      props := props.length
      phase := phase.isSome
      sessionOpen := overlay.sessionOpen.isSome
      cameraInitiatedTransferActive := overlay.cameraInitiatedTransferActive.isSome
      apActShortLatch := overlay.apActShortLatch.isSome
      apHeldTerm := overlay.apHeldTerm.isSome
      auxDescriptorBudget := overlay.auxDescriptorBudget.isSome
      auxReset := overlay.auxReset.isSome } }

/-- Setting the phase forgets the detected mode and the gates. -/
def StagedOverlay.write (staged : StagedOverlay) (s : CameraState) : CameraState where
  sessionOpen := staged.sessionOpen.getD s.sessionOpen
  phase := staged.phase.getD s.phase
  activeMode := if staged.phase.isSome then none else s.activeMode
  props := staged.props.foldl (fun props (code, value) =>
    Function.update props code (some value)) s.props
  pending := s.pending
  events := s.events
  gates := if staged.phase.isSome then s.gates.resetGates else s.gates

end Ptpsim.Sim
