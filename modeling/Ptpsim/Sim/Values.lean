/-
# Property values in the simulator

How a manifest's property types and literals become typed PTP values, and how
a value is read back as the integer the predicates compare. Casts between
integer widths wrap, as the source's `as` does; a transition value must fit its
type.
-/
import Ptpsim.Config.Query

namespace Ptpsim.Sim

open Ptpsim.Core Config Primitives

/-- What a writer holds after an encoder ran, whether or not it failed. -/
def encodedBytes (m : Encoder) : List UInt8 :=
  match m [] with
  | .ok _ w => w
  | .error _ w => w

def datatypeOf (ty : Option String) : UInt16 :=
  if ty = some "i8" then DatatypeCode.int8
  else if ty = some "u8" then DatatypeCode.uint8
  else if ty = some "i16" then DatatypeCode.int16
  else if ty = some "u16" then DatatypeCode.uint16
  else if ty = some "i32" then DatatypeCode.int32
  else if ty = some "u32" then DatatypeCode.uint32
  else if ty = some "i64" then DatatypeCode.int64
  else if ty = some "u64" then DatatypeCode.uint64
  else if ty = some "str" then DatatypeCode.str
  else DatatypeCode.uint16

def typed (datatype : UInt16) (v : Int64) : PropValue :=
  if datatype = DatatypeCode.int8 then .i8 v.toInt8
  else if datatype = DatatypeCode.uint8 then .u8 v.toUInt64.toUInt8
  else if datatype = DatatypeCode.int16 then .i16 v.toInt16
  else if datatype = DatatypeCode.uint16 then .u16 v.toUInt64.toUInt16
  else if datatype = DatatypeCode.int32 then .i32 v.toInt32
  else if datatype = DatatypeCode.uint32 then .u32 v.toUInt64.toUInt32
  else if datatype = DatatypeCode.int64 then .i64 v
  else if datatype = DatatypeCode.uint64 then .u64 v.toUInt64
  else if datatype = DatatypeCode.str then .str (toString v.toInt)
  else .u16 v.toUInt64.toUInt16

def defaultPropValue (datatype : UInt16) : PropValue :=
  if datatype = DatatypeCode.str then .str "" else typed datatype 0

def typedDescriptorValue (datatype : UInt16) : DescriptorValue → Option PropValue
  | .int value => some (typed datatype value)
  | .str value => if datatype = DatatypeCode.str then some (.str value) else none

/-- The value as a signed word, if it is one. -/
def valueToI64 : PropValue → Option Int64
  | .i8 x => some x.toInt64
  | .u8 x => some x.toUInt64.toInt64
  | .i16 x => some x.toInt64
  | .u16 x => some x.toUInt64.toInt64
  | .i32 x => some x.toInt64
  | .u32 x => some x.toUInt64.toInt64
  | .i64 x => some x
  | .u64 x => some x.toInt64
  | .str _ => none

/-- The value lies in `[lo, hi]`, the range of its type. -/
def inRange (value : Int64) (lo hi : ℤ) : Bool := lo ≤ value.toInt && value.toInt ≤ hi

def scalarFitsProperty (ptype : Option String) (value : Int64) : Bool :=
  if ptype = some "u8" then inRange value 0 255
  else if ptype = some "u16" then inRange value 0 65535
  else if ptype = some "u32" then inRange value 0 4294967295
  else if ptype = some "u64" then 0 ≤ value.toInt
  else if ptype = some "i8" then inRange value (-128) 127
  else if ptype = some "i16" then inRange value (-32768) 32767
  else if ptype = some "i32" then inRange value (-2147483648) 2147483647
  else ptype = some "i64"

/-- The checked conversion of a transition value: the type's own value if the
integer fits it. -/
def propertyTransitionValue (ptype : Option String) (value : Int64) : Option PropValue :=
  if scalarFitsProperty ptype value then some (typed (datatypeOf ptype) value) else none

def recordValueZero : RecordValueEncoding → PropValue
  | .fixed _ => .u32 0
  | .signed 1 => .i8 0
  | .signed 2 => .i16 0
  | .signed _ => .i32 0
  | .ptpString => .str ""

def acceptsValue (encoding : RecordValueEncoding) (value : PropValue) : Bool :=
  match encoding with
  | .fixed _ => match numericValue value with
    | .unsigned _ => true
    | _ => false
  | .signed _ => match numericValue value with
    | .notNumeric => false
    | _ => true
  | .ptpString => match value with
    | .str _ => true
    | _ => false

/-- The value of a record member's literal in the manifest. -/
def recordLiteral : RecordValueLiteral → PropValue
  | .unsigned value => .u32 value
  | .signed value => .i32 value
  | .string value => .str value

end Ptpsim.Sim
