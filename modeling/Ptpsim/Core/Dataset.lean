/-
# The PTP datasets

`ObjectInfo`, `DeviceInfo`, `StorageInfo` and `DevicePropDesc`, the structured
payloads of the data phases, with their codecs. Every field is
self-delimiting, so a dataset is decoded from exactly the bytes it encodes to,
with one exception: the property description writes the number of its
enumerated values as `values.len() as u16`. An enumeration of more than 65535
values is encoded without an error and does not come back
(`dataset_exact_iff`).
-/
import Ptpsim.Core.Codes
import Ptpsim.Core.Datatype

namespace Ptpsim.Core

open Codec Reader Writer

/-- What a camera says of one object. -/
structure ObjectInfo where
  storageId : UInt32 := 0
  objectFormat : UInt16 := 0
  protectionStatus : UInt16 := 0
  objectCompressedSize : UInt32 := 0
  thumbFormat : UInt16 := 0
  thumbCompressedSize : UInt32 := 0
  thumbPixWidth : UInt32 := 0
  thumbPixHeight : UInt32 := 0
  imagePixWidth : UInt32 := 0
  imagePixHeight : UInt32 := 0
  imageBitDepth : UInt32 := 0
  parentObject : UInt32 := 0
  associationType : UInt16 := 0
  associationDesc : UInt32 := 0
  sequenceNumber : UInt32 := 0
  filename : String := ""
  captureDate : String := ""
  modificationDate : String := ""
  keywords : String := ""
deriving DecidableEq, Repr

/-- What a camera says of itself. -/
structure DeviceInfo where
  standardVersion : UInt16 := 0
  vendorExtensionId : UInt32 := 0
  vendorExtensionVersion : UInt16 := 0
  vendorExtensionDesc : String := ""
  functionalMode : UInt16 := 0
  operationsSupported : List UInt16 := []
  eventsSupported : List UInt16 := []
  devicePropertiesSupported : List UInt16 := []
  captureFormats : List UInt16 := []
  imageFormats : List UInt16 := []
  manufacturer : String := ""
  model : String := ""
  deviceVersion : String := ""
  serialNumber : String := ""
deriving DecidableEq, Repr

/-- What a camera says of one storage. -/
structure StorageInfo where
  storageType : UInt16 := 0
  filesystemType : UInt16 := 0
  accessCapability : UInt16 := 0
  maxCapacity : UInt64 := 0
  freeSpaceBytes : UInt64 := 0
  freeSpaceImages : UInt32 := 0
  storageDescription : String := ""
  volumeLabel : String := ""
deriving DecidableEq, Repr

namespace ObjectInfo

def fields : Decoder ObjectInfo := do
  let storageId ← Reader.u32
  let objectFormat ← Reader.u16
  let protectionStatus ← Reader.u16
  let objectCompressedSize ← Reader.u32
  let thumbFormat ← Reader.u16
  let thumbCompressedSize ← Reader.u32
  let thumbPixWidth ← Reader.u32
  let thumbPixHeight ← Reader.u32
  let imagePixWidth ← Reader.u32
  let imagePixHeight ← Reader.u32
  let imageBitDepth ← Reader.u32
  let parentObject ← Reader.u32
  let associationType ← Reader.u16
  let associationDesc ← Reader.u32
  let sequenceNumber ← Reader.u32
  let filename ← Reader.ptpString
  let captureDate ← Reader.ptpString
  let modificationDate ← Reader.ptpString
  let keywords ← Reader.ptpString
  pure { storageId, objectFormat, protectionStatus, objectCompressedSize, thumbFormat,
         thumbCompressedSize, thumbPixWidth, thumbPixHeight, imagePixWidth, imagePixHeight,
         imageBitDepth, parentObject, associationType, associationDesc, sequenceNumber,
         filename, captureDate, modificationDate, keywords }

def decode : List UInt8 → Except DecodeError ObjectInfo := Reader.whole fields

def encode (v : ObjectInfo) : Encoder := do
  Writer.u32 v.storageId
  Writer.u16 v.objectFormat
  Writer.u16 v.protectionStatus
  Writer.u32 v.objectCompressedSize
  Writer.u16 v.thumbFormat
  Writer.u32 v.thumbCompressedSize
  Writer.u32 v.thumbPixWidth
  Writer.u32 v.thumbPixHeight
  Writer.u32 v.imagePixWidth
  Writer.u32 v.imagePixHeight
  Writer.u32 v.imageBitDepth
  Writer.u32 v.parentObject
  Writer.u16 v.associationType
  Writer.u32 v.associationDesc
  Writer.u32 v.sequenceNumber
  Writer.ptpString v.filename
  Writer.ptpString v.captureDate
  Writer.ptpString v.modificationDate
  Writer.ptpString v.keywords

end ObjectInfo

namespace DeviceInfo

def fields : Decoder DeviceInfo := do
  let standardVersion ← Reader.u16
  let vendorExtensionId ← Reader.u32
  let vendorExtensionVersion ← Reader.u16
  let vendorExtensionDesc ← Reader.ptpString
  let functionalMode ← Reader.u16
  let operationsSupported ← Reader.ptpArray Reader.u16
  let eventsSupported ← Reader.ptpArray Reader.u16
  let devicePropertiesSupported ← Reader.ptpArray Reader.u16
  let captureFormats ← Reader.ptpArray Reader.u16
  let imageFormats ← Reader.ptpArray Reader.u16
  let manufacturer ← Reader.ptpString
  let model ← Reader.ptpString
  let deviceVersion ← Reader.ptpString
  let serialNumber ← Reader.ptpString
  pure { standardVersion, vendorExtensionId, vendorExtensionVersion, vendorExtensionDesc,
         functionalMode, operationsSupported, eventsSupported, devicePropertiesSupported,
         captureFormats, imageFormats, manufacturer, model, deviceVersion, serialNumber }

def decode : List UInt8 → Except DecodeError DeviceInfo := Reader.whole fields

def encode (v : DeviceInfo) : Encoder := do
  Writer.u16 v.standardVersion
  Writer.u32 v.vendorExtensionId
  Writer.u16 v.vendorExtensionVersion
  Writer.ptpString v.vendorExtensionDesc
  Writer.u16 v.functionalMode
  Writer.ptpArray v.operationsSupported Writer.u16
  Writer.ptpArray v.eventsSupported Writer.u16
  Writer.ptpArray v.devicePropertiesSupported Writer.u16
  Writer.ptpArray v.captureFormats Writer.u16
  Writer.ptpArray v.imageFormats Writer.u16
  Writer.ptpString v.manufacturer
  Writer.ptpString v.model
  Writer.ptpString v.deviceVersion
  Writer.ptpString v.serialNumber

/-- The five arrays of the dataset. -/
def arrays (v : DeviceInfo) : List (List UInt16) :=
  [v.operationsSupported, v.eventsSupported, v.devicePropertiesSupported, v.captureFormats,
    v.imageFormats]

end DeviceInfo

namespace StorageInfo

def fields : Decoder StorageInfo := do
  let storageType ← Reader.u16
  let filesystemType ← Reader.u16
  let accessCapability ← Reader.u16
  let maxCapacity ← Reader.u64
  let freeSpaceBytes ← Reader.u64
  let freeSpaceImages ← Reader.u32
  let storageDescription ← Reader.ptpString
  let volumeLabel ← Reader.ptpString
  pure { storageType, filesystemType, accessCapability, maxCapacity, freeSpaceBytes,
         freeSpaceImages, storageDescription, volumeLabel }

def decode : List UInt8 → Except DecodeError StorageInfo := Reader.whole fields

def encode (v : StorageInfo) : Encoder := do
  Writer.u16 v.storageType
  Writer.u16 v.filesystemType
  Writer.u16 v.accessCapability
  Writer.u64 v.maxCapacity
  Writer.u64 v.freeSpaceBytes
  Writer.u32 v.freeSpaceImages
  Writer.ptpString v.storageDescription
  Writer.ptpString v.volumeLabel

end StorageInfo

/-- A typed scalar property value: a signed or unsigned integer of a standard
width, or a PTP string. -/
inductive PropValue where
  | i8 (v : Int8)
  | u8 (v : UInt8)
  | i16 (v : Int16)
  | u16 (v : UInt16)
  | i32 (v : Int32)
  | u32 (v : UInt32)
  | i64 (v : Int64)
  | u64 (v : UInt64)
  | str (v : String)
deriving DecidableEq, Repr

namespace PropValue

def datatypeCode : PropValue → UInt16
  | i8 _ => DatatypeCode.int8
  | u8 _ => DatatypeCode.uint8
  | i16 _ => DatatypeCode.int16
  | u16 _ => DatatypeCode.uint16
  | i32 _ => DatatypeCode.int32
  | u32 _ => DatatypeCode.uint32
  | i64 _ => DatatypeCode.int64
  | u64 _ => DatatypeCode.uint64
  | str _ => DatatypeCode.str

/-- Reads one value from a cursor, by the datatype of the property. -/
def decode (datatype : UInt16) : Decoder PropValue :=
  if datatype = DatatypeCode.int8 then i8 <$> Reader.i8
  else if datatype = DatatypeCode.uint8 then u8 <$> Reader.u8
  else if datatype = DatatypeCode.int16 then i16 <$> Reader.i16
  else if datatype = DatatypeCode.uint16 then u16 <$> Reader.u16
  else if datatype = DatatypeCode.int32 then i32 <$> Reader.i32
  else if datatype = DatatypeCode.uint32 then u32 <$> Reader.u32
  else if datatype = DatatypeCode.int64 then i64 <$> Reader.i64
  else if datatype = DatatypeCode.uint64 then u64 <$> Reader.u64
  else if datatype = DatatypeCode.str then str <$> Reader.ptpString
  else throw (.invalidString "unsupported prop datatype")

def encode : PropValue → Encoder
  | i8 v => Writer.i8 v
  | u8 v => Writer.u8 v
  | i16 v => Writer.i16 v
  | u16 v => Writer.u16 v
  | i32 v => Writer.i32 v
  | u32 v => Writer.u32 v
  | i64 v => Writer.i64 v
  | u64 v => Writer.u64 v
  | str v => Writer.ptpString v

end PropValue

/-- The number a value is. -/
def intValue : PropValue → Option ℤ
  | .i8 x => some x.toInt
  | .u8 x => some x.toNat
  | .i16 x => some x.toInt
  | .u16 x => some x.toNat
  | .i32 x => some x.toInt
  | .u32 x => some x.toNat
  | .i64 x => some x.toInt
  | .u64 x => some x.toNat
  | .str _ => none

/-- The values a property allows. -/
inductive PropForm where
  | none
  | range (min max step : PropValue)
  | enum (values : List PropValue)
deriving DecidableEq, Repr

/-- A property's type, values and form. -/
structure DevicePropDesc where
  code : UInt16
  datatype : UInt16
  getSet : UInt8
  factoryDefault : PropValue
  current : PropValue
  form : PropForm
deriving DecidableEq, Repr

namespace PropForm

def decode (datatype : UInt16) : Decoder PropForm := do
  let formFlag ← Reader.u8
  if formFlag = 0 then pure .none
  else if formFlag = 1 then do
    let min ← PropValue.decode datatype
    let max ← PropValue.decode datatype
    let step ← PropValue.decode datatype
    pure (.range min max step)
  else if formFlag = 2 then do
    let count ← Reader.u16
    let values ← times (PropValue.decode datatype) count.toNat
    pure (.enum values)
  else throw (.invalidString "unknown prop form flag")

/-- The number of enumerated values is cast to the width of the count field. -/
def encode : PropForm → Encoder
  | .none => Writer.u8 0
  | .range min max step => do
    Writer.u8 1
    min.encode
    max.encode
    step.encode
  | .enum values => do
    Writer.u8 2
    Writer.u16 (UInt16.ofNat values.length)
    writeAll PropValue.encode values

def values : PropForm → List PropValue
  | .none => []
  | .range min max step => [min, max, step]
  | .enum values => values

end PropForm

namespace DevicePropDesc

def fields : Decoder DevicePropDesc := do
  let code ← Reader.u16
  let datatype ← Reader.u16
  let getSet ← Reader.u8
  let factoryDefault ← PropValue.decode datatype
  let current ← PropValue.decode datatype
  let form ← PropForm.decode datatype
  pure { code, datatype, getSet, factoryDefault, current, form }

def decode : List UInt8 → Except DecodeError DevicePropDesc := Reader.whole fields

def encode (d : DevicePropDesc) : Encoder := do
  Writer.u16 d.code
  Writer.u16 d.datatype
  Writer.u8 d.getSet
  d.factoryDefault.encode
  d.current.encode
  d.form.encode

/-- Every value of the description has the declared datatype. -/
def WellTyped (d : DevicePropDesc) : Prop :=
  ∀ v ∈ d.factoryDefault :: d.current :: d.form.values, v.datatypeCode = d.datatype

instance (d : DevicePropDesc) : Decidable d.WellTyped :=
  inferInstanceAs (Decidable (∀ v ∈ d.factoryDefault :: d.current :: d.form.values,
    v.datatypeCode = d.datatype))

end DevicePropDesc

/-! ### The fixed layouts -/

theorem ObjectInfo.roundTrips (v : ObjectInfo) : RoundTrips unread v.encode fields v :=
  (roundTrips_u32 _).bind <| (roundTrips_u16 _).bind <| (roundTrips_u16 _).bind <|
  (roundTrips_u32 _).bind <| (roundTrips_u16 _).bind <| (roundTrips_u32 _).bind <|
  (roundTrips_u32 _).bind <| (roundTrips_u32 _).bind <| (roundTrips_u32 _).bind <|
  (roundTrips_u32 _).bind <| (roundTrips_u32 _).bind <| (roundTrips_u32 _).bind <|
  (roundTrips_u16 _).bind <| (roundTrips_u32 _).bind <| (roundTrips_u32 _).bind <|
  (roundTrips_ptpString _).bind <| (roundTrips_ptpString _).bind <|
  (roundTrips_ptpString _).bind <| (roundTrips_ptpString _).andThen (Consumes.pure v)

theorem ObjectInfo.stable_fields : Stable unread fields :=
  stable_u32.bind fun _ => stable_u16.bind fun _ => stable_u16.bind fun _ =>
  stable_u32.bind fun _ => stable_u16.bind fun _ => stable_u32.bind fun _ =>
  stable_u32.bind fun _ => stable_u32.bind fun _ => stable_u32.bind fun _ =>
  stable_u32.bind fun _ => stable_u32.bind fun _ => stable_u32.bind fun _ =>
  stable_u16.bind fun _ => stable_u32.bind fun _ => stable_u32.bind fun _ =>
  stable_ptpString.bind fun _ => stable_ptpString.bind fun _ =>
  stable_ptpString.bind fun _ => stable_ptpString.bind fun _ => Stable.pure _

theorem StorageInfo.roundTrips (v : StorageInfo) : RoundTrips unread v.encode fields v :=
  (roundTrips_u16 _).bind <| (roundTrips_u16 _).bind <| (roundTrips_u16 _).bind <|
  (roundTrips_u64 _).bind <| (roundTrips_u64 _).bind <| (roundTrips_u32 _).bind <|
  (roundTrips_ptpString _).bind <| (roundTrips_ptpString _).andThen (Consumes.pure v)

theorem StorageInfo.stable_fields : Stable unread fields :=
  stable_u16.bind fun _ => stable_u16.bind fun _ => stable_u16.bind fun _ =>
  stable_u64.bind fun _ => stable_u64.bind fun _ => stable_u32.bind fun _ =>
  stable_ptpString.bind fun _ => stable_ptpString.bind fun _ => Stable.pure _

theorem stable_u16Array : Stable unread (ptpArray Reader.u16) :=
  stable_ptpArray stable_u16 advances_u16

theorem roundTrips_u16Array {items : List UInt16} (h : items.length ≤ 16777216) :
    RoundTrips unread (ptpArray items Writer.u16) (ptpArray Reader.u16) items :=
  roundTrips_ptpArray advances_u16 h fun v _ => roundTrips_u16 v

/-- The arrays are read back as long as their counts pass the sanity ceiling
of the reader. -/
theorem DeviceInfo.roundTrips (v : DeviceInfo) (h : ∀ a ∈ v.arrays, a.length ≤ 2 ^ 24) :
    RoundTrips unread v.encode fields v := by
  have hops : v.operationsSupported.length ≤ 2 ^ 24 := h _ (by simp [arrays])
  have he : v.eventsSupported.length ≤ 2 ^ 24 := h _ (by simp [arrays])
  have hp : v.devicePropertiesSupported.length ≤ 2 ^ 24 := h _ (by simp [arrays])
  have hc : v.captureFormats.length ≤ 2 ^ 24 := h _ (by simp [arrays])
  have hi : v.imageFormats.length ≤ 2 ^ 24 := h _ (by simp [arrays])
  exact (roundTrips_u16 _).bind <| (roundTrips_u32 _).bind <| (roundTrips_u16 _).bind <|
    (roundTrips_ptpString _).bind <| (roundTrips_u16 _).bind <|
    (roundTrips_u16Array hops).bind <| (roundTrips_u16Array he).bind <|
    (roundTrips_u16Array hp).bind <| (roundTrips_u16Array hc).bind <|
    (roundTrips_u16Array hi).bind <| (roundTrips_ptpString _).bind <|
    (roundTrips_ptpString _).bind <| (roundTrips_ptpString _).bind <|
    (roundTrips_ptpString _).andThen (Consumes.pure v)

theorem DeviceInfo.stable_fields : Stable unread fields :=
  stable_u16.bind fun _ => stable_u32.bind fun _ => stable_u16.bind fun _ =>
  stable_ptpString.bind fun _ => stable_u16.bind fun _ =>
  stable_u16Array.bind fun _ => stable_u16Array.bind fun _ => stable_u16Array.bind fun _ =>
  stable_u16Array.bind fun _ => stable_u16Array.bind fun _ =>
  stable_ptpString.bind fun _ => stable_ptpString.bind fun _ =>
  stable_ptpString.bind fun _ => stable_ptpString.bind fun _ => Stable.pure _

/-! ### Property values and forms -/

theorem PropValue.roundTrips : ∀ v : PropValue,
    RoundTrips unread v.encode (decode v.datatypeCode) v
  | i8 v => (roundTrips_i8 v).map i8
  | u8 v => (roundTrips_u8 v).map u8
  | i16 v => (roundTrips_i16 v).map i16
  | u16 v => (roundTrips_u16 v).map u16
  | i32 v => (roundTrips_i32 v).map i32
  | u32 v => (roundTrips_u32 v).map u32
  | i64 v => (roundTrips_i64 v).map i64
  | u64 v => (roundTrips_u64 v).map u64
  | str v => (roundTrips_ptpString v).map str

theorem PropValue.stable_decode (datatype : UInt16) : Stable unread (decode datatype) := by
  refine iteInduction (fun _ => stable_i8.map _) fun _ => ?_
  refine iteInduction (fun _ => stable_u8.map _) fun _ => ?_
  refine iteInduction (fun _ => stable_i16.map _) fun _ => ?_
  refine iteInduction (fun _ => stable_u16.map _) fun _ => ?_
  refine iteInduction (fun _ => stable_i32.map _) fun _ => ?_
  refine iteInduction (fun _ => stable_u32.map _) fun _ => ?_
  refine iteInduction (fun _ => stable_i64.map _) fun _ => ?_
  refine iteInduction (fun _ => stable_u64.map _) fun _ => ?_
  exact iteInduction (fun _ => stable_ptpString.map _) fun _ => Stable.throw _

theorem PropForm.stable_decode (datatype : UInt16) : Stable unread (decode datatype) := by
  have hv := PropValue.stable_decode datatype
  refine stable_u8.bind fun formFlag => ?_
  split
  · exact Stable.pure _
  split
  · exact hv.bind fun _ => hv.bind fun _ => hv.bind fun _ => Stable.pure _
  split
  · exact stable_u16.bind fun count => (hv.times count.toNat).bind fun _ => Stable.pure _
  · exact Stable.throw _

/-- The enumerated values fit the `u16` count field. -/
def PropForm.CountFits (form : PropForm) : Prop :=
  ∀ values, form = .enum values → values.length ≤ 65535

theorem PropForm.values_length (form : PropForm) (h : form.CountFits) :
    form.values.length ≤ 65535 := by
  cases form with
  | none => simp [values]
  | range min max step => simp [values]
  | enum vs => exact h vs rfl

theorem PropForm.roundTrips {datatype : UInt16} (form : PropForm)
    (ht : ∀ v ∈ form.values, v.datatypeCode = datatype) (hc : form.CountFits) :
    RoundTrips unread form.encode (decode datatype) form := by
  have hv : ∀ v ∈ form.values, RoundTrips unread v.encode (PropValue.decode datatype) v :=
    fun v hm => ht v hm ▸ v.roundTrips
  cases form with
  | none => exact (roundTrips_u8 0).andThen (Consumes.pure _)
  | range min max step =>
    have hmin := hv min (by simp [values])
    have hmax := hv max (by simp [values])
    have hs := hv step (by simp [values])
    exact (roundTrips_u8 1).bind (hmin.bind (hmax.bind (hs.andThen (Consumes.pure _))))
  | enum vs =>
    have hn : (UInt16.ofNat vs.length).toNat = vs.length := by
      have := hc vs rfl
      rw [UInt16.toNat_ofNat', Nat.mod_eq_of_lt (by omega)]
    have hall := RoundTrips.writeAll (g := id) vs hv
    rw [List.map_id] at hall
    refine (roundTrips_u8 2).bind ((roundTrips_u16 _).bind ?_)
    rw [hn]
    exact hall.andThen (Consumes.pure _)

theorem PropForm.decode_countFits {datatype : UInt16} {r r' : Reader} {form : PropForm}
    (h : decode datatype r = .ok (form, r')) : form.CountFits := by
  rintro values rfl
  obtain ⟨formFlag, r₁, -, h₁⟩ := bind_ok h
  split at h₁
  · cases h₁
  split at h₁
  · obtain ⟨min, r₂, -, h₂⟩ := bind_ok h₁
    obtain ⟨max, r₃, -, h₃⟩ := bind_ok h₂
    obtain ⟨step, r₄, -, h₄⟩ := bind_ok h₃
    cases h₄
  split at h₁
  · obtain ⟨count, r₂, -, h₂⟩ := bind_ok h₁
    obtain ⟨vs, r₃, h₃, h₄⟩ := bind_ok h₂
    cases h₄
    have hlt := count.toNat_lt
    rw [length_times _ _ _ _ h₃]
    omega
  · cases h₁

/-! ### Property descriptions -/

theorem DevicePropDesc.stable_fields : Stable unread fields := by
  refine stable_u16.bind fun _ => stable_u16.bind fun datatype => stable_u8.bind fun _ => ?_
  exact (PropValue.stable_decode datatype).bind fun _ => (PropValue.stable_decode datatype).bind
    fun _ => (PropForm.stable_decode datatype).bind fun _ => Stable.pure _

theorem DevicePropDesc.roundTrips (d : DevicePropDesc) (ht : d.WellTyped)
    (hc : d.form.CountFits) : RoundTrips unread d.encode fields d := by
  have hdef := d.factoryDefault.roundTrips
  have hcur := d.current.roundTrips
  rw [ht d.factoryDefault (by simp)] at hdef
  rw [ht d.current (by simp)] at hcur
  have hf := d.form.roundTrips (fun v hv => ht v (by simp [hv])) hc
  exact (roundTrips_u16 _).bind <| (roundTrips_u16 _).bind <| (roundTrips_u8 _).bind <|
    hdef.bind <| hcur.bind <| hf.andThen (Consumes.pure d)

/-- A decoded description has a count that fits, so a longer enumeration
cannot come back. -/
theorem DevicePropDesc.decode_countFits {bs : List UInt8} {d : DevicePropDesc}
    (h : decode bs = .ok d) : d.form.CountFits := by
  obtain ⟨r, hr, -⟩ := whole_ok h
  obtain ⟨code, r₁, -, h₁⟩ := bind_ok hr
  obtain ⟨datatype, r₂, -, h₂⟩ := bind_ok h₁
  obtain ⟨getSet, r₃, -, h₃⟩ := bind_ok h₂
  obtain ⟨factoryDefault, r₄, -, h₄⟩ := bind_ok h₃
  obtain ⟨current, r₅, -, h₅⟩ := bind_ok h₄
  obtain ⟨form, r₆, h₆, h₇⟩ := bind_ok h₅
  cases h₇
  exact PropForm.decode_countFits h₆

theorem DevicePropDesc.exact_iff (d : DevicePropDesc) (ht : d.WellTyped) {bs : List UInt8}
    (h : intoVec d.encode = .ok bs) : Exact decode bs d ↔ d.form.CountFits := by
  constructor
  · intro he
    exact decode_countFits he.1
  · intro hc
    exact exact_of_roundTrips (d.roundTrips ht hc) stable_fields h

theorem PropValue.succeeds (v : PropValue) (h : v.datatypeCode ≠ DatatypeCode.str) :
    Succeeds v.encode := by
  cases v with
  | str v => exact absurd rfl h
  | _ => exact succeeds_word _ _

theorem DevicePropDesc.succeeds (d : DevicePropDesc)
    (h : ∀ v ∈ d.factoryDefault :: d.current :: d.form.values, Succeeds v.encode) :
    Succeeds d.encode := by
  have hform : Succeeds d.form.encode := by
    have hv : ∀ v ∈ d.form.values, Succeeds v.encode := fun v hv => h v (by simp [hv])
    generalize d.form = form at hv
    cases form with
    | none => exact succeeds_word 1 _
    | range min max step =>
      exact (succeeds_word 1 _).andThen <| (hv min (by simp [PropForm.values])).andThen <|
        (hv max (by simp [PropForm.values])).andThen (hv step (by simp [PropForm.values]))
    | enum vs =>
      exact (succeeds_word 1 _).andThen <| (succeeds_word 2 _).andThen (Succeeds.writeAll _ hv)
  exact (succeeds_word 2 _).andThen <| (succeeds_word 2 _).andThen <|
    (succeeds_word 1 _).andThen <| (h d.factoryDefault (by simp)).andThen <|
    (h d.current (by simp)).andThen hform

/-- A description with an enumeration one longer than the count field can
say. -/
def longEnum : DevicePropDesc where
  code := 0x5001
  datatype := DatatypeCode.uint8
  getSet := 0
  factoryDefault := .u8 0
  current := .u8 0
  form := .enum (List.replicate 65536 (.u8 0))

theorem longEnum_wellTyped : longEnum.WellTyped := by
  intro v hv
  simp only [longEnum, PropForm.values, List.mem_cons, List.mem_replicate] at hv
  rcases hv with rfl | rfl | ⟨-, rfl⟩ <;> rfl

theorem longEnum_encodes : ∃ bs, intoVec longEnum.encode = .ok bs := by
  refine intoVec_of_succeeds (longEnum.succeeds fun v hv => v.succeeds fun hs => ?_)
  exact absurd (hs.symm.trans (longEnum_wellTyped v hv)) (by decide)

/-- The encoder reports success on the long enumeration, and its bytes are
not decoded to it. -/
theorem longEnum_not_exact : longEnum.WellTyped ∧
    ∃ bs, Writer.intoVec longEnum.encode = .ok bs ∧ DevicePropDesc.decode bs ≠ .ok longEnum := by
  obtain ⟨bs, hbs⟩ := longEnum_encodes
  refine ⟨longEnum_wellTyped, bs, hbs, fun h => ?_⟩
  have hf := DevicePropDesc.decode_countFits h _ rfl
  rw [List.length_replicate] at hf
  omega

/-- The object, device and storage datasets are decoded from exactly the
bytes they encode to, and a well-typed property description is if and only if
its enumeration fits the count field. -/
theorem dataset_exact_iff (o : ObjectInfo) (i : DeviceInfo) (s : StorageInfo) (d : DevicePropDesc) :
    (∀ bs, Writer.intoVec o.encode = .ok bs → Exact ObjectInfo.decode bs o) ∧
    ((∀ a ∈ i.arrays, a.length ≤ 2 ^ 24) →
      ∀ bs, Writer.intoVec i.encode = .ok bs → Exact DeviceInfo.decode bs i) ∧
    (∀ bs, Writer.intoVec s.encode = .ok bs → Exact StorageInfo.decode bs s) ∧
    (d.WellTyped → ∀ bs, Writer.intoVec d.encode = .ok bs →
      (Exact DevicePropDesc.decode bs d ↔ d.form.CountFits)) := by
  refine ⟨fun bs h => ?_, fun ha bs h => ?_, fun bs h => ?_, fun ht bs h => ?_⟩
  · exact exact_of_roundTrips o.roundTrips ObjectInfo.stable_fields h
  · exact exact_of_roundTrips (i.roundTrips ha) DeviceInfo.stable_fields h
  · exact exact_of_roundTrips s.roundTrips StorageInfo.stable_fields h
  · exact d.exact_iff ht h

/-- Two enumerated values. -/
theorem dataset_exact_iff_twoValues :
    Exact DevicePropDesc.decode [0x01, 0x50, 2, 0, 1, 5, 6, 2, 2, 0, 5, 6]
      ⟨0x5001, DatatypeCode.uint8, 1, .u8 5, .u8 6, .enum [.u8 5, .u8 6]⟩ := by
  obtain ⟨-, -, -, hd⟩ := dataset_exact_iff {} {} {}
    ⟨0x5001, DatatypeCode.uint8, 1, .u8 5, .u8 6, .enum [.u8 5, .u8 6]⟩
  refine (hd (by decide) _ (by decide)).2 ?_
  rintro values ⟨⟩
  decide

end Ptpsim.Core
