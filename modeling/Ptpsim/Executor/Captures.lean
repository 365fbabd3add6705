/-
# What a reply gives to an operation's captures

Both walkers read the captures of an operation in order. Scalars wait until all
captures have been read, but a collection is bound as soon as it is decoded, so
a later capture that fails leaves it behind (`captures_kept_iff`). The four
decoders of collections agree on the payloads that hold just the announced
values; the property reader of the reference walker also takes longer payloads
and longer lists (`collection_decoders_agree_iff`).
-/
import Ptpsim.Executor.Ctx
import Ptpsim.Store.Ranges

namespace Ptpsim.Executor

open Ptpsim.Core Config Store Codec Interrupt List Reader

/-! ### The reference walker -/

namespace Reference

def maxCapturedU32s : ℕ := maxForeachIters

/-- Why the reference walker cannot take a capture from a reply. -/
inductive CaptureError where
  | array (e : ArrayError)
  | scalar (e : DecodeError)
  | objectInfo (e : DecodeError)
  | read (e : MediaError)
  | countBytes (got : ℕ)
  | streamLength (expected count got : ℕ)
  | valueBytes (offset got : ℕ)
  | requiresGetObjectInfo
  | requiresGetProp
  | requiresOkData
  | requiresData
deriving DecidableEq

def decodeCollectionBytes (data : List UInt8) : Except ArrayError (List UInt64) :=
  if data.length < 4 then .error .countMissing
  else
    let count := leNat (data.take 4)
    let expected := 4 + count * 4
    if maxCapturedU32s < count then .error (.tooMany count)
    else if expected < data.length then .error (.trailing (data.length - expected))
    else if data.length ≠ expected then .error (.short expected count data.length)
    else .ok (wordsOf (data.drop 4))

/-- The values from `offset` on, four bytes at a time. -/
def decodeStreamValues (disk : Disk) (source : ByteSource) :
    ℕ → ℕ → Except CaptureError (List UInt64)
  | 0, _ => .ok []
  | left + 1, offset =>
    match source.readChunk disk offset 4 with
    | .error e => .error (.read e)
    | .ok bytes =>
      if bytes.length ≠ 4 then .error (.valueBytes offset bytes.length)
      else (decodeStreamValues disk source left (offset + 4)).map fun values =>
        UInt64.ofNat (leNat bytes) :: values

def decodeCollectionStream (disk : Disk) (source : ByteSource) :
    Except CaptureError (List UInt64) :=
  match source.readChunk disk 0 4 with
  | .error e => .error (.read e)
  | .ok header =>
    if header.length ≠ 4 then .error (.countBytes header.length)
    else
      let count := leNat header
      let expected := 4 + count * 4
      if maxCapturedU32s < count then .error (.array (.tooMany count))
      else if source.len.toNat ≠ expected then
        .error (.streamLength expected count source.len.toNat)
      else decodeStreamValues disk source count 4

/-- The collection of a property read. -/
def pollCollection (data : List UInt8) : Except DecodeError (List UInt64) :=
  (Reader.ptpArray Reader.u32 (Reader.new data)).map fun r => r.1.map UInt32.toUInt64

def decodeCollectionCapture (disk : Disk) : Sim.Reply → Except CaptureError (List UInt64)
  | .data data _ => (decodeCollectionBytes data).mapError .array
  | .dataStream source _ _ => decodeCollectionStream disk source
  | .response _ | .noResponse | .close => .error .requiresData

def scalarCaptureHead (disk : Disk) (width : ℕ) : Sim.Reply → Except CaptureError (List UInt8)
  | .data data _ => .ok (data.take width)
  | .dataStream source _ _ => (source.readChunk disk 0 width).mapError .read
  | .response _ | .noResponse | .close => .error .requiresData

def decodeObjectInfoSize : Sim.Reply → Except CaptureError UInt64
  | .data data response =>
    if response.code = Resp.ok then
      ((ObjectInfo.decode data).map fun info => info.objectCompressedSize.toUInt64).mapError
        .objectInfo
    else .error .requiresOkData
  | _ => .error .requiresOkData

def scalarCapture (disk : Disk) (code : UInt16) (tid : UInt32) (reply : Sim.Reply) :
    CaptureSource → Except CaptureError UInt64
  | .objectInfoCompressedSize =>
    if code ≠ Op.getObjectInfo then .error .requiresGetObjectInfo else decodeObjectInfoSize reply
  | .u32Le => do
    let data ← scalarCaptureHead disk 4 reply
    ((Reader.u32 (Reader.new data)).map fun r => r.1.toUInt64).mapError .scalar
  | .u64Le => do
    let data ← scalarCaptureHead disk 8 reply
    ((Reader.u64 (Reader.new data)).map (·.1)).mapError .scalar
  | .transactionId => .ok tid.toUInt64
  | .propValue | .ptpU32Array => .error .requiresGetProp

/-- The slots of the walk. -/
structure Ctx where
  bindings : String → Option UInt64
  collections : String → Option (List UInt64)

def applyCapturesFrom (disk : Disk) (code : UInt16) (tid : UInt32) (reply : Sim.Reply) :
    List Capture → List (String × UInt64) → Ctx → Except CaptureError Unit × Ctx
  | [], captured, c => (.ok (), { c with
      bindings := captured.foldl (fun f x => Function.update f x.1 (some x.2)) c.bindings })
  | capture :: rest, captured, c =>
    if capture.source = .ptpU32Array then
      match decodeCollectionCapture disk reply with
      | .error e => (.error e, c)
      | .ok collection => applyCapturesFrom disk code tid reply rest captured { c with
          collections := Function.update c.collections capture.bind (some collection) }
    else
      match scalarCapture disk code tid reply capture.source with
      | .error e => (.error e, c)
      | .ok value =>
        applyCapturesFrom disk code tid reply rest (captured ++ [(capture.bind, value)]) c

def applyCaptures (disk : Disk) (captures : List Capture) (code : UInt16) (tid : UInt32)
    (reply : Sim.Reply) (c : Ctx) : Except CaptureError Unit × Ctx :=
  applyCapturesFrom disk code tid reply captures [] c

end Reference

/-! ### Captures that fail -/

abbrev CollectionSlots := String → Option (List UInt64)

/-- The collections after a capture has failed, or nothing if all can be read.
Only whether a scalar can be read matters here. -/
def leftBehind (array : Option (List UInt64)) (scalar : CaptureSource → Bool) :
    List (String × CaptureSource) → CollectionSlots → Option CollectionSlots
  | [], _ => none
  | (name, source) :: rest, f =>
    if source = .ptpU32Array then
      match array with
      | none => some f
      | some values => leftBehind array scalar rest (Function.update f name (some values))
    else bif scalar source then leftBehind array scalar rest f
    else some f

def isReadable (array : Option (List UInt64)) (scalar : CaptureSource → Bool)
    (capture : String × CaptureSource) : Bool :=
  if capture.2 = .ptpU32Array then array.isSome else scalar capture.2

/-- If a capture cannot be read, the collections that are read before it are
bound to the same values already. -/
def KeepsSlots (array : Option (List UInt64)) (scalar : CaptureSource → Bool)
    (captures : List (String × CaptureSource)) (f : CollectionSlots) : Prop :=
  (∃ x ∈ captures, isReadable array scalar x = false) →
    ∀ name, (name, .ptpU32Array) ∈ captures.takeWhile (isReadable array scalar) → f name = array

theorem leftBehind_eq (array : Option (List UInt64)) (scalar : CaptureSource → Bool) :
    ∀ (captures : List (String × CaptureSource)) (f : CollectionSlots),
    leftBehind array scalar captures f =
      if captures.all (isReadable array scalar) then none
      else some fun name =>
        if (name, .ptpU32Array) ∈ captures.takeWhile (isReadable array scalar) then array
        else f name
  | [], _ => rfl
  | (name, source) :: rest, f => by
    by_cases ha : source = .ptpU32Array
    · subst ha
      cases array with
      | none => simp [leftBehind, isReadable]
      | some values =>
        have hr : isReadable (some values) scalar (name, .ptpU32Array) = true := rfl
        simp only [leftBehind, if_true, leftBehind_eq _ scalar rest, all_cons, hr,
          Bool.true_and, takeWhile_cons_of_pos hr]
        refine ite_congr rfl (fun _ => rfl) fun _ => congrArg some (funext fun other => ?_)
        by_cases hn : other = name
        · simp [hn]
        · simp [hn]
    · have hr : isReadable array scalar (name, source) = scalar source := if_neg ha
      cases hs : scalar source with
      | true =>
        rw [hs] at hr
        simp only [leftBehind, ha, hs, if_false, cond_true, leftBehind_eq array scalar rest,
          all_cons, hr, Bool.true_and, takeWhile_cons_of_pos hr]
        simp [Ne.symm ha]
      | false =>
        simp [leftBehind, ha, hs, hr]

theorem leftBehind_eq_self_iff {array : Option (List UInt64)} {scalar : CaptureSource → Bool}
    {captures : List (String × CaptureSource)} {f : CollectionSlots} :
    (∀ f', leftBehind array scalar captures f = some f' → f' = f) ↔
      KeepsSlots array scalar captures f := by
  rw [leftBehind_eq, KeepsSlots]
  by_cases hall : captures.all (isReadable array scalar) = true
  · rw [if_pos hall]
    refine ⟨fun _ ⟨x, hx, hbad⟩ => ?_, fun _ _ h => by cases h⟩
    rw [all_eq_true.mp hall x hx] at hbad
    cases hbad
  · rw [if_neg hall]
    have hbad : ∃ x ∈ captures, isReadable array scalar x = false := by simpa using hall
    constructor
    · intro h _ name hn
      exact (congrFun (h _ rfl) name).symm.trans (if_pos hn)
    · rintro h _ ⟨⟩
      funext name
      split
      · exact (h hbad name ‹_›).symm
      · rfl

/-! ### The shipping executor -/

section Executor

variable {τ : Type} (here : Path) (operation : UInt16) (tid : UInt32) (payload : List UInt8)

/-- What a scalar capture reads, without the report of a failure. -/
def readScalar : CaptureSource → Except StepError UInt64
  | .objectInfoCompressedSize =>
    if operation ≠ Op.getObjectInfo then .error (.other here .captureObjectInfo)
    else ((ObjectInfo.decode payload).map fun info => info.objectCompressedSize.toUInt64).mapError
      fun e => .decodeFailure here none (.objectInfo e)
  | .u32Le => ((Reader.u32 (Reader.new payload)).map fun r => r.1.toUInt64).mapError fun e =>
      .decodeFailure here none (.scalar e)
  | .u64Le => ((Reader.u64 (Reader.new payload)).map (·.1)).mapError fun e =>
      .decodeFailure here none (.scalar e)
  | .transactionId => .ok tid.toUInt64
  | .propValue | .ptpU32Array => .error (.other here .capturePropValue)

theorem scalarCapture_eq (source : CaptureSource) :
    (scalarCapture here operation tid payload source : Exec τ UInt64) =
      orFail id (readScalar here operation tid payload source) := by
  cases source with
  | objectInfoCompressedSize =>
    by_cases hop : operation = Op.getObjectInfo
    · simp only [scalarCapture, readScalar, hop, ne_eq, not_true_eq_false, if_false]
      cases ObjectInfo.decode payload <;> rfl
    · simp only [scalarCapture, readScalar, hop, ne_eq, not_false_eq_true, if_true]
      rfl
  | u32Le =>
    simp only [scalarCapture, readScalar]
    cases Reader.u32 (Reader.new payload) <;> rfl
  | u64Le =>
    simp only [scalarCapture, readScalar]
    cases Reader.u64 (Reader.new payload) <;> rfl
  | transactionId | propValue | ptpU32Array => rfl

/-- The captures of an operation, as the executor reads them. -/
def executorLeaves (captures : List CaptureInfo) : CollectionSlots → Option CollectionSlots :=
  leftBehind (decodeU32Array payload).toOption
    (fun source => (readScalar here operation tid payload source).toOption.isSome)
    (captures.map fun capture => (capture.bind, capture.source))

theorem applyCapturesFrom_leaves : ∀ (captures : List CaptureInfo) (values : List (String × UInt64))
    (c : PtpCtx τ),
    (∃ c', applyCapturesFrom here operation tid payload captures values c = .ok () c' ∧
        executorLeaves here operation tid payload captures c.collections = none) ∨
      ∃ stop c', applyCapturesFrom here operation tid payload captures values c = .error stop c' ∧
        c'.bindings = c.bindings ∧
        executorLeaves here operation tid payload captures c.collections = some c'.collections
  | [], values, c => .inl ⟨_, rfl, rfl⟩
  | capture :: rest, values, c => by
    unfold applyCapturesFrom executorLeaves
    simp only [map_cons, leftBehind]
    by_cases ha : capture.source = .ptpU32Array
    · simp only [ha, if_true]
      cases hr : decodeU32Array payload with
      | error e => exact .inr ⟨_, _, rfl, rfl, rfl⟩
      | ok collection =>
        have hre := applyCapturesFrom_leaves rest values (c.bindCollection capture.bind collection)
        rw [executorLeaves, hr] at hre
        exact hre
    · simp only [ha, if_false, scalarCapture_eq]
      cases hr : readScalar here operation tid payload capture.source with
      | error e => exact .inr ⟨_, _, rfl, rfl, rfl⟩
      | ok value => exact applyCapturesFrom_leaves rest (values ++ [(capture.bind, value)]) c

end Executor

namespace Reference

def referenceLeaves (disk : Disk) (code : UInt16) (tid : UInt32) (reply : Sim.Reply)
    (captures : List Capture) : CollectionSlots → Option CollectionSlots :=
  leftBehind (decodeCollectionCapture disk reply).toOption
    (fun source => (scalarCapture disk code tid reply source).toOption.isSome)
    (captures.map fun capture => (capture.bind, capture.source))

theorem applyCapturesFrom_leaves (disk : Disk) (code : UInt16) (tid : UInt32)
    (reply : Sim.Reply) : ∀ (captures : List Capture) (captured : List (String × UInt64)) (c : Ctx),
    (∃ c', applyCapturesFrom disk code tid reply captures captured c = (.ok (), c') ∧
        referenceLeaves disk code tid reply captures c.collections = none) ∨
      ∃ e c', applyCapturesFrom disk code tid reply captures captured c = (.error e, c') ∧
        c'.bindings = c.bindings ∧
        referenceLeaves disk code tid reply captures c.collections = some c'.collections
  | [], captured, c => .inl ⟨_, rfl, rfl⟩
  | capture :: rest, captured, c => by
    unfold applyCapturesFrom referenceLeaves
    simp only [map_cons, leftBehind]
    by_cases ha : capture.source = .ptpU32Array
    · simp only [ha, if_true]
      cases hr : decodeCollectionCapture disk reply with
      | error e => exact .inr ⟨_, _, rfl, rfl, rfl⟩
      | ok collection =>
        have hre := applyCapturesFrom_leaves disk code tid reply rest captured { c with
          collections := Function.update c.collections capture.bind (some collection) }
        rw [referenceLeaves, hr] at hre
        exact hre
    · simp only [ha, if_false]
      cases hr : scalarCapture disk code tid reply capture.source with
      | error e => exact .inr ⟨_, _, rfl, rfl, rfl⟩
      | ok value =>
        exact applyCapturesFrom_leaves disk code tid reply rest
          (captured ++ [(capture.bind, value)]) c

end Reference

/-- **Captures that fail.** In both walkers, captures that cannot all be read
leave every slot as it was if and only if the collections among those before the
first that cannot be read were bound to what they read already. -/
theorem captures_kept_iff {τ : Type} (here : Path) (operation : UInt16) (tid : UInt32)
    (captures : List CaptureInfo) (payload : List UInt8) (c : PtpCtx τ) (disk : Disk)
    (declared : List Capture) (reply : Sim.Reply) (s : Reference.Ctx) :
    ((∀ stop c', applyCaptures here operation tid captures payload c = .error stop c' →
        c'.bindings = c.bindings ∧ c'.collections = c.collections) ↔
      KeepsSlots (decodeU32Array payload).toOption
        (fun source => (readScalar here operation tid payload source).toOption.isSome)
        (captures.map fun capture => (capture.bind, capture.source)) c.collections) ∧
    ((∀ e s', Reference.applyCaptures disk declared operation tid reply s = (.error e, s') →
        s'.bindings = s.bindings ∧ s'.collections = s.collections) ↔
      KeepsSlots (Reference.decodeCollectionCapture disk reply).toOption
        (fun source => (Reference.scalarCapture disk operation tid reply source).toOption.isSome)
        (declared.map fun capture => (capture.bind, capture.source)) s.collections) := by
  constructor
  · rw [← leftBehind_eq_self_iff, applyCaptures]
    rcases applyCapturesFrom_leaves here operation tid payload captures [] c with
      ⟨c', hr, hl⟩ | ⟨stop, c', hr, hb, hl⟩
    · rw [executorLeaves] at hl
      simp [hr, hl]
    · rw [executorLeaves] at hl
      simp [hr, hl, hb]
  · rw [← leftBehind_eq_self_iff, Reference.applyCaptures]
    rcases Reference.applyCapturesFrom_leaves disk operation tid reply declared [] s with
      ⟨s', hr, hl⟩ | ⟨e, s', hr, hb, hl⟩
    · rw [Reference.referenceLeaves] at hl
      simp [hr, hl]
    · rw [Reference.referenceLeaves] at hl
      simp [hr, hl, hb]

/-- An empty collection, and then a scalar that needs more bytes. -/
theorem collection_left_behind :
    (∃ stop c', applyCaptures [] Op.getObjectHandles 1
      [⟨"a", .ptpU32Array, none⟩, ⟨"b", .u64Le, none⟩]
        [0, 0, 0, 0] ({ host := () } : PtpCtx Unit) = .error stop c' ∧
      c'.collections "a" = some []) ∧
    ∃ e c', Reference.applyCaptures (fun _ => none) [⟨"a", .ptpU32Array, none⟩, ⟨"b", .u64Le, none⟩]
        Op.getObjectHandles 1 (.data [0, 0, 0, 0] ⟨Resp.ok, 1, []⟩) ⟨fun _ => none, fun _ => none⟩ =
          (.error e, c') ∧
      c'.collections "a" = some [] :=
  ⟨⟨_, _, rfl, rfl⟩, _, _, rfl, rfl⟩

/-! ### Decoders of collections -/

/-- The number of values that the payload announces. -/
def announced (payload : List UInt8) : ℕ := leNat (payload.take 4)

variable {payload : List UInt8} {values : List UInt64}

theorem decodeU32Array_ok_iff :
    decodeU32Array payload = .ok values ↔ 4 ≤ payload.length ∧
      announced payload ≤ maxForeachIters ∧ payload.length = 4 + announced payload * 4 ∧
      values = wordsOf (payload.drop 4) := by
  unfold decodeU32Array
  simp only [announced]
  split_ifs with hs hm ht hl
  · simp [Nat.not_le.mpr hs]
  · simp [Nat.not_le.mpr hm]
  · simp [ht.ne']
  · simp [hl]
  · simp [Nat.not_lt.mp hm, not_not.mp hl, eq_comm]

theorem wordsOf_of_le {xs : List UInt8} (h : 4 ≤ xs.length) :
    wordsOf xs = UInt64.ofNat (leNat (xs.take 4)) :: wordsOf (xs.drop 4) := by
  obtain ⟨a, b, c, d, tail, rfl⟩ : ∃ a b c d tail, xs = a :: b :: c :: d :: tail := by
    rcases xs with _ | ⟨a, _ | ⟨b, _ | ⟨c, _ | ⟨d, tail⟩⟩⟩⟩
    all_goals first
      | exact ⟨_, _, _, _, _, rfl⟩
      | exact absurd h (by simp)
  rfl

theorem times_u32_ok : ∀ (n : ℕ) (r : Reader) (vs : List UInt32) (r' : Reader),
    times Reader.u32 n r = .ok (vs, r') → 4 * n ≤ r.unread.length ∧
      vs.map UInt32.toUInt64 = wordsOf (r.unread.take (4 * n))
  | 0, r, vs, r', h => by
    cases h
    exact ⟨Nat.zero_le _, rfl⟩
  | n + 1, r, vs, r', h => by
    obtain ⟨v, r₁, hv, h⟩ := bind_ok h
    obtain ⟨vs₁, r₂, hvs, h⟩ := bind_ok h
    cases h
    obtain ⟨hf, hw, hr⟩ := u32_ok hv
    obtain ⟨hl, hwo⟩ := times_u32_ok n r₁ vs₁ _ hvs
    rw [hr, length_drop] at hl
    rw [← length_unread] at hf
    have hle : 4 * (n + 1) ≤ r.unread.length := by omega
    refine ⟨hle, ?_⟩
    rw [wordsOf_of_le (by rw [length_take]; omega), map_cons, hwo, hr,
      take_take, drop_take, Nat.min_eq_left (by omega), ← hw]
    congr 1
    exact UInt64.toNat_inj.mp (by simp)

theorem exists_u32 {r : Reader} (h : 4 ≤ r.unread.length) : ∃ v r', Reader.u32 r = .ok (v, r') := by
  have hc := ((consumes_take (r.unread.take 4)).map leNat).map UInt32.ofNat
  rw [length_take, Nat.min_eq_left h] at hc
  obtain ⟨r', hw, -⟩ := hc r (r.unread.drop 4) (take_append_drop 4 _).symm
  exact ⟨_, r', hw⟩

theorem exists_times_u32 : ∀ (n : ℕ) (r : Reader), 4 * n ≤ r.unread.length →
    ∃ vs r', times Reader.u32 n r = .ok (vs, r')
  | 0, r, _ => ⟨[], r, rfl⟩
  | n + 1, r, h => by
    obtain ⟨v, r₁, hw⟩ := exists_u32 (r := r) (by omega)
    obtain ⟨-, -, hr⟩ := u32_ok hw
    obtain ⟨vs, r₂, hvs⟩ := exists_times_u32 n r₁ (by rw [hr, length_drop]; omega)
    refine ⟨v :: vs, r₂, ?_⟩
    rw [times, bind_apply, hw]
    simp only [bind_apply, hvs]
    rfl

open Reference

theorem pollCollection_ok_iff :
    pollCollection payload = .ok values ↔ 4 ≤ payload.length ∧
      announced payload ≤ 16777216 ∧ 4 + announced payload * 4 ≤ payload.length ∧
      values = wordsOf ((payload.drop 4).take (4 * announced payload)) := by
  constructor
  · intro h
    rcases har : ptpArray Reader.u32 (Reader.new payload) with e | ⟨vs, r⟩
    · rw [pollCollection, har] at h
      cases h
    rw [pollCollection, har] at h
    cases h
    obtain ⟨count, r₁, hc, h⟩ := bind_ok har
    obtain ⟨hf, ha, hr⟩ := u32_ok hc
    rw [unread_new] at ha hr
    rw [← length_unread, unread_new] at hf
    split at h
    · cases h
    · rename_i hmax
      obtain ⟨_, r₂, he, ht⟩ := bind_ok h
      obtain ⟨-, rfl⟩ := ensure_ok he
      obtain ⟨hl, hw⟩ := times_u32_ok _ _ _ _ ht
      rw [hr, length_drop, ha] at hl
      rw [gt_iff_lt, UInt32.lt_iff_toNat_lt, ha] at hmax
      refine ⟨hf, Nat.not_lt.mp hmax, ?_, ?_⟩
      · rw [announced]
        omega
      · rw [hr, ha] at hw
        exact hw
  · rintro ⟨hf, hmax, hl, rfl⟩
    obtain ⟨count, r₁, hc⟩ := exists_u32 (r := Reader.new payload) hf
    obtain ⟨-, ha, hr⟩ := u32_ok hc
    rw [unread_new] at ha hr
    rw [announced, ← ha] at hmax hl ⊢
    have hlo : 4 * count.toNat ≤ r₁.unread.length := by
      rw [hr, length_drop]
      omega
    obtain ⟨vs, r₂, hvs⟩ := exists_times_u32 count.toNat r₁ hlo
    obtain ⟨-, hw⟩ := times_u32_ok _ _ _ _ hvs
    have hcap : ¬ count > maxElements := by
      exact Nat.not_lt.mpr hmax
    have hg : ¬ r₁.remaining < count.toNat := by
      rw [← length_unread]
      omega
    have har : ptpArray Reader.u32 (Reader.new payload) = .ok (vs, r₂) := by
      rw [ptpArray, bind_apply, hc]
      simp only [hcap, if_false, bind_apply, ensure, hg, hvs]
    rw [pollCollection, har, ← hr, ← hw]
    rfl

theorem decodeStreamValues_eq {disk : Disk} {source : ByteSource} (hf : source.Fits)
    (hr : source.read disk = .ok payload) : ∀ (n offset : ℕ),
    offset + n * 4 = payload.length →
    decodeStreamValues disk source n offset = .ok (wordsOf (payload.drop offset))
  | 0, offset, h => by
    rw [drop_eq_nil_of_le (by omega)]
    rfl
  | n + 1, offset, h => by
    have hre := decodeStreamValues_eq hf hr n (offset + 4) (by omega)
    have hfo : ((payload.drop offset).take 4).length = 4 := by
      rw [length_take, length_drop]
      omega
    have hw : wordsOf (payload.drop offset) = UInt64.ofNat (leNat ((payload.drop offset).take 4)) ::
        wordsOf (payload.drop (offset + 4)) := by
      rw [wordsOf_of_le (by rw [length_drop]; omega), drop_drop]
    rw [decodeStreamValues, ByteSource.readChunk_of_read hf hr]
    simp only [hfo, ne_eq, not_true_eq_false, if_false, hre, hw]
    rfl

theorem decodeCollectionStream_ok_iff {disk : Disk} {source : ByteSource} (hf : source.Fits)
    (hr : source.read disk = .ok payload) (hlen : source.len.toNat = payload.length) :
    decodeCollectionStream disk source = .ok values ↔
      decodeU32Array payload = .ok values := by
  have hcap : maxForeachIters = maxCapturedU32s := rfl
  rw [decodeU32Array_ok_iff, hcap, decodeCollectionStream,
    ByteSource.readChunk_of_read hf hr, drop_zero, hlen]
  simp only [length_take, announced]
  by_cases hs : payload.length < 4
  · simp [hs.le, hs.ne, Nat.not_le.mpr hs]
  · have hh : min 4 payload.length = 4 := Nat.min_eq_left (Nat.not_lt.mp hs)
    simp only [hh, ne_eq, not_true_eq_false, if_false]
    by_cases hm : maxCapturedU32s < leNat (payload.take 4)
    · simp [hm]
    · by_cases hl : payload.length = 4 + leNat (payload.take 4) * 4
      · rw [if_neg hm, if_neg (not_not.mpr hl), decodeStreamValues_eq hf hr _ 4 hl.symm]
        simp [Nat.not_lt.mp hm, ← hl, Nat.not_lt.mp hs, eq_comm]
      · simp [hm, hl]

/-- The four decoders accept the same payloads and read the same values. -/
def DecodersAgree (payload : List UInt8) : Prop :=
  ∀ values, (Reference.decodeCollectionBytes payload = .ok values ↔
      decodeU32Array payload = .ok values) ∧
    (Reference.pollCollection payload = .ok values ↔ decodeU32Array payload = .ok values) ∧
    ∀ (disk : Disk) (source : ByteSource), source.Fits → source.read disk = .ok payload →
      source.len.toNat = payload.length →
      (Reference.decodeCollectionStream disk source = .ok values ↔
        decodeU32Array payload = .ok values)

/-- **Decoders of collections.** The decoders of both walkers agree on a payload
if and only if it is too short for all of them, announces too much for all of
them, or is as long as it announces with no more values than a loop may run. -/
theorem collection_decoders_agree_iff (payload : List UInt8) : DecodersAgree payload ↔
    payload.length < 4 + announced payload * 4 ∨ 16777216 < announced payload ∨
      payload.length = 4 + announced payload * 4 ∧ announced payload ≤ 100000 := by
  constructor
  · intro h
    by_contra hnot
    obtain ⟨-, hp, -⟩ := h (wordsOf ((payload.drop 4).take (4 * announced payload)))
    obtain ⟨-, hm, hl, -⟩ := decodeU32Array_ok_iff.mp
      (hp.mp (pollCollection_ok_iff.mpr ⟨by omega, by omega, by omega, rfl⟩))
    rw [maxForeachIters] at hm
    omega
  · intro h values
    refine ⟨Iff.rfl, ?_, fun disk source => decodeCollectionStream_ok_iff⟩
    rw [pollCollection_ok_iff, decodeU32Array_ok_iff, maxForeachIters]
    have hall : payload.length = 4 + announced payload * 4 →
        (payload.drop 4).take (4 * announced payload) = payload.drop 4 := fun hl =>
      take_of_length_le (by rw [length_drop]; omega)
    constructor
    · rintro ⟨hf, hmax, hle, rfl⟩
      exact ⟨hf, by omega, by omega, by rw [hall (by omega)]⟩
    · rintro ⟨hf, hm, hl, rfl⟩
      exact ⟨hf, by omega, by omega, by rw [hall hl]⟩

/-- A payload with a byte more than it announces. -/
theorem poll_takes_trailing_bytes :
    Reference.pollCollection [0, 0, 0, 0, 7] = .ok [] ∧
      decodeU32Array [0, 0, 0, 0, 7] = .error (.trailing 1) ∧ ¬ DecodersAgree [0, 0, 0, 0, 7] := by
  have hp : pollCollection [0, 0, 0, 0, 7] = .ok [] := by decide +kernel
  have hd : decodeU32Array [0, 0, 0, 0, 7] = .error (.trailing 1) := by decide +kernel
  refine ⟨hp, hd, fun h => ?_⟩
  have hok := (h []).2.1.mp hp
  cases hok

end Ptpsim.Executor
