/-
# Reading properties

Values come into the camera state on many ways: seeds and overlays, property
writes and vendor steps, the effects of operations, responder transitions, the
published count of queued objects. On every one of them the value has the type
the manifest declares for the property, and so have the values that are still
on their way (`run_typed`). A read of a plain property that gets to its handler
is therefore answered with bytes that decode to the stored value, if it can be
encoded (`plain_read_decodes`). A string of more than 254 UTF-16 units cannot.
-/
import Ptpsim.Sim.PropertyActions

namespace Ptpsim.Sim

open Ptpsim.Core Config Fallible List Option

/-! ### The type of a value -/

variable (datatype : UInt16)

/-- A type whose values carry it. -/
def Representable : Prop := ∀ v, (typed datatype v).datatypeCode = datatype

variable (ty : Option String)

theorem representable_datatypeOf : Representable (datatypeOf ty) := by
  iterate 9 refine iteInduction (fun _ _ => rfl) fun _ => ?_
  exact fun _ => rfl

theorem datatypeCode_default :
    (defaultPropValue (datatypeOf ty)).datatypeCode = datatypeOf ty := by
  unfold defaultPropValue
  split
  · rename_i hstr
    exact hstr.symm
  · exact representable_datatypeOf ty 0

variable {v : PropValue} {manifest : CameraManifest} {code : UInt16}

theorem datatypeCode_descriptor {ty : Option String} {value : DescriptorValue}
    (h : typedDescriptorValue (datatypeOf ty) value = some v) :
    v.datatypeCode = datatypeOf ty := by
  cases value with
  | int x =>
    cases h
    exact representable_datatypeOf ty x
  | str x =>
    obtain ⟨hstr, hv⟩ := ite_none_right_eq_some.mp h
    cases hv
    exact hstr.symm

theorem datatypeCode_transition {ty : Option String} {x : Int64}
    (h : propertyTransitionValue ty x = some v) : v.datatypeCode = datatypeOf ty := by
  obtain ⟨-, hv⟩ := ite_none_right_eq_some.mp h
  cases hv
  exact representable_datatypeOf ty x

/-- Whatever is decoded has the type. -/
def Tags (p : Decoder PropValue) : Prop :=
  ∀ r v r', p r = .ok (v, r') → v.datatypeCode = datatype

theorem tags_map {α : Type} {datatype : UInt16} {p : Decoder α} {f : α → PropValue}
    (hf : ∀ a, (f a).datatypeCode = datatype) : Tags datatype (f <$> p) := by
  intro r v r' h
  obtain ⟨a, -, rfl⟩ := Codec.map_ok h
  exact hf a

theorem tags_decode : Tags datatype (PropValue.decode datatype) := by
  iterate 9 refine iteInduction (fun h => tags_map fun _ => h.symm) fun _ => ?_
  exact fun _ _ _ h => nomatch h

/-- Whatever comes out of the conversion has the type. -/
def Yields (result : Except ValueError PropValue) : Prop :=
  ∀ v, result = .ok v → v.datatypeCode = datatype

theorem yields_checked {datatype : UInt16} {value : JsonValue} {lo hi : ℤ} {f : ℤ → PropValue}
    (hf : ∀ n, (f n).datatypeCode = datatype) :
    Yields datatype ((checkedNumeric value lo hi).map f) := by
  intro v h
  generalize checkedNumeric value lo hi = number at h
  cases number <;> cases h
  exact hf _

theorem yields_fromJson (value : JsonValue) :
    Yields (datatypeOf ty) (propValueFromJson ty value) := by
  iterate 5
    refine iteInduction (fun h => yields_checked fun _ => ?_) fun _ => ?_
    · rw [h]
      rfl
  refine iteInduction (fun h => yields_checked fun _ => ?_) fun _ => ?_
  · rcases h with h | h <;> rw [h] <;> rfl
  iterate 2
    refine iteInduction (fun h => yields_checked fun _ => ?_) fun _ => ?_
    · rw [h]
      rfl
  refine iteInduction (fun h => ?_) fun _ => ?_
  · -- a string is taken as it is
    rw [h]
    intro v hv
    cases value <;> cases hv
    rfl
  · exact fun _ h => nomatch h

/-! ### Every writer keeps the types -/

/-- The value has the type the manifest declares for the property. -/
def HasType (manifest : CameraManifest) (code : UInt16) (v : PropValue) : Prop :=
  v.datatypeCode = declaredType manifest code

theorem declaredType_eq {prop : Property} (h : manifest.property code = some prop) :
    declaredType manifest code = datatypeOf prop.ptype := by
  rw [declaredType, h]
  rfl

variable (manifest code) in
theorem hasType_typed (v : Int64) :
    HasType manifest code (typed (declaredType manifest code) v) :=
  representable_datatypeOf _ v

/-- All actions of the list bring in values of the declared types. -/
abbrev TypedActions (manifest : CameraManifest) (as : List PropAction) : Prop :=
  ∀ a ∈ as, a.Allowed (HasType manifest)

theorem typedActions_set {value : Option PropValue}
    (h : ∀ v, value = some v → HasType manifest code v) :
    TypedActions manifest (value.map (.set code)).toList := by
  intro a ha
  obtain ⟨v, hv, rfl⟩ := map_eq_some_iff.mp (mem_toList.mp ha)
  exact h v hv

theorem typedActions_polls (manifest : CameraManifest) (codes : List UInt16) :
    TypedActions manifest (codes.map .poll) := by
  intro a ha
  obtain ⟨code, -, rfl⟩ := mem_map.mp ha
  trivial

variable (manifest code) in
theorem effectActions_typed (params : List UInt32) :
    TypedActions manifest (effectActions manifest code params) := by
  unfold effectActions
  cases manifest.operation code with
  | none => exact fun a ha => nomatch ha
  | some op =>
    intro a ha
    obtain ⟨⟨target, value, settle⟩, -, rfl⟩ := mem_map.mp ha
    exact hasType_typed manifest target value

theorem countActions_typed (manifest : CameraManifest) (queue : Option CameraInitiatedQueue) :
    TypedActions manifest (countActions manifest queue) := by
  unfold countActions
  split
  · intro a ha
    obtain rfl := mem_singleton.mp ha
    exact hasType_typed manifest _ _
  · exact fun a ha => nomatch ha

theorem transitionActions_typed (manifest : CameraManifest) (t : PreparedPropertyTransition) :
    TypedActions manifest (transitionActions manifest t) := by
  intro a ha
  rcases mem_append.mp ha with ha | ha
  · refine typedActions_set (fun v hv => ?_) a ha
    obtain ⟨x, -, hx⟩ := bind_eq_some_iff.mp hv
    exact datatypeCode_transition hx
  · obtain ⟨v, hv, rfl⟩ := map_eq_some_iff.mp (mem_toList.mp ha)
    exact datatypeCode_transition hv

theorem stageProp_typed {entry : String × JsonValue}
    (h : stageProp manifest entry = .ok (code, v)) : HasType manifest code v := by
  unfold stageProp at h
  split at h
  · cases h
  split at h
  · cases h
  rename_i prop hp
  split at h
  · rename_i value hv
    cases h
    rw [HasType, declaredType_eq hp]
    exact yields_fromJson prop.ptype entry.2 _ hv
  · cases h

theorem overlayActions_typed (manifest : CameraManifest) (overlay : StateOverlay) :
    TypedActions manifest (Engine.overlayActions manifest overlay) := by
  unfold Engine.overlayActions
  cases hs : stage manifest overlay with
  | error _ => exact fun a ha => nomatch ha
  | ok staged =>
    intro a ha
    obtain ⟨⟨code, v⟩, hmem, rfl⟩ := mem_map.mp ha
    obtain ⟨phase, -, hs⟩ := bind_eq_ok_iff.mp hs
    obtain ⟨props, hp, hs⟩ := bind_eq_ok_iff.mp hs
    cases hs
    obtain ⟨entry, -, he⟩ := exists_round (mapM_eq_ok_iff.mp hp) hmem
    exact stageProp_typed he

namespace Engine

variable {e : Engine}

theorem normalizedPropertyWrite_type {code datatype : UInt16} {value : PropValue}
    (hrep : Representable datatype) (hv : value.datatypeCode = datatype) :
    (e.normalizedPropertyWrite code datatype value).datatypeCode = datatype := by
  unfold normalizedPropertyWrite
  split
  · exact hv
  · dsimp only
    split
    · exact hv
    · exact hrep _

theorem storedValue_typed {code : UInt16} {dataIn : Option (List UInt8)} {v : PropValue}
    (h : e.storedValue code dataIn = some v) : HasType e.manifest code v := by
  unfold storedValue at h
  split at h
  · rename_i value hout
    cases h
    unfold writeOutcome at hout
    split at hout
    · cases hout
    rename_i prop hp
    rw [HasType, declaredType_eq hp]
    iterate 4
      split at hout
      · cases hout
    rename_i decoded r hd
    dsimp only at hout
    split at hout
    · cases hout
    split at hout <;> cases hout
    exact normalizedPropertyWrite_type (representable_datatypeOf _) (tags_decode _ _ _ _ hd)
  · cases h

theorem vendorStepValue_typed {manifest : CameraManifest} {code : UInt16} {direction : UInt32}
    {s : CameraState} {v : PropValue} (h : vendorStepValue manifest code direction s = some v) :
    HasType manifest code v := by
  obtain ⟨prop, hp, h⟩ := bind_eq_some_iff.mp h
  obtain ⟨value, -, hv⟩ := bind_eq_some_iff.mp h
  rw [HasType, declaredType_eq hp]
  exact datatypeCode_descriptor hv

theorem handleActions_typed (e : Engine) (req : OperationRequest) (dataIn : Option (List UInt8)) :
    TypedActions e.manifest (e.handleActions req dataIn) := by
  refine iteInduction (fun _ a ha => nomatch ha) fun _ => ?_
  refine iteInduction (fun _ => typedActions_polls _ _) fun _ => ?_
  refine iteInduction (fun _ => typedActions_set fun v hv => storedValue_typed hv) fun _ => ?_
  cases e.steppedProperty req.code with
  | none => exact fun a ha => nomatch ha
  | some target => exact typedActions_set fun v hv => vendorStepValue_typed hv

theorem nextEnumActions_typed (e : Engine) (code : UInt16) :
    TypedActions e.manifest (e.nextEnumActions code) := by
  unfold nextEnumActions
  cases hn : e.nextEnumValue code with
  | error _ => exact fun a ha => nomatch ha
  | ok v =>
    intro a ha
    obtain rfl := mem_singleton.mp ha
    unfold nextEnumValue at hn
    split at hn
    · cases hn
    rename_i prop hp
    split at hn
    · cases hn
    obtain ⟨values, hva, hn⟩ := bind_eq_ok_iff.mp hn
    have hmem : v ∈ values := by
      dsimp only at hn
      iterate 5
        split at hn
        · cases hn
      rename_i next hget
      cases hn
      exact mem_of_getElem? hget
    obtain ⟨value, -, hv⟩ := exists_round (mapM_eq_ok_iff.mp hva) hmem
    show HasType e.manifest code v
    rw [HasType, declaredType_eq hp]
    split at hv
    · rename_i w hw
      cases hv
      exact datatypeCode_descriptor hw
    · cases hv

theorem operationActions_typed (e : Engine) (req : OperationRequest)
    (dataIn : Option (List UInt8)) : TypedActions e.manifest (e.operationActions req dataIn) := by
  refine iteInduction (fun _ a ha => nomatch ha) fun _ => ?_
  intro a ha
  rcases mem_append.mp ha with ha | ha
  · split at ha
    · exact handleActions_typed (e.handling req) req dataIn a ha
    · cases ha
  · split at ha
    · exact effectActions_typed e.manifest req.code req.params a ha
    · cases ha

/-- **Every call brings in values of the declared types only.** -/
theorem propActions_typed (e : Engine) (call : Call) :
    TypedActions e.manifest (e.propActions call) := by
  have hnil : TypedActions e.manifest [] := fun a ha => nomatch ha
  cases call with
  | operation req dataIn => exact operationActions_typed e req dataIn
  | operationWith tracker req dataIn =>
    exact operationActions_typed { e with lifecycle := tracker } req dataIn
  | completeStream c =>
    show TypedActions e.manifest (e.completionActions c)
    unfold completionActions
    split
    · exact hnil
    · split
      · exact countActions_typed _ _
      · exact hnil
  | applyStateOverlay overlay => exact overlayActions_typed e.manifest overlay
  | advancePropertyToNextEnum code => exact nextEnumActions_typed e code
  | applyResponderMutation prepared =>
    cases prepared with
    | enqueueObjects _ _ => exact hnil
    | propertyTransition transition => exact transitionActions_typed e.manifest transition
  | _ => exact hnil

end Engine

/-! ### Runs -/

/-- Every property value the manifest starts with has the type its code is
declared with. Two keys for one code could disagree. -/
def SeedsTyped (manifest : CameraManifest) : Prop :=
  ∀ entry ∈ manifest.properties, ∀ code ∈ parseHexCode entry.1,
    ∀ v ∈ CameraState.seed entry.2, HasType manifest code v

instance (manifest : CameraManifest) : Decidable (SeedsTyped manifest) :=
  decidable_of_iff (manifest.properties.all (fun entry => (parseHexCode entry.1).all fun code =>
    (CameraState.seed entry.2).all fun v => v.datatypeCode = declaredType manifest code) =
      true) <| by
      simp [SeedsTyped, HasType, Option.all_eq_true]

/-- One entry of the manifest is seeded. -/
def seedEntry (props : UInt16 → Option PropValue) (entry : String × Property) :
    UInt16 → Option PropValue :=
  match parseHexCode entry.1, CameraState.seed entry.2 with
  | some code, some value => Function.update props code (some value)
  | _, _ => props

theorem fromManifest_typed (h : SeedsTyped manifest) :
    Deferred.Holds (HasType manifest) (CameraState.fromManifest manifest).deferred := by
  refine ⟨?_, fun code t ht => nomatch ht⟩
  have hf : ∀ (entries : List (String × Property)) (props : UInt16 → Option PropValue),
      (∀ entry ∈ entries, entry ∈ manifest.properties) →
      (∀ code v, props code = some v → HasType manifest code v) →
      ∀ code v, entries.foldl seedEntry props code = some v → HasType manifest code v := by
    intro entries
    induction entries with
    | nil => exact fun props _ hp => hp
    | cons entry entries ih =>
      intro props he hp
      refine ih _ (fun entry' hmem => he entry' (mem_cons_of_mem _ hmem)) ?_
      unfold seedEntry
      cases hc : parseHexCode entry.1 with
      | none => exact hp
      | some code =>
        cases hs : CameraState.seed entry.2 with
        | none => exact hp
        | some value =>
          exact Deferred.Holds.update_values (s := ⟨props, fun _ => none⟩) hp
            (h entry (he entry mem_cons_self) code hc value hs)
  exact hf manifest.properties (fun _ => none) (fun _ hmem => hmem) fun _ _ hv => nomatch hv

theorem newWith_typed (h : SeedsTyped manifest) (sequences : List GateSequence)
    (store : Store.MediaStore) :
    Deferred.Holds (HasType manifest) (Engine.newWith sequences manifest store).state.deferred := by
  show Deferred.Holds _ (syncCameraInitiatedCounts manifest _ _).deferred
  rw [deferred_syncCameraInitiatedCounts]
  exact (fromManifest_typed h).replay (countActions_typed manifest _)

/-- **In every run all values have the declared types**, those on their way
included. -/
theorem run_typed (h : SeedsTyped manifest) (store : Store.MediaStore) (calls : List Call) :
    (Machine.run Engine.step (Engine.new manifest store) calls).manifest = manifest ∧
      Deferred.Holds (HasType manifest)
        (Machine.run Engine.step (Engine.new manifest store) calls).state.deferred := by
  refine Machine.run_invariant Engine.step (P := fun e => e.manifest = manifest ∧
    Deferred.Holds (HasType manifest) e.state.deferred) ?_ _ calls ⟨rfl, newWith_typed h _ store⟩
  rintro e call ⟨rfl, ht⟩
  refine ⟨(Engine.step_setup e call).1, ?_⟩
  rw [Engine.step_deferred]
  exact ht.replay (Engine.propActions_typed e call)

/-! ### Reads -/

/-- The property is neither composite nor computed. -/
structure IsPlain (manifest : CameraManifest) (code : UInt16) (prop : Property) : Prop where
  property : manifest.property code = some prop
  payload : prop.payload = none
  computed : prop.computed = none

namespace Engine

variable {e : Engine} {req : OperationRequest} {dataIn : Option (List UInt8)}

/-- The value a read serves: the stored one, where a transition that is due
settles first, or the default of the type. -/
def servedValue (e : Engine) (code : UInt16) : PropValue :=
  ((e.state.deferred.apply (.poll code)).values code).getD
    (defaultPropValue (declaredType e.manifest code))

theorem propertyValueReply_plain {prop : Property} {tid : UInt32} {code : UInt16}
    (hp : IsPlain e.manifest code prop) : e.propertyValueReply tid code = .ofData tid
      (encodedBytes ((e.state.props code).getD
        (defaultPropValue (declaredType e.manifest code))).encode) := by
  unfold propertyValueReply computedPropertyReply
  rw [declaredType_eq hp.property]
  simp only [hp.property, bind_some, hp.payload, hp.computed, map_none]
  rcases e.state.props code with _ | v <;> rfl

theorem readsValue_of_isOk {prop : Property} (hp : IsPlain e.manifest (param req 0).toUInt16 prop)
    (hok : (e.getDevicePropValue req).1.reply.isOk = true) :
    e.readsValue (param req 0).toUInt16 = true := by
  have hc : e.computedPropertyReply req.transactionId (param req 0).toUInt16 = none := by
    simp [computedPropertyReply, hp.property, hp.computed]
  unfold getDevicePropValue at hok
  rcases hg : e.propertyGateReply (param req 0).toUInt16 with _ | reply
  · by_cases hv : e.propertyIsValueless (param req 0).toUInt16 = true
    · simp only [hg, hc, ite_self, if_pos hv] at hok
      exact absurd hok (isOk_err (by decide))
    · simp [readsValue, hg, hv, hp.property, hp.computed]
  · -- a gate that is not satisfied answers nothing
    simp only [hg] at hok
    rw [propertyGateReply_eq hg] at hok
    cases hok

theorem getDevicePropValue_plain {prop : Property}
    (hp : IsPlain e.manifest (param req 0).toUInt16 prop)
    (hok : (e.getDevicePropValue req).1.reply.isOk = true) :
    (e.getDevicePropValue req).1.reply = .ofData req.transactionId
      (encodedBytes (e.servedValue (param req 0).toUInt16).encode) := by
  have hm : e.memberCodes (param req 0).toUInt16 = [] := by
    unfold memberCodes
    rw [hp.property]
    simp [hp.payload]
  have hpr : (e.pollProperty (param req 0).toUInt16).state.props =
      (e.state.deferred.apply (.poll (param req 0).toUInt16)).values := by
    rw [← CameraState.deferred_resolvePending]
    simp only [pollProperty, hm]
    rfl
  rw [getDevicePropValue_reads (readsValue_of_isOk hp hok),
    propertyValueReply_plain (e := e.pollProperty _) hp, hpr]
  rfl

theorem getDevicePropDesc_built (hok : (e.getDevicePropDesc req).reply.isOk = true) :
    ∃ desc, buildPropDesc e.manifest e.state (param req 0).toUInt16 = some desc ∧
      (e.getDevicePropDesc req).reply = .ofData req.transactionId (encodedBytes desc.encode) := by
  unfold getDevicePropDesc at hok ⊢
  dsimp only at hok ⊢
  split at hok
  · rename_i reply hr
    rw [propertyGateReply_eq hr] at hok
    cases hok
  split at hok
  · exact absurd hok (isOk_err (by decide))
  rename_i hs
  split at hok
  · rename_i desc hd
    refine ⟨desc, hd, ?_⟩
    rw [if_neg hs]
    rfl
  · exact absurd hok (isOk_err (by decide))

/-! ### Composite properties -/

section Composite

open Primitives

variable {code : UInt16}

/-- The record stream a payload describes. -/
def streamDescriptor (payload : Payload) : Except RecordStreamError RecordStreamDescriptor := do
  let (countWidth, codeWidth, valueWidth) := payload.recordWidths
  let layout ← RecordStreamLayout.new countWidth codeWidth valueWidth
  RecordStreamDescriptor.new layout <| payload.members.filterMap fun member =>
    (parseHexCode member.memberCode).map fun code => (code, member.encoding valueWidth)

theorem propertyValueReply_stream (tid : UInt32) {payload : Payload}
    (hp : (e.manifest.property code).bind (·.payload) = some payload) :
    e.propertyValueReply tid code = .err tid Resp.generalError ∨
      ∃ d bytes, e.propertyValueReply tid code = .ofData tid bytes ∧
        streamDescriptor payload = .ok d ∧
        typedRecordStream (e.recordStreamRecords payload) d = .ok bytes := by
  have hs : e.recordStreamProperty payload =
      (streamDescriptor payload).bind (typedRecordStream (e.recordStreamRecords payload)) := by
    unfold recordStreamProperty streamDescriptor
    rcases payload.recordWidths with ⟨countWidth, codeWidth, valueWidth⟩
    dsimp only
    rcases RecordStreamLayout.new countWidth codeWidth valueWidth with _ | layout <;> rfl
  unfold propertyValueReply
  simp only [hp, hs]
  rcases hd : streamDescriptor payload with _ | d
  · exact .inl rfl
  · rcases hb : typedRecordStream (e.recordStreamRecords payload) d with _ | bytes
    · exact .inl (by simp [Except.bind, hb])
    · exact .inr ⟨d, bytes, by simp [Except.bind, hb], rfl, hb⟩

/-- What a record stream shows for a member whose stored value is `found`. -/
def memberValue (width : ℕ) (member : RecordMember) (found : Option PropValue) : PropValue :=
  let encoding := member.encoding width
  let stored := found.filter (acceptsValue encoding)
  let value := (stored.or (member.simulatorValue.map recordLiteral)).filter (acceptsValue encoding)
  value.getD (recordValueZero encoding)

theorem mem_recordStreamRecords {payload : Payload} {value : PropValue} :
    (code, value) ∈ e.recordStreamRecords payload ↔ e.propertyIsValueless code = false ∧
      ∃ member ∈ payload.members, parseHexCode member.memberCode = some code ∧
        value = memberValue payload.recordWidths.2.2 member (e.state.props code) := by
  simp only [recordStreamRecords, mem_filterMap, bind_eq_bind, bind_eq_some_iff,
    ite_none_left_eq_some]
  constructor
  · rintro ⟨member, hm, memberCode, hp, hv, ⟨⟩⟩
    exact ⟨by simpa using hv, member, hm, hp, rfl⟩
  · rintro ⟨hv, member, hm, hp, rfl⟩
    exact ⟨member, hm, code, hp, by simpa using hv, rfl⟩

end Composite

end Engine

theorem propForm_typed (descriptor : Option Descriptor) :
    ∀ v ∈ (propForm (datatypeOf ty) descriptor).values, v.datatypeCode = datatypeOf ty := by
  have hn : ∀ v ∈ PropForm.none.values, v.datatypeCode = datatypeOf ty := fun v hv => nomatch hv
  unfold propForm
  split
  · exact hn
  split
  · intro v hv
    obtain ⟨value, -, hva⟩ := mem_filterMap.mp hv
    exact datatypeCode_descriptor hva
  split
  · split
    · intro v hv
      simp only [PropForm.values, mem_cons, not_mem_nil, or_false] at hv
      rcases hv with rfl | rfl | rfl <;> exact representable_datatypeOf ty _
    · exact hn
  · exact hn

theorem datatypeCode_getD {prop : Property} {value : Option PropValue}
    (hp : manifest.property code = some prop)
    (h : ∀ v, value = some v → HasType manifest code v) :
    (value.getD (defaultPropValue (datatypeOf prop.ptype))).datatypeCode =
      datatypeOf prop.ptype := by
  rw [← declaredType_eq hp]
  cases value with
  | none => exact declaredType_eq hp ▸ datatypeCode_default prop.ptype
  | some v => exact h v rfl

/-- A description built from a state with typed values is well typed. -/
theorem buildPropDesc_eq {s : CameraState} {prop : Property} {desc : DevicePropDesc}
    (hp : manifest.property code = some prop) (hd : buildPropDesc manifest s code = some desc)
    (ht : Deferred.Holds (HasType manifest) s.deferred) :
    desc.WellTyped ∧ desc.datatype = datatypeOf prop.ptype ∧
      desc.current = (s.props code).getD (defaultPropValue (datatypeOf prop.ptype)) := by
  have hc := datatypeCode_getD hp (ht.values code)
  rw [buildPropDesc, hp] at hd
  cases hd
  refine ⟨fun v hv => ?_, rfl, rfl⟩
  rcases mem_cons.mp hv with rfl | hv
  · exact hc
  rcases mem_cons.mp hv with rfl | hv
  · exact hc
  · exact propForm_typed prop.ptype prop.descriptor v hv

/-- The encoder succeeds. -/
def Encodes (m : Encoder) : Prop := ∃ bytes, Writer.intoVec m = .ok bytes

/-- The reply carries data that decodes completely to the value. -/
def Carries {α : Type} (reply : Reply) (decode : List UInt8 → Except DecodeError α)
    (v : α) : Prop :=
  ∃ bytes response, reply = .data bytes response ∧ decode bytes = .ok v

theorem carries_encoded {α : Type} {m : Encoder} {p : Decoder α} {v : α} {tid : UInt32}
    (hr : Codec.RoundTrips Reader.unread m p v) (hs : Codec.Stable Reader.unread p)
    (hm : Encodes m) : Carries (.ofData tid (encodedBytes m)) (Reader.whole p) v := by
  obtain ⟨bytes, hb⟩ := hm
  have he : encodedBytes m = bytes := by
    rw [encodedBytes, Writer.intoVec_ok hb]
  refine ⟨encodedBytes m, _, rfl, ?_⟩
  rw [he]
  exact (exact_of_roundTrips hr hs hb).1

namespace Engine

variable {e : Engine} {req : OperationRequest} {dataIn : Option (List UInt8)} {prop : Property}

theorem servedValue_type {code : UInt16} (hp : e.manifest.property code = some prop)
    (ht : Deferred.Holds (HasType e.manifest) e.state.deferred) :
    (e.servedValue code).datatypeCode = datatypeOf prop.ptype := by
  have hpo : Deferred.Holds (HasType e.manifest) (e.state.deferred.apply (.poll code)) :=
    ht.apply trivial
  rw [servedValue, declaredType_eq hp]
  exact datatypeCode_getD hp (hpo.values code)

theorem value_read_served (hp : IsPlain e.manifest (param req 0).toUInt16 prop)
    (hh : e.handled req = true) (hok : (e.dispatched req dataIn).1.isOk = true)
    (hc : req.code = Op.getDevicePropValue) : (e.dispatched req dataIn).1 =
      .ofData req.transactionId (encodedBytes (e.servedValue (param req 0).toUInt16).encode) := by
  rw [dispatched_handled hh, handle_getDevicePropValue hc] at hok ⊢
  exact getDevicePropValue_plain (e := e.handling req) hp hok

theorem value_read_decodes (ht : Deferred.Holds (HasType e.manifest) e.state.deferred)
    (hp : IsPlain e.manifest (param req 0).toUInt16 prop) (hh : e.handled req = true)
    (hok : (e.dispatched req dataIn).1.isOk = true) (hc : req.code = Op.getDevicePropValue)
    (he : Encodes (e.servedValue (param req 0).toUInt16).encode) :
    Carries (e.dispatched req dataIn).1 (Reader.whole (PropValue.decode (datatypeOf prop.ptype)))
      (e.servedValue (param req 0).toUInt16) := by
  rw [value_read_served hp hh hok hc]
  refine carries_encoded ?_ (PropValue.stable_decode _) he
  rw [← servedValue_type hp.property ht]
  exact (e.servedValue _).roundTrips

theorem desc_read_decodes (ht : Deferred.Holds (HasType e.manifest) e.state.deferred)
    (hp : IsPlain e.manifest (param req 0).toUInt16 prop) (hh : e.handled req = true)
    (hok : (e.dispatched req dataIn).1.isOk = true) (hc : req.code = Op.getDevicePropDesc) :
    ∃ desc, buildPropDesc e.manifest e.state (param req 0).toUInt16 = some desc ∧
      desc.datatype = datatypeOf prop.ptype ∧
      desc.current = (e.state.props (param req 0).toUInt16).getD
        (defaultPropValue (datatypeOf prop.ptype)) ∧
      (Encodes desc.encode → desc.form.CountFits →
        Carries (e.dispatched req dataIn).1 DevicePropDesc.decode desc) := by
  rw [dispatched_handled hh, handle_getDevicePropDesc hc] at hok ⊢
  obtain ⟨desc, hde, hs⟩ := getDevicePropDesc_built hok
  have hb : buildPropDesc e.manifest e.state (param req 0).toUInt16 = some desc := hde
  obtain ⟨hw, hd, hcu⟩ := buildPropDesc_eq hp.property hb ht
  refine ⟨desc, hb, hd, hcu, fun he hco => ?_⟩
  rw [hs]
  exact carries_encoded (desc.roundTrips hw hco) DevicePropDesc.stable_fields he

end Engine

/-- **A plain property reads as what is stored.** In every run, an answer OK
that the handler of a property read gives decodes completely at the declared
type to the stored value, if that value can be encoded; the same goes for a
description. -/
theorem plain_read_decodes (manifest : CameraManifest) (store : Store.MediaStore)
    (calls : List Call) (req : OperationRequest) (dataIn : Option (List UInt8)) (prop : Property)
    (hseeds : SeedsTyped manifest) (hplain : IsPlain manifest (Engine.param req 0).toUInt16 prop)
    (hhandled : (Machine.run Engine.step (Engine.new manifest store) calls).handled req = true)
    (hok : ((Machine.run Engine.step (Engine.new manifest store) calls).dispatched
      req dataIn).1.isOk = true) :
    let e := Machine.run Engine.step (Engine.new manifest store) calls
    let code := (Engine.param req 0).toUInt16
    (req.code = Op.getDevicePropValue → Encodes (e.servedValue code).encode →
      Carries (e.dispatched req dataIn).1
        (Reader.whole (PropValue.decode (datatypeOf prop.ptype))) (e.servedValue code)) ∧
    (req.code = Op.getDevicePropDesc → ∃ desc, buildPropDesc manifest e.state code = some desc ∧
      desc.datatype = datatypeOf prop.ptype ∧
      desc.current = (e.state.props code).getD (defaultPropValue (datatypeOf prop.ptype)) ∧
      (Encodes desc.encode → desc.form.CountFits →
        Carries (e.dispatched req dataIn).1 DevicePropDesc.decode desc)) := by
  obtain ⟨hm, ht⟩ := run_typed hseeds store calls
  intro e code
  have hplain' : IsPlain e.manifest code prop := hm.symm ▸ hplain
  have ht' : Deferred.Holds (HasType e.manifest) e.state.deferred := hm.symm ▸ ht
  refine ⟨fun hc he => ?_, fun hc => ?_⟩
  · exact Engine.value_read_decodes ht' hplain' hhandled hok hc he
  · have hr := Engine.desc_read_decodes ht' hplain' hhandled hok hc
    rwa [show e.manifest = manifest from hm] at hr

/-- A camera with a number and a text. -/
def plainManifest (operations : List (String × Operation)) : CameraManifest where
  camera := ⟨"", "", "", []⟩
  operations := operations
  properties := [("0xd001", { ptype := some "u16", initialValue := some (.int 7) }),
    ("0xd002", { ptype := some "str" })]

def textRun : List Call :=
  [request Op.openSession [1], .applyStateOverlay { props := [("0xd002", .string "iso")] }]

def readText : OperationRequest := ⟨1, Op.getDevicePropValue, 1, [0xd002]⟩

theorem plain_read_decodes_text :
    let e := Machine.run Engine.step (Engine.new (plainManifest []) emptyCard) textRun
    (e.dispatched readText none).1.isOk = true ∧
      Carries (e.dispatched readText none).1 (Reader.whole (PropValue.decode DatatypeCode.str))
        (.str "iso") := by
  have hh : (Machine.run Engine.step (Engine.new (plainManifest []) emptyCard)
      textRun).handled readText = true := by decide +kernel
  have hok : ((Machine.run Engine.step (Engine.new (plainManifest []) emptyCard)
      textRun).dispatched readText none).1.isOk = true := by decide +kernel
  have he : Encodes (PropValue.str "iso").encode := ⟨[4, 105, 0, 115, 0, 111, 0, 0, 0], by
    decide +kernel⟩
  have hr := (plain_read_decodes (plainManifest []) emptyCard textRun readText none
    { ptype := some "str" } (by decide +kernel) ⟨rfl, rfl, rfl⟩ hh hok).1 rfl
  refine ⟨hok, ?_⟩
  exact hr he

/-- A read that is silently refused is answered OK as well, and carries no
data. -/
theorem silent_read_without_data :
    let manifest := plainManifest [("0x1015", { dispositions := [{}] })]
    let e := Machine.run Engine.step (Engine.new manifest emptyCard) [request Op.openSession [1]]
    let reply := (e.onOperation ⟨1, Op.getDevicePropValue, 1, [0xd001]⟩ none).1
    IsPlain manifest 0xd001 { ptype := some "u16", initialValue := some (.int 7) } ∧
      reply.isOk = true ∧ ∀ bytes response, reply ≠ .data bytes response := by
  intro manifest e reply
  have hr : reply = .ok 1 := by decide +kernel
  refine ⟨⟨rfl, rfl, rfl⟩, ?_, ?_⟩
  · rfl
  · intro bytes response hd
    rw [hr] at hd
    cases hd

end Ptpsim.Sim
