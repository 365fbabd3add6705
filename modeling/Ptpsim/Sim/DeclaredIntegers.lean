/-
# Integers of a manifest on the wire

A manifest writes the values of its properties as 64-bit integers, and the
engine casts them to the property's type when it seeds a value, lists the values
of a descriptor or steps to one of them. The validator of descriptors tells
integers from strings only, so an integer that the type cannot hold is accepted,
and what is read from the wire is its residue. Nor does it count the values of
an enumeration, whose number has 16 bits in the description that is answered
(`declared_integers_iff`).
-/
import Ptpsim.Config.OpenChannels
import Ptpsim.Sim.PropertyReads
import Ptpsim.Sim.PublishedCount

namespace Ptpsim.Config

end Ptpsim.Config

namespace Ptpsim.Sim

open Ptpsim.Core Config

variable (manifest : CameraManifest)

/-- An engine of the camera, with values of the declared types, answers a
request for the description of the property. -/
def Describes (code : UInt16) (reply : Reply) : Prop :=
  ∃ (e : Engine) (req : OperationRequest), e.manifest = manifest ∧
    Deferred.Holds (HasType manifest) e.state.deferred ∧ (Engine.param req 0).toUInt16 = code ∧
    (e.getDevicePropDesc req).reply = reply ∧ reply.isOk = true

/-- A value is the integer that the manifest has for it. -/
def IsEntry (x : DescriptorValue) (v : PropValue) : Prop :=
  ∃ w : Int64, x = .int w ∧ intValue v = some w.toInt

variable {manifest : CameraManifest} {code : UInt16} {prop : Property} {T : IntegerType}

theorem residue_eq_self_iff (w : Int64) :
    T.residue w.toInt = w.toInt ↔ scalarFitsProperty (some T.name) w = true := by
  have hlo : -9223372036854775808 ≤ w.toInt := w.minValue_le_toInt
  have hhi : w.toInt < 9223372036854775808 := w.toInt_lt
  cases T <;> simp [IntegerType.residue, IntegerType.isSigned, IntegerType.bits, IntegerType.name,
    scalarFitsProperty, inRange, Int.bmod]
  all_goals omega

theorem values_propForm {d : Descriptor} {ws : List Int64} (datatype : UInt16)
    (hv : d.values = ws.map .int) (hf : propForm datatype (some d) ≠ .none) :
    (propForm datatype (some d)).values = ws.map (typed datatype) := by
  simp only [propForm] at hf ⊢
  split_ifs at hf ⊢
  · rw [hv, PropForm.values, List.filterMap_map]
    exact congrFun List.filterMap_eq_map ws
  · rcases ws with _ | ⟨a, _ | ⟨b, _ | ⟨c, _ | ⟨e, ws⟩⟩⟩⟩
    all_goals simp only [hv, List.map_cons, List.map_nil] at hf ⊢
    all_goals first
      | rfl
      | exact absurd rfl hf
  · exact absurd rfl hf

theorem isEntry_typed_iff (w : Int64) :
    IsEntry (.int w) (typed (datatypeOf (some T.name)) w) ↔
      scalarFitsProperty (some T.name) w = true := by
  rw [← residue_eq_self_iff, IsEntry, intValue_typed]
  simp

theorem countFits_propForm {d : Descriptor} {ws : List Int64} (datatype : UInt16)
    (hv : d.values = ws.map .int) (hf : propForm datatype (some d) ≠ .none) :
    (propForm datatype (some d)).CountFits ↔ (d.form = "enum" → d.values.length ≤ 65535) := by
  have hval := values_propForm datatype hv hf
  have hlen : d.values.length = (propForm datatype (some d)).values.length := by simp [hval, hv]
  constructor
  · intro hc he
    rw [hlen]
    refine hc _ ?_
    simp [propForm, he, PropForm.values]
  · intro hc vs hvs
    rw [hvs] at hlen
    by_cases he : d.form = "enum"
    · exact hlen ▸ hc he
    · simp only [propForm, if_neg he] at hvs
      split_ifs at hvs
      split at hvs <;> cases hvs

theorem encodes_desc {desc : DevicePropDesc} (hw : desc.WellTyped)
    (ht : desc.datatype = datatypeOf (some T.name)) : Encodes desc.encode := by
  refine Writer.intoVec_of_succeeds (desc.succeeds fun v hv => v.succeeds fun hs => ?_)
  have hd := (hw v hv).trans ht
  rw [hs] at hd
  cases T <;> exact absurd hd (by decide)

/-- What a client makes of the answered description. -/
theorem listed_iff {reply : Reply} {d : Descriptor} {ws : List Int64}
    (hr : Describes manifest code reply) (hp : manifest.property code = some prop)
    (ht : datatypeOf prop.ptype = datatypeOf (some T.name)) (hd : prop.descriptor = some d)
    (hws : d.values = ws.map .int) (hf : propForm (datatypeOf prop.ptype) (some d) ≠ .none) :
    (∃ desc, Carries reply DevicePropDesc.decode desc ∧
      List.Forall₂ IsEntry d.values desc.form.values) ↔
      (∀ w, .int w ∈ d.values → scalarFitsProperty (some T.name) w = true) ∧
        (d.form = "enum" → d.values.length ≤ 65535) := by
  obtain ⟨e, req, rfl, htyped, rfl, rfl, hok⟩ := hr
  obtain ⟨desc, hde, hrep⟩ := Engine.getDevicePropDesc_built hok
  obtain ⟨hw, hdt, -⟩ := buildPropDesc_eq hp hde htyped
  have hform : desc.form = propForm (datatypeOf prop.ptype) (some d) := by
    rw [buildPropDesc, hp] at hde
    cases hde
    rw [hd]
  have hent : List.Forall₂ IsEntry d.values desc.form.values ↔
      ∀ w, .int w ∈ d.values → scalarFitsProperty (some T.name) w = true := by
    rw [hform, values_propForm _ hws hf, hws, List.forall₂_map_left_iff,
      List.forall₂_map_right_iff, List.forall₂_same, ht]
    simp only [isEntry_typed_iff, List.mem_map, DescriptorValue.int.injEq, exists_eq_right]
  rw [← hent, ← countFits_propForm _ hws hf, ← hform, hrep]
  have hread : desc.form.CountFits → Carries (.ofData req.transactionId (encodedBytes desc.encode))
      DevicePropDesc.decode desc := fun hc =>
    carries_encoded (desc.roundTrips hw hc) DevicePropDesc.stable_fields
      (encodes_desc hw (hdt.trans ht))
  constructor
  · rintro ⟨desc', ⟨bytes, response, hby, hdec⟩, hall⟩
    have hc : desc.form.CountFits := by
      rintro vs hvs
      have hlen := hall.length_eq
      rw [hws, List.length_map, ← List.length_map (typed (datatypeOf prop.ptype)),
        ← values_propForm _ hws hf, ← hform, hvs] at hlen
      rw [show vs.length = _ from hlen]
      exact desc'.form.values_length (DevicePropDesc.decode_countFits hdec)
    obtain ⟨bytes', response', hby', hdec'⟩ := hread hc
    obtain ⟨rfl, -⟩ := Reply.data.inj (hby.symm.trans hby')
    obtain rfl := Except.ok.inj (hdec.symm.trans hdec')
    exact ⟨hall, hc⟩
  · rintro ⟨hall, hc⟩
    exact ⟨desc, hread hc, hall⟩

end Ptpsim.Sim
