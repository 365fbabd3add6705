/-
# The published number of queued objects

A camera that hands over objects on its own initiative publishes how many are
left, as the value of a property. The engine brings it up to date when it is
made and whenever the head of the queue moves on. The count is saturated at
what 32 bits can hold and then cast to the property's type, and the cast keeps
the low bits: in a type that is too narrow, the number that is read is not the
largest one.
-/
import Ptpsim.Sim.Run

namespace Ptpsim.Sim

open Ptpsim.Core Config Store

/-- The integer types of properties. -/
inductive IntegerType where
  | i8 | u8 | i16 | u16 | i32 | u32 | i64 | u64
deriving DecidableEq

namespace IntegerType

def name : IntegerType → String
  | i8 => "i8" | u8 => "u8" | i16 => "i16" | u16 => "u16"
  | i32 => "i32" | u32 => "u32" | i64 => "i64" | u64 => "u64"

def bits : IntegerType → ℕ
  | i8 | u8 => 8
  | i16 | u16 => 16
  | i32 | u32 => 32
  | i64 | u64 => 64

def isSigned : IntegerType → Bool
  | i8 | i16 | i32 | i64 => true
  | u8 | u16 | u32 | u64 => false

/-- The largest value of the type. -/
def largest (T : IntegerType) : ℕ := if T.isSigned then 2 ^ (T.bits - 1) - 1 else 2 ^ T.bits - 1

/-- What is left of a number in the bits of the type. -/
def wrap (T : IntegerType) (n : ℕ) : ℤ :=
  if T.isSigned then (n : ℤ).bmod (2 ^ T.bits) else (n % 2 ^ T.bits : ℕ)

end IntegerType

/-- The integer of the type that has the same low bits. -/
def IntegerType.residue (T : IntegerType) (x : ℤ) : ℤ :=
  if T.isSigned then x.bmod (2 ^ T.bits) else x % 2 ^ T.bits

theorem toNat_toUInt64 (v : Int64) : (v.toUInt64.toNat : ℤ) = v.toInt % 2 ^ 64 := by
  have hlt := v.toUInt64.toNat_lt
  have hint : v.toInt = (v.toUInt64.toNat : ℤ).bmod (2 ^ 64) := BitVec.toInt_eq_toNat_bmod _
  rw [hint, Int.bmod]
  omega

open IntegerType

theorem intValue_typed (T : IntegerType) (v : Int64) :
    intValue (typed (datatypeOf (some T.name)) v) = some (T.residue v.toInt) := by
  have hnat := toNat_toUInt64 v
  cases T with
  | i8 => exact congrArg some (Int64.toInt_toInt8 v)
  | i16 => exact congrArg some (Int64.toInt_toInt16 v)
  | i32 => exact congrArg some (Int64.toInt_toInt32 v)
  | i64 =>
    refine congrArg some (Int.bmod_eq_of_le ?_ ?_).symm
    · exact v.minValue_le_toInt
    · exact v.toInt_lt
  | u8 =>
    refine congrArg some ?_
    rw [UInt64.toNat_toUInt8]
    simp only [residue, isSigned, IntegerType.bits, Bool.false_eq_true, if_false]
    omega
  | u16 =>
    refine congrArg some ?_
    rw [UInt64.toNat_toUInt16]
    simp only [residue, isSigned, IntegerType.bits, Bool.false_eq_true, if_false]
    omega
  | u32 =>
    refine congrArg some ?_
    rw [UInt64.toNat_toUInt32]
    simp only [residue, isSigned, IntegerType.bits, Bool.false_eq_true, if_false]
    omega
  | u64 => exact congrArg some hnat

theorem intValue_count (T : IntegerType) {n : ℕ} (hn : n < 2 ^ 32) :
    intValue (typed (datatypeOf (some T.name)) (Int64.ofNat n)) = some (T.wrap n) := by
  rw [intValue_typed, Int64.toInt_ofNat_of_lt (by omega), residue, IntegerType.wrap,
    Int.natCast_emod, Nat.cast_pow, Nat.cast_ofNat]

/-- The count fits the type and 32 bits, or its low bits happen to be the
largest value. -/
def FitsType (T : IntegerType) (remaining : ℕ) : Prop :=
  remaining ≤ min T.largest 0xffffffff ∨ min remaining 0xffffffff % 2 ^ T.bits = T.largest

theorem wrap_eq_saturated_iff (T : IntegerType) (remaining : ℕ) :
    T.wrap (min remaining 0xffffffff) = (min remaining T.largest : ℕ) ↔ FitsType T remaining := by
  unfold FitsType IntegerType.wrap
  cases T <;> simp only [isSigned, IntegerType.bits, largest, if_true,
    Bool.false_eq_true, if_false, Int.bmod]
  all_goals omega

/-! ### The engine -/

/-- The manifest has the count published by a property of the type. -/
structure Publishes (manifest : CameraManifest) (code : UInt16) (T : IntegerType) : Prop where
  member : (manifest.cameraInitiatedTransfer.bind fun t => parseHexCode t.receive.count.member) =
    some code
  type : (manifest.property code).bind (·.ptype) = some T.name

def Engine.publishedCount (e : Engine) (code : UInt16) : Option ℤ :=
  (e.state.props code).bind intValue

variable {manifest : CameraManifest} {code : UInt16} {T : IntegerType}

theorem sync_published (h : Publishes manifest code T) (queue : CameraInitiatedQueue)
    (s : CameraState) :
    ((syncCameraInitiatedCounts manifest (some queue) s).props code).bind intValue =
      some (T.wrap (min queue.remaining 0xffffffff)) := by
  have hb : min queue.remaining 0xffffffff < 2 ^ 32 := by omega
  unfold syncCameraInitiatedCounts
  simp only [h.member, h.type, CameraState.insertProp, Function.update_self, Option.bind_some]
  exact intValue_count T hb

/-- After the queue has changed, the property says how many objects are left,
or as many as its type can say. -/
def CountPublished (T : IntegerType) (e : Engine) (code : UInt16) : Prop :=
  ∃ queue, e.cameraInitiatedQueue = some queue ∧
    e.publishedCount code = some ((min queue.remaining T.largest : ℕ) : ℤ)

/-- The count of a queue fits the type that publishes it. -/
def QueueFits (T : IntegerType) (e : Engine) : Prop :=
  ∃ queue, e.cameraInitiatedQueue = some queue ∧ FitsType T queue.remaining

theorem countPublished_iff {e : Engine} {queue : CameraInitiatedQueue}
    (hq : e.cameraInitiatedQueue = some queue)
    (hc : e.publishedCount code = some (T.wrap (min queue.remaining 0xffffffff))) :
    CountPublished T e code ↔ QueueFits T e := by
  unfold CountPublished QueueFits
  rw [hq, hc]
  simp only [Option.some.injEq, exists_eq_left', wrap_eq_saturated_iff]

/-- **The count is right where it fits.** In a new engine and whenever the head
of the queue has moved on, the property has the number of objects that are
left, saturated at the largest value of its type, exactly if the number fits
the type and 32 bits or happens to end in the bits of that value. -/
theorem published_count_iff (h : Publishes manifest code T) :
    (∀ store, CountPublished T (Engine.new manifest store) code ↔
      QueueFits T (Engine.new manifest store)) ∧
    ∀ (e : Engine) (completion : StreamCompletion), e.manifest = manifest →
      (e.completeStream completion).1 = true →
      (CountPublished T (e.completeStream completion).2 code ↔
        QueueFits T (e.completeStream completion).2) := by
  constructor
  · intro store
    obtain ⟨transfer, ht, -⟩ := Option.bind_eq_some_iff.mp h.member
    have hq : (Engine.new manifest store).cameraInitiatedQueue =
        some (.new (cameraInitiatedMediaHandles manifest store)) := by
      simp only [Engine.new, Engine.newWith, ht, Option.map_some]
    refine countPublished_iff hq ?_
    have hs := sync_published h (.new (cameraInitiatedMediaHandles manifest store))
      (CameraState.fromManifest manifest)
    simpa only [Engine.publishedCount, Engine.new, Engine.newWith, ht, Option.map_some] using hs
  · rintro e completion rfl ha
    unfold Engine.completeStream at ha ⊢
    rcases hold : e.cameraInitiatedQueue with _ | queue
    · rw [hold] at ha
      cases ha
    · simp only [hold] at ha ⊢
      have hq : some (queue.complete completion).2 = some (queue.complete completion).2 := rfl
      refine countPublished_iff hq ?_
      simp only [Engine.publishedCount, ha, if_true]
      exact sync_published h _ _

/-! A card with many stills, of which the count is published in eight bits. -/

/-- A card with so many stills, with handles from 1 on. -/
def manyStills (n : ℕ)
    (hordered : ((List.range n).map fun i => UInt32.ofNat (i + 1)).Pairwise (· < ·)) :
    MediaStore where
  entries := (List.range n).map fun i =>
    ⟨UInt32.ofNat (i + 1), ["DSCF.JPG"], 0, false, 3, Format.exifJpeg⟩
  rafThumbnail := fun _ => .error .noPreview
  ordered := by
    rw [List.map_map]
    exact hordered

def countManifest : CameraManifest :=
  { receiveManifest with properties := [("0xd222", { ptype := some "u8" })] }

theorem published_count_iff_hundred :
    CountPublished .u8 (Engine.new countManifest (manyStills 100 (by decide +kernel))) 0xd222 := by
  have hp : Publishes countManifest 0xd222 .u8 := ⟨by decide +kernel, by decide +kernel⟩
  refine ((published_count_iff hp).1 _).mpr ⟨_, rfl, .inl ?_⟩
  decide +kernel

/-- 256 stills are published as none. -/
theorem published_count_wraps :
    let e := Engine.new countManifest (manyStills 256 (by decide +kernel))
    e.cameraInitiatedQueue.map (·.remaining) = some 256 ∧ e.publishedCount 0xd222 = some 0 := by
  decide +kernel

end Ptpsim.Sim
