/-
# The sizes a camera tells of its objects

The size fields of PTP have 32 bits. The object info and the transfer of a
whole object saturate a larger size, and a range is never longer than its
32-bit length parameter. An object-size operation of the manifest does not
saturate: it gives the low bits of the size, so it agrees with the others just
for the sizes whose low bits are the saturated size, and no such operation is
in the way if it cannot be asked for the object (`object_sizes_iff`).
-/
import Ptpsim.Sim.Dispatch

namespace Ptpsim.Sim

open Ptpsim.Core Config Store

/-- The size as the 32-bit fields can hold it. -/
def saturated (size : UInt64) : ℕ := min size.toNat sizeCeiling

/-- The source is so many bytes long, and so is what it reads from a file that
still has its size. -/
def Serves (entry : Entry) (source : ByteSource) (n : ℕ) : Prop :=
  source.len.toNat = n ∧ ∀ disk file, disk entry.path = some file →
    file.length = entry.size.toNat → (source.content disk).length = n

/-- The request asks a 32-bit object-size operation of the manifest for the
object, with the parameters that are declared. -/
def AsksSize (e : Engine) (handle : UInt32) (code : UInt16) (params : List UInt32) : Prop :=
  e.operationAvailabilityError code = none ∧ ∃ op handler, e.manifest.operation code = some op ∧
    op.handler = some .objectSize ∧ op.objectSize = some handler ∧ handler.encoding = .u32Le ∧
    (∀ p ∈ handler.requiredParams, params[p.index]? = some p.equals) ∧
    params[handler.handleParam]? = some handle

/-- What the camera tells about an object, and what it serves of it. -/
structure SizesAgree (e : Engine) (handle : UInt32) (entry : Entry) : Prop where
  info : ∀ info, e.store.objectInfo handle = .ok info →
    info.objectCompressedSize.toNat = saturated entry.size
  declared : ∀ tid code params, AsksSize e handle code params →
    e.dispatchManifestOp tid code params = (.ofData tid (leBytes 4 (saturated entry.size)), e)
  whole : ∀ req, Engine.param req 0 = handle → e.objectHandleAvailable handle = true → ∃ source,
    e.getObject req = .completed (.ofStream req.transactionId source) ∧
      Serves entry source (saturated entry.size)
  ranges : ∀ req, Engine.param req 0 = handle → ∃ source n, e.getPartialObject req =
      .completed (.dataStream source ⟨Resp.ok, req.transactionId, [n]⟩ none) ∧
    Serves entry source n.toNat

theorem toNat_saturated {size : UInt64} : (UInt32.ofNat (saturated size)).toNat = saturated size :=
  UInt32.toNat_ofNat_of_lt' (by rw [saturated, sizeCeiling, UInt32.size]; omega)

section Ranges

variable {e : Engine} {handle : UInt32} {entry : Entry} (h : e.store.entry handle = .ok entry)

include h

theorem readRange_serves (offset : UInt64) (len : UInt32) : ∃ source,
    e.store.readRange handle offset len = .ok source ∧
      Serves entry source (min len.toNat (entry.size.toNat - offset.toNat)) := by
  have hlen : (UInt64.ofNat (min len.toNat (entry.size.toNat - offset.toNat))).toNat =
      min len.toNat (entry.size.toNat - offset.toNat) := by
    have := len.toNat_lt
    exact UInt64.toNat_ofNat_of_lt' (by rw [UInt64.size]; omega)
  refine ⟨.fileRange entry.path offset (UInt64.ofNat (min len.toNat
    (entry.size.toNat - offset.toNat))), by rw [MediaStore.readRange, h]; rfl, hlen, ?_⟩
  intro disk file hf hs
  rw [ByteSource.content, hf, Option.getD_some, List.length_take, List.length_drop, hs, hlen]
  omega

theorem getObject_serves (req : OperationRequest) (hreq : Engine.param req 0 = handle)
    (ha : e.objectHandleAvailable handle = true) : ∃ source,
    e.getObject req = .completed (.ofStream req.transactionId source) ∧
      Serves entry source (saturated entry.size) := by
  obtain ⟨source, hso, hs⟩ := readRange_serves h 0 (UInt32.ofNat (saturated entry.size))
  refine ⟨source, ?_, ?_⟩
  · have hr : e.store.readRange handle 0 (UInt32.ofNat (min entry.size.toNat sizeCeiling)) =
      .ok source := hso
    simp only [Engine.getObject, hreq, ha, Bool.not_true, Bool.false_eq_true, if_false,
      MediaStore.objectSize_of_entry h, hr]
  · have hw : min (UInt32.ofNat (saturated entry.size)).toNat
        (entry.size.toNat - (0 : UInt64).toNat) = saturated entry.size := by
      rw [toNat_saturated, saturated, UInt64.toNat_zero]
      omega
    rwa [hw] at hs

theorem getPartialObject_serves (req : OperationRequest) (hreq : Engine.param req 0 = handle) :
    ∃ source n, e.getPartialObject req =
        .completed (.dataStream source ⟨Resp.ok, req.transactionId, [n]⟩ none) ∧
      Serves entry source n.toNat := by
  obtain ⟨source, hso, hs⟩ := readRange_serves h (Engine.partialOffset req) (Engine.param req 2)
  refine ⟨source, Engine.returnedLen source, ?_, ?_⟩
  · simp only [Engine.getPartialObject, hreq, hso]
  · have hlen := (Engine.param req 2).toNat_lt
    have hr : (Engine.returnedLen source).toNat = source.len.toNat := by
      rw [Engine.returnedLen, hs.1, UInt32.toNat_ofNat_of_lt' (by rw [UInt32.size]; omega)]
      omega
    rwa [hr, hs.1]

/-- The operation answers the low bits of the size. -/
theorem AsksSize.answer {code : UInt16} {params : List UInt32}
    (hasks : AsksSize e handle code params) (tid : UInt32) :
    e.dispatchManifestOp tid code params =
      (.ofData tid (leBytes 4 (entry.size.toNat % 2 ^ 32)), e) := by
  obtain ⟨hav, op, handler, hop, hkind, hsize, he, hr, hh⟩ := hasks
  have hn : (handler.requiredParams.any fun p => params[p.index]? ≠ some p.equals) = false := by
    simpa using hr
  have hlow : entry.size.toUInt32.toNat = entry.size.toNat % 2 ^ 32 := UInt64.toNat_toUInt32 _
  simp only [Engine.dispatchManifestOp, hav, hop, hkind, Engine.objectSizeOp, hsize, hn,
    Bool.false_eq_true, if_false, hh, he, MediaStore.objectSize_of_entry h, hlow]

end Ranges

/-- **The sizes of an object.** The object info, every 32-bit object-size
operation of the manifest and the transfer of the whole object have the same
saturated size, and every range reports the number of bytes it serves, if and
only if the size fits 32 bits, or happens to end in 32 ones, or no such
operation can be asked for the object. -/
theorem object_sizes_iff (e : Engine) (handle : UInt32) (entry : Entry)
    (h : e.store.entry handle = .ok entry) : SizesAgree e handle entry ↔
      entry.size.toNat < 2 ^ 32 ∨ entry.size.toNat % 2 ^ 32 = 2 ^ 32 - 1 ∨
        ∀ code params, ¬ AsksSize e handle code params := by
  constructor
  · intro hag
    by_contra hno
    push Not at hno
    obtain ⟨hbig, hones, code, params, hasks⟩ := hno
    have ha := hag.declared 0 code params hasks
    rw [hasks.answer h] at ha
    have hs := congrArg leNat (Reply.data.inj (Prod.mk.inj ha).1).1
    rw [leNat_leBytes (by omega), leNat_leBytes (by rw [saturated, sizeCeiling]; omega), saturated,
      sizeCeiling] at hs
    omega
  · intro hsi
    refine ⟨?_, ?_, getObject_serves h, getPartialObject_serves h⟩
    · intro info hi
      rw [MediaStore.objectInfo, h] at hi
      cases hi
      exact toNat_saturated
    · intro tid code params hasks
      have hlow : entry.size.toNat % 2 ^ 32 = saturated entry.size := by
        have hfits := hsi.imp_right fun hs => hs.resolve_right fun hno => hno code params hasks
        rw [saturated, sizeCeiling]
        omega
      rw [hasks.answer h, hlow]

/-- A file of 4 GiB. -/
def largeFile : Entry := ⟨1, ["card", "LARGE.MOV"], 0, false, 0x100000000, Fmt.mov⟩

/-- A card with one file. -/
def cardWith (entry : Entry) : MediaStore where
  entries := [entry]
  rafThumbnail _ := .error .noPreview
  ordered := List.pairwise_singleton _ _

/-- A camera with a 32-bit object-size operation. -/
def sizeManifest : CameraManifest where
  camera := ⟨"", "", "", []⟩
  operations := [("0x9040", { handler := some .objectSize
                              objectSize := some { handleParam := 0, encoding := .u32Le } })]

theorem asksSize_large :
    AsksSize (Engine.new sizeManifest (cardWith largeFile)) 1 0x9040 [1] :=
  ⟨by decide +kernel, _, _, rfl, rfl, rfl, rfl, by simp, rfl⟩

/-- The size operation answers zero for it, the object info the largest size. -/
theorem large_size_wraps :
    let e := Engine.new sizeManifest (cardWith largeFile)
    (e.dispatchManifestOp 7 0x9040 [1]).1 = .ofData 7 [0, 0, 0, 0] ∧
      (e.store.objectInfo 1).toOption.map (·.objectCompressedSize) = some 0xffffffff ∧
      ¬ SizesAgree e 1 largeFile := by
  have hz := congrArg Prod.fst (asksSize_large.answer rfl 7)
  refine ⟨hz, by decide +kernel, fun ha => ?_⟩
  have han := congrArg Prod.fst (ha.declared 7 0x9040 [1] asksSize_large)
  exact absurd (Reply.data.inj (hz.symm.trans han)).1 (by decide +kernel)

theorem object_sizes_iff_small :
    let entry := ⟨1, ["card", "A.JPG"], 0, false, 5, Format.exifJpeg⟩
    SizesAgree (Engine.new sizeManifest (cardWith entry)) 1 entry :=
  (object_sizes_iff _ 1 _ rfl).mpr (.inl (by decide))

end Ptpsim.Sim
