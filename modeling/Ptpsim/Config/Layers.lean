/-
# Documents in layers

A manifest and an index are YAML documents that are merged over one another. A
mapping is merged key by key, and any other value gives way to what lies over
it. What a merged document holds at a path is decided by one layer, the last
with something to say about it (`look_foldl_merge`).

A mapping is modelled by its set of keys and the document at each. The order
of the keys, which no merge looks at, is left out.
-/
import Mathlib.Data.Finset.Union
import Mathlib.Data.List.Induction

namespace Ptpsim.Config

/-- A YAML value: a mapping, or any other value. -/
inductive Doc (K V : Type) where
  | value (v : V)
  | mapping (keys : Finset K) (sub : {k // k ∈ keys} → Doc K V)

variable {K V : Type} [DecidableEq K]

/-- The loop over the overlay visits each of its keys once, and what it does at
one key does not depend on another. -/
def mergeYaml : Doc K V → Doc K V → Doc K V
  | .mapping keys b, .mapping keys' o => .mapping (keys ∪ keys') fun k =>
    if ho : k.1 ∈ keys' then
      if hb : k.1 ∈ keys then mergeYaml (b ⟨k.1, hb⟩) (o ⟨k.1, ho⟩) else o ⟨k.1, ho⟩
    else b ⟨k.1, (Finset.mem_union.mp k.2).resolve_right ho⟩
  | _, overlay => overlay

/-- Layers `b` over `a`. -/
def deepMerge : Doc K V → Doc K V → Doc K V
  | .mapping keys b, .mapping keys' o => .mapping (keys ∪ keys') fun k =>
    if ho : k.1 ∈ keys' then
      if hb : k.1 ∈ keys then deepMerge (b ⟨k.1, hb⟩) (o ⟨k.1, ho⟩) else o ⟨k.1, ho⟩
    else b ⟨k.1, (Finset.mem_union.mp k.2).resolve_right ho⟩
  | _, overlay => overlay

theorem deepMerge_eq (b o : Doc K V) : deepMerge b o = mergeYaml b o := by
  induction o generalizing b with
  | value v => cases b <;> rfl
  | mapping keys' o ih =>
    cases b with
    | value v => rfl
    | mapping keys b => simp only [deepMerge, mergeYaml, ih]

namespace Doc

def child : Doc K V → K → Option (Doc K V)
  | .value _, _ => none
  | .mapping keys sub, k => if h : k ∈ keys then some (sub ⟨k, h⟩) else none

/-- What is at a path of keys: nothing, a mapping (`some none`) or a value. -/
def look : List K → Doc K V → Option (Option V)
  | [], .value v => some (some v)
  | [], .mapping _ _ => some none
  | k :: p, d => (d.child k).bind (look p)

/-- A value lies across the path. -/
def Blocks (p : List K) (d : Doc K V) : Prop :=
  ∃ q v, q <+: p ∧ q ≠ p ∧ look q d = some (some v)

variable {p q : List K} {b o : Doc K V}

theorem child_merge (keys keys' : Finset K) (b : {k // k ∈ keys} → Doc K V)
    (o : {k // k ∈ keys'} → Doc K V) (k : K) :
    (mergeYaml (mapping keys b) (mapping keys' o)).child k =
      ((mapping keys' o).child k).elim ((mapping keys b).child k) fun ov =>
        some (((mapping keys b).child k).elim ov (mergeYaml · ov)) := by
  by_cases ho : k ∈ keys' <;> by_cases hb : k ∈ keys <;>
    simp only [mergeYaml, child, Finset.mem_union, ho, hb, or_true, or_false, ↓reduceDIte,
      Option.elim]

theorem blocks_cons {k : K} (p : List K) (keys : Finset K) (d : {k // k ∈ keys} → Doc K V) :
    Blocks (k :: p) (mapping keys d) ↔ ∃ e ∈ (mapping keys d).child k, Blocks p e := by
  constructor
  · rintro ⟨_ | ⟨k', q⟩, v, hq, hne, hl⟩
    · cases hl
    · obtain ⟨rfl, hq'⟩ := List.cons_prefix_cons.mp hq
      obtain ⟨e, he, hl⟩ := Option.bind_eq_some_iff.mp hl
      exact ⟨e, he, q, v, hq', fun h => hne (h ▸ rfl), hl⟩
  · rintro ⟨e, he, q, v, hq, hne, hl⟩
    refine ⟨k :: q, v, List.cons_prefix_cons.mpr ⟨rfl, hq⟩, by simpa using hne, ?_⟩
    rw [look, he, Option.bind_some, hl]

open Classical in
/-- The overlay decides wherever it has something, and across what lies below
its values. -/
theorem look_merge (p : List K) (b o : Doc K V) :
    look p (mergeYaml b o) = (look p o).or (if Blocks p o then none else look p b) := by
  induction p generalizing b o with
  | nil => cases b <;> cases o <;> rfl
  | cons k p ih =>
    cases o with
    | value v =>
      have hm : mergeYaml b (value v) = value v := by cases b <;> rfl
      have hb : Blocks (k :: p) (value v : Doc K V) := ⟨[], v, List.nil_prefix, by simp, rfl⟩
      rw [hm, if_pos hb]
      rfl
    | mapping keys' o =>
      cases b with
      | value v =>
        have hv : look (k :: p) (value v : Doc K V) = none := rfl
        rw [hv, ite_self, Option.or_none]
        rfl
      | mapping keys b =>
        simp only [look, child_merge, blocks_cons]
        cases ho : (mapping keys' o).child k with
        | none => simp
        | some ov =>
          cases hb : (mapping keys b).child k with
          | none => simp
          | some bv => simp [ih]

/-- A layer that says nothing about the path. -/
def Silent (p : List K) (d : Doc K V) : Prop := look p d = none ∧ ¬ Blocks p d

theorem look_merge_value {v : V} : look p (mergeYaml b o) = some (some v) ↔
    look p o = some (some v) ∨ Silent p o ∧ look p b = some (some v) := by
  rw [look_merge, Option.or_eq_some_iff]
  by_cases hb : Blocks p o <;> simp [Silent, hb]

theorem look_foldl_merge (base : Doc K V) (overlays : List (Doc K V)) (v : V) :
    look p (overlays.foldl mergeYaml base) = some (some v) ↔ ∃ before layer after,
      base :: overlays = before ++ layer :: after ∧ look p layer = some (some v) ∧
        ∀ later ∈ after, Silent p later := by
  induction overlays generalizing base with
  | nil =>
    constructor
    · exact fun h => ⟨[], base, [], rfl, h, by simp⟩
    · rintro ⟨_ | ⟨x, before⟩, layer, after, hs, hl, -⟩ <;> simp at hs
      rwa [← hs.1] at hl
  | cons o overlays ih =>
    rw [List.foldl_cons, ih]
    constructor
    · rintro ⟨_ | ⟨x, before⟩, layer, after, hs, hl, ha⟩ <;> cases hs
      · rcases look_merge_value.mp hl with hl | ⟨ho, hl⟩
        · exact ⟨[base], o, overlays, rfl, hl, ha⟩
        · exact ⟨[], base, o :: overlays, rfl, hl, List.forall_mem_cons.mpr ⟨ho, ha⟩⟩
      · exact ⟨base :: o :: before, layer, after, rfl, hl, ha⟩
    · rintro ⟨_ | ⟨x, _ | ⟨y, before⟩⟩, layer, after, hs, hl, ha⟩ <;> cases hs
      · obtain ⟨ho, ha⟩ := List.forall_mem_cons.mp ha
        exact ⟨[], _, overlays, rfl, look_merge_value.mpr (.inr ⟨ho, hl⟩), ha⟩
      · exact ⟨[], _, overlays, rfl, look_merge_value.mpr (.inl hl), ha⟩
      · exact ⟨_ :: before, layer, after, rfl, hl, ha⟩

/-- What is at a path is in mappings all the way down. -/
theorem look_above {x : Option V} (h : look p o = some x) (hq : q <+: p) (hne : q ≠ p) :
    look q o = some none := by
  induction p generalizing q o with
  | nil => exact absurd (List.prefix_nil.mp hq) hne
  | cons k p ih =>
    obtain ⟨e, he, hl⟩ := Option.bind_eq_some_iff.mp h
    rcases q with _ | ⟨k', q⟩
    · cases o with
      | value v => cases he
      | mapping keys d => rfl
    · obtain ⟨rfl, hq'⟩ := List.cons_prefix_cons.mp hq
      rw [look, he]
      exact ih hl hq' fun h => hne (h ▸ rfl)

theorem ext_look {a b : Doc K V} (h : ∀ p, look p a = look p b) : a = b := by
  induction a generalizing b with
  | value v =>
    cases b with
    | value w => exact congrArg value (by simpa [look] using h [])
    | mapping keys d => cases h []
  | mapping keys d ih =>
    cases b with
    | value w => cases h []
    | mapping keys' d' =>
      have hk : keys = keys' := by
        ext k
        have hn (e : Doc K V) : look [] e ≠ none := by cases e <;> simp [look]
        have hc := h [k]
        by_cases hb : k ∈ keys <;> by_cases ho : k ∈ keys' <;>
          simp [look, child, hb, ho, hn, (hn _).symm] at hc ⊢
      subst hk
      congr 1
      funext k
      exact ih k fun p => by simpa [look, child, k.2] using h (k :: p)

/-- No value lies over a mapping. -/
def Fits (d e : Doc K V) : Prop := ∀ p v, look p d = some none → look p e ≠ some (some v)

theorem Fits.look_merge (h : Fits b o) (p : List K) :
    look p (mergeYaml b o) = (look p o).or (look p b) := by
  rw [Doc.look_merge]
  split
  · rename_i hb
    obtain ⟨q, v, hq, hne, hv⟩ := hb
    cases hl : look p b with
    | none => rfl
    | some x => exact absurd hv (h q v (look_above hl hq hne))
  · rfl

end Doc

open Doc in
/-- A value of the merged document is the value of the last layer that speaks
of its path. The two merges are one function, and an associative one on layers
that agree about what is a mapping. -/
theorem layers_merge (K V : Type) [DecidableEq K] :
    (∀ (base : Doc K V) (overlays : List (Doc K V)) (p : List K) (v : V),
      look p (overlays.foldl mergeYaml base) = some (some v) ↔ ∃ before layer after,
        base :: overlays = before ++ layer :: after ∧ look p layer = some (some v) ∧
          ∀ later ∈ after, look p later = none ∧
            ¬ ∃ q w, q <+: p ∧ q ≠ p ∧ look q later = some (some w)) ∧
    (∀ base overlay : Doc K V, deepMerge base overlay = mergeYaml base overlay) ∧
    ∀ a b c : Doc K V, Fits a b → Fits a c → Fits b c →
      mergeYaml (mergeYaml a b) c = mergeYaml a (mergeYaml b c) := by
  refine ⟨fun base overlays p v => look_foldl_merge base overlays v, deepMerge_eq,
    fun a b c hab hac hbc => ext_look fun p => ?_⟩
  have hl : Fits (mergeYaml a b) c := by
    intro p v hm
    rw [hab.look_merge, Option.or_eq_some_iff] at hm
    exact hm.elim (hbc p v) fun h => hac p v h.2
  have hr : Fits a (mergeYaml b c) := by
    intro p v hm hv
    rw [hbc.look_merge, Option.or_eq_some_iff] at hv
    exact hv.elim (hac p v hm) fun h => hab p v hm h.2
  rw [hl.look_merge, hab.look_merge, hr.look_merge, hbc.look_merge, Option.or_assoc]

/-- A mapping with one value under all its keys. -/
def Doc.level (keys : Finset K) (v : V) : Doc K V := .mapping keys fun _ => .value v

theorem Doc.fits_level (keys keys' : Finset K) (v w : V) : Fits (level keys v) (level keys' w) := by
  rintro (_ | ⟨k, _ | ⟨k', p⟩⟩) u h
  · nofun
  all_goals by_cases hk : k ∈ keys <;> simp [level, look, child, hk] at h

open Doc in
theorem layers_merge_levels :
    mergeYaml (mergeYaml (level {0} false) (level {1} true)) (level {0, 2} true) =
      mergeYaml (level {0} false) (mergeYaml (level {1} true) (level {0, 2} true)) :=
  (layers_merge ℕ Bool).2.2 _ _ _ (fits_level _ _ _ _) (fits_level _ _ _ _) (fits_level _ _ _ _)

/-! ### The same layers again -/

/-- At a path the layers decide, or they leave what was there. -/
theorem Doc.look_foldl_cases (overlays : List (Doc K V)) (p : List K) :
    (∃ x, ∀ base, look p (overlays.foldl mergeYaml base) = x) ∨
      ∀ base, look p (overlays.foldl mergeYaml base) = look p base := by
  induction overlays using List.reverseRecOn with
  | nil => exact .inr fun _ => rfl
  | append_singleton overlays o ih =>
    simp only [List.foldl_append, List.foldl_cons, List.foldl_nil, look_merge]
    cases ho : look p o with
    | some x => exact .inl ⟨some x, fun _ => rfl⟩
    | none =>
      by_cases hb : Blocks p o
      · exact .inl ⟨none, fun _ => by rw [if_pos hb]; rfl⟩
      · simpa [hb] using ih

/-- Merging all layers a second time changes nothing, with either merge. -/
theorem layers_idempotent (base : Doc K V) (overlays : List (Doc K V)) :
    overlays.foldl mergeYaml (overlays.foldl mergeYaml base) = overlays.foldl mergeYaml base ∧
    overlays.foldl deepMerge (overlays.foldl deepMerge base) = overlays.foldl deepMerge base := by
  have hd : (deepMerge : Doc K V → Doc K V → Doc K V) = mergeYaml :=
    funext fun b => funext (deepMerge_eq b)
  rw [hd, and_self]
  apply Doc.ext_look
  intro p
  rcases Doc.look_foldl_cases overlays p with ⟨x, hx⟩ | hx
  · rw [hx, hx]
  · rw [hx]

end Ptpsim.Config
