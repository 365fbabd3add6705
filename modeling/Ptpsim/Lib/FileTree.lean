/-
# File trees with symbolic links

A file system gives the node at each place, a place being the list of names
that leads to it from the top. Directories list their names, and symbolic links
hold a path of their own. A path is resolved name by name; a link on the way
puts its target in front of what is left of the path, and a path may pass only
so many links.

A path is resolved in pieces (`resolve_append`), the place it leads to is there
and is no link (`resolve_real`), and a place leads to itself
(`resolve_place`).
-/
import Mathlib.Data.List.Basic
import Mathlib.Data.List.Induction

namespace Ptpsim.FileTree

variable {Name : Type}

inductive Component (Name : Type) where
  | current
  | parent
  | normal (name : Name)

structure Target (Name : Type) where
  absolute : Bool
  components : List (Component Name)

inductive Node (Name : Type) where
  | file (size : UInt64)
  | dir (names : List Name)
  | link (target : Target Name)

/-- The node at each place. A directory lists what is in it, and there is
nothing outside the directories. -/
structure FileSystem (Name : Type) where
  node : List Name → Option (Node Name)
  top : ∃ names, node [] = some (.dir names)
  listed : ∀ {place names}, node place = some (.dir names) →
    ∀ name, name ∈ names ↔ (node (place ++ [name])).isSome
  nodup : ∀ {place names}, node place = some (.dir names) → names.Nodup
  contained : ∀ {place name}, (node (place ++ [name])).isSome →
    ∃ names, node place = some (.dir names)

namespace FileSystem

variable (fs : FileSystem Name)

def isDir (place : List Name) : Bool :=
  match fs.node place with
  | some (.dir _) => true
  | _ => false

/-- Go along a path; `jump` goes on behind a link. -/
def follow (budget : ℕ) (jump : List Name → List (Component Name) → Option (ℕ × List Name)) :
    List Name → List (Component Name) → Option (ℕ × List Name)
  | place, [] => some (budget, place)
  | place, .current :: rest => if fs.isDir place then follow budget jump place rest else none
  | place, .parent :: rest =>
    if fs.isDir place then follow budget jump place.dropLast rest else none
  | place, .normal name :: rest =>
    match fs.node (place ++ [name]) with
    | none => none
    | some (.link target) =>
      jump (if target.absolute then [] else place) (target.components ++ rest)
    | some _ => follow budget jump (place ++ [name]) rest

/-- Where a path from `place` leads, with the links that may still be passed. -/
def resolve : ℕ → List Name → List (Component Name) → Option (ℕ × List Name)
  | 0 => fs.follow 0 fun _ _ => none
  | budget + 1 => fs.follow (budget + 1) (resolve budget)

/-- There is something at the place that is no link. -/
def Real (place : List Name) : Prop :=
  ∃ node, fs.node place = some node ∧ ∀ target, node ≠ .link target

variable {fs} {place : List Name} {budget : ℕ}

theorem Real.of_dir {names : List Name} (h : fs.node place = some (.dir names)) :
    fs.Real place := by
  refine ⟨_, h, ?_⟩
  intro target hl
  cases hl

theorem isDir_iff : fs.isDir place = true ↔ ∃ names, fs.node place = some (.dir names) := by
  unfold isDir
  constructor
  · intro h
    split at h
    · next names hn => exact ⟨names, hn⟩
    · cases h
  · rintro ⟨names, h⟩
    rw [h]

theorem isDir_dropLast (h : fs.isDir place = true) : fs.isDir place.dropLast = true := by
  rcases place.eq_nil_or_concat with rfl | ⟨front, name, rfl⟩
  · exact h
  · obtain ⟨names, hn⟩ := isDir_iff.mp h
    rw [List.concat_eq_append] at hn ⊢
    rw [List.dropLast_concat]
    exact isDir_iff.mpr (fs.contained (by rw [hn, Option.isSome_some]))

@[simp] theorem resolve_nil : fs.resolve budget place [] = some (budget, place) := by
  cases budget <;> rfl

theorem resolve_eq_follow (budget : ℕ) : ∃ jump, fs.resolve budget = fs.follow budget jump := by
  cases budget with
  | zero => exact ⟨_, rfl⟩
  | succ budget => exact ⟨_, rfl⟩

/-- What comes behind `xs` is read where `xs` ends, if that is so behind a link. -/
theorem follow_append {jump : List Name → List (Component Name) → Option (ℕ × List Name)}
    {next : ℕ × List Name → Option (ℕ × List Name)} {ys : List (Component Name)}
    (hj : ∀ place xs, jump place (xs ++ ys) = (jump place xs).bind next)
    (hn : ∀ place, fs.follow budget jump place ys = next (budget, place)) :
    ∀ (place : List Name) (xs : List (Component Name)),
      fs.follow budget jump place (xs ++ ys) = (fs.follow budget jump place xs).bind next
  | place, [] => hn place
  | place, .current :: xs => by
    simp only [List.cons_append, follow]
    split
    · exact follow_append hj hn place xs
    · rfl
  | place, .parent :: xs => by
    simp only [List.cons_append, follow]
    split
    · exact follow_append hj hn place.dropLast xs
    · rfl
  | place, .normal name :: xs => by
    simp only [List.cons_append, follow]
    split
    · rfl
    · rw [← List.append_assoc, hj]
    · exact follow_append hj hn (place ++ [name]) xs

theorem resolve_append : ∀ (budget : ℕ) (place : List Name) (xs ys : List (Component Name)),
    fs.resolve budget place (xs ++ ys) =
      (fs.resolve budget place xs).bind fun r => fs.resolve r.1 r.2 ys
  | 0, place, xs, _ => follow_append (fun _ _ => rfl) (fun _ => rfl) place xs
  | budget + 1, place, xs, ys =>
    follow_append (fun place xs => resolve_append budget place xs ys) (fun _ => rfl) place xs

theorem follow_real {jump : List Name → List (Component Name) → Option (ℕ × List Name)}
    {r : ℕ × List Name}
    (hj : ∀ {place xs}, fs.Real place → jump place xs = some r → fs.Real r.2) :
    ∀ {place : List Name} {xs : List (Component Name)}, fs.Real place →
      fs.follow budget jump place xs = some r → fs.Real r.2
  | place, [], hp, h => by
    cases h
    exact hp
  | place, .current :: xs, hp, h => by
    rw [follow] at h
    split at h
    · exact follow_real hj hp h
    · cases h
  | place, .parent :: xs, _, h => by
    rw [follow] at h
    split at h
    · next hdir =>
      obtain ⟨names, hn⟩ := isDir_iff.mp (isDir_dropLast hdir)
      exact follow_real hj (.of_dir hn) h
    · cases h
  | place, .normal name :: xs, hp, h => by
    rw [follow] at h
    split at h
    · cases h
    · -- the target is read from the top, or from where the link is
      refine hj ?_ h
      split
      · exact .of_dir fs.top.choose_spec
      · exact hp
    · next node hl hn =>
      refine follow_real hj ⟨node, hn, ?_⟩ h
      rintro target rfl
      exact hl target rfl

theorem resolve_real {r : ℕ × List Name} {xs : List (Component Name)} (hp : fs.Real place)
    (h : fs.resolve budget place xs = some r) : fs.Real r.2 := by
  induction budget generalizing place xs with
  | zero =>
    refine follow_real ?_ hp h
    intro _ _ _ hn
    cases hn
  | succ budget ih => exact follow_real ih hp h

theorem resolve_normal {name : Name} {rest : List (Component Name)}
    (h : fs.Real (place ++ [name])) :
    fs.resolve budget place (.normal name :: rest) = fs.resolve budget (place ++ [name]) rest := by
  obtain ⟨jump, hj⟩ : ∃ jump, fs.resolve budget = fs.follow budget jump := resolve_eq_follow budget
  obtain ⟨node, hn, hl⟩ := h
  rw [hj, follow, hn]
  cases node with
  | file size => rfl
  | dir names => rfl
  | link target => exact absurd rfl (hl target)

theorem resolve_link {name : Name} {rest : List (Component Name)} {target : Target Name}
    (h : fs.node (place ++ [name]) = some (.link target)) :
    fs.resolve (budget + 1) place (.normal name :: rest) =
      fs.resolve budget (if target.absolute then [] else place) (target.components ++ rest) := by
  rw [resolve, follow, h]

theorem resolve_place (h : fs.Real place) :
    fs.resolve budget [] (place.map .normal) = some (budget, place) := by
  induction place using List.reverseRecOn with
  | nil => exact resolve_nil
  | append_singleton place name ih =>
    have hs : (fs.node (place ++ [name])).isSome := by
      obtain ⟨node, hn, -⟩ := h
      rw [hn, Option.isSome_some]
    obtain ⟨names, hdir⟩ := fs.contained hs
    rw [List.map_append, resolve_append, ih (.of_dir hdir), Option.bind_some, List.map_singleton,
      resolve_normal h, resolve_nil]

end FileSystem
end Ptpsim.FileTree
