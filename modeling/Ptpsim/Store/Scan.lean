/-
# Scanning a card

The store walks the card from its root and gives every path it collects a
handle, in the order of the paths. A symbolic link that leads to a directory
inside the root is entered like a directory, and no directory is remembered.
What ends the walk on a card with a link to one of its own directories is the
operating system, which passes only so many links on one path and takes no path
beyond a length. The first makes `canonicalize` fail, and the link is skipped;
the second makes `symlink_metadata` fail, and the scan with it
(`scan_works_iff`).
-/
import Mathlib.Data.List.Lex
import Mathlib.Data.List.Sort
import Mathlib.Order.Fin.Basic
import Mathlib.Order.Interval.Finset.Nat
import Ptpsim.Core.Codes
import Ptpsim.Lib.Fallible
import Ptpsim.Lib.FileTree
import Ptpsim.Store.MediaStore

namespace Ptpsim.Store

open Ptpsim.Core Fallible FileTree List Option

/-- The bytes of a name. -/
abbrev OsStr := List (Fin 256)

/-- The names of an absolute path. -/
abbrev PathBuf := List OsStr

/-- The bytes of a path, with a slash in front of every name. -/
def pathLen (path : PathBuf) : ℕ := max 1 (path.map fun name => name.length + 1).sum

/-- An opened store, on a system that passes `maxLinks` links on a path and
takes paths of `maxPath` bytes. -/
structure Card where
  fs : FileSystem OsStr
  maxLinks : ℕ
  maxPath : ℕ
  root : PathBuf
  rootDir : ∃ names, fs.node root = some (.dir names)
  rootLen : pathLen root ≤ maxPath
  named : ∀ {place name}, (fs.node (place ++ [name])).isSome → name ≠ []

inductive ScanError where
  | io
  /-- The walk went deeper than it was followed. -/
  | unfinished
deriving DecidableEq

/-- What `Metadata` is asked for. -/
inductive Metadata where
  | dir
  | file (len : UInt64)
deriving DecidableEq

/-- An element of `paths`. -/
structure Found where
  path : PathBuf
  isDir : Bool
  size : UInt64
deriving DecidableEq

/-- `metadata` follows links, so that a node it finds is none. -/
def Metadata.ofNode : Node OsStr → Option Metadata
  | .dir _ => some dir
  | .file len => some (file len)
  | .link _ => none

def Metadata.found (path : PathBuf) : Metadata → Found
  | dir => ⟨path, true, 0⟩
  | file len => ⟨path, false, len⟩

theorem Metadata.found_path (shown : Metadata) {path : PathBuf} :
    (shown.found path).path = path := by
  cases shown <;> rfl

namespace Card

variable (card : Card)

/-! ### The system calls -/

variable (path : PathBuf)

def canonicalize : Option PathBuf :=
  (card.fs.resolve card.maxLinks [] (path.map .normal)).map Prod.snd

/-- The node of a path; a link in its last place is not followed. -/
def symlinkMetadata : Option (Node OsStr) :=
  if pathLen path ≤ card.maxPath then do
    let dir ← card.canonicalize path.dropLast
    let name ← path.getLast?
    card.fs.node (dir ++ [name])
  else none

/-- The node a path leads to. -/
def stat : Option (Node OsStr) :=
  if pathLen path ≤ card.maxPath then (card.canonicalize path).bind card.fs.node else none

def metadata : Option Metadata := (card.stat path).bind Metadata.ofNode

def readDir : Option (List OsStr) :=
  match card.stat path with
  | some (.dir names) => some names
  | _ => none

/-! ### The walk -/

def realMeta (real : PathBuf) : Except ScanError (Option Metadata) :=
  match card.metadata real with
  | none => .error .io
  | some shown => .ok (some shown)

/-- What an entry is shown as, nothing for a link that is skipped. -/
def inspect : Except ScanError (Option Metadata) :=
  match card.symlinkMetadata path with
  | none => .error .io
  | some (.link _) =>
    match card.canonicalize path with
    | some target => if card.root <+: target then card.realMeta target else .ok none
    | none => .ok none
  | some _ => card.realMeta path

/-- One round of the loop over a directory: what is collected at a path, with
what is collected below it. -/
def collectAt (below : PathBuf → Except ScanError (List Found)) (path : PathBuf) :
    Except ScanError (List Found) := do
  match ← card.inspect path with
  | none => return []
  | some .dir => return ⟨path, true, 0⟩ :: (← below path)
  | some (.file len) => return [⟨path, false, len⟩]

/-- The paths below a directory. The system lists the names of a directory in
some order, and the walk is followed `fuel` directories deep. -/
def collect (order : PathBuf → List OsStr → List OsStr) :
    ℕ → PathBuf → Except ScanError (List Found)
  | 0, _ => .error .unfinished
  | fuel + 1, dir =>
    match card.readDir dir with
    | none => .error .io
    | some names => do
      let pieces ← (order dir names).mapM fun name =>
        card.collectAt (collect order fuel) (dir ++ [name])
      return pieces.flatten

end Card

/-! ### Handles -/

/-- What follows the last dot of a name that has something in front of it. -/
def extension (name : OsStr) : Option OsStr :=
  match name.reverse.span (· ≠ 0x2e) with
  | (_, []) => none
  | (_, [_]) => none
  | (ext, _) => some ext.reverse

def toAsciiLower (b : Fin 256) : Fin 256 := if 0x41 ≤ b ∧ b ≤ 0x5a then b + 0x20 else b

def asciiName (text : String) : OsStr := text.toList.map fun c => Fin.ofNat 256 c.toNat

def formatOf (path : PathBuf) : UInt16 :=
  match (path.getLast?.bind extension).map fun ext => ext.map toAsciiLower with
  | none => Format.undefined
  | some ext =>
    if ext = asciiName "jpg" ∨ ext = asciiName "jpeg" then Format.exifJpeg
    else if ext = asciiName "raf" then Fmt.raf
    else if ext = asciiName "mov" then Fmt.mov
    else if ext = asciiName "heif" ∨ ext = asciiName "heic" then Fmt.heif
    else Format.undefined

/-- An entry of the store, with the path as the system has it. -/
structure ScanEntry where
  handle : UInt32
  path : PathBuf
  parent : UInt32
  isDir : Bool
  size : UInt64
  format : UInt16
deriving DecidableEq

/-- The entry that the engine reads, with the names as `text` shows them. -/
def ScanEntry.toEntry (text : OsStr → String) (e : ScanEntry) : Entry :=
  ⟨e.handle, e.path.map text, e.parent, e.isDir, e.size, e.format⟩

/-- The objects of a card and their bytes. -/
structure ScanSummary where
  objects : ℕ
  bytes : UInt64
deriving DecidableEq

variable (paths : List Found)

/-- `paths.sort_by(|a, b| a.0.cmp(&b.0))` -/
def sortPaths : List Found :=
  paths.mergeSort fun a b => decide (a.path ≤ b.path)

/-- Insert the elements of a list into a map, one after the other. -/
def insertAll {α κ β : Type} [DecidableEq κ] (key : α → κ) (value : α → β) (as : List α) :
    κ → Option β :=
  as.foldl (fun map a => Function.update map (key a) (some (value a))) fun _ => none

/-- The handle of each path: its place in the list, as a `u32`, and one. -/
def handleOf : PathBuf → Option UInt32 :=
  insertAll (fun p => p.1.path) (fun p => UInt32.ofNat p.2 + 1) paths.zipIdx

def entryOf (found : Found) : ScanEntry where
  handle := (handleOf paths found.path).getD 0
  path := found.path
  parent := (handleOf paths found.path.dropLast).getD 0
  isDir := found.isDir
  size := found.size
  format := if found.isDir then Format.association else formatOf found.path

/-- The store's entries by handle. -/
abbrev ByHandle := UInt32 → Option ScanEntry

def byHandle : ByHandle :=
  insertAll ScanEntry.handle id (paths.map (entryOf paths))

/-- What a scan reports. The sum is that of a release build, and wraps around. -/
def summaryOf : ScanSummary where
  objects := paths.length
  bytes := paths.foldl (fun total found => if found.isDir then total else total + found.size) 0

def Card.scan (card : Card) (order : PathBuf → List OsStr → List OsStr) (fuel : ℕ) :
    Except ScanError (ScanSummary × ByHandle) := do
  let paths ← card.collect order fuel card.root
  let paths := sortPaths paths
  return (summaryOf paths, byHandle paths)

namespace Card

variable (card : Card)

/-! ### What there is to collect -/

variable (path : PathBuf)

/-- What a path is shown as: nothing, unless it leads to a place inside the
root. -/
def shown : Option Metadata := do
  let target ← card.canonicalize path
  if card.root <+: target then (card.fs.node target).bind Metadata.ofNode else none

/-- The names in the directory a path leads to. -/
def children : List OsStr :=
  match (card.canonicalize path).bind card.fs.node with
  | some (.dir names) => names
  | _ => []

/-- The paths that lead from the root through directories and links to
directories, as far as links are passed. -/
inductive Visited : PathBuf → Prop
  | atTop {name : OsStr} : name ∈ card.children card.root → Visited (card.root ++ [name])
  | inDir {path : PathBuf} {name : OsStr} : Visited path → card.shown path = some .dir →
      name ∈ card.children path → Visited (path ++ [name])

/-- The paths that are collected. -/
def Collected : Prop := card.Visited path ∧ (card.shown path).isSome

/-- The directories that are read. -/
structure Entered (path : PathBuf) : Prop where
  met : path = card.root ∨ card.Visited path
  isDir : card.shown path = some .dir

/-- The handles count from 1 and stand for the collected paths, one each. An
entry's parent is the handle of its directory, or 0 at the top, and it leads to
a place inside the root. The engine's media store has the entries at their
handles. -/
structure Scanned (store : ByHandle) : Prop where
  numbered : ∃ n < 2 ^ 32, ∀ handle, (store handle).isSome ↔ 1 ≤ handle.toNat ∧ handle.toNat ≤ n
  collected : ∀ path, card.Collected path ↔
    ∃ handle entry, store handle = some entry ∧ entry.path = path
  injective : ∀ {handle handle' entry entry'}, store handle = some entry →
    store handle' = some entry' → entry.path = entry'.path → handle = handle'
  parent : ∀ {handle entry}, store handle = some entry →
    (entry.path.dropLast = card.root ∧ entry.parent = 0) ∨
    ∃ dir, store entry.parent = some dir ∧ dir.path = entry.path.dropLast ∧ dir.isDir = true ∧
      entry.parent < handle
  inside : ∀ {handle entry}, store handle = some entry →
    ∃ target, card.canonicalize entry.path = some target ∧ card.root <+: target
  served : ∀ (text : OsStr → String) (raf : Path → Except MediaError ByteSource),
    ∃ s : MediaStore, s.rafThumbnail = raf ∧ ∀ handle, s.entry handle =
      ((store handle).map (ScanEntry.toEntry text)).elim (.error (.unknownHandle handle)) .ok

/-- The system lists the names of a directory, in some order. -/
def Lists (order : PathBuf → List OsStr → List OsStr) : Prop :=
  ∀ dir names, (order dir names).Perm names

/-- Whatever the order of the listings, the scan ends, and with the same
store. -/
def ScanWorks : Prop :=
  ∃ summary store, card.Scanned store ∧ ∀ order, Lists order → ∀ fuel, card.maxPath < fuel →
    card.scan order fuel = .ok (summary, store)

/-- The paths of the card are short enough for the system, and there are not
more of them than handles. -/
structure Fits : Prop where
  short : ∀ {path}, card.Visited path → pathLen path ≤ card.maxPath
  few : ∀ paths : List PathBuf, paths.Nodup → (∀ path ∈ paths, card.Collected path) →
    paths.length < 2 ^ 32

variable {card}

/-! ### Places -/

variable {name : OsStr}

theorem pathLen_lt (path : PathBuf) (h : name ≠ []) : pathLen path < pathLen (path ++ [name]) := by
  have hpos : 0 < name.length := length_pos_iff.mpr h
  simp only [pathLen, map_append, map_singleton, sum_append, sum_singleton]
  omega

variable {path target place dir : PathBuf} {out : List Found}

theorem canonicalize_real (h : card.canonicalize path = some target) : card.fs.Real target := by
  obtain ⟨r, hr, rfl⟩ := map_eq_some_iff.mp h
  obtain ⟨names, htop⟩ := card.fs.top
  exact FileSystem.resolve_real (.of_dir htop) hr

theorem canonicalize_place (h : card.fs.Real place) : card.canonicalize place = some place := by
  rw [canonicalize, FileSystem.resolve_place h, map_some]

theorem canonicalize_append (h : card.canonicalize path = some dir)
    (hre : card.fs.Real (dir ++ [name])) :
    card.canonicalize (path ++ [name]) = some (dir ++ [name]) := by
  obtain ⟨r, hr, rfl⟩ := map_eq_some_iff.mp h
  rw [canonicalize, map_append, FileSystem.resolve_append, hr, bind_some,
    map_singleton, FileSystem.resolve_normal hre, FileSystem.resolve_nil, map_some]

theorem shown_dir (h : card.shown path = some .dir) :
    ∃ dir names, card.canonicalize path = some dir ∧ card.root <+: dir ∧
      card.fs.node dir = some (.dir names) ∧ card.children path = names := by
  obtain ⟨dir, hdir, h⟩ := bind_eq_some_iff.mp h
  split at h
  · next hi =>
    obtain ⟨node, hn, hm⟩ := bind_eq_some_iff.mp h
    cases node with
    | file len => cases hm
    | link target => cases hm
    | dir names =>
      refine ⟨dir, names, hdir, hi, hn, ?_⟩
      rw [children, hdir, bind_some, hn]
  · cases h

theorem shown_place {names : List OsStr} (hdir : card.fs.node place = some (.dir names))
    (hi : card.root <+: place) :
    card.shown place = some .dir ∧ card.children place = names := by
  have hp := canonicalize_place (.of_dir hdir)
  rw [shown, children, hp]
  simp [hdir, hi, Metadata.ofNode]

theorem entered_root : card.Entered card.root := by
  obtain ⟨names, hdir⟩ := card.rootDir
  exact ⟨.inl rfl, (shown_place hdir (prefix_refl _)).1⟩

theorem Entered.visited (h : card.Entered path) (hn : name ∈ card.children path) :
    card.Visited (path ++ [name]) := by
  obtain ⟨rfl | hmet, hdir⟩ := h
  · exact .atTop hn
  · exact .inDir hmet hdir hn

theorem name_ne_nil (h : card.Entered path) (hn : name ∈ card.children path) : name ≠ [] := by
  obtain ⟨place, names, -, -, hno, hc⟩ := shown_dir h.isDir
  rw [hc] at hn
  exact card.named ((card.fs.listed hno name).mp hn)

/-- What is at a place inside the root is met under its own path. -/
theorem met_place (hr : card.fs.Real place) (hi : card.root <+: place) :
    place = card.root ∨ card.Visited place := by
  obtain ⟨rest, rfl⟩ := hi
  induction rest using List.reverseRecOn with
  | nil => exact .inl (append_nil _)
  | append_singleton rest name ih =>
    rw [← append_assoc] at hr ⊢
    obtain ⟨node, hn, -⟩ := hr
    have hs : (card.fs.node (card.root ++ rest ++ [name])).isSome := by
      rw [hn, isSome_some]
    obtain ⟨names, hdir⟩ := card.fs.contained hs
    obtain ⟨hsh, hc⟩ := shown_place hdir (prefix_append _ _)
    refine .inr (Entered.visited ⟨ih (.of_dir hdir), hsh⟩ ?_)
    rw [hc]
    exact (card.fs.listed hdir name).mpr hs

/-! ### One entry -/

theorem shown_of_inside (h : card.canonicalize path = some target) (hi : card.root <+: target) :
    card.shown path = (card.fs.node target).bind Metadata.ofNode := by
  rw [shown, h]
  exact if_pos hi

theorem shown_of_outside (h : card.canonicalize path = some target)
    (hi : ¬card.root <+: target) : card.shown path = none := by
  rw [shown, h]
  exact if_neg hi

theorem ofNode_real {node : Node OsStr} (h : ∀ target, node ≠ .link target) :
    ∃ shown, Metadata.ofNode node = some shown := by
  cases node with
  | file len => exact ⟨_, rfl⟩
  | dir names => exact ⟨_, rfl⟩
  | link target => exact absurd rfl (h target)

theorem realMeta_of_inside (h : card.canonicalize path = some target) (hi : card.root <+: target) :
    card.realMeta path =
      if pathLen path ≤ card.maxPath then .ok (card.shown path) else .error .io := by
  obtain ⟨node, hn, hl⟩ := canonicalize_real h
  obtain ⟨shown, hs⟩ := ofNode_real hl
  rw [shown_of_inside h hi, hn, bind_some, hs, realMeta, metadata, stat]
  by_cases hlen : pathLen path ≤ card.maxPath
  · rw [if_pos hlen, if_pos hlen, h, bind_some, hn, bind_some, hs]
  · rw [if_neg hlen, if_neg hlen]
    rfl

theorem symlinkMetadata_entry (h : card.canonicalize path = some dir) (name : OsStr) :
    card.symlinkMetadata (path ++ [name]) =
      if pathLen (path ++ [name]) ≤ card.maxPath then card.fs.node (dir ++ [name]) else none := by
  rw [symlinkMetadata, dropLast_concat, List.getLast?_concat, h]
  rfl

/-- An entry is shown as what its path leads to inside the root, unless its
path or that of the place it leads to is too long. -/
theorem inspect_eq (hp : card.shown path = some .dir) (hn : name ∈ card.children path) :
    (pathLen (path ++ [name]) ≤ card.maxPath ∧
      card.inspect (path ++ [name]) = .ok (card.shown (path ++ [name]))) ∨
    (card.inspect (path ++ [name]) = .error .io ∧
      (card.maxPath < pathLen (path ++ [name]) ∨
        ∃ target, card.fs.Real target ∧ card.root <+: target ∧ card.maxPath < pathLen target)) := by
  obtain ⟨dir, names, hdir, hins, hno, hc⟩ := shown_dir hp
  rw [hc] at hn
  obtain ⟨node, he⟩ := isSome_iff_exists.mp ((card.fs.listed hno name).mp hn)
  have hm := symlinkMetadata_entry hdir name
  by_cases hlen : pathLen (path ++ [name]) ≤ card.maxPath
  · rw [if_pos hlen, he] at hm
    by_cases hl : ∃ target, node = .link target
    · obtain ⟨link, rfl⟩ := hl
      rcases hta : card.canonicalize (path ++ [name]) with _ | target
      · refine .inl ⟨hlen, ?_⟩
        rw [inspect, hm, shown, hta]
        rfl
      · by_cases hin : card.root <+: target
        · have hr := canonicalize_real hta
          have hs := canonicalize_place hr
          have hi : card.inspect (path ++ [name]) = card.realMeta target := by
            rw [inspect, hm]
            rw [hta]
            exact if_pos hin
          rw [hi, realMeta_of_inside hs hin, shown_of_inside hs hin, shown_of_inside hta hin]
          by_cases hlo : pathLen target ≤ card.maxPath
          · exact .inl ⟨hlen, if_pos hlo⟩
          · exact .inr ⟨if_neg hlo, .inr ⟨target, hr, hin, not_le.mp hlo⟩⟩
        · refine .inl ⟨hlen, ?_⟩
          rw [inspect, hm, shown_of_outside hta hin]
          rw [hta]
          exact if_neg hin
    · have hr : card.fs.Real (dir ++ [name]) := ⟨node, he, fun t ht => hl ⟨t, ht⟩⟩
      have hs := canonicalize_append hdir hr
      have hi : card.inspect (path ++ [name]) = card.realMeta (path ++ [name]) := by
        rw [inspect, hm]
        cases node with
        | file len => rfl
        | dir names => rfl
        | link target => exact absurd ⟨target, rfl⟩ hl
      rw [hi, realMeta_of_inside hs (hins.trans (prefix_append _ _)), if_pos hlen]
      exact .inl ⟨hlen, rfl⟩
  · rw [if_neg hlen] at hm
    refine .inr ⟨?_, .inl (not_le.mp hlen)⟩
    rw [inspect, hm]

theorem inspect_ok {shown : Option Metadata} (hp : card.shown path = some .dir)
    (hn : name ∈ card.children path) (h : card.inspect (path ++ [name]) = .ok shown) :
    pathLen (path ++ [name]) ≤ card.maxPath ∧ card.shown (path ++ [name]) = shown := by
  rcases inspect_eq hp hn with ⟨hlen, hs⟩ | ⟨he, -⟩
  · rw [hs] at h
    exact ⟨hlen, Except.ok.inj h⟩
  · rw [he] at h
    cases h

theorem collectAt_ok {below : PathBuf → Except ScanError (List Found)}
    (h : card.collectAt below path = .ok out) :
    (card.inspect path = .ok none ∧ out = []) ∨
    ∃ shown inner, card.inspect path = .ok (some shown) ∧ out = shown.found path :: inner ∧
      (inner = [] ∧ shown ≠ .dir ∨ below path = .ok inner ∧ shown = .dir) := by
  obtain ⟨shown, hs, h⟩ := bind_eq_ok_iff.mp h
  rw [hs]
  rcases shown with _ | _ | len
  · exact .inl ⟨rfl, (Except.ok.inj h).symm⟩
  · obtain ⟨inner, hi, h⟩ := bind_eq_ok_iff.mp h
    exact .inr ⟨_, inner, rfl, (Except.ok.inj h).symm, .inr ⟨hi, rfl⟩⟩
  · exact .inr ⟨_, [], rfl, (Except.ok.inj h).symm, .inl ⟨rfl, Metadata.noConfusion⟩⟩

theorem readDir_entered (h : card.shown dir = some .dir) :
    card.readDir dir = if pathLen dir ≤ card.maxPath then some (card.children dir) else none := by
  obtain ⟨place, names, hp, -, hn, hc⟩ := shown_dir h
  rw [readDir, stat, hc]
  by_cases hlen : pathLen dir ≤ card.maxPath
  · rw [if_pos hlen, if_pos hlen, hp, bind_some, hn]
  · rw [if_neg hlen, if_neg hlen]

/-! ### The walk -/

variable {order : PathBuf → List OsStr → List OsStr}

theorem collect_ok {fuel : ℕ} (hdir : card.shown dir = some .dir)
    (h : card.collect order fuel dir = .ok out) :
    ∃ fuel' pieces, fuel = fuel' + 1 ∧ out = pieces.flatten ∧
      List.Forall₂ (fun name piece => card.collectAt (card.collect order fuel') (dir ++ [name]) =
        .ok piece) (order dir (card.children dir)) pieces := by
  cases fuel with
  | zero => cases h
  | succ fuel =>
    rw [collect, readDir_entered hdir] at h
    by_cases hlen : pathLen dir ≤ card.maxPath
    · rw [if_pos hlen] at h
      obtain ⟨pieces, hp, h⟩ := bind_eq_ok_iff.mp h
      exact ⟨fuel, pieces, rfl, (Except.ok.inj h).symm, mapM_eq_ok_iff.mp hp⟩
    · rw [if_neg hlen] at h
      cases h

/-- What was collected below a path that begins with `front`. -/
structure FoundBelow (card : Card) (front : PathBuf) (found : Found) : Prop where
  visited : card.Visited found.path
  shown : ∃ shown, card.shown found.path = some shown ∧ found = shown.found found.path
  below : front <+: found.path

theorem FoundBelow.mono {front front' : PathBuf} {found : Found} (h : card.FoundBelow front found)
    (hf : front' <+: front) : card.FoundBelow front' found :=
  ⟨h.visited, h.shown, hf.trans h.below⟩

theorem foundBelow_found {shown : Metadata} (hv : card.Visited path)
    (hs : card.shown path = some shown) : card.FoundBelow path (shown.found path) := by
  refine ⟨?_, ⟨shown, ?_, ?_⟩, ?_⟩
  all_goals rw [shown.found_path]
  · exact hv
  · exact hs

section Collect

variable (horder : Lists order)
include horder

variable {dir : PathBuf} {out : List Found} {fuel : ℕ}

theorem mem_order {name : OsStr} :
    name ∈ order dir (card.children dir) ↔ name ∈ card.children dir :=
  (horder dir _).mem_iff

theorem nodup_order (hdir : card.Entered dir) : (order dir (card.children dir)).Nodup := by
  obtain ⟨place, names, -, -, hn, hc⟩ := shown_dir hdir.isDir
  rw [(horder dir _).nodup_iff, hc]
  exact card.fs.nodup hn

/-- What is collected was visited and is shown, each path once. -/
theorem collect_sound (hdir : card.Entered dir) (h : card.collect order fuel dir = .ok out) :
    (∀ found ∈ out, ∃ name, card.FoundBelow (dir ++ [name]) found) ∧
      (out.map Found.path).Nodup := by
  induction fuel generalizing dir out with
  | zero => cases h
  | succ fuel ih =>
    obtain ⟨fuel', pieces, hfu, rfl, hpi⟩ := collect_ok hdir.isDir h
    obtain rfl : fuel = fuel' := Nat.succ_inj.mp hfu
    have hp : ∀ {name piece}, name ∈ card.children dir →
        card.collectAt (card.collect order fuel) (dir ++ [name]) = .ok piece →
        (∀ found ∈ piece, card.FoundBelow (dir ++ [name]) found) ∧
          (piece.map Found.path).Nodup := by
      intro name piece hn hp
      have hv := hdir.visited hn
      rcases collectAt_ok hp with ⟨-, rfl⟩ | ⟨shown, inner, hi, rfl, hin⟩
      · exact ⟨by simp, by simp⟩
      have hs := (inspect_ok hdir.isDir hn hi).2
      obtain ⟨hf, hnodup⟩ : (∀ found ∈ inner, ∃ name', card.FoundBelow (dir ++ [name] ++ [name'])
          found) ∧ (inner.map Found.path).Nodup := by
        rcases hin with ⟨rfl, -⟩ | ⟨hin, rfl⟩
        · simp
        · exact ih ⟨.inr hv, hs⟩ hin
      constructor
      · intro found hmem
        rcases mem_cons.mp hmem with rfl | hmem
        · exact foundBelow_found hv hs
        · obtain ⟨name', hb⟩ := hf found hmem
          exact hb.mono (prefix_append _ _)
      · refine nodup_cons.mpr ⟨fun hmem => ?_, hnodup⟩
        obtain ⟨found, hmem, hpa⟩ := mem_map.mp hmem
        obtain ⟨name', hb⟩ := hf found hmem
        have hl := hb.below.length_le
        rw [hpa, shown.found_path] at hl
        simp at hl
    constructor
    · intro found hmem
      obtain ⟨piece, hmem, hf⟩ := mem_flatten.mp hmem
      obtain ⟨name, hn, hok⟩ := exists_round hpi hmem
      exact ⟨name, (hp ((mem_order horder).mp hn) hok).1 found hf⟩
    · rw [map_flatten, nodup_flatten]
      constructor
      · intro paths hmem
        obtain ⟨piece, hpie, rfl⟩ := mem_map.mp hmem
        obtain ⟨name, hn, hok⟩ := exists_round hpi hpie
        exact (hp ((mem_order horder).mp hn) hok).2
      · refine pairwise_map.mpr (pairwise_returned hpi (nodup_order horder hdir) ?_)
        -- the paths of two pieces differ in the name behind the directory
        intro name name' piece piece' hn hn' hne hok hok' path hmem hmem'
        obtain ⟨found, hf, rfl⟩ := mem_map.mp hmem
        obtain ⟨found', hf', hpa⟩ := mem_map.mp hmem'
        have hb := ((hp ((mem_order horder).mp hn) hok).1 found hf).below
        have hb' := ((hp ((mem_order horder).mp hn') hok').1 found' hf').below
        rw [hpa] at hb'
        have heq := prefix_of_prefix_length_le hb hb' (by simp)
        exact hne (by simpa using heq)

theorem collect_name {name : OsStr} (hdir : card.shown dir = some .dir)
    (hn : name ∈ card.children dir) (h : card.collect order fuel dir = .ok out) :
    pathLen (dir ++ [name]) ≤ card.maxPath ∧
      (∀ shown, card.shown (dir ++ [name]) = some shown → shown.found (dir ++ [name]) ∈ out) ∧
      (card.shown (dir ++ [name]) = some .dir →
        ∃ fuel' inner, card.collect order fuel' (dir ++ [name]) = .ok inner ∧ inner ⊆ out) := by
  obtain ⟨fuel', pieces, rfl, rfl, hp⟩ := collect_ok hdir h
  obtain ⟨piece, hmem, hok⟩ := exists_returned hp ((mem_order horder).mpr hn)
  have hsu : piece ⊆ pieces.flatten := fun found hf => mem_flatten_of_mem hmem hf
  rcases collectAt_ok hok with ⟨hi, -⟩ | ⟨shown, inner, hi, rfl, hin⟩
  · obtain ⟨hlen, hs⟩ := inspect_ok hdir hn hi
    rw [hs]
    exact ⟨hlen, by simp, by simp⟩
  · obtain ⟨hlen, hs⟩ := inspect_ok hdir hn hi
    rw [hs]
    refine ⟨hlen, ?_, ?_⟩
    · rintro shown ⟨⟩
      exact hsu mem_cons_self
    · rintro ⟨⟩
      obtain ⟨-, hd⟩ | ⟨hin, -⟩ := hin
      · exact absurd rfl hd
      · exact ⟨fuel', inner, hin, List.Subset.trans (subset_cons_self _ _) hsu⟩

/-- Every path that is visited was looked at, and collected if it is shown. -/
theorem collect_complete (h : card.collect order fuel card.root = .ok out) {path : PathBuf}
    (hp : card.Visited path) :
    pathLen path ≤ card.maxPath ∧
      (∀ shown, card.shown path = some shown → shown.found path ∈ out) ∧
      (card.shown path = some .dir →
        ∃ fuel' inner, card.collect order fuel' path = .ok inner ∧ inner ⊆ out) := by
  induction hp with
  | atTop hn => exact collect_name horder entered_root.isDir hn h
  | inDir _ hdir hn ih =>
    obtain ⟨fuel', inner, hi, hs⟩ := ih.2.2 hdir
    obtain ⟨hlen, hf, hb⟩ := collect_name horder hdir hn hi
    refine ⟨hlen, fun shown hsh => hs (hf shown hsh), fun hsh => ?_⟩
    obtain ⟨fuel'', inner', hi', hs'⟩ := hb hsh
    exact ⟨fuel'', inner', hi', List.Subset.trans hs' hs⟩

/-- If no path is too long, the walk ends: each directory is one name deeper. -/
theorem collect_succeeds (hs : ∀ {path}, card.Visited path → pathLen path ≤ card.maxPath)
    (hdir : card.Entered dir) (hlen : pathLen dir ≤ card.maxPath)
    (hf : card.maxPath < fuel + pathLen dir) : ∃ out, card.collect order fuel dir = .ok out := by
  induction fuel generalizing dir with
  | zero => omega
  | succ fuel ih =>
    have hro : ∀ name ∈ order dir (card.children dir),
        ∃ piece, card.collectAt (card.collect order fuel) (dir ++ [name]) = .ok piece := by
      intro name hn
      rw [mem_order horder] at hn
      have hv := hdir.visited hn
      have hins : card.inspect (dir ++ [name]) = .ok (card.shown (dir ++ [name])) := by
        rcases inspect_eq hdir.isDir hn with ⟨-, hok⟩ | ⟨-, hl | ⟨target, hr, hin, hl⟩⟩
        · exact hok
        · exact absurd (hs hv) (not_le.mpr hl)
        · rcases met_place hr hin with rfl | hmet
          · exact absurd card.rootLen (not_le.mpr hl)
          · exact absurd (hs hmet) (not_le.mpr hl)
      unfold collectAt
      rw [hins]
      rcases hsh : card.shown (dir ++ [name]) with _ | _ | len
      · exact ⟨[], rfl⟩
      · have hd := pathLen_lt dir (name_ne_nil hdir hn)
        obtain ⟨inner, hi⟩ := ih ⟨.inr hv, hsh⟩ (hs hv) (by omega)
        exact ⟨_, bind_eq_ok_iff.mpr ⟨_, rfl, bind_eq_ok_iff.mpr
          ⟨inner, hi, rfl⟩⟩⟩
      · exact ⟨_, rfl⟩
    obtain ⟨pieces, hp⟩ := exists_mapM_eq_ok hro
    refine ⟨pieces.flatten, ?_⟩
    rw [collect, readDir_entered hdir.isDir, if_pos hlen]
    exact bind_eq_ok_iff.mpr ⟨pieces, hp, rfl⟩

end Collect

/-! ### The paths in order -/

/-- All that there is to collect, in the order of the paths. -/
structure Inventory (card : Card) (paths : List Found) : Prop where
  sorted : paths.Pairwise fun a b => a.path < b.path
  mem_iff : ∀ found, found ∈ paths ↔ card.Visited found.path ∧
    ∃ shown, card.shown found.path = some shown ∧ found = shown.found found.path

theorem inventory_sortPaths (horder : Lists order) {fuel : ℕ}
    (h : card.collect order fuel card.root = .ok out) : card.Inventory (sortPaths out) := by
  obtain ⟨hf, hnodup⟩ := collect_sound horder entered_root h
  have hp : (sortPaths out).Perm out := mergeSort_perm _ _
  constructor
  · have hle : (sortPaths out).Pairwise fun a b => a.path ≤ b.path := by
      have htr : ∀ a b c : Found, decide (a.path ≤ b.path) = true →
          decide (b.path ≤ c.path) = true → decide (a.path ≤ c.path) = true := by
        intro a b c
        simpa only [decide_eq_true_eq] using le_trans
      have ht : ∀ a b : Found, (decide (a.path ≤ b.path) || decide (b.path ≤ a.path)) = true := by
        intro a b
        simpa using le_total a.path b.path
      exact (pairwise_mergeSort htr ht out).imp fun h => of_decide_eq_true h
    have hne : (sortPaths out).Pairwise fun a b => a.path ≠ b.path := by
      rw [← pairwise_map]
      exact (hp.map Found.path).nodup_iff.mpr hnodup
    exact (hle.and hne).imp fun h => lt_of_le_of_ne h.1 h.2
  · intro found
    rw [hp.mem_iff]
    constructor
    · intro hmem
      obtain ⟨name, hb⟩ := hf found hmem
      exact ⟨hb.visited, hb.shown⟩
    · rintro ⟨hv, shown, hs, heq⟩
      rw [heq]
      exact (collect_complete horder h hv).2.1 shown hs

/-- There is one inventory, whatever the order of the listings. -/
theorem Inventory.unique {paths paths' : List Found} (h : card.Inventory paths)
    (h' : card.Inventory paths') : paths = paths' := by
  have hnodup : ∀ {paths : List Found}, card.Inventory paths → paths.Nodup := by
    intro paths h
    exact h.sorted.imp fun hlt heq => absurd (heq ▸ hlt) (lt_irrefl _)
  have hp : paths.Perm paths' := by
    rw [perm_ext_iff_of_nodup (hnodup h) (hnodup h')]
    intro found
    rw [h.mem_iff, h'.mem_iff]
  refine List.Perm.eq_of_pairwise ?_ h.sorted h'.sorted hp
  intro a b _ _ hab hba
  exact absurd hab (lt_asymm hba)

theorem Visited.longer (h : card.Visited path) : card.root.length < path.length := by
  induction h with
  | atTop _ => simp
  | inDir _ _ _ ih =>
    rw [length_append, length_singleton]
    omega

end Card

/-! ### Handles -/

section InsertAll

variable {α κ β : Type} [DecidableEq κ] {key : α → κ} {value : α → β} {as : List α} {k : κ}

theorem foldl_insert_of_notMem (h : k ∉ as.map key) (map : κ → Option β) :
    as.foldl (fun map a => Function.update map (key a) (some (value a))) map k = map k := by
  induction as generalizing map with
  | nil => rfl
  | cons a as ih =>
    rw [map_cons, mem_cons, not_or] at h
    rw [foldl_cons, ih h.2, Function.update_of_ne h.1]

theorem insertAll_of_notMem (h : k ∉ as.map key) : insertAll key value as k = none :=
  foldl_insert_of_notMem h _

theorem insertAll_of_mem (hnodup : (as.map key).Nodup) {a : α} (ha : a ∈ as) :
    insertAll key value as (key a) = some (value a) := by
  have hf : ∀ map : κ → Option β,
      as.foldl (fun map a => Function.update map (key a) (some (value a))) map (key a) =
        some (value a) := by
    induction as with
    | nil => cases ha
    | cons a' as ih =>
      intro map
      rw [map_cons, nodup_cons] at hnodup
      rw [foldl_cons]
      rcases mem_cons.mp ha with rfl | ha
      · rw [foldl_insert_of_notMem hnodup.1, Function.update_self]
      · exact ih hnodup.2 ha _
  exact hf _

theorem exists_of_insertAll (hnodup : (as.map key).Nodup) {b : β}
    (h : insertAll key value as k = some b) : ∃ a ∈ as, key a = k ∧ value a = b := by
  by_cases hk : k ∈ as.map key
  · obtain ⟨a, ha, rfl⟩ := mem_map.mp hk
    rw [insertAll_of_mem hnodup ha] at h
    exact ⟨a, ha, rfl, Option.some.inj h⟩
  · rw [insertAll_of_notMem hk] at h
    cases h

end InsertAll

section Numbering

variable {paths : List Found} (hnodup : (paths.map Found.path).Nodup)

theorem map_path_zipIdx (paths : List Found) :
    (paths.zipIdx.map fun p => p.1.path) = paths.map Found.path := by
  have hc : (fun p : Found × ℕ => p.1.path) = Found.path ∘ Prod.fst := rfl
  rw [hc, ← List.map_map, List.zipIdx_map_fst]

theorem handleOf_of_notMem {path : PathBuf} (h : path ∉ paths.map Found.path) :
    handleOf paths path = none := by
  refine insertAll_of_notMem ?_
  rw [map_path_zipIdx]
  exact h

include hnodup

variable {i : ℕ}

theorem handleOf_getElem? {found : Found} (h : paths[i]? = some found) :
    handleOf paths found.path = some (UInt32.ofNat i + 1) := by
  have hk : (paths.zipIdx.map fun p => p.1.path).Nodup := by
    rw [map_path_zipIdx]
    exact hnodup
  have hmem : (found, i) ∈ paths.zipIdx := mem_zipIdx_iff_getElem?.mpr h
  exact insertAll_of_mem hk hmem

omit hnodup in
theorem toNat_handle (h : i + 1 < 2 ^ 32) : (UInt32.ofNat i + 1).toNat = i + 1 := by
  rw [UInt32.toNat_add, UInt32.toNat_ofNat_of_lt' (by rw [UInt32.size]; omega)]
  exact Nat.mod_eq_of_lt h

variable (hcount : paths.length < 2 ^ 32)
include hcount

theorem entryOf_handle {found : Found} (h : paths[i]? = some found) :
    (entryOf paths found).handle.toNat = i + 1 := by
  have hi : i < paths.length := (List.getElem?_eq_some_iff.mp h).1
  rw [entryOf, handleOf_getElem? hnodup h, getD_some]
  exact toNat_handle (by omega)

theorem nodup_entries : ((paths.map (entryOf paths)).map ScanEntry.handle).Nodup := by
  rw [List.map_map]
  refine List.Nodup.map_on ?_ hnodup.of_map
  intro found hmem found' hmem' heq
  obtain ⟨i, hi⟩ := mem_iff_getElem?.mp hmem
  obtain ⟨j, hj⟩ := mem_iff_getElem?.mp hmem'
  have hn : i + 1 = j + 1 := by
    rw [← entryOf_handle hnodup hcount hi, ← entryOf_handle hnodup hcount hj]
    exact congrArg UInt32.toNat heq
  rw [Nat.succ_inj.mp hn, hj] at hi
  exact (Option.some.inj hi).symm

/-- The entries are at the numbers of their paths. -/
theorem byHandle_iff {handle : UInt32} {entry : ScanEntry} :
    byHandle paths handle = some entry ↔
      ∃ i found, paths[i]? = some found ∧ handle.toNat = i + 1 ∧ entry = entryOf paths found := by
  have hk := nodup_entries hnodup hcount
  constructor
  · intro h
    obtain ⟨entry', he, rfl, rfl⟩ := exists_of_insertAll hk h
    obtain ⟨found, hf, rfl⟩ := mem_map.mp he
    obtain ⟨i, hi⟩ := mem_iff_getElem?.mp hf
    exact ⟨i, found, hi, entryOf_handle hnodup hcount hi, rfl⟩
  · rintro ⟨i, found, hi, hh, rfl⟩
    have hmem : entryOf paths found ∈ paths.map (entryOf paths) :=
      mem_map_of_mem (mem_of_getElem? hi)
    have heq : handle = (entryOf paths found).handle :=
      UInt32.toNat.inj (hh.trans (entryOf_handle hnodup hcount hi).symm)
    rw [heq]
    exact insertAll_of_mem hk hmem

/-- The store that the engine reads. -/
def mediaStore (text : OsStr → String) (raf : Path → Except MediaError ByteSource) :
    MediaStore where
  entries := paths.map fun found => (entryOf paths found).toEntry text
  rafThumbnail := raf
  ordered := by
    rw [List.map_map, pairwise_map, pairwise_iff_getElem]
    intro i j hi hj hij
    have hn := entryOf_handle hnodup hcount (List.getElem?_eq_getElem hi)
    have hn' := entryOf_handle hnodup hcount (List.getElem?_eq_getElem hj)
    exact UInt32.lt_iff_toNat_lt.mpr (hn ▸ hn' ▸ Nat.succ_lt_succ hij)

theorem entry_mediaStore {text : OsStr → String} {raf : Path → Except MediaError ByteSource}
    (handle : UInt32) : (mediaStore hnodup hcount text raf).entry handle =
      ((byHandle paths handle).map (ScanEntry.toEntry text)).elim
        (.error (.unknownHandle handle)) .ok := by
  cases hb : byHandle paths handle with
  | some entry =>
    obtain ⟨i, found, hi, hh, rfl⟩ := (byHandle_iff hnodup hcount).mp hb
    have hn := entryOf_handle hnodup hcount hi
    rw [UInt32.toNat.inj (hh.trans hn.symm)]
    have hmem : (entryOf paths found).toEntry text ∈
        (mediaStore hnodup hcount text raf).entries := mem_map_of_mem (mem_of_getElem? hi)
    exact MediaStore.entry_of_mem hmem
  | none =>
    refine MediaStore.entry_of_not_mem fun hmem => ?_
    rw [MediaStore.handles, mediaStore, List.map_map] at hmem
    obtain ⟨found, hf, rfl⟩ := mem_map.mp hmem
    obtain ⟨i, hi⟩ := mem_iff_getElem?.mp hf
    have hs := (byHandle_iff hnodup hcount).mpr
      ⟨i, found, hi, entryOf_handle hnodup hcount hi, rfl⟩
    cases hb.symm.trans hs

end Numbering

namespace Card

variable {card : Card} {paths : List Found}

theorem Inventory.nodup (h : card.Inventory paths) : (paths.map Found.path).Nodup :=
  pairwise_map.mpr (h.sorted.imp fun hlt => ne_of_lt hlt)

theorem Inventory.collected_iff (h : card.Inventory paths) {path : PathBuf} :
    card.Collected path ↔ ∃ found ∈ paths, found.path = path := by
  constructor
  · rintro ⟨hv, hso⟩
    obtain ⟨shown, hs⟩ := isSome_iff_exists.mp hso
    refine ⟨shown.found path, (h.mem_iff _).mpr ?_, shown.found_path⟩
    rw [shown.found_path]
    exact ⟨hv, shown, hs, rfl⟩
  · rintro ⟨found, hmem, rfl⟩
    obtain ⟨hv, shown, hs, -⟩ := (h.mem_iff _).mp hmem
    exact ⟨hv, by rw [hs, isSome_some]⟩

theorem Inventory.index_lt (h : card.Inventory paths) {i j : ℕ} {found found' : Found}
    (hi : paths[i]? = some found) (hj : paths[j]? = some found') (hlt : found.path < found'.path) :
    i < j := by
  obtain ⟨hil, rfl⟩ := List.getElem?_eq_some_iff.mp hi
  obtain ⟨hjl, rfl⟩ := List.getElem?_eq_some_iff.mp hj
  rcases lt_trichotomy i j with hij | rfl | hji
  · exact hij
  · exact absurd hlt (lt_irrefl _)
  · exact absurd hlt (lt_asymm (pairwise_iff_getElem.mp h.sorted j i hjl hil hji))

/-- The parent is 0 at the top, and otherwise the number of the directory, which
comes before what is in it. -/
theorem Inventory.parent_cases (h : card.Inventory paths) (hcount : paths.length < 2 ^ 32) {i : ℕ}
    {found : Found} (hi : paths[i]? = some found) :
    (found.path.dropLast = card.root ∧ (entryOf paths found).parent = 0) ∨
    ∃ j dir, paths[j]? = some dir ∧ dir.path = found.path.dropLast ∧ dir.isDir = true ∧ j < i ∧
      (entryOf paths found).parent.toNat = j + 1 := by
  obtain ⟨hv, -⟩ := (h.mem_iff _).mp (mem_of_getElem? hi)
  have hp : (entryOf paths found).parent = (handleOf paths found.path.dropLast).getD 0 := rfl
  rw [hp]
  generalize hpa : found.path = path at hv ⊢
  cases hv with
  | atTop hn =>
    rw [dropLast_concat]
    refine .inl ⟨rfl, ?_⟩
    -- the root is not one of the paths below it
    have hr : card.root ∉ paths.map Found.path := by
      intro hmem
      obtain ⟨found', hmem', hr⟩ := mem_map.mp hmem
      have hl := ((h.mem_iff _).mp hmem').1.longer
      rw [hr] at hl
      exact lt_irrefl _ hl
    rw [handleOf_of_notMem hr, getD_none]
  | @inDir dir name hv hdir hn =>
    have hmem : Metadata.dir.found dir ∈ paths := (h.mem_iff _).mpr ⟨hv, .dir, hdir, rfl⟩
    obtain ⟨j, hj⟩ := mem_iff_getElem?.mp hmem
    have hlen := (List.getElem?_eq_some_iff.mp hj).1
    have hnu : handleOf paths dir = some (UInt32.ofNat j + 1) := handleOf_getElem? h.nodup hj
    have hlt : dir < found.path := by
      have hl : dir ++ [] < dir ++ [name] := append_left_lt (by simp)
      rwa [append_nil, ← hpa] at hl
    rw [dropLast_concat, hnu, getD_some]
    exact .inr ⟨j, _, hj, rfl, rfl, h.index_lt hj hi hlt, toNat_handle (by omega)⟩

/-- An inventory that can be numbered makes a store. -/
theorem Inventory.scanned (h : card.Inventory paths) (hcount : paths.length < 2 ^ 32) :
    card.Scanned (byHandle paths) := by
  have hl : ∀ {handle entry}, byHandle paths handle = some entry ↔
      ∃ i found, paths[i]? = some found ∧ handle.toNat = i + 1 ∧ entry = entryOf paths found :=
    byHandle_iff h.nodup hcount
  refine ⟨⟨paths.length, hcount, fun handle => ?_⟩, fun path => ?_, ?_, ?_, ?_,
    fun text raf => ⟨mediaStore h.nodup hcount text raf, rfl, entry_mediaStore h.nodup hcount⟩⟩
  · rw [isSome_iff_exists]
    constructor
    · rintro ⟨entry, he⟩
      obtain ⟨i, found, hi, hh, -⟩ := hl.mp he
      have hlen := (List.getElem?_eq_some_iff.mp hi).1
      omega
    · rintro ⟨hone, hle⟩
      have hlen : handle.toNat - 1 < paths.length := by omega
      exact ⟨_, hl.mpr ⟨_, _, List.getElem?_eq_getElem hlen, by omega, rfl⟩⟩
  · rw [h.collected_iff]
    constructor
    · rintro ⟨found, hmem, rfl⟩
      obtain ⟨i, hi⟩ := mem_iff_getElem?.mp hmem
      exact ⟨(entryOf paths found).handle, _,
        hl.mpr ⟨i, found, hi, entryOf_handle h.nodup hcount hi, rfl⟩, rfl⟩
    · rintro ⟨handle, entry, he, rfl⟩
      obtain ⟨i, found, hi, -, rfl⟩ := hl.mp he
      exact ⟨found, mem_of_getElem? hi, rfl⟩
  · intro handle handle' entry entry' he he' hpa
    obtain ⟨i, found, hi, hh, rfl⟩ := hl.mp he
    obtain ⟨j, found', hj, hh', rfl⟩ := hl.mp he'
    have hs : (paths.map Found.path)[i]? = (paths.map Found.path)[j]? := by
      rw [List.getElem?_map, List.getElem?_map, hi, hj]
      exact congrArg some hpa
    have hlen := (List.getElem?_eq_some_iff.mp hi).1
    have hij : i = j := (List.getElem?_inj (by rwa [length_map]) h.nodup).mp hs
    exact UInt32.toNat.inj (by rw [hh, hh', hij])
  · intro handle entry he
    obtain ⟨i, found, hi, hh, rfl⟩ := hl.mp he
    rcases h.parent_cases hcount hi with htop | ⟨j, dir, hj, hdir, hid, hlt, hp⟩
    · exact .inl htop
    · refine .inr ⟨_, hl.mpr ⟨j, dir, hj, hp, rfl⟩, hdir, hid, ?_⟩
      rw [UInt32.lt_iff_toNat_lt, hp, hh]
      omega
  · intro handle entry he
    obtain ⟨i, found, hi, -, rfl⟩ := hl.mp he
    obtain ⟨-, shown, hsh, -⟩ := (h.mem_iff _).mp (mem_of_getElem? hi)
    obtain ⟨target, ht, hin⟩ := bind_eq_some_iff.mp hsh
    refine ⟨target, ht, ?_⟩
    by_contra hout
    rw [if_neg hout] at hin
    cases hin

/-! ### The scan -/

theorem lists_id : Lists fun _ names => names := fun _ _ => .refl _

theorem Scanned.few {store : ByHandle} (h : card.Scanned store) {paths : List PathBuf}
    (hnodup : paths.Nodup) (hpa : ∀ path ∈ paths, card.Collected path) :
    paths.length < 2 ^ 32 := by
  have hh : ∀ path ∈ paths, ∃ handle, ∃ entry, store handle = some entry ∧ entry.path = path :=
    fun path hmem => (h.collected path).mp (hpa path hmem)
  choose! ha he using hh
  have hnu : (paths.map fun path => (ha path).toNat).Nodup := by
    refine List.Nodup.map_on ?_ hnodup
    intro path hmem path' hmem' heq
    obtain ⟨entry, hs, rfl⟩ := he path hmem
    obtain ⟨entry', hs', rfl⟩ := he path' hmem'
    rw [UInt32.toNat.inj heq, hs'] at hs
    rw [Option.some.inj hs]
  have hr : (paths.map fun path => (ha path).toNat).toFinset ⊆ Finset.Ico 1 (2 ^ 32) := by
    intro number hmem
    obtain ⟨path, hp, rfl⟩ := mem_map.mp (mem_toFinset.mp hmem)
    obtain ⟨entry, hs, -⟩ := he path hp
    obtain ⟨n, -, hn⟩ := h.numbered
    have hone := ((hn (ha path)).mp (by rw [hs, isSome_some])).1
    exact Finset.mem_Ico.mpr ⟨hone, (ha path).toNat_lt⟩
  have hc := Finset.card_le_card hr
  rw [toFinset_card_of_nodup hnu, length_map, Nat.card_Ico] at hc
  omega

/-- **When a scan works.** Whatever the order of the listings, the scan ends
with the handles `1..n` for the collected paths, each below the handle of its
directory, exactly if the paths that links lead along are short enough for the
system and there are fewer of them than handles. -/
theorem scan_works_iff (card : Card) : card.ScanWorks ↔ card.Fits := by
  constructor
  · rintro ⟨summary, store, hsca, hsc⟩
    obtain ⟨out, hout, -⟩ :=
      bind_eq_ok_iff.mp (hsc _ lists_id (card.maxPath + 1) (Nat.lt_succ_self _))
    exact ⟨fun hp => (collect_complete lists_id hout hp).1, fun paths => hsca.few⟩
  · intro hf
    have hc : ∀ {order}, Lists order → ∀ {fuel}, card.maxPath < fuel →
        ∃ out, card.collect order fuel card.root = .ok out := by
      intro order horder fuel hfu
      exact collect_succeeds horder hf.short entered_root card.rootLen (by omega)
    obtain ⟨out, hout⟩ := hc lists_id (Nat.lt_succ_self card.maxPath)
    have hi := inventory_sortPaths lists_id hout
    have hcount : (sortPaths out).length < 2 ^ 32 := by
      rw [← length_map Found.path]
      refine hf.few _ hi.nodup fun path hmem => ?_
      rw [hi.collected_iff]
      exact mem_map.mp hmem
    refine ⟨summaryOf (sortPaths out), _, hi.scanned hcount, ?_⟩
    intro order horder fuel hfu
    obtain ⟨out', hout'⟩ := hc horder hfu
    have hs := (inventory_sortPaths horder hout').unique hi
    rw [scan, hout', ← hs]
    rfl

/-! A link with a long name that leads to the root of the card. -/

/-- The name of the card. -/
def cardName : OsStr := asciiName "card"

def longName : OsStr := List.replicate 200 0x78

/-- `/card` with one entry, a link to `/card`. -/
def linkedNode (place : PathBuf) : Option (Node OsStr) :=
  if place = [] then some (.dir [cardName])
  else if place = [cardName] then some (.dir [longName])
  else if place = [cardName, longName] then some (.link ⟨true, [.normal cardName]⟩)
  else none

theorem linkedNode_isSome {place : PathBuf} {name : OsStr} :
    (linkedNode (place ++ [name])).isSome ↔
      (place = [] ∧ name = cardName) ∨ (place = [cardName] ∧ name = longName) := by
  rcases place with _ | ⟨a, _ | ⟨b, place⟩⟩ <;> simp [linkedNode]

theorem linkedNode_dir {place : PathBuf} {names : List OsStr}
    (h : linkedNode place = some (.dir names)) :
    (place = [] ∧ names = [cardName]) ∨ (place = [cardName] ∧ names = [longName]) := by
  unfold linkedNode at h
  split at h
  · next hp => exact .inl ⟨hp, by simpa using h.symm⟩
  · split at h
    · next hp => exact .inr ⟨hp, by simpa using h.symm⟩
    · split at h <;> cases h

def linkedFileSystem : FileSystem OsStr where
  node := linkedNode
  top := ⟨_, rfl⟩
  listed := by
    intro place names h name
    rw [linkedNode_isSome]
    rcases linkedNode_dir h with ⟨rfl, rfl⟩ | ⟨rfl, rfl⟩ <;> simp
  nodup := by
    intro place names h
    rcases linkedNode_dir h with ⟨-, rfl⟩ | ⟨-, rfl⟩ <;> simp
  contained := by
    intro place name h
    rcases linkedNode_isSome.mp h with ⟨rfl, -⟩ | ⟨rfl, -⟩
    · exact ⟨_, rfl⟩
    · exact ⟨_, rfl⟩

/-- The card on Linux. -/
def linkedCard : Card where
  fs := linkedFileSystem
  maxLinks := 40
  maxPath := 4095
  root := [cardName]
  rootDir := ⟨[longName], rfl⟩
  rootLen := by decide
  named := by
    intro place name h
    rcases linkedNode_isSome.mp h with ⟨-, rfl⟩ | ⟨-, rfl⟩ <;> decide

variable {n : ℕ}

theorem linked_resolve (h : n ≤ 40) :
    linkedFileSystem.resolve 40 [] ((cardName :: List.replicate n longName).map .normal) =
      some (40 - n, [cardName]) := by
  have hn : linkedFileSystem.node ([] ++ [cardName]) = some (.dir [longName]) := rfl
  have hc : ∀ budget, linkedFileSystem.resolve budget [] [.normal cardName] =
      some (budget, [cardName]) := by
    intro budget
    rw [FileSystem.resolve_normal (.of_dir hn), FileSystem.resolve_nil]
    rfl
  induction n with
  | zero => exact hc 40
  | succ n ih =>
    obtain ⟨k, hk⟩ : ∃ k, 40 - n = k + 1 := ⟨40 - n - 1, by omega⟩
    have hl : linkedFileSystem.node ([cardName] ++ [longName]) =
        some (.link ⟨true, [.normal cardName]⟩) := by simp [linkedFileSystem, linkedNode]
    rw [replicate_succ', ← cons_append, map_append, FileSystem.resolve_append,
      ih (by omega), bind_some, hk, map_singleton, FileSystem.resolve_link hl]
    have hb : 40 - (n + 1) = k := by omega
    rw [hb]
    exact hc k

theorem linked_shown (h : n ≤ 40) :
    linkedCard.shown (cardName :: List.replicate n longName) = some .dir ∧
      linkedCard.children (cardName :: List.replicate n longName) = [longName] := by
  have hp : linkedCard.canonicalize (cardName :: List.replicate n longName) = some [cardName] := by
    exact congrArg (Option.map Prod.snd) (linked_resolve h)
  rw [shown, children, hp]
  exact ⟨rfl, rfl⟩

theorem linked_visited (h : n < 40) :
    linkedCard.Visited (cardName :: List.replicate (n + 1) longName) := by
  induction n with
  | zero =>
    have hc : linkedCard.children linkedCard.root = [longName] := (linked_shown (Nat.zero_le 40)).2
    exact .atTop (by rw [hc]; simp)
  | succ n ih =>
    obtain ⟨hs, hc⟩ := linked_shown (show n + 1 ≤ 40 by omega)
    rw [replicate_succ', ← cons_append]
    exact .inDir (ih (by omega)) hs (by rw [hc]; simp)

/-- The paths through the link become too long before the links are too many. -/
theorem scan_follows_link : ¬linkedCard.ScanWorks := by
  rintro ⟨summary, store, -, hs⟩
  obtain ⟨out, hout, -⟩ := bind_eq_ok_iff.mp (hs _ lists_id 4096 (by decide))
  have hv := linked_visited (show 20 < 40 by norm_num)
  have hlen : pathLen (cardName :: List.replicate 21 longName) ≤ 4095 :=
    (collect_complete lists_id hout hv).1
  have hb : pathLen (cardName :: List.replicate 21 longName) = 4226 := by
    have hn : cardName.length = 4 := by decide
    have hl : longName.length = 200 := length_replicate
    simp only [pathLen, map_cons, map_replicate, sum_cons, sum_replicate_nat, hn, hl]
    norm_num
  omega

end Card
end Ptpsim.Store
