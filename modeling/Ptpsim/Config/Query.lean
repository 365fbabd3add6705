/-
# Queries over a manifest

The lookups the simulator makes: an operation or property by its code, the
availability of an operation over a connection in a mode, the dispositions in
effect, the mode the observed values put the camera in, and the profile row
that normalises a property write. All of them are pure functions of the
manifest and the observed values.
-/
import Mathlib.Data.List.Find
import Ptpsim.Config.Manifest

namespace Ptpsim.Config

/-- The value of a map's entry, by its key. -/
def entryFor {β : Type} (entries : List (String × β)) (key : String) : Option β :=
  (entries.find? fun kv => kv.1 = key).map (·.2)

/-- The value of the first entry, in key order, whose key denotes the code. -/
def entryForCode {β : Type} (entries : List (String × β)) (code : UInt16) : Option β :=
  (entries.find? fun kv => parseHexCode kv.1 = some code).map (·.2)

variable (m : CameraManifest)

def CameraManifest.operation (code : UInt16) : Option Operation :=
  entryForCode m.operations code

def CameraManifest.property (code : UInt16) : Option Property :=
  entryForCode m.properties code

def CameraManifest.connection (m : CameraManifest) (id : String) : Option Connection :=
  entryFor m.connections id

/-! ### Availability -/

/-- Whether an operation may be used, or why not. -/
inductive Availability where
  | available
  | wrongMode
  | wrongConnection
  | blocked
  | unavailable
deriving DecidableEq

/-- A mode covers itself and the paths below it. -/
def modeCovers (mode modePath : String) : Bool :=
  modePath = mode || (mode ++ "/").toList.isPrefixOf modePath.toList

/-- Empty means valid in all modes. -/
def modeMatches (modes : List String) (modePath : String) : Bool :=
  modes.isEmpty || modes.any fun m => modeCovers m modePath

/-- The first check that fails decides. -/
def CameraManifest.evaluateAvailability (connection : String) (modePath : Option String)
    (code : UInt16) (observed : PropView) : Availability :=
  match m.operation code with
  | none => .unavailable
  | some op =>
    if op.kind = .advertisedOnly then .unavailable
    else if !op.connections.isEmpty && !op.connections.contains connection then .wrongConnection
    else if modePath.any fun path => !modeMatches op.modes path then .wrongMode
    else if op.requires.any fun req => !req.eval observed then .blocked
    else .available

def CameraManifest.operationAvailable (connection modePath : String) (code : UInt16)
    (observed : PropView) : Availability :=
  m.evaluateAvailability connection (some modePath) code observed

/-- Before a mode is detected the mode axis does not gate. -/
def CameraManifest.operationAvailablePredetect (connection : String) (code : UInt16)
    (observed : PropView) : Availability :=
  m.evaluateAvailability connection none code observed

/-! ### Dispositions -/

/-- A disposition that names modes does not apply before a mode is
detected. -/
def DispositionScope.covers (d : DispositionScope) (connection : String) (mode : Option String)
    (observed : PropView) : Bool :=
  if !d.connections.isEmpty && !d.connections.contains connection then false
  else
    (match mode with
      | some mode => modeMatches d.modes mode
      | none => d.modes.isEmpty) &&
    d.when.all fun p => p.eval observed

def Property.hasDisposition (p : Property) (kind : PropertyDispositionKind) (connection : String)
    (mode : Option String) (observed : PropView) : Bool :=
  p.dispositions.any fun d => d.disposition = kind && d.covers connection mode observed

def Property.isValueless (p : Property) (connection : String) (mode : Option String)
    (observed : PropView) : Bool :=
  p.hasDisposition .valueless connection mode observed

def Property.isWriteSilentRefusal (p : Property) (connection : String) (mode : Option String)
    (observed : PropView) : Bool :=
  p.hasDisposition .silentRefusal connection mode observed

def Operation.isSilentRefusal (op : Operation) (connection : String) (mode : Option String)
    (observed : PropView) : Bool :=
  op.dispositions.any fun d => d.covers connection mode observed

/-! ### Modes and value profiles -/

/-- The first mode, in path order, whose detect predicate holds. -/
def CameraManifest.detectMode (observed : PropView) : Option String :=
  (m.modes.find? fun kv => kv.2.detect.any fun p => p.eval observed).map (·.1)

/-- The properties a detect predicate reads. -/
def CameraManifest.detectReads (code : UInt16) : Bool :=
  m.modes.any fun kv => kv.2.detect.any fun p => p.reads code

theorem CameraManifest.detectMode_congr (m : CameraManifest) {view view' : PropView}
    (h : ∀ code, m.detectReads code = true → view code = view' code) :
    m.detectMode view = m.detectMode view' := by
  unfold CameraManifest.detectMode
  congr 1
  apply List.find?_congr
  intro kv hkv
  cases hd : kv.2.detect with
  | none => rfl
  | some p =>
    refine p.eval_congr fun code hc => h code ?_
    exact List.any_eq_true.mpr ⟨kv, hkv, by rw [hd]; exact hc⟩

namespace PropertyValueProfile

def covers (p : PropertyValueProfile) (connection mode : String) : Bool :=
  p.connection.all (fun c => c = connection) && p.mode.all fun m => modeCovers m mode

/-- How specific a profile is: first the connection, then the length of the
mode path. -/
def rank (p : PropertyValueProfile) : ℕ × ℕ :=
  (if p.connection.isSome then 1 else 0, (p.mode.map String.utf8ByteSize).getD 0)

/-- `q` is at least as specific as `p`. -/
def outranked (p q : PropertyValueProfile) : Bool :=
  p.rank.1 < q.rank.1 || (p.rank.1 = q.rank.1 && p.rank.2 ≤ q.rank.2)

end PropertyValueProfile

/-- The most specific profile in scope, the last of them if there are
several. -/
def Property.valueProfileFor (p : Property) (connection mode : String) :
    Option PropertyValueProfile :=
  (p.valueProfiles.filter fun profile => profile.covers connection mode).foldl
    (fun best profile => match best with
      | none => some profile
      | some b => if b.outranked profile then some profile else some b) none

def PropertyValueProfile.rowForWrite (profile : PropertyValueProfile) (raw : Int64) :
    Option PropertyValueProfileRow :=
  profile.rows.find? fun row => row.raw = raw || row.aliases.contains raw

def CameraManifest.valueProfileFor (m : CameraManifest) (code : UInt16)
    (connection mode : String) : Option PropertyValueProfile :=
  (m.property code).bind fun p => p.valueProfileFor connection mode

end Ptpsim.Config
