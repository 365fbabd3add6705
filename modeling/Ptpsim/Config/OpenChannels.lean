/-
# Where a channel may be opened

An `openChannel` step asks for an auxiliary socket at a point of a step list.
The loader accepts one only at the top level of a mode entry or of an action,
for a socket that the connection has, and only right behind a strict step that
can be seen on the wire, so that a simulator can tell when the point has been
reached. Other `openChannel` steps may stand in between (`boundary`).
-/
import Ptpsim.Config.Manifest
import Ptpsim.Lib.Fallible

namespace Ptpsim.Config

open List Option

/-- A rule that a manifest breaks. -/
inductive ManifestError where
  | contract (message : String)
deriving DecidableEq

/-! ### The check -/

/-- One `openChannel` step. `enforceable` says whether a strict wire step
stands before it. -/
def checkOpenChannel (bindings : Option SocketBindings) (stepPath : String)
    (topLevelAllowed enforceable : Bool) (role : SocketRole) : Except ManifestError Unit :=
  if !topLevelAllowed then
    .error (.contract (stepPath ++
      ".openChannel is only valid as a top-level mode-entry or action step"))
  else if role = .command then
    .error (.contract (stepPath ++
      ".openChannel cannot open the command channel; it is established before plan execution"))
  else if (bindings.bind fun b => b.portFor role).isNone then
    .error (.contract (stepPath ++ ".openChannel role '" ++ roleName role ++
      "' has no socket binding on its connection"))
  else if !enforceable then
    .error (.contract (stepPath ++ ".openChannel requires a preceding strict wire step so " ++
      "simulators can enforce its causal boundary"))
  else .ok ()

mutual
/-- The steps from `index` on. -/
def requireOpenChannelsFrom (bindings : Option SocketBindings) (topLevelAllowed : Bool)
    (steps : List Step) (path : String) (index : ℕ) (enforceable : Bool) :
    Except ManifestError Unit :=
  match steps with
  | [] => .ok ()
  | step :: rest =>
    let stepPath := path ++ ".steps[" ++ toString index ++ "]"
    match step.openChannel with
    | some role => do
      checkOpenChannel bindings stepPath topLevelAllowed enforceable role
      requireOpenChannelsFrom bindings topLevelAllowed rest path (index + 1) enforceable
    | none => do
      requireNested bindings step stepPath
      requireOpenChannelsFrom bindings topLevelAllowed rest path (index + 1)
        (!step.tolerant && step.isSequenceGateMatchable)

/-- The lists inside a step may not open a channel. -/
def requireNested (bindings : Option SocketBindings) (step : Step) (stepPath : String) :
    Except ManifestError Unit :=
  match step with
  | { retry, awaitUntil, loop, ifStep, .. } => do
    requireRetry bindings retry (stepPath ++ ".retry")
    requireAwait bindings awaitUntil (stepPath ++ ".awaitUntil")
    requireLoop bindings loop (stepPath ++ ".loop")
    requireIf bindings ifStep (stepPath ++ ".if")

def requireRetry (bindings : Option SocketBindings) (retry : Option (StepRetry Step))
    (path : String) : Except ManifestError Unit :=
  match retry with
  | none => .ok ()
  | some block => requireBlock bindings block path

def requireBlock (bindings : Option SocketBindings) (block : StepRetry Step) (path : String) :
    Except ManifestError Unit :=
  match block with
  | { steps, fallback, .. } => do
    requireOpenChannelsFrom bindings false steps path 0 false
    requireBody bindings fallback (path ++ ".fallback")

def requireAwait (bindings : Option SocketBindings) (awaitUntil : Option (AwaitUntil Step))
    (path : String) : Except ManifestError Unit :=
  match awaitUntil with
  | none => .ok ()
  | some { onEach, .. } => requireOpenChannelsFrom bindings false onEach path 0 false

def requireLoop (bindings : Option SocketBindings) (loop : Option (Loop Step)) (path : String) :
    Except ManifestError Unit :=
  match loop with
  | none => .ok ()
  | some (.forEach _ _ body) | some (.chunk _ _ _ _ body) =>
    requireOpenChannelsFrom bindings false body path 0 false

def requireBody (bindings : Option SocketBindings) (body : Option (List Step)) (path : String) :
    Except ManifestError Unit :=
  match body with
  | none => .ok ()
  | some steps => requireOpenChannelsFrom bindings false steps path 0 false

def requireIf (bindings : Option SocketBindings) (ifStep : Option (IfStep Step)) (path : String) :
    Except ManifestError Unit :=
  match ifStep with
  | none => .ok ()
  | some condition => requireBranches bindings condition path

def requireBranches (bindings : Option SocketBindings) (condition : IfStep Step) (path : String) :
    Except ManifestError Unit :=
  match condition with
  | { thenSteps, elseSteps, .. } => do
    requireOpenChannelsFrom bindings false thenSteps (path ++ ".then") 0 false
    requireOpenChannelsFrom bindings false elseSteps (path ++ ".else") 0 false
end

def requireValidOpenChannels (steps : List Step) (bindings : Option SocketBindings) (path : String)
    (topLevelAllowed : Bool) : Except ManifestError Unit :=
  requireOpenChannelsFrom bindings topLevelAllowed steps path 0 false

/-- The entry with its number. -/
def requireValidEntry (name : String) (bindings : Option SocketBindings) (index : ℕ)
    (entry : ModeEntry) : Except ManifestError Unit :=
  let path := "connections." ++ name ++ ".entries[" ++ toString index ++ "]"
  match entry.execution with
  | .ptp steps => requireValidOpenChannels steps bindings path true
  | .reestablishConnection exitSteps =>
    requireValidOpenChannels exitSteps bindings (path ++ ".reestablishConnection.exitSteps") false
  | .userInstruction _ => .ok ()

def requireValidEntries (name : String) (bindings : Option SocketBindings) :
    ℕ → List ModeEntry → Except ManifestError Unit
  | _, [] => .ok ()
  | index, entry :: rest => do
    requireValidEntry name bindings index entry
    requireValidEntries name bindings (index + 1) rest

def verbName : ActionVerb → String
  | .shutter => "Shutter"
  | .enumerateObjects => "EnumerateObjects"
  | .getObjectInfo => "GetObjectInfo"
  | .getThumb => "GetThumb"
  | .getObject => "GetObject"
  | .deleteObject => "DeleteObject"
  | .completeObjectTransfer => "CompleteObjectTransfer"
  | .autofocusLock => "AutofocusLock"
  | .autofocusRelease => "AutofocusRelease"
  | .importObjects => "ImportObjects"
  | .readDeviceInfo => "ReadDeviceInfo"
  | .startLiveView => "StartLiveView"
  | .pollLiveView => "PollLiveView"
  | .stopLiveView => "StopLiveView"
  | .keepalive => "Keepalive"

def requireValidAction (name : String) (bindings : Option SocketBindings)
    (action : ActionVerb × Action) : Except ManifestError Unit :=
  match action.2.initiator with
  | some initiator => requireValidOpenChannels initiator.steps bindings
      ("connections." ++ name ++ ".actions." ++ verbName action.1) true
  | none => .ok ()

/-- The part of the check of mode entries and actions that is about channels:
every list of steps of every connection, in turn. -/
def CameraManifest.requireValidOpenChannels (m : CameraManifest) : Except ManifestError Unit :=
  m.connections.forM fun (name, connection) => do
    requireValidEntries name connection.bindings 0 connection.entries
    connection.actions.forM (requireValidAction name connection.bindings)

/-! ### What is accepted -/

theorem seq_ok {ε : Type} {first next : Except ε Unit} (h : (first >>= fun _ => next) = .ok ()) :
    first = .ok () ∧ next = .ok () := by
  rcases first with e | u
  · cases h
  · exact ⟨rfl, h⟩

theorem forM_ok {ε α : Type} {check : α → Except ε Unit} {as : List α}
    (h : as.forM check = .ok ()) : ∀ a ∈ as, check a = .ok () := by
  induction as with
  | nil => simp
  | cons a as ih =>
    obtain ⟨hf, hr⟩ := seq_ok h
    intro b hb
    rcases mem_cons.mp hb with rfl | hb
    · exact hf
    · exact ih hr b hb

/-- The step a channel's boundary rests on: the last one that opens no
channel. -/
def boundary (steps : List Step) : Option Step :=
  steps.reverse.find? fun step => step.openChannel.isNone

/-- The simulators can enforce the boundary. -/
def Step.isEnforceable (step : Step) : Bool := !step.tolerant && step.isSequenceGateMatchable

variable {steps : List Step} {step : Step}

theorem boundary_concat_open (h : step.openChannel.isSome = true) :
    boundary (steps ++ [step]) = boundary steps := by
  have hnot : step.openChannel.isNone = false := by
    rw [isNone_eq_false_iff]
    exact h
  simp [boundary, hnot]

theorem boundary_concat (h : step.openChannel = none) : boundary (steps ++ [step]) = some step := by
  simp [boundary, h]

variable {bindings : Option SocketBindings} {m : CameraManifest}

/-- What is left to check after the first steps have been accepted: the
boundary before the others is enforceable if the flag says so. -/
theorem requireOpenChannelsFrom_append {top : Bool}
    {path : String} (before after : List Step) {index : ℕ} {s : List Step}
    (h : requireOpenChannelsFrom bindings top (before ++ after) path index
      ((boundary s).any Step.isEnforceable) = .ok ()) :
    requireOpenChannelsFrom bindings top after path (index + before.length)
      ((boundary (s ++ before)).any Step.isEnforceable) = .ok () := by
  induction before generalizing index s with
  | nil => simpa using h
  | cons step before ih =>
    have hn : requireOpenChannelsFrom bindings top (before ++ after) path (index + 1)
        ((boundary (s ++ [step])).any Step.isEnforceable) = .ok () := by
      rw [cons_append, requireOpenChannelsFrom] at h
      rcases ho : step.openChannel with _ | role
      · rw [boundary_concat ho]
        simp only [ho] at h
        exact (seq_ok h).2
      · rw [boundary_concat_open (by simp [ho])]
        simp only [ho] at h
        exact (seq_ok h).2
    have hr := ih hn
    rw [append_assoc, singleton_append] at hr
    rwa [length_cons, Nat.add_comm before.length 1, ← Nat.add_assoc]

theorem checkOpenChannel_ok {stepPath : String} {top enforceable : Bool} {role : SocketRole}
    (h : checkOpenChannel bindings stepPath top enforceable role = .ok ()) :
    top = true ∧ role ≠ .command ∧ (bindings.bind fun b => b.portFor role).isSome = true ∧
      enforceable = true := by
  simp only [checkOpenChannel, Fallible.guard_eq_ok_iff] at h
  obtain ⟨htop, hr, hp, he, -⟩ := h
  refine ⟨by simpa using htop, hr, ?_, by simpa using he⟩
  rwa [isNone_iff_eq_none, ← ne_eq, ne_none_iff_isSome] at hp

section Accepted

variable {bindings : Option SocketBindings} {top flag : Bool} {path : String} {steps : List Step}

/-- **A channel is opened behind a strict wire step**, at the top level, and
only if the connection has the socket. -/
theorem openChannel_accepted {before after : List Step} {step : Step} {role : SocketRole}
    (h : requireValidOpenChannels (before ++ step :: after) bindings path top = .ok ())
    (ho : step.openChannel = some role) :
    top = true ∧ role ≠ .command ∧ (bindings.bind fun b => b.portFor role).isSome = true ∧
      ∃ wire, boundary before = some wire ∧ wire.isEnforceable = true := by
  have hf := requireOpenChannelsFrom_append (s := []) before (step :: after) h
  rw [requireOpenChannelsFrom] at hf
  simp only [ho, nil_append] at hf
  have hc := checkOpenChannel_ok (seq_ok hf).1
  rwa [Option.any_eq_true] at hc

/-- A list inside another one, at any depth. A step that opens a channel holds
no list. -/
inductive Nested : List Step → List Step → Prop
  | retry {steps : List Step} {step : Step} {block : StepRetry Step} (hmem : step ∈ steps)
      (hopen : step.openChannel = none) (h : step.retry = some block) : Nested steps block.steps
  | fallback {steps body : List Step} {step : Step} {block : StepRetry Step} (hmem : step ∈ steps)
      (hopen : step.openChannel = none) (h : step.retry = some block)
      (hbody : block.fallback = some body) : Nested steps body
  | awaitUntil {steps : List Step} {step : Step} {spec : AwaitUntil Step} (hmem : step ∈ steps)
      (hopen : step.openChannel = none) (h : step.awaitUntil = some spec) :
      Nested steps spec.onEach
  | loop {steps : List Step} {step : Step} {spec : Loop Step} (hmem : step ∈ steps)
      (hopen : step.openChannel = none) (h : step.loop = some spec) : Nested steps spec.body
  | thenSteps {steps : List Step} {step : Step} {condition : IfStep Step} (hmem : step ∈ steps)
      (hopen : step.openChannel = none) (h : step.ifStep = some condition) :
      Nested steps condition.thenSteps
  | elseSteps {steps : List Step} {step : Step} {condition : IfStep Step} (hmem : step ∈ steps)
      (hopen : step.openChannel = none) (h : step.ifStep = some condition) :
      Nested steps condition.elseSteps
  | trans {outer middle inner : List Step} : Nested outer middle → Nested middle inner →
      Nested outer inner

theorem nested_checked (h : requireValidOpenChannels steps bindings path top = .ok ()) {step : Step}
    (hmem : step ∈ steps) (ho : step.openChannel = none) : ∃ path,
      requireRetry bindings step.retry (path ++ ".retry") = .ok () ∧
      requireAwait bindings step.awaitUntil (path ++ ".awaitUntil") = .ok () ∧
      requireLoop bindings step.loop (path ++ ".loop") = .ok () ∧
      requireIf bindings step.ifStep (path ++ ".if") = .ok () := by
  obtain ⟨before, after, rfl⟩ := append_of_mem hmem
  have hf := requireOpenChannelsFrom_append before (step :: after) (s := []) h
  rw [requireOpenChannelsFrom] at hf
  simp only [ho] at hf
  have h := (seq_ok hf).1
  cases step
  obtain ⟨hr, h⟩ := seq_ok h
  obtain ⟨ha, h⟩ := seq_ok h
  obtain ⟨hl, hif⟩ := seq_ok h
  exact ⟨_, hr, ha, hl, hif⟩

/-- The lists inside an accepted one have been checked too. -/
theorem nested_accepted {inner : List Step} (hn : Nested steps inner)
    (h : requireValidOpenChannels steps bindings path top = .ok ()) :
    ∃ innerPath, requireValidOpenChannels inner bindings innerPath false = .ok () := by
  induction hn generalizing top path with
  | retry hmem ho hr =>
    obtain ⟨_, hb, -⟩ := nested_checked h hmem ho
    rw [hr, requireRetry, requireBlock] at hb
    exact ⟨_, (seq_ok hb).1⟩
  | fallback hmem ho hr hbo =>
    obtain ⟨_, hb, -⟩ := nested_checked h hmem ho
    rw [hr, requireRetry, requireBlock] at hb
    have hf := (seq_ok hb).2
    rw [hbo, requireBody] at hf
    exact ⟨_, hf⟩
  | awaitUntil hmem ho haw =>
    obtain ⟨_, -, ha, -⟩ := nested_checked h hmem ho
    rw [haw, requireAwait] at ha
    exact ⟨_, ha⟩
  | @loop _ _ spec hmem ho hlo =>
    obtain ⟨_, -, -, hl, -⟩ := nested_checked h hmem ho
    rw [hlo] at hl
    cases spec with
    | forEach collection bind body =>
      exact ⟨_, hl⟩
    | chunk total size offsetBind lengthBind body =>
      exact ⟨_, hl⟩
  | thenSteps hmem ho hc =>
    obtain ⟨_, -, -, -, hif⟩ := nested_checked h hmem ho
    rw [hc, requireIf, requireBranches] at hif
    exact ⟨_, (seq_ok hif).1⟩
  | elseSteps hmem ho hc =>
    obtain ⟨_, -, -, -, hif⟩ := nested_checked h hmem ho
    rw [hc, requireIf, requireBranches] at hif
    exact ⟨_, (seq_ok hif).2⟩
  | trans _ _ ihouter ihinner =>
    obtain ⟨middlePath, hm⟩ := ihouter h
    exact ihinner hm

end Accepted

/-! ### The lists of a connection -/

/-- The lists of steps that may open a channel: the mode entries and the
actions of the initiator. -/
def Connection.channelLists (c : Connection) : List (List Step) :=
  (c.entries.filterMap fun entry => match entry.execution with
    | .ptp steps => some steps
    | _ => none) ++
  c.actions.filterMap fun (_, action) => action.initiator.map (·.steps)

theorem Connection.mem_channelLists {c : Connection} :
    steps ∈ c.channelLists ↔ (∃ entry ∈ c.entries, entry.execution = .ptp steps) ∨
      ∃ action ∈ c.actions, ∃ initiator, action.2.initiator = some initiator ∧
        initiator.steps = steps := by
  unfold Connection.channelLists
  rw [mem_append, mem_filterMap, mem_filterMap]
  refine or_congr (exists_congr fun entry => and_congr_right fun _ => ?_)
    (exists_congr fun action => and_congr_right fun _ => map_eq_some_iff)
  rcases entry.execution with list | exitSteps | instruction
  · simp
  · simp
  · simp

variable {name : String} {connection : Connection}

theorem requireValidEntries_ok {index : ℕ} {entries : List ModeEntry}
    (h : requireValidEntries name bindings index entries = .ok ()) :
    ∀ entry ∈ entries, ∃ i, requireValidEntry name bindings i entry = .ok () := by
  induction entries generalizing index with
  | nil => simp
  | cons entry entries ih =>
    obtain ⟨hf, hr⟩ := seq_ok h
    intro other hmem
    rcases mem_cons.mp hmem with rfl | hmem
    · exact ⟨index, hf⟩
    · exact ih hr other hmem

theorem channelLists_accepted (h : m.requireValidOpenChannels = .ok ())
    (hc : (name, connection) ∈ m.connections) (hst : steps ∈ connection.channelLists) :
    ∃ path, requireValidOpenChannels steps connection.bindings path true = .ok () := by
  obtain ⟨he, hac⟩ := seq_ok (forM_ok h _ hc)
  rcases Connection.mem_channelLists.mp hst with
    ⟨entry, hen, hex⟩ | ⟨action, ha, initiator, hs, rfl⟩
  · obtain ⟨index, hv⟩ := requireValidEntries_ok he entry hen
    rw [requireValidEntry, hex] at hv
    exact ⟨_, hv⟩
  · have hv := forM_ok hac action ha
    rw [requireValidAction, hs] at hv
    exact ⟨_, hv⟩

/-- The lists of steps of a connection: those that may open a channel, the
exit steps of an entry that goes through another connection, and all lists
inside them. -/
inductive Connection.Holds (c : Connection) : List Step → Prop
  | channel {steps : List Step} (h : steps ∈ c.channelLists) : Holds c steps
  | exit {steps : List Step} {entry : ModeEntry} (hentry : entry ∈ c.entries)
      (h : entry.execution = .reestablishConnection steps) : Holds c steps
  | nested {steps inner : List Step} : Holds c steps → Nested steps inner → Holds c inner

/-- All lists of an accepted manifest have been checked, and only those that
may open a channel are allowed to. -/
theorem holds_accepted (h : m.requireValidOpenChannels = .ok ())
    (hc : (name, connection) ∈ m.connections) (hh : connection.Holds steps) :
    ∃ path top, requireValidOpenChannels steps connection.bindings path top = .ok () ∧
      (top = true → steps ∈ connection.channelLists) := by
  induction hh with
  | channel hl =>
    obtain ⟨path, hv⟩ := channelLists_accepted h hc hl
    exact ⟨path, true, hv, fun _ => hl⟩
  | exit he hex =>
    obtain ⟨index, hv⟩ := requireValidEntries_ok (seq_ok (forM_ok h _ hc)).1 _ he
    rw [requireValidEntry, hex] at hv
    exact ⟨_, false, hv, by simp⟩
  | nested _ hn ih =>
    obtain ⟨path, top, hv, -⟩ := ih
    obtain ⟨innerPath, hi⟩ := nested_accepted hn hv
    exact ⟨innerPath, false, hi, by simp⟩

/-- **Channels are opened at the top level only.** -/
theorem opens_in_channelLists (h : m.requireValidOpenChannels = .ok ())
    (hc : (name, connection) ∈ m.connections) (hh : connection.Holds steps) (hmem : step ∈ steps)
    {role : SocketRole} (ho : step.openChannel = some role) : steps ∈ connection.channelLists := by
  obtain ⟨path, top, hv, hl⟩ := holds_accepted h hc hh
  obtain ⟨before, after, rfl⟩ := append_of_mem hmem
  exact hl (openChannel_accepted hv ho).1

end Ptpsim.Config
