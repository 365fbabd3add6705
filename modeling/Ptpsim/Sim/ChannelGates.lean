/-
# Gates of auxiliary channels

The engine lets nobody use an auxiliary socket before the wire steps that
precede its `openChannel` step have been seen, where the manifest has such a
step. It compiles these steps to a gate of the connection and the role
(`mem_compileChannelSequences`). The loader has made sure that the step right
before is a strict one that can be matched, but its notion of that is wider than
the engine's: a property write whose value is bound at run time passes, and so
does a code that is no hexadecimal number. If this is so before every
`openChannel` step of the role, the channel is open from the start
(`runtime_write_opens_channel`, `channel_guarded`).
-/
import Ptpsim.Config.OpenChannels
import Ptpsim.Sim.GateRun

namespace Ptpsim.Sim

open Ptpsim.Core Config Store SequenceMatch List

/-! ### The prefix of a channel -/

/-- The wire steps since the last one that cannot be matched or whose failure
is tolerated, after one more step. -/
def extendPrefix (causal : List GateMatcher) (step : Config.Step) : List GateMatcher :=
  if step.openChannel.isSome then causal
  else if step.tolerant then []
  else
    match matcherForStep step with
    | some matcher => causal ++ List.replicate (max step.repeat.toNat 1) matcher
    | none => []

variable (steps : List Config.Step)

/-- The wire steps directly before the end of the list. -/
def causalPrefix : List GateMatcher := steps.foldl extendPrefix []

theorem causalPrefix_concat (step : Config.Step) :
    causalPrefix (steps ++ [step]) = extendPrefix (causalPrefix steps) step := by
  simp [causalPrefix]

theorem causalPrefix_ne_nil_iff : causalPrefix steps ≠ [] ↔
    ∃ wire, boundary steps = some wire ∧ wire.tolerant = false ∧
      (matcherForStep wire).isSome = true := by
  induction steps using List.reverseRecOn with
  | nil => simp [causalPrefix, boundary]
  | append_singleton steps step ih =>
    rw [causalPrefix_concat, extendPrefix]
    rcases ho : step.openChannel with _ | role
    · rw [boundary_concat ho]
      by_cases ht : step.tolerant = true
      · simp [ht]
      · rcases hm : matcherForStep step with _ | matcher
        · simp [ht, hm]
        · simp [ht, hm]
    · rw [boundary_concat_open (by simp [ho])]
      simpa using ih

/-! ### What is compiled -/

/-- No operation makes the socket of the role available. -/
def OpensByStep (bindings : Option SocketBindings) (role : SocketRole) : Prop :=
  (bindings.any fun b => (b.availableAfter role).isSome) = false

/-- The steps stand before one of the list that opens the channel. -/
def Opening (role : SocketRole) (steps before : List Config.Step) : Prop :=
  ∃ step after, steps = before ++ step :: after ∧ step.openChannel = some role

theorem opening_cons {role : SocketRole} {step : Config.Step} {rest before : List Config.Step} :
    Opening role (step :: rest) before ↔ before = [] ∧ step.openChannel = some role ∨
      ∃ later, before = step :: later ∧ Opening role rest later := by
  constructor
  · rintro ⟨opening, after, hl, ho⟩
    rcases before with _ | ⟨first, later⟩
    · obtain ⟨rfl, -⟩ := List.cons.inj hl
      exact .inl ⟨rfl, ho⟩
    · obtain ⟨rfl, hr⟩ := List.cons.inj hl
      exact .inr ⟨later, rfl, opening, after, hr, ho⟩
  · rintro (⟨rfl, ho⟩ | ⟨later, rfl, opening, after, rfl, ho⟩)
    · exact ⟨step, rest, rfl, ho⟩
    · exact ⟨opening, after, rfl, ho⟩

/-- The sequence is what precedes a step of the list that opens a channel. -/
def PrecedesOpening (connection : String) (bindings : Option SocketBindings)
    (seen steps : List Config.Step) (s : GateSequence) : Prop :=
  ∃ role before, Opening role steps before ∧ OpensByStep bindings role ∧
    s.name = channelGateName connection role ∧ s.steps = causalPrefix (seen ++ before)

section Compiled

variable {connection : String} {bindings : Option SocketBindings} {s : GateSequence}

theorem precedesOpening_cons {seen rest : List Config.Step} {step : Config.Step} :
    PrecedesOpening connection bindings seen (step :: rest) s ↔
      (∃ role, step.openChannel = some role ∧ OpensByStep bindings role ∧
        s.name = channelGateName connection role ∧ s.steps = causalPrefix seen) ∨
      PrecedesOpening connection bindings (seen ++ [step]) rest s := by
  constructor
  · rintro ⟨role, before, hop, hb, hn, hs⟩
    rcases opening_cons.mp hop with ⟨rfl, ho⟩ | ⟨later, rfl, hl⟩
    · rw [append_nil] at hs
      exact .inl ⟨role, ho, hb, hn, hs⟩
    · rw [append_cons] at hs
      exact .inr ⟨role, later, hl, hb, hn, hs⟩
  · rintro (⟨role, ho, hb, hn, hs⟩ | ⟨role, later, hl, hb, hn, hs⟩)
    · refine ⟨role, [], opening_cons.mpr (.inl ⟨rfl, ho⟩), hb, hn, ?_⟩
      rwa [append_nil]
    · refine ⟨role, step :: later, opening_cons.mpr (.inr ⟨later, rfl, hl⟩), hb, hn, ?_⟩
      rwa [append_cons]

theorem mem_collectChannelFrom (steps seen : List Config.Step) (out : List GateSequence) :
    s ∈ collectChannelFrom connection bindings steps (causalPrefix seen) out ↔
      s ∈ out ∨ PrecedesOpening connection bindings seen steps s := by
  induction steps generalizing seen out with
  | nil => simp [collectChannelFrom, PrecedesOpening, Opening]
  | cons step rest ih =>
    rw [precedesOpening_cons, collectChannelFrom]
    have hn := causalPrefix_concat seen step
    rw [extendPrefix] at hn
    rcases ho : step.openChannel with _ | role
    · have hs : collectChannelFrom connection bindings (step :: rest) (causalPrefix seen) out =
          collectChannelFrom connection bindings rest (causalPrefix (seen ++ [step])) out := by
        rw [hn, collectChannelFrom]
        by_cases ht : step.tolerant = true
        · simp [ho, ht]
        · rcases matcherForStep step with _ | matcher
          · simp [ho, ht]
          · simp [ho, ht]
      rw [collectChannelFrom] at hs
      simp only [ho] at hs ⊢
      rw [hs, ih]
      simp
    · simp only [ho, Option.isSome_some, if_true] at hn ⊢
      rw [← hn]
      split
      · rename_i ha
        rw [ih]
        simp [OpensByStep, ha]
      · rename_i ha
        rw [ih, mem_addSequence, or_assoc, hn]
        simp [OpensByStep, ha]

end Compiled

theorem mem_collectChannelSequences {connection : String} {bindings : Option SocketBindings}
    {steps : List Config.Step} {out : List GateSequence} {s : GateSequence} :
    s ∈ collectChannelSequences connection bindings steps out ↔
      s ∈ out ∨ PrecedesOpening connection bindings [] steps s :=
  mem_collectChannelFrom steps [] out

/-- **The channel sequences** are those of the sockets that become available
after an operation, and what precedes the steps that open the others. -/
theorem mem_compileChannelSequences {manifest : CameraManifest} {s : GateSequence} :
    s ∈ compileChannelSequences manifest ↔ ∃ c ∈ manifest.connections,
      s ∈ availabilitySequences c.1 c.2.bindings ∨
      ∃ steps ∈ c.2.channelLists, PrecedesOpening c.1 c.2.bindings [] steps s := by
  refine (mem_foldl_iff (P := fun c : String × Connection =>
    s ∈ availabilitySequences c.1 c.2.bindings ∨
      ∃ steps ∈ c.2.channelLists, PrecedesOpening c.1 c.2.bindings [] steps s) ?_ _ _).trans
    (by simp)
  rintro out ⟨name, connection⟩
  refine (mem_foldl_iff (P := fun action : ActionVerb × Action => ∃ initiator,
    action.2.initiator = some initiator ∧
      PrecedesOpening name connection.bindings [] initiator.steps s) ?_ _ _).trans ?_
  · rintro out ⟨verb, action⟩
    rcases hi : action.initiator with _ | initiator
    · simp [hi]
    · simp [hi, mem_collectChannelSequences]
  · rw [mem_foldl_iff (P := fun entry : ModeEntry => ∃ steps, entry.execution = .ptp steps ∧
      PrecedesOpening name connection.bindings [] steps s), mem_append]
    · constructor
      · rintro (((h | h) | ⟨entry, he, steps, hst, h⟩) | ⟨action, ha, initiator, hs, h⟩)
        · exact .inl h
        · exact .inr (.inl h)
        · exact .inr (.inr ⟨steps, Connection.mem_channelLists.mpr (.inl ⟨entry, he, hst⟩), h⟩)
        · exact .inr (.inr ⟨initiator.steps,
            Connection.mem_channelLists.mpr (.inr ⟨action, ha, initiator, hs, rfl⟩), h⟩)
      · rintro (h | h | ⟨steps, hst, h⟩)
        · exact .inl (.inl (.inl h))
        · exact .inl (.inl (.inr h))
        · rcases Connection.mem_channelLists.mp hst with
            ⟨entry, he, hex⟩ | ⟨action, ha, initiator, hs, rfl⟩
          · exact .inl (.inr ⟨entry, he, steps, hex, h⟩)
          · exact .inr ⟨action, ha, initiator, hs, h⟩
    · intro out entry
      rcases entry.execution with steps | exitSteps | instruction
      · simp [mem_collectChannelSequences]
      · simp
      · simp

/-! ### The gate of a channel -/

theorem channelGateName_inj {c c' : String} {role role' : SocketRole}
    (h : channelGateName c role = channelGateName c' role') : c = c' ∧ role = role' := by
  have hl := congrArg String.toList h
  simp only [channelGateName, String.toList_append, append_assoc] at hl
  have ht := append_cancel_left hl
  have hr : role = role' := by
    -- the names of the roles end with different letters
    have hla := congrArg List.getLast? ht
    cases role <;> cases role' <;> simp [roleName] at hla ⊢
  subst hr
  rw [String.toList_inj.symm]
  exact ⟨append_cancel_right ht, rfl⟩

section Gate

variable {manifest : CameraManifest} {name : String} {connection : Connection} {role : SocketRole}

theorem name_of_mem_availabilitySequences {s : GateSequence} (c : String)
    {bindings : Option SocketBindings} (hs : s ∈ availabilitySequences c bindings) :
    ∃ role, s.name = channelGateName c role ∧ ¬ OpensByStep bindings role := by
  obtain ⟨role, -, h⟩ := mem_filterMap.mp hs
  rcases bindings with _ | b
  · simp at h
  · rcases ha : b.availableAfter role with _ | operation
    · simp [ha] at h
    · rcases hop : parseHexCode operation with _ | op
      · simp [ha, hop] at h
      · refine ⟨role, ?_, by simp [OpensByStep, ha]⟩
        simp only [ha, hop, Option.bind_eq_bind, Option.bind_some, Option.pure_def,
          Option.some.injEq] at h
        rw [← h]

theorem mem_channelGate (hmap : (manifest.connections.map Prod.fst).Nodup)
    (hco : (name, connection) ∈ manifest.connections)
    (hb : OpensByStep connection.bindings role) {s : GateSequence}
    (hn : s.name = channelGateName name role) :
    s ∈ compileChannelSequences manifest ↔
      ∃ steps ∈ connection.channelLists, ∃ before, Opening role steps before ∧
        s.steps = causalPrefix before := by
  have hsa : ∀ c ∈ manifest.connections, ∀ r, s.name = channelGateName c.1 r →
      c = (name, connection) ∧ r = role := by
    intro c hc r hr
    obtain ⟨hfst, hro⟩ := channelGateName_inj (hr.symm.trans hn)
    exact ⟨inj_on_of_nodup_map hmap hc hco hfst, hro⟩
  rw [mem_compileChannelSequences]
  constructor
  · rintro ⟨c, hc, hs | ⟨steps, hst, r, before, ho, -, hr, heq⟩⟩
    · obtain ⟨r, hr, ha⟩ := name_of_mem_availabilitySequences c.1 hs
      obtain ⟨rfl, rfl⟩ := hsa c hc r hr
      exact absurd hb ha
    · obtain ⟨rfl, rfl⟩ := hsa c hc r hr
      exact ⟨steps, hst, before, ho, heq⟩
  · rintro ⟨steps, hst, before, ho, heq⟩
    exact ⟨(name, connection), hco, .inr ⟨steps, hst, role, before, ho, hb, hn, heq⟩⟩

end Gate

/-! ### Guarded channels -/

/-- The engine can compile the step: its code is a hexadecimal number, and a
value it writes is not left to the run. -/
def Recognised (wire : Config.Step) : Prop :=
  ((wire.setProp.or (wire.getProp.or wire.sendOp)).bind parseHexCode).isSome = true ∧
    (wire.setProp.isSome = true → ∀ slot ifMissing, wire.value ≠ some (.runtime slot ifMissing))

theorem literalParams_isSome {params : List StepParam}
    (h : ∀ p ∈ params, ∃ value, p = .literal value) : (literalParams params).isSome = true := by
  induction params with
  | nil => rfl
  | cons p params ih =>
    obtain ⟨value, rfl⟩ := h p (by simp)
    obtain ⟨values, hv⟩ := Option.isSome_iff_exists.mp (ih fun q hq => h q (by simp [hq]))
    unfold literalParams at hv ⊢
    simp [mapM_cons, hv]

/-- Of the steps that the loader takes for matchable, the engine has a matcher
for those it recognises. -/
theorem matcherForStep_isSome_iff {wire : Config.Step} (hm : wire.isSequenceGateMatchable = true) :
    (matcherForStep wire).isSome = true ↔ Recognised wire := by
  unfold matcherForStep Recognised
  rw [hm]
  rcases hset : wire.setProp with _ | prop
  · rcases hget : wire.getProp with _ | prop
    · rcases hs : wire.sendOp with _ | op
      · simp
      · have hpa : (literalParams wire.params).isSome = true := by
          refine literalParams_isSome fun p hp => ?_
          simp only [Step.isSequenceGateMatchable, hset, hget, hs, Option.isSome_none,
            Option.isSome_some, Bool.or_self, Bool.false_eq_true, if_false, Bool.true_and,
            all_eq_true] at hm
          have hl := hm p hp
          rcases p with value | value
          · exact ⟨value, rfl⟩
          · simp at hl
        obtain ⟨params, hso⟩ := Option.isSome_iff_exists.mp hpa
        rcases hc : parseHexCode op with _ | code
        · simp [hc]
        · simp [hc, hso]
    · simp
  · rcases hv : wire.value with _ | (value | value)
    · simp
    · simp
    · simp

/-- An `openChannel` step of the role stands right behind a step that the
engine recognises. -/
def Enforced (connection : Connection) (role : SocketRole) : Prop :=
  ∃ steps ∈ connection.channelLists, ∃ before wire, Opening role steps before ∧
    boundary before = some wire ∧ Recognised wire

/-- No step of an entry or action completes a gate of the channel's name. -/
def Undeclared (manifest : CameraManifest) (name : String) (role : SocketRole) : Prop :=
  ∀ s ∈ compileGateSequences manifest, s.name ≠ channelGateName name role

/-- The engine has a gate for the channel, and the channel is ready only after
the wire steps before one of the connection's `openChannel` steps have been
seen since the last reset. -/
structure Guarded (manifest : CameraManifest) (store : MediaStore) (name : String)
    (connection : Connection) (role : SocketRole) : Prop where
  derived : ∃ s ∈ compileChannelSequences manifest, s.name = channelGateName name role
  waits : ∀ calls, (Machine.run Engine.step (Engine.new manifest store) calls).connection = name →
    (Machine.run Engine.step (Engine.new manifest store) calls).channelReady role = true →
    ∃ steps ∈ connection.channelLists, ∃ before, Opening role steps before ∧
      causalPrefix before ≠ [] ∧ Contains (fits manifest)
        (Engine.history Engine.advances (Engine.new manifest store) calls) (causalPrefix before)

section Guarded

variable {manifest : CameraManifest} {name : String} {connection : Connection} {role : SocketRole}

/-- The gate is derived if a boundary is recognised: by the loader's check,
the step there is strict and passes for matchable. -/
theorem derived_iff_enforced (hv : manifest.requireValidOpenChannels = .ok ())
    (hmap : (manifest.connections.map Prod.fst).Nodup)
    (hc : (name, connection) ∈ manifest.connections)
    (hb : OpensByStep connection.bindings role) :
    (∃ s ∈ compileChannelSequences manifest, s.name = channelGateName name role) ↔
      Enforced connection role := by
  -- what the loader knows of the boundary before an opening
  have hbo : ∀ steps ∈ connection.channelLists, ∀ before, Opening role steps before →
      ∃ wire, boundary before = some wire ∧ wire.tolerant = false ∧
        wire.isSequenceGateMatchable = true := by
    rintro steps hst before ⟨step, after, rfl, hop⟩
    obtain ⟨path, ha⟩ := channelLists_accepted hv hc hst
    obtain ⟨-, -, -, wire, hw, he⟩ := openChannel_accepted ha hop
    exact ⟨wire, hw, by simpa [Step.isEnforceable] using he⟩
  constructor
  · rintro ⟨s, hs, hn⟩
    obtain ⟨steps, hst, before, ho, heq⟩ := (mem_channelGate hmap hc hb hn).mp hs
    obtain ⟨wire, hw, -, hma⟩ := (causalPrefix_ne_nil_iff before).mp (heq ▸ s.steps_ne_nil)
    obtain ⟨wire', hw', -, hm⟩ := hbo steps hst before ho
    obtain rfl : wire = wire' := Option.some.inj (hw.symm.trans hw')
    exact ⟨steps, hst, before, wire, ho, hw, (matcherForStep_isSome_iff hm).mp hma⟩
  · rintro ⟨steps, hst, before, wire, ho, hw, hr⟩
    obtain ⟨wire', hw', hstr, hm⟩ := hbo steps hst before ho
    obtain rfl : wire = wire' := Option.some.inj (hw.symm.trans hw')
    have hne : causalPrefix before ≠ [] := (causalPrefix_ne_nil_iff before).mpr
      ⟨wire, hw, hstr, (matcherForStep_isSome_iff hm).mpr hr⟩
    exact ⟨⟨channelGateName name role, causalPrefix before, hne⟩,
      (mem_channelGate hmap hc hb rfl).mpr ⟨steps, hst, before, ho, rfl⟩, rfl⟩

/-- **The channel waits for its gate** if the gate is derived and the name is
not used for another one. -/
theorem waits_of_derived (store : MediaStore)
    (hmap : (manifest.connections.map Prod.fst).Nodup)
    (hco : (name, connection) ∈ manifest.connections)
    (hb : OpensByStep connection.bindings role)
    (hd : ∃ s ∈ compileChannelSequences manifest, s.name = channelGateName name role)
    (hu : Undeclared manifest name role) : Guarded manifest store name connection role := by
  refine ⟨hd, fun calls hn hr => ?_⟩
  have hset : SetUp (Engine.new manifest store).gateSequences manifest
    (Engine.new manifest store) :=
    ⟨rfl, rfl⟩
  have hso := sound_run hset (Engine.newWith_gates _ manifest store) calls
  obtain ⟨-, hseq⟩ := SetUp.run hset calls
  have hsa : (Machine.run Engine.step (Engine.new manifest store)
      calls).state.gates.gateSatisfied (channelGateName name role) = true := by
    obtain ⟨s, hs, hg⟩ := hd
    have he : ((Engine.new manifest store).gateSequences.any fun sequence =>
        sequence.name = channelGateName name role) = true :=
      any_eq_true.mpr ⟨s, mem_append_right _ hs, by simpa using hg⟩
    rw [Engine.channelReady, hn, hseq, he] at hr
    simpa using hr
  obtain ⟨s, hs, hg, hse⟩ := hso.satisfied _ hsa
  rcases mem_append.mp hs with hde | hc
  · exact absurd hg (hu s hde)
  · obtain ⟨steps, hst, before, ho, heq⟩ := (mem_channelGate hmap hco hb hg).mp hc
    rw [heq] at hse
    exact ⟨steps, hst, before, ho, heq ▸ s.steps_ne_nil, hse⟩

end Guarded

/-- **A channel is guarded where its boundary is recognised.** The loader lets
channels be opened only in the lists that the engine compiles. The engine
derives the gate of a channel only if one of the boundaries of the role is
recognised; and then the channel is guarded, unless a declared gate has the
same name. -/
theorem channel_guarded {manifest : CameraManifest} (store : MediaStore)
    (hvalid : manifest.requireValidOpenChannels = .ok ())
    (hmap : (manifest.connections.map Prod.fst).Nodup) {name : String} {connection : Connection}
    (hconnection : (name, connection) ∈ manifest.connections) {steps : List Config.Step}
    (hholds : connection.Holds steps) {step : Config.Step} (hmem : step ∈ steps)
    {role : SocketRole} (hopen : step.openChannel = some role)
    (hbind : OpensByStep connection.bindings role) :
    steps ∈ connection.channelLists ∧
      (Guarded manifest store name connection role → Enforced connection role) ∧
      (Enforced connection role → Undeclared manifest name role →
        Guarded manifest store name connection role) := by
  have hd := derived_iff_enforced hvalid hmap hconnection hbind
  refine ⟨opens_in_channelLists hvalid hconnection hholds hmem hopen, ?_, ?_⟩
  · intro hg
    exact hd.mp hg.derived
  · intro he hu
    exact waits_of_derived store hmap hconnection hbind (hd.mpr he) hu

/-- A connection whose live view starts with a step and the channel. -/
def liveViewConnection (wire : Config.Step) : Connection where
  bindings := some { command := { port := 55740 }, liveView := some { port := 55742 } }
  actions := [(.startLiveView,
    { initiator := some { steps := [wire, { openChannel := some .liveView }] } })]

/-- A camera with this connection. -/
def liveViewManifest (wire : Config.Step) : CameraManifest where
  camera := ⟨"", "", "", []⟩
  properties := [("0x500d", { ptype := some "u32" })]
  connections := [("app", liveViewConnection wire)]

/-- The exposure time is written with a value of the manifest's own. -/
def literalWrite : Config.Step := { setProp := some "0x500d", value := some (.literal 1) }

/-- The exposure time is written with a parameter of the action. -/
def runtimeWrite : Config.Step := { setProp := some "0x500d", value := some (.runtime "time") }

theorem channel_guarded_literal :
    Guarded (liveViewManifest literalWrite) emptyCard "app" (liveViewConnection literalWrite)
      .liveView := by
  have hl : [literalWrite, { openChannel := some .liveView }] ∈
      (liveViewConnection literalWrite).channelLists := by
    simp [Connection.channelLists, liveViewConnection]
  have hv : (liveViewManifest literalWrite).requireValidOpenChannels = .ok () := by
    decide +kernel
  obtain ⟨-, -, hg⟩ := channel_guarded emptyCard hv (by decide)
    (mem_singleton_self _) (.channel hl)
    (mem_cons_of_mem _ (mem_singleton_self _)) rfl rfl
  refine hg ⟨_, hl, [literalWrite], literalWrite, ⟨_, [], rfl, rfl⟩, rfl, ?_, ?_⟩ ?_
  · decide +kernel
  · simp [literalWrite]
  · intro s hs
    have hn : compileGateSequences (liveViewManifest literalWrite) = [] := by decide +kernel
    simp [hn] at hs

/-- The loader accepts the write, the engine cannot compile it. No gate is
derived, and the channel is ready before any operation. -/
theorem runtime_write_opens_channel :
    (liveViewManifest runtimeWrite).requireValidOpenChannels = .ok () ∧
    OpensByStep (liveViewConnection runtimeWrite).bindings .liveView ∧
    (∃ steps ∈ (liveViewConnection runtimeWrite).channelLists,
      ∃ step ∈ steps, step.openChannel = some .liveView) ∧
    (Engine.new (liveViewManifest runtimeWrite) emptyCard).gateSequences = [] ∧
    (Machine.run Engine.step (Engine.new (liveViewManifest runtimeWrite) emptyCard)
      [.bindConnection "app"]).channelReady .liveView = true ∧
    ¬ Guarded (liveViewManifest runtimeWrite) emptyCard "app" (liveViewConnection runtimeWrite)
      .liveView := by
  have hn : compileChannelSequences (liveViewManifest runtimeWrite) = [] := by decide +kernel
  refine ⟨by decide +kernel, rfl, ?_, by decide +kernel, by decide +kernel, ?_⟩
  · exact ⟨[runtimeWrite, { openChannel := some .liveView }],
      by simp [Connection.channelLists, liveViewConnection], _,
      mem_cons_of_mem _ (mem_singleton_self _), rfl⟩
  · intro hg
    obtain ⟨s, hs, -⟩ := hg.derived
    simp [hn] at hs

end Ptpsim.Sim
