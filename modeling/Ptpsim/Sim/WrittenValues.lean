/-
# What is written stays

A property write, a vendor step or an overlay gives a property a value, but
leaves a transition that is under way for it alone; only an effect that takes
hold at once cancels one. So a value that was written stays until something
that comes later replaces it if no transition of the property was under way
when it was written (`written_value_stays`), and otherwise the older
transition replaces it, some reads later (`armed_transition_replaces`).
-/
import Ptpsim.Sim.PropertyReads

namespace Ptpsim.Sim

open Ptpsim.Core Config Deferred List

/-- The calls that write properties: operations (a property write or a vendor
step) and overlays. -/
def Call.isWriter : Call → Bool
  | operation _ _ | operationWith _ _ _ | applyStateOverlay _ => true
  | _ => false

namespace Engine

variable {e : Engine}

/-- The call writes the value to the property, after `earlier` and before
`rest`. -/
def Writes (e : Engine) (call : Call) (earlier : List PropAction) (code : UInt16) (v : PropValue)
    (rest : List PropAction) : Prop :=
  call.isWriter = true ∧ e.propActions call = earlier ++ .set code v :: rest

/-! ### Nothing is armed before a write -/

/-- No transition is started. -/
abbrev ArmsNothing (as : List PropAction) : Prop := ∀ a ∈ as, a.arms = false

theorem handleActions_arms (e : Engine) (req : OperationRequest) (dataIn : Option (List UInt8)) :
    ArmsNothing (e.handleActions req dataIn) := by
  have hset : ∀ (code : UInt16) (value : Option PropValue),
      ArmsNothing (value.map (Action.set code)).toList := by
    intro code value a ha
    obtain ⟨v, -, rfl⟩ := Option.map_eq_some_iff.mp (Option.mem_toList.mp ha)
    rfl
  refine iteInduction (fun _ a ha => nomatch ha) fun _ => ?_
  refine iteInduction (fun _ a ha => ?_) fun _ => ?_
  · obtain ⟨code, -, rfl⟩ := mem_map.mp ha
    rfl
  refine iteInduction (fun _ => hset _ _) fun _ => ?_
  cases e.steppedProperty req.code with
  | none => exact fun a ha => nomatch ha
  | some target => exact hset target _

theorem effectActions_arm {manifest : CameraManifest} {code : UInt16} {params : List UInt32}
    {a : PropAction} (ha : a ∈ effectActions manifest code params) :
    ∃ target v delay, a = .arm target v delay := by
  unfold effectActions at ha
  split at ha
  · cases ha
  · obtain ⟨⟨target, value, settle⟩, -, rfl⟩ := mem_map.mp ha
    exact ⟨_, _, _, rfl⟩

/-- What stands before a write in a list of writes and polls that effects
follow is no effect. -/
theorem arms_before_set {as bs earlier rest : List PropAction} {code : UInt16} {v : PropValue}
    (has : ArmsNothing as) (hbs : ∀ b ∈ bs, ∃ target w delay, b = .arm target w delay)
    (h : as ++ bs = earlier ++ .set code v :: rest) : ArmsNothing earlier := by
  rcases append_eq_append_iff.mp h with ⟨cs, he, hr⟩ | ⟨cs, has', -⟩
  · -- the write would be one of the effects
    obtain ⟨target, w, delay, harm⟩ : ∃ target w delay, (Action.set code v) = .arm target w delay :=
      hbs _ (hr ▸ mem_append_right cs mem_cons_self)
    cases harm
  · intro a ha
    exact has a (has' ▸ mem_append_left cs ha)

theorem dispatchActions_split (e : Engine) (req : OperationRequest)
    (dataIn : Option (List UInt8)) : ∃ as bs, e.dispatchActions req dataIn = as ++ bs ∧
      ArmsNothing as ∧ ∀ b ∈ bs, ∃ target w delay, b = .arm target w delay := by
  refine ⟨_, _, rfl, ?_, ?_⟩
  · split
    · exact handleActions_arms _ req dataIn
    · exact fun a ha => nomatch ha
  · split
    · exact fun b hb => effectActions_arm hb
    · exact fun b hb => nomatch hb

theorem Writes.arms {call : Call} {earlier rest : List PropAction} {code : UInt16} {v : PropValue}
    (h : e.Writes call earlier code v rest) : ArmsNothing earlier := by
  obtain ⟨hw, hac⟩ := h
  have ho : ∀ {e' : Engine} {req : OperationRequest} {dataIn : Option (List UInt8)},
      e'.operationActions req dataIn = earlier ++ .set code v :: rest →
      ArmsNothing earlier := by
    intro e' req dataIn hop
    unfold operationActions at hop
    split at hop
    · simp at hop
    · obtain ⟨as, bs, hs, has, hbs⟩ := dispatchActions_split (e'.faced req) req dataIn
      exact arms_before_set has hbs (hs ▸ hop)
  cases call with
  | operation req dataIn => exact ho hac
  | operationWith tracker req dataIn => exact ho hac
  | applyStateOverlay overlay =>
    have hov : overlayActions e.manifest overlay = earlier ++ .set code v :: rest := hac
    intro a ha
    have hmem : a ∈ overlayActions e.manifest overlay := hov ▸ mem_append_left _ ha
    unfold overlayActions at hmem
    split at hmem
    · obtain ⟨⟨target, w⟩, -, rfl⟩ := mem_map.mp hmem
      rfl
    · cases hmem
  | _ => cases hw

end Engine

/-! ### The value after a write -/

/-- The store right after the write. -/
def written (s : Deferred.Store UInt16 PropValue) (earlier : List PropAction) (code : UInt16)
    (v : PropValue) : Deferred.Store UInt16 PropValue :=
  (s.replay earlier).apply (.set code v)

theorem written_values (s : Deferred.Store UInt16 PropValue) (earlier : List PropAction)
    (code : UInt16) (v : PropValue) : (written s earlier code v).values code = some v :=
  Function.update_self ..

variable {earlier : List PropAction} {code : UInt16} {v : PropValue}

theorem written_pending {s : Deferred.Store UInt16 PropValue} (ha : Engine.ArmsNothing earlier)
    (hn : s.pending code = none) : (written s earlier code v).pending code = none :=
  s.pending_of_replay ha hn

theorem written_kept {s : Deferred.Store UInt16 PropValue} {since : List PropAction}
    (ha : Engine.ArmsNothing earlier) (hn : s.pending code = none)
    (hk : Store.replaced code false (written s earlier code v) since = false) :
    ((written s earlier code v).replay since).values code = some v := by
  rw [Store.values_of_not_replaced (fun _ => written_pending ha hn) hk]
  exact written_values s earlier code v

theorem run_written {e : Engine} {call : Call} {rest : List PropAction}
    (h : e.Writes call earlier code v rest) (later : List Call) :
    (Machine.run Engine.step e (call :: later)).state.deferred =
      (written e.state.deferred earlier code v).replay (rest ++ (e.step call).2.journal later) := by
  rw [Engine.run_deferred, Engine.journal, h.2, append_assoc, Store.replay_append]
  rfl

/-- **What is written stays.** In every run, a value that a property write, a
vendor step or an overlay stored while no transition of the property was under
way stays until something that comes after it replaces it, and is what reads
of the property serve. -/
theorem written_value_stays (manifest : CameraManifest) (store : Ptpsim.Store.MediaStore)
    (before later : List Call) (call : Call) (earlier rest : List PropAction) (code : UInt16)
    (v : PropValue)
    (hwrites : (Machine.run Engine.step (Engine.new manifest store) before).Writes
      call earlier code v rest)
    (hsettled : (Machine.run Engine.step (Engine.new manifest store) before).state.pending code =
      none) :
    let e := Machine.run Engine.step (Engine.new manifest store) before
    let since := rest ++ (e.step call).2.journal later
    let e' := Machine.run Engine.step (Engine.new manifest store) (before ++ call :: later)
    (Store.replaced code false (written e.state.deferred earlier code v) since = false →
      e'.state.props code = some v) ∧
    ∀ (req : OperationRequest) (dataIn : Option (List UInt8)) (prop : Property),
      req.code = Op.getDevicePropValue → (Engine.param req 0).toUInt16 = code →
      IsPlain manifest code prop → e'.handled req = true →
      (e'.dispatched req dataIn).1.isOk = true →
      Store.replaced code false (written e.state.deferred earlier code v)
        (since ++ [.poll code]) = false →
      (e'.dispatched req dataIn).1 = .ofData req.transactionId (encodedBytes v.encode) := by
  intro e since e'
  have hn : e.state.deferred.pending code = none := by
    show (e.state.pending code).map _ = none
    rw [hsettled]
    rfl
  have hrun : e'.state.deferred = (written e.state.deferred earlier code v).replay since := by
    rw [show e' = Machine.run Engine.step e (call :: later) from Machine.run_append _ _ _ _]
    exact run_written hwrites later
  refine ⟨fun hk => ?_, fun req dataIn prop hc hpa hpl hh hok hk => ?_⟩
  · show e'.state.deferred.values code = some v
    rw [hrun]
    exact written_kept hwrites.arms hn hk
  · subst hpa
    have hm : e'.manifest = manifest := Engine.run_manifest _ _
    -- the read polls the property once more
    have hs : e'.servedValue (Engine.param req 0).toUInt16 = v := by
      have hp := written_kept hwrites.arms hn hk
      rw [Store.replay_append, ← hrun] at hp
      unfold Engine.servedValue
      rw [show e'.state.deferred.apply (.poll _) = e'.state.deferred.replay [.poll _] from rfl, hp]
      rfl
    rw [Engine.value_read_served (hm.symm ▸ hpl) hh hok hc, hs]

/-- A camera with one number, and an operation that moves it to 5 on the
second read. -/
def focusManifest : CameraManifest where
  camera := ⟨"", "", "", []⟩
  operations :=
    [("0x9001", { effects := [{ setProp := "0xd001", value := 5, settleAfterPolls := 2 }] })]
  properties := [("0xd001",
    { ptype := some "u16", access := some .readWrite, initialValue := some (.int 7) })]

/-- The engine of the camera after the calls. -/
def focusAfter (calls : List Call) : Engine :=
  Machine.run Engine.step (Engine.new focusManifest emptyCard) calls

def readNumber : OperationRequest := ⟨1, Op.getDevicePropValue, 1, [0xd001]⟩

def writeNine : Call := .operation ⟨1, Op.setDevicePropValue, 1, [0xd001]⟩ (some [9, 0])

def opened : List Call := [request Op.openSession [1]]

/-- A transition that is armed after the write has not settled on the first
read. -/
theorem written_value_stays_nine :
    let e := focusAfter (opened ++ [writeNine, request 0x9001 []])
    e.state.props 0xd001 = some (.u16 9) ∧
      (e.dispatched readNumber none).1 = .ofData 1 (encodedBytes (PropValue.u16 9).encode) := by
  have hw : (focusAfter opened).Writes writeNine [] 0xd001 (.u16 9) [] := ⟨rfl, by decide +kernel⟩
  have hk : Store.replaced 0xd001 false (written (focusAfter opened).state.deferred [] 0xd001
      (.u16 9)) ([] ++ ((focusAfter opened).step writeNine).2.journal [request 0x9001 []]) =
      false := by
    decide +kernel
  have hr : Store.replaced 0xd001 false (written (focusAfter opened).state.deferred [] 0xd001
      (.u16 9)) ([] ++ ((focusAfter opened).step writeNine).2.journal [request 0x9001 []] ++
        [.poll 0xd001]) = false := by
    decide +kernel
  obtain ⟨hst, hs⟩ := written_value_stays focusManifest emptyCard opened
    [request 0x9001 []] writeNine [] [] 0xd001 (.u16 9) hw (by decide +kernel)
  refine ⟨hst hk, hs readNumber none _ rfl rfl ⟨rfl, rfl, rfl⟩ ?_ ?_ hr⟩
  · decide +kernel
  · decide +kernel

/-- A write after the operation is replaced by what the operation armed before
it, although nothing has touched the property since but reads. -/
theorem armed_transition_replaces :
    let e := focusAfter (opened ++ [request 0x9001 []])
    e.Writes writeNine [] 0xd001 (.u16 9) [] ∧
      Store.replaced 0xd001 false (written e.state.deferred [] 0xd001 (.u16 9))
        ((e.step writeNine).2.journal [.operation readNumber none] ++ [.poll 0xd001]) = false ∧
      ((focusAfter (opened ++ [request 0x9001 [], writeNine,
        .operation readNumber none])).onOperation readNumber none).1 = .ofData 1 [5, 0] := by
  refine ⟨⟨rfl, ?_⟩, ?_, ?_⟩
  · decide +kernel
  · decide +kernel
  · decide +kernel

end Ptpsim.Sim
