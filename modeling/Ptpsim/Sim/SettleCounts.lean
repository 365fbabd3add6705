/-
# When a transition settles

An effect or a responder transition with a settle count `n` gives its property
a new value on the `n`-th poll: the polls before find the old value
(`nth_poll_settles`). A poll is not a read that is answered OK. Every read
that gets to the value of a property polls it, and polls the members of its
payload too, before it is known whether the record stream can be built. A read
that fails then has polled all the same (`failed_read_counts`), and a record
stream polls a member that it does not show.
-/
import Ptpsim.Sim.Refusals
import Ptpsim.Sim.WrittenValues

namespace Ptpsim.Sim

open Ptpsim.Core Config Deferred List Option Engine Action Store

/-! ### Counting polls -/

namespace Engine

/-- How many times the call polls the property. -/
def pollsBy (code : UInt16) (e : Engine) (call : Call) : ℕ :=
  match call.exchange with
  | some (req, _) => ((e.facing call).polls req).count code
  | none => 0

/-- How many times a run polls the property. -/
def pollsDuring (code : UInt16) : Engine → List Call → ℕ
  | _, [] => 0
  | e, call :: calls => e.pollsBy code call + pollsDuring code (e.step call).2 calls

variable {e : Engine} {req : OperationRequest} {dataIn : Option (List UInt8)} {code : UInt16}

theorem countP_polls (codes : List UInt16) :
    (codes.map (Action.poll : UInt16 → PropAction)).countP (pollsKey code) =
      codes.count code := by
  rw [countP_map]
  rfl

theorem countP_unpolled {as : List PropAction} (h : ∀ a ∈ as, a.polls = false) :
    as.countP (pollsKey code) = 0 := by
  rw [countP_eq_zero]
  intro a ha
  simp [pollsKey, h a ha]

theorem countP_handleActions : (e.handleActions req dataIn).countP (pollsKey code) =
    (e.handlerPolls req).count code := by
  have hset : ∀ (target : UInt16) (value : Option PropValue),
      (value.map (Action.set target)).toList.countP (pollsKey code) = 0 := by
    intro target value
    rcases value with _ | v <;> rfl
  unfold handleActions handlerPolls
  by_cases hv : req.code = Op.getDevicePropValue
  · have ho : e.isStandardOp req.code = false := by rw [hv]; rfl
    simp only [ho, Bool.false_eq_true, if_false, if_pos hv]
    exact countP_polls _
  · rw [if_neg hv, if_neg hv, count_nil]
    by_cases hs : e.isStandardOp req.code = true
    · rw [if_pos hs, countP_nil]
    · rw [if_neg hs]
      by_cases hw : req.code = Op.setDevicePropValue
      · rw [if_pos hw, hset]
      · rw [if_neg hw]
        rcases e.steppedProperty req.code with _ | target
        · rfl
        · exact hset target _

theorem countP_operationActions :
    (e.operationActions req dataIn).countP (pollsKey code) = (e.polls req).count code := by
  have he : ∀ code' params, (effectActions e.manifest code' params).countP
      (pollsKey code) = 0 := by
    intro code' params
    refine countP_unpolled fun a ha => ?_
    obtain ⟨target, w, delay, rfl⟩ := effectActions_arm ha
    rfl
  unfold operationActions polls handled
  rcases e.preemption req with _ | reply
  · have ht : (if (e.faced req).takesEffect req dataIn then
        effectActions e.manifest req.code req.params else []).countP (pollsKey code) = 0 := by
      split
      · exact he _ _
      · rfl
    show ((if (e.faced req).handles req then (e.handling req).handleActions req dataIn else []) ++
      (if (e.faced req).takesEffect req dataIn then
        effectActions e.manifest req.code req.params else [])).countP _ = _
    rw [countP_append, ht, Nat.add_zero]
    rcases (e.faced req).handles req with _ | _
    · rfl
    · exact countP_handleActions
  · rfl

/-- **Only reads poll.** -/
theorem countP_propActions (e : Engine) (call : Call) :
    (e.propActions call).countP (pollsKey code) = e.pollsBy code call := by
  cases call with
  | operation req dataIn => exact countP_operationActions
  | operationWith tracker req dataIn => exact countP_operationActions
  | completeStream c =>
    refine countP_unpolled fun a ha => ?_
    simp only [propActions, completionActions, countActions] at ha
    grind [Action.polls]
  | applyStateOverlay overlay =>
    refine countP_unpolled fun a ha => ?_
    simp only [propActions, overlayActions] at ha
    grind [Action.polls]
  | advancePropertyToNextEnum target =>
    refine countP_unpolled fun a ha => ?_
    simp only [propActions, nextEnumActions] at ha
    grind [Action.polls]
  | applyResponderMutation prepared =>
    refine countP_unpolled fun a ha => ?_
    rcases prepared with ⟨count, affected⟩ | transition
    · cases ha
    · rcases mem_append.mp ha with ha | ha
      · obtain ⟨w, -, rfl⟩ := map_eq_some_iff.mp (mem_toList.mp ha)
        rfl
      · obtain ⟨w, -, rfl⟩ := map_eq_some_iff.mp (mem_toList.mp ha)
        rfl
  | _ => rfl

theorem countP_journal (e : Engine) (calls : List Call) :
    (e.journal calls).countP (pollsKey code) = pollsDuring code e calls := by
  induction calls generalizing e with
  | nil => rfl
  | cons call calls ih => rw [journal, countP_append, countP_propActions, ih, pollsDuring]

/-! ### A transition under way -/

/-- The call arms a transition of the property, after `earlier`, and leaves it
at that. -/
def Arms (e : Engine) (call : Call) (earlier : List PropAction) (code : UInt16) (v : PropValue)
    (n : ℕ) : Prop :=
  ∃ rest, e.propActions call = earlier ++ .arm code v n :: rest ∧ ∀ a ∈ rest, a.key ≠ code

theorem Arms.pending {call : Call} {earlier : List PropAction} {v : PropValue} {n : ℕ}
    (h : e.Arms call earlier code v n) (hn : 0 < n) :
    (e.step call).2.state.deferred.values code = (e.state.deferred.replay earlier).values code ∧
      (e.step call).2.state.deferred.pending code = some ⟨v, n⟩ := by
  obtain ⟨rest, ha, hr⟩ := h
  rw [step_deferred, ha, replay_append, replay_cons]
  obtain ⟨hv, hp⟩ := ((e.state.deferred.replay earlier).apply (.arm code v n)).replay_other hr
  have hn : n ≠ 0 := by omega
  rw [hv, hp]
  simp [Store.apply, hn]

/-- The stored value after the polls of a run that does nothing else to the
property. -/
theorem run_settles {t : Transition PropValue} (ht : e.state.deferred.pending code = some t)
    (hw : 0 < t.remaining) (calls : List Call)
    (hk : Action.OnlyPolled code (e.journal calls)) :
    (Machine.run step e calls).state.deferred.values code =
      if pollsDuring code e calls < t.remaining then e.state.deferred.values code
      else some t.value := by
  rw [run_deferred, values_of_onlyPolled ht hw hk, countP_journal]

/-! ### Reads -/

theorem read_finds {t : Transition PropValue} (ht : e.state.deferred.pending code = some t)
    (hw : 0 < t.remaining) (calls : List Call)
    (hk : Action.OnlyPolled code (e.journal calls)) (req : OperationRequest) :
    let e' := Machine.run step e calls
    let read := (param req 0).toUInt16
    ((e'.handling req).pollProperty read).state.props code =
      if pollsDuring code e calls + (read :: e'.memberCodes read).count code < t.remaining then
        e.state.deferred.values code
      else some t.value := by
  intro e' read
  let codes := read :: e'.memberCodes read
  have hp : ((e'.handling req).pollProperty read).state.deferred =
      e.state.deferred.replay (e.journal calls ++ codes.map .poll) := by
    rw [replay_append, ← run_deferred,
      ← CameraState.deferred_foldl CameraState.deferred_resolvePending]
    rfl
  have ho : Action.OnlyPolled code (e.journal calls ++ codes.map .poll) := by
    intro a ha hkey
    rcases mem_append.mp ha with ha | ha
    · exact hk a ha hkey
    · obtain ⟨polled, -, rfl⟩ := mem_map.mp ha
      rfl
  show ((e'.handling req).pollProperty read).state.deferred.values code = _
  rw [hp, values_of_onlyPolled ht hw ho, countP_append, countP_journal, countP_polls]

theorem dispatched_read (hc : req.code = Op.getDevicePropValue) (hh : e.handled req = true)
    (hr : e.readsValue (param req 0).toUInt16 = true) : (e.dispatched req dataIn).1 =
      ((e.handling req).pollProperty (param req 0).toUInt16).propertyValueReply
        req.transactionId (param req 0).toUInt16 := by
  rw [dispatched_handled hh, handle_getDevicePropValue hc,
    getDevicePropValue_reads (e := e.handling req) hr]

end Engine

/-- The answer to a read of a composite property shows the stored value of a
member in its record, unless the member is valueless or the stream cannot be
built. -/
def StreamShows (e : Engine) (req : OperationRequest) (dataIn : Option (List UInt8))
    (payload : Payload) (code : UInt16) (found : Option PropValue) : Prop :=
  (e.dispatched req dataIn).1 = .err req.transactionId Resp.generalError ∨
    ∃ d records bytes, (e.dispatched req dataIn).1 = .ofData req.transactionId bytes ∧
      Engine.streamDescriptor payload = .ok d ∧
      Primitives.typedRecordStream records d = .ok bytes ∧
      ∀ value, (code, value) ∈ records ↔
        (((e.handling req).pollProperty (Engine.param req 0).toUInt16).propertyIsValueless code =
          false ∧ ∃ member ∈ payload.members, parseHexCode member.memberCode = some code ∧
          value = Engine.memberValue payload.recordWidths.2.2 member found)

/-- **A transition settles on the poll it waits for.** After a call has armed a
transition with the settle count `n`, as long as nothing but polls touches the
property, fewer than `n` polls find the old value and the others the new one;
and this is what a read of the property shows, one poll later, and what a
record stream shows of it, after its own polls. -/
theorem nth_poll_settles (e : Engine) (call : Call) (earlier : List PropAction) (code : UInt16)
    (v : PropValue) (n : ℕ) (later : List Call) (harms : e.Arms call earlier code v n) (hn : 0 < n)
    (hkept : Action.OnlyPolled code ((e.step call).2.journal later)) :
    let old := (e.state.deferred.replay earlier).values code
    let found : ℕ → Option PropValue := fun polls => if polls < n then old else some v
    let polls := pollsDuring code (e.step call).2 later
    let e' := Machine.run Engine.step e (call :: later)
    e'.state.props code = found polls ∧
      ∀ (req : OperationRequest) (dataIn : Option (List UInt8)),
        req.code = Op.getDevicePropValue → e'.handled req = true →
        e'.readsValue (Engine.param req 0).toUInt16 = true →
        (∀ prop, IsPlain e'.manifest code prop → (Engine.param req 0).toUInt16 = code →
          (e'.dispatched req dataIn).1 = .ofData req.transactionId (encodedBytes
            ((found (polls + 1)).getD (defaultPropValue (declaredType e'.manifest code))).encode)) ∧
        ∀ payload, (e'.manifest.property (Engine.param req 0).toUInt16).bind (·.payload) =
            some payload →
          StreamShows e' req dataIn payload code (found (polls +
            ((Engine.param req 0).toUInt16 ::
              e'.memberCodes (Engine.param req 0).toUInt16).count code)) := by
  intro old found polls e'
  obtain ⟨hold, hpe⟩ := harms.pending hn
  refine ⟨?_, fun req dataIn hc hh hr => ?_⟩
  · show (Machine.run Engine.step (e.step call).2 later).state.deferred.values code = _
    rw [run_settles hpe hn later hkept, hold]
  have hf : ((e'.handling req).pollProperty (Engine.param req 0).toUInt16).state.props code =
      found (polls + ((Engine.param req 0).toUInt16 ::
        e'.memberCodes (Engine.param req 0).toUInt16).count code) := by
    have hs := read_finds hpe hn later hkept req
    rwa [hold] at hs
  rw [dispatched_read hc hh hr]
  refine ⟨fun prop hp hpa => ?_, fun payload hpay => ?_⟩
  · -- a plain property has no members
    have hm : e'.memberCodes code = [] := by
      simp [memberCodes, hp.property, hp.payload]
    rw [hpa] at hf ⊢
    rw [hm, count_singleton_self] at hf
    rw [propertyValueReply_plain (e := (e'.handling req).pollProperty _) hp, hf]
    rfl
  · unfold StreamShows
    rw [dispatched_read hc hh hr]
    rcases propertyValueReply_stream
        (e := (e'.handling req).pollProperty (Engine.param req 0).toUInt16)
        req.transactionId hpay with
      hfa | ⟨d, bytes, hb, hd, hst⟩
    · exact .inl hfa
    · refine .inr ⟨d, _, bytes, hb, hd, hst, fun value => ?_⟩
      rw [mem_recordStreamRecords, hf]

/-- The operation moves the number to 5 on the second read: the first one
still shows 7. -/
theorem nth_poll_settles_focus :
    let e := focusAfter (opened ++ [request 0x9001 []])
    let e' := focusAfter (opened ++ [request 0x9001 [], .operation readNumber none])
    (e.dispatched readNumber none).1 = .ofData 1 (encodedBytes (PropValue.u16 7).encode) ∧
      (e'.dispatched readNumber none).1 = .ofData 1 (encodedBytes (PropValue.u16 5).encode) := by
  have ha : (focusAfter opened).Arms (request 0x9001 []) [] 0xd001 (.u16 5) 2 :=
    ⟨[], by decide +kernel, by simp⟩
  have hj : ((focusAfter opened).step (request 0x9001 [])).2.journal
      [.operation readNumber none] = [.poll 0xd001] := by
    decide +kernel
  have hk : Action.OnlyPolled 0xd001 (((focusAfter opened).step (request 0x9001 [])).2.journal
      [.operation readNumber none]) := by
    rw [hj]
    simp [Action.OnlyPolled, Action.polls]
  have hp : pollsDuring 0xd001 ((focusAfter opened).step (request 0x9001 [])).2
      [.operation readNumber none] = 1 := by
    rw [← countP_journal, hj]
    rfl
  obtain ⟨-, hf⟩ := nth_poll_settles (focusAfter opened) (request 0x9001 []) [] 0xd001 (.u16 5) 2
    [] ha (by decide) (by simp [Action.OnlyPolled, journal])
  obtain ⟨-, hse⟩ := nth_poll_settles (focusAfter opened) (request 0x9001 []) [] 0xd001
    (.u16 5) 2 [.operation readNumber none] ha (by decide) hk
  refine ⟨?_, ?_⟩
  · have hs := (hf readNumber none rfl (by decide +kernel) (by decide +kernel)).1 _
      ⟨rfl, rfl, rfl⟩ rfl
    have hold : (focusAfter opened).state.deferred.values 0xd001 = some (.u16 7) := by
      decide +kernel
    simp only [pollsDuring, replay, foldl_nil, hold] at hs
    exact hs
  · have hs := (hse readNumber none rfl (by decide +kernel) (by decide +kernel)).1 _
      ⟨rfl, rfl, rfl⟩ rfl
    rw [hp] at hs
    exact hs

/-- The transition of a member waits for its second poll. The read of the
composite property fails, and the first read that is answered OK shows the new
value. -/
theorem failed_read_counts :
    let e := (armedComposite.step (.operation readComposite none)).2
    armedComposite.state.props 0xd209 = some (.u16 300) ∧
      armedComposite.state.pending 0xd209 = some ⟨.u16 5, 2⟩ ∧
      (armedComposite.onOperation readComposite none).1 = .err 1 Resp.generalError ∧
      (e.onOperation ⟨1, Op.getDevicePropValue, 2, [0xd209]⟩ none).1 = .ofData 2 [5, 0] := by
  refine ⟨?_, ?_, ?_, ?_⟩
  · decide +kernel
  · decide +kernel
  · decide +kernel
  · decide +kernel

end Ptpsim.Sim
