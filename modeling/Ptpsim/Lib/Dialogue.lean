/-
# Dialogues with a host

A program that leaves all its input and output to a host makes calls, one after
the other, and goes on with the replies. A host is anything that has a reply to
every call; the reply may depend on all that was said before. What a program
does is then the log of its calls and replies, and a property of it is one of
the part of the log it adds, together with its result (`Emits`).

The rules follow the program: a call adds itself with a reply that can be
anything (`Emits.ask`), and a sequence adds what its parts add (`Emits.bind`).
-/
import Mathlib.Data.List.Basic

namespace Ptpsim.Dialogue

variable {Call : Type} {Reply : Call → Type} {α β : Type}

/-- A call and what the host said to it. -/
structure Event (Reply : Call → Type) where
  call : Call
  reply : Reply call

/-- The host's reply to a call, after what was said before. -/
abbrev Host (Reply : Call → Type) := List (Event Reply) → (call : Call) → Reply call

/-- A program, with the log of what was said. -/
abbrev Program (Reply : Call → Type) := StateM (List (Event Reply))

def ask (host : Host Reply) (call : Call) : Program Reply (Reply call) := fun log =>
  (host log call, log ++ [⟨call, host log call⟩])

/-- The program adds to the log what goes with its result. -/
def Emits (m : Program Reply α) (S : List (Event Reply) → α → Prop) : Prop :=
  ∀ log, ∃ added, (m log).2 = log ++ added ∧ S added (m log).1

variable {host : Host Reply} {S : List (Event Reply) → α → Prop}

theorem Emits.pure {a : α} (h : S [] a) : Emits (Pure.pure a : Program Reply α) S :=
  fun log => ⟨[], (List.append_nil log).symm, h⟩

theorem Emits.mono {m : Program Reply α} {T : List (Event Reply) → α → Prop} (h : Emits m S)
    (hST : ∀ added a, S added a → T added a) : Emits m T := by
  intro log
  obtain ⟨added, hadded, hS⟩ := h log
  exact ⟨added, hadded, hST _ _ hS⟩

/-- The second part is judged with what the first has added in front. -/
theorem Emits.bind {m : Program Reply α} {f : α → Program Reply β}
    {T : List (Event Reply) → β → Prop} (hm : Emits m S)
    (hf : ∀ a added, S added a → Emits (f a) fun more b => T (added ++ more) b) :
    Emits (m >>= f) T := by
  intro log
  obtain ⟨added, hadded, hS⟩ := hm log
  obtain ⟨more, hmo, hT⟩ := hf _ added hS (m log).2
  refine ⟨added ++ more, ?_, hT⟩
  rw [← List.append_assoc, ← hadded]
  exact hmo

theorem Emits.ask {call : Call} {f : Reply call → Program Reply β}
    {T : List (Event Reply) → β → Prop}
    (h : ∀ reply, Emits (f reply) fun more b => T (⟨call, reply⟩ :: more) b) :
    Emits (Dialogue.ask host call >>= f) T := by
  intro log
  obtain ⟨more, hm, hT⟩ := h (host log call) (log ++ [⟨call, host log call⟩])
  refine ⟨⟨call, host log call⟩ :: more, ?_, hT⟩
  rw [List.append_cons]
  exact hm

theorem Emits.run {m : Program Reply α} (h : Emits m S) : S (m []).2 (m []).1 := by
  obtain ⟨added, hadded, hS⟩ := h []
  rw [hadded]
  exact hS

end Ptpsim.Dialogue
