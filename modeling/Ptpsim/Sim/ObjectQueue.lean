/-
# The standard object queue

The objects a connection offers for transfer: all of them from the start, or
the next few after each shutter release. A shutter release is recognised by
the wire sequence of the manifest's shutter action, followed step by step.
-/
import Mathlib.Data.Finset.Card
import Ptpsim.Sim.GateMatch

namespace Ptpsim.Sim

/-- Objects offered by shutter or at startup. -/
structure TransferQueue where
  connection : String
  handles : List UInt32
  available : Finset UInt32
  nextIndex : ℕ
  enqueuePerShutter : UInt32 := 0
  shutterSequence : Option (List GateMatcher) := none
  shutterProgress : ℕ := 0
  shutterBusyResponsesRemaining : UInt32 := 0
  completed : ℕ := 0

namespace TransferQueue

def startupSeeded (connection : String) (handles : List UInt32) : TransferQueue where
  connection := connection
  handles := handles
  available := handles.toFinset
  nextIndex := handles.length

def shutterSeeded (connection : String) (handles : List UInt32) (enqueuePerShutter : UInt32)
    (shutterSequence : List GateMatcher) : TransferQueue where
  connection := connection
  handles := handles
  available := ∅
  nextIndex := 0
  enqueuePerShutter := enqueuePerShutter
  shutterSequence := some shutterSequence

variable (q : TransferQueue)

/-- The handles on offer, in queue order. -/
def availableHandles : List UInt32 :=
  q.handles.filter fun handle => handle ∈ q.available

def contains (handle : UInt32) : Bool := decide (handle ∈ q.available)

def drain (handle : UInt32) : Bool × TransferQueue :=
  if handle ∈ q.available then
    (true, { q with available := q.available.erase handle, completed := q.completed + 1 })
  else (false, q)

/-- Makes the next handle available, as long as there is one. -/
def enqueueLoop : ℕ → TransferQueue → TransferQueue
  | 0, q => q
  | n + 1, q =>
    match q.handles[q.nextIndex]? with
    | none => q
    | some handle =>
      enqueueLoop n { q with available := insert handle q.available, nextIndex := q.nextIndex + 1 }

/-- What the loop comes to: the next handles, as many as are left. -/
theorem enqueueLoop_eq (n : ℕ) : enqueueLoop n q = { q with
    available := q.available ∪ ((q.handles.drop q.nextIndex).take n).toFinset
    nextIndex := q.nextIndex + min n (q.handles.length - q.nextIndex) } := by
  induction n generalizing q with
  | zero => simp [enqueueLoop]
  | succ n ih =>
    unfold enqueueLoop
    split
    · rename_i hn
      have hend : q.handles.length ≤ q.nextIndex := List.getElem?_eq_none_iff.mp hn
      simp [List.drop_eq_nil_of_le hend, Nat.sub_eq_zero_of_le hend]
    · rename_i handle hs
      obtain ⟨hlt, hget⟩ := List.getElem?_eq_some_iff.mp hs
      rw [ih, List.drop_eq_getElem_cons hlt, hget, List.take_succ_cons, List.toFinset_cons]
      have hi : q.nextIndex + 1 + min n (q.handles.length - (q.nextIndex + 1)) =
          q.nextIndex + min (n + 1) (q.handles.length - q.nextIndex) := by omega
      simp only [hi, Finset.insert_union, Finset.union_insert]

/-- The number of handles that were not available before. -/
def enqueueCount (count : UInt32) : ℕ × TransferQueue :=
  let q' := enqueueLoop count.toNat q
  (q'.available.card - q.available.card, q')

/-- The last `added` handles that were enqueued. -/
def latest (added : ℕ) : List UInt32 :=
  (q.handles.take q.nextIndex).drop (q.nextIndex - added)

/-- One operation of the shutter sequence. A completed sequence enqueues, and
what became available is returned with the queue. -/
def followShutter (fits : GateMatcher → Bool) : List UInt32 × TransferQueue :=
  match q.shutterSequence with
  | none => ([], q)
  | some sequence =>
    let progress := if (sequence[q.shutterProgress]?).any fits then q.shutterProgress + 1
      else if sequence.head?.any fits then 1 else 0
    if progress ≥ sequence.length then
      let (added, q) := enqueueCount { q with shutterProgress := 0 } q.enqueuePerShutter
      (if added > 0 then q.latest added else [], q)
    else ([], { q with shutterProgress := progress })

end TransferQueue

end Ptpsim.Sim
