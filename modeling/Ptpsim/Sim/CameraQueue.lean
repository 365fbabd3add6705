/-
# The camera-initiated queue

The private queue of objects a camera hands over on its own initiative. The
object at the head is read in ranges; a range counts once the transport has
confirmed that it was written, by handing back the completion it was issued
with. The head moves on when the confirmed ranges cover the whole object. A
completion carries the generation it was issued under, so one that comes back
after the head has moved on is recognised and dropped.
-/
import Ptpsim.Lib.Coverage
import Ptpsim.Store.MediaStore

namespace Ptpsim.Sim

open Coverage

/-- The delivered ranges of the head are kept as sorted disjoint pairs of
offsets. -/
structure CameraInitiatedQueue where
  handles : List UInt32
  head : ℕ := 0
  generation : UInt64 := 0
  delivered : List (ℕ × ℕ) := []
deriving DecidableEq

/-- What a data reply hands to the transport, to be returned when the range
has been written. -/
structure StreamCompletion where
  generation : UInt64
  handle : UInt32
  offset : UInt64
  len : UInt64
  objectSize : UInt64
deriving DecidableEq

namespace CameraInitiatedQueue

def new (handles : List UInt32) : CameraInitiatedQueue := { handles := handles }

variable (q : CameraInitiatedQueue)

def headHandle : Option UInt32 := q.handles[q.head]?

def remaining : ℕ := q.handles.length - q.head

variable (offset len objectSize : UInt64)

/-- The end of a range, with the addition saturating at `u64::MAX`. -/
def rangeEnd : ℕ :=
  min (min (offset.toNat + len.toNat) (2 ^ 64 - 1)) objectSize.toNat

/-- The delivered ranges with one more, unless it is empty. -/
def deliver (delivered : List (ℕ × ℕ)) (offset len objectSize : UInt64) : List (ℕ × ℕ) :=
  if offset.toNat < rangeEnd offset len objectSize then
    add delivered (offset.toNat, rangeEnd offset len objectSize)
  else delivered

def acknowledge : Bool × CameraInitiatedQueue :=
  let delivered := deliver q.delivered offset len objectSize
  let complete := decide (objectSize = 0) ||
    delivered.head?.any fun r => decide (r.1 = 0 ∧ objectSize.toNat ≤ r.2)
  if complete then
    (true, { q with head := q.head + 1, generation := q.generation + 1, delivered := [] })
  else (false, { q with delivered := delivered })

/-- A completion counts only under the generation and for the head it was
issued for. -/
def complete (c : StreamCompletion) : Bool × CameraInitiatedQueue :=
  if q.generation ≠ c.generation ∨ q.headHandle ≠ some c.handle then (false, q)
  else q.acknowledge c.offset c.len c.objectSize

/-! ### The delivered ranges -/

theorem rangeEnd_eq :
    rangeEnd offset len objectSize = min (offset.toNat + len.toNat) objectSize.toNat := by
  have := objectSize.toNat_lt
  unfold rangeEnd
  omega

theorem normal_deliver {delivered : List (ℕ × ℕ)} (h : Normal delivered)
    (offset len objectSize : UInt64) : Normal (deliver delivered offset len objectSize) := by
  unfold deliver
  split
  · rename_i hlt
    exact h.add hlt
  · exact h

theorem cover_deliver {delivered : List (ℕ × ℕ)} (h : Normal delivered)
    (offset len objectSize : UInt64) :
    cover (deliver delivered offset len objectSize) = cover delivered ∪
      Set.Ico offset.toNat (min (offset.toNat + len.toNat) objectSize.toNat) := by
  unfold deliver
  rw [rangeEnd_eq]
  split
  · rename_i hlt
    exact cover_add h hlt
  · rename_i hle
    rw [Set.Ico_eq_empty hle, Set.union_empty]

/-! ### When the head moves on -/

variable {q : CameraInitiatedQueue}

/-- **The first range decides.** The head moves on exactly when the delivered
ranges cover the object, an empty one at once. -/
theorem acknowledge_advances_iff (h : Normal q.delivered) (offset len objectSize : UInt64) :
    (q.acknowledge offset len objectSize).1 = true ↔
      Set.Ico 0 objectSize.toNat ⊆ cover (deliver q.delivered offset len objectSize) := by
  have hn := normal_deliver h offset len objectSize
  by_cases hz : objectSize = 0
  · subst hz
    simp [acknowledge]
  · have hpos : 0 < objectSize.toNat := Nat.pos_of_ne_zero fun h0 => hz (UInt64.toNat_inj.mp h0)
    rw [Ico_subset_cover_iff hn (fun r _ => Nat.zero_le r.1) hpos]
    simp [acknowledge, hz, Option.any_eq_true, apply_ite Prod.fst]

variable (q) in
theorem acknowledge_snd :
    (q.acknowledge offset len objectSize).2 =
      if (q.acknowledge offset len objectSize).1 then
        { q with head := q.head + 1, generation := q.generation + 1, delivered := [] }
      else { q with delivered := deliver q.delivered offset len objectSize } := by
  unfold acknowledge
  dsimp only
  split <;> simp

theorem complete_stale {c : StreamCompletion} (h : c.generation ≠ q.generation) :
    q.complete c = (false, q) :=
  if_pos (.inl h.symm)

theorem complete_current {c : StreamCompletion} (hgen : c.generation = q.generation)
    (hh : q.headHandle = some c.handle) :
    q.complete c = q.acknowledge c.offset c.len c.objectSize :=
  if_neg (by simp [hgen, hh])

variable (q) in
/-- A completion keeps the handles, and moves the head by at most one. -/
theorem complete_moves (c : StreamCompletion) :
    (q.complete c).2.handles = q.handles ∧
      (q.complete c).2.head = if (q.complete c).1 then q.head + 1 else q.head := by
  unfold complete
  split
  · exact ⟨rfl, rfl⟩
  · rw [acknowledge_snd]
    split <;> exact ⟨rfl, rfl⟩

end CameraInitiatedQueue
end Ptpsim.Sim
