/-
# Chained block ciphers

A block function `E` is extended to lists of blocks by mixing each block with
what came out for the block before it. `digest` keeps only the last chaining
value; `encryptFrom` puts every one out, and `decryptFrom` takes them apart
again. All that is asked of the mixing is that it commutes and that mixing the
same block in twice takes it out again (`Masking`), as for bytewise xor.
-/
import Mathlib.Logic.Function.Basic

namespace Ptpsim.Chaining

variable {B : Type}

/-- A way to mix two blocks that is undone by mixing again. -/
structure Masking (mix : B → B → B) : Prop where
  comm : ∀ a b, mix a b = mix b a
  cancel : ∀ a b, mix (mix a b) b = a

namespace Masking

variable {mix : B → B → B} (h : Masking mix)
include h

theorem left_injective (b : B) : Function.Injective fun a => mix a b := by
  intro a a' heq
  calc a = mix (mix a b) b := (h.cancel a b).symm
    _ = mix (mix a' b) b := congrArg (fun c => mix c b) heq
    _ = a' := h.cancel a' b

theorem right_injective (a : B) : Function.Injective (mix a) := by
  intro b b' heq
  rw [h.comm a b, h.comm a b'] at heq
  exact h.left_injective a heq

end Masking

/-! ### The digest -/

variable (E D : B → B) (mix : B → B → B)

/-- The last chaining value: each block is mixed into the chain and the result
encrypted. -/
def digest (chain : B) (blocks : List B) : B :=
  blocks.foldl (fun chain block => E (mix chain block)) chain

variable {E D mix}

/-- Different chaining values stay different over the same blocks. -/
theorem digest_chain_injective (hE : Function.Injective E) (hmix : Masking mix) :
    ∀ blocks : List B, Function.Injective fun chain => digest E mix chain blocks
  | [] => fun _ _ h => h
  | block :: blocks => by
    intro chain chain' h
    have hn : E (mix chain block) = E (mix chain' block) := digest_chain_injective hE hmix blocks h
    exact hmix.left_injective block (hE hn)

theorem digest_first_injective (hE : Function.Injective E) (hmix : Masking mix) (chain : B)
    (blocks : List B) : Function.Injective fun first => digest E mix chain (first :: blocks) := by
  intro first first' h
  have hn : E (mix chain first) = E (mix chain first') := digest_chain_injective hE hmix blocks h
  exact hmix.right_injective chain (hE hn)

/-! ### The stream of chaining values -/

variable (E D mix)

/-- Each block is masked by the block put out before it and encrypted. -/
def encryptFrom : B → List B → List B
  | _, [] => []
  | previous, block :: blocks =>
    E (mix block previous) :: encryptFrom (E (mix block previous)) blocks

/-- Each block is decrypted and unmasked by the block taken in before it. -/
def decryptFrom : B → List B → List B
  | _, [] => []
  | previous, block :: blocks => mix (D block) previous :: decryptFrom block blocks

variable {E D mix}

theorem decryptFrom_encryptFrom (hDE : Function.LeftInverse D E) (hmix : Masking mix) :
    ∀ (previous : B) (blocks : List B),
      decryptFrom D mix previous (encryptFrom E mix previous blocks) = blocks
  | _, [] => rfl
  | previous, block :: blocks => by
    -- the chaining value is the same on both sides: the block just put out
    rw [encryptFrom, decryptFrom, hDE, hmix.cancel, decryptFrom_encryptFrom hDE hmix]

theorem encryptFrom_decryptFrom (hED : Function.LeftInverse E D) (hmix : Masking mix) :
    ∀ (previous : B) (blocks : List B),
      encryptFrom E mix previous (decryptFrom D mix previous blocks) = blocks
  | _, [] => rfl
  | previous, block :: blocks => by
    rw [decryptFrom, encryptFrom, hmix.cancel, hED, encryptFrom_decryptFrom hED hmix]

end Ptpsim.Chaining
