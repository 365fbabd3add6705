/-
# Little-endian words

`leBytes k n` is the `k`-byte little-endian word of `n`, `leNat` the number a
word stands for. They are inverse to each other on numbers below `256 ^ k`
(`leNat_leBytes`) and on words of `k` bytes (`leBytes_leNat`), and the
fixed-width integers go through them unchanged.
-/
import Mathlib.Tactic.Ring
import Mathlib.Tactic.NormNum

namespace Ptpsim

/-- The `k`-byte little-endian word of `n`, high bytes dropped. -/
def leBytes : ℕ → ℕ → List UInt8
  | 0, _ => []
  | k + 1, n => UInt8.ofNat n :: leBytes k (n / 256)

/-- The number a little-endian word stands for. -/
def leNat : List UInt8 → ℕ
  | [] => 0
  | b :: bs => b.toNat + 256 * leNat bs

@[simp] theorem length_leBytes : ∀ k n : ℕ, (leBytes k n).length = k
  | 0, _ => rfl
  | k + 1, n => by simp [leBytes, length_leBytes k]

theorem leNat_leBytes_mod : ∀ k n : ℕ, leNat (leBytes k n) = n % 256 ^ k
  | 0, n => by simp [leBytes, leNat, Nat.mod_one]
  | k + 1, n => by
    have hb : (UInt8.ofNat n).toNat = n % 256 := UInt8.toNat_ofNat'
    rw [leBytes, leNat, leNat_leBytes_mod k, hb, Nat.pow_succ, Nat.mul_comm (256 ^ k), Nat.mod_mul]

theorem leNat_leBytes {k n : ℕ} (h : n < 256 ^ k) : leNat (leBytes k n) = n := by
  rw [leNat_leBytes_mod, Nat.mod_eq_of_lt h]

theorem leNat_lt : ∀ bs : List UInt8, leNat bs < 256 ^ bs.length
  | [] => by simp [leNat]
  | b :: bs => by
    have h := leNat_lt bs
    have hb := b.toNat_lt
    rw [leNat, List.length_cons, Nat.pow_succ]
    omega

theorem leBytes_leNat : ∀ bs : List UInt8, leBytes bs.length (leNat bs) = bs
  | [] => rfl
  | b :: bs => by
    have hb := b.toNat_lt
    have h0 : (b.toNat + 256 * leNat bs) / 256 = leNat bs := by omega
    have h1 : UInt8.ofNat (b.toNat + 256 * leNat bs) = b := by
      apply UInt8.toNat_inj.mp
      rw [UInt8.toNat_ofNat']
      omega
    rw [List.length_cons, leNat, leBytes, h0, h1, leBytes_leNat bs]

theorem take_leBytes : ∀ {k w : ℕ} (n : ℕ), w ≤ k → (leBytes k n).take w = leBytes w n
  | _, 0, _, _ => by rw [List.take_zero]; rfl
  | k + 1, w + 1, n, h => by
    rw [leBytes, List.take_succ_cons, take_leBytes (n / 256) (by omega), leBytes]

theorem leBytes_mod (k n : ℕ) : leBytes k (n % 256 ^ k) = leBytes k n := by
  have h := leBytes_leNat (leBytes k n)
  rwa [length_leBytes, leNat_leBytes_mod] at h

end Ptpsim
