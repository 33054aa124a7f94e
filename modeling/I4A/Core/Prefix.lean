import Mathlib.Data.Nat.Log
import Mathlib.Tactic.Ring

/-! # Address blocks named by a prefix

A prefix of length `k` over `w`-bit addresses is the mask with `k` leading
ones. The blocks of that length are numbered by `0 ≤ q < 2 ^ k`; an address
lies in block `q` exactly when its quotient by the block size is `q`. Nesting
and disjointness of blocks are then facts about quotients. Any width, no
particular address plan.
-/

namespace I4A.Prefix

variable {w : Nat}

/-- The contiguous mask with `k` leading ones. -/
def mask (w k : Nat) : BitVec w := BitVec.allOnes w <<< (w - k)

/-- The number of the length `k` block an address lies in. -/
def block (k : Nat) (x : BitVec w) : Nat := x.toNat / 2 ^ (w - k)

/-- The first address of block number `q` of length `k`. -/
def base (w k q : Nat) : BitVec w := BitVec.ofNat w (q * 2 ^ (w - k))

theorem mask_toNat {k : Nat} (hk : k ≤ w) : (mask w k).toNat = 2 ^ w - 2 ^ (w - k) := by
  have hsplit : 2 ^ w = 2 ^ k * 2 ^ (w - k) := by
    rw [← Nat.pow_add]
    congr 1
    omega
  have hpos : 0 < 2 ^ (w - k) := Nat.two_pow_pos _
  have hkpos : 0 < 2 ^ k := Nat.two_pow_pos _
  have hle : 2 ^ (w - k) ≤ 2 ^ w := Nat.pow_le_pow_right (by decide) (Nat.sub_le _ _)
  have hprod : (2 ^ w - 1) * 2 ^ (w - k) =
      (2 ^ w - 2 ^ (w - k)) + (2 ^ (w - k) - 1) * 2 ^ w := by
    have h1 : (2 ^ w - 1) * 2 ^ (w - k) = 2 ^ w * 2 ^ (w - k) - 2 ^ (w - k) := by
      rw [Nat.sub_mul, Nat.one_mul]
    have h2 : (2 ^ (w - k) - 1) * 2 ^ w = 2 ^ w * 2 ^ (w - k) - 2 ^ w := by
      rw [Nat.sub_mul, Nat.one_mul, Nat.mul_comm]
    have h3 : 2 ^ w ≤ 2 ^ w * 2 ^ (w - k) := Nat.le_mul_of_pos_right _ hpos
    omega
  rw [mask, BitVec.toNat_shiftLeft, BitVec.toNat_allOnes, Nat.shiftLeft_eq, hprod,
    Nat.add_mul_mod_self_right]
  exact Nat.mod_eq_of_lt (by omega)

theorem mask_lt_mask {j k : Nat} (hjk : j < k) (hk : k ≤ w) : mask w j < mask w k := by
  have hlt : 2 ^ (w - k) < 2 ^ (w - j) := Nat.pow_lt_pow_right (by decide) (by omega)
  have hle : 2 ^ (w - j) ≤ 2 ^ w := Nat.pow_le_pow_right (by decide) (Nat.sub_le _ _)
  rw [BitVec.lt_def, mask_toNat (by omega), mask_toNat hk]
  omega

theorem mask_injective {j k : Nat} (hj : j ≤ w) (hk : k ≤ w) (h : mask w j = mask w k) :
    j = k := by
  rcases Nat.lt_trichotomy j k with hlt | heq | hgt
  · have hm := mask_lt_mask hlt hk
    rw [h] at hm
    exact absurd hm (BitVec.lt_irrefl _)
  · exact heq
  · have hm := mask_lt_mask hgt hj
    rw [h] at hm
    exact absurd hm (BitVec.lt_irrefl _)

theorem and_mask (x : BitVec w) (k : Nat) : x &&& mask w k = (x >>> (w - k)) <<< (w - k) := by
  apply BitVec.eq_of_getLsbD_eq
  intro i hi
  simp only [mask, BitVec.getLsbD_and, BitVec.getLsbD_shiftLeft, BitVec.getLsbD_allOnes,
    BitVec.getLsbD_ushiftRight, hi, decide_true, Bool.true_and]
  by_cases hlt : i < w - k
  · simp [hlt]
  · have hsub : w - k + (i - (w - k)) = i := by omega
    have hin : i - (w - k) < w := by omega
    simp [hlt, hsub, hin]

theorem and_mask_toNat (x : BitVec w) (k : Nat) :
    (x &&& mask w k).toNat = block k x * 2 ^ (w - k) := by
  have hle : x.toNat / 2 ^ (w - k) * 2 ^ (w - k) ≤ x.toNat := Nat.div_mul_le_self _ _
  have hlt := x.isLt
  rw [and_mask, BitVec.toNat_shiftLeft, BitVec.toNat_ushiftRight, Nat.shiftLeft_eq,
    Nat.shiftRight_eq_div_pow, block]
  exact Nat.mod_eq_of_lt (by omega)

theorem block_lt (k : Nat) (hk : k ≤ w) (x : BitVec w) : block k x < 2 ^ k := by
  have hsplit : 2 ^ w = 2 ^ (w - k) * 2 ^ k := by
    rw [← Nat.pow_add]
    congr 1
    omega
  exact Nat.div_lt_of_lt_mul (by rw [← hsplit]; exact x.isLt)

theorem base_toNat {k q : Nat} (hk : k ≤ w) (hq : q < 2 ^ k) :
    (base w k q).toNat = q * 2 ^ (w - k) := by
  have hsplit : 2 ^ w = 2 ^ k * 2 ^ (w - k) := by
    rw [← Nat.pow_add]
    congr 1
    omega
  rw [base, BitVec.toNat_ofNat]
  apply Nat.mod_eq_of_lt
  rw [hsplit]
  exact Nat.mul_lt_mul_of_pos_right hq (Nat.two_pow_pos _)

theorem block_base {k q : Nat} (hk : k ≤ w) (hq : q < 2 ^ k) : block k (base w k q) = q := by
  rw [block, base_toNat hk hq]
  exact Nat.mul_div_cancel _ (Nat.two_pow_pos _)

theorem and_mask_eq_base {k q : Nat} (hk : k ≤ w) (hq : q < 2 ^ k) (x : BitVec w) :
    x &&& mask w k = base w k q ↔ block k x = q := by
  rw [← BitVec.toNat_inj, and_mask_toNat, base_toNat hk hq]
  exact ⟨fun h => Nat.eq_of_mul_eq_mul_right (Nat.two_pow_pos _) h, fun h => by rw [h]⟩

theorem eq_base_of_and_mask {k : Nat} {x : BitVec w} (h : x &&& mask w k = x) :
    x = base w k (block k x) := by
  have hx := and_mask_toNat x k
  rw [h] at hx
  rw [base, ← hx]
  simp

theorem block_of_longer {j k : Nat} (hjk : j ≤ k) (hk : k ≤ w) (x : BitVec w) :
    block j x = block k x / 2 ^ (k - j) := by
  have hexp : w - j = (w - k) + (k - j) := by omega
  rw [block, block, Nat.div_div_eq_div_mul, hexp, Nat.pow_add]

theorem and_mask_self (k q : Nat) (hk : k ≤ w) (hq : q < 2 ^ k) :
    base w k q &&& mask w k = base w k q :=
  (and_mask_eq_base hk hq _).mpr (block_base hk hq)

theorem or_not_mask_toNat {k q : Nat} (hk : k ≤ w) (hq : q < 2 ^ k) :
    (base w k q ||| ~~~mask w k).toNat = q * 2 ^ (w - k) + (2 ^ (w - k) - 1) := by
  have hpos : 0 < 2 ^ (w - k) := Nat.two_pow_pos _
  have hle : 2 ^ (w - k) ≤ 2 ^ w := Nat.pow_le_pow_right (by decide) (Nat.sub_le _ _)
  have hnot : (~~~mask w k).toNat = 2 ^ (w - k) - 1 := by
    rw [BitVec.toNat_not, mask_toNat hk]
    omega
  rw [BitVec.toNat_or, base_toNat hk hq, hnot, ← Nat.shiftLeft_eq]
  exact (Nat.shiftLeft_add_eq_or_of_lt (by omega) q).symm

end I4A.Prefix
