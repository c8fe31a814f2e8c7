import Mathlib.Algebra.Group.Int.Defs
import Mathlib.Algebra.Group.Nat.Defs
import Mathlib.Algebra.Order.Floor.Div
import Mathlib.Data.Int.Basic
import Mathlib.Data.Nat.Bitwise
import Mathlib.Tactic.Common

/-!
# Arithmetic of machine words

`Int32.ofNat n` is a counter that was incremented `n` times from 0, wrapping.

* `toInt_ofNat_sub` : the difference of two counters is right as long as the counts are near each other;
* `ofNat_eq_zero_iff` : a counter is 0 after every 2^32 increments;
* `toInt_ofNat_mod` : the remainder is that of the count below 2^31. Beyond, `%` follows the sign of the counter.

Sizes are rounded up to a multiple.

* `roundUp a x` : the least multiple of `a` from `x` on (`roundUp_le_iff`);
* `ldiff_eq_roundUp` : for a power of two it is the masked sum;
* `roundUp_eq_of_dvd` : a rounding that happens to reach a coarser multiple is the coarser rounding;
* `roundUp_eq_of_dvd_mul` : this is so when a multiple of it by a number `c` coprime to 2 is divisible by the coarser
  power of two. A search that doubles the alignment until a row of `c` bytes per unit is aligned therefore ends with one
  result.
-/

namespace Conc

/-! ## Counters of 32 bits -/

theorem ofNat_succ (n : Nat) : Int32.ofNat (n + 1) = Int32.ofNat n + 1 := Int32.ofNat_add n 1

theorem toInt_ofNat_sub {m n : Nat} (h : n ≤ m) (hd : m - n < 2 ^ 31) :
    (Int32.ofNat m - Int32.ofNat n).toInt = (m : Int) - n := by
  rw [Int32.toInt_sub, Int32.toInt_ofNat', Int32.toInt_ofNat', Int32.size, Int.sub_bmod_bmod, Int.bmod_sub_bmod]
  apply Int.bmod_eq_of_le
  · omega
  · omega

theorem ofNat_eq_zero_iff {n : Nat} : Int32.ofNat n = 0 ↔ 2 ^ 32 ∣ n := by
  rw [← Int32.toInt_inj, Int32.toInt_ofNat', Int32.toInt_zero, Int32.size, ← Int.dvd_iff_bmod_eq_zero,
    Int.natCast_dvd_natCast]
  rfl

theorem toInt_ofNat_mod {n k : Nat} (hn : n < 2 ^ 31) (hk : k < 2 ^ 31) :
    (Int32.ofNat n % Int32.ofNat k).toInt = (n % k : Nat) := by
  rw [Int32.toInt_mod, Int32.toInt_ofNat_of_lt hn, Int32.toInt_ofNat_of_lt hk,
    Int.tmod_eq_emod_of_nonneg (Int.natCast_nonneg n), Int.natCast_mod]

/-! ## Rounding up -/

/-- **The least multiple of `a` from `x` on.** -/
def roundUp (a x : Nat) : Nat := a * (x ⌈/⌉ a)

theorem dvd_roundUp (a x : Nat) : a ∣ roundUp a x := Nat.dvd_mul_right _ _

@[simp] theorem roundUp_zero (a : Nat) : roundUp a 0 = 0 := by simp [roundUp]

theorem roundUp_le_iff {a x y : Nat} (ha : 0 < a) (hy : a ∣ y) : roundUp a x ≤ y ↔ x ≤ y := by
  obtain ⟨c, rfl⟩ := hy
  rw [roundUp, Nat.mul_le_mul_left_iff ha, ceilDiv_le_iff_le_mul ha]

theorem le_roundUp {a : Nat} (ha : 0 < a) (x : Nat) : x ≤ roundUp a x :=
  (roundUp_le_iff ha (dvd_roundUp a x)).mp le_rfl

theorem roundUp_lt {a : Nat} (ha : 0 < a) (x : Nat) : roundUp a x < x + a := by
  rw [roundUp, Nat.ceilDiv_eq_add_pred_div]
  have := Nat.mul_div_le (x + a - 1) a
  omega

theorem roundUp_eq_self_iff {a x : Nat} (ha : 0 < a) : roundUp a x = x ↔ a ∣ x := by
  constructor
  · intro h
    rw [← h]
    exact dvd_roundUp a x
  · intro h
    exact le_antisymm ((roundUp_le_iff ha h).mpr le_rfl) (le_roundUp ha x)

theorem roundUp_eq_of_dvd {a b x : Nat} (ha : 0 < a) (hb : 0 < b) (hab : a ∣ b) (h : b ∣ roundUp a x) :
    roundUp a x = roundUp b x := by
  apply le_antisymm
  · exact (roundUp_le_iff ha (hab.trans (dvd_roundUp b x))).mpr (le_roundUp hb x)
  · exact (roundUp_le_iff hb h).mpr (le_roundUp ha x)

theorem roundUp_eq_of_dvd_mul {c j k x : Nat} (hc : Nat.Coprime 2 c) (hjk : j ≤ k) (h : 2 ^ k ∣ c * roundUp (2 ^ j) x) :
    roundUp (2 ^ j) x = roundUp (2 ^ k) x := by
  have hcoprime : Nat.Coprime (2 ^ k) c := hc.pow_left k
  have hdvd : 2 ^ k ∣ roundUp (2 ^ j) x := hcoprime.dvd_of_dvd_mul_left h
  exact roundUp_eq_of_dvd (Nat.two_pow_pos j) (Nat.two_pow_pos k) (Nat.pow_dvd_pow 2 hjk) hdvd

/-- Clearing the low bits. -/
theorem ldiff_two_pow_sub_one (x k : Nat) : Nat.ldiff x (2 ^ k - 1) = 2 ^ k * (x / 2 ^ k) := by
  apply Nat.eq_of_testBit_eq
  intro i
  rw [Nat.testBit_ldiff, Nat.testBit_two_pow_sub_one, Nat.testBit_two_pow_mul, Nat.testBit_div_two_pow]
  by_cases hi : i < k
  · simp [hi]
  · simp [hi, Nat.not_lt.mp hi]

theorem land_two_pow_sub_one_eq_zero_iff {x k : Nat} : x &&& (2 ^ k - 1) = 0 ↔ 2 ^ k ∣ x := by
  rw [Nat.and_two_pow_sub_one_eq_mod, Nat.dvd_iff_mod_eq_zero]

theorem ldiff_eq_roundUp (x k : Nat) : Nat.ldiff (x + 2 ^ k - 1) (2 ^ k - 1) = roundUp (2 ^ k) x := by
  rw [ldiff_two_pow_sub_one, roundUp, Nat.ceilDiv_eq_add_pred_div]

end Conc
