import DegreeProgress.Decimal.Binary
import Mathlib.Algebra.Order.Field.Basic
import Mathlib.Algebra.Order.Ring.Rat
import Mathlib.Tactic.Linarith

/-!
# The order of bit patterns

Among numbers that are finite and not negative the order of bit patterns is that of the values
(`exactValue_le_of_orderKey_le`).  Such a number is a multiple of the smallest positive one, and its
bits say which (`steps`).
-/

namespace DegreeProgress

/-- how many times the smallest positive number a positive number is, by its bits -/
def steps (bits : Nat) : Nat :=
  (if bits / fractionCount = 0 then bits % fractionCount
    else fractionCount + bits % fractionCount) * 2 ^ (bits / fractionCount - 1)

theorem steps_lt (bits : Nat) : steps bits < fractionCount * 2 ^ (bits / fractionCount) := by
  have hfraction : bits % fractionCount < fractionCount := Nat.mod_lt _ (by decide)
  unfold steps
  cases hexponent : bits / fractionCount with
  | zero => simpa using hfraction
  | succ n =>
    rw [if_neg (Nat.succ_ne_zero n), Nat.add_sub_cancel, Nat.pow_succ, Nat.mul_comm (2 ^ n) 2,
      ← Nat.mul_assoc]
    exact Nat.mul_lt_mul_of_pos_right (by omega) (Nat.two_pow_pos n)

theorem le_steps {bits n : Nat} (h : n < bits / fractionCount) :
    fractionCount * 2 ^ n ≤ steps bits := by
  unfold steps
  rw [if_neg (by omega)]
  exact Nat.mul_le_mul (Nat.le_add_right _ _) (Nat.pow_le_pow_right (by decide) (by omega))

theorem steps_mono {bits bits' : Nat} (h : bits ≤ bits') : steps bits ≤ steps bits' := by
  have hexponent : bits / fractionCount ≤ bits' / fractionCount := Nat.div_le_div_right h
  rcases Nat.eq_or_lt_of_le hexponent with heq | hlt
  · -- with one exponent the fractions decide
    have hfraction : bits % fractionCount ≤ bits' % fractionCount := by
      have := Nat.div_add_mod bits fractionCount
      have := Nat.div_add_mod bits' fractionCount
      rw [heq] at *
      omega
    unfold steps
    rw [heq]
    apply Nat.mul_le_mul_right
    split <;> omega
  · exact (steps_lt bits).le.trans (le_steps hlt)

/-- a finite number without a sign is as many steps from zero as its bits say -/
theorem exactValue_eq_steps {x : Float} (hfinite : isFinite x = true)
    (hsign : x.toBits.toNat < signWeight) :
    exactValue x = steps x.toBits.toNat * (2 : Rat) ^ (-1074 : Int) := by
  unfold isFinite at hfinite
  unfold exactValue
  unfold unpack at hfinite ⊢
  unfold steps
  generalize x.toBits.toNat = bits at hfinite hsign ⊢
  have hexponent : bits / fractionCount % exponentCount = bits / fractionCount :=
    Nat.mod_eq_of_lt (Nat.div_lt_of_lt_mul hsign)
  have hnotNegative : decide (signWeight ≤ bits) = false := decide_eq_false (by omega)
  simp only [hexponent, hnotNegative] at hfinite ⊢
  by_cases hspecial : bits / fractionCount = 2047
  · -- the last exponent is that of infinity and of what is no number
    rw [if_pos hspecial] at hfinite
    by_cases hfraction : bits % fractionCount = 0
    · rw [if_pos hfraction] at hfinite
      cases hfinite
    · rw [if_neg hfraction] at hfinite
      cases hfinite
  · rw [if_neg hspecial]
    cases hexp : bits / fractionCount with
    | zero => simp
    | succ n =>
      have hpower : ((n + 1 : Nat) : Int) - 1075 = (n : Int) + -1074 := by omega
      simp only [Nat.succ_ne_zero, if_false, Bool.false_eq_true, Nat.add_sub_cancel, hpower]
      rw [zpow_add₀ two_ne_zero, zpow_natCast, one_mul, Nat.cast_mul, Nat.cast_pow, Nat.cast_ofNat,
        mul_assoc]

theorem exactValue_nonpos {x : Float} (hsign : signWeight ≤ x.toBits.toNat) :
    exactValue x ≤ 0 := by
  have hfraction (m : Nat) (q : Int) : -1 * (m : Rat) * 2 ^ q ≤ 0 := by
    have hpower : (0 : Rat) < 2 ^ q := zpow_pos two_pos q
    have hnonneg : (0 : Rat) ≤ m * 2 ^ q := mul_nonneg (Nat.cast_nonneg m) hpower.le
    linarith
  unfold exactValue unpack
  generalize x.toBits.toNat = bits at hsign ⊢
  simp only [decide_eq_true hsign]
  by_cases hspecial : bits / fractionCount % exponentCount = 2047
  · rw [if_pos hspecial]
    split_ifs <;> exact le_refl _
  · rw [if_neg hspecial]
    split_ifs
    · exact hfraction _ _
    · exact hfraction _ _

/-- **Bits order numbers by their values,** if these are finite and not negative. -/
theorem exactValue_le_of_orderKey_le {x y : Float} (hx : isFinite x = true)
    (hy : isFinite y = true) (hvalue : 0 ≤ exactValue y) (h : orderKey x ≤ orderKey y) :
    exactValue x ≤ exactValue y := by
  by_cases hsign : x.toBits.toNat < signWeight
  · have hbits : x.toBits.toNat ≤ y.toBits.toNat ∧ y.toBits.toNat < signWeight := by
      unfold orderKey at h
      simp only [if_pos hsign] at h
      split at h <;> omega
    rw [exactValue_eq_steps hx hsign, exactValue_eq_steps hy hbits.2]
    apply mul_le_mul_of_nonneg_right _ (zpow_nonneg two_pos.le _)
    exact_mod_cast steps_mono hbits.1
  · exact (exactValue_nonpos (Nat.not_lt.mp hsign)).trans hvalue

end DegreeProgress
