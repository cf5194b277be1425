import CallRouter.Metrics.Basic
import Mathlib.Algebra.Order.Group.Int
import Mathlib.Algebra.Order.Group.Nat
import Mathlib.Data.Nat.Log

namespace CallRouter

namespace Binary64

theorem roundHalfEven_scale (numerator denominator : Nat) {factor : Nat} (some : 0 < factor) :
    roundHalfEven (numerator * factor) (denominator * factor) =
      roundHalfEven numerator denominator := by
  have twice : 2 * (numerator % denominator * factor) = 2 * (numerator % denominator) * factor :=
    (Nat.mul_assoc _ _ _).symm
  simp only [roundHalfEven, Nat.mul_div_mul_right _ _ some, Nat.mul_mod_mul_right, twice, gt_iff_lt,
    Nat.mul_lt_mul_right some, beq_eq_decide, Nat.mul_right_cancel_iff some]

theorem descale_scale (numerator denominator factor : Nat) (exponent : Int) :
    descale (numerator * factor) (denominator * factor) exponent =
      ((descale numerator denominator exponent).1 * factor,
        (descale numerator denominator exponent).2 * factor) := by
  unfold descale
  split <;> simp only [Nat.shiftLeft_eq, Nat.mul_right_comm]

theorem log2_scale {n : Nat} (some : n ≠ 0) (k : Nat) : (n * 2 ^ k).log2 = n.log2 + k := by
  have positive : 0 < 2 ^ k := Nat.two_pow_pos k
  rw [Nat.log2_eq_iff (Nat.mul_ne_zero some positive.ne'), Nat.add_right_comm, Nat.pow_add,
    Nat.pow_add]
  exact ⟨Nat.mul_le_mul_right _ (Nat.log2_self_le some),
    Nat.mul_lt_mul_of_pos_right Nat.lt_log2_self positive⟩

theorem nearest_scale (numerator : Nat) {denominator : Nat} (some : denominator ≠ 0) (k : Nat) :
    nearest (numerator * 2 ^ k) (denominator * 2 ^ k) = nearest numerator denominator := by
  have positive : 0 < 2 ^ k := Nat.two_pow_pos k
  by_cases zero : numerator = 0
  · simp [nearest, zero]
  have logs : ((numerator * 2 ^ k).log2 : Int) - (denominator * 2 ^ k).log2 =
      numerator.log2 - denominator.log2 := by
    rw [log2_scale zero, log2_scale some]
    omega
  have compare (high low : Nat) : high * 2 ^ k ≥ 9007199254740992 * (low * 2 ^ k) ↔
      high ≥ 9007199254740992 * low := by
    rw [← Nat.mul_assoc]
    exact Nat.mul_le_mul_right_iff positive
  simp only [nearest, logs, descale_scale, compare, roundHalfEven_scale _ _ positive,
    Nat.mul_eq_zero, positive.ne', or_false]

theorem roundHalfEven_one (n : Nat) : roundHalfEven n 1 = n := by simp [roundHalfEven, Nat.mod_one]

theorem descale_one (n : Nat) {exponent : Int} (low : exponent ≤ 0) :
    descale n 1 exponent = (n * 2 ^ (-exponent).toNat, 1) := by
  unfold descale
  split
  · obtain rfl : exponent = 0 := by omega
    simp
  · rw [Nat.shiftLeft_eq]

theorem nearest_one_of_lt {n : Nat} (some : n ≠ 0) (small : n < 2 ^ 53) :
    nearest n 1 = .some ⟨false, n * 2 ^ (52 - n.log2), (n.log2 : Int) - 52⟩ := by
  have log : n.log2 < 53 := (Nat.log2_lt some).mpr small
  have scaled : 2 ^ n.log2 * 2 ^ (53 - n.log2) = 2 ^ 53 := by
    rw [← Nat.pow_add, Nat.add_sub_cancel' log.le]
  have least : 2 ^ 53 ≤ n * 2 ^ (53 - n.log2) := by
    rw [← scaled]
    exact Nat.mul_le_mul_right _ (Nat.log2_self_le some)
  have greatest : n * 2 ^ (52 - n.log2) < 2 ^ 53 := by
    calc n * 2 ^ (52 - n.log2)
      _ < 2 ^ (n.log2 + 1) * 2 ^ (52 - n.log2) :=
        Nat.mul_lt_mul_of_pos_right Nat.lt_log2_self (Nat.two_pow_pos _)
      _ = 2 ^ 53 := by
        rw [← Nat.pow_add]
        congr 1
        omega
  have guess : (if (n.log2 : Int) - (1 : Nat).log2 - 53 < -1074 then -1074
      else (n.log2 : Int) - (1 : Nat).log2 - 53) = (n.log2 : Int) - 53 := by
    rw [show (1 : Nat).log2 = 0 by decide, if_neg (by omega)]
    omega
  have first : descale n 1 ((n.log2 : Int) - 53) = (n * 2 ^ (53 - n.log2), 1) := by
    rw [descale_one n (by omega)]
    congr
    omega
  have second : descale n 1 ((n.log2 : Int) - 53 + 1) = (n * 2 ^ (52 - n.log2), 1) := by
    rw [descale_one n (by omega)]
    congr
    omega
  simp only [nearest, if_neg some, guess, first]
  rw [if_pos (show n * 2 ^ (53 - n.log2) ≥ 9007199254740992 * 1 by omega)]
  simp only [second, roundHalfEven_one]
  rw [if_neg (show n * 2 ^ (52 - n.log2) ≠ 9007199254740992 by omega),
    if_neg (show ¬ (n.log2 : Int) - 53 + 1 > 971 by omega)]
  congr 2
  omega

theorem nearest_shifted (n k : Nat) : nearest (n * 1 <<< k) (1 <<< k) = nearest n 1 := by
  have scaled := nearest_scale n Nat.one_ne_zero k
  rwa [Nat.one_mul, ← Nat.one_shiftLeft] at scaled

theorem shifted {places more all : Nat} (sum : places + more = all) (n : Nat) :
    (n * 2 ^ places) <<< more = n * 1 <<< all := by
  rw [Nat.shiftLeft_eq, Nat.mul_assoc, ← Nat.pow_add, sum, Nat.one_shiftLeft]

theorem one_shiftLeft_pos (k : Nat) : 0 < 1 <<< k := by
  rw [Nat.one_shiftLeft]
  exact Nat.two_pow_pos k

theorem nearest_one {n : Nat} (small : n ≤ 2 ^ 53) :
    ∃ x, nearest n 1 = some x ∧ x.mantissa <<< (x.exponent + 1074).toNat = n * 1 <<< 1074 := by
  by_cases none : n = 0
  · subst none
    exact ⟨zero false, rfl, (Nat.zero_shiftLeft _).trans (Nat.zero_mul _).symm⟩
  rcases small.lt_or_eq with less | rfl
  · have log : n.log2 < 53 := (Nat.log2_lt none).mpr less
    have places : 52 - n.log2 + ((n.log2 : Int) - 52 + 1074).toNat = 1074 := by omega
    exact ⟨_, nearest_one_of_lt none less, shifted places n⟩
  · exact ⟨⟨false, 4503599627370496, 1⟩, by decide +kernel, by decide +kernel⟩

theorem signed_scale (n : Int) (factor : Nat) :
    (if n < 0 then -((n.natAbs * factor : Nat) : Int) else (n.natAbs * factor : Nat)) =
      n * factor := by
  rcases Int.eq_nat_or_neg n with ⟨m, rfl | rfl⟩
  · rw [if_neg (by omega), Int.natAbs_natCast, Int.natCast_mul]
  · rw [Int.natAbs_neg, Int.natAbs_natCast, Int.natCast_mul, Int.neg_mul]
    split
    · rfl
    · obtain rfl : m = 0 := by omega
      simp

theorem mul_natCast_neg_iff (n : Int) {factor : Nat} (positive : 0 < factor) :
    n * factor < 0 ↔ n < 0 := by
  have positive : (0 : Int) < factor := Int.natCast_pos.mpr positive
  constructor
  · intro less
    exact Int.lt_of_mul_lt_mul_right (by rwa [Int.zero_mul]) positive.le
  · intro less
    exact Int.mul_neg_of_neg_of_pos less positive

theorem ofInt_of_small {n : Int} (small : n.natAbs ≤ 2 ^ 53) :
    ∃ x, ofInt n = some x ∧ x.units = n * (1 <<< 1074 : Nat) := by
  obtain ⟨x, near, magnitude⟩ := nearest_one small
  refine ⟨x.withSign (decide (n < 0)), by rw [ofInt, near, Option.map_some], ?_⟩
  simp only [units, withSign, magnitude, decide_eq_true_eq]
  exact signed_scale n _

theorem plus_eq_ofInt {x y : Binary64} {a b : Int} (first : x.units = a * (1 <<< 1074 : Nat))
    (second : y.units = b * (1 <<< 1074 : Nat)) : x.plus y = ofInt (a + b) := by
  rw [plus, first, second, ← Int.add_mul]
  simp only [mul_natCast_neg_iff _ (one_shiftLeft_pos _), Int.natAbs_mul, Int.natAbs_natCast,
    nearest_shifted, ofInt]

end Binary64

namespace Metrics

theorem ofInt_eq_whole {n : Int} (small : n.natAbs ≤ 2 ^ 53) :
    Binary64.ofInt n = some (whole n) := by
  obtain ⟨x, same, -⟩ := Binary64.ofInt_of_small small
  rw [whole, same, Option.getD_some]

theorem units_whole {n : Int} (small : n.natAbs ≤ 2 ^ 53) :
    (whole n).units = n * (1 <<< 1074 : Nat) := by
  obtain ⟨x, same, units⟩ := Binary64.ofInt_of_small small
  rw [whole, same, Option.getD_some, units]

theorem negative_whole (n : Nat) : (whole n).negative = false := by
  have sign : decide ((n : Int) < 0) = false := decide_eq_false (by omega)
  rw [whole, Binary64.ofInt, sign]
  cases Binary64.nearest (n : Int).natAbs 1 <;> rfl

theorem plus_whole {a b : Int} (first : a.natAbs ≤ 2 ^ 53) (second : b.natAbs ≤ 2 ^ 53)
    (sum : (a + b).natAbs ≤ 2 ^ 53) :
    (Amount.finite (whole a)).plus (whole b) = .finite (whole (a + b)) := by
  rw [Amount.plus, Binary64.plus_eq_ofInt (units_whole first) (units_whole second),
    ofInt_eq_whole sum]

end Metrics

end CallRouter
