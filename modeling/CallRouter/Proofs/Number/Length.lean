import CallRouter.Number.Decimal
import Mathlib.Algebra.Order.Group.Int
import Mathlib.Algebra.Order.Group.Nat
import Mathlib.Data.Nat.Digits.Defs

namespace CallRouter.Binary64

theorem roundHalfEven_le {numerator denominator bound : Nat}
    (below : numerator / denominator < bound) : roundHalfEven numerator denominator ≤ bound := by
  unfold roundHalfEven
  dsimp only
  split <;> omega

theorem descale_div_lt (numerator denominator : Nat) {exponent : Int}
    (high : (numerator.log2 : Int) - denominator.log2 - 53 ≤ exponent) :
    (descale numerator denominator exponent).1 / (descale numerator denominator exponent).2 <
      2 ^ 54 := by
  by_cases none : denominator = 0
  · subst none
    unfold descale
    split <;> simp
  have above : numerator < 2 ^ (numerator.log2 + 1) := Nat.lt_log2_self
  have below : 2 ^ denominator.log2 ≤ denominator := Nat.log2_self_le none
  unfold descale
  split
  · have places : numerator.log2 + 1 ≤ denominator.log2 + exponent.toNat + 54 := by omega
    apply Nat.div_lt_of_lt_mul
    calc numerator
      _ < 2 ^ (denominator.log2 + exponent.toNat + 54) :=
        above.trans_le (Nat.pow_le_pow_right (by decide) places)
      _ = 2 ^ denominator.log2 * 2 ^ exponent.toNat * 2 ^ 54 := by rw [Nat.pow_add, Nat.pow_add]
      _ ≤ denominator <<< exponent.toNat * 2 ^ 54 := by
        rw [Nat.shiftLeft_eq]
        exact Nat.mul_le_mul_right _ (Nat.mul_le_mul_right _ below)
  · have places : numerator.log2 + 1 + (-exponent).toNat ≤ denominator.log2 + 54 := by omega
    apply Nat.div_lt_of_lt_mul
    calc numerator <<< (-exponent).toNat
      _ < 2 ^ (numerator.log2 + 1) * 2 ^ (-exponent).toNat := by
        rw [Nat.shiftLeft_eq]
        exact Nat.mul_lt_mul_of_pos_right above (Nat.two_pow_pos _)
      _ ≤ 2 ^ (denominator.log2 + 54) := by
        rw [← Nat.pow_add]
        exact Nat.pow_le_pow_right (by decide) places
      _ ≤ denominator * 2 ^ 54 := by
        rw [Nat.pow_add]
        exact Nat.mul_le_mul_right _ below

structure IsRounded (x : Binary64) : Prop where
  mantissa : x.mantissa ≤ 2 ^ 54
  exponent : x.exponent ≤ 971

theorem IsRounded.withSign {x : Binary64} (rounded : x.IsRounded) (negative : Bool) :
    (x.withSign negative).IsRounded := ⟨rounded.mantissa, rounded.exponent⟩

theorem isRounded_nearest {numerator denominator : Nat} {x : Binary64}
    (near : nearest numerator denominator = some x) : x.IsRounded := by
  unfold nearest at near
  split at near
  · cases near
    exact ⟨Nat.zero_le _, by decide⟩
  dsimp only at near
  generalize first : (if (numerator.log2 : Int) - denominator.log2 - 53 < -1074 then (-1074 : Int)
    else numerator.log2 - denominator.log2 - 53) = guess at near
  generalize second : (if (descale numerator denominator guess).1 ≥
    9007199254740992 * (descale numerator denominator guess).2 then guess + 1 else guess) =
      exponent at near
  have high : (numerator.log2 : Int) - denominator.log2 - 53 ≤ exponent := by
    split at first <;> split at second <;> omega
  have mantissa := roundHalfEven_le (descale_div_lt numerator denominator high)
  split at near
  · split at near
    · cases near
    · rename_i inside
      exact Option.some.inj near ▸ ⟨show 2 ^ 52 ≤ 2 ^ 54 by decide, Int.not_lt.mp inside⟩
  · split at near
    · cases near
    · rename_i inside
      exact Option.some.inj near ▸ ⟨mantissa, Int.not_lt.mp inside⟩

theorem isRounded_times {x y z : Binary64} (product : x.times y = some z) : z.IsRounded := by
  obtain ⟨_, near, rfl⟩ := Option.map_eq_some_iff.mp product
  exact (isRounded_nearest near).withSign _

theorem isRounded_dividedBy {x y z : Binary64} (quotient : x.dividedBy y = some z) :
    z.IsRounded := by
  obtain ⟨_, near, rfl⟩ := Option.map_eq_some_iff.mp quotient
  exact (isRounded_nearest near).withSign _

theorem IsRounded.timesTenTo {x y : Binary64} (rounded : x.IsRounded) {power : Nat}
    (scaled : x.timesTenTo power = some y) : y.IsRounded := by
  unfold Binary64.timesTenTo at scaled
  split at scaled
  · obtain ⟨_, -, product⟩ := Option.bind_eq_some_iff.mp scaled
    exact isRounded_times product
  · split at scaled
    · exact Option.some.inj scaled ▸ rounded
    · cases scaled

theorem IsRounded.overTenTo {x y : Binary64} (rounded : x.IsRounded) {power : Nat}
    (scaled : x.overTenTo power = some y) : y.IsRounded := by
  fun_induction Binary64.overTenTo x power with
  | case1 x power near =>
    obtain ⟨_, -, quotient⟩ := Option.bind_eq_some_iff.mp scaled
    exact isRounded_dividedBy quotient
  | case2 => exact Option.some.inj scaled ▸ rounded
  | case3 x power far some ih =>
    obtain ⟨quotient, divided, rest⟩ := Option.bind_eq_some_iff.mp scaled
    obtain ⟨_, -, divided⟩ := Option.bind_eq_some_iff.mp divided
    exact ih quotient (isRounded_dividedBy divided) rest

theorem ofDecimal_cases {negative : Bool} {significand : Nat} {power : Int} {x : Binary64}
    (read : ofDecimal negative significand power = some x) :
    ∃ scaled : Binary64, scaled.IsRounded ∧ x = scaled.withSign negative := by
  obtain ⟨start, near, read⟩ := Option.bind_eq_some_iff.mp read
  dsimp only at read
  split at read
  · obtain ⟨scaled, moved, same⟩ := Option.bind_eq_some_iff.mp read
    exact ⟨scaled, (isRounded_nearest near).timesTenTo moved, (Option.some.inj same).symm⟩
  · obtain ⟨scaled, moved, same⟩ := Option.bind_eq_some_iff.mp read
    exact ⟨scaled, (isRounded_nearest near).overTenTo moved, (Option.some.inj same).symm⟩

theorem isRounded_ofDecimal {negative : Bool} {significand : Nat} {power : Int} {x : Binary64}
    (read : ofDecimal negative significand power = some x) : x.IsRounded := by
  obtain ⟨scaled, rounded, rfl⟩ := ofDecimal_cases read
  exact rounded.withSign negative

theorem negative_ofDecimal {negative : Bool} {significand : Nat} {power : Int} {x : Binary64}
    (read : ofDecimal negative significand power = some x) : x.negative = negative := by
  obtain ⟨scaled, -, rfl⟩ := ofDecimal_cases read
  rfl

theorem denominator_pos (x : Binary64) : 0 < x.fraction.2 := by
  unfold fraction
  split
  · exact Nat.one_pos
  · rw [Nat.one_shiftLeft]
    exact Nat.two_pow_pos _

theorem IsRounded.numerator_le {x : Binary64} (rounded : x.IsRounded) :
    x.fraction.1 ≤ 2 ^ 54 * 2 ^ x.exponent.toNat := by
  unfold fraction
  split
  · rw [Nat.shiftLeft_eq]
    exact Nat.mul_le_mul_right _ rounded.mantissa
  · exact rounded.mantissa.trans (Nat.le_mul_of_pos_right _ (Nat.two_pow_pos _))

theorem digitCount_pos (numerator denominator shift : Nat) :
    0 < digitCount numerator denominator shift := Nat.length_toDigits_pos

theorem lt_of_digitCount (numerator shift : Nat) {denominator : Nat} (some : 0 < denominator) :
    numerator * 10 ^ shift < 10 ^ digitCount numerator denominator shift * denominator := by
  rw [← Nat.div_lt_iff_lt_mul some]
  exact (Nat.length_toDigits_le_iff (by decide) (digitCount_pos _ _ _)).mp (Nat.le_refl _)

theorem digitCount_le {numerator places : Nat} (denominator shift : Nat) (some : 0 < places + shift)
    (below : numerator < 10 ^ places) :
    digitCount numerator denominator shift ≤ places + shift := by
  refine (Nat.length_toDigits_le_iff (by decide) some).mpr ?_
  calc numerator * 10 ^ shift / denominator
    _ ≤ numerator * 10 ^ shift := Nat.div_le_self _ _
    _ < 10 ^ places * 10 ^ shift := Nat.mul_lt_mul_of_pos_right below (Nat.pow_pos (by decide))
    _ = 10 ^ (places + shift) := (Nat.pow_add _ _ _).symm

def front (numerator denominator : Nat) (power : Int) : Nat :=
  if 0 ≤ power then numerator / (denominator * Nat.pow 10 power.toNat)
  else numerator * Nat.pow 10 (-power).toNat / denominator

theorem front_lt {numerator denominator : Nat} (some : 0 < denominator) {length : Nat}
    {power : Int} (shift : Nat)
    (places : (digitCount numerator denominator shift : Int) = length + power + shift) :
    front numerator denominator power < 10 ^ length := by
  have below := lt_of_digitCount numerator shift some
  generalize digitCount numerator denominator shift = count at below places
  have positive : 0 < 10 ^ shift := Nat.pow_pos (by decide)
  unfold front
  split
  · obtain rfl : count = length + power.toNat + shift := by omega
    apply Nat.div_lt_of_lt_mul
    apply Nat.lt_of_mul_lt_mul_right (a := 10 ^ shift)
    calc numerator * 10 ^ shift
      _ < 10 ^ (length + power.toNat + shift) * denominator := below
      _ = denominator * 10 ^ power.toNat * 10 ^ length * 10 ^ shift := by
        rw [Nat.pow_add, Nat.pow_add]
        ring
  · have sum : count + (-power).toNat = length + shift := by omega
    apply Nat.div_lt_of_lt_mul
    apply Nat.lt_of_mul_lt_mul_right (a := 10 ^ shift)
    calc numerator * 10 ^ (-power).toNat * 10 ^ shift
      _ = numerator * 10 ^ shift * 10 ^ (-power).toNat := Nat.mul_right_comm _ _ _
      _ < 10 ^ count * denominator * 10 ^ (-power).toNat :=
        Nat.mul_lt_mul_of_pos_right below (Nat.pow_pos (by decide))
      _ = denominator * (10 ^ count * 10 ^ (-power).toNat) := by ring
      _ = denominator * 10 ^ length * 10 ^ shift := by
        rw [← Nat.pow_add, sum, Nat.pow_add, Nat.mul_assoc]

variable {x : Binary64}

theorem leadingPower_eq (x : Binary64) :
    x.leadingPower = (digitCount x.fraction.1 x.fraction.2 400 : Int) - 401 := rfl

theorem leadingPower_ge (x : Binary64) : -400 ≤ x.leadingPower := by
  have some : 0 < digitCount x.fraction.1 x.fraction.2 400 := digitCount_pos _ _ _
  rw [leadingPower_eq]
  omega

theorem IsRounded.leadingPower_le (rounded : x.IsRounded) : x.leadingPower ≤ 341 := by
  -- The number of places has a name, as its powers are not to be computed.
  obtain ⟨places, limit⟩ : ∃ places, places = 342 := ⟨_, rfl⟩
  have exponent : 54 + x.exponent.toNat ≤ 3 * places := by
    have := rounded.exponent
    omega
  have below : x.fraction.1 < 10 ^ places :=
    calc x.fraction.1
      _ ≤ 2 ^ (54 + x.exponent.toNat) := by
        rw [Nat.pow_add]
        exact rounded.numerator_le
      _ ≤ 2 ^ (3 * places) := Nat.pow_le_pow_right (by decide) exponent
      _ = 8 ^ places := Nat.pow_mul 2 3 places
      _ < 10 ^ places := Nat.pow_lt_pow_left (by decide) (by omega)
  have count := digitCount_le x.fraction.2 400 (by omega) below
  rw [leadingPower_eq]
  omega

theorem ofPower_cases {power : Int} {decimal : Decimal} (found : x.ofPower power = some decimal) :
    decimal = ⟨front x.fraction.1 x.fraction.2 power, power⟩ ∨
      decimal = ⟨front x.fraction.1 x.fraction.2 power + 1, power⟩ := by
  have among (near far : Decimal) (found : [near, far].find? x.readsBack = some decimal) :
      decimal = near ∨ decimal = far := by
    simpa using List.mem_of_find?_eq_some found
  unfold ofPower at found
  unfold front
  dsimp only at found
  by_cases sign : 0 ≤ power
  · simp only [sign, if_true] at found ⊢
    split at found
    · exact among _ _ found
    · exact (among _ _ found).symm
  · simp only [sign, if_false] at found ⊢
    split at found
    · exact among _ _ found
    · exact (among _ _ found).symm

theorem ofLength_le {length : Nat} {decimal : Decimal}
    (found : x.ofLength length = some decimal) :
    decimal.digits ≤ 10 ^ length ∧ decimal.power = x.leadingPower - length + 1 := by
  have digits : front x.fraction.1 x.fraction.2 (x.leadingPower - length + 1) < 10 ^ length := by
    refine front_lt x.denominator_pos 400 ?_
    rw [leadingPower_eq]
    omega
  rcases ofPower_cases found with rfl | rfl
  · exact ⟨digits.le, rfl⟩
  · exact ⟨digits, rfl⟩

theorem shortest_cases (x : Binary64) : x.shortest = ⟨0, 0⟩ ∨
    ∃ length : Nat, 0 < length ∧ length ≤ 17 ∧ x.shortest.digits ≤ 10 ^ length ∧
      x.shortest.power = x.leadingPower - length + 1 := by
  unfold shortest
  cases found : (List.range 17).findSome? fun length => x.ofLength (length + 1) with
  | none => exact .inl rfl
  | some decimal =>
    obtain ⟨length, member, short⟩ := List.exists_of_findSome?_eq_some found
    obtain ⟨digits, power⟩ := ofLength_le short
    exact .inr ⟨length + 1, length.succ_pos, List.mem_range.mp member, digits, power⟩

theorem toDigits_pow (n : Nat) : Nat.toDigits 10 (10 ^ n) = '1' :: List.replicate n '0' := by
  induction n with
  | zero => rfl
  | succ n ih =>
    have zero : 10 ^ (n + 1) % 10 = 0 := Nat.mul_mod_left _ _
    have shorter : 10 ^ (n + 1) / 10 = 10 ^ n := Nat.mul_div_left _ (by decide)
    rw [Nat.toDigits_of_base_le (by decide) (Nat.le_pow n.succ_pos), shorter, zero, ih,
      List.replicate_succ', List.cons_append]
    rfl

def stripped (digits : List Char) : List Char :=
  (digits.reverse.dropWhile (· == '0')).reverse

theorem length_stripped_le (digits : List Char) : (stripped digits).length ≤ digits.length := by
  rw [stripped, List.length_reverse, ← digits.length_reverse]
  exact (List.dropWhile_sublist _).length_le

theorem length_stripped_toDigits {n length : Nat} (some : 0 < length) (below : n ≤ 10 ^ length) :
    (stripped (Nat.toDigits 10 n)).length ≤ length := by
  rcases below.lt_or_eq with less | rfl
  · exact (length_stripped_le _).trans ((Nat.length_toDigits_le_iff (by decide) some).mpr less)
  · have zeros : ∀ c ∈ List.replicate length '0', (c == '0') = true := by simp
    rw [toDigits_pow, stripped, List.reverse_cons, List.reverse_replicate,
      List.dropWhile_append_of_pos zeros]
    exact some

theorem shortestDigits_eq (x : Binary64) : x.shortestDigits =
    (stripped (Nat.toDigits 10 x.shortest.digits),
      x.shortest.power + (Nat.toDigits 10 x.shortest.digits).length - 1) := rfl

theorem length_shortestDigits_le (x : Binary64) : x.shortestDigits.1.length ≤ 17 := by
  rw [shortestDigits_eq]
  rcases x.shortest_cases with none | ⟨length, some, few, digits, -⟩
  · rw [none]
    decide
  · exact (length_stripped_toDigits some digits).trans few

theorem IsRounded.leading_bounds (rounded : x.IsRounded) :
    -416 ≤ x.shortestDigits.2 ∧ x.shortestDigits.2 ≤ 342 := by
  have least := x.leadingPower_ge
  have greatest := rounded.leadingPower_le
  rw [shortestDigits_eq]
  rcases x.shortest_cases with none | ⟨length, -, few, digits, power⟩
  · rw [none]
    decide
  · have some : 0 < (Nat.toDigits 10 x.shortest.digits).length := Nat.length_toDigits_pos
    have below : x.shortest.digits < 10 ^ (length + 1) :=
      digits.trans_lt (Nat.pow_lt_pow_right (by decide) length.lt_succ_self)
    have places := (Nat.length_toDigits_le_iff (by decide) length.succ_pos).mpr below
    dsimp only
    omega

theorem length_positional (digits : List Char) (leading : Int) :
    (positional digits leading).1.length = (max leading 0).toNat + 1 ∧
      (positional digits leading).2.length ≤
        digits.length - ((max leading 0).toNat + 1) + (-leading).toNat := by
  unfold positional
  split
  · simp only [List.length_cons, List.length_nil, List.length_append, List.length_replicate]
    omega
  · simp only [List.length_append, List.length_take, List.length_replicate, List.length_drop]
    omega

theorem length_signed (negative : Bool) (text : List Char) :
    (signed negative text).length = text.length + negative.toNat := by
  cases negative <;> rfl

/-- A number is written with at most 17 digits, and with at most 23 characters behind its sign. -/
theorem IsRounded.length_jsonText_le (rounded : x.IsRounded) :
    x.jsonText.length ≤ 23 + x.negative.toNat := by
  rw [jsonText, length_signed]
  apply Nat.add_le_add_right
  split
  · decide
  have digits := x.length_shortestDigits_le
  obtain ⟨least, greatest⟩ := rounded.leading_bounds
  generalize x.shortestDigits = shortest at digits least greatest ⊢
  obtain ⟨digits', leading⟩ := shortest
  dsimp only at digits least greatest ⊢
  split
  · rename_i near
    have near : -5 ≤ leading ∧ leading ≤ 15 := by simpa using near
    obtain ⟨whole, part⟩ := length_positional digits' leading
    rw [List.length_append, List.length_cons, whole]
    split
    · simp only [List.length_cons, List.length_nil]
      omega
    · omega
  · have power : (Nat.toDigits 10 leading.natAbs).length ≤ 3 :=
      (Nat.length_toDigits_le_iff (by decide) (by decide)).mpr (by omega)
    obtain ⟨whole, part⟩ := length_positional digits' 0
    simp only [List.length_append, List.length_cons, whole]
    split
    · simp only [List.length_nil]
      omega
    · simp only [List.length_cons]
      omega

end CallRouter.Binary64
