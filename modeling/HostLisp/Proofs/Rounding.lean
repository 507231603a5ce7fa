import HostLisp.Floating.Arithmetic
import Mathlib.Algebra.Order.AbsoluteValue.Basic
import Mathlib.Algebra.Order.Field.Power
import Mathlib.Algebra.Order.Field.Rat
import Mathlib.Tactic.FieldSimp
import Mathlib.Tactic.GCongr
import Mathlib.Tactic.Linarith
import Mathlib.Tactic.Positivity
import Mathlib.Tactic.Push
import Mathlib.Tactic.Ring

/-!
Rounding to a binary format. The numbers of a format are said without rounding, and so is which of them
is nearest to a rational, with the even one of two that are equally near. Rounding finds that number, or
tells that it lies beyond the format.
-/

namespace HostLisp

def Floating.toRat? (x : Floating) : Option Rat := x.toDyadic?.map Dyadic.toRat

namespace BinaryFormat

/-- The numbers that a format could hold if its exponents had no upper end. -/
def Fits (format : BinaryFormat) (q : Rat) : Prop :=
  ∃ mantissa exponent : Int, mantissa.natAbs < 2 ^ format.precision ∧ format.least ≤ exponent ∧
    q = mantissa * 2 ^ exponent

/-- A number and the nearest one that fits a format. Of two that are equally near it is the one that is
an even multiple of what lies between them. -/
structure Rounds (format : BinaryFormat) (q r : Rat) : Prop where
  fits : format.Fits r
  nearest : ∀ other, format.Fits other → |q - r| ≤ |q - other|
  even : ∀ other, format.Fits other → other ≠ r → |q - other| = |q - r| →
    ∃ k : Int, r = 2 * k * |r - other|

end BinaryFormat

theorem shifted_quotient (num den : Nat) (unit : Int) :
    ((num <<< (-unit).toNat : Nat) : Rat) / (den <<< unit.toNat : Nat) = num / den / 2 ^ unit := by
  rcases Int.eq_nat_or_neg unit with ⟨k, rfl | rfl⟩
  · simp [Nat.shiftLeft_eq, div_div]
  · simp [Nat.shiftLeft_eq, mul_div_right_comm]

section

variable {num den : Nat} (num_pos : num ≠ 0) (den_pos : den ≠ 0)
include num_pos den_pos

theorem log2_quotient_bounds :
    (2 : Rat) ^ ((num.log2 : Int) - den.log2 - 1) ≤ num / den ∧
      (num / den : Rat) < 2 ^ ((num.log2 : Int) - den.log2 + 1) := by
  have den_pos' : (0 : Rat) < den := by positivity
  have num_low : (2 : Rat) ^ (num.log2 : Int) ≤ num := by
    exact_mod_cast Nat.log2_self_le num_pos
  have num_high : (num : Rat) < 2 ^ ((num.log2 : Int) + 1) := by
    exact_mod_cast Nat.lt_log2_self
  have den_low : (2 : Rat) ^ (den.log2 : Int) ≤ den := by
    exact_mod_cast Nat.log2_self_le den_pos
  have den_high : (den : Rat) < 2 ^ ((den.log2 : Int) + 1) := by
    exact_mod_cast Nat.lt_log2_self
  constructor
  · rw [le_div_iff₀ den_pos']
    calc (2 : Rat) ^ ((num.log2 : Int) - den.log2 - 1) * den
        ≤ 2 ^ ((num.log2 : Int) - den.log2 - 1) * 2 ^ ((den.log2 : Int) + 1) := by gcongr
      _ = 2 ^ (num.log2 : Int) := by
        rw [← zpow_add₀ two_ne_zero]
        congr 1
        omega
      _ ≤ num := num_low
  · rw [div_lt_iff₀ den_pos']
    calc (num : Rat) < 2 ^ ((num.log2 : Int) + 1) := num_high
      _ = 2 ^ ((num.log2 : Int) - den.log2 + 1) * 2 ^ (den.log2 : Int) := by
        rw [← zpow_add₀ two_ne_zero]
        congr 1
        omega
      _ ≤ 2 ^ ((num.log2 : Int) - den.log2 + 1) * den := by gcongr

omit num_pos in
theorem shifted_le_iff (place : Int) :
    den <<< place.toNat ≤ num <<< (-place).toNat ↔ (2 : Rat) ^ place ≤ num / den := by
  have shifted_pos : (0 : Rat) < (den <<< place.toNat : Nat) := by
    rw [Nat.shiftLeft_eq]
    positivity
  rw [← one_le_div₀ (by positivity : (0 : Rat) < 2 ^ place), ← shifted_quotient,
    one_le_div₀ shifted_pos, Nat.cast_le]

theorem floorLog2_bounds :
    (2 : Rat) ^ floorLog2 num den ≤ num / den ∧ (num / den : Rat) < 2 ^ (floorLog2 num den + 1) := by
  obtain ⟨low, high⟩ := log2_quotient_bounds num_pos den_pos
  unfold floorLog2
  dsimp only
  split
  · next reaches => exact ⟨(shifted_le_iff den_pos _).mp reaches, high⟩
  · next short =>
    refine ⟨low, ?_⟩
    rw [Int.sub_add_cancel]
    exact not_le.mp fun reaches => short ((shifted_le_iff den_pos _).mpr reaches)

end

theorem quotient_parts (num : Nat) {den : Nat} (den_pos : 0 < den) :
    (num / den : Rat) = (num / den : Nat) + (num % den : Nat) / den ∧
      (0 : Rat) ≤ (num % den : Nat) / den ∧ ((num % den : Nat) / den : Rat) < 1 := by
  have den_pos' : (0 : Rat) < den := by positivity
  refine ⟨?_, by positivity, ?_⟩
  · field_simp
    exact_mod_cast (Nat.div_add_mod num den).symm
  · rw [div_lt_one den_pos']
    exact_mod_cast Nat.mod_lt num den_pos

theorem roundQuotient_near (num : Nat) {den : Nat} (den_pos : 0 < den) :
    |(num / den : Rat) - roundQuotient num den| ≤ 1 / 2 ∧
      (|(num / den : Rat) - roundQuotient num den| = 1 / 2 → Even (roundQuotient num den)) := by
  have den_pos' : (0 : Rat) < den := by positivity
  obtain ⟨parts, nonneg, fraction_lt⟩ := quotient_parts num den_pos
  rw [parts]
  unfold roundQuotient
  dsimp only
  set quotient := num / den
  set rest := num % den
  split
  · next below =>
    have less : (rest / den : Rat) < 1 / 2 := by
      rw [div_lt_div_iff₀ den_pos' two_pos, one_mul, mul_comm]
      exact_mod_cast below
    rw [add_sub_cancel_left, abs_of_nonneg nonneg]
    exact ⟨less.le, fun half => absurd half less.ne⟩
  split
  · next above =>
    have more : 1 / 2 < (rest / den : Rat) := by
      rw [div_lt_div_iff₀ two_pos den_pos', one_mul, mul_comm]
      exact_mod_cast above
    push_cast
    rw [add_sub_add_left_eq_sub, abs_of_neg (by linarith)]
    exact ⟨by linarith, fun half => absurd half (by linarith)⟩
  · next notBelow notAbove =>
    have half : (rest / den : Rat) = 1 / 2 := by
      rw [div_eq_div_iff den_pos'.ne' two_ne_zero, one_mul, mul_comm]
      exact_mod_cast Nat.le_antisymm (Nat.not_lt.mp notAbove) (Nat.not_lt.mp notBelow)
    rw [half]
    rcases Nat.mod_two_eq_zero_or_one quotient with even | odd
    · rw [even]
      refine ⟨by simp [abs_of_pos], fun _ => ?_⟩
      exact Nat.even_iff.mpr even
    · rw [odd]
      push_cast
      rw [add_sub_add_left_eq_sub]
      refine ⟨by norm_num [abs_of_neg], fun _ => ?_⟩
      exact (Nat.odd_iff.mpr odd).add_one

theorem near_integer {y : Rat} {m : Int} (near : |y - m| ≤ 1 / 2) (k : Int) :
    |y - m| ≤ |y - k| ∧ (k ≠ m → |y - k| = |y - m| → |y - m| = 1 / 2 ∧ |(m - k : Rat)| = 1) := by
  by_cases same : k = m
  · subst same
    exact ⟨le_refl _, fun apart => absurd rfl apart⟩
  have apart : (1 : Rat) ≤ |(m - k : Rat)| := by
    have distinct : 1 ≤ |m - k| := Int.one_le_abs (sub_ne_zero.mpr (Ne.symm same))
    exact_mod_cast distinct
  have triangle : |(m - k : Rat)| ≤ |y - m| + |y - k| := by
    rw [abs_sub_comm y m]
    exact abs_sub_le (m : Rat) y k
  refine ⟨by linarith, fun _ equal => ?_⟩
  rw [equal] at triangle
  exact ⟨by linarith, by linarith⟩

namespace BinaryFormat

variable {format : BinaryFormat}

theorem Rounds.eq_of_fits {q r : Rat} (rounds : format.Rounds q r) (fits : format.Fits q) : r = q := by
  have near := rounds.nearest q fits
  rw [sub_self, abs_zero] at near
  have none : |q - r| = 0 := le_antisymm near (abs_nonneg _)
  exact (sub_eq_zero.mp (abs_eq_zero.mp none)).symm

theorem Fits.neg {q : Rat} (fits : format.Fits q) : format.Fits (-q) := by
  obtain ⟨mantissa, exponent, small, least, rfl⟩ := fits
  exact ⟨-mantissa, exponent, by rwa [Int.natAbs_neg], least, by push_cast; ring⟩

theorem Rounds.neg {q r : Rat} (rounds : format.Rounds q r) : format.Rounds (-q) (-r) := by
  have mirrored : ∀ a b : Rat, |-a - b| = |a - -b| := by
    intro a b
    rw [← abs_neg]
    congr 1
    ring
  refine ⟨rounds.fits.neg, fun other fits => ?_, fun other fits apart equal => ?_⟩
  · rw [mirrored, mirrored, neg_neg]
    exact rounds.nearest (-other) fits.neg
  · rw [mirrored, mirrored, neg_neg] at equal
    have distinct : -other ≠ r := fun same => apart (by rw [← same, neg_neg])
    obtain ⟨k, even⟩ := rounds.even (-other) fits.neg distinct equal
    refine ⟨-k, ?_⟩
    rw [mirrored]
    push_cast
    linarith

/-- A unit that suits a positive rational: it leaves room for all bits that the format keeps, and no
number of the format below the rational is finer than it needs to be. -/
structure Suits (format : BinaryFormat) (unit : Int) (q : Rat) : Prop where
  nonneg : 0 ≤ q
  least : format.least ≤ unit
  below : q < 2 ^ (unit + format.precision)
  coarse : unit = format.least ∨ (2 : Rat) ^ (unit + format.precision - 1) ≤ q

theorem Fits.multiple_or_below {other : Rat} (fits : format.Fits other) {unit : Int} {q : Rat}
    (suits : format.Suits unit q) :
    (∃ k : Int, other = k * 2 ^ unit) ∨
      other < 2 ^ (unit + format.precision - 1) ∧ (2 : Rat) ^ (unit + format.precision - 1) ≤ q := by
  obtain ⟨mantissa, exponent, small, least, rfl⟩ := fits
  rcases le_or_gt unit exponent with coarse | fine
  · left
    refine ⟨mantissa * 2 ^ (exponent - unit).toNat, ?_⟩
    have shift : (2 : Rat) ^ exponent = 2 ^ (exponent - unit).toNat * 2 ^ unit := by
      rw [← zpow_natCast, ← zpow_add₀ two_ne_zero]
      congr 1
      omega
    rw [shift]
    push_cast
    ring
  · right
    have reaches := suits.coarse.resolve_left (by omega)
    refine ⟨?_, reaches⟩
    have bounded : (mantissa : Rat) < 2 ^ (format.precision : Int) := by
      have : mantissa < (2 ^ format.precision : Nat) := by omega
      exact_mod_cast this
    calc (mantissa : Rat) * 2 ^ exponent < 2 ^ (format.precision : Int) * 2 ^ exponent := by gcongr
      _ = 2 ^ (exponent + format.precision) := by rw [← zpow_add₀ two_ne_zero, add_comm]
      _ ≤ 2 ^ (unit + format.precision - 1) := by
        gcongr
        · norm_num
        · omega

theorem abs_sub_multiple (q : Rat) (unit k : Int) :
    |q - k * 2 ^ unit| = |q / 2 ^ unit - k| * 2 ^ unit := by
  have unit_pos : (0 : Rat) < 2 ^ unit := by positivity
  calc |q - k * 2 ^ unit| = |(q / 2 ^ unit - k) * 2 ^ unit| := by
        rw [sub_mul, div_mul_cancel₀ q unit_pos.ne']
    _ = |q / 2 ^ unit - k| * 2 ^ unit := by rw [abs_mul, abs_of_pos unit_pos]

section

variable (positive : 0 < format.precision) {unit : Int} {q : Rat} (suits : format.Suits unit q) {m : Int}
  (near : |q / 2 ^ unit - m| ≤ 1 / 2)
include positive near

include suits in
theorem fits_multiple : format.Fits (m * 2 ^ unit) := by
  have unit_pos : (0 : Rat) < 2 ^ unit := by positivity
  obtain ⟨low, high⟩ := abs_le.mp near
  have nonneg : 0 ≤ m := by
    have : 0 ≤ q / 2 ^ unit := div_nonneg suits.nonneg unit_pos.le
    have : (-1 : Rat) < m := by linarith
    have : -1 < m := by exact_mod_cast this
    omega
  have bounded : m ≤ 2 ^ format.precision := by
    have below : q / 2 ^ unit < 2 ^ format.precision := by
      rw [div_lt_iff₀ unit_pos, ← zpow_natCast, ← zpow_add₀ two_ne_zero, add_comm]
      exact suits.below
    have : (m : Rat) < 2 ^ format.precision + 1 := by linarith
    have : m < 2 ^ format.precision + 1 := by exact_mod_cast this
    omega
  rcases bounded.lt_or_eq with less | full
  · refine ⟨m, unit, ?_, suits.least, rfl⟩
    zify
    rwa [abs_of_nonneg nonneg]
  · have least := suits.least
    refine ⟨2 ^ (format.precision - 1), unit + 1, ?_, by omega, ?_⟩
    · rw [Int.natAbs_pow]
      exact Nat.pow_lt_pow_right (by decide) (by omega)
    · have whole : (2 : Rat) ^ format.precision = 2 ^ (format.precision - 1) * 2 := by
        rw [← pow_succ, Nat.sub_add_cancel positive]
      rw [full, zpow_add_one₀ two_ne_zero]
      push_cast
      rw [whole]
      ring

theorem multiple_nearer {other : Rat} (below : other < 2 ^ (unit + format.precision - 1))
    (reaches : (2 : Rat) ^ (unit + format.precision - 1) ≤ q) : |q - m * 2 ^ unit| < |q - other| := by
  have power : (2 : Rat) ^ (unit + format.precision - 1) =
      (2 ^ (format.precision - 1) : Int) * 2 ^ unit := by
    push_cast
    rw [← zpow_natCast, ← zpow_add₀ two_ne_zero]
    congr 1
    omega
  calc |q - m * 2 ^ unit| = |q / 2 ^ unit - m| * 2 ^ unit := abs_sub_multiple q unit m
    _ ≤ |q / 2 ^ unit - (2 ^ (format.precision - 1) : Int)| * 2 ^ unit :=
      mul_le_mul_of_nonneg_right (near_integer near _).1 (by positivity)
    _ = |q - 2 ^ (unit + format.precision - 1)| := by rw [← abs_sub_multiple, ← power]
    _ = q - 2 ^ (unit + format.precision - 1) := abs_of_nonneg (sub_nonneg.mpr reaches)
    _ < q - other := by linarith
    _ ≤ |q - other| := le_abs_self _

include suits in
theorem rounds_multiple (tie : |q / 2 ^ unit - m| = 1 / 2 → Even m) :
    format.Rounds q (m * 2 ^ unit) := by
  have unit_pos : (0 : Rat) < 2 ^ unit := by positivity
  refine ⟨fits_multiple positive suits near, fun other fits => ?_, fun other fits distinct equal => ?_⟩
  · rcases fits.multiple_or_below suits with ⟨k, rfl⟩ | ⟨below, reaches⟩
    · rw [abs_sub_multiple, abs_sub_multiple]
      exact mul_le_mul_of_nonneg_right (near_integer near k).1 unit_pos.le
    · exact (multiple_nearer positive near below reaches).le
  · rcases fits.multiple_or_below suits with ⟨k, rfl⟩ | ⟨below, reaches⟩
    · rw [abs_sub_multiple, abs_sub_multiple] at equal
      have apart : k ≠ m := fun same => distinct (by rw [same])
      obtain ⟨half, one⟩ := (near_integer near k).2 apart (mul_right_cancel₀ unit_pos.ne' equal)
      obtain ⟨j, twice⟩ := tie half
      have gap : |(m * 2 ^ unit - k * 2 ^ unit : Rat)| = 2 ^ unit := by
        rw [← sub_mul, abs_mul, one, one_mul, abs_of_pos unit_pos]
      refine ⟨j, ?_⟩
      rw [gap, twice]
      push_cast
      ring
    · exact absurd equal (multiple_nearer positive near below reaches).ne'

end

theorem suits_unit {num den : Nat} (num_pos : num ≠ 0) (den_pos : den ≠ 0) :
    format.Suits (format.unit num den) (num / den) := by
  obtain ⟨low, high⟩ := floorLog2_bounds num_pos den_pos
  have reaches : floorLog2 num den - (format.precision - 1 : Int) ≤ format.unit num den :=
    le_max_right _ _
  refine ⟨by positivity, le_max_left _ _, high.trans_le ?_, ?_⟩
  · exact zpow_le_zpow_right₀ one_le_two (by omega)
  · rcases max_choice format.least (floorLog2 num den - (format.precision - 1 : Int)) with same | same
    · exact .inl same
    · have place : format.unit num den + format.precision - 1 = floorLog2 num den := by
        rw [unit, same]
        omega
      exact .inr (place ▸ low)

theorem mantissa_near (num : Nat) {den : Nat} (den_pos : den ≠ 0) (unit : Int) :
    let mantissa := roundQuotient (num <<< (-unit).toNat) (den <<< unit.toNat)
    |((num / den : Rat) / 2 ^ unit) - (mantissa : Int)| ≤ 1 / 2 ∧
      (|((num / den : Rat) / 2 ^ unit) - (mantissa : Int)| = 1 / 2 → Even (mantissa : Int)) := by
  intro mantissa
  have shifted_pos : 0 < den <<< unit.toNat := by
    rw [Nat.shiftLeft_eq]
    positivity
  have near := roundQuotient_near (num <<< (-unit).toNat) shifted_pos
  rw [shifted_quotient] at near
  exact_mod_cast near

theorem overflow_iff (limit : Int) (mantissa : Nat) (unit : Int) :
    mantissa ≠ 0 ∧ limit ≤ mantissa.log2 + unit ↔ (2 : Rat) ^ limit ≤ mantissa * 2 ^ unit := by
  constructor
  · rintro ⟨nonzero, reaches⟩
    calc (2 : Rat) ^ limit ≤ 2 ^ (mantissa.log2 + unit) := zpow_le_zpow_right₀ one_le_two reaches
      _ = 2 ^ mantissa.log2 * 2 ^ unit := by rw [zpow_add₀ two_ne_zero, zpow_natCast]
      _ ≤ mantissa * 2 ^ unit := by
        gcongr
        exact_mod_cast Nat.log2_self_le nonzero
  · intro beyond
    constructor
    · rintro rfl
      have : (0 : Rat) < 2 ^ limit := by positivity
      norm_num at beyond
      linarith
    · by_contra short
      have less : (mantissa : Rat) * 2 ^ unit < 2 ^ limit := by
        calc (mantissa : Rat) * 2 ^ unit < 2 ^ (mantissa.log2 + 1) * 2 ^ unit := by
              gcongr
              exact_mod_cast Nat.lt_log2_self
          _ = 2 ^ (mantissa.log2 + 1 + unit) := by
            rw [zpow_add₀ two_ne_zero, ← zpow_natCast]
            push_cast
            rfl
          _ ≤ 2 ^ limit := zpow_le_zpow_right₀ one_le_two (by omega)
      linarith

theorem rounds_zero : format.Rounds 0 0 := by
  refine ⟨⟨0, format.least, by simp, le_refl _, by simp⟩, fun other _ => ?_,
    fun other _ apart equal => ?_⟩
  · rw [sub_self, abs_zero]
    exact abs_nonneg _
  · rw [sub_self, abs_zero, abs_eq_zero, zero_sub, neg_eq_zero] at equal
    exact absurd equal apart

end BinaryFormat

namespace Floating

def signed (negative : Bool) (q : Rat) : Rat := if negative then -q else q

@[simp] theorem toRat?_zero (negative : Bool) : (zero negative).toRat? = some 0 := by
  cases negative <;> rfl

theorem isNegative_finite (value : Dyadic) :
    isNegative (.finite value) = decide (value.toRat < 0) := by
  rw [isNegative, ← Dyadic.toRat_zero]
  exact decide_eq_decide.mpr Dyadic.toRat_lt_toRat_iff.symm

@[simp] theorem isNegative_zero (negative : Bool) : (zero negative).isNegative = negative := by
  cases negative <;> rfl

theorem toRat?_ofScaled (negative : Bool) (mantissa : Nat) (exponent : Int) :
    (ofScaled negative mantissa exponent).toRat? =
      some (signed negative (mantissa * 2 ^ exponent)) := by
  unfold ofScaled
  split
  · next none => cases negative <;> simp [none, signed]
  · rw [toRat?, toDyadic?, Option.map_some, Dyadic.toRat_ofIntWithPrec_eq_mul_two_pow, neg_neg]
    cases negative <;> simp [signed]

theorem isNegative_ofScaled (negative : Bool) (mantissa : Nat) (exponent : Int) :
    (ofScaled negative mantissa exponent).isNegative = negative := by
  unfold ofScaled
  split
  · exact isNegative_zero negative
  · next nonzero =>
    have positive : (0 : Rat) < mantissa * 2 ^ exponent := by positivity
    rw [isNegative_finite, Dyadic.toRat_ofIntWithPrec_eq_mul_two_pow, neg_neg]
    cases negative with
    | false => exact decide_eq_false (not_lt.mpr positive.le)
    | true => exact decide_eq_true (by simpa using positive)

theorem toRat?_abs (x : Floating) : x.abs.toRat? = x.toRat?.map fun q => |q| := by
  unfold Floating.abs
  cases x with
  | nan _ => rfl
  | infinity negative => cases negative <;> rfl
  | negativeZero => simp [isNegative, neg, toRat?, toDyadic?]
  | finite value =>
    by_cases negative : value.toRat < 0
    · have nonzero : value ≠ 0 := by
        rintro rfl
        exact lt_irrefl _ negative
      rw [isNegative_finite, decide_eq_true negative, if_pos rfl, neg, if_neg nonzero]
      simp [toRat?, toDyadic?, abs_of_neg negative]
    · rw [isNegative_finite, decide_eq_false negative, if_neg Bool.false_ne_true]
      simp [toRat?, toDyadic?, abs_of_nonneg (not_lt.mp negative)]

theorem eq_of_toRat? {x y : Floating} {q : Rat} (left : x.toRat? = some q) (right : y.toRat? = some q)
    (sign : x.isNegative = y.isNegative) : x = y := by
  -- Only the two zeros stand for the same number.
  have unsigned : ∀ {value : Dyadic}, toRat? .negativeZero = some q →
      toRat? (.finite value) = some q → isNegative (.finite value) = false := by
    intro value zero same
    cases zero
    have none : value.toRat = (0 : Dyadic).toRat := Option.some.inj same
    rw [Dyadic.toRat_inj.mp none]
    rfl
  cases x with
  | nan _ | infinity _ => cases left
  | negativeZero =>
    cases y with
    | nan _ | infinity _ => cases right
    | negativeZero => rfl
    | finite _ => cases sign.trans (unsigned left right)
  | finite value =>
    cases y with
    | nan _ | infinity _ => cases right
    | negativeZero => cases sign.symm.trans (unsigned right left)
    | finite other =>
      have same : value.toRat = other.toRat := Option.some.inj (left.trans right.symm)
      rw [Dyadic.toRat_inj.mp same]

end Floating

namespace BinaryFormat

/-- What a format makes of a rational with a sign: the number nearest to it, or an infinity if that
number lies beyond the format. -/
inductive Rounded (format : BinaryFormat) (negative : Bool) (q : Rat) : Floating → Prop where
  | within {r : Rat} {x : Floating} (rounds : format.Rounds q r) (inside : |r| < 2 ^ format.limit)
      (made : x.toRat? = some r) (sign : x.isNegative = negative) : Rounded format negative q x
  | beyond {r : Rat} (rounds : format.Rounds q r) (outside : 2 ^ format.limit ≤ |r|) :
      Rounded format negative q (.infinity negative)

variable {format : BinaryFormat}

theorem Rounds.signed {q r : Rat} (rounds : format.Rounds q r) (negative : Bool) :
    format.Rounds (Floating.signed negative q) (Floating.signed negative r) := by
  cases negative with
  | false => exact rounds
  | true => exact rounds.neg

theorem roundFraction_rounded (positive : 0 < format.precision) (negative : Bool) (num : Nat) {den : Nat}
    (den_pos : den ≠ 0) :
    format.Rounded negative (Floating.signed negative (num / den))
      (format.roundFraction negative num den) := by
  unfold roundFraction
  split
  · next none =>
    have rounds := (rounds_zero : format.Rounds 0 0).signed negative
    rw [none, Nat.cast_zero, zero_div]
    refine .within rounds ?_ ?_ (Floating.isNegative_zero negative)
    · cases negative <;> simp [Floating.signed] <;> positivity
    · cases negative <;> simp [Floating.signed]
  · next num_pos =>
    dsimp only
    obtain ⟨near, tie⟩ := mantissa_near num den_pos (format.unit num den)
    set mantissa := roundQuotient _ _
    have rounds := (rounds_multiple positive (suits_unit num_pos den_pos) near tie).signed negative
    have size : |Floating.signed negative ((mantissa : Int) * 2 ^ format.unit num den)| =
        mantissa * 2 ^ format.unit num den := by
      cases negative <;> simp [Floating.signed, abs_mul]
    split
    · next beyond =>
      refine .beyond rounds ?_
      rw [size]
      exact (overflow_iff _ _ _).mp beyond
    · next within =>
      refine .within rounds ?_ (Floating.toRat?_ofScaled ..) (Floating.isNegative_ofScaled ..)
      rw [size]
      exact not_le.mp fun beyond => within ((overflow_iff _ _ _).mpr beyond)

structure Proper (format : BinaryFormat) : Prop where
  positive : 0 < format.precision
  room : format.least + format.precision ≤ format.limit

theorem Proper.round_rounded (proper : format.Proper) (q : Rat) :
    format.Rounded (decide (q < 0)) q (format.round q) := by
  have sign : decide (q.num < 0) = decide (q < 0) := by simp
  have size : Floating.signed (decide (q < 0)) (q.num.natAbs / q.den) = q := by
    rcases lt_or_ge q 0 with below | above
    · have absolute : (q.num.natAbs : Rat) = -q.num := by
        rw [Nat.cast_natAbs, abs_of_neg (Rat.num_neg.mpr below), Int.cast_neg]
      rw [decide_eq_true below, Floating.signed, if_pos rfl, absolute, neg_div, neg_neg, Rat.num_div_den]
    · have absolute : (q.num.natAbs : Rat) = q.num := by
        rw [Nat.cast_natAbs, abs_of_nonneg (Rat.num_nonneg.mpr above)]
      rw [decide_eq_false (not_lt.mpr above), Floating.signed, if_neg Bool.false_ne_true, absolute,
        Rat.num_div_den]
  have rounded := roundFraction_rounded proper.positive (decide (q.num < 0)) q.num.natAbs q.den_nz
  rw [sign, size] at rounded
  rwa [BinaryFormat.round, sign]

theorem limit_parts (format : BinaryFormat) : (2 : Rat) ^ format.limit =
    2 ^ format.precision * 2 ^ (format.limit - format.precision) := by
  rw [← zpow_natCast, ← zpow_add₀ two_ne_zero]
  congr 1
  omega

theorem toRat_greatest (format : BinaryFormat) :
    format.greatest.toRat = (2 ^ format.precision - 1) * 2 ^ (format.limit - format.precision) := by
  rw [greatest, Dyadic.toRat_ofIntWithPrec_eq_mul_two_pow, neg_sub]
  push_cast [Nat.one_shiftLeft]
  rfl

theorem Proper.fits_greatest (proper : format.Proper) : format.Fits format.greatest.toRat := by
  have room := proper.room
  have whole : 0 < 2 ^ format.precision := Nat.two_pow_pos _
  refine ⟨(2 ^ format.precision - 1 : Nat), format.limit - format.precision, ?_, by omega, ?_⟩
  · rw [Int.natAbs_natCast]
    omega
  · rw [toRat_greatest, Int.cast_natCast, Nat.cast_pred whole]
    push_cast
    rfl

theorem greatest_lt_limit (format : BinaryFormat) : format.greatest.toRat < 2 ^ format.limit := by
  have step : (0 : Rat) < 2 ^ (format.limit - format.precision) := by positivity
  rw [toRat_greatest, limit_parts]
  linarith

theorem Fits.le_greatest {q : Rat} (fits : format.Fits q) (inside : |q| < 2 ^ format.limit) :
    |q| ≤ format.greatest.toRat := by
  obtain ⟨mantissa, exponent, small, -, rfl⟩ := fits
  have size : |(mantissa * 2 ^ exponent : Rat)| = mantissa.natAbs * 2 ^ exponent := by
    rw [abs_mul, abs_of_pos (by positivity : (0 : Rat) < 2 ^ exponent), Nat.cast_natAbs, Int.cast_abs]
  have pred : ∀ {count : Nat}, count < 2 ^ format.precision →
      (count : Rat) ≤ 2 ^ format.precision - 1 := by
    intro count less
    have succ : (count + 1 : Rat) ≤ 2 ^ format.precision := by exact_mod_cast less
    linarith
  rw [size] at inside ⊢
  rw [toRat_greatest]
  rcases le_total exponent (format.limit - format.precision) with low | high
  · calc (mantissa.natAbs * 2 ^ exponent : Rat)
        ≤ (2 ^ format.precision - 1) * 2 ^ exponent :=
          mul_le_mul_of_nonneg_right (pred small) (by positivity)
      _ ≤ (2 ^ format.precision - 1) * 2 ^ (format.limit - format.precision) := by
        gcongr
        · exact (pred (Nat.two_pow_pos _)).trans' (by simp)
        · exact one_le_two
  · -- A higher exponent leaves trailing zeros, which the mantissa takes up.
    obtain ⟨zeros, lifted⟩ := Int.le.dest high
    have same : (mantissa.natAbs * 2 ^ exponent : Rat) =
        (mantissa.natAbs * 2 ^ zeros : Nat) * 2 ^ (format.limit - format.precision) := by
      rw [← lifted, zpow_add₀ two_ne_zero, zpow_natCast]
      push_cast
      ring
    rw [same, limit_parts, mul_lt_mul_iff_left₀ (by positivity)] at inside
    rw [same]
    gcongr
    exact pred (by exact_mod_cast inside)

theorem Proper.within (proper : format.Proper) {q r : Rat} (rounds : format.Rounds q r)
    (bounded : |q| ≤ format.greatest.toRat) : |r| < 2 ^ format.limit := by
  have close : ∃ edge, format.Fits edge ∧ |q - edge| = format.greatest.toRat - |q| := by
    rcases le_total 0 q with above | below
    · rw [abs_of_nonneg above] at bounded ⊢
      refine ⟨_, proper.fits_greatest, ?_⟩
      rw [abs_sub_comm, abs_of_nonneg (sub_nonneg.mpr bounded)]
    · rw [abs_of_nonpos below] at bounded ⊢
      refine ⟨_, proper.fits_greatest.neg, ?_⟩
      rw [abs_of_nonneg (by linarith)]
      ring
  obtain ⟨edge, fits, distance⟩ := close
  calc |r| ≤ |q| + |q - r| := by
        rw [abs_sub_comm]
        linarith [abs_sub_abs_le_abs_sub r q]
    _ ≤ |q| + |q - edge| := by linarith [rounds.nearest edge fits]
    _ = format.greatest.toRat := by rw [distance]; ring
    _ < 2 ^ format.limit := format.greatest_lt_limit

/-- A datum and what a format keeps of it: the number nearest to a number, with its sign; what stands
for no number stays as it is. -/
inductive Kept (format : BinaryFormat) : Floating → Floating → Prop where
  | number {x y : Floating} {q r : Rat} (given : x.toRat? = some q) (rounds : format.Rounds q r)
      (inside : |r| < 2 ^ format.limit) (made : y.toRat? = some r) (sign : y.isNegative = x.isNegative) :
      Kept format x y
  | other {x : Floating} (none : x.toRat? = none) : Kept format x x

theorem Proper.cast_kept (proper : format.Proper) {x : Floating}
    (bounded : ∀ q, x.toRat? = some q → |q| ≤ format.greatest.toRat) : format.Kept x (format.cast x) := by
  cases x with
  | nan _ | infinity _ => exact .other rfl
  | negativeZero =>
    exact .number rfl rounds_zero (proper.within rounds_zero (bounded 0 rfl)) rfl rfl
  | finite value =>
    have sign := Floating.isNegative_finite value
    rw [BinaryFormat.cast]
    have rounded := proper.round_rounded value.toRat
    generalize format.round value.toRat = y at rounded ⊢
    cases rounded with
    | within rounds inside made same => exact .number rfl rounds inside made (same.trans sign.symm)
    | beyond rounds outside =>
      exact absurd (proper.within rounds (bounded _ rfl)) (not_lt.mpr outside)

theorem Proper.cast_eq_of_kept (proper : format.Proper) {x y : Floating} (kept : format.Kept x y) :
    (∀ q, y.toRat? = some q → |q| ≤ format.greatest.toRat) ∧ format.cast y = y := by
  cases kept with
  | other none =>
    refine ⟨fun q number => ?_, ?_⟩
    · cases none.symm.trans number
    · cases x with
      | nan _ | infinity _ => rfl
      | negativeZero | finite _ => cases none
  | number _ rounds inside made _ =>
    have bounded : ∀ q, y.toRat? = some q → |q| ≤ format.greatest.toRat := by
      intro q number
      cases made.symm.trans number
      exact rounds.fits.le_greatest inside
    refine ⟨bounded, ?_⟩
    have again := proper.cast_kept bounded
    generalize format.cast y = z at again ⊢
    cases again with
    | other none => rfl
    | number given repeated _ remade sign =>
      cases made.symm.trans given
      have fixed := repeated.eq_of_fits rounds.fits
      exact Floating.eq_of_toRat? (fixed ▸ remade) made sign

end BinaryFormat

end HostLisp
