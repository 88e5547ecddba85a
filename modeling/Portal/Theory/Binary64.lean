/-
# Theory.Binary64 — quotients of small integers in float64, compared

`Float` is IEEE binary64, and Lean defines its arithmetic: a value is unpacked into
mantissa and exponent, the operation computes a mantissa with a round bit and a sticky
bit, and rounds to nearest, ties to even.  A program that compares `float64(a) /
float64(b)` with `float64(c) / float64(d)` compares two such roundings.

`quotient_lt_iff` says when that is the comparison of the fractions themselves: when
`a * d` and `c * b` are below 2^52.  The pieces are

* `ReadsAs`: which rational the mantissa and the two bits stand for, kept by every
  shift to the right (`ReadsAs.shiftRight`) and rounded to a nearest integer
  (`ReadsAs.nearest`);
* `Rounds x m e`: `m * 2 ^ e` is `x` rounded to 53 bits.  There is one such pair only
  (`Rounds.unique`), and it is within `x / 2 ^ 53` of `x` (`Rounds.value`);
* `unpack_quotient`: the quotient of two converted integers rounds their fraction;
* `ratio_gap`: two fractions that differ, differ by more than the two errors.
-/
import Mathlib

namespace Portal.Theory.Binary64

open Float.Model Float.Model.UnpackedFloat

set_option autoImplicit false

/-- `float64(n)`. -/
def float64 (n : ℤ) : Float := .ofModel (.ofInt n)

/-! ## Nearest integers -/

/-- `m` is nearest to `x`, and even if there are two. -/
structure Nearest (x : ℚ) (m : ℕ) : Prop where
  lower : m - 1 / 2 ≤ x
  upper : x ≤ m + 1 / 2
  even : x = m - 1 / 2 ∨ x = m + 1 / 2 → m % 2 = 0

theorem nearest_self (m : ℕ) : Nearest m m where
  lower := by linarith
  upper := by linarith
  even := by rintro (same | same) <;> linarith

namespace Nearest

variable {x : ℚ} {m n : ℕ}

theorem not_lt (first : Nearest x m) (second : Nearest x n) : ¬ m < n := by
  intro less
  have step : (m : ℚ) + 1 ≤ n := by exact_mod_cast less
  have upper := first.upper
  have lower := second.lower
  -- both are half a unit away, on either side, so both are even
  have even_m := first.even (.inr (by linarith))
  have even_n := second.even (.inl (by linarith))
  have next : (n : ℚ) = m + 1 := by linarith
  have next' : n = m + 1 := by exact_mod_cast next
  omega

theorem unique (first : Nearest x m) (second : Nearest x n) : m = n := by
  have left := first.not_lt second
  have right := second.not_lt first
  omega

theorem between {lo hi : ℕ} (nearest : Nearest x m) (lower : lo ≤ x) (upper : x < hi) :
    lo ≤ m ∧ m ≤ hi := by
  have above := nearest.lower
  have below := nearest.upper
  constructor
  · have less : (lo : ℚ) < m + 1 := by linarith
    have less' : lo < m + 1 := by exact_mod_cast less
    omega
  · have less : (m : ℚ) < hi + 1 := by linarith
    have less' : m < hi + 1 := by exact_mod_cast less
    omega

end Nearest

/-! ## Mantissas with a round bit and a sticky bit -/

/-- The mantissa is the integer part of `x`, the round bit says whether at least a half
is left, the sticky bit whether anything but a half is. -/
structure ReadsAs (em : ExtendedMantissa) (x : ℚ) : Prop where
  lower : em.mantissa ≤ x
  upper : x < em.mantissa + 1
  round : em.roundBit = true ↔ em.mantissa + 1 / 2 ≤ x
  sticky : em.stickyBit = true ↔ x ≠ em.mantissa ∧ x ≠ em.mantissa + 1 / 2

theorem mantissa_ofMantissaAndAccuracy (m : ℕ) (acc : Accuracy) :
    (ExtendedMantissa.ofMantissaAndAccuracy m acc).mantissa = m := by
  cases acc with
  | exact => rfl
  | inexact order => cases order <;> rfl

/-- A remainder is recorded by how it compares with half the divisor. -/
theorem readsAs_fraction (n d : ℕ) (pos : 0 < d) :
    ReadsAs (.ofMantissaAndAccuracy (n / d) (accuracyOfFraction (n % d) d)) (n / d : ℚ) := by
  have pos' : (0 : ℚ) < d := Nat.cast_pos.mpr pos
  have value : (n / d : ℚ) = (n / d : ℕ) + (n % d : ℕ) / d := by
    rw [div_eq_iff pos'.ne', add_mul, div_mul_cancel₀ _ pos'.ne', mul_comm]
    exact_mod_cast (Nat.div_add_mod n d).symm
  have less : ((n % d : ℕ) : ℚ) / d < 1 := by
    rw [div_lt_one pos']
    exact_mod_cast Nat.mod_lt n pos
  rw [value]
  generalize n / d = q at *
  generalize n % d = r at *
  unfold accuracyOfFraction
  by_cases exact_ : r = 0
  · subst exact_
    constructor <;> simp [ExtendedMantissa.ofMantissaAndAccuracy]
  · have some_ : (0 : ℚ) < (r : ℚ) / d := div_pos (Nat.cast_pos.mpr (Nat.pos_of_ne_zero exact_)) pos'
    rw [if_neg exact_]
    rcases Nat.lt_trichotomy (2 * r) d with low | half | high
    · have fraction : (r : ℚ) / d < 1 / 2 := by
        have low' : (2 * r : ℚ) < d := by exact_mod_cast low
        rw [div_lt_iff₀ pos']
        linarith
      rw [Nat.compare_eq_lt.mpr low]
      constructor <;> simp only [ExtendedMantissa.ofMantissaAndAccuracy, Bool.false_eq_true,
        false_iff, true_iff, not_le]
      · linarith
      · linarith
      · linarith
      · exact ⟨by linarith, by linarith⟩
    · have fraction : (r : ℚ) / d = 1 / 2 := by
        have half' : (2 * r : ℚ) = d := by exact_mod_cast half
        rw [div_eq_iff pos'.ne']
        linarith
      rw [Nat.compare_eq_eq.mpr half, fraction]
      constructor <;> simp only [ExtendedMantissa.ofMantissaAndAccuracy, Bool.false_eq_true,
        false_iff, true_iff]
      · linarith
      · linarith
      · linarith
      · exact fun apart => apart.2 rfl
    · have fraction : 1 / 2 < (r : ℚ) / d := by
        have high' : (d : ℚ) < 2 * r := by exact_mod_cast high
        rw [lt_div_iff₀ pos']
        linarith
      rw [Nat.compare_eq_gt.mpr high]
      constructor <;> simp only [ExtendedMantissa.ofMantissaAndAccuracy, true_iff]
      · linarith
      · linarith
      · linarith
      · exact ⟨by linarith, by linarith⟩

namespace ReadsAs

variable {em : ExtendedMantissa} {x : ℚ}

theorem nearest (reads : ReadsAs em x) : Nearest x em.roundedMantissa := by
  obtain ⟨m, roundBit, stickyBit⟩ := em
  obtain ⟨lower, upper, round, sticky⟩ := reads
  simp only at lower upper round sticky
  cases roundBit <;> cases stickyBit <;>
    simp only [ExtendedMantissa.roundedMantissa, ExtendedMantissa.accuracy,
      Accuracy.roundToNearestEven, Bool.false_eq_true, false_iff, true_iff, not_le, not_and_or,
      not_not] at *
  · have same : x = m := sticky.resolve_right (by linarith)
    rw [same]
    exact nearest_self m
  · refine ⟨by linarith, by linarith, ?_⟩
    rintro (same | same) <;> linarith
  · -- a tie goes to the even neighbour
    have half : x = m + 1 / 2 := sticky.resolve_left (by linarith)
    rcases Nat.mod_two_eq_zero_or_one m with even | odd
    · rw [even, Nat.add_zero]
      exact ⟨by linarith, by linarith, fun _ => even⟩
    · rw [odd]
      exact ⟨by push_cast; linarith, by push_cast; linarith, fun _ => by omega⟩
  · have above : m + 1 / 2 < x := lt_of_le_of_ne round (Ne.symm sticky.2)
    refine ⟨by push_cast; linarith, by push_cast; linarith, ?_⟩
    rintro (same | same) <;> push_cast at same <;> linarith

/-- The bit that is shifted out becomes the round bit, everything below it the sticky
bit. -/
theorem shiftRightOne (reads : ReadsAs em x) : ReadsAs em.shiftRightOne (x / 2) := by
  obtain ⟨m, roundBit, stickyBit⟩ := em
  obtain ⟨lower, upper, round, sticky⟩ := reads
  simp only at lower upper round sticky
  have split : (m : ℚ) = 2 * (m / 2 : ℕ) + (m % 2 : ℕ) := by
    exact_mod_cast (Nat.div_add_mod m 2).symm
  have inexact : (roundBit || stickyBit) = true ↔ x ≠ m := by
    rw [Bool.or_eq_true, round, sticky]
    constructor
    · rintro (half | ⟨apart, -⟩)
      · intro same
        linarith
      · exact apart
    · intro apart
      by_cases half : x = m + 1 / 2
      · exact .inl (by linarith)
      · exact .inr ⟨apart, half⟩
  rcases Nat.mod_two_eq_zero_or_one m with even | odd
  · simp only [even, Nat.cast_zero, add_zero] at split
    constructor <;> simp only [ExtendedMantissa.shiftRightOne, inexact, even]
    · linarith
    · linarith
    · refine iff_of_false (by decide) ?_
      linarith
    · constructor
      · intro apart
        exact ⟨fun same => apart (by linarith), fun same => by linarith⟩
      · rintro ⟨apart, -⟩ same
        exact apart (by linarith)
  · simp only [odd, Nat.cast_one] at split
    constructor <;> simp only [ExtendedMantissa.shiftRightOne, inexact, odd]
    · linarith
    · linarith
    · refine iff_of_true (by decide) ?_
      linarith
    · constructor
      · intro apart
        exact ⟨fun same => by linarith, fun same => apart (by linarith)⟩
      · rintro ⟨-, apart⟩ same
        exact apart (by linarith)

theorem shiftRight (reads : ReadsAs em x) (k : ℕ) : ReadsAs (em >>> k) (x / 2 ^ k) := by
  induction k with
  | zero => simpa [HShiftRight.hShiftRight, Nat.repeat] using reads
  | succ k ih =>
      have next := ih.shiftRightOne
      rw [div_div, ← pow_succ] at next
      exact next

end ReadsAs

/-! ## Correctly rounded values -/

theorem cast_two_pow (k : ℕ) : ((2 ^ k : ℕ) : ℚ) = 2 ^ k := by
  rw [Nat.cast_pow, Nat.cast_ofNat]

theorem two_zpow_pos (e : ℤ) : (0 : ℚ) < 2 ^ e := zpow_pos (by norm_num) e

/-- The positive value `m * 2 ^ e`. -/
def positive (m : ℕ) (e : ℤ) : UnpackedFloat :=
  if pos : 0 < m then .finite .positive m e pos else .zero .positive

/-- A mantissa of 53 bits. -/
def Normal (m : ℕ) : Prop := 2 ^ 52 ≤ m ∧ m < 2 ^ 53

theorem Normal.pos {m : ℕ} (normal : Normal m) : 0 < m :=
  Nat.lt_of_lt_of_le (by decide) normal.1

theorem normal_iff {m : ℕ} (pos : 0 < m) : Normal m ↔ m.log2 = 52 :=
  (Nat.log2_eq_iff pos.ne').symm

/-- A mantissa that was rounded up to 2^53 moves the exponent. -/
def carry (m : ℕ) (e : ℤ) : ℕ × ℤ := if m = 2 ^ 53 then (2 ^ 52, e + 1) else (m, e)

theorem carry_exponent (m : ℕ) (e : ℤ) : e ≤ (carry m e).2 ∧ (carry m e).2 ≤ e + 1 := by
  unfold carry
  split
  · exact ⟨by omega, le_refl _⟩
  · exact ⟨le_refl _, by omega⟩

theorem carry_value (m : ℕ) (e : ℤ) :
    ((carry m e).1 : ℚ) * 2 ^ (carry m e).2 = m * 2 ^ e := by
  unfold carry
  split
  · rename_i top
    rw [top, cast_two_pow, cast_two_pow, zpow_add₀ (by norm_num : (2 : ℚ) ≠ 0)]
    ring
  · rfl

/-- `m * 2 ^ e` is `x` rounded to 53 bits, to nearest, ties to even. -/
def Rounds (x : ℚ) (m : ℕ) (e : ℤ) : Prop :=
  ∃ M E, 2 ^ 52 ≤ x / 2 ^ E ∧ x / 2 ^ E < 2 ^ 53 ∧ Nearest (x / 2 ^ E) M ∧ (m, e) = carry M E

namespace Rounds

variable {x y : ℚ} {m n : ℕ} {e f : ℤ}

theorem normal (rounds : Rounds x m e) : Normal m := by
  obtain ⟨M, E, lower, upper, nearest, same⟩ := rounds
  have bounds : 2 ^ 52 ≤ M ∧ M ≤ 2 ^ 53 :=
    nearest.between ((cast_two_pow 52).le.trans lower) (upper.trans_le (cast_two_pow 53).ge)
  unfold carry at same
  split at same <;> cases same
  · exact ⟨le_refl _, by decide⟩
  · exact ⟨bounds.1, by omega⟩

/-- Half a unit of the last place is a 2^53rd of the value, or less. -/
theorem value (rounds : Rounds x m e) : |(m : ℚ) * 2 ^ e - x| ≤ x / 2 ^ 53 := by
  obtain ⟨M, E, lower, upper, nearest, same⟩ := rounds
  have kept : (m : ℚ) * 2 ^ e = M * 2 ^ E := by
    rw [← carry_value M E, ← same]
  have unit : x = x / 2 ^ E * 2 ^ E := (div_mul_cancel₀ _ (two_zpow_pos E).ne').symm
  have near : |(M : ℚ) - x / 2 ^ E| ≤ 1 / 2 := by
    have below := nearest.lower
    have above := nearest.upper
    rw [abs_le]
    constructor <;> linarith
  calc |(m : ℚ) * 2 ^ e - x| = |(M : ℚ) - x / 2 ^ E| * 2 ^ E := by
        rw [kept]
        conv_lhs => rw [unit]
        rw [← sub_mul, abs_mul, abs_of_pos (two_zpow_pos E)]
    _ ≤ 1 / 2 * 2 ^ E := mul_le_mul_of_nonneg_right near (two_zpow_pos E).le
    _ = 2 ^ 52 * 2 ^ E / 2 ^ 53 := by ring
    _ ≤ x / 2 ^ E * 2 ^ E / 2 ^ 53 := by
        have scaled := mul_le_mul_of_nonneg_right lower (two_zpow_pos E).le
        linarith
    _ = x / 2 ^ 53 := by rw [← unit]

/-- Only one exponent gives `x` an integer part of 53 bits. -/
theorem exponent_le (lower : 2 ^ 52 ≤ x / 2 ^ e) (upper : x / 2 ^ f < 2 ^ 53) : e ≤ f := by
  apply Int.not_lt.mp
  intro less
  rw [le_div_iff₀ (two_zpow_pos e)] at lower
  rw [div_lt_iff₀ (two_zpow_pos f)] at upper
  have step : (2 : ℚ) ^ (f + 1) ≤ 2 ^ e := zpow_le_zpow_right₀ (by norm_num) less
  rw [zpow_add₀ (by norm_num : (2 : ℚ) ≠ 0), zpow_one] at step
  linarith

theorem unique (first : Rounds x m e) (second : Rounds x n f) : m = n ∧ e = f := by
  obtain ⟨M, E, lower, upper, nearest, same⟩ := first
  obtain ⟨N, F, lower', upper', nearest', same'⟩ := second
  obtain rfl : E = F := le_antisymm (exponent_le lower upper') (exponent_le lower' upper)
  obtain rfl : M = N := nearest.unique nearest'
  exact Prod.mk.inj (same.trans same'.symm)

/-- Values that lie further apart than the two errors stay apart. -/
theorem lt (left : Rounds x m e) (right : Rounds y n f) (less : x < y)
    (gap : y < 2 ^ 52 * (y - x)) : (m : ℚ) * 2 ^ e < n * 2 ^ f := by
  have above := (abs_le.mp left.value).2
  have below := (abs_le.mp right.value).1
  linarith

end Rounds

/-- Of two normal values the one with the greater exponent is greater. -/
theorem value_lt_of_exponent {m n : ℕ} {e f : ℤ} (left : Normal m) (right : Normal n) (less : e < f) :
    (m : ℚ) * 2 ^ e < n * 2 ^ f := by
  have step : (2 : ℚ) ^ (e + 1) ≤ 2 ^ f := zpow_le_zpow_right₀ (by norm_num) less
  rw [zpow_add₀ (by norm_num : (2 : ℚ) ≠ 0), zpow_one] at step
  have upper : (m : ℚ) < 2 ^ 53 := (Nat.cast_lt.mpr left.2).trans_le (cast_two_pow 53).le
  have lower : (2 : ℚ) ^ 52 ≤ n := (cast_two_pow 52).ge.trans (Nat.cast_le.mpr right.1)
  calc (m : ℚ) * 2 ^ e < 2 ^ 53 * 2 ^ e := mul_lt_mul_of_pos_right upper (two_zpow_pos e)
    _ = 2 ^ 52 * (2 ^ e * 2) := by ring
    _ ≤ 2 ^ 52 * 2 ^ f := mul_le_mul_of_nonneg_left step (by positivity)
    _ ≤ n * 2 ^ f := mul_le_mul_of_nonneg_right lower (two_zpow_pos f).le

/-- Normal values compare by exponent first and mantissa second, which is as numbers. -/
theorem positive_lt_iff {m n : ℕ} {e f : ℤ} (left : Normal m) (right : Normal n) :
    (positive m e).lt (positive n f) = true ↔ (m : ℚ) * 2 ^ e < n * 2 ^ f := by
  simp only [positive, dif_pos left.pos, dif_pos right.pos, UnpackedFloat.lt,
    UnpackedFloat.compare]
  rcases lt_trichotomy e f with before | same | after
  · refine iff_of_true ?_ (value_lt_of_exponent left right before)
    rw [Int.compare_eq_lt.mpr before]
    rfl
  · subst same
    rw [Int.compare_eq_eq.mpr rfl, mul_lt_mul_iff_left₀ (two_zpow_pos e), Nat.cast_lt]
    show (some (compare m n) == some .lt) = true ↔ m < n
    rw [beq_iff_eq, Option.some.injEq, Nat.compare_eq_lt]
  · refine iff_of_false ?_ (not_lt.mpr (value_lt_of_exponent right left after).le)
    rw [Int.compare_eq_gt.mpr after]
    simp

/-! ## Rounding, step by step -/

theorem targetExponent_eq {m k : ℕ} {e : ℤ} (log : m.log2 = 52 + k) (fits : -1074 ≤ e) :
    Format.binary64.targetExponent (totalExponent m e) = e + k := by
  simp only [Format.targetExponent, totalExponent, Format.mantissaBits, Format.minExponent, log]
  norm_num
  omega

/-- A mantissa of `53 + k` bits is shifted by `k`. -/
theorem shiftToTargetExponent_eq {m k : ℕ} {e : ℤ} (acc : Accuracy) (log : m.log2 = 52 + k)
    (fits : -1074 ≤ e) :
    shiftToTargetExponent .binary64 m e acc =
      (ExtendedMantissa.ofMantissaAndAccuracy m acc >>> k, e + k) := by
  have amount : (e + (k : ℤ) - e).toNat = k := by omega
  simp only [shiftToTargetExponent, shiftToExponent, targetExponent_eq log fits, amount]

theorem roundWithAccuracy_positive (m : ℕ) (e : ℤ) (acc : Accuracy) :
    roundWithAccuracy .binary64 .positive m e acc =
      let first := shiftToTargetExponent .binary64 m e acc
      let last := shiftToTargetExponent .binary64 first.1.roundedMantissa first.2 .exact
      positive last.1.mantissa last.2 := by
  unfold roundWithAccuracy positive
  simp only [Nat.pos_iff_ne_zero]
  split <;> simp [*]

/-- The second shift is the carry. -/
theorem roundWithAccuracy_eq {m k M : ℕ} {e : ℤ} {acc : Accuracy} (log : m.log2 = 52 + k)
    (fits : -1074 ≤ e)
    (rounded : (ExtendedMantissa.ofMantissaAndAccuracy m acc >>> k).roundedMantissa = M)
    (lower : 2 ^ 52 ≤ M) (upper : M ≤ 2 ^ 53) :
    roundWithAccuracy .binary64 .positive m e acc =
      positive (carry M (e + k)).1 (carry M (e + k)).2 := by
  rw [roundWithAccuracy_positive, shiftToTargetExponent_eq acc log fits]
  simp only [rounded]
  by_cases top : M = 2 ^ 53
  · have log' : M.log2 = 52 + 1 := by rw [top]; exact Nat.log2_two_pow
    rw [shiftToTargetExponent_eq .exact log' (by omega), carry, if_pos top]
    subst top
    rfl
  · have log' : M.log2 = 52 + 0 := (Nat.log2_eq_iff (by omega)).mpr ⟨lower, by omega⟩
    rw [shiftToTargetExponent_eq .exact log' (by omega), carry, if_neg top, Nat.cast_zero, add_zero]
    rfl

/-- A mantissa of 53 bits stays as it is. -/
theorem roundWithAccuracy_exact {m : ℕ} {e : ℤ} (normal : Normal m) (fits : -1074 ≤ e) :
    roundWithAccuracy .binary64 .positive m e .exact = positive m e := by
  have log : m.log2 = 52 + 0 := (normal_iff normal.pos).mp normal
  have rounded : (ExtendedMantissa.ofMantissaAndAccuracy m .exact >>> 0).roundedMantissa = m := rfl
  rw [roundWithAccuracy_eq log fits rounded normal.1 normal.2.le, carry, if_neg normal.2.ne,
    Nat.cast_zero, add_zero]

/-- A fraction whose integer part has at least 53 bits is rounded correctly. -/
theorem roundWithAccuracy_fraction {n d k : ℕ} {e : ℤ} (pos : 0 < d)
    (log : (n / d).log2 = 52 + k) (fits : -1074 ≤ e) :
    ∃ M E, Rounds (n / d * 2 ^ e) M E ∧ e ≤ E ∧ E ≤ e + k + 1 ∧
      roundWithAccuracy .binary64 .positive (n / d) e (accuracyOfFraction (n % d) d) =
        positive M E := by
  have reads := readsAs_fraction n d pos
  have lower := reads.lower
  have upper := reads.upper
  rw [mantissa_ofMantissaAndAccuracy] at lower upper
  have nonzero : n / d ≠ 0 := by
    intro zero
    rw [zero, Nat.log2_zero] at log
    omega
  have bits := (Nat.log2_eq_iff nonzero).mp log
  have power : (0 : ℚ) < 2 ^ k := by positivity
  have atLeast : (2 : ℚ) ^ 52 ≤ (n / d : ℚ) / 2 ^ k := by
    rw [le_div_iff₀ power, ← pow_add, ← cast_two_pow]
    exact (Nat.cast_le.mpr bits.1).trans lower
  have below : (n / d : ℚ) / 2 ^ k < 2 ^ 53 := by
    rw [div_lt_iff₀ power, ← pow_add, ← cast_two_pow, show 53 + k = 52 + k + 1 by omega]
    refine upper.trans_le ?_
    rw [← Nat.cast_add_one]
    exact Nat.cast_le.mpr bits.2
  have scaled : (n / d * 2 ^ e : ℚ) / 2 ^ (e + k) = (n / d : ℚ) / 2 ^ k := by
    rw [zpow_add₀ (by norm_num : (2 : ℚ) ≠ 0), zpow_natCast, mul_comm (2 ^ e),
      mul_div_mul_right _ _ (two_zpow_pos e).ne']
  obtain ⟨M, rounded⟩ : ∃ M, (ExtendedMantissa.ofMantissaAndAccuracy (n / d)
    (accuracyOfFraction (n % d) d) >>> k).roundedMantissa = M := ⟨_, rfl⟩
  have nearest := (reads.shiftRight k).nearest
  rw [rounded] at nearest
  have between := nearest.between ((cast_two_pow 52).le.trans atLeast)
    (below.trans_le (cast_two_pow 53).ge)
  obtain ⟨from_, upto⟩ := carry_exponent M (e + k)
  refine ⟨(carry M (e + k)).1, (carry M (e + k)).2, ⟨M, e + k, ?_, ?_, ?_, rfl⟩, by omega, upto,
    roundWithAccuracy_eq log fits rounded between.1 between.2⟩
  · rwa [scaled]
  · rwa [scaled]
  · rwa [scaled]

/-! ## Packing -/

/-- The implicit bit of a normal mantissa. -/
theorem toNat_implicit (m : BitVec 52) : (1#1 ++ m).toNat = 2 ^ 52 + m.toNat := by
  rw [BitVec.toNat_append, ← Nat.shiftLeft_add_eq_or_of_lt m.isLt]
  rfl

theorem unpackSign_packComponents {spec : Format} (s : Sign) (e : BitVec spec.exponentBits)
    (m : BitVec spec.mantissaBitsWithoutImplicit) :
    unpackSign (packComponents spec s e m) = s.toBitVec := by
  apply BitVec.eq_of_getLsbD_eq
  intro i bound
  obtain rfl : i = 0 := by omega
  simp [unpackSign, packComponents, BitVec.getLsbD_append, BitVec.getElem_append]

/-- A normal value survives packing. -/
theorem unpack_pack {m : ℕ} {e : ℤ} (normal : Normal m) (lower : -1074 ≤ e) (upper : e ≤ 971) :
    (Float.Model.pack (positive m e)).unpack = positive m e := by
  obtain ⟨biased, rfl⟩ : ∃ biased : ℕ, e = biased - 1075 := ⟨(e + 1075).toNat, by omega⟩
  have log : m.log2 + 1 = 53 := by rw [(normal_iff normal.pos).mp normal]
  have field : (biased - 1075 + (1023 : ℕ) + (52 : ℕ) : ℤ).toNat = biased := by omega
  have exponent : (BitVec.ofNat 11 biased).toNat = biased := Nat.mod_eq_of_lt (by omega)
  have mantissa : (1#1 ++ BitVec.ofNat 52 m).toNat = m := by
    have bounds := normal
    unfold Normal at bounds
    rw [toNat_implicit, BitVec.toNat_ofNat]
    omega
  have nonzero : BitVec.ofNat 11 biased ≠ 0#11 := by
    intro same
    have zero := congrArg BitVec.toNat same
    rw [exponent, BitVec.toNat_ofNat] at zero
    omega
  have finite : BitVec.ofNat 11 biased ≠ -1#11 := by
    intro same
    have ones := congrArg BitVec.toNat same
    rw [exponent, BitVec.neg_one_eq_allOnes, BitVec.toNat_allOnes] at ones
    omega
  have packed : UnpackedFloat.pack .binary64 (positive m (biased - 1075)) =
      packComponents .binary64 .positive (BitVec.ofNat 11 biased) (BitVec.ofNat 52 m) := by
    rw [positive, dif_pos normal.pos, UnpackedFloat.pack]
    show (if 2 ^ 11 ≤ (biased - 1075 + (1023 : ℕ) + (52 : ℕ) : ℤ).toNat + 1 then _
      else if m.log2 + 1 = 53 then packComponents .binary64 .positive
        (BitVec.ofNat 11 (biased - 1075 + (1023 : ℕ) + (52 : ℕ) : ℤ).toNat) (BitVec.ofNat 52 m)
      else _) = _
    rw [field, if_neg (by omega), if_pos log]
  show UnpackedFloat.unpack .binary64 (UnpackedFloat.pack .binary64 _) = _
  rw [packed, UnpackedFloat.unpack]
  simp only [unpackMantissa_packComponents, unpackExponent_packComponents,
    unpackSign_packComponents]
  rw [if_neg finite, if_neg nonzero, positive, dif_pos normal.pos]
  simp only [exponent, mantissa]
  rfl

/-! ## Integers and their quotients -/

theorem log2_shiftLeft {n : ℕ} (pos : 0 < n) (k : ℕ) : (n <<< k).log2 = n.log2 + k := by
  rw [Nat.shiftLeft_eq, Nat.log2_eq_iff (by positivity), pow_add, add_right_comm, pow_add]
  exact ⟨Nat.mul_le_mul_right _ (Nat.log2_self_le pos.ne'),
    Nat.mul_lt_mul_of_pos_right Nat.lt_log2_self (by positivity)⟩

/-- The mantissa of an integer below 2^53: shifted until it has 53 bits. -/
def mantissaOf (n : ℕ) : ℕ := n <<< (52 - n.log2)

def exponentOf (n : ℕ) : ℤ := n.log2 - 52

theorem mantissaOf_normal {n : ℕ} (pos : 0 < n) (small : n < 2 ^ 53) : Normal (mantissaOf n) := by
  have log : n.log2 < 53 := (Nat.log2_lt pos.ne').mpr small
  rw [mantissaOf, normal_iff (Nat.shiftLeft_pos_iff.mpr pos), log2_shiftLeft pos]
  omega

theorem exponentOf_bounds {n : ℕ} (pos : 0 < n) (small : n < 2 ^ 53) :
    -52 ≤ exponentOf n ∧ exponentOf n ≤ 0 := by
  have log : n.log2 < 53 := (Nat.log2_lt pos.ne').mpr small
  unfold exponentOf
  omega

theorem mantissaOf_value {n : ℕ} (pos : 0 < n) (small : n < 2 ^ 53) :
    (mantissaOf n : ℚ) * 2 ^ exponentOf n = n := by
  have log : n.log2 < 53 := (Nat.log2_lt pos.ne').mpr small
  have cancel : ((52 - n.log2 : ℕ) : ℤ) + (n.log2 - 52) = 0 := by omega
  rw [mantissaOf, exponentOf, Nat.shiftLeft_eq, Nat.cast_mul, cast_two_pow, mul_assoc,
    ← zpow_natCast, ← zpow_add₀ (by norm_num : (2 : ℚ) ≠ 0), cancel, zpow_zero, mul_one]

/-- An integer below 2^53 is converted exactly. -/
theorem unpack_float64 {n : ℕ} (pos : 0 < n) (small : n < 2 ^ 53) :
    (float64 n).toModel.unpack = positive (mantissaOf n) (exponentOf n) := by
  have log : n.log2 < 53 := (Nat.log2_lt pos.ne').mpr small
  have bounds := exponentOf_bounds pos small
  have target : Format.binary64.targetExponent (totalExponent n 0) = n.log2 - 52 := by
    simp only [Format.targetExponent, totalExponent, Format.mantissaBits, Format.minExponent]
    norm_num
    omega
  have amount : (0 - ((n.log2 : ℤ) - 52)).toNat = 52 - n.log2 := by omega
  have exponent : (0 : ℤ) - (52 - n.log2 : ℕ) = n.log2 - 52 := by omega
  have rounded : UnpackedFloat.ofInt .binary64 n = positive (mantissaOf n) (exponentOf n) := by
    rw [UnpackedFloat.ofInt, UnpackedFloat.normalize,
      Int.compare_eq_gt.mpr (Int.natCast_pos.mpr pos)]
    simp only [UnpackedFloat.round, Int.toNat_natCast, target, decreaseExponent, amount, exponent]
    exact roundWithAccuracy_exact (mantissaOf_normal pos small) (by omega)
  show (Float.Model.pack (UnpackedFloat.ofInt .binary64 n)).unpack = _
  rw [rounded]
  exact unpack_pack (mantissaOf_normal pos small) (by omega) (by omega)

theorem unpack_float64_zero : (float64 (0 : ℕ)).toModel.unpack = .zero .positive := rfl

theorem divCore_normal {m n : ℕ} {e f : ℤ} (left : Normal m) (right : Normal n)
    (fits : -1021 ≤ e - f) :
    divCore .binary64 m e n f =
      ((m * 2 ^ 53) / n, e - f - 53, accuracyOfFraction ((m * 2 ^ 53) % n) n) := by
  have target : Format.binary64.targetExponent (totalExponent m e - totalExponent n f) =
      e - f - 53 := by
    simp only [Format.targetExponent, totalExponent, Format.mantissaBits, Format.minExponent,
      (normal_iff left.pos).mp left, (normal_iff right.pos).mp right]
    norm_num
    omega
  have least : min (e - f) (e - f - 53) = e - f - 53 := by omega
  have amount : (e - f - (e - f - 53)).toNat = 53 := by omega
  simp only [divCore, target, least, amount, Nat.shiftLeft_eq]

/-- A quotient of normal values is rounded correctly. -/
theorem div_rounds {m n : ℕ} {e f : ℤ} (left : Normal m) (right : Normal n)
    (fits : -1021 ≤ e - f) :
    ∃ M E, Rounds (m * 2 ^ e / (n * 2 ^ f)) M E ∧ e - f - 53 ≤ E ∧ E ≤ e - f - 51 ∧
      UnpackedFloat.div .binary64 (positive m e) (positive n f) = positive M E := by
  have bounds_m := left
  have bounds_n := right
  unfold Normal at bounds_m bounds_n
  have lower : 2 ^ 52 ≤ m * 2 ^ 53 / n := by
    rw [Nat.le_div_iff_mul_le right.pos]
    omega
  have upper : m * 2 ^ 53 / n < 2 ^ 54 := by
    rw [Nat.div_lt_iff_lt_mul right.pos]
    omega
  obtain ⟨k, log, few⟩ : ∃ k, (m * 2 ^ 53 / n).log2 = 52 + k ∧ k ≤ 1 := by
    have low := (Nat.le_log2 (by omega)).mpr lower
    have high := (Nat.log2_lt (by omega)).mpr upper
    exact ⟨(m * 2 ^ 53 / n).log2 - 52, by omega, by omega⟩
  obtain ⟨M, E, rounds, above, below, rounded⟩ :=
    roundWithAccuracy_fraction right.pos log (e := e - f - 53) (by omega)
  have value : ((m * 2 ^ 53 : ℕ) / n * 2 ^ (e - f - 53) : ℚ) = m * 2 ^ e / (n * 2 ^ f) := by
    have two : (2 : ℚ) ≠ 0 := by norm_num
    have nonzero : (n : ℚ) ≠ 0 := Nat.cast_ne_zero.mpr right.pos.ne'
    rw [Nat.cast_mul, cast_two_pow, zpow_sub₀ two, zpow_sub₀ two, zpow_ofNat]
    field_simp
  refine ⟨M, E, ?_, above, by omega, ?_⟩
  · rw [← value]
    exact rounds
  · simp only [positive, dif_pos left.pos, dif_pos right.pos, UnpackedFloat.div,
      divCore_normal left right fits]
    exact rounded

theorem unpack_div (x y : Float) : (x / y).toModel.unpack =
    (Float.Model.pack (UnpackedFloat.div .binary64 x.toModel.unpack y.toModel.unpack)).unpack :=
  rfl

theorem unpack_quotient {a b : ℕ} (pos_a : 0 < a) (small_a : a < 2 ^ 53) (pos_b : 0 < b)
    (small_b : b < 2 ^ 53) :
    ∃ M E, Rounds (a / b) M E ∧ (float64 a / float64 b).toModel.unpack = positive M E := by
  have bounds_a := exponentOf_bounds pos_a small_a
  have bounds_b := exponentOf_bounds pos_b small_b
  obtain ⟨M, E, rounds, lower, upper, quotient⟩ :=
    div_rounds (mantissaOf_normal pos_a small_a) (mantissaOf_normal pos_b small_b)
      (e := exponentOf a) (f := exponentOf b) (by omega)
  rw [mantissaOf_value pos_a small_a, mantissaOf_value pos_b small_b] at rounds
  refine ⟨M, E, rounds, ?_⟩
  rw [unpack_div, unpack_float64 pos_a small_a, unpack_float64 pos_b small_b, quotient]
  exact unpack_pack rounds.normal (by omega) (by omega)

theorem unpack_zero_quotient {b : ℕ} (pos : 0 < b) (small : b < 2 ^ 53) :
    (float64 (0 : ℕ) / float64 b).toModel.unpack = .zero .positive := by
  have normal := mantissaOf_normal pos small
  rw [unpack_div, unpack_float64_zero, unpack_float64 pos small, positive, dif_pos normal.pos]
  simp only [UnpackedFloat.div]
  rfl

/-- Two fractions that differ, differ by more than a 2^52nd of the greater one, as long
as its cross product is below 2^52. -/
theorem ratio_gap {a b c d : ℕ} (pos_b : 0 < b) (pos_d : 0 < d) (less : a * d < c * b)
    (small : c * b < 2 ^ 52) :
    (a / b : ℚ) < c / d ∧ (c / d : ℚ) < 2 ^ 52 * (c / d - a / b) := by
  have hb : (0 : ℚ) < b := Nat.cast_pos.mpr pos_b
  have hd : (0 : ℚ) < d := Nat.cast_pos.mpr pos_d
  have less' : (a * d + 1 : ℚ) ≤ c * b := by exact_mod_cast less
  have small' : (c * b : ℚ) < 2 ^ 52 := by exact_mod_cast small
  constructor
  · rw [div_lt_div_iff₀ hb hd]
    linarith
  · have gap : (c * b : ℚ) < 2 ^ 52 * (c * b - d * a) := by linarith
    rw [div_sub_div _ _ hd.ne' hb.ne', mul_div_assoc', lt_div_iff₀ (mul_pos hd hb)]
    calc (c / d * (d * b) : ℚ) = c * b := by field_simp
      _ < 2 ^ 52 * (c * b - d * a) := gap

/-- **Comparing quotients.**  With cross products below 2^52, the float64 quotients of
two pairs of integers compare as the fractions do. -/
theorem quotient_lt_iff {a b c d : ℕ} (pos_b : 0 < b) (pos_d : 0 < d) (small_b : b < 2 ^ 53)
    (small_d : d < 2 ^ 53) (cross_a : a * d < 2 ^ 52) (cross_c : c * b < 2 ^ 52) :
    float64 a / float64 b < float64 c / float64 d ↔ a * d < c * b := by
  have small_a : a < 2 ^ 53 := by
    have le := Nat.le_mul_of_pos_right a pos_d
    omega
  have small_c : c < 2 ^ 53 := by
    have le := Nat.le_mul_of_pos_right c pos_b
    omega
  have unpacked : float64 a / float64 b < float64 c / float64 d ↔
      (float64 a / float64 b).toModel.unpack.lt (float64 c / float64 d).toModel.unpack = true := by
    show decide _ = true ↔ _
    rw [decide_eq_true_iff]
    rfl
  rw [unpacked]
  rcases Nat.eq_zero_or_pos a with zero_a | pos_a <;>
    rcases Nat.eq_zero_or_pos c with zero_c | pos_c
  · subst zero_a zero_c
    rw [unpack_zero_quotient pos_b small_b, unpack_zero_quotient pos_d small_d]
    exact iff_of_false (by simp [UnpackedFloat.lt, UnpackedFloat.compare]) (by omega)
  · subst zero_a
    obtain ⟨N, F, rounds, right⟩ := unpack_quotient pos_c small_c pos_d small_d
    rw [unpack_zero_quotient pos_b small_b, right, positive, dif_pos rounds.normal.pos, Nat.zero_mul]
    exact iff_of_true rfl (Nat.mul_pos pos_c pos_b)
  · subst zero_c
    obtain ⟨M, E, rounds, left⟩ := unpack_quotient pos_a small_a pos_b small_b
    rw [unpack_zero_quotient pos_d small_d, left, positive, dif_pos rounds.normal.pos]
    exact iff_of_false (by simp [UnpackedFloat.lt, UnpackedFloat.compare]) (by omega)
  · obtain ⟨M, E, rounds_a, left⟩ := unpack_quotient pos_a small_a pos_b small_b
    obtain ⟨N, F, rounds_c, right⟩ := unpack_quotient pos_c small_c pos_d small_d
    rw [left, right, positive_lt_iff rounds_a.normal rounds_c.normal]
    rcases Nat.lt_trichotomy (a * d) (c * b) with less | same | more
    · obtain ⟨lt, gap⟩ := ratio_gap pos_b pos_d less cross_c
      exact iff_of_true (rounds_a.lt rounds_c lt gap) less
    · -- equal fractions are rounded alike, whatever the two pairs are
      have equal : (a / b : ℚ) = c / d := by
        rw [div_eq_div_iff (Nat.cast_ne_zero.mpr pos_b.ne') (Nat.cast_ne_zero.mpr pos_d.ne')]
        exact_mod_cast same
      rw [equal] at rounds_a
      obtain ⟨rfl, rfl⟩ := rounds_a.unique rounds_c
      exact iff_of_false (lt_irrefl _) (by omega)
    · obtain ⟨lt, gap⟩ := ratio_gap pos_d pos_b more cross_a
      exact iff_of_false (not_lt.mpr (rounds_c.lt rounds_a lt gap).le) (by omega)

end Portal.Theory.Binary64
