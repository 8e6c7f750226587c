import Mathlib.Data.Rat.Floor
import Mathlib.Data.Rat.Cast.Order
import Mathlib.Algebra.Order.Field.Power
import Mathlib.Tactic.Linarith
import Mathlib.Tactic.NormNum
import Mathlib.Tactic.Positivity
import Mathlib.Tactic.Push
import Mathlib.Tactic.Ring
import Listing.Number.Binary64

set_option autoImplicit false

/-!
# Rounded quotients and their ceilings

The quotient of two integers is rounded to 53 significant binary digits. Rounding never passes an
integer of that many digits, and it keeps a quotient away from the integer below it as long as the
dividend has no more digits than that. So the rounded quotient has the ceiling of the exact one.
-/

namespace Listing.Binary64

theorem roundHalfEven_le {n d k : ℕ} (hd : 0 < d) (h : n ≤ k * d) : roundHalfEven n d ≤ k := by
  have hn := Nat.div_add_mod n d
  have hr := Nat.mod_lt n hd
  have hq : n / d ≤ k := Nat.div_le_of_le_mul (by rwa [Nat.mul_comm])
  simp only [roundHalfEven]
  rcases Nat.lt_or_eq_of_le hq with hlt | heq
  · split_ifs <;> omega
  · have hzero : n % d = 0 := by
      rw [heq, Nat.mul_comm] at hn
      omega
    rw [hzero, if_pos (by omega)]
    omega

theorem lt_roundHalfEven {n d k : ℕ} (hd : 0 < d) (h : 2 * (k * d) + d < 2 * n) :
    k < roundHalfEven n d := by
  have hn := Nat.div_add_mod n d
  have hr := Nat.mod_lt n hd
  have hk : k ≤ n / d := by
    apply (Nat.le_div_iff_mul_le hd).2
    omega
  simp only [roundHalfEven]
  rcases Nat.lt_or_eq_of_le hk with hlt | heq
  · split_ifs <;> omega
  · have hrest : d < 2 * (n % d) := by
      rw [← heq, Nat.mul_comm d k] at hn
      omega
    rw [if_neg (by omega), if_pos hrest]
    omega

/-- Half of one goes to the even integer, which is nothing. -/
theorem roundHalfEven_half {n d : ℕ} (hd : 0 < d) (h : 2 * n ≤ d) : roundHalfEven n d = 0 := by
  have hq : n / d = 0 := Nat.div_eq_of_lt (by omega)
  have hr : n % d = n := Nat.mod_eq_of_lt (by omega)
  simp only [roundHalfEven, hq, hr]
  split_ifs
  · rfl
  · omega
  · rfl

theorem shift_le_iff {n d : ℕ} (k : ℤ) :
    (if 0 ≤ k then d <<< k.toNat ≤ n else d ≤ n <<< (-k).toNat) ↔ (d : ℚ) * 2 ^ k ≤ n := by
  by_cases hk : 0 ≤ k
  · obtain ⟨j, rfl⟩ := Int.eq_ofNat_of_zero_le hk
    rw [if_pos hk, Int.toNat_natCast, Nat.shiftLeft_eq, zpow_natCast]
    exact_mod_cast Iff.rfl
  · obtain ⟨j, hj⟩ := Int.eq_ofNat_of_zero_le (show 0 ≤ -k by omega)
    obtain rfl : k = -(j : ℤ) := by omega
    rw [if_neg hk, neg_neg, Int.toNat_natCast, Nat.shiftLeft_eq, zpow_neg, zpow_natCast,
      ← div_eq_mul_inv, div_le_iff₀ (by positivity)]
    exact_mod_cast Iff.rfl

theorem log2_bounds {n : ℕ} (hn : 0 < n) :
    (2 : ℚ) ^ (n.log2 : ℤ) ≤ n ∧ (n : ℚ) < 2 ^ ((n.log2 : ℤ) + 1) := by
  constructor
  · rw [zpow_natCast]
    exact_mod_cast Nat.log2_self_le hn.ne'
  · rw [← Nat.cast_succ, zpow_natCast]
    exact_mod_cast Nat.lt_log2_self

/-- The exponent is the one between whose power of two and the next the quotient lies. -/
theorem floorLog2_spec {n d : ℕ} (hn : 0 < n) (hd : 0 < d) :
    (d : ℚ) * 2 ^ floorLog2 n d ≤ n ∧ (n : ℚ) < d * 2 ^ (floorLog2 n d + 1) := by
  obtain ⟨hnl, hnu⟩ := log2_bounds hn
  obtain ⟨hdl, hdu⟩ := log2_bounds hd
  have two : (2 : ℚ) ≠ 0 := by norm_num
  simp only [floorLog2, shift_le_iff]
  split_ifs with hreached
  · refine ⟨hreached, hnu.trans_le ?_⟩
    calc (2 : ℚ) ^ ((n.log2 : ℤ) + 1) = 2 ^ (d.log2 : ℤ) * 2 ^ ((n.log2 : ℤ) - d.log2 + 1) := by
          rw [← zpow_add₀ two]
          congr 1
          ring
      _ ≤ d * 2 ^ ((n.log2 : ℤ) - d.log2 + 1) :=
          mul_le_mul_of_nonneg_right hdl (zpow_nonneg (by norm_num) _)
  · constructor
    · calc (d : ℚ) * 2 ^ ((n.log2 : ℤ) - d.log2 - 1)
          ≤ 2 ^ ((d.log2 : ℤ) + 1) * 2 ^ ((n.log2 : ℤ) - d.log2 - 1) :=
            mul_le_mul_of_nonneg_right hdu.le (zpow_nonneg (by norm_num) _)
        _ = 2 ^ (n.log2 : ℤ) := by
            rw [← zpow_add₀ two]
            congr 1
            ring
        _ ≤ n := hnl
    · rw [Int.sub_add_cancel]
      exact not_le.1 hreached

theorem toRat?_finite (m : ℕ) (e : ℤ) : toRat? (finite false m e) = some ((m : ℚ) * 2 ^ e) := by
  simp only [toRat?, Bool.false_eq_true, if_false, Option.some.injEq]
  by_cases he : 0 ≤ e
  · obtain ⟨j, rfl⟩ := Int.eq_ofNat_of_zero_le he
    rw [if_pos he, Int.toNat_natCast, Nat.shiftLeft_eq, zpow_natCast]
    push_cast
    rfl
  · obtain ⟨j, hj⟩ := Int.eq_ofNat_of_zero_le (show 0 ≤ -e by omega)
    obtain rfl : e = -(j : ℤ) := by omega
    rw [if_neg he, neg_neg, Int.toNat_natCast, Nat.one_shiftLeft, Rat.mkRat_eq_div, zpow_neg,
      zpow_natCast, ← div_eq_mul_inv]
    push_cast
    rfl

def unit (n d : ℕ) : ℤ := max (floorLog2 n d - 52) (-1074)

/-- A carry into the next power of two does not change the value. -/
theorem toRat?_ofQuotient {n d : ℕ} (hn : 0 < n) (he : unit n d ≤ 970) :
    toRat? (ofQuotient false n d) = some ((scaledRound n d (unit n d) : ℚ) * 2 ^ unit n d) := by
  have two : (2 : ℚ) ≠ 0 := by norm_num
  by_cases hcarry : scaledRound n d (unit n d) = 1 <<< 53
  · have hround : ofQuotient false n d = finite false (1 <<< 52) (unit n d + 1) := by
      unfold unit at hcarry he
      simp only [ofQuotient, if_neg hn.ne', hcarry, if_true]
      exact if_neg (by omega)
    rw [hround, toRat?_finite, hcarry, zpow_add_one₀ two, Nat.one_shiftLeft, Nat.one_shiftLeft]
    push_cast
    congr 1
    ring
  · have hround : ofQuotient false n d = finite false (scaledRound n d (unit n d)) (unit n d) := by
      unfold unit at hcarry he
      simp only [ofQuotient, if_neg hn.ne', if_neg hcarry]
      exact if_neg (by omega)
    rw [hround, toRat?_finite]

theorem floorLog2_le {n d : ℕ} (hn : 0 < n) (hd : 0 < d) (h : n ≤ 2 ^ 53) :
    floorLog2 n d ≤ 53 := by
  obtain ⟨hlow, -⟩ := floorLog2_spec hn hd
  have hone : (1 : ℚ) ≤ d := by exact_mod_cast hd
  have hpow : (2 : ℚ) ^ floorLog2 n d ≤ 2 ^ (53 : ℤ) := by
    calc (2 : ℚ) ^ floorLog2 n d ≤ d * 2 ^ floorLog2 n d :=
          le_mul_of_one_le_left (zpow_nonneg (by norm_num) _) hone
      _ ≤ n := hlow
      _ ≤ 2 ^ (53 : ℤ) := by exact_mod_cast h
  exact (zpow_le_zpow_iff_right₀ (by norm_num)).1 hpow

/-- A quotient that is above an integer is above it by more than half a unit. -/
theorem above_half_unit {n d k s : ℕ} (hs : 0 < s) (hn : n ≤ 2 ^ 53) (hk : k * d < n)
    (hunit : d * 2 ^ 52 ≤ n * s) : 2 * (k * d * s) + d < 2 * (n * s) := by
  obtain ⟨r, rfl⟩ := Nat.exists_eq_add_of_lt hk
  have hd : d ≤ 2 * s := by
    have h : d * 2 ^ 52 ≤ 2 * s * 2 ^ 52 := by nlinarith
    exact Nat.le_of_mul_le_mul_right h (by norm_num)
  have hrest : d < 2 * ((r + 1) * s) := by
    rcases Nat.lt_or_eq_of_le hd with hlt | rfl
    · nlinarith
    · -- The dividend is a power of two here, so it is no odd number.
      have hpow : 2 ^ 53 ≤ k * (2 * s) + r + 1 := by
        have h : 2 ^ 53 * s ≤ (k * (2 * s) + r + 1) * s := by nlinarith
        exact Nat.le_of_mul_le_mul_right h hs
      have heven : k * (2 * s) = 2 * (k * s) := by ring
      have hr : 1 ≤ r := by omega
      nlinarith
  nlinarith

theorem scaledRound_neg {n d s : ℕ} {e : ℤ} (he : e ≤ 0) (hs : s = 2 ^ (-e).toNat) :
    scaledRound n d e = roundHalfEven (n * s) d := by
  unfold scaledRound
  by_cases hzero : e = 0
  · subst e
    simp [hs]
  · rw [if_neg (by omega), Nat.shiftLeft_eq, hs]

theorem zpow_mul_grid {s : ℕ} {e : ℤ} (he : e ≤ 0) (hs : s = 2 ^ (-e).toNat) :
    (2 : ℚ) ^ e * s = 1 := by
  have h : (s : ℚ) = 2 ^ (-e) := by
    rw [hs, Nat.cast_pow, Nat.cast_ofNat, ← zpow_natCast, Int.toNat_of_nonneg (by omega)]
  rw [h, ← zpow_add₀ (by norm_num), add_neg_cancel, zpow_zero]

/-- In units that divide one, the rounded quotient stays between the integers that the exact one
lies between. -/
theorem scaledRound_between {n d j s : ℕ} {e : ℤ} (hd : 0 < d) (he : e ≤ 0)
    (hs : s = 2 ^ (-e).toNat) (hup : n ≤ (j + 1) * d)
    (habove : 2 * (j * d * s) + d < 2 * (n * s)) :
    (j : ℚ) < scaledRound n d e * 2 ^ e ∧ (scaledRound n d e : ℚ) * 2 ^ e ≤ j + 1 := by
  have hspos : (0 : ℚ) < s := by
    rw [hs]
    positivity
  have hlow : j * s < scaledRound n d e := by
    rw [scaledRound_neg he hs]
    apply lt_roundHalfEven hd
    calc 2 * (j * s * d) + d = 2 * (j * d * s) + d := by ring
      _ < 2 * (n * s) := habove
  have hhigh : scaledRound n d e ≤ (j + 1) * s := by
    rw [scaledRound_neg he hs]
    apply roundHalfEven_le hd
    calc n * s ≤ (j + 1) * d * s := Nat.mul_le_mul_right s hup
      _ = (j + 1) * s * d := by ring
  have hgrid := zpow_mul_grid he hs
  have hvalue : (scaledRound n d e : ℚ) * 2 ^ e * s = scaledRound n d e := by
    rw [mul_assoc, hgrid, mul_one]
  constructor
  · apply lt_of_mul_lt_mul_right _ hspos.le
    rw [hvalue]
    exact_mod_cast hlow
  · apply le_of_mul_le_mul_right _ hspos
    rw [hvalue]
    exact_mod_cast hhigh

theorem lt_divisor_of_floorLog2 {n d : ℕ} (hn : 0 < n) (hd : 0 < d) (h : floorLog2 n d < 0) :
    n < d := by
  obtain ⟨-, hupper⟩ := floorLog2_spec hn hd
  have hpow : (2 : ℚ) ^ (floorLog2 n d + 1) ≤ 1 := zpow_le_one_of_nonpos₀ (by norm_num) (by omega)
  have hlt : (n : ℚ) < d := by
    calc (n : ℚ) < d * 2 ^ (floorLog2 n d + 1) := hupper
      _ ≤ d * 1 := mul_le_mul_of_nonneg_left hpow (Nat.cast_nonneg d)
      _ = d := mul_one _
  exact_mod_cast hlt

theorem above_unit {n d j s : ℕ} (hn : 0 < n) (hb : n ≤ 2 ^ 53) (hd : 0 < d)
    (hsmall : d < n * 2 ^ 1075) (hlow : j * d < n) (he : unit n d ≤ 0)
    (hs : s = 2 ^ (-unit n d).toNat) : 2 * (j * d * s) + d < 2 * (n * s) := by
  have hspos : 0 < s := by
    rw [hs]
    positivity
  by_cases hnormal : -1074 ≤ floorLog2 n d - 52
  · have hunit : unit n d = floorLog2 n d - 52 := max_eq_left hnormal
    apply above_half_unit hspos hb hlow
    obtain ⟨hfloor, -⟩ := floorLog2_spec hn hd
    have hgrid := zpow_mul_grid he hs
    have hpow : (2 : ℚ) ^ floorLog2 n d * s = 2 ^ 52 := by
      have hsum : floorLog2 n d = unit n d + 52 := by omega
      rw [hsum, zpow_add₀ (by norm_num), mul_right_comm, hgrid, one_mul]
      norm_num
    have hle : (d : ℚ) * 2 ^ 52 ≤ n * s := by
      calc (d : ℚ) * 2 ^ 52 = d * 2 ^ floorLog2 n d * s := by rw [mul_assoc, hpow]
        _ ≤ n * s := mul_le_mul_of_nonneg_right hfloor (Nat.cast_nonneg s)
    exact_mod_cast hle
  · have hunit : unit n d = -1074 := max_eq_right (by omega)
    have hlt := lt_divisor_of_floorLog2 hn hd (by omega)
    have hzero : j = 0 := by
      by_contra hj
      have hmul : 1 * d ≤ j * d := Nat.mul_le_mul_right d (by omega)
      omega
    subst hzero
    have hs' : s = 2 ^ 1074 := by
      rw [hs, hunit, show (-(-1074 : ℤ)).toNat = 1074 from rfl]
    rw [hs', Nat.zero_mul, Nat.zero_mul, Nat.mul_zero, Nat.zero_add]
    calc d < n * 2 ^ 1075 := hsmall
      _ = 2 * (n * 2 ^ 1074) := by
          rw [pow_succ]
          generalize 2 ^ 1074 = p
          ring

theorem ofQuotient_between {n d j : ℕ} (hn : 0 < n) (hb : n ≤ 2 ^ 53) (hd : 0 < d)
    (hsmall : d < n * 2 ^ 1075) (hlow : j * d < n) (hup : n ≤ (j + 1) * d) :
    ∃ x : ℚ, toRat? (ofQuotient false n d) = some x ∧ (j : ℚ) < x ∧ x ≤ j + 1 := by
  have hlog := floorLog2_le hn hd hb
  refine ⟨_, toRat?_ofQuotient hn (by unfold unit; omega), ?_⟩
  by_cases he : unit n d ≤ 0
  · exact scaledRound_between hd he rfl hup (above_unit hn hb hd hsmall hlow he rfl)
  · -- Only the greatest dividend over one has a unit above one.
    have hfull : floorLog2 n d = 53 := by
      unfold unit at he
      omega
    obtain ⟨hfloor, -⟩ := floorLog2_spec hn hd
    rw [hfull] at hfloor
    have hle : d * 2 ^ 53 ≤ n := by exact_mod_cast hfloor
    have hone : d = 1 := by omega
    have hmax : n = 2 ^ 53 := by omega
    subst hone
    subst hmax
    have hj : j = 2 ^ 53 - 1 := by omega
    have hunit : unit (2 ^ 53) 1 = 1 := by
      unfold unit
      omega
    have hround : scaledRound (2 ^ 53) 1 1 = 2 ^ 52 := by decide
    rw [hunit, hround, hj]
    norm_num

/-- The rounded quotient has the ceiling of the exact one. -/
theorem ceil_ofQuotient {n d : ℕ} (hn : 0 < n) (hb : n ≤ 2 ^ 53) (hd : 0 < d)
    (hsmall : d < n * 2 ^ 1075) :
    ∃ x : ℚ, toRat? (ofQuotient false n d) = some x ∧ x.ceil = ⌈(n : ℚ) / d⌉ := by
  have hdq : (0 : ℚ) < d := by exact_mod_cast hd
  have hlow : (n - 1) / d * d < n := by
    have h := Nat.div_mul_le_self (n - 1) d
    omega
  have hup : n ≤ ((n - 1) / d + 1) * d := by
    have h := Nat.lt_mul_div_succ (n - 1) hd
    rw [Nat.mul_comm]
    omega
  obtain ⟨x, hx, hxl, hxu⟩ := ofQuotient_between hn hb hd hsmall hlow hup
  refine ⟨x, hx, ?_⟩
  generalize (n - 1) / d = j at *
  have hceil : x.ceil = (j : ℤ) + 1 := by
    have hle : x.ceil ≤ (j : ℤ) + 1 := Rat.ceil_le_iff.2 (by exact_mod_cast hxu)
    have hlt : (j : ℤ) < x.ceil := Rat.lt_ceil_iff.2 (by exact_mod_cast hxl)
    omega
  rw [hceil, eq_comm, Int.ceil_eq_iff]
  constructor
  · rw [lt_div_iff₀ hdq]
    push_cast
    rw [add_sub_cancel_right]
    exact_mod_cast hlow
  · rw [div_le_iff₀ hdq]
    exact_mod_cast hup

theorem floorLog2_lt {n d : ℕ} (hn : 0 < n) (hd : 0 < d) {k : ℤ} (h : (n : ℚ) < d * 2 ^ k) :
    floorLog2 n d < k := by
  obtain ⟨hlow, -⟩ := floorLog2_spec hn hd
  have hdq : (0 : ℚ) < d := by exact_mod_cast hd
  have hpow : (2 : ℚ) ^ floorLog2 n d < 2 ^ k := lt_of_mul_lt_mul_left (hlow.trans_lt h) hdq.le
  exact (zpow_lt_zpow_iff_right₀ (by norm_num)).1 hpow

/-- What is not beyond half of the least number is rounded to nothing. -/
theorem ofQuotient_vanishes {n d : ℕ} (hn : 0 < n) (hsmall : n * 2 ^ 1075 ≤ d) :
    toRat? (ofQuotient false n d) = some 0 := by
  have hd : 0 < d := (Nat.mul_pos hn (by positivity)).trans_le hsmall
  have hlog : floorLog2 n d < -1022 := by
    apply floorLog2_lt hn hd
    have hscaled : (n : ℚ) * 2 ^ (1075 : ℤ) ≤ d := by exact_mod_cast hsmall
    have hnq : (0 : ℚ) < n := by exact_mod_cast hn
    have hone : (1 : ℚ) < 2 ^ ((1075 : ℤ) + -1022) := by norm_num
    calc (n : ℚ) < n * 2 ^ ((1075 : ℤ) + -1022) := lt_mul_of_one_lt_right hnq hone
      _ = n * 2 ^ (1075 : ℤ) * 2 ^ (-1022 : ℤ) := by rw [zpow_add₀ (by norm_num), mul_assoc]
      _ ≤ d * 2 ^ (-1022 : ℤ) := mul_le_mul_of_nonneg_right hscaled (by positivity)
  have hunit : unit n d = -1074 := max_eq_right (by omega)
  have hround : scaledRound n d (unit n d) = 0 := by
    have hgrid : 2 ^ 1074 = 2 ^ (-unit n d).toNat := by
      rw [hunit, show (-(-1074 : ℤ)).toNat = 1074 from rfl]
    rw [scaledRound_neg (by omega) hgrid]
    apply roundHalfEven_half hd
    calc 2 * (n * 2 ^ 1074) = n * 2 ^ 1075 := by
          rw [pow_succ 2 1074]
          generalize 2 ^ 1074 = p
          ring
      _ ≤ d := hsmall
  rw [toRat?_ofQuotient hn (by omega), hround, Nat.cast_zero, zero_mul]

end Listing.Binary64
