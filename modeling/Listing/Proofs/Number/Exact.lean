import Listing.Number.Numeral
import Listing.Proofs.Number.Rounding

set_option autoImplicit false

namespace Listing.Binary64

def IsExact (x : ℚ) : Prop :=
  ∃ (m : ℕ) (e : ℤ), m < 2 ^ 53 ∧ -1074 ≤ e ∧ e ≤ 971 ∧ |x| = m * 2 ^ e

theorem one_le_significand {m : ℕ} {e : ℤ} {x : ℚ} (hx : 0 < x) (hvalue : x = m * 2 ^ e) :
    (1 : ℚ) ≤ m := by
  rcases Nat.eq_zero_or_pos m with rfl | hm
  · rw [Nat.cast_zero, zero_mul] at hvalue
    exact absurd hvalue hx.ne'
  · exact_mod_cast hm

theorem least_le_of_isExact {x : ℚ} (hx : 0 < x) (h : IsExact x) : (2 : ℚ) ^ (-1074 : ℤ) ≤ x := by
  obtain ⟨m, e, -, he, -, hvalue⟩ := h
  rw [abs_of_pos hx] at hvalue
  have hm := one_le_significand hx hvalue
  calc (2 : ℚ) ^ (-1074 : ℤ) ≤ 2 ^ e := zpow_le_zpow_right₀ (by norm_num) he
    _ ≤ m * 2 ^ e := le_mul_of_one_le_left (by positivity) hm
    _ = x := hvalue.symm

theorem exponent_lt {m : ℕ} {e : ℤ} {x : ℚ} (hx : 0 < x) (hbound : x < 2 ^ 53)
    (hvalue : x = m * 2 ^ e) : e < 53 := by
  have hm := one_le_significand hx hvalue
  have hpow : (2 : ℚ) ^ e < 2 ^ (53 : ℤ) := by
    calc (2 : ℚ) ^ e ≤ m * 2 ^ e := le_mul_of_one_le_left (by positivity) hm
      _ = x := hvalue.symm
      _ < 2 ^ (53 : ℤ) := by exact_mod_cast hbound
  exact (zpow_lt_zpow_iff_right₀ (by norm_num)).1 hpow

theorem roundHalfEven_mul {q d : ℕ} (hd : 0 < d) : roundHalfEven (q * d) d = q := by
  have hrest : q * d % d = 0 := Nat.mul_mod_left q d
  have hquotient : q * d / d = q := Nat.mul_div_cancel q hd
  simp only [roundHalfEven, hrest, hquotient]
  rw [if_pos (by omega)]

theorem scaledRound_of_eq {n d q : ℕ} {u : ℤ} (hd : 0 < d) (h : (n : ℚ) = q * (d * 2 ^ u)) :
    scaledRound n d u = q := by
  unfold scaledRound
  by_cases hu : 0 ≤ u
  · obtain ⟨j, rfl⟩ := Int.eq_ofNat_of_zero_le hu
    rw [zpow_natCast] at h
    have hn : n = q * (d * 2 ^ j) := by exact_mod_cast h
    rw [if_pos hu, Int.toNat_natCast, Nat.shiftLeft_eq, hn]
    exact roundHalfEven_mul (by positivity)
  · obtain ⟨j, hj⟩ := Int.eq_ofNat_of_zero_le (show 0 ≤ -u by omega)
    obtain rfl : u = -(j : ℤ) := by omega
    rw [zpow_neg, zpow_natCast, ← mul_assoc, ← div_eq_mul_inv, eq_div_iff (by positivity)] at h
    have hn : n * 2 ^ j = q * d := by exact_mod_cast h
    rw [if_neg hu, neg_neg, Int.toNat_natCast, Nat.shiftLeft_eq, hn]
    exact roundHalfEven_mul hd

/-- The exponent of an exact quotient is no less than the unit. -/
theorem unit_le {n d m : ℕ} {e : ℤ} (hn : 0 < n) (hd : 0 < d) (hm : m < 2 ^ 53) (he : -1074 ≤ e)
    (h : (n : ℚ) = d * (m * 2 ^ e)) : unit n d ≤ e := by
  obtain ⟨hlow, -⟩ := floorLog2_spec hn hd
  have hdq : (0 : ℚ) < d := by exact_mod_cast hd
  have hpow : (2 : ℚ) ^ floorLog2 n d < 2 ^ (53 + e) := by
    have hle : (2 : ℚ) ^ floorLog2 n d ≤ m * 2 ^ e := by
      rw [h] at hlow
      exact le_of_mul_le_mul_left hlow hdq
    calc (2 : ℚ) ^ floorLog2 n d ≤ m * 2 ^ e := hle
      _ < 2 ^ (53 : ℤ) * 2 ^ e := by
          apply mul_lt_mul_of_pos_right _ (by positivity)
          exact_mod_cast hm
      _ = 2 ^ (53 + e) := (zpow_add₀ (by norm_num) _ _).symm
  have hlog : floorLog2 n d < 53 + e := (zpow_lt_zpow_iff_right₀ (by norm_num)).1 hpow
  unfold unit
  omega

theorem toRat?_ofQuotient_exact {n d m : ℕ} {e : ℤ} (hn : 0 < n) (hd : 0 < d) (hm : m < 2 ^ 53)
    (he : -1074 ≤ e) (he' : e ≤ 970) (h : (n : ℚ) = d * (m * 2 ^ e)) :
    toRat? (ofQuotient false n d) = some ((m : ℚ) * 2 ^ e) := by
  have hunit := unit_le hn hd hm he h
  obtain ⟨j, hj⟩ := Int.eq_ofNat_of_zero_le (show 0 ≤ e - unit n d by omega)
  have hsplit : (2 : ℚ) ^ e = 2 ^ j * 2 ^ unit n d := by
    rw [← zpow_natCast, ← zpow_add₀ (by norm_num), ← hj, Int.sub_add_cancel]
  have hround : scaledRound n d (unit n d) = m * 2 ^ j := by
    apply scaledRound_of_eq hd
    rw [h, hsplit]
    push_cast
    ring
  rw [toRat?_ofQuotient hn (by omega), hround, hsplit]
  push_cast
  rw [mul_assoc]

theorem toRat?_finite_true (m : ℕ) (e : ℤ) :
    toRat? (finite true m e) = (toRat? (finite false m e)).map fun x => -x := rfl

theorem toRat?_ofQuotient_true (n d : ℕ) :
    toRat? (ofQuotient true n d) = (toRat? (ofQuotient false n d)).map fun x => -x := by
  unfold ofQuotient
  by_cases hn : n = 0
  · rw [if_pos hn, if_pos hn, toRat?_finite_true]
  · rw [if_neg hn, if_neg hn]
    dsimp only
    split_ifs <;> rfl

def withSign (negative : Bool) (x : ℚ) : ℚ := if negative then -x else x

theorem abs_withSign {negative : Bool} {x : ℚ} (hx : 0 ≤ x) : |withSign negative x| = x := by
  cases negative with
  | false => exact abs_of_nonneg hx
  | true => rw [withSign, if_pos rfl, abs_neg, abs_of_nonneg hx]

theorem toRat?_ofQuotient_withSign {n d : ℕ} {x : ℚ} (negative : Bool)
    (h : toRat? (ofQuotient false n d) = some x) :
    toRat? (ofQuotient negative n d) = some (withSign negative x) := by
  cases negative with
  | false => exact h
  | true =>
    rw [toRat?_ofQuotient_true, h]
    rfl

end Binary64

namespace Numeral

open Binary64 (IsExact withSign)

theorem digits_bounds {n : ℕ} (hn : 0 < n) :
    (10 : ℚ) ^ (((Text.digits n).length : ℤ) - 1) ≤ n ∧
      (n : ℚ) < 10 ^ ((Text.digits n).length : ℤ) := by
  have hpos : 0 < (Text.digits n).length := Nat.length_toDigits_pos
  obtain ⟨k, hk⟩ := Nat.exists_eq_add_one_of_ne_zero hpos.ne'
  rw [hk]
  constructor
  · rw [Nat.cast_succ, Int.add_sub_cancel, zpow_natCast]
    rcases Nat.eq_zero_or_pos k with rfl | hkpos
    · exact_mod_cast hn
    · have hmore : ¬ (Text.digits n).length ≤ k := by omega
      rw [Text.digits, Nat.length_toDigits_le_iff (by norm_num) hkpos, not_lt] at hmore
      exact_mod_cast hmore
  · rw [zpow_natCast]
    have hless := (Nat.length_toDigits_le_iff (b := 10) (by norm_num) (Nat.succ_pos k)).1 hk.le
    exact_mod_cast hless

/-- A numeral below `2 ^ 53` is not cut short as too large. -/
theorem length_le_of_lt {n : ℕ} {e : ℤ} (hn : 0 < n) (hhigh : (n : ℚ) * 10 ^ e < 2 ^ 53) :
    ((Text.digits n).length : ℤ) + e ≤ 400 := by
  by_contra! h
  have hpow : (10 : ℚ) ^ (400 : ℤ) ≤ n * 10 ^ e := by
    calc (10 : ℚ) ^ (400 : ℤ) ≤ 10 ^ (((Text.digits n).length : ℤ) - 1 + e) :=
          zpow_le_zpow_right₀ (by norm_num) (by omega)
      _ = 10 ^ (((Text.digits n).length : ℤ) - 1) * 10 ^ e := zpow_add₀ (by norm_num) _ _
      _ ≤ n * 10 ^ e := mul_le_mul_of_nonneg_right (digits_bounds hn).1 (by positivity)
  have htwo : (2 : ℚ) ^ 53 ≤ 10 ^ (400 : ℤ) := by
    calc (2 : ℚ) ^ 53 ≤ 10 ^ (53 : ℤ) := by norm_num
      _ ≤ 10 ^ (400 : ℤ) := zpow_le_zpow_right₀ (by norm_num) (by norm_num)
  exact absurd hhigh (not_lt.2 (htwo.trans hpow))

/-- A numeral that is no less than the least number above zero is not cut short as too small. -/
theorem le_length_of_le {n : ℕ} {e : ℤ} (hn : 0 < n)
    (hlow : (2 : ℚ) ^ (-1074 : ℤ) ≤ n * 10 ^ e) : -400 ≤ ((Text.digits n).length : ℤ) + e := by
  by_contra! h
  have hpow : (n : ℚ) * 10 ^ e < 10 ^ (-400 : ℤ) := by
    calc (n : ℚ) * 10 ^ e < 10 ^ ((Text.digits n).length : ℤ) * 10 ^ e :=
          mul_lt_mul_of_pos_right (digits_bounds hn).2 (by positivity)
      _ = 10 ^ (((Text.digits n).length : ℤ) + e) := (zpow_add₀ (by norm_num) _ _).symm
      _ ≤ 10 ^ (-400 : ℤ) := zpow_le_zpow_right₀ (by norm_num) (by omega)
  have htwo : (10 : ℚ) ^ (-400 : ℤ) ≤ 2 ^ (-1074 : ℤ) := by
    calc (10 : ℚ) ^ (-400 : ℤ) ≤ 10 ^ (-358 : ℤ) :=
          zpow_le_zpow_right₀ (by norm_num) (by norm_num)
      _ ≤ 8 ^ (-358 : ℤ) := by
          rw [zpow_neg, zpow_neg]
          apply inv_anti₀ (by positivity)
          exact zpow_le_zpow_left₀ (by norm_num) (by norm_num) (by norm_num)
      _ = 2 ^ (-1074 : ℤ) := by
          rw [show (8 : ℚ) = 2 ^ (3 : ℤ) by norm_num, ← zpow_mul]
          norm_num
  exact absurd hlow (not_le.2 (hpow.trans_le htwo))

theorem ofScientific_eq {n : ℕ} {e : ℤ} (negative : Bool) (hn : 0 < n)
    (hlow : (2 : ℚ) ^ (-1074 : ℤ) ≤ n * 10 ^ e) (hhigh : (n : ℚ) * 10 ^ e < 2 ^ 53) :
    ofScientific negative n e =
      if 0 ≤ e then .ofQuotient negative (n * 10 ^ e.toNat) 1
      else .ofQuotient negative n (10 ^ (-e).toNat) := by
  have hlarge := not_lt.2 (length_le_of_lt hn hhigh)
  have hsmall := not_lt.2 (le_length_of_le hn hlow)
  unfold ofScientific
  rw [if_neg hn.ne', if_neg hlarge, if_neg hsmall]
  rfl

/-- A numeral that is a number of the format below `2 ^ 53` is read as this number. -/
theorem toRat?_ofScientific {n : ℕ} {e : ℤ} (negative : Bool)
    (hexact : IsExact ((n : ℚ) * 10 ^ e)) (hbound : (n : ℚ) * 10 ^ e < 2 ^ 53) :
    (ofScientific negative n e).toRat? = some (withSign negative ((n : ℚ) * 10 ^ e)) := by
  rcases Nat.eq_zero_or_pos n with rfl | hn
  · have hzero : ofScientific negative 0 e = .finite negative 0 (-1074) := by
      unfold ofScientific
      exact if_pos rfl
    rw [hzero, Nat.cast_zero, zero_mul]
    cases negative with
    | false =>
      rw [Binary64.toRat?_finite, Nat.cast_zero, zero_mul]
      rfl
    | true =>
      rw [Binary64.toRat?_finite_true, Binary64.toRat?_finite, Nat.cast_zero, zero_mul]
      rfl
  · have hpos : (0 : ℚ) < n * 10 ^ e := by positivity
    rw [ofScientific_eq negative hn (Binary64.least_le_of_isExact hpos hexact) hbound]
    obtain ⟨m, k, hm, hk, -, hvalue⟩ := hexact
    rw [abs_of_pos hpos] at hvalue
    have hk' := Binary64.exponent_lt hpos hbound hvalue
    rw [hvalue]
    by_cases he : 0 ≤ e
    · obtain ⟨j, rfl⟩ := Int.eq_ofNat_of_zero_le he
      rw [if_pos he, Int.toNat_natCast]
      apply Binary64.toRat?_ofQuotient_withSign
      apply Binary64.toRat?_ofQuotient_exact (by positivity) Nat.one_pos hm hk (by omega)
      rw [← hvalue, zpow_natCast]
      push_cast
      rw [one_mul]
    · obtain ⟨j, hj⟩ := Int.eq_ofNat_of_zero_le (show 0 ≤ -e by omega)
      obtain rfl : e = -(j : ℤ) := by omega
      rw [if_neg he, neg_neg, Int.toNat_natCast]
      apply Binary64.toRat?_ofQuotient_withSign
      apply Binary64.toRat?_ofQuotient_exact hn (by positivity) hm hk (by omega)
      rw [← hvalue, zpow_neg, zpow_natCast]
      push_cast
      field_simp

end Numeral
end Listing
