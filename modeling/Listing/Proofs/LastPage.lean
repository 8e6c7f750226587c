import Listing.Paging
import Listing.Proofs.Number.Rounding

set_option autoImplicit false

namespace Listing.Paging

theorem ceiling_ok {x : Binary64} {r : ℚ} (h : x.toRat? = some r) : ceiling x = .ok r.ceil := by
  unfold ceiling
  rw [h]

theorem quotient_ok {total perPage : ℤ} {x : Binary64} {r : ℚ} (hp : perPage ≠ 0)
    (hx : Binary64.ofQuotient (decide (total < 0) != decide (perPage < 0)) total.natAbs
      perPage.natAbs = x) (hr : x.toRat? = some r) : quotient total perPage = .ok x := by
  unfold quotient
  rw [if_neg hp, hx]
  cases x with
  | finite s m e => rfl
  | infinite s => simp [Binary64.toRat?] at hr
  | nan => rfl

theorem lastPage_zero {perPage : ℤ} (hp : 1 ≤ perPage) : lastPage 0 perPage = .ok 0 := by
  have hsign : (decide ((0 : ℤ) < 0) != decide (perPage < 0)) = false := by
    rw [decide_eq_false (by omega), decide_eq_false (by omega)]
    rfl
  have hzero : (Binary64.finite false 0 (-1074)).toRat? = some 0 := by
    rw [Binary64.toRat?_finite, Nat.cast_zero, zero_mul]
  have hquotient : quotient 0 perPage = .ok (.finite false 0 (-1074)) :=
    quotient_ok (by omega) (by rw [hsign]; exact if_pos rfl) hzero
  rw [lastPage, hquotient]
  exact (ceiling_ok hzero).trans rfl

theorem lastPage_of_quotient {n d : ℕ} (hn : 0 < n) (hd : 0 < d) {r : ℚ}
    (hr : (Binary64.ofQuotient false n d).toRat? = some r) :
    lastPage (n : ℤ) (d : ℤ) = .ok r.ceil := by
  have hsign : (decide ((n : ℤ) < 0) != decide ((d : ℤ) < 0)) = false := by
    rw [decide_eq_false (by omega), decide_eq_false (by omega)]
    rfl
  have hquotient : quotient (n : ℤ) d = .ok (Binary64.ofQuotient false n d) :=
    quotient_ok (by omega) (by rw [hsign, Int.natAbs_natCast, Int.natAbs_natCast]) hr
  rw [lastPage, hquotient]
  exact ceiling_ok hr

/-- The exact number of pages comes out as long as the quotient does not vanish. -/
theorem lastPage_ceil {total perPage : ℤ} (ht : 0 < total) (hb : total ≤ 2 ^ 53)
    (hp : 1 ≤ perPage) (hsmall : perPage < total * 2 ^ 1075) :
    lastPage total perPage = .ok ⌈(total : ℚ) / perPage⌉ := by
  obtain ⟨n, rfl⟩ := Int.eq_ofNat_of_zero_le ht.le
  obtain ⟨d, rfl⟩ := Int.eq_ofNat_of_zero_le (show 0 ≤ perPage by omega)
  have hn : 0 < n := by omega
  have hd : 0 < d := by omega
  obtain ⟨x, hx, hceil⟩ := Binary64.ceil_ofQuotient hn (by exact_mod_cast hb) hd
    (by exact_mod_cast hsmall)
  rw [lastPage_of_quotient hn hd hx, hceil]
  rfl

/-- With page sizes below 2 ^ 1075 no quotient vanishes. -/
theorem lastPage_eq {total perPage : ℤ} (ht : 0 ≤ total) (hb : total ≤ 2 ^ 53)
    (hp : 1 ≤ perPage) (hsmall : perPage < 2 ^ 1075) :
    lastPage total perPage = .ok ⌈(total : ℚ) / perPage⌉ := by
  rcases ht.eq_or_lt with rfl | ht
  · rw [lastPage_zero hp, Int.cast_zero, zero_div, Int.ceil_zero]
  · refine lastPage_ceil ht hb hp (hsmall.trans_le ?_)
    generalize (2 : ℤ) ^ 1075 = p at *
    nlinarith

/-- Beyond 2 ^ 1075 items on a page for each item there is, no page is left. -/
theorem lastPage_vanishes {total perPage : ℤ} (ht : 0 < total)
    (hlarge : total * 2 ^ 1075 ≤ perPage) : lastPage total perPage = .ok 0 := by
  have hp : 0 < perPage := (mul_pos ht (by positivity)).trans_le hlarge
  obtain ⟨n, rfl⟩ := Int.eq_ofNat_of_zero_le ht.le
  obtain ⟨d, rfl⟩ := Int.eq_ofNat_of_zero_le hp.le
  have hvalue :=
    Binary64.ofQuotient_vanishes (n := n) (d := d) (by omega) (by exact_mod_cast hlarge)
  exact (lastPage_of_quotient (by omega) (by omega) hvalue).trans rfl

def Suffices (total perPage : ℤ) : Set ℤ := {n | total ≤ n * perPage}

theorem isLeast_ceil {total perPage : ℤ} (hp : 1 ≤ perPage) :
    IsLeast (Suffices total perPage) ⌈(total : ℚ) / perPage⌉ := by
  have hpq : (0 : ℚ) < perPage := by exact_mod_cast hp
  have hmem (n : ℤ) : n ∈ Suffices total perPage ↔ ⌈(total : ℚ) / perPage⌉ ≤ n := by
    rw [Int.ceil_le, div_le_iff₀ hpq]
    change total ≤ n * perPage ↔ _
    exact_mod_cast Iff.rfl
  exact ⟨(hmem _).2 le_rfl, fun n hn => (hmem n).1 hn⟩

/-- Up to 2 ^ 53 items the last page is the least that suffices, unless there are items and the page
size is at least 2 ^ 1075 times their number: then it is zero, which does not. -/
theorem last_page_suffices_iff {total perPage : ℤ} (ht : 0 ≤ total) (hb : total ≤ 2 ^ 53)
    (hp : 1 ≤ perPage) :
    ∃ n, lastPage total perPage = .ok n ∧
      (IsLeast (Suffices total perPage) n ↔ total = 0 ∨ perPage < total * 2 ^ 1075) ∧
      (¬ IsLeast (Suffices total perPage) n → n = 0) := by
  -- The least number that suffices is the exact quotient, rounded up.
  have hexact (hcase : total = 0 ∨ perPage < total * 2 ^ 1075) {n : ℤ}
      (hn : n = ⌈(total : ℚ) / perPage⌉) :
      (IsLeast (Suffices total perPage) n ↔ total = 0 ∨ perPage < total * 2 ^ 1075) ∧
        (¬ IsLeast (Suffices total perPage) n → n = 0) := by
    subst hn
    exact ⟨iff_of_true (isLeast_ceil hp) hcase, fun hnot => absurd (isLeast_ceil hp) hnot⟩
  rcases ht.eq_or_lt with rfl | ht
  · refine ⟨0, lastPage_zero hp, hexact (.inl rfl) ?_⟩
    rw [Int.cast_zero, zero_div, Int.ceil_zero]
  · rcases lt_or_ge perPage (total * 2 ^ 1075) with hsmall | hlarge
    · exact ⟨_, lastPage_ceil ht hb hp hsmall, hexact (.inr hsmall) rfl⟩
    · refine ⟨0, lastPage_vanishes ht hlarge, iff_of_false ?_ ?_, fun _ => rfl⟩
      · intro hleast
        have hroom : total ≤ 0 * perPage := hleast.1
        omega
      · rintro (hzero | hsmall)
        · exact ht.ne' hzero
        · exact hlarge.not_gt hsmall

/-- A page size at which a full count of items still has its page, and the least one at which one
item has none. -/
theorem last_page_suffices_iff_edges :
    (∃ n, lastPage (2 ^ 53) (2 ^ 1127) = .ok n ∧ IsLeast (Suffices (2 ^ 53) (2 ^ 1127)) n) ∧
    ∃ n, lastPage 1 (2 ^ 1075) = .ok n ∧ ¬ IsLeast (Suffices 1 (2 ^ 1075)) n ∧ n = 0 := by
  have hone (k : ℕ) : (1 : ℤ) ≤ 2 ^ k := one_le_pow₀ (by norm_num)
  have hsmall : (2 : ℤ) ^ 1127 < 2 ^ 53 * 2 ^ 1075 := by
    rw [← pow_add]
    exact pow_lt_pow_right₀ (by norm_num) (by norm_num)
  obtain ⟨n, hn, hleast, -⟩ :=
    last_page_suffices_iff (zero_le_one.trans (hone 53)) le_rfl (hone 1127)
  obtain ⟨n', hn', hleast', hzero⟩ :=
    last_page_suffices_iff (zero_le_one : (0 : ℤ) ≤ 1) (hone 53) (hone 1075)
  have hnone : ¬ IsLeast (Suffices 1 (2 ^ 1075)) n' := by
    rw [hleast', one_mul, not_or]
    exact ⟨one_ne_zero, lt_irrefl _⟩
  exact ⟨⟨n, hn, hleast.2 (.inr hsmall)⟩, n', hn', hnone, hzero hnone⟩

end Listing.Paging
