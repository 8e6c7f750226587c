import Mathlib.Algebra.BigOperators.Group.List.Basic
import Mathlib.Algebra.Order.Group.Int
import Listing.Proofs.Number.Exact
import Listing.Sql.Summary

set_option autoImplicit false

/-!
# Summaries of integers

Over integers the sum, the least and the greatest one are what they are called, as long as no sum
on the way leaves 64 bits. An average is a quotient of floating point numbers; if the integers are
small it is the number nearest to the exact quotient.
-/

namespace Listing

namespace Binary64

theorem toRat?_ofInt {n : ℤ} (h : n.natAbs ≤ 2 ^ 53) : toRat? (ofInt n) = some (n : ℚ) := by
  have hvalue : toRat? (ofQuotient false n.natAbs 1) = some (n.natAbs : ℚ) := by
    rcases Nat.eq_zero_or_pos n.natAbs with hzero | hpos
    · rw [hzero]
      exact toRat?_finite 0 (-1074) |>.trans (by norm_num)
    · rcases Nat.lt_or_eq_of_le h with hlt | heq
      · have hexact := toRat?_ofQuotient_exact (n := n.natAbs) (e := 0) hpos Nat.one_pos hlt
          (by decide) (by decide) (by norm_num)
        rw [hexact, zpow_zero, mul_one]
      · have hhalf : ((2 ^ 53 : ℕ) : ℚ) = (1 : ℕ) * (((2 ^ 52 : ℕ) : ℚ) * 2 ^ (1 : ℤ)) := by
          norm_num
        have hexact := toRat?_ofQuotient_exact (e := 1) (by norm_num) Nat.one_pos
          (show 2 ^ 52 < 2 ^ 53 by norm_num) (by decide) (by decide) hhalf
        rw [heq, hexact]
        norm_num
  unfold ofInt
  rw [toRat?_ofQuotient_withSign _ hvalue]
  unfold withSign
  rw [Nat.cast_natAbs]
  split_ifs with hneg
  · rw [abs_of_neg (of_decide_eq_true hneg)]
    push_cast
    rw [neg_neg]
  · rw [abs_of_nonneg (not_lt.1 fun h => hneg (decide_eq_true h))]

theorem isNan_ofQuotient (negative : Bool) (n d : ℕ) : (ofQuotient negative n d).isNan = false := by
  unfold ofQuotient
  dsimp only
  split_ifs <;> rfl

theorem isNan_ofRat (negative : Bool) (x : ℚ) : (ofRat negative x).isNan = false := by
  unfold ofRat
  split_ifs
  · rfl
  · exact isNan_ofQuotient _ _ _

theorem ofRat_intCast (n : ℤ) : ofRat false n = ofInt n := by
  unfold ofRat ofInt
  by_cases hn : n = 0
  · subst hn
    rfl
  · have hne : (n : ℚ) ≠ 0 := by exact_mod_cast hn
    have hsign : decide ((n : ℚ) < 0) = decide (n < 0) := decide_eq_decide.2 Int.cast_lt_zero
    rw [if_neg hne, hsign, Rat.num_intCast, Rat.den_intCast]

theorem ofRat_of_ne {x : ℚ} (hx : x ≠ 0) (negative : Bool) : ofRat negative x = ofRat false x := by
  unfold ofRat
  rw [if_neg hx, if_neg hx]

theorem add_of_toRat? {a b : Binary64} {x y : ℚ} (ha : a.toRat? = some x) (hb : b.toRat? = some y) :
    a.add b = ofRat (a.isNegative && b.isNegative) (x + y) := by
  cases a with
  | finite s m e =>
    cases b with
    | finite t n k =>
      unfold add
      dsimp only
      rw [ha, hb]
    | _ => cases hb
  | _ => cases ha

theorem isNegative_ofInt {n : ℤ} (h : 0 ≤ n) : (ofInt n).isNegative = false := by
  have hsign : decide (n < 0) = false := decide_eq_false (not_lt.2 h)
  unfold ofInt ofQuotient
  rw [hsign]
  dsimp only
  split_ifs <;> rfl

theorem add_ofInt {m n : ℤ} (hm : m.natAbs ≤ 2 ^ 53) (hn : n.natAbs ≤ 2 ^ 53) :
    (ofInt m).add (ofInt n) = ofInt (m + n) := by
  rw [add_of_toRat? (toRat?_ofInt hm) (toRat?_ofInt hn), ← Int.cast_add,
    ← ofRat_intCast (m + n)]
  by_cases hzero : m + n = 0
  · -- A zero that is negative would need two negative summands.
    have hsign : ((ofInt m).isNegative && (ofInt n).isNegative) = false := by
      rcases le_total 0 m with hm' | hm'
      · rw [isNegative_ofInt hm', Bool.false_and]
      · rw [isNegative_ofInt (show 0 ≤ n by omega), Bool.and_false]
    rw [hsign]
  · exact ofRat_of_ne (Int.cast_ne_zero.2 hzero) _

theorem div?_ofInt {m : ℤ} {n : ℕ} (hm : m.natAbs ≤ 2 ^ 53) (hn : n ≤ 2 ^ 53) (hpos : 0 < n) :
    (ofInt m).div? (ofInt n) = some (ofRat false ((m : ℚ) / n)) := by
  have hne : ((n : ℤ) : ℚ) ≠ 0 := by exact_mod_cast hpos.ne'
  unfold div?
  rw [toRat?_ofInt hm, toRat?_ofInt (n := n) (by simpa using hn)]
  dsimp only
  rw [if_neg hne, isNegative_ofInt (Int.natCast_nonneg n), Int.cast_natCast, Bool.bne_false]
  by_cases hzero : m = 0
  · subst hzero
    rfl
  · rw [ofRat_of_ne]
    exact div_ne_zero (by exact_mod_cast hzero) (by exact_mod_cast hpos.ne')

end Binary64

/-- All sums on the way through a row of integers fit into 64 bits. -/
def Word64.HoldsSums (ns : List ℤ) : Prop := ∀ ms, ms <+: ns → holds ms.sum = true

instance (ns : List ℤ) : Decidable (Word64.HoldsSums ns) :=
  decidable_of_iff (∀ ms ∈ ns.inits, Word64.holds ms.sum = true)
    (forall_congr' fun ms => by rw [List.mem_inits])

theorem Word64.holdsSums_nil : HoldsSums [] := by
  intro ms hms
  rw [List.prefix_nil.1 hms]
  rfl

namespace Sql

def Cell.int? : Cell → Option ℤ
  | int n => some n
  | _ => none

def Cell.IsInteger (c : Cell) : Prop := c = .null ∨ ∃ n, c = .int n

instance : DecidablePred Cell.IsInteger
  | .null => isTrue (.inl rfl)
  | .int n => isTrue (.inr ⟨n, rfl⟩)
  | .real _ => isFalse (by rintro (h | ⟨n, h⟩) <;> cases h)
  | .text _ => isFalse (by rintro (h | ⟨n, h⟩) <;> cases h)

theorem Cell.present_eq {cs : List Cell} (h : ∀ c ∈ cs, c.IsInteger) :
    cs.filter (· != .null) = (cs.filterMap Cell.int?).map .int := by
  induction cs with
  | nil => rfl
  | cons c cs ih =>
    have hrest := ih fun c' hc' => h c' (List.mem_cons_of_mem _ hc')
    rcases h c List.mem_cons_self with rfl | ⟨n, rfl⟩
    · rw [List.filter_cons_of_neg (by decide), hrest]
      rfl
    · rw [List.filter_cons_of_pos rfl, hrest]
      rfl

namespace Summary

theorem integerSum?_eq {ns : List ℤ} (h : Word64.HoldsSums ns) : integerSum? ns = some ns.sum := by
  induction ns using List.reverseRecOn with
  | nil => rfl
  | append_singleton ns n ih =>
    have hprefix : integerSum? ns = some ns.sum := ih fun ms hms => h ms (hms.trans ⟨[n], rfl⟩)
    have hsum : (ns ++ [n]).sum = ns.sum + n := by simp
    have hholds : Word64.holds (ns.sum + n) = true := hsum ▸ h _ List.prefix_rfl
    unfold integerSum? at hprefix ⊢
    rw [List.foldl_append, hprefix, hsum]
    exact if_pos hholds

theorem sum?_int {ns : List ℤ} (h : Word64.HoldsSums ns) :
    sum? (ns.map .int) = some (.int ns.sum) := by
  have hints : (ns.map Cell.int).mapM integerOf? = some ns := by
    rw [List.mapM_map]
    exact List.mapM_pure.trans (congrArg some (List.map_id ns))
  unfold sum?
  rw [hints]
  dsimp only
  rw [integerSum?_eq h]
  rfl

theorem least_int {precedes : Cell → Cell → Bool} {pick : ℤ → ℤ → ℤ}
    (hpick : ∀ m n, (if precedes (.int n) (.int m) then Cell.int n else .int m) = .int (pick m n))
    (n : ℤ) (ns : List ℤ) :
    least precedes ((n :: ns).map .int) = .int (ns.foldl pick n) := by
  unfold least
  rw [List.map_cons]
  dsimp only
  induction ns generalizing n with
  | nil => rfl
  | cons m ns ih =>
    rw [List.map_cons, List.foldl_cons, List.foldl_cons, hpick]
    exact ih (pick n m)

theorem isLT_order_int (m n : ℤ) : ((Cell.int m).order (.int n)).isLT = decide (m < n) := by
  change (compare m n).isLT = _
  rw [Bool.eq_iff_iff, decide_eq_true_eq]
  exact Ordering.isLT_iff_eq_lt.trans compare_lt_iff_lt

theorem isGT_order_int (m n : ℤ) : ((Cell.int m).order (.int n)).isGT = decide (n < m) := by
  change (compare m n).isGT = _
  rw [Bool.eq_iff_iff, decide_eq_true_eq]
  exact Ordering.isGT_iff_eq_gt.trans compare_gt_iff_gt

theorem least_min (ns : List ℤ) : least (fun a b => (a.order b).isLT) (ns.map .int) =
    (ns.min?.map Cell.int).getD .null := by
  cases ns with
  | nil => rfl
  | cons n ns =>
    refine least_int (fun m k => ?_) n ns
    rw [isLT_order_int]
    split_ifs with h
    · rw [min_eq_right (of_decide_eq_true h).le]
    · rw [min_eq_left (not_lt.1 fun hlt => h (decide_eq_true hlt))]

theorem least_max (ns : List ℤ) : least (fun a b => (a.order b).isGT) (ns.map .int) =
    (ns.max?.map Cell.int).getD .null := by
  cases ns with
  | nil => rfl
  | cons n ns =>
    refine least_int (fun m k => ?_) n ns
    rw [isGT_order_int]
    split_ifs with h
    · rw [max_eq_right (of_decide_eq_true h).le]
    · rw [max_eq_left (not_lt.1 fun hlt => h (decide_eq_true hlt))]

def ofIntegers (kind : AggregateKind) (count : ℕ) (ns : List ℤ) : Value :=
  match kind with
  | .count => .int count
  | .sum => if ns.isEmpty then .null else .int ns.sum
  | .min => (ns.min?.map Value.int).getD .null
  | .max => (ns.max?.map Value.int).getD .null
  | .avg => if ns.isEmpty then .null else (average (ns.map .int)).plain

theorem plain_getD (n : Option ℤ) : ((n.map Cell.int).getD .null).plain =
    (n.map Value.int).getD .null := by
  cases n <;> rfl

/-- Aggregates of cells that hold integers or nothing. A sum must fit at every step. -/
theorem of?_integers {cs : List Cell} (h : ∀ c ∈ cs, c.IsInteger)
    {kind : AggregateKind} (hsums : kind = .sum → Word64.HoldsSums (cs.filterMap Cell.int?)) :
    ∃ c, of? kind cs = some c ∧
      c.plain = ofIntegers kind cs.length (cs.filterMap Cell.int?) := by
  have hpresent := Cell.present_eq h
  generalize cs.filterMap Cell.int? = ns at hpresent hsums
  have hempty : (ns.map Cell.int).isEmpty = ns.isEmpty := List.isEmpty_map
  cases kind with
  | count => exact ⟨_, rfl, rfl⟩
  | min =>
    refine ⟨_, rfl, ?_⟩
    rw [hpresent, least_min]
    exact plain_getD _
  | max =>
    refine ⟨_, rfl, ?_⟩
    rw [hpresent, least_max]
    exact plain_getD _
  | sum =>
    simp only [of?, ofIntegers, hpresent, hempty, sum?_int (hsums rfl), reduceCtorEq, if_false]
    split_ifs <;> exact ⟨_, rfl, rfl⟩
  | avg =>
    simp only [of?, ofIntegers, hpresent, hempty, if_true]
    split_ifs <;> exact ⟨_, rfl, rfl⟩

theorem realSum_int {ns : List ℤ} (h : (ns.map Int.natAbs).sum ≤ 2 ^ 53) :
    realSum (ns.map .int) = .ofInt ns.sum ∧ ns.sum.natAbs ≤ (ns.map Int.natAbs).sum := by
  induction ns using List.reverseRecOn with
  | nil => exact ⟨rfl, le_rfl⟩
  | append_singleton ns n ih =>
    rw [List.map_append, List.sum_append, List.map_singleton, List.sum_singleton] at h ⊢
    obtain ⟨hsum, hbound⟩ := ih (by omega)
    have hstep : realSum (ns.map .int ++ [.int n]) = (realSum (ns.map .int)).add (.ofInt n) := by
      unfold realSum
      rw [List.foldl_append]
      rfl
    rw [List.map_append, List.map_singleton, hstep, hsum, List.sum_append, List.sum_singleton,
      Binary64.add_ofInt (by omega) (by omega)]
    exact ⟨rfl, by omega⟩

/-- The average of few small integers is the number nearest to the exact one. -/
theorem average_int {ns : List ℤ} (hne : ns ≠ []) (hlength : ns.length ≤ 2 ^ 53)
    (h : (ns.map Int.natAbs).sum ≤ 2 ^ 53) :
    average (ns.map .int) = .real (.ofRat false ((ns.sum : ℚ) / ns.length)) := by
  obtain ⟨hsum, hbound⟩ := realSum_int h
  unfold average ofReal
  rw [hsum, List.length_map, Binary64.div?_ofInt (by omega) hlength (List.length_pos_iff.2 hne),
    Option.map_some, Option.getD_some, Binary64.isNan_ofRat]
  rfl

end Summary
end Sql
end Listing
