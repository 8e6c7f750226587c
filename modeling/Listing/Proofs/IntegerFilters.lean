import Listing.Filter.Strategy
import Listing.Proofs.Coercions
import Listing.Proofs.Number.Decimals
import Listing.Proofs.Outcomes
import Listing.Sql.Test

set_option autoImplicit false

namespace Listing

/-- The integral part of a rational, toward zero. -/
def integralPart (x : ℚ) : ℤ := if x < 0 then x.ceil else x.floor

theorem floor_lt_of_ne {x : ℚ} {n : ℤ} (hn : n ≠ x.floor) : (n : ℚ) < x ↔ n < x.floor := by
  constructor
  · intro h
    have hle : n ≤ x.floor := Rat.le_floor_iff.2 h.le
    omega
  · intro h
    have hle : ((n + 1 : ℤ) : ℚ) ≤ x := Rat.le_floor_iff.1 (by omega)
    push_cast at hle
    linarith

theorem lt_ceil_of_ne {x : ℚ} {n : ℤ} (hn : n ≠ x.ceil) : x < n ↔ x.ceil < n := by
  constructor
  · intro h
    have hle : x.ceil ≤ n := Rat.ceil_le_iff.2 h.le
    omega
  · intro h
    have hle : x ≤ ((n - 1 : ℤ) : ℚ) := Rat.ceil_le_iff.1 (by omega)
    push_cast at hle
    linarith

/-- Every other integer is on one side of a rational and of its integral part. -/
theorem lt_integralPart {x : ℚ} {n : ℤ} (hn : n ≠ integralPart x) :
    (n : ℚ) < x ↔ n < integralPart x := by
  unfold integralPart at hn ⊢
  split_ifs at hn ⊢
  · exact Rat.lt_ceil_iff.symm
  · exact floor_lt_of_ne hn

theorem integralPart_lt {x : ℚ} {n : ℤ} (hn : n ≠ integralPart x) :
    x < n ↔ integralPart x < n := by
  unfold integralPart at hn ⊢
  split_ifs at hn ⊢
  · exact lt_ceil_of_ne hn
  · exact Rat.floor_lt_iff.symm

theorem integralPart_intCast (n : ℤ) : integralPart n = n := by
  by_contra hne
  have hlt := lt_integralPart (x := n) (n := n) (Ne.symm hne)
  have hgt := integralPart_lt (x := n) (n := n) (Ne.symm hne)
  rw [eq_false (lt_irrefl (n : ℚ)), false_iff] at hlt hgt
  omega

theorem abs_integralPart_le (x : ℚ) {k : ℤ} (h : |x| < k) : |integralPart x| < k := by
  obtain ⟨hlow, hhigh⟩ := abs_lt.1 h
  rw [abs_lt]
  unfold integralPart
  split_ifs with hx
  · constructor
    · exact Rat.lt_ceil_iff.2 (by exact_mod_cast hlow)
    · have hle : x.ceil ≤ 0 := Rat.ceil_le_iff.2 (by exact_mod_cast hx.le)
      have hpos : (0 : ℚ) < k := (abs_nonneg x).trans_lt h
      have hpos' : 0 < k := by exact_mod_cast hpos
      omega
  · constructor
    · have hle : 0 ≤ x.floor := Rat.le_floor_iff.2 (by exact_mod_cast not_lt.1 hx)
      have hpos : (0 : ℚ) < k := (abs_nonneg x).trans_lt h
      have hpos' : 0 < k := by exact_mod_cast hpos
      omega
    · exact Rat.floor_lt_iff.2 hhigh

namespace Coercion

open Binary64 Numeral

theorem toInteger_denotes {s : String} {x : ℚ} (h : Denotes s.toList x) (hexact : IsExact x)
    (hbound : |x| < 2 ^ 53) : toInteger s = .ok (.int (integralPart x)) := by
  unfold toInteger
  cases hinteger : readInteger? s.toList with
  | some n =>
    obtain rfl := readInteger?_denotes h hinteger
    rw [integralPart_intCast]
  | none =>
    obtain ⟨negative, n, e, hread, hx⟩ := readBinary64?_denotes h
    have hpos : (0 : ℚ) ≤ n * 10 ^ e := by positivity
    have habs : |x| = n * 10 ^ e := by rw [hx, abs_withSign hpos]
    have hmagnitude : IsExact ((n : ℚ) * 10 ^ e) := by
      unfold IsExact at hexact ⊢
      rwa [abs_of_nonneg hpos, ← habs]
    have hvalue := toRat?_ofScientific negative hmagnitude (by rwa [← habs])
    rw [← hx] at hvalue
    have hcut : (ofScientific negative n e).truncate? = some (integralPart x) := by
      rw [truncate?, hvalue]
      rfl
    simp only [hread]
    cases hform : ofScientific negative n e with
    | finite s m k =>
      rw [hform] at hcut
      simp only [hcut]
      rfl
    | infinite s =>
      rw [hform] at hvalue
      cases hvalue
    | nan =>
      rw [hform] at hvalue
      cases hvalue

end Coercion

namespace Sql

def Comparison.relates : Comparison → ℚ → ℚ → Prop
  | eq, x, y => x = y
  | ne, x, y => x ≠ y
  | gt, x, y => y < x
  | ge, x, y => y ≤ x
  | lt, x, y => x < y
  | le, x, y => x ≤ y

theorem Comparison.holds_compare (op : Comparison) (m n : ℤ) :
    op.holds (compare m n) = true ↔ op.relates m n := by
  rcases lt_trichotomy m n with h | h | h
  · have hcompare : compare m n = .lt := compare_lt_iff_lt.2 h
    have hq : (m : ℚ) < n := by exact_mod_cast h
    cases op <;> simp [holds, relates, hcompare, hq, hq.ne, hq.le, not_le.2 hq, not_lt.2 hq.le]
  · subst h
    cases op <;> simp [holds, relates]
  · have hcompare : compare m n = .gt := compare_gt_iff_gt.2 h
    have hq : (n : ℚ) < m := by exact_mod_cast h
    cases op <;> simp [holds, relates, hcompare, hq, hq.ne', hq.le, not_le.2 hq, not_lt.2 hq.le]

theorem Comparison.relates_integralPart (op : Comparison) {x : ℚ} {n : ℤ}
    (h : (integralPart x : ℚ) = x ∨ n ≠ integralPart x) :
    op.relates n (integralPart x) ↔ op.relates n x := by
  rcases h with hwhole | hne
  · rw [hwhole]
  · have hlt : (n : ℚ) < x ↔ (n : ℚ) < (integralPart x : ℚ) := by
      rw [lt_integralPart hne]
      exact_mod_cast Iff.rfl
    have hgt : x < n ↔ (integralPart x : ℚ) < n := by
      rw [integralPart_lt hne]
      exact_mod_cast Iff.rfl
    cases op with
    | gt => exact hgt.symm
    | lt => exact hlt.symm
    | ge => simp only [relates, ← not_lt, hlt]
    | le => simp only [relates, ← not_lt, hgt]
    | eq => simp only [relates, eq_iff_le_not_lt, ← not_lt, hlt, hgt]
    | ne => simp only [relates, ne_eq, eq_iff_le_not_lt, ← not_lt, hlt, hgt]

theorem Test.eval_integer {op : Comparison} {target : Target} (htarget : target.affinity = .number)
    {cell : Target → Cell} {n m : ℤ} (hcell : cell target = .int n) :
    (compare op target (.int m)).eval cell = some true ↔ op.relates n m := by
  have hcompare : Cell.compare? .number .none (.int n) (.int m) = some (Ord.compare n m) := by
    unfold Cell.compare?
    rw [if_neg (by simp)]
    rfl
  have heval : (compare op target (.int m)).eval cell = some (op.holds (Ord.compare n m)) := by
    simp only [eval, htarget, hcell, hcompare, Option.map_some]
  rw [heval, Option.some.injEq]
  exact op.holds_compare n m

end Sql

def FilterOperator.comparison? : FilterOperator → Option Sql.Comparison
  | eq => some .eq
  | ne => some .ne
  | gt => some .gt
  | gte => some .ge
  | lt => some .lt
  | lte => some .le
  | like => none
  | within => none

open Sql Numeral Binary64

variable {operator : FilterOperator} {op : Comparison} {c : Column} {s : String} {x : ℚ}

theorem condition_integer (hop : operator.comparison? = some op) (hc : c.type.kind? = some .int)
    (hx : Denotes s.toList x) (hexact : IsExact x) (hbound : |x| < 2 ^ 53) :
    Registry.builtin.condition c (.text operator.word) (.text s) none =
      .ok (some (.compare op c (.int (integralPart x)))) := by
  have hoperand : Strategy.operand c (Coercion.kindFor c.type none) (.text s) =
      .ok (.int (integralPart x)) := by
    have hkind : Coercion.kindFor c.type (Coercion.kindFor c.type none) = some .int := by
      simp only [Coercion.kindFor, Option.orElse, hc]
    unfold Strategy.operand
    rw [hkind]
    exact Coercion.toInteger_denotes hx hexact hbound
  have hcomparing : Strategy.comparing op c (.text s) (Coercion.kindFor c.type none) =
      .ok (some (.compare op c (.int (integralPart x)))) := by
    have hcompare : Condition.ofComparison op c (.int (integralPart x)) =
        .ok (.compare op c (.int (integralPart x))) :=
      Coercion.isComparable_of_kind (by simp [Value.kind]) (by simp [Value.kind]) op c
    unfold Strategy.comparing
    rw [hoperand, Outcome.ok_bind, hcompare]
    rfl
  have hvalue : FilterOperator.ofValue? (.text operator.word) = some operator :=
    FilterOperator.ofWord?_word operator
  unfold Registry.condition
  rw [hvalue, Option.bind_some, Registry.strategy?_builtin]
  cases operator with
  | like => cases hop
  | within => cases hop
  | _ =>
    cases hop
    exact hcomparing

/-- A filter of an integer column by a decimal holds of a stored integer in the relation of the
operator to the integral part of the decimal. -/
theorem integer_filter_holds (hop : operator.comparison? = some op) (hc : c.type.kind? = some .int)
    (hx : Denotes s.toList x) (hexact : IsExact x) (hbound : |x| < 2 ^ 53) :
    ∃ condition, Registry.builtin.condition c (.text operator.word) (.text s) none =
        .ok (some condition) ∧
      ∀ table name : String, ∃ test,
        (Bind.converted condition >>= Test.ofCondition (.field table name c.type)) = .ok test ∧
        ∀ (cell : Target → Cell) (n : ℤ), cell (.field table name c.type) = .int n →
          (test.eval cell = some true ↔ op.relates n (integralPart x)) ∧
          ((integralPart x : ℚ) = x ∨ n ≠ integralPart x →
            (test.eval cell = some true ↔ op.relates n x)) := by
  refine ⟨_, condition_integer hop hc hx hexact hbound, fun table name => ?_⟩
  have hfits : Word64.holds (integralPart x) = true := by
    have habs : |integralPart x| < 2 ^ 53 := abs_integralPart_le x (by exact_mod_cast hbound)
    obtain ⟨hlow, hhigh⟩ := abs_lt.1 habs
    rw [Word64.holds_iff]
    unfold Word64.least Word64.greatest
    omega
  have hconvert (v : ℤ) : Bind.convert (c.type.bindType (.int v)) (.int v) = .ok (.int v) := by
    cases htype : c.type <;> rw [htype] at hc <;> cases hc <;> rfl
  have haffinity : (Target.field table name c.type).affinity = .number := by
    cases htype : c.type <;> rw [htype] at hc <;> cases hc <;> rfl
  refine ⟨.compare op (.field table name c.type) (.int (integralPart x)), ?_, ?_⟩
  · simp only [Bind.converted, hconvert, Outcome.ok_bind, Test.ofCondition, Bind.cell, hfits,
      if_true]
    rfl
  · intro cell n hcell
    have heval : (Test.compare op (.field table name c.type) (.int (integralPart x))).eval cell =
        some true ↔ op.relates n (integralPart x) := Test.eval_integer haffinity hcell
    exact ⟨heval, fun h => heval.trans (op.relates_integralPart h)⟩

theorem denotes_minus_twenty_five : Denotes " -2.5e1".toList (-25) := by
  have hfixed : Fixed ['2', '.', '5'] [2, 5] 1 :=
    .pointed (.run (.last (by decide))) (.run (.last (by decide))) (by decide)
  have hdigit : Run Text.digitValue? ['1'] [1] := .last (by decide)
  have hexponent : Exponent ['e', '1'] 1 := .marked (.inl rfl) .none hdigit
  have hblank : ∀ c ∈ [' '], Text.isNumeralBlank c = true := List.forall_mem_singleton.2 (by decide)
  have h := @Denotes.numeral [' '] ['-'] ['2', '.', '5'] ['e', '1'] [] true [2, 5] 1 1 hblank
    .minus hfixed hexponent nofun
  have hvalue : withSign true ((Text.valueOfDigits [2, 5] : ℚ) * 10 ^ ((1 : ℤ) - (1 : ℕ))) =
      -25 := by
    norm_num [withSign, Text.valueOfDigits]
  rw [hvalue] at h
  exact h

theorem integer_filter_holds_minus_twenty_five :
    Denotes " -2.5e1".toList (-25) ∧ IsExact (-25) ∧ |(-25 : ℚ)| < 2 ^ 53 ∧
      ∃ condition, Registry.builtin.condition (.bare "age" .integer) (.text "lte")
          (.text " -2.5e1") none = .ok (some condition) ∧
        ∀ table name : String, ∃ test,
          (Bind.converted condition >>= Test.ofCondition (.field table name .integer)) = .ok test ∧
          ∀ (cell : Target → Cell) (n : ℤ), cell (.field table name .integer) = .int n →
            (test.eval cell = some true ↔ (n : ℚ) ≤ integralPart (-25)) ∧
            ((integralPart (-25) : ℚ) = -25 ∨ n ≠ integralPart (-25) →
              (test.eval cell = some true ↔ (n : ℚ) ≤ -25)) := by
  have hexact : IsExact (-25) := ⟨25, 0, by norm_num, by norm_num, by norm_num, by norm_num⟩
  have hbound : |(-25 : ℚ)| < 2 ^ 53 := by norm_num
  exact ⟨denotes_minus_twenty_five, hexact, hbound,
    integer_filter_holds (show FilterOperator.lte.comparison? = some .le from rfl)
      (show (Column.bare "age" .integer).type.kind? = some .int from rfl)
      denotes_minus_twenty_five hexact hbound⟩

theorem denotes_twenty_eight_and_a_half : Denotes "28.5".toList (57 / 2) := by
  have hfixed : Fixed ['2', '8', '.', '5'] [2, 8, 5] 1 :=
    .pointed (.run (.digit (by decide) (.last (by decide)))) (.run (.last (by decide))) (by decide)
  have h := @Denotes.numeral [] [] ['2', '8', '.', '5'] [] [] false [2, 8, 5] 1 0 nofun .none
    hfixed .none nofun
  have hvalue : withSign false ((Text.valueOfDigits [2, 8, 5] : ℚ) * 10 ^ ((0 : ℤ) - (1 : ℕ))) =
      57 / 2 := by
    norm_num [withSign, Text.valueOfDigits]
  rw [hvalue] at h
  exact h

/-- A decimal that is no integer is taken for its integral part, which lies below it. -/
theorem integer_filter_cuts :
    Denotes "28.5".toList (57 / 2) ∧ IsExact (57 / 2) ∧ |(57 / 2 : ℚ)| < 2 ^ 53 ∧
      ¬ Comparison.ge.relates (28 : ℤ) (57 / 2) ∧
      ∃ condition test, Registry.builtin.condition (.bare "age" .integer) (.text "gte")
          (.text "28.5") none = .ok (some condition) ∧
        (Bind.converted condition >>= Test.ofCondition (.field "heroes" "age" .integer)) =
          .ok test ∧
        test.eval (fun _ => .int 28) = some true := by
  have hexact : IsExact (57 / 2) := ⟨57, -1, by norm_num, by norm_num, by norm_num, by norm_num⟩
  have hbound : |(57 / 2 : ℚ)| < 2 ^ 53 := by norm_num
  have hbelow : ¬ Comparison.ge.relates (28 : ℤ) (57 / 2) := by norm_num [Comparison.relates]
  have hpart : integralPart (57 / 2) = 28 := by decide +kernel
  have hcondition := condition_integer (show FilterOperator.gte.comparison? = some .ge from rfl)
    (show (Column.bare "age" .integer).type.kind? = some .int from rfl)
    denotes_twenty_eight_and_a_half hexact hbound
  rw [hpart] at hcondition
  exact ⟨denotes_twenty_eight_and_a_half, hexact, hbound, hbelow, _, _, hcondition, rfl, by decide⟩

end Listing
