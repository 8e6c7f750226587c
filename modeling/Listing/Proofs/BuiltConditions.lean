import Listing.Proofs.BuildFaults

set_option autoImplicit false

namespace Listing

open Coercion Outcome Sql Text

namespace Coercion

def IsTruthWord (s : String) : Prop :=
  ∃ word ∈ trueWords ++ falseWords, lowerAscii (trim s.toList) = word.toList

theorem isTruthWord_iff (s : String) : IsTruthWord s ↔ ∃ b, readBool? s = some b := by
  have hword (word : String) : lowerAscii (trim s.toList) = word.toList ↔
      String.ofList (lowerAscii (trim s.toList)) = word := by
    constructor
    · intro h
      rw [h, String.ofList_toList]
    · rintro rfl
      rw [String.toList_ofList]
  unfold IsTruthWord readBool?
  simp only [hword, exists_eq_right', List.mem_append]
  split_ifs with htrue hfalse
  · exact iff_of_true (.inl (List.contains_iff_mem.1 htrue)) ⟨_, rfl⟩
  · exact iff_of_true (.inr (List.contains_iff_mem.1 hfalse)) ⟨_, rfl⟩
  · refine iff_of_false ?_ nofun
    rintro (h | h)
    · exact htrue (List.contains_iff_mem.2 h)
    · exact hfalse (List.contains_iff_mem.2 h)

theorem kindFor_kindFor (t : ColumnType) (asked : Option Kind) :
    kindFor t (kindFor t asked) = kindFor t asked := by
  cases asked with
  | none =>
    unfold kindFor
    cases t.kind? <;> rfl
  | some k => rfl

/-- A text becomes a truth value only where truth values are asked for, and by its word. -/
theorem ofText_bool {k : Kind} {s : String} {b : Bool} (h : ofText k s = .ok (.bool b)) :
    k = .bool ∧ readBool? s = some b := by
  rcases ofText_kind h with htext | hkind
  · cases htext
  · subst hkind
    refine ⟨rfl, ?_⟩
    have hvalue := Except.ok.inj h
    cases hread : readBool? s with
    | none =>
      rw [hread] at hvalue
      cases hvalue
    | some b' =>
      rw [hread] at hvalue
      cases hvalue
      rfl

theorem ofText_ne_null {k : Kind} {s : String} {v : Value} (h : ofText k s = .ok v) :
    v.kind ≠ .null := by
  intro hnull
  cases v with
  | null =>
    rcases ofText_kind h with htext | hkind
    · cases htext
    · subst hkind
      cases h
  | _ => cases hnull

end Coercion

namespace Strategy

variable {c : Column} {asked : Option Kind} {s : String} {v : Value}

theorem operand_text (c : Column) (asked : Option Kind) (s : String) :
    operand c asked (.text s) =
      ((kindFor c.type asked).map fun k => ofText k s).getD (.ok (.text s)) := by
  unfold operand
  cases kindFor c.type asked <;> rfl

theorem operand_ne_null (h : operand c asked (.text s) = .ok v) : v.kind ≠ .null := by
  rw [operand_text] at h
  cases hk : kindFor c.type asked with
  | none =>
    rw [hk] at h
    cases h
    exact nofun
  | some k =>
    rw [hk] at h
    exact ofText_ne_null h

theorem operand_bool {b : Bool} (h : operand c asked (.text s) = .ok (.bool b)) :
    kindFor c.type asked = some .bool ∧ IsTruthWord s := by
  rw [operand_text] at h
  cases hk : kindFor c.type asked with
  | none =>
    rw [hk] at h
    cases h
  | some k =>
    rw [hk] at h
    obtain ⟨rfl, hread⟩ := ofText_bool h
    exact ⟨rfl, (isTruthWord_iff s).2 ⟨b, hread⟩⟩

theorem operand_truthWord (hk : kindFor c.type asked = some .bool) (hs : IsTruthWord s) :
    ∃ b, operand c asked (.text s) = .ok (.bool b) := by
  obtain ⟨b, hb⟩ := (isTruthWord_iff s).1 hs
  refine ⟨b, ?_⟩
  rw [operand_text, hk]
  change Except.ok (((readBool? s).map Value.bool).getD (.text s)) = _
  rw [hb]
  rfl

/-- A text that becomes a truth value for a column, which holds no spans of time. -/
structure IsTruth (c : Column) (asked : Option Kind) (s : String) : Prop where
  column : c.type ≠ .interval
  kind : kindFor c.type asked = some .bool
  word : IsTruthWord s

theorem ofComparison_truth {op : Comparison} (heq : op ≠ .eq) (hne : op ≠ .ne)
    (hc : c.type ≠ .interval) (b : Bool) :
    Condition.ofComparison op c (.bool b) = .error (.sql .argument) := by
  cases op with
  | eq => exact absurd rfl heq
  | ne => exact absurd rfl hne
  | _ => exact if_neg hc

theorem ofComparison_built {op : Comparison} (hnull : v.kind ≠ .null)
    (h : (op = .eq ∨ op = .ne) ∨ c.type = .interval ∨ v.kind ≠ .bool) :
    ∃ cond, Condition.ofComparison op c v = .ok cond ∧ cond.column = c := by
  by_cases hbool : v.kind = .bool
  · cases v with
    | bool b =>
      by_cases hc : c.type = .interval
      · exact ⟨.compare op c (.bool b), by cases op <;> exact if_pos hc, rfl⟩
      · rcases h with (rfl | rfl) | h | h
        · exact ⟨.flag false c b, if_neg hc, rfl⟩
        · exact ⟨.flag true c b, if_neg hc, rfl⟩
        · exact absurd h hc
        · exact absurd hbool h
    | _ => cases hbool
  · exact ⟨_, isComparable_of_kind hnull hbool op c, rfl⟩

theorem comparing_truth {op : Comparison} (heq : op ≠ .eq) (hne : op ≠ .ne)
    (h : IsTruth c asked s) : comparing op c (.text s) asked = .error (.sql .argument) := by
  obtain ⟨b, hb⟩ := operand_truthWord h.kind h.word
  unfold comparing
  rw [hb, ok_bind, ofComparison_truth heq hne h.column]
  rfl

theorem comparing_built {op : Comparison} (h : (op = .eq ∨ op = .ne) ∨ ¬ IsTruth c asked s)
    (hcoerced : ∃ v, operand c asked (.text s) = .ok v) :
    ∃ cond, comparing op c (.text s) asked = .ok (some cond) ∧ cond.column = c := by
  obtain ⟨v, hv⟩ := hcoerced
  -- A truth value can only come from a word for one, and this is what is excluded.
  have hmatched : (op = .eq ∨ op = .ne) ∨ c.type = .interval ∨ v.kind ≠ .bool := by
    refine h.imp_right fun htruth => ?_
    by_contra hmismatch
    rw [not_or, not_not] at hmismatch
    obtain ⟨hc, hbool⟩ := hmismatch
    cases v with
    | bool b =>
      obtain ⟨hkind, hword⟩ := operand_bool hv
      exact htruth ⟨hc, hkind, hword⟩
    | _ => cases hbool
  obtain ⟨cond, hcond, hcolumn⟩ := ofComparison_built (operand_ne_null hv) hmatched
  refine ⟨cond, ?_, hcolumn⟩
  unfold comparing
  rw [hv, ok_bind, hcond]
  rfl

theorem within_built (hcoerced : ∀ t ∈ splitItems v, ∃ w, operand c asked (.text t) = .ok w) :
    ∃ cond, within c v asked = .ok (some cond) ∧ cond.column = c := by
  have hverdict : verdict ((splitItems v).mapM fun t => operand c asked (.text t)) = .ok () := by
    rw [verdict_mapM, forM_eq_ok_iff]
    exact fun t ht => verdict_eq_ok_iff.2 (hcoerced t ht)
  obtain ⟨items, hitems⟩ := verdict_eq_ok_iff.1 hverdict
  refine ⟨.within c items, ?_, rfl⟩
  unfold within
  rw [hitems]
  rfl

def IsOrdering (o : FilterOperator) : Prop := o = .gt ∨ o = .gte ∨ o = .lt ∨ o = .lte

theorem builtin_truth {o : FilterOperator} (ho : IsOrdering o) (h : IsTruth c asked s) :
    builtin o c (.text s) asked = .error (.sql .argument) := by
  rcases ho with rfl | rfl | rfl | rfl
  · exact comparing_truth nofun nofun h
  · exact comparing_truth nofun nofun h
  · exact comparing_truth nofun nofun h
  · exact comparing_truth nofun nofun h

theorem builtin_built {o : FilterOperator}
    (hcoerced : ∀ t ∈ coercedTexts o (.text s), ∃ v, operand c asked (.text t) = .ok v)
    (h : ¬ (IsOrdering o ∧ IsTruth c asked s)) :
    ∃ cond, builtin o c (.text s) asked = .ok (some cond) ∧ cond.column = c := by
  by_cases hordering : IsOrdering o
  · have htruth : ¬ IsTruth c asked s := fun ht => h ⟨hordering, ht⟩
    rcases hordering with rfl | rfl | rfl | rfl
    · exact comparing_built (.inr htruth) (hcoerced s List.mem_cons_self)
    · exact comparing_built (.inr htruth) (hcoerced s List.mem_cons_self)
    · exact comparing_built (.inr htruth) (hcoerced s List.mem_cons_self)
    · exact comparing_built (.inr htruth) (hcoerced s List.mem_cons_self)
  · cases o with
    | eq => exact comparing_built (.inl (.inl rfl)) (hcoerced s List.mem_cons_self)
    | ne => exact comparing_built (.inl (.inr rfl)) (hcoerced s List.mem_cons_self)
    | like => exact ⟨_, rfl, rfl⟩
    | within => exact within_built hcoerced
    | _ => simp [IsOrdering] at hordering

end Strategy

namespace Registry

open Strategy

/-- An operand whose texts are coerced makes a condition on the column with every operator, unless
it is a truth value that is compared by order: that is an error, and there is no other. -/
theorem condition_built {c : Column} {asked : Option Kind} {operator : Value} {o : FilterOperator}
    {s : String} (ho : FilterOperator.ofValue? operator = some o)
    (hcoerced : ∀ t ∈ coercedTexts o (.text s), ∃ v, operand c asked (.text t) = .ok v) :
    (¬ (IsOrdering o ∧ IsTruth c asked s) →
      ∃ cond, builtin.condition c operator (.text s) asked = .ok (some cond) ∧ cond.column = c) ∧
    (IsOrdering o ∧ IsTruth c asked s →
      builtin.condition c operator (.text s) asked = .error (.sql .argument)) := by
  have hasked (t : String) : operand c (kindFor c.type asked) (.text t) =
      operand c asked (.text t) := by
    rw [operand_text, operand_text, kindFor_kindFor]
  have hcondition : builtin.condition c operator (.text s) asked =
      Strategy.builtin o c (.text s) (kindFor c.type asked) := by
    unfold condition
    rw [ho, Option.bind_some, strategy?_builtin]
  rw [hcondition]
  have htruth : IsTruth c (kindFor c.type asked) s ↔ IsTruth c asked s := by
    constructor
    · rintro ⟨hc, hk, hs⟩
      exact ⟨hc, kindFor_kindFor c.type asked ▸ hk, hs⟩
    · rintro ⟨hc, hk, hs⟩
      exact ⟨hc, (kindFor_kindFor c.type asked).trans hk, hs⟩
  constructor
  · intro h
    refine builtin_built (fun t ht => ?_) (by rwa [htruth])
    rw [hasked]
    exact hcoerced t ht
  · rintro ⟨hordering, h⟩
    exact builtin_truth hordering (htruth.2 h)

def activeFlag : Column := .ofTable "heroes" "active" .boolean

theorem condition_built_active :
    (∃ cond, builtin.condition activeFlag (.text "in") (.text "yes, no") none = .ok (some cond) ∧
      cond.column = activeFlag) ∧
      builtin.condition activeFlag (.text "gt") (.text "true") none = .error (.sql .argument) := by
  have hcoerced (t : String) : ∃ v, operand activeFlag none (.text t) = .ok v := ⟨_, rfl⟩
  have hin : FilterOperator.ofValue? (.text "in") = some .within := by decide
  have hgt : FilterOperator.ofValue? (.text "gt") = some .gt := by decide
  have hword : IsTruthWord "true" := (isTruthWord_iff _).2 ⟨true, by decide⟩
  constructor
  · refine (condition_built hin fun t _ => hcoerced t).1 ?_
    rintro ⟨(h | h | h | h), -⟩ <;> cases h
  · exact (condition_built hgt fun t _ => hcoerced t).2 ⟨.inl rfl, nofun, rfl, hword⟩

end Registry
end Listing
