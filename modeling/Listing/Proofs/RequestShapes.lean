import Mathlib.Data.List.Forall2
import Listing.Proofs.Changes

set_option autoImplicit false

/-!
# Shapes of requests

Requests of one shape differ in the texts of searches, of column searches and of filters only, and
where one has a text with content the other has one too. By one policy they make the same calls in
the same order, up to the terms and the operands of predicates.
-/

namespace Listing

open List (Forall₂)

theorem option_rel_refl {A : Type} {R : A → A → Prop} (h : ∀ a, R a a) (x : Option A) :
    Option.Rel R x x := by
  cases x with
  | none => exact .none
  | some a => exact .some (h a)

theorem rel_getLast? {A : Type} {R : A → A → Prop} {xs ys : List A} (h : Forall₂ R xs ys) :
    Option.Rel R xs.getLast? ys.getLast? := by
  rw [List.getLast?_eq_head?_reverse, List.getLast?_eq_head?_reverse]
  have hreverse := List.rel_reverse h
  generalize xs.reverse = xs at hreverse ⊢
  generalize ys.reverse = ys at hreverse ⊢
  cases hreverse with
  | nil => exact .none
  | cons hab _ => exact .some hab

def UnderOneKey {K A : Type} (R : A → A → Prop) (e f : K × A) : Prop := e.1 = f.1 ∧ R e.2 f.2

namespace Value

inductive SameLeaf : Value → Value → Prop where
  | refl (v : Value) : SameLeaf v v
  | texts {s t : String} (hs : s ≠ "") (ht : t ≠ "") : SameLeaf (.text s) (.text t)

inductive SameOperand : Value → Value → Prop where
  | leaf {v w : Value} (h : SameLeaf v w) : SameOperand v w
  | list {vs ws : List Value} (h : Forall₂ SameLeaf vs ws) : SameOperand (.list vs) (.list ws)

inductive SameFilter : Value → Value → Prop where
  | operand {v w : Value} (h : SameOperand v w) : SameFilter v w
  | map {es fs : List (Value × Value)} (h : Forall₂ (UnderOneKey SameOperand) es fs) :
      SameFilter (.map es) (.map fs)

theorem SameOperand.refl (v : Value) : SameOperand v v := .leaf (.refl v)

end Value

/-- Requests that differ in the texts of their values only. -/
structure ListRequest.SameShape (r r' : ListRequest) : Prop where
  search : r.search.isEmpty = r'.search.isEmpty
  columnSearch : Forall₂ (UnderOneKey fun s t => s.isEmpty = t.isEmpty) r.columnSearch
    r'.columnSearch
  filters : Forall₂ (UnderOneKey Value.SameFilter) r.filters r'.filters
  sortBy : r.sortBy = r'.sortBy
  sortOrder : r.sortOrder = r'.sortOrder
  relations : r.relations = r'.relations

/-- Predicates on one column that differ in their terms or operands. An operand is not compared with
truth values. -/
inductive Predicate.SameShape (q : Query) : Predicate → Predicate → Prop where
  | contains (c : ColumnRef) (s t : String) (asText : Bool) :
      SameShape q (.contains c s asText) (.contains c t asText)
  | compare (c : ColumnRef) (operator : Value) {v w : Value} (hc : (q.column c).type ≠ .boolean)
      (h : v.SameOperand w) : SameShape q (.compare c operator v) (.compare c operator w)

inductive Call.SameShape (q : Query) : Call → Call → Prop where
  | refl (call : Call) : SameShape q call call
  | whereAny {ps ps' : List Predicate} (h : Forall₂ (Predicate.SameShape q) ps ps') :
      SameShape q (.whereAny ps) (.whereAny ps')
  | whereAll {ps ps' : List Predicate} (h : Forall₂ (Predicate.SameShape q) ps ps') :
      SameShape q (.whereAll ps) (.whereAll ps')

namespace Plan

open Value

theorem sameKey_empty {s : String} (hs : s ≠ "") : (Value.text s).sameKey (.text "") = false :=
  beq_eq_false_iff_ne.2 hs

theorem operandFor_rel (operator : Value) {v w : Value} (h : v.SameOperand w) :
    Option.Rel SameOperand (operandFor? operator v) (operandFor? operator w) := by
  cases h with
  | leaf h =>
    cases h with
    | refl => exact option_rel_refl SameOperand.refl _
    | texts hs ht =>
      unfold operandFor?
      dsimp only
      rw [sameKey_empty hs, sameKey_empty ht]
      exact .some (.leaf (.texts hs ht))
  | list h =>
    unfold operandFor?
    dsimp only
    cases takesList operator with
    | true => exact .some (.list h)
    | false =>
      have hlast := rel_getLast? h
      generalize List.getLast? _ = x at hlast ⊢
      generalize List.getLast? _ = y at hlast ⊢
      cases hlast with
      | none => exact .none
      | some hab =>
        cases hab with
        | refl => exact option_rel_refl SameOperand.refl _
        | texts hs ht =>
          dsimp only
          rw [sameKey_empty hs, sameKey_empty ht]
          exact .some (.leaf (.texts hs ht))

theorem terms_rel {v w : Value} (h : v.SameFilter w) :
    Forall₂ (UnderOneKey SameOperand) (terms v) (terms w) := by
  cases h with
  | operand h =>
    cases h with
    | leaf h =>
      cases h with
      | refl => exact List.forall₂_same.2 fun e _ => ⟨rfl, .refl e.2⟩
      | texts hs ht => exact .cons ⟨rfl, .leaf (.texts hs ht)⟩ .nil
    | list h =>
      cases h with
      | nil => exact .nil
      | cons hab hs => exact .cons ⟨rfl, .list (.cons hab hs)⟩ .nil
  | map h =>
    refine List.rel_filterMap ?_ h
    rintro ⟨operator, v⟩ ⟨operator', w⟩ ⟨rfl, hvw⟩
    have hoperand := operandFor_rel operator hvw
    dsimp only
    generalize operandFor? operator v = x at hoperand ⊢
    generalize operandFor? operator w = y at hoperand ⊢
    cases hoperand with
    | none => exact .none
    | some hab => exact .some ⟨rfl, hab⟩

def FiltersNoFlags (q : Query) (p : Policy) (r : ListRequest) : Prop :=
  ∀ f ∈ r.filters, ∀ name, Policy.columnOf? p.filterableFields f.1 = some name →
    (q.column ⟨name, false⟩).type ≠ .boolean

variable {q : Query} {p : Policy} {r r' : ListRequest}

theorem sortField_eq (h : r.SameShape r') : sortField? p r = sortField? p r' := by
  unfold sortField?
  rw [h.sortBy]

theorem join_eq (h : r.SameShape r') : join? p r = join? p r' := by
  unfold join?
  rw [sortField_eq h]

theorem isJoined_eq (h : r.SameShape r') : isJoined p r = isJoined p r' := by
  unfold isJoined
  rw [join_eq h]

theorem orderCalls_eq (h : r.SameShape r') : orderCalls p r = orderCalls p r' := by
  unfold orderCalls
  rw [sortField_eq h, isJoined_eq h, h.sortOrder]

theorem searchCalls_rel (h : r.SameShape r') :
    Forall₂ (Call.SameShape q) (searchCalls p r) (searchCalls p r') := by
  unfold searchCalls
  rw [h.search, isJoined_eq h]
  split_ifs
  · exact .nil
  · refine .cons (.whereAny ?_) .nil
    refine List.rel_map ?_ (List.forall₂_same.2 fun name _ => rfl)
    rintro name name' rfl
    exact .contains _ _ _ _

theorem columnSearchCalls_rel (h : r.SameShape r') :
    Forall₂ (Call.SameShape q) (columnSearchCalls p r) (columnSearchCalls p r') := by
  refine List.rel_filterMap ?_ h.columnSearch
  rintro ⟨field, s⟩ ⟨field', t⟩ ⟨rfl, hempty⟩
  dsimp only at hempty ⊢
  rw [hempty, isJoined_eq h]
  cases Policy.columnOf? p.columnFields field with
  | none => exact .none
  | some name =>
    dsimp only
    split_ifs
    · exact .none
    · exact .some (.whereAll (.cons (.contains _ _ _ _) .nil))

theorem comparisons_rel (h : r.SameShape r') {f f' : String × Value}
    (hff : UnderOneKey SameFilter f f')
    (hf : ∀ name, Policy.columnOf? p.filterableFields f.1 = some name →
      (q.column ⟨name, false⟩).type ≠ .boolean) :
    Forall₂ (Predicate.SameShape q) (comparisons p r f) (comparisons p r' f') := by
  unfold comparisons
  rw [← hff.1, isJoined_eq h]
  cases hname : Policy.columnOf? p.filterableFields f.1 with
  | none => exact .nil
  | some name =>
    refine List.rel_map ?_ (terms_rel hff.2)
    rintro ⟨operator, v⟩ ⟨operator', w⟩ ⟨rfl, hvw⟩
    refine .compare _ _ ?_ hvw
    rw [q.column_type name _ false]
    exact hf name hname

theorem filterCalls_rel (knows : Value → Bool) (h : r.SameShape r') (hr : FiltersNoFlags q p r) :
    Forall₂ (Call.SameShape q) (filterCalls knows p r) (filterCalls knows p r') := by
  have hfilters := (List.forall₂_and_left _ _).2 ⟨hr, h.filters⟩
  have hall : Forall₂ (Predicate.SameShape q) (r.filters.flatMap (comparisons p r))
      (r'.filters.flatMap (comparisons p r')) :=
    List.rel_flatMap hfilters fun _ _ hff => comparisons_rel h hff.2 hff.1
  have hcalls {ps ps' : List Predicate} (hps : Forall₂ (Predicate.SameShape q) ps ps') :
      Forall₂ (Call.SameShape q) (if ps.isEmpty then [] else [.whereAll ps])
        (if ps'.isEmpty then [] else [.whereAll ps']) := by
    cases hps with
    | nil => exact .nil
    | cons hab hs => exact .cons (.whereAll (.cons hab hs)) .nil
  unfold filterCalls
  refine hcalls (List.rel_filter ?_ hall)
  intro a b hab
  cases hab <;> exact Iff.rfl

/-- Requests of one shape make calls that differ in their predicates only. -/
theorem calls_rel (knows : Value → Bool) (h : r.SameShape r') (hr : FiltersNoFlags q p r) :
    Forall₂ (Call.SameShape q) (calls knows p r) (calls knows p r') := by
  have hsame (cs : List Call) : Forall₂ (Call.SameShape q) cs cs :=
    List.forall₂_same.2 fun call _ => .refl call
  have hjoin : joinCalls p r = joinCalls p r' := by
    unfold joinCalls
    rw [join_eq h]
  have hrelation : relationCalls r = relationCalls r' := by
    unfold relationCalls
    rw [h.relations]
  unfold calls selection
  rw [hjoin, hrelation, orderCalls_eq h]
  refine List.rel_append (List.rel_append (List.rel_append (List.rel_append (hsame _) ?_) ?_) ?_)
    (hsame _)
  · exact searchCalls_rel h
  · exact columnSearchCalls_rel h
  · exact filterCalls_rel knows h hr

end Plan
end Listing
