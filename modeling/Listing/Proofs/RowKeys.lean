import Mathlib.Tactic.SplitIfs
import Listing.Pagination

set_option autoImplicit false

namespace Listing

open Sql

namespace Record

theorem mem_keys_insert {fields : List (String × Datum)} {name key : String} {d : Datum}
    (h : key ∈ (Entries.insert fields name d).map (·.1)) :
    key = name ∨ key ∈ fields.map (·.1) := by
  rw [Entries.keys_insert] at h
  split_ifs at h
  · exact .inr h
  · rw [List.mem_append, List.mem_singleton] at h
    exact h.symm

theorem mem_keys_foldl_insert {es : List (String × Value)} {fields : List (String × Datum)}
    {key : String}
    (h : key ∈ (es.foldl (fun fields e => Entries.insert fields e.1 (.scalar e.2)) fields).map
      (·.1)) : key ∈ es.map (·.1) ∨ key ∈ fields.map (·.1) := by
  induction es generalizing fields with
  | nil => exact .inr h
  | cons e es ih =>
    rcases ih h with h | h
    · exact .inl (List.mem_cons_of_mem _ h)
    · rcases mem_keys_insert h with rfl | h
      · exact .inl List.mem_cons_self
      · exact .inr h

theorem mem_keys_ofBranches {c : Catalog} {db : Database} {m : Model} {r : Row}
    {branches : List (String × RelationTree)} {fields : List (String × Datum)} {key : String}
    (h : key ∈ (ofBranches c db m r fields branches).map (·.1)) :
    key ∈ fields.map (·.1) ∨ (m.relation? key).isSome := by
  induction branches generalizing fields with
  | nil =>
    rw [ofBranches] at h
    exact .inl h
  | cons branch branches ih =>
    obtain ⟨name, tree⟩ := branch
    rw [ofBranches] at h
    rcases ih h with h | h
    · cases hrelation : m.relation? name with
      | none =>
        rw [hrelation] at h
        exact .inl h
      | some relation =>
        rw [hrelation] at h
        cases htarget : c.targetOf? relation with
        | none =>
          simp only [htarget] at h
          exact .inl h
        | some target =>
          simp only [htarget] at h
          rcases mem_keys_insert h with rfl | h
          · rw [hrelation]
            exact .inr rfl
          · exact .inl h
    · exact .inr h

theorem columns_keys (t : Table) (r : Row) :
    (columns t r).map (·.1) = t.columns.map (·.1) := by
  rw [columns, List.map_map]
  rfl

/-- The keys of a record are columns and relations of its model. -/
theorem mem_keys_ofRow {c : Catalog} {db : Database} {m : Model} {r : Row} {tree : RelationTree}
    {key : String} (h : key ∈ (ofRow c db m r tree).map (·.1)) :
    key ∈ m.table.columns.map (·.1) ∨ (m.relation? key).isSome := by
  cases tree with
  | node branches =>
    rw [ofRow] at h
    rcases mem_keys_ofBranches h with h | h
    · rw [List.map_map] at h
      exact .inl (columns_keys m.table r ▸ h)
    · exact .inr h

end Record

namespace Query

theorem keyed_append (seen : List String) (xs ys : List (String × Value)) :
    keyed seen (xs ++ ys) = keyed seen xs ++ keyed ((xs.map (·.1)).reverse ++ seen) ys := by
  induction xs generalizing seen with
  | nil => rfl
  | cons x xs ih =>
    simp only [List.cons_append, keyed, ih, List.map_cons, List.reverse_cons, List.append_assoc,
      List.nil_append]

/-- A number at the end keeps a label apart from that of the total. -/
theorem numbered_ne_totalLabel (label : String) (n : Nat) : label ++ s!"_{n}" ≠ totalLabel := by
  intro h
  have hchars := congrArg String.toList h
  have hlast := congrArg List.getLast? hchars
  have hdigits : (toString n).toList = Nat.toDigits 10 n := by
    rw [Nat.toString_eq_ofList_toDigits, String.toList_ofList]
  cases hd : (Nat.toDigits 10 n).getLast? with
  | none => exact Nat.toDigits_ne_nil (List.getLast?_eq_none_iff.1 hd)
  | some d =>
    have hleft : (label ++ s!"_{n}").toList.getLast? = some d := by
      simp only [String.toList_append, hdigits, List.getLast?_append, hd]
      rfl
    have hright : totalLabel.toList.getLast? = some 't' := by decide
    rw [hleft, hright] at hlast
    cases hlast
    have hdigit := Nat.isDigit_of_mem_toDigits (by decide) (by decide) (List.mem_of_getLast? hd)
    revert hdigit
    decide

theorem keyed_length (seen : List String) (es : List (String × Value)) :
    (keyed seen es).length = es.length := by
  induction es generalizing seen with
  | nil => rfl
  | cons e es ih => rw [keyed, List.length_cons, ih, List.length_cons]

theorem keyed_ne_totalLabel {seen : List String} {es : List (String × Value)}
    (h : ∀ e ∈ es, e.1 ≠ totalLabel) : ∀ e ∈ keyed seen es, e.1 ≠ totalLabel := by
  induction es generalizing seen with
  | nil =>
    intro e he
    cases he
  | cons x es ih =>
    intro e he
    rcases List.mem_cons.1 he with rfl | he
    · dsimp only
      split_ifs
      · exact h x List.mem_cons_self
      · exact numbered_ne_totalLabel _ _
    · exact ih (fun y hy => h y (List.mem_cons_of_mem _ hy)) e he

section

variable {r : Result} (h : ∀ e ∈ r.aggregates, e.1 ≠ totalLabel)
include h

theorem beside_ne_totalLabel : ∀ e ∈ beside r none, e.1 ≠ totalLabel := by
  unfold beside
  apply keyed_ne_totalLabel
  simpa using h

theorem beside_total (n : Nat) : beside r (some n) = beside r none ++ [(totalLabel, .int n)] := by
  have hunseen : (r.aggregates.map fun e => e.1).reverse.count totalLabel = 0 := by
    rw [List.count_eq_zero, List.mem_reverse, List.mem_map]
    rintro ⟨e, he, hlabel⟩
    exact h e he hlabel
  simp only [beside, Option.toList_none, List.map_nil, List.append_nil, keyed_append,
    Option.toList_some, List.map_cons, keyed, hunseen, if_true]

theorem extras_eq (total : Option Nat) : extras r total = beside r none := by
  have hkept : (beside r none).filter (·.1 != totalLabel) = beside r none := by
    rw [List.filter_eq_self]
    intro e he
    exact bne_iff_ne.2 (beside_ne_totalLabel h e he)
  cases total with
  | none => exact hkept
  | some n =>
    rw [extras, beside_total h, List.filter_append, hkept, List.filter_cons_of_neg (by simp),
      List.filter_nil, List.append_nil]

theorem totalIn_eq (n : Nat) : totalIn r n = n := by
  have hnone : (beside r none).find? (·.1 == totalLabel) = none := by
    rw [List.find?_eq_none]
    intro e he
    simpa using beside_ne_totalLabel h e he
  rw [totalIn, beside_total h, List.find?_append, hnone]
  rfl

theorem item_total (db : Database) (q : Query) (total : Option Nat) :
    q.item db total r = q.item db none r := by
  unfold item
  rw [extras_eq h total, extras_eq h none]

end

end Query
end Listing
