import Listing.Filter.Strategy
import Listing.Sql.ConditionText

set_option autoImplicit false

namespace Listing.Coercion

open Sql

theorem getD_kind {α : Type} (f : α → Value) {k : Kind} (hf : ∀ a, (f a).kind = k) (x : Option α)
    (s : String) : (x.map f).getD (.text s) = .text s ∨ ((x.map f).getD (.text s)).kind = k := by
  cases x with
  | none => exact .inl rfl
  | some a => exact .inr (hf a)

theorem toInteger_kind {s : String} {v : Value} (h : toInteger s = .ok v) :
    v = .text s ∨ v.kind = .int := by
  unfold toInteger at h
  cases hinteger : Numeral.readInteger? s.toList with
  | some n =>
    rw [hinteger] at h
    cases h
    exact .inr rfl
  | none =>
    rw [hinteger] at h
    cases hreal : Numeral.readBinary64? s.toList with
    | none =>
      rw [hreal] at h
      cases h
      exact .inl rfl
    | some x =>
      rw [hreal] at h
      cases x with
      | nan =>
        cases h
        exact .inl rfl
      | infinite negative => cases h
      | finite negative m e =>
        cases h
        exact getD_kind Value.int (fun _ => rfl) _ s

theorem toDateTime_kind {s : String} {v : Value} (h : toDateTime s = .ok v) :
    v = .text s ∨ v.kind = .datetime := by
  unfold toDateTime at h
  cases hiso : IsoDate.read? s.toList with
  | some t =>
    rw [hiso] at h
    cases h
    exact .inr rfl
  | none =>
    rw [hiso] at h
    cases hfree : FreeForm.read s.toList with
    | ok t =>
      rw [hfree] at h
      cases h
      exact .inr rfl
    | error e =>
      rw [hfree] at h
      cases e with
      | notADate =>
        cases h
        exact .inl rfl
      | indivisible => cases h

theorem toDecimal_kind {s : String} {v : Value} (h : toDecimal s = .ok v) : v.kind = .decimal := by
  unfold toDecimal at h
  cases hread : Decimal.read s.toList with
  | ok d =>
    rw [hread] at h
    cases h
    rfl
  | error e =>
    rw [hread] at h
    cases e <;> cases h

/-- A text becomes a value of the kind or stays as it is. -/
theorem ofText_kind {k : Kind} {s : String} {v : Value} (h : ofText k s = .ok v) :
    v = .text s ∨ v.kind = k := by
  cases k with
  | int => exact toInteger_kind h
  | datetime => exact toDateTime_kind h
  | decimal => exact .inr (toDecimal_kind h)
  | map =>
    cases h
    split
    · exact .inr rfl
    · exact .inl rfl
  | list =>
    cases h
    exact .inr rfl
  | bool =>
    cases h
    exact getD_kind Value.bool (fun _ => rfl) _ s
  | date =>
    cases h
    exact getD_kind Value.date (fun _ => rfl) _ s
  | time =>
    cases h
    exact getD_kind Value.time (fun _ => rfl) _ s
  | float =>
    cases h
    exact getD_kind Value.float (fun _ => rfl) _ s
  | uuid =>
    cases h
    exact getD_kind Value.uuid (fun _ => rfl) _ s
  | enum e =>
    cases h
    cases hfound : e.ofLabel? s with
    | none => exact .inl rfl
    | some m =>
      have hsame := Enumeration.mem_all.1 (List.mem_of_find?_eq_some hfound)
      exact .inr (congrArg Kind.enum hsame)
  | _ =>
    cases h
    exact .inl rfl

def IsComparable (v : Value) : Prop :=
  ∀ op c, Condition.ofComparison op c v = .ok (.compare op c v)

theorem isComparable_of_kind {v : Value} (hnull : v.kind ≠ .null) (hbool : v.kind ≠ .bool) :
    IsComparable v := by
  intro op c
  cases v with
  | null => exact absurd rfl hnull
  | bool b => exact absurd rfl hbool
  | _ => cases op <;> rfl

theorem ofText_comparable {k : Kind} (hnull : k ≠ .null) (hbool : k ≠ .bool) {s : String}
    {v : Value} (h : ofText k s = .ok v) : IsComparable v := by
  rcases ofText_kind h with rfl | rfl
  · exact isComparable_of_kind nofun nofun
  · exact isComparable_of_kind hnull hbool

/-- The conversion that follows the values to which texts are coerced for a column. -/
def conversion : Dialect → ColumnType → String
  | .postgresql, .uuid => "::UUID"
  | .postgresql, .array => "::VARCHAR[]"
  | _, _ => ""

theorem bindType_of_kind {t : ColumnType} {v : Value} (h : t.kind? = some v.kind) :
    t.bindType v = t := by
  cases t <;> cases v <;> cases h <;> rfl

theorem suffix_of_kind {t : ColumnType} {v : Value} (h : t.kind? = some v.kind) (hjson : t ≠ .json)
    (d : Dialect) : Condition.suffix d t v = conversion d t := by
  unfold Condition.suffix
  rw [bindType_of_kind h]
  cases d with
  | postgresql =>
    cases t with
    | json => exact absurd rfl hjson
    | _ => rfl
  | _ => rfl

theorem suffix_text {t : ColumnType} (harray : t ≠ .array) (s : String) (d : Dialect) :
    Condition.suffix d t (.text s) = conversion d t := by
  cases d with
  | postgresql =>
    cases t with
    | array => exact absurd rfl harray
    | _ => rfl
  | _ => rfl

/-- What a text with content becomes for a column is bound under a conversion that the type of the
column tells alone. -/
theorem suffix_ofText {t : ColumnType} {k : Kind} (hk : t.kind? = some k) {s : String} (hs : s ≠ "")
    {v : Value} (h : ofText k s = .ok v) (d : Dialect) :
    Condition.suffix d t v = conversion d t := by
  by_cases hjson : t = .json
  · subst hjson
    cases hk
    have hempty : s.isEmpty = false := by
      rw [Bool.eq_false_iff, ne_eq, String.isEmpty_iff]
      exact hs
    have hv : v = .text s := by
      unfold ofText at h
      rw [hempty] at h
      exact (Except.ok.inj h).symm
    rw [hv]
    exact suffix_text (t := .json) nofun s d
  · by_cases harray : t = .array
    · subst harray
      cases hk
      cases h
      exact suffix_of_kind (t := .array) rfl nofun d
    · rcases ofText_kind h with rfl | rfl
      · exact suffix_text harray s d
      · exact suffix_of_kind hk hjson d

end Listing.Coercion
