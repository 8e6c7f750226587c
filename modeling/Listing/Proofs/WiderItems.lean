import Listing.Pagination
import Listing.Proofs.RowKeys
import Listing.Proofs.Sql.WiderStatements

set_option autoImplicit false

namespace Listing

open Outcome Sql

namespace Record

variable {fields fields' : List (String × Datum)} {name key : String} {d : Datum}

def withValues (fields : List (String × Datum)) (es : List (String × Value)) :
    List (String × Datum) :=
  es.foldl (fun fields e => Entries.insert fields e.1 (.scalar e.2)) fields

theorem lookup?_withValues_other {es : List (String × Value)} (hes : name ∉ es.map (·.1))
    (h : ∀ key, Entries.lookup? fields' key =
      if key = name then some d else Entries.lookup? fields key)
    (key : String) : Entries.lookup? (withValues fields' es) key =
      if key = name then some d else Entries.lookup? (withValues fields es) key := by
  induction es generalizing fields fields' with
  | nil => exact h key
  | cons e es ih =>
    simp only [List.map_cons, List.mem_cons, not_or] at hes
    refine ih hes.2 fun k => ?_
    rw [Entries.lookup?_insert, Entries.lookup?_insert, h k]
    by_cases hk : k = e.1
    · rw [if_pos hk, if_neg (hk ▸ Ne.symm hes.1), if_pos hk]
    · rw [if_neg hk, if_neg hk]

theorem lookup?_withValues {es es' : List (String × Value)} {v : Value}
    (h : Inserts (name, v) es es') (hname : name ∉ es.map (·.1))
    (fields : List (String × Datum)) (key : String) : Entries.lookup? (withValues fields es') key =
      if key = name then some (.scalar v) else Entries.lookup? (withValues fields es) key := by
  induction h generalizing fields with
  | here es =>
    exact lookup?_withValues_other hname (fun key => Entries.lookup?_insert fields name key _) key
  | there e _ ih => exact ih (fun hmem => hname (List.mem_cons_of_mem _ hmem)) _

end Record

namespace Item

def field? (key : String) : Item → Option Datum
  | entity columns => Entries.lookup? (columns.map fun f => (f.1, .scalar f.2)) key
  | merged fields => Entries.lookup? fields key

/-- An item that shows a row of a model: its columns, or its record with values set in it. -/
inductive IsOf (c : Catalog) (db : Database) (m : Model) (row : Row) : Item → Prop where
  | entity : IsOf c db m row (.entity (Record.columns m.table row))
  | merged (tree : RelationTree) (es : List (String × Value)) :
      IsOf c db m row (.merged (Record.withValues (Record.ofRow c db m row tree) es))

def Widens (c : Catalog) (db : Database) (m : Model) (label : String) (value : Row → Value)
    (it it' : Item) : Prop :=
  ∃ row ∈ db.rows m.table.name, it.IsOf c db m row ∧
    ∀ key, it'.field? key = if key = label then some (.scalar (value row)) else it.field? key

end Item

namespace Query

def keysOf (labels : List String) : List String :=
  (keyed [] (labels.map fun label => (label, .null))).map (·.1)

theorem keyed_keys (seen : List String) (es : List (String × Value)) :
    (keyed seen es).map (·.1) =
      (keyed seen (es.map fun e => (e.1, Value.null))).map (·.1) := by
  induction es generalizing seen with
  | nil => rfl
  | cons e es ih => simp only [keyed, List.map_cons, ih]

theorem keysOf_append (labels labels' : List String) :
    keysOf labels ⊆ keysOf (labels ++ labels') := by
  unfold keysOf
  rw [List.map_append, keyed_append, List.map_append]
  exact List.subset_append_left _ _

theorem mem_keyed {seen : List String} {label : String} (hseen : label ∉ seen)
    {es : List (String × Value)} (h : label ∈ es.map (·.1)) :
    label ∈ (keyed seen es).map (·.1) := by
  induction es generalizing seen with
  | nil => cases h
  | cons e es ih =>
    rw [keyed, List.map_cons, List.mem_cons]
    by_cases heq : e.1 = label
    · left
      subst heq
      dsimp only
      rw [List.count_eq_zero.2 hseen, if_pos rfl]
    · right
      apply ih
      · simp only [List.mem_cons, not_or]
        exact ⟨Ne.symm heq, hseen⟩
      · rcases List.mem_cons.1 h with hmem | hmem
        · exact absurd hmem.symm heq
        · exact hmem

theorem mem_keysOf {label : String} {labels : List String} (h : label ∈ labels) :
    label ∈ keysOf labels := by
  refine mem_keyed List.not_mem_nil ?_
  rw [List.map_map]
  exact List.mem_map.2 ⟨label, h, rfl⟩

/-- Keys depend on how often a label was seen. -/
theorem keyed_congr {seen seen' : List String} {es : List (String × Value)}
    (h : ∀ e ∈ es, seen.count e.1 = seen'.count e.1) : keyed seen es = keyed seen' es := by
  induction es generalizing seen seen' with
  | nil => rfl
  | cons e es ih =>
    have hrest : keyed (e.1 :: seen) es = keyed (e.1 :: seen') es := by
      refine ih fun e' he' => ?_
      rw [List.count_cons, List.count_cons, h e' (List.mem_cons_of_mem _ he')]
    rw [keyed, keyed, hrest, h e List.mem_cons_self]

theorem keyed_inserts {seen : List String} {label : String} {v : Value}
    {es es' : List (String × Value)} (h : Inserts (label, v) es es') (hseen : label ∉ seen)
    (hlabel : label ∉ es.map (·.1)) : Inserts (label, v) (keyed seen es) (keyed seen es') := by
  induction h generalizing seen with
  | here es =>
    have hrest : keyed (label :: seen) es = keyed seen es := by
      refine keyed_congr fun e he => ?_
      have hne : label ≠ e.1 := fun heq => hlabel (heq ▸ List.mem_map_of_mem he)
      exact List.count_cons_of_ne hne
    rw [keyed, List.count_eq_zero.2 hseen, if_pos rfl, hrest]
    exact .here _
  | there e _ ih =>
    simp only [List.map_cons, List.mem_cons, not_or] at hlabel
    rw [keyed, keyed]
    refine .there _ (ih ?_ hlabel.2)
    simp only [List.mem_cons, not_or]
    exact ⟨hlabel.1, hseen⟩

section

variable {r r' : Result} {label : String} {value : Row → Value} (h : r.Widens label value r')
  (hfresh : label ∉ keysOf (r.aggregates.map (·.1) ++ [totalLabel]))
include h hfresh

omit h in
theorem ne_totalLabel : label ≠ totalLabel := by
  rintro rfl
  exact hfresh (mem_keysOf (List.mem_append_right _ List.mem_cons_self))

omit h in
theorem label_unkeyed (total : Option ℕ) : label ∉ (beside r total).map (·.1) := by
  have hkeys : (beside r total).map (·.1) =
      keysOf (r.aggregates.map (·.1) ++ total.toList.map fun _ => totalLabel) := by
    unfold beside keysOf
    rw [keyed_keys]
    simp only [List.map_append, List.map_map, Function.comp_def]
  rw [hkeys]
  cases total with
  | none =>
    intro hmem
    refine hfresh (keysOf_append _ _ ?_)
    simpa using hmem
  | some n => exact hfresh

theorem beside_inserts (total : Option ℕ) :
    Inserts (label, value (r.row.getD [])) (beside r total) (beside r' total) := by
  refine keyed_inserts (h.2.append_right _) List.not_mem_nil fun hmem => ?_
  exact label_unkeyed hfresh total (mem_keyed List.not_mem_nil hmem)

theorem extras_inserts (total : Option ℕ) :
    Inserts (label, value (r.row.getD [])) (extras r total) (extras r' total) :=
  (beside_inserts h hfresh total).filter (bne_iff_ne.2 (ne_totalLabel hfresh))

theorem totalIn_widens (n : ℕ) : totalIn r' n = totalIn r n := by
  have hother : (label == totalLabel) = false := beq_eq_false_iff_ne.2 (ne_totalLabel hfresh)
  have hfind := (beside_inserts h hfresh (some n)).find?_of_not (p := (·.1 == totalLabel)) hother
  unfold totalIn
  rw [hfind]

end

def withAggregates (q : Query) (as : List Aggregate) : Query :=
  { q with statement := q.statement.withAggregates as }

variable {db : Database} {q : Query} {label : String} {value : Row → Value}

theorem item_follows (as : List Aggregate) {r r' : Result} (h : r.Widens label value r')
    (hfresh : label ∉ keysOf (r.aggregates.map (·.1) ++ [totalLabel]))
    (hstored : ∀ row, r.row = some row → row ∈ db.rows q.model.table.name) (total : Option ℕ) :
    Follows (Item.Widens q.catalog db q.model label value) (q.item db total r)
      ((q.withAggregates as).item db total r') := by
  have hextras := extras_inserts h hfresh total
  have hunkeyed : label ∉ (extras r total).map (·.1) := by
    intro hmem
    obtain ⟨e, he, rfl⟩ := List.mem_map.1 hmem
    exact label_unkeyed hfresh total (List.mem_map_of_mem (List.mem_filter.1 he).1)
  have hsome : (extras r' total).isEmpty = false := List.isEmpty_eq_false_iff.2 hextras.ne_nil
  intro it hit
  unfold item at hit ⊢
  rw [h.1]
  cases hrow : r.row with
  | none =>
    rw [hrow] at hit
    cases hit
  | some row =>
    rw [hrow] at hit hextras
    dsimp only at hit ⊢
    rw [hsome, Bool.false_and, if_neg Bool.false_ne_true]
    refine ⟨_, rfl, row, hstored row hrow, ?_⟩
    have hfields := Record.lookup?_withValues hextras hunkeyed
      (Record.ofRow q.catalog db q.model row q.relationTree)
    split_ifs at hit with hplain
    · cases hit
      refine ⟨.entity, fun key => (hfields key).trans ?_⟩
      -- Nothing was merged before, so the record has the columns alone.
      rw [Bool.and_eq_true, List.isEmpty_iff, List.isEmpty_iff] at hplain
      have htree : q.relationTree = .node [] := by
        unfold relationTree
        rw [hplain.2]
        rfl
      rw [hplain.1, htree, Record.ofRow, Record.ofBranches]
      rfl
    · cases hit
      exact ⟨.merged _ _, hfields⟩

end Query

namespace Paging

variable {α β : Type} {R : α → β → Prop} {s : Source α} {s' : Source β}

/-- A source that gives related rows wherever another one gives any, and counts as many. -/
structure Source.Follows (R : α → β → Prop) (s : Source α) (s' : Source β) : Prop where
  count : s'.count = s.count
  rows : ∀ limit offset,
    Outcome.Follows (List.Forall₂ R) (s.rows limit offset) (s'.rows limit offset)
  counted : ∀ limit offset, Outcome.Follows (fun x x' => List.Forall₂ R x.1 x'.1 ∧ x'.2 = x.2)
    (s.counted limit offset) (s'.counted limit offset)

/-- Whatever way a page is read, it then has related rows and the same total. -/
theorem Source.Follows.read (h : s.Follows R s') (along : Bool) (size : Quantity) (number : ℤ) :
    Outcome.Follows (fun x x' => List.Forall₂ R x.1 x'.1 ∧ x'.2 = x.2)
      (read s along size number) (read s' along size number) := by
  unfold Paging.read
  refine Follows.after fun offset _ => ?_
  split_ifs
  · refine Follows.after fun start _ => Follows.after fun limit _ => (h.counted limit start).bind ?_
    rintro ⟨data, total⟩ ⟨data', total'⟩ ⟨hdata, rfl⟩
    dsimp only at hdata ⊢
    have hempty : data'.isEmpty = data.isEmpty := by cases hdata <;> rfl
    rw [hempty, h.count]
    split_ifs
    · exact Follows.after fun n _ => Follows.ok ⟨hdata, rfl⟩
    · exact Follows.ok ⟨hdata, rfl⟩
  · rw [h.count]
    refine Follows.after fun total _ => ?_
    split_ifs
    · exact Follows.ok ⟨.nil, rfl⟩
    · exact Follows.after fun start _ => Follows.after fun limit _ =>
        (h.rows limit start).bind fun data data' hdata => Follows.ok ⟨hdata, rfl⟩

end Paging

namespace Query

section

variable {db : Database} {q : Query} {a : Aggregate} {as : List Aggregate} {value : Row → Value}
  (hbase : q.statement.base = q.model.table)
  (hfresh : a.label ∉ keysOf (q.statement.aggregates.map (·.label) ++ [totalLabel]))
include hbase hfresh

theorem widens_page {counted : Bool} {limit offset : ℤ} {rs rs' : List Result} {n : ℕ}
    (hrs : q.statement.page db counted limit offset = .ok (rs, n))
    (hwider : List.Forall₂ (Result.Widens a.label value) rs rs') :
    List.Forall₂ (fun r r' => (a.label ∉ keysOf (r.aggregates.map (·.1) ++ [totalLabel]) ∧
      ∀ row, r.row = some row → row ∈ db.rows q.model.table.name) ∧
        r.Widens a.label value r') rs rs' := by
  refine (List.forall₂_and_left _ _).2 ⟨fun r hr => ⟨?_, fun row hrow => ?_⟩, hwider⟩
  · rw [Statement.page_labels hrs r hr]
    exact hfresh
  · rw [← hbase]
    exact Statement.page_stored hrs hr hrow

theorem items_follows {counted : Bool} {limit offset : ℤ} {rs rs' : List Result} {n : ℕ}
    (hrs : q.statement.page db counted limit offset = .ok (rs, n))
    (hwider : List.Forall₂ (Result.Widens a.label value) rs rs') (total : Option ℕ) :
    Follows (List.Forall₂ (Item.Widens q.catalog db q.model a.label value))
      (q.items db total rs) ((q.withAggregates as).items db total rs') := by
  refine Follows.mapM (widens_page hbase hfresh hrs hwider) ?_
  rintro r r' ⟨⟨hkey, hstored⟩, hr⟩
  exact item_follows as hr hkey hstored total

theorem source_follows (h : q.statement.Admits db a) (has : Inserts a q.statement.aggregates as)
    (hvalue : a.Gives db q.model.table value) :
    (q.source db).Follows (Item.Widens q.catalog db q.model a.label value)
      ((q.withAggregates as).source db) := by
  have hgives : a.Gives db q.statement.base value := hbase ▸ hvalue
  have hpage (counted : Bool) (limit offset : ℤ) :=
    (Statement.page_follows h has hgives counted limit offset).of_result
  refine ⟨Statement.count_withAggregates h has, fun limit offset => ?_, fun limit offset => ?_⟩
  · refine (hpage false limit offset).bind ?_
    rintro ⟨rs, n⟩ ⟨rs', n'⟩ ⟨hrs, hwider, -⟩
    exact items_follows hbase hfresh hrs hwider none
  · refine (hpage true limit offset).bind ?_
    rintro ⟨rs, _⟩ ⟨rs', n⟩ ⟨hrs, hwider, rfl⟩
    have htotal : (rs'.head?.map (totalIn · n)).getD n = (rs.head?.map (totalIn · n)).getD n := by
      cases widens_page hbase hfresh hrs hwider with
      | nil => rfl
      | cons hr _ => exact totalIn_widens hr.2 hr.1.1 n
    exact (items_follows hbase hfresh hrs hwider (some n)).bind fun data data' hdata =>
      Follows.ok ⟨hdata, htotal⟩

end

end Query
end Listing
