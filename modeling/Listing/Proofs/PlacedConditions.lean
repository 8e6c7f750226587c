import Listing.Proofs.Restrictions
import Listing.Proofs.Sql.Joining

set_option autoImplicit false

/-!
# Conditions apart from their columns

What a predicate asks of a column does not depend on how the column is qualified. So conditions are
told from the names of their columns, and placed on them later: in a statement with a join, or in
one without. Where the names stand for columns that the join does not touch, both statements match
the same rows.
-/

namespace Listing

open Outcome Sql

namespace Query

variable {R : Registry} {q : Query}

def namedConditions (R : Registry) (q : Query) (ps : List Predicate) :
    Outcome (List (String × Condition)) := do
  .ok ((← ps.mapM fun pred =>
    Option.map (pred.column.name, ·) <$> q.condition? R pred).filterMap id)

def namedGroups (R : Registry) (q : Query) (gs : List (List Predicate)) :
    Outcome (List (List (String × Condition))) := do
  .ok ((← gs.mapM (q.namedConditions R)).filter (!·.isEmpty))

def placed (q : Query) (b : Bool) (e : String × Condition) : Condition :=
  e.2.onColumn (q.column ⟨e.1, b⟩)

theorem conditions_qualify (hR : R.IsPlain) (b : Bool) (ps : List Predicate) :
    q.conditions R (ps.map (Predicate.qualify b)) =
      List.map (q.placed b) <$> q.namedConditions R ps := by
  unfold conditions namedConditions
  induction ps with
  | nil => rfl
  | cons pred ps ih =>
    rw [List.map_cons, List.mapM_cons, List.mapM_cons, condition?_qualify hR]
    cases q.condition? R pred with
    | error e => rfl
    | ok c =>
      generalize (ps.map (Predicate.qualify b)).mapM (q.condition? R) = cs at ih ⊢
      generalize (ps.mapM fun pred =>
        Option.map (pred.column.name, ·) <$> q.condition? R pred : Outcome _) = es at ih ⊢
      cases cs with
      | error e =>
        cases es with
        | error e' =>
          cases ih
          rfl
        | ok es => cases ih
      | ok cs =>
        cases es with
        | error e' => cases ih
        | ok es =>
          have hrest := Except.ok.inj ih
          cases c with
          | none => exact congrArg Except.ok hrest
          | some c =>
            exact congrArg Except.ok (congrArg (q.placed b (pred.column.name, c) :: ·) hrest)

theorem groupsOf_qualify (hR : R.IsPlain) (b : Bool) (gs : List (List Predicate)) :
    q.groupsOf R (gs.map (·.map (Predicate.qualify b))) =
      List.map (·.map (q.placed b)) <$> q.namedGroups R gs := by
  unfold groupsOf namedGroups
  have hmap : (gs.map (·.map (Predicate.qualify b))).mapM (q.conditions R) =
      List.map (·.map (q.placed b)) <$> gs.mapM (q.namedConditions R) := by
    induction gs with
    | nil => rfl
    | cons g gs ih =>
      rw [List.map_cons, List.mapM_cons, List.mapM_cons, conditions_qualify hR, ih]
      cases q.namedConditions R g with
      | error e => rfl
      | ok es => cases gs.mapM (q.namedConditions R) <;> rfl
  rw [hmap]
  cases gs.mapM (q.namedConditions R) with
  | error e => rfl
  | ok ess =>
    refine congrArg Except.ok ?_
    rw [List.filter_map]
    congr 1
    refine List.filter_congr fun es _ => ?_
    cases es <;> rfl

theorem namedGroups_name {gs : List (List Predicate)} {ess : List (List (String × Condition))}
    (h : q.namedGroups R gs = .ok ess) {es : List (String × Condition)} (hes : es ∈ ess)
    {e : String × Condition} (he : e ∈ es) : ∃ g ∈ gs, ∃ pred ∈ g, pred.column.name = e.1 := by
  obtain ⟨all, hall, h⟩ := bind_eq_ok_iff.1 h
  cases h
  obtain ⟨g, hg, hnamed⟩ := exists_of_mem_mapM hall (List.mem_filter.1 hes).1
  obtain ⟨options, hoptions, hnamed⟩ := bind_eq_ok_iff.1 hnamed
  cases hnamed
  obtain ⟨option, hoption, hsome⟩ := List.mem_filterMap.1 he
  obtain ⟨pred, hpred, hcondition⟩ := exists_of_mem_mapM hoptions hoption
  obtain ⟨c, -, rfl⟩ := map_eq_ok_iff.1 hcondition
  obtain ⟨c, -, rfl⟩ := Option.map_eq_some_iff.1 hsome
  exact ⟨g, hg, pred, hpred, rfl⟩

/-- What a name in a policy stands for: a name without a dot for a column of the model's table, a
dotted name for a column of a table of the catalog. -/
inductive StandsFor (c : Catalog) (m : Model) : String → Table → String → Prop where
  | own {name : String} (hdot : splitDot? name = none) (hcolumn : m.table.hasColumn name = true)
      (hspoken : Scope.spoken name = name) : StandsFor c m name m.table name
  | dotted {name table column : String} {t : Table} (hdot : splitDot? name = some (table, column))
      (ht : c.table? table = some t) (hcolumn : t.hasColumn column = true) :
      StandsFor c m name t column

theorem StandsFor.column {name column : String} {t : Table}
    (h : StandsFor q.catalog q.model name t column) :
    ∃ type, t.columnType? column = some type ∧ ∀ b,
      q.column ⟨name, b⟩ = .ofTable t.name column type ∨ t = q.model.table ∧
        Scope.spoken column = column ∧ q.column ⟨name, b⟩ = .bare column type := by
  cases h with
  | own hdot hcolumn hspoken =>
    obtain ⟨type, htype⟩ := Option.isSome_iff_exists.1 hcolumn
    refine ⟨type, htype, fun b => ?_⟩
    unfold Query.column
    dsimp only
    rw [hdot]
    dsimp only
    rw [htype]
    cases b with
    | false => exact .inr ⟨rfl, hspoken, rfl⟩
    | true => exact .inl rfl
  | dotted hdot ht hcolumn =>
    obtain ⟨type, htype⟩ := Option.isSome_iff_exists.1 hcolumn
    have hname := List.find?_some ht
    rw [beq_iff_eq] at hname
    subst hname
    refine ⟨type, htype, fun b => .inl ?_⟩
    unfold Query.column
    dsimp only
    rw [hdot]
    dsimp only
    rw [ht, Option.bind_some, htype]

theorem StandsFor.target {name column : String} {t : Table}
    (h : StandsFor q.catalog q.model name t column) {b : Bool} {scope : Scope} {target : Target}
    (ht : t ∈ scope.tables) (hfound : scope.column (q.column ⟨name, b⟩) = .ok target) :
    ∃ type, t.columnType? column = some type ∧ target = .field t.name column type := by
  obtain ⟨type, htype, hcolumn⟩ := h.column
  have hfield := Scope.mem_fieldsOf htype
  refine ⟨type, htype, ?_⟩
  rcases hcolumn b with hcolumn | ⟨-, hspoken, hcolumn⟩
  · rw [hcolumn] at hfound
    exact Scope.eq_of_qualified hfound ht hfield
  · rw [hcolumn] at hfound
    refine Scope.eq_of_bare hfound ht ?_
    rw [hspoken]
    exact hfield

theorem converted_onColumn {col col' : Column} (h : col.type = col'.type) (c : Condition) :
    Bind.converted (c.onColumn col') =
      Condition.onColumn col' <$> Bind.converted (c.onColumn col) := by
  cases c with
  | compare op c v =>
    change (Bind.convert (col'.type.bindType v) v >>= fun w => .ok (.compare op col' w)) =
      Condition.onColumn col' <$>
        (Bind.convert (col.type.bindType v) v >>= fun w => .ok (.compare op col w))
    rw [h]
    cases Bind.convert (col'.type.bindType v) v <;> rfl
  | within c vs =>
    cases vs with
    | nil => rfl
    | cons v vs =>
      change ((v :: vs).mapM (Bind.convert (col'.type.bindType v)) >>=
          fun ws => .ok (.within col' ws)) =
        Condition.onColumn col' <$>
          ((v :: vs).mapM (Bind.convert (col.type.bindType v)) >>= fun ws => .ok (.within col ws))
      rw [h]
      cases (v :: vs).mapM (Bind.convert (col'.type.bindType v)) <;> rfl
  | _ => rfl

/-- How a column is written does not show in a test. -/
theorem testOf_onColumn {scope scope' : Scope} {col col' : Column} (htype : col.type = col'.type)
    {target : Target} (h : scope.column col = .ok target) (h' : scope'.column col' = .ok target)
    (c : Condition) : Statement.testOf scope (c.onColumn col) =
      Statement.testOf scope' (c.onColumn col') := by
  have htest (t : Target) (c : Condition) :
      Test.ofCondition t (c.onColumn col') = Test.ofCondition t c := by
    cases c <;> rfl
  unfold Statement.testOf
  rw [converted_onColumn htype]
  cases hd : Bind.converted (c.onColumn col) with
  | error e => rfl
  | ok d =>
    have hcolumn : d.column = col :=
      (Statement.converted_column hd).trans (Condition.column_onColumn col c)
    change (scope.column d.column >>= fun t => Test.ofCondition t d) =
      scope'.column (d.onColumn col').column >>= fun t => Test.ofCondition t (d.onColumn col')
    rw [hcolumn, h, Condition.column_onColumn, h', ok_bind, ok_bind, htest]

theorem tests_placed {scope scope' : Scope} {b b' : Bool} {ess : List (List (String × Condition))}
    (h : ∀ es ∈ ess, ∀ e ∈ es, ∃ target, scope.column (q.column ⟨e.1, b⟩) = .ok target ∧
      scope'.column (q.column ⟨e.1, b'⟩) = .ok target) :
    (ess.map (·.map (q.placed b))).mapM (·.mapM (Statement.testOf scope)) =
      (ess.map (·.map (q.placed b'))).mapM (·.mapM (Statement.testOf scope')) := by
  rw [List.mapM_map, List.mapM_map]
  refine mapM_congr fun es hes => ?_
  simp only [Function.comp_apply]
  rw [List.mapM_map, List.mapM_map]
  refine mapM_congr fun e he => ?_
  obtain ⟨target, htarget, htarget'⟩ := h es hes e he
  exact testOf_onColumn (column_type q e.1 b b') htarget htarget' e.2

variable {db : Database} {s s' : Statement} {b b' : Bool} {ess : List (List (String × Condition))}

theorem StandsFor.holds {name column : String} {t : Table}
    (h : StandsFor q.catalog q.model name t column) (hm : db.Holds q.model.table)
    (hdb : ∀ t ∈ q.catalog.tables, db.Holds t) : db.Holds t := by
  cases h with
  | own => exact hm
  | dotted _ ht _ => exact hdb _ (List.mem_of_find?_eq_some ht)

/-- A statement on a model with conditions that are placed on their columns. -/
structure IsPlaced (db : Database) (q : Query) (b : Bool) (ess : List (List (String × Condition)))
    (s : Statement) : Prop where
  base : s.base = q.model.table
  groups : s.groups = ess.map (·.map (q.placed b))
  unique : s.JoinsUniquely db

section Placed

variable (hs : q.IsPlaced db b ess s) {name column : String} {t : Table}
  (h : StandsFor q.catalog q.model name t column) (ht : db.Holds t) (hapart : s.KeepsApart db t)
include hs h ht hapart

theorem IsPlaced.table? :
    (q.column ⟨name, b⟩).table?.filter (!(s.base.name :: s.joins.map (·.table)).contains ·) =
      if t.name = q.model.table.name then none else some t.name := by
  obtain ⟨type, -, hcolumn⟩ := h.column
  rw [← hs.base]
  split_ifs with hname
  · have hknown : (!(s.base.name :: s.joins.map (·.table)).contains t.name) = false := by
      rw [hname]
      simp
    rcases hcolumn b with hcolumn | ⟨-, -, hcolumn⟩
    · rw [hcolumn]
      exact Option.filter_some_neg hknown
    · rw [hcolumn]
      rfl
  · have hother : t ≠ s.base := fun heq => hname (congrArg Table.name heq)
    have hunknown : (!(s.base.name :: s.joins.map (·.table)).contains t.name) = true := by
      rw [Bool.not_eq_true', List.contains_eq_mem, decide_eq_false_iff_not, List.mem_cons]
      rintro (heq | hmem)
      · exact hname heq
      · obtain ⟨j, hj, hjt⟩ := List.mem_map.1 hmem
        exact hapart.resolve_left hother j hj (hjt ▸ ht)
    rcases hcolumn b with hcolumn | ⟨heq, -, -⟩
    · rw [hcolumn]
      exact Option.filter_some_pos hunknown
    · exact absurd (heq.trans hs.base.symm) hother

omit h ht hapart in
theorem IsPlaced.extraTables : s.extraTables =
    (ess.flatten.filterMap fun e => (q.column ⟨e.1, b⟩).table?.filter
      (!(s.base.name :: s.joins.map (·.table)).contains ·)).eraseDups := by
  unfold Statement.extraTables
  rw [hs.groups, ← List.map_flatten, List.filterMap_map]
  dsimp only
  rw [List.filter_filterMap]
  simp only [Function.comp_apply, placed, Condition.column_onColumn]

variable {es : List (String × Condition)} (hes : es ∈ ess) {c : Condition} (hc : (name, c) ∈ es)
include hes hc

theorem IsPlaced.mem_extraTables (hother : t.name ≠ q.model.table.name) :
    t.name ∈ s.extraTables := by
  rw [hs.extraTables, List.mem_eraseDups, List.mem_filterMap]
  refine ⟨(name, c), List.mem_flatten.2 ⟨es, hes, hc⟩, ?_⟩
  rw [hs.table? h ht hapart, if_neg hother]

theorem IsPlaced.found (hm : db.Holds q.model.table) {base : Table} {joined extra : List Table}
    {joins : List FoundJoin} {tests : List (List Test)}
    (hreads : s.ReadsFrom db base joined extra joins)
    (htests : s.groups.mapM (·.mapM (Statement.testOf (s.scope (base :: joined ++ extra)))) =
      .ok tests) :
    ∃ type, t.columnType? column = some type ∧
      (s.scope (base :: joined ++ extra)).column (q.column ⟨name, b⟩) =
        .ok (.field t.name column type) ∧
      Statement.StandsApart s.base.name joins (.field t.name column type) := by
  have hgroup : es.map (q.placed b) ∈ s.groups := hs.groups ▸ List.mem_map_of_mem hes
  obtain ⟨ts, -, hts⟩ := exists_ok_of_mapM htests hgroup
  obtain ⟨test, -, htest⟩ := exists_ok_of_mapM hts (List.mem_map_of_mem hc)
  have htarget := Statement.testOf_target htest
  rw [placed, Condition.column_onColumn] at htarget
  have hread : t ∈ base :: joined ++ extra := by
    by_cases hname : t.name = q.model.table.name
    · have hsame : Scope.sameName t.name q.model.table.name = true :=
        beq_iff_eq.2 (congrArg _ hname)
      have hbase : base = q.model.table :=
        Except.ok.inj ((hs.base ▸ hreads.base_found.symm).trans hm)
      rw [Scope.table_unique ht hm hsame, ← hbase]
      exact List.mem_cons_self
    · exact List.mem_append_right _
        (mem_of_mapM hreads.extra_found (hs.mem_extraTables h ht hapart hes hc hname) ht)
  obtain ⟨type, htype, hfield⟩ := h.target hread htarget
  rw [hfield] at htarget
  exact ⟨type, htype, htarget, _, _, _, rfl, hreads.apart ht hapart⟩

end Placed

/-- Conditions that stand apart from what a statement joins select rows as if it were not there. -/
theorem IsPlaced.matched (hs : q.IsPlaced db b ess s) (hm : db.Holds q.model.table)
    (hdb : ∀ t ∈ q.catalog.tables, db.Holds t)
    (hapart : ∀ es ∈ ess, ∀ e ∈ es, ∃ t column, StandsFor q.catalog q.model e.1 t column ∧
      s.KeepsApart db t) {rows : List Row} (h : s.matched db = .ok rows) :
    ∃ base joined extra joins tests, s.ReadsFrom db base joined extra joins ∧
      s.groups.mapM (·.mapM (Statement.testOf (s.scope (base :: joined ++ extra)))) = .ok tests ∧
      rows = Statement.selectedBeside db q.model.table.name (extra.map (·.name)) tests := by
  obtain ⟨base, joined, extra, joins, tests, hreads, htests, -, rfl⟩ :=
    Statement.matched_eq_ok_iff.1 h
  refine ⟨base, joined, extra, joins, tests, hreads, htests, ?_⟩
  have hall : ∀ g ∈ tests, ∀ test ∈ g, Statement.StandsApart s.base.name joins test.target := by
    intro g hg test htest
    obtain ⟨cs, hcs, hgroup⟩ := exists_of_mem_mapM htests hg
    obtain ⟨c, hc, hone⟩ := exists_of_mem_mapM hgroup htest
    rw [hs.groups] at hcs
    obtain ⟨es, hes, rfl⟩ := List.mem_map.1 hcs
    obtain ⟨e, he, rfl⟩ := List.mem_map.1 hc
    obtain ⟨t, column, hname, ht⟩ := hapart es hes e he
    obtain ⟨type, -, hfound, hstands⟩ :=
      hs.found hname (hname.holds hm hdb) ht hes he hm hreads htests
    have htarget := Statement.testOf_target hone
    rw [placed, Condition.column_onColumn, hfound] at htarget
    rw [← Except.ok.inj htarget]
    exact hstands
  rw [Statement.selected_apart (hreads.joinsOnce (hs.base ▸ hm) hs.unique) hall, hs.base]

/-- Statements whose conditions stand apart from what they join match the same rows. -/
theorem matched_apart (hs : q.IsPlaced db b ess s) (hs' : q.IsPlaced db b' ess s')
    (hm : db.Holds q.model.table) (hdb : ∀ t ∈ q.catalog.tables, db.Holds t)
    (hapart : ∀ es ∈ ess, ∀ e ∈ es, ∃ t column, StandsFor q.catalog q.model e.1 t column ∧
      s.KeepsApart db t ∧ s'.KeepsApart db t)
    {rows rows' : List Row} (h : s.matched db = .ok rows) (h' : s'.matched db = .ok rows') :
    rows = rows' := by
  obtain ⟨base, joined, extra, joins, tests, hreads, htests, rfl⟩ :=
    hs.matched hm hdb (fun es hes e he => by
      obtain ⟨t, column, hname, ht, -⟩ := hapart es hes e he
      exact ⟨t, column, hname, ht⟩) h
  obtain ⟨base', joined', extra', joins', tests', hreads', htests', rfl⟩ :=
    hs'.matched hm hdb (fun es hes e he => by
      obtain ⟨t, column, hname, -, ht'⟩ := hapart es hes e he
      exact ⟨t, column, hname, ht'⟩) h'
  have hextra : s.extraTables = s'.extraTables := by
    rw [hs.extraTables, hs'.extraTables]
    congr 1
    refine List.filterMap_congr fun e he => ?_
    obtain ⟨es, hes, hmem⟩ := List.mem_flatten.1 he
    obtain ⟨t, column, hname, ht, ht'⟩ := hapart es hes e hmem
    have hholds := hname.holds hm hdb
    rw [hs.table? hname hholds ht, hs'.table? hname hholds ht']
  obtain rfl : extra = extra' := by
    have hfound := hreads.extra_found
    rw [hextra, hreads'.extra_found] at hfound
    exact (Except.ok.inj hfound).symm
  have htargets : ∀ es ∈ ess, ∀ e ∈ es, ∃ target,
      (s.scope (base :: joined ++ extra)).column (q.column ⟨e.1, b⟩) = .ok target ∧
      (s'.scope (base' :: joined' ++ extra)).column (q.column ⟨e.1, b'⟩) = .ok target := by
    intro es hes e he
    obtain ⟨t, column, hname, ht, ht'⟩ := hapart es hes e he
    have hholds := hname.holds hm hdb
    obtain ⟨type, htype, hfound, -⟩ := hs.found hname hholds ht hes he hm hreads htests
    obtain ⟨type', htype', hfound', -⟩ := hs'.found hname hholds ht' hes he hm hreads' htests'
    obtain rfl := Option.some.inj (htype.symm.trans htype')
    exact ⟨_, hfound, hfound'⟩
  rw [hs.groups, tests_placed htargets, ← hs'.groups, htests'] at htests
  rw [Except.ok.inj htests]

end Query
end Listing
