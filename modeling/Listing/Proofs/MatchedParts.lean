import Listing.Proofs.Restrictions
import Listing.Proofs.Sql.Conjunctions
import Listing.Proofs.Sql.Scopes
import Listing.Sample.Heroes

set_option autoImplicit false

namespace Listing

open Outcome Sql

namespace ListRequest

variable (r : ListRequest)

def onlySearch : ListRequest := { r with columnSearch := [], filters := [] }

def onlyColumnSearch (e : String × String) : ListRequest :=
  { r with search := "", columnSearch := [e], filters := [] }

def onlyFilter (f : String × Value) : ListRequest :=
  { r with search := "", columnSearch := [], filters := [f] }

/-- The terms of a filter as filters: each operator with its operand alone. A plain value and a list
are one term. -/
def singleFilters : String × Value → List (String × Value)
  | (field, .map entries) => entries.map fun e => (field, .map [e])
  | f => [f]

def parts : List ListRequest :=
  r.onlySearch :: (r.columnSearch.map r.onlyColumnSearch ++
    (r.filters.flatMap singleFilters).map r.onlyFilter)

variable {r}

theorem parts_sort {part : ListRequest} (h : part ∈ r.parts) (p : Policy) :
    Plan.preliminaries p part = Plan.preliminaries p r ∧
      Plan.isJoined p part = Plan.isJoined p r := by
  rcases List.mem_cons.1 h with rfl | h
  · exact ⟨rfl, rfl⟩
  · rcases List.mem_append.1 h with h | h
    · obtain ⟨e, -, rfl⟩ := List.mem_map.1 h
      exact ⟨rfl, rfl⟩
    · obtain ⟨f, -, rfl⟩ := List.mem_map.1 h
      exact ⟨rfl, rfl⟩

end ListRequest

namespace Plan

variable (knows : Value → Bool) (p : Policy) (r : ListRequest)

theorem predicates_onlySearch :
    predicates knows p r.onlySearch = (searchCalls p r).flatMap Call.groups := by
  rw [predicates_eq]
  exact (List.append_nil _).trans (List.append_nil _)

theorem predicates_onlyColumnSearch (e : String × String) :
    predicates knows p (r.onlyColumnSearch e) = columnGroups p r e := by
  rw [predicates_eq]
  exact (List.append_nil _).trans (List.append_nil _)

theorem predicates_onlyFilter (f : String × Value) :
    predicates knows p (r.onlyFilter f) = filterGroups knows p r f := by
  rw [predicates_eq]
  exact List.append_nil _

theorem filterGroups_cons (field : String) (e : Value × Value) (entries : List (Value × Value)) :
    filterGroups knows p r (field, .map (e :: entries)) =
      filterGroups knows p r (field, .map [e]) ++ filterGroups knows p r (field, .map entries) := by
  unfold filterGroups comparisons
  cases Policy.columnOf? p.filterableFields field with
  | none => rfl
  | some name =>
    have hterms : terms (.map (e :: entries)) = terms (.map [e]) ++ terms (.map entries) := by
      simp only [terms]
      rw [← List.filterMap_append]
      rfl
    dsimp only
    rw [hterms, List.map_append, List.filter_append, List.map_append]

theorem filterGroups_single (f : String × Value) : filterGroups knows p r f =
    (ListRequest.singleFilters f).flatMap (filterGroups knows p r) := by
  obtain ⟨field, v⟩ := f
  cases v with
  | map entries =>
    change _ = (entries.map fun e => (field, Value.map [e])).flatMap (filterGroups knows p r)
    induction entries with
    | nil =>
      unfold filterGroups comparisons
      cases Policy.columnOf? p.filterableFields field <;> rfl
    | cons e entries ih => rw [filterGroups_cons, ih, List.map_cons, List.flatMap_cons]
  | _ => exact (List.append_nil _).symm

theorem predicates_parts : predicates knows p r = r.parts.flatMap (predicates knows p) := by
  have hcolumns : (r.columnSearch.map r.onlyColumnSearch).flatMap (predicates knows p) =
      r.columnSearch.flatMap (columnGroups p r) := by
    rw [List.flatMap_map]
    exact List.flatMap_congr fun e _ => predicates_onlyColumnSearch knows p r e
  have hfilters : ((r.filters.flatMap ListRequest.singleFilters).map r.onlyFilter).flatMap
      (predicates knows p) = r.filters.flatMap (filterGroups knows p r) := by
    rw [List.flatMap_map, List.flatMap_assoc]
    refine List.flatMap_congr fun f _ => ?_
    rw [filterGroups_single]
    exact List.flatMap_congr fun f' _ => predicates_onlyFilter knows p r f'
  unfold ListRequest.parts
  rw [List.flatMap_cons, List.flatMap_append, hcolumns, hfilters, predicates_onlySearch,
    predicates_eq, List.append_assoc]

end Plan

/-- A name without a dot that is a column of a table. -/
def Table.Owns (t : Table) (name : String) : Prop := '.' ∉ name.toList ∧ t.hasColumn name = true

namespace Query

variable {db : Database} {q : Query}

theorem column_owned {name : String} (h : q.model.table.Owns name) (b : Bool) :
    ∃ type, q.model.table.columnType? name = some type ∧ q.column ⟨name, b⟩ =
      if b then .ofTable q.model.table.name name type else .bare name type := by
  obtain ⟨type, htype⟩ := Option.isSome_iff_exists.1 h.2
  have hsplit : splitDot? name = none := if_neg fun hdot => h.1 (List.contains_iff_mem.1 hdot)
  refine ⟨type, htype, ?_⟩
  unfold column
  dsimp only
  rw [hsplit]
  dsimp only
  rw [htype]
  cases b <;> rfl

/-- A condition on such a column is told by the row of the base table. -/
theorem isOwn_of_owned (hbase : q.statement.base = q.model.table) (hdb : db.Holds q.model.table)
    {joined : Bool} (hjoins : joined = false → q.statement.joins = []) {name : String}
    (hname : q.model.table.Owns name) {c : Condition} (hc : c.column = q.column ⟨name, joined⟩) :
    q.statement.IsOwn db c := by
  obtain ⟨type, htype, hcolumn⟩ := column_owned hname joined
  rw [hcolumn] at hc
  constructor
  · rw [hc, hbase]
    cases joined with
    | false => exact nofun
    | true => exact fun t ht => (Option.some.inj ht).symm
  · intro base joinedTables joins hreads target htarget
    rw [hc] at htarget
    intro b hb b' hb' hrow
    cases joined with
    | false =>
      -- Nothing is joined, so a binding is nothing but its base row.
      have hnone : joins = [] := by
        have hfound := hreads.joins_found
        unfold Statement.foundJoins at hfound
        dsimp only at hfound
        rw [hjoins rfl] at hfound
        exact (Except.ok.inj hfound).symm
      subst hnone
      obtain ⟨row, -, rfl⟩ := List.mem_map.1 hb
      obtain ⟨row', -, rfl⟩ := List.mem_map.1 hb'
      rw [Statement.row_cons, Statement.row_cons] at hrow
      rw [hrow]
    | true =>
      have hfound : Scope.table db q.statement.base.name = .ok base := hreads.base_found
      rw [hbase] at hfound hrow
      obtain rfl := Except.ok.inj (hfound.symm.trans hdb)
      obtain rfl := Scope.eq_of_qualified htarget List.mem_cons_self (Scope.mem_fieldsOf htype)
      exact Statement.fieldCell_row hrow name type

end Query

namespace Plan

variable {R : Registry} {db : Database} {c : Catalog} {m : Model} {p : Policy} {r : ListRequest}

def matchedBy (R : Registry) (db : Database) (c : Catalog) (m : Model) (p : Policy)
    (r : ListRequest) : Outcome (List Row) := do
  (← build (Query.receiver R) none p r (Query.ofModel c m)).statement.matched db

theorem listed_perm_matched {q : Query}
    (hq : build (Query.receiver R) none p r (Query.ofModel c m) = .ok q) {counted : Bool}
    {rs : List Result} {n : Nat} (h : q.statement.page db counted (-1) 0 = .ok (rs, n))
    (hc : q.statement.collapses = false) : ∃ rows, matchedBy R db c m p r = .ok rows ∧
      n = rows.length ∧ (rs.map (·.row)).Perm (rows.map some) := by
  unfold matchedBy
  rw [hq]
  exact Statement.matched_of_page h hc

theorem matchedBy_eq_ok_iff {rows : List Row} : matchedBy R db c m p r = .ok rows ↔ ∃ q gs,
    carryOut (Query.receiver R) (preliminaries p r) (Query.ofModel c m) = .ok q ∧
    q.groupsOf R (predicates (Query.receiver R).knows p r) = .ok gs ∧
    Statement.matched db { q.statement with groups := gs } = .ok rows := by
  have hstatement {q q' : Query} {gs : List (List Condition)}
      (hq : carryOut (Query.receiver R) (preliminaries p r) (Query.ofModel c m) = .ok q)
      (hq' : carryOut (Query.receiver R) (orderCalls p r) (q.restrict gs) = .ok q') :
      q'.statement.matched db = Statement.matched db { q.statement with groups := gs } := by
    have hnone : q.statement.groups = [] :=
      Query.carryOut_groups (fun _ => preliminaries_not_select) hq
    obtain ⟨orders, horders⟩ := carryOut_orderCalls R p r (q.restrict gs)
    obtain rfl := Except.ok.inj (horders.symm.trans hq')
    unfold Query.restrict
    rw [hnone]
    rfl
  unfold matchedBy
  constructor
  · intro h
    obtain ⟨q', hq', h⟩ := bind_eq_ok_iff.1 h
    obtain ⟨q, gs, hq, hgs, horders⟩ := build_eq_ok_iff.1 hq'
    exact ⟨q, gs, hq, hgs, hstatement hq horders ▸ h⟩
  · rintro ⟨q, gs, hq, hgs, h⟩
    obtain ⟨orders, horders⟩ := carryOut_orderCalls R p r (q.restrict gs)
    refine bind_eq_ok_iff.2 ⟨_, build_eq_ok_iff.2 ⟨q, gs, hq, hgs, horders⟩, ?_⟩
    rw [hstatement hq horders]
    exact h

theorem mem_matched_dropped {rows : List Row} (h : matchedBy R db c m p r = .ok rows)
    (hnone : predicates (Query.receiver R).knows p r = []) (row : Row) :
    row ∈ rows ↔ row ∈ db.rows m.table.name := by
  obtain ⟨q, gs, hq, hgs, hrows⟩ := matchedBy_eq_ok_iff.1 h
  rw [hnone] at hgs
  obtain rfl := Except.ok.inj hgs
  have hbase : q.statement.base = m.table := congrArg (·.2.2) (Query.carryOut_model hq)
  rw [← hbase]
  exact Statement.mem_matched_nil hrows row

theorem mem_matched_unsearched {rows : List Row} {fieldRows : String → List Row}
    (hsearch : r.search.isEmpty = true) (hne : p.searchFields ≠ [])
    (h : matchedBy R db c m p r.onlySearch = .ok rows)
    (hfields : ∀ name ∈ p.searchFields,
      matchedBy R db c m { p with searchFields := [name] } r.onlySearch = .ok (fieldRows name))
    (row : Row) : row ∈ rows ↔ ∃ name ∈ p.searchFields, row ∈ fieldRows name := by
  have hnone (fields : List String) : predicates (Query.receiver R).knows
      { p with searchFields := fields } r.onlySearch = [] := by
    rw [predicates_onlySearch, searchCalls_groups, hsearch]
    rfl
  have hall (name : String) (hname : name ∈ p.searchFields) :=
    mem_matched_dropped (hfields name hname) (hnone [name]) row
  rw [mem_matched_dropped h (hnone p.searchFields)]
  constructor
  · intro hrow
    obtain ⟨name, hname⟩ := List.exists_mem_of_ne_nil _ hne
    exact ⟨name, hname, (hall name hname).2 hrow⟩
  · rintro ⟨name, hname, hrow⟩
    exact (hall name hname).1 hrow

section Parts

variable (hR : R.IsPlain) (hdb : db.Holds m.table)
  (hp : ∀ name ∈ p.selectingColumns, m.table.Owns name)
include hR hdb hp

theorem areOwn_of_owned {q : Query}
    (hq : carryOut (Query.receiver R) (preliminaries p r) (Query.ofModel c m) = .ok q)
    {gs : List (List Condition)}
    (hgs : q.groupsOf R (predicates (Query.receiver R).knows p r) = .ok gs) :
    q.statement.AreOwn db gs := by
  have hsame := Query.carryOut_model hq
  have hmodel : q.model = m := congrArg (·.2.1) hsame
  have hbase : q.statement.base = q.model.table := by
    rw [hmodel]
    exact congrArg (·.2.2) hsame
  intro g hg condition hcondition
  obtain ⟨ps, hps, pred, hpred, hcolumn⟩ := Query.groupsOf_column hR hgs hg hcondition
  obtain ⟨name, hname, hpredicate⟩ := predicates_column hps hpred
  rw [hpredicate] at hcolumn
  exact Query.isOwn_of_owned hbase (hmodel ▸ hdb) (fun hjoined => preliminaries_joins hjoined hq)
    (hmodel ▸ hp name hname) hcolumn

theorem mem_matched_whole {rowsOf : ListRequest → List Row}
    (hparts : ∀ part ∈ r.parts, matchedBy R db c m p part = .ok (rowsOf part)) :
    ∃ rows, matchedBy R db c m p r = .ok rows ∧
      ∀ row, row ∈ rows ↔ ∀ part ∈ r.parts, row ∈ rowsOf part := by
  obtain ⟨q, -, hq, -, -⟩ := matchedBy_eq_ok_iff.1 (hparts r.onlySearch List.mem_cons_self)
  have hgroups : ∀ part, ∃ gs, part ∈ r.parts →
      carryOut (Query.receiver R) (preliminaries p part) (Query.ofModel c m) = .ok q ∧
      q.groupsOf R (predicates (Query.receiver R).knows p part) = .ok gs ∧
      Statement.matched db { q.statement with groups := gs } = .ok (rowsOf part) := by
    intro part
    by_cases hpart : part ∈ r.parts
    · obtain ⟨q', gs, hq', hrest⟩ := matchedBy_eq_ok_iff.1 (hparts part hpart)
      have hq'' := hq'
      rw [(ListRequest.parts_sort hpart p).1] at hq''
      obtain rfl : q = q' := Except.ok.inj (hq.symm.trans hq'')
      exact ⟨gs, fun _ => ⟨hq', hrest⟩⟩
    · exact ⟨[], fun hpart' => absurd hpart' hpart⟩
  choose groups hgroups using hgroups
  obtain ⟨rows, hrows, hmem⟩ := Statement.matched_flatMap (List.cons_ne_nil _ _)
    (fun part hpart => areOwn_of_owned hR hdb hp (hgroups part hpart).1 (hgroups part hpart).2.1)
    (fun part hpart => (hgroups part hpart).2.2)
  refine ⟨rows, matchedBy_eq_ok_iff.2 ⟨q, r.parts.flatMap groups, hq, ?_, hrows⟩, hmem⟩
  rw [predicates_parts]
  exact Query.groupsOf_flatMap fun part hpart => (hgroups part hpart).2.1

theorem mem_matched_search {rows : List Row} {fieldRows : String → List Row}
    (hne : p.searchFields ≠ []) (h : matchedBy R db c m p r.onlySearch = .ok rows)
    (hfields : ∀ name ∈ p.searchFields,
      matchedBy R db c m { p with searchFields := [name] } r.onlySearch = .ok (fieldRows name))
    (row : Row) : row ∈ rows ↔ ∃ name ∈ p.searchFields, row ∈ fieldRows name := by
  cases hsearch : r.search.isEmpty with
  | true => exact mem_matched_unsearched hsearch hne h hfields row
  | false =>
    obtain ⟨q, gs, hq, hgs, hrows⟩ := matchedBy_eq_ok_iff.1 h
    let alternative (name : String) : Condition := .contains (q.column ⟨name, isJoined p r⟩)
      (p.isNumeric [name]) (Condition.patternOf r.search)
    have hgroups (fields : List String) (hsome : fields ≠ []) :
        q.groupsOf R (predicates (Query.receiver R).knows { p with searchFields := fields }
          r.onlySearch) = .ok [fields.map alternative] := by
      rw [predicates_onlySearch, searchCalls_groups, hsearch, Bool.false_or,
        if_neg fun hempty => hsome (List.isEmpty_iff.1 hempty)]
      exact Query.groupsOf_alternatives (fun _ => rfl) hsome
    have hown := areOwn_of_owned hR hdb hp hq hgs
    rw [hgroups _ hne] at hgs
    obtain rfl := Except.ok.inj hgs
    refine Statement.mem_matched_alternatives hown hrows (fun name hname => ?_) row
    obtain ⟨q', gs', hq', hgs', hrows'⟩ := matchedBy_eq_ok_iff.1 (hfields name hname)
    obtain rfl : q = q' := Except.ok.inj (hq.symm.trans hq')
    rw [hgroups [name] (List.cons_ne_nil _ _)] at hgs'
    obtain rfl := Except.ok.inj hgs'
    exact hrows'

end Parts

/-- Where rows are selected by columns of the base table only, a request matches the rows that its
search, each of its column searches and each term of its filters match by themselves. Its search
matches the rows that it matches in one of the fields, and what is dropped matches all rows. Any
request lists and counts the rows that it matches, unless they become one. -/
theorem rows_matched_by_parts {R : Registry} (hR : R.IsPlain) {db : Database} {c : Catalog}
    {m : Model} (hdb : db.Holds m.table) {p : Policy}
    (hp : ∀ name ∈ p.selectingColumns, m.table.Owns name) {r : ListRequest}
    {rowsOf : ListRequest → List Row}
    (hparts : ∀ part ∈ r.parts, matchedBy R db c m p part = .ok (rowsOf part)) :
    (∃ rows, matchedBy R db c m p r = .ok rows ∧
      ∀ row, row ∈ rows ↔ ∀ part ∈ r.parts, row ∈ rowsOf part) ∧
    (∀ fieldRows : String → List Row, p.searchFields ≠ [] →
      (∀ name ∈ p.searchFields,
        matchedBy R db c m { p with searchFields := [name] } r.onlySearch =
          .ok (fieldRows name)) →
      ∀ row, row ∈ rowsOf r.onlySearch ↔ ∃ name ∈ p.searchFields, row ∈ fieldRows name) ∧
    (∀ part ∈ r.parts, restrictions (Query.receiver R).knows p part = [] →
      ∀ row, row ∈ rowsOf part ↔ row ∈ db.rows m.table.name) ∧
    ∀ (r' : ListRequest) (q : Query),
      build (Query.receiver R) none p r' (Query.ofModel c m) = .ok q →
      q.statement.collapses = false → ∀ (counted : Bool) (rs : List Result) (n : Nat),
        q.statement.page db counted (-1) 0 = .ok (rs, n) →
        ∃ rows, matchedBy R db c m p r' = .ok rows ∧ n = rows.length ∧
          (rs.map (·.row)).Perm (rows.map some) := by
  refine ⟨mem_matched_whole hR hdb hp hparts, fun fieldRows hne hfields => ?_, ?_,
    fun r' q hq hone counted rs n hpage => listed_perm_matched hq hpage hone⟩
  · exact mem_matched_search hR hdb hp hne (hparts r.onlySearch List.mem_cons_self) hfields
  · intro part hpart hnone
    refine mem_matched_dropped (hparts part hpart) ?_
    unfold predicates
    rw [hnone]
    rfl

def threeHeroes : Database :=
  { tables := [
      (Sample.Heroes.heroes, [
        [("id", .int 1), ("name", .text "Deadpond"), ("secret_name", .text "Dive Wilson"),
          ("age", .int 28)],
        [("id", .int 2), ("name", .text "Rusty-Man"), ("secret_name", .text "Tommy Sharp"),
          ("age", .int 48), ("team_id", .int 1)],
        [("id", .int 4), ("name", .text "ALPHA"), ("secret_name", .text "Alpha Secret"),
          ("age", .int 10), ("team_id", .int 1)]]),
      (Sample.Heroes.teams, [
        [("id", .int 1), ("name", .text "Avengers"), ("city", .text "New York")]]),
      (Sample.Heroes.ratings, []), (Sample.Heroes.tags, []), (Sample.Heroes.heroTags, [])] }

def rosterPolicy : Policy :=
  { searchFields := ["name", "secret_name"]
    columnFields := [("name", "name")]
    sortableFields := [("age", "age"), ("team", "teams.name")]
    filterableFields := [("age", "age")]
    relationJoins := [("team", ⟨"team", "team_id", "teams", "id"⟩)] }

def adultHeroes : ListRequest :=
  { search := "a"
    columnSearch := [("name", "r")]
    sortBy := "team"
    filters := [("age", .map [(.text "gte", .text "20"), (.text "lt", .text "50")])] }

def heroModel : Model := (Sample.Heroes.catalog.model? "Hero").get (by decide)

def heroesMatched (r : ListRequest) : Outcome (List Row) :=
  matchedBy .builtin threeHeroes Sample.Heroes.catalog heroModel rosterPolicy r

/-- While teams are joined, one hero is matched by the search, the column search and both terms. -/
theorem rows_matched_by_parts_adults :
    (∀ part ∈ adultHeroes.parts,
      heroesMatched part = .ok ((heroesMatched part).toOption.getD [])) ∧
    (∃ rows, heroesMatched adultHeroes = .ok rows ∧ ∀ row,
      row ∈ rows ↔ ∀ part ∈ adultHeroes.parts, row ∈ (heroesMatched part).toOption.getD []) ∧
    ((heroesMatched adultHeroes).toOption.getD []).map (·.cell "id") = [.int 2] := by
  have hok : ∀ part ∈ adultHeroes.parts, (heroesMatched part).isOk = true := by decide +kernel
  have hparts : ∀ part ∈ adultHeroes.parts,
      heroesMatched part = .ok ((heroesMatched part).toOption.getD []) := by
    intro part hpart
    obtain ⟨rows, hrows⟩ := exists_ok_of_isOk (hok part hpart)
    rw [hrows]
    rfl
  have howned : ∀ name ∈ rosterPolicy.selectingColumns, heroModel.table.Owns name := by
    have hall : ∀ name ∈ rosterPolicy.selectingColumns,
        '.' ∉ name.toList ∧ heroModel.table.hasColumn name = true := by
      decide +kernel
    exact hall
  have hdb : threeHeroes.Holds heroModel.table := by
    unfold Database.Holds
    rfl
  exact ⟨hparts, (rows_matched_by_parts Registry.builtin_isPlain hdb howned hparts).1,
    by decide +kernel⟩

end Plan
end Listing
