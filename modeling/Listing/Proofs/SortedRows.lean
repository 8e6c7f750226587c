import Listing.Proofs.MatchedParts
import Listing.Proofs.PageSources
import Listing.Proofs.PlacedConditions

set_option autoImplicit false

namespace Listing

open Outcome Sql

def ListRequest.sorted (r : ListRequest) (key : String) (order : SortOrder) : ListRequest :=
  { r with sortBy := key, sortOrder := order }

def RelationJoin.join (j : RelationJoin) : Join := ⟨j.table, j.foreignKey, j.relatedKey⟩

namespace Plan

variable {knows : Value → Bool} {p : Policy} {r : ListRequest}

theorem comparisons_sorted (key : String) (order : SortOrder) (f : String × Value) :
    comparisons p (r.sorted key order) f =
      (comparisons p r f).map (Predicate.qualify (isJoined p (r.sorted key order))) := by
  unfold comparisons
  cases Policy.columnOf? p.filterableFields f.1 with
  | none => rfl
  | some name =>
    rw [List.map_map]
    rfl

theorem filterGroups_sorted (key : String) (order : SortOrder) (f : String × Value) :
    filterGroups knows p (r.sorted key order) f = (filterGroups knows p r f).map
      (·.map (Predicate.qualify (isJoined p (r.sorted key order)))) := by
  have hknown (b : Bool) : isKnown knows ∘ Predicate.qualify b = isKnown knows := by
    funext pred
    cases pred <;> rfl
  unfold filterGroups
  rw [comparisons_sorted, List.filter_map, hknown, List.map_map, List.map_map]
  rfl

theorem columnGroups_sorted (key : String) (order : SortOrder) (e : String × String) :
    columnGroups p (r.sorted key order) e = (columnGroups p r e).map
      (·.map (Predicate.qualify (isJoined p (r.sorted key order)))) := by
  unfold columnGroups
  cases Policy.columnOf? p.columnFields e.1 with
  | none => rfl
  | some name =>
    dsimp only
    split_ifs <;> rfl

/-- Another sort key asks for the same, but for how columns are qualified. -/
theorem predicates_sorted (key : String) (order : SortOrder) :
    predicates knows p (r.sorted key order) = (predicates knows p r).map
      (·.map (Predicate.qualify (isJoined p (r.sorted key order)))) := by
  have hsearch : (searchCalls p (r.sorted key order)).flatMap Call.groups =
      ((searchCalls p r).flatMap Call.groups).map
        (·.map (Predicate.qualify (isJoined p (r.sorted key order)))) := by
    have hterm : (r.sorted key order).search = r.search := rfl
    rw [searchCalls_groups, searchCalls_groups, hterm]
    split_ifs
    · rfl
    · rw [List.map_singleton, List.map_map]
      rfl
  have hcolumns : r.columnSearch.flatMap (columnGroups p (r.sorted key order)) =
      (r.columnSearch.flatMap (columnGroups p r)).map
        (·.map (Predicate.qualify (isJoined p (r.sorted key order)))) := by
    rw [List.map_flatMap]
    exact List.flatMap_congr fun e _ => columnGroups_sorted key order e
  have hfilters : r.filters.flatMap (filterGroups knows p (r.sorted key order)) =
      (r.filters.flatMap (filterGroups knows p r)).map
        (·.map (Predicate.qualify (isJoined p (r.sorted key order)))) := by
    rw [List.map_flatMap]
    exact List.flatMap_congr fun f _ => filterGroups_sorted key order f
  rw [predicates_eq, predicates_eq, List.map_append, List.map_append, hsearch, ← hcolumns,
    ← hfilters]
  rfl

theorem predicates_qualified : predicates knows p r =
    (predicates knows p r).map (·.map (Predicate.qualify (isJoined p r))) :=
  predicates_sorted r.sortBy r.sortOrder

end Plan

namespace Query

variable {R : Registry} {q : Query}

def joining (q : Query) (js : List Join) : Query := { q with statement.joins := js }

theorem step_joining {call : Call} (hcall : call.Attaches) (js : List Join) :
    (q.joining js).step R call = (joining · js) <$> q.step R call := by
  have hshares : (q.joining js).SharesModel q := ⟨rfl, rfl⟩
  rw [step_eq, step_eq, changeOf_congr hshares]
  cases call with
  | withAggregate kind relation column =>
    change (q.joining js).apply <$> (Change.aggregate <$> q.aggregateOf kind relation column) =
      (joining · js) <$> (q.apply <$> (Change.aggregate <$> q.aggregateOf kind relation column))
    cases q.aggregateOf kind relation column <;> rfl
  | withRelations paths => rfl
  | _ => exact hcall.elim

theorem carryOut_joining {calls : List Call} (hcalls : ∀ call ∈ calls, call.Attaches)
    (js : List Join) : Plan.carryOut (receiver R) calls (q.joining js) =
      (joining · js) <$> Plan.carryOut (receiver R) calls q := by
  induction calls generalizing q with
  | nil => rfl
  | cons call calls ih =>
    have hstep : (receiver R).step (q.joining js) call =
        (joining · js) <$> (receiver R).step q call :=
      step_joining (hcalls call List.mem_cons_self) js
    unfold Plan.carryOut at ih ⊢
    rw [List.foldlM_cons, List.foldlM_cons, hstep]
    cases (receiver R).step q call with
    | error e => rfl
    | ok q₁ => exact ih fun call' hcall' => hcalls call' (List.mem_cons_of_mem _ hcall')

end Query

namespace Plan

variable {R : Registry} {p : Policy} {r : ListRequest} {c : Catalog} {m : Model}

def joins (p : Policy) (r : ListRequest) : List Join := (join? p r).toList.map RelationJoin.join

theorem carryOut_joinCalls {q : Query}
    (h : carryOut (Query.receiver R) (joinCalls p r) (Query.ofModel c m) = .ok q) :
    q = (Query.ofModel c m).joining (joins p r) := by
  unfold joinCalls at h
  unfold joins
  cases hj : join? p r with
  | none =>
    rw [hj] at h
    cases h
    rfl
  | some j =>
    rw [hj] at h
    obtain ⟨q₁, hjoin, hselect⟩ := bind_eq_ok_iff.1 h
    have hleft : (Query.ofModel c m).leftJoin j.table j.foreignKey j.relatedKey = .ok q₁ := hjoin
    cases hselect
    unfold Query.leftJoin at hleft
    split_ifs at hleft
    cases hleft
    rfl

/-- A query is built from what is attached to the model, the join of its sort key, the conditions of
its predicates, and orders. -/
theorem exists_parts {q : Query}
    (h : build (Query.receiver R) none p r (Query.ofModel c m) = .ok q) : ∃ q₀ gs orders,
      carryOut (Query.receiver R) (attachments p r) (Query.ofModel c m) = .ok q₀ ∧
      q₀.groupsOf R (predicates (Query.receiver R).knows p r) = .ok gs ∧
      q = { q₀ with statement :=
        { q₀.statement with joins := joins p r, groups := gs, orders := orders } } := by
  obtain ⟨q₁, gs, hq₁, hgs, h⟩ := build_eq_ok_iff.1 h
  have hnone : q₁.statement.groups = [] :=
    Query.carryOut_groups (fun _ => preliminaries_not_select) hq₁
  obtain ⟨orders, horders⟩ := carryOut_orderCalls R p r (q₁.restrict gs)
  obtain rfl := Except.ok.inj (horders.symm.trans h)
  unfold preliminaries at hq₁
  rw [carryOut_append] at hq₁
  obtain ⟨q₂, hjoins, hq₁⟩ := bind_eq_ok_iff.1 hq₁
  rw [carryOut_joinCalls hjoins, Query.carryOut_joining fun _ => attachments_attach] at hq₁
  obtain ⟨q₀, hq₀, rfl⟩ := map_eq_ok_iff.1 hq₁
  refine ⟨q₀, gs, orders, hq₀, ?_, ?_⟩
  · rw [← hgs]
    exact congrFun (Query.groupsOf_congr ⟨rfl, rfl⟩) _
  · have hgroups : q₀.statement.groups = [] := hnone
    unfold Query.restrict Query.joining
    dsimp only
    rw [hgroups]
    rfl

/-- A name that stands for a column of the model's table, or of a table that no join brings in. -/
def ReadsApart (db : Database) (c : Catalog) (m : Model) (js : List Join) (name : String) : Prop :=
  ∃ t column, Query.StandsFor c m name t column ∧
    (t = m.table ∨ ∀ j ∈ js, Scope.table db j.table ≠ .ok t)

theorem joinsUniquely_of_unique {db : Database} {s : Statement} (hbase : s.base = m.table)
    (hjoins : s.joins = joins p r) (hunique : ∀ e ∈ p.relationJoins, e.2.join.IsUnique db m.table) :
    s.JoinsUniquely db := by
  unfold Statement.JoinsUniquely
  rw [hjoins, hbase]
  unfold joins
  cases hj : join? p r with
  | none => exact ⟨Nat.zero_le _, List.forall_mem_nil _⟩
  | some j =>
    refine ⟨le_rfl, fun j' hj' => ?_⟩
    rw [List.mem_singleton.1 hj']
    obtain ⟨e, -, hjoin⟩ := Option.bind_eq_some_iff.1 hj
    unfold Policy.joinFor? at hjoin
    split_ifs at hjoin
    obtain ⟨e', he', rfl⟩ := Option.map_eq_some_iff.1 hjoin
    exact hunique e' (List.mem_of_find?_eq_some he')

theorem predicates_of_join {knows : Value → Bool} {key : String} {order : SortOrder}
    (h : join? p r = join? p (r.sorted key order)) :
    predicates knows p (r.sorted key order) = predicates knows p r := by
  have hjoined : isJoined p (r.sorted key order) = isJoined p r := by
    unfold isJoined
    rw [h]
  rw [predicates_sorted, hjoined, ← predicates_qualified]

section Sorted

variable {db : Database} {key : String} {order : SortOrder} {q q' : Query}
  (hq : build (Query.receiver R) none p r (Query.ofModel c m) = .ok q)
  (hq' : build (Query.receiver R) none p (r.sorted key order) (Query.ofModel c m) = .ok q')
include hq hq'

/-- Another sort key changes nothing but joins, conditions and orders. -/
theorem sorted_parts : q'.catalog = q.catalog ∧ q'.model = q.model ∧ q'.loaded = q.loaded ∧
    q'.statement.base = q.statement.base ∧ q'.statement.aggregates = q.statement.aggregates := by
  obtain ⟨q₀, gs, orders, hq₀, -, rfl⟩ := exists_parts hq
  obtain ⟨q₀', gs', orders', hq₀', -, rfl⟩ := exists_parts hq'
  obtain rfl : q₀ = q₀' := Except.ok.inj (hq₀.symm.trans hq₀')
  exact ⟨rfl, rfl, rfl, rfl, rfl⟩

theorem sorted_of_join (h : join? p r = join? p (r.sorted key order)) :
    ∃ orders, q'.statement = { q.statement with orders := orders } := by
  obtain ⟨q₀, gs, orders, hq₀, hgs, rfl⟩ := exists_parts hq
  obtain ⟨q₀', gs', orders', hq₀', hgs', rfl⟩ := exists_parts hq'
  obtain rfl : q₀ = q₀' := Except.ok.inj (hq₀.symm.trans hq₀')
  rw [predicates_of_join h] at hgs'
  obtain rfl := Except.ok.inj (hgs.symm.trans hgs')
  refine ⟨orders', ?_⟩
  unfold joins
  rw [h]

/-- Predicates that stand apart from joins match the same rows under both sort keys. -/
theorem matched_sorted (hR : R.IsPlain) (hm : db.Holds m.table) (hdb : ∀ t ∈ c.tables, db.Holds t)
    (hunique : ∀ e ∈ p.relationJoins, e.2.join.IsUnique db m.table)
    (hapart : ∀ g ∈ predicates (Query.receiver R).knows p r, ∀ pred ∈ g,
      ReadsApart db c m (joins p r ++ joins p (r.sorted key order)) pred.column.name)
    {rows rows' : List Row} (h : q.statement.matched db = .ok rows)
    (h' : q'.statement.matched db = .ok rows') : rows = rows' := by
  obtain ⟨q₀, gs, orders, hq₀, hgs, hparts⟩ := exists_parts hq
  obtain ⟨q₀', gs', orders', hq₀', hgs', hparts'⟩ := exists_parts hq'
  obtain rfl : q₀ = q₀' := Except.ok.inj (hq₀.symm.trans hq₀')
  have hsame := Query.carryOut_model hq₀
  obtain rfl : q₀.catalog = c := congrArg (·.1) hsame
  obtain rfl : q₀.model = m := congrArg (·.2.1) hsame
  have hbase : q₀.statement.base = q₀.model.table := congrArg (·.2.2) hsame
  rw [predicates_qualified, Query.groupsOf_qualify hR] at hgs
  obtain ⟨ess, hess, rfl⟩ := map_eq_ok_iff.1 hgs
  rw [predicates_sorted, Query.groupsOf_qualify hR, hess] at hgs'
  obtain rfl := Except.ok.inj hgs'
  have hplaced : q₀.IsPlaced db (isJoined p r) ess q.statement := by
    rw [hparts]
    exact ⟨hbase, rfl, joinsUniquely_of_unique hbase rfl hunique⟩
  have hplaced' : q₀.IsPlaced db (isJoined p (r.sorted key order)) ess q'.statement := by
    rw [hparts']
    exact ⟨hbase, rfl, joinsUniquely_of_unique hbase rfl hunique⟩
  refine Query.matched_apart hplaced hplaced' hm hdb (fun es hes e he => ?_) h h'
  obtain ⟨g, hg, pred, hpred, hname⟩ := Query.namedGroups_name hess hes he
  obtain ⟨t, column, hstands, ht⟩ := hapart g hg pred hpred
  rw [hname] at hstands
  refine ⟨t, column, hstands, ?_, ?_⟩
  · rw [hparts]
    exact ht.imp (·.trans hbase.symm) fun ht j hj => ht j (List.mem_append_left _ hj)
  · rw [hparts']
    exact ht.imp (·.trans hbase.symm) fun ht j hj => ht j (List.mem_append_right _ hj)

theorem results_sorted (hR : R.IsPlain) (hm : db.Holds m.table) (hdb : ∀ t ∈ c.tables, db.Holds t)
    (hunique : ∀ e ∈ p.relationJoins, e.2.join.IsUnique db m.table)
    (hapart : join? p r = join? p (r.sorted key order) ∨ q.statement.collapses = false ∧
      ∀ g ∈ predicates (Query.receiver R).knows p r, ∀ pred ∈ g,
        ReadsApart db c m (joins p r ++ joins p (r.sorted key order)) pred.column.name)
    {along : Bool} {rs rs' : List Result} {n n' : Nat}
    (hpage : q.statement.page db along (-1) 0 = .ok (rs, n))
    (hpage' : q'.statement.page db along (-1) 0 = .ok (rs', n')) : rs.Perm rs' := by
  obtain ⟨-, -, -, hbase, haggregates⟩ := sorted_parts hq hq'
  cases hc : q.statement.collapses with
  | true =>
    obtain ⟨orders, hstatement⟩ := sorted_of_join hq hq'
      (hapart.resolve_right fun h => Bool.noConfusion (hc.symm.trans h.1))
    rw [hstatement] at hpage'
    rw [Statement.page_of_collapses hc hpage hpage']
  | false =>
    refine Statement.page_perm_of_matched hbase haggregates hc ?_ hpage hpage'
    rcases hapart with hjoin | ⟨-, hapart⟩
    · obtain ⟨orders, hstatement⟩ := sorted_of_join hq hq' hjoin
      rw [hstatement]
      rfl
    · have hc' : q'.statement.collapses = false := by
        unfold Statement.collapses at hc ⊢
        rw [hbase, haggregates]
        exact hc
      obtain ⟨rows, hrows, -⟩ := Statement.matched_of_page hpage hc
      obtain ⟨rows', hrows', -⟩ := Statement.matched_of_page hpage' hc'
      rw [hrows, hrows', matched_sorted hq hq' hR hm hdb hunique hapart hrows hrows']

end Sorted

end Plan

namespace Query

theorem exists_page_of_all {db : Database} {q : Query} {along : Bool} {xs : List Item}
    (h : along = true → q.TotalIsOwn) (hall : (q.source db).all along = .ok xs) :
    ∃ (rs : List Result) (n : Nat), q.statement.page db along (-1) 0 = .ok (rs, n) ∧
      q.items db none rs = .ok xs := by
  cases along with
  | false =>
    obtain ⟨⟨rs, n⟩, hpage, hitems⟩ := bind_eq_ok_iff.1 hall
    exact ⟨rs, n, hpage, hitems⟩
  | true =>
    change (·.1) <$> (q.source db).counted (-1) 0 = _ at hall
    obtain ⟨⟨ys, m⟩, hcounted, rfl⟩ := map_eq_ok_iff.1 hall
    obtain ⟨⟨rs, n⟩, hpage, -⟩ := bind_eq_ok_iff.1 hcounted
    rw [source_counted (h rfl) hpage] at hcounted
    obtain ⟨data, hitems, hdata⟩ := bind_eq_ok_iff.1 hcounted
    cases hdata
    exact ⟨rs, _, hpage, hitems⟩

end Query

namespace Plan

/-- Two sort keys list the same items and count as many, if they need the same join, or if no
predicate in use reads a table that one of them joins. -/
theorem sorting_keeps_rows {R : Registry} (hR : R.IsPlain) {db : Database} {c : Catalog} {m : Model}
    {p : Policy} (hm : db.Holds m.table) (hdb : ∀ t ∈ c.tables, db.Holds t)
    (hunique : ∀ e ∈ p.relationJoins, e.2.join.IsUnique db m.table) {r : ListRequest}
    {key : String} {order : SortOrder} {q q' : Query}
    (hq : build (Query.receiver R) none p r (Query.ofModel c m) = .ok q)
    (hq' : build (Query.receiver R) none p (r.sorted key order) (Query.ofModel c m) = .ok q')
    (hapart : join? p r = join? p (r.sorted key order) ∨ q.statement.collapses = false ∧
      ∀ g ∈ predicates (Query.receiver R).knows p r, ∀ pred ∈ g,
        ReadsApart db c m (joins p r ++ joins p (r.sorted key order)) pred.column.name)
    {along : Bool} (hown : along = true → q.TotalIsOwn) {xs ys : List Item}
    (hxs : (q.source db).all along = .ok xs) (hys : (q'.source db).all along = .ok ys) :
    (q.source db).Serves along xs ∧ (q'.source db).Serves along ys ∧ xs.length = ys.length ∧
      xs.Perm ys := by
  obtain ⟨hcatalog, hmodel, hloaded, -, haggregates⟩ := sorted_parts hq hq'
  have hown' : along = true → q'.TotalIsOwn := by
    intro halong
    unfold Query.TotalIsOwn
    rw [haggregates]
    exact hown halong
  obtain ⟨rs, n, hpage, hitems⟩ := Query.exists_page_of_all hown hxs
  obtain ⟨rs', n', hpage', hitems'⟩ := Query.exists_page_of_all hown' hys
  have hperm := results_sorted hq hq' hR hm hdb hunique hapart hpage hpage'
  have hitem : q'.items db none rs' = q.items db none rs' := by
    unfold Query.items Query.item Query.relationTree
    rw [hcatalog, hmodel, hloaded]
  rw [hitem] at hitems'
  have hxys : xs.Perm ys := mapM_perm hitems hitems' hperm
  exact ⟨Query.source_serves hown hxs, Query.source_serves hown' hys, hxys.length_eq, hxys⟩

def heroQuery (r : ListRequest) : Outcome Query :=
  build (Query.receiver .builtin) none rosterPolicy r
    (Query.ofModel Sample.Heroes.catalog heroModel)

theorem threeHeroes_holds : threeHeroes.Holds heroModel.table ∧
    ∀ t ∈ Sample.Heroes.catalog.tables, threeHeroes.Holds t := by
  unfold Database.Holds
  simp only [Catalog.tables, Sample.Heroes.catalog, List.map_cons, List.map_nil,
    List.forall_mem_cons]
  exact ⟨rfl, rfl, rfl, rfl, rfl, rfl, List.forall_mem_nil _⟩

theorem rosterPolicy_isUnique :
    ∀ e ∈ rosterPolicy.relationJoins, e.2.join.IsUnique threeHeroes heroModel.table := by
  intro e he t left right ht _ _ r _
  obtain rfl := List.mem_singleton.1 he
  obtain rfl : Sample.Heroes.teams = t := Except.ok.inj ht
  exact List.length_filter_le _ _

theorem rosterPolicy_readsApart (js : List Join) {knows : Value → Bool} {r : ListRequest}
    {g : List Predicate} (hg : g ∈ predicates knows rosterPolicy r) {pred : Predicate}
    (hpred : pred ∈ g) :
    ReadsApart threeHeroes Sample.Heroes.catalog heroModel js pred.column.name := by
  have hnames : ∀ name ∈ rosterPolicy.selectingColumns, Query.splitDot? name = none ∧
      heroModel.table.hasColumn name = true ∧ Scope.spoken name = name := by
    decide +kernel
  obtain ⟨name, hname, hcolumn⟩ := predicates_column hg hpred
  obtain ⟨hdot, hown, hspoken⟩ := hnames name hname
  rw [hcolumn]
  exact ⟨_, _, .own hdot hown hspoken, .inl rfl⟩

theorem heroQuery_aggregates {r : ListRequest} {q : Query} (h : heroQuery r = .ok q) :
    q.statement.aggregates = [] := by
  obtain ⟨q₀, gs, orders, hq₀, -, rfl⟩ := exists_parts h
  unfold attachments relationCalls at hq₀
  split_ifs at hq₀
  · cases hq₀
    rfl
  · cases hq₀
    rfl

theorem exists_heroes {r : ListRequest} (h : (heroQuery r >>= fun q =>
    (q.source threeHeroes).all true).isOk = true) : ∃ q xs, heroQuery r = .ok q ∧
      (q.source threeHeroes).all true = .ok xs := by
  obtain ⟨xs, hxs⟩ := exists_ok_of_isOk h
  obtain ⟨q, hq, hxs⟩ := bind_eq_ok_iff.1 hxs
  exact ⟨q, xs, hq, hxs⟩

/-- Sorted by age, which needs no join, heroes are as many as sorted by team, and the same ones. -/
theorem sorting_keeps_rows_adults :
    join? rosterPolicy adultHeroes ≠ join? rosterPolicy (adultHeroes.sorted "age" .asc) ∧
    ∃ q q' xs ys, heroQuery adultHeroes = .ok q ∧
      heroQuery (adultHeroes.sorted "age" .asc) = .ok q' ∧
      (q.source threeHeroes).all true = .ok xs ∧ (q'.source threeHeroes).all true = .ok ys ∧
      xs.length = ys.length ∧ xs.Perm ys := by
  obtain ⟨q, xs, hq, hxs⟩ := exists_heroes (r := adultHeroes) (by decide +kernel)
  obtain ⟨q', ys, hq', hys⟩ :=
    exists_heroes (r := adultHeroes.sorted "age" .asc) (by decide +kernel)
  have hplain := heroQuery_aggregates hq
  have hcollapses : q.statement.collapses = false := by
    unfold Statement.collapses
    rw [hplain]
    rfl
  have hown : true = true → q.TotalIsOwn := by
    intro _
    unfold Query.TotalIsOwn
    rw [hplain]
    exact List.forall_mem_nil _
  obtain ⟨-, -, hlength, hperm⟩ := sorting_keeps_rows Registry.builtin_isPlain threeHeroes_holds.1
    threeHeroes_holds.2 rosterPolicy_isUnique hq hq'
    (.inr ⟨hcollapses, fun _ hg _ hpred => rosterPolicy_readsApart _ hg hpred⟩) hown hxs hys
  exact ⟨by decide +kernel, q, q', xs, ys, hq, hq', hxs, hys, hlength, hperm⟩

/-- Searching the names of teams, which sorting by age does not join, heroes without a team are
found as well. -/
example :
    let searched : Policy := { rosterPolicy with searchFields := ["teams.name"] }
    let found (key : String) := (matchedBy .builtin threeHeroes Sample.Heroes.catalog heroModel
      searched { search := "aven", sortBy := key }).toOption.map List.length
    found "team" = some 2 ∧ found "age" = some 3 := by
  decide +kernel

end Plan
end Listing
