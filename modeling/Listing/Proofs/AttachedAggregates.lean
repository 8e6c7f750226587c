import Listing.Proofs.PageRows
import Listing.Proofs.Sql.Summaries
import Listing.Proofs.WiderQueries

set_option autoImplicit false

namespace Listing

open Outcome Sql

/-- An aggregate of integers that can be attached to a model: over a relation that leads to another
table by pairs of columns, and of a column of integers unless rows are counted. -/
structure IntegerAggregate (c : Catalog) (m : Model) where
  kind : AggregateKind
  relation : Relation
  target : Model
  column : Option String
  found : Option (String × ColumnType)
  mapped : m.relation? relation.name = some relation
  direct : relation.link = none
  paired : relation.pairs ≠ []
  led : c.targetOf? relation = some target
  typed : Query.aggregateColumn kind target.table column = .ok found
  integer : ∀ e ∈ found, e.2.kind? = some .int
  other : target.table.name ≠ m.table.name

namespace IntegerAggregate

variable {c : Catalog} {m : Model} (a : IntegerAggregate c m) {db : Database} {row : Row}

def call : Call := .withAggregate a.kind a.relation.name a.column

def label : String := Query.aggregateLabel a.kind a.relation.name (a.found.map (·.1))

def aggregate : Aggregate :=
  { kind := a.kind, target := a.target.table, column := a.found, pairs := a.relation.pairs
    label := a.label }

/-- Every pair of columns holds equal keys in a row of the model and in one of the target. Nothing
equals nothing. -/
def Meets (row other : Row) : Prop :=
  ∀ e ∈ a.relation.pairs, row.cell e.1 ≠ .null ∧ (other.cell e.2).order (row.cell e.1) = .eq

instance (row other : Row) : Decidable (a.Meets row other) :=
  inferInstanceAs (Decidable (∀ e ∈ a.relation.pairs, _))

def related (db : Database) (row : Row) : List Row :=
  (db.rows a.target.table.name).filter fun other => a.Meets row other

def integers (db : Database) (row : Row) : List ℤ :=
  match a.found with
  | none => []
  | some (name, _) => (a.related db row).filterMap fun other => (other.cell name).int?

def valueFor (db : Database) (row : Row) : Value :=
  Summary.ofIntegers a.kind (a.related db row).length (a.integers db row)

/-- A database that stores integers in the column, and whose sums fit at every step. -/
structure IsStored (db : Database) : Prop where
  integers : ∀ e ∈ a.found, ∀ other ∈ db.rows a.target.table.name, (other.cell e.1).IsInteger
  sums : a.kind = .sum → ∀ row ∈ db.rows m.table.name, Word64.HoldsSums (a.integers db row)

variable {a}

theorem count_of_none (h : a.found = none) : a.kind = .count := by
  have htyped := a.typed
  rw [h] at htyped
  unfold Query.aggregateColumn at htyped
  split_ifs at htyped with hcount
  · exact hcount
  · split at htyped
    · cases htyped
    · split at htyped <;> cases htyped

theorem related_nil (db : Database) : a.related db [] = [] := by
  obtain ⟨e, he⟩ := List.exists_mem_of_ne_nil _ a.paired
  refine List.filter_eq_nil_iff.2 fun other _ hmeets => ?_
  exact (of_decide_eq_true hmeets e he).1 rfl

theorem integers_nil (db : Database) : a.integers db [] = [] := by
  unfold integers
  rw [related_nil]
  split <;> rfl

theorem rowsFor_eq (db : Database) (row : Row) :
    a.aggregate.rowsFor db m.table row = a.related db row := by
  have hown : a.aggregate.isOwn m.table = false := beq_eq_false_iff_ne.2 a.other
  unfold Aggregate.rowsFor
  rw [hown, if_neg Bool.false_ne_true]
  refine List.filter_congr fun other _ => ?_
  rw [Bool.eq_iff_iff, List.all_map, List.all_eq_true, decide_eq_true_eq]
  unfold Meets
  simp only [Function.comp_apply, Bool.and_eq_true, bne_iff_ne, beq_iff_eq]
  rfl

theorem exists_cellFor (h : a.IsStored db) (hrow : row = [] ∨ row ∈ db.rows m.table.name) :
    ∃ cell, a.aggregate.cellFor? db m.table row = some cell ∧ cell.plain = a.valueFor db row := by
  have hsums (hsum : a.kind = .sum) : Word64.HoldsSums (a.integers db row) := by
    rcases hrow with rfl | hrow
    · rw [integers_nil]
      exact Word64.holdsSums_nil
    · exact h.sums hsum row hrow
  have hintegers := h.integers
  unfold Aggregate.cellFor? valueFor
  rw [rowsFor_eq]
  unfold Aggregate.cellsOf
  unfold integers at hsums ⊢
  change ∃ cell, Summary.of? a.kind (match a.found with
    | none => (a.related db row).map fun _ => .int 1
    | some (name, _) => (a.related db row).map (·.cell name)) = some cell ∧ _
  cases hfound : a.found with
  | none =>
    rw [count_of_none hfound, Summary.of?_count, List.length_map]
    exact ⟨_, rfl, rfl⟩
  | some e =>
    rw [hfound] at hintegers hsums
    dsimp only at hsums ⊢
    have hcells : ∀ cell ∈ (a.related db row).map (·.cell e.1), cell.IsInteger := by
      refine List.forall_mem_map.2 fun other hother => ?_
      exact hintegers e rfl other (List.mem_filter.1 hother).1
    have hints : ((a.related db row).map (·.cell e.1)).filterMap Cell.int? =
        (a.related db row).filterMap fun other => (other.cell e.1).int? := List.filterMap_map
    have hsummary := Summary.of?_integers hcells (hints ▸ hsums)
    rwa [hints, List.length_map] at hsummary

theorem toValue_eq (a : IntegerAggregate c m) (cell : Cell) :
    a.aggregate.toValue cell = .ok cell.plain := by
  have htype : ∀ t ∈ a.aggregate.type?, t.kind? = some .int := by
    intro t ht
    unfold Aggregate.type? at ht
    split at ht
    · cases ht
    · cases ht
    · obtain ⟨e, he, rfl⟩ := Option.map_eq_some_iff.1 ht
      exact a.integer e he
  unfold Aggregate.toValue
  cases htyped : a.aggregate.type? with
  | none => rfl
  | some t =>
    have hkind := htype t htyped
    cases t with
    | integer => rfl
    | bigInteger => rfl
    | _ => cases hkind

theorem gives (h : a.IsStored db) : a.aggregate.Gives db m.table (a.valueFor db) := by
  intro row hrow
  obtain ⟨cell, hcell, hplain⟩ := exists_cellFor h hrow
  exact ⟨cell, hcell, hplain ▸ toValue_eq a cell⟩

theorem valueFor_average (havg : a.kind = .avg) (hsome : a.integers db row ≠ [])
    (hlength : (a.integers db row).length ≤ 2 ^ 53)
    (hsmall : ((a.integers db row).map Int.natAbs).sum ≤ 2 ^ 53) : a.valueFor db row =
      .float (.ofRat false (((a.integers db row).sum : ℚ) / (a.integers db row).length)) := by
  unfold valueFor Summary.ofIntegers
  rw [havg]
  dsimp only
  rw [if_neg (by rwa [List.isEmpty_iff]), Summary.average_int hsome hlength hsmall]
  rfl

end IntegerAggregate

def Policy.withAggregates (p : Policy) (as : List (AggregateKind × List AggregateEntry)) : Policy :=
  { p with aggregates := as }

namespace IntegerAggregate

variable {R : Registry} {c : Catalog} {m : Model} {a : IntegerAggregate c m} {db : Database}
  {p : Policy} {r : ListRequest} {q q' : Query}
  {as : List (AggregateKind × List AggregateEntry)}

/-- The label of the aggregate is no key beside the rows yet, and the request does not sort by a
column that is spoken like it. Rows may be selected by such a column if the base table has it. -/
structure IsNew (a : IntegerAggregate c m) (db : Database) (R : Registry) (p : Policy)
    (r : ListRequest) : Prop where
  keyed : a.label ∉ Query.keysOf (p.labels ++ [totalLabel])
  sorting : ∀ e ∈ Plan.sortField? p r,
    ¬ ((Query.ofModel c m).column ⟨e.2, Plan.isJoined p r⟩).Speaks a.label
  selecting : ∀ g ∈ Plan.predicates (Query.receiver R).knows p r, ∀ pred ∈ g,
    ((Query.ofModel c m).column pred.column).Speaks a.label →
      db.Holds m.table ∧ ((Query.ofModel c m).column pred.column).IsIn m.table

theorem changeOf_call (h : q.SharesModel (Query.ofModel c m)) :
    q.changeOf R a.call = .ok (.aggregate a.aggregate) := by
  rw [Query.changeOf_congr h]
  exact map_eq_ok_iff.2 ⟨a.aggregate, Query.aggregateOf_eq_ok_iff.2
    ⟨a.relation, a.target, a.found, a.mapped, a.direct, a.led, a.typed, rfl⟩, rfl⟩

theorem build_extends (hmore : Inserts a.call (Plan.aggregateCalls p)
      (Plan.aggregateCalls (p.withAggregates as))) :
    Follows (Query.Extends a.aggregate)
      (Plan.build (Query.receiver R) none p r (Query.ofModel c m))
      (Plan.build (Query.receiver R) none (p.withAggregates as) r (Query.ofModel c m)) := by
  have hcalls (p : Policy) : Plan.calls (Query.receiver R).knows p r = Plan.joinCalls p r ++
      (Plan.attachments p r ++ Plan.restrictions (Query.receiver R).knows p r ++
        Plan.orderCalls p r) := by
    rw [Plan.calls_eq, Plan.preliminaries, List.append_assoc, List.append_assoc, List.append_assoc]
  have hinserts := ((hmore.append_right (Plan.relationCalls r)).append_right
    (Plan.restrictions (Query.receiver R).knows p r)).append_right (Plan.orderCalls p r)
  rw [Plan.build_none, Plan.build_none, hcalls, hcalls, Plan.carryOut_append,
    Plan.carryOut_append]
  refine Follows.after fun q hq => ?_
  exact Query.carryOut_inserts hinserts (fun _ => Plan.selectBase_not_mem)
    (changeOf_call (Query.carryOut_sharesModel hq))

theorem admits (hR : R.IsPlain) (hnew : a.IsNew db R p r)
    (hq : Plan.build (Query.receiver R) none p r (Query.ofModel c m) = .ok q) :
    q.statement.base = m.table ∧ q.model = m ∧ q.catalog = c ∧
      q.statement.Admits db a.aggregate ∧
      a.label ∉ Query.keysOf (q.statement.aggregates.map (·.label) ++ [totalLabel]) := by
  have hlabels := Plan.build_labels hq
  have hcarry := hq
  rw [Plan.build_none] at hcarry
  have hmodel := Query.carryOut_model hcarry
  have hbase : q.statement.base = m.table := congrArg (·.2.2) hmodel
  refine ⟨hbase, congrArg (·.2.1) hmodel, congrArg (·.1) hmodel, ⟨?_, ?_, ?_, ?_⟩, ?_⟩
  · rw [hbase]
    exact beq_eq_false_iff_ne.2 a.other
  · rw [hlabels]
    exact fun hmem => hnew.keyed (Query.mem_keysOf (List.mem_append_left _ hmem))
  · intro g hg cond hcond hspeaks
    obtain ⟨ps, hps, pred, hpred, hcolumn⟩ := Plan.build_conditions hR hq hg hcond
    rw [hcolumn] at hspeaks ⊢
    rw [hbase]
    exact hnew.selecting ps hps pred hpred hspeaks
  · intro o ho
    have hcolumn := List.mem_map_of_mem (f := (·.column)) ho
    rw [Plan.build_orders hq] at hcolumn
    obtain ⟨e, he, heq⟩ := List.mem_map.1 hcolumn
    rw [← heq]
    exact hnew.sorting e (Option.mem_toList.1 he)
  · rw [hlabels]
    exact hnew.keyed

/-- With the aggregate, the built handle gives the same rows, each with its value. -/
theorem source_follows (hR : R.IsPlain) (hnew : a.IsNew db R p r) (hdb : a.IsStored db)
    (hq : Plan.build (Query.receiver R) none p r (Query.ofModel c m) = .ok q)
    (h : Query.Extends a.aggregate q q') :
    (q.source db).Follows (Item.Widens c db m a.label (a.valueFor db)) (q'.source db) := by
  obtain ⟨hbase, hmodel, hcatalog, hadmits, hkeyed⟩ := admits hR hnew hq
  obtain ⟨as, rfl, has⟩ := h
  subst hmodel hcatalog
  exact Query.source_follows hbase hkeyed hadmits has (gives hdb)

end IntegerAggregate

namespace Envelope

variable {α : Type}

def data : Envelope α → List α
  | rich e => e.data
  | simple e => e.data

def withData (items : List α) : Envelope α → Envelope α
  | rich e => rich { e with data := items }
  | simple e => simple { e with data := items }

end Envelope

namespace Service

variable {s : Service} {session : Session} {db : Database} {url : Option Url} {r : ListRequest}
  {q q' : Query} {R : Item → Item → Prop}

def Rewraps (R : Item → Item → Prop) (e e' : Envelope Item) : Prop :=
  ∃ items, e' = e.withData items ∧ List.Forall₂ R e.data items

theorem respond_follows (p : Policy) (h : (q.source db).Follows R (q'.source db)) :
    Follows (Rewraps R) (s.respond session db url r q)
      ({ s with policy := p }.respond session db url r q') := by
  have hwrapped : Follows (fun e e' => ∃ items, e' = { e with data := items } ∧
      List.Forall₂ R e.data items) (s.wrapped session db url r q)
        (wrapped { s with policy := p } session db url r q') := by
    unfold wrapped
    refine (h.read _ _ _).bind ?_
    rintro ⟨data, total⟩ ⟨data', total'⟩ ⟨hdata, rfl⟩
    refine Follows.after fun last _ => ?_
    unfold RichEnvelope.ofFacts
    exact Follows.after fun facts _ => Follows.after fun links _ => Follows.ok ⟨data', rfl, hdata⟩
  rw [respond_eq, respond_eq]
  intro env henv
  obtain ⟨e, he, rfl⟩ := map_eq_ok_iff.1 henv
  obtain ⟨e', he', items, rfl, hitems⟩ := hwrapped e he
  refine ⟨_, map_eq_ok_iff.2 ⟨_, he', rfl⟩, items, ?_⟩
  dsimp only
  cases s.config.envelope with
  | rich => exact ⟨rfl, hitems⟩
  | simple => exact ⟨rfl, hitems⟩

/-- A request that is answered is answered with an aggregate of integers over another table as well,
if the label is new: with the same rows, facts and links, and beside every row what the aggregate is
of the rows that it meets. An average is the number nearest to the exact one, unless there are very
many or very large integers. -/
theorem aggregates_attached (session : Session) (url : Option Url) {c : Catalog} {m : Model}
    {incoming : Incoming} (hhook : s.hook = none) (hregistry : s.registry.IsPlain)
    (a : IntegerAggregate c m)
    {as : List (AggregateKind × List AggregateEntry)}
    (hmore : Inserts a.call (Plan.aggregateCalls s.policy)
      (Plan.aggregateCalls (s.policy.withAggregates as)))
    (hr : s.request incoming = .ok r) (hnew : a.IsNew db s.registry s.policy r)
    (hdb : a.IsStored db) :
    (∀ env, (s.answer session db url (Query.ofModel c m) incoming).result = .ok env →
      ∃ items, ({ s with policy := s.policy.withAggregates as }.answer session db url
          (Query.ofModel c m) incoming).result = .ok (env.withData items) ∧
        List.Forall₂ (Item.Widens c db m a.label (a.valueFor db)) env.data items) ∧
    (a.kind = .avg → ∀ row, a.integers db row ≠ [] → (a.integers db row).length ≤ 2 ^ 53 →
      ((a.integers db row).map Int.natAbs).sum ≤ 2 ^ 53 → a.valueFor db row =
        .float (.ofRat false (((a.integers db row).sum : ℚ) / (a.integers db row).length))) := by
  refine ⟨fun env henv => ?_, fun havg row => IntegerAggregate.valueFor_average havg⟩
  obtain ⟨p, config, registry, hook⟩ := s
  obtain rfl : hook = none := hhook
  have hr' : request ⟨p.withAggregates as, config, registry, none⟩ incoming = .ok r := hr
  rw [answer_result url hr] at henv
  rw [answer_result url hr']
  have hbuild := IntegerAggregate.build_extends (R := registry) (r := r) hmore
  have hanswer : Follows (Rewraps (Item.Widens c db m a.label (a.valueFor db)))
      (Plan.build (Query.receiver registry) none p r (Query.ofModel c m) >>=
        respond ⟨p, config, registry, none⟩ session db url r)
      (Plan.build (Query.receiver registry) none (p.withAggregates as) r (Query.ofModel c m) >>=
        respond ⟨p.withAggregates as, config, registry, none⟩ session db url r) := by
    refine hbuild.of_result.bind ?_
    rintro q q' ⟨hq, hextends⟩
    exact respond_follows (p.withAggregates as)
      (IntegerAggregate.source_follows hregistry hnew hdb hq hextends)
  obtain ⟨_, henv', items, rfl, hitems⟩ := hanswer env henv
  exact ⟨items, henv', hitems⟩

def teamModel : Model := (Sample.Heroes.catalog.model? "Team").get (by decide)

def roster : Service := { policy := { sortableFields := [("name", "name")] } }

def agesOfTeam : IntegerAggregate Sample.Heroes.catalog teamModel where
  kind := .sum
  relation := { name := "heroes", target := "Hero", many := true, pairs := [("id", "team_id")] }
  target := Plan.heroModel
  column := some "age"
  found := some ("age", .integer)
  mapped := rfl
  direct := rfl
  paired := List.cons_ne_nil _ _
  led := rfl
  typed := rfl
  integer := by
    rintro e ⟨⟩
    rfl
  other := by decide

theorem agesOfTeam_isNew : agesOfTeam.IsNew Plan.threeHeroes .builtin roster.policy {} where
  keyed := by decide
  sorting := by
    rintro e ⟨⟩
    decide
  selecting := by
    intro g hg
    cases hg

theorem agesOfTeam_isStored : agesOfTeam.IsStored Plan.threeHeroes where
  integers := by
    rintro e ⟨⟩
    decide
  sums := by decide +kernel

/-- One team is listed, with two heroes of 48 and 10 years. -/
theorem aggregates_attached_team : ∃ env items,
    (roster.answer noSession Plan.threeHeroes none
      (Query.ofModel Sample.Heroes.catalog teamModel) (.fields [])).result = .ok env ∧
    ({ roster with policy := roster.policy.withAggregates [(.sum, [("heroes", some "age")])] }.answer
      noSession Plan.threeHeroes none (Query.ofModel Sample.Heroes.catalog teamModel)
        (.fields [])).result = .ok (env.withData items) ∧
    items.map (·.field? "heroes_sum_age") = [some (.scalar (.int 58))] := by
  have hmore : Inserts agesOfTeam.call (Plan.aggregateCalls roster.policy)
      (Plan.aggregateCalls (roster.policy.withAggregates [(.sum, [("heroes", some "age")])])) :=
    .here _
  have hread : roster.request (.fields []) = .ok {} := rfl
  obtain ⟨hattached, -⟩ := aggregates_attached (s := roster) noSession none rfl
    Registry.builtin_isPlain agesOfTeam hmore hread agesOfTeam_isNew agesOfTeam_isStored
  have hone : (roster.answer noSession Plan.threeHeroes none
      (Query.ofModel Sample.Heroes.catalog teamModel) (.fields [])).result.toOption.map
        (·.data.length) = some 1 := by decide +kernel
  cases hanswer : (roster.answer noSession Plan.threeHeroes none
      (Query.ofModel Sample.Heroes.catalog teamModel) (.fields [])).result with
  | error e =>
    rw [hanswer] at hone
    cases hone
  | ok env =>
    rw [hanswer] at hone
    obtain ⟨it, hdata⟩ := List.length_eq_one_iff.1 (Option.some.inj hone)
    obtain ⟨items, hitems, hwider⟩ := hattached env hanswer
    refine ⟨env, items, rfl, hitems, ?_⟩
    rw [hdata] at hwider
    obtain ⟨it', _, ⟨row, hrow, -, hfield⟩, hrest, rfl⟩ := List.forall₂_cons_left_iff.1 hwider
    obtain rfl := List.forall₂_nil_left_iff.1 hrest
    obtain rfl := List.mem_singleton.1 hrow
    exact congrArg (fun d => [d]) (hfield agesOfTeam.label)

end Service
end Listing
