import Listing.Proofs.Changes

set_option autoImplicit false

/-!
# What a plan asks of rows

The calls of a plan that select rows ask for groups of predicates, of each of which one has to
hold. A query is built exactly if the calls before them can be taken and all predicates have
conditions; it then has these conditions beside what the other calls left.
-/

namespace Listing

open Outcome Sql

/-! ## Conditions and their columns -/

namespace Sql.Condition

def onColumn (c : Column) : Condition → Condition
  | compare op _ v => compare op c v
  | null negated _ => null negated c
  | flag negated _ b => flag negated c b
  | like _ pattern => like c pattern
  | contains _ asText pattern => contains c asText pattern
  | within _ vs => within c vs

theorem column_onColumn (c : Column) (cond : Condition) : (cond.onColumn c).column = c := by
  cases cond <;> rfl

theorem ofComparison_onColumn (op : Comparison) {c c' : Column} (h : c.type = c'.type) (v : Value) :
    ofComparison op c' v = onColumn c' <$> ofComparison op c v := by
  cases v with
  | null => cases op <;> rfl
  | bool b =>
    by_cases hspan : c.type = .interval
    · have hspan' : c'.type = .interval := h.symm.trans hspan
      cases op <;> simp [ofComparison, hspan, hspan', onColumn, Functor.map, Except.map]
    · have hspan' : c'.type ≠ .interval := h ▸ hspan
      cases op <;> simp [ofComparison, hspan, hspan', onColumn, Functor.map, Except.map]
  | _ => cases op <;> rfl

end Sql.Condition

namespace Strategy

variable {c c' : Column}

theorem comparing_onColumn (op : Comparison) (h : c.type = c'.type) (v : Value) (k : Option Kind) :
    comparing op c' v k = Option.map (Condition.onColumn c') <$> comparing op c v k := by
  unfold comparing operand
  rw [h]
  cases Coercion.coerce (Coercion.kindFor c'.type k) v with
  | error e => rfl
  | ok w =>
    rw [ok_bind, ok_bind, Condition.ofComparison_onColumn op h w]
    cases Condition.ofComparison op c w <;> rfl

theorem within_onColumn (h : c.type = c'.type) (v : Value) (k : Option Kind) :
    within c' v k = Option.map (Condition.onColumn c') <$> within c v k := by
  unfold within operand
  rw [h]
  cases (Coercion.splitItems v).mapM fun s =>
    Coercion.coerce (Coercion.kindFor c'.type k) (.text s) <;> rfl

/-- A strategy that looks at nothing but the type of a column, and puts its condition on it. -/
def IsPlain (s : Strategy) : Prop :=
  ∀ c c' : Column, c.type = c'.type → ∀ (v : Value) (k : Option Kind),
    s c' v k = Option.map (Condition.onColumn c') <$> s c v k

theorem builtin_isPlain (o : FilterOperator) : (builtin o).IsPlain := by
  intro c c' h v k
  cases o with
  | eq =>
    cases v with
    | list items => exact within_onColumn h (.list items) k
    | _ => exact comparing_onColumn .eq h _ k
  | ne => exact comparing_onColumn .ne h v k
  | gt => exact comparing_onColumn .gt h v k
  | gte => exact comparing_onColumn .ge h v k
  | lt => exact comparing_onColumn .lt h v k
  | lte => exact comparing_onColumn .le h v k
  | like => rfl
  | within => exact within_onColumn h v k

end Strategy

namespace Registry

def IsPlain (R : Registry) : Prop := ∀ e ∈ R, e.2.IsPlain

theorem builtin_isPlain : builtin.IsPlain := by
  intro e he
  obtain ⟨o, -, rfl⟩ := List.mem_map.1 he
  exact Strategy.builtin_isPlain o

theorem IsPlain.condition {R : Registry} (hR : R.IsPlain) {c c' : Column} (h : c.type = c'.type)
    (operator operand : Value) (k : Option Kind) : R.condition c' operator operand k =
      Option.map (Condition.onColumn c') <$> R.condition c operator operand k := by
  unfold Registry.condition
  cases hs : (FilterOperator.ofValue? operator).bind R.strategy? with
  | none => rfl
  | some s =>
    obtain ⟨o, -, ho⟩ := Option.bind_eq_some_iff.1 hs
    obtain ⟨e, he, rfl⟩ := Option.map_eq_some_iff.1 ho
    dsimp only
    rw [h]
    exact hR e (List.mem_of_find?_eq_some he) c c' h operand _

end Registry

/-! ## Predicates -/

namespace Predicate

def column : Predicate → ColumnRef
  | contains c _ _ => c
  | compare c _ _ => c

def qualify (b : Bool) : Predicate → Predicate
  | contains c term asText => contains ⟨c.name, b⟩ term asText
  | compare c operator operand => compare ⟨c.name, b⟩ operator operand

end Predicate

namespace Query

variable {R : Registry} {q : Query}

/-- Qualifying the column of a predicate changes nothing but the column of its condition. -/
theorem condition?_qualify (hR : R.IsPlain) (b : Bool) (pred : Predicate) :
    q.condition? R (pred.qualify b) =
      Option.map (Condition.onColumn (q.column ⟨pred.column.name, b⟩)) <$>
        q.condition? R pred := by
  have htype (c : ColumnRef) : (q.column c).type = (q.column ⟨c.name, b⟩).type :=
    column_type q c.name c.qualified b
  cases pred with
  | contains c term asText => rfl
  | compare c operator operand => exact hR.condition (htype c) operator operand none

theorem condition?_column (hR : R.IsPlain) {pred : Predicate} {cond : Condition}
    (h : q.condition? R pred = .ok (some cond)) : cond.column = q.column pred.column := by
  have hsame : pred.qualify pred.column.qualified = pred := by cases pred <;> rfl
  have hmap := condition?_qualify (q := q) hR pred.column.qualified pred
  rw [hsame, h] at hmap
  have heq : cond = cond.onColumn (q.column pred.column) := by
    have hsome := Except.ok.inj hmap
    exact Option.some.inj hsome
  rw [heq, Condition.column_onColumn]

/-! ## Groups of conditions -/

/-- The conditions of groups of predicates. Groups without a condition are left out. -/
def groupsOf (R : Registry) (q : Query) (gs : List (List Predicate)) :
    Outcome (List (List Condition)) := do
  .ok ((← gs.mapM (q.conditions R)).filter (!·.isEmpty))

theorem groupsOf_column (hR : R.IsPlain) {gs : List (List Predicate)}
    {groups : List (List Condition)} (h : q.groupsOf R gs = .ok groups) {g : List Condition}
    (hg : g ∈ groups) {c : Condition} (hc : c ∈ g) :
    ∃ ps ∈ gs, ∃ pred ∈ ps, c.column = q.column pred.column := by
  obtain ⟨css, hcss, h⟩ := bind_eq_ok_iff.1 h
  cases h
  obtain ⟨ps, hps, hconditions⟩ := exists_of_mem_mapM hcss (List.mem_filter.1 hg).1
  obtain ⟨cs, hcs, hg'⟩ := bind_eq_ok_iff.1 hconditions
  cases hg'
  obtain ⟨c', hc', hsome⟩ := List.mem_filterMap.1 hc
  obtain ⟨pred, hpred, hcondition⟩ := exists_of_mem_mapM hcs hc'
  rw [id] at hsome
  rw [hsome] at hcondition
  exact ⟨ps, hps, pred, hpred, condition?_column hR hcondition⟩

variable {q' : Query}

theorem groupsOf_congr (h : q.SharesModel q') : q.groupsOf R = q'.groupsOf R := by
  funext gs
  unfold groupsOf
  rw [conditions_congr h]

theorem groupsOf_append (gs gs' : List (List Predicate)) :
    q.groupsOf R (gs ++ gs') = (do .ok ((← q.groupsOf R gs) ++ (← q.groupsOf R gs'))) := by
  unfold groupsOf
  rw [List.mapM_append]
  cases gs.mapM (q.conditions R) with
  | error e => rfl
  | ok css =>
    cases gs'.mapM (q.conditions R) with
    | error e => rfl
    | ok css' => exact congrArg Except.ok (List.filter_append ..)

theorem groupsOf_flatMap {α : Type} {f : α → List (List Predicate)} {xs : List α}
    {g : α → List (List Condition)} (h : ∀ x ∈ xs, q.groupsOf R (f x) = .ok (g x)) :
    q.groupsOf R (xs.flatMap f) = .ok (xs.flatMap g) := by
  induction xs with
  | nil => rfl
  | cons x xs ih =>
    rw [List.flatMap_cons, groupsOf_append, h x List.mem_cons_self,
      ih fun y hy => h y (List.mem_cons_of_mem _ hy)]
    rfl

theorem groupsOf_alternatives {α : Type} {f : α → Predicate} {g : α → Condition}
    (h : ∀ x, q.condition? R (f x) = .ok (some (g x))) {xs : List α} (hne : xs ≠ []) :
    q.groupsOf R [xs.map f] = .ok [xs.map g] := by
  have hconditions (xs : List α) : q.conditions R (xs.map f) = .ok (xs.map g) := by
    induction xs with
    | nil => rfl
    | cons x xs ih =>
      unfold conditions at ih ⊢
      obtain ⟨cs, hcs, hmap⟩ := bind_eq_ok_iff.1 ih
      rw [List.map_cons, List.mapM_cons, h x, hcs, List.map_cons, ← Except.ok.inj hmap]
      rfl
  have hmap : (xs.map g).isEmpty = false :=
    List.isEmpty_eq_false_iff.2 fun hnil => hne (List.map_eq_nil_iff.1 hnil)
  unfold groupsOf
  rw [List.mapM_cons, hconditions]
  change Except.ok (List.filter _ [xs.map g]) = _
  rw [List.filter_cons_of_pos (by rw [hmap]; rfl), List.filter_nil]

theorem groupsOf_singletons (ps : List Predicate) :
    q.groupsOf R (ps.map fun pred => [pred]) =
      (fun cs => cs.map fun c => [c]) <$> q.conditions R ps := by
  induction ps with
  | nil => rfl
  | cons pred ps ih =>
    rw [List.map_cons, ← List.singleton_append, groupsOf_append, ih]
    unfold groupsOf conditions
    simp only [List.mapM_cons, List.mapM_nil]
    cases q.condition? R pred with
    | error e => rfl
    | ok c =>
      cases ps.mapM (q.condition? R) with
      | error e => rfl
      | ok cs => cases c <;> rfl

end Query

namespace Call

/-- What a call asks of rows: groups of predicates, of each of which one has to hold. -/
def groups : Call → List (List Predicate)
  | .whereAny ps => [ps]
  | .whereAll ps => ps.map fun pred => [pred]
  | _ => []

def Selects : Call → Prop
  | .whereAny _ => True
  | .whereAll _ => True
  | _ => False

def Attaches : Call → Prop
  | .withAggregate _ _ _ => True
  | .withRelations _ => True
  | _ => False

theorem Attaches.not_selects {call : Call} (h : call.Attaches) : ¬ call.Selects := by
  cases call <;> first | exact id | exact h.elim

end Call

namespace Query

variable {R : Registry} {q q' : Query}

theorem step_selects {call : Call} (h : call.Selects) :
    q.step R call = q.restrict <$> q.groupsOf R call.groups := by
  cases call with
  | whereAny ps =>
    change (q.conditions R ps >>= fun cs => .ok (if cs.isEmpty then q else q.restrict [cs])) =
      q.restrict <$> q.groupsOf R [ps]
    unfold groupsOf
    rw [List.mapM_cons, List.mapM_nil]
    cases q.conditions R ps with
    | error e => rfl
    | ok cs =>
      cases cs with
      | nil => exact congrArg Except.ok (restrict_nil q).symm
      | cons c cs => rfl
  | whereAll ps =>
    change (q.conditions R ps >>= fun cs => .ok (q.restrict (cs.map fun c => [c]))) =
      q.restrict <$> q.groupsOf R (ps.map fun pred => [pred])
    rw [groupsOf_singletons]
    cases q.conditions R ps <;> rfl
  | _ => exact h.elim

/-- Calls that select rows add the conditions of all that they ask for. -/
theorem carryOut_selects {calls : List Call} (h : ∀ call ∈ calls, call.Selects) :
    Plan.carryOut (receiver R) calls q =
      q.restrict <$> q.groupsOf R (calls.flatMap Call.groups) := by
  induction calls generalizing q with
  | nil => exact congrArg Except.ok (restrict_nil q).symm
  | cons call calls ih =>
    have hstep : (receiver R).step q call = q.restrict <$> q.groupsOf R call.groups :=
      step_selects (h call List.mem_cons_self)
    unfold Plan.carryOut at ih ⊢
    rw [List.foldlM_cons, hstep, List.flatMap_cons, groupsOf_append]
    cases q.groupsOf R call.groups with
    | error e => rfl
    | ok gs =>
      have hshares : (q.restrict gs).groupsOf R = q.groupsOf R := groupsOf_congr ⟨rfl, rfl⟩
      change (calls.foldlM (receiver R).step (q.restrict gs)) = _
      rw [ih fun call' hcall' => h call' (List.mem_cons_of_mem _ hcall'), hshares]
      cases q.groupsOf R (calls.flatMap Call.groups) with
      | error e => rfl
      | ok gs' =>
        refine congrArg Except.ok ?_
        unfold restrict
        rw [List.append_assoc]

end Query

/-! ## What calls leave -/

namespace Query

variable {R : Registry} {q q' : Query}

theorem carryOut_keeps {α : Type} {k : Query → α} {calls : List Call}
    (hkeeps : ∀ call ∈ calls, ∀ q d, q.changeOf R call = .ok d → k (q.apply d) = k q)
    (h : Plan.carryOut (receiver R) calls q = .ok q') : k q' = k q := by
  refine carryOut_invariant (P := fun q' => k q' = k q) (fun call hcall q' d hq' hd => ?_) h rfl
  rw [hkeeps call hcall q' d hd, hq']

theorem carryOut_model {calls : List Call} (h : Plan.carryOut (receiver R) calls q = .ok q') :
    (q'.catalog, q'.model, q'.statement.base) = (q.catalog, q.model, q.statement.base) :=
  carryOut_keeps (k := fun q => (q.catalog, q.model, q.statement.base))
    (fun _ _ _ d _ => by cases d <;> rfl) h

theorem carryOut_sharesModel {calls : List Call}
    (h : Plan.carryOut (receiver R) calls q = .ok q') : q'.SharesModel q :=
  ⟨congrArg (·.1) (carryOut_model h), congrArg (·.2.1) (carryOut_model h)⟩

theorem carryOut_groups {calls : List Call} (hnone : ∀ call ∈ calls, ¬ call.Selects)
    (h : Plan.carryOut (receiver R) calls q = .ok q') :
    q'.statement.groups = q.statement.groups := by
  refine carryOut_keeps (k := fun q => q.statement.groups) (fun call hcall q d hd => ?_) h
  have hselects := hnone call hcall
  cases call with
  | leftJoin table foreignKey relatedKey =>
    obtain ⟨j, -, rfl⟩ := map_eq_ok_iff.1 hd
    rfl
  | withAggregate kind relation column =>
    obtain ⟨a, -, rfl⟩ := map_eq_ok_iff.1 hd
    rfl
  | whereAny ps => exact absurd trivial hselects
  | whereAll ps => exact absurd trivial hselects
  | _ =>
    cases hd
    rfl

theorem carryOut_joins {calls : List Call}
    (hnone : ∀ call ∈ calls, ∀ table foreignKey relatedKey,
      call ≠ .leftJoin table foreignKey relatedKey)
    (h : Plan.carryOut (receiver R) calls q = .ok q') : q'.statement.joins = q.statement.joins := by
  refine carryOut_keeps (k := fun q => q.statement.joins) (fun call hcall q d hd => ?_) h
  have hjoin := hnone call hcall
  cases call with
  | leftJoin table foreignKey relatedKey => exact absurd rfl (hjoin table foreignKey relatedKey)
  | withAggregate kind relation column =>
    obtain ⟨a, -, rfl⟩ := map_eq_ok_iff.1 hd
    rfl
  | whereAny ps =>
    obtain ⟨cs, -, rfl⟩ := map_eq_ok_iff.1 hd
    rfl
  | whereAll ps =>
    obtain ⟨cs, -, rfl⟩ := map_eq_ok_iff.1 hd
    rfl
  | _ =>
    cases hd
    rfl

end Query

/-! ## Building -/

def Policy.selectingColumns (p : Policy) : List String :=
  p.searchFields ++ p.columnFields.map (·.2) ++ p.filterableFields.map (·.2)

namespace Plan

def attachments (p : Policy) (r : ListRequest) : List Call := aggregateCalls p ++ relationCalls r

def preliminaries (p : Policy) (r : ListRequest) : List Call := joinCalls p r ++ attachments p r

def restrictions (knows : Value → Bool) (p : Policy) (r : ListRequest) : List Call :=
  searchCalls p r ++ columnSearchCalls p r ++ filterCalls knows p r

def predicates (knows : Value → Bool) (p : Policy) (r : ListRequest) : List (List Predicate) :=
  (restrictions knows p r).flatMap Call.groups

variable {p : Policy} {r : ListRequest}

theorem selection_eq (knows : Value → Bool) (p : Policy) (r : ListRequest) :
    selection knows p r = preliminaries p r ++ restrictions knows p r := by
  simp only [selection, preliminaries, attachments, restrictions, List.append_assoc]

theorem calls_eq (knows : Value → Bool) (p : Policy) (r : ListRequest) :
    calls knows p r = preliminaries p r ++ restrictions knows p r ++ orderCalls p r := by
  rw [calls, selection_eq]

theorem restrictions_select (knows : Value → Bool) (p : Policy) (r : ListRequest) :
    ∀ call ∈ restrictions knows p r, call.Selects := by
  intro call hcall
  rcases List.mem_append.1 hcall with hcall | hfilter
  · rcases List.mem_append.1 hcall with hsearch | hcolumn
    · unfold searchCalls at hsearch
      split_ifs at hsearch
      · cases hsearch
      · cases List.mem_singleton.1 hsearch
        trivial
    · obtain ⟨⟨field, term⟩, -, hcall⟩ := List.mem_filterMap.1 hcolumn
      dsimp only at hcall
      split at hcall
      · cases hcall
      · split_ifs at hcall
        cases hcall
        trivial
  · unfold filterCalls at hfilter
    dsimp only at hfilter
    split_ifs at hfilter
    · cases hfilter
    · cases List.mem_singleton.1 hfilter
      trivial

theorem attachments_attach {call : Call} (h : call ∈ attachments p r) : call.Attaches := by
  rcases List.mem_append.1 h with haggregate | hrelation
  · obtain ⟨a, -, hcall⟩ := List.mem_flatMap.1 haggregate
    obtain ⟨e, -, rfl⟩ := List.mem_map.1 hcall
    trivial
  · unfold relationCalls at hrelation
    split_ifs at hrelation
    · cases hrelation
    · rw [List.mem_singleton.1 hrelation]
      trivial

theorem preliminaries_not_select {call : Call} (h : call ∈ preliminaries p r) : ¬ call.Selects := by
  rcases List.mem_append.1 h with hjoin | hrest
  · unfold joinCalls at hjoin
    cases hj : join? p r with
    | none =>
      rw [hj] at hjoin
      cases hjoin
    | some j =>
      rw [hj] at hjoin
      rcases List.mem_pair.1 hjoin with rfl | rfl <;> exact id
  · exact (attachments_attach hrest).not_selects

theorem preliminaries_joins {R : Registry} {q q' : Query} (hjoined : isJoined p r = false)
    (h : carryOut (Query.receiver R) (preliminaries p r) q = .ok q') :
    q'.statement.joins = q.statement.joins := by
  have hnone : join? p r = none := Option.not_isSome_iff_eq_none.1 (Bool.eq_false_iff.1 hjoined)
  have hcalls : joinCalls p r = [] := by
    unfold joinCalls
    rw [hnone]
  unfold preliminaries at h
  rw [hcalls, List.nil_append] at h
  refine Query.carryOut_joins (fun call hcall table foreignKey relatedKey hjoin => ?_) h
  have hattaches := attachments_attach hcall
  rw [hjoin] at hattaches
  exact hattaches

theorem carryOut_orderCalls (R : Registry) (p : Policy) (r : ListRequest) (q : Query) :
    ∃ orders, carryOut (Query.receiver R) (orderCalls p r) q =
      .ok { q with statement.orders := orders } := by
  unfold orderCalls
  cases sortField? p r with
  | none => exact ⟨q.statement.orders, rfl⟩
  | some e =>
    dsimp only
    split_ifs
    · exact ⟨_, rfl⟩
    · exact ⟨_, rfl⟩

/-! ### What is asked of rows -/

def columnGroups (p : Policy) (r : ListRequest) (e : String × String) : List (List Predicate) :=
  match Policy.columnOf? p.columnFields e.1 with
  | none => []
  | some name =>
    if e.2.isEmpty then []
    else [[.contains ⟨name, isJoined p r⟩ e.2 (p.isNumeric [e.1, name])]]

def isKnown (knows : Value → Bool) : Predicate → Bool
  | .compare _ operator _ => knows operator
  | .contains .. => true

def filterGroups (knows : Value → Bool) (p : Policy) (r : ListRequest) (f : String × Value) :
    List (List Predicate) :=
  ((comparisons p r f).filter (isKnown knows)).map fun pred => [pred]

theorem searchCalls_groups (p : Policy) (r : ListRequest) : (searchCalls p r).flatMap Call.groups =
    if r.search.isEmpty || p.searchFields.isEmpty then []
    else [p.searchFields.map fun name =>
      .contains ⟨name, isJoined p r⟩ r.search (p.isNumeric [name])] := by
  unfold searchCalls
  split_ifs <;> rfl

theorem columnSearchCalls_groups (p : Policy) (r : ListRequest) :
    (columnSearchCalls p r).flatMap Call.groups = r.columnSearch.flatMap (columnGroups p r) := by
  unfold columnSearchCalls
  induction r.columnSearch with
  | nil => rfl
  | cons e es ih =>
    obtain ⟨field, term⟩ := e
    rw [List.flatMap_cons, ← ih, List.filterMap_cons]
    simp only [columnGroups]
    cases Policy.columnOf? p.columnFields field with
    | none => rfl
    | some name =>
      by_cases hempty : term.isEmpty = true
      · simp only [hempty, if_true, List.nil_append]
      · simp only [hempty, List.flatMap_cons, Bool.false_eq_true, if_false]
        rfl

theorem filterCalls_groups (knows : Value → Bool) (p : Policy) (r : ListRequest) :
    (filterCalls knows p r).flatMap Call.groups = r.filters.flatMap (filterGroups knows p r) := by
  have hcalls : filterCalls knows p r =
      if ((r.filters.flatMap (comparisons p r)).filter (isKnown knows)).isEmpty then []
      else [.whereAll ((r.filters.flatMap (comparisons p r)).filter (isKnown knows))] := rfl
  have hgroups : r.filters.flatMap (filterGroups knows p r) =
      ((r.filters.flatMap (comparisons p r)).filter (isKnown knows)).map fun pred => [pred] := by
    rw [List.filter_flatMap, List.map_flatMap]
    rfl
  rw [hcalls, hgroups]
  split_ifs with hempty
  · rw [List.isEmpty_iff.1 hempty]
    rfl
  · exact List.append_nil _

theorem predicates_eq (knows : Value → Bool) (p : Policy) (r : ListRequest) : predicates knows p r =
    (searchCalls p r).flatMap Call.groups ++ r.columnSearch.flatMap (columnGroups p r) ++
      r.filters.flatMap (filterGroups knows p r) := by
  unfold predicates restrictions
  rw [List.flatMap_append, List.flatMap_append, columnSearchCalls_groups, filterCalls_groups]

theorem mem_of_columnOf? {fields : List (String × String)} {field name : String}
    (h : Policy.columnOf? fields field = some name) : name ∈ fields.map (·.2) := by
  obtain ⟨e, he, rfl⟩ := Option.map_eq_some_iff.1 h
  exact List.mem_map_of_mem (List.mem_of_find?_eq_some he)

/-! ## Columns of predicates -/

theorem columnGroups_column {e : String × String} {g : List Predicate}
    (hg : g ∈ columnGroups p r e) {pred : Predicate} (hpred : pred ∈ g) :
    ∃ name ∈ p.columnFields.map (·.2), pred.column = ⟨name, isJoined p r⟩ := by
  unfold columnGroups at hg
  cases hname : Policy.columnOf? p.columnFields e.1 with
  | none =>
    rw [hname] at hg
    cases hg
  | some name =>
    rw [hname] at hg
    dsimp only at hg
    split_ifs at hg
    · cases hg
    · rw [List.mem_singleton.1 hg] at hpred
      obtain rfl := List.mem_singleton.1 hpred
      exact ⟨name, mem_of_columnOf? hname, rfl⟩

theorem filterGroups_column {knows : Value → Bool} {f : String × Value} {g : List Predicate}
    (hg : g ∈ filterGroups knows p r f) {pred : Predicate} (hpred : pred ∈ g) :
    ∃ name ∈ p.filterableFields.map (·.2), pred.column = ⟨name, isJoined p r⟩ := by
  obtain ⟨pred', hpred', rfl⟩ := List.mem_map.1 hg
  obtain rfl := List.mem_singleton.1 hpred
  have hmem := (List.mem_filter.1 hpred').1
  unfold comparisons at hmem
  cases hname : Policy.columnOf? p.filterableFields f.1 with
  | none =>
    rw [hname] at hmem
    cases hmem
  | some name =>
    rw [hname] at hmem
    obtain ⟨t, -, rfl⟩ := List.mem_map.1 hmem
    exact ⟨name, mem_of_columnOf? hname, rfl⟩

/-- All predicates are on columns of the policy, qualified if a table is joined. -/
theorem predicates_column {knows : Value → Bool} {g : List Predicate}
    (hg : g ∈ predicates knows p r) {pred : Predicate} (hpred : pred ∈ g) :
    ∃ name ∈ p.selectingColumns, pred.column = ⟨name, isJoined p r⟩ := by
  unfold Policy.selectingColumns
  rw [predicates_eq] at hg
  rcases List.mem_append.1 hg with hg | hfilter
  · rcases List.mem_append.1 hg with hsearch | hcolumn
    · rw [searchCalls_groups] at hsearch
      split_ifs at hsearch
      · cases hsearch
      · rw [List.mem_singleton.1 hsearch] at hpred
        obtain ⟨name, hname, rfl⟩ := List.mem_map.1 hpred
        exact ⟨name, List.mem_append_left _ (List.mem_append_left _ hname), rfl⟩
    · obtain ⟨e, -, hg⟩ := List.mem_flatMap.1 hcolumn
      obtain ⟨name, hname, hcolumn⟩ := columnGroups_column hg hpred
      exact ⟨name, List.mem_append_left _ (List.mem_append_right _ hname), hcolumn⟩
  · obtain ⟨f, -, hg⟩ := List.mem_flatMap.1 hfilter
    obtain ⟨name, hname, hcolumn⟩ := filterGroups_column hg hpred
    exact ⟨name, List.mem_append_right _ hname, hcolumn⟩

/-- A query is built from what is there before rows are selected and the conditions of what the
plan asks of them. -/
theorem build_eq_ok_iff {R : Registry} {q q' : Query} :
    build (Query.receiver R) none p r q = .ok q' ↔ ∃ q₁ gs,
      carryOut (Query.receiver R) (preliminaries p r) q = .ok q₁ ∧
      q₁.groupsOf R (predicates (Query.receiver R).knows p r) = .ok gs ∧
      carryOut (Query.receiver R) (orderCalls p r) (q₁.restrict gs) = .ok q' := by
  rw [build_none, calls_eq, carryOut_append, carryOut_append]
  constructor
  · intro h
    obtain ⟨q₂, h, horders⟩ := bind_eq_ok_iff.1 h
    obtain ⟨q₁, hpre, hrestrict⟩ := bind_eq_ok_iff.1 h
    rw [Query.carryOut_selects (restrictions_select _ p r)] at hrestrict
    obtain ⟨gs, hgs, rfl⟩ := map_eq_ok_iff.1 hrestrict
    exact ⟨q₁, gs, hpre, hgs, horders⟩
  · rintro ⟨q₁, gs, hpre, hgs, horders⟩
    have hrestrict : carryOut (Query.receiver R)
        (restrictions (Query.receiver R).knows p r) q₁ = .ok (q₁.restrict gs) := by
      rw [Query.carryOut_selects (restrictions_select _ p r)]
      exact map_eq_ok_iff.2 ⟨gs, hgs, rfl⟩
    exact bind_eq_ok_iff.2 ⟨_, bind_eq_ok_iff.2 ⟨_, hpre, hrestrict⟩, horders⟩

end Plan
end Listing
