import Listing.Proofs.SortedRows
import Listing.Proofs.WiderItems

set_option autoImplicit false

namespace Listing

open Outcome Sql

namespace Call

def labels : Call → List String
  | .withAggregate kind relation column =>
    [Query.aggregateLabel kind relation (if kind = .count then none else column)]
  | _ => []

def orders : Call → List ColumnRef
  | .orderBy c _ => [c]
  | .orderByNulls c _ _ => [c]
  | _ => []

end Call

def Policy.labels (p : Policy) : List String := (Plan.aggregateCalls p).flatMap Call.labels

namespace Query

def Change.labels : Change → List String
  | .aggregate a => [a.label]
  | _ => []

def Change.orders : Change → List Column
  | .order o => [o.column]
  | _ => []

variable {R : Registry} {q : Query} {call : Call} {d : Change}

theorem aggregateColumn_name {kind : AggregateKind} {target : Table} {column : Option String}
    {found : Option (String × ColumnType)} (h : aggregateColumn kind target column = .ok found) :
    found.map (·.1) = if kind = .count then none else column := by
  unfold aggregateColumn at h
  split_ifs at h ⊢
  · cases h
    rfl
  · split at h
    · cases h
    · split at h
      · cases h
        rfl
      · cases h

/-- What a change adds is what the call says, and only the selection of the base columns drops
aggregates. -/
theorem changeOf_adds (h : q.changeOf R call = .ok d) : (d = .deselect → call = .selectBase) ∧
    d.labels = call.labels ∧ d.orders = call.orders.map q.column := by
  cases call with
  | selectBase =>
    cases h
    exact ⟨fun _ => rfl, rfl, rfl⟩
  | withAggregate kind relation column =>
    obtain ⟨b, hb, rfl⟩ := map_eq_ok_iff.1 h
    obtain ⟨_, _, found, -, -, -, hfound, rfl⟩ := aggregateOf_eq_ok_iff.1 hb
    refine ⟨nofun, ?_, rfl⟩
    rw [Call.labels, ← aggregateColumn_name hfound]
    rfl
  | leftJoin table foreignKey relatedKey =>
    obtain ⟨j, -, rfl⟩ := map_eq_ok_iff.1 h
    exact ⟨nofun, rfl, rfl⟩
  | whereAny ps =>
    obtain ⟨cs, -, rfl⟩ := map_eq_ok_iff.1 h
    exact ⟨nofun, rfl, rfl⟩
  | whereAll ps =>
    obtain ⟨cs, -, rfl⟩ := map_eq_ok_iff.1 h
    exact ⟨nofun, rfl, rfl⟩
  | _ =>
    cases h
    exact ⟨nofun, rfl, rfl⟩

theorem apply_labels (hd : d ≠ .deselect) : (q.apply d).statement.aggregates.map (·.label) =
    q.statement.aggregates.map (·.label) ++ d.labels := by
  cases d with
  | deselect => exact absurd rfl hd
  | aggregate a => exact List.map_append
  | _ => exact (List.append_nil _).symm

theorem apply_orders (q : Query) (d : Change) : (q.apply d).statement.orders.map (·.column) =
    q.statement.orders.map (·.column) ++ d.orders := by
  cases d with
  | order o => exact List.map_append
  | _ => exact (List.append_nil _).symm

end Query

namespace Query

/-- The second handle is the first with one aggregate more. -/
def Extends (a : Aggregate) (q q' : Query) : Prop :=
  ∃ as, q' = q.withAggregates as ∧ Inserts a q.statement.aggregates as

variable {R : Registry} {q q' : Query} {a : Aggregate}

theorem Extends.sharesModel (h : Extends a q q') : q.SharesModel q' := by
  obtain ⟨as, rfl, -⟩ := h
  exact ⟨rfl, rfl⟩

theorem Extends.apply (h : Extends a q q') {d : Change} (hd : d ≠ .deselect) :
    Extends a (q.apply d) (q'.apply d) := by
  obtain ⟨as, rfl, has⟩ := h
  cases d with
  | deselect => exact absurd rfl hd
  | aggregate b => exact ⟨as ++ [b], rfl, has.append_right [b]⟩
  | _ => exact ⟨as, rfl, has⟩

theorem Extends.carryOut {calls : List Call} (hcalls : ∀ call ∈ calls, call ≠ .selectBase)
    (h : Extends a q q') : Follows (Extends a) (Plan.carryOut (receiver R) calls q)
      (Plan.carryOut (receiver R) calls q') := by
  induction calls generalizing q q' with
  | nil => exact Follows.ok h
  | cons call calls ih =>
    rw [carryOut_cons, carryOut_cons, ← changeOf_congr h.sharesModel]
    refine Follows.after fun d hd => ?_
    refine ih (fun call' hcall' => hcalls call' (List.mem_cons_of_mem _ hcall')) (h.apply ?_)
    exact fun heq => hcalls call List.mem_cons_self ((changeOf_adds hd).1 heq)

theorem carryOut_inserts {call : Call} {calls calls' : List Call} (h : Inserts call calls calls')
    (hcalls : ∀ call ∈ calls, call ≠ .selectBase) (hcall : q.changeOf R call = .ok (.aggregate a)) :
    Follows (Extends a) (Plan.carryOut (receiver R) calls q)
      (Plan.carryOut (receiver R) calls' q) := by
  induction h generalizing q with
  | here calls =>
    have hone : Extends a q (q.apply (.aggregate a)) :=
      ⟨q.statement.aggregates ++ [a], rfl, .concat _ a⟩
    rw [carryOut_cons, hcall]
    exact hone.carryOut hcalls
  | there first _ ih =>
    rw [carryOut_cons, carryOut_cons]
    refine Follows.after fun d _ => ?_
    refine ih (fun call' hcall' => hcalls call' (List.mem_cons_of_mem _ hcall')) ?_
    rw [changeOf_congr (apply_sharesModel q d), hcall]

end Query

namespace Query

variable {R : Registry} {q q' : Query}

theorem carryOut_appends {α : Type} {k : Query → List α} {f : Call → List α} {calls : List Call}
    (happends : ∀ call ∈ calls, ∀ q₁ d, q₁.SharesModel q → q₁.changeOf R call = .ok d →
      k (q₁.apply d) = k q₁ ++ f call)
    (h : Plan.carryOut (receiver R) calls q = .ok q') : k q' = k q ++ calls.flatMap f := by
  induction calls generalizing q with
  | nil =>
    cases h
    exact (List.append_nil _).symm
  | cons call calls ih =>
    rw [carryOut_cons] at h
    obtain ⟨d, hd, h⟩ := bind_eq_ok_iff.1 h
    have hfirst := happends call List.mem_cons_self q d ⟨rfl, rfl⟩ hd
    have hrest := ih (fun call' hcall' q₁ d' hshares => ?_) h
    · rw [hrest, hfirst, List.flatMap_cons, List.append_assoc]
    · have hshares' := apply_sharesModel q d
      exact happends call' (List.mem_cons_of_mem _ hcall') q₁ d'
        ⟨hshares.1.trans hshares'.1, hshares.2.trans hshares'.2⟩

theorem carryOut_labels {calls : List Call} (hcalls : ∀ call ∈ calls, call ≠ .selectBase)
    (h : Plan.carryOut (receiver R) calls q = .ok q') :
    q'.statement.aggregates.map (·.label) =
      q.statement.aggregates.map (·.label) ++ calls.flatMap Call.labels := by
  refine carryOut_appends (k := fun q => q.statement.aggregates.map (·.label)) (f := Call.labels)
    (fun call hcall q₁ d _ hd => ?_) h
  obtain ⟨hdeselect, hadds, -⟩ := changeOf_adds hd
  rw [← hadds]
  exact apply_labels fun heq => hcalls call hcall (hdeselect heq)

theorem carryOut_orders {calls : List Call} (h : Plan.carryOut (receiver R) calls q = .ok q') :
    q'.statement.orders.map (·.column) =
      q.statement.orders.map (·.column) ++ (calls.flatMap Call.orders).map q.column := by
  rw [List.map_flatMap]
  refine carryOut_appends (k := fun q => q.statement.orders.map (·.column))
    (f := fun call => call.orders.map q.column) (fun call _ q₁ d hshares hd => ?_) h
  rw [apply_orders, (changeOf_adds hd).2.2, column_congr hshares]

end Query

namespace Plan

variable {R : Registry} {p : Policy} {r : ListRequest} {c : Catalog} {m : Model} {q : Query}

theorem build_labels (h : build (Query.receiver R) none p r (Query.ofModel c m) = .ok q) :
    q.statement.aggregates.map (·.label) = p.labels := by
  obtain ⟨q₀, gs, orders, hq₀, -, rfl⟩ := exists_parts h
  have hcalls : ∀ call ∈ attachments p r, call ≠ .selectBase := by
    rintro _ hcall rfl
    exact attachments_attach hcall
  have hrelations : (relationCalls r).flatMap Call.labels = [] := by
    unfold relationCalls
    split_ifs <;> rfl
  have hlabels := Query.carryOut_labels hcalls hq₀
  unfold attachments at hlabels
  rw [List.flatMap_append, hrelations, List.append_nil] at hlabels
  exact hlabels

theorem preliminaries_orders {call : Call} (h : call ∈ preliminaries p r) : call.orders = [] := by
  rcases List.mem_append.1 h with hjoin | hrest
  · unfold joinCalls at hjoin
    split at hjoin
    · rcases List.mem_pair.1 hjoin with rfl | rfl <;> rfl
    · cases hjoin
  · have hattaches := attachments_attach hrest
    cases call with
    | withAggregate kind relation column => rfl
    | withRelations paths => rfl
    | _ => exact hattaches.elim

theorem orderCalls_orders : (orderCalls p r).flatMap Call.orders =
    ((sortField? p r).toList.map fun e => ⟨e.2, isJoined p r⟩) := by
  unfold orderCalls
  cases sortField? p r with
  | none => rfl
  | some e =>
    dsimp only
    split_ifs <;> rfl

theorem build_orders (h : build (Query.receiver R) none p r (Query.ofModel c m) = .ok q) :
    q.statement.orders.map (·.column) = (sortField? p r).toList.map fun e =>
      (Query.ofModel c m).column ⟨e.2, isJoined p r⟩ := by
  obtain ⟨q₁, gs, hq₁, -, h⟩ := build_eq_ok_iff.1 h
  have hshares := Query.carryOut_sharesModel hq₁
  have hnone : (preliminaries p r).flatMap Call.orders = [] :=
    List.flatMap_eq_nil_iff.2 fun call => preliminaries_orders
  have hpre := Query.carryOut_orders hq₁
  rw [hnone] at hpre
  have hall := Query.carryOut_orders h
  have hcolumn : (q₁.restrict gs).column = (Query.ofModel c m).column :=
    Query.column_congr ⟨hshares.1, hshares.2⟩
  rw [orderCalls_orders, hcolumn, List.map_map] at hall
  refine hall.trans ?_
  change q₁.statement.orders.map (·.column) ++ _ = _
  rw [hpre]
  rfl

theorem build_conditions (hR : R.IsPlain)
    (h : build (Query.receiver R) none p r (Query.ofModel c m) = .ok q) {g : List Condition}
    (hg : g ∈ q.statement.groups) {cond : Condition} (hcond : cond ∈ g) :
    ∃ ps ∈ predicates (Query.receiver R).knows p r, ∃ pred ∈ ps,
      cond.column = (Query.ofModel c m).column pred.column := by
  obtain ⟨q₀, gs, orders, hq₀, hgs, rfl⟩ := exists_parts h
  rw [← Query.column_congr (Query.carryOut_sharesModel hq₀)]
  exact Query.groupsOf_column hR hgs hg hcond

/-- Whatever is done before, a plan selects the base columns only once, before all else. -/
theorem selectBase_not_mem {knows : Value → Bool} {call : Call}
    (h : call ∈ attachments p r ++ restrictions knows p r ++ orderCalls p r) :
    call ≠ .selectBase := by
  rintro rfl
  rcases List.mem_append.1 h with h | horder
  · rcases List.mem_append.1 h with hattach | hrestrict
    · exact attachments_attach hattach
    · exact restrictions_select knows p r _ hrestrict
  · unfold orderCalls at horder
    split at horder
    · cases horder
    · dsimp only at horder
      split_ifs at horder <;> cases List.mem_singleton.1 horder

end Plan
end Listing
