import Listing.Proofs.AllowedEntries
import Listing.Proofs.Restrictions

set_option autoImplicit false

namespace Listing

def Policy.columnNames (p : Policy) : List String :=
  p.searchFields ++ (p.columnFields ++ p.filterableFields ++ p.sortableFields).map (·.2)

def ColumnRef.Follows (p : Policy) (joined : Prop) (c : ColumnRef) : Prop :=
  c.name ∈ p.columnNames ∧ (c.qualified = true ↔ joined)

def Predicate.Follows (p : Policy) (r : ListRequest) (joined : Prop) : Predicate → Prop
  | .contains c term _ =>
    c.Follows p joined ∧ (term = r.search ∨ ∃ e ∈ r.columnSearch, e.2 = term)
  | .compare c operator operand =>
    c.Follows p joined ∧ ∃ f ∈ r.filters, (operator, operand) ∈ Plan.terms f.2

namespace Call

/-- Names of the policy stand in every place of a call but those of terms, operators, operands and
relations, which are filled from the request. -/
def Follows (p : Policy) (r : ListRequest) (joined : Prop) : Call → Prop
  | .leftJoin table foreignKey relatedKey => joined ∧ ∃ e ∈ p.relationJoins,
    e.2.table = table ∧ e.2.foreignKey = foreignKey ∧ e.2.relatedKey = relatedKey
  | .selectBase => True
  | .withAggregate kind relation column => ∃ a ∈ p.aggregates, a.1 = kind ∧ (relation, column) ∈ a.2
  | .withRelations relations => relations = r.relations
  | .whereAny ps => ∀ pred ∈ ps, pred.Follows p r joined
  | .whereAll ps => ∀ pred ∈ ps, pred.Follows p r joined
  | .orderBy c _ => c.Follows p joined
  | .orderByNulls c _ _ => c.Follows p joined

def IsJoin : Call → Prop
  | .leftJoin .. => True
  | _ => False

end Call

namespace Plan

variable {p : Policy} {r : ListRequest}

theorem searchField_named {name : String} (h : name ∈ p.searchFields) : name ∈ p.columnNames :=
  List.mem_append_left _ h

theorem field_named {fields : List (String × String)} {field name : String}
    (hfields : fields ⊆ p.columnFields ++ p.filterableFields ++ p.sortableFields)
    (h : Policy.columnOf? fields field = some name) : name ∈ p.columnNames := by
  obtain ⟨e, he, rfl⟩ := List.mem_map.1 (mem_of_columnOf? h)
  exact List.mem_append_right _ (List.mem_map_of_mem (hfields he))

theorem columnField_named {field name : String}
    (h : Policy.columnOf? p.columnFields field = some name) : name ∈ p.columnNames :=
  field_named (by simp) h

theorem filterableField_named {field name : String}
    (h : Policy.columnOf? p.filterableFields field = some name) : name ∈ p.columnNames :=
  field_named (by simp) h

theorem sortField_named {field name : String} (h : sortField? p r = some (field, name)) :
    name ∈ p.columnNames := by
  have hmem : name ∈ p.sortableFields.map (·.2) := by
    unfold sortField? at h
    split at h
    · rename_i column hcolumn
      cases h
      exact mem_of_columnOf? hcolumn
    · exact List.mem_map_of_mem (List.mem_of_mem_head? h)
  obtain ⟨e, he, rfl⟩ := List.mem_map.1 hmem
  exact List.mem_append_right _ (List.mem_map_of_mem (List.mem_append_right _ he))

theorem column_follows {name : String} (h : name ∈ p.columnNames) :
    (ColumnRef.mk name (isJoined p r)).Follows p (isJoined p r = true) := ⟨h, Iff.rfl⟩

theorem joinCalls_follow : ∀ call ∈ joinCalls p r, call.Follows p r (isJoined p r = true) := by
  unfold joinCalls isJoined
  cases hjoin : join? p r with
  | none => exact List.forall_mem_nil _
  | some j =>
    have hentry : ∃ e ∈ p.relationJoins, e.2 = j := by
      obtain ⟨s, -, hs⟩ := Option.bind_eq_some_iff.1 hjoin
      unfold Policy.joinFor? at hs
      split_ifs at hs
      obtain ⟨e, he, rfl⟩ := Option.map_eq_some_iff.1 hs
      exact ⟨e, List.mem_of_find?_eq_some he, rfl⟩
    obtain ⟨e, he, rfl⟩ := hentry
    intro call hcall
    rcases List.mem_pair.1 hcall with rfl | rfl
    · exact ⟨rfl, e, he, rfl, rfl, rfl⟩
    · trivial

theorem aggregateCalls_follow :
    ∀ call ∈ aggregateCalls p, call.Follows p r (isJoined p r = true) := by
  intro call hcall
  obtain ⟨a, ha, hcall⟩ := List.mem_flatMap.1 hcall
  obtain ⟨e, he, rfl⟩ := List.mem_map.1 hcall
  exact ⟨a, ha, rfl, he⟩

theorem relationCalls_follow :
    ∀ call ∈ relationCalls r, call.Follows p r (isJoined p r = true) := by
  unfold relationCalls
  split_ifs
  · exact List.forall_mem_nil _
  · exact List.forall_mem_singleton.2 rfl

theorem searchCalls_follow : ∀ call ∈ searchCalls p r, call.Follows p r (isJoined p r = true) := by
  unfold searchCalls
  split_ifs
  · exact List.forall_mem_nil _
  · refine List.forall_mem_singleton.2 fun pred hpred => ?_
    obtain ⟨name, hname, rfl⟩ := List.mem_map.1 hpred
    exact ⟨column_follows (searchField_named hname), .inl rfl⟩

theorem columnSearchCalls_follow :
    ∀ call ∈ columnSearchCalls p r, call.Follows p r (isJoined p r = true) := by
  intro call hcall
  obtain ⟨⟨field, term⟩, he, hcall⟩ := List.mem_filterMap.1 hcall
  dsimp only at hcall
  cases hname : Policy.columnOf? p.columnFields field with
  | none =>
    rw [hname] at hcall
    cases hcall
  | some name =>
    rw [hname] at hcall
    dsimp only at hcall
    split_ifs at hcall
    cases hcall
    exact List.forall_mem_singleton.2 ⟨column_follows (columnField_named hname), .inr ⟨_, he, rfl⟩⟩

theorem comparisons_follow : ∀ pred ∈ r.filters.flatMap (comparisons p r),
    pred.Follows p r (isJoined p r = true) := by
  intro pred hpred
  obtain ⟨f, hf, hpred⟩ := List.mem_flatMap.1 hpred
  unfold comparisons at hpred
  cases hname : Policy.columnOf? p.filterableFields f.1 with
  | none =>
    rw [hname] at hpred
    cases hpred
  | some name =>
    rw [hname] at hpred
    obtain ⟨term, hterm, rfl⟩ := List.mem_map.1 hpred
    exact ⟨column_follows (filterableField_named hname), f, hf, hterm⟩

theorem filterCalls_follow (knows : Value → Bool) :
    ∀ call ∈ filterCalls knows p r, call.Follows p r (isJoined p r = true) := by
  unfold filterCalls
  dsimp only
  split_ifs
  · exact List.forall_mem_nil _
  · refine List.forall_mem_singleton.2 fun pred hpred => ?_
    exact comparisons_follow pred (List.mem_filter.1 hpred).1

theorem orderCalls_follow : ∀ call ∈ orderCalls p r, call.Follows p r (isJoined p r = true) := by
  unfold orderCalls
  split
  · exact List.forall_mem_nil _
  · rename_i field name hsort
    have hcolumn := column_follows (r := r) (sortField_named hsort)
    dsimp only
    split_ifs
    · exact List.forall_mem_singleton.2 hcolumn
    · exact List.forall_mem_singleton.2 hcolumn

theorem calls_follow (knows : Value → Bool) :
    ∀ call ∈ calls knows p r, call.Follows p r (isJoined p r = true) := by
  unfold calls selection
  simp only [List.forall_mem_append]
  exact ⟨⟨⟨⟨⟨⟨joinCalls_follow, aggregateCalls_follow⟩, relationCalls_follow⟩, searchCalls_follow⟩,
    columnSearchCalls_follow⟩, filterCalls_follow knows⟩, orderCalls_follow⟩

theorem isJoined_of_join {knows : Value → Bool} {made : List Call}
    (hmade : made <+: calls knows p r) (h : ∃ join ∈ made, join.IsJoin) : isJoined p r = true := by
  obtain ⟨join, hjoin, his⟩ := h
  have hfollows := calls_follow knows join (hmade.subset hjoin)
  cases join with
  | leftJoin table foreignKey relatedKey => exact hfollows.1
  | _ => exact his.elim

/-- A join comes before all else, so whatever part of a plan is carried out, it is in it. -/
theorem exists_join_iff {knows : Value → Bool} {made : List Call}
    (hmade : made <+: calls knows p r) {call : Call} (hcall : call ∈ made) :
    (∃ join ∈ made, join.IsJoin) ↔ isJoined p r = true := by
  refine ⟨isJoined_of_join hmade, fun hjoined => ?_⟩
  obtain ⟨j, hj⟩ := Option.isSome_iff_exists.1 hjoined
  obtain ⟨rest, hrest⟩ : ∃ rest,
      calls knows p r = .leftJoin j.table j.foreignKey j.relatedKey :: rest := by
    unfold calls selection joinCalls
    rw [hj]
    exact ⟨_, rfl⟩
  rw [hrest] at hmade
  obtain ⟨first, others, rfl⟩ := List.exists_cons_of_ne_nil (List.ne_nil_of_mem hcall)
  obtain ⟨rfl, -⟩ := List.cons_prefix_cons.1 hmade
  exact ⟨_, List.mem_cons_self, trivial⟩

theorem exists_join_calls_iff {knows : Value → Bool} :
    (∃ join ∈ calls knows p r, join.IsJoin) ↔ isJoined p r = true := by
  refine ⟨isJoined_of_join List.prefix_rfl, fun hjoined => ?_⟩
  have hcall : Call.selectBase ∈ calls knows p r := by
    obtain ⟨j, hj⟩ := Option.isSome_iff_exists.1 hjoined
    simp [calls, selection, joinCalls, hj]
  exact (exists_join_iff List.prefix_rfl hcall).2 hjoined

theorem filterColumns_follow : ∀ c ∈ filterColumns p r, c.Follows p (isJoined p r = true) := by
  intro c hc
  obtain ⟨f, -, hc⟩ := List.mem_filterMap.1 hc
  obtain ⟨name, hname, rfl⟩ := Option.map_eq_some_iff.1 hc
  exact column_follows (filterableField_named hname)

/-- A build makes the calls of the plan, or as many of them as the handle takes. Each of them
follows the policy, and so do the columns and comparisons that filters ask for, those included of
which no call comes. -/
theorem plan_follows_policy {H : Type} (receiver : Receiver H) (p : Policy) (r : ListRequest)
    (handle : H) :
    build receiver none p r handle = carryOut receiver (calls receiver.knows p r) handle ∧
    (∀ made, made <+: calls receiver.knows p r →
      ∀ call ∈ made, call.Follows p r (∃ join ∈ made, join.IsJoin)) ∧
    (∀ c ∈ filterColumns p r,
      c.Follows p (∃ join ∈ calls receiver.knows p r, join.IsJoin)) ∧
    ∀ pred ∈ r.filters.flatMap (comparisons p r),
      pred.Follows p r (∃ join ∈ calls receiver.knows p r, join.IsJoin) := by
  refine ⟨build_none receiver p r handle, fun made hmade call hcall => ?_, ?_, ?_⟩
  · rw [exists_join_iff hmade hcall]
    exact calls_follow receiver.knows call (hmade.subset hcall)
  · rw [exists_join_calls_iff]
    exact filterColumns_follow
  · rw [exists_join_calls_iff]
    exact comparisons_follow

/-- A request whose sort key needs a join, with filters that are allowed and not. -/
def teamRequest : ListRequest where
  search := "man"
  filters := [("password", .text "x"), ("age", .map [(.text "gte", .text "20")])]
  sortBy := "team"

theorem plan_follows_policy_team :
    (Call.orderBy ⟨"teams.name", true⟩ .desc ∈ calls (fun _ => true) heroPolicy teamRequest ∧
      (ColumnRef.mk "age" true) ∈ filterColumns heroPolicy teamRequest) ∧
    "teams.name" ∈ heroPolicy.columnNames ∧
    ∃ join ∈ calls (fun _ => true) heroPolicy teamRequest, join.IsJoin := by
  have hcall : Call.orderBy ⟨"teams.name", true⟩ .desc ∈
      calls (fun _ => true) heroPolicy teamRequest := List.mem_append_right _ List.mem_cons_self
  have hcolumn : ColumnRef.mk "age" true ∈ filterColumns heroPolicy teamRequest := by decide
  have hplan := plan_follows_policy (H := Unit) ⟨fun _ _ => .ok (), fun _ => "heroes", fun _ => true⟩
    heroPolicy teamRequest ()
  obtain ⟨hname, hqualified⟩ := hplan.2.1 _ List.prefix_rfl _ hcall
  exact ⟨⟨hcall, hcolumn⟩, hname, hqualified.1 rfl⟩

end Plan
end Listing
