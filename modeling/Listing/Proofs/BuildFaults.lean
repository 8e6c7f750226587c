import Listing.Proofs.Changes
import Listing.Proofs.Coercions
import Listing.Proofs.RequestReading

set_option autoImplicit false

/-!
# Faults of building

Of a policy whose names resolve only filters can fail: an integer column meets a text that denotes
infinity, or a column of moments meets a text in the reading of which a quotient has no value. The
texts that are coerced can be told from policy and request alone.
-/

namespace Listing

open Outcome Sql

/-! ## Coercion -/

namespace Coercion

/-- A text that is no integer numeral and denotes an infinite floating point number. -/
def Infinite (s : String) : Prop :=
  Numeral.readInteger? s.toList = none ∧
    ∃ negative, Numeral.readBinary64? s.toList = some (.infinite negative)

/-- A text that is no date in ISO form and makes the reader of everyday notation divide what has no
quotient. -/
def Indivisible (s : String) : Prop :=
  IsoDate.read? s.toList = none ∧ FreeForm.read s.toList = .error .indivisible

def Fails : Kind → String → Prop
  | .int, s => Infinite s
  | .datetime, s => Indivisible s
  | _, _ => False

def IsPlain (k : Kind) : Prop := k = .int ∨ k = .text ∨ k = .datetime

theorem IsPlain.comparable {k : Kind} (hk : IsPlain k) {s : String} {v : Value}
    (h : ofText k s = .ok v) : IsComparable v := by
  refine ofText_comparable ?_ ?_ h
  · rcases hk with rfl | rfl | rfl <;> exact nofun
  · rcases hk with rfl | rfl | rfl <;> exact nofun

theorem toInteger_cases (s : String) : (¬ Infinite s ∧ ∃ v, toInteger s = .ok v) ∨
    (Infinite s ∧ toInteger s = .error .infiniteToInteger) := by
  unfold toInteger Infinite
  cases hinteger : Numeral.readInteger? s.toList with
  | some n => exact .inl ⟨(fun h => nomatch h.1), _, rfl⟩
  | none =>
    cases hreal : Numeral.readBinary64? s.toList with
    | none => exact .inl ⟨(fun ⟨_, _, h⟩ => nomatch h), _, rfl⟩
    | some x =>
      cases x with
      | nan => exact .inl ⟨(fun ⟨_, _, h⟩ => nomatch h), _, rfl⟩
      | infinite negative => exact .inr ⟨⟨rfl, negative, rfl⟩, rfl⟩
      | finite negative m e =>
        exact .inl ⟨(fun ⟨_, _, h⟩ => nomatch h), _, rfl⟩

theorem toDateTime_cases (s : String) :
    (¬ Indivisible s ∧ ∃ v, toDateTime s = .ok v) ∨
      (Indivisible s ∧ toDateTime s = .error .decimalIndivisible) := by
  unfold toDateTime Indivisible
  cases hiso : IsoDate.read? s.toList with
  | some t => exact .inl ⟨(fun h => nomatch h.1), _, rfl⟩
  | none =>
    cases hfree : FreeForm.read s.toList with
    | ok t => exact .inl ⟨(fun h => nomatch h.2), _, rfl⟩
    | error e =>
      cases e with
      | notADate => exact .inl ⟨(fun h => nomatch h.2), _, rfl⟩
      | indivisible => exact .inr ⟨⟨rfl, rfl⟩, rfl⟩

theorem ofText_cases {k : Kind} (hk : IsPlain k) (s : String) :
    (¬ Fails k s ∧ ∃ v, ofText k s = .ok v) ∨
      (Fails k s ∧ ∃ e, ofText k s = .error e ∧
        (e = .infiniteToInteger ∨ e = .decimalIndivisible)) := by
  rcases hk with rfl | rfl | rfl
  · rcases toInteger_cases s with h | ⟨hfails, h⟩
    · exact .inl h
    · exact .inr ⟨hfails, _, h, .inl rfl⟩
  · exact .inl ⟨id, _, rfl⟩
  · rcases toDateTime_cases s with h | ⟨hfails, h⟩
    · exact .inl h
    · exact .inr ⟨hfails, _, h, .inr rfl⟩

theorem ofText_ok_iff {k : Kind} (hk : IsPlain k) (s : String) :
    verdict (ofText k s) = .ok () ↔ ¬ Fails k s := by
  rw [verdict_eq_ok_iff]
  rcases ofText_cases hk s with ⟨hfine, v, hv⟩ | ⟨hfails, e, he, -⟩
  · exact iff_of_true ⟨v, hv⟩ hfine
  · refine iff_of_false ?_ (not_not_intro hfails)
    rintro ⟨v, hv⟩
    rw [he] at hv
    cases hv

theorem ofText_error {k : Kind} (hk : IsPlain k) {s : String} {e : Fault}
    (h : ofText k s = .error e) : e = .infiniteToInteger ∨ e = .decimalIndivisible := by
  rcases ofText_cases hk s with ⟨-, v, hv⟩ | ⟨-, e', he', hfault⟩
  · rw [hv] at h
    cases h
  · rw [he'] at h
    cases h
    exact hfault

end Coercion

/-! ## Strategies -/

namespace Strategy

open Coercion

def coercedTexts : FilterOperator → Value → List String
  | .like, _ => []
  | .within, v => splitItems v
  | .eq, .list items => splitItems (.list items)
  | _, .text s => [s]
  | _, _ => []

variable {c : Column} {k : Kind}

theorem comparing_verdict (hk : IsPlain k) (op : Comparison) (s : String) :
    verdict (comparing op c (.text s) (some k)) = verdict (ofText k s) := by
  have hoperand : operand c (some k) (.text s) = ofText k s := rfl
  unfold comparing
  rw [hoperand]
  rcases ofText_cases hk s with ⟨-, v, hv⟩ | ⟨-, e, he, -⟩
  · rw [hv, ok_bind, hk.comparable hv op c]
    rfl
  · rw [he]
    rfl

theorem within_verdict (v : Value) : verdict (within c v (some k)) =
    forM (splitItems v) fun s => verdict (ofText k s) := by
  unfold within
  rw [verdict_bind_ok, verdict_mapM]
  rfl

/-- An operand as filters have it: a text, or a list where the operator takes one. -/
def Fits (o : FilterOperator) (v : Value) : Prop :=
  (∃ s, v = .text s) ∨ ((o = .eq ∨ o = .within) ∧ ∃ items, v = .list items)

theorem builtin_verdict (hk : IsPlain k) {o : FilterOperator} {v : Value} (h : Fits o v) :
    verdict (builtin o c v (some k)) = forM (coercedTexts o v) fun s => verdict (ofText k s) := by
  have hone (op : Comparison) (s : String) : verdict (comparing op c (.text s) (some k)) =
      forM [s] fun s => verdict (ofText k s) := by
    rw [comparing_verdict hk, List.forM_cons, List.forM_nil]
    cases verdict (ofText k s) <;> rfl
  rcases h with ⟨s, rfl⟩ | ⟨rfl | rfl, items, rfl⟩
  · cases o with
    | eq => exact hone .eq s
    | ne => exact hone .ne s
    | gt => exact hone .gt s
    | gte => exact hone .ge s
    | lt => exact hone .lt s
    | lte => exact hone .le s
    | like => rfl
    | within => exact within_verdict _
  · exact within_verdict _
  · exact within_verdict _

end Strategy

/-! ## Policies that resolve -/

/-- A policy whose joins, aggregates and filters fit a model: keys are columns, aggregates are over
relations of their own and columns of the target, and filters are on integer, text and datetime
columns. -/
structure Policy.Resolves (c : Catalog) (m : Model) (p : Policy) : Prop where
  joins : ∀ e ∈ p.relationJoins, m.table.hasColumn e.2.foreignKey ∧
    ∀ t, c.table? e.2.table = some t → t.hasColumn e.2.relatedKey
  aggregates : ∀ a ∈ p.aggregates, ∀ e ∈ a.2, ∃ relation target,
    m.relation? e.1 = some relation ∧ relation.link = none ∧ c.targetOf? relation = some target ∧
      (a.1 = .count ∨ ∃ column, e.2 = some column ∧ target.table.hasColumn column)
  filters : ∀ e ∈ p.filterableFields, ∃ k, Coercion.IsPlain k ∧
    ((Query.ofModel c m).column ⟨e.2, false⟩).type.kind? = some k

namespace Query

open Coercion Strategy

variable {r : Registry} {q : Query}

theorem joinOf_ok {table foreignKey relatedKey : String}
    (hkey : q.model.table.hasColumn foreignKey = true)
    (hrelated : ∀ t, q.catalog.table? table = some t → t.hasColumn relatedKey = true) :
    q.joinOf table foreignKey relatedKey = .ok ⟨table, foreignKey, relatedKey⟩ := by
  have hany : (q.catalog.table? table).any (!·.hasColumn relatedKey) = false := by
    cases htable : q.catalog.table? table with
    | none => rfl
    | some t =>
      rw [Option.any_some, hrelated t htable]
      rfl
  unfold joinOf
  rw [hkey, hany]
  rfl

theorem aggregateOf_ok {kind : AggregateKind} {name : String} {column : Option String}
    {relation : Relation} {target : Model} (hrelation : q.model.relation? name = some relation)
    (hlink : relation.link = none) (htarget : q.catalog.targetOf? relation = some target)
    (hcolumn : kind = .count ∨ ∃ col, column = some col ∧ target.table.hasColumn col = true) :
    ∃ a, q.aggregateOf kind name column = .ok a := by
  obtain ⟨found, hfound⟩ : ∃ found, aggregateColumn kind target.table column = .ok found := by
    unfold aggregateColumn
    split_ifs with hcount
    · exact ⟨none, rfl⟩
    · rcases hcolumn with hcount' | ⟨col, rfl, hcol⟩
      · exact absurd hcount' hcount
      · obtain ⟨type, htype⟩ := Option.isSome_iff_exists.1 hcol
        dsimp only
        rw [htype]
        exact ⟨_, rfl⟩
  exact ⟨_, aggregateOf_eq_ok_iff.2
    ⟨relation, target, found, hrelation, hlink, htarget, hfound, rfl⟩⟩

/-! ## Comparisons -/

def coerceFor (q : Query) (e : String × String) : Outcome Unit :=
  verdict (Coercion.coerce (q.column ⟨e.1, false⟩).type.kind? (.text e.2))

def coercedIn : Predicate → List (String × String)
  | .contains _ _ _ => []
  | .compare c operator operand =>
    match FilterOperator.ofValue? operator with
    | none => []
    | some o => (coercedTexts o operand).map (c.name, ·)

theorem compare_verdict {c : ColumnRef} {k : Kind} (hk : IsPlain k)
    (hc : (q.column ⟨c.name, false⟩).type.kind? = some k) {operator operand : Value}
    (hfits : ∀ o, FilterOperator.ofValue? operator = some o → Fits o operand) :
    verdict (q.condition? .builtin (.compare c operator operand)) =
      forM (coercedIn (.compare c operator operand)) q.coerceFor := by
  have htype : (q.column c).type.kind? = some k := by
    rw [← hc, column_type q c.name c.qualified false]
  unfold condition? Registry.condition coercedIn
  dsimp only
  cases ho : FilterOperator.ofValue? operator with
  | none => rfl
  | some o =>
    have hkind : kindFor (q.column c).type none = some k := htype
    rw [Option.bind_some, Registry.strategy?_builtin, hkind]
    refine (builtin_verdict hk (hfits o ho)).trans ?_
    rw [List.forM_map]
    refine forM_congr fun s _ => ?_
    unfold coerceFor
    rw [hc]
    rfl

end Query

namespace Plan

open Coercion Query Strategy

variable {c : Catalog} {m : Model} {p : Policy} {req : ListRequest}

def coerced (p : Policy) (req : ListRequest) : List (String × String) :=
  (req.filters.flatMap (comparisons p req)).flatMap coercedIn

theorem operandFor_fits {operator v w : Value} (hv : v.IsRaw)
    (h : operandFor? operator v = some w) {o : FilterOperator}
    (ho : FilterOperator.ofValue? operator = some o) : Fits o w := by
  cases v with
  | text s =>
    unfold operandFor? at h
    dsimp only at h
    split_ifs at h
    cases h
    exact .inl ⟨s, rfl⟩
  | list items =>
    unfold operandFor? at h
    dsimp only at h
    split_ifs at h with htakes
    · cases h
      refine .inr ⟨?_, items, rfl⟩
      unfold takesList at htakes
      rw [ho] at htakes
      cases o with
      | eq => exact .inl rfl
      | within => exact .inr rfl
      | _ => cases htakes
    · cases hlast : items.getLast? with
      | none =>
        rw [hlast] at h
        cases h
      | some x =>
        rw [hlast] at h
        obtain ⟨s, rfl⟩ := hv x (List.mem_of_getLast? hlast)
        dsimp only at h
        split_ifs at h
        cases h
        exact .inl ⟨s, rfl⟩
  | _ => exact hv.elim

theorem terms_fit {v : Value} (hv : v.IsFilter) {t : Value × Value} (ht : t ∈ terms v)
    {o : FilterOperator} (ho : FilterOperator.ofValue? t.1 = some o) : Fits o t.2 := by
  cases v with
  | map entries =>
    obtain ⟨e, he, hterm⟩ := List.mem_filterMap.1 ht
    obtain ⟨w, hw, rfl⟩ := Option.map_eq_some_iff.1 hterm
    exact operandFor_fits (hv e he) hw ho
  | list items =>
    cases items with
    | nil => cases ht
    | cons x items =>
      rw [List.mem_singleton.1 ht] at ho ⊢
      cases ho
      exact .inr ⟨.inr rfl, _, rfl⟩
  | text s =>
    rw [List.mem_singleton.1 ht]
    exact .inl ⟨s, rfl⟩
  | _ => exact hv.elim

theorem conditions_verdict (r : Registry) (q : Query) (ps : List Predicate) :
    verdict (q.conditions r ps) = forM ps fun pred => verdict (q.condition? r pred) := by
  unfold conditions
  rw [verdict_bind_ok, verdict_mapM]

theorem whereAll_verdict (r : Registry) (q : Query) (ps : List Predicate) :
    verdict (q.changeOf r (.whereAll ps)) = forM ps fun pred => verdict (q.condition? r pred) := by
  unfold changeOf
  rw [verdict_map, conditions_verdict]

theorem whereAny_verdict (r : Registry) (q : Query) (ps : List Predicate) :
    verdict (q.changeOf r (.whereAny ps)) = forM ps fun pred => verdict (q.condition? r pred) := by
  unfold changeOf
  rw [verdict_map, conditions_verdict]

theorem unknown_verdict {q : Query} {pred : Predicate} (h : (match pred with
      | .compare _ operator _ => (receiver .builtin).knows operator
      | .contains .. => true) = false) : verdict (q.condition? .builtin pred) = .ok () := by
  cases pred with
  | contains column term asText => cases h
  | compare column operator operand =>
    have hnone : (FilterOperator.ofValue? operator).bind Registry.builtin.strategy? = none :=
      Option.not_isSome_iff_eq_none.1 (Bool.eq_false_iff.1 h)
    unfold condition? Registry.condition
    dsimp only
    rw [hnone]
    rfl

/-- Filters fail only over the texts that they coerce. Unknown operators make no condition, so it
does not matter that they are left out. -/
theorem filterCalls_verdict (hp : p.Resolves c m) (hreq : ∀ f ∈ req.filters, f.2.IsFilter) :
    (forM (filterCalls (receiver .builtin).knows p req) fun call =>
      verdict ((ofModel c m).changeOf .builtin call)) =
        forM (coerced p req) (ofModel c m).coerceFor := by
  have hcomparison : ∀ f ∈ req.filters, ∀ pred ∈ comparisons p req f,
      verdict ((ofModel c m).condition? .builtin pred) =
        forM (coercedIn pred) (ofModel c m).coerceFor := by
    intro f hf pred hpred
    unfold comparisons at hpred
    cases hname : Policy.columnOf? p.filterableFields f.1 with
    | none =>
      rw [hname] at hpred
      cases hpred
    | some name =>
      rw [hname] at hpred
      obtain ⟨⟨operator, operand⟩, ht, rfl⟩ := List.mem_map.1 hpred
      obtain ⟨e, he, rfl⟩ := Option.map_eq_some_iff.1 hname
      obtain ⟨k, hk, hkind⟩ := hp.filters e (List.mem_of_find?_eq_some he)
      have hfits (o : FilterOperator) (ho : FilterOperator.ofValue? operator = some o) :
          Fits o operand := terms_fit (hreq f hf) ht ho
      dsimp only
      exact compare_verdict (q := ofModel c m) (c := ⟨e.2, isJoined p req⟩) hk hkind hfits
  have hknown : (forM (filterCalls (receiver .builtin).knows p req) fun call =>
      verdict ((ofModel c m).changeOf .builtin call)) =
        forM (req.filters.flatMap (comparisons p req)) fun pred =>
          verdict ((ofModel c m).condition? .builtin pred) := by
    have hall : (forM (List.filter _ (req.filters.flatMap (comparisons p req))) fun pred =>
        verdict ((ofModel c m).condition? .builtin pred)) = forM _ _ :=
      forM_filter fun pred _ hunknown => unknown_verdict hunknown
    refine Eq.trans ?_ hall
    unfold filterCalls
    dsimp only
    split_ifs with hempty
    · exact (congrArg (fun known => forM known fun pred =>
        verdict ((ofModel c m).condition? .builtin pred)) (List.isEmpty_iff.1 hempty)).symm
    · rw [List.forM_cons, whereAll_verdict, List.forM_nil]
      exact bind_pure_unit
  rw [hknown, coerced, forM_flatMap, forM_flatMap, forM_flatMap]
  exact forM_congr fun f hf => forM_congr fun pred hpred => hcomparison f hf pred hpred

/-! ## Calls that never fail -/

theorem joinCalls_verdict (hp : p.Resolves c m) {call : Call} (h : call ∈ joinCalls p req) :
    verdict ((ofModel c m).changeOf .builtin call) = .ok () := by
  unfold joinCalls at h
  cases hjoin : join? p req with
  | none =>
    rw [hjoin] at h
    cases h
  | some j =>
    rw [hjoin] at h
    obtain ⟨field, -, hfield⟩ := Option.bind_eq_some_iff.1 hjoin
    unfold Policy.joinFor? at hfield
    split_ifs at hfield
    obtain ⟨e, he, rfl⟩ := Option.map_eq_some_iff.1 hfield
    obtain ⟨hkey, hrelated⟩ := hp.joins e (List.mem_of_find?_eq_some he)
    rcases List.mem_cons.1 h with rfl | h
    · have hok : (ofModel c m).joinOf e.2.table e.2.foreignKey e.2.relatedKey = .ok _ :=
        joinOf_ok hkey hrelated
      change verdict (Change.join <$> (ofModel c m).joinOf _ _ _) = _
      rw [hok]
      rfl
    · rw [List.mem_singleton.1 h]
      rfl

theorem aggregateCalls_verdict (hp : p.Resolves c m) {call : Call} (h : call ∈ aggregateCalls p) :
    verdict ((ofModel c m).changeOf .builtin call) = .ok () := by
  obtain ⟨a, ha, h⟩ := List.mem_flatMap.1 h
  obtain ⟨e, he, rfl⟩ := List.mem_map.1 h
  obtain ⟨relation, target, hrelation, hlink, htarget, hcolumn⟩ := hp.aggregates a ha e he
  obtain ⟨found, hfound⟩ :=
    aggregateOf_ok (q := ofModel c m) hrelation hlink htarget hcolumn
  change verdict (Change.aggregate <$> (ofModel c m).aggregateOf _ _ _) = _
  rw [hfound]
  rfl

theorem searchCalls_verdict {call : Call} (h : call ∈ searchCalls p req) :
    verdict ((ofModel c m).changeOf .builtin call) = .ok () := by
  unfold searchCalls at h
  split_ifs at h
  · cases h
  · rw [List.mem_singleton.1 h, whereAny_verdict, List.forM_map]
    exact forM_eq_ok_iff.2 fun name _ => rfl

theorem columnSearchCalls_verdict {call : Call} (h : call ∈ columnSearchCalls p req) :
    verdict ((ofModel c m).changeOf .builtin call) = .ok () := by
  obtain ⟨⟨field, term⟩, -, h⟩ := List.mem_filterMap.1 h
  dsimp only at h
  cases hname : Policy.columnOf? p.columnFields field with
  | none =>
    rw [hname] at h
    cases h
  | some name =>
    rw [hname] at h
    dsimp only at h
    split_ifs at h
    cases h
    rw [whereAll_verdict]
    rfl

theorem orderCalls_verdict {call : Call} (h : call ∈ orderCalls p req) :
    verdict ((ofModel c m).changeOf .builtin call) = .ok () := by
  unfold orderCalls at h
  split at h
  · cases h
  · dsimp only at h
    split_ifs at h
    · rw [List.mem_singleton.1 h]
      rfl
    · rw [List.mem_singleton.1 h]
      rfl

/-! ## Building -/

/-- Building fails with the first text that cannot be coerced, and with nothing else. -/
theorem build_verdict (hp : p.Resolves c m) (hreq : ∀ f ∈ req.filters, f.2.IsFilter) :
    verdict (build (receiver .builtin) none p req (ofModel c m)) =
      forM (coerced p req) (ofModel c m).coerceFor := by
  have hnever (calls : List Call)
      (h : ∀ call ∈ calls, verdict ((ofModel c m).changeOf .builtin call) = .ok ()) :
      (forM calls fun call => verdict ((ofModel c m).changeOf .builtin call)) = .ok () :=
    forM_eq_ok_iff.2 h
  have hrelations : ∀ call ∈ relationCalls req,
      verdict ((ofModel c m).changeOf .builtin call) = .ok () := by
    intro call hcall
    unfold relationCalls at hcall
    split_ifs at hcall
    · cases hcall
    · rw [List.mem_singleton.1 hcall]
      rfl
  rw [build_none, carryOut_verdict ⟨rfl, rfl⟩]
  unfold calls selection
  simp only [List.forM_append]
  rw [hnever _ fun call => joinCalls_verdict hp, hnever _ fun call => aggregateCalls_verdict hp,
    hnever _ hrelations, hnever _ fun call => searchCalls_verdict,
    hnever _ fun call => columnSearchCalls_verdict, hnever _ fun call => orderCalls_verdict,
    filterCalls_verdict hp hreq]
  exact bind_pure_unit

theorem coerced_kind (hp : p.Resolves c m) {e : String × String} (he : e ∈ coerced p req) :
    ∃ k, IsPlain k ∧ ((ofModel c m).column ⟨e.1, false⟩).type.kind? = some k := by
  obtain ⟨pred, hpred, he⟩ := List.mem_flatMap.1 he
  obtain ⟨f, -, hpred⟩ := List.mem_flatMap.1 hpred
  unfold comparisons at hpred
  cases hname : Policy.columnOf? p.filterableFields f.1 with
  | none =>
    rw [hname] at hpred
    cases hpred
  | some name =>
    rw [hname] at hpred
    obtain ⟨⟨operator, operand⟩, -, rfl⟩ := List.mem_map.1 hpred
    unfold coercedIn at he
    dsimp only at he
    split at he
    · cases he
    · obtain ⟨s, -, rfl⟩ := List.mem_map.1 he
      obtain ⟨field, hfield, rfl⟩ := Option.map_eq_some_iff.1 hname
      exact hp.filters field (List.mem_of_find?_eq_some hfield)

theorem coerceFor_eq {q : Query} {e : String × String} {k : Kind}
    (hk : (q.column ⟨e.1, false⟩).type.kind? = some k) :
    q.coerceFor e = verdict (ofText k e.2) := by
  unfold coerceFor
  rw [hk]
  rfl

theorem build_ok_iff (hp : p.Resolves c m) (hreq : ∀ f ∈ req.filters, f.2.IsFilter) :
    (∃ q, build (receiver .builtin) none p req (ofModel c m) = .ok q) ↔
      ∀ e ∈ coerced p req, ∀ k, ((ofModel c m).column ⟨e.1, false⟩).type.kind? = some k →
        ¬ Fails k e.2 := by
  rw [← verdict_eq_ok_iff, build_verdict hp hreq, forM_eq_ok_iff]
  refine forall_congr' fun e => forall_congr' fun he => ?_
  obtain ⟨k, hplain, hk⟩ := coerced_kind hp he
  rw [coerceFor_eq hk, ofText_ok_iff hplain]
  constructor
  · intro h k' hk'
    obtain rfl := Option.some.inj (hk.symm.trans hk')
    exact h
  · intro h
    exact h k hk

theorem build_error (hp : p.Resolves c m) (hreq : ∀ f ∈ req.filters, f.2.IsFilter) {err : Fault}
    (h : build (receiver .builtin) none p req (ofModel c m) = .error err) :
    err = .infiniteToInteger ∨ err = .decimalIndivisible := by
  have hverdict := verdict_eq_error_iff.2 h
  rw [build_verdict hp hreq] at hverdict
  obtain ⟨e, he, herr⟩ := exists_of_forM_error hverdict
  obtain ⟨k, hplain, hk⟩ := coerced_kind hp he
  rw [coerceFor_eq hk, verdict_eq_error_iff] at herr
  exact ofText_error hplain herr

/-- Raw parameters are always read, and the request builds on a fresh handle unless one of the texts
that its filters coerce denotes infinity, for an integer column, or divides what has no quotient,
for a column of moments. Nothing else fails. -/
theorem raw_request_builds_iff {config : Config} (hwhole : config.IsWhole) {params : Params}
    (hp : p.Resolves c m) (hraw : ∀ e ∈ params, e.2.IsRaw) :
    ∃ req, ListRequest.ofParams config params = .ok req ∧
      ((∃ q, build (receiver .builtin) none p req (ofModel c m) = .ok q) ↔
        ∀ e ∈ coerced p req,
          (((ofModel c m).column ⟨e.1, false⟩).type.kind? = some .int → ¬ Infinite e.2) ∧
          (((ofModel c m).column ⟨e.1, false⟩).type.kind? = some .datetime →
            ¬ Indivisible e.2)) ∧
      ∀ err, build (receiver .builtin) none p req (ofModel c m) = .error err →
        err = .infiniteToInteger ∨ err = .decimalIndivisible := by
  obtain ⟨req, hread, hfilters⟩ := ListRequest.ofParams_ok hwhole params
  have hreq : ∀ f ∈ req.filters, f.2.IsFilter :=
    hfilters ▸ ListRequest.isFilter_filtersOf hraw
  refine ⟨req, hread, ?_, fun err => build_error hp hreq⟩
  rw [build_ok_iff hp hreq]
  refine forall_congr' fun e => forall_congr' fun he => ?_
  constructor
  · intro h
    exact ⟨h .int, h .datetime⟩
  · rintro ⟨hint, hmoment⟩ k hk
    obtain ⟨k', hplain, hk'⟩ := coerced_kind hp he
    obtain rfl := Option.some.inj (hk'.symm.trans hk)
    rcases hplain with rfl | rfl | rfl
    · exact hint hk
    · exact id
    · exact hmoment hk

/-! ### Ages

A filter on an integer column. -/

def people : Model where
  name := "Person"
  table := { name := "people", columns := [("age", .integer)], key := ["age"] }
  relations := []

def byAge : Policy := { filterableFields := [("age", "age")] }

theorem byAge_resolves : byAge.Resolves { models := [] } people where
  joins := List.forall_mem_nil _
  aggregates := List.forall_mem_nil _
  filters := by
    intro e he
    rw [List.mem_singleton.1 he]
    exact ⟨.int, .inl rfl, rfl⟩

def ageRequest (age : String) : ListRequest := { filters := [("age", .text age)] }

/-- An age of 27 builds, and an infinite one fails. -/
theorem raw_request_builds_iff_ages :
    (Config.ofArguments .config [] = .ok {} ∧ Config.IsWhole {} ∧
      byAge.Resolves { models := [] } people ∧
      ∀ e ∈ [("age", Value.text "inf")], e.2.IsRaw) ∧
    (∃ q, build (receiver .builtin) none byAge (ageRequest "27")
      (ofModel { models := [] } people) = .ok q) ∧
    ¬ ∃ q, build (receiver .builtin) none byAge (ageRequest "inf")
      (ofModel { models := [] } people) = .ok q := by
  have hconfig : Config.ofArguments .config [] = .ok {} := rfl
  have hwhole : Config.IsWhole {} := ⟨rfl, rfl, rfl, rfl⟩
  have hraw (age : String) : ∀ e ∈ [("age", Value.text age)], e.2.IsRaw := by
    intro e he
    rw [List.mem_singleton.1 he]
    trivial
  have hread27 : ListRequest.ofParams {} [("age", .text "27")] = .ok (ageRequest "27") := rfl
  have hreadInf : ListRequest.ofParams {} [("age", .text "inf")] = .ok (ageRequest "inf") := rfl
  refine ⟨⟨hconfig, hwhole, byAge_resolves, hraw "inf"⟩, ?_, ?_⟩
  · obtain ⟨req, hread, hiff, -⟩ :=
      raw_request_builds_iff hwhole byAge_resolves (hraw "27")
    obtain rfl := Except.ok.inj (hread27.symm.trans hread)
    refine hiff.2 fun e he => ?_
    have hcoerced : coerced byAge (ageRequest "27") = [("age", "27")] := rfl
    rw [hcoerced, List.mem_singleton] at he
    subst he
    have hinteger : Numeral.readInteger? "27".toList = some 27 := by decide +kernel
    refine ⟨fun _ hinfinite => ?_, nofun⟩
    cases hinteger.symm.trans hinfinite.1
  · obtain ⟨req, hread, hiff, -⟩ :=
      raw_request_builds_iff hwhole byAge_resolves (hraw "inf")
    obtain rfl := Except.ok.inj (hreadInf.symm.trans hread)
    intro hbuilds
    have hcoerced : ("age", "inf") ∈ coerced byAge (ageRequest "inf") := List.mem_singleton_self _
    have hinfinite : Infinite "inf" := by
      refine ⟨?_, false, rfl⟩
      decide +kernel
    exact (hiff.1 hbuilds _ hcoerced).1 rfl hinfinite

end Plan
end Listing
