import Listing.Proofs.BuiltConditions
import Listing.Proofs.ListedValues
import Listing.Proofs.Restrictions
import Listing.Sample.Heroes

set_option autoImplicit false

namespace Listing

open Outcome ListRequest Sql

namespace Strategy

theorem operand_kindFor (c : Column) (asked : Option Kind) (v : Value) :
    operand c (Coercion.kindFor c.type asked) v = operand c asked v := by
  unfold operand
  rw [Coercion.kindFor_kindFor]

def items (c : Column) (vs : List String) : Outcome (List Value) :=
  vs.mapM fun v => operand c none (.text (Text.trimmed v))

theorem within_items (c : Column) {v : Value} {vs : List String}
    (h : Coercion.splitItems v = vs.map Text.trimmed) :
    within c v (Coercion.kindFor c.type none) =
      (fun items => some (.within c items)) <$> items c vs := by
  unfold within items
  rw [h, List.mapM_map]
  simp only [operand_kindFor]
  change ((vs.mapM fun v => operand c none (.text (Text.trimmed v))) >>= fun items =>
    .ok (some (Condition.within c items))) = _
  cases vs.mapM fun v => operand c none (.text (Text.trimmed v)) <;> rfl

end Strategy

theorem Plan.terms_single {operator operand : Value}
    (h : operandFor? operator operand = some operand) :
    terms (.map [(operator, operand)]) = [(operator, operand)] := by
  simp [terms, h]

namespace Spelling

variable {vs : List String}

def operator (s : Spelling) : FilterOperator := s.operator?.getD .within

theorem terms_filter (h : AreListed vs) (s : Spelling) :
    Plan.terms (s.filter vs) = [(.text s.operator.word, s.value vs)] := by
  cases s with
  | plain =>
    obtain ⟨v, w, others, rfl⟩ := h.exists_cons_cons
    rfl
  | equal => rfl
  | within => rfl
  | joined =>
    have hempty : (Value.text (",".intercalate vs)).sameKey (.text "") = false := by
      rw [← Bool.not_eq_true, Value.sameKey_text_iff, Value.text.injEq]
      exact h.joined_ne
    exact Plan.terms_single (if_neg (Bool.eq_false_iff.1 hempty))

theorem splitItems_texts (vs : List String) :
    Coercion.splitItems (.list (vs.map .text)) = vs.map Text.trimmed := by
  change (vs.map Value.text).map (fun item => Text.trimmed item.display) = _
  rw [List.map_map]
  rfl

theorem splitItems_value (hne : vs ≠ []) (hunbroken : ∀ v ∈ vs, ',' ∉ v.toList) (s : Spelling) :
    Coercion.splitItems (s.value vs) = vs.map Text.trimmed := by
  cases s with
  | joined =>
    have hpieces : ∀ cs ∈ vs.map String.toList, ',' ∉ cs := by
      intro cs hcs
      obtain ⟨v, hv, rfl⟩ := List.mem_map.1 hcs
      exact hunbroken v hv
    have hsplit : (",".intercalate vs).toList.splitOn ',' = vs.map String.toList := by
      rw [String.toList_intercalate]
      exact List.splitOn_intercalate ',' hpieces (by simpa using hne)
    change ((",".intercalate vs).toList.splitOn ',').map _ = _
    rw [hsplit, List.map_map]
    rfl
  | _ => exact splitItems_texts vs

theorem condition_value {s : Spelling}
    (hitems : Coercion.splitItems (s.value vs) = vs.map Text.trimmed) (c : Column) :
    Registry.builtin.condition c (.text s.operator.word) (s.value vs) none =
      (fun items => some (.within c items)) <$> Strategy.items c vs := by
  rw [← Strategy.within_items c hitems]
  cases s <;> rfl

end Spelling

namespace Plan

variable {p : Policy} {r : ListRequest} {q : Query} {field name : String} {vs : List String}

/-- A filter with one term asks for the condition of its operator. -/
theorem groupsOf_term {w operand : Value} {o : FilterOperator} {α : Type} {x : Outcome α}
    {g : α → Condition} (hterms : terms w = [(.text o.word, operand)])
    (hname : Policy.columnOf? p.filterableFields field = some name)
    (hcondition : Registry.builtin.condition (q.column ⟨name, isJoined p r⟩) (.text o.word) operand
      none = (fun a => some (g a)) <$> x) :
    q.groupsOf .builtin (filterGroups (Query.receiver .builtin).knows p r (field, w)) =
      (fun a => [[g a]]) <$> x := by
  have hknown : (Query.receiver .builtin).knows (.text o.word) = true := by
    cases o <;> rfl
  have hasked : filterGroups (Query.receiver .builtin).knows p r (field, w) =
      [[.compare ⟨name, isJoined p r⟩ (.text o.word) operand]] := by
    unfold filterGroups comparisons
    rw [hname]
    dsimp only
    rw [hterms]
    simp [isKnown, hknown]
  have hasked' : q.condition? .builtin (.compare ⟨name, isJoined p r⟩ (.text o.word) operand) =
      (fun a => some (g a)) <$> x := hcondition
  have hsingle := Query.groupsOf_singletons (q := q) (R := .builtin)
    [.compare ⟨name, isJoined p r⟩ (.text o.word) operand]
  rw [hasked]
  refine hsingle.trans ?_
  unfold Query.conditions
  rw [List.mapM_cons, hasked']
  cases x <;> rfl

theorem groupsOf_spelled (h : AreListed vs) {s : Spelling}
    (hitems : Coercion.splitItems (s.value vs) = vs.map Text.trimmed)
    (hname : Policy.columnOf? p.filterableFields field = some name) (q : Query) :
    q.groupsOf .builtin
        (filterGroups (Query.receiver .builtin).knows p r (field, s.filter vs)) =
      (fun items => [[.within (q.column ⟨name, isJoined p r⟩) items]]) <$>
        Strategy.items (q.column ⟨name, isJoined p r⟩) vs :=
  groupsOf_term (Spelling.terms_filter h s) hname
    (Spelling.condition_value hitems (q.column ⟨name, isJoined p r⟩))

theorem groupsOf_alike (h : AreListed vs) (hunbroken : ∀ v ∈ vs, ',' ∉ v.toList)
    (s s' : Spelling) (q : Query) :
    q.groupsOf .builtin (filterGroups (Query.receiver .builtin).knows p r (field, s.filter vs)) =
      q.groupsOf .builtin
        (filterGroups (Query.receiver .builtin).knows p r (field, s'.filter vs)) := by
  cases hname : Policy.columnOf? p.filterableFields field with
  | some name =>
    have hitems (s : Spelling) := Spelling.splitItems_value h.ne_nil hunbroken s
    rw [groupsOf_spelled h (hitems s) hname, groupsOf_spelled h (hitems s') hname]
  | none =>
    -- A field that cannot be filtered asks for nothing, whatever its values are.
    unfold filterGroups comparisons
    rw [hname]

theorem select_filters (R : Registry) (p : Policy) (r : ListRequest)
    (filters : List (String × Value)) (q : Query) :
    select (Query.receiver R) p { r with filters } q = (do
      let q₁ ← carryOut (Query.receiver R) (preliminaries p r) q
      let gs ← q₁.groupsOf R
        ((searchCalls p r).flatMap Call.groups ++ r.columnSearch.flatMap (columnGroups p r))
      let gs' ← q₁.groupsOf R (filters.flatMap (filterGroups (Query.receiver R).knows p r))
      .ok (q₁.restrict (gs ++ gs'))) := by
  unfold select
  rw [selection_eq, carryOut_append]
  change carryOut (Query.receiver R) (preliminaries p r) q >>= _ = _
  refine bind_congr_of_ok fun q₁ _ => ?_
  rw [Query.carryOut_selects (restrictions_select _ _ _)]
  change q₁.restrict <$> q₁.groupsOf R (predicates _ _ _) = _
  rw [predicates_eq, Query.groupsOf_append]
  change q₁.restrict <$> (q₁.groupsOf R ((searchCalls p r).flatMap Call.groups ++
    r.columnSearch.flatMap (columnGroups p r)) >>= fun gs =>
      q₁.groupsOf R (filters.flatMap (filterGroups (Query.receiver R).knows p r)) >>= fun gs' =>
        .ok (gs ++ gs')) = _
  cases q₁.groupsOf R ((searchCalls p r).flatMap Call.groups ++
    r.columnSearch.flatMap (columnGroups p r)) with
  | error e => rfl
  | ok gs =>
    cases q₁.groupsOf R (filters.flatMap (filterGroups (Query.receiver R).knows p r)) <;> rfl

theorem groupsOf_around (R : Registry) (q : Query) (f : String × Value → List (List Predicate))
    (filters filters' : List (String × Value)) (x : String × Value) :
    q.groupsOf R ((filters ++ x :: filters').flatMap f) = (do
      let gs ← q.groupsOf R (filters.flatMap f)
      let g ← q.groupsOf R (f x)
      let gs' ← q.groupsOf R (filters'.flatMap f)
      .ok (gs ++ (g ++ gs'))) := by
  rw [List.flatMap_append, List.flatMap_cons, Query.groupsOf_append, Query.groupsOf_append]
  cases q.groupsOf R (filters.flatMap f) with
  | error e => rfl
  | ok gs =>
    cases q.groupsOf R (f x) with
    | error e => rfl
    | ok g => cases q.groupsOf R (filters'.flatMap f) <;> rfl

theorem select_alike (h : AreListed vs) (hunbroken : ∀ v ∈ vs, ',' ∉ v.toList)
    (s s' : Spelling) (p : Policy) (r : ListRequest) (filters filters' : List (String × Value))
    (q : Query) :
    select (Query.receiver .builtin) p
        { r with filters := filters ++ (field, s.filter vs) :: filters' } q =
      select (Query.receiver .builtin) p
        { r with filters := filters ++ (field, s'.filter vs) :: filters' } q := by
  rw [select_filters, select_filters]
  refine bind_congr_of_ok fun q₁ _ => bind_congr_of_ok fun gs _ => ?_
  rw [groupsOf_around, groupsOf_around, groupsOf_alike h hunbroken s s' q₁]

theorem select_around {R : Registry} {filters filters' : List (String × Value)}
    {x : String × Value} {q q' : Query}
    (h : select (Query.receiver R) p { r with filters := filters ++ x :: filters' } q = .ok q') :
    ∃ g, q.groupsOf R (filterGroups (Query.receiver R).knows p r x) = .ok g ∧
      ∀ cs ∈ g, cs ∈ q'.statement.groups := by
  rw [select_filters] at h
  obtain ⟨q₁, hcarry, h⟩ := bind_eq_ok_iff.1 h
  obtain ⟨gs, -, h⟩ := bind_eq_ok_iff.1 h
  obtain ⟨gs', hgroups, h⟩ := bind_eq_ok_iff.1 h
  rw [groupsOf_around] at hgroups
  obtain ⟨before, -, hgroups⟩ := bind_eq_ok_iff.1 hgroups
  obtain ⟨g, hg, hgroups⟩ := bind_eq_ok_iff.1 hgroups
  obtain ⟨after, -, hgroups⟩ := bind_eq_ok_iff.1 hgroups
  rw [Query.groupsOf_congr (Query.carryOut_sharesModel hcarry)] at hg
  refine ⟨g, hg, fun cs hcs => ?_⟩
  rw [← Except.ok.inj h, ← Except.ok.inj hgroups]
  exact List.mem_append_right _ (List.mem_append_right _
    (List.mem_append_right _ (List.mem_append_left _ hcs)))

def builtFrom (c : Config) (p : Policy) (hook : Option (Hook Query)) (q : Query)
    (fs : List (String × String)) : Outcome Query := do
  build (Query.receiver .builtin) hook p (← ListRequest.ofParams c (Params.ofFields fs)) q

/-- Values that are listed for a field are read and built alike in whatever way they are listed, be
there faults or not. What is built has the condition that the column is one of the values, each
trimmed and coerced by itself. -/
theorem spellings_build_alike (h : AreListed vs) (hunbroken : ∀ v ∈ vs, ',' ∉ v.toList)
    (hfield : IsField field) {before after : List (String × String)}
    (hothers : ∀ e ∈ before ++ after, ¬ IsAbout e.1 field)
    (c : Config) (p : Policy) (hook : Option (Hook Query)) (q : Query) :
    (∀ s s' : Spelling, builtFrom c p hook q (before ++ s.fields field vs ++ after) =
      builtFrom c p hook q (before ++ s'.fields field vs ++ after)) ∧
    ∀ (s : Spelling) (r : ListRequest) (q' : Query) (name : String),
      ListRequest.ofParams c (Params.ofFields (before ++ s.fields field vs ++ after)) = .ok r →
      select (Query.receiver .builtin) p r q = .ok q' →
      Policy.columnOf? p.filterableFields field = some name →
      ∃ items, Strategy.items (q.column ⟨name, isJoined p r⟩) vs = .ok items ∧
        [.within (q.column ⟨name, isJoined p r⟩) items] ∈ q'.statement.groups := by
  obtain ⟨filters, filters', hread⟩ := ofParams_spelled h hfield hothers c
  refine ⟨fun s s' => ?_, fun s r q' name hr hselect hname => ?_⟩
  · unfold builtFrom
    rw [hread s, hread s']
    cases ListRequest.ofParams c (Params.ofFields (before ++ after)) with
    | error e => rfl
    | ok r =>
      change select (Query.receiver .builtin) p _ q >>= finish (Query.receiver .builtin) hook p r =
        select (Query.receiver .builtin) p _ q >>= finish (Query.receiver .builtin) hook p r
      rw [select_alike h hunbroken s s' p r filters filters' q]
  · rw [hread s] at hr
    obtain ⟨r, -, rfl⟩ := map_eq_ok_iff.1 hr
    obtain ⟨g, hg, hmem⟩ := select_around hselect
    rw [groupsOf_spelled h (Spelling.splitItems_value h.ne_nil hunbroken s) hname q] at hg
    obtain ⟨items, hitems, rfl⟩ := map_eq_ok_iff.1 hg
    exact ⟨items, hitems, hmem _ List.mem_cons_self⟩

def twoNames : List String := ["Rusty-Man", " ALPHA"]

def namedFields (s : Spelling) : List (String × String) :=
  [("page", "2")] ++ s.fields "hero" twoNames ++ [("name[gt]", "x")]

theorem spellings_build_alike_names :
    let policy : Policy := { filterableFields := [("hero", "name")] }
    let heroes := Query.ofModel Sample.Heroes.catalog
      { name := "Hero", table := Sample.Heroes.heroes, relations := [] }
    builtFrom {} policy none heroes (namedFields .plain) =
        builtFrom {} policy none heroes (namedFields .joined) ∧
      ∃ r q', ListRequest.ofParams {} (Params.ofFields (namedFields .joined)) = .ok r ∧
        select (Query.receiver .builtin) policy r heroes = .ok q' ∧
        [.within (.bare "name" .string) [.text "Rusty-Man", .text "ALPHA"]] ∈
          q'.statement.groups := by
  intro policy heroes
  have hlisted : AreListed twoNames := ⟨by decide, by decide⟩
  have hfield : IsField "hero" :=
    isField_of_name (Identifier.isDotted_iff.1 (by decide)) (by decide)
  have hothers : ∀ e ∈ [("page", "2")] ++ [("name[gt]", "x")], ¬ IsAbout e.1 "hero" := by
    intro e he
    rcases List.mem_pair.1 he with rfl | rfl
    · exact not_isAbout (by decide) (by decide)
    · exact not_isAbout (by decide) (by decide)
  obtain ⟨halike, hbuilt⟩ := spellings_build_alike hlisted (by decide) hfield hothers {} policy none
    heroes
  refine ⟨halike .plain .joined, ?_⟩
  have hbuilds : (ListRequest.ofParams {} (Params.ofFields (namedFields .joined)) >>= fun r =>
      select (Query.receiver .builtin) policy r heroes).isOk = true := by decide +kernel
  cases hread : ListRequest.ofParams {} (Params.ofFields (namedFields .joined)) with
  | error e =>
    rw [hread] at hbuilds
    cases hbuilds
  | ok r =>
    rw [hread, ok_bind] at hbuilds
    cases hselect : select (Query.receiver .builtin) policy r heroes with
    | error e =>
      rw [hselect] at hbuilds
      cases hbuilds
    | ok q' =>
      obtain ⟨items, hitems, hmem⟩ := hbuilt .joined r q' "name" hread hselect rfl
      have hjoined : isJoined policy r = false := rfl
      have hcolumn : heroes.column ⟨"name", false⟩ = .bare "name" .string := rfl
      have htrimmed : Text.trimmed "Rusty-Man" = "Rusty-Man" ∧
          Text.trimmed " ALPHA" = "ALPHA" := by decide
      have hcomputed : Strategy.items (.bare "name" .string) twoNames =
          .ok [.text (Text.trimmed "Rusty-Man"), .text (Text.trimmed " ALPHA")] := rfl
      rw [hjoined, hcolumn] at hitems hmem
      rw [hcomputed, htrimmed.1, htrimmed.2] at hitems
      cases hitems
      exact ⟨r, q', rfl, hselect, hmem⟩

end Plan
end Listing
