import Listing.Proofs.Contributions

set_option autoImplicit false

namespace Listing.ListRequest

open Value

inductive SameFilter : Value → Value → Prop
  | same (v : Value) : SameFilter v v
  | operands {entries entries' : List (Value × Value)} :
      entries.Perm entries' → SameFilter (.map entries) (.map entries')

def SameFilters (filters filters' : Params) : Prop :=
  ∀ field, Option.Rel SameFilter (filters.lookup? field) (filters'.lookup? field)

/-- The field and the operator that a key denotes, equality where it names no operator. -/
def denoted (key : String) : String × FilterOperator := (operatorKey? key).getD (key, .eq)

/-- The same parameters in another order. Keys that denote the same field and operator keep theirs. -/
structure IsReordering (params params' : Params) : Prop where
  perm : params.Perm params'
  order : ∀ target, params.filter (fun e => denoted e.1 = target) =
    params'.filter fun e => denoted e.1 = target

section Raw

variable {params : Params} {field : String} {o : FilterOperator} {v : Value}

theorem denoted_of_said {e : String × Value} (h : said? field o e = some v) :
    denoted e.1 = (field, o) := by
  obtain ⟨c, hc, -⟩ := Option.map_eq_some_iff.1 h
  obtain ⟨hread, hsame⟩ := Option.filter_eq_some_iff.1 hc
  obtain ⟨rfl, rfl⟩ := of_decide_eq_true hsame
  unfold contribution? at hread
  split_ifs at hread
  unfold denoted
  cases hkey : operatorKey? e.1 with
  | some p =>
    rw [hkey] at hread
    cases hread
    rfl
  | none =>
    rw [hkey] at hread
    obtain ⟨w, -, rfl⟩ := Option.map_eq_some_iff.1 hread
    rfl

theorem filterMap_said (params : Params) (field : String) (o : FilterOperator) :
    params.filterMap (said? field o) =
      (params.filter fun e => denoted e.1 = (field, o)).filterMap (said? field o) := by
  rw [List.filterMap_filter]
  refine List.filterMap_congr fun e _ => ?_
  split_ifs with hdenoted
  · rfl
  · rw [Option.eq_none_iff_forall_ne_some]
    intro v hv
    exact hdenoted (by simpa using denoted_of_said hv)

theorem IsReordering.isLast_iff {params' : Params} (h : IsReordering params params')
    (hraw : ∀ e ∈ params, e.2.IsRaw) :
    IsLast params field o v ↔ IsLast params' field o v := by
  rw [ListRequest.isLast_iff hraw,
    ListRequest.isLast_iff fun e he => hraw e (h.perm.mem_iff.2 he), filterMap_said,
    h.order (field, o), ← filterMap_said]

/-- Collected filters depend on what is contributed and on what is said last, and on nothing else. -/
theorem Collects.same {params' filters filters' : Params} (h : Collects params filters)
    (h' : Collects params' filters') (hmem : ∀ e, e ∈ params ↔ e ∈ params')
    (hlast : ∀ field o v, IsLast params field o v ↔ IsLast params' field o v) :
    SameFilters filters filters' := by
  intro field
  -- The two forms that a filter has: an operator map, or a plain value.
  by_cases hoperand : ∃ e ∈ params, ∃ o v, Contributes e field (some o) v
  · obtain ⟨entries, hentries, hmap, hread⟩ := h.operands field hoperand
    simp only [hmem] at hoperand
    obtain ⟨entries', hentries', hmap', hread'⟩ := h'.operands field hoperand
    rw [hentries, hentries']
    refine .some (.operands (perm_of_operands hmap hmap' fun o => Option.ext fun v => ?_))
    rw [hread, hread', hlast]
  · have hnone : ∀ e ∈ params, ∀ o v, ¬ Contributes e field (some o) v :=
      fun e he o v hc => hoperand ⟨e, he, o, v, hc⟩
    have hnone' : ∀ e ∈ params', ∀ o v, ¬ Contributes e field (some o) v :=
      fun e he => hnone e ((hmem e).2 he)
    have hsame : filters.lookup? field = filters'.lookup? field := by
      refine Option.ext fun v => ?_
      rw [h.plain field hnone, h'.plain field hnone']
      simp only [hmem]
    rw [hsame]
    cases filters'.lookup? field with
    | none => exact .none
    | some v => exact .some (.same v)

end Raw

def without (params : Params) (key : String) : Params := params.filter (·.1 != key)

theorem foldl_without {β : Type} {f : β → String × Value → β} {key : String}
    (h : ∀ b e, e.1 = key → f b e = b) (params : Params) (b : β) :
    (without params key).foldl f b = params.foldl f b := by
  unfold without
  rw [List.foldl_filter]
  refine List.foldl_ext _ _ _ fun b e _ => ?_
  by_cases hkey : e.1 = key
  · simp [hkey, h b e hkey]
  · simp [hkey]

theorem filtersOf_without {params : Params} {key field : String} (h : IsSearchKey key field) :
    filtersOf (without params key) = filtersOf params := by
  refine foldl_without (fun filters e hkey => ?_) params []
  have hskipped : isFilterKey e.1 = false := by
    rw [← Bool.not_eq_true, isFilterKey_iff, hkey]
    exact fun ⟨_, hsearch⟩ => hsearch field h
  unfold addFilter
  rw [hskipped]
  rfl

theorem columnSearchOf_flat {params : Params} (hraw : ∀ e ∈ params, e.2.IsRaw) :
    columnSearchOf params = params.foldl (fun terms e =>
      match columnSearchAlias? e.1 with
      | some field => Entries.insert terms field e.2.last.term
      | none => terms) [] := by
  unfold columnSearchOf
  split
  · rename_i entries hentries
    unfold Params.get at hentries
    cases hlookup : params.lookup? "columnSearch" with
    | none =>
      rw [hlookup] at hentries
      cases hentries
    | some v =>
      obtain ⟨e, he, hvalue⟩ := Option.map_eq_some_iff.1 hlookup
      have hmap := hraw e (List.mem_of_find?_eq_some he)
      rw [hlookup] at hentries
      rw [hvalue, show v = .map entries from hentries] at hmap
      exact hmap.elim
  · rfl

theorem columnSearchOf_without {params : Params} (hraw : ∀ e ∈ params, e.2.IsRaw) {key : String}
    (h : ∀ field, ¬ IsSearchKey key field) :
    columnSearchOf (without params key) = columnSearchOf params := by
  have hnone : columnSearchAlias? key = none := by
    rw [Option.eq_none_iff_forall_ne_some]
    exact fun field hfield => h field (columnSearchAlias?_eq_some_iff.1 hfield)
  have hraw' : ∀ e ∈ without params key, e.2.IsRaw := fun e he => hraw e (List.mem_of_mem_filter he)
  rw [columnSearchOf_flat hraw, columnSearchOf_flat hraw']
  refine foldl_without (fun terms e hkey => ?_) params []
  rw [hkey, hnone]

/-- Filters are made of what the parameters contribute: the last operands of the operators of a
field, or its plain value. Parameters may change places as long as keys that denote the same field
and operator keep their order, and no key is read for filters and for column searches both. -/
theorem filters_made_of_contributions {params : Params} (hkeys : (params.map (·.1)).Nodup)
    (hraw : ∀ e ∈ params, e.2.IsRaw) :
    Collects params (filtersOf params) ∧
      (∀ params', IsReordering params params' →
        SameFilters (filtersOf params) (filtersOf params')) ∧
      ∀ key, filtersOf (without params key) = filtersOf params ∨
        columnSearchOf (without params key) = columnSearchOf params := by
  have hcollects := collects_filtersOf hkeys hraw
  refine ⟨hcollects, fun params' h => ?_, fun key => ?_⟩
  · have hkeys' : (params'.map (·.1)).Nodup := (h.perm.map (·.1)).nodup_iff.1 hkeys
    have hcollects' := collects_filtersOf hkeys' fun e he => hraw e (h.perm.mem_iff.2 he)
    exact hcollects.same hcollects' (fun e => h.perm.mem_iff) fun _ _ _ => h.isLast_iff hraw
  · by_cases hsearch : ∃ field, IsSearchKey key field
    · obtain ⟨field, hfield⟩ := hsearch
      exact .inl (filtersOf_without hfield)
    · exact .inr (columnSearchOf_without hraw fun field hfield => hsearch ⟨field, hfield⟩)

def ageParams : Params :=
  [("age[gt]", .text "3"), ("columnSearch[age]", .text "4"), ("age", .list [.text "", .text "5"]),
    ("age[gt]\n", .text "6"), ("name", .text "x")]

def ageParamsMoved : Params :=
  [("age", .list [.text "", .text "5"]), ("age[gt]", .text "3"), ("columnSearch[age]", .text "4"),
    ("age[gt]\n", .text "6"), ("name", .text "x")]

theorem ageParams_moved : IsReordering ageParams ageParamsMoved where
  perm := .trans (.cons _ (.swap _ _ _)) (.swap _ _ _)
  order := by
    intro target
    have hplain : denoted "age" = ("age", .eq) := by decide
    have hgreater : denoted "age[gt]" = ("age", .gt) := by decide
    have hsearch : denoted "columnSearch[age]" = ("columnSearch[age]", .eq) := by decide
    by_cases htarget : ("age", .eq) = target
    · subst htarget
      simp [ageParams, ageParamsMoved, List.filter_cons, hplain, hgreater, hsearch]
    · simp [ageParams, ageParamsMoved, List.filter_cons, hplain, htarget]

/-- Of two keys for greater ages the last one counts, and the age itself counts for equality. -/
theorem filters_made_of_contributions_age :
    (ageParams.map (·.1)).Nodup ∧ (∀ e ∈ ageParams, e.2.IsRaw) ∧
      IsReordering ageParams ageParamsMoved ∧
      Collects ageParams [("age", .map [(.text "gt", .text "6"), (.text "eq", .text "5")]),
        ("name", .text "x")] ∧
      SameFilters (filtersOf ageParams) (filtersOf ageParamsMoved) := by
  have hkeys : (ageParams.map (·.1)).Nodup := by decide
  have hraw : ∀ e ∈ ageParams, e.2.IsRaw := by simp [ageParams, Value.IsRaw]
  have hfilters : filtersOf ageParams =
      [("age", .map [(.text "gt", .text "6"), (.text "eq", .text "5")]), ("name", .text "x")] := rfl
  obtain ⟨hcollects, hsame, -⟩ := filters_made_of_contributions hkeys hraw
  rw [hfilters] at hcollects
  exact ⟨hkeys, hraw, ageParams_moved, hcollects, hsame _ ageParams_moved⟩

end Listing.ListRequest
