import Mathlib.Data.List.Basic
import Listing.Plan.Build

set_option autoImplicit false

namespace Listing

namespace Policy

def allows (fields : List (String × String)) (field : String) : Bool :=
  (fields.map (·.1)).contains field

theorem columnOf?_eq_none_iff {fields : List (String × String)} {field : String} :
    columnOf? fields field = none ↔ allows fields field = false := by
  rw [columnOf?, Entries.lookup?_eq_none_iff, ← Bool.not_eq_true, Entries.any_key_iff,
    ← Bool.not_eq_true, allows, List.contains_iff_mem]

end Policy

namespace ListRequest

def allowedSearches (p : Policy) (r : ListRequest) : List (String × String) :=
  r.columnSearch.filter fun e => Policy.allows p.columnFields e.1 && !e.2.isEmpty

def allowedFilters (p : Policy) (r : ListRequest) : List (String × Value) :=
  r.filters.filter fun f => Policy.allows p.filterableFields f.1

def trimmed (p : Policy) (r : ListRequest) : ListRequest :=
  { r with columnSearch := r.allowedSearches p, filters := r.allowedFilters p }

structure AgreeOnAllowed (p : Policy) (r r' : ListRequest) : Prop where
  search : r.search = r'.search
  sortOrder : r.sortOrder = r'.sortOrder
  relations : r.relations = r'.relations
  columnSearch : r.allowedSearches p = r'.allowedSearches p
  filters : r.allowedFilters p = r'.allowedFilters p
  sortBy : r.sortBy = r'.sortBy ∨
    (Policy.allows p.sortableFields r.sortBy = false ∧
      Policy.allows p.sortableFields r'.sortBy = false)

end ListRequest

namespace Plan

/-- The columns that filters are resolved to, those of filters without a term included. -/
def filterColumns (p : Policy) (r : ListRequest) : List ColumnRef :=
  r.filters.filterMap fun f =>
    (Policy.columnOf? p.filterableFields f.1).map fun name => ⟨name, isJoined p r⟩

variable {p : Policy} {r r' : ListRequest}

theorem columnSearchCalls_trimmed (p : Policy) (r : ListRequest) :
    columnSearchCalls p (r.trimmed p) = columnSearchCalls p r := by
  have hjoined : isJoined p (r.trimmed p) = isJoined p r := rfl
  have hsearches : (r.trimmed p).columnSearch = r.allowedSearches p := rfl
  unfold columnSearchCalls
  rw [hjoined, hsearches, ListRequest.allowedSearches, List.filterMap_filter]
  refine List.filterMap_congr fun e _ => ?_
  obtain ⟨field, term⟩ := e
  cases hallowed : Policy.allows p.columnFields field with
  | false => simp [Policy.columnOf?_eq_none_iff.2 hallowed]
  | true =>
    cases hterm : term.isEmpty with
    | false => simp [hterm]
    | true => cases hname : Policy.columnOf? p.columnFields field <;> simp [hterm, hname]

theorem flatMap_filter {α β : Type} {f : α → List β} {g : α → Bool} {xs : List α}
    (h : ∀ x, g x = false → f x = []) : (xs.filter g).flatMap f = xs.flatMap f := by
  induction xs with
  | nil => rfl
  | cons x xs ih =>
    cases hx : g x with
    | true => simp [hx, ih]
    | false => simp [hx, ih, h x hx]

theorem filterCalls_trimmed (knows : Value → Bool) (p : Policy) (r : ListRequest) :
    filterCalls knows p (r.trimmed p) = filterCalls knows p r := by
  have hnone (f : String × Value) (hf : Policy.allows p.filterableFields f.1 = false) :
      comparisons p r f = [] := by
    unfold comparisons
    rw [Policy.columnOf?_eq_none_iff.2 hf]
  have hall : (r.trimmed p).filters.flatMap (comparisons p (r.trimmed p)) =
      r.filters.flatMap (comparisons p r) := flatMap_filter hnone
  unfold filterCalls
  rw [hall]

theorem filterColumns_trimmed (p : Policy) (r : ListRequest) :
    filterColumns p (r.trimmed p) = filterColumns p r := by
  have hjoined : isJoined p (r.trimmed p) = isJoined p r := rfl
  have hfilters : (r.trimmed p).filters = r.allowedFilters p := rfl
  unfold filterColumns
  rw [hjoined, hfilters, ListRequest.allowedFilters, List.filterMap_filter]
  refine List.filterMap_congr fun f _ => ?_
  cases hallowed : Policy.allows p.filterableFields f.1 with
  | true => rfl
  | false =>
    rw [Policy.columnOf?_eq_none_iff.2 hallowed]
    rfl

theorem calls_trimmed (knows : Value → Bool) (p : Policy) (r : ListRequest) :
    calls knows p (r.trimmed p) = calls knows p r := by
  have hrest : joinCalls p (r.trimmed p) = joinCalls p r ∧
      relationCalls (r.trimmed p) = relationCalls r ∧
      searchCalls p (r.trimmed p) = searchCalls p r ∧
      orderCalls p (r.trimmed p) = orderCalls p r := ⟨rfl, rfl, rfl, rfl⟩
  obtain ⟨hjoin, hrelations, hsearch, horder⟩ := hrest
  simp only [calls, selection, hjoin, hrelations, hsearch, horder, columnSearchCalls_trimmed,
    filterCalls_trimmed]

theorem sortField_trimmed (h : r.AgreeOnAllowed p r') :
    sortField? p (r.trimmed p) = sortField? p (r'.trimmed p) := by
  have hr : sortField? p (r.trimmed p) = sortField? p r := rfl
  have hr' : sortField? p (r'.trimmed p) = sortField? p r' := rfl
  rw [hr, hr']
  unfold sortField?
  rcases h.sortBy with hsame | ⟨hunlisted, hunlisted'⟩
  · rw [hsame]
  · rw [Policy.columnOf?_eq_none_iff.2 hunlisted, Policy.columnOf?_eq_none_iff.2 hunlisted']

theorem calls_congr (hsort : sortField? p r = sortField? p r') (hsearch : r.search = r'.search)
    (horder : r.sortOrder = r'.sortOrder) (hrelations : r.relations = r'.relations)
    (hcolumns : r.columnSearch = r'.columnSearch) (hfilters : r.filters = r'.filters)
    (knows : Value → Bool) : calls knows p r = calls knows p r' := by
  have hjoined : isJoined p r = isJoined p r' := by simp only [isJoined, join?, hsort]
  have hcomparisons : comparisons p r = comparisons p r' := by
    funext f
    simp only [comparisons, hjoined]
  simp only [calls, selection, joinCalls, relationCalls, searchCalls, columnSearchCalls,
    filterCalls, orderCalls, join?, hsort, hsearch, horder, hrelations, hcolumns, hfilters, hjoined,
    hcomparisons]

theorem calls_of_agree (h : r.AgreeOnAllowed p r') (knows : Value → Bool) :
    calls knows p r = calls knows p r' := by
  rw [← calls_trimmed knows p r, ← calls_trimmed knows p r']
  exact calls_congr (sortField_trimmed h) h.search h.sortOrder h.relations h.columnSearch h.filters
    knows

theorem filterColumns_of_agree (h : r.AgreeOnAllowed p r') :
    filterColumns p r = filterColumns p r' := by
  have hjoined : isJoined p (r.trimmed p) = isJoined p (r'.trimmed p) := by
    simp only [isJoined, join?, sortField_trimmed h]
  have hfilters : (r.trimmed p).filters = (r'.trimmed p).filters := h.filters
  rw [← filterColumns_trimmed p r, ← filterColumns_trimmed p r']
  simp only [filterColumns, hfilters, hjoined]

/-- What a policy does not allow is inert: a handle gets the same calls, and filters are resolved
to the same columns. -/
theorem unlisted_entries_inert (h : r.AgreeOnAllowed p r') :
    (∀ knows, calls knows p r = calls knows p r') ∧ filterColumns p r = filterColumns p r' ∧
      ∀ {H : Type} (receiver : Receiver H) (handle : H),
        build receiver none p r handle = build receiver none p r' handle := by
  refine ⟨calls_of_agree h, filterColumns_of_agree h, fun receiver handle => ?_⟩
  rw [build_none, build_none, calls_of_agree h]

def heroPolicy : Policy where
  searchFields := ["name"]
  columnFields := [("name", "name"), ("age", "age")]
  sortableFields := [("team", "teams.name"), ("name", "name")]
  filterableFields := [("age", "age")]
  relationJoins := [("team", ⟨"team", "team_id", "teams", "id"⟩)]

def plainRequest : ListRequest where
  search := "man"
  columnSearch := [("name", "a")]
  filters := [("age", .map [(.text "gte", .text "20")])]

/-- The request with entries in between that the policy does not allow, and another sort key. -/
def litteredRequest : ListRequest where
  search := "man"
  columnSearch := [("password", "x"), ("name", "a"), ("age", "")]
  filters := [("password", .text "x"), ("age", .map [(.text "gte", .text "20")]), ("1=1", .null)]
  sortBy := "password"

theorem unlisted_entries_inert_littered :
    plainRequest.AgreeOnAllowed heroPolicy litteredRequest ∧
      ∀ knows, calls knows heroPolicy plainRequest = calls knows heroPolicy litteredRequest := by
  have h : plainRequest.AgreeOnAllowed heroPolicy litteredRequest := by
    refine ⟨rfl, rfl, rfl, by decide, rfl, .inr ⟨by decide, by decide⟩⟩
  exact ⟨h, (unlisted_entries_inert h).1⟩

end Plan
end Listing
