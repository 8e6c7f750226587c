import Listing.ListRequest.Reader
import Listing.Proofs.Outcomes

set_option autoImplicit false

namespace Listing

open Outcome

namespace Quantity

theorem less_of_int? {a b : Quantity} {m n : Int} (ha : a.int? = some m) (hb : b.int? = some n) :
    a.less b = decide (m < n) := by
  have hwhole : a.less b = (whole m).less (whole n) := by
    cases a with
    | real x => cases ha
    | flag x =>
      cases ha
      cases b with
      | real y => cases hb
      | flag y =>
        cases hb
        rfl
      | whole y =>
        cases hb
        rfl
    | whole x =>
      cases ha
      cases b with
      | real y => cases hb
      | flag y =>
        cases hb
        rfl
      | whole y =>
        cases hb
        rfl
  rw [hwhole, less_whole]

end Quantity

namespace Config

/-- All limits are integers, as they are declared. -/
structure IsWhole (c : Config) : Prop where
  maxPerPage : c.maxPerPage.int?.isSome
  defaultPerPage : c.defaultPerPage.int?.isSome
  defaultPage : c.defaultPage.int?.isSome
  minPerPage : c.minPerPage.int?.isSome

variable {c : Config}

theorem one_le_of_not_less {q : Quantity} {n : Int} (hn : q.int? = some n)
    (h : q.less (.whole 1) = false) : 1 ≤ n := by
  rw [Quantity.less_of_int? hn (b := .whole 1) rfl, decide_eq_false_iff_not] at h
  omega

theorem boundPage_whole {n : Int} (hn : 1 ≤ n) :
    c.boundPage (.whole n) = .whole n := by
  unfold boundPage
  rw [Quantity.less_whole]
  simp only [decide_eq_true_eq]
  exact if_neg (by omega)

/-- The limits of a configuration as integers: the least and the greatest page size, and
the page that stands for none. -/
structure HasLimits (c : Config) (least most first : Int) : Prop where
  minPerPage : c.minPerPage.int? = some least
  maxPerPage : c.maxPerPage.int? = some most
  defaultPage : c.defaultPage.int? = some first
  one_le : 1 ≤ least
  sorted : least ≤ most
  first_pos : 1 ≤ first

theorem IsWhole.hasLimits (hwhole : c.IsWhole) :
    ∃ least most first, c.HasLimits least most first := by
  obtain ⟨least, hleast⟩ := Option.isSome_iff_exists.1 hwhole.minPerPage
  obtain ⟨most, hgreatest⟩ := Option.isSome_iff_exists.1 hwhole.maxPerPage
  obtain ⟨first, hfirst⟩ := Option.isSome_iff_exists.1 hwhole.defaultPage
  have hle := c.minPerPage_le
  rw [Quantity.less_of_int? hgreatest hleast, decide_eq_false_iff_not] at hle
  exact ⟨least, most, first, hleast, hgreatest, hfirst, one_le_of_not_less hleast c.minPerPage_pos,
    by omega, one_le_of_not_less hfirst c.defaultPage_pos⟩

namespace HasLimits

variable {least most first n : Int} {q : Quantity}

theorem boundPage (hl : c.HasLimits least most first) (hq : q.int? = some n) :
    (c.boundPage q).int? = some (if n < 1 then first else n) := by
  unfold Config.boundPage
  rw [Quantity.less_of_int? hq (b := .whole 1) rfl]
  by_cases h : n < 1
  · simp [h, hl.defaultPage]
  · simp [h, hq]

theorem boundPerPage (hl : c.HasLimits least most first) (hq : q.int? = some n) :
    (c.boundPerPage q).int? =
      some (if n < least then least else if most < n then most else n) := by
  unfold Config.boundPerPage
  rw [Quantity.less_of_int? hq hl.minPerPage, Quantity.less_of_int? hl.maxPerPage hq]
  by_cases hless : n < least
  · simp [hless, hl.minPerPage]
  · by_cases hmore : most < n
    · simp [hless, hmore, hl.maxPerPage]
    · simp [hless, hmore, hq]

theorem boundPerPage_whole (hl : c.HasLimits least most first) (hleast : least ≤ n)
    (hmost : n ≤ most) : c.boundPerPage (.whole n) = .whole n := by
  have hn : (Quantity.whole n).int? = some n := rfl
  unfold Config.boundPerPage
  rw [Quantity.less_of_int? hn hl.minPerPage, Quantity.less_of_int? hl.maxPerPage hn]
  simp only [decide_eq_true_eq]
  rw [if_neg (by omega), if_neg (by omega)]

end HasLimits

end Config

def Value.IsRaw : Value → Prop
  | .text _ => True
  | .list items => ∀ v ∈ items, ∃ s, v = .text s
  | _ => False

def Value.IsFilter : Value → Prop
  | .map entries => ∀ e ∈ entries, e.2.IsRaw
  | v => v.IsRaw

namespace ListRequest

theorem quantityOr_isWhole {default : Quantity} (h : default.int?.isSome) (v : Value) :
    (quantityOr default v).int?.isSome := by
  unfold quantityOr
  cases integerOf? v with
  | none => exact h
  | some n => rfl

/-- The request that parameters stand for, but for page and page size. -/
def readAs (c : Config) (params : Params) (page limit : Int) : ListRequest where
  page := page
  limit := limit
  search := (params.get "search").last.term
  columnSearch := columnSearchOf params
  sortBy := (firstOf params "sortBy" "sort_by").term
  sortOrder := (sortOrderOf? (firstOf params "sortOrder" "sort_order")).getD c.defaultSortOrder
  filters := filtersOf params
  relations := relationsOf (params.get "with").last

theorem ofParams_eq {c : Config} {params : Params} {page limit : Int}
    (hpage : (c.boundPage (quantityOr c.defaultPage (params.get "page").last)).int? = some page)
    (hlimit : (c.boundPerPage
      (quantityOr c.defaultPerPage (params.get "limit").last)).int? = some limit)
    (hpos : 1 ≤ page) (hpos' : 1 ≤ limit) :
    ofParams c params = .ok (readAs c params page limit) := by
  unfold ofParams
  dsimp only
  rw [Validation.positiveField_of_int? hpage hpos, Validation.positiveField_of_int? hlimit hpos']
  rfl

/-- Parameters are always read, with page and page size within the limits. -/
theorem ofParams_within {c : Config} {least most first : Int}
    (hl : c.HasLimits least most first) (hwhole : c.IsWhole) (params : Params) :
    ∃ page limit, ofParams c params = .ok (readAs c params page limit) ∧ 1 ≤ page ∧
      least ≤ limit ∧ limit ≤ most := by
  obtain ⟨page, hpage⟩ := Option.isSome_iff_exists.1
    (quantityOr_isWhole hwhole.defaultPage (params.get "page").last)
  obtain ⟨limit, hlimit⟩ := Option.isSome_iff_exists.1
    (quantityOr_isWhole hwhole.defaultPerPage (params.get "limit").last)
  have hone := hl.one_le
  have hsorted := hl.sorted
  have hfirst := hl.first_pos
  refine ⟨_, _, ofParams_eq (hl.boundPage hpage) (hl.boundPerPage hlimit) ?_ ?_, ?_, ?_, ?_⟩ <;>
    split_ifs <;> omega

theorem ofParams_ok {c : Config} (hwhole : c.IsWhole) (params : Params) :
    ∃ r, ofParams c params = .ok r ∧ r.filters = filtersOf params := by
  obtain ⟨least, most, first, hl⟩ := hwhole.hasLimits
  obtain ⟨page, limit, hread, -⟩ := ofParams_within hl hwhole params
  exact ⟨_, hread, rfl⟩

theorem isRaw_plainValue {v w : Value} (hv : v.IsRaw) (h : plainValue? v = some w) : w.IsRaw := by
  cases v with
  | text s =>
    cases h
    exact hv
  | list items =>
    have hkept : ∀ v ∈ items.filter (!·.isEmpty), ∃ s, v = .text s :=
      fun v hv' => hv v (List.mem_of_mem_filter hv')
    unfold plainValue? at h
    dsimp only at h
    split at h
    · cases h
    · rename_i x hone
      cases h
      obtain ⟨s, rfl⟩ := hkept w (hone ▸ List.mem_singleton_self w)
      trivial
    · cases h
      exact hkept
  | _ => exact hv.elim

theorem isFilter_of_isRaw {v : Value} (h : v.IsRaw) : v.IsFilter := by
  cases v with
  | map entries => exact h.elim
  | _ => exact h

theorem isFilter_lookup {filters : Params} {key : String} {v : Value}
    (h : ∀ e ∈ filters, e.2.IsFilter) (hv : filters.lookup? key = some v) : v.IsFilter := by
  obtain ⟨e, he, rfl⟩ := Option.map_eq_some_iff.1 hv
  exact h e (List.mem_of_find?_eq_some he)

theorem isRaw_operatorMap {filters : Params} {key : String} (h : ∀ e ∈ filters, e.2.IsFilter) :
    ∀ e ∈ operatorMap (filters.lookup? key), e.2.IsRaw := by
  cases hv : filters.lookup? key with
  | none => exact List.forall_mem_nil _
  | some v =>
    have hfilter := isFilter_lookup h hv
    cases v with
    | map entries => exact hfilter
    | _ =>
      intro e he
      rw [List.mem_singleton.1 he]
      exact hfilter

theorem isFilter_addFilter {filters : Params} {e : String × Value}
    (h : ∀ f ∈ filters, f.2.IsFilter) (he : e.2.IsRaw) :
    ∀ f ∈ addFilter filters e, f.2.IsFilter := by
  unfold addFilter
  split_ifs with hskipped
  · exact h
  · split
    · exact Entries.forall_insert h (Entries.forall_insert (isRaw_operatorMap h) he)
    · split
      · exact h
      · rename_i v hplain
        have hv : v.IsRaw := isRaw_plainValue he hplain
        split
        · rename_i entries hentries
          have hmap : Value.IsFilter (.map entries) := isFilter_lookup h hentries
          exact Entries.forall_insert h (Entries.forall_insert hmap hv)
        · exact Entries.forall_insert h (isFilter_of_isRaw hv)

theorem isFilter_filtersOf {params : Params} (h : ∀ e ∈ params, e.2.IsRaw) :
    ∀ f ∈ filtersOf params, f.2.IsFilter := by
  have hfold : ∀ filters : Params, (∀ f ∈ filters, f.2.IsFilter) →
      ∀ f ∈ params.foldl addFilter filters, f.2.IsFilter := by
    induction params with
    | nil => exact fun filters hfilters => hfilters
    | cons e params ih =>
      intro filters hfilters
      have hadded := isFilter_addFilter hfilters (h e List.mem_cons_self)
      exact ih (fun e' he' => h e' (List.mem_cons_of_mem _ he')) _ hadded
  exact hfold [] (List.forall_mem_nil _)

end ListRequest
end Listing
