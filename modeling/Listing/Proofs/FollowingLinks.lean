import Listing.Envelope
import Listing.Proofs.PageSources

set_option autoImplicit false

namespace Listing

open Outcome Sql Statement

namespace Paging

def visit {α : Type} (s : Source α) (along : Bool) (limit number : Int) :
    Outcome (RichEnvelope α) := do
  RichEnvelope.ofPage none (← paginate s along limit number)

/-- The envelopes that a client receives from a page on who follows links to the end. -/
inductive Walk {α : Type} (visit : Int → Outcome (RichEnvelope α)) :
    Int → List (RichEnvelope α) → Prop where
  | last {n : Int} {e : RichEnvelope α} (h : visit n = .ok e) (hnext : e.links.next = none) :
      Walk visit n [e]
  | next {n m : Int} {e : RichEnvelope α} {es : List (RichEnvelope α)} (h : visit n = .ok e)
      (hnext : e.links.next = some (.number m)) (hes : Walk visit m es) : Walk visit n (e :: es)

theorem Walk.unique {α : Type} {visit : Int → Outcome (RichEnvelope α)} {n : Int}
    {es es' : List (RichEnvelope α)} (h : Walk visit n es) (h' : Walk visit n es') : es = es' := by
  induction h generalizing es' with
  | last h hnext =>
    cases h' with
    | last h' hnext' => rw [Except.ok.inj (h.symm.trans h')]
    | next h' hnext' hes' =>
      rw [Except.ok.inj (h.symm.trans h'), hnext'] at hnext
      cases hnext
  | next h hnext hes ih =>
    cases h' with
    | last h' hnext' =>
      rw [Except.ok.inj (h.symm.trans h'), hnext'] at hnext
      cases hnext
    | next h' hnext' hes' =>
      obtain rfl := Except.ok.inj (h.symm.trans h')
      obtain rfl : _ = _ := PageLink.number.inj (Option.some.inj (hnext.symm.trans hnext'))
      rw [ih hes']

theorem Walk.visited {α : Type} {visit : Int → Outcome (RichEnvelope α)} {n : Int}
    {es : List (RichEnvelope α)} (h : Walk visit n es) : ∃ e, visit n = .ok e := by
  cases h with
  | last h hnext => exact ⟨_, h⟩
  | next h hnext hes => exact ⟨_, h⟩

def pageCount {α : Type} (xs : List α) (limit : Int) : Int := ⌈(xs.length : ℚ) / limit⌉

section

variable {α : Type} {xs : List α} {limit n : Int}

theorem lt_pageCount_iff (h : 1 ≤ limit) : n < pageCount xs limit ↔ n * limit < xs.length := by
  have hpos : (0 : ℚ) < limit := by exact_mod_cast (show 0 < limit by omega)
  rw [pageCount, Int.lt_ceil, lt_div_iff₀ hpos]
  exact_mod_cast Iff.rfl

theorem length_le_of_pageCount_le (h : 1 ≤ limit) (hn : pageCount xs limit ≤ n) :
    (xs.length : ℤ) ≤ n * limit :=
  not_lt.1 fun hlt => hn.not_gt ((lt_pageCount_iff h).2 hlt)

theorem pageOf_lastPage : (pageOf xs limit n).lastPage = pageCount xs limit := by
  unfold pageOf pageCount
  rw [Int.cast_natCast]

theorem pageOf_past (h : 1 ≤ limit) (hn : pageCount xs limit < n) :
    (pageOf xs limit n).data = [] :=
  slice_eq_nil (length_le_of_pageCount_le h (by omega))

theorem pages_flatten (h : 1 ≤ limit) (xs : List α) (k : ℕ) :
    ((List.range k).flatMap fun i : ℕ => (pageOf xs limit (1 + i)).data) =
      xs.take (k * limit.toNat) := by
  induction k with
  | zero => rw [Nat.zero_mul, List.take_zero, List.range_zero, List.flatMap_nil]
  | succ k ih =>
    have hpage : (pageOf xs limit (1 + k)).data = (xs.drop (k * limit.toNat)).take limit.toNat := by
      have hoffset : (offset limit (1 + k)).toNat = k * limit.toNat := by
        rw [offset, add_sub_cancel_left, Int.toNat_mul (by omega) (by omega), Int.toNat_natCast]
      rw [pageOf, slice_eq (by omega), hoffset]
    rw [List.range_succ, List.flatMap_append, ih, List.flatMap_singleton, hpage, Nat.succ_mul,
      List.take_add]

end

section

variable {α : Type} {s : Source α} {along : Bool} {xs : List α} {limit n : Int}

def envelopeOf (xs : List α) (limit n : Int) : RichEnvelope α where
  data := (pageOf xs limit n).data
  facts := {
    total := xs.length, perPage := limit, currentPage := n, lastPage := pageCount xs limit
    first := (n - 1) * limit + 1
    last := if (xs.length : ℤ) < n * limit then (xs.length : ℤ) else n * limit }
  links := {
    first := .number 1, last := .number (pageCount xs limit)
    prev := if 1 < n then some (.number (n - 1)) else none
    next := if n < pageCount xs limit then some (.number (n + 1)) else none }

theorem visit_of_serves (hs : s.Serves along xs) (hlength : xs.length ≤ 2 ^ 53) (hlimit : 1 ≤ limit)
    (hfits : limit ≤ Word64.greatest) (hn : 1 ≤ n) :
    visit s along limit n = .ok (envelopeOf xs limit n) := by
  unfold visit
  rw [paginate_of_serves hs hlength hlimit hfits hn, ok_bind, RichEnvelope.ofPage_none,
    pageOf_lastPage]
  rfl

theorem walk_from {visit : Int → Outcome (RichEnvelope α)}
    (hvisit : ∀ m, 1 ≤ m → visit m = .ok (envelopeOf xs limit m)) (d : ℕ) (hn : 1 ≤ n)
    (hd : n + d = max 1 (pageCount xs limit)) :
    Walk visit n ((List.range (d + 1)).map fun i : ℕ => envelopeOf xs limit (n + i)) := by
  induction d generalizing n with
  | zero =>
    have hlast : ¬ n < pageCount xs limit := by omega
    rw [zero_add, List.range_one, List.map_singleton, Nat.cast_zero, add_zero]
    exact .last (hvisit n hn) (if_neg hlast)
  | succ d ih =>
    have hmore : n < pageCount xs limit := by omega
    have hrest := ih (n := n + 1) (by omega) (by omega)
    rw [List.range_succ_eq_map, List.map_cons, List.map_map, Nat.cast_zero, add_zero]
    have hlater : (List.range (d + 1)).map ((fun i : ℕ => envelopeOf xs limit (n + i)) ∘ Nat.succ) =
        (List.range (d + 1)).map fun i : ℕ => envelopeOf xs limit (n + 1 + i) := by
      apply List.map_congr_left
      intro i _
      rw [Function.comp_apply, Nat.cast_succ, add_assoc, add_comm (1 : ℤ)]
    rw [hlater]
    exact .next (hvisit n hn) (if_pos hmore) hrest

/-- From the first page on a walk collects the whole list. -/
theorem walk_of_serves (hs : s.Serves along xs) (hlength : xs.length ≤ 2 ^ 53) (hlimit : 1 ≤ limit)
    (hfits : limit ≤ Word64.greatest) : ∃ es, Walk (visit s along limit) 1 es ∧
      es.flatMap (·.data) = xs ∧ (∀ e ∈ es, e.facts.total = xs.length) ∧
      es.getLast?.map (·.facts.currentPage) = some (max 1 (pageCount xs limit)) := by
  obtain ⟨d, hd⟩ : ∃ d : ℕ, 1 + (d : ℤ) = max 1 (pageCount xs limit) :=
    ⟨(max 1 (pageCount xs limit) - 1).toNat, by omega⟩
  refine ⟨_, walk_from (fun m hm => visit_of_serves hs hlength hlimit hfits hm) d le_rfl hd,
    ?_, ?_, ?_⟩
  · rw [List.flatMap_map]
    refine (pages_flatten hlimit xs (d + 1)).trans (List.take_of_length_le ?_)
    have hlong : (xs.length : ℤ) ≤ (1 + d) * limit :=
      length_le_of_pageCount_le hlimit (hd ▸ le_max_right _ _)
    have hnat : ((d + 1 : ℕ) : ℤ) * limit.toNat = (1 + d) * limit := by
      rw [Int.toNat_of_nonneg (by omega), Nat.cast_succ, add_comm]
    exact_mod_cast hlong.trans hnat.ge
  · intro e he
    obtain ⟨i, -, rfl⟩ := List.mem_map.1 he
    rfl
  · rw [List.range_succ, List.map_append, List.map_singleton, List.getLast?_concat]
    exact congrArg some hd

end

end Paging

namespace Query

open Paging

variable {db : Database} {q : Query} {along : Bool} {xs ys : List Item} {limit : Int}

/-- Reading the total along moves items that no order tells apart, and does nothing else. -/
theorem all_perm (hown : q.TotalIsOwn) (hall : (q.source db).all along = .ok xs)
    (hplain : (q.source db).all false = .ok ys) : xs.Perm ys := by
  cases along with
  | false =>
    obtain rfl := Except.ok.inj (hall.symm.trans hplain)
    exact .refl xs
  | true =>
    obtain ⟨⟨zs, m⟩, hcounted, rfl⟩ := map_eq_ok_iff.1 hall
    obtain ⟨⟨rs, n⟩, hpage, -⟩ := bind_eq_ok_iff.1 hcounted
    rw [source_counted hown hpage] at hcounted
    obtain ⟨data, hitems, hdata⟩ := bind_eq_ok_iff.1 hcounted
    cases hdata
    obtain ⟨⟨rs', n'⟩, hpage', hitems'⟩ := bind_eq_ok_iff.1 hplain
    exact mapM_perm hitems hitems' (page_perm hpage hpage')

theorem visit_oversized (hall : (q.source db).all along = .ok xs) (hne : xs ≠ [])
    (hlimit : Word64.greatest < limit) :
    visit (q.source db) along limit 1 = .error .integerTooLarge := by
  have hbound : Word64.holds limit = false := Word64.not_holds_of_lt hlimit
  have hpaginate : Paging.paginate (q.source db) along limit 1 = .error .integerTooLarge := by
    cases along with
    | false =>
      have hserves : (q.source db).Serves false xs := source_serves nofun hall
      obtain ⟨⟨rs, n⟩, hpage, -⟩ := bind_eq_ok_iff.1 hall
      have hrows : (q.source db).rows limit 0 = .error .integerTooLarge :=
        rows_error (page_oversized hpage hbound 0)
      have hlength : xs.length ≠ 0 := fun h => hne (List.length_eq_zero_iff.1 h)
      exact (paginateCounting_first hserves.count hrows).trans (if_neg hlength)
    | true =>
      obtain ⟨⟨ys, m⟩, hcounted, -⟩ := map_eq_ok_iff.1 hall
      obtain ⟨⟨rs, n⟩, hpage, -⟩ := bind_eq_ok_iff.1 hcounted
      have hfails : (q.source db).counted limit 0 = .error .integerTooLarge :=
        counted_error (page_oversized hpage hbound 0)
      unfold Paging.paginate
      rw [first_offset, if_pos (by decide)]
      exact paginateAlong_first hfails
  unfold visit
  rw [hpaginate]
  rfl

/-- Whoever asks for the first page and follows the links to the next ones receives the whole
result, each of its items once and in order, and is told its size on every page. Pages behind the
last one are empty. -/
theorem links_lead_through (hall : (q.source db).all along = .ok xs) (hlength : xs.length ≤ 2 ^ 53)
    (hlimit : 1 ≤ limit) (hfits : limit ≤ Word64.greatest) (hown : along = true → q.TotalIsOwn) :
    (∃ es, Walk (visit (q.source db) along limit) 1 es ∧
      (∀ es', Walk (visit (q.source db) along limit) 1 es' → es' = es) ∧
      es.flatMap (·.data) = xs ∧ (∀ e ∈ es, e.facts.total = xs.length) ∧
      es.getLast?.map (·.facts.currentPage) = some (max 1 ⌈(xs.length : ℚ) / limit⌉)) ∧
    (∀ n, max 1 ⌈(xs.length : ℚ) / limit⌉ < n → ∃ e, visit (q.source db) along limit n = .ok e ∧
      e.data = [] ∧ e.facts.total = xs.length) ∧
    (∀ ys, (q.source db).all false = .ok ys → xs.Perm ys) := by
  have hserves : (q.source db).Serves along xs := source_serves hown hall
  refine ⟨?_, ?_, ?_⟩
  · obtain ⟨es, hwalk, hdata, htotal, hlast⟩ := walk_of_serves hserves hlength hlimit hfits
    exact ⟨es, hwalk, fun es' h => h.unique hwalk, hdata, htotal, hlast⟩
  · intro n hn
    obtain ⟨hn, hpast⟩ := max_lt_iff.1 hn
    exact ⟨_, visit_of_serves hserves hlength hlimit hfits hn.le, pageOf_past hlimit hpast, rfl⟩
  · intro ys hplain
    cases along with
    | false =>
      rw [Except.ok.inj (hall.symm.trans hplain)]
    | true => exact all_perm (hown rfl) hall hplain

theorem links_lead_through_falling :
    ((falling.source twoSteps).all true = .ok stepItems ∧ stepItems.length ≤ 2 ^ 53 ∧
      (1 : ℤ) ≤ 1 ∧ 1 ≤ Word64.greatest ∧ falling.TotalIsOwn) ∧
    ∃ es, Walk (visit (falling.source twoSteps) true 1) 1 es ∧ es.flatMap (·.data) = stepItems ∧
      es.getLast?.map (·.facts.currentPage) = some 2 := by
  have hown : falling.TotalIsOwn := List.forall_mem_nil _
  have hlength : stepItems.length ≤ 2 ^ 53 := by decide
  have hfits : 1 ≤ Word64.greatest := by decide
  have hpages : max 1 ⌈(stepItems.length : ℚ) / (1 : ℤ)⌉ = 2 := by
    norm_num [stepItems]
  obtain ⟨⟨es, hwalk, -, hdata, -, hlast⟩, -, -⟩ :=
    links_lead_through (falling_all true) hlength le_rfl hfits fun _ => hown
  exact ⟨⟨falling_all true, hlength, le_rfl, hfits, hown⟩, es, hwalk, hdata, hpages ▸ hlast⟩

def parentMax : Aggregate where
  kind := .max
  target := nodes
  column := some ("id", .integer)
  pairs := [("parent_id", "id")]
  label := "parent_max_id"

example : (ofModel { models := [node] } node).withAggregate .max "parent" (some "id") =
    .ok (nodesWith [parentMax]) := rfl

theorem parentMax_page : (nodesWith [parentMax]).statement.page oneNode false (-1) 0 =
    .ok ([⟨some nodeRow, [("parent_max_id", .null)]⟩], 1) := by
  obtain ⟨p, hp, hpatterns, hread, -⟩ := nodesWith_prepare [parentMax] false rfl rfl
  rw [page_of_prepared hp (by decide) (by decide), hpatterns]
  unfold fetchedPart
  rw [hread]
  rfl

/-- What fails of the walk otherwise: a page size beyond 64 bits cannot be read; rows that become
one have no total beside them; and a total is told wrong by a value of the same name. -/
theorem links_lead_astray :
    ((falling.source twoSteps).all false = .ok stepItems ∧
      ∀ es, ¬ Walk (visit (falling.source twoSteps) false (2 ^ 63)) 1 es) ∧
    (((nodesWith [parentMax]).source oneNode).all false = .ok [.merged [("id", .scalar (.int 1)),
        ("parent_id", .scalar .null), ("parent_max_id", .scalar .null)]] ∧
      ∀ es, ¬ Walk (visit ((nodesWith [parentMax]).source oneNode) true 1) 1 es) ∧
    (((nodesWith [childCount]).source oneNode).all true = .ok [nodeItem] ∧
      ∃ e, Walk (visit ((nodesWith [childCount]).source oneNode) true 1) 1 [e] ∧
        e.facts.total = 0) := by
  refine ⟨⟨falling_all false, fun es hwalk => ?_⟩, ⟨?_, fun es hwalk => ?_⟩, ?_, ?_⟩
  · obtain ⟨e, he⟩ := hwalk.visited
    rw [visit_oversized (falling_all false) (List.cons_ne_nil _ _) (by decide)] at he
    cases he
  · exact (source_rows parentMax_page).trans rfl
  · obtain ⟨e, he⟩ := hwalk.visited
    have hfails : visit ((nodesWith [parentMax]).source oneNode) true 1 1 =
        .error (.sql .operational) := rfl
    rw [hfails] at he
    cases he
  · change (·.1) <$> ((nodesWith [childCount]).source oneNode).counted (-1) 0 = _
    rw [childCount_counted childCount_page]
    rfl
  · have hpage : (nodesWith [childCount]).statement.page oneNode true 1 0 = _ :=
      page_slice childCount_page (by decide) (by decide)
    have hvisit : visit ((nodesWith [childCount]).source oneNode) true 1 1 = .ok {
        data := [nodeItem]
        facts := {
          total := 0, perPage := 1, currentPage := 1, lastPage := 0, first := 1, last := 0 }
        links := { first := .number 1, last := .number 0, prev := none, next := none } } := by
      have hcounted := childCount_counted hpage
      unfold visit Paging.paginate paginateAlong
      rw [if_pos (by decide)]
      change (((nodesWith [childCount]).source oneNode).counted 1 0 >>= fun x => _) >>= _ = _
      rw [hcounted]
      rfl
    exact ⟨_, .last hvisit rfl, rfl⟩

end Query
end Listing
