import Listing.Proofs.PageSources

set_option autoImplicit false

namespace Listing

open Outcome Sql Statement

namespace Sql.Statement

variable {db : Database} {s : Statement} {counted : Bool} {bs : List Binding} {limit offset : Int}

/-- The rows that a statement evaluates to, before anything is read of them. -/
def evaluated (db : Database) (s : Statement) (counted : Bool) : Outcome (List Binding) := do
  let p ← s.prepare db counted []
  s.checkPatterns db p
  .ok (s.ordered db p)

theorem evaluated_eq_ok_iff : s.evaluated db counted = .ok bs ↔ ∃ p,
    s.prepare db counted [] = .ok p ∧ s.checkPatterns db p = .ok () ∧ s.ordered db p = bs := by
  unfold evaluated
  constructor
  · intro h
    obtain ⟨p, hp, h⟩ := bind_eq_ok_iff.1 h
    obtain ⟨⟨⟩, hpatterns, h⟩ := bind_eq_ok_iff.1 h
    exact ⟨p, hp, hpatterns, Except.ok.inj h⟩
  · rintro ⟨p, hp, hpatterns, rfl⟩
    rw [hp, ok_bind, hpatterns]
    rfl

/-- Rows that become one cannot be counted along. -/
theorem not_collapses_of_evaluated (h : s.evaluated db true = .ok bs) : s.collapses = false := by
  obtain ⟨p, hp, -, -⟩ := evaluated_eq_ok_iff.1 h
  obtain ⟨-, -, -, -, -, hc, -, -⟩ := (prepare_eq_ok_iff (List.forall_mem_nil _)).1 hp
  rwa [Bool.true_and] at hc

theorem total_of_ordered {p : Prepared} (hc : s.collapses = false) (hbs : s.ordered db p = bs) :
    s.total db p = bs.length := by
  unfold total
  rw [hc, ← hbs, (ordered_perm p).length_eq]
  rfl

theorem count_of_evaluated (hc : s.collapses = false) (h : s.evaluated db counted = .ok bs) :
    s.count db = .ok bs.length := by
  obtain ⟨p, hp, hpatterns, hbs⟩ := evaluated_eq_ok_iff.1 h
  rw [count_of_prepared hp, hpatterns, ok_bind, total_of_ordered hc hbs]

def resultsOf (db : Database) (s : Statement) (bs : List Binding) : Outcome (List Result) := do
  (← bs.mapM (s.fetched db)).mapM Fetched.result

theorem page_of_evaluated (hc : s.collapses = false) (h : s.evaluated db counted = .ok bs)
    (hl : Word64.holds limit = true) (ho : Word64.holds offset = true) :
    s.page db counted limit offset =
      s.resultsOf db (slice limit offset bs) >>= fun rs => .ok (rs, bs.length) := by
  obtain ⟨p, hp, hpatterns, hbs⟩ := evaluated_eq_ok_iff.1 h
  rw [page_of_prepared hp hl ho, hpatterns, ok_bind, total_of_ordered hc hbs]
  unfold fetchedPart resultsOf
  rw [hc, if_neg (by decide), hbs, bind_assoc]

theorem page_of_evaluated_oversized (h : s.evaluated db counted = .ok bs)
    (hl : Word64.holds limit = false) :
    s.page db counted limit offset = .error .integerTooLarge := by
  obtain ⟨p, hp, -, -⟩ := evaluated_eq_ok_iff.1 h
  unfold page
  rw [prepare_oversized hp hl]
  rfl

end Sql.Statement

namespace Query

variable {db : Database} {q : Query} {bs : List Binding} {limit offset number : Int}

def itemsOf (db : Database) (q : Query) (bs : List Binding) : Outcome (List Item) := do
  q.items db none (← q.statement.resultsOf db bs)

theorem rows_of_evaluated (hc : q.statement.collapses = false)
    (h : q.statement.evaluated db false = .ok bs) (hl : Word64.holds limit = true)
    (ho : Word64.holds offset = true) :
    (q.source db).rows limit offset = q.itemsOf db (slice limit offset bs) := by
  change (q.statement.page db false limit offset >>= fun x => q.items db none x.1) = _
  rw [page_of_evaluated hc h hl ho, bind_assoc]
  rfl

theorem counted_of_evaluated (hown : q.TotalIsOwn) (h : q.statement.evaluated db true = .ok bs)
    (hl : Word64.holds limit = true) (ho : Word64.holds offset = true) :
    (q.source db).counted limit offset =
      q.itemsOf db (slice limit offset bs) >>= fun data => .ok (data, bs.length) := by
  have hpage := page_of_evaluated (not_collapses_of_evaluated h) h hl ho
  cases hresults : q.statement.resultsOf db (slice limit offset bs) with
  | error e =>
    rw [hresults] at hpage
    change (q.statement.page db true limit offset >>= fun x => _) = _
    unfold itemsOf
    rw [hpage, hresults]
    rfl
  | ok rs =>
    rw [hresults] at hpage
    rw [source_counted hown hpage]
    unfold itemsOf
    rw [hresults]
    rfl

def pageOfRows (db : Database) (q : Query) (bs : List Binding) (limit number : Int) :
    Outcome (Page Item) := do
  let data ← q.itemsOf db (slice limit (Paging.offset limit number) bs)
  Paging.page data bs.length limit number

theorem paginateCounting_eq (hc : q.statement.collapses = false)
    (h : q.statement.evaluated db false = .ok bs) (hl : Word64.holds limit = true)
    (ho : Word64.holds (Paging.offset limit number) = true) :
    Paging.paginateCounting (q.source db) limit number = q.pageOfRows db bs limit number := by
  have hcount : (q.source db).count = .ok bs.length := count_of_evaluated hc h
  unfold Paging.paginateCounting pageOfRows
  rw [hcount, ok_bind]
  split_ifs with hpast
  · have hnone : slice limit (Paging.offset limit number) bs = [] := Paging.slice_eq_nil hpast
    rw [hnone]
    rfl
  · rw [rows_of_evaluated hc h hl ho]

theorem paginateAlong_eq (hown : q.TotalIsOwn) (h : q.statement.evaluated db true = .ok bs)
    (hl : Word64.holds limit = true) (ho : Word64.holds (Paging.offset limit number) = true) :
    Paging.paginateAlong (q.source db) limit number = q.pageOfRows db bs limit number := by
  have hcount : (q.source db).count = .ok bs.length :=
    count_of_evaluated (not_collapses_of_evaluated h) h
  unfold Paging.paginateAlong pageOfRows
  rw [counted_of_evaluated hown h hl ho, bind_assoc]
  refine congrArg (_ >>= ·) (funext fun data => ?_)
  rw [ok_bind]
  dsimp only
  rw [hcount]
  split_ifs <;> rfl

theorem paginate_false : q.paginate db false limit number =
    Paging.paginateCounting (q.source db) limit number := rfl

theorem paginate_true_of_le (h : Paging.offset limit number ≤ Paging.maxOffset) :
    q.paginate db true limit number = Paging.paginateAlong (q.source db) limit number :=
  if_pos (decide_eq_true h)

theorem paginate_true_of_lt (h : Paging.maxOffset < Paging.offset limit number) :
    q.paginate db true limit number = Paging.paginateCounting (q.source db) limit number := by
  have hnot : ¬ Paging.offset limit number ≤ Paging.maxOffset := h.not_ge
  exact if_neg fun hle => hnot (of_decide_eq_true hle)

theorem paginate_along_oversized (h : q.statement.evaluated db true = .ok bs)
    (hl : Word64.holds limit = false) :
    q.paginate db true limit 1 = .error .integerTooLarge := by
  have hfails : (q.source db).counted limit 0 = .error .integerTooLarge :=
    counted_error (page_of_evaluated_oversized h hl)
  rw [paginate_true_of_le (Paging.first_offset.trans_le (by decide))]
  exact Paging.paginateAlong_first hfails

theorem paginate_counting_oversized (hc : q.statement.collapses = false)
    (h : q.statement.evaluated db false = .ok bs) (hl : Word64.holds limit = false) :
    q.paginate db false limit 1 =
      if bs.length = 0 then Paging.page [] 0 limit 1 else .error .integerTooLarge := by
  have hcount : (q.source db).count = .ok bs.length := count_of_evaluated hc h
  have hfails : (q.source db).rows limit 0 = .error .integerTooLarge :=
    rows_error (page_of_evaluated_oversized h hl)
  exact Paging.paginateCounting_first hcount hfails

theorem lt_offset_of_lt (hnumber : 1 < number) (h : Word64.greatest < limit) :
    Paging.maxOffset < Paging.offset limit number := by
  have hpos : 0 ≤ limit := (show 0 ≤ Word64.greatest by decide).trans h.le
  have hpages : 1 * limit ≤ (number - 1) * limit := mul_le_mul_of_nonneg_right (by omega) hpos
  calc
    Paging.maxOffset < limit := h
    _ ≤ Paging.offset limit number := by
      rw [one_mul] at hpages
      exact hpages

theorem paginate_modes_of_le (hown : q.TotalIsOwn)
    (hplain : q.statement.evaluated db false = .ok bs)
    (hcounted : q.statement.evaluated db true = .ok bs) (hlimit : 1 ≤ limit)
    (hnumber : 1 ≤ number) (hfits : limit ≤ Word64.greatest) :
    q.paginate db true limit number = q.paginate db false limit number := by
  have hc : q.statement.collapses = false := not_collapses_of_evaluated hcounted
  have hl : Word64.holds limit = true := Word64.holds_of_le (by omega) hfits
  rcases lt_or_ge Paging.maxOffset (Paging.offset limit number) with hfar | hnear
  · exact paginate_true_of_lt hfar
  · have ho : Word64.holds (Paging.offset limit number) = true :=
      Word64.holds_of_le (Paging.offset_nonneg hlimit hnumber) hnear
    rw [paginate_true_of_le hnear, paginateAlong_eq hown hcounted hl ho, paginate_false,
      paginateCounting_eq hc hplain hl ho]

/-- The two ways part exactly where a page size beyond 64 bits meets the first page of nothing. -/
theorem paginate_modes_iff (hown : q.TotalIsOwn) (hplain : q.statement.evaluated db false = .ok bs)
    (hcounted : q.statement.evaluated db true = .ok bs) (hlimit : 1 ≤ limit)
    (hnumber : 1 ≤ number) : q.paginate db true limit number = q.paginate db false limit number ↔
      limit ≤ Word64.greatest ∨ number ≠ 1 ∨ bs ≠ [] := by
  rcases le_or_gt limit Word64.greatest with hfits | hlarge
  · exact iff_of_true (paginate_modes_of_le hown hplain hcounted hlimit hnumber hfits) (.inl hfits)
  rcases eq_or_ne number 1 with rfl | hne
  · have hc : q.statement.collapses = false := not_collapses_of_evaluated hcounted
    have hl := Word64.not_holds_of_lt hlarge
    rw [paginate_along_oversized hcounted hl, paginate_counting_oversized hc hplain hl]
    split_ifs with hempty
    · have hpage : Paging.page ([] : List Item) 0 limit 1 = .ok ⟨[], 1, limit, 0, 0⟩ := by
        rw [Paging.page, Paging.lastPage_zero hlimit]
        rfl
      rw [hpage]
      refine iff_of_false nofun ?_
      rintro (h | h | h)
      · exact hlarge.not_ge h
      · exact h rfl
      · exact h (List.length_eq_zero_iff.1 hempty)
    · exact iff_of_true rfl (.inr (.inr fun h => hempty (List.length_eq_zero_iff.2 h)))
  · have hlater : 1 < number := lt_of_le_of_ne hnumber hne.symm
    exact iff_of_true (paginate_true_of_lt (lt_offset_of_lt hlater hlarge)) (.inr (.inl hne))

/-- An item as a query should give it: the plain columns of its row unless aggregates or relations
were added, and nothing called like the total but what the model itself calls so. -/
def HasShape (q : Query) : Item → Prop
  | .entity columns =>
    (q.statement.aggregates = [] ∧ q.loaded = []) ∧
      columns.map (·.1) = q.model.table.columns.map (·.1)
  | .merged fields =>
    ¬ (q.statement.aggregates = [] ∧ q.loaded = []) ∧ (totalLabel ∈ fields.map (·.1) →
      totalLabel ∈ q.model.table.columns.map (·.1) ∨ (q.model.relation? totalLabel).isSome)

theorem item_hasShape (hown : q.TotalIsOwn) {r : Result}
    (hlabels : r.aggregates.map (·.1) = q.statement.aggregates.map (·.label)) {it : Item}
    (h : q.item db none r = .ok it) : q.HasShape it := by
  have hne : ∀ e ∈ r.aggregates, e.1 ≠ totalLabel := by
    intro e he
    have hlabel : e.1 ∈ q.statement.aggregates.map (·.label) := hlabels ▸ List.mem_map_of_mem he
    obtain ⟨a, ha, hae⟩ := List.mem_map.1 hlabel
    exact hae ▸ hown a ha
  have hlength : (extras r none).length = q.statement.aggregates.length := by
    rw [extras_eq hne, beside, keyed_length, Option.toList_none, List.map_nil, List.append_nil,
      ← List.length_map (f := (·.1)), hlabels, List.length_map]
  have hplain : (extras r none).isEmpty && q.loaded.isEmpty ↔
      q.statement.aggregates = [] ∧ q.loaded = [] := by
    rw [Bool.and_eq_true, List.isEmpty_iff, List.isEmpty_iff, ← List.length_eq_zero_iff, hlength,
      List.length_eq_zero_iff]
  unfold item at h
  cases hrow : r.row with
  | none =>
    rw [hrow] at h
    cases h
  | some row =>
    rw [hrow] at h
    dsimp only at h
    split_ifs at h with hempty
    · cases h
      exact ⟨hplain.1 hempty, Record.columns_keys q.model.table row⟩
    · cases h
      refine ⟨fun hnone => hempty (hplain.2 hnone), fun hkey => ?_⟩
      rcases Record.mem_keys_foldl_insert hkey with hextra | hrecord
      · obtain ⟨e, he, hlabel⟩ := List.mem_map.1 hextra
        rw [extras_eq hne] at he
        exact absurd hlabel (beside_ne_totalLabel hne e he)
      · exact Record.mem_keys_ofRow hrecord

theorem items_haveShape (hown : q.TotalIsOwn) {counted : Bool} {rs : List Result} {n : Nat}
    (hpage : q.statement.page db counted limit offset = .ok (rs, n)) {data : List Item}
    (hitems : q.items db none rs = .ok data) : ∀ it ∈ data, q.HasShape it := by
  intro it hit
  obtain ⟨r, hr, hitem⟩ := exists_of_mem_mapM hitems hit
  exact item_hasShape hown (page_labels hpage r hr) hitem

theorem rows_haveShape (hown : q.TotalIsOwn) {data : List Item}
    (h : (q.source db).rows limit offset = .ok data) : ∀ it ∈ data, q.HasShape it := by
  obtain ⟨⟨rs, n⟩, hpage, hitems⟩ := bind_eq_ok_iff.1 h
  exact items_haveShape hown hpage hitems

theorem counted_haveShape (hown : q.TotalIsOwn) {data : List Item} {total : Nat}
    (h : (q.source db).counted limit offset = .ok (data, total)) : ∀ it ∈ data, q.HasShape it := by
  obtain ⟨⟨rs, n⟩, hpage, -⟩ := bind_eq_ok_iff.1 h
  rw [source_counted hown hpage] at h
  obtain ⟨data', hitems, hdata⟩ := bind_eq_ok_iff.1 h
  cases hdata
  exact items_haveShape hown hpage hitems

theorem page_data {α : Type} {data : List α} {total : Int} {pg : Page α}
    (h : Paging.page data total limit number = .ok pg) : pg.data = data := by
  obtain ⟨last, -, h⟩ := bind_eq_ok_iff.1 h
  cases h
  rfl

theorem paginateCounting_haveShape (hown : q.TotalIsOwn) {pg : Page Item}
    (h : Paging.paginateCounting (q.source db) limit number = .ok pg) :
    ∀ it ∈ pg.data, q.HasShape it := by
  obtain ⟨total, -, h⟩ := bind_eq_ok_iff.1 h
  split_ifs at h with hpast
  · rw [page_data h]
    exact List.forall_mem_nil _
  · obtain ⟨data, hrows, h⟩ := bind_eq_ok_iff.1 h
    rw [page_data h]
    exact rows_haveShape hown hrows

theorem paginateAlong_haveShape (hown : q.TotalIsOwn) {pg : Page Item}
    (h : Paging.paginateAlong (q.source db) limit number = .ok pg) :
    ∀ it ∈ pg.data, q.HasShape it := by
  obtain ⟨⟨data, total⟩, hcounted, h⟩ := bind_eq_ok_iff.1 h
  obtain ⟨n, hpage⟩ : ∃ n : Nat, Paging.page data n limit number = .ok pg := by
    dsimp only at h
    split_ifs at h
    · obtain ⟨n, -, h⟩ := bind_eq_ok_iff.1 h
      exact ⟨n, h⟩
    · exact ⟨total, h⟩
  rw [page_data hpage]
  exact counted_haveShape hown hcounted

theorem paginate_haveShape (hown : q.TotalIsOwn) {along : Bool} {pg : Page Item}
    (h : q.paginate db along limit number = .ok pg) : ∀ it ∈ pg.data, q.HasShape it := by
  unfold paginate Paging.paginate at h
  split_ifs at h
  · exact paginateAlong_haveShape hown h
  · exact paginateCounting_haveShape hown h

/-- Both ways of counting give the same page, errors included, and the items of a page have the
shape that was asked for. -/
theorem counting_modes_agree (hown : q.TotalIsOwn)
    (hplain : q.statement.evaluated db false = .ok bs)
    (hcounted : q.statement.evaluated db true = .ok bs) (hlimit : 1 ≤ limit)
    (hnumber : 1 ≤ number) :
    (q.paginate db true limit number = q.paginate db false limit number ↔
      limit ≤ Word64.greatest ∨ number ≠ 1 ∨ bs ≠ []) ∧
    ∀ along pg, q.paginate db along limit number = .ok pg → ∀ it ∈ pg.data, q.HasShape it :=
  ⟨paginate_modes_iff hown hplain hcounted hlimit hnumber, fun _ _ h => paginate_haveShape hown h⟩

theorem falling_evaluated (counted : Bool) :
    falling.statement.evaluated twoSteps counted = .ok stepBindings :=
  evaluated_eq_ok_iff.2 (falling_prepare counted)

def noSteps : Database := { tables := [(stairs, [])] }

theorem noSteps_evaluated (counted : Bool) :
    falling.statement.evaluated noSteps counted = .ok [] := by
  obtain ⟨readings, hp⟩ := falling_prepared noSteps counted rfl
  have hnone : (falling.statement.ordered noSteps
      ⟨[], [], [], [fallingOrder], readings⟩).Perm [] := ordered_perm _
  exact evaluated_eq_ok_iff.2 ⟨_, hp, rfl, List.perm_nil.1 hnone⟩

/-- Two rows are paged alike. Without rows a page size of 2 ^ 63 fails only if the total is read
along. -/
theorem counting_modes_agree_falling :
    ((falling.TotalIsOwn ∧ falling.statement.evaluated twoSteps false = .ok stepBindings ∧
      falling.statement.evaluated twoSteps true = .ok stepBindings ∧ (1 : ℤ) ≤ 1 ∧ (1 : ℤ) ≤ 2) ∧
      falling.paginate twoSteps true 1 2 = falling.paginate twoSteps false 1 2) ∧
    falling.paginate noSteps true (2 ^ 63) 1 ≠ falling.paginate noSteps false (2 ^ 63) 1 := by
  have hown : falling.TotalIsOwn := List.forall_mem_nil _
  have hpages : (1 : ℤ) ≤ 2 := by decide
  have hagree := counting_modes_agree hown (falling_evaluated false) (falling_evaluated true)
    le_rfl hpages
  have hpart := counting_modes_agree hown (noSteps_evaluated false) (noSteps_evaluated true)
    (show (1 : ℤ) ≤ 2 ^ 63 by decide) le_rfl
  refine ⟨⟨⟨hown, falling_evaluated false, falling_evaluated true, le_rfl, hpages⟩,
    hagree.1.2 (.inl (by decide))⟩, fun heq => ?_⟩
  rcases hpart.1.1 heq with h | h | h
  · exact absurd h (by decide)
  · exact h rfl
  · exact h rfl

end Query
end Listing
