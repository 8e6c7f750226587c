import Listing.Proofs.LastPage
import Listing.Proofs.RowKeys
import Listing.Proofs.Sql.Evaluation

set_option autoImplicit false

namespace Listing

open Outcome Sql Statement

namespace Paging

def Source.all {α : Type} (s : Source α) (along : Bool) : Outcome (List α) :=
  if along then (·.1) <$> s.counted (-1) 0 else s.rows (-1) 0

/-- A source whose rows, in one of the two ways of reading them, are parts of a list. -/
structure Source.Serves {α : Type} (s : Source α) (along : Bool) (xs : List α) : Prop where
  count : s.count = .ok xs.length
  rows : along = false → ∀ limit offset, Word64.holds limit = true → Word64.holds offset = true →
    s.rows limit offset = .ok (slice limit offset xs)
  counted : along = true → ∀ limit offset, Word64.holds limit = true →
    Word64.holds offset = true → s.counted limit offset = .ok (slice limit offset xs, xs.length)

def pageOf {α : Type} (xs : List α) (limit number : Int) : Page α where
  data := slice limit (offset limit number) xs
  currentPage := number
  perPage := limit
  total := xs.length
  lastPage := ⌈((xs.length : ℤ) : ℚ) / limit⌉

section

variable {α : Type} {s : Source α} {along : Bool} {xs : List α} {limit number : Int}

theorem page_eq (hlength : xs.length ≤ 2 ^ 53) (hlimit : 1 ≤ limit)
    (hfits : limit ≤ Word64.greatest) :
    page (slice limit (offset limit number) xs) xs.length limit number =
      .ok (pageOf xs limit number) := by
  have hsmall : limit < 2 ^ 1075 := by
    have hpower : (2 : ℤ) ^ 64 < 2 ^ 1075 := pow_lt_pow_right₀ (by omega) (by omega)
    exact (hfits.trans_lt (by decide)).trans hpower
  unfold page
  rw [lastPage_eq (by omega) (by exact_mod_cast hlength) hlimit hsmall]
  rfl

theorem slice_eq_nil (hpast : (xs.length : ℤ) ≤ offset limit number) :
    slice limit (offset limit number) xs = [] := by
  have hdrop : xs.drop (offset limit number).toNat = [] := List.drop_eq_nil_of_le (by omega)
  simp only [slice, hdrop, List.take_nil, ite_self]

theorem offset_nonneg (hlimit : 1 ≤ limit) (hnumber : 1 ≤ number) : 0 ≤ offset limit number :=
  mul_nonneg (by omega) (by omega)

theorem first_offset : offset limit 1 = 0 := by
  rw [offset, sub_self, zero_mul]

theorem paginateCounting_first {e : Fault} {n : ℕ} (hcount : s.count = .ok n)
    (hrows : s.rows limit 0 = .error e) : paginateCounting s limit 1 =
      if n = 0 then page [] 0 limit 1 else .error e := by
  unfold paginateCounting
  rw [hcount, ok_bind, first_offset]
  cases n with
  | zero => rfl
  | succ n =>
    have hmore : ¬ ((n + 1 : ℕ) : ℤ) ≤ 0 := by omega
    rw [if_neg hmore, hrows, if_neg n.succ_ne_zero]
    rfl

theorem paginateAlong_first {e : Fault} (hcounted : s.counted limit 0 = .error e) :
    paginateAlong s limit 1 = .error e := by
  unfold paginateAlong
  rw [first_offset, hcounted]
  rfl

/-- Each way of taking a page cuts it out of the list. -/
theorem paginate_of_serves (hs : s.Serves along xs) (hlength : xs.length ≤ 2 ^ 53)
    (hlimit : 1 ≤ limit) (hfits : limit ≤ Word64.greatest) (hnumber : 1 ≤ number) :
    paginate s along limit number = .ok (pageOf xs limit number) := by
  have hstart := offset_nonneg hlimit hnumber
  have hpage : page _ _ limit number = _ := page_eq hlength hlimit hfits
  have hl : Word64.holds limit = true := Word64.holds_of_le (by omega) hfits
  unfold paginate
  split_ifs with hway
  · obtain ⟨halong, hoffset⟩ := Bool.and_eq_true_iff.1 hway
    have hcounted := hs.counted halong limit _ hl
      (Word64.holds_of_le hstart (of_decide_eq_true hoffset))
    unfold paginateAlong
    rw [hcounted, ok_bind]
    dsimp only
    split_ifs
    · rw [hs.count]
      exact hpage
    · exact hpage
  · unfold paginateCounting
    rw [hs.count]
    change (if (xs.length : ℤ) ≤ offset limit number then page [] (xs.length : ℤ) limit number
      else s.rows limit (offset limit number) >>= fun rows =>
        page rows (xs.length : ℤ) limit number) = _
    split_ifs with hpast
    · rw [← hpage, slice_eq_nil hpast]
    · have hbelow : offset limit number ≤ Word64.greatest := by
        have hgreatest : (2 : ℤ) ^ 53 ≤ Word64.greatest := by decide
        have hlength' : (xs.length : ℤ) ≤ 2 ^ 53 := by exact_mod_cast hlength
        omega
      have halong : along = false := by
        cases along with
        | false => rfl
        | true =>
          rw [Bool.true_and, decide_eq_true_eq] at hway
          exact absurd hbelow hway
      rw [hs.rows halong limit _ hl (Word64.holds_of_le hstart hbelow)]
      exact hpage

end

end Paging

namespace Query

def TotalIsOwn (q : Query) : Prop := ∀ a ∈ q.statement.aggregates, a.label ≠ totalLabel

variable {db : Database} {q : Query}

theorem TotalIsOwn.aggregates (h : q.TotalIsOwn) {counted : Bool} {limit offset : Int}
    {rs : List Result} {n : Nat} (hpage : q.statement.page db counted limit offset = .ok (rs, n)) :
    ∀ r ∈ rs, ∀ e ∈ r.aggregates, e.1 ≠ totalLabel := by
  intro r hr e he
  have hlabel : e.1 ∈ q.statement.aggregates.map (·.label) := by
    rw [← page_labels hpage r hr]
    exact List.mem_map_of_mem he
  obtain ⟨a, ha, hae⟩ := List.mem_map.1 hlabel
  rw [← hae]
  exact h a ha

theorem items_total (h : q.TotalIsOwn) {counted : Bool} {limit offset : Int} {rs : List Result}
    {n : Nat} (hpage : q.statement.page db counted limit offset = .ok (rs, n))
    (total : Option Nat) : q.items db total rs = q.items db none rs :=
  mapM_congr fun r hr => item_total (h.aggregates hpage r hr) db q total

theorem source_counted (h : q.TotalIsOwn) {limit offset : Int} {rs : List Result} {n : Nat}
    (hpage : q.statement.page db true limit offset = .ok (rs, n)) :
    (q.source db).counted limit offset = q.items db none rs >>= fun data => .ok (data, n) := by
  have htotal : (rs.head?.map (totalIn · n)).getD n = n := by
    cases rs with
    | nil => rfl
    | cons r rs => exact totalIn_eq (h.aggregates hpage r List.mem_cons_self) n
  change (q.statement.page db true limit offset >>= fun x => q.items db (some x.2) x.1 >>=
    fun data => Except.ok (data, (x.1.head?.map (totalIn · x.2)).getD x.2)) = _
  rw [hpage]
  change (q.items db (some n) rs >>= fun data =>
    Except.ok (data, (rs.head?.map (totalIn · n)).getD n)) = _
  rw [items_total h hpage, htotal]

theorem source_rows {limit offset : Int} {rs : List Result} {n : Nat}
    (hpage : q.statement.page db false limit offset = .ok (rs, n)) :
    (q.source db).rows limit offset = q.items db none rs := by
  change (q.statement.page db false limit offset >>= fun x => q.items db none x.1) = _
  rw [hpage]
  rfl

theorem rows_error {limit offset : Int} {e : Fault}
    (h : q.statement.page db false limit offset = .error e) :
    (q.source db).rows limit offset = .error e := by
  change (q.statement.page db false limit offset >>= fun x => q.items db none x.1) = _
  rw [h]
  rfl

theorem counted_error {limit offset : Int} {e : Fault}
    (h : q.statement.page db true limit offset = .error e) :
    (q.source db).counted limit offset = .error e := by
  change (q.statement.page db true limit offset >>= fun x => _) = _
  rw [h]
  rfl

/-- A query serves the items of its whole result. -/
theorem source_serves {along : Bool} {xs : List Item} (h : along = true → q.TotalIsOwn)
    (hall : (q.source db).all along = .ok xs) : (q.source db).Serves along xs := by
  cases along with
  | false =>
    obtain ⟨⟨rs, n⟩, hpage, hitems⟩ := bind_eq_ok_iff.1 hall
    obtain ⟨hcount, hn⟩ := count_of_page hpage
    refine ⟨?_, fun _ limit offset hl ho => ?_, nofun⟩
    · rw [mapM_length hitems, hn]
      exact hcount
    · rw [source_rows (page_slice hpage hl ho)]
      exact mapM_slice hitems limit offset
  | true =>
    have hown := h rfl
    change (·.1) <$> (q.source db).counted (-1) 0 = _ at hall
    obtain ⟨⟨ys, m⟩, hcounted, rfl⟩ := map_eq_ok_iff.1 hall
    obtain ⟨⟨rs, n⟩, hpage, -⟩ := bind_eq_ok_iff.1 hcounted
    rw [source_counted hown hpage] at hcounted
    obtain ⟨data, hitems, hdata⟩ := bind_eq_ok_iff.1 hcounted
    cases hdata
    obtain ⟨hcount, hn⟩ := count_of_page hpage
    have hlength : ys.length = m := (mapM_length hitems).trans hn
    refine ⟨?_, nofun, fun _ limit offset hl ho => ?_⟩
    · rw [hlength]
      exact hcount
    · have hpart : q.items db none (slice limit offset rs) = .ok (slice limit offset ys) :=
        mapM_slice hitems limit offset
      rw [source_counted hown (page_slice hpage hl ho), hpart, hlength]
      rfl

/-! ## Two rows

A table of two rows that are asked for in falling order. -/

def stairs : Table := { name := "steps", columns := [("id", .integer)], key := ["id"] }

def falling : Query :=
  (ofModel { models := [] } { name := "Step", table := stairs, relations := [] }).orderBy
    { name := "id", qualified := false } .desc none

def twoSteps : Database := { tables := [(stairs, [[("id", .int 1)], [("id", .int 2)]])] }

def stepBindings : List Binding := [[("steps", [("id", .int 2)])], [("steps", [("id", .int 1)])]]

theorem eq_or_eq_of_perm_pair {α : Type} {x y : α} {l : List α} (h : l.Perm [x, y]) :
    l = [x, y] ∨ l = [y, x] := by
  obtain ⟨before, after, rfl⟩ := List.append_of_mem (h.symm.subset List.mem_cons_self)
  have hrest : before ++ after = [y] :=
    List.perm_singleton.1 ((List.perm_middle.symm.trans h).cons_inv)
  rcases List.append_eq_singleton_iff.1 hrest with ⟨rfl, rfl⟩ | ⟨rfl, rfl⟩
  · exact .inl rfl
  · exact .inr rfl

theorem mergeSort_pair {α : Type} (le : α → α → Bool) (x y : α) :
    [x, y].mergeSort le = if le x y then [x, y] else [y, x] := by
  simp [List.mergeSort, List.MergeSort.Internal.splitInTwo, List.merge]

def fallingOrder : Target × SortOrder × Option NullsPosition :=
  (.field "steps" "id" .integer, .desc, none)

/-- On every database with the table the statement is prepared, and only the readings depend on the
rows. -/
theorem falling_prepared (db : Database) (counted : Bool)
    (hresolve : falling.statement.resolve db = .ok ⟨stairs, [], [], [], []⟩) :
    ∃ readings, falling.statement.prepare db counted [] =
      .ok ⟨[], [], [], [fallingOrder], readings⟩ := by
  have horders : falling.statement.foundOrders [stairs] counted = .ok [fallingOrder] := by
    cases counted <;> rfl
  have hcollapses : (counted && falling.statement.collapses) = false := Bool.and_false _
  exact ⟨_, (prepare_eq_ok_iff (List.forall_mem_nil _)).2
    ⟨_, _, _, hresolve, horders, hcollapses, rfl, rfl⟩⟩

/-- However the two rows are read, the order puts them right. -/
theorem falling_prepare (counted : Bool) : ∃ p,
    falling.statement.prepare twoSteps counted [] = .ok p ∧
      falling.statement.checkPatterns twoSteps p = .ok () ∧
      falling.statement.ordered twoSteps p = stepBindings := by
  obtain ⟨readings, hp⟩ := falling_prepared twoSteps counted rfl
  refine ⟨_, hp, rfl, ?_⟩
  have hread : (falling.statement.read twoSteps ⟨[], [], [], [fallingOrder], readings⟩).Perm
      stepBindings.reverse := read_perm _
  unfold ordered
  rcases eq_or_eq_of_perm_pair hread with h | h
  · rw [h, mergeSort_pair]
    rfl
  · rw [h, mergeSort_pair]
    rfl

theorem falling_page (counted : Bool) : falling.statement.page twoSteps counted (-1) 0 =
    .ok ([⟨some [("id", .int 2)], []⟩, ⟨some [("id", .int 1)], []⟩], 2) := by
  obtain ⟨p, hp, hpatterns, hordered⟩ := falling_prepare counted
  have hcount : (falling.statement.selected twoSteps p).length = 2 := by
    rw [← (ordered_perm p).length_eq, hordered]
    rfl
  have htotal : falling.statement.total twoSteps p = 2 := hcount
  have hfetched : falling.statement.fetchedPart twoSteps p (-1) 0 =
      .ok [⟨some [("id", .int 2)], []⟩, ⟨some [("id", .int 1)], []⟩] := by
    change (slice (-1) 0 (falling.statement.ordered twoSteps p)).mapM _ = _
    rw [hordered]
    rfl
  rw [page_of_prepared hp (by decide) (by decide), hpatterns, hfetched, htotal]
  rfl

def stepItems : List Item := [.entity [("id", .int 2)], .entity [("id", .int 1)]]

theorem falling_all (along : Bool) : (falling.source twoSteps).all along = .ok stepItems := by
  cases along with
  | false => exact (source_rows (falling_page false)).trans rfl
  | true =>
    have hown : falling.TotalIsOwn := List.forall_mem_nil _
    change (·.1) <$> (falling.source twoSteps).counted (-1) 0 = _
    rw [source_counted hown (falling_page true)]
    rfl

/-! ## A total of the same name

One node, which is asked for with the number of its children under the name of the total. -/

def nodes : Table :=
  { name := "nodes", columns := [("id", .integer), ("parent_id", .integer)], key := ["id"] }

def node : Model where
  name := "Node"
  table := nodes
  relations := [
    { name := "parent", target := "Node", many := false, pairs := [("parent_id", "id")] },
    { name := "_total", target := "Node", many := true, pairs := [("id", "parent_id")] }]

def nodeRow : Row := [("id", .int 1), ("parent_id", .null)]

def oneNode : Database := { tables := [(nodes, [nodeRow])] }

def nodesWith (aggregates : List Aggregate) : Query :=
  { catalog := { models := [node] }, model := node, statement := { base := nodes, aggregates } }

theorem nodesWith_prepare (aggregates : List Aggregate) (counted : Bool)
    (hresolve : (nodesWith aggregates).statement.resolve oneNode = .ok ⟨nodes, [], [], [], []⟩)
    (h : (counted && (nodesWith aggregates).statement.collapses) = false) : ∃ p,
      (nodesWith aggregates).statement.prepare oneNode counted [] = .ok p ∧
      (nodesWith aggregates).statement.checkPatterns oneNode p = .ok () ∧
      (nodesWith aggregates).statement.read oneNode p = [[("nodes", nodeRow)]] ∧
      (nodesWith aggregates).statement.ordered oneNode p = [[("nodes", nodeRow)]] := by
  have hp := (prepare_eq_ok_iff (List.forall_mem_nil _)).2 ⟨_, _, _, hresolve, rfl, h, rfl, rfl⟩
  refine ⟨_, hp, rfl, ?_⟩
  generalize hready : Prepared.mk _ _ _ _ _ = p
  have hselected :
      (nodesWith aggregates).statement.selected oneNode p = [[("nodes", nodeRow)]] := by
    rw [← hready]
    rfl
  have hread : ((nodesWith aggregates).statement.read oneNode p).Perm _ := read_perm p
  have hordered : ((nodesWith aggregates).statement.ordered oneNode p).Perm _ := ordered_perm p
  rw [hselected] at hread hordered
  exact ⟨List.perm_singleton.1 hread, List.perm_singleton.1 hordered⟩

def childCount : Aggregate where
  kind := .count
  target := nodes
  column := none
  pairs := [("id", "parent_id")]
  label := "_total_count"

example : (ofModel { models := [node] } node).withAggregate .count "_total" none =
    .ok (nodesWith [childCount]) := rfl

theorem childCount_page : (nodesWith [childCount]).statement.page oneNode true (-1) 0 =
    .ok ([⟨some nodeRow, [("_total_count", .int 0)]⟩], 1) := by
  obtain ⟨p, hp, hpatterns, -, hordered⟩ := nodesWith_prepare [childCount] true rfl rfl
  have htotal : (nodesWith [childCount]).statement.total oneNode p = 1 := by
    change ((nodesWith [childCount]).statement.selected oneNode p).length = 1
    rw [← (ordered_perm p).length_eq, hordered]
    rfl
  rw [page_of_prepared hp (by decide) (by decide), hpatterns, htotal]
  unfold fetchedPart
  rw [hordered]
  rfl

/-- The item of the node: the total stands in it under another name. -/
def nodeItem : Item :=
  .merged [("id", .scalar (.int 1)), ("parent_id", .scalar .null),
    ("_total_count_1", .scalar (.int 1))]

theorem childCount_counted {limit : Int} (h : (nodesWith [childCount]).statement.page oneNode true
      limit 0 = .ok ([⟨some nodeRow, [("_total_count", .int 0)]⟩], 1)) :
    ((nodesWith [childCount]).source oneNode).counted limit 0 = .ok ([nodeItem], 0) := by
  change ((nodesWith [childCount]).statement.page oneNode true limit 0 >>= fun x => _) = _
  rw [h]
  rfl

end Query
end Listing
