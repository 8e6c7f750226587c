import Listing.Proofs.Sql.Evaluation
import Listing.Proofs.Sql.Tests

set_option autoImplicit false

namespace Listing.Outcome

variable {α β γ : Type}

theorem exists_ok_of_isOk {x : Outcome α} (h : x.isOk = true) : ∃ a, x = .ok a := by
  cases x with
  | error e => cases h
  | ok a => exact ⟨a, rfl⟩

theorem exists_ok_of_mapM {f : α → Outcome β} {xs : List α} {ys : List β} (h : xs.mapM f = .ok ys)
    {x : α} (hx : x ∈ xs) : ∃ y ∈ ys, f x = .ok y := by
  have hmem : f x ∈ ys.map Except.ok := by
    rw [← mapM_eq_ok_iff.1 h]
    exact List.mem_map_of_mem hx
  obtain ⟨y, hy, heq⟩ := List.mem_map.1 hmem
  exact ⟨y, hy, heq.symm⟩

theorem mem_of_mapM {f : α → Outcome β} {xs : List α} {ys : List β} (h : xs.mapM f = .ok ys)
    {x : α} (hx : x ∈ xs) {y : β} (hy : f x = .ok y) : y ∈ ys := by
  obtain ⟨y', hy', heq⟩ := exists_ok_of_mapM h hx
  rw [Except.ok.inj (hy.symm.trans heq)]
  exact hy'

/-- Rows of computations, one after the other, have results if each computation followed by its
successor has one. -/
theorem mapM_mapM_eq_ok_iff {f : α → Outcome β} {g : β → Outcome γ} {xs : List α} {zs : List γ} :
    (∃ ys, xs.mapM f = .ok ys ∧ ys.mapM g = .ok zs) ↔ xs.mapM (fun x => f x >>= g) = .ok zs := by
  induction xs generalizing zs with
  | nil =>
    constructor
    · rintro ⟨ys, hys, hzs⟩
      cases hys
      exact hzs
    · exact fun h => ⟨[], rfl, h⟩
  | cons x xs ih =>
    rw [List.mapM_cons, List.mapM_cons]
    constructor
    · rintro ⟨ys, hys, hzs⟩
      obtain ⟨y, hy, hys⟩ := bind_eq_ok_iff.1 hys
      obtain ⟨rest, hrest, hys⟩ := bind_eq_ok_iff.1 hys
      cases hys
      rw [List.mapM_cons] at hzs
      obtain ⟨z, hz, hzs⟩ := bind_eq_ok_iff.1 hzs
      obtain ⟨zs', hzs', hzs⟩ := bind_eq_ok_iff.1 hzs
      have hboth := ih.1 ⟨rest, hrest, hzs'⟩
      exact bind_eq_ok_iff.2 ⟨z, bind_eq_ok_iff.2 ⟨y, hy, hz⟩,
        bind_eq_ok_iff.2 ⟨zs', hboth, hzs⟩⟩
    · intro h
      obtain ⟨z, hz, h⟩ := bind_eq_ok_iff.1 h
      obtain ⟨y, hy, hz⟩ := bind_eq_ok_iff.1 hz
      obtain ⟨zs', hzs', h⟩ := bind_eq_ok_iff.1 h
      obtain ⟨rest, hrest, hzs'⟩ := ih.2 hzs'
      refine ⟨y :: rest, bind_eq_ok_iff.2 ⟨y, hy, bind_eq_ok_iff.2 ⟨rest, hrest, rfl⟩⟩, ?_⟩
      rw [List.mapM_cons]
      exact bind_eq_ok_iff.2 ⟨z, hz, bind_eq_ok_iff.2 ⟨zs', hzs', h⟩⟩

theorem mapM_eq_ok_congr {f g : α → Outcome β} (h : ∀ x y, f x = .ok y ↔ g x = .ok y)
    {xs : List α} {ys : List β} : xs.mapM f = .ok ys ↔ xs.mapM g = .ok ys := by
  induction xs generalizing ys with
  | nil => rfl
  | cons x xs ih =>
    simp only [List.mapM_cons, bind_eq_ok_iff, h, ih]

theorem mapM_mapM_groups {f : α → Outcome β} {g : β → Outcome γ} {xss : List (List α)}
    {zss : List (List γ)} :
    (∃ yss, xss.mapM (·.mapM f) = .ok yss ∧ yss.mapM (·.mapM g) = .ok zss) ↔
      xss.mapM (·.mapM fun x => f x >>= g) = .ok zss := by
  rw [mapM_mapM_eq_ok_iff]
  apply mapM_eq_ok_congr
  intro xs zs
  rw [bind_eq_ok_iff, mapM_mapM_eq_ok_iff]

end Listing.Outcome

namespace Listing.Sql.Statement

open Outcome

variable {db : Database} {s : Statement}

/-! ## Tests of conditions -/

def testOf (scope : Scope) (c : Condition) : Outcome Test := do
  let c ← Bind.converted c
  Test.ofCondition (← scope.column c.column) c

/-- The tables that a statement reads, and the columns by which they are joined. -/
structure ReadsFrom (db : Database) (s : Statement) (base : Table) (joined extra : List Table)
    (joins : List FoundJoin) : Prop where
  base_found : Scope.table db s.base.name = .ok base
  joined_found : (s.joins.mapM fun j => Scope.table db j.table) = .ok joined
  extra_found : s.extraTables.mapM (Scope.table db) = .ok extra
  columns_found : ∃ targets, (s.base.columns.mapM fun c =>
    (s.scope (base :: joined ++ extra)).qualified s.base.name c.1) = .ok targets
  joins_found : s.foundJoins (s.scope (base :: joined ++ extra)) joined = .ok joins

theorem tests_iff {scope : Scope} {groups : List (List Condition)} {tests : List (List Test)} :
    groups.mapM (·.mapM (testOf scope)) = .ok tests ↔
      ∃ converted found, groups.mapM (·.mapM Bind.converted) = .ok converted ∧
        converted.mapM (·.mapM fun c => do .ok (c, ← scope.column c.column)) = .ok found ∧
        found.mapM (·.mapM fun (c, t) => Test.ofCondition t c) = .ok tests := by
  unfold testOf
  rw [← mapM_mapM_groups]
  apply exists_congr
  intro converted
  rw [exists_and_left]
  apply and_congr_right
  intro _
  have hone (c : Condition) : (scope.column c.column >>= fun t => Test.ofCondition t c) =
      (do .ok (c, ← scope.column c.column)) >>= fun (c, t) => Test.ofCondition t c := by
    cases scope.column c.column <;> rfl
  simp only [hone]
  exact mapM_mapM_groups.symm

/-- A statement is ready when what it reads is found and each condition has its test. -/
theorem resolve_tests_iff {base : Table} {joined extra : List Table} {joins : List FoundJoin}
    {tests : List (List Test)} :
    (∃ groups, s.resolve db = .ok ⟨base, joined, extra, joins, groups⟩ ∧
      Resolved.tests ⟨base, joined, extra, joins, groups⟩ = .ok tests) ↔
    s.ReadsFrom db base joined extra joins ∧
      s.groups.mapM (·.mapM (testOf (s.scope (base :: joined ++ extra)))) = .ok tests := by
  rw [tests_iff]
  constructor
  · rintro ⟨groups, hresolve, hgroups⟩
    unfold resolve at hresolve
    obtain ⟨converted, hconverted, hresolve⟩ := bind_eq_ok_iff.1 hresolve
    obtain ⟨base', hbase, hresolve⟩ := bind_eq_ok_iff.1 hresolve
    obtain ⟨joined', hjoined, hresolve⟩ := bind_eq_ok_iff.1 hresolve
    obtain ⟨extra', hextra, hresolve⟩ := bind_eq_ok_iff.1 hresolve
    obtain ⟨targets, htargets, hresolve⟩ := bind_eq_ok_iff.1 hresolve
    obtain ⟨joins', hjoins, hresolve⟩ := bind_eq_ok_iff.1 hresolve
    obtain ⟨groups', hfound, hresolve⟩ := bind_eq_ok_iff.1 hresolve
    cases hresolve
    exact ⟨⟨hbase, hjoined, hextra, ⟨targets, htargets⟩, hjoins⟩,
      converted, groups, hconverted, hfound, hgroups⟩
  · rintro ⟨⟨hbase, hjoined, hextra, ⟨targets, htargets⟩, hjoins⟩, converted, groups, hconverted,
      hfound, hgroups⟩
    refine ⟨groups, ?_, hgroups⟩
    unfold resolve
    rw [hconverted, ok_bind, hbase, ok_bind, hjoined, ok_bind, hextra, ok_bind]
    dsimp only
    rw [htargets, ok_bind, hjoins, ok_bind, hfound]
    rfl

/-! ## Matched rows -/

/-- The rows of the base table that a statement matches, in the order in which they are found. -/
def matched (db : Database) (s : Statement) : Outcome (List Row) := do
  let p ← prepare db { s with orders := [] } false []
  s.checkPatterns db p
  .ok ((s.selected db p).map (·.row s.base.name))

def joinedRows (db : Database) (s : Statement) (joins : List FoundJoin) (extra : List Table) :
    List Binding :=
  bindings db s.base.name (db.rows s.base.name) joins (extra.map (·.name))

theorem checkPatterns_eq_ok_iff {p : Prepared} : s.checkPatterns db p = .ok () ↔
    ∀ b ∈ s.candidates db p, Test.fails (s.targetCell db b) p.groups = false := by
  unfold checkPatterns
  have hany : (∀ b ∈ s.candidates db p, Test.fails (s.targetCell db b) p.groups = false) ↔
      ¬ ((s.candidates db p).any fun b => Test.fails (s.targetCell db b) p.groups) = true := by
    simp only [Bool.not_eq_true, List.any_eq_false]
  rw [hany]
  split_ifs with hfails
  · exact ⟨nofun, fun h => absurd hfails h⟩
  · exact iff_of_true rfl hfails

theorem matched_eq_ok_iff {rows : List Row} : s.matched db = .ok rows ↔
    ∃ base joined extra joins tests, s.ReadsFrom db base joined extra joins ∧
      s.groups.mapM (·.mapM (testOf (s.scope (base :: joined ++ extra)))) = .ok tests ∧
      (∀ b ∈ s.joinedRows db joins extra, Test.fails (s.targetCell db b) tests = false) ∧
      rows = ((s.joinedRows db joins extra).filter fun b =>
        Test.allHold (s.targetCell db b) tests).map (·.row s.base.name) := by
  unfold matched
  constructor
  · intro h
    obtain ⟨p, hp, h⟩ := bind_eq_ok_iff.1 h
    obtain ⟨⟨⟩, hpatterns, h⟩ := bind_eq_ok_iff.1 h
    cases h
    obtain ⟨⟨base, joined, extra, joins, groups⟩, orders, tests, hresolve, -, -, htests, rfl⟩ :=
      (prepare_eq_ok_iff (List.forall_mem_nil _)).1 hp
    have hresolve' : s.resolve db = .ok ⟨base, joined, extra, joins, groups⟩ := hresolve
    obtain ⟨hreads, hgroups⟩ := resolve_tests_iff.1 ⟨groups, hresolve', htests⟩
    exact ⟨base, joined, extra, joins, tests, hreads, hgroups,
      checkPatterns_eq_ok_iff.1 hpatterns, rfl⟩
  · rintro ⟨base, joined, extra, joins, tests, hreads, hgroups, hpatterns, rfl⟩
    obtain ⟨groups, hresolve, htests⟩ := resolve_tests_iff.2 ⟨hreads, hgroups⟩
    have hresolve' : resolve db { s with orders := [] } =
        .ok ⟨base, joined, extra, joins, groups⟩ := hresolve
    have horders : foundOrders { s with orders := [] }
        (Resolved.tables ⟨base, joined, extra, joins, groups⟩) false = .ok [] := rfl
    have hp := (prepare_eq_ok_iff (List.forall_mem_nil _)).2
      ⟨_, [], tests, hresolve', horders, Bool.false_and _, htests, rfl⟩
    rw [hp, ok_bind]
    exact bind_eq_ok_iff.2 ⟨(), checkPatterns_eq_ok_iff.2 hpatterns, rfl⟩

def resultOf (db : Database) (s : Statement) (r : Row) : Outcome Result := do
  let cells ← s.aggregates.mapM fun a =>
    match a.cellFor? db s.base r with
    | some c => .ok (a, c)
    | none => Scope.fault
  Fetched.result { row := some r, cells }

theorem fetched_result (b : Binding) :
    (s.fetched db b >>= Fetched.result) = s.resultOf db (b.row s.base.name) := by
  unfold fetched resultOf
  dsimp only
  generalize (s.aggregates.mapM fun a =>
    match a.cellFor? db s.base (b.row s.base.name) with
    | some c => .ok (a, c)
    | none => Scope.fault : Outcome _) = cells
  cases cells <;> rfl

/-- What is listed is made of the matched rows, in some order. -/
theorem exists_listed {counted : Bool} {rs : List Result} {n : Nat}
    (h : s.page db counted (-1) 0 = .ok (rs, n)) (hc : s.collapses = false) :
    ∃ rows listed : List Row, s.matched db = .ok rows ∧ n = rows.length ∧ listed.Perm rows ∧
      listed.mapM (s.resultOf db) = .ok rs := by
  obtain ⟨p, fs, hp, hpatterns, hfs, hrs, rfl⟩ := page_all h
  obtain ⟨p', hp', halike⟩ := prepare_unordered hp
  refine ⟨(s.selected db p).map (·.row s.base.name), (s.ordered db p).map (·.row s.base.name),
    ?_, ?_, (ordered_perm p).map _, ?_⟩
  · unfold matched
    rw [hp', ok_bind, halike.checkPatterns, hpatterns, ok_bind, halike.selected]
  · rw [List.length_map, total, hc]
    rfl
  · unfold fetchedPart at hfs
    rw [hc, if_neg Bool.false_ne_true] at hfs
    have hresults := mapM_mapM_eq_ok_iff.1 ⟨fs, hfs, hrs⟩
    rw [mapM_eq_ok_iff] at hresults ⊢
    rw [← hresults, List.map_map]
    exact List.map_congr_left fun b _ => (fetched_result b).symm

theorem matched_of_page {counted : Bool} {rs : List Result} {n : Nat}
    (h : s.page db counted (-1) 0 = .ok (rs, n)) (hc : s.collapses = false) :
    ∃ rows, s.matched db = .ok rows ∧ n = rows.length ∧
      (rs.map (·.row)).Perm (rows.map some) := by
  obtain ⟨rows, listed, hrows, hn, hperm, hlisted⟩ := exists_listed h hc
  have hresults : rs.map (·.row) = listed.map some := by
    apply map_of_mapM hlisted
    intro row r hr
    obtain ⟨cells, -, hr⟩ := bind_eq_ok_iff.1 hr
    obtain ⟨aggregates, -, hr⟩ := bind_eq_ok_iff.1 hr
    cases hr
    rfl
  exact ⟨rows, hrows, hn, hresults ▸ hperm.map some⟩

/-- Statements that match the same rows list the same results, in whatever order. -/
theorem page_perm_of_matched {s' : Statement} (hbase : s'.base = s.base)
    (haggregates : s'.aggregates = s.aggregates) (hc : s.collapses = false)
    (hmatched : s'.matched db = s.matched db) {counted counted' : Bool} {rs rs' : List Result}
    {n n' : Nat} (h : s.page db counted (-1) 0 = .ok (rs, n))
    (h' : s'.page db counted' (-1) 0 = .ok (rs', n')) : rs.Perm rs' := by
  have hc' : s'.collapses = false := by
    unfold collapses at hc ⊢
    rw [hbase, haggregates]
    exact hc
  have hresultOf : s'.resultOf db = s.resultOf db := by
    unfold resultOf
    rw [hbase, haggregates]
  obtain ⟨rows, listed, hrows, -, hperm, hlisted⟩ := exists_listed h hc
  obtain ⟨rows', listed', hrows', -, hperm', hlisted'⟩ := exists_listed h' hc'
  obtain rfl := Except.ok.inj (hrows'.symm.trans (hmatched.trans hrows))
  rw [hresultOf] at hlisted'
  exact mapM_perm hlisted hlisted' (hperm.trans hperm'.symm)

theorem page_of_collapses {orders : List Order} (hc : s.collapses = true) {counted counted' : Bool}
    {rs rs' : List Result} {n n' : Nat} (h : s.page db counted (-1) 0 = .ok (rs, n))
    (h' : page db { s with orders := orders } counted' (-1) 0 = .ok (rs', n')) : rs = rs' := by
  obtain ⟨p, fs, hp, -, hfs, hrs, -⟩ := page_all h
  obtain ⟨p', fs', hp', -, hfs', hrs', -⟩ := page_all h'
  obtain ⟨r, found, tests, hr, -, hcounted, htests, rfl⟩ :=
    (prepare_eq_ok_iff (List.forall_mem_nil _)).1 hp
  obtain ⟨r', found', tests', hr', -, hcounted', htests', rfl⟩ :=
    (prepare_eq_ok_iff (List.forall_mem_nil _)).1 hp'
  obtain rfl : r = r' := Except.ok.inj (hr.symm.trans hr')
  obtain rfl : tests = tests' := Except.ok.inj (htests.symm.trans htests')
  have hc' : Statement.collapses { s with orders := orders } = true := hc
  rw [hc, Bool.and_true] at hcounted
  rw [hc', Bool.and_true] at hcounted'
  subst hcounted hcounted'
  have hwants (orders' : List (Target × SortOrder × Option NullsPosition)) :
      s.wants r.base.name orders' = [] ∧
        Statement.wants { s with orders := orders } r.base.name orders' = [] :=
    ⟨if_pos hc, if_pos hc⟩
  rw [(hwants found).1] at hfs
  rw [(hwants found').2] at hfs'
  unfold fetchedPart at hfs hfs'
  rw [if_pos hc] at hfs
  rw [if_pos hc'] at hfs'
  obtain rfl : fs = fs' := Except.ok.inj (hfs.symm.trans hfs')
  exact Except.ok.inj (hrs.symm.trans hrs')

/-! ## Targets of conditions -/

theorem converted_column {c c' : Condition} (h : Bind.converted c = .ok c') :
    c'.column = c.column := by
  cases c with
  | compare op column v =>
    obtain ⟨w, -, h⟩ := bind_eq_ok_iff.1 h
    cases h
    rfl
  | within column vs =>
    obtain ⟨ws, -, h⟩ := bind_eq_ok_iff.1 h
    cases h
    rfl
  | _ =>
    cases h
    rfl

theorem ofCondition_target {t : Target} {c : Condition} {test : Test}
    (h : Test.ofCondition t c = .ok test) : test.target = t := by
  cases c with
  | compare op column v =>
    obtain ⟨x, -, rfl⟩ := map_eq_ok_iff.1 h
    rfl
  | within column vs =>
    obtain ⟨xs, -, rfl⟩ := map_eq_ok_iff.1 h
    rfl
  | _ =>
    cases h
    rfl

theorem testOf_target {scope : Scope} {c : Condition} {test : Test}
    (h : testOf scope c = .ok test) : scope.column c.column = .ok test.target := by
  obtain ⟨c', hc', h⟩ := bind_eq_ok_iff.1 h
  obtain ⟨t, ht, h⟩ := bind_eq_ok_iff.1 h
  rw [ofCondition_target h, ← converted_column hc']
  exact ht

/-! ## The row of the base table -/

theorem mem_foldl_flatMap {α β : Type} {P : β → Prop} {f : α → β → List β}
    (hf : ∀ x b b', P b → b' ∈ f x b → P b') (xs : List α) {bs : List β} (h : ∀ b ∈ bs, P b) :
    ∀ b ∈ xs.foldl (fun bs x => bs.flatMap (f x)) bs, P b := by
  induction xs generalizing bs with
  | nil => exact h
  | cons x xs ih =>
    apply ih
    intro b' hb'
    obtain ⟨b, hb, hmem⟩ := List.mem_flatMap.1 hb'
    exact hf x b b' (h b hb) hmem

theorem mem_leftJoin {j : FoundJoin} {b b' : Binding} (h : b' ∈ leftJoin db j b) :
    ∃ r, b' = b ++ [(j.table, r)] := by
  unfold leftJoin at h
  dsimp only at h
  split at h
  · exact ⟨_, List.mem_singleton.1 h⟩
  · have hmem := (List.mem_filter.1 h).1
    obtain ⟨r, -, rfl⟩ := List.mem_map.1 hmem
    exact ⟨r, rfl⟩

theorem leftJoin_ne_nil (db : Database) (j : FoundJoin) (b : Binding) : leftJoin db j b ≠ [] := by
  unfold leftJoin
  dsimp only
  split
  · exact List.cons_ne_nil _ _
  · assumption

theorem row_cons (table : String) (r : Row) (rest : Binding) :
    Binding.row ((table, r) :: rest) table = r := by
  unfold Binding.row
  rw [Entries.lookup?_cons, if_pos (beq_self_eq_true table)]
  rfl

theorem row_cons_of_ne {base table : String} (h : table ≠ base) (r : Row) (rest : Binding) :
    Binding.row ((base, r) :: rest) table = Binding.row rest table := by
  unfold Binding.row
  rw [Entries.lookup?_cons, beq_false_of_ne h.symm]
  rfl

theorem bindings_begin {base : String} {rows : List Row} {joins : List FoundJoin}
    {extra : List String} {b : Binding} (h : b ∈ bindings db base rows joins extra) :
    ∃ r ∈ rows, ∃ rest, b = (base, r) :: rest := by
  have hstep (table : String) (b : Binding) (r' : Row)
      (hb : ∃ r ∈ rows, ∃ rest, b = (base, r) :: rest) :
      ∃ r ∈ rows, ∃ rest, b ++ [(table, r')] = (base, r) :: rest := by
    obtain ⟨r, hr, rest, rfl⟩ := hb
    exact ⟨r, hr, rest ++ [(table, r')], rfl⟩
  refine mem_foldl_flatMap (P := fun b => ∃ r ∈ rows, ∃ rest, b = (base, r) :: rest) ?_ extra
    (mem_foldl_flatMap ?_ joins ?_) b h
  · intro t b b' hb hb'
    obtain ⟨r', -, rfl⟩ := List.mem_map.1 hb'
    exact hstep t b r' hb
  · intro j b b' hb hb'
    obtain ⟨r', rfl⟩ := mem_leftJoin hb'
    exact hstep j.table b r' hb
  · intro b hb
    obtain ⟨r, hr, rfl⟩ := List.mem_map.1 hb
    exact ⟨r, hr, [], rfl⟩

theorem exists_binding {base : String} {rows : List Row} (joins : List FoundJoin) {r : Row}
    (hr : r ∈ rows) : ∃ b ∈ bindings db base rows joins [], b.row base = r := by
  have hbegin : ∀ joins : List FoundJoin, ∀ bs : List Binding,
      (∃ rest, (base, r) :: rest ∈ bs) →
        ∃ rest, (base, r) :: rest ∈ joins.foldl (fun bs j => bs.flatMap (leftJoin db j)) bs := by
    intro joins
    induction joins with
    | nil => exact fun bs h => h
    | cons j joins ih =>
      rintro bs ⟨rest, hrest⟩
      apply ih
      obtain ⟨b', hb'⟩ := List.exists_mem_of_ne_nil _ (leftJoin_ne_nil db j ((base, r) :: rest))
      obtain ⟨r', rfl⟩ := mem_leftJoin hb'
      exact ⟨rest ++ [(j.table, r')], List.mem_flatMap.2 ⟨_, hrest, hb'⟩⟩
  obtain ⟨rest, hrest⟩ := hbegin joins (rows.map fun r => [(base, r)])
    ⟨[], List.mem_map.2 ⟨r, hr, rfl⟩⟩
  exact ⟨_, hrest, row_cons base r rest⟩

theorem fieldCell_row {b b' : Binding} {table : String} (h : b.row table = b'.row table)
    (name : String) (type : ColumnType) :
    fieldCell b (.field table name type) = fieldCell b' (.field table name type) := by
  simp only [fieldCell, Binding.cell, h]

/-! ## Rows of a page -/

theorem extremal_mem {precedes : Cell → Cell → Bool} {column : String} {rows : List Row} :
    ∀ row ∈ extremal? precedes column rows, row ∈ rows := by
  unfold extremal?
  refine List.foldlRecOn rows _ (motive := fun best => ∀ row ∈ best, row ∈ rows) nofun ?_
  intro best hbest r hr row hrow
  split at hrow
  · cases hrow
    exact hr
  · split_ifs at hrow
    · cases hrow
      exact hr
    · cases hrow
      exact hr
    · exact hbest row hrow

theorem remaining_mem {rows : List Row} : ∀ row ∈ s.remaining? rows, row ∈ rows := by
  unfold remaining?
  dsimp only
  split
  · exact extremal_mem
  · exact extremal_mem
  · exact fun _ => List.mem_of_mem_head?

theorem selected_stored {p : Prepared} {b : Binding} (h : b ∈ s.selected db p) :
    b.row s.base.name ∈ db.rows s.base.name := by
  have hcandidate : b ∈ s.candidates db p := (List.mem_filter.1 h).1
  obtain ⟨r, hr, rest, rfl⟩ := bindings_begin hcandidate
  rw [row_cons]
  exact hr

theorem fetchedPart_stored {p : Prepared} {limit offset : ℤ} {fs : List Fetched}
    (h : s.fetchedPart db p limit offset = .ok fs) {f : Fetched} (hf : f ∈ fs) {row : Row}
    (hrow : f.row = some row) : row ∈ db.rows s.base.name := by
  unfold fetchedPart at h
  split_ifs at h with hc
  · obtain ⟨g, hg, h⟩ := bind_eq_ok_iff.1 h
    cases h
    obtain rfl := List.mem_singleton.1 (slice_subset hf)
    obtain ⟨cells, -, hg⟩ := bind_eq_ok_iff.1 hg
    cases hg
    have hmem := remaining_mem row hrow
    obtain ⟨b, hb, rfl⟩ := List.mem_map.1 hmem
    exact selected_stored ((read_perm p).mem_iff.1 hb)
  · obtain ⟨b, hb, hfetched⟩ := exists_of_mem_mapM h hf
    obtain ⟨cells, -, hfetched⟩ := bind_eq_ok_iff.1 hfetched
    cases hfetched
    cases hrow
    exact selected_stored ((ordered_perm p).mem_iff.1 (slice_subset hb))

theorem page_stored {counted : Bool} {limit offset : ℤ} {rs : List Result} {n : ℕ}
    (h : s.page db counted limit offset = .ok (rs, n)) {r : Result} (hr : r ∈ rs) {row : Row}
    (hrow : r.row = some row) : row ∈ db.rows s.base.name := by
  unfold page at h
  obtain ⟨p, -, h⟩ := bind_eq_ok_iff.1 h
  obtain ⟨⟨⟩, -, h⟩ := bind_eq_ok_iff.1 h
  obtain ⟨fs, hfs, h⟩ := bind_eq_ok_iff.1 h
  obtain ⟨rs', hrs, h⟩ := bind_eq_ok_iff.1 h
  cases h
  obtain ⟨f, hf, hresult⟩ := exists_of_mem_mapM hrs hr
  obtain ⟨aggregates, -, hresult⟩ := bind_eq_ok_iff.1 hresult
  cases hresult
  exact fetchedPart_stored hfs hf hrow

end Listing.Sql.Statement
