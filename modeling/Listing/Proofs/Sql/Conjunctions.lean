import Listing.Proofs.Sql.Matching

set_option autoImplicit false

namespace Listing.Outcome

variable {α β γ : Type}

theorem mapM_flatMap {F : β → Outcome γ} {f : α → List β} {g : α → List γ} {xs : List α}
    (h : ∀ x ∈ xs, (f x).mapM F = .ok (g x)) : (xs.flatMap f).mapM F = .ok (xs.flatMap g) := by
  induction xs with
  | nil => rfl
  | cons x xs ih =>
    rw [List.flatMap_cons, List.mapM_append, h x List.mem_cons_self,
      ih fun y hy => h y (List.mem_cons_of_mem _ hy)]
    rfl

end Listing.Outcome

namespace Listing.Sql.Statement

open Outcome

variable {db : Database} {s : Statement}

def SeesBase (db : Database) (s : Statement) (joins : List FoundJoin) (t : Target) : Prop :=
  ∀ b ∈ s.joinedRows db joins [], ∀ b' ∈ s.joinedRows db joins [],
    b.row s.base.name = b'.row s.base.name → s.targetCell db b t = s.targetCell db b' t

/-- A condition that brings no table into a statement and is told by the row of the base table. -/
structure IsOwn (db : Database) (s : Statement) (c : Condition) : Prop where
  table : ∀ t ∈ c.column.table?, t = s.base.name
  seen : ∀ base joined joins, ReadsFrom db { s with groups := [] } base joined [] joins →
    ∀ t, (s.scope (base :: joined)).column c.column = .ok t → s.SeesBase db joins t

def AreOwn (db : Database) (s : Statement) (gs : List (List Condition)) : Prop :=
  ∀ g ∈ gs, ∀ c ∈ g, s.IsOwn db c

theorem AreOwn.extraTables {gs : List (List Condition)} (h : s.AreOwn db gs) :
    extraTables { s with groups := gs } = [] := by
  have hnone : (gs.flatten.filterMap fun c => c.column.table?).filter
      (!(s.base.name :: s.joins.map (·.table)).contains ·) = [] := by
    rw [List.filter_eq_nil_iff]
    intro t ht
    obtain ⟨c, hc, htable⟩ := List.mem_filterMap.1 ht
    obtain ⟨g, hg, hcg⟩ := List.mem_flatten.1 hc
    rw [(h g hg c hcg).table t htable]
    simp
  unfold Statement.extraTables
  dsimp only
  rw [hnone]
  rfl

theorem ReadsFrom.unique {base base' : Table} {joined joined' extra extra' : List Table}
    {joins joins' : List FoundJoin} (h : s.ReadsFrom db base joined extra joins)
    (h' : s.ReadsFrom db base' joined' extra' joins') :
    base = base' ∧ joined = joined' ∧ extra = extra' ∧ joins = joins' := by
  obtain rfl := Except.ok.inj (h.base_found.symm.trans h'.base_found)
  obtain rfl := Except.ok.inj (h.joined_found.symm.trans h'.joined_found)
  obtain rfl := Except.ok.inj (h.extra_found.symm.trans h'.extra_found)
  obtain rfl := Except.ok.inj (h.joins_found.symm.trans h'.joins_found)
  exact ⟨rfl, rfl, rfl, rfl⟩

/-- Groups matter for what is read only by the tables that they bring in. -/
theorem ReadsFrom.groups {gs gs' : List (List Condition)} {base : Table}
    {joined extra : List Table} {joins : List FoundJoin}
    (h : ReadsFrom db { s with groups := gs } base joined extra joins)
    (hsame : Statement.extraTables { s with groups := gs } =
      Statement.extraTables { s with groups := gs' }) :
    ReadsFrom db { s with groups := gs' } base joined extra joins where
  base_found := h.base_found
  joined_found := h.joined_found
  extra_found := hsame ▸ h.extra_found
  columns_found := h.columns_found
  joins_found := h.joins_found

theorem AreOwn.matched_iff {gs : List (List Condition)} (h : s.AreOwn db gs) {rows : List Row} :
    matched db { s with groups := gs } = .ok rows ↔ ∃ base joined joins tests,
      ReadsFrom db { s with groups := [] } base joined [] joins ∧
      gs.mapM (·.mapM (testOf (s.scope (base :: joined)))) = .ok tests ∧
      (∀ b ∈ s.joinedRows db joins [], Test.fails (s.targetCell db b) tests = false) ∧
      rows = ((s.joinedRows db joins []).filter fun b =>
        Test.allHold (s.targetCell db b) tests).map (·.row s.base.name) := by
  have hnone : Statement.extraTables { s with groups := [] } = [] := rfl
  have hsame := h.extraTables.trans hnone.symm
  rw [matched_eq_ok_iff]
  constructor
  · rintro ⟨base, joined, extra, joins, tests, hreads, htests, hfails, hrows⟩
    have hextra : extra = [] := by
      have hfound := hreads.extra_found
      rw [h.extraTables] at hfound
      exact (Except.ok.inj hfound).symm
    subst hextra
    rw [List.append_nil] at htests
    exact ⟨base, joined, joins, tests, hreads.groups hsame, htests, hfails, hrows⟩
  · rintro ⟨base, joined, joins, tests, hreads, htests, hfails, hrows⟩
    refine ⟨base, joined, [], joins, tests, hreads.groups hsame.symm, ?_, hfails, hrows⟩
    rw [List.append_nil]
    exact htests

/-- What is read is the same for all such groups, so each has its tests in one scope. -/
theorem AreOwn.tests_of_matched {gs : List (List Condition)} (h : s.AreOwn db gs) {base : Table}
    {joined : List Table} {joins : List FoundJoin}
    (hreads : ReadsFrom db { s with groups := [] } base joined [] joins) {rows : List Row}
    (hrows : matched db { s with groups := gs } = .ok rows) : ∃ tests,
      gs.mapM (·.mapM (testOf (s.scope (base :: joined)))) = .ok tests ∧
      (∀ b ∈ s.joinedRows db joins [], Test.fails (s.targetCell db b) tests = false) ∧
      rows = ((s.joinedRows db joins []).filter fun b =>
        Test.allHold (s.targetCell db b) tests).map (·.row s.base.name) := by
  obtain ⟨base', joined', joins', tests, hreads', htests⟩ := h.matched_iff.1 hrows
  obtain ⟨rfl, rfl, -, rfl⟩ := hreads.unique hreads'
  exact ⟨tests, htests⟩

theorem AreOwn.allHold_congr {gs : List (List Condition)} (h : s.AreOwn db gs) {base : Table}
    {joined : List Table} {joins : List FoundJoin} {tests : List (List Test)}
    (hreads : ReadsFrom db { s with groups := [] } base joined [] joins)
    (htests : gs.mapM (·.mapM (testOf (s.scope (base :: joined)))) = .ok tests) {b b' : Binding}
    (hb : b ∈ s.joinedRows db joins []) (hb' : b' ∈ s.joinedRows db joins [])
    (hrow : b.row s.base.name = b'.row s.base.name) :
    Test.allHold (s.targetCell db b) tests = Test.allHold (s.targetCell db b') tests := by
  apply Test.allHold_congr
  intro ts hts t ht
  obtain ⟨g, hg, hgroup⟩ := exists_of_mem_mapM htests hts
  obtain ⟨c, hc, htest⟩ := exists_of_mem_mapM hgroup ht
  exact (h g hg c hc).seen base joined joins hreads _ (testOf_target htest) b hb b' hb' hrow

variable {α : Type} {xs : List α} {rowsOf : α → List Row}

/-- All groups together match the rows that each of them matches. -/
theorem matched_flatMap {f : α → List (List Condition)} (hne : xs ≠ [])
    (hown : ∀ x ∈ xs, s.AreOwn db (f x))
    (h : ∀ x ∈ xs, matched db { s with groups := f x } = .ok (rowsOf x)) :
    ∃ rows, matched db { s with groups := xs.flatMap f } = .ok rows ∧
      ∀ row, row ∈ rows ↔ ∀ x ∈ xs, row ∈ rowsOf x := by
  obtain ⟨x₀, hx₀⟩ := List.exists_mem_of_ne_nil xs hne
  obtain ⟨base, joined, joins, -, hreads, -, -, -⟩ := (hown x₀ hx₀).matched_iff.1 (h x₀ hx₀)
  have hall : ∀ x, ∃ tests, x ∈ xs →
      (f x).mapM (·.mapM (testOf (s.scope (base :: joined)))) = .ok tests ∧
      (∀ b ∈ s.joinedRows db joins [], Test.fails (s.targetCell db b) tests = false) ∧
      rowsOf x = ((s.joinedRows db joins []).filter fun b =>
        Test.allHold (s.targetCell db b) tests).map (·.row s.base.name) := by
    intro x
    by_cases hx : x ∈ xs
    · obtain ⟨tests, htests⟩ := (hown x hx).tests_of_matched hreads (h x hx)
      exact ⟨tests, fun _ => htests⟩
    · exact ⟨[], fun hx' => absurd hx' hx⟩
  choose tests htests using hall
  have hownAll : s.AreOwn db (xs.flatMap f) := by
    intro g hg
    obtain ⟨x, hx, hgx⟩ := List.mem_flatMap.1 hg
    exact hown x hx g hgx
  refine ⟨_, hownAll.matched_iff.2 ⟨base, joined, joins, xs.flatMap tests, hreads,
    mapM_flatMap fun x hx => (htests x hx).1,
    fun b hb => Test.fails_flatMap fun x hx => (htests x hx).2.1 b hb, rfl⟩, fun row => ?_⟩
  constructor
  · intro hrow x hx
    obtain ⟨b, hb, rfl⟩ := List.mem_map.1 hrow
    obtain ⟨hb, hholds⟩ := List.mem_filter.1 hb
    rw [(htests x hx).2.2]
    exact List.mem_map.2 ⟨b, List.mem_filter.2 ⟨hb, Test.allHold_flatMap.1 hholds x hx⟩, rfl⟩
  · intro hrow
    have hrow₀ := hrow x₀ hx₀
    rw [(htests x₀ hx₀).2.2] at hrow₀
    obtain ⟨b, hb, rfl⟩ := List.mem_map.1 hrow₀
    have hbmem := (List.mem_filter.1 hb).1
    refine List.mem_map.2 ⟨b, List.mem_filter.2 ⟨hbmem, Test.allHold_flatMap.2 fun x hx => ?_⟩, rfl⟩
    have hrowx := hrow x hx
    rw [(htests x hx).2.2] at hrowx
    obtain ⟨b', hb', heq⟩ := List.mem_map.1 hrowx
    obtain ⟨hbmem', hholds⟩ := List.mem_filter.1 hb'
    rw [(hown x hx).allHold_congr hreads (htests x hx).1 hbmem hbmem' heq.symm]
    exact hholds

theorem mapM_group {scope : Scope} {g : List Condition} {tests : List (List Test)}
    (h : [g].mapM (·.mapM (testOf scope)) = .ok tests) :
    ∃ ts, tests = [ts] ∧ g.mapM (testOf scope) = .ok ts := by
  rw [List.mapM_cons] at h
  obtain ⟨ts, hts, h⟩ := bind_eq_ok_iff.1 h
  cases h
  exact ⟨ts, rfl, hts⟩

/-- Alternatives match the rows that one of them matches. -/
theorem mem_matched_alternatives {f : α → Condition} {rows : List Row}
    (hown : s.AreOwn db [xs.map f])
    (hrows : matched db { s with groups := [xs.map f] } = .ok rows)
    (h : ∀ x ∈ xs, matched db { s with groups := [[f x]] } = .ok (rowsOf x)) (row : Row) :
    row ∈ rows ↔ ∃ x ∈ xs, row ∈ rowsOf x := by
  obtain ⟨base, joined, joins, tests, hreads, htests, -, rfl⟩ := hown.matched_iff.1 hrows
  obtain ⟨ts, rfl, hts⟩ := mapM_group htests
  have hone (x : α) (hx : x ∈ xs) : ∃ t, testOf (s.scope (base :: joined)) (f x) = .ok t ∧
      ∀ row, row ∈ rowsOf x ↔ ∃ b ∈ s.joinedRows db joins [],
        t.eval (s.targetCell db b) = some true ∧ b.row s.base.name = row := by
    have hownx : s.AreOwn db [[f x]] := by
      intro g hg c hc
      obtain rfl := List.mem_singleton.1 hg
      obtain rfl := List.mem_singleton.1 hc
      exact hown _ List.mem_cons_self _ (List.mem_map_of_mem hx)
    obtain ⟨tests', htests', -, hrowsx⟩ := hownx.tests_of_matched hreads (h x hx)
    obtain ⟨ts', rfl, hts'⟩ := mapM_group htests'
    rw [List.mapM_cons] at hts'
    obtain ⟨t, ht, hts'⟩ := bind_eq_ok_iff.1 hts'
    cases hts'
    refine ⟨t, ht, fun row => ?_⟩
    rw [hrowsx]
    simp only [List.mem_map, List.mem_filter, Test.allHold_singleton, List.reverse_nil,
      List.mem_singleton, exists_eq_left, and_assoc]
  simp only [List.mem_map, List.mem_filter, Test.allHold_singleton]
  constructor
  · rintro ⟨b, ⟨hb, t, ht, hholds⟩, rfl⟩
    obtain ⟨c, hc, htest⟩ := exists_of_mem_mapM hts ht
    obtain ⟨x, hx, rfl⟩ := List.mem_map.1 hc
    obtain ⟨t', ht', hrowsx⟩ := hone x hx
    obtain rfl := Except.ok.inj (htest.symm.trans ht')
    exact ⟨x, hx, (hrowsx _).2 ⟨b, hb, hholds, rfl⟩⟩
  · rintro ⟨x, hx, hrow⟩
    obtain ⟨t, ht, hrowsx⟩ := hone x hx
    obtain ⟨b, hb, hholds, rfl⟩ := (hrowsx row).1 hrow
    exact ⟨b, ⟨hb, t, mem_of_mapM hts (List.mem_map_of_mem hx) ht, hholds⟩, rfl⟩

theorem mem_matched_nil {rows : List Row} (h : matched db { s with groups := [] } = .ok rows)
    (row : Row) : row ∈ rows ↔ row ∈ db.rows s.base.name := by
  have hown : s.AreOwn db [] := List.forall_mem_nil _
  obtain ⟨base, joined, joins, tests, -, htests, -, rfl⟩ := hown.matched_iff.1 h
  cases htests
  constructor
  · intro hrow
    obtain ⟨b, hb, rfl⟩ := List.mem_map.1 hrow
    obtain ⟨r, hr, rest, rfl⟩ := bindings_begin (List.mem_filter.1 hb).1
    rw [row_cons]
    exact hr
  · intro hrow
    obtain ⟨b, hb, hrow'⟩ : ∃ b ∈ s.joinedRows db joins [], b.row s.base.name = row :=
      exists_binding joins hrow
    exact List.mem_map.2 ⟨b, List.mem_filter.2 ⟨hb, rfl⟩, hrow'⟩

end Listing.Sql.Statement
