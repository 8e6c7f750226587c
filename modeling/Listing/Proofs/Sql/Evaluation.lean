import Listing.Proofs.Outcomes
import Listing.Sql.Evaluate

set_option autoImplicit false

/-!
# Evaluation of statements

How a statement is made ready does not depend on the limits of a page as long as they fit into 64
bits, and which rows it selects depends neither on its orders nor on a total that is counted along.
So a page is a part of the whole result, and the number of rows is the same whatever is asked for.
-/

namespace Listing.Sql.Statement

open Outcome

variable {db : Database} {s : Statement}

theorem slice_eq {α : Type} {limit offset : Int} (h : 0 ≤ limit) (xs : List α) :
    slice limit offset xs = (xs.drop offset.toNat).take limit.toNat := by
  unfold slice
  exact if_neg (by omega)

theorem slice_subset {α : Type} {limit offset : Int} {xs : List α} :
    slice limit offset xs ⊆ xs := by
  unfold slice
  intro x hx
  split_ifs at hx
  · exact List.drop_subset _ _ hx
  · exact List.drop_subset _ _ (List.take_subset _ _ hx)

theorem mapM_slice {α β : Type} {f : α → Outcome β} {xs : List α} {ys : List β}
    (h : xs.mapM f = .ok ys) (limit offset : Int) :
    (slice limit offset xs).mapM f = .ok (slice limit offset ys) := by
  have hdrop := mapM_drop h offset.toNat
  unfold slice
  split_ifs
  · exact hdrop
  · exact mapM_take hdrop _

theorem mapM_limits {limits : List Int} (h : ∀ n ∈ limits, Word64.holds n = true) :
    (limits.mapM fun n => Bind.cell (.int n)) = .ok (limits.map .int) := by
  rw [mapM_eq_ok_iff, List.map_map]
  apply List.map_congr_left
  intro n hn
  exact if_pos (h n hn)

theorem prepare_eq_ok_iff {counted : Bool} {limits : List Int} {p : Prepared}
    (h : ∀ n ∈ limits, Word64.holds n = true) :
    s.prepare db counted limits = .ok p ↔ ∃ r orders tests, s.resolve db = .ok r ∧
      s.foundOrders r.tables counted = .ok orders ∧ (counted && s.collapses) = false ∧
      r.tests = .ok tests ∧ p = {
        joins := r.joins, extra := r.extra.map (·.name), groups := tests, orders
        readings := Reading.choose r.base r.joined r.extra r.clauses (s.wants r.base.name orders)
          counted tests } := by
  unfold prepare
  rw [mapM_limits h]
  constructor
  · intro hp
    obtain ⟨r, hr, hp⟩ := bind_eq_ok_iff.1 hp
    obtain ⟨orders, horders, hp⟩ := bind_eq_ok_iff.1 hp
    cases hc : counted && s.collapses with
    | true =>
      rw [hc, if_pos rfl] at hp
      cases hp
    | false =>
      rw [hc, if_neg (by decide)] at hp
      obtain ⟨tests, htests, hp⟩ := bind_eq_ok_iff.1 hp
      cases hp
      exact ⟨r, orders, tests, hr, horders, rfl, htests, rfl⟩
  · rintro ⟨r, orders, tests, hr, horders, hc, htests, rfl⟩
    simp [hr, horders, hc, htests, bind, Except.bind]

theorem prepare_limits {counted : Bool} {limits : List Int}
    (h : ∀ n ∈ limits, Word64.holds n = true) :
    s.prepare db counted limits = s.prepare db counted [] := by
  unfold prepare
  rw [mapM_limits h, mapM_limits (List.forall_mem_nil _)]
  rfl

theorem prepare_oversized {counted : Bool} {limit : Int} {limits : List Int} {p : Prepared}
    (h : s.prepare db counted [] = .ok p) (hlimit : Word64.holds limit = false) :
    s.prepare db counted (limit :: limits) = .error .integerTooLarge := by
  obtain ⟨r, orders, tests, hr, horders, hc, htests, -⟩ :=
    (prepare_eq_ok_iff (List.forall_mem_nil _)).1 h
  have hcell : Bind.cell (.int limit) = .error .integerTooLarge :=
    if_neg (Bool.eq_false_iff.1 hlimit)
  have hbound : ((limit :: limits).mapM fun n => Bind.cell (.int n)) = .error .integerTooLarge := by
    rw [List.mapM_cons, hcell]
    rfl
  unfold prepare
  rw [hbound, hr, ok_bind, horders, ok_bind, hc, htests]
  rfl

/-- The parts of a ready statement that say which rows it selects. -/
def SelectsAlike (p p' : Prepared) : Prop :=
  p.joins = p'.joins ∧ p.extra = p'.extra ∧ p.groups = p'.groups

theorem prepare_unordered {counted : Bool} {p : Prepared} (h : s.prepare db counted [] = .ok p) :
    ∃ p', prepare db { s with orders := [] } false [] = .ok p' ∧ SelectsAlike p' p := by
  obtain ⟨r, orders, tests, hr, -, -, htests, rfl⟩ :=
    (prepare_eq_ok_iff (List.forall_mem_nil _)).1 h
  exact ⟨_, (prepare_eq_ok_iff (List.forall_mem_nil _)).2
    ⟨r, [], tests, hr, rfl, rfl, htests, rfl⟩, rfl, rfl, rfl⟩

theorem prepare_selectsAlike {counted counted' : Bool} {p p' : Prepared}
    (h : s.prepare db counted [] = .ok p) (h' : s.prepare db counted' [] = .ok p') :
    SelectsAlike p p' := by
  obtain ⟨r, orders, tests, hr, -, -, htests, rfl⟩ :=
    (prepare_eq_ok_iff (List.forall_mem_nil _)).1 h
  obtain ⟨r', orders', tests', hr', -, -, htests', rfl⟩ :=
    (prepare_eq_ok_iff (List.forall_mem_nil _)).1 h'
  obtain rfl : r = r' := Except.ok.inj (hr.symm.trans hr')
  obtain rfl : tests = tests' := Except.ok.inj (htests.symm.trans htests')
  exact ⟨rfl, rfl, rfl⟩

namespace SelectsAlike

variable {p p' : Prepared} (h : SelectsAlike p p')
include h

theorem candidates : s.candidates db p = s.candidates db p' := by
  unfold Statement.candidates
  rw [h.1, h.2.1]

theorem selected : s.selected db p = s.selected db p' := by
  unfold Statement.selected
  rw [h.candidates, h.2.2]

theorem checkPatterns : s.checkPatterns db p = s.checkPatterns db p' := by
  unfold Statement.checkPatterns
  rw [h.candidates, h.2.2]

theorem total : s.total db p = s.total db p' := by
  unfold Statement.total
  rw [h.selected]

end SelectsAlike

theorem read_perm (p : Prepared) : (s.read db p).Perm (s.selected db p) := List.mergeSort_perm _ _

theorem ordered_perm (p : Prepared) : (s.ordered db p).Perm (s.selected db p) :=
  (List.mergeSort_perm _ _).trans (read_perm p)

theorem count_of_prepared {counted : Bool} {p : Prepared} (h : s.prepare db counted [] = .ok p) :
    s.count db = s.checkPatterns db p >>= fun _ => .ok (s.total db p) := by
  obtain ⟨p', hp', halike⟩ := prepare_unordered h
  unfold count
  rw [hp', ← halike.checkPatterns, ← halike.total]
  rfl

theorem page_of_prepared {counted : Bool} {p : Prepared} {limit offset : Int}
    (h : s.prepare db counted [] = .ok p) (hl : Word64.holds limit = true)
    (ho : Word64.holds offset = true) :
    s.page db counted limit offset = s.checkPatterns db p >>= fun _ =>
      s.fetchedPart db p limit offset >>= fun fetched =>
        fetched.mapM Fetched.result >>= fun rs => .ok (rs, s.total db p) := by
  unfold page
  rw [prepare_limits (by simp [hl, ho]), h]
  rfl

theorem fetchedPart_slice {p : Prepared} {fs : List Fetched}
    (h : s.fetchedPart db p (-1) 0 = .ok fs) (limit offset : Int) :
    s.fetchedPart db p limit offset = .ok (slice limit offset fs) := by
  unfold fetchedPart at h ⊢
  split_ifs at h ⊢ with hc
  · obtain ⟨f, hf, h⟩ := bind_eq_ok_iff.1 h
    cases h
    rw [hf]
    rfl
  · exact mapM_slice h limit offset

theorem fetchedPart_length {p : Prepared} {fs : List Fetched}
    (h : s.fetchedPart db p (-1) 0 = .ok fs) : fs.length = s.total db p := by
  unfold fetchedPart at h
  unfold total
  split_ifs at h ⊢ with hc
  · obtain ⟨f, -, h⟩ := bind_eq_ok_iff.1 h
    cases h
    rfl
  · exact (mapM_length h).trans (ordered_perm p).length_eq

theorem page_all {counted : Bool} {rs : List Result} {n : Nat}
    (h : s.page db counted (-1) 0 = .ok (rs, n)) : ∃ p fs, s.prepare db counted [] = .ok p ∧
      s.checkPatterns db p = .ok () ∧ s.fetchedPart db p (-1) 0 = .ok fs ∧
      fs.mapM Fetched.result = .ok rs ∧ n = s.total db p := by
  unfold page at h
  rw [prepare_limits (by decide)] at h
  obtain ⟨p, hp, h⟩ := bind_eq_ok_iff.1 h
  obtain ⟨⟨⟩, hpatterns, h⟩ := bind_eq_ok_iff.1 h
  obtain ⟨fs, hfs, h⟩ := bind_eq_ok_iff.1 h
  obtain ⟨rs', hrs, h⟩ := bind_eq_ok_iff.1 h
  cases h
  exact ⟨p, fs, hp, hpatterns, hfs, hrs, rfl⟩

theorem page_slice {counted : Bool} {rs : List Result} {n : Nat} {limit offset : Int}
    (h : s.page db counted (-1) 0 = .ok (rs, n)) (hl : Word64.holds limit = true)
    (ho : Word64.holds offset = true) :
    s.page db counted limit offset = .ok (slice limit offset rs, n) := by
  obtain ⟨p, fs, hp, hpatterns, hfs, hrs, rfl⟩ := page_all h
  rw [page_of_prepared hp hl ho, hpatterns, fetchedPart_slice hfs]
  change (slice limit offset fs).mapM Fetched.result >>= _ = _
  rw [mapM_slice hrs]
  rfl

theorem page_oversized {counted : Bool} {rs : List Result} {n : Nat} {limit : Int}
    (h : s.page db counted (-1) 0 = .ok (rs, n)) (hlimit : Word64.holds limit = false)
    (offset : Int) : s.page db counted limit offset = .error .integerTooLarge := by
  obtain ⟨p, fs, hp, -, -, -, -⟩ := page_all h
  unfold page
  rw [prepare_oversized hp hlimit]
  rfl

theorem count_of_page {counted : Bool} {rs : List Result} {n : Nat}
    (h : s.page db counted (-1) 0 = .ok (rs, n)) : s.count db = .ok n ∧ rs.length = n := by
  obtain ⟨p, fs, hp, hpatterns, hfs, hrs, rfl⟩ := page_all h
  rw [count_of_prepared hp, hpatterns]
  exact ⟨rfl, (mapM_length hrs).trans (fetchedPart_length hfs)⟩

/-- Counting the total along may move rows that no order tells apart, and does nothing else. -/
theorem page_perm {rs rs' : List Result} {n n' : Nat} (h : s.page db true (-1) 0 = .ok (rs, n))
    (h' : s.page db false (-1) 0 = .ok (rs', n')) : rs.Perm rs' := by
  obtain ⟨p, fs, hp, -, hfs, hrs, -⟩ := page_all h
  obtain ⟨p', fs', hp', -, hfs', hrs', -⟩ := page_all h'
  obtain ⟨-, -, -, -, -, hc, -, -⟩ := (prepare_eq_ok_iff (List.forall_mem_nil _)).1 hp
  have hnot : ¬ s.collapses = true := by
    rw [Bool.true_and] at hc
    rw [hc]
    decide
  unfold fetchedPart at hfs hfs'
  rw [if_neg hnot] at hfs hfs'
  have hselected : s.selected db p = s.selected db p' := (prepare_selectsAlike hp hp').selected
  have hordered : (s.ordered db p).Perm (s.ordered db p') := by
    have hperm : (s.ordered db p).Perm (s.selected db p) := ordered_perm p
    rw [hselected] at hperm
    exact hperm.trans (ordered_perm p').symm
  exact mapM_perm hrs hrs' (mapM_perm hfs hfs' hordered)

theorem cells_aggregates {cell : Aggregate → Option Cell} {cells : List (Aggregate × Cell)}
    (h : (s.aggregates.mapM fun a =>
      match cell a with
      | some c => .ok (a, c)
      | none => Scope.fault) = (.ok cells : Outcome _)) :
    cells.map (·.1) = s.aggregates := by
  have hmap : cells.map (·.1) = s.aggregates.map id := by
    apply map_of_mapM h
    intro a c hc
    cases hcell : cell a with
    | none =>
      rw [hcell] at hc
      cases hc
    | some x =>
      rw [hcell] at hc
      cases hc
      rfl
  rw [hmap, List.map_id]

theorem fetched_aggregates {b : Binding} {f : Fetched} (h : s.fetched db b = .ok f) :
    f.cells.map (·.1) = s.aggregates := by
  obtain ⟨cells, hcells, h⟩ := bind_eq_ok_iff.1 h
  cases h
  exact cells_aggregates hcells

theorem collapsed_aggregates {rows : List Row} {f : Fetched} (h : s.collapsed db rows = .ok f) :
    f.cells.map (·.1) = s.aggregates := by
  obtain ⟨cells, hcells, h⟩ := bind_eq_ok_iff.1 h
  cases h
  exact cells_aggregates hcells

theorem fetchedPart_aggregates {p : Prepared} {limit offset : Int} {fs : List Fetched}
    (h : s.fetchedPart db p limit offset = .ok fs) :
    ∀ f ∈ fs, f.cells.map (·.1) = s.aggregates := by
  intro f hf
  unfold fetchedPart at h
  split_ifs at h with hc
  · obtain ⟨g, hg, h⟩ := bind_eq_ok_iff.1 h
    cases h
    have hmem : f ∈ [g] := slice_subset hf
    rw [List.mem_singleton.1 hmem]
    exact collapsed_aggregates hg
  · obtain ⟨b, -, hb⟩ := exists_of_mem_mapM h hf
    exact fetched_aggregates hb

theorem result_labels {f : Fetched} {r : Result} (h : f.result = .ok r) :
    r.aggregates.map (·.1) = f.cells.map (·.1.label) := by
  obtain ⟨aggregates, haggregates, h⟩ := bind_eq_ok_iff.1 h
  cases h
  apply map_of_mapM haggregates
  rintro ⟨a, c⟩ e he
  obtain ⟨v, -, he⟩ := bind_eq_ok_iff.1 he
  cases he
  rfl

theorem page_labels {counted : Bool} {limit offset : Int} {rs : List Result} {n : Nat}
    (h : s.page db counted limit offset = .ok (rs, n)) :
    ∀ r ∈ rs, r.aggregates.map (·.1) = s.aggregates.map (·.label) := by
  unfold page at h
  obtain ⟨p, -, h⟩ := bind_eq_ok_iff.1 h
  obtain ⟨⟨⟩, -, h⟩ := bind_eq_ok_iff.1 h
  obtain ⟨fs, hfs, h⟩ := bind_eq_ok_iff.1 h
  obtain ⟨rs', hrs, h⟩ := bind_eq_ok_iff.1 h
  cases h
  intro r hr
  obtain ⟨f, hf, hresult⟩ := exists_of_mem_mapM hrs hr
  rw [result_labels hresult, ← fetchedPart_aggregates hfs f hf, List.map_map]
  rfl

end Listing.Sql.Statement
