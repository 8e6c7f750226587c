import Mathlib.Data.List.Find
import Listing.Sql.Test

set_option autoImplicit false

namespace Listing.Sql

theorem Truth.anyOf_eq_true_iff {ts : List Truth} :
    Truth.anyOf ts = some true ↔ some true ∈ ts := by
  unfold Truth.anyOf
  split_ifs with htrue hnone
  · exact iff_of_true rfl (List.contains_iff_mem.1 htrue)
  · exact iff_of_false nofun fun hmem => htrue (List.contains_iff_mem.2 hmem)
  · exact iff_of_false (by decide) fun hmem => htrue (List.contains_iff_mem.2 hmem)

namespace Test

variable {cell cell' : Target → Cell}

theorem eval_congr {t : Test} (h : cell t.target = cell' t.target) :
    t.eval cell = t.eval cell' := by
  cases t <;> simp only [eval, target] at h ⊢ <;> rw [h]

theorem allHold_congr {groups : List (List Test)}
    (h : ∀ g ∈ groups, ∀ t ∈ g, cell t.target = cell' t.target) :
    allHold cell groups = allHold cell' groups := by
  induction groups with
  | nil => rfl
  | cons g groups ih =>
    have hg : g.map (eval cell) = g.map (eval cell') :=
      List.map_congr_left fun t ht => eval_congr (h g List.mem_cons_self t ht)
    have hgroups := ih fun g' hg' => h g' (List.mem_cons_of_mem _ hg')
    unfold allHold at hgroups ⊢
    rw [List.all_cons, List.all_cons, hg, hgroups]

theorem fails_congr {groups : List (List Test)}
    (h : ∀ g ∈ groups, ∀ t ∈ g, cell t.target = cell' t.target) :
    fails cell groups = fails cell' groups := by
  induction groups with
  | nil => rfl
  | cons g groups ih =>
    have hgroups := ih fun g' hg' => h g' (List.mem_cons_of_mem _ hg')
    have hfind : g.find? (fun t => t.isTooLong || eval cell t == some true) =
        g.find? fun t => t.isTooLong || eval cell' t == some true :=
      List.find?_congr fun t ht => by rw [eval_congr (h g List.mem_cons_self t ht)]
    unfold fails
    rw [hfind, hgroups]

theorem allHold_append (groups groups' : List (List Test)) :
    allHold cell (groups ++ groups') = (allHold cell groups && allHold cell groups') :=
  List.all_append

theorem allHold_flatMap {α : Type} {f : α → List (List Test)} {xs : List α} :
    allHold cell (xs.flatMap f) = true ↔ ∀ x ∈ xs, allHold cell (f x) = true := by
  induction xs with
  | nil => exact iff_of_true rfl (List.forall_mem_nil _)
  | cons x xs ih =>
    rw [List.flatMap_cons, allHold_append, Bool.and_eq_true, ih, List.forall_mem_cons]

theorem fails_append {groups groups' : List (List Test)} (h : fails cell groups = false)
    (h' : fails cell groups' = false) : fails cell (groups ++ groups') = false := by
  induction groups with
  | nil => exact h'
  | cons g groups ih =>
    rw [List.cons_append]
    unfold fails at h ⊢
    split at h
    · rw [Bool.or_eq_false_iff] at h ⊢
      exact ⟨h.1, ih h.2⟩
    · rfl

theorem fails_flatMap {α : Type} {f : α → List (List Test)} {xs : List α}
    (h : ∀ x ∈ xs, fails cell (f x) = false) : fails cell (xs.flatMap f) = false := by
  induction xs with
  | nil => rfl
  | cons x xs ih =>
    rw [List.flatMap_cons]
    exact fails_append (h x List.mem_cons_self) (ih fun y hy => h y (List.mem_cons_of_mem _ hy))

/-- Only patterns that are too long fail. -/
theorem fails_of_short {groups : List (List Test)}
    (h : ∀ g ∈ groups, ∀ t ∈ g, t.isTooLong = false) : fails cell groups = false := by
  induction groups with
  | nil => rfl
  | cons g groups ih =>
    have hgroups := ih fun g' hg' => h g' (List.mem_cons_of_mem _ hg')
    unfold fails
    split
    · rename_i t hfind
      rw [h g List.mem_cons_self t (List.mem_of_find?_eq_some hfind), hgroups]
      rfl
    · rfl

theorem allHold_singleton {g : List Test} :
    allHold cell [g] = true ↔ ∃ t ∈ g, t.eval cell = some true := by
  unfold allHold
  rw [List.all_cons, List.all_nil, Bool.and_true, beq_iff_eq, Truth.anyOf_eq_true_iff, List.mem_map]

end Test

end Listing.Sql
