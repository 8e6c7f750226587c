import Mathlib.Algebra.Order.BigOperators.Group.List
import Mathlib.Algebra.Order.Ring.Nat
import Mathlib.Data.List.Infix
import Mathlib.Data.List.Perm.Subperm
import Listing.Record
import Listing.Proofs.KeyedEntries

set_option autoImplicit false

/-!
# Trees of paths

Paths are grouped by their first names, and so is what is left of them. The tree of some paths has
one branch for each first name, which holds the tree of what is left of the paths with that name.
What is left is less than there was, and it begins in the same ways if the paths do.
-/

namespace Listing

namespace Paths

def heads (paths : List (List String)) : List String := (paths.filterMap List.head?).eraseDups

def leftOf (name : String) : List String → Option (List String)
  | first :: next :: rest => if first = name then some (next :: rest) else none
  | _ => none

def below (name : String) (paths : List (List String)) : List (List String) :=
  paths.filterMap (leftOf name)

def size (paths : List (List String)) : Nat := (paths.map List.length).sum

variable {name : String} {names path rest : List String} {paths paths' : List (List String)}

theorem leftOf_eq_some_iff : leftOf name path = some rest ↔ path = name :: rest ∧ rest ≠ [] := by
  constructor
  · intro h
    unfold leftOf at h
    split at h
    · split_ifs at h with hfirst
      cases h
      exact ⟨congrArg (· :: _) hfirst, List.cons_ne_nil _ _⟩
    · cases h
  · rintro ⟨rfl, hrest⟩
    obtain ⟨next, more, rfl⟩ := List.exists_cons_of_ne_nil hrest
    exact if_pos rfl

theorem mem_below : rest ∈ below name paths ↔ name :: rest ∈ paths ∧ rest ≠ [] := by
  simp [below, leftOf_eq_some_iff]

theorem mem_heads : name ∈ heads paths ↔ ∃ rest, name :: rest ∈ paths := by
  simp only [heads, List.mem_eraseDups, List.mem_filterMap, List.head?_eq_some_iff]
  constructor
  · rintro ⟨path, hpath, rest, rfl⟩
    exact ⟨rest, hpath⟩
  · rintro ⟨rest, hpath⟩
    exact ⟨_, hpath, rest, rfl⟩

theorem nodup_heads (paths : List (List String)) : (heads paths).Nodup := nodup_eraseDups _

theorem below_of_not_mem (h : name ∉ heads paths) : below name paths = [] := by
  refine List.eq_nil_iff_forall_not_mem.2 fun rest hrest => h ?_
  exact mem_heads.2 ⟨rest, (mem_below.1 hrest).1⟩

theorem below_append (name : String) (paths paths' : List (List String)) :
    below name (paths ++ paths') = below name paths ++ below name paths' := List.filterMap_append

theorem below_singleton (name : String) (path : List String) :
    below name [path] = (leftOf name path).toList := by
  unfold below
  cases h : leftOf name path with
  | none => exact List.filterMap_cons_none h
  | some rest => exact List.filterMap_cons_some h

theorem heads_concat_cons (paths : List (List String)) (name : String) (rest : List String) :
    heads (paths ++ [name :: rest]) =
      if name ∈ heads paths then heads paths else heads paths ++ [name] := by
  unfold heads
  rw [List.filterMap_append, List.filterMap_cons_some List.head?_cons, List.filterMap_nil,
    eraseDups_concat]
  simp only [List.mem_eraseDups]

theorem size_append (paths paths' : List (List String)) :
    size (paths ++ paths') = size paths + size paths' := by
  simp [size]

theorem size_leftOf_le (name : String) (path : List String) :
    size (leftOf name path).toList ≤ path.length - 1 := by
  cases h : leftOf name path with
  | none => exact Nat.zero_le _
  | some rest =>
    rw [(leftOf_eq_some_iff.1 h).1]
    exact le_rfl

theorem size_below_le (name : String) (paths : List (List String)) :
    size (below name paths) ≤ (paths.map fun path => path.length - 1).sum := by
  induction paths with
  | nil => exact le_rfl
  | cons path paths ih =>
    rw [← List.singleton_append, below_append, size_append, below_singleton]
    exact add_le_add (size_leftOf_le name path) ih

theorem size_below_lt (h : name ∈ heads paths) : size (below name paths) < size paths := by
  obtain ⟨rest, hrest⟩ := mem_heads.1 h
  exact (size_below_le name paths).trans_lt
    (List.sum_lt_sum _ _ (fun path _ => Nat.sub_le _ _) ⟨_, hrest, Nat.lt_succ_self _⟩)

/-- Some path begins with these names. -/
def Begin (paths : List (List String)) (names : List String) : Prop :=
  ∃ path ∈ paths, names <+: path

theorem begin_map {f : String → List String} {dotted : List String} :
    Begin (dotted.map f) names ↔ ∃ path ∈ dotted, names <+: f path := by
  simp [Begin]

theorem begin_below (hnames : names ≠ []) :
    Begin (below name paths) names ↔ Begin paths (name :: names) := by
  constructor
  · rintro ⟨rest, hrest, hbegins⟩
    exact ⟨_, (mem_below.1 hrest).1, List.cons_prefix_cons.2 ⟨rfl, hbegins⟩⟩
  · rintro ⟨_, hpath, more, rfl⟩
    exact ⟨names ++ more, mem_below.2 ⟨hpath, by simp [hnames]⟩, List.prefix_append _ _⟩

theorem mem_heads_iff_begin : name ∈ heads paths ↔ Begin paths [name] := by
  rw [mem_heads]
  constructor
  · rintro ⟨rest, hrest⟩
    exact ⟨_, hrest, List.prefix_append [name] rest⟩
  · rintro ⟨_, hpath, rest, rfl⟩
    exact ⟨rest, hpath⟩

def BeginAlike (paths paths' : List (List String)) : Prop :=
  ∀ names, names ≠ [] → (Begin paths names ↔ Begin paths' names)

theorem BeginAlike.below (h : BeginAlike paths paths') (name : String) :
    BeginAlike (below name paths) (below name paths') := by
  intro names hnames
  rw [begin_below hnames, begin_below hnames]
  exact h _ (List.cons_ne_nil _ _)

theorem BeginAlike.mem_heads (h : BeginAlike paths paths') :
    name ∈ heads paths ↔ name ∈ heads paths' := by
  rw [mem_heads_iff_begin, mem_heads_iff_begin]
  exact h _ (List.cons_ne_nil _ _)

theorem BeginAlike.perm_heads (h : BeginAlike paths paths') : (heads paths).Perm (heads paths') :=
  (List.perm_ext_iff_of_nodup (nodup_heads _) (nodup_heads _)).2 fun _ => h.mem_heads

end Paths

namespace RelationTree

open Paths

variable {name : String}

theorem empty_insert (path : List String) :
    empty.insert path = path.foldr (fun part tree => node [(part, tree)]) empty := by
  cases path <;> rfl

/-- A path goes into the branch of its first name. -/
theorem insertBranch_map {names : List String} (hnames : names.Nodup) (name : String)
    (rest : List String) (tree : String → RelationTree) :
    insertBranch name rest (names.map fun other => (other, tree other)) =
      if name ∈ names then
        names.map fun other => (other, if other = name then (tree other).insert rest else tree other)
      else (names.map fun other => (other, tree other)) ++ [(name, empty.insert rest)] := by
  induction names with
  | nil =>
    rw [empty_insert]
    rfl
  | cons other names ih =>
    rw [List.nodup_cons] at hnames
    rw [List.map_cons, insertBranch]
    by_cases hother : other = name
    · subst hother
      have hkept : ∀ n ∈ names, tree n = if n = other then (tree n).insert rest else tree n := by
        intro n hn
        have hne : n ≠ other := fun hsame => hnames.1 (hsame ▸ hn)
        rw [if_neg hne]
      rw [if_pos (beq_self_eq_true other), if_pos List.mem_cons_self, List.map_cons, if_pos rfl]
      exact congrArg _ (List.map_congr_left fun n hn => by rw [← hkept n hn])
    · rw [if_neg (by simpa using hother), ih hnames.2]
      simp only [List.mem_cons, Ne.symm hother, false_or]
      split_ifs
      · rw [List.map_cons, if_neg hother]
      · rfl

theorem ofPaths_concat (paths : List (List String)) (path : List String) :
    ofPaths (paths ++ [path]) = (ofPaths paths).insert path := by
  simp [ofPaths]

theorem insert_nil (tree : RelationTree) : tree.insert [] = tree := by
  cases tree
  rfl

theorem ofPaths_below_concat (paths : List (List String)) (name : String) (rest : List String)
    (other : String) : ofPaths (below other (paths ++ [name :: rest])) =
      if other = name then (ofPaths (below other paths)).insert rest
      else ofPaths (below other paths) := by
  rw [below_append, below_singleton]
  split_ifs with hother
  · cases rest with
    | nil => simp [insert_nil, leftOf]
    | cons next more => rw [leftOf, if_pos hother.symm, Option.toList_some, ofPaths_concat]
  · have hnone : leftOf other (name :: rest) = none := by
      cases rest with
      | nil => simp [leftOf]
      | cons next more => exact if_neg (Ne.symm hother)
    rw [hnone, Option.toList_none, List.append_nil]

/-- The tree of paths has a branch for each first name, with what is left of the paths. -/
theorem branches_ofPaths (paths : List (List String)) :
    (ofPaths paths).branches = (heads paths).map fun name => (name, ofPaths (below name paths)) := by
  induction paths using List.reverseRecOn with
  | nil => rfl
  | append_singleton paths path ih =>
    rw [ofPaths_concat]
    cases path with
    | nil =>
      have hheads : heads (paths ++ [[]]) = heads paths := by
        unfold heads
        rw [List.filterMap_append]
        exact congrArg List.eraseDups (List.append_nil _)
      simp only [insert_nil, hheads, below_append, below_singleton, leftOf, Option.toList_none,
        List.append_nil]
      exact ih
    | cons name rest =>
      have hinsert : ((ofPaths paths).insert (name :: rest)).branches =
          insertBranch name rest (ofPaths paths).branches := by
        cases ofPaths paths
        rfl
      rw [hinsert, ih, insertBranch_map (nodup_heads paths), heads_concat_cons]
      simp only [ofPaths_below_concat]
      split_ifs with hmem
      · rfl
      · rw [List.map_append, List.map_singleton, if_pos rfl, below_of_not_mem hmem]
        refine congrArg (· ++ _) (List.map_congr_left fun other hother => ?_)
        have hne : other ≠ name := fun h => hmem (h ▸ hother)
        rw [if_neg hne]

end RelationTree
end Listing
