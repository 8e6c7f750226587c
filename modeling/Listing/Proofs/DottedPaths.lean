import Mathlib.Tactic.SplitIfs
import Listing.Pagination
import Listing.Proofs.RelationTrees

set_option autoImplicit false

/-!
# Dotted paths

A dotted path is taken apart in two ways: into the parts between its dots, where relations are to be
loaded, and name by name at the first dot, where a record is dumped. The names are the parts, but
for an empty one at the end; so paths whose parts begin alike have names that begin alike.
-/

namespace Listing

open Paths

/-- A row of names, and the row without an empty name that comes behind others at the end. -/
inductive Trimmed {α : Type} (blank : α) : List α → List α → Prop
  | cut {names : List α} (h : names ≠ []) : Trimmed blank (names ++ [blank]) names
  | whole {names : List α} (h : ∀ front, front ≠ [] → names ≠ front ++ [blank]) :
      Trimmed blank names names

namespace Trimmed

variable {α β : Type} {blank : α} {names names' : List α}

theorem ne_nil (h : Trimmed blank names names') (hnames : names ≠ []) : names' ≠ [] := by
  cases h with
  | cut h => exact h
  | whole => exact hnames

theorem isPrefix (h : Trimmed blank names names') : names' <+: names := by
  cases h with
  | cut => exact List.prefix_append _ _
  | whole => exact List.prefix_rfl

theorem cons (h : Trimmed blank names names') (hnames : names ≠ [blank]) (a : α) :
    Trimmed blank (a :: names) (a :: names') := by
  cases h with
  | cut => exact .cut (List.cons_ne_nil _ _)
  | whole h =>
    refine .whole fun front _ heq => ?_
    cases front with
    | nil => contradiction
    | cons b front =>
      have htail : names = front ++ [blank] := (List.cons.inj heq).2
      by_cases hfront : front = []
      · exact hnames (by rw [htail, hfront, List.nil_append])
      · exact h front hfront htail

theorem modifyHead (h : Trimmed blank names names') (f : α → α) :
    Trimmed blank (names.modifyHead f) (names'.modifyHead f) := by
  cases h with
  | cut h =>
    obtain ⟨a, rest, rfl⟩ := List.exists_cons_of_ne_nil h
    exact .cut (List.cons_ne_nil (f a) rest)
  | whole h =>
    refine .whole fun front hfront heq => ?_
    obtain ⟨b, front, rfl⟩ := List.exists_cons_of_ne_nil hfront
    cases names with
    | nil => cases heq
    | cons a rest =>
      have hrest : rest = front ++ [blank] := (List.cons.inj heq).2
      exact h (a :: front) (List.cons_ne_nil _ _) (congrArg (a :: ·) hrest)

theorem map {f : α → β} (hf : Function.Injective f) (h : Trimmed blank names names') :
    Trimmed (f blank) (names.map f) (names'.map f) := by
  cases h with
  | cut h =>
    rw [List.map_append]
    exact .cut (by simpa using h)
  | whole h =>
    refine .whole fun front hfront heq => ?_
    obtain ⟨front', last, rfl, rfl, hlast⟩ := List.map_eq_append_iff.1 heq
    obtain ⟨a, rfl, ha⟩ := List.map_eq_singleton_iff.1 hlast
    obtain rfl : a = blank := hf ha
    exact h front' (fun hnil => hfront (by rw [hnil, List.map_nil])) rfl

/-- A row of names begins a trimmed one if it begins the whole one and ends with no blank behind
others, or if more comes after it. -/
theorem isPrefix_iff {front : List α} (h : Trimmed blank names names') : front <+: names' ↔
      (front <+: names ∧ ∀ others, others ≠ [] → front ≠ others ++ [blank]) ∨
        ∃ a, front ++ [a] <+: names := by
  have hmore {a : α} {rest : List α} : front ++ [a] <+: rest → front <+: rest :=
    (List.prefix_append front [a]).trans
  cases h with
  | cut h =>
    constructor
    · rintro ⟨more, rfl⟩
      cases more with
      | nil => exact .inr ⟨blank, by simp⟩
      | cons a more => exact .inr ⟨a, by simp⟩
    · rintro (⟨hfront, hblank⟩ | ⟨a, ha⟩)
      · exact (List.prefix_concat_iff.1 hfront).resolve_left (hblank _ h)
      · rcases List.prefix_concat_iff.1 ha with heq | ha
        · rw [(List.append_inj' heq rfl).1]
        · exact hmore ha
  | whole h =>
    constructor
    · rintro ⟨more, rfl⟩
      cases more with
      | nil => exact .inl ⟨List.prefix_append _ _, List.append_nil front ▸ h⟩
      | cons a more => exact .inr ⟨a, by simp⟩
    · rintro (⟨hfront, -⟩ | ⟨a, ha⟩)
      · exact hfront
      · exact hmore ha

end Trimmed

namespace RelationTree

theorem namesIn_trimmed (cs : List Char) : Trimmed [] (cs.splitOn '.') (namesIn cs) := by
  induction cs with
  | nil =>
    rw [List.splitOn_nil]
    refine .whole fun front hfront heq => hfront ?_
    exact (List.append_eq_singleton_iff.1 heq.symm).elim (·.1) (by simp)
  | cons c cs ih =>
    rw [List.splitOn_cons_eq_if_modifyHead, namesIn]
    split_ifs with hdot hend
    · obtain rfl : cs = [] := List.isEmpty_iff.1 hend
      exact .cut (List.cons_ne_nil [] [])
    · refine ih.cons (fun hblank => hend ?_) []
      have hpieces : ['.'].intercalate (cs.splitOn '.') = cs := List.intercalate_splitOn '.'
      rw [← hpieces, hblank]
      rfl
    · have hne : namesIn cs ≠ [] := ih.ne_nil (List.splitOn_ne_nil _ _)
      obtain ⟨name, names, hnames⟩ := List.exists_cons_of_ne_nil hne
      have hmodified := ih.modifyHead (List.cons c)
      rw [hnames] at hmodified ⊢
      exact hmodified

/-- The names along which a record is dumped are those between the dots, but for an empty one at
the end. -/
theorem steps_trimmed (path : String) : Trimmed "" (Query.partsOf path) (steps path) :=
  (namesIn_trimmed path.toList).map fun _ _ => String.ofList_injective

example : Query.partsOf "team..heroes." = ["team", "", "heroes", ""] ∧
    steps "team..heroes." = ["team", "", "heroes"] := by decide

def headOf (path : String) : String := String.ofList (path.toList.takeWhile (· != '.'))

def restOf (path : String) : String :=
  String.ofList ((path.toList.dropWhile (· != '.')).drop 1)

def headsOf (paths : List String) : List String := (paths.map headOf).eraseDups

def restsOf (name : String) (paths : List String) : List String :=
  paths.filterMap fun path =>
    if headOf path = name ∧ restOf path ≠ "" then some (restOf path) else none

theorem namesIn_eq (cs : List Char) : namesIn cs = cs.takeWhile (· != '.') ::
    if ((cs.dropWhile (· != '.')).drop 1).isEmpty then []
    else namesIn ((cs.dropWhile (· != '.')).drop 1) := by
  induction cs with
  | nil => rfl
  | cons c cs ih =>
    rw [namesIn, List.takeWhile_cons, List.dropWhile_cons]
    by_cases hdot : c = '.'
    · subst hdot
      rfl
    · have hother : (c != '.') = true := bne_iff_ne.2 hdot
      rw [if_neg (by simpa using hdot), if_pos hother, if_pos hother, ih]

theorem steps_eq (path : String) :
    steps path = headOf path :: if restOf path = "" then [] else steps (restOf path) := by
  have hblank (cs : List Char) : String.ofList cs = "" ↔ cs.isEmpty = true := by
    rw [← String.ofList_nil, String.ofList_inj, List.isEmpty_iff]
  unfold steps
  rw [namesIn_eq, List.map_cons]
  unfold headOf restOf
  simp only [hblank, String.toList_ofList]
  split_ifs <;> rfl

theorem heads_map_steps (paths : List String) : heads (paths.map steps) = headsOf paths := by
  have hhead : List.head? ∘ steps = some ∘ headOf := by
    funext path
    rw [Function.comp_apply, steps_eq, List.head?_cons, Function.comp_apply]
  unfold heads headsOf
  rw [List.filterMap_map, hhead, List.filterMap_eq_map]

theorem below_map_steps (name : String) (paths : List String) :
    below name (paths.map steps) = (restsOf name paths).map steps := by
  unfold below restsOf
  rw [List.filterMap_map, List.map_filterMap]
  refine List.filterMap_congr fun path _ => ?_
  rw [Function.comp_apply, steps_eq]
  by_cases hend : restOf path = ""
  · simp [hend, leftOf]
  · have hne : steps (restOf path) ≠ [] := by
      rw [steps_eq]
      exact List.cons_ne_nil _ _
    obtain ⟨next, more, hmore⟩ := List.exists_cons_of_ne_nil hne
    rw [if_neg hend, hmore, leftOf]
    by_cases hname : headOf path = name <;> simp [hname, hend, hmore]

/-- Paths whose parts begin alike are dumped along names that begin alike. -/
theorem beginAlike_steps {ps ps' : List String}
    (h : BeginAlike (ps.map Query.partsOf) (ps'.map Query.partsOf)) :
    BeginAlike (ps.map steps) (ps'.map steps) := by
  have hsteps (dotted : List String) (names : List String) : Begin (dotted.map steps) names ↔
      (Begin (dotted.map Query.partsOf) names ∧
        ∀ others, others ≠ [] → names ≠ others ++ [""]) ∨
        ∃ a, Begin (dotted.map Query.partsOf) (names ++ [a]) := by
    simp only [begin_map, (steps_trimmed _).isPrefix_iff]
    constructor
    · rintro ⟨path, hpath, ⟨hnames, hblank⟩ | ⟨a, ha⟩⟩
      · exact .inl ⟨⟨path, hpath, hnames⟩, hblank⟩
      · exact .inr ⟨a, path, hpath, ha⟩
    · rintro (⟨⟨path, hpath, hnames⟩, hblank⟩ | ⟨a, path, hpath, ha⟩)
      · exact ⟨path, hpath, .inl ⟨hnames, hblank⟩⟩
      · exact ⟨path, hpath, .inr ⟨a, ha⟩⟩
  intro names hnames
  rw [hsteps, hsteps, h names hnames]
  simp only [h _ (List.append_ne_nil_of_right_ne_nil names (List.cons_ne_nil _ _))]

end RelationTree

end Listing
