import Mathlib.Data.List.Basic
import Listing.Proofs.Sql.Matching
import Listing.Proofs.Sql.Scopes

set_option autoImplicit false

/-!
# Joins by unique keys

Where a row of the base table meets at most one row of the joined table, a join neither adds a row
nor drops one. Conditions on the base table, and on tables that are not joined but stand beside it,
then select the same rows with a join and without it.
-/

namespace Listing.Sql

open Outcome

/-- The related key of a join is unique: however its columns are read, no two rows of the joined
table have keys that one foreign key equals. -/
def Join.IsUnique (db : Database) (base : Table) (j : Join) : Prop :=
  ∀ t left right, Scope.table db j.table = .ok t →
    Scope.fieldsIn j.foreignKey [base] = [left] →
    Scope.fieldsIn (Scope.spoken j.relatedKey) [t] = [right] →
    ∀ r ∈ db.rows base.name, ((db.rows t.name).filter fun r' =>
      Cell.compare? left.affinity right.affinity (fieldCell [(base.name, r)] left)
        (fieldCell [(t.name, r')] right) == some .eq).length ≤ 1

namespace Statement

variable {db : Database} {s : Statement}

def sideBySide (db : Database) : List String → List Binding
  | [] => [[]]
  | t :: ts => (db.rows t).flatMap fun r => (sideBySide db ts).map ((t, r) :: ·)

theorem foldl_beside (ts : List String) (bs : List Binding) :
    ts.foldl (fun bs t => bs.flatMap fun b => (db.rows t).map fun r => b ++ [(t, r)]) bs =
      bs.flatMap fun b => (sideBySide db ts).map (b ++ ·) := by
  induction ts generalizing bs with
  | nil => simp [sideBySide]
  | cons t ts ih =>
    rw [List.foldl_cons, ih, List.flatMap_assoc]
    refine List.flatMap_congr fun b _ => ?_
    rw [sideBySide, List.flatMap_map, List.map_flatMap]
    refine List.flatMap_congr fun r _ => ?_
    rw [List.map_map]
    exact List.map_congr_left fun e _ => List.append_assoc b [(t, r)] e

theorem leftJoin_once {base t : Table} {j : FoundJoin} (htable : j.table = t.name)
    (hne : t.name ≠ base.name) {fk key : String}
    (hleft : Scope.fieldsIn fk [base] = [j.left]) (hright : Scope.fieldsIn key [t] = [j.right])
    {r : Row} (honce : ((db.rows t.name).filter fun r' =>
      Cell.compare? j.left.affinity j.right.affinity (fieldCell [(base.name, r)] j.left)
        (fieldCell [(t.name, r')] j.right) == some .eq).length ≤ 1) :
    (leftJoin db j [(base.name, r)]).length ≤ 1 := by
  obtain ⟨table, left, right⟩ := j
  dsimp only at htable hleft hright honce
  subst htable
  obtain ⟨column, type, rfl⟩ := Scope.exists_of_fieldsIn hleft
  obtain ⟨column', type', rfl⟩ := Scope.exists_of_fieldsIn hright
  unfold leftJoin
  dsimp only
  split
  · exact le_rfl
  · rw [List.filter_map, List.length_map]
    refine le_trans (le_of_eq ?_) honce
    refine congrArg List.length (List.filter_congr fun r' _ => ?_)
    have hrow : Binding.row [(base.name, r), (t.name, r')] t.name = r' := by
      rw [row_cons_of_ne hne, row_cons]
    simp only [Function.comp_apply, List.singleton_append, fieldCell, Binding.cell, hrow, row_cons]

def JoinsOnce (db : Database) (base : String) (joins : List FoundJoin) : Prop :=
  joins.length ≤ 1 ∧
    ∀ j ∈ joins, ∀ r ∈ db.rows base, (leftJoin db j [(base, r)]).length ≤ 1

def JoinsUniquely (db : Database) (s : Statement) : Prop :=
  s.joins.length ≤ 1 ∧ ∀ j ∈ s.joins, j.IsUnique db s.base

theorem ReadsFrom.found {base u : Table} {joined extra : List Table} {joins : List FoundJoin}
    (hreads : s.ReadsFrom db base joined extra joins) (hu : u ∈ base :: joined ++ extra) :
    ∃ name, Scope.table db name = .ok u := by
  rcases List.mem_append.1 hu with hu | hu
  · rcases List.mem_cons.1 hu with rfl | hu
    · exact ⟨_, hreads.base_found⟩
    · obtain ⟨j, -, hj⟩ := exists_of_mem_mapM hreads.joined_found hu
      exact ⟨_, hj⟩
  · obtain ⟨name, -, hname⟩ := exists_of_mem_mapM hreads.extra_found hu
    exact ⟨_, hname⟩

theorem ReadsFrom.qualified {base t : Table} {joined extra : List Table} {joins : List FoundJoin}
    (hreads : s.ReadsFrom db base joined extra joins) (ht : t ∈ base :: joined ++ extra)
    {name : String} {target : Target}
    (h : (s.scope (base :: joined ++ extra)).qualified t.name name = .ok target) :
    (s.scope (base :: joined ++ extra)).tablesNamed t.name = [t] ∧
      Scope.fieldsIn name [t] = [target] := by
  obtain ⟨_, hfound⟩ := hreads.found ht
  refine Scope.qualified_alone h ht fun u hu hsame => ?_
  obtain ⟨_, hfound'⟩ := hreads.found hu
  exact Scope.table_unique hfound' hfound hsame

/-- Where the related key is unique, each row of the base table is joined once. -/
theorem ReadsFrom.joinsOnce {base : Table} {joined extra : List Table} {joins : List FoundJoin}
    (hreads : s.ReadsFrom db base joined extra joins) (hdb : db.Holds s.base)
    (hunique : s.JoinsUniquely db) : JoinsOnce db s.base.name joins := by
  obtain rfl := Except.ok.inj (hreads.base_found.symm.trans hdb)
  have hjoined := hreads.joined_found
  have hfound := hreads.joins_found
  unfold foundJoins at hfound
  obtain ⟨hlength, hunique⟩ := hunique
  match hjoins : s.joins, hlength with
  | [], _ =>
    rw [hjoins] at hfound
    cases hfound
    exact ⟨Nat.zero_le _, List.forall_mem_nil _⟩
  | [j], _ =>
    rw [hjoins, List.mapM_cons] at hjoined
    obtain ⟨t, ht, hjoined⟩ := bind_eq_ok_iff.1 hjoined
    cases hjoined
    rw [hjoins, List.zip_cons_cons, List.mapM_cons] at hfound
    obtain ⟨found, hone, hfound⟩ := bind_eq_ok_iff.1 hfound
    cases hfound
    obtain ⟨left, hleft, hone⟩ := bind_eq_ok_iff.1 hone
    obtain ⟨right, hright, hone⟩ := bind_eq_ok_iff.1 hone
    cases hone
    have hbase := hreads.qualified List.mem_cons_self hleft
    have hother := hreads.qualified (List.mem_cons_of_mem _ List.mem_cons_self) hright
    have hne : t.name ≠ s.base.name := by
      intro heq
      have hnamed := hbase.1
      unfold Scope.tablesNamed scope at hnamed
      simp only [List.cons_append, List.filter_cons, heq, Scope.sameName, beq_self_eq_true,
        if_true] at hnamed
      cases hnamed
    refine ⟨le_rfl, fun found hmem r hr => ?_⟩
    rw [List.mem_singleton.1 hmem]
    have hmet := hunique j (hjoins ▸ List.mem_cons_self) t left right ht hbase.2 hother.2 r hr
    exact leftJoin_once rfl hne hbase.2 hother.2 hmet
  | _ :: _ :: _, hlength => exact absurd hlength (by simp)

/-- A table that is the base table of a statement, or that no join of it brings in. -/
def KeepsApart (db : Database) (s : Statement) (t : Table) : Prop :=
  t = s.base ∨ ∀ j ∈ s.joins, Scope.table db j.table ≠ .ok t

theorem ReadsFrom.apart {base t : Table} {joined extra : List Table} {joins : List FoundJoin}
    (hreads : s.ReadsFrom db base joined extra joins) (ht : db.Holds t)
    (hapart : s.KeepsApart db t) : t.name = s.base.name ∨ t.name ∉ joins.map (·.table) := by
  refine hapart.imp (congrArg Table.name) fun hapart hmem => ?_
  obtain ⟨found, hfound, hname⟩ := List.mem_map.1 hmem
  obtain ⟨⟨j, t'⟩, hpair, hone⟩ := exists_of_mem_mapM hreads.joins_found hfound
  obtain ⟨left, -, hone⟩ := bind_eq_ok_iff.1 hone
  obtain ⟨right, -, hone⟩ := bind_eq_ok_iff.1 hone
  cases hone
  obtain ⟨j', hj', ht'⟩ := exists_of_mem_mapM hreads.joined_found (List.of_mem_zip hpair).2
  have hsame : Scope.sameName t'.name t.name = true := by
    rw [← hname]
    exact beq_self_eq_true _
  obtain rfl := Scope.table_unique ht' ht hsame
  exact hapart j' hj' ht'

theorem JoinsOnce.joined {base : String} {joins : List FoundJoin} (h : JoinsOnce db base joins) :
    ∃ rest : Row → Binding, (∀ r, ∀ e ∈ rest r, e.1 ∈ joins.map (·.table)) ∧
      joins.foldl (fun bs j => bs.flatMap (leftJoin db j))
        ((db.rows base).map fun r => [(base, r)]) =
      (db.rows base).map fun r => (base, r) :: rest r := by
  match joins, h with
  | [], _ => exact ⟨fun _ => [], fun _ => List.forall_mem_nil _, rfl⟩
  | [j], h =>
    have hone : ∀ r, ∃ r', r ∈ db.rows base →
        leftJoin db j [(base, r)] = [[(base, r), (j.table, r')]] := by
      intro r
      by_cases hr : r ∈ db.rows base
      · obtain ⟨b, hb⟩ := List.exists_mem_of_ne_nil _ (leftJoin_ne_nil db j [(base, r)])
        obtain ⟨r', rfl⟩ := mem_leftJoin hb
        have hlength : (leftJoin db j [(base, r)]).length = 1 :=
          le_antisymm (h.2 j List.mem_cons_self r hr) (List.length_pos_of_mem hb)
        obtain ⟨b', hb'⟩ := List.length_eq_one_iff.1 hlength
        rw [hb'] at hb
        exact ⟨r', fun _ => by rw [hb', ← List.mem_singleton.1 hb]; rfl⟩
      · exact ⟨r, fun hr' => absurd hr' hr⟩
    choose met hmet using hone
    refine ⟨fun r => [(j.table, met r)], fun r e he => ?_, ?_⟩
    · rw [List.mem_singleton.1 he]
      exact List.mem_cons_self
    · rw [List.foldl_cons, List.foldl_nil, List.flatMap_map, List.map_eq_flatMap]
      exact List.flatMap_congr hmet
  | _ :: _ :: _, h => exact absurd h.1 (by simp)

theorem JoinsOnce.bindings {base : String} {joins : List FoundJoin} (h : JoinsOnce db base joins)
    (extra : List String) :
    ∃ rest : Row → Binding, (∀ r, ∀ e ∈ rest r, e.1 ∈ joins.map (·.table)) ∧
      bindings db base (db.rows base) joins extra = (db.rows base).flatMap fun r =>
        (sideBySide db extra).map fun e => (base, r) :: (rest r ++ e) := by
  obtain ⟨rest, hkeys, hjoined⟩ := h.joined
  refine ⟨rest, hkeys, ?_⟩
  unfold Sql.bindings
  dsimp only
  rw [hjoined, foldl_beside, List.flatMap_map]
  rfl

def StandsApart (base : String) (joins : List FoundJoin) (t : Target) : Prop :=
  ∃ table name type, t = .field table name type ∧
    (table = base ∨ table ∉ joins.map (·.table))

theorem StandsApart.cell {base : String} {joins : List FoundJoin} {t : Target}
    (h : StandsApart base joins t) {rest : Binding} (hrest : ∀ e ∈ rest, e.1 ∈ joins.map (·.table))
    (r : Row) (others : Binding) :
    s.targetCell db ((base, r) :: (rest ++ others)) t = fieldCell ((base, r) :: others) t := by
  obtain ⟨table, name, type, rfl, hplace⟩ := h
  have hrow : Binding.row ((base, r) :: (rest ++ others)) table =
      Binding.row ((base, r) :: others) table := by
    by_cases hbase : table = base
    · rw [hbase, row_cons, row_cons]
    · have hnone : Entries.lookup? rest table = none := by
        rw [Entries.lookup?_eq_none_iff, List.any_eq_false]
        intro e he heq
        exact hplace.resolve_left hbase (beq_iff_eq.1 heq ▸ hrest e he)
      rw [row_cons_of_ne hbase, row_cons_of_ne hbase]
      unfold Binding.row
      rw [Entries.lookup?_append, hnone, Option.none_or]
  change Binding.cell ((base, r) :: (rest ++ others)) table name = _
  simp only [fieldCell, Binding.cell, hrow]

def selectedBeside (db : Database) (base : String) (extra : List String)
    (tests : List (List Test)) : List Row :=
  (db.rows base).flatMap fun r => ((sideBySide db extra).filter fun e =>
    Test.allHold (fieldCell ((base, r) :: e)) tests).map fun _ => r

/-- A join by a unique key does not show in the rows that are selected apart from it. -/
theorem selected_apart {joins : List FoundJoin} {extra : List Table} {tests : List (List Test)}
    (hjoins : JoinsOnce db s.base.name joins)
    (hapart : ∀ g ∈ tests, ∀ t ∈ g, StandsApart s.base.name joins t.target) :
    ((s.joinedRows db joins extra).filter fun b =>
        Test.allHold (s.targetCell db b) tests).map (·.row s.base.name) =
      selectedBeside db s.base.name (extra.map (·.name)) tests := by
  obtain ⟨rest, hkeys, hbindings⟩ := hjoins.bindings (extra.map (·.name))
  unfold joinedRows selectedBeside
  rw [hbindings, List.filter_flatMap, List.map_flatMap]
  refine List.flatMap_congr fun r _ => ?_
  rw [List.filter_map, List.map_map]
  have htests : ∀ e ∈ sideBySide db (extra.map (·.name)),
      ((fun b => Test.allHold (s.targetCell db b) tests) ∘ fun e =>
        (s.base.name, r) :: (rest r ++ e)) e =
      Test.allHold (fieldCell ((s.base.name, r) :: e)) tests := by
    intro e _
    exact Test.allHold_congr fun g hg t ht => (hapart g hg t ht).cell (hkeys r) r e
  rw [List.filter_congr htests]
  exact List.map_congr_left fun e _ => row_cons _ r _

end Statement
end Listing.Sql
