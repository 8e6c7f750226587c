import Listing.Proofs.Outcomes
import Listing.Sql.Scope

set_option autoImplicit false

namespace Listing.Sql

/-- A database that has a table as it is declared. -/
def Database.Holds (db : Database) (t : Table) : Prop := Scope.table db t.name = .ok t

namespace Scope

variable {db : Database} {s : Scope} {t u : Table} {ts : List Table} {target field : Target}

theorem mem_fieldsOf {name : String} {type : ColumnType} (h : t.columnType? name = some type) :
    .field t.name name type ∈ fieldsOf name t := by
  obtain ⟨e, he, rfl⟩ := Option.map_eq_some_iff.1 h
  have hname := List.find?_some he
  rw [beq_iff_eq] at hname
  subst hname
  exact List.mem_map.2
    ⟨e, List.mem_filter.2 ⟨List.mem_of_find?_eq_some he, beq_self_eq_true _⟩, rfl⟩

theorem mem_fieldsIn {name : String} (ht : t ∈ ts) (hfield : field ∈ fieldsOf name t) :
    field ∈ fieldsIn name ts := by
  have hmem : field ∈ ts.flatMap (fieldsOf name) := List.mem_flatMap.2 ⟨t, ht, hfield⟩
  unfold fieldsIn
  split
  · rename_i hnone
    rw [hnone] at hmem
    cases hmem
  · exact hmem

theorem eq_of_qualified {name : String} (h : s.qualified t.name name = .ok target)
    (ht : t ∈ s.tables) (hfield : field ∈ fieldsOf name t) : target = field := by
  have hnamed : t ∈ s.tablesNamed t.name := List.mem_filter.2 ⟨ht, beq_self_eq_true _⟩
  have hmem := mem_fieldsIn hnamed hfield
  unfold qualified at h
  split at h
  · rename_i hone
    rw [hone] at hmem
    cases h
    exact (List.mem_singleton.1 hmem).symm
  · cases h

theorem eq_of_bare {name : String} (h : s.bare name = .ok target) (ht : t ∈ s.tables)
    (hfield : field ∈ fieldsOf (spoken name) t) : target = field := by
  have hmem := mem_fieldsIn ht hfield
  unfold bare at h
  dsimp only at h
  split at h
  · rename_i hone
    rw [hone] at hmem
    cases h
    exact (List.mem_singleton.1 hmem).symm
  · rename_i hnone
    rw [hnone] at hmem
    cases hmem
  · cases h

theorem table_eq_ok_iff {name : String} : table db name = .ok t ↔
    ∃ rows, db.tables.find? (fun t => sameName t.1.name (spoken name)) = some (t, rows) := by
  unfold table
  cases db.tables.find? fun t => sameName t.1.name (spoken name) with
  | none => exact iff_of_false nofun nofun
  | some e =>
    obtain ⟨t', rows⟩ := e
    constructor
    · intro h
      cases h
      exact ⟨rows, rfl⟩
    · rintro ⟨rows', h⟩
      cases h
      rfl

/-- Two tables of a database whose names differ in the case of letters only are one. -/
theorem table_unique {name name' : String} (h : table db name = .ok t)
    (h' : table db name' = .ok u) (hsame : sameName t.name u.name = true) : t = u := by
  obtain ⟨rows, ht⟩ := table_eq_ok_iff.1 h
  obtain ⟨rows', hu⟩ := table_eq_ok_iff.1 h'
  have hname := List.find?_some ht
  have hname' := List.find?_some hu
  unfold sameName at hname hname' hsame ht hu
  rw [beq_iff_eq] at hname hname' hsame
  rw [← hname, hsame, hname', hu] at ht
  cases ht
  rfl

theorem exists_of_fieldsIn {name : String} (h : fieldsIn name [t] = [target]) :
    ∃ column type, target = .field t.name column type := by
  have hmem : target ∈ fieldsIn name [t] := h ▸ List.mem_cons_self
  unfold fieldsIn at hmem
  split at hmem
  · rename_i hone
    cases hone
    split_ifs at hmem
    · exact ⟨_, _, List.mem_singleton.1 hmem⟩
    · cases hmem
  · obtain ⟨t', ht', hfields⟩ := List.mem_flatMap.1 hmem
    rw [List.mem_singleton.1 ht'] at hfields
    obtain ⟨c, -, rfl⟩ := List.mem_map.1 hfields
    exact ⟨_, _, rfl⟩

/-- A column of a table is found only where no table of that name is read twice. -/
theorem qualified_alone {name : String} (h : s.qualified t.name name = .ok target)
    (ht : t ∈ s.tables) (hall : ∀ u ∈ s.tables, sameName u.name t.name = true → u = t) :
    s.tablesNamed t.name = [t] ∧ fieldsIn name [t] = [target] := by
  have hcopies : s.tablesNamed t.name = List.replicate (s.tablesNamed t.name).length t :=
    List.eq_replicate_iff.2 ⟨rfl, fun u hu =>
      hall u (List.mem_filter.1 hu).1 (List.mem_filter.1 hu).2⟩
  have hfields : fieldsIn name (s.tablesNamed t.name) = [target] := by
    unfold qualified at h
    split at h
    · rename_i hone
      cases h
      exact hone
    · cases h
  have hnamed : t ∈ s.tablesNamed t.name := List.mem_filter.2 ⟨ht, beq_self_eq_true _⟩
  generalize (s.tablesNamed t.name).length = n at hcopies
  rw [hcopies] at hfields hnamed ⊢
  match n with
  | 0 => cases hnamed
  | 1 => exact ⟨rfl, hfields⟩
  | n + 2 =>
    -- Every copy brings the same fields, so there is none or there are several.
    have hlength : ((n + 2) * (fieldsOf name t).length) = 1 := by
      unfold fieldsIn at hfields
      split at hfields
      · rename_i hpair
        cases hpair
      · have hcount := congrArg List.length hfields
        rw [List.length_flatMap, List.map_replicate, List.sum_replicate_nat] at hcount
        exact hcount
    have hone : n + 2 = 1 := Nat.eq_one_of_mul_eq_one_right hlength
    omega

end Scope
end Listing.Sql
