import Listing.Proofs.LoadedRelations
import Listing.Proofs.WiderItems

set_option autoImplicit false

namespace Listing

open Sql Paths

mutual

inductive Datum.Same : Datum → Datum → Prop
  | scalar (v : Value) : Datum.Same (.scalar v) (.scalar v)
  | record {fields fields' : List (String × Datum)} (h : Record.Same fields fields') :
      Datum.Same (.record fields) (.record fields')
  | records {items items' : List (List (String × Datum))} (hlength : items.length = items'.length)
      (h : ∀ (i : Nat) (item item' : List (String × Datum)), items[i]? = some item →
        items'[i]? = some item' → Record.Same item item') :
      Datum.Same (.records items) (.records items')

inductive Record.Same : List (String × Datum) → List (String × Datum) → Prop
  | fields {fields fields' : List (String × Datum)}
      (hkeys : (fields.map (·.1)).Perm (fields'.map (·.1)))
      (h : ∀ (key : String) (d d' : Datum), Entries.lookup? fields key = some d →
        Entries.lookup? fields' key = some d' → Datum.Same d d') :
      Record.Same fields fields'

end

namespace Record

variable (c : Catalog) (db : Database)

mutual

/-- A record is that of a row along some paths: it has the columns of the row and the first names
of the paths for keys, each first name is that of a relation, and the data under it are those of
the related rows along what is left of the paths. -/
inductive Describes : Model → Row → List (List String) → List (String × Datum) → Prop
  | fields {m : Model} {r : Row} {paths : List (List String)} {fields : List (String × Datum)}
      (hkeys : fields.map (·.1) = m.table.columns.map (·.1) ++
        (heads paths).filter (· ∉ m.table.columns.map (·.1)))
      (hcolumns : ∀ key ∉ heads paths,
        Entries.lookup? fields key =
          Entries.lookup? ((columns m.table r).map fun f => (f.1, .scalar f.2)) key)
      (hrelations : ∀ name ∈ heads paths, c.IsRelation m name)
      (hrelated : ∀ name ∈ heads paths, ∀ (relation : Relation) (target : Model) (d : Datum),
        c.Reaches m name relation target → Entries.lookup? fields name = some d →
        DescribesRelated relation.many target (related db target.table relation r)
          (below name paths) d) :
      Describes m r paths fields

/-- Data are those of related rows along some paths: of a relation to many a record of each row, in
their order; of another one the record of the first row, or null if there is none. -/
inductive DescribesRelated : Bool → Model → List Row → List (List String) → Datum → Prop
  | many {target : Model} {rows : List Row} {paths : List (List String)}
      {items : List (List (String × Datum))} (hlength : items.length = rows.length)
      (h : ∀ (i : Nat) (item : List (String × Datum)) (t : Row), items[i]? = some item →
        rows[i]? = some t → Describes target t paths item) :
      DescribesRelated true target rows paths (.records items)
  | one {target : Model} {t : Row} {rows : List Row} {paths : List (List String)}
      {fields : List (String × Datum)} (h : Describes target t paths fields) :
      DescribesRelated false target (t :: rows) paths (.record fields)
  | missing {target : Model} {paths : List (List String)} :
      DescribesRelated false target [] paths (.scalar .null)

end

end Record

namespace Record

open RelationTree

variable {c : Catalog} {db : Database} {m target : Model} {r : Row} {relation : Relation}
  {name key : String} {names : List String} {rows : List Row}
  {fields : List (String × Datum)} {paths paths' : List (List String)}
  {dump dump' : Row → List (String × Datum)} {tree : String → RelationTree}

theorem same_fieldOf (h : ∀ t, Same (dump t) (dump' t)) :
    Datum.Same (fieldOf relation rows dump) (fieldOf relation rows dump') := by
  unfold fieldOf
  split_ifs
  · refine .records (by simp) fun i item item' hitem hitem' => ?_
    rw [List.getElem?_map] at hitem hitem'
    obtain ⟨t, ht, rfl⟩ := Option.map_eq_some_iff.1 hitem
    obtain ⟨t', ht', rfl⟩ := Option.map_eq_some_iff.1 hitem'
    obtain rfl : t = t' := Option.some.inj (ht.symm.trans ht')
    exact h t
  · cases rows with
    | nil => exact .scalar .null
    | cons t rows => exact .record (h t)

theorem describesRelated_fieldOf (h : ∀ t, Describes c db target t paths (dump t)) :
    DescribesRelated c db relation.many target rows paths (fieldOf relation rows dump) := by
  unfold fieldOf
  split_ifs with hmany
  · rw [hmany]
    refine .many (by simp) fun i item t hitem ht => ?_
    rw [List.getElem?_map, ht] at hitem
    cases hitem
    exact h t
  · rw [Bool.eq_false_iff.2 hmany]
    cases rows with
    | nil => exact .missing
    | cons t rows => exact .one (h t)

theorem scalar_of_columns {d : Datum}
    (h : Entries.lookup? ((columns m.table r).map fun f => (f.1, .scalar f.2)) key = some d) :
    ∃ v, d = .scalar v := by
  obtain ⟨f, hf, rfl⟩ := Option.map_eq_some_iff.1 h
  obtain ⟨column, -, rfl⟩ := List.mem_map.1 (List.mem_of_find?_eq_some hf)
  exact ⟨column.2, rfl⟩

theorem keys_ofBranches (hnames : names.Nodup) (h : ∀ name ∈ names, c.IsRelation m name) :
    (ofBranches c db m r fields (names.map fun name => (name, tree name))).map (·.1) =
      fields.map (·.1) ++ names.filter (· ∉ fields.map (·.1)) := by
  induction names generalizing fields with
  | nil => simp [ofBranches]
  | cons name names ih =>
    obtain ⟨relation, target, hreaches⟩ := h name List.mem_cons_self
    rw [List.nodup_cons] at hnames
    rw [List.map_cons, ofBranches_cons hreaches,
      ih hnames.2 fun name hname => h name (List.mem_cons_of_mem _ hname), Entries.keys_insert]
    simp only [Entries.any_key_iff]
    by_cases hname : name ∈ fields.map (·.1)
    · rw [if_pos hname, List.filter_cons_of_neg (by simpa using hname)]
    · have hrest : names.filter (· ∉ fields.map (·.1) ++ [name]) =
          names.filter (· ∉ fields.map (·.1)) := by
        refine List.filter_congr fun other hother => ?_
        have hne : other ≠ name := fun heq => hnames.1 (heq ▸ hother)
        simp [hne]
      rw [if_neg hname, hrest, List.filter_cons_of_pos (by simpa using hname), List.append_assoc,
        List.singleton_append]

theorem lookup?_ofBranches_other (h : ∀ name ∈ names, c.IsRelation m name) (hkey : key ∉ names) :
    Entries.lookup? (ofBranches c db m r fields (names.map fun name => (name, tree name))) key =
      Entries.lookup? fields key := by
  induction names generalizing fields with
  | nil => rw [List.map_nil, ofBranches]
  | cons name names ih =>
    obtain ⟨relation, target, hreaches⟩ := h name List.mem_cons_self
    simp only [List.mem_cons, not_or] at hkey
    rw [List.map_cons, ofBranches_cons hreaches,
      ih (fun name hname => h name (List.mem_cons_of_mem _ hname)) hkey.2, Entries.lookup?_insert,
      if_neg hkey.1]

theorem lookup?_ofBranches (h : ∀ name ∈ names, c.IsRelation m name) (hname : name ∈ names)
    (hreaches : c.Reaches m name relation target) :
    Entries.lookup? (ofBranches c db m r fields (names.map fun name => (name, tree name))) name =
      some (fieldOf relation (related db target.table relation r) fun t =>
        ofRow c db target t (tree name)) := by
  induction names generalizing fields with
  | nil => cases hname
  | cons first names ih =>
    have hrest : ∀ name ∈ names, c.IsRelation m name :=
      fun name hname => h name (List.mem_cons_of_mem _ hname)
    obtain ⟨relation', target', hreaches'⟩ := h first List.mem_cons_self
    rw [List.map_cons, ofBranches_cons hreaches']
    by_cases hmem : name ∈ names
    · exact ih hrest hmem
    · obtain rfl : name = first := (List.mem_cons.1 hname).resolve_right hmem
      obtain ⟨rfl, rfl⟩ := hreaches.unique hreaches'
      rw [lookup?_ofBranches_other hrest hmem, Entries.lookup?_insert, if_pos rfl]

theorem keys_ofRow (h : c.Leads m paths) :
    (ofRow c db m r (ofPaths paths)).map (·.1) = m.table.columns.map (·.1) ++
      (heads paths).filter (· ∉ m.table.columns.map (·.1)) := by
  have hcolumns : ((columns m.table r).map fun f => (f.1, Datum.scalar f.2)).map (·.1) =
      m.table.columns.map (·.1) := by
    rw [List.map_map]
    exact columns_keys m.table r
  rw [ofRow_ofPaths, keys_ofBranches (nodup_heads paths) fun _ => h.isRelation, hcolumns]

theorem lookup?_ofRow_other (h : c.Leads m paths) (hkey : key ∉ heads paths) :
    Entries.lookup? (ofRow c db m r (ofPaths paths)) key =
      Entries.lookup? ((columns m.table r).map fun f => (f.1, .scalar f.2)) key := by
  rw [ofRow_ofPaths, lookup?_ofBranches_other (fun _ => h.isRelation) hkey]

theorem lookup?_ofRow (h : c.Leads m paths) (hname : name ∈ heads paths)
    (hreaches : c.Reaches m name relation target) :
    Entries.lookup? (ofRow c db m r (ofPaths paths)) name =
      some (fieldOf relation (related db target.table relation r) fun t =>
        ofRow c db target t (ofPaths (below name paths))) := by
  rw [ofRow_ofPaths]
  exact lookup?_ofBranches (fun _ => h.isRelation) hname hreaches

theorem describes_ofRow (h : c.Leads m paths) (db : Database) (r : Row) :
    Describes c db m r paths (ofRow c db m r (ofPaths paths)) := by
  induction hsize : size paths using Nat.strong_induction_on generalizing m r paths with
  | _ n ih =>
  subst hsize
  refine .fields (keys_ofRow h) (fun key hkey => lookup?_ofRow_other h hkey)
    (fun _ => h.isRelation) fun name hname relation target d hreaches hd => ?_
  rw [lookup?_ofRow h hname hreaches] at hd
  cases hd
  exact describesRelated_fieldOf fun t => ih _ (size_below_lt hname) (h.below hreaches) t rfl

theorem same_ofRow (h : c.Leads m paths) (h' : c.Leads m paths') (hsame : BeginAlike paths paths')
    (db : Database) (r : Row) :
    Same (ofRow c db m r (ofPaths paths)) (ofRow c db m r (ofPaths paths')) := by
  induction hsize : size paths using Nat.strong_induction_on generalizing m r paths paths' with
  | _ n ih =>
  subst hsize
  refine .fields ?_ fun key d d' hd hd' => ?_
  · rw [keys_ofRow h, keys_ofRow h']
    exact (hsame.perm_heads.filter _).append_left _
  · by_cases hkey : key ∈ heads paths
    · have hkey' : key ∈ heads paths' := hsame.mem_heads.1 hkey
      obtain ⟨relation, target, hreaches⟩ := h.isRelation hkey
      rw [lookup?_ofRow h hkey hreaches] at hd
      rw [lookup?_ofRow h' hkey' hreaches] at hd'
      cases hd
      cases hd'
      exact same_fieldOf fun t => ih _ (size_below_lt hkey) (h.below hreaches)
        (h'.below hreaches) (hsame.below key) t rfl
    · rw [lookup?_ofRow_other h hkey] at hd
      rw [lookup?_ofRow_other h' (mt hsame.mem_heads.2 hkey), hd] at hd'
      cases hd'
      obtain ⟨v, rfl⟩ := scalar_of_columns hd
      exact .scalar v

end Record

namespace Query

open RelationTree

variable {q : Query} {ps ps' : List String}

/-- Names that are accepted and begin alike give the same record of every row, but for the order of
keys; and there is one, which is that of the row along their names. -/
theorem records_agree (hps : ∀ p ∈ ps, q.accepts p = true) (hps' : ∀ p ∈ ps', q.accepts p = true)
    (hsame : ∀ names, names ≠ [] →
      ((∃ p ∈ ps, names <+: partsOf p) ↔ ∃ p ∈ ps', names <+: partsOf p))
    (db : Database) (r : Row) : ∃ record record',
      Record.dump? q.catalog db q.model r ps = some record ∧
      Record.dump? q.catalog db q.model r ps' = some record' ∧
      Record.ofRow q.catalog db q.model r { q with loaded := ps }.relationTree = record ∧
      Record.Describes q.catalog db q.model r (ps.map steps) record ∧
      Record.Same record record' := by
  have hleads := leads_of_accepts hps
  have hleads' := leads_of_accepts hps'
  have hparts : BeginAlike (ps.map partsOf) (ps'.map partsOf) := by
    intro names hnames
    rw [begin_map, begin_map]
    exact hsame names hnames
  exact ⟨_, _, Record.dump?_eq_some hleads db r, Record.dump?_eq_some hleads' db r, rfl,
    Record.describes_ofRow hleads db r,
    Record.same_ofRow hleads hleads' (beginAlike_steps hparts) db r⟩

/-! ### A ring

Two members who are the boss of each other. -/

def members : Table :=
  { name := "members", columns := [("id", .integer), ("boss_id", .integer)], key := ["id"] }

def member : Model where
  name := "Member"
  table := members
  relations := [
    { name := "boss", target := "Member", many := false, pairs := [("boss_id", "id")] },
    { name := "staff", target := "Member", many := true, pairs := [("id", "boss_id")] }]

def ring : Database := { tables := [(members, [
  [("id", .int 1), ("boss_id", .int 2)], [("id", .int 2), ("boss_id", .int 1)]])] }

/-- From either member the names lead on without end; the two lists of names give one record. -/
theorem records_agree_ring :
    ((∀ p ∈ ["boss.staff", "staff"], (ofModel { models := [member] } member).accepts p = true) ∧
      (∀ p ∈ ["staff", "boss", "boss.staff", "staff"],
        (ofModel { models := [member] } member).accepts p = true) ∧
      ∀ names, names ≠ [] → ((∃ p ∈ ["boss.staff", "staff"], names <+: partsOf p) ↔
        ∃ p ∈ ["staff", "boss", "boss.staff", "staff"], names <+: partsOf p)) ∧
    ∃ record record', Record.dump? { models := [member] } ring member
        [("id", .int 1), ("boss_id", .int 2)] ["boss.staff", "staff"] = some record ∧
      Record.dump? { models := [member] } ring member [("id", .int 1), ("boss_id", .int 2)]
        ["staff", "boss", "boss.staff", "staff"] = some record' ∧ Record.Same record record' := by
  have hps : ∀ p ∈ ["boss.staff", "staff"],
      (ofModel { models := [member] } member).accepts p = true := by decide
  have hps' : ∀ p ∈ ["staff", "boss", "boss.staff", "staff"],
      (ofModel { models := [member] } member).accepts p = true := by decide
  have hsame : ∀ names, names ≠ [] → ((∃ p ∈ ["boss.staff", "staff"], names <+: partsOf p) ↔
      ∃ p ∈ ["staff", "boss", "boss.staff", "staff"], names <+: partsOf p) := by
    have hboth : partsOf "boss.staff" = ["boss", "staff"] := by decide
    have hstaff : partsOf "staff" = ["staff"] := by decide
    have hboss : partsOf "boss" = ["boss"] := by decide
    have hless {names : List String} : names <+: ["boss"] → names <+: ["boss", "staff"] :=
      fun h => h.trans (List.prefix_append _ _)
    intro names _
    simp only [List.mem_cons, List.not_mem_nil, or_false, exists_eq_or_imp, exists_eq_left, hboth,
      hstaff, hboss]
    tauto
  obtain ⟨record, record', hrecord, hrecord', -, -, hrecords⟩ :=
    records_agree hps hps' hsame ring [("id", .int 1), ("boss_id", .int 2)]
  exact ⟨⟨hps, hps', hsame⟩, record, record', hrecord, hrecord', hrecords⟩

end Query
end Listing
