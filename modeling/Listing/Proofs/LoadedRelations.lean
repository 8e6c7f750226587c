import Listing.Proofs.DottedPaths

set_option autoImplicit false

namespace Listing

open Sql Paths

namespace Catalog

structure Reaches (c : Catalog) (m : Model) (name : String) (relation : Relation)
    (target : Model) : Prop where
  found : m.relation? name = some relation
  leads : c.targetOf? relation = some target

def IsRelation (c : Catalog) (m : Model) (name : String) : Prop :=
  ∃ relation target, c.Reaches m name relation target

variable {c : Catalog} {m target target' : Model} {name : String} {path path' rest : List String}
  {paths : List (List String)} {relation relation' : Relation}

theorem Reaches.unique (h : c.Reaches m name relation target)
    (h' : c.Reaches m name relation' target') : relation = relation' ∧ target = target' := by
  obtain rfl : relation = relation' := Option.some.inj (h.found.symm.trans h'.found)
  exact ⟨rfl, Option.some.inj (h.leads.symm.trans h'.leads)⟩

theorem follow?_of_reaches (h : c.Reaches m name relation target) :
    c.follow? m (name :: rest) = c.follow? target rest := by
  rw [follow?, h.found, Option.bind_eq_bind, Option.bind_some, h.leads, Option.bind_eq_bind,
    Option.bind_some]

theorem attributes?_of_reaches (h : c.Reaches m name relation target) :
    c.attributes? m (name :: rest) =
      (c.attributes? target rest).map (⟨m.name, name⟩ :: ·) := by
  rw [attributes?, h.found, Option.bind_eq_bind, Option.bind_some, h.leads,
    Option.bind_eq_bind, Option.bind_some]
  cases c.attributes? target rest <;> rfl

theorem isRelation_of_follow? (h : (c.follow? m (name :: rest)).isSome) :
    c.IsRelation m name := by
  obtain ⟨n, hn⟩ := Option.isSome_iff_exists.1 h
  simp only [follow?, Option.bind_eq_bind, Option.bind_eq_some_iff] at hn
  obtain ⟨relation, hrelation, target, htarget, -⟩ := hn
  exact ⟨relation, target, hrelation, htarget⟩

/-- A path is followed to its end if every part of it is a relation of the model that the parts
before it lead to. -/
theorem follow?_isSome_iff : (c.follow? m path).isSome ↔
    ∀ before part after, path = before ++ part :: after →
      ∃ n, c.follow? m before = some n ∧ c.IsRelation n part := by
  induction path generalizing m with
  | nil =>
    refine ⟨fun _ before part after h => ?_, fun _ => rfl⟩
    exact absurd h.symm (by simp)
  | cons name rest ih =>
    constructor
    · intro h before part after hpath
      have hname := isRelation_of_follow? h
      cases before with
      | nil =>
        obtain ⟨rfl, -⟩ := List.cons.inj hpath
        exact ⟨m, rfl, hname⟩
      | cons first before =>
        obtain ⟨rfl, htail⟩ := List.cons.inj hpath
        obtain ⟨relation, target, hreaches⟩ := hname
        rw [follow?_of_reaches hreaches] at h ⊢
        exact ih.1 h before part after htail
    · intro h
      obtain ⟨n, hn, relation, target, hreaches⟩ := h [] name rest rfl
      obtain rfl : m = n := Option.some.inj hn
      rw [follow?_of_reaches hreaches]
      refine ih.2 fun before part after hrest => ?_
      obtain ⟨n, hn, hpart⟩ := h (name :: before) part after (congrArg (name :: ·) hrest)
      exact ⟨n, (follow?_of_reaches hreaches).symm.trans hn, hpart⟩

theorem attributes?_isSome (c : Catalog) (m : Model) (path : List String) :
    (c.attributes? m path).isSome = (c.follow? m path).isSome := by
  induction path generalizing m with
  | nil => rfl
  | cons name rest ih =>
    simp only [attributes?, follow?, Option.bind_eq_bind]
    cases m.relation? name with
    | none => rfl
    | some relation =>
      rw [Option.bind_some, Option.bind_some]
      cases c.targetOf? relation with
      | none => rfl
      | some target =>
        rw [Option.bind_some, Option.bind_some, ← ih]
        cases c.attributes? target rest <;> rfl

theorem attributes?_relations {chain : List Attribute} (h : c.attributes? m path = some chain) :
    chain.map (·.relation) = path := by
  induction path generalizing m chain with
  | nil =>
    cases h
    rfl
  | cons name rest ih =>
    have hfollow := (attributes?_isSome c m _).symm.trans (Option.isSome_of_eq_some h)
    obtain ⟨relation, target, hreaches⟩ := isRelation_of_follow? hfollow
    rw [attributes?_of_reaches hreaches] at h
    obtain ⟨onward, honward, rfl⟩ := Option.map_eq_some_iff.1 h
    exact congrArg (name :: ·) (ih honward)

theorem follow?_isSome_of_isPrefix (hpath : path' <+: path) (h : (c.follow? m path).isSome) :
    (c.follow? m path').isSome := by
  obtain ⟨rest, rfl⟩ := hpath
  rw [follow?_append] at h
  exact Option.isSome_of_isSome_bind h

def Leads (c : Catalog) (m : Model) (paths : List (List String)) : Prop :=
  ∀ path ∈ paths, (c.follow? m path).isSome

theorem Leads.isRelation (h : c.Leads m paths) (hname : name ∈ heads paths) :
    c.IsRelation m name := by
  obtain ⟨rest, hrest⟩ := mem_heads.1 hname
  exact isRelation_of_follow? (h _ hrest)

theorem Leads.below (h : c.Leads m paths) (hreaches : c.Reaches m name relation target) :
    c.Leads target (below name paths) := by
  intro rest hrest
  rw [← follow?_of_reaches hreaches]
  exact h _ (mem_below.1 hrest).1

end Catalog

namespace Record

open RelationTree

/-- What stands in the field of a relation, given the records of related rows. -/
def fieldOf (relation : Relation) (rows : List Row) (dump : Row → List (String × Datum)) : Datum :=
  if relation.many then .records (rows.map dump)
  else match rows with
    | [] => .scalar .null
    | t :: _ => .record (dump t)

def fieldOf? (relation : Relation) (rows : List Row)
    (dump? : Row → Option (List (String × Datum))) : Option Datum :=
  if relation.many then .records <$> rows.mapM dump?
  else match rows with
    | [] => some (.scalar .null)
    | t :: _ => .record <$> dump? t

def withRelated? (c : Catalog) (db : Database) (m : Model) (r : Row)
    (dump? : Model → Row → Option (List (String × Datum))) (fields : List (String × Datum))
    (name : String) : Option (List (String × Datum)) := do
  let relation ← m.relation? name
  let target ← c.targetOf? relation
  let d ← fieldOf? relation (related db target.table relation r) (dump? target)
  some (Entries.insert fields name d)

/-- The record of a row along some dotted paths. At each row the paths are cut at their first dots
and grouped by the names before these, and there is no record if one of the names is none of a
relation. -/
def dump? (c : Catalog) (db : Database) (m : Model) (r : Row) (paths : List String) :
    Option (List (String × Datum)) :=
  (headsOf paths).attach.foldlM (fun fields name => withRelated? c db m r
      (fun target t => dump? c db target t (restsOf name.1 paths)) fields name.1)
    ((columns m.table r).map fun f => (f.1, .scalar f.2))
termination_by size (paths.map steps)
decreasing_by
  rw [← below_map_steps]
  refine size_below_lt ?_
  rw [heads_map_steps]
  exact name.2

variable {c : Catalog} {db : Database} {m target : Model} {r : Row} {relation : Relation}
  {name : String} {tree : RelationTree} {branches : List (String × RelationTree)}
  {fields : List (String × Datum)} {paths : List (List String)} {rows : List Row}

theorem fieldOf?_eq_some {dump : Row → List (String × Datum)}
    {dump? : Row → Option (List (String × Datum))} (h : ∀ t, dump? t = some (dump t)) :
    fieldOf? relation rows dump? = some (fieldOf relation rows dump) := by
  obtain rfl : dump? = fun t => some (dump t) := funext h
  unfold fieldOf? fieldOf
  split_ifs
  · have hall : rows.mapM (fun t => some (dump t)) = some (rows.map dump) := List.mapM_pure
    rw [hall]
    rfl
  · cases rows <;> rfl

theorem withRelated?_eq_some (hreaches : c.Reaches m name relation target)
    {dump : Row → List (String × Datum)}
    {dump? : Model → Row → Option (List (String × Datum))}
    (h : ∀ t, dump? target t = some (dump t)) :
    withRelated? c db m r dump? fields name =
      some (Entries.insert fields name
        (fieldOf relation (related db target.table relation r) dump)) := by
  simp only [withRelated?, hreaches.found, hreaches.leads, fieldOf?_eq_some h,
    Option.bind_eq_bind, Option.bind_some]

theorem withRelated?_eq_none (h : ¬ c.IsRelation m name)
    (dump? : Model → Row → Option (List (String × Datum))) (fields : List (String × Datum)) :
    withRelated? c db m r dump? fields name = none := by
  unfold withRelated?
  cases hrelation : m.relation? name with
  | none => rfl
  | some relation =>
    cases htarget : c.targetOf? relation with
    | none => rw [Option.bind_eq_bind, Option.bind_some, htarget]; rfl
    | some target => exact absurd ⟨relation, target, hrelation, htarget⟩ h

theorem dump?_eq_none {paths : List String} (hname : name ∈ headsOf paths)
    (h : ¬ c.IsRelation m name) (db : Database) (r : Row) : dump? c db m r paths = none := by
  rw [dump?]
  generalize ((columns m.table r).map fun f => (f.1, Datum.scalar f.2)) = fields
  have hmem : ⟨name, hname⟩ ∈ (headsOf paths).attach := List.mem_attach _ _
  generalize (headsOf paths).attach = names at hmem
  induction names generalizing fields with
  | nil => cases hmem
  | cons first names ih =>
    rw [List.foldlM_cons]
    rcases List.mem_cons.1 hmem with rfl | hmem
    · rw [withRelated?_eq_none h]
      rfl
    · cases withRelated? c db m r (fun target t => dump? c db target t (restsOf first.1 paths))
        fields first.1 with
      | none => rfl
      | some fields => exact ih fields hmem

theorem ofBranches_cons (hreaches : c.Reaches m name relation target) :
    ofBranches c db m r fields ((name, tree) :: branches) =
      ofBranches c db m r (Entries.insert fields name
        (fieldOf relation (related db target.table relation r) fun t => ofRow c db target t tree))
        branches := by
  rw [ofBranches, hreaches.found]
  dsimp only
  rw [hreaches.leads]
  rfl

/-- The record of a row with the relations of the tree of some paths: its columns, and then what
the first names of the paths lead to. -/
theorem ofRow_ofPaths : ofRow c db m r (ofPaths paths) =
    ofBranches c db m r ((columns m.table r).map fun f => (f.1, .scalar f.2))
      ((heads paths).map fun name => (name, ofPaths (below name paths))) := by
  rw [← branches_ofPaths]
  cases ofPaths paths with
  | node bs => rw [ofRow, RelationTree.branches]

/-- Paths that are followed to their ends lead to no name that is none of a relation: there is a
record along them, that of their tree. -/
theorem dump?_eq_some {paths : List String} (h : c.Leads m (paths.map steps)) (db : Database)
    (r : Row) : dump? c db m r paths = some (ofRow c db m r (ofPaths (paths.map steps))) := by
  induction hsize : size (paths.map steps) using Nat.strong_induction_on
    generalizing m r paths with
  | _ n ih =>
  subst hsize
  rw [dump?, ofRow_ofPaths, heads_map_steps]
  simp only [below_map_steps]
  -- The names that are left to be set, with the fields that are set already.
  suffices hnames : ∀ (names : List {name // name ∈ headsOf paths})
      (fields : List (String × Datum)),
      names.foldlM (fun fields name => withRelated? c db m r
          (fun target t => dump? c db target t (restsOf name.1 paths)) fields name.1) fields =
        some (ofBranches c db m r fields
          (names.unattach.map fun name => (name, ofPaths ((restsOf name paths).map steps)))) by
    rw [hnames, List.unattach_attach]
  intro names
  induction names with
  | nil =>
    intro fields
    rw [List.unattach_nil, List.map_nil, ofBranches]
    rfl
  | cons name names ihnames =>
    intro fields
    have hname : name.1 ∈ heads (paths.map steps) := by
      rw [heads_map_steps]
      exact name.2
    obtain ⟨relation, target, hreaches⟩ := h.isRelation hname
    have honward := h.below hreaches
    have hless := size_below_lt hname
    rw [below_map_steps] at honward hless
    have hrecords (t : Row) : dump? c db target t (restsOf name.1 paths) =
        some (ofRow c db target t (ofPaths ((restsOf name.1 paths).map steps))) :=
      ih _ hless honward t rfl
    rw [List.foldlM_cons, withRelated?_eq_some hreaches hrecords, Option.bind_eq_bind,
      Option.bind_some, ihnames, List.unattach_cons, List.map_cons,
      ofBranches_cons hreaches]

end Record

namespace Query

open RelationTree

variable {q : Query} {name : String} {names : List String}

theorem accepts_iff : q.accepts name = true ↔
    ∀ before part after, partsOf name = before ++ part :: after →
      ∃ n, q.catalog.follow? q.model before = some n ∧ q.catalog.IsRelation n part := by
  rw [← Catalog.follow?_isSome_iff, ← Catalog.attributes?_isSome]
  rfl

theorem leads_of_accepts (h : ∀ name ∈ names, q.accepts name = true) :
    q.catalog.Leads q.model (names.map steps) := by
  intro path hpath
  obtain ⟨name, hname, rfl⟩ := List.mem_map.1 hpath
  have hparts : (q.catalog.follow? q.model (partsOf name)).isSome :=
    (Catalog.attributes?_isSome _ _ _) ▸ h name hname
  exact Catalog.follow?_isSome_of_isPrefix (steps_trimmed name).isPrefix hparts

theorem filterMap_loader?_filter (q : Query) (names : List String) :
    (names.filter q.accepts).filterMap q.loader? = names.filterMap q.loader? := by
  rw [List.filterMap_filter]
  refine List.filterMap_congr fun name _ => ?_
  unfold accepts
  cases q.loader? name <;> rfl

def asking (c : Catalog) (m : Model) (s : Statement) (calls : List (List String)) : Query :=
  calls.foldl withRelations { catalog := c, model := m, statement := s }

theorem foldl_withRelations (q : Query) (calls : List (List String)) :
    calls.foldl withRelations q = { q with
      statement.loads := q.statement.loads ++ calls.flatten.filterMap q.loader?
      loaded := q.loaded ++ calls.flatten.filter q.accepts } := by
  induction calls generalizing q with
  | nil => simp
  | cons names calls ih =>
    rw [List.foldl_cons, ih, List.flatten_cons, List.filterMap_append, List.filter_append,
      ← List.append_assoc, ← List.append_assoc]
    rfl

theorem asking_eq (c : Catalog) (m : Model) (s : Statement) (calls : List (List String)) :
    asking c m s calls = { asking c m s [] with
      statement.loads := s.loads ++ calls.flatten.filterMap (asking c m s []).loader?
      loaded := calls.flatten.filter (asking c m s []).accepts } :=
  foldl_withRelations _ calls

/-- What calls that ask for relations do. A name is accepted if and only if each of its parts is a
relation of the model that the parts before it lead to. Each accepted name is loaded along its
parts, in the order of the names, and all else is as if the other names had not been given. Records
are dumped along the accepted names without meeting a name that is none of a relation, with which
there would be no record. -/
theorem relations_loaded (c : Catalog) (m : Model) (s : Statement) (calls : List (List String)) :
    (∀ name, (asking c m s []).accepts name = true ↔
      ∀ before part after, partsOf name = before ++ part :: after →
        ∃ n, c.follow? m before = some n ∧ c.IsRelation n part) ∧
    (∀ name, (asking c m s []).accepts name = true →
      ∃ chain, (asking c m s []).loader? name = some chain ∧
        chain.map (·.relation) = partsOf name) ∧
    asking c m s calls = { asking c m s [] with
      statement.loads := s.loads ++ calls.flatten.filterMap (asking c m s []).loader?
      loaded := calls.flatten.filter (asking c m s []).accepts } ∧
    asking c m s calls = asking c m s (calls.map (·.filter (asking c m s []).accepts)) ∧
    ∀ db r, Record.dump? c db m r (asking c m s calls).loaded =
        some (Record.ofRow c db m r (asking c m s calls).relationTree) ∧
      ∀ names, ∀ name ∈ names, ¬ c.IsRelation m (headOf name) →
        Record.dump? c db m r names = none := by
  refine ⟨fun name => accepts_iff, fun name hname => ?_, asking_eq c m s calls, ?_,
    fun db r => ?_⟩
  · obtain ⟨chain, hchain⟩ := Option.isSome_iff_exists.1 hname
    exact ⟨chain, hchain, Catalog.attributes?_relations hchain⟩
  · have hflatten : (calls.map (·.filter (asking c m s []).accepts)).flatten =
        calls.flatten.filter (asking c m s []).accepts := (List.filter_flatten).symm
    rw [asking_eq c m s calls, asking_eq c m s (calls.map _), hflatten, filterMap_loader?_filter,
      List.filter_filter]
    simp only [Bool.and_self]
  · have hleads : c.Leads m ((asking c m s calls).loaded.map steps) := by
      refine leads_of_accepts (q := asking c m s []) fun name hname => ?_
      rw [asking_eq] at hname
      exact (List.mem_filter.1 hname).2
    refine ⟨Record.dump?_eq_some hleads db r, fun names name hname hno => ?_⟩
    exact Record.dump?_eq_none (List.mem_eraseDups.2 (List.mem_map_of_mem hname)) hno db r

end Query
end Listing
