import Listing.Proofs.Sql.Matching
import Listing.Proofs.Sql.Scopes

set_option autoImplicit false

/-!
# Statements with one aggregate more

An aggregate over another table changes neither which rows a statement selects nor their order, as
long as nothing else in the statement is called like it. It stands beside every row that is read.
-/

namespace Listing

open Outcome

/-! ## Rows with one entry more -/

/-- The second row is the first with one entry put in somewhere. -/
inductive Inserts {α : Type} (a : α) : List α → List α → Prop where
  | here (xs : List α) : Inserts a xs (a :: xs)
  | there (x : α) {xs ys : List α} (h : Inserts a xs ys) : Inserts a (x :: xs) (x :: ys)

namespace Inserts

variable {α β : Type} {a : α} {xs ys : List α}

theorem ne_nil (h : Inserts a xs ys) : ys ≠ [] := by
  cases h <;> exact List.cons_ne_nil _ _

theorem append_right (h : Inserts a xs ys) (zs : List α) : Inserts a (xs ++ zs) (ys ++ zs) := by
  induction h with
  | here xs => exact .here _
  | there x _ ih => exact .there x ih

theorem append_left (zs : List α) (h : Inserts a xs ys) : Inserts a (zs ++ xs) (zs ++ ys) := by
  induction zs with
  | nil => exact h
  | cons z zs ih => exact .there z ih

theorem concat (xs : List α) (a : α) : Inserts a xs (xs ++ [a]) := by
  have h := append_left xs (Inserts.here (a := a) [])
  rwa [List.append_nil] at h

theorem map (f : α → β) (h : Inserts a xs ys) : Inserts (f a) (xs.map f) (ys.map f) := by
  induction h with
  | here xs => exact .here _
  | there x _ ih => exact .there (f x) ih

theorem any_of_not {p : α → Bool} (h : Inserts a xs ys) (ha : p a = false) :
    ys.any p = xs.any p := by
  induction h with
  | here xs => rw [List.any_cons, ha, Bool.false_or]
  | there x _ ih => rw [List.any_cons, List.any_cons, ih]

theorem find?_of_not {p : α → Bool} (h : Inserts a xs ys) (ha : p a = false) :
    ys.find? p = xs.find? p := by
  induction h with
  | here xs => rw [List.find?_cons_of_neg (by rw [ha]; decide)]
  | there x _ ih => rw [List.find?_cons, List.find?_cons, ih]

theorem filter_of_not {p : α → Bool} (h : Inserts a xs ys) (ha : p a = false) :
    ys.filter p = xs.filter p := by
  induction h with
  | here xs => rw [List.filter_cons_of_neg (by rw [ha]; decide)]
  | there x _ ih => rw [List.filter_cons, List.filter_cons, ih]

theorem filter {p : α → Bool} (h : Inserts a xs ys) (ha : p a = true) :
    Inserts a (xs.filter p) (ys.filter p) := by
  induction h with
  | here xs =>
    rw [List.filter_cons_of_pos ha]
    exact .here _
  | there x _ ih =>
    rw [List.filter_cons, List.filter_cons]
    split_ifs
    · exact .there x ih
    · exact ih

theorem mapM {f : α → Outcome β} {b : β} (h : Inserts a xs ys) (ha : f a = .ok b) :
    Follows (Inserts b) (xs.mapM f) (ys.mapM f) := by
  induction h with
  | here xs =>
    intro zs hzs
    refine ⟨b :: zs, ?_, .here zs⟩
    rw [List.mapM_cons, ha, hzs]
    rfl
  | there x _ ih =>
    rw [List.mapM_cons, List.mapM_cons]
    exact Follows.after fun y _ => ih.bind fun _ _ hzs => Follows.ok (.there y hzs)

end Inserts

namespace Sql

/-! ## Names that are no labels -/

def Column.Speaks (label : String) : Column → Prop
  | .bare name _ => Scope.sameName label (Scope.spoken name) = true
  | _ => False

instance (label : String) : DecidablePred (Column.Speaks label)
  | .bare name _ =>
    inferInstanceAs (Decidable (Scope.sameName label (Scope.spoken name) = true))
  | .ofTable _ _ _ => isFalse id
  | .literal _ => isFalse id

def Column.IsIn (t : Table) : Column → Prop
  | .bare name _ => Scope.fieldsOf (Scope.spoken name) t ≠ []
  | _ => False

namespace Scope

variable {s : Scope} {label : String} {labels : List String} {t : Target}

theorem field_of_mem_fieldsIn {name : String} {ts : List Table} (h : t ∈ fieldsIn name ts) :
    ∃ table column type, t = .field table column type := by
  unfold fieldsIn at h
  split at h
  · split_ifs at h
    · exact ⟨_, _, _, List.mem_singleton.1 h⟩
    · cases h
  · obtain ⟨u, -, hfields⟩ := List.mem_flatMap.1 h
    obtain ⟨c, -, rfl⟩ := List.mem_map.1 hfields
    exact ⟨_, _, _, rfl⟩

theorem label?_insert {name : String} (h : Inserts label s.labels labels)
    (hname : sameName label name = false) : label? { s with labels } name = s.label? name := by
  unfold label?
  rw [h.find?_of_not hname]

/-- What a name stands for does not depend on a label, unless it is called like it and no table has
a column of this name. -/
theorem column_insert {c : Column} (h : Inserts label s.labels labels)
    (hc : c.Speaks label → ∃ t ∈ s.tables, c.IsIn t) :
    column { s with labels } c = s.column c := by
  cases c with
  | bare name type =>
    change bare { s with labels } name = s.bare name
    unfold bare
    dsimp only
    by_cases hname : sameName label (spoken name) = true
    · obtain ⟨t, ht, hin⟩ := hc hname
      obtain ⟨field, hfield⟩ := List.exists_mem_of_ne_nil _ hin
      cases hfields : fieldsIn (spoken name) s.tables with
      | nil =>
        have hmem := mem_fieldsIn ht hfield
        rw [hfields] at hmem
        cases hmem
      | cons field fields => cases fields <;> rfl
    · rw [label?_insert h (Bool.eq_false_iff.2 hname)]
  | _ => rfl

def found (s : Scope) (c : Condition) : Outcome (Condition × Target) := do
  .ok (c, ← s.column c.column)

theorem found_insert {c : Condition} (h : Inserts label s.labels labels)
    (hc : c.column.Speaks label → ∃ t ∈ s.tables, c.column.IsIn t) :
    found { s with labels } c = s.found c := by
  unfold found
  rw [column_insert h hc]

theorem orderColumn_insert {c : Column} (h : Inserts label s.labels labels)
    (hc : ¬ c.Speaks label) : orderColumn { s with labels } c = s.orderColumn c := by
  have hcolumn := column_insert h fun hspeaks => absurd hspeaks hc
  cases c with
  | bare name type =>
    have hname : sameName label (spoken name) = false := Bool.eq_false_iff.2 hc
    have hbare : bare { s with labels } name = s.bare name := hcolumn
    unfold orderColumn
    dsimp only
    rw [label?_insert h hname, hbare]
  | _ => exact hcolumn

/-! ### Aggregates are found by their labels -/

theorem label_of_label? {name : String} (h : s.label? name = some (.aggregate label)) :
    label ∈ s.labels := by
  unfold label? at h
  split at h
  · rename_i found hfound
    cases h
    exact List.mem_of_find?_eq_some hfound
  · split_ifs at h
    cases h

theorem qualified_field {table name : String} (h : s.qualified table name = .ok t) :
    ∃ table column type, t = .field table column type := by
  unfold qualified at h
  split at h
  · rename_i hone
    cases h
    exact field_of_mem_fieldsIn (hone ▸ List.mem_cons_self)
  · cases h

theorem label_of_bare {name : String} (h : s.bare name = .ok (.aggregate label)) :
    label ∈ s.labels := by
  unfold bare at h
  dsimp only at h
  split at h
  · rename_i hone
    cases h
    obtain ⟨_, _, _, hfield⟩ := field_of_mem_fieldsIn (hone ▸ List.mem_cons_self)
    cases hfield
  · split at h
    · rename_i hlabel
      cases h
      exact label_of_label? hlabel
    · split_ifs at h
      · cases h
      · cases h
  · cases h

theorem label_of_column {c : Column} (h : s.column c = .ok (.aggregate label)) :
    label ∈ s.labels := by
  cases c with
  | ofTable table name type =>
    obtain ⟨_, _, _, hfield⟩ := qualified_field h
    cases hfield
  | bare name type => exact label_of_bare h
  | literal sql =>
    have hliteral : s.literal sql = .ok (.aggregate label) := h
    unfold literal at hliteral
    split at hliteral
    · split_ifs at hliteral
      · cases hliteral
      · obtain ⟨_, _, _, hfield⟩ := qualified_field hliteral
        cases hfield
    · cases hliteral

theorem label_of_orderColumn {c : Column} (h : s.orderColumn c = .ok (.aggregate label)) :
    label ∈ s.labels := by
  cases c with
  | bare name type =>
    unfold orderColumn at h
    dsimp only at h
    split at h
    · rename_i hlabel
      cases h
      exact label_of_label? hlabel
    · exact label_of_bare h
  | ofTable table name type =>
    have hcolumn : s.column (.ofTable table name type) = .ok (.aggregate label) := h
    exact label_of_column hcolumn
  | literal sql =>
    have hcolumn : s.column (.literal sql) = .ok (.aggregate label) := h
    exact label_of_column hcolumn

end Scope

/-! ## Wider statements -/

/-- A statement can have an aggregate more: one over another table, whose label is that of no other
aggregate and the name of no order. In a condition it may only be the name of a column. -/
structure Statement.Admits (db : Database) (s : Statement) (a : Aggregate) : Prop where
  other : a.isOwn s.base = false
  fresh : a.label ∉ s.aggregates.map (·.label)
  conditions : ∀ g ∈ s.groups, ∀ c ∈ g, c.column.Speaks a.label →
    db.Holds s.base ∧ c.column.IsIn s.base
  orders : ∀ o ∈ s.orders, ¬ o.column.Speaks a.label

def Statement.withAggregates (s : Statement) (as : List Aggregate) : Statement :=
  { s with aggregates := as }

namespace Statement

variable {db : Database} {s : Statement} {a : Aggregate} {as : List Aggregate}

theorem Admits.unordered (h : s.Admits db a) : Admits db { s with orders := [] } a :=
  ⟨h.other, h.fresh, h.conditions, List.forall_mem_nil _⟩

theorem Admits.not_collapses (h : s.Admits db a) : a.collapses s.base = false := by
  unfold Aggregate.collapses
  rw [h.other, Bool.false_and]

def Knows (s : Statement) (t : Target) : Prop :=
  ∀ label, t = .aggregate label → label ∈ s.aggregates.map (·.label)

theorem prepare_knows {counted : Bool} {limits : List ℤ} {p : Prepared}
    (h : s.prepare db counted limits = .ok p) :
    (∀ g ∈ p.groups, ∀ t ∈ g, s.Knows t.target) ∧ ∀ o ∈ p.orders, s.Knows o.1 := by
  unfold prepare at h
  obtain ⟨⟨base, joined, extra, joins, groups⟩, hresolve, h⟩ := bind_eq_ok_iff.1 h
  obtain ⟨orders, horders, h⟩ := bind_eq_ok_iff.1 h
  have hone : (counted && s.collapses) = false := by
    rw [← Bool.not_eq_true]
    intro hc
    rw [if_pos hc] at h
    cases h
  rw [hone, if_neg Bool.false_ne_true] at h
  obtain ⟨tests, htests, h⟩ := bind_eq_ok_iff.1 h
  obtain ⟨limits, -, h⟩ := bind_eq_ok_iff.1 h
  cases h
  constructor
  · intro g hg t ht label hlabel
    obtain ⟨-, hgroups⟩ := resolve_tests_iff.1 ⟨groups, hresolve, htests⟩
    obtain ⟨cs, -, hcs⟩ := exists_of_mem_mapM hgroups hg
    obtain ⟨c, -, hc⟩ := exists_of_mem_mapM hcs ht
    have hcolumn := testOf_target hc
    rw [hlabel] at hcolumn
    exact Scope.label_of_column hcolumn
  · rintro ⟨t, order, nulls⟩ ho label hlabel
    obtain ⟨o, -, ho⟩ := exists_of_mem_mapM horders ho
    obtain ⟨t', ht', ho⟩ := bind_eq_ok_iff.1 ho
    cases ho
    dsimp only at hlabel
    rw [hlabel] at ht'
    exact Scope.label_of_orderColumn ht'

section

variable (h : s.Admits db a) (has : Inserts a s.aggregates as)
include h has

theorem collapses_withAggregates : (s.withAggregates as).collapses = s.collapses := by
  exact has.any_of_not h.not_collapses

omit h has in
theorem qualified_withAggregates (tables : List Table) :
    ((s.withAggregates as).scope tables).qualified = (s.scope tables).qualified := by
  funext table name
  unfold Scope.qualified Scope.tablesNamed
  rfl

omit h has in
theorem foundJoins_withAggregates (tables joined : List Table) :
    (s.withAggregates as).foundJoins ((s.withAggregates as).scope tables) joined =
      s.foundJoins (s.scope tables) joined := by
  unfold foundJoins
  rw [qualified_withAggregates]
  rfl

theorem resolve_withAggregates : (s.withAggregates as).resolve db = s.resolve db := by
  unfold resolve
  refine bind_congr_of_ok fun groups hgroups => ?_
  refine bind_congr_of_ok fun base hbase => bind_congr_of_ok fun joined _ => ?_
  refine bind_congr_of_ok fun extra _ => ?_
  dsimp only
  rw [qualified_withAggregates, foundJoins_withAggregates]
  refine bind_congr_of_ok fun _ _ => bind_congr_of_ok fun joins _ => ?_
  have hfound : groups.mapM (·.mapM ((s.withAggregates as).scope (base :: joined ++ extra)).found) =
      groups.mapM (·.mapM (s.scope (base :: joined ++ extra)).found) := by
    refine mapM_congr fun g hg => mapM_congr fun c hc => ?_
    obtain ⟨g', hg', hconverted⟩ := exists_of_mem_mapM hgroups hg
    obtain ⟨c', hc', hconverted⟩ := exists_of_mem_mapM hconverted hc
    refine Scope.found_insert (s := s.scope (base :: joined ++ extra)) (has.map (·.label)) ?_
    rw [converted_column hconverted]
    intro hspeaks
    obtain ⟨hdb, hin⟩ := h.conditions g' hg' c' hc' hspeaks
    obtain rfl : s.base = base := Except.ok.inj (hdb.symm.trans hbase)
    exact ⟨s.base, List.mem_cons_self, hin⟩
  exact congrArg (· >>= fun groups => .ok (Resolved.mk base joined extra joins groups)) hfound

theorem foundOrders_withAggregates (tables : List Table) (counted : Bool) :
    (s.withAggregates as).foundOrders tables counted = s.foundOrders tables counted := by
  refine mapM_congr fun o ho => ?_
  have hcolumn := Scope.orderColumn_insert (s := { s.scope tables with counted })
    (has.map (·.label)) (h.orders o ho)
  exact congrArg (· >>= fun t => .ok (t, o.order, o.nulls)) hcolumn

theorem prepare_withAggregates (counted : Bool) (limits : List ℤ) :
    (s.withAggregates as).prepare db counted limits = s.prepare db counted limits := by
  have hwants (base : String) : (s.withAggregates as).wants base = s.wants base := by
    funext orders
    unfold wants
    rw [collapses_withAggregates h has]
  unfold prepare
  rw [resolve_withAggregates h has, collapses_withAggregates h has]
  refine bind_congr_of_ok fun r _ => ?_
  rw [foundOrders_withAggregates h has, hwants]

theorem targetCell_withAggregates {t : Target} (ht : s.Knows t) (b : Binding) :
    (s.withAggregates as).targetCell db b t = s.targetCell db b t := by
  cases t with
  | aggregate label =>
    have hlabel : (a.label == label) = false := by
      rw [beq_eq_false_iff_ne]
      rintro rfl
      exact h.fresh (ht _ rfl)
    have hfind := has.find?_of_not (p := (·.label == label)) hlabel
    unfold targetCell withAggregates
    dsimp only
    rw [hfind]
  | _ => rfl

variable {counted : Bool} {limits : List ℤ} {p : Prepared}

theorem checkPatterns_withAggregates (hp : s.prepare db counted limits = .ok p) :
    (s.withAggregates as).checkPatterns db p = s.checkPatterns db p := by
  have hfails (b : Binding) : Test.fails ((s.withAggregates as).targetCell db b) p.groups =
      Test.fails (s.targetCell db b) p.groups :=
    Test.fails_congr fun g hg t ht =>
      targetCell_withAggregates h has ((prepare_knows hp).1 g hg t ht) b
  unfold checkPatterns
  simp only [hfails]
  rfl

theorem selected_withAggregates (hp : s.prepare db counted limits = .ok p) :
    (s.withAggregates as).selected db p = s.selected db p := by
  refine List.filter_congr fun b _ => ?_
  exact Test.allHold_congr fun g hg t ht =>
    targetCell_withAggregates h has ((prepare_knows hp).1 g hg t ht) b

theorem total_withAggregates (hp : s.prepare db counted limits = .ok p) :
    (s.withAggregates as).total db p = s.total db p := by
  unfold total
  rw [collapses_withAggregates h has, selected_withAggregates h has hp]

theorem read_withAggregates (hp : s.prepare db counted limits = .ok p) :
    (s.withAggregates as).read db p = s.read db p := by
  unfold read
  rw [selected_withAggregates h has hp]

omit h has in
theorem orderBindings_congr {cell cell' : Binding → Target → Cell}
    {orders : List (Target × SortOrder × Option NullsPosition)}
    (h : ∀ o ∈ orders, ∀ b, cell b o.1 = cell' b o.1) (b b' : Binding) :
    orderBindings cell orders b b' = orderBindings cell' orders b b' := by
  induction orders with
  | nil => rfl
  | cons o orders ih =>
    have hfirst := h o List.mem_cons_self
    have hrest := ih fun o' ho' => h o' (List.mem_cons_of_mem _ ho')
    unfold orderBindings
    rw [hfirst b, hfirst b', hrest]

theorem ordered_withAggregates (hp : s.prepare db counted limits = .ok p) :
    (s.withAggregates as).ordered db p = s.ordered db p := by
  have horder (b b' : Binding) : orderBindings ((s.withAggregates as).targetCell db) p.orders b b' =
      orderBindings (s.targetCell db) p.orders b b' :=
    orderBindings_congr
      (fun o ho b => targetCell_withAggregates h has ((prepare_knows hp).2 o ho) b) b b'
  unfold ordered
  simp only [read_withAggregates h has hp, horder]

theorem count_withAggregates : (s.withAggregates as).count db = s.count db := by
  have hunordered := h.unordered
  have hprepare := prepare_withAggregates hunordered has false []
  unfold count
  change prepare db (withAggregates { s with orders := [] } as) false [] >>= _ = _
  rw [hprepare]
  refine bind_congr_of_ok fun p hp => ?_
  have hpatterns := checkPatterns_withAggregates hunordered has hp
  have htotal := total_withAggregates hunordered has hp
  change checkPatterns db (withAggregates { s with orders := [] } as) p >>= _ = _
  rw [hpatterns]
  exact congrArg (s.checkPatterns db p >>= ·) (funext fun _ => congrArg Except.ok htotal)

end

end Statement

/-! ## Values beside a row -/

def Aggregate.Gives (db : Database) (base : Table) (a : Aggregate) (value : Row → Value) : Prop :=
  ∀ r, r = [] ∨ r ∈ db.rows base.name →
    ∃ c, a.cellFor? db base r = some c ∧ a.toValue c = .ok (value r)

def Fetched.Widens (a : Aggregate) (value : Row → Value) (f f' : Fetched) : Prop :=
  f'.row = f.row ∧ ∃ c, a.toValue c = .ok (value (f.row.getD [])) ∧ Inserts (a, c) f.cells f'.cells

def Result.Widens (label : String) (value : Row → Value) (r r' : Result) : Prop :=
  r'.row = r.row ∧ Inserts (label, value (r.row.getD [])) r.aggregates r'.aggregates

theorem Fetched.Widens.result {a : Aggregate} {value : Row → Value} {f f' : Fetched}
    (h : f.Widens a value f') : Follows (Result.Widens a.label value) f.result f'.result := by
  obtain ⟨hrow, c, hc, hcells⟩ := h
  have hone : (do .ok (a.label, ← a.toValue c) : Outcome (String × Value)) =
      .ok (a.label, value (f.row.getD [])) := by
    rw [hc]
    rfl
  unfold Fetched.result
  exact (hcells.mapM hone).bind fun aggregates aggregates' h => Follows.ok ⟨hrow, h⟩

theorem forall₂_slice {α β : Type} {R : α → β → Prop} {xs : List α} {ys : List β}
    (h : List.Forall₂ R xs ys) (limit offset : ℤ) :
    List.Forall₂ R (Statement.slice limit offset xs) (Statement.slice limit offset ys) := by
  unfold Statement.slice
  have hdrop := List.forall₂_drop offset.toNat h
  split_ifs
  · exact hdrop
  · exact List.forall₂_take limit.toNat hdrop

namespace Statement

variable {db : Database} {s : Statement} {a : Aggregate} {as : List Aggregate}
  {value : Row → Value} (h : s.Admits db a) (has : Inserts a s.aggregates as)
  (hvalue : a.Gives db s.base value)
include h has hvalue

omit h in
theorem fetched_follows {b : Binding} (hb : b.row s.base.name ∈ db.rows s.base.name) :
    Follows (Fetched.Widens a value) (s.fetched db b) ((s.withAggregates as).fetched db b) := by
  obtain ⟨c, hc, hv⟩ := hvalue _ (.inr hb)
  unfold fetched
  refine (has.mapM (b := (a, c)) ?_).bind fun cells cells' hcells => Follows.ok ⟨rfl, c, hv, hcells⟩
  rw [hc]

theorem collapsed_follows {rows : List Row} (hrows : ∀ r ∈ rows, r ∈ db.rows s.base.name) :
    Follows (Fetched.Widens a value) (s.collapsed db rows)
      ((s.withAggregates as).collapsed db rows) := by
  have hremaining : (s.withAggregates as).remaining? rows = s.remaining? rows := by
    have hextremes : (a.collapses s.base && (a.kind == .min || a.kind == .max)) = false := by
      rw [h.not_collapses, Bool.false_and]
    have hfilter := has.filter_of_not
      (p := fun a => a.collapses s.base && (a.kind == .min || a.kind == .max)) hextremes
    unfold remaining? withAggregates
    dsimp only
    rw [hfilter]
  obtain ⟨c, hc, hv⟩ := hvalue ((s.remaining? rows).getD []) (by
    cases hrow : s.remaining? rows with
    | none => exact .inl rfl
    | some r => exact .inr (hrows r (remaining_mem r hrow)))
  unfold collapsed
  dsimp only
  rw [hremaining]
  refine (has.mapM (b := (a, c)) ?_).bind fun cells cells' hcells =>
    Follows.ok ⟨rfl, c, hv, hcells⟩
  rw [if_neg (by exact Bool.eq_false_iff.1 h.not_collapses), hc]

theorem fetchedPart_follows {counted : Bool} {limits : List ℤ} {p : Prepared}
    (hp : s.prepare db counted limits = .ok p) (limit offset : ℤ) :
    Follows (List.Forall₂ (Fetched.Widens a value)) (s.fetchedPart db p limit offset)
      ((s.withAggregates as).fetchedPart db p limit offset) := by
  unfold fetchedPart
  rw [collapses_withAggregates h has, read_withAggregates h has hp,
    ordered_withAggregates h has hp]
  split_ifs
  · have hrows : ∀ r ∈ (s.read db p).map (·.row s.base.name), r ∈ db.rows s.base.name := by
      intro r hr
      obtain ⟨b, hb, rfl⟩ := List.mem_map.1 hr
      exact selected_stored ((read_perm p).mem_iff.1 hb)
    exact (collapsed_follows h has hvalue hrows).bind fun f f' hf =>
      Follows.ok (forall₂_slice (.cons hf .nil) limit offset)
  · exact Follows.mapM_self fun b hb =>
      fetched_follows has hvalue (selected_stored ((ordered_perm p).mem_iff.1 (slice_subset hb)))

/-- A page has the same rows, each with the value of the aggregate beside it. -/
theorem page_follows (counted : Bool) (limit offset : ℤ) :
    Follows (fun x x' => List.Forall₂ (Result.Widens a.label value) x.1 x'.1 ∧ x'.2 = x.2)
      (s.page db counted limit offset) ((s.withAggregates as).page db counted limit offset) := by
  unfold page
  rw [prepare_withAggregates h has]
  refine Follows.after fun p hp => ?_
  rw [checkPatterns_withAggregates h has hp, total_withAggregates h has hp]
  refine Follows.after fun _ _ => (fetchedPart_follows h has hvalue hp limit offset).bind ?_
  intro fs fs' hfs
  exact (Follows.mapM hfs fun f f' hf => hf.result).bind fun rs rs' hrs => Follows.ok ⟨hrs, rfl⟩

end Statement
end Sql
end Listing
