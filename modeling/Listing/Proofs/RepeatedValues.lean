import Listing.Proofs.Coercions
import Listing.Proofs.ListedConditions
import Listing.Proofs.Sql.Matching
import Listing.Sample.Heroes

set_option autoImplicit false

namespace Listing

open Outcome ListRequest Sql

namespace Sql

def Column.IsPlain (c : Column) : Prop := c.type.kind? = some .int ∨ c.type.kind? = some .text

def IsPlainOperand (v : Value) : Prop := v.kind = .int ∨ v.kind = .text

/-- A condition holds where the test that is bound for it is true. -/
def Condition.Holds (cond : Condition) (target : Target) (cell : Target → Cell) : Prop :=
  ∃ test, (Bind.converted cond >>= Test.ofCondition target) = .ok test ∧
    test.eval cell = some true

variable {c : Column} {v w : Value}

theorem operand_isPlain (hc : c.IsPlain) {s : String}
    (h : Strategy.operand c none (.text s) = .ok v) : IsPlainOperand v := by
  unfold Strategy.operand at h
  rcases hc with hkind | hkind
  · have hof : Coercion.ofText .int s = .ok v := by
      rw [Coercion.kindFor, hkind] at h
      exact h
    rcases Coercion.ofText_kind hof with rfl | hint
    · exact .inr rfl
    · exact .inl hint
  · have hof : Coercion.ofText .text s = .ok v := by
      rw [Coercion.kindFor, hkind] at h
      exact h
    cases hof
    exact .inr rfl

theorem convert_plain (hc : c.IsPlain) (hv : IsPlainOperand v) (w : Value) :
    Bind.convert (c.type.bindType v) w = .ok w := by
  unfold Column.IsPlain at hc
  generalize c.type = t at hc ⊢
  cases v with
  | int n => cases t <;> rfl
  | text u =>
    cases t with
    | integer | bigInteger | string | text | labels => rfl
    | _ => rcases hc with hkind | hkind <;> cases hkind
  | _ => rcases hv with hv | hv <;> cases hv

theorem ofComparison_plain (hv : IsPlainOperand v) (op : Comparison) (c : Column) :
    Condition.ofComparison op c v = .ok (.compare op c v) := by
  rcases hv with hv | hv
  · exact Coercion.isComparable_of_kind (hv ▸ nofun) (hv ▸ nofun) op c
  · exact Coercion.isComparable_of_kind (hv ▸ nofun) (hv ▸ nofun) op c

variable {target : Target} {cell : Target → Cell}

theorem holds_compare_iff (hc : c.IsPlain) (hv : IsPlainOperand v) {x : Cell}
    (hx : Bind.cell v = .ok x) : (Condition.compare .eq c v).Holds target cell ↔
      (Cell.compare? target.affinity .none (cell target) x).map Ordering.isEq = some true := by
  have htest : (Bind.converted (.compare .eq c v) >>= Test.ofCondition target) =
      .ok (.compare .eq target x) := by
    unfold Bind.converted
    dsimp only
    rw [convert_plain hc hv, ok_bind, ok_bind, Test.ofCondition, hx]
    rfl
  unfold Condition.Holds
  rw [htest]
  constructor
  · rintro ⟨test, hsame, heval⟩
    cases hsame
    exact heval
  · intro heval
    exact ⟨_, rfl, heval⟩

theorem holds_within_iff (hc : c.IsPlain) {items : List Value} (hne : items ≠ [])
    (hitems : ∀ v ∈ items, IsPlainOperand v ∧ ∃ x, Bind.cell v = .ok x) :
    (Condition.within c items).Holds target cell ↔
      ∃ v ∈ items, (Condition.compare .eq c v).Holds target cell := by
  obtain ⟨xs, hxs⟩ := exists_mapM_ok fun v hv => (hitems v hv).2
  have hconverted : Bind.converted (.within c items) = .ok (.within c items) := by
    -- All items are bound under the type that the first one is bound under.
    obtain ⟨first, others, rfl⟩ := List.exists_cons_of_ne_nil hne
    have hfirst := (hitems first List.mem_cons_self).1
    have hall : (first :: others).mapM (Bind.convert (c.type.bindType first)) =
        .ok (first :: others) := by
      rw [mapM_eq_ok_iff]
      exact List.map_congr_left fun v _ => convert_plain hc hfirst v
    unfold Bind.converted
    dsimp only
    rw [hall]
    rfl
  have htest : (Bind.converted (.within c items) >>= Test.ofCondition target) =
      .ok (.within target xs) := by
    rw [hconverted, ok_bind, Test.ofCondition, hxs]
    rfl
  constructor
  · rintro ⟨test, hsame, heval⟩
    rw [htest] at hsame
    cases hsame
    obtain ⟨x, hx, heq⟩ := List.mem_map.1 (Truth.anyOf_eq_true_iff.1 heval)
    obtain ⟨v, hv, hcell⟩ := exists_of_mem_mapM hxs hx
    exact ⟨v, hv, (holds_compare_iff hc (hitems v hv).1 hcell).2 heq⟩
  · rintro ⟨v, hv, hholds⟩
    obtain ⟨x, hcell⟩ := (hitems v hv).2
    have heq := (holds_compare_iff hc (hitems v hv).1 hcell).1 hholds
    have hx : x ∈ xs := mem_of_mapM hxs hv hcell
    exact ⟨_, htest, Truth.anyOf_eq_true_iff.2 (List.mem_map.2 ⟨x, hx, heq⟩)⟩

end Sql

theorem Strategy.items_hold {c : Column} (hc : c.IsPlain) {vs : List String} (hne : vs ≠ [])
    (hbound : ∀ v ∈ vs, ∃ w x, operand c none (.text (Text.trimmed v)) = .ok w ∧
      Bind.cell w = .ok x) :
    ∃ ws, items c vs = .ok ws ∧ ∀ (target : Target) (cell : Target → Cell),
      (Condition.within c ws).Holds target cell ↔ ∃ v ∈ vs, ∃ w,
        operand c none (.text (Text.trimmed v)) = .ok w ∧
          (Condition.compare .eq c w).Holds target cell := by
  have hsome : ∀ v ∈ vs, ∃ w, operand c none (.text (Text.trimmed v)) = .ok w := by
    intro v hv
    obtain ⟨w, -, hw, -⟩ := hbound v hv
    exact ⟨w, hw⟩
  obtain ⟨ws, hws⟩ : ∃ ws, items c vs = .ok ws := exists_mapM_ok hsome
  have hnone : ws ≠ [] := by
    rintro rfl
    exact hne (List.length_eq_zero_iff.1 (mapM_length hws).symm)
  have hplain : ∀ w ∈ ws, IsPlainOperand w ∧ ∃ x, Bind.cell w = .ok x := by
    intro w hw
    obtain ⟨v, hv, hoperand⟩ := exists_of_mem_mapM hws hw
    obtain ⟨w', x, hw', hx⟩ := hbound v hv
    obtain rfl := Except.ok.inj (hw'.symm.trans hoperand)
    exact ⟨operand_isPlain hc hoperand, x, hx⟩
  refine ⟨ws, hws, fun target cell => (holds_within_iff hc hnone hplain).trans ?_⟩
  constructor
  · rintro ⟨w, hw, hholds⟩
    obtain ⟨v, hv, hoperand⟩ := exists_of_mem_mapM hws hw
    exact ⟨v, hv, w, hoperand, hholds⟩
  · rintro ⟨v, hv, w, hoperand, hholds⟩
    exact ⟨w, mem_of_mapM hws hv hoperand, hholds⟩

namespace Plan

variable {p : Policy} {r : ListRequest} {q : Query} {field name : String} {vs : List String}

/-- The conditions that the filters among the fields of a query make. What else is requested tells
if columns are qualified. -/
def compiled (p : Policy) (r : ListRequest) (q : Query) (fs : List (String × String)) :
    Outcome (List (List Condition)) :=
  q.groupsOf .builtin
    ((filtersOf (Params.ofFields fs)).flatMap (filterGroups (Query.receiver .builtin).knows p r))

theorem compiled_field {key : String} {us : List String} (hne : us ≠ []) {c : Contribution}
    (hc : contribution? (key, Params.grouped us) = some c) (p : Policy) (r : ListRequest)
    (q : Query) : compiled p r q (us.map (key, ·)) =
      q.groupsOf .builtin
        (filterGroups (Query.receiver .builtin).knows p r (c.field, c.onto none)) := by
  have hparams : Params.ofFields (us.map (key, ·)) = [(key, Params.grouped us)] :=
    Params.foldl_add_same rfl hne
  have hfilters : filtersOf [(key, Params.grouped us)] = [(c.field, c.onto none)] := by
    change addFilter [] (key, Params.grouped us) = _
    rw [addFilter_eq, hc]
    rfl
  unfold compiled
  rw [hparams, hfilters, List.flatMap_singleton]

theorem compiled_repeated (h : AreListed vs) (hkey : isFilterKey field = true)
    (hplain : operatorKey? field = none)
    (hname : Policy.columnOf? p.filterableFields field = some name) :
    compiled p r q (vs.map (field, ·)) =
      (fun items => [[.within (q.column ⟨name, isJoined p r⟩) items]]) <$>
        Strategy.items (q.column ⟨name, isJoined p r⟩) vs := by
  have hcontribution : contribution? (field, Params.grouped vs) =
      some ⟨field, none, Params.grouped vs⟩ := by
    rw [Params.grouped_of_several h.several]
    exact contribution?_listed h hkey hplain
  have hgroups := groupsOf_spelled (r := r) h (s := .plain) (Spelling.splitItems_texts vs) hname q
  rw [compiled_field h.ne_nil hcontribution]
  change q.groupsOf .builtin (filterGroups _ p r (field, Params.grouped vs)) = _
  rw [Params.grouped_of_several h.several]
  exact hgroups

theorem compiled_single (hkey : isFilterKey field = true) (hplain : operatorKey? field = none)
    {v : String} (hv : v ≠ "")
    (hname : Policy.columnOf? p.filterableFields field = some name)
    (hcolumn : (q.column ⟨name, isJoined p r⟩).IsPlain) :
    compiled p r q [(field, v)] =
      (fun w => [[.compare .eq (q.column ⟨name, isJoined p r⟩) w]]) <$>
        Strategy.operand (q.column ⟨name, isJoined p r⟩) none (.text v) := by
  have hcontribution : contribution? (field, Params.grouped [v]) =
      some ⟨field, none, .text v⟩ := by
    have hempty : (Value.text v).isEmpty = false := by simpa [Value.isEmpty] using hv
    exact contribution?_plain hkey hplain hempty
  have hcondition : Registry.builtin.condition (q.column ⟨name, isJoined p r⟩) (.text "eq")
      (.text v) none = (fun w => some (.compare .eq (q.column ⟨name, isJoined p r⟩) w)) <$>
        Strategy.operand (q.column ⟨name, isJoined p r⟩) none (.text v) := by
    change Strategy.comparing .eq _ (.text v) _ = _
    unfold Strategy.comparing
    rw [Strategy.operand_kindFor]
    cases hoperand : Strategy.operand (q.column ⟨name, isJoined p r⟩) none (.text v) with
    | error e => rfl
    | ok w =>
      rw [ok_bind, ofComparison_plain (operand_isPlain hcolumn hoperand)]
      rfl
  have hcompiled := compiled_field (List.cons_ne_nil v []) hcontribution p r q
  exact hcompiled.trans (groupsOf_term (o := .eq) rfl hname hcondition)

/-- A repeated field holds of a row if its column equals one of the values, each trimmed and
coerced. It holds if the field holds with one of the values alone, as long as trimming does not
change what they are coerced to. -/
theorem repeated_holds_iff (hkey : isFilterKey field = true) (hplain : operatorKey? field = none)
    (hname : Policy.columnOf? p.filterableFields field = some name)
    (hcolumn : (q.column ⟨name, isJoined p r⟩).IsPlain) (h : AreListed vs)
    (hbound : ∀ v ∈ vs, ∃ w x,
      Strategy.operand (q.column ⟨name, isJoined p r⟩) none (.text (Text.trimmed v)) = .ok w ∧
        Bind.cell w = .ok x) :
    ∃ cond, compiled p r q (vs.map (field, ·)) = .ok [[cond]] ∧
      ∀ (target : Target) (cell : Target → Cell),
        (cond.Holds target cell ↔ ∃ v ∈ vs, ∃ w,
          Strategy.operand (q.column ⟨name, isJoined p r⟩) none (.text (Text.trimmed v)) = .ok w ∧
            (Condition.compare .eq (q.column ⟨name, isJoined p r⟩) w).Holds target cell) ∧
        ((∀ v ∈ vs, Strategy.operand (q.column ⟨name, isJoined p r⟩) none (.text v) =
            Strategy.operand (q.column ⟨name, isJoined p r⟩) none (.text (Text.trimmed v))) →
          (cond.Holds target cell ↔ ∃ v ∈ vs, ∃ single,
            compiled p r q [(field, v)] = .ok [[single]] ∧ single.Holds target cell)) := by
  generalize hc : q.column ⟨name, isJoined p r⟩ = c at hcolumn hbound ⊢
  obtain ⟨ws, hws, hequals⟩ := Strategy.items_hold hcolumn h.ne_nil hbound
  have hrepeated : compiled p r q (vs.map (field, ·)) = .ok [[.within c ws]] := by
    rw [compiled_repeated h hkey hplain hname, hc, hws]
    rfl
  have hsingle : ∀ v ∈ vs, compiled p r q [(field, v)] =
      (fun w => [[.compare .eq c w]]) <$> Strategy.operand c none (.text v) := by
    intro v hv
    subst hc
    exact compiled_single hkey hplain (h.notEmpty v hv) hname hcolumn
  refine ⟨.within c ws, hrepeated, fun target cell =>
    ⟨hequals target cell, fun hstable => (hequals target cell).trans ?_⟩⟩
  constructor
  · rintro ⟨v, hv, w, hoperand, hholds⟩
    refine ⟨v, hv, _, ?_, hholds⟩
    rw [hsingle v hv, hstable v hv, hoperand]
    rfl
  · rintro ⟨v, hv, single, hcompiled, hholds⟩
    rw [hsingle v hv, hstable v hv] at hcompiled
    obtain ⟨w, hoperand, hsame⟩ := map_eq_ok_iff.1 hcompiled
    cases hsame
    exact ⟨v, hv, w, hoperand, hholds⟩

def onName : Policy where
  filterableFields := [("name", "name")]

def heroNames : Query :=
  Query.ofModel Sample.Heroes.catalog
    { name := "Hero", table := Sample.Heroes.heroes, relations := [] }

/-- The second of two names holds of its hero, together with the other and alone. -/
theorem repeated_holds_iff_alpha :
    let target : Target := .field "heroes" "name" .string
    ∃ cond, compiled onName {} heroNames (["Rusty-Man", "ALPHA"].map ("name", ·)) = .ok [[cond]] ∧
      cond.Holds target (fun _ => .text "ALPHA") ∧
      ∃ v ∈ ["Rusty-Man", "ALPHA"], ∃ single, compiled onName {} heroNames [("name", v)] =
        .ok [[single]] ∧ single.Holds target (fun _ => .text "ALPHA") := by
  intro target
  have hkey : isFilterKey "name" = true := by decide
  have hplain : operatorKey? "name" = none := by decide
  have hlisted : AreListed ["Rusty-Man", "ALPHA"] := ⟨by decide, by decide⟩
  have htrimmed : ∀ v ∈ ["Rusty-Man", "ALPHA"], Text.trimmed v = v := by decide
  obtain ⟨cond, hcompiled, hholds⟩ := repeated_holds_iff (p := onName) (r := {}) (q := heroNames)
    hkey hplain rfl (.inr rfl) hlisted fun v _ => ⟨_, _, rfl, rfl⟩
  obtain ⟨hequals, halone⟩ := hholds target fun _ => .text "ALPHA"
  have htrue : cond.Holds target fun _ => .text "ALPHA" := by
    refine hequals.2 ⟨"ALPHA", by simp, .text (Text.trimmed "ALPHA"), rfl, ?_⟩
    rw [htrimmed "ALPHA" (by simp)]
    exact ⟨_, rfl, by decide⟩
  exact ⟨cond, hcompiled, htrue, (halone fun v hv => by rw [htrimmed v hv]).1 htrue⟩

/-- A name with a blank behind it is found among others, as the blank is not, but not alone. -/
theorem repeated_blank_apart :
    let target : Target := .field "heroes" "name" .string
    (∃ cond, compiled onName {} heroNames (["Rusty-Man ", "ALPHA"].map ("name", ·)) = .ok [[cond]] ∧
      cond.Holds target (fun _ => .text "Rusty-Man")) ∧
    ∀ v ∈ ["Rusty-Man ", "ALPHA"], ∃ single, compiled onName {} heroNames [("name", v)] =
      .ok [[single]] ∧ ¬ single.Holds target (fun _ => .text "Rusty-Man") := by
  intro target
  have hkey : isFilterKey "name" = true := by decide
  have hplain : operatorKey? "name" = none := by decide
  have hlisted : AreListed ["Rusty-Man ", "ALPHA"] := ⟨by decide, by decide⟩
  have hname : Policy.columnOf? onName.filterableFields "name" = some "name" := rfl
  have hrepeated : compiled onName {} heroNames (["Rusty-Man ", "ALPHA"].map ("name", ·)) =
      .ok [[.within (.bare "name" .string) [.text "Rusty-Man", .text "ALPHA"]]] := by
    have htrimmed : Text.trimmed "Rusty-Man " = "Rusty-Man" ∧
        Text.trimmed "ALPHA" = "ALPHA" := by decide
    have hitems : Strategy.items (.bare "name" .string) ["Rusty-Man ", "ALPHA"] =
        .ok [.text (Text.trimmed "Rusty-Man "), .text (Text.trimmed "ALPHA")] := rfl
    rw [htrimmed.1, htrimmed.2] at hitems
    have hcolumn : heroNames.column ⟨"name", isJoined onName {}⟩ = .bare "name" .string := rfl
    rw [compiled_repeated hlisted hkey hplain hname, hcolumn, hitems]
    rfl
  have hsingle (v : String) (hv : v ≠ "") : compiled onName {} heroNames [("name", v)] =
      .ok [[.compare .eq (.bare "name" .string) (.text v)]] :=
    compiled_single (r := {}) (q := heroNames) hkey hplain hv hname (.inr rfl)
  constructor
  · exact ⟨_, hrepeated, _, rfl, by decide⟩
  · intro v hv
    refine ⟨_, hsingle v (hlisted.notEmpty v hv), ?_⟩
    rintro ⟨test, htest, heval⟩
    cases htest
    revert v
    decide

end Plan
end Listing
