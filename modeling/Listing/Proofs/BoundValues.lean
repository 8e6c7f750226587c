import Listing.Proofs.Coercions
import Listing.Proofs.RequestShapes
import Listing.Proofs.Sql.Outlines
import Listing.Sample.Heroes

set_option autoImplicit false

namespace Listing

open List (Forall₂)
open Outcome Sql

namespace Strategy

open Coercion Condition

variable {c : Column} {v w : Value}

/-- One value, or two values that any column can be compared with and that are bound to a column
under the same conversions. -/
def Alike (t : ColumnType) (v w : Value) : Prop :=
  v = w ∨ (IsComparable v ∧ IsComparable w ∧ BoundAlike t v w)

theorem kind_ne_null {t : ColumnType} {k : Kind} (hk : t.kind? = some k) : k ≠ .null := by
  rintro rfl
  cases t <;> cases hk

theorem kind_ne_bool {t : ColumnType} {k : Kind} (ht : t ≠ .boolean) (hk : t.kind? = some k) :
    k ≠ .bool := by
  rintro rfl
  cases t with
  | boolean => exact ht rfl
  | _ => cases hk

theorem operand_eq (c : Column) (v : Value) :
    operand c c.type.kind? v = coerce c.type.kind? v := by
  unfold operand kindFor
  cases c.type.kind? <;> rfl

theorem operand_alike (hc : c.type ≠ .boolean) (h : v.SameOperand w) :
    WhenBoth (Alike c.type) (operand c c.type.kind? v) (operand c c.type.kind? w) := by
  cases h with
  | leaf h =>
    cases h with
    | refl => exact WhenBoth.refl (fun _ => .inl rfl) _
    | texts hs ht =>
      rw [operand_eq, operand_eq]
      cases hk : c.type.kind? with
      | none =>
        have hcomparable (s : String) : IsComparable (.text s) := isComparable_of_kind nofun nofun
        exact WhenBoth.ok (.inr ⟨hcomparable _, hcomparable _, boundAlike_text _ _ _⟩)
      | some k =>
        intro a b ha hb
        refine .inr ⟨?_, ?_, fun d => ?_⟩
        · exact ofText_comparable (kind_ne_null hk) (kind_ne_bool hc hk) ha
        · exact ofText_comparable (kind_ne_null hk) (kind_ne_bool hc hk) hb
        · rw [suffix_ofText hk hs ha, suffix_ofText hk ht hb]
  | list h =>
    have hcomparable (vs : List Value) : IsComparable (.list vs) := isComparable_of_kind nofun nofun
    rw [operand_eq, operand_eq]
    cases c.type.kind? <;>
      exact WhenBoth.ok (.inr ⟨hcomparable _, hcomparable _, boundAlike_list _ _ _⟩)

theorem comparing_sameForm (op : Comparison) (hc : c.type ≠ .boolean) (h : v.SameOperand w) :
    WhenBoth (Option.Rel SameForm) (comparing op c v c.type.kind?)
      (comparing op c w c.type.kind?) := by
  refine (operand_alike hc h).bind fun a b hab => ?_
  rcases hab with rfl | ⟨ha, hb, hbound⟩
  · exact WhenBoth.refl (option_rel_refl SameForm.refl) _
  · rw [ha, hb]
    exact WhenBoth.ok (.some (.compare op c hbound))

theorem within_sameForm (c : Column) (v w : Value) (k : Option Kind) :
    WhenBoth (Option.Rel SameForm) (within c v k) (within c w k) := by
  refine WhenBoth.bind (R := fun _ _ => True) (fun _ _ _ _ => trivial) fun vs ws _ => ?_
  exact WhenBoth.ok (.some (.within c vs ws))

theorem builtin_sameForm (o : FilterOperator) (hc : c.type ≠ .boolean) (h : v.SameOperand w) :
    WhenBoth (Option.Rel SameForm) (builtin o c v c.type.kind?) (builtin o c w c.type.kind?) := by
  cases o with
  | eq =>
    cases h with
    | leaf h =>
      cases h with
      | refl => exact WhenBoth.refl (option_rel_refl SameForm.refl) _
      | texts hs ht => exact comparing_sameForm .eq hc (.leaf (.texts hs ht))
    | list h => exact within_sameForm c _ _ _
  | ne => exact comparing_sameForm .ne hc h
  | gt => exact comparing_sameForm .gt hc h
  | gte => exact comparing_sameForm .ge hc h
  | lt => exact comparing_sameForm .lt hc h
  | lte => exact comparing_sameForm .le hc h
  | like => exact WhenBoth.ok (.some (.like c _ _))
  | within => exact within_sameForm c v w _

end Strategy

namespace Query

variable {q q' q₀ : Query}

theorem condition_sameForm {a b : Predicate} (h : a.SameShape q b) :
    WhenBoth (Option.Rel Condition.SameForm) (q.condition? .builtin a)
      (q.condition? .builtin b) := by
  cases h with
  | contains c s t asText => exact WhenBoth.ok (.some (.contains _ _ _ _))
  | compare c operator hc h =>
    unfold condition? Registry.condition
    dsimp only
    cases FilterOperator.ofValue? operator with
    | none => exact WhenBoth.ok .none
    | some o =>
      have hkind : Coercion.kindFor (q.column c).type none = (q.column c).type.kind? := rfl
      rw [Option.bind_some, Registry.strategy?_builtin, hkind]
      exact Strategy.builtin_sameForm o hc h

theorem conditions_sameForm {ps ps' : List Predicate} (h : Forall₂ (Predicate.SameShape q) ps ps') :
    WhenBoth (Forall₂ Condition.SameForm) (q.conditions .builtin ps)
      (q.conditions .builtin ps') := by
  have hall := WhenBoth.mapM h fun _ _ hab => condition_sameForm hab
  exact hall.bind fun cs cs' hcs => WhenBoth.ok (List.rel_filterMap (fun _ _ hc => hc) hcs)

inductive Change.SameForm : Change → Change → Prop where
  | refl (d : Change) : SameForm d d
  | restrict {gs gs' : List (List Condition)} (h : Statement.SameGroups gs gs') :
      SameForm (.restrict gs) (.restrict gs')

theorem changeOf_sameForm {a b : Call} (h : a.SameShape q b) :
    WhenBoth Change.SameForm (q.changeOf .builtin a) (q.changeOf .builtin b) := by
  cases h with
  | refl => exact WhenBoth.refl Change.SameForm.refl _
  | whereAny h =>
    refine (conditions_sameForm h).map fun cs cs' hcs => .restrict ?_
    cases hcs with
    | nil => exact .nil
    | cons hab hs => exact .cons (.cons hab hs) .nil
  | whereAll h =>
    refine (conditions_sameForm h).map fun cs cs' hcs => .restrict ?_
    exact List.rel_map (fun _ _ hab => .cons hab .nil) hcs

structure SameForm (q₀ q q' : Query) : Prop where
  left : q.SharesModel q₀
  right : q'.SharesModel q₀
  statement : q.statement.SameForm q'.statement
  loaded : q.loaded = q'.loaded

theorem SharesModel.apply (h : q.SharesModel q₀) (d : Change) : (q.apply d).SharesModel q₀ := by
  have hshares := apply_sharesModel q d
  exact ⟨hshares.1.trans h.1, hshares.2.trans h.2⟩

theorem apply_statement (h : q.statement.SameForm q'.statement) {d d' : Change}
    (hd : Change.SameForm d d') : (q.apply d).statement.SameForm (q'.apply d').statement := by
  obtain ⟨groups, hgroups, hstatement⟩ := h
  cases hd with
  | refl =>
    cases d with
    | restrict gs =>
      refine ⟨groups ++ gs, List.rel_append hgroups ?_, ?_⟩
      · exact List.forall₂_same.2 fun _ _ => List.forall₂_same.2 fun a _ => .refl a
      · unfold apply restrict
        rw [hstatement]
    | _ =>
      refine ⟨groups, hgroups, ?_⟩
      unfold apply
      rw [hstatement]
  | restrict h =>
    refine ⟨groups ++ _, List.rel_append hgroups h, ?_⟩
    unfold apply restrict
    rw [hstatement]

theorem apply_loaded (h : q.loaded = q'.loaded) {d d' : Change} (hd : Change.SameForm d d') :
    (q.apply d).loaded = (q'.apply d').loaded := by
  cases hd with
  | refl =>
    cases d with
    | load loads paths => exact congrArg (· ++ paths) h
    | _ => exact h
  | restrict => exact h

/-- A step keeps handles of the same form. -/
theorem step_sameForm (h : SameForm q₀ q q') {a b : Call} (hab : a.SameShape q₀ b) :
    WhenBoth (SameForm q₀) (q.step .builtin a) (q'.step .builtin b) := by
  rw [step_eq, step_eq, changeOf_congr h.left, changeOf_congr h.right]
  refine (changeOf_sameForm hab).map fun d d' hd => ?_
  exact ⟨h.left.apply d, h.right.apply d', apply_statement h.statement hd, apply_loaded h.loaded hd⟩

theorem sameForm_refl (q : Query) : SameForm q q q where
  left := ⟨rfl, rfl⟩
  right := ⟨rfl, rfl⟩
  statement := ⟨q.statement.groups, List.forall₂_same.2 fun _ _ => List.forall₂_same.2 fun a _ =>
    .refl a, rfl⟩
  loaded := rfl

end Query

namespace Plan

open Query

variable {q q₁ q₂ : Query} {p : Policy} {r r' : ListRequest}

theorem build_sameForm (h : r.SameShape r') (hr : FiltersNoFlags q p r) :
    WhenBoth (SameForm q) (build (receiver .builtin) none p r q)
      (build (receiver .builtin) none p r' q) := by
  rw [build_none, build_none]
  refine WhenBoth.foldlM (calls_rel (receiver .builtin).knows h hr) ?_ (sameForm_refl q)
  exact fun s t hst a b hab => step_sameForm hst hab

/-- No value of a request reaches the text of a statement. -/
theorem values_stay_bound (h : r.SameShape r') (hr : FiltersNoFlags q p r)
    (h₁ : build (receiver .builtin) none p r q = .ok q₁)
    (h₂ : build (receiver .builtin) none p r' q = .ok q₂) (d : Dialect) :
    q₁.loaded = q₂.loaded ∧
    AgreeOn Written.outline (q₁.statement.written d) (q₂.statement.written d) ∧
    AgreeOn Written.outline (q₁.statement.countWritten d) (q₂.statement.countWritten d) ∧
    ∀ limit offset limit' offset',
      AgreeOn Written.outline (q₁.statement.pageWritten d limit offset)
        (q₂.statement.pageWritten d limit' offset') ∧
      AgreeOn Written.outline (q₁.statement.windowWritten d limit offset)
        (q₂.statement.windowWritten d limit' offset') := by
  obtain ⟨-, -, hform, hloaded⟩ := build_sameForm h hr q₁ q₂ h₁ h₂
  refine ⟨hloaded, hform.written d, hform.countWritten d, fun limit offset limit' offset' => ?_⟩
  exact ⟨hform.pageWritten d limit offset limit' offset',
    hform.windowWritten d limit offset limit' offset'⟩

def heroes : Model := { name := "Hero", table := Sample.Heroes.heroes, relations := [] }

def byName : Policy where
  searchFields := ["name"]
  columnFields := [("secret", "secret_name")]
  filterableFields := [("name", "name"), ("secret", "secret_name")]

def termRequest (term : String) : ListRequest where
  search := term
  columnSearch := [("secret", term)]
  filters := [("name", .map [(.text "ne", .text term), (.text "like", .text term)]),
    ("secret", .list [.text term])]

/-- A harmless term and one that would end the text it stood in. -/
theorem values_stay_bound_terms : ∃ q₁ q₂,
    build (receiver .builtin) none byName (termRequest "ann")
      (ofModel { models := [heroes] } heroes) = .ok q₁ ∧
    build (receiver .builtin) none byName (termRequest "' OR 1=1 --")
      (ofModel { models := [heroes] } heroes) = .ok q₂ ∧
    AgreeOn Written.outline (q₁.statement.written .sqlite) (q₂.statement.written .sqlite) := by
  have hleaf : Value.SameLeaf (.text "ann") (.text "' OR 1=1 --") :=
    .texts (by decide) (by decide)
  have hshape : (termRequest "ann").SameShape (termRequest "' OR 1=1 --") := by
    refine ⟨by decide, .cons ⟨rfl, by decide⟩ .nil, ?_, rfl, rfl, rfl⟩
    refine .cons ⟨rfl, .map ?_⟩ (.cons ⟨rfl, .operand (.list (.cons hleaf .nil))⟩ .nil)
    exact .cons ⟨rfl, .leaf hleaf⟩ (.cons ⟨rfl, .leaf hleaf⟩ .nil)
  have hflags : FiltersNoFlags (ofModel { models := [heroes] } heroes) byName
      (termRequest "ann") := by
    intro f hf name hname
    rcases List.mem_cons.1 hf with rfl | hf
    · cases hname
      exact nofun
    · rw [List.mem_singleton.1 hf] at hname
      cases hname
      exact nofun
  exact ⟨_, _, rfl, rfl, (values_stay_bound hshape hflags rfl rfl .sqlite).2.1⟩

end Plan
end Listing
