import Listing.Proofs.BuildFaults
import Listing.Proofs.PageRows
import Listing.Proofs.Restrictions
import Listing.Proofs.SortedRows
import Listing.Proofs.Sql.Matching
import Listing.Proofs.Sql.Parameters

set_option autoImplicit false

namespace Listing

open Outcome Sql

/-! ## Integers in values -/

namespace Value

inductive Carries (n : ℤ) : Value → Prop where
  | int : Carries n (.int n)
  | item {items : List Value} {v : Value} (hv : v ∈ items) (h : Carries n v) :
      Carries n (.list items)

variable {n : ℤ} {v : Value} {items : List Value}

theorem carries_list : Carries n (.list items) ↔ ∃ v ∈ items, Carries n v := by
  constructor
  · rintro (_ | ⟨hv, h⟩)
    exact ⟨_, hv, h⟩
  · rintro ⟨v, hv, h⟩
    exact .item hv h

theorem carries_of_kind (hlist : v.kind ≠ .list) : Carries n v ↔ v = .int n := by
  constructor
  · rintro (_ | _)
    · rfl
    · exact absurd rfl hlist
  · rintro rfl
    exact .int

end Value

/-! ## Integers that filters bind -/

namespace Coercion

variable {n : ℤ} {v : Value}

theorem ofText_carries {k : Kind} {s : String} (h : ofText k s = .ok v) :
    v.Carries n ↔ k = .int ∧ toInteger s = .ok (.int n) := by
  by_cases hlist : k = .list
  · subst hlist
    cases h
    refine iff_of_false ?_ (fun h => nomatch h.1)
    rw [Value.carries_list]
    rintro ⟨v, hv, hcarries⟩
    obtain ⟨c, -, rfl⟩ := List.mem_map.1 hv
    cases hcarries
  · have hkind : v.kind ≠ .list := by
      rcases ofText_kind h with rfl | rfl
      · exact nofun
      · exact hlist
    rw [Value.carries_of_kind hkind]
    constructor
    · rintro rfl
      rcases ofText_kind h with htext | rfl
      · cases htext
      · exact ⟨rfl, h⟩
    · rintro ⟨rfl, hinteger⟩
      exact Except.ok.inj (h.symm.trans hinteger)

def Gives (n : ℤ) (k : Option Kind) (s : String) : Prop :=
  k = some .int ∧ toInteger s = .ok (.int n)

theorem coerce_carries {k : Option Kind} {s : String} (h : coerce k (.text s) = .ok v) :
    v.Carries n ↔ Gives n k s := by
  cases k with
  | none =>
    cases h
    exact iff_of_false nofun (fun h => nomatch h.1)
  | some k =>
    rw [ofText_carries h]
    simp only [Gives, Option.some.injEq]

end Coercion

namespace Strategy

open Coercion

variable {n : ℤ} {c : Column} {cond : Condition}

theorem ofComparison_operands {op : Comparison} {v : Value}
    (h : Condition.ofComparison op c v = .ok cond) : cond.operands ⊆ [v] := by
  unfold Condition.ofComparison at h
  split at h
  · cases h
    exact List.nil_subset _
  · cases h
    exact List.nil_subset _
  · cases h
  · split_ifs at h
    · cases h
      exact List.Subset.refl _
    · split at h
      · cases h
        exact List.nil_subset _
      · cases h
        exact List.nil_subset _
      · cases h
  · cases h
    exact List.Subset.refl _

theorem ofComparison_carries {op : Comparison} {v : Value}
    (h : Condition.ofComparison op c v = .ok cond) :
    (∃ w ∈ cond.operands, w.Carries n) ↔ v.Carries n := by
  constructor
  · rintro ⟨w, hw, hcarries⟩
    rw [← List.mem_singleton.1 (ofComparison_operands h hw)]
    exact hcarries
  · intro hcarries
    have hcomparable : IsComparable v := by
      cases hcarries <;> exact isComparable_of_kind nofun nofun
    have hcond : cond = .compare op c v := Except.ok.inj (h.symm.trans (hcomparable op c))
    exact ⟨v, hcond ▸ List.mem_cons_self, hcarries⟩

theorem comparing_carries {op : Comparison} {k : Option Kind} {s : String}
    {found : Option Condition} (h : comparing op c (.text s) k = .ok found) :
    (∃ cond ∈ found, ∃ w ∈ cond.operands, w.Carries n) ↔ Gives n (kindFor c.type k) s := by
  obtain ⟨v, hv, h⟩ := bind_eq_ok_iff.1 h
  obtain ⟨cond, hcond, rfl⟩ := map_eq_ok_iff.1 h
  rw [← coerce_carries hv, ← ofComparison_carries hcond]
  simp only [Option.mem_some_iff, exists_eq_left']

theorem within_carries {k : Option Kind} {v : Value} {found : Option Condition}
    (h : within c v k = .ok found) : (∃ cond ∈ found, ∃ w ∈ cond.operands, w.Carries n) ↔
      ∃ s ∈ splitItems v, Gives n (kindFor c.type k) s := by
  obtain ⟨items, hitems, h⟩ := bind_eq_ok_iff.1 h
  cases h
  have hoperands : (∃ cond ∈ some (Condition.within c items), ∃ w ∈ cond.operands, w.Carries n) ↔
      ∃ w ∈ items, w.Carries n := by
    simp only [Option.mem_some_iff, exists_eq_left', Condition.operands, List.mem_singleton,
      exists_eq_left, Value.carries_list]
  rw [hoperands]
  constructor
  · rintro ⟨w, hw, hcarries⟩
    obtain ⟨s, hs, hcoerced⟩ := exists_of_mem_mapM hitems hw
    exact ⟨s, hs, (coerce_carries hcoerced).1 hcarries⟩
  · rintro ⟨s, hs, hgives⟩
    obtain ⟨w, hw, hcoerced⟩ := exists_ok_of_mapM hitems hs
    exact ⟨w, hw, (coerce_carries hcoerced).2 hgives⟩

/-- The condition of an operator binds the integers that the texts coerced by it become. -/
theorem builtin_carries {o : FilterOperator} {k : Option Kind} {v : Value} (hfits : Fits o v)
    {found : Option Condition} (h : builtin o c v k = .ok found) :
    (∃ cond ∈ found, ∃ w ∈ cond.operands, w.Carries n) ↔
      ∃ s ∈ coercedTexts o v, Gives n (kindFor c.type k) s := by
  have hone {op : Comparison} {s : String} (h : comparing op c (.text s) k = .ok found) :
      (∃ cond ∈ found, ∃ w ∈ cond.operands, w.Carries n) ↔
        ∃ t ∈ [s], Gives n (kindFor c.type k) t := by
    rw [comparing_carries h]
    simp only [List.mem_singleton, exists_eq_left]
  rcases hfits with ⟨s, rfl⟩ | ⟨rfl | rfl, items, rfl⟩
  · cases o with
    | like =>
      cases h
      refine iff_of_false ?_ (fun ⟨_, hs, _⟩ => nomatch hs)
      simp only [Option.mem_some_iff, exists_eq_left', Condition.operands, List.mem_singleton,
        exists_eq_left]
      exact nofun
    | within => exact within_carries h
    | eq => exact hone h
    | ne => exact hone h
    | gt => exact hone h
    | gte => exact hone h
    | lt => exact hone h
    | lte => exact hone h
  · exact within_carries h
  · exact within_carries h

end Strategy

namespace Query

open Coercion Strategy

variable {q : Query} {n : ℤ}

def Gives (q : Query) (n : ℤ) (e : String × String) : Prop :=
  Coercion.Gives n (q.column ⟨e.1, false⟩).type.kind? e.2

theorem condition_carries {pred : Predicate}
    (hfits : ∀ c operator operand, pred = .compare c operator operand →
      ∀ o, FilterOperator.ofValue? operator = some o → Fits o operand)
    {found : Option Condition} (h : q.condition? .builtin pred = .ok found) :
    (∃ cond ∈ found, ∃ w ∈ cond.operands, w.Carries n) ↔ ∃ e ∈ coercedIn pred, q.Gives n e := by
  cases pred with
  | contains c term asText =>
    cases h
    refine iff_of_false ?_ (fun ⟨_, he, _⟩ => nomatch he)
    simp only [Option.mem_some_iff, exists_eq_left', Condition.operands, List.mem_singleton,
      exists_eq_left]
    exact nofun
  | compare c operator operand =>
    unfold condition? Registry.condition at h
    unfold coercedIn
    dsimp only at h ⊢
    cases ho : FilterOperator.ofValue? operator with
    | none =>
      rw [ho] at h
      cases h
      exact iff_of_false (fun ⟨_, hcond, _⟩ => nomatch hcond) (fun ⟨_, he, _⟩ => nomatch he)
    | some o =>
      rw [ho, Option.bind_some, Registry.strategy?_builtin] at h
      have hkind : kindFor (q.column c).type (kindFor (q.column c).type none) =
          (q.column ⟨c.name, false⟩).type.kind? := by
        rw [column_type q c.name false c.qualified]
        unfold kindFor
        cases (q.column c).type.kind? <;> rfl
      rw [builtin_carries (hfits c operator operand rfl o ho) h, hkind]
      constructor
      · rintro ⟨s, hs, hgives⟩
        exact ⟨(c.name, s), List.mem_map_of_mem hs, hgives⟩
      · rintro ⟨e, he, hgives⟩
        obtain ⟨s, hs, rfl⟩ := List.mem_map.1 he
        exact ⟨s, hs, hgives⟩

theorem mem_groupsOf {R : Registry} {gs : List (List Predicate)} {groups : List (List Condition)}
    (h : q.groupsOf R gs = .ok groups) {cond : Condition} : (∃ g ∈ groups, cond ∈ g) ↔
      ∃ g ∈ gs, ∃ pred ∈ g, q.condition? R pred = .ok (some cond) := by
  obtain ⟨css, hcss, h⟩ := bind_eq_ok_iff.1 h
  cases h
  constructor
  · rintro ⟨g, hg, hcond⟩
    obtain ⟨ps, hps, hconditions⟩ := exists_of_mem_mapM hcss (List.mem_filter.1 hg).1
    obtain ⟨cs, hcs, hg'⟩ := bind_eq_ok_iff.1 hconditions
    cases hg'
    obtain ⟨found, hfound, hsome⟩ := List.mem_filterMap.1 hcond
    obtain ⟨pred, hpred, hcondition⟩ := exists_of_mem_mapM hcs hfound
    rw [id] at hsome
    exact ⟨ps, hps, pred, hpred, hsome ▸ hcondition⟩
  · rintro ⟨ps, hps, pred, hpred, hcondition⟩
    obtain ⟨g, hg, hconditions⟩ := exists_ok_of_mapM hcss hps
    obtain ⟨cs, hcs, hg'⟩ := bind_eq_ok_iff.1 hconditions
    have hmem : cond ∈ g := by
      rw [← Except.ok.inj hg']
      exact List.mem_filterMap.2 ⟨some cond, mem_of_mapM hcs hpred hcondition, rfl⟩
    have hne : (!g.isEmpty) = true := by
      rw [List.isEmpty_eq_false_iff.2 (List.ne_nil_of_mem hmem)]
      rfl
    exact ⟨g, List.mem_filter.2 ⟨hg, hne⟩, hmem⟩

end Query

namespace Plan

open Query Strategy

variable {p : Policy} {r : ListRequest} {c : ColumnRef} {operator operand : Value} {n : ℤ}

theorem filter_of_predicate {knows : Value → Bool} {g : List Predicate}
    (hg : g ∈ predicates knows p r) (hpred : .compare c operator operand ∈ g) :
    ∃ f ∈ r.filters, .compare c operator operand ∈ comparisons p r f := by
  rw [predicates_eq] at hg
  rcases List.mem_append.1 hg with hg | hfilter
  · rcases List.mem_append.1 hg with hsearch | hcolumn
    · rw [searchCalls_groups] at hsearch
      split_ifs at hsearch
      · cases hsearch
      · rw [List.mem_singleton.1 hsearch] at hpred
        obtain ⟨name, -, hcontains⟩ := List.mem_map.1 hpred
        cases hcontains
    · obtain ⟨e, -, hg⟩ := List.mem_flatMap.1 hcolumn
      unfold columnGroups at hg
      split at hg
      · cases hg
      · split_ifs at hg
        · cases hg
        · rw [List.mem_singleton.1 hg] at hpred
          cases List.mem_singleton.1 hpred
  · obtain ⟨f, hf, hg⟩ := List.mem_flatMap.1 hfilter
    obtain ⟨pred, hmem, rfl⟩ := List.mem_map.1 hg
    rw [List.mem_singleton.1 hpred]
    exact ⟨f, hf, (List.mem_filter.1 hmem).1⟩

theorem comparison_fits {f : String × Value} (hf : f.2.IsFilter)
    (h : .compare c operator operand ∈ comparisons p r f) {o : FilterOperator}
    (ho : FilterOperator.ofValue? operator = some o) : Fits o operand := by
  unfold comparisons at h
  split at h
  · cases h
  · obtain ⟨t, ht, hpred⟩ := List.mem_map.1 h
    cases hpred
    exact terms_fit hf ht ho

theorem mem_coerced {e : String × String} : e ∈ coerced p r ↔
    ∃ g ∈ predicates (receiver .builtin).knows p r, ∃ pred ∈ g, e ∈ coercedIn pred := by
  constructor
  · intro he
    obtain ⟨pred, hpred, he⟩ := List.mem_flatMap.1 he
    obtain ⟨f, hf, hmem⟩ := List.mem_flatMap.1 hpred
    refine ⟨[pred], ?_, pred, List.mem_cons_self, he⟩
    rw [predicates_eq]
    refine List.mem_append_right _ (List.mem_flatMap.2 ⟨f, hf, List.mem_map.2 ⟨pred, ?_, rfl⟩⟩)
    refine List.mem_filter.2 ⟨hmem, ?_⟩
    cases pred with
    | contains c term asText => rfl
    | compare c operator operand =>
      unfold coercedIn at he
      dsimp only at he
      cases ho : FilterOperator.ofValue? operator with
      | none =>
        rw [ho] at he
        cases he
      | some o =>
        change ((FilterOperator.ofValue? operator).bind Registry.builtin.strategy?).isSome = true
        rw [ho, Option.bind_some, Registry.strategy?_builtin]
        rfl
  · rintro ⟨g, hg, pred, hpred, he⟩
    cases pred with
    | contains c term asText => cases he
    | compare c operator operand =>
      obtain ⟨f, hf, hmem⟩ := filter_of_predicate hg hpred
      exact List.mem_flatMap.2 ⟨_, List.mem_flatMap.2 ⟨f, hf, hmem⟩, he⟩

/-- The conditions of a statement bind the integers that the texts of filters become, and no
others. -/
theorem operands_carry {catalog : Catalog} {m : Model} {q : Query}
    (hfilters : ∀ f ∈ r.filters, f.2.IsFilter)
    (hq : build (receiver .builtin) none p r (ofModel catalog m) = .ok q) :
    (∃ v ∈ q.statement.operands, v.Carries n) ↔
      ∃ e ∈ coerced p r, (ofModel catalog m).Gives n e := by
  obtain ⟨q₀, gs, orders, hq₀, hgs, rfl⟩ := exists_parts hq
  rw [groupsOf_congr (carryOut_sharesModel hq₀)] at hgs
  have hone {g : List Predicate} (hg : g ∈ predicates (receiver .builtin).knows p r)
      {pred : Predicate} (hpred : pred ∈ g) {found : Option Condition}
      (hfound : (ofModel catalog m).condition? .builtin pred = .ok found) :
      (∃ cond ∈ found, ∃ w ∈ cond.operands, w.Carries n) ↔
        ∃ e ∈ coercedIn pred, (ofModel catalog m).Gives n e := by
    refine condition_carries (fun c operator operand heq o ho => ?_) hfound
    subst heq
    obtain ⟨f, hf, hmem⟩ := filter_of_predicate hg hpred
    exact comparison_fits (hfilters f hf) hmem ho
  constructor
  · rintro ⟨v, hv, hcarries⟩
    obtain ⟨group, hgroup, hv⟩ := List.mem_flatMap.1 hv
    obtain ⟨cond, hcond, hv⟩ := List.mem_flatMap.1 hv
    obtain ⟨g, hg, pred, hpred, hfound⟩ := (mem_groupsOf hgs).1 ⟨group, hgroup, hcond⟩
    obtain ⟨e, he, hgives⟩ := (hone hg hpred hfound).1 ⟨cond, rfl, v, hv, hcarries⟩
    exact ⟨e, mem_coerced.2 ⟨g, hg, pred, hpred, he⟩, hgives⟩
  · rintro ⟨e, he, hgives⟩
    obtain ⟨g, hg, pred, hpred, he⟩ := mem_coerced.1 he
    obtain ⟨css, hcss, -⟩ := bind_eq_ok_iff.1 hgs
    obtain ⟨cs, -, hconditions⟩ := exists_ok_of_mapM hcss hg
    obtain ⟨founds, hfounds, -⟩ := bind_eq_ok_iff.1 hconditions
    obtain ⟨found, -, hfound⟩ := exists_ok_of_mapM hfounds hpred
    obtain ⟨cond, rfl, v, hv, hcarries⟩ := (hone hg hpred hfound).2 ⟨e, he, hgives⟩
    obtain ⟨group, hgroup, hcond⟩ := (mem_groupsOf hgs).2 ⟨g, hg, pred, hpred, hfound⟩
    exact ⟨v, List.mem_flatMap.2 ⟨group, hgroup, List.mem_flatMap.2 ⟨cond, hcond, hv⟩⟩, hcarries⟩

end Plan

/-! ## Runs of a page -/

namespace Paging

variable {α : Type} {s : Source α} {along : Bool} {size : Quantity} {limit number : ℤ} {run : Run}

def Source.failing (s : Source α) (run : Run) (e : Fault) : Source α where
  count := if run = .count then .error e else s.count
  rows limit offset := if run = .rows limit offset then .error e else s.rows limit offset
  counted limit offset := if run = .counted limit offset then .error e else s.counted limit offset

/-- A run that is made while a page is read: whatever fault it fails with is that of the page. -/
def Executes (s : Source α) (along : Bool) (size : Quantity) (number : ℤ) (run : Run) : Prop :=
  ∀ e, read (s.failing run e) along size number = .error e

theorem not_every_fault (x : Outcome α) : ¬ ∀ e, x = .error e := by
  intro h
  have hfault := h .divisionByZero
  rw [h .integerTooLarge] at hfault
  cases hfault

theorem Executes.cases (hsize : size.int? = some limit) (h : Executes s along size number run) :
    run = .count ∨
      (run = .counted limit (offset limit number) ∧ offset limit number ≤ maxOffset) ∨
      (run = .rows limit (offset limit number) ∧ ∃ n, s.count = .ok n ∧
        offset limit number < n) := by
  unfold Executes at h
  simp only [read_of_int? hsize] at h
  by_cases hnear : (along && decide (offset limit number ≤ maxOffset)) = true
  · simp only [if_pos hnear] at h
    have hoffset : offset limit number ≤ maxOffset :=
      of_decide_eq_true (Bool.and_eq_true_iff.1 hnear).2
    cases run with
    | count => exact .inl rfl
    | rows l o =>
      simp only [Source.failing, reduceCtorEq, if_false] at h
      exact absurd h (not_every_fault _)
    | counted l o =>
      by_cases hrun : Run.counted l o = .counted limit (offset limit number)
      · exact .inr (.inl ⟨hrun, hoffset⟩)
      · simp only [Source.failing, reduceCtorEq, if_false, if_neg hrun] at h
        exact absurd h (not_every_fault _)
  · simp only [if_neg hnear] at h
    cases run with
    | count => exact .inl rfl
    | counted l o =>
      simp only [Source.failing, reduceCtorEq, if_false] at h
      exact absurd h (not_every_fault _)
    | rows l o =>
      by_cases hrun : Run.rows l o = .rows limit (offset limit number)
      · refine .inr (.inr ⟨hrun, ?_⟩)
        cases hcount : s.count with
        | error e =>
          simp only [Source.failing, reduceCtorEq, if_false, hcount] at h
          exact absurd h (not_every_fault _)
        | ok n =>
          refine ⟨n, rfl, ?_⟩
          by_contra hpast
          simp only [Source.failing, reduceCtorEq, if_false, hcount, ok_bind,
            if_pos (not_lt.1 hpast)] at h
          exact (h .divisionByZero).elim
      · simp only [Source.failing, reduceCtorEq, if_false, if_neg hrun] at h
        exact absurd h (not_every_fault _)

theorem exists_executes (s : Source α) (along : Bool) (hsize : size.int? = some limit)
    (number : ℤ) : ∃ run, Executes s along size number run := by
  unfold Executes
  simp only [read_of_int? hsize]
  by_cases hnear : (along && decide (offset limit number ≤ maxOffset)) = true
  · refine ⟨.counted limit (offset limit number), fun e => ?_⟩
    simp only [if_pos hnear, Source.failing]
    rfl
  · refine ⟨.count, fun e => ?_⟩
    simp only [if_neg hnear, Source.failing]
    rfl

end Paging

/-! ## Keys of related rows -/

def Sql.Database.Stores (db : Database) : Prop :=
  ∀ t ∈ db.tables, ∀ r ∈ t.2, ∀ e ∈ r, ∀ n, e.2 = .int n → Word64.holds n = true

namespace Record

/-- The rows by whose cells related rows are looked up while a record is read: the row itself if a
relation is followed from it, and the same for the rows that it is related to. -/
inductive LooksFrom (c : Catalog) (db : Database) : Model → Row → RelationTree → Row → Prop where
  | here {m : Model} {r : Row} {branch : String × RelationTree}
      {branches : List (String × RelationTree)} :
      LooksFrom c db m r (.node (branch :: branches)) r
  | onward {m target : Model} {r t r' : Row} {name : String} {tree : RelationTree}
      {branches : List (String × RelationTree)} {relation : Relation}
      (hbranch : (name, tree) ∈ branches) (hrelation : m.relation? name = some relation)
      (htarget : c.targetOf? relation = some target)
      (ht : t ∈ related db target.table relation r) (h : LooksFrom c db target t tree r') :
      LooksFrom c db m r (.node branches) r'

variable {c : Catalog} {db : Database} {m : Model} {r r' : Row} {tree : RelationTree}

theorem related_stored {target : Table} {relation : Relation} {t : Row}
    (h : t ∈ related db target relation r) : t ∈ db.rows target.name := by
  unfold related at h
  dsimp only at h
  split at h
  · exact (List.mem_filter.1 h).1
  · exact (List.mem_filter.1 h).1

theorem LooksFrom.stored (h : LooksFrom c db m r tree r') :
    r' = r ∨ ∃ table, r' ∈ db.rows table := by
  induction h with
  | here => exact .inl rfl
  | onward _ _ _ ht _ ih =>
    rcases ih with rfl | hstored
    · exact .inr ⟨_, related_stored ht⟩
    · exact .inr hstored

end Record

namespace Sql.Database

variable {db : Database} {r : Row} {table column : String} {n : ℤ}

theorem Stores.cell (h : db.Stores) (hr : r ∈ db.rows table) (hn : r.cell column = .int n) :
    Word64.holds n = true := by
  unfold Database.rows at hr
  cases hfound : db.find? table with
  | none =>
    rw [hfound] at hr
    cases hr
  | some t =>
    rw [hfound] at hr
    unfold Row.cell at hn
    cases he : Entries.lookup? r column with
    | none =>
      rw [he] at hn
      cases hn
    | some cell =>
      rw [he] at hn
      obtain ⟨e, hmem, -, rfl⟩ := Entries.exists_mem_of_lookup? he
      exact h t (List.mem_of_find?_eq_some hfound) r hr e hmem n hn

end Sql.Database

/-! ## Answers -/

namespace Service

variable {s : Service} {session : Session} {db : Database} {r : ListRequest} {q : Query}

def Executes (s : Service) (session : Session) (db : Database) (r : ListRequest) (q : Query)
    (run : Run) : Prop :=
  Paging.Executes (q.source db) (session.countsAlong s.config.useWindowFunction).isTruthy
    (s.pageSize r) (s.page r) run

theorem page_within {least most first : ℤ} (hl : s.config.HasLimits least most first)
    (r : ListRequest) : 1 ≤ s.page r ∧ ∃ limit, (s.pageSize r).int? = some limit ∧
      1 ≤ limit ∧ limit ≤ most := by
  have hone := hl.one_le
  have hsorted := hl.sorted
  have hpos := hl.first_pos
  constructor
  · have hpage := Quantity.truncate_of_int? (hl.boundPage (q := .whole r.page) rfl)
    rw [Service.page, hpage, Option.getD_some]
    split_ifs <;> omega
  · refine ⟨_, hl.boundPerPage rfl, ?_, ?_⟩ <;> split_ifs <;> omega

/-- The limits of a run fit into 64 bits, unless rows are read from an offset beyond them of a
result that has even more rows. -/
theorem Executes.limits {least most first : ℤ} (hl : s.config.HasLimits least most first)
    (hmost : most ≤ Word64.greatest) {run : Run} (h : s.Executes session db r q run) :
    ∀ n ∈ run.limits, Word64.holds n = true ∨
      ∃ limit total, run = .rows limit n ∧ q.statement.count db = .ok total ∧ n < total := by
  obtain ⟨hpage, limit, hsize, hone, hle⟩ := page_within hl r
  have hlimit : Word64.holds limit = true := Word64.holds_of_le (by omega) (by omega)
  have hstart : 0 ≤ Paging.offset limit (s.page r) := Paging.offset_nonneg hone hpage
  rcases Paging.Executes.cases hsize h with rfl | ⟨rfl, hoffset⟩ | ⟨rfl, total, htotal, hbefore⟩
  · exact List.forall_mem_nil _
  · exact List.forall_mem_cons.2 ⟨.inl hlimit,
      List.forall_mem_singleton.2 (.inl (Word64.holds_of_le hstart hoffset))⟩
  · exact List.forall_mem_cons.2 ⟨.inl hlimit,
      List.forall_mem_singleton.2 (.inr ⟨limit, total, rfl, htotal, hbefore⟩)⟩

/-- Of the integers that the statements of an answer bind, those beyond 64 bits are the ones that
texts of filters become for integer columns, and offsets in results of more rows than that. The keys
of related rows always fit. -/
theorem bound_integers {params : Params} {c : Catalog} {m : Model} (hwhole : s.config.IsWhole)
    (hmost : s.config.maxPerPage.less (.whole (2 ^ 63)) = true) (hhook : s.hook = none)
    (hregistry : s.registry = .builtin) (hparams : ∀ e ∈ params, e.2.IsRaw) (hdb : db.Stores)
    (url : Option Url) :
    ∃ r, s.request (.params params) = .ok r ∧
      (s.answer session db url (Query.ofModel c m) (.params params)).result =
        Plan.build (Query.receiver s.registry) s.hook s.policy r (Query.ofModel c m) >>=
          s.respond session db url r ∧
      ∀ q, Plan.build (Query.receiver s.registry) s.hook s.policy r (Query.ofModel c m) = .ok q →
        (∃ run, s.Executes session db r q run) ∧
        (∀ run, s.Executes session db r q run → ∀ d w, run.written d q.statement = .ok w →
          ∀ n, Word64.holds n = false → ((∃ p ∈ w.params, p.2.Carries n) ↔
            (∃ e ∈ Plan.coerced s.policy r, (Query.ofModel c m).Gives n e) ∨
            ∃ limit total, run = .rows limit n ∧ q.statement.count db = .ok total ∧
              n < total)) ∧
        ∀ counted limit offset rs total,
          q.statement.page db counted limit offset = .ok (rs, total) →
          ∀ result ∈ rs, ∀ row, result.row = some row →
          ∀ origin, Record.LooksFrom q.catalog db q.model row q.relationTree origin →
          ∀ column n, origin.cell column = .int n → Word64.holds n = true := by
  obtain ⟨least, most, first, hl⟩ := hwhole.hasLimits
  obtain ⟨page, limit, hr, -⟩ := ListRequest.ofParams_within hl hwhole params
  have hgreatest : most ≤ Word64.greatest := by
    rw [Quantity.less_of_int? hl.maxPerPage (b := .whole (2 ^ 63)) rfl, decide_eq_true_eq] at hmost
    unfold Word64.greatest
    omega
  refine ⟨_, hr, answer_result url hr, fun q hq => ⟨?_, ?_, ?_⟩⟩
  · obtain ⟨-, size, hsize, -⟩ := page_within hl (ListRequest.readAs s.config params page limit)
    exact Paging.exists_executes _ _ hsize _
  · intro run hrun d w hw n hn
    have hvalues := Run.written_values hw
    have hbound {v : Value} (hv : v ∈ q.statement.operands ++ run.limits.map .int) :
        ∃ p ∈ w.params, p.2 = v := List.mem_map.1 (hvalues ▸ hv)
    rw [hhook, hregistry] at hq
    rw [← Plan.operands_carry (ListRequest.isFilter_filtersOf hparams) hq]
    constructor
    · rintro ⟨p, hp, hcarries⟩
      have hmem : p.2 ∈ w.params.map (·.2) := List.mem_map_of_mem hp
      rw [hvalues] at hmem
      rcases List.mem_append.1 hmem with hoperand | hlimit
      · exact .inl ⟨p.2, hoperand, hcarries⟩
      · obtain ⟨l, hl', hp'⟩ := List.mem_map.1 hlimit
        rw [← hp'] at hcarries
        cases hcarries
        refine .inr ((hrun.limits hl hgreatest n hl').resolve_left ?_)
        rw [hn]
        exact Bool.false_ne_true
    · rintro (⟨v, hv, hcarries⟩ | ⟨size, total, rfl, -, -⟩)
      · obtain ⟨p, hp, rfl⟩ := hbound (List.mem_append_left _ hv)
        exact ⟨p, hp, hcarries⟩
      · have hoffset : .int n ∈ (Run.rows size n).limits.map Value.int :=
          List.mem_map_of_mem (List.mem_cons_of_mem _ List.mem_cons_self)
        obtain ⟨p, hp, hpn⟩ := hbound (List.mem_append_right _ hoffset)
        exact ⟨p, hp, hpn ▸ .int⟩
  · intro counted limit offset rs total hpage result hresult row hrow origin horigin column n hn
    have hstored := Statement.page_stored hpage hresult hrow
    rcases horigin.stored with rfl | ⟨table, horigin⟩
    · exact hdb.cell hstored hn
    · exact hdb.cell horigin hn

def census : Service := { policy := Plan.byAge }

def elder : Database := { tables := [(Plan.people.table, [[("age", .int 120)]])] }

theorem elder_stores : elder.Stores := by
  unfold Database.Stores elder
  simp only [List.forall_mem_singleton]
  rintro n ⟨⟩
  decide

/-- An age of two to the power of 63 is bound. -/
theorem bound_integers_age :
    (Config.ofArguments .config [] = .ok census.config ∧ census.config.IsWhole ∧
      census.config.maxPerPage.less (.whole (2 ^ 63)) = true ∧ census.hook = none ∧
      census.registry = .builtin ∧
      (∀ e ∈ [("age", Value.text "9223372036854775808")], e.2.IsRaw) ∧ elder.Stores) ∧
    Word64.holds 9223372036854775808 = false ∧
    ∃ q run, Plan.build (Query.receiver .builtin) none Plan.byAge
        (Plan.ageRequest "9223372036854775808") (Query.ofModel { models := [] } Plan.people) =
          .ok q ∧
      census.Executes ⟨none, none⟩ elder (Plan.ageRequest "9223372036854775808") q run ∧
      ∀ d w, run.written d q.statement = .ok w →
        ∃ p ∈ w.params, p.2.Carries 9223372036854775808 := by
  have hconfig : Config.ofArguments .config [] = .ok census.config := rfl
  have hwhole : census.config.IsWhole := ⟨rfl, rfl, rfl, rfl⟩
  have hmost : census.config.maxPerPage.less (.whole (2 ^ 63)) = true := by decide
  have hraw : ∀ e ∈ [("age", Value.text "9223372036854775808")], e.2.IsRaw :=
    List.forall_mem_singleton.2 trivial
  have hlarge : Word64.holds 9223372036854775808 = false := by decide
  obtain ⟨r, hr, -, hall⟩ := @bound_integers census ⟨none, none⟩ elder _ { models := [] }
    Plan.people hwhole hmost rfl rfl hraw elder_stores none
  have hread : census.request (.params [("age", .text "9223372036854775808")]) =
      .ok (Plan.ageRequest "9223372036854775808") := rfl
  obtain rfl := Except.ok.inj (hread.symm.trans hr)
  obtain ⟨q, hq⟩ : ∃ q, Plan.build (Query.receiver .builtin) none Plan.byAge
      (Plan.ageRequest "9223372036854775808") (Query.ofModel { models := [] } Plan.people) =
        .ok q := exists_ok_of_isOk (by decide +kernel)
  obtain ⟨⟨run, hrun⟩, hbinds, -⟩ := hall q hq
  have hcoerced : ("age", "9223372036854775808") ∈
      Plan.coerced Plan.byAge (Plan.ageRequest "9223372036854775808") :=
    List.mem_singleton_self _
  have hgives : (Query.ofModel { models := [] } Plan.people).Gives 9223372036854775808
      ("age", "9223372036854775808") := by
    refine ⟨rfl, ?_⟩
    have hinteger : Numeral.readInteger? "9223372036854775808".toList =
        some 9223372036854775808 := by decide +kernel
    unfold Coercion.toInteger
    rw [hinteger]
  exact ⟨⟨hconfig, hwhole, hmost, rfl, rfl, hraw, elder_stores⟩, hlarge, q, run, hq, hrun,
    fun d w hw => (hbinds run hrun d w hw _ hlarge).2 (.inl ⟨_, hcoerced, hgives⟩)⟩

end Service

end Listing
