import Mathlib.Data.Option.Basic
import Listing.Proofs.KeyedEntries
import Listing.Proofs.RequestReading

set_option autoImplicit false

/-!
# Contributions to filters

Every parameter contributes to one field at most: a value by itself, or an operand of an operator.
The filter of a field is made of its contributions alone. Without operators it is the plain value;
else it holds the last operand of each operator, a plain value counting for equality.
-/

namespace Listing.ListRequest

open Value

/-! ## Contributions -/

/-- A parameter that filters take up: its key is not reserved and no column search, and it has a
value. -/
structure IsTaken (key : String) (v : Value) : Prop where
  notReserved : key ∉ reservedKeys
  notSearch : ∀ field, ¬ IsSearchKey key field
  notEmpty : v ≠ .text "" ∧ v ≠ .list []

/-- The plain value of a text or of a list of texts: of a list the items with content, one alone
standing for itself. -/
inductive IsPlainValue : Value → Value → Prop
  | text {s : String} : s ≠ "" → IsPlainValue (.text s) (.text s)
  | one {items : List Value} {v : Value} :
      items.filter (!·.isEmpty) = [v] → IsPlainValue (.list items) v
  | several {items : List Value} : 2 ≤ (items.filter (!·.isEmpty)).length →
      IsPlainValue (.list items) (.list (items.filter (!·.isEmpty)))

/-- What a parameter contributes to a field: an operand of an operator, or a plain value. -/
inductive Contributes : String × Value → String → Option FilterOperator → Value → Prop
  | operand {key field : String} {o : FilterOperator} {v : Value} :
      IsTaken key v → IsOperatorKey key field o → Contributes (key, v) field (some o) v
  | plain {key : String} {v w : Value} :
      IsTaken key v → (∀ field o, ¬ IsOperatorKey key field o) → IsPlainValue v w →
        Contributes (key, v) key none w

def Says (e : String × Value) (field : String) (o : FilterOperator) (v : Value) : Prop :=
  Contributes e field (some o) v ∨ (o = .eq ∧ Contributes e field none v)

/-- The value is what the last parameter says that says something about a field and an operator. -/
def IsLast (params : Params) (field : String) (o : FilterOperator) (v : Value) : Prop :=
  ∃ before e after, params = before ++ e :: after ∧ Says e field o v ∧
    ∀ e' ∈ after, ∀ w, ¬ Says e' field o w

structure Collects (params filters : Params) : Prop where
  keys : (filters.map (·.1)).Nodup
  present : ∀ field, (filters.lookup? field).isSome ↔
    ∃ e ∈ params, ∃ o v, Contributes e field o v
  operands : ∀ field, (∃ e ∈ params, ∃ o v, Contributes e field (some o) v) →
    ∃ entries, filters.lookup? field = some (.map entries) ∧ IsOperatorMap entries ∧
      ∀ o v, operand? entries o = some v ↔ IsLast params field o v
  plain : ∀ field, (∀ e ∈ params, ∀ o v, ¬ Contributes e field (some o) v) →
    ∀ v, filters.lookup? field = some v ↔ ∃ e ∈ params, Contributes e field none v

/-! ## Taking up parameters one by one -/

structure Contribution where
  field : String
  operator? : Option FilterOperator
  value : Value

namespace Contribution

def operator (c : Contribution) : FilterOperator := c.operator?.getD .eq

def onto (c : Contribution) (filter : Option Value) : Value :=
  match c.operator?, filter with
  | some o, filter => .map (Entries.insert (operatorMap filter) (.text o.word) c.value)
  | none, some (.map entries) => .map (Entries.insert entries eqKey c.value)
  | none, _ => c.value

def all (cs : List Contribution) : Option Value :=
  cs.foldl (fun filter c => some (c.onto filter)) none

end Contribution

def contribution? (e : String × Value) : Option Contribution :=
  if !isFilterKey e.1 || e.2.isEmpty then none
  else
    match operatorKey? e.1 with
    | some (field, o) => some ⟨field, some o, e.2⟩
    | none => (plainValue? e.2).map (⟨e.1, none, ·⟩)

theorem addFilter_eq (filters : Params) (e : String × Value) :
    addFilter filters e =
      match contribution? e with
      | none => filters
      | some c => filters.insert c.field (c.onto (filters.lookup? c.field)) := by
  unfold addFilter contribution?
  split_ifs with hskipped
  · rfl
  · cases operatorKey? e.1 with
    | some p => rfl
    | none =>
      cases plainValue? e.2 with
      | none => rfl
      | some v =>
        dsimp only [Option.map_some, Contribution.onto]
        split <;> simp [*]

/-! ## Reading contributions -/

theorem isFilterKey_iff {key : String} :
    isFilterKey key = true ↔ key ∉ reservedKeys ∧ ∀ field, ¬ IsSearchKey key field := by
  unfold isFilterKey
  rw [Bool.and_eq_true, Bool.not_eq_true', ← Bool.not_eq_true, List.contains_iff_mem,
    Option.isNone_iff_eq_none, Option.eq_none_iff_forall_ne_some]
  simp only [ne_eq, columnSearchAlias?_eq_some_iff]

theorem isEmpty_iff_of_isRaw {v : Value} (h : v.IsRaw) :
    v.isEmpty = true ↔ v = .text "" ∨ v = .list [] := by
  cases v with
  | text s => simp [isEmpty]
  | list items => simp [isEmpty]
  | _ => exact h.elim

theorem isTaken_iff {key : String} {v : Value} (h : v.IsRaw) :
    (!isFilterKey key || v.isEmpty) = false ↔ IsTaken key v := by
  rw [Bool.or_eq_false_iff, Bool.not_eq_false', isFilterKey_iff, ← Bool.not_eq_true,
    isEmpty_iff_of_isRaw h, not_or]
  exact ⟨fun ⟨⟨hkey, hsearch⟩, hempty⟩ => ⟨hkey, hsearch, hempty⟩,
    fun h => ⟨⟨h.notReserved, h.notSearch⟩, h.notEmpty⟩⟩

theorem plainValue?_eq_some_iff {v w : Value} (h : v.IsRaw) (hne : v ≠ .text "") :
    plainValue? v = some w ↔ IsPlainValue v w := by
  cases v with
  | text s =>
    have hs : s ≠ "" := by simpa using hne
    constructor
    · rintro ⟨⟩
      exact .text hs
    · rintro ⟨⟩
      rfl
  | list items =>
    unfold plainValue?
    dsimp only
    constructor
    · intro hw
      split at hw
      · cases hw
      · rename_i x hone
        cases hw
        exact .one hone
      · rename_i hnone hone
        cases hw
        refine .several (Nat.lt_of_not_le fun hfew => ?_)
        rcases Nat.le_one_iff_eq_zero_or_eq_one.1 hfew with hlength | hlength
        · exact hnone (List.length_eq_zero_iff.1 hlength)
        · obtain ⟨x, hx⟩ := List.length_eq_one_iff.1 hlength
          exact hone x hx
    · intro hw
      cases hw with
      | one hone => rw [hone]
      | several hmany =>
        split
        · rename_i hnone
          simp [hnone] at hmany
        · rename_i x hone
          simp [hone] at hmany
        · rfl
  | _ => exact h.elim

theorem contribution?_eq_some_iff {e : String × Value} (h : e.2.IsRaw) {field : String}
    {operator? : Option FilterOperator} {w : Value} :
    contribution? e = some ⟨field, operator?, w⟩ ↔ Contributes e field operator? w := by
  obtain ⟨key, v⟩ := e
  unfold contribution?
  dsimp only
  constructor
  · intro hc
    split_ifs at hc with hskipped
    have htaken : IsTaken key v := (isTaken_iff h).1 (Bool.eq_false_iff.2 hskipped)
    cases hkey : operatorKey? key with
    | some p =>
      rw [hkey] at hc
      cases hc
      exact .operand htaken (operatorKey?_eq_some_iff.1 hkey)
    | none =>
      rw [hkey] at hc
      obtain ⟨w', hw, heq⟩ := Option.map_eq_some_iff.1 hc
      cases heq
      exact .plain htaken (operatorKey?_eq_none_iff.1 hkey)
        ((plainValue?_eq_some_iff h htaken.notEmpty.1).1 hw)
  · rintro (⟨htaken, hkey⟩ | ⟨htaken, hkey, hplain⟩)
    · rw [(isTaken_iff h).2 htaken, operatorKey?_eq_some_iff.2 hkey]
      rfl
    · rw [(isTaken_iff h).2 htaken, operatorKey?_eq_none_iff.2 hkey,
        (plainValue?_eq_some_iff h htaken.notEmpty.1).2 hplain]
      rfl

theorem Contributes.key {e : String × Value} {field : String} {v : Value}
    (h : Contributes e field none v) : e.1 = field := by
  cases h
  rfl

/-! ## Filters by field -/

def contributionsTo (params : Params) (field : String) : List Contribution :=
  (params.filterMap contribution?).filter (·.field = field)

theorem lookup?_addFilter (filters : Params) (e : String × Value) (field : String) :
    (addFilter filters e).lookup? field =
      ((contribution? e).filter (·.field = field)).elim (filters.lookup? field)
        fun c => some (c.onto (filters.lookup? field)) := by
  rw [addFilter_eq]
  cases contribution? e with
  | none => rfl
  | some c =>
    by_cases hfield : c.field = field
    · subst hfield
      simp [Option.filter, Entries.lookup?_insert]
    · simp [Option.filter, hfield, Entries.lookup?_insert, Ne.symm hfield]

theorem contributionsTo_concat (params : Params) (e : String × Value) (field : String) :
    contributionsTo (params ++ [e]) field =
      contributionsTo params field ++ ((contribution? e).filter (·.field = field)).toList := by
  unfold contributionsTo
  rw [List.filterMap_append, List.filter_append]
  cases hc : contribution? e with
  | none => simp [hc]
  | some c => by_cases hfield : c.field = field <;> simp [hc, hfield, Option.filter]

theorem Contribution.all_concat (cs : List Contribution) (c : Contribution) :
    all (cs ++ [c]) = some (c.onto (all cs)) := by
  simp [all]

theorem filtersOf_concat (params : Params) (e : String × Value) :
    filtersOf (params ++ [e]) = addFilter (filtersOf params) e := by
  simp [filtersOf]

/-- The filter of a field is made of what is contributed to the field. -/
theorem lookup?_filtersOf (params : Params) (field : String) :
    (filtersOf params).lookup? field = Contribution.all (contributionsTo params field) := by
  -- Filters are collected from the left, so the induction takes the last parameter off.
  induction params using List.reverseRecOn with
  | nil => rfl
  | append_singleton params e ih =>
    rw [filtersOf_concat, lookup?_addFilter, contributionsTo_concat, ih]
    cases (contribution? e).filter (·.field = field) with
    | none => simp
    | some c => exact (Contribution.all_concat _ c).symm

theorem nodup_filtersOf (params : Params) : ((filtersOf params).map (·.1)).Nodup := by
  induction params using List.reverseRecOn with
  | nil => exact List.nodup_nil
  | append_singleton params e ih =>
    rw [filtersOf_concat, addFilter_eq]
    cases contribution? e with
    | none => exact ih
    | some c => exact Entries.nodup_insert ih fun hnew hkey =>
        Bool.eq_false_iff.1 hnew (Entries.any_key_iff.2 hkey)

/-! ## Filters of one field -/

namespace Contribution

variable {c : Contribution} {cs : List Contribution}

theorem operatorMap_onto (hraw : c.value.IsRaw) (filter : Option Value) :
    operatorMap (some (c.onto filter)) =
      Entries.insert (operatorMap filter) (.text c.operator.word) c.value := by
  obtain ⟨field, operator?, v⟩ := c
  have hplain : operatorMap (some v) = [(eqKey, v)] := by
    cases v with
    | map entries => exact hraw.elim
    | _ => rfl
  cases operator? with
  | some o => rfl
  | none =>
    cases filter with
    | none => exact hplain
    | some w =>
      cases w with
      | map entries => rfl
      | _ => exact hplain.trans insert_only.symm

theorem operatorMap_all (hraw : ∀ c ∈ cs, c.value.IsRaw) :
    operatorMap (all cs) = ofOperands (cs.map fun c => (c.operator, c.value)) := by
  induction cs using List.reverseRecOn with
  | nil => rfl
  | append_singleton cs c ih =>
    rw [all_concat, operatorMap_onto (hraw c (by simp)),
      ih fun c' hc' => hraw c' (List.mem_append_left _ hc'), List.map_append]
    exact (ofOperands_concat _ (c.operator, c.value)).symm

theorem all_map (h : ∃ c ∈ cs, ∃ o, c.operator? = some o) :
    ∃ entries, all cs = some (.map entries) := by
  induction cs using List.reverseRecOn with
  | nil => simp at h
  | append_singleton cs c ih =>
    obtain ⟨field, operator?, v⟩ := c
    rw [all_concat]
    cases operator? with
    | some o => exact ⟨_, rfl⟩
    | none =>
      obtain ⟨c', hc', o, ho⟩ := h
      rcases List.mem_append.1 hc' with hc' | hc'
      · obtain ⟨entries, hentries⟩ := ih ⟨c', hc', o, ho⟩
        rw [hentries]
        exact ⟨_, rfl⟩
      · rw [List.mem_singleton.1 hc'] at ho
        cases ho

theorem all_plain (hraw : ∀ c ∈ cs, c.value.IsRaw) (h : ∀ c ∈ cs, c.operator? = none) :
    all cs = cs.getLast?.map (·.value) := by
  induction cs using List.reverseRecOn with
  | nil => rfl
  | append_singleton cs c ih =>
    have hbefore := ih (fun c' hc' => hraw c' (List.mem_append_left _ hc'))
      fun c' hc' => h c' (List.mem_append_left _ hc')
    have hplain : c.operator? = none := h c (by simp)
    rw [all_concat, hbefore, List.getLast?_concat, Option.map_some]
    unfold onto
    rw [hplain]
    split
    · rename_i hsome
      cases hsome
    · rename_i hlast
      obtain ⟨c', hc', hvalue⟩ := Option.map_eq_some_iff.1 hlast
      have hmap := hraw c' (List.mem_append_left _ (List.mem_of_getLast? hc'))
      rw [hvalue] at hmap
      exact hmap.elim
    · rfl

end Contribution

/-! ## Contributions in order -/

section Raw

variable {params : Params} {field : String} {o : FilterOperator} {v : Value}

theorem mem_contributionsTo (hraw : ∀ e ∈ params, e.2.IsRaw) {c : Contribution} :
    c ∈ contributionsTo params field ↔
      c.field = field ∧ ∃ e ∈ params, Contributes e field c.operator? c.value := by
  obtain ⟨field', operator?, v⟩ := c
  simp only [contributionsTo, List.mem_filter, List.mem_filterMap, decide_eq_true_eq]
  constructor
  · rintro ⟨⟨e, he, hc⟩, rfl⟩
    exact ⟨rfl, e, he, (contribution?_eq_some_iff (hraw e he)).1 hc⟩
  · rintro ⟨rfl, e, he, hc⟩
    exact ⟨⟨e, he, (contribution?_eq_some_iff (hraw e he)).2 hc⟩, rfl⟩

def said? (field : String) (o : FilterOperator) (e : String × Value) : Option Value :=
  ((contribution? e).filter fun c => c.field = field ∧ c.operator = o).map (·.value)

theorem says_iff {e : String × Value} (h : e.2.IsRaw) :
    Says e field o v ↔ said? field o e = some v := by
  unfold Says said?
  rw [← contribution?_eq_some_iff h, ← contribution?_eq_some_iff h]
  constructor
  · rintro (hc | ⟨rfl, hc⟩) <;> simp [hc, Contribution.operator]
  · intro hv
    obtain ⟨⟨field', o', v'⟩, hc, rfl⟩ := Option.map_eq_some_iff.1 hv
    obtain ⟨hread, hsame⟩ := Option.filter_eq_some_iff.1 hc
    obtain ⟨rfl, rfl⟩ := of_decide_eq_true hsame
    cases o' with
    | none => exact .inr ⟨rfl, hread⟩
    | some o => exact .inl hread

theorem isLast_iff (hraw : ∀ e ∈ params, e.2.IsRaw) :
    IsLast params field o v ↔ (params.filterMap (said? field o)).getLast? = some v := by
  rw [List.getLast?_filterMap, List.findSome?_eq_some_iff]
  constructor
  · rintro ⟨before, e, after, rfl, hsaid, hsilent⟩
    refine ⟨after.reverse, e, before.reverse, by simp, ?_, fun e' he' => ?_⟩
    · exact (says_iff (hraw e (by simp))).1 hsaid
    · have hmem := List.mem_reverse.1 he'
      rw [Option.eq_none_iff_forall_ne_some]
      intro w hw
      exact hsilent e' hmem w ((says_iff (hraw e' (by simp [hmem]))).2 hw)
  · rintro ⟨after, e, before, hparams, hsaid, hsilent⟩
    have hsplit : params = before.reverse ++ e :: after.reverse := by
      rw [← List.reverse_reverse params, hparams]
      simp
    subst hsplit
    refine ⟨before.reverse, e, after.reverse, rfl, (says_iff (hraw e (by simp))).2 hsaid, ?_⟩
    intro e' he' w hw
    have hmem := List.mem_reverse.1 he'
    rw [says_iff (hraw e' (by simp [hmem])), hsilent e' hmem] at hw
    cases hw

theorem operand?_contributionsTo (params : Params) (field : String) (o : FilterOperator) :
    operand? (ofOperands ((contributionsTo params field).map fun c => (c.operator, c.value))) o =
      (params.filterMap (said? field o)).getLast? := by
  rw [operand?_ofOperands]
  congr 1
  unfold contributionsTo
  induction params with
  | nil => rfl
  | cons e params ih =>
    rw [List.filterMap_cons, List.filterMap_cons]
    unfold said? at ih ⊢
    cases hc : contribution? e with
    | none => simpa using ih
    | some c =>
      by_cases hfield : c.field = field <;> by_cases ho : c.operator = o <;>
        simpa [hfield, ho, Option.filter] using ih

/-! ## Collecting -/

theorem value_isRaw {e : String × Value} {c : Contribution} (h : e.2.IsRaw)
    (hc : contribution? e = some c) : c.value.IsRaw := by
  unfold contribution? at hc
  split_ifs at hc
  cases hkey : operatorKey? e.1 with
  | some p =>
    rw [hkey] at hc
    cases hc
    exact h
  | none =>
    rw [hkey] at hc
    obtain ⟨w, hw, rfl⟩ := Option.map_eq_some_iff.1 hc
    exact isRaw_plainValue h hw

theorem contributionsTo_isRaw (hraw : ∀ e ∈ params, e.2.IsRaw) :
    ∀ c ∈ contributionsTo params field, c.value.IsRaw := by
  intro c hc
  obtain ⟨e, he, hc⟩ := List.mem_filterMap.1 (List.mem_of_mem_filter hc)
  exact value_isRaw (hraw e he) hc

theorem lookup?_isSome_iff (hraw : ∀ e ∈ params, e.2.IsRaw) :
    ((filtersOf params).lookup? field).isSome ↔ ∃ e ∈ params, ∃ o v, Contributes e field o v := by
  have hall (cs : List Contribution) : (Contribution.all cs).isSome ↔ ∃ c, c ∈ cs := by
    cases cs using List.reverseRecOn with
    | nil => simp [Contribution.all]
    | append_singleton cs c => simp [Contribution.all_concat]
  rw [lookup?_filtersOf, hall]
  constructor
  · rintro ⟨c, hc⟩
    obtain ⟨-, e, he, hcontributes⟩ := (mem_contributionsTo hraw).1 hc
    exact ⟨e, he, _, _, hcontributes⟩
  · rintro ⟨e, he, o, v, hc⟩
    exact ⟨⟨field, o, v⟩, (mem_contributionsTo hraw).2 ⟨rfl, e, he, hc⟩⟩

theorem lookup?_operands (hraw : ∀ e ∈ params, e.2.IsRaw)
    (h : ∃ e ∈ params, ∃ o v, Contributes e field (some o) v) :
    ∃ entries, (filtersOf params).lookup? field = some (.map entries) ∧ IsOperatorMap entries ∧
      ∀ o v, operand? entries o = some v ↔ IsLast params field o v := by
  have hoperator : ∃ c ∈ contributionsTo params field, ∃ o, c.operator? = some o := by
    obtain ⟨e, he, o, v, hc⟩ := h
    exact ⟨⟨field, some o, v⟩, (mem_contributionsTo hraw).2 ⟨rfl, e, he, hc⟩, o, rfl⟩
  obtain ⟨entries, hentries⟩ := Contribution.all_map hoperator
  have hvalues : ∀ c ∈ contributionsTo params field, c.value.IsRaw := contributionsTo_isRaw hraw
  have hoperands := Contribution.operatorMap_all hvalues
  rw [hentries] at hoperands
  change entries = _ at hoperands
  refine ⟨entries, (lookup?_filtersOf params field).trans hentries, ?_, fun o v => ?_⟩
  · exact hoperands ▸ isOperatorMap_ofOperands _
  · rw [isLast_iff hraw, ← operand?_contributionsTo, ← hoperands]

theorem lookup?_plain (hkeys : (params.map (·.1)).Nodup) (hraw : ∀ e ∈ params, e.2.IsRaw)
    (h : ∀ e ∈ params, ∀ o v, ¬ Contributes e field (some o) v) (v : Value) :
    (filtersOf params).lookup? field = some v ↔ ∃ e ∈ params, Contributes e field none v := by
  have hplain : ∀ c ∈ contributionsTo params field, c.operator? = none := by
    intro c hc
    obtain ⟨-, e, he, hcontributes⟩ := (mem_contributionsTo hraw).1 hc
    cases ho : c.operator? with
    | none => rfl
    | some o => exact absurd (ho ▸ hcontributes) (h e he o c.value)
  rw [lookup?_filtersOf, Contribution.all_plain (contributionsTo_isRaw hraw) hplain]
  -- All plain values come from the one key, so the last contribution is the only one.
  have hread {c : Contribution} (hc : (contributionsTo params field).getLast? = some c) :
      ∃ e ∈ params, Contributes e field none c.value := by
    have hmem := List.mem_of_getLast? hc
    obtain ⟨-, e, he, hcontributes⟩ := (mem_contributionsTo hraw).1 hmem
    exact ⟨e, he, hplain c hmem ▸ hcontributes⟩
  constructor
  · intro hlast
    obtain ⟨c, hc, rfl⟩ := Option.map_eq_some_iff.1 hlast
    exact hread hc
  · rintro ⟨e, he, hcontributes⟩
    have hmem : ⟨field, none, v⟩ ∈ contributionsTo params field :=
      (mem_contributionsTo hraw).2 ⟨rfl, e, he, hcontributes⟩
    cases hlast : (contributionsTo params field).getLast? with
    | none =>
      rw [List.getLast?_eq_none_iff.1 hlast] at hmem
      cases hmem
    | some c =>
      obtain ⟨e', he', hcontributes'⟩ := hread hlast
      have hkey : e'.1 = e.1 := by rw [hcontributes'.key, hcontributes.key]
      obtain rfl := List.inj_on_of_nodup_map hkeys he' he hkey
      have hsame := ((contribution?_eq_some_iff (hraw _ he)).2 hcontributes').symm.trans
        ((contribution?_eq_some_iff (hraw _ he)).2 hcontributes)
      cases hsame
      rfl

/-- Filters are made of what the parameters contribute. -/
theorem collects_filtersOf (hkeys : (params.map (·.1)).Nodup) (hraw : ∀ e ∈ params, e.2.IsRaw) :
    Collects params (filtersOf params) where
  keys := nodup_filtersOf params
  present _ := lookup?_isSome_iff hraw
  operands _ h := lookup?_operands hraw h
  plain _ h := lookup?_plain hkeys hraw h

end Raw

end Listing.ListRequest
